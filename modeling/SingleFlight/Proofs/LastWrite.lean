import SingleFlight.Proofs.Acceptance
import SingleFlight.Proofs.Scheduler.Invocations

/-!
# The last write wins

With a pool, the outcome that goes to the callback of a flight is the one of an invocation that was started with
the newest input of the flight, whatever inputs came while it was queued, invoked, completed or handed back. Only a
flight that was invoked as often as can be counted breaks down instead.
-/

namespace SingleFlight

open Scheduler

namespace System

section

variable [Payloads] {sys sys' : System} {act : SystemAct} {history since : List Moment} {moment : Moment}
  {events : List SchedulerEvent} {n w : Nat} {id : ActionId} {f g : Flight} {input : Payload} {token : Token}

/-! ## Invocations in a history -/

/-- At some time the flight called its function on the worker, with a copy of its newest input; all that happened
since. -/
def Invoked (history : List Moment) (w n : Nat) (input : Payload) (token : Token) (since : List Moment) : Prop :=
  ∃ call before id given, history = since ++ call :: before ∧ .called (.worker w) n id given token ∈ call.events ∧
    newest n before = some input ∧ input.copy = .ok given

/-- The first reply of the worker's function was the answer. -/
def Answered (w : Nat) (answer : Reply) (since : List Moment) : Prop :=
  ∃ later reply during, since = later ++ reply :: during ∧ reply.act = .thread (.reply (.worker w) answer) ∧
    ∀ m ∈ during, ∀ other, m.act ≠ .thread (.reply (.worker w) other)

/-- The outcome is the one of an invocation that was started with the newest input of the flight. -/
def FromNewest (r : Registration) (history : List Moment) (n : Nat) (o : Outcome) : Prop :=
  ∃ w input token since answer, Invoked history w n input token since ∧ newest n history = some input ∧
    inputCount n since = 0 ∧ Answered w answer since ∧ o = Flight.caught (r.outcome answer)

/-- The outcome says that the flight used up all its attempts. -/
def Exhausted (f : Flight) (o : Outcome) : Prop :=
  o = .error (.panicked Flight.attemptOverflow) ∧ Flight.attemptLimit ≤ f.attempts + 1

/-- No request had an input that cannot be copied. -/
def Copyable (history : List Moment) : Prop :=
  ∀ moment ∈ history, ∀ c id input, moment.act = .thread (.apply c id input) → ∃ copy, input.copy = .ok copy

/-- Less than `2 ^ 64` newer inputs came in the course of any invocation. -/
def FewInputs (history : List Moment) : Prop :=
  ∀ later since call before w n id input token, history = later ++ (since ++ call :: before) →
    .called (.worker w) n id input token ∈ call.events → (∀ m ∈ since, ∀ e ∈ m.events, e.endsRun n = false) →
      inputCount n since < UInt64.size

theorem Invoked.later (h : Invoked history w n input token since) (m : Moment) :
    Invoked (m :: history) w n input token (m :: since) := by
  obtain ⟨call, before, id, given, rfl, hcall, hnew⟩ := h
  exact ⟨call, before, id, given, rfl, hcall, hnew⟩

theorem Answered.later {answer : Reply} (h : Answered w answer since) (m : Moment) : Answered w answer (m :: since) := by
  obtain ⟨later, reply, during, rfl, hact, hfirst⟩ := h
  exact ⟨m :: later, reply, during, rfl, hact, hfirst⟩

theorem newest_later (h : inputs n moment.events = []) : newest n (moment :: history) = newest n history := by
  simp [newest, h]

theorem inputCount_later (h : inputs n moment.events = []) :
    inputCount n (moment :: history) = inputCount n history := by
  simp [inputCount, h]

theorem FromNewest.later {r : Registration} {o : Outcome} (h : FromNewest r history n o)
    (hin : inputs n moment.events = []) : FromNewest r (moment :: history) n o := by
  obtain ⟨w, input, token, since, answer, hinv, hnew, hcount, hans, ho⟩ := h
  exact ⟨w, input, token, moment :: since, answer, hinv.later moment, (newest_later hin).trans hnew,
    (inputCount_later hin).trans hcount, hans.later moment, ho⟩

theorem FromNewest.answered {r : Registration} {o : Outcome} (h : FromNewest r history n o) :
    ∃ moment ∈ history, ∃ c answer, moment.act = .thread (.reply c answer) ∧ o = Flight.caught (r.outcome answer) := by
  obtain ⟨w, input, token, since, answer, ⟨call, before, id, given, rfl, -⟩, -, -,
    ⟨later, reply, during, rfl, hact, -⟩, ho⟩ := h
  exact ⟨reply, by simp, _, answer, hact, ho⟩

/-! ## Invocations under way -/

/-- The flight is in an invocation with this token, and its generation counts the inputs since. -/
structure InCourse (history : List Moment) (f : Flight) (w n : Nat) (token : Token) (since : List Moment) : Prop where
  invoked : ∃ input, Invoked history w n input token since ∧
    (inputCount n since = 0 → newest n history = some input)
  unended : ∀ m ∈ since, ∀ e ∈ m.events, e.endsRun n = false
  counted : f.signal.generation = token.started + UInt64.ofNat (inputCount n since)

/-- What the history says of a worker inside of an invocation of the flight. -/
def Underway (s : Scheduler) (history : List Moment) (f : Flight) (w n : Nat) : WorkerPhase Nat WorkStage → Prop
  | .working _ (.running (.invoking _ token)) => ∃ since, InCourse history f w n token since ∧
      ∀ m ∈ since, ∀ answer, m.act ≠ .thread (.reply (.worker w) answer)
  | .working _ (.running (.settling token outcome)) => ∃ since answer r, InCourse history f w n token since ∧
      Answered w answer since ∧ s.registration? f.action = some r ∧ outcome = Flight.caught (r.outcome answer)
  | .worked _ _ (.failing message) => Exhausted f (.error (.panicked message))
  | _ => True

/-- The outcome may be given away for the flight. -/
def Rightful (s : Scheduler) (history : List Moment) (n : Nat) (o : Outcome) : Prop :=
  ∃ f r, s.flights[n]? = some f ∧ s.registration? f.action = some r ∧ (FromNewest r history n o ∨ Exhausted f o)

/-- What a history says of invocations and their outcomes. -/
structure Tracks (history : List Moment) (sys : System) : Prop where
  underway : ∀ w p n a, sys.scheduler.pool = some p → p.phase? w = some a → a.isInside n = true →
    ∃ f, sys.scheduler.flights[n]? = some f ∧ Underway sys.scheduler history f w n a
  stored : sys.scheduler.isClosed = false → ∀ (n : Nat) (f : Flight), sys.scheduler.flights[n]? = some f →
    f.phase = .completed → ∃ o, f.output = some o ∧ Rightful sys.scheduler history n o
  taken : ∀ n o, .delivering n o ∈ sys.scheduler.callsOf .owner → Rightful sys.scheduler history n o

theorem Begins.tracks (hb : sys.Begins) : Tracks [] sys := by
  have hf (n : Nat) : sys.scheduler.flights[n]? = none := by simp [hb.flights]
  refine ⟨fun w p n a hp hw ha => ?_, fun _ n f hn => ?_, fun n o hx => ?_⟩
  · rcases hb.pool with hnone | ⟨name, settings, hsome⟩
    · cases hp.symm.trans hnone
    · cases hp.symm.trans hsome
      simp [Pool.create, Pool.phase?] at hw
  · rw [hf] at hn; cases hn
  · simp [Scheduler.callsOf, hb.calls] at hx

/-! ## What goes on -/

theorem InCourse.later {s : Scheduler} (h : InCourse history f w n token since)
    (hc : Course s n moment.events (some f) (some g)) (hends : ∀ e ∈ moment.events, e.endsRun n = false) :
    InCourse (moment :: history) g w n token (moment :: since) := by
  obtain ⟨input, hinv, hnew⟩ := h.invoked
  refine ⟨⟨input, hinv.later moment, fun hzero => ?_⟩, ?_, ?_⟩
  · have hsince : inputCount n since + (inputs n moment.events).length = 0 := hzero
    rw [newest_later (List.length_eq_zero_iff.mp (by omega))]
    exact hnew (by omega)
  · intro m hm
    rcases List.mem_cons.mp hm with rfl | hm
    · exact hends
    · exact h.unended m hm
  · rw [hc.generation, h.counted, UInt64.add_assoc, ← UInt64.ofNat_add]
    rfl

theorem InCourse.of_called {s : Scheduler} {copy : Payload} (hnew : newest n history = some f.input)
    (hcopy : f.input.copy = .ok copy)
    (hc : Course s n [.called (.worker w) n f.action copy ⟨f.signal.generation⟩] (some f) (some g)) :
    InCourse ({ act, events := [.called (.worker w) n f.action copy ⟨f.signal.generation⟩] } :: history) g w n
      ⟨f.signal.generation⟩ [] where
  invoked := ⟨f.input, ⟨_, history, f.action, copy, rfl, List.mem_singleton.mpr rfl, hnew, hcopy⟩,
    fun _ => by rw [newest_later rfl, hnew]⟩
  unended := by simp
  counted := hc.generation

/-- An invocation whose token started with the generation of the flight got no newer input. -/
theorem InCourse.unsuperseded (h : InCourse history f w n token since) (hfew : FewInputs history)
    (hgen : f.signal.generation = token.started) : inputCount n since = 0 := by
  have hlt : inputCount n since < UInt64.size := by
    obtain ⟨_, ⟨call, before, id, _, rfl, hcall, -⟩, -⟩ := h.invoked
    exact hfew [] since call before w n id _ token rfl hcall h.unended
  exact (Signal.counted_eq_iff hlt).mp (h.counted.symm.trans hgen)

theorem Exhausted.later {o : Outcome} (h : Exhausted f o) (ha : f.attempts ≤ g.attempts) : Exhausted g o :=
  ⟨h.1, Nat.le_trans h.2 (Nat.succ_le_succ ha)⟩

theorem Underway.later {s s' : Scheduler} {a : WorkerPhase Nat WorkStage} (h : Underway s history f w n a)
    (hc : Course s n moment.events (some f) (some g)) (hact : g.action = f.action)
    (hregs : s'.registrations = s.registrations)
    (hreply : ∀ answer, moment.act ≠ .thread (.reply (.worker w) answer))
    (hends : ∀ e ∈ moment.events, e.endsRun n = false) : Underway s' (moment :: history) g w n a := by
  unfold Underway at h ⊢
  split at h
  · obtain ⟨since, hcourse, hno⟩ := h
    refine ⟨moment :: since, hcourse.later hc hends, fun m hm => ?_⟩
    rcases List.mem_cons.mp hm with rfl | hm
    · exact hreply
    · exact hno m hm
  · obtain ⟨since, answer, r, hcourse, hans, hr, ho⟩ := h
    refine ⟨moment :: since, answer, r, hcourse.later hc hends, hans.later moment, ?_, ho⟩
    rw [hact, registration?, hregs]; exact hr
  · exact h.later hc.attempts
  · trivial

theorem Rightful.later {s s' : Scheduler} {o : Outcome} (h : Rightful s history n o)
    (hin : inputs n moment.events = []) (hregs : s'.registrations = s.registrations)
    (hf : ∀ f, s.flights[n]? = some f → ∃ g, s'.flights[n]? = some g ∧ g.action = f.action ∧ f.attempts ≤ g.attempts) :
    Rightful s' (moment :: history) n o := by
  obtain ⟨f, r, hn, hr, h⟩ := h
  obtain ⟨g, hg, hact, ha⟩ := hf f hn
  refine ⟨g, r, hg, ?_, h.imp (·.later hin) (·.later ha)⟩
  rw [hact, registration?, hregs]; exact hr

/-! ## Moves -/

section
variable {a : SchedulerAct} {o : Outcome}

/-- The input can be copied, and the action accepts it. -/
def Usable (registrations : List Registration) (id : ActionId) (input : Payload) : Prop :=
  (∃ copy, input.copy = .ok copy) ∧ ∃ r, registrations[id.index]? = some r ∧ r.accepts input = true

theorem Usable.callInput {s : Scheduler} {copy : Payload} {r : Registration} (h : Usable s.registrations id input)
    (hcopy : input.copy = .ok copy) (hr : s.registration? id = some r) : r.callInput copy = .ok copy := by
  obtain ⟨-, r', hr', ha⟩ := h
  cases hr'.symm.trans hr
  exact Registration.callInput_of_accepts (Payload.copied_of_copy hcopy ▸ Registration.accepts_copied ha)

theorem Rightful.move (h : Rightful sys.scheduler history n o) (hs : sys.scheduler.Sane)
    (hm : Move sys.scheduler a sys'.scheduler events) (hin : inputs n events = []) :
    Rightful sys'.scheduler ({ act := .thread a, events } :: history) n o := by
  refine h.later hin hm.keeps.registrations fun f hf => ?_
  obtain ⟨g, hg, hp⟩ := hm.persists hf
  have hc := hm.course hs n
  rw [hf, hg] at hc
  exact ⟨g, hg, hp.action, hc.attempts⟩

theorem Tracks.underway_move {q : Pool Nat WorkStage} {b : WorkerPhase Nat WorkStage} (h : Tracks history sys)
    (hreach : Reachable history sys) (hs : sys.scheduler.Sane) (hfed : sys.scheduler.Fed (Usable sys.scheduler.registrations))
    (hm : Move sys.scheduler a sys'.scheduler events) (hq : sys'.scheduler.pool = some q) (hw : q.phase? w = some b)
    (hb : b.isInside n = true) :
    ∃ g, sys'.scheduler.flights[n]? = some g ∧
      Underway sys'.scheduler ({ act := .thread a, events } :: history) g w n b := by
  have honward {f : Flight} (hf : sys.scheduler.flights[n]? = some f) : ∃ g, sys'.scheduler.flights[n]? = some g ∧
      g.action = f.action ∧ Course sys.scheduler n events (some f) (some g) := by
    obtain ⟨g, hg, hp⟩ := hm.persists hf
    have hc := hm.course hs n
    rw [hf, hg] at hc
    exact ⟨g, hg, hp.action, hc⟩
  cases hm.arrives hs hq hw hb with
  | stayed hp hw hreply hends =>
      obtain ⟨f, hf, hu⟩ := h.underway w _ n b hp hw hb
      obtain ⟨g, hg, hact, hc⟩ := honward hf
      refine ⟨g, hg, hu.later hc hact hm.keeps.registrations (fun answer e => ?_) hends⟩
      cases e
      exact hreply answer rfl
  | @called _ f r copy given hf hcopy hr hcall =>
      obtain ⟨g, hg, hact, hc⟩ := honward hf
      have hgiven := (hfed.flights n f hf).callInput hcopy hr
      obtain rfl : copy = given := by cases hgiven.symm.trans hcall; rfl
      have hnew : newest n history = some f.input := by rw [hreach.newest_eq hs.pooled, hf]; rfl
      exact ⟨g, hg, [], .of_called hnew hcopy hc, nofun⟩
  | answered hp hv hf hr =>
      obtain ⟨f, hf', since, hcourse, hno⟩ := h.underway w _ n _ hp hv (by simp)
      cases hf.symm.trans hf'
      obtain ⟨g, hg, hact, hc⟩ := honward hf
      refine ⟨g, hg, _, _, _, hcourse.later hc (by simp), ⟨[], _, since, rfl, rfl, hno⟩, ?_, rfl⟩
      rw [hact, hm.keeps.registration?]; exact hr
  | mistyped hf hcopy hr hcall =>
      cases ((hfed.flights n _ hf).callInput hcopy hr).symm.trans hcall
  | exhausted hf hl =>
      obtain ⟨g, hg, -, hc⟩ := honward hf
      exact ⟨g, hg, Exhausted.later ⟨rfl, hl⟩ hc.attempts⟩
  | uncopied hf hcopy =>
      obtain ⟨copy, hok⟩ := (hfed.flights n _ hf).1
      cases hok.symm.trans hcopy

/-- An invocation that stores its outcome had the newest input. -/
theorem Tracks.stores {p : Pool Nat WorkStage} (h : Tracks history sys) (hreach : Reachable history sys)
    (hpool : sys.scheduler.isSynchronous = false) (hopen : sys.scheduler.isClosed = false)
    (hfew : FewInputs history) (hf : sys.scheduler.flights[n]? = some f) (hp : sys.scheduler.pool = some p)
    (hw : p.phase? w = some (.working n (.running (.settling token o))))
    (hgen : f.signal.interrupted = true ∨ f.signal.generation = token.started) :
    Rightful sys.scheduler history n o := by
  obtain ⟨f', hf', since, answer, r, hcourse, hans, hr, ho⟩ := h.underway w p n _ hp hw (by simp)
  cases hf.symm.trans hf'
  obtain ⟨input, hinv, hnew⟩ := hcourse.invoked
  have hzero : inputCount n since = 0 := by
    rcases hgen with hi | hgen
    · rw [hreach.calm hpool hopen hf] at hi; cases hi
    · exact hcourse.unsuperseded hfew hgen
  exact ⟨f, r, hf, hr, .inl ⟨w, input, token, since, answer, hinv, hnew hzero, hzero, hans, ho⟩⟩

theorem Tracks.stored_move (h : Tracks history sys) (hreach : Reachable history sys) (hs : sys.scheduler.Sane)
    (hfew : FewInputs history) (hm : Move sys.scheduler a sys'.scheduler events)
    (hopen : sys'.scheduler.isClosed = false) (hg : sys'.scheduler.flights[n]? = some g) (hd : g.phase = .completed) :
    ∃ o, g.output = some o ∧ Rightful sys'.scheduler ({ act := .thread a, events } :: history) n o := by
  have hopened := hm.keeps.opened hopen
  have hc := hm.course hs n
  rw [hg] at hc
  generalize hb : sys.scheduler.flights[n]? = before at hc
  -- an outcome that was stored before is still the one of the newest input
  have hkept {x : Flight} (hx : sys.scheduler.flights[n]? = some x) (hd : x.phase = .completed)
      (ho : g.output = x.output) (hin : inputs n events = []) :
      ∃ o, g.output = some o ∧ Rightful sys'.scheduler ({ act := .thread a, events } :: history) n o := by
    obtain ⟨o, hox, hr⟩ := h.stored hopened n x hx hd
    exact ⟨o, ho.trans hox, hr.move hs hm hin⟩
  cases hc with
  | started => cases hd
  | kept hin _ _ hkeep =>
      obtain ⟨hx, ho⟩ := hkeep hd
      exact hkept hb hx ho hin
  | renewed _ _ _ _ hne => exact absurd hd hne
  | stopped _ hcl => rw [hopened] at hcl; cases hcl
  | stored hin hp _ hw _ hgen => exact ⟨_, rfl, (h.stores hreach hs.pooled hopened hfew hb hp hw hgen).move hs hm hin⟩
  | @failed x w p panic message hin hp hw =>
      rcases x.fail_cases message with ⟨hne, hfail⟩ | hfail
      · obtain ⟨f, hf, hex⟩ := h.underway w p n _ hp hw (by simp)
        cases hb.symm.trans hf
        obtain ⟨-, r, -, -, -, hr, -⟩ := hs.charted.charted _ n (hs.charted.complete hopened n x hb hne)
        refine ⟨_, by rw [hfail], Rightful.move ⟨x, r, hb, hr, .inr hex⟩ hs hm hin⟩
      · exact hkept hb (hfail ▸ hd) (by rw [hfail]) hin

theorem Tracks.taken_move (h : Tracks history sys) (hs : sys.scheduler.Sane)
    (hdel : Delivering ({ act := .thread a, events } :: history) sys') (hm : Move sys.scheduler a sys'.scheduler events)
    (hx : .delivering n o ∈ sys'.scheduler.callsOf .owner) :
    Rightful sys'.scheduler ({ act := .thread a, events } :: history) n o := by
  have hin : inputs n events = [] := by
    obtain ⟨g, hg, hc⟩ := hdel.taken_closed hx
    have hcourse := hm.course hs n
    rw [hg] at hcourse
    exact hcourse.closed hc
  rcases hm.takes hs hx with hx | ⟨f, hf, hd, ho, hopen⟩
  · exact (h.taken n o hx).move hs hm hin
  · obtain ⟨o', ho', hr⟩ := h.stored hopen n f hf hd
    cases ho.symm.trans ho'
    exact hr.move hs hm hin

theorem Tracks.notified {c : Caller} {kind : ActionKind} {d : Delivery} (h : Tracks history sys)
    (hs : sys.scheduler.Sane) (hm : Move sys.scheduler a sys'.scheduler events)
    (he : .notified c n id kind d ∈ events) : c = .owner ∧ ∃ f r o, sys.scheduler.flights[n]? = some f ∧
      f.action = id ∧ sys.scheduler.registration? id = some r ∧ d = r.deliver o ∧
      (FromNewest r history n o ∨ Exhausted f o) := by
  obtain ⟨hc, o, rest, f, r, hcs, hf, rfl, hr, hd⟩ := hm.tells hs he
  obtain ⟨f', r', hf', hr', hright⟩ := h.taken n o (hcs ▸ List.mem_cons_self)
  cases hf.symm.trans hf'
  cases hr.symm.trans hr'
  exact ⟨hc, f, r, o, hf, rfl, hr, hd, hright⟩

theorem Tracks.step_move (h : Tracks history sys) (hreach : Reachable history sys) (hs : sys.scheduler.Sane)
    (hfed : sys.scheduler.Fed (Usable sys.scheduler.registrations)) (hfew : FewInputs history)
    (hdel : Delivering ({ act := .thread a, events } :: history) sys')
    (hm : Move sys.scheduler a sys'.scheduler events) : Tracks ({ act := .thread a, events } :: history) sys' where
  underway _ _ _ _ hq hw hb := h.underway_move hreach hs hfed hm hq hw hb
  stored hopen _ _ hg hd := h.stored_move hreach hs hfew hm hopen hg hd
  taken _ _ hx := h.taken_move hs hdel hm hx

end

theorem Tracks.step_drop (h : Tracks history sys) :
    Tracks ({ act := .dropLoop, events := [] } :: history) { sys with loop := sys.loop.drop } := by
  have hrightful {n : Nat} {o : Outcome} (hr : Rightful sys.scheduler history n o) :
      Rightful sys.scheduler ({ act := .dropLoop, events := [] } :: history) n o :=
    hr.later rfl rfl fun f hf => ⟨f, hf, rfl, Nat.le_refl _⟩
  refine ⟨fun w p n a hp hw ha => ?_, fun hopen n f hf hd => ?_,
    fun n o hx => hrightful (h.taken n o hx)⟩
  · obtain ⟨f, hf, hu⟩ := h.underway w p n a hp hw ha
    have hc : Course sys.scheduler n [] (some f) (some f) := .kept rfl rfl rfl (fun hd => ⟨hd, rfl⟩) (Nat.le_refl _)
    exact ⟨f, hf, hu.later hc rfl rfl (by simp) (by simp)⟩
  · obtain ⟨o, ho, hr⟩ := h.stored hopen n f hf hd
    exact ⟨o, ho, hrightful hr⟩

/-! ## Whole runs -/

theorem Copyable.usable (hcopy : Copyable history) :
    Requests history (Usable sys.scheduler.registrations) sys.scheduler.registrations :=
  fun moment hm c id input r hact hr ha => ⟨hcopy moment hm c id input hact, r, hr, ha⟩

theorem FewInputs.earlier (h : FewInputs (moment :: history)) : FewInputs history := by
  rintro later since call before w n id input token rfl
  exact h (moment :: later) since call before w n id input token rfl

theorem inputCount_le (n : Nat) (history : List Moment) :
    inputCount n history ≤ (history.flatMap Moment.events).length := by
  induction history with
  | nil => exact Nat.le_refl 0
  | cons m history ih =>
      have : (inputs n m.events).length ≤ m.events.length := List.length_filterMap_le _ _
      simp only [inputCount, List.flatMap_cons, List.length_append]
      omega

theorem FewInputs.of_length (h : (history.flatMap Moment.events).length < UInt64.size) : FewInputs history := by
  rintro later since call before w n id input token rfl - -
  have := inputCount_le n since
  simp only [List.flatMap_append, List.length_append] at h
  omega

theorem Reachable.tracks (h : Reachable history sys) (hpool : sys.scheduler.isSynchronous = false)
    (hcopy : Copyable history) (hfew : FewInputs history) : Tracks history sys := by
  refine h.sane_invariant (P := fun history sys => Copyable history → FewInputs history → Tracks history sys)
    (fun _ hb _ _ => hb.tracks) ?_ hpool hcopy hfew
  intro history sys act sys' events hreach hs ih hstep hcopy hfew
  have hcopied : Copyable history := fun m hm => hcopy m (List.mem_cons_of_mem _ hm)
  have htracks := ih hcopied hfew.earlier
  have hdel := (hreach.step hstep).delivering ((step_synchronous hstep).trans hs.pooled)
  rcases step_cases hstep with ⟨rfl, rfl, rfl⟩ | ⟨a, loop, rfl, -, hm, -⟩
  · exact htracks.step_drop
  · exact htracks.step_move hreach hs (hreach.fed hs.pooled hcopied.usable).1 hfew.earlier hdel hm

/-- With a pool, as long as inputs can be copied and less than `2 ^ 64` of them come in the course of one
invocation: a flight is delivered once at most, after its last input and before another flight of its action is
started. It accepts the input that starts it, and of the requests of its action that come before its delivery those
whose inputs the newest one compares unequal to. What goes to its callback is the outcome of an invocation that was
started with its last input, unless the flight used up its attempts. -/
theorem last_write_wins (h : Reachable history sys) (hpool : sys.scheduler.isSynchronous = false)
    (hcopy : Copyable history) (hfew : FewInputs history) :
    (∀ n, deliveryCount n history ≤ 1 ∧ notificationCount n history ≤ 1) ∧
    ∀ act sys' events, sys.step act = some (sys', events) →
      (∀ n input, input ∈ inputs n events ↔
        (∃ refusal, act = .thread (.advance .owner refusal)) ∧ sys.Accepts history n input) ∧
      (∀ refusal n id input rest, act = .thread (.advance .owner refusal) → sys.scheduler.isClosed = false →
        sys.scheduler.callsOf .owner = .applying id input :: rest → WasStarted n id history →
        deliveryCount n history = 0 → sys'.scheduler.callsOf .owner = .offering n input :: rest) ∧
      (∀ m id kind input, .queued m id kind input ∈ events →
        ∀ n, WasStarted n id history → deliveryCount n history = 1) ∧
      (∀ n, inputs n events ≠ [] → deliveryCount n history = 0) ∧
      (∀ c n id kind d, .notified c n id kind d ∈ events → c = .owner ∧
        ∃ f r o, sys.scheduler.flights[n]? = some f ∧ f.action = id ∧ sys.scheduler.registration? id = some r ∧
          d = r.deliver o ∧ (FromNewest r history n o ∨ Exhausted f o)) := by
  have hs := h.sane hpool
  have hdel := h.delivering hpool
  have htracks := h.tracks hpool hcopy hfew
  refine ⟨fun n => ⟨hdel.once n, ?_⟩, fun act sys' events hstep => ?_⟩
  · have := hdel.told n
    have := hdel.once n
    omega
  · refine ⟨fun n input => h.accepts_iff hpool hstep, ?_, ?_⟩
    · rintro refusal n id input rest rfl hopen hcs hn hd
      exact h.offers hpool hopen hcs hn hd hstep
    · rcases step_cases hstep with ⟨rfl, rfl, rfl⟩ | ⟨a, loop, rfl, -, hm, -⟩
      · exact ⟨by simp, by simp [inputs], by simp⟩
      · exact ⟨fun m id kind input he n hn => hdel.separates hs hm he hn, fun n he => hdel.accepts hs hm he,
          fun c n id kind d he => htracks.notified hs hm he⟩

end

/-- A second input comes while the only worker is inside of its function, which is then called again. -/
theorem second_input_notified : ∃ history sys sys' events d, Reachable history sys ∧
    sys.scheduler.isSynchronous = false ∧ Copyable history ∧ FewInputs history ∧
    sys.step (.thread (.advance .owner none)) = some (sys', events) ∧ .notified .owner 0 ⟨0⟩ .get d ∈ events ∧
    newest 0 history = some (.string "b") ∧ ∃ r o, d = r.deliver o ∧ FromNewest r history 0 o := by
  let acts : List SystemAct :=
    [ .thread (.apply .owner ⟨0⟩ (.string "a")), .thread (.advance .owner none), .thread (.advance .owner none),
      .thread (.advance (.worker 1) none), .thread (.advance (.worker 1) none), .thread (.advance (.worker 1) none),
      .thread (.advance (.worker 1) none),
      .thread (.apply .owner ⟨0⟩ (.string "b")), .thread (.advance .owner none), .thread (.advance .owner none),
      .thread (.reply (.worker 1) (.value (some (.string "x")))), .thread (.advance (.worker 1) none),
      .thread (.advance (.worker 1) none),
      .thread (.reply (.worker 1) (.value (some (.string "y")))), .thread (.advance (.worker 1) none),
      .thread (.advance (.worker 1) none), .thread (.advance (.worker 1) none), .thread (.advance (.worker 1) none),
      .thread (.run (.handBack 0)), .thread (.advance .owner none) ]
  obtain ⟨history, sys, sys', d, hr, hpool, hinputs, hlength, hnewest, hattempts, hstep⟩ : ∃ history sys sys' d,
      replay acts [] (small true) = some (history, sys) ∧ sys.scheduler.isSynchronous = false ∧
      (history.all fun m => match m.act with
        | .thread (.apply _ _ input) => input == .string "a" || input == .string "b"
        | _ => true) = true ∧
      (history.flatMap Moment.events).length = 16 ∧ newest 0 history = some (.string "b") ∧
      (sys.scheduler.flights[0]?).map Flight.attempts = some 2 ∧
      sys.step (.thread (.advance .owner none)) = some (sys', [.notified .owner 0 ⟨0⟩ .get d]) :=
    ⟨_, _, _, _, rfl, rfl, rfl, rfl, rfl, rfl, rfl⟩
  have hreach := replay_reachable (small_reachable true) hr
  have hcopy : Copyable history := by
    intro m hm c id input hact
    have := List.all_eq_true.mp hinputs m hm
    rw [hact] at this
    rcases Bool.or_eq_true_iff.mp this with e | e
    · exact ⟨_, by rw [eq_of_beq e]; rfl⟩
    · exact ⟨_, by rw [eq_of_beq e]; rfl⟩
  have hfew : FewInputs history := .of_length (by rw [hlength]; decide)
  have hmem : .notified .owner 0 ⟨0⟩ .get d ∈ [SchedulerEvent.notified .owner 0 ⟨0⟩ .get d] := List.mem_cons_self
  obtain ⟨-, f, r, o, hf, -, -, hd, hright⟩ :=
    ((last_write_wins hreach hpool hcopy hfew).2 _ _ _ hstep).2.2.2.2 _ _ _ _ _ hmem
  refine ⟨history, sys, sys', _, d, hreach, hpool, hcopy, hfew, hstep, hmem, hnewest, r, o, hd, ?_⟩
  rcases hright with hnew | ⟨-, hex⟩
  · exact hnew
  · have hf2 : f.attempts = 2 := by simpa [hf] using hattempts
    simp [hf2, Flight.attemptLimit, UInt32.size] at hex

/-! ## A flight that uses up its attempts -/

section

/-- All inputs are texts, and so are the answers of all functions. -/
def Textual (history : List Moment) : Prop :=
  ∀ moment ∈ history, (∀ c id input, moment.act = .thread (.apply c id input) → ∃ text, input = .string text) ∧
    ∀ c answer, moment.act = .thread (.reply c answer) → ∃ text, answer = .value (some (.string text))

/-- A flight of the small system that was invoked so many times. -/
def tried (attempts : Nat) (generation : UInt64) (text : String) : Flight :=
  { action := ⟨0⟩, kind := .get, input := .string text, phase := .running, signal := { generation }
    worker := some "courier-small-worker-1", attempts }

/-- The small system with this flight in the hands of its worker. -/
def busy (calls : List Call) (f : Flight) (phase : WorkerPhase Nat WorkStage) : System where
  scheduler :=
    { (small true).scheduler with
      pool := some
        { (.create "courier-small" .serial : Pool Nat WorkStage) with
          live := 1, nextWorker := 2, running := [(1, 0)], workers := [{ id := 1, phase }] }
      flights := [f], inFlight := [(⟨0⟩, 0)], calls := [(.owner, calls)] }

/-- The worker is inside of the function. -/
def invoked (attempts : Nat) (generation : UInt64) (text : String) : System :=
  busy [] (tried attempts generation text) (.working 0 (.running (.invoking (.string text) ⟨generation⟩)))

variable {history : List Moment} {f g : Flight} {phase : WorkerPhase Nat WorkStage} {input : Payload} {token : Token}
  {o : Outcome} {attempts : Nat} {generation : UInt64} {text newer message : String}

theorem Textual.copyable (h : Textual history) : Copyable history := by
  intro moment hm c id input hact
  obtain ⟨text, rfl⟩ := (h moment hm).1 c id input hact
  exact ⟨_, rfl⟩

theorem Textual.cons {moment : Moment} (hm : ∀ c, (∀ id input, moment.act ≠ .thread (.apply c id input)) ∧
    ∀ answer, moment.act ≠ .thread (.reply c answer)) (h : Textual history) : Textual (moment :: history) :=
  List.forall_mem_cons.mpr ⟨⟨fun c id input e => absurd e ((hm c).1 id input),
    fun c answer e => absurd e ((hm c).2 answer)⟩, h⟩

theorem Textual.append {later : List Moment} (h : Textual later) (k : Textual history) : Textual (later ++ history) :=
  List.forall_mem_append.mpr ⟨h, k⟩

/-- No answer of the function of the small system is told as an overflow. -/
theorem Textual.foreign {r : Registration} (h : Textual history)
    (hr : (small true).scheduler.registration? ⟨0⟩ = some r) {moment : Moment} (hm : moment ∈ history) {c : Caller}
    {answer : Reply} (hact : moment.act = .thread (.reply c answer)) :
    Delivery.result (.error (.panicked Flight.attemptOverflow)) ≠ r.deliver (Flight.caught (r.outcome answer)) := by
  obtain ⟨text, rfl⟩ := (h moment hm).2 c answer hact
  obtain rfl := Option.some.inj hr
  nofun

theorem tried_offer (hne : text ≠ newer) : (tried attempts generation text).offer (.string newer)
    = .ok (tried attempts (generation + 1) newer, .superseded) := by
  have hcompare : (Payload.string text).compare (.string newer) = .ok (text == newer) := rfl
  rw [beq_false_of_ne hne] at hcompare
  simp only [Flight.offer, tried, hcompare]
  rfl

theorem tried_settle : (tried attempts (generation + 1) text).settle ⟨generation⟩ o
    = (tried attempts (generation + 1) text, .again) := by
  simp [Flight.settle, tried, Token.isSuperseded]

theorem tried_start (h : attempts + 1 < Flight.attemptLimit) : (tried attempts generation text).start
    = (tried (attempts + 1) generation text, .invoke (.string text) ⟨generation⟩) := by
  simp only [Flight.start, tried, Nat.not_le.mpr h]
  rfl

theorem tried_start_beyond (h : Flight.attemptLimit ≤ attempts + 1) : (tried attempts generation text).start
    = (tried attempts generation text, .panicked Flight.attemptOverflow) := by
  simp only [Flight.start, tried, h]
  rfl

theorem busy_superseded (h : f.offer input = .ok (g, .superseded)) :
    (busy [.offering 0 input] f phase).step (.thread (.advance .owner none))
      = some (busy [] g phase, [.superseded 0 f.action input g.signal.generation, .returned .owner]) := by
  refine step_jobless nofun ?_ rfl
  change ((some f).map fun f => _) = _
  rw [Option.map_some]
  simp only [h]
  rfl

theorem busy_retried (h : f.settle token o = (f, .again)) :
    (busy [] f (.working 0 (.running (.settling token o)))).step (.thread (.advance (.worker 1) none))
      = some (busy [] f (.working 0 (.running .starting)), [.retried 0 f.action token.started f.attempts]) := by
  refine step_jobless nofun ?_ rfl
  change ((some f).bind fun f => _).bind _ = _
  rw [Option.bind_some]
  simp only [h]
  rfl

theorem busy_called (h : attempts + 1 < Flight.attemptLimit) :
    (busy [] (tried attempts generation text) (.working 0 (.running .starting))).step
      (.thread (.advance (.worker 1) none)) = some (invoked (attempts + 1) generation text,
        [.called (.worker 1) 0 ⟨0⟩ (.string text) ⟨generation⟩]) := by
  refine step_jobless nofun ?_ rfl
  change ((some (tried attempts generation text)).bind fun f => _).bind _ = _
  rw [Option.bind_some]
  simp only [tried_start h]
  rfl

theorem busy_overflowed (h : f.start = (g, .panicked message)) :
    (busy [] f (.working 0 (.running .starting))).step (.thread (.advance (.worker 1) none))
      = some (busy [] g (.worked 0 (some message) (.failing message)), [.pool (.panicked 1 0 message)]) := by
  refine step_jobless nofun ?_ rfl
  change ((some f).bind fun f => _).bind _ = _
  rw [Option.bind_some]
  simp only [h]
  rfl

/-- A newer text comes while the worker is inside of the function, which is to be called again. -/
theorem Reachable.retried (h : Reachable history (invoked attempts generation text)) (hne : text ≠ newer) :
    ∃ round, Reachable (round ++ history)
        (busy [] (tried attempts (generation + 1) newer) (.working 0 (.running .starting))) ∧
      Textual round ∧ (round.flatMap Moment.events).length = 3 := by
  let flight := tried attempts generation text
  let inside : WorkerPhase Nat WorkStage := .working 0 (.running (.invoking (.string text) ⟨generation⟩))
  have hrequest : (invoked attempts generation text).step (.thread (.apply .owner ⟨0⟩ (.string newer)))
      = some (busy [.applying ⟨0⟩ (.string newer)] flight inside, []) := rfl
  have hfind : (busy [.applying ⟨0⟩ (.string newer)] flight inside).step (.thread (.advance .owner none))
      = some (busy [.offering 0 (.string newer)] flight inside, []) := rfl
  have hreply : (busy [] (tried attempts (generation + 1) newer) inside).step
      (.thread (.reply (.worker 1) (.value (some (.string text)))))
      = some (busy [] (tried attempts (generation + 1) newer)
          (.working 0 (.running (.settling ⟨generation⟩ (.ok (some (.string text)))))), []) := rfl
  have hreach := ((h.step hrequest).step hfind).step (busy_superseded (tried_offer hne))
  refine ⟨[_, _, _, _, _], (hreach.step hreply).step (busy_retried tried_settle), ?_, rfl⟩
  simpa [Textual] using ⟨⟨text, rfl⟩, newer, rfl⟩

/-- The worker of the small system comes to be inside of the function for the last time that can be counted, or for
any time before. -/
theorem invoked_reachable (attempts : Nat) (h : attempts + 1 < Flight.attemptLimit) : ∃ history generation text newer,
    Reachable history (invoked (attempts + 1) generation text) ∧ text ≠ newer ∧ Textual history ∧
      (history.flatMap Moment.events).length ≤ 4 * attempts + 8 := by
  induction attempts with
  | zero =>
      let acts : List SystemAct :=
        [ .thread (.apply .owner ⟨0⟩ (.string "a")), .thread (.advance .owner none), .thread (.advance .owner none),
          .thread (.advance (.worker 1) none), .thread (.advance (.worker 1) none),
          .thread (.advance (.worker 1) none), .thread (.advance (.worker 1) none) ]
      obtain ⟨history, hr, htexts, hlength⟩ : ∃ history, replay acts [] (small true) = some (history, invoked 1 0 "a") ∧
          Textual history ∧ (history.flatMap Moment.events).length ≤ 8 := by
        refine ⟨_, rfl, ?_, ?_⟩
        · simpa [Textual] using ⟨"a", rfl⟩
        · decide
      exact ⟨history, 0, "a", "b", replay_reachable (small_reachable true) hr, by decide, htexts, hlength⟩
  | succ attempts ih =>
      obtain ⟨history, generation, text, newer, hreach, hne, htexts, hlength⟩ := ih (by omega)
      obtain ⟨round, hreach, htexts', hlength'⟩ := hreach.retried hne
      refine ⟨_, generation + 1, newer, text, hreach.step (busy_called h), hne.symm, ?_, ?_⟩
      · exact .cons (by simp) (htexts'.append htexts)
      · simp only [List.flatMap_cons, List.flatMap_append, List.length_append, List.length_singleton]
        omega

end

/-- A newer text comes in each of the invocations that can be counted, so that the flight breaks down when its function
is to be called once more. What goes to its callback is the outcome of none of the invocations. -/
theorem exhausted_flight_notified : ∃ history sys sys' events d r, Reachable history sys ∧
    sys.scheduler.isSynchronous = false ∧ sys.loop.isClosed = false ∧ Textual history ∧ Copyable history ∧
    FewInputs history ∧ sys.step (.thread (.advance .owner none)) = some (sys', events) ∧
    .notified .owner 0 ⟨0⟩ .get d ∈ events ∧ sys.scheduler.registration? ⟨0⟩ = some r ∧
    (∀ moment ∈ history, ∀ c answer, moment.act = .thread (.reply c answer) →
      d ≠ r.deliver (Flight.caught (r.outcome answer))) ∧
    ∀ o, FromNewest r history 0 o → d ≠ r.deliver o := by
  obtain ⟨history, generation, text, newer, hreach, hne, htexts, hlength⟩ :=
    invoked_reachable (Flight.attemptLimit - 2) (by decide)
  obtain ⟨round, hreach, htexts', hlength'⟩ := hreach.retried hne
  have hreach := hreach.step (busy_overflowed (tried_start_beyond (by decide)))
  let failed : Moment :=
    { act := .thread (.advance (.worker 1) none), events := [.pool (.panicked 1 0 Flight.attemptOverflow)] }
  let acts : List SystemAct :=
    [ .thread (.advance (.worker 1) none), .thread (.advance (.worker 1) none), .thread (.advance (.worker 1) none),
      .thread (.advance (.worker 1) none), .thread (.run (.handBack 0)), .thread (.advance .owner none) ]
  obtain ⟨last, sys, sys', r, hr, htexts'', hlength'', hpool, hloop, hreg, hreg', hstep⟩ : ∃ last sys sys' r,
      replay acts (failed :: (round ++ history)) (busy [] (tried (Flight.attemptLimit - 2 + 1) (generation + 1) newer)
          (.worked 0 (some Flight.attemptOverflow) (.failing Flight.attemptOverflow)))
        = some (last ++ (round ++ history), sys) ∧
      Textual last ∧ (last.flatMap Moment.events).length = 4 ∧
      sys.scheduler.isSynchronous = false ∧ sys.loop.isClosed = false ∧
      sys.scheduler.registration? ⟨0⟩ = some r ∧ (small true).scheduler.registration? ⟨0⟩ = some r ∧
      sys.step (.thread (.advance .owner none))
        = some (sys', [.notified .owner 0 ⟨0⟩ .get (.result (.error (.panicked Flight.attemptOverflow)))]) :=
    ⟨[_, _, _, _, _, _, _], _, _, _, rfl, by simp [Textual, failed], rfl, rfl, rfl, rfl, rfl, rfl⟩
  have htextual : Textual (last ++ (round ++ history)) := htexts''.append (htexts'.append htexts)
  have hfew : FewInputs (last ++ (round ++ history)) := by
    refine .of_length ?_
    simp only [List.flatMap_append, List.length_append, hlength', hlength'']
    have : Flight.attemptLimit = 4294967296 := rfl
    have : UInt64.size = 18446744073709551616 := rfl
    omega
  refine ⟨_, sys, sys', _, _, r, replay_reachable hreach hr, hpool, hloop, htextual, htextual.copyable, hfew, hstep,
    List.mem_cons_self, hreg, fun moment hm c answer hact => htextual.foreign hreg' hm hact, fun o ho => ?_⟩
  obtain ⟨moment, hm, c, answer, hact, rfl⟩ := ho.answered
  exact htextual.foreign hreg' hm hact

end System

end SingleFlight
