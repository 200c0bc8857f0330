import SingleFlight.Proofs.Closing
import SingleFlight.Proofs.Sessions
import SingleFlight.Proofs.Sources

/-!
# Where outcomes come from

With a pool or without one, an outcome that is about to go to its callback was the output of its flight. A thread that
ran the flight stored it there, after its function had ended with it, or a worker completed the flight when its run had
broken down.
-/

namespace SingleFlight

open Scheduler

variable [Payloads]

/-- The call runs a flight or is about to give its outcome away. -/
def Call.isBearer : Call → Bool
  | .running _ _ => true
  | .delivering _ _ => true
  | _ => false

theorem RunStep.mem_calls {next : RunStep} {n : Nat} {x : Call} (h : x ∈ next.calls n) :
    (∃ stage, next = .stay stage ∧ x = .running n stage) ∨ x = .taking n := by
  cases next with
  | stay stage => exact .inl ⟨stage, rfl, List.mem_singleton.mp h⟩
  | returned => exact .inr (List.mem_singleton.mp h)
  | panicked => cases h

namespace Scheduler

/-! ## The rules -/

/-- `Bears s act c x`: the step `act` gives the thread `c` the call `x`, which runs a flight or gives its outcome away. -/
inductive Bears (s : Scheduler) : SchedulerAct → Caller → Call → Prop
  | inlined {c id input} : Bears s (.apply c id input) c (.running s.flights.length .starting)
  | ran {c refusal n stage rest f g next events x} : s.callsOf c = .running n stage :: rest → s.flights[n]? = some f →
      Running s c n f stage g next events → x ∈ next.calls n → Bears s (.advance c refusal) c x
  | answered {c answer n input token f r rest} : s.callsOf c = .running n (.invoking input token) :: rest →
      s.flights[n]? = some f → s.registration? f.action = some r →
      Bears s (.reply c answer) c (.running n (.settling token (Flight.caught (r.outcome answer))))
  | collected {c refusal n f outcome rest} : s.callsOf c = .finishing n :: rest → s.flights[n]? = some f →
      s.flightOf? f.action = some n → f.output = some outcome → Bears s (.advance c refusal) c (.delivering n outcome)
  | took {c refusal n f outcome rest} : s.callsOf c = .taking n :: rest → s.flights[n]? = some f →
      f.output = some outcome → Bears s (.advance c refusal) c (.delivering n outcome)

/-- The thread has the flight at this stage of its run. -/
inductive Runs (s : Scheduler) (n : Nat) (stage : RunStage) : Caller → Prop
  | worker {w p} : s.pool = some p → p.phase? w = some (.working n (.running stage)) → Runs s n stage (.worker w)
  | inline {c} : .running n stage ∈ s.callsOf c → Runs s n stage c

/-- `Settles s n token act c o`: the step `act` ends an invocation of the flight with an outcome. -/
inductive Settles (s : Scheduler) (n : Nat) (token : Token) : SchedulerAct → Caller → Outcome → Prop
  | mistyped {c refusal f r copy failure} : s.flights[n]? = some f → f.input.copy = .ok copy →
      s.registration? f.action = some r → r.callInput copy = .error failure →
      Settles s n token (.advance c refusal) c (.error failure)
  | answered {c answer input f r} : s.inside? c = some (n, input, token) → s.flights[n]? = some f →
      s.registration? f.action = some r → Settles s n token (.reply c answer) c (Flight.caught (r.outcome answer))

/-- `Fills s n o`: the flight gets its output. -/
inductive Fills (s : Scheduler) (n : Nat) : Outcome → Prop
  | stored {c f token o} : s.Runs n (.settling token o) c → s.flights[n]? = some f →
      f.signal.interrupted = true ∨ f.signal.generation = token.started → Fills s n o
  | failed {w p panic message} : s.pool = some p → p.phase? w = some (.worked n panic (.failing message)) →
      Fills s n (.error (.panicked message))

variable {s s' : Scheduler} {p q : Pool Nat WorkStage} {act : SchedulerAct} {c d : Caller} {n m w : Nat} {f g : Flight}
  {x : Call} {a b : WorkerPhase Nat WorkStage} {token : Token} {o : Outcome} {events : List SchedulerEvent}
  {P : ActionId → Payload → Prop}

/-! ## Calls -/

theorem Turn.bears {cs cs' : List Call} (h : Turn s act c cs cs' events) (hcs : s.callsOf c = cs) (hx : x ∈ cs')
    (hb : x.isBearer = true) : x ∈ cs ∨ Bears s act c x := by
  cases h with
  | requested | sent | received | landed =>
      rcases List.mem_cons.mp hx with rfl | hx
      · cases hb
      · exact .inl hx
  | found | notified =>
      rcases List.mem_cons.mp hx with rfl | hx
      · cases hb
      · exact .inl (List.mem_cons_of_mem _ hx)
  | answered hf hr =>
      rcases List.mem_cons.mp hx with rfl | hx
      · exact .inr (.answered hcs hf hr)
      · exact .inl (List.mem_cons_of_mem _ hx)
  | _ => exact .inl (List.mem_cons_of_mem _ hx)

theorem Move.bears (hm : Move s act s' events) (hx : x ∈ s'.callsOf d) (hb : x.isBearer = true) :
    x ∈ s.callsOf d ∨ Bears s act d x := by
  -- the thread `c` goes on with `cs`, each of which it had, gets or does not run anything with
  have hset {u : Scheduler} {c : Caller} {cs : List Call} (hu : u.calls = s.calls)
      (hcs : x ∈ cs → x ∈ s.callsOf c ∨ Bears s act c x) (hx : x ∈ (u.setCalls c cs).callsOf d) :
      x ∈ s.callsOf d ∨ Bears s act d x := by
    rw [callsOf_setCalls] at hx
    split at hx
    · rename_i e; subst e; exact hcs hx
    · rw [callsOf_congr hu] at hx; exact .inl hx
  have hrest {c : Caller} {y : Call} {rest : List Call} (hc : s.callsOf c = y :: rest) (hx : x ∈ rest) :
      x ∈ s.callsOf c ∨ Bears s act c x := .inl (hc ▸ List.mem_cons_of_mem _ hx)
  have hcons {c : Caller} {y : Call} {cs : List Call} (hy : y.isBearer = true → Bears s act c y)
      (hcs : x ∈ cs → x ∈ s.callsOf c ∨ Bears s act c x) (hx : x ∈ y :: cs) : x ∈ s.callsOf c ∨ Bears s act c x := by
    rcases List.mem_cons.mp hx with rfl | hx
    · exact .inr (hy hb)
    · exact hcs hx
  cases hm with
  | turned ht => exact hset rfl (fun hx => ht.bears rfl hx hb) hx
  | launched hc | rearmed hc => exact hset rfl (hcons (by simp [Call.isBearer]) (hrest hc)) hx
  | superseded hc | submitted hc => exact hset rfl (hrest hc) hx
  | collected hc hf hn _ ho => exact hset rfl (hcons (fun _ => .collected hc hf hn ho) (hrest hc)) hx
  | inlined => exact hset rfl (hcons (fun _ => .inlined) .inl) hx
  | ranInline hc hf hr =>
      refine hset rfl (fun hx => ?_) hx
      rcases List.mem_append.mp hx with hx | hx
      · exact .inr (.ran hc hf hr hx)
      · exact hrest hc hx
  | took hc hf _ ho => exact hset rfl (hcons (fun _ => .took hc hf ho) (hrest hc)) hx
  | shut => exact hset rfl (hcons (by simp [Call.isBearer]) .inl) hx
  | _ => exact .inl hx

/-- An outcome that is about to go to its callback was the output of its flight, and with a pool the scheduler was
open. -/
theorem Move.hands (hm : Move s act s' events) (h : s.Sane ∨ s.Inline) (hx : .delivering n o ∈ s'.callsOf c) :
    .delivering n o ∈ s.callsOf c ∨ ∃ f, s.flights[n]? = some f ∧ f.output = some o ∧
      (s.isSynchronous = true ∨ s.isClosed = false) := by
  rcases hm.bears hx rfl with hx | hx
  · exact .inl hx
  · cases hx with
    | ran _ _ _ hx => rcases RunStep.mem_calls hx with ⟨_, -, e⟩ | e <;> cases e
    | collected _ hf hin ho =>
        refine .inr ⟨_, hf, ho, ?_⟩
        rcases h with hs | hi
        · cases hc : s.isClosed with
          | false => exact .inr rfl
          | true =>
              have hmem := mem_of_flightOf? hin
              rw [hs.charted.emptied hc] at hmem; cases hmem
        · exact .inl hi.poolless
    | took hcs hf ho =>
        refine .inr ⟨_, hf, ho, .inl ?_⟩
        rcases h with hs | hi
        · cases hs.regular.orderly.suited hs.pooled hcs
        · exact hi.poolless

/-! ## Workers -/

/-- A worker comes to a phase inside of its task by its own labour. -/
theorem Move.works (hm : Move s act s' events) (h : s.Sane) (hq : s'.pool = some q) (hw : q.phase? w = some b)
    (hb : b.isEngaged = true) :
    ∃ p, s.pool = some p ∧ (p.phase? w = some b ∨ ∃ n f g a, s.callsOf (.worker w) = [] ∧ p.phase? w = some a ∧
      s.flights[n]? = some f ∧ Labour s w (p.workerName w) n f act a g b events) := by
  obtain ⟨p, hp⟩ := exists_pool h.pooled
  refine ⟨p, hp, ?_⟩
  rcases hm.labour_or_undisturbed h hp with ⟨v, n, f, g, a, b', hcs, hv, hf, hl, rfl⟩ | ⟨q', hq', hund, -⟩
  · cases hq
    by_cases e : w = v
    · subst e
      cases (Pool.phase?_setPhase_self hv).symm.trans hw
      exact .inr ⟨n, f, g, a, hcs, hv, hf, hl⟩
    · rw [Pool.phase?_setPhase_ne e] at hw
      exact .inl hw
  · cases hq.symm.trans hq'
    exact .inl ((hund.phase hb).mp hw)

/-- A run breaks down when its flight cannot start another invocation. -/
theorem Move.breaks {panic : Option String} {message : String} (hm : Move s act s' events) (h : s.Sane)
    (hq : s'.pool = some q) (hw : q.phase? w = some (.worked n panic (WorkStage.failing message))) :
    (∃ p, s.pool = some p ∧ p.phase? w = some (.worked n panic (WorkStage.failing message))) ∨
      ∃ f, s.flights[n]? = some f ∧ f.start.2 = .panicked message := by
  obtain ⟨p, hp, hw | ⟨m, f, g, a, -, -, hf, hl⟩⟩ := hm.works h hq hw rfl
  · exact .inl ⟨p, hp, hw⟩
  · generalize hb : WorkerPhase.worked n panic (WorkStage.failing message) = b at hl
    cases hl with
    | ran hr =>
        cases hr with
        | exhausted hc hl => cases hb; exact .inr ⟨f, hf, by simp [Flight.start, hc, hl]⟩
        | uncopied hc hl hcopy =>
            cases hb; exact .inr ⟨f, hf, by simp [Flight.start, hc, Nat.not_le_of_lt hl, hcopy]⟩
        | _ => cases hb
    | _ => cases hb

/-! ## Runs -/

theorem Running.settles {stage : RunStage} {next : RunStep} {refusal : Option IoError}
    (h : Running s c n f stage g next events) (hf : s.flights[n]? = some f) (hn : next = .stay (.settling token o)) :
    Settles s n token (.advance c refusal) c o := by
  cases h with
  | mistyped _ _ hcopy hr hcall => cases hn; exact .mistyped hf hcopy hr hcall
  | _ => cases hn

theorem Move.settles (hm : Move s act s' events) (h : s.Sane ∨ s.Inline) (hr : s'.Runs n (.settling token o) c) :
    s.Runs n (.settling token o) c ∨ Settles s n token act c o := by
  cases hr with
  | @worker w q hq hw =>
      rcases h with hs | hi
      · obtain ⟨p, hp, hw | ⟨m, f, g, a, hcs, ha, hf, hl⟩⟩ := hm.works hs hq hw rfl
        · exact .inl (.worker hp hw)
        · right
          generalize hb : WorkerPhase.working n (WorkStage.running (.settling token o)) = b at hl
          cases hl with
          | @ran _ _ _ next _ hr =>
              cases next with
              | stay => cases hb; exact hr.settles hf rfl
              | returned | panicked => cases hb
          | @answered answer input token r hr =>
              cases hb
              exact .answered (by simp only [inside?, hcs, hp, Option.bind_some, ha]; rfl) hf hr
          | _ => cases hb
      · exact ((hm.inline hi).no_pool hq).elim
  | inline hx =>
      rcases hm.bears hx rfl with hx | hx
      · exact .inl (.inline hx)
      · cases hx with
        | ran _ hf hr hx =>
            rcases RunStep.mem_calls hx with ⟨_, rfl, e⟩ | e
            · cases e; exact .inr (hr.settles hf rfl)
            · cases e
        | answered hcs hf hr => exact .inr (.answered (by simp only [inside?, hcs]; rfl) hf hr)

/-! ## Outputs -/

theorem Running.fills {stage : RunStage} {next : RunStep} (h : Running s c n f stage g next events)
    (hat : s.Runs n stage c) (hf : s.flights[n]? = some f) (ho : g.output = some o) :
    f.output = some o ∨ s.Fills n o := by
  cases h with
  | stored _ hg => cases ho; exact .inr (.stored hat hf hg)
  | _ => exact .inl ho

theorem Labour.fills {name : String} (h : Labour s w name n f act a g b events) (hp : s.pool = some p)
    (hw : p.phase? w = some a) (hf : s.flights[n]? = some f) (ho : g.output = some o) :
    f.output = some o ∨ s.Fills n o := by
  cases h with
  | ran hr => exact hr.fills (.worker hp hw) hf ho
  | failed =>
      unfold Flight.fail at ho
      split at ho
      · cases ho; exact .inr (.failed hp hw)
      · exact .inl ho
  | unbound =>
      unfold Flight.unbind at ho
      split at ho <;> exact .inl ho
  | _ => exact .inl ho

theorem Move.fills (hm : Move s act s' events) (hg : s'.flights[n]? = some g) (ho : g.output = some o) :
    (∃ f, s.flights[n]? = some f ∧ f.output = some o) ∨ s.Fills n o := by
  have hset {u : Scheduler} {m : Nat} {f k : Flight} (hm : s.flights[m]? = some f)
      (hu : u.flights = (s.setFlight m k).flights) (hk : k.output = some o → f.output = some o ∨ s.Fills m o)
      (hg : u.flights[n]? = some g) : (∃ f, s.flights[n]? = some f ∧ f.output = some o) ∨ s.Fills n o := by
    rw [hu, flights_setFlight hm] at hg
    split at hg
    · rename_i e; subst e
      cases hg
      exact (hk ho).imp_left fun ho => ⟨f, hm, ho⟩
    · exact .inl ⟨g, hg, ho⟩
  have hconcat {u : Scheduler} {r : Registration} {input : Payload}
      (hu : u.flights = s.flights ++ [Flight.of r input]) (hg : u.flights[n]? = some g) :
      (∃ f, s.flights[n]? = some f ∧ f.output = some o) ∨ s.Fills n o := by
    rw [hu, flights_concat] at hg
    split at hg
    · cases hg; cases ho
    · exact .inl ⟨g, hg, ho⟩
  have hmodify {u : Scheduler} {m : Nat} (change : Flight → Flight) (hu : u.flights = s.flights.modify m change)
      (hc : ∀ f, (change f).output = some o → f.output = some o) (hg : u.flights[n]? = some g) :
      (∃ f, s.flights[n]? = some f ∧ f.output = some o) ∨ s.Fills n o := by
    rw [hu, List.getElem?_modify] at hg
    obtain ⟨f, hf, rfl⟩ := Option.map_eq_some_iff.mp hg
    refine .inl ⟨f, hf, ?_⟩
    split at ho
    · exact hc f ho
    · exact ho
  cases hm with
  | launched | inlined => exact hconcat rfl hg
  | @superseded _ _ _ input f _ _ hf => exact hset (k := f.renewed input) hf rfl .inl hg
  | rearmed _ hf | collected _ hf | took _ hf => exact hset hf rfl (fun ho => by cases ho) hg
  | ranInline hcs hf hr => exact hset hf rfl (hr.fills (.inline (hcs ▸ List.mem_cons_self)) hf) hg
  | worked _ hp hw hf hl => exact hset hf rfl (hl.fills hp hw hf) hg
  | warned | alarmed => exact hmodify Flight.interrupt rfl (fun _ ho => ho) hg
  | gaveUp => exact hmodify Flight.close rfl (fun _ ho => by cases ho) hg
  | _ => exact .inl ⟨g, hg, ho⟩

/-! ## Inputs -/

/-- A function is called with the input of its flight. -/
theorem Running.called_input {stage : RunStage} {next : RunStep} {id : ActionId} {input : Payload}
    (h : Running s c m f stage g next events) (hf : s.flights[m]? = some f) (he : .called d n id input token ∈ events) :
    ∃ f r copy, s.flights[n]? = some f ∧ f.action = id ∧ s.registration? id = some r ∧ f.input.copy = .ok copy ∧
      r.callInput copy = .ok input := by
  cases h with
  | called _ _ hcopy hr hcall =>
      cases List.mem_singleton.mp he
      exact ⟨f, _, _, hf, rfl, hr, hcopy, hcall⟩
  | _ => simp at he

theorem Move.called_input {id : ActionId} {input : Payload} (hm : Move s act s' events)
    (he : .called d n id input token ∈ events) :
    ∃ f r copy, s.flights[n]? = some f ∧ f.action = id ∧ s.registration? id = some r ∧ f.input.copy = .ok copy ∧
      r.callInput copy = .ok input := by
  cases hm with
  | @turned _ c =>
      rename_i ht
      generalize s.callsOf c = cs at ht
      cases ht <;> simp at he
  | submitted =>
      rcases List.mem_append.mp he with he | he
      · simp at he
      · cases submissionAnswer_plain he
  | ranInline _ hf hr =>
      rcases List.mem_append.mp he with he | he
      · exact hr.called_input hf he
      · unfold RunStep.faults at he
        split at he <;> simp at he
  | worked _ _ _ hf hl =>
      cases hl with
      | ran hr =>
          rcases List.mem_append.mp he with he | he
          · exact hr.called_input hf he
          · unfold RunStep.panics at he
            split at he <;> simp at he
      | _ => simp at he
  | _ => simp at he

theorem Move.fed_inline (hm : Move s act s' events) (h : s.Inline) (hb : s.Brings P act) (hf : s.Fed P) : s'.Fed P where
  calls c x hx := by
    have hsuits := ((hm.orderly h.orderly) c).suits x hx
    rw [(hm.inline h).poolless] at hsuits
    cases x with
    | posting | applying | offering => simp [Call.suits] at hsuits
    | _ => trivial
  flights n k hk := by
    have hsuits {c : Caller} {x : Call} {rest : List Call} (hcs : s.callsOf c = x :: rest) : x.suits true c = true :=
      h.orderly.suited h.poolless hcs
    cases hm with
    | launched hcs | superseded hcs | rearmed hcs | collected hcs => cases hsuits hcs
    | @inlined c id input r _ _ hr ha =>
        have hid : r.id = id := h.numbered id.index r hr
        exact flights_append hf (hid ▸ hb.requested c id input r rfl hr ha) rfl n k hk
    | ranInline _ hm hr =>
        refine flights_set hf hm ?_ rfl n k hk
        rw [hr.persists.action, hr.input]
        exact hf.flights _ _ hm
    | @took _ _ m f _ _ _ hm => exact flights_set (g := f.landed) hf hm (by exact hf.flights m f hm) rfl n k hk
    | worked _ hp | warned _ hp | alarmed _ _ _ hp => exact (h.no_pool hp).elim
    | gaveUp _ hclosing hs => rw [h.closing _ hclosing] at hs; simp at hs
    | _ => exact hf.flights n k hk

/-! ## What comes of outcomes -/

/-- Whether outcomes that are stored may still go to their callbacks. -/
def IsLive (s : Scheduler) : Prop := s.isSynchronous = true ∨ s.isClosed = false

theorem Keeps.live (h : Keeps s s') (hlive : s'.IsLive) : s.IsLive :=
  hlive.imp h.synchronous.symm.trans h.opened

/-- The outcomes that are about to go to their callbacks, or may still do so, have the property. -/
structure Yields (s : Scheduler) (Q : Nat → Outcome → Prop) : Prop where
  stored : s.IsLive → ∀ (n : Nat) (f : Flight) o, s.flights[n]? = some f → f.output = some o → Q n o
  given : ∀ c n o, .delivering n o ∈ s.callsOf c → Q n o

theorem Yields.mono {Q R : Nat → Outcome → Prop} (h : s.Yields Q) (hqr : ∀ n o, Q n o → R n o) : s.Yields R :=
  ⟨fun hlive n f o hf ho => hqr n o (h.stored hlive n f o hf ho), fun c n o hx => hqr n o (h.given c n o hx)⟩

theorem Move.yields {Q : Nat → Outcome → Prop} (hm : Move s act s' events) (h : s.Sane ∨ s.Inline)
    (hfills : s.IsLive → ∀ n o, s.Fills n o → Q n o) (hy : s.Yields Q) : s'.Yields Q where
  stored hlive n g o hg ho := by
    have hlived := hm.keeps.live hlive
    rcases hm.fills hg ho with ⟨f, hf, ho⟩ | hfill
    · exact hy.stored hlived n f o hf ho
    · exact hfills hlived n o hfill
  given c n o hx := by
    rcases hm.hands h hx with hx | ⟨f, hf, ho, hlive⟩
    · exact hy.given c n o hx
    · exact hy.stored hlive n f o hf ho

end Scheduler

/-! ## Whole runs -/

namespace System

variable {start sys sys' : System} {history : List Moment} {act : SystemAct} {events : List SchedulerEvent}
  {P : ActionId → Payload → Prop}

/-- A plan was opened, and nothing was asked of its scheduler yet. -/
def IsOpened (start : System) : Prop :=
  ∃ (p : Plan) (identity tag : String) (processors : Nat) (s : Scheduler),
    Numbered p.registrations ∧ p.opening identity tag processors = .opened s ∧ start = { scheduler := s }

theorem Run.reachable (h : Run start history sys) (hstart : start.IsOpened) : Reachable history sys := by
  obtain ⟨p, identity, tag, processors, s, hp, hopen, rfl⟩ := hstart
  exact ⟨p, identity, tag, processors, s, hp, hopen, h⟩

theorem Reachable.opened (h : Reachable [] sys) : sys.IsOpened := by
  obtain ⟨p, identity, tag, processors, s, hp, hopen, hrun⟩ := h
  cases hrun
  exact ⟨p, identity, tag, processors, s, hp, hopen, rfl⟩

theorem IsOpened.begins (h : start.IsOpened) : start.Begins := by
  obtain ⟨p, identity, tag, processors, s, hp, hopen, rfl⟩ := h
  exact .of_opening hp hopen

theorem Reachable.sane_or_inline (h : Reachable history sys) : sys.scheduler.Sane ∨ sys.scheduler.Inline := by
  cases hsync : sys.scheduler.isSynchronous with
  | false => exact .inl (h.sane hsync)
  | true => exact .inr (h.inline hsync)

theorem Reachable.fed_inline (h : Reachable history sys) (hsync : sys.scheduler.isSynchronous = true)
    (hreq : Requests history P sys.scheduler.registrations) : sys.scheduler.Fed P := by
  refine h.invariant (P := fun history sys => sys.scheduler.isSynchronous = true →
    Requests history P sys.scheduler.registrations → sys.scheduler.Fed P) ?_ ?_ hsync hreq
  · intro sys hb _ _
    refine ⟨fun c x hx => ?_, fun n f hf => ?_⟩
    · rw [hb.callsOf] at hx; cases hx
    · simp [hb.flights] at hf
  · intro history sys act sys' events hreach ih hs hsync hreq
    have hinline := hreach.inline ((step_synchronous hs).symm.trans hsync)
    rw [step_registrations hs] at hreq
    have hfed := ih hinline.poolless fun m hm => hreq m (List.mem_cons_of_mem _ hm)
    rcases step_cases hs with ⟨rfl, rfl, rfl⟩ | ⟨a, loop, rfl, -, hm, -⟩
    · exact hfed
    · refine hm.fed_inline hinline ⟨fun c id input r e hr ha => ?_, ?_⟩ hfed
      · exact hreq _ List.mem_cons_self c id input r (congrArg _ e) hr ha
      · rintro id input rfl
        obtain ⟨loop, -, h⟩ := Option.bind_eq_some_iff.mp hs
        simp [Scheduler.step, hinline.poolless] at h

/-- With a pool or without one, what holds of all requests holds of all flights. -/
theorem Reachable.fed_flights (h : Reachable history sys) (hreq : Requests history P sys.scheduler.registrations) :
    ∀ (n : Nat) (f : Flight), sys.scheduler.flights[n]? = some f → P f.action f.input := by
  cases hsync : sys.scheduler.isSynchronous with
  | false => exact (h.fed hsync hreq).1.flights
  | true => exact (h.fed_inline hsync hreq).flights

/-- What holds of all outcomes that flights get, and goes on to hold, holds of all that go to their callbacks. -/
theorem Run.yields {Q : List Moment → System → Nat → Outcome → Prop} (h : Run start history sys) (hstart : start.IsOpened)
    (hfills : ∀ {history sys}, Run start history sys → sys.scheduler.IsLive → ∀ n o, sys.scheduler.Fills n o →
      Q history sys n o)
    (hkeep : ∀ {history sys act sys' events}, Run start history sys → sys.step act = some (sys', events) →
      ∀ n o, Q history sys n o → Q ({ act, events } :: history) sys' n o) :
    sys.scheduler.Yields (Q history sys) := by
  induction h with
  | start =>
      have hb := hstart.begins
      refine ⟨fun _ n f o hf => ?_, fun c n o hx => ?_⟩
      · simp [hb.flights] at hf
      · rw [hb.callsOf] at hx; cases hx
  | step hrun hs ih =>
      rename_i history sys act sys' events
      refine Yields.mono ?_ (hkeep hrun hs)
      rcases step_cases hs with ⟨rfl, rfl, rfl⟩ | ⟨a, loop, rfl, -, hm, -⟩
      · exact ih
      · exact hm.yields (hrun.reachable hstart).sane_or_inline (hfills hrun) ih

end System

end SingleFlight
