import SingleFlight.Proofs.Drained
import SingleFlight.Proofs.LastWrite
import SingleFlight.Proofs.Ownership
import SingleFlight.Proofs.Recognition

/-!
# Cancellations of the engine's own

A function that sees on its token that it should stop may fail with what it saw. No callback hears of that: an invocation
that saw a newer input is retried, and one that saw an interruption ends in a closed scheduler, which delivers nothing of
its pool.
-/

namespace SingleFlight

open Scheduler

/-- What a token shows of a signal. -/
def Token.Shows (t : Token) (s : Signal) : Cancelled → Prop
  | .interrupted => s.interrupted = true
  | .superseded => t.isSuperseded s = true

theorem Token.shows_of_check {t : Token} {s : Signal} {reason : Cancelled} (h : t.check s = some reason) :
    t.Shows s reason := by
  unfold check at h
  split at h
  · rename_i hi; cases h; exact hi
  · split at h
    · rename_i hs; cases h; exact hs
    · cases h

section

variable [Payloads]

/-- The event calls the function of the flight. -/
def SchedulerEvent.calls (n : Nat) : SchedulerEvent → Bool
  | .called _ m _ _ _ => m = n
  | _ => false

/-- The failure that is delivered or dropped. -/
def Delivery.failure? : Delivery → Option Failure
  | .result (.error failure) => some failure
  | .sink failure => some failure
  | .unreported failure => some failure
  | _ => Option.none

/-- The outcome is no cancellation. -/
def IsUncancelled (o : Outcome) : Prop := ∀ reason, o ≠ .error (.cancelled reason)

theorem IsUncancelled.deliver {r : Registration} {o : Outcome} {failure : Failure} (h : IsUncancelled o)
    (hd : (r.deliver o).failure? = some failure) : failure.isCancelled = false := by
  have hof : o = .error failure ∨ ∃ chain, failure = .failed chain := by
    cases o with
    | error e =>
        left
        cases hk : r.kind <;> cases hs : r.hasSink <;>
          simp [Registration.deliver, Registration.typed, hk, hs, Delivery.failure?] at hd <;> rw [hd]
    | ok value =>
        cases hk : r.kind with
        | set | void => simp [Registration.deliver, hk, Delivery.failure?] at hd
        | get =>
            right
            cases value with
            | none => simp [Registration.deliver, Registration.typed, hk, Delivery.failure?] at hd
            | some v =>
                by_cases ht : v.type = r.output
                · simp [Registration.deliver, Registration.typed, hk, ht, Delivery.failure?] at hd
                · cases hs : r.hasSink <;>
                    simp [Registration.deliver, Registration.typed, hk, ht, hs, Delivery.failure?] at hd <;>
                    exact ⟨_, hd.symm⟩
  rcases hof with ho | ⟨chain, rfl⟩
  · cases failure with
    | cancelled reason => exact absurd ho (h reason)
    | panicked | failed => rfl
  · rfl

/-- The step ends a function with a cancellation. -/
def Moment.cancels (moment : Moment) : Bool :=
  match moment.act with
  | .thread (.reply _ (.failed chain)) => chain.cancellation?.isSome
  | _ => false

namespace Scheduler

variable {s s' : Scheduler} {p : Pool Nat WorkStage} {c : Caller} {n w : Nat} {f g : Flight} {input : Payload} {token : Token}
  {act : SchedulerAct} {events : List SchedulerEvent}

theorem runs_of_inside (h : s.inside? c = some (n, input, token)) : s.Runs n (.invoking input token) c := by
  unfold inside? at h
  split at h
  · rename_i hcs; cases h; exact .inline (hcs ▸ List.mem_cons_self)
  · split at h
    · rename_i hw
      cases h
      obtain ⟨p, hp, hw⟩ := Option.bind_eq_some_iff.mp hw
      exact .worker hp hw
    · cases h
  · cases h

/-- The answer of a worker's function is the one of the function that the worker is inside of. -/
theorem Move.inside {answer : Reply} (hm : Move s (.reply (.worker w) answer) s' events) (h : s.Sane)
    (hp : s.pool = some p) (hw : p.phase? w = some (.working n (.running (.invoking input token)))) :
    s.inside? (.worker w) = some (n, input, token) := by
  obtain ⟨v, -, -, -, -, e, hcs, -⟩ := hm.replied h
  cases e
  simp only [inside?, hcs, hp, Option.bind_some, hw]

theorem Running.signal {stage : RunStage} {next : RunStep} (h : Running s c n f stage g next events) :
    g.signal = f.signal := by
  cases h <;> rfl

/-- Without a pool nothing supersedes or interrupts a flight. -/
theorem Move.unsignalled (hm : Move s act s' events) (h : s.Inline)
    (hs : ∀ (n : Nat) (f : Flight), s.flights[n]? = some f → f.signal = {}) (n : Nat) (g : Flight)
    (hg : s'.flights[n]? = some g) : g.signal = {} := by
  have hsuits {c : Caller} {x : Call} {rest : List Call} (hcs : s.callsOf c = x :: rest) : x.suits true c = true :=
    h.orderly.suited h.poolless hcs
  have hset {u : Scheduler} {m : Nat} {f k : Flight} (hf : s.flights[m]? = some f)
      (hu : u.flights = (s.setFlight m k).flights) (hk : k.signal = f.signal) (hg : u.flights[n]? = some g) :
      g.signal = {} := by
    rw [hu, flights_setFlight hf] at hg
    split at hg
    · cases hg; exact hk.trans (hs m f hf)
    · exact hs n g hg
  cases hm with
  | launched hcs | superseded hcs | rearmed hcs | collected hcs => cases hsuits hcs
  | inlined =>
      simp only [flights_setCalls, flights_concat] at hg
      split at hg
      · cases hg; rfl
      · exact hs n g hg
  | ranInline _ hf hr => exact hset hf rfl hr.signal hg
  | @took _ _ m f _ _ _ hf => exact hset (k := f.landed) hf rfl rfl hg
  | worked _ hp | warned _ hp | alarmed _ _ _ hp => exact (h.no_pool hp).elim
  | gaveUp _ hk hs => rw [h.closing _ hk] at hs; simp at hs
  | _ => exact hs n g hg

end Scheduler

namespace System

variable {start sys sys' sys₁ : System} {history since before : List Moment} {act : SystemAct}
  {events : List SchedulerEvent} {n w : Nat} {f g : Flight} {c : Caller} {token : Token} {o : Outcome} {moment : Moment}
  {reason : Cancelled}

/-- At some time since the last call of its function, the token showed this of the flight. -/
def Saw (start : System) (history : List Moment) (sys : System) (n : Nat) (token : Token) (reason : Cancelled) : Prop :=
  ∃ since earlier sys₁ f, history = since ++ earlier ∧ Run start earlier sys₁ ∧ Run sys₁ since sys ∧
    (∀ m ∈ since, ∀ e ∈ m.events, e.calls n = false) ∧ sys₁.scheduler.flights[n]? = some f ∧ token.Shows f.signal reason

/-- Functions failed with cancellations only that their own tokens showed them. -/
def OwnCancellations (start : System) (history : List Moment) : Prop :=
  ∀ later events before sys c chain reason n input token,
    history = later ++ { act := .thread (.reply c (.failed chain)), events } :: before → Run start before sys →
    sys.scheduler.inside? c = some (n, input, token) → chain.cancellation? = some reason →
    Saw start before sys n token reason

theorem OwnCancellations.earlier (h : OwnCancellations start (moment :: history)) : OwnCancellations start history := by
  rintro later events before sys c chain reason n input token rfl
  exact h (moment :: later) events before sys c chain reason n input token rfl

theorem Run.unique (h : Run start history sys) (k : Run start history sys') : sys = sys' := by
  induction h generalizing sys' with
  | start => cases k; rfl
  | step _ hs ih =>
      cases k with
      | step k hs' =>
          cases ih k
          cases hs.symm.trans hs'
          rfl

theorem OwnCancellations.none (start : System) : OwnCancellations start [] := by
  intro later events before sys c chain reason n input token hhist
  simp at hhist

theorem OwnCancellations.later {later : List Moment} (h : OwnCancellations start history)
    (hno : ∀ m ∈ later, Moment.cancels m = false) : OwnCancellations start (later ++ history) := by
  intro more events before sys c chain reason n input token hhist hrun hin hchain
  rcases List.append_eq_append_iff.mp hhist with ⟨rest, hmore, hrest⟩ | ⟨rest, hlater, hrest⟩
  · exact h rest events before sys c chain reason n input token hrest hrun hin hchain
  · cases rest with
    | nil => exact h [] events before sys c chain reason n input token hrest.symm hrun hin hchain
    | cons m rest =>
        cases hrest
        have := hno _ (hlater ▸ List.mem_append_right _ List.mem_cons_self)
        simp [Moment.cancels, hchain] at this

theorem OwnCancellations.reply {chain : CauseChain} (h : OwnCancellations start history) (hrun : Run start history sys)
    (hsaw : ∀ n input token reason, sys.scheduler.inside? c = some (n, input, token) → chain.cancellation? = some reason →
      Saw start history sys n token reason) :
    OwnCancellations start ({ act := .thread (.reply c (.failed chain)), events } :: history) := by
  intro later events' before sys' c' chain' reason n input token hhist hrun' hin hchain
  cases later with
  | nil =>
      cases hhist
      obtain rfl := hrun.unique hrun'
      exact hsaw n input token reason hin hchain
  | cons m later =>
      cases hhist
      exact h later events' before sys' c' chain' reason n input token rfl hrun' hin hchain

/-- A function whose outcome is a cancellation failed with it. -/
theorem cancelled_of_caught {r : Registration} {answer : Reply}
    (h : Flight.caught (r.outcome answer) = .error (.cancelled reason)) :
    ∃ chain, answer = .failed chain ∧ chain.cancellation? = some reason := by
  cases answer with
  | value output => cases hk : r.kind <;> simp [Registration.outcome, hk, Flight.caught] at h
  | panicked value => simp [Registration.outcome, Flight.caught] at h
  | failed chain =>
      refine ⟨chain, rfl, ?_⟩
      simp only [Registration.outcome, Flight.caught, Except.error.injEq] at h
      exact (Failure.classify_eq_cancelled_iff CauseChain.searchesInwards_downcast).mp h

/-! ## With a pool -/

/-- The generation of a flight counts the inputs that come in a run. -/
theorem Run.generation (h : Run sys₁ since sys) (hreach : Reachable before sys₁)
    (hpool : sys₁.scheduler.isSynchronous = false) (hf : sys₁.scheduler.flights[n]? = some f) :
    ∃ g, sys.scheduler.flights[n]? = some g ∧
      g.signal.generation = f.signal.generation + UInt64.ofNat (inputCount n since) := by
  induction h with
  | start => exact ⟨f, hf, by simp [inputCount]⟩
  | step hrun hs ih =>
      obtain ⟨g, hg, hgen⟩ := ih
      have hsane := (hreach.run hrun).sane (hrun.synchronous.trans hpool)
      rcases step_cases hs with ⟨rfl, rfl, rfl⟩ | ⟨a, loop, rfl, -, hm, -⟩
      · exact ⟨g, hg, hgen⟩
      · obtain ⟨k, hk, -⟩ := hm.persists hg
        have hc := hm.course hsane n
        rw [hg, hk] at hc
        refine ⟨k, hk, ?_⟩
        rw [hc.generation, hgen, UInt64.add_assoc, ← UInt64.ofNat_add]
        rfl

/-- What the token showed was true: the scheduler was closed, or a newer input came in the course of the invocation. -/
theorem Saw.outdated (h : Saw start history sys n token reason) (hstart : start.IsOpened)
    (hpool : sys.scheduler.isSynchronous = false) (hf : sys.scheduler.flights[n]? = some f)
    (hcourse : InCourse history f w n token since) : sys.scheduler.isClosed = true ∨ 0 < inputCount n since := by
  obtain ⟨recent, before, sys₁, f₁, hsplit, hrun₁, hrun, hno, hf₁, hshows⟩ := h
  have hreach₁ := hrun₁.reachable hstart
  have hpool₁ := hrun.synchronous.symm.trans hpool
  cases reason with
  | interrupted =>
      refine .inl (hrun.closed ?_)
      cases hopen : sys₁.scheduler.isClosed with
      | true => rfl
      | false => cases (hreach₁.calm hpool₁ hopen hf₁).symm.trans hshows
  | superseded =>
      right
      -- the invocation started before the token showed it
      obtain ⟨mid, rfl⟩ : ∃ mid, since = recent ++ mid := by
        obtain ⟨_, ⟨call, _, _, _, hhist, hcall, -⟩, -⟩ := hcourse.invoked
        rcases List.append_eq_append_iff.mp (hhist.symm.trans hsplit) with ⟨more, hrecent, hrest⟩ | ⟨mid, hsince, -⟩
        · cases more with
          | nil => exact ⟨[], by rw [hrecent, List.append_nil, List.append_nil]⟩
          | cons m more =>
              cases hrest
              have := hno call (by simp [hrecent]) _ hcall
              simp [SchedulerEvent.calls] at this
        · exact ⟨mid, hsince⟩
      refine Nat.pos_of_ne_zero fun hzero => ?_
      rw [inputCount_append] at hzero
      obtain ⟨g, hg, hgen⟩ := hrun.generation hreach₁ hpool₁ hf₁
      cases hf.symm.trans hg
      have hcount := hcourse.counted
      rw [inputCount_append, hzero, hgen, Nat.eq_zero_of_add_eq_zero_left hzero] at hcount
      simp only [Token.Shows, Token.isSuperseded, decide_eq_true_eq] at hshows
      exact hshows (by simpa using hcount)

/-- What the history says of a worker inside of an invocation whose function fails with its own cancellations only. -/
def Honest (sys : System) (history : List Moment) (f : Flight) (w n : Nat) : WorkerPhase Nat WorkStage → Prop
  | .working _ (.running (.invoking _ token)) => ∃ since, InCourse history f w n token since
  | .working _ (.running (.settling token o)) => ∃ since, InCourse history f w n token since ∧
      (IsUncancelled o ∨ sys.scheduler.isClosed = true ∨ 0 < inputCount n since)
  | _ => True

theorem Honest.later {a : WorkerPhase Nat WorkStage} {s : Scheduler} (h : Honest sys history f w n a)
    (hc : Course s n moment.events (some f) (some g))
    (hclosed : sys.scheduler.isClosed = true → sys'.scheduler.isClosed = true)
    (hends : ∀ e ∈ moment.events, e.endsRun n = false) : Honest sys' (moment :: history) g w n a := by
  unfold Honest at h ⊢
  split at h
  · obtain ⟨since, hcourse⟩ := h
    exact ⟨_, hcourse.later hc hends⟩
  · obtain ⟨since, hcourse, ho⟩ := h
    exact ⟨_, hcourse.later hc hends, ho.imp_right (.imp hclosed fun hpos => Nat.lt_of_lt_of_le hpos (Nat.le_add_right _ _))⟩
  · trivial

theorem Run.honest {p : Pool Nat WorkStage} {a : WorkerPhase Nat WorkStage} (h : Run start history sys)
    (hstart : start.IsOpened) (hown : OwnCancellations start history) (hp : sys.scheduler.pool = some p)
    (hw : p.phase? w = some a) (ha : a.isInside n = true) :
    ∃ f, sys.scheduler.flights[n]? = some f ∧ Honest sys history f w n a := by
  induction h generalizing p a with
  | start =>
      obtain ⟨name, settings, rfl⟩ := hstart.begins.pool_new hp
      simp [Pool.phase?, Pool.create] at hw
  | step hrun hs ih =>
      rename_i history sys act sys' events
      have hreach := hrun.reachable hstart
      rcases step_cases hs with ⟨rfl, rfl, rfl⟩ | ⟨a, loop, rfl, -, hm, -⟩
      · obtain ⟨f, hf, hhonest⟩ := ih hown.earlier hp hw ha
        have hc : Course sys.scheduler n [] (some f) (some f) := .kept rfl rfl rfl (fun hd => ⟨hd, rfl⟩) (Nat.le_refl _)
        exact ⟨f, hf, hhonest.later hc id (by simp)⟩
      · obtain ⟨q, hq, -⟩ := hm.pool_before hp
        have hsane := hreach.sane (by simp [isSynchronous, hq])
        have honward {f : Flight} (hf : sys.scheduler.flights[n]? = some f) : ∃ g, sys'.scheduler.flights[n]? = some g ∧
            Course sys.scheduler n events (some f) (some g) := by
          obtain ⟨g, hg, -⟩ := hm.persists hf
          have hc := hm.course hsane n
          rw [hf, hg] at hc
          exact ⟨g, hg, hc⟩
        cases hm.arrives hsane hp hw ha with
        | stayed hq hw _ hends =>
            obtain ⟨f, hf, hhonest⟩ := ih hown.earlier hq hw ha
            obtain ⟨g, hg, hc⟩ := honward hf
            exact ⟨g, hg, hhonest.later hc hm.keeps.closed hends⟩
        | @called _ f r copy given hf hcopy hr hcall =>
            obtain ⟨g, hg, hc⟩ := honward hf
            obtain rfl : copy = given := by
              cases ((hreach.proper hf).callInput hr hcopy).symm.trans hcall; rfl
            have hnew : newest n history = some f.input := by rw [hreach.newest_eq hsane.pooled, hf]; rfl
            exact ⟨g, hg, [], .of_called hnew hcopy hc⟩
        | @answered _ f r input token answer hq hv hf hr =>
            obtain ⟨f', hf', since, hcourse⟩ := ih hown.earlier hq hv (by simp)
            cases hf.symm.trans hf'
            obtain ⟨g, hg, hc⟩ := honward hf
            refine ⟨g, hg, _, hcourse.later hc (by simp), Classical.or_iff_not_imp_left.mpr fun hcancelled => ?_⟩
            obtain ⟨reason, ho⟩ := Classical.not_forall_not.mp hcancelled
            obtain ⟨chain, rfl, hchain⟩ := cancelled_of_caught ho
            have hsaw := hown [] [] history sys (.worker w) chain reason n input token rfl hrun (hm.inside hsane hq hv)
              hchain
            exact (hsaw.outdated hstart hsane.pooled hf hcourse).imp hm.keeps.closed fun hpos =>
              Nat.lt_of_lt_of_le hpos (Nat.le_add_right _ _)
        | mistyped hf hcopy hr hcall => cases ((hreach.proper hf).callInput hr hcopy).symm.trans hcall
        | exhausted hf | uncopied hf =>
            obtain ⟨g, hg, -⟩ := honward hf
            exact ⟨g, hg, trivial⟩

/-- What an open scheduler stores of an invocation is no cancellation. -/
theorem Run.stores_uncancelled (h : Run start history sys) (hstart : start.IsOpened)
    (hown : OwnCancellations start history) (hfew : FewInputs history) (hpool : sys.scheduler.isSynchronous = false)
    (hopen : sys.scheduler.isClosed = false) (hr : sys.scheduler.Runs n (.settling token o) c)
    (hf : sys.scheduler.flights[n]? = some f)
    (hgen : f.signal.interrupted = true ∨ f.signal.generation = token.started) : IsUncancelled o := by
  have hreach := h.reachable hstart
  cases hr with
  | inline hx =>
      have hsuits := (hreach.regular.orderly c).suits _ hx
      simp [Call.suits, hpool] at hsuits
  | worker hp hw =>
      obtain ⟨f', hf', since, hcourse, ho⟩ := h.honest (n := n) hstart hown hp hw (by simp)
      cases hf.symm.trans hf'
      rcases ho with ho | hclosed | hpos
      · exact ho
      · cases hopen.symm.trans hclosed
      · rcases hgen with hi | hgen
        · cases (hreach.calm hpool hopen hf).symm.trans hi
        · have := hcourse.unsuperseded hfew hgen
          omega

/-! ## Without a pool -/

theorem Reachable.unsignalled (h : Reachable history sys) (hsync : sys.scheduler.isSynchronous = true)
    (hf : sys.scheduler.flights[n]? = some f) : f.signal = {} := by
  refine h.invariant (P := fun _ sys => sys.scheduler.isSynchronous = true → ∀ (n : Nat) (f : Flight),
    sys.scheduler.flights[n]? = some f → f.signal = {}) ?_ ?_ hsync n f hf
  · intro sys hb _ n f hf; simp [hb.flights] at hf
  · intro history sys act sys' events hreach ih hs hsync
    have hinline := hreach.inline ((step_synchronous hs).symm.trans hsync)
    rcases step_cases hs with ⟨rfl, rfl, rfl⟩ | ⟨a, loop, rfl, -, hm, -⟩
    · exact ih hsync
    · exact hm.unsignalled hinline (ih hinline.poolless)

/-- Without a pool no function has anything to see on its token. -/
theorem Saw.pooled {input : Payload} (h : Saw start history sys n token reason) (hstart : start.IsOpened)
    (hrun : Run start history sys) (hin : sys.scheduler.inside? c = some (n, input, token)) :
    sys.scheduler.isSynchronous = false := by
  cases hsync : sys.scheduler.isSynchronous with
  | false => rfl
  | true =>
      have hinline := (hrun.reachable hstart).inline hsync
      have hstarted : token.started = 0 := by
        cases runs_of_inside hin with
        | worker hp => exact (hinline.no_pool hp).elim
        | inline hx =>
            obtain ⟨f, r, -, -, -, -, hstarted⟩ := hinline.sole.ready c _ hx
            exact hstarted
      obtain ⟨recent, before, sys₁, f₁, -, hrun₁, hrun', -, hf₁, hshows⟩ := h
      have hsignal := (hrun₁.reachable hstart).unsignalled (hrun'.synchronous.symm.trans hsync) hf₁
      cases reason <;> simp [Token.Shows, Token.isSuperseded, hsignal, hstarted] at hshows

theorem Run.settles_uncancelled (h : Run start history sys) (hstart : start.IsOpened)
    (hown : OwnCancellations start history) (hsync : sys.scheduler.isSynchronous = true)
    (hr : sys.scheduler.Runs n (.settling token o) c) : IsUncancelled o := by
  induction h generalizing c token o with
  | start => exact (hstart.begins.not_runs hr).elim
  | step hrun hs ih =>
      rename_i history sys act sys' events
      have hreach := hrun.reachable hstart
      have hbefore := (step_synchronous hs).symm.trans hsync
      rcases step_cases hs with ⟨rfl, rfl, rfl⟩ | ⟨a, loop, rfl, -, hm, -⟩
      · exact ih hown.earlier hbefore hr
      · rcases hm.settles (.inr (hreach.inline hbefore)) hr with hr | hsettles
        · exact ih hown.earlier hbefore hr
        · cases hsettles with
          | mistyped hf hcopy hreg hcall => cases ((hreach.proper hf).callInput hreg hcopy).symm.trans hcall
          | @answered _ answer input f r hin =>
              intro reason ho
              obtain ⟨chain, rfl, hchain⟩ := cancelled_of_caught ho
              have hsaw := hown [] events history sys c chain reason n input token rfl hrun hin hchain
              cases (hsaw.pooled hstart hrun hin).symm.trans hbefore

/-! ## Whole runs -/

/-- As long as functions fail with cancellations only that their own tokens showed them, and less than `2 ^ 64` newer
inputs come in the course of one invocation, no cancellation goes to a callback, with a pool or without one. -/
theorem own_cancellations_unheard (hstart : start.IsOpened) (hrun : Run start history sys)
    (hown : OwnCancellations start history) (hfew : FewInputs history) (hs : sys.step act = some (sys', events)) :
    ∀ c n id kind d, .notified c n id kind d ∈ events → ∀ failure, d.failure? = some failure →
      failure.isCancelled = false := by
  have hyields := hrun.yields (Q := fun history _ _ o => OwnCancellations start history → FewInputs history →
    IsUncancelled o) hstart ?_ (fun _ _ _ _ ho hown hfew => ho hown.earlier hfew.earlier)
  · intro c n id kind d he failure hd
    rcases step_cases hs with ⟨rfl, rfl, rfl⟩ | ⟨a, loop, rfl, -, hm, -⟩
    · cases he
    · cases hm.news he rfl with
      | notified hcs hf hr => exact (hyields.given _ _ _ (hcs ▸ List.mem_cons_self) hown hfew).deliver hd
  · intro history sys hrun hlive n o hfills hown hfew
    cases hfills with
    | failed => intro reason ho; cases ho
    | stored hr hf hgen =>
        rcases hlive with hsync | hopen
        · exact hrun.settles_uncancelled hstart hown hsync hr
        · cases hsync : sys.scheduler.isSynchronous with
          | true => exact hrun.settles_uncancelled hstart hown hsync hr
          | false => exact hrun.stores_uncancelled hstart hown hfew hsync hopen hr hf hgen

end System

end

namespace System

/-- A function sees that its input was superseded and fails with that: it is called again, and its callback gets the
failure of the second invocation. -/
theorem seen_supersession_unheard : ∃ history sys sys' failure, Run (small true) history sys ∧
    OwnCancellations (small true) history ∧ (∃ m ∈ history, m.cancels = true) ∧ FewInputs history ∧
    sys.step (.thread (.advance .owner none)) = some (sys', [.notified .owner 0 ⟨0⟩ .get (.result (.error failure))]) ∧
    failure.isCancelled = false := by
  let stale : CauseChain := (CauseChain.ofCancelled .superseded).wrap (.text "too late")
  let acts : List SystemAct :=
    [ .thread (.apply .owner ⟨0⟩ (.string "a")), .thread (.advance .owner none), .thread (.advance .owner none),
      .thread (.advance (.worker 1) none), .thread (.advance (.worker 1) none), .thread (.advance (.worker 1) none),
      .thread (.advance (.worker 1) none),
      .thread (.apply .owner ⟨0⟩ (.string "b")), .thread (.advance .owner none), .thread (.advance .owner none) ]
  let acts' : List SystemAct :=
    [ .thread (.advance (.worker 1) none), .thread (.advance (.worker 1) none),
      .thread (.reply (.worker 1) (.failed (.ofText "no"))), .thread (.advance (.worker 1) none),
      .thread (.advance (.worker 1) none), .thread (.advance (.worker 1) none), .thread (.advance (.worker 1) none),
      .thread (.run (.handBack 0)), .thread (.advance .owner none) ]
  obtain ⟨before, sys, sys₁, later, sys₂, sys₃, f, hr, hin, hf, hshows, hreply, hr', hno, hno', hlength, hstep⟩ :
      ∃ before sys sys₁ later sys₂ sys₃ f, replay acts [] (small true) = some (before, sys) ∧
      sys.scheduler.inside? (.worker 1) = some (0, .string "a", ⟨0⟩) ∧ sys.scheduler.flights[0]? = some f ∧
      (⟨0⟩ : Token).check f.signal = some .superseded ∧
      sys.step (.thread (.reply (.worker 1) (.failed stale))) = some (sys₁, []) ∧
      replay acts' [] sys₁ = some (later, sys₂) ∧ before.all (fun m => !m.cancels) = true ∧
      later.all (fun m => !m.cancels) = true ∧
      ((later ++ { act := .thread (.reply (.worker 1) (.failed stale)), events := [] } :: before).flatMap
        Moment.events).length = 16 ∧
      sys₂.step (.thread (.advance .owner none))
        = some (sys₃, [.notified .owner 0 ⟨0⟩ .get (.result (.error (.failed (.ofText "no"))))]) :=
    ⟨_, _, _, _, _, _, _, rfl, rfl, rfl, rfl, rfl, rfl, rfl, rfl, rfl, rfl⟩
  have hrun : Run (small true) before sys := replay_run .start hr
  have hrun' := (hrun.step hreply).trans (replay_run .start hr')
  have hown : OwnCancellations (small true) (later ++ { act := .thread (.reply (.worker 1) (.failed stale)), events := [] }
      :: before) := by
    have hquiet : OwnCancellations (small true) before :=
      List.append_nil before ▸ (OwnCancellations.none _).later (by simpa using hno)
    refine (hquiet.reply hrun fun n input token reason hin' hchain => ?_).later (by simpa using hno')
    cases hin.symm.trans hin'
    cases hchain
    exact ⟨[], before, sys, f, rfl, hrun, .start, by simp, hf, Token.shows_of_check hshows⟩
  have hstart : IsOpened (small true) := (small_reachable true).opened
  have hfew := FewInputs.of_length (by rw [hlength]; decide)
  refine ⟨_, sys₂, sys₃, _, hrun', hown, ⟨_, List.mem_append_right _ List.mem_cons_self, rfl⟩, hfew, hstep, ?_⟩
  exact own_cancellations_unheard hstart hrun' hown hfew hstep _ _ _ _ _ (List.mem_singleton.mpr rfl) _ rfl

end System

end SingleFlight
