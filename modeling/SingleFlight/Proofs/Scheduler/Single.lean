import SingleFlight.Proofs.LastWrite
import SingleFlight.Proofs.PoolSteps
import SingleFlight.Proofs.Scheduler.Changes

/-!
# Flights with a single input

While a scheduler is open, a flight that gets no newer input is invoked once: its generation stays the first one, so
no invocation of it is stale, and nothing breaks down around its only invocation.
-/

namespace SingleFlight.Scheduler

variable [Payloads] {s s' : Scheduler} {p q : Pool Nat WorkStage} {act : SchedulerAct} {n w : Nat} {f g : Flight}
  {a b : WorkerPhase Nat WorkStage} {events : List SchedulerEvent}

/-- What is known of a worker inside of a flight that has a single input. -/
def FirstRun (s : Scheduler) : WorkerPhase Nat WorkStage → Prop
  | .working n (.running .starting) => ∃ f, s.flights[n]? = some f ∧ f.phase = .queued
  | .working n (.running (.invoking input token)) =>
      token = ⟨0⟩ ∧ ∃ f, s.flights[n]? = some f ∧ input = Erased.copied f.input
  | .working _ (.running (.settling token _)) => token = ⟨0⟩
  | .working _ _ => False
  | .worked _ _ (.running _) => False
  | .worked _ _ (.failing _) => False
  | .worked n _ _ => ∃ f, s.flights[n]? = some f
  | _ => True

/-- No flight got a second input. -/
structure Single (s : Scheduler) : Prop where
  signal : ∀ (n : Nat) (f : Flight), s.flights[n]? = some f → f.signal = {}
  fresh : ∀ (n : Nat) (f : Flight), s.flights[n]? = some f → f.phase = .queued → f.attempts = 0
  attempts : ∀ (n : Nat) (f : Flight), s.flights[n]? = some f → f.attempts ≤ 1
  firstRun : ∀ p w a, s.pool = some p → p.phase? w = some a → s.FirstRun a

/-- A move gives no flight a second input. -/
def Unrenewed (s : Scheduler) (events : List SchedulerEvent) : Prop :=
  ∀ (n : Nat) (f : Flight), s.flights[n]? = some f → inputs n events = []

/-! ## Flights -/

theorem Move.single_signal (hm : Move s act s' events) (hs : s.Sane) (h : s.Single) (hopen : s.isClosed = false)
    (hin : s.Unrenewed events) (hg : s'.flights[n]? = some g) : g.signal = {} := by
  have hc := hm.course hs n
  rw [hg] at hc
  generalize hf : s.flights[n]? = before at hc
  cases hc with
  | started => rfl
  | kept _ _ hsig => exact hsig.trans (h.signal n _ hf)
  | renewed hrenewed => cases (hin n _ hf).symm.trans hrenewed
  | stopped _ hcl => cases hcl.symm.trans hopen
  | @stored x => exact h.signal n x hf
  | @failed x _ _ _ message =>
      rcases x.fail_cases message with ⟨-, hfail⟩ | hfail
      · rw [hfail]; exact h.signal n x hf
      · rw [hfail]; exact h.signal n x hf

theorem Move.single_fresh (hm : Move s act s' events) (hs : s.Sane) (h : s.Single) (hopen : s.isClosed = false)
    (hin : s.Unrenewed events) (hg : s'.flights[n]? = some g) (hq : g.phase = .queued) : g.attempts = 0 := by
  have hsignal := hm.single_signal hs h hopen hin hg
  cases hf : s.flights[n]? with
  | none =>
      have hc := hm.course hs n
      rw [hg, hf] at hc
      cases hc; rfl
  | some f =>
      obtain ⟨g', hg', hchange⟩ := hm.change hf
      cases hg.symm.trans hg'
      have hbump : f.signal.bump ≠ {} := by rw [h.signal n f hf]; decide
      cases hchange with
      | kept => exact h.fresh n _ hf hq
      | bound | interrupted => exact h.fresh n f hf hq
      | renewed | rearmed => exact absurd hsignal hbump
      | begun | completed | landed | closed => cases hq

/-! ## Workers -/

/-- While the scheduler is open, nobody has a closed flight in hand. -/
theorem Sane.in_hand (h : s.Sane) (hopen : s.isClosed = false) (hf : s.flights[n]? = some f)
    (hpos : 0 < (s.standing n).waiting + (s.standing n).starting + (s.standing n).inside) : f.phase ≠ .closed := by
  intro hc
  have := h.spent hopen n (by simp [standing, hf, hc])
  omega

theorem FirstRun.stays (h : s.FirstRun a) (hm : Move s act s' events) (hs : s.Sane) (hs' : s'.Sane)
    (hopen : s'.isClosed = false) (hin : s.Unrenewed events) (hp : s.pool = some p) (hw : p.phase? w = some a)
    (hq : s'.pool = some q) (hw' : q.phase? w = some a) : s'.FirstRun a := by
  -- what is known of a flight before its function is called holds on: the worker is the only one that starts it
  unfold FirstRun at h ⊢
  split at h
  · rename_i n
    obtain ⟨f, hf, hqueued⟩ := h
    obtain ⟨g, hg, -⟩ := hm.persists hf
    have hst := starting_pos (n := n) hp hw (by simp)
    have hst' := starting_pos (n := n) hq hw' (by simp)
    have hphase := (hm.shift hs.regular hs.pooled n).unstarted (hs.sound n) hst hst'
      (.inl (by simp [standing, hf, hqueued]))
    refine ⟨g, hg, ?_⟩
    rcases hphase with hphase | hphase
    · simpa [standing, hg] using hphase
    · exact absurd (by simpa [standing, hg] using hphase) (hs'.in_hand hopen hg (by omega))
  · rename_i n _ _
    obtain ⟨htoken, f, hf, hinput⟩ := h
    obtain ⟨g, hg, -⟩ := hm.persists hf
    refine ⟨htoken, g, hg, ?_⟩
    have hnew := (hm.course hs n).newest
    rw [hf, hg, hin n f hf] at hnew
    rw [hinput, Option.some.inj hnew]
  · exact h
  · exact h
  · exact h
  · exact h
  · obtain ⟨f, hf⟩ := h
    obtain ⟨g, hg, -⟩ := hm.persists hf
    exact ⟨g, hg⟩
  · trivial

/-- The phase of a flight in hand tells where it is. -/
theorem Sane.phase_in_hand (h : s.Sane) (hopen : s.isClosed = false) (hf : s.flights[n]? = some f) :
    (0 < (s.standing n).waiting → f.phase = .queued) ∧ (0 < (s.standing n).inside → f.phase = .running) := by
  have hsound := h.sound n
  have hphase : (s.standing n).phase = some f.phase := by simp [standing, hf]
  have hopened := h.in_hand hopen hf
  rw [Standing.Sound, hphase] at hsound
  cases e : f.phase with
  | queued | running | completed => rw [e] at hsound; simp only at hsound; simp; omega
  | closed => exact ⟨fun hpos => absurd e (hopened (by omega)), fun hpos => absurd e (hopened (by omega))⟩

/-- `Toil s w name n f act a g b events`: what a worker does for a flight that has a single input, as long as the
scheduler is open. -/
inductive Toil (s : Scheduler) (w : Nat) (name : String) (n : Nat) (f : Flight) :
    SchedulerAct → WorkerPhase Nat WorkStage → Flight → WorkerPhase Nat WorkStage → List SchedulerEvent → Prop
  | bound {refusal} : f.phase = .queued → Toil s w name n f (.advance (.worker w) refusal) (.ready n) (f.bind name)
      (.working n (.running .starting)) [.bound n f.action name, .pool (.before w n), .pool (.ran w n)]
  | called {refusal} : f.phase = .queued →
      Toil s w name n f (.advance (.worker w) refusal) (.working n (.running .starting)) f.begun
        (.working n (.running (.invoking (Erased.copied f.input) ⟨0⟩)))
        [.called (.worker w) n f.action (Erased.copied f.input) ⟨0⟩]
  | answered {answer r} : f.phase = .running → s.registration? f.action = some r →
      Toil s w name n f (.reply (.worker w) answer) (.working n (.running (.invoking (Erased.copied f.input) ⟨0⟩))) f
        (.working n (.running (.settling ⟨0⟩ (Flight.caught (r.outcome answer))))) []
  | stored {refusal outcome} : f.phase = .running →
      Toil s w name n f (.advance (.worker w) refusal) (.working n (.running (.settling ⟨0⟩ outcome)))
        { f with output := some outcome, phase := .completed } (.worked n none .unbinding)
        [.completed n f.action 0 outcome.toBool]
  | unbound {refusal panic} : Toil s w name n f (.advance (.worker w) refusal) (.worked n panic .unbinding)
      (f.unbind name) (.worked n panic .returning) []
  | returned {refusal panic} : Toil s w name n f (.advance (.worker w) refusal) (.worked n panic .returning) f
      (.worked n panic .posting) []
  | posted {refusal panic} : Toil s w name n f (.advance (.worker w) refusal) (.worked n panic .posting) f
      (.leaving n) [.posted (.worker w) (.handBack n), .pool (.after w n panic)]

section
variable (hl : Labour s w (p.workerName w) n f act a g b events) (hs : s.Sane) (h : s.Single)
  (hopen : s.isClosed = false) (hfed : s.Fed (System.Usable s.registrations)) (hp : s.pool = some p)
  (hw : p.phase? w = some a) (hf : s.flights[n]? = some f)

include hl hs h hopen hfed hp hw hf

theorem Labour.toil : Toil s w (p.workerName w) n f act a g b events := by
  have hrun := h.firstRun p w a hp hw
  have hsignal := h.signal n f hf
  obtain ⟨⟨copy, hcopied⟩, hr⟩ := hfed.flights n f hf
  have hqueued (h : ∃ f, s.flights[n]? = some f ∧ f.phase = .queued) : f.phase = .queued := by
    obtain ⟨f', hf', hqueued⟩ := h
    cases hf.symm.trans hf'; exact hqueued
  cases hl with
  | bound => exact .bound ((hs.phase_in_hand hopen hf).1 (waiting_pos hp hw rfl))
  | ran hran =>
      cases hran with
      | refused hc => cases (hqueued hrun).symm.trans hc
      | exhausted _ hl =>
          rw [h.fresh n f hf (hqueued hrun)] at hl
          exact absurd hl (by decide)
      | uncopied _ _ hcopy => cases hcopied.symm.trans hcopy
      | mistyped _ _ hcopy hr' hcall =>
          have := (hfed.flights n f hf).callInput hcopy hr'
          cases this.symm.trans hcall
      | called _ _ hcopy hr' hcall =>
          have := (hfed.flights n f hf).callInput hcopy hr'
          cases this.symm.trans hcall
          have hphase := hqueued hrun
          obtain rfl := Payload.copied_of_copy hcopy
          rw [hsignal]
          exact .called hphase
      | dropped hc =>
          have := inside_pos (n := n) hp hw (by simp)
          exact absurd hc (hs.in_hand hopen hf (by omega))
      | retried _ _ hgen =>
          have htoken : _ = _ := hrun
          rw [hsignal, htoken] at hgen
          exact absurd rfl hgen
      | @stored token _ =>
          obtain rfl : token = ⟨0⟩ := hrun
          exact .stored ((hs.phase_in_hand hopen hf).2 (inside_pos hp hw (by simp)))
  | answered hr =>
      obtain ⟨rfl, f', hf', rfl⟩ := hrun
      cases hf.symm.trans hf'
      exact .answered ((hs.phase_in_hand hopen hf).2 (inside_pos hp hw (by simp))) hr
  | failed => exact hrun.elim
  | unbound => exact .unbound
  | withheld hc => cases hc.symm.trans hopen
  | returned => exact .returned
  | posted => exact .posted

theorem Labour.firstRun : ({ s.setFlight n g with pool := some q } : Scheduler).FirstRun b := by
  have hg : ({ s.setFlight n g with pool := some q } : Scheduler).flights[n]? = some g := by
    simp [flights_setFlight hf]
  cases hl.toil hs h hopen hfed hp hw hf with
  | bound hphase => exact ⟨_, hg, hphase⟩
  | called => exact ⟨rfl, _, hg, rfl⟩
  | answered => rfl
  | stored | unbound | returned => exact ⟨_, hg⟩
  | posted => trivial

end

theorem Move.single_attempts (hm : Move s act s' events) (hs : s.Sane) (h : s.Single) (hopen : s.isClosed = false)
    (hfed : s.Fed (System.Usable s.registrations)) (hg : s'.flights[n]? = some g) : g.attempts ≤ 1 := by
  -- most moves count no invocation
  have hsame (hview : ∀ m : Nat, (s'.flights[m]?).map Flight.attempts = (s.flights[m]?).map Flight.attempts) :
      g.attempts ≤ 1 := by
    have hn := hview n
    rw [hg] at hn
    obtain ⟨f, hf, e⟩ := Option.map_eq_some_iff.mp hn.symm
    exact e ▸ h.attempts n f hf
  have hadded {r : Registration} {input : Payload} (hg : (s.flights ++ [Flight.of r input])[n]? = some g) :
      g.attempts ≤ 1 := by
    rw [flights_concat] at hg
    split at hg
    · cases hg; exact Nat.zero_le 1
    · exact h.attempts n g hg
  cases hm with
  | launched | inlined => exact hadded hg
  | superseded _ hf | rearmed _ hf | collected _ hf | took _ hf => exact hsame (map_setFlight _ hf rfl)
  | warned | alarmed | gaveUp => exact hsame (map_modify (fun _ => by rfl) _)
  | ranInline hcs => cases hs.regular.orderly.suited hs.pooled hcs
  | @worked _ w m f k a b p _ _ hp hw hf hl =>
      rw [show ({ s.setFlight m k with pool := some (p.setPhase w b) } : Scheduler).flights = (s.setFlight m k).flights
        from rfl, flights_setFlight hf] at hg
      split at hg
      · cases hg
        have hbound := h.attempts m f hf
        cases hl.toil hs h hopen hfed hp hw hf with
        | called hphase => simp [Flight.begun, h.fresh m f hf hphase]
        | unbound =>
            rw [Flight.unbind]
            split
            · exact hbound
            · exact hbound
        | _ => exact hbound
      · exact h.attempts n g hg
  | _ => exact hsame fun _ => rfl

/-- While the scheduler is open and no flight gets a second input, there is none. -/
theorem Move.single (hm : Move s act s' events) (hs : s.Sane) (h : s.Single) (hopen : s'.isClosed = false)
    (hin : s.Unrenewed events) (hfed : s.Fed (System.Usable s.registrations)) : s'.Single := by
  have hopened := hm.keeps.opened hopen
  have hs' := hm.sane hs
  refine ⟨fun n g hg => hm.single_signal hs h hopened hin hg, fun n g hg => hm.single_fresh hs h hopened hin hg,
    fun n g hg => hm.single_attempts hs h hopened hfed hg, ?_⟩
  intro q v c hq hv
  obtain ⟨p, hp, -⟩ := hm.pool_before hq
  by_cases hc : c.isEngaged = true
  · rcases hm.labour_or_undisturbed hs hp with ⟨w, n, f, g, a, b, -, hw, hf, hl, rfl⟩ | ⟨q', hq', hkept, -⟩
    · cases hq
      rcases Pool.phase?_setPhase_cases hv with ⟨-, rfl⟩ | ⟨-, hv'⟩
      · exact hl.firstRun hs h hopened hfed hp hw hf
      · exact (h.firstRun p v c hp hv').stays hm hs hs' hopen hin hp hv' rfl hv
    · cases hq.symm.trans hq'
      have hv' := (hkept.phase hc).mp hv
      exact (h.firstRun p v c hp hv').stays hm hs hs' hopen hin hp hv' hq hv
  · cases c with
    | working | worked => exact absurd rfl hc
    | _ => trivial

end SingleFlight.Scheduler
