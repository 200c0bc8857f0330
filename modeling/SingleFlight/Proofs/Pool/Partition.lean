import Mathlib.Data.List.Nodup
import SingleFlight.Proofs.Pool.Accounts

/-!
# No task is lost, none is run twice

At any time the tasks that a pool has accepted are the queued ones, those in the hands of a worker, the finished ones
and the undone ones. Nothing moves any more once all workers have left a pool that is stopping, so a stop that sees
them gone knows where every task is.
-/

namespace SingleFlight.Pool

variable {τ σ : Type} {p q r : Pool τ σ} {act : PoolAct τ σ} {events : List (PoolEvent τ)} {w : Nat}
  {history later : List (Moment τ σ)} {t : τ}

/-! ## Histories -/

theorem happened_cons (moment : Moment τ σ) (history : List (Moment τ σ)) :
    happened (moment :: history) = moment.events ++ happened history :=
  rfl

theorem happened_append (later history : List (Moment τ σ)) :
    happened (later ++ history) = happened later ++ happened history :=
  List.flatMap_append

/-- What has happened, oldest first. -/
def chronicle (history : List (Moment τ σ)) : List (PoolEvent τ) := history.reverse.flatMap Moment.events

theorem chronicle_cons (moment : Moment τ σ) (history : List (Moment τ σ)) :
    chronicle (moment :: history) = chronicle history ++ moment.events := by
  simp [chronicle]

theorem Staffed.tail {moment : Moment τ σ} (h : Staffed (moment :: history)) : Staffed history := fun other hmem =>
  h other (List.mem_cons_of_mem _ hmem)

theorem Staffed.append (h : Staffed history) (k : Staffed later) : Staffed (later ++ history) := fun moment hmem =>
  (List.mem_append.mp hmem).elim (k moment) (h moment)

/-- Where an accepted task can be. -/
inductive Place
  | queue
  | worker (w : Nat)
  | done
  | undone
deriving DecidableEq, Repr

section
variable [DecidableEq τ]

/-- The task is at the place. -/
def Lies (p : Pool τ σ) (history : List (Moment τ σ)) (t : τ) : Place → Prop
  | .queue => t ∈ p.queue
  | .worker w => ∃ a, p.phase? w = some a ∧ a.inHand? = some t
  | .done => 0 < finished t history
  | .undone => t ∈ p.undone

/-- The acceptances of a task and the places where it is balance. -/
theorem Reachable.balance (h : Reachable history p) (hs : Staffed history) (t : τ) :
    accepted t history = p.queue.count t + p.held t + finished t history + p.undone.count t := by
  refine h.invariant (P := fun history p => Staffed history → accepted t history
    = p.queue.count t + p.held t + finished t history + p.undone.count t) (fun _ _ _ => rfl) ?_ hs
  intro history p act q events hreach ih hm hs
  have hbefore := ih hs.tail
  have hstep := hm.balance hreach.manned t (.inl (hs _ List.mem_cons_self))
  simp only [accepted, finished, happened_cons, List.countP_append] at hbefore ⊢
  omega

/-- The executions of a task that were begun are under way or at an end. -/
theorem Reachable.executions (h : Reachable history p) (t : τ) :
    begun t history = p.executing t + finished t history := by
  refine h.invariant (P := fun history p => begun t history = p.executing t + finished t history) (fun _ _ => rfl) ?_
  intro history p act q events hreach ih hm
  have hstep := hm.executions hreach.manned t
  simp only [begun, finished, happened_cons, List.countP_append] at ih ⊢
  omega

/-- In each execution of a task it is called once, unless the hook before it panics. -/
theorem Reachable.calls (h : Reachable history p) (t : τ) : begun t history = called t history + barred t history := by
  refine h.invariant (P := fun history _ => begun t history = called t history + barred t history) (fun _ _ => rfl) ?_
  intro history p act q events _ ih hm
  have hstep := hm.calls t
  have hbarred : barred t ({ act, events } :: history)
      = barred t history + ((⟨act, events⟩ : Moment τ σ).bars t).toNat := by
    rw [barred, List.countP_cons]
    cases (⟨act, events⟩ : Moment τ σ).bars t <;> rfl
  rw [hbarred]
  simp only [begun, called, happened_cons, List.countP_append] at ih ⊢
  omega

theorem executing_le_held (p : Pool τ σ) (t : τ) : p.executing t ≤ p.held t :=
  tally_le (fun a ha => by cases a <;> simp_all) p

/-- What was finished was begun, and what was begun is not undone. -/
theorem Reachable.begun_bounds (h : Reachable history p) (hs : Staffed history) (t : τ) :
    finished t history ≤ begun t history ∧ begun t history + p.undone.count t ≤ accepted t history := by
  have := h.balance hs t
  have := h.executions t
  have := executing_le_held p t
  omega

end

theorem Reachable.reports (h : Reachable history p) : reported history = p.reports := by
  refine h.invariant (P := fun history p => reported history = p.reports) (fun _ _ => rfl) ?_
  intro history p act q events _ ih hm
  rw [reported, happened_cons, List.filterMap_append]
  exact (congrArg _ ih).trans hm.reports

/-! ## The place of a task that was accepted once -/

theorem phase?_of_mem (hman : p.Manned) {x : Worker τ σ} (h : x ∈ p.workers) : p.phase? x.id = some x.phase := by
  have hfound : (p.workers.find? (·.id = x.id)).isSome := List.find?_isSome.mpr ⟨x, h, by simp⟩
  obtain ⟨y, hy⟩ := Option.isSome_iff_exists.mp hfound
  have hid : y.id = x.id := by simpa using List.find?_some hy
  obtain rfl : y = x := List.inj_on_of_nodup_map hman.distinct (List.mem_of_find?_eq_some hy) h hid
  rw [phase?, hy]
  rfl

theorem exists_of_tally (hman : p.Manned) {P : WorkerPhase τ σ → Bool} (h : 0 < p.tally P) :
    ∃ w a, p.phase? w = some a ∧ P a = true := by
  obtain ⟨x, hmem, hx⟩ := List.countP_pos_iff.mp h
  exact ⟨x.id, x.phase, phase?_of_mem hman hmem, hx⟩

section
variable [DecidableEq τ]

theorem held_pos (hman : p.Manned) : 0 < p.held t ↔ ∃ w, p.Lies history t (.worker w) := by
  constructor
  · intro h
    obtain ⟨w, a, hw, ha⟩ := exists_of_tally hman h
    exact ⟨w, a, hw, of_decide_eq_true ha⟩
  · rintro ⟨w, a, hw, ha⟩
    exact tally_pos hw (decide_eq_true ha)

theorem Reachable.place (h : Reachable history p) (hs : Staffed history) (hone : accepted t history = 1) :
    ∃! place, p.Lies history t place := by
  have hsum := h.balance hs t
  have hqueue : p.Lies history t .queue ↔ 0 < p.queue.count t := List.count_pos_iff.symm
  have hdone : p.Lies history t .done ↔ 0 < finished t history := Iff.rfl
  have hundone : p.Lies history t .undone ↔ 0 < p.undone.count t := List.count_pos_iff.symm
  have hheld : 0 < p.held t ↔ ∃ w, p.Lies history t (.worker w) := held_pos h.manned
  have hunique {w v : Nat} (hw : p.Lies history t (.worker w)) (hv : p.Lies history t (.worker v)) : v = w := by
    obtain ⟨⟨a, hw, ha⟩, ⟨b, hv, hb⟩⟩ := hw, hv
    refine Classical.byContradiction fun hne => ?_
    have : 2 ≤ p.held t := two_le_tally hv hw hne (decide_eq_true hb) (decide_eq_true ha)
    omega
  have hsome : ∃ place, p.Lies history t place := by
    rcases (by omega : 0 < p.queue.count t ∨ 0 < p.held t ∨ 0 < finished t history ∨ 0 < p.undone.count t)
      with hpos | hpos | hpos | hpos
    · exact ⟨.queue, hqueue.mpr hpos⟩
    · exact (hheld.mp hpos).imp' .worker fun _ => id
    · exact ⟨.done, hpos⟩
    · exact ⟨.undone, hundone.mpr hpos⟩
  obtain ⟨place, hplace⟩ := hsome
  refine ⟨place, hplace, fun other hother => ?_⟩
  -- two different places would add up to two acceptances
  cases place with
  | worker w =>
      cases other with
      | worker v => exact congrArg _ (hunique hplace hother)
      | _ => have := hheld.mpr ⟨w, hplace⟩; simp only [hqueue, hdone, hundone] at hother; omega
  | _ =>
      cases other with
      | worker v => have := hheld.mpr ⟨v, hother⟩; simp only [hqueue, hdone, hundone] at hplace; omega
      | _ => first | rfl | (simp only [hqueue, hdone, hundone] at hplace hother; omega)

/-! ## Pools without workers -/

/-- The pool is stopping and all its workers have left. -/
structure Deserted (p : Pool τ σ) : Prop where
  stopping : p.isStopping = true
  empty : p.live = 0

/-- In a pool that all workers have left no task is accepted and none is begun. -/
theorem Move.deserted (hm : Move p act q events) (h : p.Deserted) (hcount : p.Counted) :
    q.Deserted ∧ ∀ t, events.countP (PoolEvent.accepts t) = 0 ∧ events.countP (PoolEvent.begins t) = 0 := by
  obtain ⟨hstop, hlive⟩ := h
  have hgone {w : Nat} {a : WorkerPhase τ σ} (hw : p.phase? w = some a) : a.isRetired = true := by
    refine Decidable.byContradiction fun hne => ?_
    have hpos := hcount.live_pos hw (Bool.eq_false_iff.mpr hne)
    omega
  cases hm with
  | submitted ha =>
      cases ha with
      | stopped => exact ⟨⟨hstop, hlive⟩, fun _ => ⟨rfl, rfl⟩⟩
      | unstaffed hs | full hs | started hs | handed hs | queued hs | rescued hs | stranded hs =>
          rw [hstop] at hs; cases hs
  | cutOff hw => rcases hw with ⟨hw, -⟩ | hw <;> cases hgone hw
  | dismissed hw | sought hw | took hw | waits hw | expired hw | retired hw | stayed hw | left hw | recorded hw
  | heeded hw | entered hw | barred hw | advanced hw | hooked hw | finished hw | completed hw | released hw =>
      cases hgone hw
  | halted | drained | interrupted | reported | awaits | abandoned => exact ⟨⟨rfl, hlive⟩, fun _ => ⟨rfl, rfl⟩⟩
  | rechecked => exact ⟨⟨hstop, hlive⟩, fun _ => ⟨rfl, rfl⟩⟩

theorem Run.deserted (hrun : Run p later q) (hreach : Reachable history p) (h : p.Deserted) (t : τ) :
    q.Deserted ∧ accepted t later = 0 ∧ begun t later = 0 := by
  induction hrun with
  | start => exact ⟨h, rfl, rfl⟩
  | step hrun hs ih =>
      obtain ⟨hd, haccepted, hbegun⟩ := ih
      obtain ⟨hd', hquiet⟩ := (step_move hs).deserted hd (hreach.run hrun).counted
      obtain ⟨ha, hb⟩ := hquiet t
      refine ⟨hd', ?_, ?_⟩
      · rw [accepted, happened_cons, List.countP_append, ha]; exact (Nat.zero_add _).trans haccepted
      · rw [begun, happened_cons, List.countP_append, hb]; exact (Nat.zero_add _).trans hbegun

theorem Reachable.deserted (h : Reachable history p) (hd : p.Deserted) (hs : Staffed history) (t : τ) :
    accepted t history = finished t history + p.undone.count t + p.queue.count t ∧ begun t history = finished t history := by
  have hheld : p.held t = 0 := h.counted.deserted hd.empty fun a ha => by cases a <;> simp_all [WorkerPhase.isRetired]
  have := h.balance hs t
  have := h.executions t
  have := executing_le_held p t
  omega

end

/-! ## Stops -/

theorem mem_reports {undone : List τ} (h : undone ∈ p.reports) : ∃ terminated, p.stop = some (.reported undone terminated) := by
  unfold Pool.reports at h
  split at h
  · rename_i terminated hs
    cases List.mem_singleton.mp h
    exact ⟨terminated, hs⟩
  · cases h

theorem Move.terminated {undone : List τ} (hm : Move p (.stop (.look false)) q [.stopped undone true]) :
    p.Deserted ∧ p.undone = undone ∧ ∃ stage, p.stop = some stage ∧ stage ≠ .halted := by
  cases hm with
  | reported hs ht =>
      have hlive : p.live ≤ 0 := of_decide_eq_true ht
      rcases hs with hs | hs <;>
        exact ⟨⟨by simp [isStopping, hs], by omega⟩, by simp [Pool.undone, hs], _, hs, by simp⟩

theorem Move.rechecked_true (hm : Move p (.stop (.recheck false)) q [.rechecked true]) : p.Deserted := by
  generalize he : ([.rechecked true] : List (PoolEvent τ)) = events at hm
  cases hm with
  | rechecked hs =>
      have ht : p.isTerminated false = true := by simpa using he.symm
      have hlive : p.live ≤ 0 := of_decide_eq_true ht
      exact ⟨hs, by omega⟩

section
variable [DecidableEq τ]

end

end SingleFlight.Pool
