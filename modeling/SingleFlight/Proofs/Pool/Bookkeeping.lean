import Mathlib.Data.List.Perm.Subperm
import SingleFlight.Proofs.Pool.Partition

/-!
# The books of a pool

A pool keeps three books: how many workers live, which number the next worker gets, and who runs which task. They agree
with what has happened: the live workers are those that were started and have not retired, the numbers are given out in
order, and the running tasks are those of live workers.
-/

namespace SingleFlight

variable {τ σ : Type}

@[simp] def PoolEvent.started? : PoolEvent τ → Option Nat
  | started w => some w
  | _ => none

@[simp] def PoolEvent.retired? : PoolEvent τ → Option Nat
  | retired w => some w
  | _ => none

/-- The task that a worker has entered among the running ones. -/
def WorkerPhase.entered? : WorkerPhase τ σ → Option τ
  | recorded task => some task
  | ready task => some task
  | working task _ => some task
  | worked task _ _ => some task
  | leaving task => some task
  | _ => none

theorem WorkerPhase.entered?_firstPhase (first : Option τ) : (Pool.firstPhase first : WorkerPhase τ σ).entered? = none := by
  cases first <;> rfl

theorem WorkerPhase.firstPhase_ne_retired (first : Option τ) : (Pool.firstPhase first : WorkerPhase τ σ) ≠ retired := by
  cases first <;> simp [Pool.firstPhase]

/-- Settings are valid if there is room for workers and tasks, and some time to wait where waits are limited. -/
theorem PoolSettings.validate_iff {s : PoolSettings} : s.validate = .ok () ↔
    0 < s.max ∧ s.core ≤ s.max ∧ 0 < s.capacity ∧ (s.keepAlive.isZero = true → s.coreTimeout = false ∧ s.core = s.max) := by
  have hfault : s.validate = .ok () ↔ s.fault? = none := by
    unfold validate
    cases s.fault? <;> simp
  rw [hfault, fault?]
  by_cases hmax : s.max = 0
  · simp [hmax]
  · by_cases hcore : s.max < s.core
    · simp [hmax, hcore, Nat.not_le.mpr hcore]
    · by_cases hcapacity : s.capacity = 0
      · simp [hmax, hcore, hcapacity]
      · have heq : s.core = s.max ↔ s.max ≤ s.core := by omega
        simp [hmax, hcore, hcapacity, canTimeOut, heq, Nat.pos_iff_ne_zero, Nat.not_lt.mp hcore]

/-- Valid settings allow for a worker, and for all core workers. -/
theorem PoolSettings.max_of_validate {s : PoolSettings} (h : s.validate = .ok ()) : 0 < s.max ∧ s.core ≤ s.max := by
  obtain ⟨hmax, hcore, -⟩ := validate_iff.mp h
  exact ⟨hmax, hcore⟩

namespace Pool

variable {p q : Pool τ σ} {act : PoolAct τ σ} {events : List (PoolEvent τ)} {w v : Nat} {a b : WorkerPhase τ σ}
  {task : τ} {refusal : Option IoError} {history : List (Moment τ σ)}

/-- The workers that were started, the newest first. -/
def startedOnes (history : List (Moment τ σ)) : List Nat := (happened history).filterMap PoolEvent.started?

/-- The workers that have retired. -/
def retiredOnes (history : List (Moment τ σ)) : List Nat := (happened history).filterMap PoolEvent.retired?

theorem startedOnes_cons (moment : Moment τ σ) (history : List (Moment τ σ)) :
    startedOnes (moment :: history) = moment.events.filterMap PoolEvent.started? ++ startedOnes history := by
  simp [startedOnes, happened_cons]

theorem retiredOnes_cons (moment : Moment τ σ) (history : List (Moment τ σ)) :
    retiredOnes (moment :: history) = moment.events.filterMap PoolEvent.retired? ++ retiredOnes history := by
  simp [retiredOnes, happened_cons]

/-! ## Numbers -/

def ids (p : Pool τ σ) : List Nat := p.workers.map (·.id)

/-- A step gives out the next number, or none. -/
structure Numbering (p q : Pool τ σ) (events : List (PoolEvent τ)) : Prop where
  fresh : events.filterMap PoolEvent.started? = [] ∨ events.filterMap PoolEvent.started? = [p.nextWorker]
  next : q.nextWorker = p.nextWorker + (events.filterMap PoolEvent.started?).length
  ids : q.ids = p.ids ++ events.filterMap PoolEvent.started?

theorem Numbering.same (hids : q.ids = p.ids) (hnext : q.nextWorker = p.nextWorker)
    (hno : events.filterMap PoolEvent.started? = []) : Numbering p q events := by
  constructor <;> simp [*]

theorem Numbering.launch (hids : q.ids = p.ids) (hnext : q.nextWorker = p.nextWorker) (first : Option τ) :
    Numbering p (q.launch first) [.started p.nextWorker, .accepted task] where
  fresh := .inr rfl
  next := congrArg (· + 1) hnext
  ids := by
    show (q.launch first).workers.map (·.id) = _
    rw [workers_launch, List.map_append]
    exact congrArg₂ (· ++ [·]) hids hnext

theorem Admission.numbering (ha : Admission p task refusal q events) : Numbering p q events := by
  cases ha with
  | stopped | unstaffed | full | queued | stranded => exact .same rfl rfl rfl
  | handed => exact .same (ids_setPhase _) rfl rfl
  | started => exact .launch rfl rfl _
  | rescued => exact Numbering.launch (p := p) (q := p.enqueue task) rfl rfl none

theorem Move.numbering (hm : Move p act q events) : Numbering p q events := by
  cases hm with
  | submitted ha => exact ha.numbering
  | dismissed | retired | left => exact .same (ids_setPhase _) rfl rfl
  | heeded => exact .same (ids_setPhase _) rfl (by split <;> rfl)
  | finished => exact .same (ids_setPhase _) rfl (by unfold panicEvents; split <;> rfl)
  | @completed w task panic stage hookPanic => exact .same (ids_setPhase _) rfl (by cases hookPanic <;> rfl)
  | halted | drained | interrupted | reported | awaits | abandoned | rechecked => exact .same rfl rfl rfl
  | _ => exact .same (ids_setPhase _) rfl rfl

/-- The workers have the numbers from one on, and each was started once. -/
structure Numbered (history : List (Moment τ σ)) (p : Pool τ σ) : Prop where
  next : p.nextWorker = p.ids.length + 1
  ids : p.ids = List.range' 1 p.ids.length
  started : startedOnes history = p.ids.reverse

theorem Numbered.step (h : Numbered history p) (hn : Numbering p q events) :
    Numbered ({ act, events } :: history) q := by
  obtain ⟨hnext, hids, hstarted⟩ := h
  obtain ⟨hfresh, hnext', hids'⟩ := hn
  have hold : startedOnes ({ act, events } :: history) = events.filterMap PoolEvent.started? ++ startedOnes history :=
    startedOnes_cons _ _
  rcases hfresh with hf | hf <;> rw [hf] at hnext' hids' hold
  · rw [List.append_nil] at hids'
    exact ⟨by rw [hnext', hids', hnext]; rfl, by rw [hids', ← hids], by rw [hold, hids', hstarted]; rfl⟩
  · refine ⟨by rw [hnext', hids', hnext]; simp, ?_, by rw [hold, hids', hstarted]; simp⟩
    rw [hids', List.length_append, List.length_singleton, List.range'_1_concat, ← hids, hnext, Nat.add_comm 1]

theorem Reachable.numbered (h : Reachable history p) : Numbered history p :=
  h.invariant (P := Numbered) (fun _ _ => ⟨rfl, rfl, rfl⟩) fun _ ih hm => ih.step hm.numbering

/-! ## Retirements -/

theorem retired_setPhase (hw : p.phase? w = some a) (ha : a ≠ .retired) (hb : b ≠ .retired) :
    (p.setPhase w b).phase? v = some .retired ↔ p.phase? v = some .retired := by
  by_cases hv : v = w
  · subst hv
    simp [hw, ha, hb]
  · rw [phase?_setPhase_ne hv]

theorem retired_launch (first : Option τ) :
    (p.launch first).phase? v = some .retired ↔ p.phase? v = some .retired := by
  have hfirst : (firstPhase first : WorkerPhase τ σ) ≠ .retired := WorkerPhase.firstPhase_ne_retired first
  rw [phase?_launch]
  cases p.phase? v with
  | some a => simp
  | none => by_cases hv : v = p.nextWorker <;> simp [hv, hfirst]

theorem Admission.retirements (ha : Admission p task refusal q events) (hman : p.Manned) :
    events.filterMap PoolEvent.retired? = [] ∧ (q.phase? v = some .retired ↔ p.phase? v = some .retired) := by
  cases ha with
  | stopped | unstaffed | full | queued | stranded => exact ⟨rfl, Iff.rfl⟩
  | started => exact ⟨rfl, retired_launch _⟩
  | rescued => exact ⟨rfl, retired_launch (p := p.enqueue task) none⟩
  | @handed _ worker rest _ _ _ hw =>
      obtain ⟨timed, ht⟩ := hman.waiting worker (by rw [hw]; exact List.mem_cons_self)
      exact ⟨rfl, retired_setPhase (b := .holding task) ht (by simp) (by simp)⟩

/-- Who has retired after a step had retired before it or retires in it. -/
theorem Move.retirements (hm : Move p act q events) (hman : p.Manned) :
    q.phase? v = some .retired ↔ v ∈ events.filterMap PoolEvent.retired? ∨ p.phase? v = some .retired := by
  have hstay {u : Pool τ σ} {w : Nat} {a b : WorkerPhase τ σ} (hw : p.phase? w = some a) (ha : a ≠ .retired)
      (hb : b ≠ .retired) (hu : u.workers = (p.setPhase w b).workers) {l : List (PoolEvent τ)}
      (hno : l.filterMap PoolEvent.retired? = []) :
      u.phase? v = some .retired ↔ v ∈ l.filterMap PoolEvent.retired? ∨ p.phase? v = some .retired := by
    have hsame : u.phase? v = (p.setPhase w b).phase? v := by rw [phase?, hu, phase?]
    rw [hsame, retired_setPhase hw ha hb, hno]
    simp
  have hleave {w : Nat} {a : WorkerPhase τ σ} (hw : p.phase? w = some a) :
      (p.retire w).1.phase? v = some .retired ↔ v ∈ [w] ∨ p.phase? v = some .retired := by
    show (p.setPhase w .retired).phase? v = _ ↔ _
    by_cases hv : v = w
    · subst hv; simp [hw]
    · simp [hv]
  cases hm with
  | submitted ha =>
      obtain ⟨hno, hsame⟩ := ha.retirements hman (v := v)
      simp [hno, hsame]
  | dismissed hw | retired hw | left hw => exact hleave hw
  | cutOff hw => rcases hw with ⟨hw, -⟩ | hw <;> exact hstay hw (by simp) (by simp) rfl rfl
  | heeded hw => exact hstay hw (by simp) (by simp) rfl (by split <;> rfl)
  | finished hw => exact hstay hw (by simp) (by simp) rfl (by unfold panicEvents; split <;> rfl)
  | @completed w task panic stage hookPanic hw =>
      exact hstay (b := .leaving task) hw (by simp) (by simp) rfl (by cases hookPanic <;> rfl)
  | halted | drained | interrupted | reported | awaits | abandoned | rechecked => simp [phase?]
  | sought hw | took hw | waits hw | expired hw | stayed hw | recorded hw | entered hw | barred hw | advanced hw
  | hooked hw | released hw => exact hstay hw (by simp) (by simp) rfl rfl

theorem Reachable.retirements [DecidableEq τ] (h : Reachable history p) (v : Nat) :
    p.phase? v = some .retired ↔ v ∈ retiredOnes history := by
  refine h.invariant (P := fun history p => p.phase? v = some .retired ↔ v ∈ retiredOnes history)
    (fun _ _ => by simp [phase?, Pool.create, retiredOnes, happened]) fun hreach ih hm => ?_
  rw [hm.retirements hreach.manned, retiredOnes_cons, List.mem_append, ih]

/-! ## Live workers -/

/-- Those of the started workers that have not retired. -/
def liveOnes (history : List (Moment τ σ)) : List Nat :=
  (startedOnes history).filter fun w => w ∉ retiredOnes history

theorem Reachable.live_eq [DecidableEq τ] (h : Reachable history p) : p.live = (liveOnes history).length := by
  have hretired (a : WorkerPhase τ σ) : a.isRetired = true ↔ a = .retired := by
    cases a <;> simp [WorkerPhase.isRetired]
  have hphase {x : Worker τ σ} (hx : x ∈ p.workers) : (!x.phase.isRetired) = decide (x.id ∉ retiredOnes history) := by
    have hw := h.retirements x.id
    rw [phase?_of_mem h.manned hx, Option.some.injEq, ← hretired] at hw
    rw [decide_not, Bool.not_inj_iff, Bool.eq_iff_iff, hw, decide_eq_true_iff]
  calc p.live = p.workers.countP fun x => !x.phase.isRetired := h.counted
    _ = p.workers.countP fun x => decide (x.id ∉ retiredOnes history) :=
        List.countP_congr fun x hx => by rw [hphase hx]
    _ = p.ids.countP fun w => decide (w ∉ retiredOnes history) := by rw [ids, List.countP_map]; rfl
    _ = p.ids.reverse.countP fun w => decide (w ∉ retiredOnes history) := (List.countP_reverse ..).symm
    _ = (liveOnes history).length := by rw [liveOnes, h.numbered.started, List.countP_eq_length_filter]

/-- The live workers are counted, and there are no more than the settings allow. -/
theorem Admission.bounded (ha : Admission p task refusal q events) (hvalid : p.settings.validate = .ok ())
    (h : p.live ≤ p.settings.max) : q.live ≤ p.settings.max := by
  have hmax := PoolSettings.max_of_validate hvalid
  cases ha with
  | stopped | unstaffed | full | handed | queued | stranded => exact h
  | started _ hl => show p.live + 1 ≤ p.settings.max; omega
  | rescued _ _ hl => show p.live + 1 ≤ p.settings.max; omega

theorem Move.bounded (hm : Move p act q events) (hvalid : p.settings.validate = .ok ())
    (h : p.live ≤ p.settings.max) : q.live ≤ p.settings.max := by
  cases hm with
  | submitted ha => exact ha.bounded hvalid h
  | dismissed | retired | left => exact Nat.le_trans (Nat.sub_le _ _) h
  | _ => exact h

theorem Reachable.settings (h : Reachable history p) : p.settings.validate = .ok () := by
  obtain ⟨name, settings, hvalid, hrun⟩ := h
  induction hrun with
  | start => exact hvalid
  | step _ hs ih => rw [(step_move hs).fixed.settings]; exact ih

theorem Reachable.bounded (h : Reachable history p) : p.live ≤ p.settings.max := by
  refine h.invariant (P := fun _ p => p.live ≤ p.settings.max) (fun _ _ => Nat.zero_le _) fun hreach ih hm => ?_
  rw [hm.fixed.settings]
  exact hm.bounded hreach.settings ih

/-- Who retires was counted, so the count goes down by exactly one. -/
theorem Move.live_of_retired (hm : Move p act q events) (hcount : p.Counted) (hr : PoolEvent.retired w ∈ events) :
    q.live + 1 = p.live := by
  have hpos {w : Nat} {a : WorkerPhase τ σ} (hw : p.phase? w = some a) (ha : a.isRetired = false) :
      p.live - 1 + 1 = p.live :=
    Nat.sub_add_cancel (hcount.live_pos hw ha)
  cases hm with
  | submitted ha => cases ha <;> simp at hr
  | dismissed hw | retired hw | left hw => exact hpos hw rfl
  | heeded => split at hr <;> simp at hr
  | finished => unfold panicEvents at hr; split at hr <;> simp at hr
  | @completed w task panic stage hookPanic => cases hookPanic <;> simp at hr
  | _ => simp at hr

/-! ## Running tasks -/

/-- The task that a worker has entered. -/
def entered? (p : Pool τ σ) (w : Nat) : Option τ := (p.phase? w).bind WorkerPhase.entered?

theorem entered?_setPhase_same (hw : p.phase? w = some a) (hab : b.entered? = a.entered?) :
    (p.setPhase w b).entered? v = p.entered? v := by
  by_cases hv : v = w
  · subst hv; simp [entered?, hw, hab]
  · rw [entered?, phase?_setPhase_ne hv, entered?]

theorem entered?_launch (first : Option τ) : (p.launch first).entered? v = p.entered? v := by
  have hfirst : (firstPhase first : WorkerPhase τ σ).entered? = none := WorkerPhase.entered?_firstPhase first
  rw [entered?, entered?, phase?_launch]
  cases p.phase? v with
  | some a => rfl
  | none => by_cases hv : v = p.nextWorker <;> simp [hv, hfirst]

/-- The running tasks are those that workers have entered, one for each worker. -/
structure Enrolled (p : Pool τ σ) : Prop where
  keys : (p.running.map (·.1)).Nodup
  entry : ∀ w task, (w, task) ∈ p.running ↔ p.entered? w = some task

theorem Enrolled.same (h : p.Enrolled) (hr : q.running = p.running) (he : ∀ v, q.entered? v = p.entered? v) :
    q.Enrolled :=
  ⟨hr ▸ h.keys, fun w task => by rw [hr, he]; exact h.entry w task⟩

theorem Enrolled.strike (h : p.Enrolled) : ((p.strike w).running.map (·.1)).Nodup :=
  h.keys.sublist (List.filter_sublist.map _)

theorem mem_strike (x : Nat × τ) : x ∈ (p.strike w).running ↔ x ∈ p.running ∧ x.1 ≠ w := by
  simp [Pool.strike]

theorem Enrolled.enlist (h : p.Enrolled) (hw : p.phase? w = some a) (hb : b.entered? = some task) :
    ((p.enlist w task).setPhase w b).Enrolled := by
  have hrunning : ((p.enlist w task).setPhase w b).running = (p.strike w).running ++ [(w, task)] := rfl
  refine ⟨?_, fun v t => ?_⟩
  · rw [hrunning, List.map_append, List.nodup_append]
    refine ⟨h.strike, by simp, fun i hi j hj => ?_⟩
    obtain ⟨x, hx, rfl⟩ := List.mem_map.mp hi
    have hj : j = w := by simpa using hj
    exact hj ▸ ((mem_strike x).mp hx).2
  · have hphase : ((p.enlist w task).setPhase w b).entered? v = (p.setPhase w b).entered? v := rfl
    rw [hrunning, List.mem_append, mem_strike, h.entry, hphase]
    by_cases hv : v = w
    · subst hv; simp [entered?, hw, hb, eq_comm]
    · simp [entered?, hv]

theorem Enrolled.release (h : p.Enrolled) (hw : p.phase? w = some a) (hb : b.entered? = none) :
    ((p.strike w).setPhase w b).Enrolled := by
  refine ⟨h.strike, fun v t => ?_⟩
  have hphase : ((p.strike w).setPhase w b).entered? v = (p.setPhase w b).entered? v := rfl
  rw [show ((p.strike w).setPhase w b).running = (p.strike w).running from rfl, mem_strike, h.entry, hphase]
  by_cases hv : v = w
  · subst hv; simp [entered?, hw, hb]
  · simp [entered?, hv]

theorem Admission.enrolled (ha : Admission p task refusal q events) (hman : p.Manned) (h : p.Enrolled) : q.Enrolled := by
  cases ha with
  | stopped | unstaffed | full => exact h
  | queued | stranded => exact h.same rfl fun _ => rfl
  | started => exact h.same rfl fun _ => entered?_launch _
  | rescued => exact h.same rfl fun _ => entered?_launch (p := p.enqueue task) none
  | @handed _ worker rest _ _ _ hw =>
      obtain ⟨timed, ht⟩ := hman.waiting worker (by rw [hw]; exact List.mem_cons_self)
      exact h.same rfl fun _ => entered?_setPhase_same (b := .holding task) ht rfl

theorem Move.enrolled (hm : Move p act q events) (hman : p.Manned) (h : p.Enrolled) : q.Enrolled := by
  have hsame {w : Nat} {a b : WorkerPhase τ σ} (hw : p.phase? w = some a) {u : Pool τ σ}
      (hr : u.running = p.running) (hu : u.workers = (p.setPhase w b).workers) (hab : b.entered? = a.entered?) :
      u.Enrolled :=
    h.same hr fun v => by
      have : u.entered? v = (p.setPhase w b).entered? v := by rw [entered?, phase?, hu, entered?, phase?]
      rw [this, entered?_setPhase_same hw hab]
  cases hm with
  | submitted ha => exact ha.enrolled hman h
  | recorded hw => exact h.enlist hw rfl
  | released hw => exact h.release hw rfl
  | cutOff hw => rcases hw with ⟨hw, -⟩ | hw <;> exact hsame hw rfl rfl rfl
  | dismissed hw | retired hw | left hw => exact hsame (b := .retired) hw rfl rfl rfl
  | sought hw | took hw | waits hw | expired hw | stayed hw | heeded hw | entered hw | barred hw | advanced hw
  | hooked hw | finished hw | completed hw => exact hsame hw rfl rfl rfl
  | halted | drained | interrupted | reported | awaits | abandoned | rechecked => exact h.same rfl fun _ => rfl

theorem Reachable.enrolled [DecidableEq τ] (h : Reachable history p) : p.Enrolled :=
  h.invariant (P := fun _ p => p.Enrolled)
    (fun _ _ => ⟨List.nodup_nil, fun _ _ => by simp [entered?, phase?, Pool.create]⟩)
    fun hreach ih hm => hm.enrolled hreach.manned ih

/-- Who runs a task was started and has not retired. -/
theorem Reachable.live_of_running [DecidableEq τ] (h : Reachable history p) {x : Nat × τ} (hx : x ∈ p.running) :
    x.1 ∈ liveOnes history := by
  have he := (h.enrolled.entry x.1 x.2).mp hx
  obtain ⟨a, hw, ha⟩ := Option.bind_eq_some_iff.mp he
  have hstarted : x.1 ∈ startedOnes history := by
    rw [h.numbered.started, List.mem_reverse]
    exact List.mem_map_of_mem (mem_of_phase? hw)
  have hstays : x.1 ∉ retiredOnes history := by
    rw [← h.retirements, hw]
    rintro e
    cases e
    cases ha
  simp [liveOnes, hstarted, hstays]

theorem Move.unstaffed {error : IoError} (hm : Move p act q events)
    (hr : PoolEvent.refused task (.spawn error) ∈ events) : q.nextWorker = p.nextWorker ∧ q.live = p.live := by
  cases hm with
  | submitted ha => cases ha <;> first | exact ⟨rfl, rfl⟩ | simp at hr
  | heeded => split at hr <;> simp at hr
  | finished => unfold panicEvents at hr; split at hr <;> simp at hr
  | @completed w task panic stage hookPanic => cases hookPanic <;> simp at hr
  | _ => simp at hr

/-! ## The books -/

/-- What the books of a pool say about its history. -/
structure Books (history : List (Moment τ σ)) (p : Pool τ σ) : Prop where
  live : p.live = (liveOnes history).length
  bounded : p.live ≤ p.settings.max
  distinct : (startedOnes history).Nodup
  numbers : ∀ w, w ∈ startedOnes history ↔ 1 ≤ w ∧ w < p.nextWorker
  running : ∀ w task, (w, task) ∈ p.running ↔ p.entered? w = some task
  once : (p.running.map (·.1)).Nodup
  owners : ∀ x ∈ p.running, x.1 ∈ liveOnes history
  few : p.running.length ≤ p.live

theorem Reachable.books [DecidableEq τ] (h : Reachable history p) : Books history p := by
  obtain ⟨hnext, hids, hstarted⟩ := h.numbered
  have hdistinct : (startedOnes history).Nodup := by
    rw [hstarted, List.nodup_reverse, hids]
    exact List.nodup_range'
  refine ⟨h.live_eq, h.bounded, hdistinct, fun w => ?_, h.enrolled.entry, h.enrolled.keys,
    fun x => h.live_of_running, ?_⟩
  · rw [hstarted, List.mem_reverse, hids, List.mem_range'_1, hnext]
    omega
  · have hsub : p.running.map (·.1) ⊆ liveOnes history := fun w hw => by
      obtain ⟨x, hx, rfl⟩ := List.mem_map.mp hw
      exact h.live_of_running hx
    rw [h.live_eq, ← List.length_map (f := (·.1))]
    exact (List.subperm_of_subset h.enrolled.keys hsub).length_le

/-- The books of a pool are right at any time, and no step takes a worker from the count that was not in it, or a number
for a thread that could not be created. -/
theorem books_kept [DecidableEq τ] (h : Reachable history p) :
    Books history p ∧ ∀ act q events, p.step act = some (q, events) →
      (∀ w, .retired w ∈ events → q.live + 1 = p.live) ∧
      (∀ task error, .refused task (.spawn error) ∈ events → q.nextWorker = p.nextWorker ∧ q.live = p.live) :=
  ⟨h.books, fun _ _ _ hs => ⟨fun _ => (step_move hs).live_of_retired h.counted, fun _ _ => (step_move hs).unstaffed⟩⟩

/-- Without core workers: the first worker retires after its task, a thread for the next task cannot be created, and the
second worker takes the number after that of the first. -/
theorem books_kept_after_refused_thread : ∃ (history : List (Moment Nat Unit)) (p : Pool Nat Unit),
    Reachable history p ∧ startedOnes history = [2, 1] ∧ retiredOnes history = [1] ∧
    PoolEvent.refused 8 (.spawn (.simple .wouldBlock)) ∈ happened history ∧ p.running = [(2, 9)] ∧ Books history p := by
  let settings : PoolSettings := { PoolSettings.serial with core := 0, capacity := 1 }
  let acts : List (PoolAct Nat Unit) :=
    [ .submit 7 none, .work 1 .seek, .work 1 .receive, .work 1 .record, .work 1 .heed, .work 1 (.enter () (some "boom")),
      .work 1 (.complete none), .work 1 .release, .work 1 .seek, .work 1 .receive, .work 1 .expire, .work 1 .decide,
      .submit 8 (some (.simple .wouldBlock)), .submit 9 none, .work 2 .record ]
  have hrun : (replay acts [] (create "pool" settings)).map (fun x => (startedOnes x.1, retiredOnes x.1, x.2.running,
      decide (PoolEvent.refused 8 (.spawn (.simple .wouldBlock)) ∈ happened x.1))) = some ([2, 1], [1], [(2, 9)], true) := by
    decide +kernel
  obtain ⟨⟨history, p⟩, hr, hx⟩ := Option.map_eq_some_iff.mp hrun
  simp only [Prod.mk.injEq, decide_eq_true_eq] at hx
  obtain ⟨hstarted, hretired, hrunning, hrefused⟩ := hx
  have hreach := replay_reachable (.create "pool" rfl) hr
  exact ⟨history, p, hreach, hstarted, hretired, hrefused, hrunning, (books_kept hreach).1⟩

end Pool

end SingleFlight
