import SingleFlight.Proofs.Pool.Attendance
import SingleFlight.Proofs.Pool.Rejections

/-!
# What a new pool accepts

Each accepted submission fills a place: it starts a worker, waits in the queue, or goes to a worker that waits. A pool
without core workers can fill two places at once, but only if no worker lives and nothing is queued. So a pool does not
run out of places before as many submissions were accepted as it promises.
-/

namespace SingleFlight

variable {τ σ : Type}

/-- The places that the first submission to a pool without core workers takes in excess. -/
def PoolSettings.excess (s : PoolSettings) : Nat := if s.core = 0 then 1 else 0

/-- How many submissions a new pool accepts whatever its workers do. -/
def PoolSettings.promised (s : PoolSettings) : Nat := s.max + s.capacity - s.excess

namespace Pool

variable {p q : Pool τ σ} {act : PoolAct τ σ} {events : List (PoolEvent τ)} {task : τ} {refusal : Option IoError}
  {history : List (Moment τ σ)} {n : Nat}

/-! ## Answers -/

/-- What a submission was answered: `none`, or why it was refused. -/
def Moment.answer? (moment : Moment τ σ) : Option (Option PoolError) :=
  match moment.act with
  | .submit _ _ => some (PoolEvent.refusal? moment.events)
  | _ => none

/-- The answers to the submissions, oldest first. -/
def answers (history : List (Moment τ σ)) : List (Option PoolError) := history.reverse.filterMap Moment.answer?

theorem answers_cons (moment : Moment τ σ) (history : List (Moment τ σ)) :
    answers (moment :: history) = answers history ++ moment.answer?.toList := by
  cases h : moment.answer? <;> simp [answers, h]

/-! ## Places -/

/-- The places of the pool that are taken: those of the queue and those of the live workers. -/
def occupied (p : Pool τ σ) : Nat := p.queue.length + p.live

/-- An accepted submission takes one place more; it takes two in an empty pool without core workers only. -/
theorem Admission.occupied (ha : Admission p task none q events) (hatt : p.isStopping = false → p.Attended)
    (h : p.occupied ≤ n + p.settings.excess) :
    q.occupied ≤ n + [PoolEvent.refusal? events].count none + p.settings.excess := by
  unfold Pool.occupied at *
  cases ha with
  | stopped | full => exact Nat.le_trans h (by omega)
  | started =>
      show p.queue.length + (p.live + 1) ≤ n + 1 + _
      omega
  | handed =>
      show p.queue.length + p.live ≤ n + 1 + _
      omega
  | queued =>
      have hqueue : (p.enqueue task).queue.length = p.queue.length + 1 := List.length_append
      show (p.enqueue task).queue.length + p.live ≤ n + 1 + _
      omega
  | rescued hgoing hcore hlive =>
      -- nobody is there to come for a queued task, so there was none
      have hempty : p.queue = [] := (hatt hgoing).queue_nil hlive
      have hqueue : (p.enqueue task).queue.length = p.queue.length + 1 := List.length_append
      have hexcess : p.settings.excess = 1 := if_pos (by omega)
      show (p.enqueue task).queue.length + (p.live + 1) ≤ n + 1 + _
      rw [hqueue, hempty, hlive, hexcess]
      simp

/-- No other step takes a place. -/
theorem Move.occupied (hm : Move p act q events) (hact : (⟨act, events⟩ : Moment τ σ).answer? = none) :
    q.occupied ≤ p.occupied := by
  cases hm with
  | submitted => cases hact
  | dismissed | retired | left => exact Nat.add_le_add_left (Nat.sub_le _ _) _
  | @took w timed task rest _ hqueue =>
      show rest.length + p.live ≤ p.queue.length + p.live
      simp [hqueue]
  | drained => exact Nat.add_le_add_right (Nat.zero_le _) _
  | _ => exact Nat.le_refl _

theorem Reachable.occupied (h : Reachable history p) (hs : Staffed history) :
    p.occupied ≤ (answers history).count none + p.settings.excess := by
  refine h.invariant (P := fun history p => Staffed history →
    p.occupied ≤ (answers history).count none + p.settings.excess) (fun _ _ _ => Nat.zero_le _) ?_ hs
  intro history p act q events hreach ih hm hs
  rw [hm.fixed.settings, answers_cons, List.count_append]
  cases hanswer : (⟨act, events⟩ : Moment τ σ).answer? with
  | none => exact Nat.le_trans (hm.occupied hanswer) (ih hs.tail)
  | some answer =>
      cases hm with
      | @submitted task refusal _ _ ha =>
          cases hanswer
          cases refusal with
          | none => exact ha.occupied (hreach.attended hs.tail) (ih hs.tail)
          | some error => cases hs _ List.mem_cons_self
      | _ => cases hanswer

/-! ## Full queues -/

theorem Admission.room (ha : Admission p task refusal q events) (h : p.queue.length ≤ p.channel.capacity) :
    q.queue.length ≤ q.channel.capacity := by
  cases ha with
  | stopped | unstaffed | full | started | handed => exact h
  | queued _ _ _ hroom | rescued _ _ _ hroom | stranded _ _ _ hroom =>
      show (p.queue ++ [task]).length ≤ p.channel.capacity
      rw [List.length_append]
      exact hroom

theorem Move.room (hm : Move p act q events) (h : p.queue.length ≤ p.channel.capacity) :
    q.queue.length ≤ q.channel.capacity := by
  cases hm with
  | submitted ha => exact ha.room h
  | @took w timed task rest _ hqueue =>
      rw [hqueue] at h
      exact Nat.le_trans (Nat.le_succ _) h
  | drained => exact Nat.zero_le _
  | _ => exact h

theorem Reachable.room (h : Reachable history p) :
    p.queue.length ≤ p.channel.capacity ∧ p.channel.capacity = p.settings.capacity := by
  refine h.invariant (P := fun _ p => p.queue.length ≤ p.channel.capacity ∧ p.channel.capacity = p.settings.capacity)
    (fun _ _ => ⟨Nat.zero_le _, rfl⟩) fun _ ih hm => ⟨hm.room ih.1, ?_⟩
  rw [hm.fixed.capacity, hm.fixed.settings, ih.2]

/-- Who is told that the queue is full finds all places taken. -/
theorem Move.queue_full (hm : Move p act q events) (hfull : PoolEvent.refused task (.queueFull n) ∈ events) :
    q = p ∧ n = p.settings.capacity ∧ p.settings.max ≤ p.live ∧ p.channel.capacity ≤ p.queue.length := by
  cases hm with
  | submitted ha =>
      cases ha with
      | full _ _ hlive hroom =>
          obtain ⟨-, rfl⟩ : task = _ ∧ n = _ := by simpa using hfull
          exact ⟨rfl, rfl, hlive, hroom⟩
      | _ => simp at hfull
  | heeded => split at hfull <;> simp at hfull
  | finished => unfold panicEvents at hfull; split at hfull <;> simp at hfull
  | @completed w task panic stage hookPanic => cases hookPanic <;> simp at hfull
  | _ => simp at hfull

theorem Reachable.queue_full (h : Reachable history p) (hs : p.step act = some (q, events))
    (hfull : PoolEvent.refused task (.queueFull n) ∈ events) :
    p.live = p.settings.max ∧ p.queue.length = p.settings.capacity ∧ n = p.settings.capacity ∧ q = p := by
  obtain ⟨hq, hn, hlive, hqueue⟩ := (step_move hs).queue_full hfull
  obtain ⟨hroom, hcapacity⟩ := h.room
  have hbounded := h.bounded
  exact ⟨by omega, by omega, hn, hq⟩

/-! ## Promises -/

/-- A submission is accepted as long as there is a place, and a thread can be created. -/
theorem Admission.accepted (ha : Admission p task none q events) (hgoing : p.isStopping = false)
    (hopen : p.channel.isOpen = true) (hplace : p.occupied < p.settings.max + p.channel.capacity) :
    PoolEvent.refusal? events = none ∧ .accepted task ∈ events := by
  cases ha with
  | stopped hs => rcases hs with hs | hs <;> simp_all
  | full _ _ hlive hqueue =>
      unfold Pool.occupied at hplace
      omega
  | started | handed | queued | rescued => exact ⟨rfl, by simp⟩

theorem Reachable.accepts (h : Reachable history p) (hs : Staffed history) (hgoing : p.isStopping = false)
    (hfew : (answers history).length < p.settings.promised) (ha : Admission p task none q events) :
    PoolEvent.refusal? events = none ∧ .accepted task ∈ events := by
  refine ha.accepted hgoing (h.opened hgoing) ?_
  have hoccupied := h.occupied hs
  have hcount : (answers history).count none ≤ (answers history).length := List.count_le_length
  rw [h.room.2]
  unfold PoolSettings.promised at hfew
  omega

theorem Reachable.answered (h : Reachable history p) (hs : Staffed history) (hgoing : p.isStopping = false) :
    ∀ answer ∈ (answers history).take p.settings.promised, answer = none := by
  obtain ⟨name, settings, hvalid, hrun⟩ := h
  induction hrun with
  | start => simp [answers]
  | @step history p act q events hrun hstep ih =>
      have hreach : Reachable history p := ⟨name, settings, hvalid, hrun⟩
      have hgoing' := isStopping_before hstep hgoing
      have hm := step_move hstep
      rw [hm.fixed.settings, answers_cons, List.take_append]
      intro answer hmem
      rcases List.mem_append.mp hmem with hmem | hmem
      · exact ih hs.tail hgoing' answer hmem
      -- the submission is among the first ones, and those before it were fewer
      · have hfew : (answers history).length < p.settings.promised := by
          refine Nat.lt_of_not_le fun hle => ?_
          rw [Nat.sub_eq_zero_of_le hle] at hmem
          cases hmem
        have hanswer := Option.mem_toList.mp (List.mem_of_mem_take hmem)
        cases hm with
        | @submitted task refusal _ _ ha =>
            cases refusal with
            | none => cases hanswer; exact (hreach.accepts hs.tail hgoing' hfew ha).1
            | some error => cases hs _ List.mem_cons_self
        | _ => cases hanswer

/-- Where threads can be created, a new pool that is not stopped accepts as many submissions as there may be workers and
places in the queue, or one less without core workers, whatever the workers do in between; so long as there were fewer,
the next one is accepted as well. Whoever is told that the queue is full meets all workers there may be and a full queue,
and the pool stays as it is. -/
theorem first_submissions_accepted (h : Reachable history p) :
    (Staffed history → p.isStopping = false →
      (∀ answer ∈ (answers history).take p.settings.promised, answer = none) ∧
      ((answers history).length < p.settings.promised → ∀ task, ∃ q events,
        p.step (.submit task none) = some (q, events) ∧ PoolEvent.refusal? events = none ∧ .accepted task ∈ events)) ∧
    ∀ act q events task n, p.step act = some (q, events) → .refused task (.queueFull n) ∈ events →
      p.live = p.settings.max ∧ p.queue.length = p.settings.capacity ∧ n = p.settings.capacity ∧ q = p := by
  refine ⟨fun hs hgoing => ⟨h.answered hs hgoing, fun hfew task => ?_⟩, fun _ _ _ _ _ => h.queue_full⟩
  exact ⟨_, _, rfl, h.accepts hs hgoing hfew (submit_admission p task none)⟩

/-- Without core workers three submissions are promised. The first worker leaves after the first task, so there is room
for a fourth one, and the fifth one meets two workers and two queued tasks. -/
theorem fifth_submission_refused : ∃ (history : List (Moment Nat Unit)) (p : Pool Nat Unit), Reachable history p ∧
    Staffed history ∧ p.isStopping = false ∧ p.settings.core = 0 ∧ p.settings.promised = 3 ∧
    answers history = [none, none, none, none] ∧ (∀ answer ∈ (answers history).take 3, answer = none) ∧
    p.step (.submit 4 none) = some (p, [.refused 4 (.queueFull 2)]) ∧ p.live = 2 ∧ p.queue.length = 2 := by
  let settings : PoolSettings := { PoolSettings.serial with core := 0, max := 2, capacity := 2 }
  let acts : List (PoolAct Nat Unit) :=
    [ .submit 0 none, .work 1 .seek, .work 1 .receive, .work 1 .record, .work 1 .heed, .work 1 (.enter () none),
      .work 1 (.finish () none), .work 1 (.complete none), .work 1 .release, .work 1 .seek, .work 1 .receive,
      .work 1 .expire, .work 1 .decide, .submit 1 none, .submit 2 none, .submit 3 none ]
  have hrun : (replay acts [] (create "pool" settings)).map (fun x =>
      ((x.1.all fun moment => moment.act.isStaffed) && !x.2.isStopping,
        [x.2.settings.core, x.2.settings.max, x.2.settings.promised], decide (answers x.1 = [none, none, none, none]),
        (x.2.step (.submit 4 none)).map (·.2)))
      = some (true, [0, 2, 3], true, some [.refused 4 (.queueFull 2)]) := by
    decide +kernel
  obtain ⟨⟨history, p⟩, hr, hx⟩ := Option.map_eq_some_iff.mp hrun
  simp only [Prod.mk.injEq, Bool.and_eq_true, Bool.not_eq_true', List.all_eq_true, List.cons.injEq, and_true,
    decide_eq_true_eq, Option.map_eq_some_iff, Prod.exists, exists_eq_right] at hx
  obtain ⟨⟨hstaffed, hgoing⟩, ⟨hcore, hmax, hpromised⟩, hanswers, q, hstep⟩ := hx
  have hreach := replay_reachable (.create "pool" rfl) hr
  obtain ⟨haccepted, hfull⟩ := first_submissions_accepted hreach
  obtain ⟨hlive, hqueue, hcapacity, rfl⟩ := hfull _ q _ 4 2 hstep (by simp)
  refine ⟨history, q, hreach, hstaffed, hgoing, hcore, hpromised, hanswers, ?_, hstep, hlive.trans hmax,
    hqueue.trans hcapacity.symm⟩
  rw [← hpromised]
  exact (haccepted hstaffed hgoing).1

end Pool

end SingleFlight
