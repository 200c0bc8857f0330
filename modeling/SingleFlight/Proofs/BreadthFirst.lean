import SingleFlight.OwnerLoop.Job

/-!
# The order of a loop's jobs

The owner runs a forest of jobs breadth first and each job once, however many of them panic. What a run has run,
followed by what it leaves in the queue, is what was queued, followed by the children of what it has run; this
alone fixes the order.
-/

namespace SingleFlight

/-! ## Forests -/

namespace Job

theorem sizes_flatMap_children (forest : List Job) :
    sizes (forest.flatMap children) + forest.length = sizes forest := by
  induction forest with
  | nil => rfl
  | cons job rest ih =>
      rw [List.flatMap_cons, sizes_append, sizes, size_eq, List.length_cons]
      omega

/-- The jobs of a forest level by level, each level from left to right. -/
def levelOrder : List Job → List Job
  | [] => []
  | job :: rest => (job :: rest) ++ levelOrder ((job :: rest).flatMap children)
termination_by forest => sizes forest
decreasing_by
  have := sizes_flatMap_children (job :: rest)
  rw [List.length_cons] at this
  omega

mutual
/-- The jobs of a tree, each before its children. -/
def family : Job → List Job
  | mk label children panic => mk label children panic :: families children

/-- The jobs of a list of trees. -/
def families : List Job → List Job
  | [] => []
  | job :: rest => family job ++ families rest
end

mutual
/-- The same tree without panics. -/
def calmed : Job → Job
  | mk label children _ => mk label (calmedAll children) none

/-- The same trees without panics. -/
def calmedAll : List Job → List Job
  | [] => []
  | job :: rest => calmed job :: calmedAll rest
end

theorem levelOrder_eq (forest : List Job) : levelOrder forest = forest ++ levelOrder (forest.flatMap children) := by
  cases forest with
  | nil => simp [levelOrder]
  | cons job rest => rw [levelOrder]

/-- A list that is a forest followed by the children of the list itself is the forest level by level. -/
theorem eq_levelOrder {forest jobs : List Job} (h : jobs = forest ++ jobs.flatMap children) :
    jobs = levelOrder forest := by
  induction forest using levelOrder.induct generalizing jobs with
  | case1 =>
      have hsize := sizes_flatMap_children jobs
      rw [List.nil_append] at h
      rw [← h] at hsize
      rw [levelOrder]
      exact List.eq_nil_of_length_eq_zero (by omega)
  | case2 job rest ih =>
      -- The list without its first level is again a forest followed by its own children.
      have hbelow : jobs.flatMap children
          = (job :: rest).flatMap children ++ (jobs.flatMap children).flatMap children :=
        (congrArg (List.flatMap children) h).trans List.flatMap_append
      rw [levelOrder, ← ih hbelow]
      exact h

theorem family_eq (job : Job) : family job = job :: families job.children := by
  cases job; rw [family]; rfl

theorem families_append (xs ys : List Job) : families (xs ++ ys) = families xs ++ families ys := by
  induction xs with
  | nil => rfl
  | cons x xs ih => rw [List.cons_append, families, families, ih, List.append_assoc]

/-- The first level and the rest are all jobs. -/
theorem families_perm (forest : List Job) :
    (forest ++ families (forest.flatMap children)).Perm (families forest) := by
  induction forest with
  | nil => rfl
  | cons job rest ih =>
      rw [List.flatMap_cons, families_append, families, family_eq, List.cons_append, List.cons_append]
      refine .cons job ?_
      have hswap : (rest ++ (families job.children ++ families (rest.flatMap children))).Perm
          (families job.children ++ (rest ++ families (rest.flatMap children))) := by
        rw [← List.append_assoc, ← List.append_assoc]
        exact List.perm_append_comm.append_right _
      exact hswap.trans (ih.append_left _)

theorem length_levelOrder (forest : List Job) : (levelOrder forest).length = sizes forest := by
  induction forest using levelOrder.induct with
  | case1 => rw [levelOrder]; rfl
  | case2 job rest ih => rw [levelOrder, List.length_append, ih, Nat.add_comm, sizes_flatMap_children]

theorem levelOrder_perm (forest : List Job) : (levelOrder forest).Perm (families forest) := by
  induction forest using levelOrder.induct with
  | case1 => rw [levelOrder]; rfl
  | case2 job rest ih => rw [levelOrder]; exact (ih.append_left _).trans (families_perm _)

theorem calmedAll_eq (forest : List Job) : calmedAll forest = forest.map calmed := by
  induction forest with
  | nil => rfl
  | cons job rest ih => rw [calmedAll, ih, List.map_cons]

@[simp] theorem label_calmed (job : Job) : (calmed job).label = job.label := by
  cases job; rw [calmed]; rfl

@[simp] theorem panic_calmed (job : Job) : (calmed job).panic? = none := by
  cases job; rw [calmed]; rfl

@[simp] theorem children_calmed (job : Job) : (calmed job).children = job.children.map calmed := by
  cases job; rw [calmed]; exact calmedAll_eq _

/-- Panics do not change the order. -/
theorem levelOrder_calmed (forest : List Job) : levelOrder (forest.map calmed) = (levelOrder forest).map calmed := by
  induction forest using levelOrder.induct with
  | case1 => simp [levelOrder]
  | case2 job rest ih =>
      have hbelow : ((job :: rest).map calmed).flatMap children = ((job :: rest).flatMap children).map calmed := by
        simp [List.flatMap_map, List.map_flatMap]
      rw [levelOrder_eq, hbelow, ih, levelOrder, List.map_append]

end Job

/-! ## Runs -/

namespace OwnerLoop

variable {l rest : OwnerLoop Job} {job : Job} {jobs : List Job} {count : Nat} {p : Pumped}

/-- `Serves l count jobs p`: in the run `p` the loop `l` runs these jobs, after `count` others. -/
structure Serves (l : OwnerLoop Job) (count : Nat) (jobs : List Job) (p : Pumped) : Prop where
  labels : p.ran = jobs.map Job.label
  isOpen : p.loop.isClosed = false
  /-- What was run and what is left are what was queued and the children of what was run. -/
  line : jobs ++ p.loop.queue = l.queue ++ jobs.flatMap Job.children
  /-- A run that returns leaves nothing. -/
  returned : ∀ n, p.ended = .ok n → p.loop.queue = [] ∧ n = count + jobs.length ∧ ∀ job ∈ jobs, job.panic? = none
  /-- A panic uses up its own job, whose children stay behind all others. -/
  panicked : ∀ message, p.ended = .error message → ∃ before job others,
    jobs = before ++ [job] ∧ (∀ other ∈ before, other.panic? = none) ∧ job.panic? = some message ∧
      p.loop.queue = others ++ job.children

theorem Serves.nothing (hopen : l.isClosed = false) (hempty : l.queue = []) :
    Serves l count [] { loop := l, ran := [], ended := .ok count } where
  labels := rfl
  isOpen := hopen
  line := by simp
  returned := by rintro n ⟨⟩; exact ⟨hempty, rfl, by simp⟩
  panicked := by rintro message ⟨⟩

theorem Serves.panic {message : String} (hqueue : l.queue = job :: rest.queue) (hopen : rest.isClosed = false)
    (hpanic : job.panic? = some message) :
    Serves l count [job]
      { loop := rest.postAll job.children, ran := [job.label], ended := .error message } where
  labels := rfl
  isOpen := by rw [isClosed_postAll, hopen]
  line := by simp [queue_postAll _ _ hopen, hqueue]
  returned := by rintro n ⟨⟩
  panicked := by
    rintro m ⟨⟩
    exact ⟨[], job, rest.queue, rfl, by simp, hpanic, queue_postAll _ _ hopen⟩

theorem Serves.cons (hqueue : l.queue = job :: rest.queue) (hopen : rest.isClosed = false)
    (hreturns : job.panic? = none) (h : Serves (rest.postAll job.children) (count + 1) jobs p) :
    Serves l count (job :: jobs) { p with ran := job.label :: p.ran } where
  labels := by simp [h.labels]
  isOpen := h.isOpen
  line := by simp [h.line, queue_postAll _ _ hopen, hqueue]
  returned := by
    intro n hn
    obtain ⟨hempty, hcount, hall⟩ := h.returned n hn
    exact ⟨hempty, by rw [hcount, List.length_cons]; omega, by simpa [hreturns] using hall⟩
  panicked := by
    intro message hm
    obtain ⟨before, last, others, rfl, hbefore, hlast, hleft⟩ := h.panicked message hm
    exact ⟨job :: before, last, others, rfl, by simpa [hreturns] using hbefore, hlast, hleft⟩

theorem serves_runFrom (l : OwnerLoop Job) (count : Nat) (hopen : l.isClosed = false) :
    ∃ jobs, Serves l count jobs (l.runFrom count) := by
  fun_induction runFrom l count with
  | case1 l count hl => exact ⟨[], .nothing hopen (take?_eq_none hl)⟩
  | case2 l count job rest hl left message hpanic =>
      obtain ⟨hqueue, hclosed⟩ := take?_eq_some hl
      exact ⟨[job], .panic hqueue (hclosed.trans hopen) hpanic⟩
  | case3 l count job rest hl left hreturns pumped ih =>
      obtain ⟨hqueue, hclosed⟩ := take?_eq_some hl
      have hrest := hclosed.trans hopen
      obtain ⟨jobs, hjobs⟩ := ih (by rw [isClosed_postAll, hrest])
      exact ⟨job :: jobs, hjobs.cons hqueue hrest hreturns⟩

theorem serves_runPending (hopen : l.isClosed = false) : ∃ jobs, Serves l 0 jobs l.runPending :=
  serves_runFrom l 0 hopen

theorem Serves.levelOrder (h : Serves l count jobs p) (hempty : p.loop.queue = []) :
    jobs = Job.levelOrder l.queue := by
  have hline := h.line
  rw [hempty, List.append_nil] at hline
  exact Job.eq_levelOrder hline

theorem returns_calmed (l : OwnerLoop Job) (count : Nat) : ∀ forest : List Job, l.isClosed = false →
    l.queue = forest.map Job.calmed → ∃ n, (l.runFrom count).ended = .ok n := by
  fun_induction runFrom l count with
  | case1 l count => exact fun _ _ _ => ⟨count, rfl⟩
  | case2 l count job rest hl left message hpanic =>
      intro forest _ h
      rw [(take?_eq_some hl).1] at h
      obtain ⟨first, others, -, rfl, -⟩ := List.map_eq_cons_iff.mp h.symm
      simp at hpanic
  | case3 l count job rest hl left hreturns pumped ih =>
      intro forest hopen h
      obtain ⟨hqueue, hclosed⟩ := take?_eq_some hl
      have hrest := hclosed.trans hopen
      rw [hqueue] at h
      obtain ⟨first, others, -, rfl, hothers⟩ := List.map_eq_cons_iff.mp h.symm
      refine ih (others ++ first.children) (by rw [isClosed_postAll, hrest]) ?_
      rw [queue_postAll _ _ hrest, ← hothers, Job.children_calmed, List.map_append]

/-- Without panics one run is enough. -/
theorem runPending_calmed (forest : List Job) :
    ({ queue := forest.map Job.calmed } : OwnerLoop Job).runPending =
      { loop := { queue := [] }, ran := (Job.levelOrder forest).map Job.label, ended := .ok (Job.sizes forest) } := by
  obtain ⟨n, hended⟩ : ∃ n, ({ queue := forest.map Job.calmed } : OwnerLoop Job).runPending.ended = .ok n :=
    returns_calmed _ 0 forest rfl rfl
  obtain ⟨jobs, h⟩ := serves_runPending (l := { queue := forest.map Job.calmed }) rfl
  generalize ({ queue := forest.map Job.calmed } : OwnerLoop Job).runPending = p at h hended ⊢
  obtain ⟨hempty, hn, -⟩ := h.returned n hended
  have hjobs : jobs = (Job.levelOrder forest).map Job.calmed :=
    (h.levelOrder hempty).trans (Job.levelOrder_calmed forest)
  have hlabels := h.labels
  have hopen := h.isOpen
  obtain ⟨⟨queue, isClosed⟩, ran, ended⟩ := p
  subst hjobs
  simp only [List.length_map, Job.length_levelOrder, Nat.zero_add, List.map_map] at hended hempty hn hlabels hopen
  rw [hended, hempty, hn, hopen, hlabels, show Job.label ∘ Job.calmed = Job.label from funext Job.label_calmed]

/-! ## Runs until one returns -/

theorem runThrough_eq (l : OwnerLoop Job) :
    ∃ panicked last, l.runThrough = panicked ++ [last] ∧ (∀ p ∈ panicked, ∃ message, p.ended = .error message) ∧
      ∃ n, last.ended = .ok n := by
  fun_induction runThrough l with
  | case1 l n hended => exact ⟨[], l.runPending, rfl, by simp, n, hended⟩
  | case2 l message hended ih =>
      obtain ⟨panicked, last, hruns, hall, hlast⟩ := ih
      exact ⟨l.runPending :: panicked, last, by rw [hruns]; rfl, by simpa [hended] using hall, hlast⟩

theorem serves_runThrough (l : OwnerLoop Job) (hopen : l.isClosed = false) :
    ∀ p ∈ l.runThrough, ∃ (before : OwnerLoop Job) (jobs : List Job), Serves before 0 jobs p := by
  fun_induction runThrough l with
  | case1 l =>
      obtain ⟨jobs, h⟩ := serves_runPending hopen
      simpa using ⟨l, jobs, h⟩
  | case2 l message hended ih =>
      obtain ⟨jobs, h⟩ := serves_runPending hopen
      intro p hp
      rcases List.mem_cons.mp hp with rfl | hp
      · exact ⟨l, jobs, h⟩
      · exact ih h.isOpen p hp

/-- The lines of the runs join: all that is run is what was queued and the children of all that is run. -/
theorem ran_runThrough (l : OwnerLoop Job) (hopen : l.isClosed = false) :
    l.runThrough.flatMap Pumped.ran = (Job.levelOrder l.queue).map Job.label := by
  suffices ∃ jobs : List Job, l.runThrough.flatMap Pumped.ran = jobs.map Job.label ∧
      jobs = l.queue ++ jobs.flatMap Job.children by
    obtain ⟨jobs, hran, hline⟩ := this
    rw [hran, ← Job.eq_levelOrder hline]
  fun_induction runThrough l with
  | case1 l n hended =>
      obtain ⟨jobs, h⟩ := serves_runPending hopen
      obtain ⟨hempty, -⟩ := h.returned n hended
      exact ⟨jobs, by simpa using h.labels, by simpa [hempty] using h.line⟩
  | case2 l message hended ih =>
      obtain ⟨jobs, h⟩ := serves_runPending hopen
      obtain ⟨more, hran, hline⟩ := ih h.isOpen
      have hjoined : jobs ++ more = l.queue ++ jobs.flatMap Job.children ++ more.flatMap Job.children := by
        rw [← h.line, List.append_assoc, ← hline]
      exact ⟨jobs ++ more, by simp [hran, h.labels], by simpa using hjoined⟩

end OwnerLoop

/-! ## Loops that are dropped -/

/-- What is done with a loop: a job is posted, the owner runs what is queued, or drops the loop. -/
inductive LoopAct
  | post (job : Job)
  | run
  | drop

namespace OwnerLoop

/-- The labels of the jobs that are run. -/
def play : List LoopAct → OwnerLoop Job → List String
  | [], _ => []
  | .post job :: acts, l => play acts (l.post job)
  | .run :: acts, l => l.runPending.ran ++ play acts l.runPending.loop
  | .drop :: acts, l => play acts l.drop

theorem runPending_drop (l : OwnerLoop Job) : l.drop.runPending = { loop := l.drop, ran := [], ended := .ok 0 } := by
  rw [runPending, runFrom]
  rfl

theorem play_dropped (acts : List LoopAct) (l : OwnerLoop Job) : l.drop.play acts = [] := by
  induction acts with
  | nil => rfl
  | cons act acts ih =>
      cases act with
      | post job => exact ih
      | run => rw [play, runPending_drop]; exact ih
      | drop => exact ih

theorem play_drop (before after : List LoopAct) :
    ∀ l : OwnerLoop Job, l.play (before ++ .drop :: after) = l.play before := by
  induction before with
  | nil => exact play_dropped after
  | cons act before ih =>
      intro l
      cases act with
      | post job => exact ih _
      | run => exact congrArg _ (ih _)
      | drop => exact ih _

/-- A forest that is run, again after each panic, until a run returns: every job is run once, level by level, in
the order in which it is run if no job panics. Every run, of any open loop, runs what is queued and posted in
order; a panic uses up its own job only and the children of that job stay queued behind all others; a run that
returns leaves nothing and counts what it ran. Once a loop is dropped nothing is run, queued or posted later. -/
theorem forest_run_in_posting_order (forest : List Job) :
    (∃ panicked last, ({ queue := forest } : OwnerLoop Job).runThrough = panicked ++ [last] ∧
      (∀ p ∈ panicked, ∃ message, p.ended = .error message) ∧
      last.loop = { queue := [] } ∧ last.ended = .ok last.ran.length ∧
      (panicked ++ [last]).flatMap Pumped.ran = (Job.levelOrder forest).map Job.label) ∧
    (Job.levelOrder forest).Perm (Job.families forest) ∧
    ({ queue := forest.map Job.calmed } : OwnerLoop Job).runPending =
      { loop := { queue := [] }, ran := (Job.levelOrder forest).map Job.label, ended := .ok (Job.sizes forest) } ∧
    (∀ l : OwnerLoop Job, l.isClosed = false → ∃ jobs, Serves l 0 jobs l.runPending) ∧
    ∀ (l : OwnerLoop Job) (before after : List LoopAct), l.play (before ++ .drop :: after) = l.play before := by
  refine ⟨?_, Job.levelOrder_perm forest, runPending_calmed forest, fun l hopen => serves_runPending hopen,
    fun l before after => play_drop before after l⟩
  obtain ⟨panicked, last, hruns, hpanicked, n, hlast⟩ := runThrough_eq { queue := forest }
  have hran := ran_runThrough { queue := forest } rfl
  obtain ⟨l, jobs, h⟩ := serves_runThrough { queue := forest } rfl last (by rw [hruns]; simp)
  obtain ⟨hempty, hn, -⟩ := h.returned n hlast
  refine ⟨panicked, last, hruns, hpanicked, by rw [← hempty, ← h.isOpen], ?_, hruns ▸ hran⟩
  rw [hlast, hn, h.labels, List.length_map, Nat.zero_add]

/-- A job that panics, its child and a job that was queued behind it. -/
theorem panicking_job_run_once :
    let forest := [Job.mk "a" [.mk "c" [] none] (some "lost"), .mk "b" [] none]
    (∃ jobs, Serves { queue := forest } 0 jobs ({ queue := forest } : OwnerLoop Job).runPending) ∧
      (({ queue := forest } : OwnerLoop Job).runPending).ended = .error "lost" ∧
      (Job.levelOrder forest).map Job.label = ["a", "b", "c"] ∧
      ({ queue := forest } : OwnerLoop Job).runThrough.flatMap Pumped.ran = ["a", "b", "c"] := by
  intro forest
  have horder : (Job.levelOrder forest).map Job.label = ["a", "b", "c"] := by
    simp [forest, Job.levelOrder, Job.children, Job.label]
  have hended : (({ queue := forest } : OwnerLoop Job).runPending).ended = .error "lost" := by
    simp [runPending, runFrom, take?, forest, Job.panic?]
  obtain ⟨⟨panicked, last, hruns, -, -, -, hran⟩, -, -, hserves, -⟩ := forest_run_in_posting_order forest
  exact ⟨hserves { queue := forest } rfl, hended, horder, by rw [hruns, hran, horder]⟩

end OwnerLoop

end SingleFlight
