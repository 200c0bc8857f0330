import SingleFlight.OwnerLoop

/-!
# Running jobs

Jobs that post further jobs and then return or panic, and how the owner runs what is queued. A
panic ends the run; it uses up the job that panicked and leaves all others, the children of that
job among them, in the queue.
-/

namespace SingleFlight

/-- A job with a label: it posts its children in order, then panics with a message or returns. -/
inductive Job
  | mk (label : String) (children : List Job) (panic : Option String)

namespace Job

def label : Job → String
  | mk label _ _ => label

def children : Job → List Job
  | mk _ children _ => children

/-- The message of the panic that ends the job. -/
def panic? : Job → Option String
  | mk _ _ panic => panic

mutual
/-- The number of jobs in a tree. -/
def size : Job → Nat
  | mk _ children _ => sizes children + 1

/-- The number of jobs in a list of trees. -/
def sizes : List Job → Nat
  | [] => 0
  | job :: rest => size job + sizes rest
end

theorem size_eq (job : Job) : job.size = sizes job.children + 1 := by
  cases job; simp [size, children]

theorem sizes_append (xs ys : List Job) : sizes (xs ++ ys) = sizes xs + sizes ys := by
  induction xs with
  | nil => simp [sizes]
  | cons x xs ih => simp [sizes, ih]; omega

end Job

/-- How a run of the loop ended. -/
structure Pumped where
  loop : OwnerLoop Job
  /-- The labels of the jobs that were run, in order; the last of them may have panicked. -/
  ran : List String
  /-- How many jobs returned, or the message of the panic that ended the run. -/
  ended : Except String Nat

namespace OwnerLoop

variable {l rest : OwnerLoop Job} {job : Job}

/-- The number of jobs in the queue and of all that they post. -/
def load (l : OwnerLoop Job) : Nat := Job.sizes l.queue

theorem load_post_le (l : OwnerLoop Job) (job : Job) : (l.post job).load ≤ l.load + job.size := by
  unfold post
  split
  · exact Nat.le_add_right _ _
  · simp [load, Job.sizes_append, Job.sizes]

theorem load_postAll_le (jobs : List Job) : ∀ l : OwnerLoop Job, (l.postAll jobs).load ≤ l.load + Job.sizes jobs := by
  induction jobs with
  | nil => exact fun l => Nat.le_refl _
  | cons job jobs ih =>
      intro l
      calc ((l.post job).postAll jobs).load
        _ ≤ (l.post job).load + Job.sizes jobs := ih _
        _ ≤ l.load + job.size + Job.sizes jobs := Nat.add_le_add_right (load_post_le l job) _
        _ = l.load + Job.sizes (job :: jobs) := by rw [Job.sizes, Nat.add_assoc]

/-- A job that is taken and posts its children lowers the load. -/
theorem load_taken (h : l.take? = some (job, rest)) : (rest.postAll job.children).load < l.load := by
  have hload : l.load = job.size + rest.load := by simp [load, (take?_eq_some h).1, Job.sizes]
  have hpost := load_postAll_le job.children rest
  rw [hload, Job.size_eq]
  omega

/-- Runs the oldest job, which posts its children, until none is left or one panics; so many jobs returned
before. -/
def runFrom (l : OwnerLoop Job) (count : Nat) : Pumped :=
  match _ : l.take? with
  | none => { loop := l, ran := [], ended := .ok count }
  | some (job, rest) =>
    let left := rest.postAll job.children
    match job.panic? with
    | some message => { loop := left, ran := [job.label], ended := .error message }
    | none =>
      let pumped := left.runFrom (count + 1)
      { pumped with ran := job.label :: pumped.ran }
termination_by l.load
decreasing_by exact load_taken ‹_›

/-- Runs what is queued and what it posts. -/
def runPending (l : OwnerLoop Job) : Pumped := l.runFrom 0

/-- A run that a panic ends has used up a job at least. -/
theorem load_panicked {count : Nat} {message : String} (h : (l.runFrom count).ended = .error message) :
    (l.runFrom count).loop.load < l.load := by
  fun_induction runFrom l count with
  | case1 => cases h
  | case2 l count job rest hl => exact load_taken hl
  | case3 l count job rest hl left hreturns pumped ih => exact Nat.lt_trans (ih h) (load_taken hl)

/-- Runs what is queued, again after each panic, until a run returns; all these runs in order. -/
def runThrough (l : OwnerLoop Job) : List Pumped :=
  match _ : l.runPending.ended with
  | .ok _ => [l.runPending]
  | .error _ => l.runPending :: l.runPending.loop.runThrough
termination_by l.load
decreasing_by exact load_panicked ‹_›

end OwnerLoop

end SingleFlight
