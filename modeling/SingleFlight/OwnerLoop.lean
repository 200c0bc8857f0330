import SingleFlight.Log.Entry

/-!
# The owner's loop

The queue of jobs that one thread, the owner, runs in the order in which they were posted. A loop
that was dropped discards what is queued and what is posted later.
-/

namespace SingleFlight

/-- A queue of jobs, oldest first. -/
structure OwnerLoop (α : Type) where
  queue : List α := []
  isClosed : Bool := false
deriving DecidableEq, Repr

namespace OwnerLoop

def pending (l : OwnerLoop α) : Nat := l.queue.length

def post (l : OwnerLoop α) (job : α) : OwnerLoop α :=
  if l.isClosed then l else { l with queue := l.queue ++ [job] }

/-- Posts jobs one after the other. -/
def postAll (l : OwnerLoop α) (jobs : List α) : OwnerLoop α := jobs.foldl post l

theorem postAll_cons (l : OwnerLoop α) (job : α) (jobs : List α) : l.postAll (job :: jobs) = (l.post job).postAll jobs :=
  rfl

theorem isClosed_postAll (jobs : List α) : ∀ l : OwnerLoop α, (l.postAll jobs).isClosed = l.isClosed := by
  induction jobs with
  | nil => intro l; rfl
  | cons job jobs ih =>
      intro l
      rw [postAll_cons, ih]
      unfold post
      split <;> rfl

theorem queue_postAll (jobs : List α) : ∀ l : OwnerLoop α, l.isClosed = false →
    (l.postAll jobs).queue = l.queue ++ jobs := by
  induction jobs with
  | nil => intro l _; exact (List.append_nil _).symm
  | cons job jobs ih =>
      intro l h
      have hpost : l.post job = { l with queue := l.queue ++ [job] } := by simp [post, h]
      rw [postAll_cons, hpost, ih { l with queue := l.queue ++ [job] } h, List.append_assoc]
      rfl

/-- The oldest job and the loop without it. -/
def take? (l : OwnerLoop α) : Option (α × OwnerLoop α) :=
  match l.queue with
  | [] => none
  | job :: rest => some (job, { l with queue := rest })

theorem take?_eq_none {l : OwnerLoop α} (h : l.take? = none) : l.queue = [] := by
  unfold take? at h
  split at h
  · assumption
  · cases h

theorem take?_eq_some {l rest : OwnerLoop α} {job : α} (h : l.take? = some (job, rest)) :
    l.queue = job :: rest.queue ∧ rest.isClosed = l.isClosed := by
  unfold take? at h
  split at h
  · cases h
  · rename_i hqueue; cases h; exact ⟨hqueue, rfl⟩

/-- Ends the loop and discards its jobs. -/
def drop (_ : OwnerLoop α) : OwnerLoop α := { queue := [], isClosed := true }

/-- The entry for a job that a dropped loop discards. -/
def discardEntry : LogEntry :=
  { level := .debug, target := "courier::executor"
    message := some "Main loop dropped, discarding job" }

/-- The name of the thread that owns the loops here. -/
def ownerName : String := "main"

/-- The loop as text. -/
def description (l : OwnerLoop α) : String :=
  Text.fields "MainLoop"
    [("owner", Text.optional Text.quoted (some ownerName)), ("pending", toString l.pending)]

/-- The posting side of the loop as text. -/
def handleDescription (l : OwnerLoop α) : String :=
  Text.fields "LoopHandle"
    [ ("owner", Text.optional Text.quoted (some ownerName)),
      ("closed", if l.isClosed then "true" else "false") ]

end OwnerLoop

end SingleFlight
