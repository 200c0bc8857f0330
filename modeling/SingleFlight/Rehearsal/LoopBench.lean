import SingleFlight.OwnerLoop.Host
import SingleFlight.OwnerLoop.Job

/-!
# The owner's loop on the bench

A loop with labelled jobs, driven step by step by its owner.
-/

namespace SingleFlight.Rehearsal

inductive LoopStep
  | post (job : Job)
  | run
  /-- Runs and then asks whether so many jobs ran so far. -/
  | runUntil (count : Nat)
  /-- Empties the queue, panics or not, then runs until a further job ran. -/
  | runUntilPosted (job : Job)
  /-- Runs for a moment. -/
  | runFor
  | pending
  | describe
  | isClosed
  | describeHandle
  | drop

inductive LoopStepAnswer
  | done
  | count (n : Nat)
  /-- How the question was answered and how often it was asked. -/
  | until (reached : Except String Bool) (asked : Nat)
  | truth (b : Bool)
  | text (s : String)
  | panicked (message : String)
  /-- The loop was dropped. -/
  | gone

/-- A loop with what ran so far. -/
structure LoopBench where
  loop : OwnerLoop Job := {}
  ran : List String := []

namespace LoopBench

/-- Runs what is queued and what it posts. -/
def pump (b : LoopBench) : LoopBench × Pumped :=
  let pumped := b.loop.runPending
  ({ loop := pumped.loop, ran := b.ran ++ pumped.ran }, pumped)

/-- Runs until nothing is queued, again after each panic. -/
def exhaust (b : LoopBench) : LoopBench :=
  b.loop.runThrough.foldl (fun b pumped => { loop := pumped.loop, ran := b.ran ++ pumped.ran }) b

/-- The answer of a run that has nothing to tell but its panic or how many jobs ran. -/
def pumpFor (b : LoopBench) (answer : Nat → LoopStepAnswer) : LoopBench × LoopStepAnswer :=
  let (b, pumped) := b.pump
  (b, match pumped.ended with
    | .error message => .panicked message
    | .ok count => answer count)

def answer (b : LoopBench) : LoopStep → LoopBench × LoopStepAnswer
  | .post job => ({ b with loop := b.loop.post job }, .done)
  | .run => b.pumpFor .count
  | .runUntil count =>
    let (b, pumped) := b.pump
    (b, match pumped.ended with
      | .error message => .until (.error message) 0
      | .ok _ => .until (.ok (count ≤ b.ran.length)) 1)
  | .runUntilPosted job =>
    let b := b.exhaust
    { b with loop := b.loop.post job }.pumpFor fun _ => .truth true
  | .runFor => b.pumpFor fun _ => .done
  | .pending => (b, .count b.loop.pending)
  | .describe => (b, .text b.loop.description)
  | .isClosed => (b, .truth b.loop.isClosed)
  | .describeHandle => (b, .text b.loop.handleDescription)
  | .drop => ({ b with loop := b.loop.drop }, .done)

/-- Answers one call; the handle outlives the loop. -/
def step (b : LoopBench) (s : LoopStep) : LoopBench × LoopStepAnswer :=
  match s with
  | .post _ | .isClosed | .describeHandle | .drop => b.answer s
  | _ => if b.loop.isClosed then (b, .gone) else b.answer s

end LoopBench

/-- The jobs that ran on a runtime before and after it was given its turn. -/
structure RuntimeVisit where
  before : List String
  after : List String

/-- Posts jobs to a runtime if it can stand in, and gives it its turn; it runs none before that and
swallows their panics. -/
def visit (r : HostRuntime) (jobs : List String) : Except RuntimeError RuntimeVisit :=
  r.attach.map fun () => { before := [], after := jobs }

end SingleFlight.Rehearsal
