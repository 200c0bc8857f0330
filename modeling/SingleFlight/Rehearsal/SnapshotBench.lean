import SingleFlight.Rehearsal.Values
import SingleFlight.Snapshot

/-!
# Snapshots on the bench

Several snapshots by number. One that does not exist yet is empty, and comes into being with the
first call on it.
-/

namespace SingleFlight.Rehearsal

inductive SnapshotStep
  | insert (id : ActionId) (input : Payload)
  | getAs (id : ActionId) (type : PayloadType)
  | get (id : ActionId)
  | erase (id : ActionId)
  | contains (id : ActionId)
  | size
  | clear
  | ids
  | entries
  | describe
  /-- Copies the snapshot into another place. -/
  | copy (place : Nat)
  /-- Replaces the snapshot by that of the given entries. -/
  | collect (entries : List (ActionId × Payload))
  /-- Takes the entries out; the snapshot is gone. -/
  | drain
  /-- Compares the snapshot with one in another place. -/
  | compare (place : Nat)

inductive SnapshotAnswer
  | done
  | input (found : Option Payload)
  | described (found : Option Payload)
  | truth (b : Bool)
  | size (n : Nat) (isEmpty : Bool)
  | ids (ids : List ActionId)
  | entries (entries : List (ActionId × Payload))
  | text (s : String)
  | panicked (message : String)

/-- Snapshots by number, ascending. -/
abbrev SnapshotBench := List (Nat × Snapshot Payload)

namespace SnapshotBench

def get (b : SnapshotBench) (place : Nat) : Snapshot Payload :=
  ((b.find? (·.1 = place)).map (·.2)).getD .empty

def put (b : SnapshotBench) (place : Nat) (s : Snapshot Payload) : SnapshotBench :=
  b.filter (·.1 < place) ++ (place, s) :: b.filter (place < ·.1)

/-- Answers one call on the snapshot in a place. -/
def step (b : SnapshotBench) (place : Nat) (call : SnapshotStep) : SnapshotBench × SnapshotAnswer :=
  let s := b.get place
  let known := b.put place s
  match call with
  | .insert id input => (b.put place (s.insert id input), .input (s.get? id))
  | .getAs id type => (known, .described (s.getAs? (Payload.asType? type) id))
  | .get id => (known, .input (s.get? id))
  | .erase id => (b.put place (s.erase id), .input (s.get? id))
  | .contains id => (known, .truth (s.contains id))
  | .size => (known, .size s.size s.isEmpty)
  | .clear => (b.put place .empty, .done)
  | .ids => (known, .ids s.ids)
  | .entries => (known, .entries s.toList)
  | .describe => (known, .text s.description)
  | .copy target =>
    match s.copy with
    | .error message => (known, .panicked message)
    | .ok copied => (known.put target copied, .done)
  | .collect entries => (b.put place (.ofList entries), .done)
  | .drain => (b.filter (·.1 ≠ place), .entries s.toList)
  | .compare other =>
    (known, match s.compare (b.get other) with
      | .ok same => .truth same
      | .error message => .panicked message)

end SnapshotBench

end SingleFlight.Rehearsal
