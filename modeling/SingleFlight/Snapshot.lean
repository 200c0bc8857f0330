import SingleFlight.Action
import SingleFlight.Payload

/-!
# Snapshots

A snapshot maps action ids to saved inputs, whatever these are. Its entries are kept in ascending
order of the ids, one entry for each id, so that two snapshots are compared entry by entry.
-/

namespace SingleFlight

/-- Saved inputs by action id. -/
structure Snapshot (π : Type) where
  entries : List (ActionId × π)
deriving DecidableEq, Inhabited

namespace Snapshot

variable {π α : Type}

/-- The snapshot without entries. -/
def empty : Snapshot π := ⟨[]⟩

/-- The entries with the entry for `id` added or replaced. -/
def put (id : ActionId) (input : π) : List (ActionId × π) → List (ActionId × π)
  | [] => [(id, input)]
  | (key, saved) :: rest =>
    if id < key then (id, input) :: (key, saved) :: rest
    else if id = key then (id, input) :: rest
    else (key, saved) :: put id input rest

/-- The input saved for `id`. -/
def get? (s : Snapshot π) (id : ActionId) : Option π :=
  (s.entries.find? fun entry => entry.1 = id).map (·.2)

/-- The input saved for `id` as a value of one type, if it is one. -/
def getAs? (s : Snapshot π) (asType? : π → Option α) (id : ActionId) : Option α :=
  (s.get? id).bind asType?

def insert (s : Snapshot π) (id : ActionId) (input : π) : Snapshot π :=
  ⟨put id input s.entries⟩

def erase (s : Snapshot π) (id : ActionId) : Snapshot π :=
  ⟨s.entries.filter fun entry => entry.1 ≠ id⟩

def contains (s : Snapshot π) (id : ActionId) : Bool :=
  s.entries.any fun entry => entry.1 = id

def size (s : Snapshot π) : Nat := s.entries.length

def isEmpty (s : Snapshot π) : Bool := s.entries.isEmpty

/-- The ids with an entry, ascending. -/
def ids (s : Snapshot π) : List ActionId := s.entries.map (·.1)

/-- The entries, ascending by id. -/
def toList (s : Snapshot π) : List (ActionId × π) := s.entries

/-- The snapshot of the given entries; of two for one id the later counts. -/
def ofList (entries : List (ActionId × π)) : Snapshot π :=
  entries.foldl (fun s entry => s.insert entry.1 entry.2) empty

section
variable [Erased π]

/-- The entries with every input copied, in their order. -/
def copyEntries : List (ActionId × π) → Except String (List (ActionId × π))
  | [] => .ok []
  | (id, input) :: rest =>
    match Erased.copy input with
    | .error message => .error message
    | .ok copied => (copyEntries rest).map ((id, copied) :: ·)

/-- A copy with every input copied; the error is the message of the first copy that panicked. -/
def copy (s : Snapshot π) : Except String (Snapshot π) :=
  (copyEntries s.entries).map .mk

/-- Compares two lists of entries side by side up to the first difference. -/
def compareEntries : List (ActionId × π) → List (ActionId × π) → Except String Bool
  | (id, input) :: rest, (key, saved) :: others =>
    if id = key then
      match Erased.compare input saved with
      | .ok true => compareEntries rest others
      | answer => answer
    else .ok false
  | _, _ => .ok true

/-- Whether both have the same ids with equal inputs, asked of the left inputs; the error is the
message of a comparison that panicked. -/
def compare (s t : Snapshot π) : Except String Bool :=
  if s.size = t.size then compareEntries s.entries t.entries else .ok false

end

/-- A snapshot of payloads as text. -/
def description [Payloads] (s : Snapshot Payload) : String :=
  Text.tabled (s.entries.map fun (id, input) => (id.description, input.description))

end Snapshot

end SingleFlight
