import SingleFlight.Text.Shape

/-!
# Actions

The identity of a registered action and its kind.
-/

namespace SingleFlight

/-- The position of an action in the order of registration. -/
structure ActionId where
  index : Nat
deriving DecidableEq, Repr, Inhabited, Hashable

namespace ActionId

instance : LT ActionId := ⟨fun a b => a.index < b.index⟩

instance (a b : ActionId) : Decidable (a < b) := inferInstanceAs (Decidable (a.index < b.index))

/-- The name of the action in messages. -/
def text (id : ActionId) : String := "action#" ++ toString id.index

/-- The id as a value. -/
def description (id : ActionId) : String := Text.applied "ActionId" (toString id.index)

end ActionId

/-- What an action consumes and what it delivers. -/
inductive ActionKind
  /-- Consumes an input and produces a value for its result callback. -/
  | get
  /-- Consumes an input; only failures are delivered. -/
  | set
  /-- Takes no input; only failures are delivered. -/
  | void
deriving DecidableEq, Repr, Inhabited

namespace ActionKind

/-- The kind in messages. -/
def text : ActionKind → String
  | get => "get"
  | set => "set"
  | void => "void"

/-- The kind as a value. -/
def description : ActionKind → String
  | get => "Get"
  | set => "Set"
  | void => "Void"

end ActionKind

end SingleFlight
