/-!
# Payloads

Inputs and outputs of actions are values of any types. Where they are kept their types are not known,
so each value comes with its type: it is described, compared and copied by code of that type, and is
given back as a value of the type only. Comparing and copying may panic.
-/

namespace SingleFlight

/-- Values whose own types are not known where they are kept: they are compared and copied by code of
their own, which may panic. -/
class Erased (π : Type) where
  /-- Whether the two values are equal, asked of the left one; the error is the message of a panic. -/
  compare : π → π → Except String Bool
  /-- A copy of the value; the error is the message of a panic. -/
  copy : π → Except String π

/-- The copy of a value, where copying does not panic. -/
def Erased.copied {π : Type} [Erased π] (x : π) : π := (copy x).toOption.getD x

theorem Erased.copied_of_copy {π : Type} [Erased π] {x y : π} (h : copy x = .ok y) : copied x = y := by
  rw [copied, h]
  rfl

/-- The types of the values that a program gives to its actions and gets from them, besides the unit
type, with the code of these types. -/
class Payloads where
  Kind : Type
  [decidableEq : DecidableEq Kind]
  /-- The type of outputs that are not given another one. -/
  [inhabited : Inhabited Kind]
  Value : Kind → Type
  /-- Tells values apart, which no program asks for. -/
  [values : {kind : Kind} → DecidableEq (Value kind)]
  /-- The full name of the type in messages. -/
  name : Kind → String
  /-- The value as text. -/
  description : {kind : Kind} → Value kind → String
  /-- Whether two values of the type are equal, asked of the left one; the error is the message of a
  panic. -/
  same : {kind : Kind} → Value kind → Value kind → Except String Bool
  /-- A copy of the value; the error is the message of a panic. -/
  clone : {kind : Kind} → Value kind → Except String (Value kind)

variable [Payloads]

instance : DecidableEq Payloads.Kind := Payloads.decidableEq

instance : Inhabited Payloads.Kind := Payloads.inhabited

instance {kind : Payloads.Kind} : DecidableEq (Payloads.Value kind) := Payloads.values

/-- The types of payloads. -/
inductive PayloadType
  /-- The type of the input of an action that takes none. -/
  | unit
  | own (kind : Payloads.Kind)
deriving DecidableEq, Inhabited

/-- The values of the type. -/
def PayloadType.Value : PayloadType → Type
  | unit => Unit
  | own kind => Payloads.Value kind

instance : (type : PayloadType) → DecidableEq type.Value
  | .unit => inferInstanceAs (DecidableEq Unit)
  | .own kind => inferInstanceAs (DecidableEq (Payloads.Value kind))

/-- The full name of the type in messages. -/
def PayloadType.name : PayloadType → String
  | unit => "()"
  | own kind => Payloads.name kind

/-- A value together with its type. -/
structure Payload where
  type : PayloadType
  value : type.Value
deriving DecidableEq

namespace Payload

/-- The input of an action that takes none. -/
def unit : Payload := ⟨.unit, ()⟩

instance : Inhabited Payload := ⟨unit⟩

theorem eq_unit {a : Payload} (h : a.type = .unit) : a = unit := by
  cases a; cases h; rfl

/-- The value as text. -/
def description : Payload → String
  | ⟨.unit, _⟩ => "()"
  | ⟨.own _, v⟩ => Payloads.description v

/-- Whether the two values are equal, asked of the left one; values of different types never are.
The error is the message of a panic. -/
def compare : Payload → Payload → Except String Bool
  | ⟨.unit, _⟩, ⟨.unit, _⟩ => .ok true
  | ⟨.own kind, v⟩, ⟨.own other, w⟩ => if h : other = kind then Payloads.same v (h ▸ w) else .ok false
  | _, _ => .ok false

theorem compare_own {kind : Payloads.Kind} (v w : (PayloadType.own kind).Value) :
    compare ⟨.own kind, v⟩ ⟨.own kind, w⟩ = Payloads.same v w := dif_pos rfl

/-- A copy of the value, of the same type. The error is the message of a panic. -/
def copy : Payload → Except String Payload
  | ⟨.unit, _⟩ => .ok unit
  | ⟨.own kind, v⟩ => (Payloads.clone v).map (⟨.own kind, ·⟩)

/-- The value, if it has the given type. -/
def asType? (t : PayloadType) (a : Payload) : Option Payload :=
  if a.type = t then some a else none

/-- Values of different types are never equal. -/
theorem compare_of_type_ne {a b : Payload} (h : a.type ≠ b.type) : a.compare b = .ok false := by
  unfold compare
  split
  · exact absurd rfl h
  · exact dif_neg fun heq => h (congrArg PayloadType.own heq.symm)
  · rfl

theorem type_of_copy {a b : Payload} (h : a.copy = .ok b) : b.type = a.type := by
  obtain ⟨type, v⟩ := a
  cases type with
  | unit => cases h; rfl
  | own kind =>
      simp only [copy] at h
      cases hclone : Payloads.clone v with
      | error message => rw [hclone] at h; cases h
      | ok w => rw [hclone] at h; cases h; rfl

instance : Erased Payload := ⟨compare, copy⟩

theorem copied_of_copy {a b : Payload} (h : a.copy = .ok b) : Erased.copied a = b := Erased.copied_of_copy h

theorem type_copied (a : Payload) : (Erased.copied a).type = a.type := by
  cases h : a.copy with
  | error message => simp [Erased.copied, Erased.copy, h, Except.toOption]
  | ok b => rw [copied_of_copy h, type_of_copy h]

end Payload

end SingleFlight
