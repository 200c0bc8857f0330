import SingleFlight.Decimal.Shortest
import SingleFlight.Payload
import SingleFlight.Text.Quoted
import SingleFlight.Text.Shape

/-!
# Values of rehearsals

The types of the values that rehearsals use. Only values of the fragile type panic when they are
compared or copied.
-/

namespace SingleFlight

namespace Rehearsal

/-- The types of the values, besides the unit type. -/
inductive ValueKind
  | bool | u8 | i32 | u32 | i64 | u64 | f64 | char | string | str
  | i32List | stringList | pair | optionalI32
  /-- Texts whose first character decides which operation on them panics. -/
  | fragile
deriving DecidableEq, Repr

namespace ValueKind

instance : Inhabited ValueKind := ⟨string⟩

def Value : ValueKind → Type
  | bool => Bool
  | u8 => UInt8
  | i32 => Int32
  | u32 => UInt32
  | i64 => Int64
  | u64 => UInt64
  | f64 => Decimal.Binary64
  | char => Char
  | string | str | fragile => String
  | i32List => List Int32
  | stringList => List String
  | pair => UInt32 × String
  | optionalI32 => Option Int32

/-- The full name of the type in messages. -/
def name : ValueKind → String
  | bool => "bool"
  | u8 => "u8"
  | i32 => "i32"
  | u32 => "u32"
  | i64 => "i64"
  | u64 => "u64"
  | f64 => "f64"
  | char => "char"
  | string => "alloc::string::String"
  | str => "&str"
  | i32List => "alloc::vec::Vec<i32>"
  | stringList => "alloc::vec::Vec<alloc::string::String>"
  | pair => "(u32, alloc::string::String)"
  | optionalI32 => "core::option::Option<i32>"
  | fragile => "courier::values::Fragile"

/-- The value as text. -/
def description : (kind : ValueKind) → kind.Value → String
  | bool, (b : Bool) => if b then "true" else "false"
  | u8, (n : UInt8) => toString n.toNat
  | i32, (n : Int32) => toString n.toInt
  | u32, (n : UInt32) => toString n.toNat
  | i64, (n : Int64) => toString n.toInt
  | u64, (n : UInt64) => toString n.toNat
  | f64, (x : Decimal.Binary64) => x.text
  | char, (c : Char) => Text.quotedChar c
  | string, (s : String) => Text.quoted s
  | str, (s : String) => Text.quoted s
  | i32List, (ns : List Int32) => Text.listed (ns.map fun n => toString n.toInt)
  | stringList, (ss : List String) => Text.listed (ss.map Text.quoted)
  | pair, ((n, s) : UInt32 × String) => "(" ++ toString n.toNat ++ ", " ++ Text.quoted s ++ ")"
  | optionalI32, (n : Option Int32) => Text.optional (fun n => toString n.toInt) n
  | fragile, (s : String) => Text.applied "Fragile" (Text.quoted s)

instance : (kind : ValueKind) → DecidableEq kind.Value
  | bool => inferInstanceAs (DecidableEq Bool)
  | u8 => inferInstanceAs (DecidableEq UInt8)
  | i32 => inferInstanceAs (DecidableEq Int32)
  | u32 => inferInstanceAs (DecidableEq UInt32)
  | i64 => inferInstanceAs (DecidableEq Int64)
  | u64 => inferInstanceAs (DecidableEq UInt64)
  | f64 => inferInstanceAs (DecidableEq Decimal.Binary64)
  | char => inferInstanceAs (DecidableEq Char)
  | string | str | fragile => inferInstanceAs (DecidableEq String)
  | i32List => inferInstanceAs (DecidableEq (List Int32))
  | stringList => inferInstanceAs (DecidableEq (List String))
  | pair => inferInstanceAs (DecidableEq (UInt32 × String))
  | optionalI32 => inferInstanceAs (DecidableEq (Option Int32))

/-- Whether the two values are equal. -/
def same : (kind : ValueKind) → kind.Value → kind.Value → Except String Bool
  | f64, (x : Decimal.Binary64), y => .ok (x.same y)
  | fragile, (s : String), t =>
    if s.toList.head? = some '?' then .error ("eq failed: " ++ s) else .ok (s == t)
  | _, v, w => .ok (v == w)

/-- A copy of the value. -/
def clone : (kind : ValueKind) → kind.Value → Except String kind.Value
  | fragile, (s : String) =>
    if s.toList.head? = some '!' then .error ("clone failed: " ++ s) else .ok s
  | _, v => .ok v

section
variable {kind : ValueKind} {v w : kind.Value}

theorem eq_of_clone (h : kind.clone v = .ok w) : w = v := by
  cases kind with
  | fragile =>
      simp only [clone] at h
      split at h
      · cases h
      · exact (Except.ok.inj h).symm
  | _ => exact (Except.ok.inj h).symm

theorem clone_of_ne_fragile (h : kind ≠ fragile) : kind.clone v = .ok v := by
  cases kind with
  | fragile => exact absurd rfl h
  | _ => rfl

theorem same_of_ne_fragile (h : kind ≠ fragile) : ∃ answer, kind.same v w = .ok answer := by
  cases kind with
  | fragile => exact absurd rfl h
  | _ => exact ⟨_, rfl⟩

theorem same_of_ne_f64 (hfloat : kind ≠ f64) (hfragile : kind ≠ fragile) : kind.same v w = .ok (v == w) := by
  cases kind with
  | f64 => exact absurd rfl hfloat
  | fragile => exact absurd rfl hfragile
  | _ => rfl

end

end ValueKind

instance payloads : Payloads where
  Kind := ValueKind
  Value := ValueKind.Value
  values := inferInstance
  name := ValueKind.name
  description := ValueKind.description _
  same := ValueKind.same _
  clone := ValueKind.clone _

end Rehearsal

open Rehearsal (ValueKind)

namespace PayloadType

@[match_pattern] abbrev bool : PayloadType := .own ValueKind.bool
@[match_pattern] abbrev u8 : PayloadType := .own ValueKind.u8
@[match_pattern] abbrev i32 : PayloadType := .own ValueKind.i32
@[match_pattern] abbrev u32 : PayloadType := .own ValueKind.u32
@[match_pattern] abbrev i64 : PayloadType := .own ValueKind.i64
@[match_pattern] abbrev u64 : PayloadType := .own ValueKind.u64
@[match_pattern] abbrev f64 : PayloadType := .own ValueKind.f64
@[match_pattern] abbrev char : PayloadType := .own ValueKind.char
@[match_pattern] abbrev string : PayloadType := .own ValueKind.string
@[match_pattern] abbrev str : PayloadType := .own ValueKind.str
@[match_pattern] abbrev i32List : PayloadType := .own ValueKind.i32List
@[match_pattern] abbrev stringList : PayloadType := .own ValueKind.stringList
@[match_pattern] abbrev pair : PayloadType := .own ValueKind.pair
@[match_pattern] abbrev optionalI32 : PayloadType := .own ValueKind.optionalI32
@[match_pattern] abbrev fragile : PayloadType := .own ValueKind.fragile

end PayloadType

namespace Payload

@[match_pattern] abbrev bool (b : Bool) : Payload := ⟨.bool, b⟩
@[match_pattern] abbrev u8 (n : UInt8) : Payload := ⟨.u8, n⟩
@[match_pattern] abbrev i32 (n : Int32) : Payload := ⟨.i32, n⟩
@[match_pattern] abbrev u32 (n : UInt32) : Payload := ⟨.u32, n⟩
@[match_pattern] abbrev i64 (n : Int64) : Payload := ⟨.i64, n⟩
@[match_pattern] abbrev u64 (n : UInt64) : Payload := ⟨.u64, n⟩
@[match_pattern] abbrev f64 (x : Decimal.Binary64) : Payload := ⟨.f64, x⟩
@[match_pattern] abbrev char (c : Char) : Payload := ⟨.char, c⟩
@[match_pattern] abbrev string (s : String) : Payload := ⟨.string, s⟩
@[match_pattern] abbrev str (s : String) : Payload := ⟨.str, s⟩
@[match_pattern] abbrev i32List (ns : List Int32) : Payload := ⟨.i32List, ns⟩
@[match_pattern] abbrev stringList (ss : List String) : Payload := ⟨.stringList, ss⟩
@[match_pattern] abbrev pair (n : UInt32) (s : String) : Payload := ⟨.pair, (n, s)⟩
@[match_pattern] abbrev optionalI32 (n : Option Int32) : Payload := ⟨.optionalI32, n⟩
@[match_pattern] abbrev fragile (s : String) : Payload := ⟨.fragile, s⟩

section
variable {a b : Payload}

/-- A copy is the value itself. -/
theorem eq_of_copy (h : a.copy = .ok b) : b = a := by
  obtain ⟨type, v⟩ := a
  cases type with
  | unit => cases h; rfl
  | own kind =>
      simp only [copy] at h
      cases hclone : Payloads.clone v with
      | error message => rw [hclone] at h; cases h
      | ok w => rw [hclone] at h; cases h; rw [ValueKind.eq_of_clone hclone]

theorem copy_of_ne_fragile (h : a.type ≠ .fragile) : a.copy = .ok a := by
  obtain ⟨type, v⟩ := a
  cases type with
  | unit => rfl
  | own kind =>
      have hclone : Payloads.clone v = .ok v := ValueKind.clone_of_ne_fragile fun heq => h (congrArg _ heq)
      rw [copy, hclone]; rfl

theorem compare_of_ne_fragile (h : a.type ≠ .fragile) (b : Payload) : ∃ answer, a.compare b = .ok answer := by
  by_cases htype : a.type = b.type
  · obtain ⟨type, v⟩ := a
    obtain ⟨_, w⟩ := b
    cases htype
    cases type with
    | unit => exact ⟨true, rfl⟩
    | own kind =>
        rw [compare_own]
        exact ValueKind.same_of_ne_fragile fun heq => h (congrArg _ heq)
  · exact ⟨false, compare_of_type_ne htype⟩

theorem compare_eq_true_iff (hfloat : a.type ≠ .f64) (hfragile : a.type ≠ .fragile) :
    a.compare b = .ok true ↔ a = b := by
  by_cases htype : a.type = b.type
  · obtain ⟨type, v⟩ := a
    obtain ⟨_, w⟩ := b
    cases htype
    cases type with
    | unit => exact iff_of_true rfl rfl
    | own kind =>
        have hsame : Payloads.same v w = .ok (v == w) :=
          ValueKind.same_of_ne_f64 (fun heq => hfloat (congrArg _ heq)) fun heq => hfragile (congrArg _ heq)
        rw [compare_own, hsame]
        simp
  · rw [compare_of_type_ne htype]
    exact iff_of_false (by simp) fun heq => htype (congrArg type heq)

end

end Payload

end SingleFlight
