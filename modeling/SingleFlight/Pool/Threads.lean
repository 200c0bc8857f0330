import SingleFlight.Text.Quoted
import SingleFlight.Text.Shape

/-!
# Threads

The plain factory of threads: the size of their stacks, and which names a thread can have.
-/

namespace SingleFlight

/-- A factory of threads; without a stack size they get the one of the platform. -/
structure ThreadFactory where
  stackSize : Option Nat := none
deriving DecidableEq, Repr, Inhabited

namespace ThreadFactory

/-- A factory with a stack size; zero stands for the size of the platform. -/
def withStackSize (size : Nat) : ThreadFactory :=
  { stackSize := if size = 0 then none else some size }

/-- The factory as text. -/
def description (f : ThreadFactory) : String :=
  Text.fields "StdThreadFactory" [("stack_size", Text.optional toString f.stackSize)]

/-- The message of the panic if the name holds a null character. -/
def nameFault? (name : String) : Option String :=
  let bytes := name.toUTF8.toList.map UInt8.toNat
  (bytes.findIdx? (· = 0)).map fun place =>
    "thread name may not contain interior null bytes: NulError(" ++ toString place ++ ", "
      ++ Text.listed (bytes.map toString) ++ ")"

end ThreadFactory

end SingleFlight
