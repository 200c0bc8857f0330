import SingleFlight.Registration
import SingleFlight.Rehearsal.Values

/-!
# Reply plans

What a scripted function ends with, as a plan over the text of its input and the number of its
call.
-/

namespace SingleFlight.Rehearsal

inductive ReplyPlan
  /-- The text of the input. -/
  | echo
  /-- No value. -/
  | nothing
  /-- The number of the call. -/
  | count
  | value (text : String)
  | fail (chain : CauseChain)
  | panic (value : PanicValue)
  /-- By the text of the input. -/
  | byInput (cases : List (String × ReplyPlan)) (otherwise : ReplyPlan)
  /-- By the number of the call; the last one is repeated. -/
  | inTurn (plans : List ReplyPlan)
deriving Inhabited

namespace ReplyPlan

mutual
/-- The reply to the `n`-th call, counted from one, with an input of the given text. -/
def reply (text : String) (n : Nat) : ReplyPlan → Reply
  | echo => .value (some (.string text))
  | nothing => .value none
  | count => .value (some (.string (toString n)))
  | value v => .value (some (.string v))
  | fail chain => .failed chain
  | panic v => .panicked v
  | byInput cases otherwise => (replyByInput text n cases).getD (otherwise.reply text n)
  | inTurn plans => (replyInTurn text n plans (n - 1)).getD (.value (some (.string text)))

/-- The reply of the first case for the text. -/
def replyByInput (text : String) (n : Nat) : List (String × ReplyPlan) → Option Reply
  | [] => none
  | (key, plan) :: rest =>
    if key = text then some (plan.reply text n) else replyByInput text n rest

/-- The reply of the plan at a position, or of the last one. -/
def replyInTurn (text : String) (n : Nat) : List ReplyPlan → Nat → Option Reply
  | [], _ => none
  | [plan], _ => some (plan.reply text n)
  | plan :: _, 0 => some (plan.reply text n)
  | _ :: rest, i + 1 => replyInTurn text n rest i
end

end ReplyPlan

end SingleFlight.Rehearsal
