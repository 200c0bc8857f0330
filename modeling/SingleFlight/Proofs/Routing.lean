import SingleFlight.Flight.Run
import SingleFlight.Rehearsal.Values

/-!
# The callbacks that an outcome reaches

What a function replies is made an outcome when it is invoked and read again when it is delivered. Between the two
nothing gets lost: each reply means one outcome, and that one goes to one callback at most, a failure to the sink if
there is one.
-/

namespace SingleFlight.Registration

section

variable [Payloads] {r : Registration} {reply : Reply} {outcome : Outcome} {failure : Failure} {input : Payload}

/-- What a reply means to those who wait for it. -/
inductive Means (r : Registration) : Reply → Outcome → Prop
  | value {value} : r.kind = .get → value.type = r.output → Means r (.value (some value)) (.ok (some value))
  | foreign {value} : r.kind = .get → value.type ≠ r.output → Means r (.value (some value))
      (.error (.failed (.ofText (r.id.text ++ " produced a value that is not " ++ r.output.name))))
  | nothing : r.kind = .get → Means r (.value none) (.ok none)
  | done {output} : r.kind ≠ .get → Means r (.value output) (.ok none)
  | failed {chain} : Means r (.failed chain) (.error (.ofChain chain))
  | panicked {value} : Means r (.panicked value) (.error (.panicked value.message))

/-- A call of the function with an input, and the delivery of what it ended with. -/
def callbacks (r : Registration) (function : σ → Payload → Token → σ × Reply) (s : σ) (input : Payload)
    (token : Token) : List CallbackCall :=
  (r.deliver (Flight.caught (r.invoke function s input token).2)).calls

/-! ## Invoking -/

/-- An accepted input is what the function is called with, once. -/
theorem invoke_of_accepts (h : r.accepts input = true) (function : σ → Payload → Token → σ × Reply) (s : σ)
    (token : Token) :
    r.invoke function s input token = ((function s input token).1, r.outcome (function s input token).2) := by
  simp [invoke, callInput_of_accepts h]

/-! ## What a reply means -/

theorem means_typed (r : Registration) (reply : Reply) : r.Means reply (r.typed (Flight.caught (r.outcome reply))) := by
  cases reply with
  | failed chain => exact .failed
  | panicked value => exact .panicked
  | value output =>
      cases hkind : r.kind with
      | get =>
          simp only [outcome, hkind, Flight.caught]
          cases output with
          | none => exact .nothing hkind
          | some value =>
              simp only [typed]
              split
              · exact .value hkind ‹_›
              · exact .foreign hkind ‹_›
      | set => simpa [outcome, hkind, Flight.caught, typed] using Means.done (by simp [hkind])
      | void => simpa [outcome, hkind, Flight.caught, typed] using Means.done (by simp [hkind])

theorem Means.unique {other : Outcome} (h : r.Means reply outcome) (h' : r.Means reply other) : outcome = other := by
  cases h <;> cases h' <;> first | rfl | contradiction

theorem Means.reply_of_ok {value} (h : r.Means reply (.ok value)) (hkind : r.kind = .get) : reply = .value value := by
  cases h <;> first | rfl | contradiction

/-! ## Delivering -/

theorem Means.calls_of_failure (h : r.Means reply (.error failure)) (hsink : r.hasSink = true) :
    (r.deliver (Flight.caught (r.outcome reply))).calls = [.sink failure] := by
  cases h with
  | foreign hkind htype =>
      simp [outcome, Flight.caught, deliver, hkind, typed, htype, hsink, Delivery.calls]
  | failed => cases hkind : r.kind <;> simp [outcome, Flight.caught, deliver, hkind, typed, hsink, Delivery.calls]
  | panicked => cases hkind : r.kind <;> simp [outcome, Flight.caught, deliver, hkind, typed, hsink, Delivery.calls]

/-- Without a sink a failure is an outcome like any other. -/
theorem Means.calls_of_result (h : r.Means reply outcome)
    (hsink : r.hasSink = false ∨ ∃ value, outcome = .ok value) :
    (r.deliver (Flight.caught (r.outcome reply))).calls = if r.kind = .get then [.result outcome] else [] := by
  cases h with
  | value hkind htype => simp [Registration.outcome, Flight.caught, deliver, hkind, typed, htype, Delivery.calls]
  | nothing hkind => simp [Registration.outcome, Flight.caught, deliver, hkind, typed, Delivery.calls]
  | done hkind => cases hk : r.kind <;> simp [Registration.outcome, Flight.caught, deliver, hk, Delivery.calls] at hkind ⊢
  | foreign hkind htype =>
      have hnone : r.hasSink = false := by simpa using hsink
      simp [Registration.outcome, Flight.caught, deliver, hkind, typed, htype, hnone, Delivery.calls]
  | failed =>
      have hnone : r.hasSink = false := by simpa using hsink
      cases hk : r.kind <;> simp [Registration.outcome, Flight.caught, deliver, hk, typed, hnone, Delivery.calls]
  | panicked =>
      have hnone : r.hasSink = false := by simpa using hsink
      cases hk : r.kind <;> simp [Registration.outcome, Flight.caught, deliver, hk, typed, hnone, Delivery.calls]

/-- An accepted input calls the function once, and what its reply means is one outcome. If it is a failure and there
is a sink, then the sink is called with it and nothing else is called. Otherwise the only call is the one of the
result callback with the outcome, which only an action that delivers values has; with a sink it therefore sees no
failure, and its value is the one that the function returned. -/
theorem outcome_routed (h : r.accepts input = true) (function : σ → Payload → Token → σ × Reply) (s : σ)
    (token : Token) :
    (r.invoke function s input token).1 = (function s input token).1 ∧
    ∃ outcome, r.Means (function s input token).2 outcome ∧
      (∀ other, r.Means (function s input token).2 other → other = outcome) ∧
      (r.hasSink = true → ∀ failure, outcome = .error failure →
        r.callbacks function s input token = [.sink failure]) ∧
      ((r.hasSink = false ∨ ∃ value, outcome = .ok value) →
        r.callbacks function s input token = if r.kind = .get then [.result outcome] else []) ∧
      (r.kind = .get → (r.callbacks function s input token).length = 1) ∧
      (r.hasSink = true → ∀ seen, .result seen ∈ r.callbacks function s input token →
        ∃ value, seen = .ok value ∧ (function s input token).2 = .value value) := by
  have hinvoked := invoke_of_accepts h function s token
  have hmeans := means_typed r (function s input token).2
  generalize r.typed (Flight.caught (r.outcome (function s input token).2)) = outcome at hmeans
  have hcallbacks : r.callbacks function s input token
      = (r.deliver (Flight.caught (r.outcome (function s input token).2))).calls := by
    rw [callbacks, hinvoked]
  have hresult (hsink : r.hasSink = false ∨ ∃ value, outcome = .ok value) :
      r.callbacks function s input token = if r.kind = .get then [.result outcome] else [] :=
    hcallbacks.trans (hmeans.calls_of_result hsink)
  have hfailure (hsink : r.hasSink = true) (failure : Failure) (he : outcome = .error failure) :
      r.callbacks function s input token = [.sink failure] :=
    hcallbacks.trans ((he ▸ hmeans).calls_of_failure hsink)
  refine ⟨by rw [hinvoked], outcome, hmeans, fun other ho => ho.unique hmeans, hfailure, hresult, fun hkind => ?_,
    fun hsink seen hseen => ?_⟩
  · cases hsink : r.hasSink with
    | false => simp [hresult (.inl hsink), hkind]
    | true =>
        cases outcome with
        | error failure => simp [hfailure hsink failure rfl]
        | ok value => simp [hresult (.inr ⟨value, rfl⟩), hkind]
  · cases outcome with
    | error failure => simp [hfailure hsink failure rfl] at hseen
    | ok value =>
        rw [hresult (.inr ⟨value, rfl⟩)] at hseen
        split at hseen
        · next hkind =>
            simp only [List.mem_singleton, CallbackCall.result.injEq] at hseen
            exact ⟨value, hseen, hmeans.reply_of_ok hkind⟩
        · simp at hseen

end

/-- A function that answers with a truth value where a text is expected: its sink gets the failure. -/
theorem foreign_value_routed :
    let r : Registration := { id := ⟨3⟩, kind := .get, input := .string, hasSink := true }
    let function (calls : Nat) (_ : Payload) (_ : Token) := (calls + 1, Reply.value (some (.bool true)))
    r.accepts (.string "a") = true ∧ (r.invoke function 0 (.string "a") ⟨0⟩).1 = 1 ∧
      r.callbacks function 0 (.string "a") ⟨0⟩ =
        [.sink (.failed (.ofText "action#3 produced a value that is not alloc::string::String"))] := by
  intro r function
  have haccepts : r.accepts (.string "a") = true := by decide
  obtain ⟨hcalls, outcome, -, honly, hfailure, -⟩ := outcome_routed haccepts function 0 ⟨0⟩
  have hmessage : r.id.text ++ " produced a value that is not " ++ r.output.name
      = "action#3 produced a value that is not alloc::string::String" := by decide +kernel
  exact ⟨haccepts, hcalls, hmessage ▸ hfailure rfl _ (honly _ (.foreign rfl (by decide))).symm⟩

end SingleFlight.Registration
