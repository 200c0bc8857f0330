import SingleFlight.Failure

/-!
# Recognising a cancellation

A chain of causes counts as a cancellation if and only if one of its layers is one, and then as the outermost one;
a chain without a cancellation is kept as it is, with all its messages. Of the way in which a cancellation is
taken out of a chain only the rule for a single layer is used.
-/

namespace SingleFlight

theorem Cause.cancellation?_eq_some {cause : Cause} {c : Cancelled} :
    cause.cancellation? = some c ↔ cause = .cancelled c := by
  cases cause <;> simp [cancellation?]

theorem Cause.cancellation?_eq_none {cause : Cause} : cause.cancellation? = none ↔ ∀ c, cause ≠ .cancelled c := by
  cases cause <;> simp [cancellation?]

namespace CauseChain

variable {take : CauseChain → Except CauseChain Cancelled} {chain : CauseChain} {c : Cancelled}

/-- A chain is searched layer by layer from the outside: the search ends at the first cancellation, and a layer
that is none stays around what is handed back. -/
structure SearchesInwards (take : CauseChain → Except CauseChain Cancelled) : Prop where
  context_found : ∀ (chain : CauseChain) c, take (chain.wrap (.cancelled c)) = .ok c
  context_passed : ∀ (chain : CauseChain) context, context.cancellation? = none →
    take (chain.wrap context) = (take chain).mapError (wrap · context)
  root_found : ∀ c, take (ofCancelled c) = .ok c
  root_passed : ∀ root : Cause, root.cancellation? = none → take { root } = .error { root }

theorem searchesInwards_downcast : SearchesInwards downcast where
  context_found _ _ := rfl
  context_passed chain context h := by simp [downcast, search, wrap, h]
  root_found _ := rfl
  root_passed root h := by simp [downcast, search, h]

/-- The search finds the outermost cancellation, or hands back the very chain. -/
theorem SearchesInwards.take_eq (h : SearchesInwards take) (chain : CauseChain) :
    take chain = chain.cancellation?.elim (.error chain) .ok := by
  obtain ⟨contexts, root⟩ := chain
  induction contexts with
  | nil =>
      cases hroot : root.cancellation? with
      | none => simpa [cancellation?, causes, hroot] using h.root_passed root hroot
      | some c =>
          obtain rfl := Cause.cancellation?_eq_some.mp hroot
          exact h.root_found c
  | cons context contexts ih =>
      cases hcontext : context.cancellation? with
      | none =>
          have hpassed := h.context_passed { contexts, root } context hcontext
          have hsame : cancellation? { contexts := context :: contexts, root } = cancellation? { contexts, root } := by
            simp [cancellation?, causes, hcontext]
          rw [ih] at hpassed
          rw [hsame]
          cases hbelow : cancellation? { contexts, root } with
          | none => rw [hbelow] at hpassed; exact hpassed
          | some c => rw [hbelow] at hpassed; exact hpassed
      | some c =>
          obtain rfl := Cause.cancellation?_eq_some.mp hcontext
          exact h.context_found { contexts, root } c

/-- The cancellation stands in the chain and none stands further out. -/
def HasOutermost (chain : CauseChain) (c : Cancelled) : Prop :=
  ∃ outer inner, chain.causes = outer ++ .cancelled c :: inner ∧ ∀ cause ∈ outer, ∀ d, cause ≠ .cancelled d

theorem cancellation?_eq_some : chain.cancellation? = some c ↔ chain.HasOutermost c := by
  simp only [cancellation?, List.findSome?_eq_some_iff, Cause.cancellation?_eq_some, Cause.cancellation?_eq_none]
  constructor
  · rintro ⟨outer, _, inner, hcauses, rfl, houter⟩; exact ⟨outer, inner, hcauses, houter⟩
  · rintro ⟨outer, inner, hcauses, houter⟩; exact ⟨outer, _, inner, hcauses, rfl, houter⟩

theorem cancellation?_eq_none : chain.cancellation? = none ↔ ∀ c, .cancelled c ∉ chain.causes := by
  simp only [cancellation?, List.findSome?_eq_none_iff, Cause.cancellation?_eq_none]
  exact ⟨fun h c hc => h _ hc c rfl, fun h cause hcause c e => h c (e ▸ hcause)⟩

theorem messages_eq (chain : CauseChain) : chain.messages = chain.message :: chain.sources := by
  obtain ⟨contexts, root⟩ := chain
  cases contexts <;> simp [messages, message, sources, causes]

end CauseChain

namespace Failure

open CauseChain

variable {take : CauseChain → Except CauseChain Cancelled} {chain : CauseChain} {c : Cancelled}

theorem classify_eq_cancelled_iff (h : SearchesInwards take) :
    classify take chain = .cancelled c ↔ chain.cancellation? = some c := by
  rw [classify, h.take_eq]
  cases chain.cancellation? <;> simp

theorem classify_of_none (h : SearchesInwards take) (hnone : chain.cancellation? = none) :
    classify take chain = .failed chain := by
  rw [classify, h.take_eq, hnone]
  rfl

/-- A chain is classified as a cancellation if and only if there is one among its causes, and then as the
outermost one. Otherwise it fails as the chain that it is: what is shown is the outermost message, all messages
joined with the outermost first, and the messages below the outermost. -/
theorem cancellation_recognised (h : SearchesInwards take) (chain : CauseChain) :
    (∀ c, classify take chain = .cancelled c ↔ chain.HasOutermost c) ∧
    ((∃ c, classify take chain = .cancelled c) ↔ ∃ c, .cancelled c ∈ chain.causes) ∧
    ((∀ c, .cancelled c ∉ chain.causes) → classify take chain = .failed chain ∧
      ∃ outermost below, chain.causes.map Cause.message ++ chain.root.sources = outermost :: below ∧
        (classify take chain).message = outermost ∧
        (classify take chain).fullMessage = Text.joined ": " (outermost :: below) ∧
        (classify take chain).sources = below) := by
  refine ⟨fun c => (classify_eq_cancelled_iff h).trans cancellation?_eq_some, ?_, fun hnone => ?_⟩
  · simp only [classify_eq_cancelled_iff h, ← Option.isSome_iff_exists, ← Option.ne_none_iff_isSome, ne_eq,
      cancellation?_eq_none, Classical.not_forall, Classical.not_not]
  · have hfailed := classify_of_none h (cancellation?_eq_none.mpr hnone)
    refine ⟨hfailed, chain.message, chain.sources, chain.messages_eq, ?_⟩
    rw [hfailed]
    exact ⟨rfl, by rw [fullMessage, CauseChain.fullMessage, messages_eq], rfl⟩

/-- A cancellation under a context and above the cancelled failure of another action; and that failure alone. -/
theorem wrapped_cancellation_recognised :
    let nested : CauseChain := { contexts := [.text "loading"], root := .failure .superseded }
    SearchesInwards downcast ∧
      ofChain ((nested.wrap (.cancelled .interrupted)).wrap (.text "saving")) = .cancelled .interrupted ∧
      (∀ c, .cancelled c ∉ nested.causes) ∧ ofChain nested = .failed nested ∧
      (ofChain nested).fullMessage =
        "loading: Action cancelled: input was superseded by a newer request: input was superseded by a newer request" := by
  intro nested
  have h := searchesInwards_downcast
  have hnone : ∀ c, .cancelled c ∉ nested.causes := by simp [nested, causes]
  obtain ⟨hfailed, outermost, below, hmessages, -, hfull, -⟩ := (cancellation_recognised h nested).2.2 hnone
  cases hmessages
  refine ⟨h, ((cancellation_recognised h _).1 _).mpr ⟨[.text "saving"], _, rfl, by simp⟩, hnone, hfailed, hfull.trans ?_⟩
  rfl

end Failure

end SingleFlight
