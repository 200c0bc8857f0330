import SingleFlight.Proofs.InlineSessions
import SingleFlight.Proofs.PooledSessions

/-!
# The modes agree

What a host sees of its calls does not depend on whether the scheduler has a pool, nor on the settings of the pool and
the order of the steps.
-/

namespace SingleFlight

open Scheduler

namespace System

section

variable [Payloads] {p q : Plan} {identity tag identity' tag' : String} {processors processors' : Nat} {s t : Scheduler}

theorem opening_pool (h : p.opening identity tag processors = .opened s) :
    s.registrations = p.registrations ∧ s.pool.isNone = p.executor.isNone := by
  rcases Plan.opening_cases h with ⟨he, rfl⟩ | ⟨settings, he, -, -, rfl⟩
  · exact ⟨rfl, by rw [he]; rfl⟩
  · exact ⟨rfl, by simpa using Option.isSome_iff_ne_none.mpr he⟩

/-- Let the functions answer as they like, according to their input and to all that was seen before, let callbacks
return, threads be created and inputs be copied. Then of any calls of the owner, each made at rest, a scheduler with a
pool of any valid settings shows the same as one without a pool: the same calls of functions, with the same inputs,
generations and token states, the same outcomes at the same callbacks, and the same panics. -/
theorem modes_agree (hnumbered : Numbered p.registrations) (hregs : q.registrations = p.registrations)
    (hpool : p.executor ≠ none) (hnone : q.executor = none)
    (hopen : p.opening identity tag processors = .opened s)
    (hopen' : q.opening identity' tag' processors' = .opened t)
    (answers : Answers) (calls : List HostCall) (hcopy : ∀ call ∈ calls, call.Copyable) :
    Shows answers { scheduler := s } calls (transcript p.registrations answers calls) ∧
      Shows answers { scheduler := t } calls (transcript p.registrations answers calls) := by
  obtain ⟨hs, hspool⟩ := opening_pool hopen
  obtain ⟨ht, htpool⟩ := opening_pool hopen'
  have hsync : s.isSynchronous = false := by
    rw [isSynchronous, hspool]
    cases he : p.executor with
    | none => exact absurd he hpool
    | some _ => rfl
  have hpoolless : t.pool = none := by
    rw [hnone] at htpool
    exact Option.isNone_iff_eq_none.mp htpool
  constructor
  · have hreach : Reachable [] { scheduler := s } := ⟨p, identity, tag, processors, s, hnumbered, hopen, .start⟩
    have hround := (Begins.of_opening hnumbered hopen).round hreach hsync
    exact (pooled_foresees answers p.registrations).shows (.serving hround hs rfl) hcopy
  · have hsolo := (Begins.of_opening (hregs ▸ hnumbered) hopen').solo hpoolless
    exact (inline_foresees answers p.registrations).shows
      ⟨hsolo, (Begins.of_opening (hregs ▸ hnumbered) hopen').isClosed, ht.trans hregs, rfl⟩ hcopy

end

/-- The small plan with a pool that starts a second worker for a full queue only. -/
def lazyPlan : Plan :=
  { smallPlan (some .runtime) with settings := some { PoolSettings.serial with core := 0, max := 2, capacity := 1 } }

/-- A request, one of an action that there is not, one with a wrong input, and one after the close. -/
theorem small_modes_agree : ∃ s t, lazyPlan.opening "pooled" "1" 4 = .opened s ∧
    (smallPlan none).opening "inline" "2" 4 = .opened t ∧
    let answers : Answers := fun _ _ input => .value (some input)
    let calls : List HostCall :=
      [.apply ⟨0⟩ (.string "a"), .apply ⟨1⟩ .unit, .apply ⟨0⟩ (.u8 1), .close, .apply ⟨0⟩ (.string "b")]
    let seen : List Sight :=
      [.called ⟨0⟩ (.string "a") 0 none, .ended ⟨0⟩ (.value (some (.string "a"))) none,
        .heard ⟨0⟩ .get (.result (.ok (some (.string "a")))), .panicked (unknownAction ⟨1⟩),
        .panicked (Registration.mismatch { id := ⟨0⟩, kind := .get, input := .string } (.u8 1))]
    Shows answers { scheduler := s } calls seen ∧ Shows answers { scheduler := t } calls seen := by
  have hnumbered : Numbered (smallPlan none).registrations := by
    intro i r h
    match i with
    | 0 => cases h; rfl
    | i + 1 => cases h
  obtain ⟨s, hs⟩ : ∃ s, lazyPlan.opening "pooled" "1" 4 = .opened s := ⟨_, rfl⟩
  obtain ⟨t, ht⟩ : ∃ t, (smallPlan none).opening "inline" "2" 4 = .opened t := ⟨_, rfl⟩
  refine ⟨s, t, hs, ht, modes_agree (p := lazyPlan) (q := smallPlan none) hnumbered rfl ?_ rfl hs ht _ _ ?_⟩
  · exact Option.some_ne_none _
  · simp only [List.forall_mem_cons]
    exact ⟨⟨_, rfl⟩, ⟨_, rfl⟩, ⟨_, rfl⟩, trivial, ⟨_, rfl⟩, nofun⟩

end System

end SingleFlight
