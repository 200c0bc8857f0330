import SingleFlight.Proofs.Scheduler.Sane

/-!
# What a move makes of a flight

The changes of a single flight, whatever else the move does, and what they leave of a flight that is closed.
-/

namespace SingleFlight

variable [Payloads]

/-- What is left of a flight after its end; only the binding and the interruption still change. -/
def Flight.remains (f : Flight) : ActionId × ActionKind × Payload × FlightPhase × Option Outcome × UInt64 × Nat :=
  (f.action, f.kind, f.input, f.phase, f.output, f.signal.generation, f.attempts)

namespace Scheduler

variable {s s' : Scheduler} {act : SchedulerAct} {c : Caller} {n m : Nat} {f g : Flight} {events : List SchedulerEvent}

/-- `Change f g`: a move makes `g` of the flight `f`. -/
inductive Change (f : Flight) : Flight → Prop
  | kept : Change f f
  | renewed {input} : f.phase ≠ .closed → f.phase ≠ .completed → Change f (f.renewed input)
  | rearmed {input} : f.phase = .completed → Change f { f.renewed input with output := none, phase := .queued }
  | begun {attempts} : f.phase ≠ .closed → Change f { f with phase := .running, attempts }
  | completed {outcome} : f.phase ≠ .closed → Change f { f with output := some outcome, phase := .completed }
  | bound {worker} : Change f { f with worker }
  | landed : f.phase = .completed → Change f f.landed
  | interrupted : Change f f.interrupt
  | closed : Change f f.close

theorem Running.change {stage : RunStage} {next : RunStep} (h : Running s c n f stage g next events) : Change f g := by
  cases h with
  | refused | dropped | retried => exact .kept
  | exhausted hc | uncopied hc | mistyped hc | called hc => exact .begun hc
  | stored hc => exact .completed hc

theorem Labour.change {w : Nat} {name : String} {a b : WorkerPhase Nat WorkStage}
    (h : Labour s w name n f act a g b events) : Change f g := by
  cases h with
  | bound => exact .bound
  | ran hr => exact hr.change
  | @failed _ _ message =>
      rcases f.fail_cases message with ⟨hc, he⟩ | he
      · rw [he]; exact .completed hc
      · rw [he]; exact .kept
  | unbound =>
      unfold Flight.unbind
      split
      · exact .bound
      · exact .kept
  | answered | withheld | returned | posted => exact .kept

theorem change_set (hf : s.flights[n]? = some f) (hm : s.flights[m]? = some g) {k : Flight} (hk : Change g k) :
    ∃ x, (s.setFlight m k).flights[n]? = some x ∧ Change f x := by
  rw [flights_setFlight hm]
  by_cases e : n = m
  · subst e
    cases hf.symm.trans hm
    exact ⟨k, by simp, hk⟩
  · exact ⟨f, by simp [e, hf], .kept⟩

theorem change_modify {change : Flight → Flight} (hf : s.flights[n]? = some f) (hk : Change f (change f)) :
    ∃ x, (s.flights.modify m change)[n]? = some x ∧ Change f x := by
  rw [List.getElem?_modify, hf]
  by_cases e : m = n
  · exact ⟨change f, by simp [e], hk⟩
  · exact ⟨f, by simp [e], .kept⟩

/-- Every move leaves a flight under its number and makes one change of it. -/
theorem Move.change (hm : Move s act s' events) (hf : s.flights[n]? = some f) :
    ∃ g, s'.flights[n]? = some g ∧ Change f g := by
  cases hm with
  | launched | inlined => exact ⟨f, flights_concat_some hf _, .kept⟩
  | superseded _ hm hc hd => exact change_set hf hm (.renewed hc hd)
  | rearmed _ hm hd => exact change_set hf hm (.rearmed hd)
  | collected _ hm _ hd | took _ hm hd => exact change_set hf hm (.landed hd)
  | ranInline _ hm hr => exact change_set hf hm hr.change
  | worked _ _ _ hm hl => exact change_set hf hm hl.change
  | warned | alarmed => exact change_modify hf .interrupted
  | gaveUp => exact change_modify hf .closed
  | _ => exact ⟨f, hf, .kept⟩

/-! ## Flights that are closed -/

theorem Change.remains (h : Change f g) (hc : f.phase = .closed) (hnone : f.output = none) : g.remains = f.remains := by
  cases h with
  | kept | bound | interrupted => rfl
  | renewed hne | begun hne | completed hne => exact absurd hc hne
  | rearmed hd | landed hd => rw [hc] at hd; cases hd
  | closed => simp [Flight.remains, Flight.close, Signal.interrupt, hc, hnone]

theorem Change.bare (h : Change f g) (hf : f.phase = .closed → f.output = none) (hc : g.phase = .closed) :
    g.output = none := by
  cases h with
  | kept | bound | interrupted => exact hf hc
  | renewed hne => exact absurd hc hne
  | rearmed | begun | completed => cases hc
  | landed | closed => rfl

theorem Change.opened (h : Change f g) (hc : g.phase ≠ .closed) : f.phase ≠ .closed := by
  cases h with
  | kept | bound | interrupted => exact hc
  | renewed hne | begun hne | completed hne => exact hne
  | rearmed hd => rw [hd]; simp
  | landed | closed => exact absurd rfl hc

end Scheduler

end SingleFlight
