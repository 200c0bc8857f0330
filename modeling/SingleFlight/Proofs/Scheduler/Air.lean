import SingleFlight.Proofs.Scheduler.Standing

/-!
# The flights in the air

With a pool, the list of the flights in the air names one flight for each action, of this very action, and as
long as the scheduler is open it names exactly the flights that are not closed.
-/

namespace SingleFlight

theorem Scheduler.eq_of_mem_of_nodup {id : ActionId} {n m : Nat} {l : List (ActionId × Nat)} (h : (l.map Prod.fst).Nodup)
    (hn : (id, n) ∈ l) (hm : (id, m) ∈ l) : n = m := by
  induction l with
  | nil => cases hn
  | cons x l ih =>
      obtain ⟨hx, h⟩ := List.nodup_cons.mp h
      rcases List.mem_cons.mp hn with rfl | hn'
      · rcases List.mem_cons.mp hm with e | hm'
        · cases e; rfl
        · exact absurd (List.mem_map_of_mem (f := Prod.fst) hm') hx
      · rcases List.mem_cons.mp hm with rfl | hm'
        · exact absurd (List.mem_map_of_mem (f := Prod.fst) hn') hx
        · exact ih h hn' hm'

variable [Payloads]

/-- Every registration carries the id of its place. -/
def Numbered (registrations : List Registration) : Prop :=
  ∀ (i : Nat) (r : Registration), registrations[i]? = some r → r.id = ⟨i⟩

/-- What the list of the flights in the air depends on. -/
def Flight.mark (f : Flight) : ActionId × ActionKind × Bool := (f.action, f.kind, decide (f.phase = .closed))

namespace Scheduler

variable {s s' u : Scheduler} {act : SchedulerAct} {c : Caller} {n m : Nat} {id : ActionId} {f g : Flight}
  {events : List SchedulerEvent}

/-- The list of the flights in the air is in order. -/
structure Charted (s : Scheduler) : Prop where
  numbered : Numbered s.registrations
  distinct : (s.inFlight.map Prod.fst).Nodup
  charted : ∀ id n, (id, n) ∈ s.inFlight → ∃ f r, s.flights[n]? = some f ∧ f.action = id ∧ f.phase ≠ .closed ∧
    s.registration? id = some r ∧ r.id = id ∧ f.kind = r.kind
  complete : s.isClosed = false → ∀ (n : Nat) (f : Flight), s.flights[n]? = some f → f.phase ≠ .closed →
    (f.action, n) ∈ s.inFlight
  emptied : s.isClosed = true → s.inFlight = []

/-! ## Looking for flights -/

theorem mem_of_flightOf? (h : s.flightOf? id = some n) : (id, n) ∈ s.inFlight := by
  obtain ⟨⟨i, k⟩, hfind, rfl⟩ := Option.map_eq_some_iff.mp h
  have hi : i = id := by simpa using List.find?_some hfind
  subst hi
  exact List.mem_of_find?_eq_some hfind

theorem not_mem_of_flightOf? (h : s.flightOf? id = none) : (id, n) ∉ s.inFlight := by
  intro hm
  have := List.find?_eq_none.mp (Option.map_eq_none_iff.mp h) _ hm
  simp at this

theorem Charted.unique (h : s.Charted) (hn : (id, n) ∈ s.inFlight) (hm : (id, m) ∈ s.inFlight) : n = m :=
  eq_of_mem_of_nodup h.distinct hn hm

theorem Charted.flightOf? (h : s.Charted) (hn : (id, n) ∈ s.inFlight) : s.flightOf? id = some n := by
  cases hf : s.flightOf? id with
  | none => exact absurd hn (not_mem_of_flightOf? hf)
  | some m => rw [h.unique hn (mem_of_flightOf? hf)]

/-! ## Marks -/

theorem Running.mark {stage : RunStage} {next : RunStep} (h : Running s c n f stage g next events) :
    g.mark = f.mark := by
  cases h with
  | refused | dropped | retried => rfl
  | exhausted hc | uncopied hc | mistyped hc | called hc | stored hc => simp [Flight.mark, Flight.begun, hc]

theorem Labour.mark {w : Nat} {name : String} {a b : WorkerPhase Nat WorkStage}
    (h : Labour s w name n f act a g b events) : g.mark = f.mark := by
  have hp := h.persists
  cases h with
  | ran hr => exact hr.mark
  | failed =>
      by_cases hc : f.phase = .closed
      · rw [Flight.fail_closed hc]
      · simp [Flight.mark, hp.action, hp.kind, Flight.phase_fail hc, hc]
  | unbound => simp [Flight.mark, hp.action, hp.kind, Flight.phase_unbind]
  | bound | answered | withheld | returned | posted => rfl

theorem mark_some {u : Scheduler} (h : (u.flights[n]?).map Flight.mark = (s.flights[n]?).map Flight.mark)
    (hf : s.flights[n]? = some f) :
    ∃ g, u.flights[n]? = some g ∧ g.action = f.action ∧ g.kind = f.kind ∧ (g.phase = .closed ↔ f.phase = .closed) := by
  rw [hf, Option.map_some] at h
  obtain ⟨g, hg, hm⟩ := Option.map_eq_some_iff.mp h
  simp only [Flight.mark, Prod.mk.injEq, decide_eq_decide] at hm
  exact ⟨g, hg, hm⟩

/-! ## Moves -/

theorem Charted.of_marks (h : s.Charted) (hreg : u.registrations = s.registrations) (hin : u.inFlight = s.inFlight)
    (hc : u.isClosed = s.isClosed)
    (hmark : ∀ n : Nat, (u.flights[n]?).map Flight.mark = (s.flights[n]?).map Flight.mark) : u.Charted where
  numbered := hreg ▸ h.numbered
  distinct := hin ▸ h.distinct
  charted id n hn := by
    obtain ⟨f, r, hf, ha, hp, hr, hid, hk⟩ := h.charted id n (hin ▸ hn)
    obtain ⟨g, hg, ha', hk', hp'⟩ := mark_some (hmark n) hf
    refine ⟨g, r, hg, ha'.trans ha, fun e => hp (hp'.mp e), ?_, hid, hk'.trans hk⟩
    simpa [registration?, hreg] using hr
  complete hopen n g hg hp := by
    obtain ⟨f, hf, ha, -, hp'⟩ := mark_some (hmark n).symm hg
    rw [hin, ← ha]
    exact h.complete (hc ▸ hopen) n f hf fun e => hp (hp'.mp e)
  emptied hclosed := hin.trans (h.emptied (hc ▸ hclosed))

theorem Charted.launch {r : Registration} {input : Payload} (h : s.Charted) (hnone : s.flightOf? id = none)
    (hopen : s.isClosed = false) (hr : s.registration? id = some r)
    (hflights : u.flights = s.flights ++ [Flight.of r input])
    (hin : u.inFlight = s.inFlight ++ [(id, s.flights.length)]) (hreg : u.registrations = s.registrations)
    (hc : u.isClosed = s.isClosed) : u.Charted := by
  have hid : r.id = id := h.numbered id.index r hr
  have hold {k : Nat} {f : Flight} (hf : s.flights[k]? = some f) : u.flights[k]? = some f := by
    rw [hflights, flights_concat_some hf]
  have hnew : u.flights[s.flights.length]? = some (Flight.of r input) := by simp [hflights]
  refine ⟨hreg ▸ h.numbered, ?_, ?_, ?_, ?_⟩
  · rw [hin, List.map_append, List.nodup_append]
    refine ⟨h.distinct, by simp, fun i hi j hj => ?_⟩
    obtain ⟨⟨k, x⟩, hx, rfl⟩ := List.mem_map.mp hi
    simp only [List.map_cons, List.map_nil, List.mem_singleton] at hj
    rintro rfl
    subst hj
    exact not_mem_of_flightOf? hnone hx
  · intro i k hk
    rw [hin] at hk
    rcases List.mem_append.mp hk with hk | hk
    · obtain ⟨f, r', hf, ha, hp, hr', hrest⟩ := h.charted i k hk
      exact ⟨f, r', hold hf, ha, hp, by simpa [registration?, hreg] using hr', hrest⟩
    · simp only [List.mem_singleton, Prod.mk.injEq] at hk
      obtain ⟨rfl, rfl⟩ := hk
      exact ⟨_, r, hnew, hid, by simp [Flight.of], by simpa [registration?, hreg] using hr, hid, rfl⟩
  · intro _ k f hf hp
    rw [hin]
    rw [hflights, flights_concat] at hf
    split at hf
    · rename_i hk
      cases hf
      exact List.mem_append_right _ (by simp [Flight.of, hid, hk])
    · exact List.mem_append_left _ (h.complete hopen k f hf hp)
  · intro hclosed; rw [hc, hopen] at hclosed; cases hclosed

theorem Charted.land (h : s.Charted) (hf : s.flights[m]? = some f) (hm : (f.action, m) ∈ s.inFlight)
    (hflights : u.flights = (s.setFlight m f.landed).flights)
    (hin : u.inFlight = s.inFlight.filter (·.1 ≠ f.action)) (hreg : u.registrations = s.registrations)
    (hc : u.isClosed = s.isClosed) : u.Charted := by
  have hflight (k : Nat) : u.flights[k]? = if k = m then some f.landed else s.flights[k]? := by
    rw [hflights]; exact flights_setFlight hf _ k
  refine ⟨hreg ▸ h.numbered, ?_, ?_, ?_, ?_⟩
  · rw [hin]
    exact h.distinct.sublist (List.filter_sublist.map _)
  · intro i k hk
    rw [hin, List.mem_filter] at hk
    obtain ⟨f', r, hf', ha, hp, hr, hrest⟩ := h.charted i k hk.1
    have hkm : k ≠ m := by
      rintro rfl
      cases hf.symm.trans hf'
      simp [ha] at hk
    exact ⟨f', r, by rw [hflight, if_neg hkm, hf'], ha, hp, by simpa [registration?, hreg] using hr, hrest⟩
  · intro hopen k g hg hp
    rw [hflight] at hg
    split at hg
    · cases hg; exact absurd rfl hp
    · rename_i hkm
      have hk := h.complete (hc ▸ hopen) k g hg hp
      rw [hin, List.mem_filter]
      refine ⟨hk, ?_⟩
      simp only [ne_eq, decide_not, Bool.not_eq_true', decide_eq_false_iff_not]
      intro e
      exact hkm (h.unique (e ▸ hk) hm)
  · intro hclosed; rw [hin, h.emptied (hc ▸ hclosed)]; rfl

theorem Move.charted (hm : Move s act s' events) (h : s.Charted) (hreg : s.Regular) (hsync : s.isSynchronous = false) :
    s'.Charted := by
  cases hm with
  | unknown | mismatched | late | ignored | shutAgain => exact h
  | launched _ hopen hnone hr => exact h.launch hnone hopen hr rfl rfl rfl rfl
  | @superseded c _ m input f rest _ hf =>
      exact h.of_marks rfl rfl rfl (map_setFlight Flight.mark (g := f.renewed input) hf rfl)
  | @rearmed c _ m input f rest _ hf hd =>
      refine h.of_marks rfl rfl rfl (map_setFlight Flight.mark hf ?_)
      simp [Flight.mark, Flight.renewed, hd]
  | collected _ hf hin => exact h.land hf (mem_of_flightOf? hin) rfl rfl rfl rfl
  | inlined _ hs => cases hsync.symm.trans hs
  | ranInline hcs | took hcs => cases hreg.orderly.suited hsync hcs
  | worked _ _ _ hf hl => exact h.of_marks rfl rfl rfl (map_setFlight Flight.mark hf hl.mark)
  | warned | alarmed => exact h.of_marks rfl rfl rfl (map_modify (fun _ => by rfl) _)
  | shut =>
      refine ⟨h.numbered, .nil, fun _ _ hn => ?_, fun hopen => ?_, fun _ => rfl⟩
      · cases hn
      · cases hopen
  | @gaveUp _ _ _ k n more stage _ hk =>
      have hc : s.isClosed = true := hreg.closing (by simp [hk])
      refine ⟨h.numbered, h.distinct, fun i n hn => ?_, fun hopen => ?_, h.emptied⟩
      · rw [show s.inFlight = [] from h.emptied hc] at hn; cases hn
      · rw [show s.isClosed = false from hopen] at hc; cases hc
  | turned | submitted | idled | halted | abandoned | reported | undone => exact h.of_marks rfl rfl rfl fun _ => rfl

/-! ## Outcomes -/

/-- Every completed flight has an outcome. -/
def Settled (s : Scheduler) : Prop :=
  ∀ (n : Nat) (f : Flight), s.flights[n]? = some f → f.phase = .completed → f.output.isSome = true

theorem Settled.set (h : s.Settled) (hf : s.flights[m]? = some f)
    (hg : (f.phase = .completed → f.output.isSome = true) → g.phase = .completed → g.output.isSome = true)
    (hu : u.flights = (s.setFlight m g).flights) : u.Settled := by
  intro n k hk
  rw [hu, flights_setFlight hf] at hk
  split at hk
  · cases hk; exact hg (h m f hf)
  · exact h n k hk

theorem Settled.modify {change : Flight → Flight} (h : s.Settled)
    (hc : ∀ f, (f.phase = .completed → f.output.isSome = true) →
      (change f).phase = .completed → (change f).output.isSome = true)
    (hu : u.flights = s.flights.modify m change) : u.Settled := by
  intro n k hk
  rw [hu, List.getElem?_modify] at hk
  obtain ⟨f, hf, rfl⟩ := Option.map_eq_some_iff.mp hk
  split
  · exact hc f (h n f hf)
  · exact h n f hf

theorem Settled.append {r : Registration} {input : Payload} (h : s.Settled)
    (hu : u.flights = s.flights ++ [Flight.of r input]) : u.Settled := by
  intro n k hk
  rw [hu, flights_concat] at hk
  split at hk
  · cases hk; intro hp; cases hp
  · exact h n k hk

theorem Running.settled {stage : RunStage} {next : RunStep} (h : Running s c n f stage g next events)
    (hf : f.phase = .completed → f.output.isSome = true) : g.phase = .completed → g.output.isSome = true := by
  cases h with
  | refused | dropped | retried => exact hf
  | stored => intro _; rfl
  | exhausted | uncopied | mistyped | called => intro hp; cases hp

theorem Labour.settled {w : Nat} {name : String} {a b : WorkerPhase Nat WorkStage}
    (h : Labour s w name n f act a g b events) (hf : f.phase = .completed → f.output.isSome = true) :
    g.phase = .completed → g.output.isSome = true := by
  cases h with
  | ran hr => exact hr.settled hf
  | failed =>
      unfold Flight.fail
      split
      · intro _; rfl
      · exact hf
  | unbound =>
      unfold Flight.unbind
      split <;> exact hf
  | bound | answered | withheld | returned | posted => exact hf

theorem Move.settled (hm : Move s act s' events) (h : s.Settled) : s'.Settled := by
  cases hm with
  | launched | inlined => exact h.append rfl
  | @superseded _ _ _ input f _ _ hf => exact h.set (g := f.renewed input) hf id rfl
  | rearmed _ hf => exact h.set hf (fun _ hp => by cases hp) rfl
  | collected _ hf | took _ hf => exact h.set hf (fun _ hp => by cases hp) rfl
  | ranInline _ hf hr => exact h.set hf hr.settled rfl
  | worked _ _ _ hf hl => exact h.set hf hl.settled rfl
  | warned | alarmed => exact h.modify (fun _ hf => by exact hf) rfl
  | gaveUp => exact h.modify (fun _ _ hp => by cases hp) rfl
  | _ => exact h

end Scheduler

end SingleFlight
