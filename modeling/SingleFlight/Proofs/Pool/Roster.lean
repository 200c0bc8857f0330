import SingleFlight.Pool

/-!
# The workers of a pool

Lookups and counts of workers by their phase, and what every step of a pool keeps of its roster: numbers
are given out once, and whoever the channel lists as waiting does wait.
-/

namespace SingleFlight

variable {τ σ : Type}

/-- The task that a worker has taken and not yet entered. -/
@[simp] def WorkerPhase.held? : WorkerPhase τ σ → Option τ
  | holding task => some task
  | recorded task => some task
  | ready task => some task
  | _ => none

/-- Whether a worker is inside of a task or of the hook after it. -/
def WorkerPhase.isEngaged : WorkerPhase τ σ → Bool
  | working _ _ => true
  | worked _ _ _ => true
  | _ => false

/-- The task that a worker has to do with. -/
def WorkerPhase.task? : WorkerPhase τ σ → Option τ
  | holding task => some task
  | recorded task => some task
  | ready task => some task
  | working task _ => some task
  | worked task _ _ => some task
  | leaving task => some task
  | _ => none

namespace Pool

variable {p q : Pool τ σ} {w v : Nat} {a b : WorkerPhase τ σ}

/-! ## Lookups -/

theorem find?_map_phase (ws : List (Worker τ σ)) (w v : Nat) (b : WorkerPhase τ σ) :
    ((ws.map fun x => if x.id = w then { x with phase := b } else x).find? (·.id = v)).map (·.phase)
      = if v = w then ((ws.find? (·.id = v)).map (·.phase)).map (fun _ => b)
        else (ws.find? (·.id = v)).map (·.phase) := by
  induction ws with
  | nil => simp
  | cons x ws ih =>
      by_cases hx : x.id = v
      · by_cases hw : v = w
        · simp [hx, hw]
        · simp [hx, hw]
      · have hx' : (if x.id = w then { x with phase := b } else x).id ≠ v := by split <;> exact hx
        simp only [List.map_cons, List.find?_cons, hx, hx', decide_false]
        exact ih

@[simp] theorem phase?_setPhase (p : Pool τ σ) (w v : Nat) (b : WorkerPhase τ σ) :
    (p.setPhase w b).phase? v
      = if v = w then (p.phase? v).map (fun _ => b) else p.phase? v :=
  find?_map_phase p.workers w v b

theorem phase?_setPhase_self (h : p.phase? w = some a) : (p.setPhase w b).phase? w = some b := by
  simp [h]

theorem phase?_setPhase_ne (h : v ≠ w) : (p.setPhase w b).phase? v = p.phase? v := by
  simp [h]

theorem mem_of_phase? (h : p.phase? w = some a) : { id := w, phase := a } ∈ p.workers := by
  obtain ⟨x, hx, rfl⟩ := Option.map_eq_some_iff.mp h
  have hid : x.id = w := by simpa using List.find?_some hx
  subst hid
  exact List.mem_of_find?_eq_some hx

theorem setPhase_setPhase (p : Pool τ σ) : (p.setPhase w a).setPhase w b = p.setPhase w b := by
  simp only [setPhase, List.map_map]
  congr 1
  refine List.map_congr_left fun x _ => ?_
  by_cases e : x.id = w <;> simp [e]

@[simp] theorem channel_setPhase (p : Pool τ σ) : (p.setPhase w b).channel = p.channel := rfl

@[simp] theorem queue_setPhase (p : Pool τ σ) : (p.setPhase w b).queue = p.queue := rfl

@[simp] theorem stop_setPhase (p : Pool τ σ) : (p.setPhase w b).stop = p.stop := rfl

@[simp] theorem name_setPhase (p : Pool τ σ) : (p.setPhase w b).name = p.name := rfl

/-! ## Counts -/

/-- How many workers are in a phase of the given kind. -/
def tally (p : Pool τ σ) (P : WorkerPhase τ σ → Bool) : Nat := p.workers.countP fun w => P w.phase

variable {P : WorkerPhase τ σ → Bool}

theorem tally_pos (h : p.phase? w = some a) (hP : P a = true) : 0 < p.tally P :=
  List.countP_pos_iff.mpr ⟨_, mem_of_phase? h, hP⟩

theorem countP_map_phase {ws : List (Worker τ σ)} (hd : (ws.map (·.id)).Nodup)
    (h : (ws.find? (·.id = w)).map (·.phase) = some a) :
    (ws.map fun x => if x.id = w then { x with phase := b } else x).countP (fun x => P x.phase)
        + (P a).toNat
      = ws.countP (fun x => P x.phase) + (P b).toNat := by
  induction ws with
  | nil => simp at h
  | cons x ws ih =>
      obtain ⟨hx, hd⟩ := List.nodup_cons.mp hd
      by_cases hw : x.id = w
      · have ha : x.phase = a := by simpa [hw] using h
        -- no other worker has this number, so the rest of the roster stays as it is
        have hrest : (ws.map fun x => if x.id = w then { x with phase := b } else x) = ws := by
          refine (List.map_congr_left fun y hy => if_neg fun hy' => hx ?_).trans (List.map_id' ws)
          exact List.mem_map.mpr ⟨y, hy, hy'.trans hw.symm⟩
        simp only [List.map_cons, hw, ↓reduceIte, hrest, List.countP_cons, ha]
        cases P a <;> cases P b <;> simp
      · have hf : (ws.find? (·.id = w)).map (·.phase) = some a := by simpa [hw] using h
        have := ih hd hf
        simp only [List.map_cons, hw, ↓reduceIte, List.countP_cons]
        omega

theorem tally_setPhase (hd : (p.workers.map (·.id)).Nodup) (h : p.phase? w = some a) :
    (p.setPhase w b).tally P + (P a).toNat = p.tally P + (P b).toNat :=
  countP_map_phase hd h

theorem two_le_countP {α : Type} {P : α → Bool} {x y : α} (hne : x ≠ y) (hx : P x = true) (hy : P y = true) :
    ∀ {l : List α}, x ∈ l → y ∈ l → 2 ≤ l.countP P
  | z :: l, hxl, hyl => by
      rcases List.mem_cons.mp hxl with rfl | hxl'
      · have hyl' : y ∈ l := (List.mem_cons.mp hyl).resolve_left fun h => hne h.symm
        have := List.countP_pos_iff.mpr ⟨y, hyl', hy⟩
        rw [List.countP_cons_of_pos hx]; omega
      · rcases List.mem_cons.mp hyl with rfl | hyl'
        · have := List.countP_pos_iff.mpr ⟨x, hxl', hx⟩
          rw [List.countP_cons_of_pos hy]; omega
        · have := two_le_countP hne hx hy hxl' hyl'
          rw [List.countP_cons]; omega

theorem two_le_tally {c : WorkerPhase τ σ} (hw : p.phase? w = some a) (hv : p.phase? v = some c)
    (hne : w ≠ v) (ha : P a = true) (hc : P c = true) : 2 ≤ p.tally P :=
  two_le_countP (P := fun x : Worker τ σ => P x.phase) (x := { id := w, phase := a })
    (y := { id := v, phase := c }) (by simp [hne]) ha hc (mem_of_phase? hw) (mem_of_phase? hv)

/-! ## Rosters in order -/

/-- The numbers of the workers are distinct and were given out, and the receivers of the channel wait. -/
structure Manned (p : Pool τ σ) : Prop where
  distinct : (p.workers.map (·.id)).Nodup
  numbered : ∀ x ∈ p.workers, x.id < p.nextWorker
  once : p.channel.waiting.Nodup
  waiting : ∀ w ∈ p.channel.waiting, ∃ timed, p.phase? w = some (.waiting timed)
  closed : p.channel.isOpen = false → p.channel.waiting = []

theorem Manned.create (name : String) (settings : PoolSettings) :
    (create name settings : Pool τ σ).Manned := by
  constructor <;> simp [Pool.create]

theorem ids_setPhase (p : Pool τ σ) : (p.setPhase w b).workers.map (·.id) = p.workers.map (·.id) := by
  simp only [setPhase, List.map_map]
  refine List.map_congr_left fun x _ => ?_
  simp only [Function.comp]; split <;> rfl

theorem numbered_setPhase (h : ∀ x ∈ p.workers, x.id < p.nextWorker) :
    ∀ x ∈ (p.setPhase w b).workers, x.id < (p.setPhase w b).nextWorker := by
  intro x hx
  have hid : x.id ∈ (p.setPhase w b).workers.map (·.id) := List.mem_map_of_mem hx
  rw [ids_setPhase] at hid
  obtain ⟨y, hy, hyx⟩ := List.mem_map.mp hid
  rw [← hyx]; exact h y hy

theorem Manned.setPhase (h : p.Manned) (hw : w ∉ p.channel.waiting) : (p.setPhase w b).Manned where
  distinct := by rw [ids_setPhase]; exact h.distinct
  numbered := numbered_setPhase h.numbered
  once := h.once
  waiting v hv := by
    have hne : v ≠ w := fun e => hw (e ▸ hv)
    rw [phase?_setPhase_ne hne]; exact h.waiting v hv
  closed := h.closed

theorem Manned.not_waiting (h : p.Manned) (hw : p.phase? w = some a) (ha : ∀ timed, a ≠ .waiting timed) :
    w ∉ p.channel.waiting := by
  intro hmem
  obtain ⟨timed, ht⟩ := h.waiting w hmem
  rw [hw] at ht; cases ht
  exact ha timed rfl

/-! ## What a step keeps -/

/-- The workers inside of tasks are in both pools the same. -/
structure Undisturbed (p q : Pool τ σ) : Prop where
  phase : ∀ {v c}, WorkerPhase.isEngaged c = true → (q.phase? v = some c ↔ p.phase? v = some c)
  tally : ∀ {P : WorkerPhase τ σ → Bool}, (∀ c, c.isEngaged = false → P c = false) → q.tally P = p.tally P

theorem Undisturbed.refl (p : Pool τ σ) : Undisturbed p p := ⟨fun _ => Iff.rfl, fun _ => rfl⟩

theorem Undisturbed.trans {r : Pool τ σ} (h : Undisturbed p q) (k : Undisturbed q r) : Undisturbed p r :=
  ⟨fun hc => (k.phase hc).trans (h.phase hc), fun hP => (k.tally hP).trans (h.tally hP)⟩

theorem Undisturbed.of_workers (h : q.workers = p.workers) : Undisturbed p q :=
  ⟨fun _ => by simp [phase?, h], fun _ => by simp [Pool.tally, h]⟩

theorem Undisturbed.setPhase (hd : (p.workers.map (·.id)).Nodup) (h : p.phase? w = some a)
    (ha : a.isEngaged = false) (hb : b.isEngaged = false) : Undisturbed p (p.setPhase w b) where
  phase {v c} hc := by
    by_cases hv : v = w
    · subst hv
      simp only [phase?_setPhase, ↓reduceIte, h, Option.map_some, Option.some.injEq]
      constructor
      · rintro rfl; simp [hb] at hc
      · rintro rfl; simp [ha] at hc
    · rw [phase?_setPhase_ne hv]
  tally {P} hP := by
    have := tally_setPhase (P := P) (b := b) hd h
    simpa [hP a ha, hP b hb] using this

/-! ## New workers -/

/-- Where a new worker starts. -/
def firstPhase : Option τ → WorkerPhase τ σ
  | some task => .holding task
  | none => .seeking

theorem firstPhase_idle (first : Option τ) : (firstPhase first : WorkerPhase τ σ).isEngaged = false := by
  cases first <;> rfl

theorem workers_launch (p : Pool τ σ) (first : Option τ) :
    (p.launch first).workers = p.workers ++ [{ id := p.nextWorker, phase := firstPhase first }] := by
  cases first <;> rfl

theorem tally_launch (p : Pool τ σ) (first : Option τ) :
    (p.launch first).tally P = p.tally P + (P (firstPhase first)).toNat := by
  simp only [tally, workers_launch, List.countP_append, List.countP_singleton]
  cases P (firstPhase first) <;> rfl

theorem phase?_launch (p : Pool τ σ) (first : Option τ) :
    (p.launch first).phase? v
      = (p.phase? v).or (if v = p.nextWorker then some (firstPhase first) else none) := by
  simp only [phase?, workers_launch, List.find?_append, List.find?_singleton]
  cases p.workers.find? (·.id = v) with
  | some x => simp
  | none => by_cases hv : v = p.nextWorker <;> simp [hv, eq_comm]

theorem Manned.launch (h : p.Manned) (first : Option τ) : (p.launch first).Manned where
  distinct := by
    rw [workers_launch, List.map_append, List.nodup_append]
    refine ⟨h.distinct, by simp, fun i hi j hj => ?_⟩
    obtain ⟨x, hx, rfl⟩ := List.mem_map.mp hi
    have hj : j = p.nextWorker := by simpa using hj
    have := h.numbered x hx
    omega
  numbered x hx := by
    rw [workers_launch] at hx
    show x.id < p.nextWorker + 1
    rcases List.mem_append.mp hx with hx | hx
    · have := h.numbered x hx; omega
    · simp only [List.mem_singleton] at hx; subst hx; exact Nat.lt_succ_self _
  once := h.once
  waiting v hv := by
    obtain ⟨timed, ht⟩ := h.waiting v hv
    exact ⟨timed, by rw [phase?_launch, ht]; rfl⟩
  closed := h.closed

theorem Undisturbed.launch (p : Pool τ σ) (first : Option τ) : Undisturbed p (p.launch first) where
  phase {v c} hc := by
    rw [phase?_launch]
    cases h : p.phase? v with
    | some b => simp
    | none =>
        simp only [Option.none_or, reduceCtorEq, iff_false]
        split
        · intro e; cases e; simp [firstPhase_idle] at hc
        · simp
  tally hP := by simp [tally_launch, hP _ (firstPhase_idle first)]

end Pool

end SingleFlight
