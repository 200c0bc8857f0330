import Mathlib.Data.Set.Card
import SingleFlight.Proofs.Snapshot
import SingleFlight.Rehearsal.Values

/-!
# Snapshots as finite maps

Whatever calls are made on any number of snapshots, each of them is the finite map in which the last write for an id
counts. The map settles the snapshot and all that is read of it. Whether two snapshots are equal is asked of their inputs,
id by id, whatever equality these have.
-/

namespace SingleFlight.Snapshot

variable {π : Type}

/-- A call on the snapshot in a place. -/
inductive Call (π : Type)
  | insert (place : Nat) (id : ActionId) (input : π)
  | erase (place : Nat) (id : ActionId)
  | clear (place : Nat)
  /-- Puts a copy of the snapshot at the source into the place. -/
  | copy (source place : Nat)
  | collect (place : Nat) (entries : List (ActionId × π))

namespace Call

/-- The place that the call writes to. -/
def place : Call π → Nat
  | insert place _ _ | erase place _ | clear place | copy _ place | collect place _ => place

/-- The inputs that come with the call. -/
def inputs : Call π → List π
  | insert _ _ input => [input]
  | collect _ entries => entries.map Prod.snd
  | erase _ _ | clear _ | copy _ _ => []

end Call

/-- Snapshots by place. -/
abbrev Shelf (π : Type) := Nat → Snapshot π

/-- Maps by place. -/
abbrev Contents (π : Type) := Nat → ActionId → Option π

/-- The map after the entries were written into it one by one. -/
def written (m : ActionId → Option π) (entries : List (ActionId × π)) : ActionId → Option π :=
  entries.foldl (fun m e => Function.update m e.1 (some e.2)) m

section
variable [Erased π]

namespace Shelf

/-- The snapshots after a call. A copy that panics leaves them as they are. -/
def call (shelf : Shelf π) : Call π → Shelf π
  | .insert place id input => Function.update shelf place ((shelf place).insert id input)
  | .erase place id => Function.update shelf place ((shelf place).erase id)
  | .clear place => Function.update shelf place .empty
  | .copy source place =>
    match (shelf source).copy with
    | .ok s => Function.update shelf place s
    | .error _ => shelf
  | .collect place entries => Function.update shelf place (.ofList entries)

def run (shelf : Shelf π) (calls : List (Call π)) : Shelf π := calls.foldl call shelf

/-- The snapshots after one insertion into a place for each entry. -/
def insertAll (shelf : Shelf π) (place : Nat) (entries : List (ActionId × π)) : Shelf π :=
  shelf.run (entries.map fun e => .insert place e.1 e.2)

end Shelf

namespace Contents

/-- What the call means for the maps. -/
def call (m : Contents π) : Call π → Contents π
  | .insert place id input => Function.update m place (Function.update (m place) id (some input))
  | .erase place id => Function.update m place (Function.update (m place) id none)
  | .clear place => Function.update m place fun _ => none
  | .copy source place => Function.update m place fun id => (m source id).map Erased.copied
  | .collect place entries => Function.update m place (written (fun _ => none) entries)

def run (m : Contents π) (calls : List (Call π)) : Contents π := calls.foldl call m

end Contents

/-- Inputs of this kind can be copied and compared without a panic, and their copies are of the same kind. -/
structure Harmless (P : π → Prop) : Prop where
  copies : ∀ x, P x → ∃ y, Erased.copy x = .ok y ∧ P y
  compares : ∀ x y, P x → P y → ∃ same, Erased.compare x y = .ok same

end

/-! ## Writing into a map -/

section
variable {m k n : ActionId → Option π} {l l' : List (ActionId × π)} {id : ActionId}

theorem written_isSome : (written m l id).isSome = true ↔ id ∈ l.map Prod.fst ∨ (m id).isSome = true := by
  induction l generalizing m with
  | nil => simp [written]
  | cons e l ih =>
      have hrest : written m (e :: l) = written (Function.update m e.1 (some e.2)) l := rfl
      rw [hrest, ih, Function.update_apply, List.map_cons, List.mem_cons]
      by_cases heq : id = e.1
      · simp [heq]
      · simp [heq]

theorem written_isSome_perm (h : l.Perm l') : (written m l id).isSome = (written m l' id).isSome := by
  rw [Bool.eq_iff_iff, written_isSome, written_isSome, (h.map Prod.fst).mem_iff]

/-- Entries for different ids can be written in any order. -/
theorem written_perm (hl : (l.map Prod.fst).Nodup) (h : l.Perm l') : written m l = written m l' := by
  refine h.foldl_eq' (fun d hd e he m => ?_) m
  by_cases heq : d.1 = e.1
  · rw [List.inj_on_of_nodup_map hl hd he heq]
  · exact Function.update_comm heq _ _ _

end

/-! ## A snapshot and its map -/

section
variable {P Q : π → Prop} {s t : Snapshot π} {m k : ActionId → Option π} {l : List (ActionId × π)} {id : ActionId} {x : π}

/-- The snapshot holds what the map says, all of it inputs of one kind. -/
structure Holds (P : π → Prop) (s : Snapshot π) (m : ActionId → Option π) : Prop where
  ascending : Ascending s.entries
  get : ∀ id, s.get? id = m id
  kind : ∀ id x, m id = some x → P x

namespace Holds

theorem mono (h : Holds P s m) (himp : ∀ x, P x → Q x) : Holds Q s m :=
  ⟨h.ascending, h.get, fun id x hx => himp x (h.kind id x hx)⟩

theorem mem_iff (h : Holds P s m) : (id, x) ∈ s.entries ↔ m id = some x := by
  rw [← h.get]
  exact (lookup_eq_some h.ascending.nodup).symm

theorem mem_ids_iff (h : Holds P s m) : id ∈ s.ids ↔ (m id).isSome = true := by
  rw [mem_ids, h.get]

theorem kind_of_mem (h : Holds P s m) : ∀ e ∈ s.entries, P e.2 :=
  fun e he => h.kind e.1 e.2 (h.mem_iff.mp he)

theorem empty : Holds P (.empty : Snapshot π) fun _ => none :=
  ⟨.nil, fun _ => rfl, fun _ _ h => nomatch h⟩

theorem insert (h : Holds P s m) (id : ActionId) (hx : P x) : Holds P (s.insert id x) (Function.update m id (some x)) where
  ascending := h.ascending.put id x
  get key := by
    have hput : (s.insert id x).get? key = if key = id then some x else s.get? key := lookup_put
    rw [hput, h.get, Function.update_apply]
  kind key y hy := by
    rw [Function.update_apply] at hy
    split at hy
    · cases hy
      exact hx
    · exact h.kind key y hy

theorem erase (h : Holds P s m) (id : ActionId) : Holds P (s.erase id) (Function.update m id none) where
  ascending := List.Pairwise.filter _ h.ascending
  get key := by rw [get?_erase, h.get, Function.update_apply]
  kind key y hy := by
    rw [Function.update_apply] at hy
    split at hy
    · cases hy
    · exact h.kind key y hy

theorem inserts (h : Holds P s m) (hl : ∀ e ∈ l, P e.2) :
    Holds P (l.foldl (fun s e => s.insert e.1 e.2) s) (written m l) := by
  induction l generalizing s m with
  | nil => exact h
  | cons e l ih =>
      exact ih (h.insert e.1 (hl e List.mem_cons_self)) fun d hd => hl d (List.mem_cons_of_mem _ hd)

theorem ofList (hl : ∀ e ∈ l, P e.2) : Holds P (.ofList l) (written (fun _ => none) l) := empty.inserts hl

theorem copy [Erased π] (hP : Harmless P) (h : Holds P s m) :
    ∃ t, s.copy = .ok t ∧ Holds P t fun id => (m id).map Erased.copied := by
  refine ⟨_, copy_eq_copied fun e he => ?_, h.ascending.copied, fun id => ?_, fun id y hy => ?_⟩
  · obtain ⟨y, hy, -⟩ := hP.copies e.2 (h.kind_of_mem e he)
    exact ⟨y, hy⟩
  · rw [← h.get]
    exact lookup_map Erased.copied
  · obtain ⟨x, hx, rfl⟩ := Option.map_eq_some_iff.mp hy
    obtain ⟨y, hy, hkind⟩ := hP.copies x (h.kind id x hx)
    exact Erased.copied_of_copy hy ▸ hkind

theorem compare [Erased π] (hP : Harmless P) (hs : Holds P s m) (ht : Holds P t k) :
    ∃ same, s.compare t = .ok same ∧ (same = true ↔ Agrees m k) := by
  rw [← funext hs.get, ← funext ht.get]
  exact compare_spec hs.ascending ht.ascending fun d hd e he =>
    hP.compares d.2 e.2 (hs.kind_of_mem d hd) (ht.kind_of_mem e he)

theorem compare_iff [Erased π] (hP : Harmless P) (hs : Holds P s m) (ht : Holds P t k) :
    s.compare t = .ok true ↔ Agrees m k := by
  obtain ⟨same, hsame, hiff⟩ := hs.compare hP ht
  rw [hsame, ← hiff, Except.ok.injEq]

end Holds

/-! ## What is read of a snapshot -/

/-- All that is read of the snapshot is what the map says. -/
structure Represents (s : Snapshot π) (m : ActionId → Option π) : Prop where
  get : ∀ id, s.get? id = m id
  getAs : ∀ {α : Type} (asType? : π → Option α) (id : ActionId), s.getAs? asType? id = (m id).bind asType?
  contains : ∀ id, s.contains id = (m id).isSome
  size : s.size = {id | (m id).isSome = true}.ncard
  isEmpty : s.isEmpty = true ↔ ∀ id, m id = none
  ids : s.ids.Pairwise (· < ·) ∧ ∀ id, id ∈ s.ids ↔ (m id).isSome = true
  toList : s.toList.map Prod.fst = s.ids ∧ ∀ id x, (id, x) ∈ s.toList ↔ m id = some x

theorem Represents.holds (h : Represents s m) : Holds (fun _ => True) s m :=
  ⟨List.pairwise_map.mp h.ids.1, h.get, fun _ _ _ => trivial⟩

namespace Holds

theorem size_eq (h : Holds P s m) : s.size = {id | (m id).isSome = true}.ncard := by
  have hset : {id | (m id).isSome = true} = (s.ids.toFinset : Set ActionId) := by
    ext id
    simp [h.mem_ids_iff]
  have hnodup : s.ids.Nodup := h.ascending.nodup
  rw [hset, Set.ncard_coe_finset, List.toFinset_card_of_nodup hnodup]
  exact (List.length_map _).symm

theorem isEmpty_iff (h : Holds P s m) : s.isEmpty = true ↔ ∀ id, m id = none := by
  rw [Snapshot.isEmpty, List.isEmpty_iff]
  constructor
  · intro hnil id
    rw [← h.get, get?, hnil]
    rfl
  · intro hnone
    refine List.eq_nil_iff_forall_not_mem.mpr fun e he => ?_
    cases (hnone e.1).symm.trans (h.mem_iff.mp he)

theorem represents (h : Holds P s m) : Represents s m where
  get := h.get
  getAs asType? id := by rw [getAs?, h.get]
  contains id := by
    rw [Bool.eq_iff_iff, ← h.mem_ids_iff]
    simp [Snapshot.contains, Snapshot.ids]
  size := h.size_eq
  isEmpty := h.isEmpty_iff
  ids := ⟨h.ascending.ids, fun _ => h.mem_ids_iff⟩
  toList := ⟨rfl, fun _ _ => h.mem_iff⟩

/-- Two snapshots of one map are the same. -/
theorem unique (hs : Holds P s m) (ht : Holds Q t m) : s = t :=
  ext_get hs.ascending ht.ascending fun id => (hs.get id).trans (ht.get id).symm

theorem ids_unique (hs : Holds P s m) (ht : Holds Q t k) (h : ∀ id, (m id).isSome = (k id).isSome) : s.ids = t.ids :=
  ids_ext hs.ascending.ids ht.ascending.ids fun id => by rw [hs.mem_ids_iff, ht.mem_ids_iff, h]

end Holds

end

/-! ## Equality as a relation -/

section
variable [Erased π] {P : π → Prop} {m k n : ActionId → Option π}

/-- The inputs of this kind are compared by an equivalence relation. -/
def ComparedByEquivalence (P : π → Prop) : Prop :=
  Equivalence fun x y : {x // P x} => Erased.compare x.1 y.1 = .ok true

/-- The copy of an input that is equal to itself is equal to it. -/
def CopiedFaithfully (P : π → Prop) : Prop :=
  ∀ x y, P x → Erased.copy x = .ok y → Erased.compare x x = .ok true → Erased.compare y x = .ok true

/-- If values of different types are never equal, it is enough that the values of each type are compared by an equivalence
relation. -/
theorem comparedByEquivalence_of_types {ι : Type} (type : π → ι)
    (htype : ∀ x y, Erased.compare x y = .ok true → type x = type y)
    (heach : ∀ i, ComparedByEquivalence fun x => P x ∧ type x = i) : ComparedByEquivalence P where
  refl x := (heach (type x.1)).refl ⟨x.1, x.2, rfl⟩
  symm {x y} hxy := by
    have hy : type y.1 = type x.1 := (htype _ _ hxy).symm
    exact (heach (type x.1)).symm (x := ⟨x.1, x.2, rfl⟩) (y := ⟨y.1, y.2, hy⟩) hxy
  trans {x y z} hxy hyz := by
    have hx : type x.1 = type y.1 := htype _ _ hxy
    have hz : type z.1 = type y.1 := (htype _ _ hyz).symm
    exact (heach (type y.1)).trans (x := ⟨x.1, x.2, hx⟩) (y := ⟨y.1, y.2, rfl⟩) (z := ⟨z.1, z.2, hz⟩) hxy hyz

theorem Agrees.refl (he : ComparedByEquivalence P) (hm : ∀ id x, m id = some x → P x) : Agrees m m :=
  ⟨fun _ => rfl, fun id x _ hx hy => Option.some.inj (hx.symm.trans hy) ▸ he.refl ⟨x, hm id x hx⟩⟩

theorem Agrees.symm (he : ComparedByEquivalence P) (hm : ∀ id x, m id = some x → P x)
    (hk : ∀ id x, k id = some x → P x) (h : Agrees m k) : Agrees k m where
  ids id := (h.ids id).symm
  equal id y x hy hx := he.symm (x := ⟨x, hm id x hx⟩) (y := ⟨y, hk id y hy⟩) (h.equal id x y hx hy)

theorem Agrees.trans (he : ComparedByEquivalence P) (hm : ∀ id x, m id = some x → P x)
    (hk : ∀ id x, k id = some x → P x) (hn : ∀ id x, n id = some x → P x) (h : Agrees m k) (h' : Agrees k n) :
    Agrees m n where
  ids id := (h.ids id).trans (h'.ids id)
  equal id x z hx hz := by
    obtain ⟨y, hy⟩ : ∃ y, k id = some y := Option.isSome_iff_exists.mp (by rw [← h.ids, hx]; rfl)
    exact he.trans (x := ⟨x, hm id x hx⟩) (y := ⟨y, hk id y hy⟩) (z := ⟨z, hn id z hz⟩)
      (h.equal id x y hx hy) (h'.equal id y z hy hz)

/-- A copied map agrees with the map it was made from exactly if every input agrees with its copy. -/
theorem agrees_copied_iff :
    Agrees (fun id => (m id).map Erased.copied) m ↔
      ∀ id x, m id = some x → Erased.compare (Erased.copied x) x = .ok true := by
  constructor
  · intro h id x hx
    exact h.equal id _ x (by rw [hx]; rfl) hx
  · intro h
    refine ⟨fun id => Option.isSome_map, fun id y x hy hx => ?_⟩
    rw [hx] at hy
    cases hy
    exact h id x hx

end

/-! ## Payloads -/

/-- Payloads that are equal to themselves and on which nothing panics: all but the fragile ones and what is not a number. -/
def Sound (x : Payload) : Prop := x.type ≠ .fragile ∧ x.compare x = .ok true

section
variable {x y z : Payload}

theorem harmless_sound : Harmless Sound where
  copies x hx := ⟨x, Payload.copy_of_ne_fragile hx.1, hx⟩
  compares _ y hx _ := Payload.compare_of_ne_fragile hx.1 y

theorem f64_of_type (h : x.type = .f64) : ∃ a, x = .f64 a := by
  obtain ⟨type, a⟩ := x
  cases h
  exact ⟨a, rfl⟩

theorem compare_f64_symm (hx : x.type = .f64) (hy : y.type = .f64) (hxy : x.compare y = .ok true) :
    y.compare x = .ok true := by
  obtain ⟨a, rfl⟩ := f64_of_type hx
  obtain ⟨b, rfl⟩ := f64_of_type hy
  exact congrArg Except.ok (Decimal.Binary64.same_symm (Except.ok.inj hxy))

theorem compare_f64_trans (hx : x.type = .f64) (hy : y.type = .f64) (hz : z.type = .f64) (hxy : x.compare y = .ok true)
    (hyz : y.compare z = .ok true) : x.compare z = .ok true := by
  obtain ⟨a, rfl⟩ := f64_of_type hx
  obtain ⟨b, rfl⟩ := f64_of_type hy
  obtain ⟨c, rfl⟩ := f64_of_type hz
  exact congrArg Except.ok (Decimal.Binary64.same_trans (Except.ok.inj hxy) (Except.ok.inj hyz))

theorem comparedByEquivalence_sound : ComparedByEquivalence Sound := by
  refine comparedByEquivalence_of_types Payload.type (fun x y hxy => ?_) fun type => ?_
  · by_contra hne
    cases (Payload.compare_of_type_ne hne).symm.trans hxy
  · by_cases hfloat : type = .f64
    · subst hfloat
      exact ⟨fun x => x.2.1.2, fun {x y} => compare_f64_symm x.2.2 y.2.2,
        fun {x y z} => compare_f64_trans x.2.2 y.2.2 z.2.2⟩
    · have hiff (x y : {x // Sound x ∧ x.type = type}) : Erased.compare x.1 y.1 = .ok true ↔ x.1 = y.1 := by
        have hx : x.1.type ≠ .f64 := fun heq => hfloat (x.2.2.symm.trans heq)
        exact Payload.compare_eq_true_iff hx x.2.1.1
      simp only [ComparedByEquivalence, hiff]
      exact ⟨fun _ => rfl, Eq.symm, Eq.trans⟩

theorem copiedFaithfully_sound : CopiedFaithfully Sound := by
  intro x y _ hcopy hsame
  rw [Payload.eq_of_copy hcopy]
  exact hsame

end

/-! ## Shelves -/

section
variable {P : π → Prop} {shelf : Shelf π} {m : Contents π} {place : Nat} {l l' : List (ActionId × π)}

/-- Each snapshot holds what its map says. -/
def Stocked (P : π → Prop) (shelf : Shelf π) (m : Contents π) : Prop := ∀ place, Holds P (shelf place) (m place)

theorem Stocked.update {s : Snapshot π} {k : ActionId → Option π} (h : Stocked P shelf m) (place : Nat)
    (hs : Holds P s k) : Stocked P (Function.update shelf place s) (Function.update m place k) := by
  intro other
  rw [Function.update_apply, Function.update_apply]
  split
  · exact hs
  · exact h other

variable [Erased π]

theorem Stocked.call (hP : Harmless P) (h : Stocked P shelf m) (c : Call π) (hc : ∀ x ∈ c.inputs, P x) :
    Stocked P (shelf.call c) (m.call c) := by
  cases c with
  | insert place id input => exact h.update place ((h place).insert id (hc input List.mem_cons_self))
  | erase place id => exact h.update place ((h place).erase id)
  | clear place => exact h.update place .empty
  | copy source place =>
      obtain ⟨t, ht, hholds⟩ := (h source).copy hP
      rw [Shelf.call, ht]
      exact h.update place hholds
  | collect place entries => exact h.update place (.ofList fun e he => hc e.2 (List.mem_map_of_mem he))

theorem Stocked.run (hP : Harmless P) (calls : List (Call π)) (hcalls : ∀ c ∈ calls, ∀ x ∈ c.inputs, P x)
    (h : Stocked P shelf m) : Stocked P (shelf.run calls) (m.run calls) := by
  induction calls generalizing shelf m with
  | nil => exact h
  | cons c calls ih =>
      exact ih (fun d hd => hcalls d (List.mem_cons_of_mem _ hd)) (h.call hP c (hcalls c List.mem_cons_self))

theorem Shelf.call_of_ne {c : Call π} (h : c.place ≠ place) : shelf.call c place = shelf place := by
  cases c with
  | copy source target =>
      simp only [Shelf.call]
      cases (shelf source).copy with
      | ok s => exact Function.update_of_ne h.symm _ _
      | error message => rfl
  | insert | erase | clear | collect => exact Function.update_of_ne h.symm _ _

theorem Shelf.run_of_ne {calls : List (Call π)} (h : ∀ c ∈ calls, c.place ≠ place) :
    shelf.run calls place = shelf place := by
  induction calls generalizing shelf with
  | nil => rfl
  | cons c calls ih =>
      exact (ih fun d hd => h d (List.mem_cons_of_mem _ hd)).trans (call_of_ne (h c List.mem_cons_self))

theorem Shelf.insertAll_self : shelf.insertAll place l place = l.foldl (fun s e => s.insert e.1 e.2) (shelf place) := by
  induction l generalizing shelf with
  | nil => rfl
  | cons e l ih =>
      have hhead : shelf.call (.insert place e.1 e.2) place = (shelf place).insert e.1 e.2 := Function.update_self ..
      exact ih.trans (by rw [hhead, List.foldl_cons])

theorem Shelf.call_collect : shelf.call (.collect place l) place = .ofList l := Function.update_self ..

theorem Stocked.insertAll (h : Stocked P shelf m) (place : Nat) (l : List (ActionId × π)) :
    Holds (fun _ => True) (shelf.insertAll place l place) (written (m place) l) := by
  rw [Shelf.insertAll_self]
  exact ((h place).mono fun _ _ => trivial).inserts fun _ _ => trivial

/-- The snapshots of a shelf are finite maps with an equality of their own. -/
structure Conforms (P : π → Prop) (shelf : Shelf π) (m : Contents π) : Prop where
  represents : ∀ place, Represents (shelf place) (m place)
  /-- There is no other snapshot of a map. -/
  unique : ∀ place t, Represents t (m place) → t = shelf place
  /-- Which ids a map has settles the ids and their order. -/
  unique_ids : ∀ (place : Nat) (t : Snapshot π) (k : ActionId → Option π), Represents t k →
    (∀ id, (k id).isSome = (m place id).isSome) → t.ids = (shelf place).ids
  /-- The ids do not depend on the order in which entries come. -/
  reordered : ∀ place l l', l.Perm l' →
    (shelf.insertAll place l place).ids = (shelf.insertAll place l' place).ids ∧
    (shelf.call (.collect place l) place).ids = (shelf.call (.collect place l') place).ids
  /-- Nothing depends on it if no id comes twice. -/
  interchanged : ∀ place l l', (l.map Prod.fst).Nodup → l.Perm l' →
    shelf.insertAll place l place = shelf.insertAll place l' place ∧
    shelf.call (.collect place l) place = shelf.call (.collect place l') place
  /-- The entries that are taken out make the snapshot again. -/
  collected : ∀ place, ofList (shelf place).toList = shelf place
  copies : ∀ place, ∃ t, (shelf place).copy = .ok t ∧ Represents t fun id => (m place id).map Erased.copied
  /-- Calls that write to other places, be it a copy of this snapshot or to one, leave it as it is. -/
  unshared : ∀ place calls, (∀ c ∈ calls, c.place ≠ place) → shelf.run calls place = shelf place
  compared : ∀ place other, ∃ same, (shelf place).compare (shelf other) = .ok same ∧
    (same = true ↔ Agrees (m place) (m other))
  equivalence : ComparedByEquivalence P → Equivalence fun place other => (shelf place).compare (shelf other) = .ok true
  /-- A copy is equal to its original if its inputs are, which they are where copies are faithful. -/
  equal_copies : ∀ place t, (shelf place).copy = .ok t →
    (t.compare (shelf place) = .ok true ↔ ∀ id x, m place id = some x → Erased.compare (Erased.copied x) x = .ok true) ∧
    (ComparedByEquivalence P → CopiedFaithfully P →
      t.compare (shelf place) = .ok true ∧ (shelf place).compare t = .ok true)

namespace Stocked

theorem reordered (h : Stocked P shelf m) (place : Nat) (hl : l.Perm l') :
    (shelf.insertAll place l place).ids = (shelf.insertAll place l' place).ids ∧
    (shelf.call (.collect place l) place).ids = (shelf.call (.collect place l') place).ids := by
  have hcollected (l : List (ActionId × π)) : Holds (fun _ => True) (.ofList l) (written (fun _ => none) l) :=
    .ofList fun _ _ => trivial
  rw [Shelf.call_collect, Shelf.call_collect]
  exact ⟨(h.insertAll place l).ids_unique (h.insertAll place l') fun _ => written_isSome_perm hl,
    (hcollected l).ids_unique (hcollected l') fun _ => written_isSome_perm hl⟩

theorem interchanged (h : Stocked P shelf m) (place : Nat) (hnodup : (l.map Prod.fst).Nodup) (hl : l.Perm l') :
    shelf.insertAll place l place = shelf.insertAll place l' place ∧
    shelf.call (.collect place l) place = shelf.call (.collect place l') place := by
  rw [Shelf.call_collect, Shelf.call_collect]
  have hwritten : written (m place) l = written (m place) l' := written_perm hnodup hl
  exact ⟨(hwritten ▸ h.insertAll place l).unique (h.insertAll place l'), ofList_perm hnodup hl⟩

theorem equivalence (hP : Harmless P) (h : Stocked P shelf m) (he : ComparedByEquivalence P) :
    Equivalence fun place other => (shelf place).compare (shelf other) = .ok true := by
  have hiff (place other : Nat) : (shelf place).compare (shelf other) = .ok true ↔ Agrees (m place) (m other) :=
    (h place).compare_iff hP (h other)
  simp only [hiff]
  exact ⟨fun a => .refl he (h a).kind, fun {a b} hab => hab.symm he (h a).kind (h b).kind,
    fun {a b c} hab hbc => hab.trans he (h a).kind (h b).kind (h c).kind hbc⟩

theorem equal_copies {t : Snapshot π} (hP : Harmless P) (h : Stocked P shelf m) (hcopy : (shelf place).copy = .ok t) :
    (t.compare (shelf place) = .ok true ↔ ∀ id x, m place id = some x → Erased.compare (Erased.copied x) x = .ok true) ∧
    (ComparedByEquivalence P → CopiedFaithfully P →
      t.compare (shelf place) = .ok true ∧ (shelf place).compare t = .ok true) := by
  obtain ⟨_, hok, ht⟩ := (h place).copy hP
  cases hcopy.symm.trans hok
  rw [ht.compare_iff hP (h place), (h place).compare_iff hP ht, agrees_copied_iff]
  refine ⟨Iff.rfl, fun he hfaithful => ?_⟩
  have hequal : ∀ id x, m place id = some x → Erased.compare (Erased.copied x) x = .ok true := by
    intro id x hx
    have hkind : P x := (h place).kind id x hx
    obtain ⟨y, hy, -⟩ := hP.copies x hkind
    rw [Erased.copied_of_copy hy]
    exact hfaithful x y hkind hy (he.refl ⟨x, hkind⟩)
  exact ⟨hequal, (agrees_copied_iff.mpr hequal).symm he ht.kind (h place).kind⟩

theorem conforms (hP : Harmless P) (h : Stocked P shelf m) : Conforms P shelf m where
  represents place := (h place).represents
  unique place _ ht := ht.holds.unique (h place)
  unique_ids place _ _ ht hids := ht.holds.ids_unique (h place) hids
  reordered place _ _ hl := h.reordered place hl
  interchanged place _ _ hnodup hl := h.interchanged place hnodup hl
  collected place := ofList_toList (h place).ascending
  copies place := by
    obtain ⟨t, hcopy, ht⟩ := (h place).copy hP
    exact ⟨t, hcopy, ht.represents⟩
  unshared _ _ hcalls := Shelf.run_of_ne hcalls
  compared place other := (h place).compare hP (h other)
  equivalence he := h.equivalence hP he
  equal_copies _ _ hcopy := h.equal_copies hP hcopy

end Stocked

/-- From any entries on, any calls leave finite maps, as long as nothing panics on the inputs. -/
theorem snapshots_are_finite_maps (hP : Harmless P) (start : Nat → List (ActionId × π))
    (hstart : ∀ place, ∀ e ∈ start place, P e.2) (calls : List (Call π)) (hcalls : ∀ c ∈ calls, ∀ x ∈ c.inputs, P x) :
    Conforms P (Shelf.run (fun place => .ofList (start place)) calls)
      (Contents.run (fun place => written (fun _ => none) (start place)) calls) := by
  have hstocked : Stocked P (fun place => .ofList (start place)) fun place => written (fun _ => none) (start place) :=
    fun place => .ofList (hstart place)
  exact (hstocked.run hP calls hcalls).conforms hP

end

/-- Of two entries for one id the last one counts. A copy is equal to its original until an input of it is replaced, be it
by the same number of another type, and the original stays as it was. -/
theorem copy_differs_once_changed : ∃ shelf : Shelf Payload,
    shelf = Shelf.run (fun _ => .ofList [(⟨3⟩, .u8 1), (⟨1⟩, .f64 (.infinity true)), (⟨3⟩, .u64 1)])
      [.copy 0 1, .copy 0 2, .insert 2 ⟨3⟩ (.u8 1)] ∧
    (shelf 0).ids = [⟨1⟩, ⟨3⟩] ∧ (shelf 0).get? ⟨3⟩ = some (.u64 1) ∧ (shelf 2).get? ⟨3⟩ = some (.u8 1) ∧
    (shelf 0).compare (shelf 1) = .ok true ∧ (shelf 1).compare (shelf 0) = .ok true ∧
    (shelf 0).compare (shelf 2) = .ok false := by
  have hsmall : Sound (.u8 1) := ⟨by decide, by decide⟩
  have hlarge : Sound (.u64 1) := ⟨by decide, by decide⟩
  have hinfinite : Sound (.f64 (.infinity true)) := ⟨by decide, by decide⟩
  have hconforms := snapshots_are_finite_maps harmless_sound
    (fun _ => [(⟨3⟩, .u8 1), (⟨1⟩, .f64 (.infinity true)), (⟨3⟩, .u64 1)]) (by simp [hsmall, hlarge, hinfinite])
    [.copy 0 1, .copy 0 2, .insert 2 ⟨3⟩ (.u8 1)] (by simp [Call.inputs, hsmall])
  have hcopied := (hconforms.equal_copies 0 _ rfl).2 comparedByEquivalence_sound copiedFaithfully_sound
  exact ⟨_, rfl, rfl, (hconforms.represents 0).get ⟨3⟩, (hconforms.represents 2).get ⟨3⟩, hcopied.2, hcopied.1, rfl⟩

/-- Where an input is not equal to itself, neither is the snapshot. -/
example : (ofList [(⟨1⟩, Payload.f64 .nan)]).compare (ofList [(⟨1⟩, Payload.f64 .nan)]) = .ok false := by decide

end SingleFlight.Snapshot
