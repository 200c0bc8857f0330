import Mathlib.Data.List.Forall2
import SingleFlight.Snapshot

/-!
# Snapshots as maps

The entries of a snapshot ascend, so it is settled by the inputs that it saves for each id: the order in which the
entries were put does not matter, as long as no id comes twice. Therefore two snapshots can be compared side by side.
-/

namespace SingleFlight

theorem ActionId.ext_index {a b : ActionId} (h : a.index = b.index) : a = b := by
  cases a; cases b; cases h; rfl

theorem ActionId.lt_iff {a b : ActionId} : a < b ↔ a.index < b.index := Iff.rfl

namespace Snapshot

variable {π : Type} {id key : ActionId} {input x y : π} {l k : List (ActionId × π)} {s t u : Snapshot π}

/-- The input of the first entry for the id. -/
def lookup (l : List (ActionId × π)) (id : ActionId) : Option π := (l.find? (·.1 = id)).map (·.2)

/-- The ids ascend strictly. -/
def Ascending (l : List (ActionId × π)) : Prop := l.Pairwise fun a b => a.1 < b.1

@[simp] theorem lookup_nil : lookup ([] : List (ActionId × π)) id = none := rfl

@[simp] theorem lookup_cons (e : ActionId × π) :
    lookup (e :: l) id = if e.1 = id then some e.2 else lookup l id := by
  by_cases h : e.1 = id <;> simp [lookup, h]

@[simp] theorem lookup_append : lookup (l ++ k) id = (lookup l id).or (lookup k id) := by
  simp [lookup, List.find?_append, Option.map_or]

theorem lookup_eq_some (h : (l.map Prod.fst).Nodup) : lookup l id = some input ↔ (id, input) ∈ l := by
  induction l with
  | nil => simp
  | cons e l ih =>
      obtain ⟨key, saved⟩ := e
      obtain ⟨hnot, hnodup⟩ := List.nodup_cons.mp h
      rw [lookup_cons]
      by_cases hk : key = id
      · subst hk
        have hmem : (key, input) ∉ l := fun hm => hnot (List.mem_map.mpr ⟨_, hm, rfl⟩)
        simp [hmem, eq_comm]
      · simp [hk, ih hnodup, Ne.symm hk]

theorem lookup_isSome : (lookup l id).isSome = true ↔ id ∈ l.map Prod.fst := by
  simp [lookup]

theorem lookup_reverse (h : (l.map Prod.fst).Nodup) : lookup l.reverse id = lookup l id := by
  have hreverse : (l.reverse.map Prod.fst).Nodup := (l.reverse_perm.map Prod.fst).nodup_iff.mpr h
  refine Option.ext fun input => ?_
  rw [lookup_eq_some hreverse, lookup_eq_some h, List.mem_reverse]

/-! ## Putting entries -/

theorem mem_put {e : ActionId × π} (h : e ∈ put id input l) : e = (id, input) ∨ e ∈ l := by
  induction l with
  | nil => simpa [put] using h
  | cons d l ih =>
      unfold put at h
      split at h
      · simpa using h
      · split at h
        · rcases List.mem_cons.mp h with rfl | h
          · exact .inl rfl
          · exact .inr (List.mem_cons_of_mem _ h)
        · rcases List.mem_cons.mp h with rfl | h
          · exact .inr List.mem_cons_self
          · rcases ih h with rfl | h
            · exact .inl rfl
            · exact .inr (List.mem_cons_of_mem _ h)

theorem Ascending.put (h : Ascending l) (id : ActionId) (input : π) : Ascending (put id input l) := by
  induction l with
  | nil => exact List.pairwise_singleton _ _
  | cons d l ih =>
      obtain ⟨hd, hl⟩ := List.pairwise_cons.mp h
      unfold Snapshot.put
      split
      · rename_i hlt
        refine List.pairwise_cons.mpr ⟨fun e he => ?_, h⟩
        rcases List.mem_cons.mp he with rfl | he
        · exact hlt
        · exact Nat.lt_trans hlt (hd e he)
      · split
        · rename_i heq
          exact List.pairwise_cons.mpr ⟨fun e he => heq ▸ hd e he, hl⟩
        · rename_i hlt hne
          refine List.pairwise_cons.mpr ⟨fun e he => ?_, ih hl⟩
          rcases mem_put he with rfl | he
          · have hindex : d.1.index ≠ id.index := fun e => hne (ActionId.ext_index e.symm)
            simp only [ActionId.lt_iff] at hlt ⊢
            omega
          · exact hd e he

@[simp] theorem lookup_put : lookup (put id input l) key = if key = id then some input else lookup l key := by
  induction l with
  | nil => simp [put, eq_comm]
  | cons d l ih =>
      unfold put
      split
      · simp [eq_comm]
      · split
        · rename_i heq
          by_cases hk : key = id
          · simp [hk]
          · simp [← heq, hk, Ne.symm hk]
        · rename_i hne
          by_cases hk : d.1 = key
          · simp [← hk, Ne.symm hne]
          · simp [hk, ih]

/-! ## Extensionality -/

theorem Ascending.nodup (h : Ascending l) : (l.map Prod.fst).Nodup := by
  refine List.pairwise_map.mpr (List.Pairwise.imp (fun hlt => ?_) h)
  rintro heq
  rw [ActionId.lt_iff, heq] at hlt
  omega

/-- Ascending entries are settled by what is looked up in them. -/
theorem Ascending.ext : ∀ {l k : List (ActionId × π)}, Ascending l → Ascending k →
    (∀ id, lookup l id = lookup k id) → l = k
  | [], [], _, _, _ => rfl
  | [], e :: k, _, _, h => by simpa using h e.1
  | d :: l, [], _, _, h => by simpa using h d.1
  | d :: l, e :: k, hl, hk, h => by
      obtain ⟨hd, hl'⟩ := List.pairwise_cons.mp hl
      obtain ⟨he, hk'⟩ := List.pairwise_cons.mp hk
      have hhead : d = e := by
        have hde : (d.1, d.2) ∈ e :: k := (lookup_eq_some hk.nodup).mp ((h d.1).symm.trans (by simp))
        have hed : (e.1, e.2) ∈ d :: l := (lookup_eq_some hl.nodup).mp ((h e.1).trans (by simp))
        rcases List.mem_cons.mp hde with hde | hde
        · exact hde
        · rcases List.mem_cons.mp hed with hed | hed
          · exact hed.symm
          · exact absurd (he _ hde) (Nat.lt_asymm (hd _ hed))
      subst hhead
      have htail : l = k := by
        refine Ascending.ext hl' hk' fun id => ?_
        have hid := h id
        by_cases heq : d.1 = id
        · subst heq
          have hfresh {l : List (ActionId × π)} (hlt : ∀ e ∈ l, d.1 < e.1) : lookup l d.1 = none := by
            simp only [lookup, Option.map_eq_none_iff, List.find?_eq_none, decide_eq_true_eq]
            intro e he heq
            have := hlt e he
            rw [heq, ActionId.lt_iff] at this
            omega
          rw [hfresh hd, hfresh he]
        · simpa [heq] using hid
      rw [htail]

theorem ext_get (hs : Ascending s.entries) (ht : Ascending t.entries) (h : ∀ id, s.get? id = t.get? id) : s = t := by
  cases s; cases t
  exact congrArg mk (hs.ext ht h)

theorem mem_ids : id ∈ s.ids ↔ (s.get? id).isSome = true := lookup_isSome.symm

theorem Ascending.ids (h : Ascending s.entries) : s.ids.Pairwise (· < ·) := List.pairwise_map.mpr h

/-- Ascending ids are settled by which ones there are. -/
theorem ids_ext {ids others : List ActionId} (h : ids.Pairwise (· < ·)) (k : others.Pairwise (· < ·))
    (hmem : ∀ id, id ∈ ids ↔ id ∈ others) : ids = others := by
  have hnodup {ids : List ActionId} (h : ids.Pairwise (· < ·)) : ids.Nodup := h.imp fun hlt heq => by
    rw [ActionId.lt_iff, heq] at hlt
    omega
  refine List.Perm.eq_of_pairwise (fun a b _ _ hab hba => absurd hab (Nat.lt_asymm hba)) h k ?_
  exact (List.perm_ext_iff_of_nodup (hnodup h) (hnodup k)).mpr hmem

/-! ## Snapshots of entries -/

theorem foldl_insert (l : List (ActionId × π)) : ∀ s : Snapshot π, Ascending s.entries →
    let t := l.foldl (fun s e => s.insert e.1 e.2) s
    Ascending t.entries ∧ ∀ id, t.get? id = (lookup l.reverse id).or (s.get? id) := by
  induction l with
  | nil => intro s hs; exact ⟨hs, fun id => rfl⟩
  | cons e l ih =>
      intro s hs
      obtain ⟨hasc, hget⟩ := ih (s.insert e.1 e.2) (hs.put e.1 e.2)
      refine ⟨hasc, fun id => (hget id).trans ?_⟩
      have hput : (s.insert e.1 e.2).get? id = if id = e.1 then some e.2 else s.get? id := lookup_put
      rw [hput, List.reverse_cons, lookup_append, lookup_cons, lookup_nil, Option.or_assoc]
      by_cases heq : e.1 = id
      · simp [heq]
      · simp [heq, Ne.symm heq]

theorem ofList_ascending (l : List (ActionId × π)) : Ascending (ofList l).entries := (foldl_insert l empty .nil).1

/-- The last entry for an id counts. -/
theorem get?_ofList (l : List (ActionId × π)) (id : ActionId) : (ofList l).get? id = lookup l.reverse id :=
  ((foldl_insert l empty .nil).2 id).trans Option.or_none

theorem get?_ofList_of_nodup (h : (l.map Prod.fst).Nodup) (id : ActionId) : (ofList l).get? id = lookup l id :=
  (get?_ofList l id).trans (lookup_reverse h)

/-- The order of the entries does not matter. -/
theorem ofList_perm (hl : (l.map Prod.fst).Nodup) (h : l.Perm k) : ofList l = ofList k := by
  have hk : (k.map Prod.fst).Nodup := (h.map Prod.fst).nodup_iff.mp hl
  refine ext_get (ofList_ascending l) (ofList_ascending k) fun id => ?_
  rw [get?_ofList_of_nodup hl, get?_ofList_of_nodup hk]
  refine Option.ext fun input => ?_
  rw [lookup_eq_some hl, lookup_eq_some hk, h.mem_iff]

theorem ofList_toList (h : Ascending s.entries) : ofList s.toList = s := by
  refine ext_get (ofList_ascending s.toList) h fun id => ?_
  exact get?_ofList_of_nodup h.nodup id

/-! ## Erasing and copying -/

theorem lookup_erase : lookup (l.filter fun e => e.1 ≠ id) key = if key = id then none else lookup l key := by
  induction l with
  | nil => simp
  | cons e l ih =>
      by_cases heq : e.1 = id
      · by_cases hkey : key = id
        · simpa [heq, hkey] using ih
        · simpa [heq, hkey, Ne.symm hkey] using ih
      · by_cases hkey : e.1 = key
        · simp [← hkey, heq]
        · simpa [heq, hkey] using ih

theorem get?_erase : (s.erase id).get? key = if key = id then none else s.get? key := lookup_erase

theorem lookup_map {ρ : Type} (f : π → ρ) :
    lookup (l.map fun e => (e.1, f e.2)) id = (lookup l id).map f := by
  induction l with
  | nil => rfl
  | cons e l ih =>
      by_cases heq : e.1 = id
      · simp [heq]
      · simpa [heq] using ih

section
variable [Erased π]

/-- The snapshot of the copies, where copying does not panic. -/
def copied (s : Snapshot π) : Snapshot π := ⟨s.entries.map fun e => (e.1, Erased.copied e.2)⟩

theorem get?_copied (s : Snapshot π) (id : ActionId) : s.copied.get? id = (s.get? id).map Erased.copied :=
  lookup_map Erased.copied

theorem ids_copied (s : Snapshot π) : s.copied.ids = s.ids := List.map_map

theorem Ascending.copied (h : Ascending s.entries) : Ascending s.copied.entries := List.pairwise_map.mpr h

theorem copyEntries_eq : ∀ {l : List (ActionId × π)}, (∀ e ∈ l, ∃ y, Erased.copy e.2 = .ok y) →
    copyEntries l = .ok (l.map fun e => (e.1, Erased.copied e.2))
  | [], _ => rfl
  | (id, input) :: rest, h => by
      obtain ⟨y, hy⟩ := h (id, input) List.mem_cons_self
      simp only at hy
      simp only [copyEntries, hy, copyEntries_eq fun e he => h e (List.mem_cons_of_mem _ he), List.map_cons,
        Erased.copied_of_copy hy]
      rfl

theorem copy_eq_copied (h : ∀ e ∈ s.entries, ∃ y, Erased.copy e.2 = .ok y) : s.copy = .ok s.copied := by
  rw [copy, copyEntries_eq h]
  rfl

/-! ## Comparing -/

/-- Two entries have one id, and the left input finds the right one equal. -/
def Matching (d e : ActionId × π) : Prop := d.1 = e.1 ∧ Erased.compare d.2 e.2 = .ok true

/-- Two maps have inputs for the same ids, and for each of them the left input finds the right one equal. -/
structure Agrees (m k : ActionId → Option π) : Prop where
  ids : ∀ id, (m id).isSome = (k id).isSome
  equal : ∀ id x y, m id = some x → k id = some y → Erased.compare x y = .ok true

theorem compareEntries_spec : ∀ {l k : List (ActionId × π)},
    (∀ d ∈ l, ∀ e ∈ k, ∃ same, Erased.compare d.2 e.2 = .ok same) → l.length = k.length →
    ∃ same, compareEntries l k = .ok same ∧ (same = true ↔ List.Forall₂ Matching l k)
  | [], [], _, _ => ⟨true, rfl, by simp⟩
  | d :: l, e :: k, h, hlen => by
      by_cases hid : d.1 = e.1
      · obtain ⟨same, hsame⟩ := h d List.mem_cons_self e List.mem_cons_self
        cases same with
        | false => exact ⟨false, by simp [compareEntries, hid, hsame], by simp [Matching, hid, hsame]⟩
        | true =>
            obtain ⟨same, hrest, hiff⟩ := compareEntries_spec (l := l) (k := k)
              (fun d hd e he => h d (List.mem_cons_of_mem _ hd) e (List.mem_cons_of_mem _ he)) (Nat.succ.inj hlen)
            exact ⟨same, by simp [compareEntries, hid, hsame, hrest], by simp [Matching, hid, hsame, hiff]⟩
      · exact ⟨false, by simp [compareEntries, hid], by simp [Matching, hid]⟩

theorem ids_of_matching (h : List.Forall₂ Matching l k) : l.map Prod.fst = k.map Prod.fst := by
  induction h with
  | nil => rfl
  | cons he _ ih => rw [List.map_cons, List.map_cons, he.1, ih]

theorem equal_of_matching (h : List.Forall₂ Matching l k) (hx : lookup l id = some x) (hy : lookup k id = some y) :
    Erased.compare x y = .ok true := by
  induction h with
  | nil => cases hx
  | @cons d e l k he _ ih =>
      rw [lookup_cons] at hx hy
      rw [← he.1] at hy
      split at hx
      · rename_i hid
        rw [if_pos hid] at hy
        cases hx; cases hy
        exact he.2
      · rename_i hid
        rw [if_neg hid] at hy
        exact ih hx hy

theorem matching_of_equal : ∀ {l k : List (ActionId × π)}, (l.map Prod.fst).Nodup → l.map Prod.fst = k.map Prod.fst →
    (∀ id x y, lookup l id = some x → lookup k id = some y → Erased.compare x y = .ok true) → List.Forall₂ Matching l k
  | [], [], _, _, _ => .nil
  | d :: l, e :: k, hnodup, hids, h => by
      obtain ⟨hnot, hnodup⟩ := List.nodup_cons.mp hnodup
      obtain ⟨hid, hids⟩ := List.cons.inj hids
      refine .cons ⟨hid, h d.1 d.2 e.2 (by simp) (by simp [hid])⟩ (matching_of_equal hnodup hids fun id x y hx hy => ?_)
      have hne : d.1 ≠ id := fun heq => hnot (heq ▸ lookup_isSome.mp (by simp [hx]))
      exact h id x y (by simp [hne, hx]) (by simp [← hid, hne, hy])

/-- Comparing side by side is comparing id by id. -/
theorem matching_iff_agrees (hs : Ascending s.entries) (ht : Ascending t.entries) :
    List.Forall₂ Matching s.entries t.entries ↔ Agrees s.get? t.get? := by
  constructor
  · intro h
    have hids : s.ids = t.ids := ids_of_matching h
    refine ⟨fun id => Bool.eq_iff_iff.mpr ?_, fun id x y hx hy => equal_of_matching h hx hy⟩
    rw [← mem_ids, ← mem_ids, hids]
  · intro h
    have hids : s.ids = t.ids := ids_ext hs.ids ht.ids fun id => by rw [mem_ids, mem_ids, h.ids]
    exact matching_of_equal hs.nodup hids h.equal

theorem compare_spec (hs : Ascending s.entries) (ht : Ascending t.entries)
    (h : ∀ d ∈ s.entries, ∀ e ∈ t.entries, ∃ same, Erased.compare d.2 e.2 = .ok same) :
    ∃ same, s.compare t = .ok same ∧ (same = true ↔ Agrees s.get? t.get?) := by
  rw [compare]
  by_cases hsize : s.size = t.size
  · rw [if_pos hsize, ← matching_iff_agrees hs ht]
    exact compareEntries_spec h hsize
  · rw [if_neg hsize]
    refine ⟨false, rfl, iff_of_false Bool.false_ne_true fun hagrees => hsize ?_⟩
    exact ((matching_iff_agrees hs ht).mpr hagrees).length_eq

theorem compareEntries_copied : ∀ {l : List (ActionId × π)},
    (∀ e ∈ l, Erased.compare (Erased.copied e.2) e.2 = .ok true) →
    compareEntries (l.map fun e => (e.1, Erased.copied e.2)) l = .ok true
  | [], _ => rfl
  | (id, input) :: rest, h => by
      have hinput : Erased.compare (Erased.copied input) input = .ok true := h (id, input) List.mem_cons_self
      simp only [List.map_cons, compareEntries, if_true, hinput]
      exact compareEntries_copied fun e he => h e (List.mem_cons_of_mem _ he)

/-- A snapshot equals the one that it was copied from, if each copy equals its original. -/
theorem compare_copied (h : ∀ e ∈ s.entries, Erased.compare (Erased.copied e.2) e.2 = .ok true) :
    s.copied.compare s = .ok true := by
  have hsize : s.copied.size = s.size := List.length_map _
  rw [compare, if_pos hsize]
  exact compareEntries_copied h

end

end Snapshot

end SingleFlight
