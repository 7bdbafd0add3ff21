import Mathlib.Data.List.Basic
import Mathlib.Data.List.Nodup

/-!
# Insertion-Ordered Maps

Association lists read as maps that remember insertion order: inserting an
existing key replaces its value where it stands, a new key goes to the end, and
removing a key closes the gap. Lookup is `List.lookup`.

The lists are plain, so that they can occur inside an inductive type; distinct
keys are the separate condition `(keys es).Nodup`, and each operation keeps it.

## Main definitions

* `keys`: The keys in order.
* `insert`: Replacing a value in place, or appending an entry.
* `shiftRemove`: Removing a key, keeping the order of the rest.
* `insertAll`: Inserting entries one after the other.

## Theorems

* `keys_insert_nodup`: Insertion keeps keys distinct.
* `keys_shiftRemove_nodup`: Removal keeps keys distinct.
* `lookup_insert`: What a lookup finds after an insertion.
* `mem_insert`: What an insertion contains.
* `mem_of_lookup`: A lookup finds an entry of the list.
* `lookup_of_mem`: With distinct keys, every entry is found.
* `lookup_shiftRemove`: What a lookup finds after a removal.
* `insertAll_nil_eq_iff`: No entry is lost exactly when the keys are distinct.
-/

namespace Netfyr

namespace Assoc

variable {κ α : Type} [DecidableEq κ]

/-- The keys of an association list, in order. -/
def keys (es : List (κ × α)) : List κ := es.map Prod.fst

/-- Replace the value of a key where it stands, or append a new entry. -/
def insert : List (κ × α) → κ → α → List (κ × α)
  | [], k, v => [(k, v)]
  | (k', v') :: es, k, v => if k' = k then (k', v) :: es else (k', v') :: insert es k v

/-- Remove the entry of a key, keeping the order of the others. -/
def shiftRemove (es : List (κ × α)) (k : κ) : List (κ × α) :=
  es.filter fun e => e.1 ≠ k

/-- Insert entries one after the other. -/
def insertAll (es : List (κ × α)) (new : List (κ × α)) : List (κ × α) :=
  new.foldl (fun es e => insert es e.1 e.2) es

omit [DecidableEq κ] in
@[simp] theorem keys_nil : keys ([] : List (κ × α)) = [] := rfl

omit [DecidableEq κ] in
@[simp] theorem keys_cons (e : κ × α) (es : List (κ × α)) : keys (e :: es) = e.1 :: keys es := rfl

/-- The lookup of a key passes over the entries of other keys. -/
theorem lookup_cons_ne {es : List (κ × α)} {k l : κ} {v : α} (h : k ≠ l) :
    ((l, v) :: es).lookup k = es.lookup k := by
  rw [List.lookup_cons, beq_eq_false_iff_ne.mpr h]

theorem mem_keys_insert {es : List (κ × α)} {k k' : κ} {v : α} :
    k' ∈ keys (insert es k v) ↔ k' = k ∨ k' ∈ keys es := by
  induction es with
  | nil => simp only [insert, keys_cons, keys_nil, List.mem_singleton, List.not_mem_nil, or_false]
  | cons e es ih =>
      rcases e with ⟨l, w⟩
      by_cases hl : l = k
      · simp only [insert, hl, if_true, keys_cons, List.mem_cons, or_self_left]
      · simp only [insert, if_neg hl, keys_cons, List.mem_cons, ih]
        exact or_left_comm

/-- Insertion keeps keys distinct: it touches no key or adds a new one. -/
theorem keys_insert_nodup {es : List (κ × α)} {k : κ} {v : α} (h : (keys es).Nodup) :
    (keys (insert es k v)).Nodup := by
  induction es with
  | nil => exact List.nodup_singleton k
  | cons e es ih =>
      rcases e with ⟨l, w⟩
      rw [keys_cons, List.nodup_cons] at h
      by_cases hl : l = k
      · rw [insert, if_pos hl, keys_cons, List.nodup_cons]
        exact h
      · rw [insert, if_neg hl, keys_cons, List.nodup_cons, mem_keys_insert]
        exact ⟨fun hmem => hmem.elim hl h.1, ih h.2⟩

/-- Removal keeps keys distinct. -/
theorem keys_shiftRemove_nodup {es : List (κ × α)} {k : κ} (h : (keys es).Nodup) :
    (keys (shiftRemove es k)).Nodup :=
  List.Nodup.sublist (List.Sublist.map _ List.filter_sublist) h

/-- An inserted key is found with its new value, and other keys as before. -/
theorem lookup_insert {es : List (κ × α)} {k k' : κ} {v : α} :
    (insert es k v).lookup k' = if k' = k then some v else es.lookup k' := by
  induction es with
  | nil =>
      by_cases h : k' = k
      · rw [insert, h, if_pos rfl, List.lookup_cons_self]
      · rw [insert, lookup_cons_ne h, if_neg h]
  | cons e es ih =>
      rcases e with ⟨l, w⟩
      by_cases hl : l = k
      · subst hl
        by_cases h : k' = l
        · rw [insert, if_pos rfl, h, if_pos rfl, List.lookup_cons_self]
        · rw [insert, if_pos rfl, lookup_cons_ne h, if_neg h, lookup_cons_ne h]
      · by_cases h : k' = l
        · subst h
          rw [insert, if_neg hl, List.lookup_cons_self, if_neg hl, List.lookup_cons_self]
        · rw [insert, if_neg hl, lookup_cons_ne h, ih, lookup_cons_ne h]

/-- What an insertion contains was inserted or was there before. -/
theorem mem_insert {es : List (κ × α)} {k : κ} {v : α} {e : κ × α} (h : e ∈ insert es k v) :
    e = (k, v) ∨ e ∈ es := by
  induction es with
  | nil => exact Or.inl (List.mem_singleton.mp h)
  | cons e' es ih =>
      rcases e' with ⟨l, w⟩
      by_cases hl : l = k
      · rw [insert, if_pos hl] at h
        rcases List.mem_cons.mp h with rfl | hmem
        · exact Or.inl (by rw [hl])
        · exact Or.inr (List.mem_cons_of_mem _ hmem)
      · rw [insert, if_neg hl] at h
        rcases List.mem_cons.mp h with rfl | hmem
        · exact Or.inr List.mem_cons_self
        · rcases ih hmem with heq | hold
          · exact Or.inl heq
          · exact Or.inr (List.mem_cons_of_mem _ hold)

/-- A new key goes to the end. -/
theorem insert_of_not_mem {es : List (κ × α)} {k : κ} {v : α} (h : k ∉ keys es) :
    insert es k v = es ++ [(k, v)] := by
  induction es with
  | nil => rfl
  | cons e es ih =>
      rcases e with ⟨l, w⟩
      rw [keys_cons, List.mem_cons, not_or] at h
      rw [insert, if_neg (Ne.symm h.1), ih h.2, List.cons_append]

/-- A key that is there keeps its place. -/
theorem insert_of_mem {es : List (κ × α)} {k : κ} {v : α} (hn : (keys es).Nodup)
    (h : k ∈ keys es) : insert es k v = es.map fun e => if e.1 = k then (e.1, v) else e := by
  induction es with
  | nil => exact absurd h List.not_mem_nil
  | cons e es ih =>
      rw [keys_cons, List.nodup_cons] at hn
      rw [insert, List.map_cons]
      split
      · next hk =>
          have hrest : (es.map fun e => if e.1 = k then (e.1, v) else e) = es.map id := by
            refine List.map_congr_left fun e' hmem => if_neg ?_
            intro hk'
            exact hn.1 ((hk.trans hk'.symm) ▸ List.mem_map_of_mem hmem)
          rw [hrest, List.map_id]
      · next hk =>
          rw [ih hn.2 ((List.mem_cons.mp h).resolve_left (Ne.symm hk))]

theorem keys_insertAll_nodup {es new : List (κ × α)} (h : (keys es).Nodup) :
    (keys (insertAll es new)).Nodup := by
  induction new generalizing es with
  | nil => exact h
  | cons e new ih => exact ih (keys_insert_nodup h)

/-- Entries of new, distinct keys go to the end in their order. -/
theorem insertAll_of_nodup {es new : List (κ × α)} (h : (keys (es ++ new)).Nodup) :
    insertAll es new = es ++ new := by
  induction new generalizing es with
  | nil => exact (List.append_nil es).symm
  | cons e new ih =>
      have happend : es ++ e :: new = (es ++ [e]) ++ new := by
        rw [List.append_assoc, List.singleton_append]
      have hnew : e.1 ∉ keys es := by
        rw [keys, List.map_append, List.nodup_append] at h
        intro hmem
        exact h.2.2 e.1 hmem e.1 List.mem_cons_self rfl
      rw [happend] at h ⊢
      rw [insertAll, List.foldl_cons, insert_of_not_mem hnew]
      exact ih h

/-- Entries that are inserted one after the other are all there, in their order,
    exactly when no two have the same key. -/
theorem insertAll_nil_eq_iff {es : List (κ × α)} : insertAll [] es = es ↔ (keys es).Nodup := by
  constructor
  · intro h
    rw [← h]
    exact keys_insertAll_nodup List.nodup_nil
  · intro h
    exact insertAll_of_nodup h

/-- An insertion hides no key. -/
theorem lookup_insert_isSome {es : List (κ × α)} {k k' : κ} {v : α}
    (h : (es.lookup k').isSome = true) : ((insert es k v).lookup k').isSome = true := by
  rw [lookup_insert]
  split
  · rfl
  · exact h

theorem mem_of_lookup {es : List (κ × α)} {k : κ} {v : α} (h : es.lookup k = some v) :
    (k, v) ∈ es := by
  induction es with
  | nil => exact absurd h (by simp only [List.lookup_nil, reduceCtorEq, not_false_eq_true])
  | cons e es ih =>
      rcases e with ⟨l, w⟩
      by_cases hk : k = l
      · subst hk
        rw [List.lookup_cons_self, Option.some.injEq] at h
        rw [h]
        exact List.mem_cons_self
      · rw [lookup_cons_ne hk] at h
        exact List.mem_cons_of_mem _ (ih h)

/-- With distinct keys an entry is what its key looks up. -/
theorem lookup_of_mem {es : List (κ × α)} {k : κ} {v : α} (hn : (keys es).Nodup)
    (h : (k, v) ∈ es) : es.lookup k = some v := by
  induction es with
  | nil => exact absurd h (List.not_mem_nil)
  | cons e es ih =>
      rcases e with ⟨l, w⟩
      rw [keys_cons, List.nodup_cons] at hn
      rcases List.mem_cons.mp h with heq | hmem
      · rw [Prod.mk.injEq] at heq
        rw [heq.1, heq.2, List.lookup_cons_self]
      · have hk : k ≠ l := by
          rintro rfl
          exact hn.1 (List.mem_map.mpr ⟨(k, v), hmem, rfl⟩)
        rw [lookup_cons_ne hk]
        exact ih hn.2 hmem

/-- A lookup among the entries that a test of the key keeps. -/
theorem lookup_filter {es : List (κ × α)} {p : κ → Bool} {k : κ} :
    (es.filter fun e => p e.1).lookup k = if p k = true then es.lookup k else none := by
  induction es with
  | nil => rw [List.filter_nil, List.lookup_nil, ite_self]
  | cons e es ih =>
      rcases e with ⟨l, w⟩
      by_cases hl : p l = true
      · rw [List.filter_cons_of_pos (p := fun e : κ × α => p e.1) hl]
        by_cases hk : k = l
        · rw [hk, List.lookup_cons_self, List.lookup_cons_self, if_pos hl]
        · rw [lookup_cons_ne hk, lookup_cons_ne hk, ih]
      · rw [List.filter_cons_of_neg (p := fun e : κ × α => p e.1) hl, ih]
        by_cases hk : k = l
        · rw [hk, if_neg hl, if_neg hl]
        · rw [lookup_cons_ne hk]

/-- A removed key is not found, and other keys as before. -/
theorem lookup_shiftRemove {es : List (κ × α)} {k k' : κ} :
    (shiftRemove es k).lookup k' = if k' = k then none else es.lookup k' := by
  rw [shiftRemove, lookup_filter (p := fun l => decide (l ≠ k))]
  by_cases h : k' = k
  · rw [if_pos h, if_neg (by rwa [decide_eq_true_eq, not_ne_iff])]
  · rw [if_neg h, if_pos (by rwa [decide_eq_true_eq])]

/-- A key is found exactly when it is one of the keys. -/
theorem lookup_isSome {es : List (κ × α)} {k : κ} :
    (es.lookup k).isSome = true ↔ k ∈ keys es := by
  induction es with
  | nil => simp only [List.lookup_nil, Option.isSome_none, Bool.false_eq_true, keys_nil,
      List.not_mem_nil]
  | cons e es ih =>
      rcases e with ⟨l, w⟩
      rw [keys_cons, List.mem_cons]
      by_cases hk : k = l
      · rw [hk, List.lookup_cons_self]
        exact ⟨fun _ => Or.inl rfl, fun _ => rfl⟩
      · rw [lookup_cons_ne hk, ih]
        exact (or_iff_right hk).symm

end Assoc

end Netfyr
