import Mathlib.Data.List.Basic
import Mathlib.Data.List.Induction

/-!
# Merging Records by Key

Records arrive one after another, each with a key and a mark that says whether
it is the preferred one of its key. The merge keeps one record per key, at the
place where the key first came up: the first preferred one, or the first one
when none is preferred.

Records that a test on keys selects can be selected before merging or after.

## Main definitions

* `Merge.place`: Place a record among those merged so far.
* `Merge.chosen`: The record that is kept of a key.
* `Merge.Keeps`: What a merge is of what came in.

## Theorems

* `Merge.place_of_new`, `Merge.place_of_known`: Placing by position.
* `Merge.filter_place`, `Merge.filter_foldl_place`: Selecting commutes with
  merging.
* `Merge.keeps_foldl_place`: One record is kept per key, the chosen one, in the
  order in which the keys came up.
-/

namespace Netfyr

namespace Merge

variable {α κ : Type} [DecidableEq κ] {key : α → κ}

/-- Place a record: in the place of one with its key that is not preferred, when
    it is preferred itself, or at the end when its key is new. -/
def place (key : α → κ) : List (α × Bool) → α × Bool → List (α × Bool)
  | [], new => [new]
  | (a, preferred) :: rest, new =>
      if key a = key new.1 then (if !preferred && new.2 then new else (a, preferred)) :: rest
      else (a, preferred) :: place key rest new

/-- A record of a new key comes last. -/
theorem place_of_new {views : List (α × Bool)} {new : α × Bool}
    (h : ∀ view ∈ views, key view.1 ≠ key new.1) : place key views new = views ++ [new] := by
  induction views with
  | nil => rfl
  | cons view views ih =>
      rw [List.forall_mem_cons] at h
      rcases view with ⟨a, preferred⟩
      rw [place, if_neg h.1, ih h.2, List.cons_append]

/-- A record of a known key is dropped, or takes the known one's place. -/
theorem place_of_known {views : List (α × Bool)} {new : α × Bool} {i : Nat} {a : α}
    {preferred : Bool} (hat : views[i]? = some (a, preferred)) (hkey : key a = key new.1)
    (honly : ∀ j view, views[j]? = some view → key view.1 = key new.1 → j = i) :
    place key views new = if !preferred && new.2 then views.set i new else views := by
  induction views generalizing i with
  | nil => exact absurd hat (by simp)
  | cons view views ih =>
      rcases view with ⟨b, marked⟩
      by_cases hb : key b = key new.1
      · obtain rfl : 0 = i := honly 0 (b, marked) rfl hb
        rw [List.getElem?_cons_zero, Option.some.injEq, Prod.mk.injEq] at hat
        rw [place, if_pos hb, hat.1, hat.2, List.set_cons_zero]
        split <;> rfl
      · cases i with
        | zero =>
            rw [List.getElem?_cons_zero, Option.some.injEq, Prod.mk.injEq] at hat
            rw [hat.1] at hb
            exact absurd hkey hb
        | succ i =>
            rw [List.getElem?_cons_succ] at hat
            have hrest : place key views new =
                if !preferred && new.2 then views.set i new else views := by
              refine ih hat fun j view hj hview => ?_
              have hshift := honly (j + 1) view (by rw [List.getElem?_cons_succ]; exact hj) hview
              omega
            rw [place, if_neg hb, hrest, List.set_cons_succ]
            split <;> rfl

/-- What is there after placing was there before, or is the placed record. -/
theorem mem_place {views : List (α × Bool)} {new view : α × Bool}
    (h : view ∈ place key views new) : view ∈ views ∨ view = new := by
  induction views with
  | nil => exact Or.inr (List.mem_singleton.mp h)
  | cons first views ih =>
      rcases first with ⟨a, preferred⟩
      rw [place] at h
      split at h
      · rcases List.mem_cons.mp h with heq | hmem
        · split at heq
          · exact Or.inr heq
          · exact Or.inl (heq ▸ List.mem_cons_self)
        · exact Or.inl (List.mem_cons_of_mem _ hmem)
      · rcases List.mem_cons.mp h with heq | hmem
        · exact Or.inl (heq ▸ List.mem_cons_self)
        · exact (ih hmem).imp_left (List.mem_cons_of_mem _)

/-- Selecting by a test that records of one key pass alike, after placing. -/
theorem filter_place {p : α → Bool} {views : List (α × Bool)} {new : α × Bool}
    (h : ∀ view ∈ views, key view.1 = key new.1 → p view.1 = p new.1) :
    (place key views new).filter (fun view => p view.1) =
      if p new.1 then place key (views.filter fun view => p view.1) new
      else views.filter fun view => p view.1 := by
  induction views with
  | nil =>
      cases hp : p new.1 with
      | true => simp [place, hp]
      | false => simp [place, hp]
  | cons view views ih =>
      rw [List.forall_mem_cons] at h
      rcases view with ⟨a, preferred⟩
      by_cases hkey : key a = key new.1
      · have hsame : p a = p new.1 := h.1 hkey
        have hhead : p (if (!preferred && new.2) = true then new else (a, preferred)).1 =
            p new.1 := by
          split
          · rfl
          · exact hsame
        rw [place, if_pos hkey, List.filter_cons, List.filter_cons]
        simp only [hhead, hsame]
        cases p new.1 with
        | true => simp only [if_true, place, if_pos hkey]
        | false => simp only [Bool.false_eq_true, if_false]
      · rw [place, if_neg hkey, List.filter_cons, List.filter_cons, ih h.2]
        cases p new.1 with
        | true =>
            cases p a with
            | true => simp only [if_true, place, if_neg hkey]
            | false => simp only [Bool.false_eq_true, if_false, if_true]
        | false => simp only [Bool.false_eq_true, if_false]

/-- Selecting by a test that records of one key pass alike, after merging. -/
theorem filter_foldl_place {p : α → Bool} {news views : List (α × Bool)}
    (h : ∀ a ∈ views ++ news, ∀ b ∈ views ++ news, key a.1 = key b.1 → p a.1 = p b.1) :
    (news.foldl (place key) views).filter (fun view => p view.1) =
      (news.filter fun view => p view.1).foldl (place key) (views.filter fun view => p view.1) := by
  induction news generalizing views with
  | nil => rfl
  | cons new news ih =>
      have hhere : ∀ view ∈ views, key view.1 = key new.1 → p view.1 = p new.1 :=
        fun view hmem => h view (List.mem_append_left _ hmem) new
          (List.mem_append_right _ List.mem_cons_self)
      have hwithin : ∀ view ∈ place key views new ++ news, view ∈ views ++ new :: news := by
        intro view hmem
        rcases List.mem_append.mp hmem with hplaced | hlater
        · rcases mem_place hplaced with hbefore | rfl
          · exact List.mem_append_left _ hbefore
          · exact List.mem_append_right _ List.mem_cons_self
        · exact List.mem_append_right _ (List.mem_cons_of_mem _ hlater)
      rw [List.foldl_cons, ih fun a ha b hb => h a (hwithin a ha) b (hwithin b hb),
        filter_place hhere, List.filter_cons]
      cases p new.1 with
      | true => rw [if_pos rfl, if_pos rfl, List.foldl_cons]
      | false => rw [if_neg Bool.false_ne_true, if_neg Bool.false_ne_true]

section Kept

/-- The first of a list to satisfy a condition. -/
def IsFirst {γ : Type} (p : γ → Prop) (items : List γ) (item : γ) : Prop :=
  p item ∧ ∃ before after, items = before ++ item :: after ∧ ∀ other ∈ before, ¬ p other

/-- The record kept of a key: the first preferred one, or else the first. -/
def chosen (key : α → κ) (news : List (α × Bool)) (k : κ) : Option (α × Bool) :=
  (news.find? fun new => decide (key new.1 = k) && new.2).or
    (news.find? fun new => decide (key new.1 = k))

/-- Where a key first comes up. -/
def firstPosition (key : α → κ) (news : List (α × Bool)) (k : κ) : Nat :=
  (news.map fun new => key new.1).idxOf k

/-- The merged records of what came in: one per key, the chosen one, in the order
    in which the keys came up. -/
structure Keeps (key : α → κ) (news views : List (α × Bool)) : Prop where
  ordered : (views.map fun view => key view.1).Pairwise fun a b =>
    firstPosition key news a < firstPosition key news b
  complete : ∀ k, k ∈ views.map (fun view => key view.1) ↔ k ∈ news.map fun new => key new.1
  kept : ∀ view ∈ views, chosen key news (key view.1) = some view

variable {news views : List (α × Bool)} {new : α × Bool} {k : κ}

theorem Keeps.nodup (h : Keeps key news views) : (views.map fun view => key view.1).Nodup :=
  h.ordered.imp fun hlt heq => by
    rw [heq] at hlt
    exact Nat.lt_irrefl _ hlt

/-- What a search finds is the first that passes. -/
theorem isFirst_of_find? {p : α × Bool → Prop} [DecidablePred p] {view : α × Bool}
    (h : (news.find? fun new => decide (p new)) = some view) : IsFirst p news view := by
  rcases List.find?_eq_some_iff_append.mp h with ⟨hview, before, after, heq, hbefore⟩
  refine ⟨of_decide_eq_true hview, before, after, heq, fun other hmem hp => ?_⟩
  have hnot := hbefore other hmem
  rw [decide_eq_true hp] at hnot
  exact absurd hnot (by decide)

/-- A chosen record is the first preferred one of its key, or the first one when
    none is preferred. -/
theorem chosen_isFirst {view : α × Bool} (h : chosen key news k = some view) :
    IsFirst (fun new => key new.1 = k ∧ new.2 = true) news view ∨
      (∀ new ∈ news, key new.1 = k → new.2 = false) ∧
        IsFirst (fun new => key new.1 = k) news view := by
  unfold chosen at h
  rw [Option.or_eq_some_iff] at h
  rcases h with hpreferred | ⟨hnone, hfirst⟩
  · left
    refine isFirst_of_find? ?_
    simp only [Bool.decide_and, Bool.decide_eq_true]
    exact hpreferred
  · refine Or.inr ⟨fun new hmem hkey => ?_, isFirst_of_find? hfirst⟩
    have hnot := List.find?_eq_none.mp hnone new hmem
    rw [decide_eq_true hkey, Bool.true_and, Bool.not_eq_true] at hnot
    exact hnot

/-- A record of another key does not change what is chosen. -/
theorem chosen_concat_of_ne (h : key new.1 ≠ k) :
    chosen key (news ++ [new]) k = chosen key news k := by
  unfold chosen
  rw [List.find?_append, List.find?_append, List.find?_singleton, List.find?_singleton]
  simp only [h, decide_false, Bool.false_and, Bool.false_eq_true, if_false, Option.or_none]

/-- A record of the key is chosen when it is the first, or the first that is
    preferred. -/
theorem chosen_concat_of_eq (h : key new.1 = k) :
    chosen key (news ++ [new]) k = match chosen key news k with
      | none => some new
      | some (a, preferred) => some (if !preferred && new.2 then new else (a, preferred)) := by
  unfold chosen
  rw [List.find?_append, List.find?_append, List.find?_singleton, List.find?_singleton]
  simp only [h, decide_true, Bool.true_and, if_true]
  cases hpreferred : news.find? fun other => decide (key other.1 = k) && other.2 with
  | some view =>
      -- A preferred record was there already.
      have hmark : view.2 = true := by
        have hview := List.find?_some hpreferred
        rw [Bool.and_eq_true] at hview
        exact hview.2
      rcases view with ⟨a, preferred⟩
      obtain rfl : preferred = true := hmark
      rfl
  | none =>
      cases hfirst : news.find? fun other => decide (key other.1 = k) with
      | none =>
          cases hnew : new.2 with
          | true => rfl
          | false => rfl
      | some view =>
          -- None of the records of the key is preferred.
          have hmark : view.2 = false := by
            have hnone := List.find?_eq_none.mp hpreferred view (List.mem_of_find?_eq_some hfirst)
            have hview := List.find?_some hfirst
            rw [hview, Bool.true_and, Bool.not_eq_true] at hnone
            exact hnone
          rcases view with ⟨a, preferred⟩
          obtain rfl : preferred = false := hmark
          cases hnew : new.2 with
          | true => rfl
          | false => rfl

theorem keeps_nil : Keeps key [] [] where
  ordered := List.Pairwise.nil
  complete _ := Iff.rfl
  kept _ h := absurd h List.not_mem_nil

/-- The keys so far came up before a record that comes now. -/
theorem Keeps.firstPosition_concat (h : Keeps key news views) {a : κ}
    (hmem : a ∈ views.map fun view => key view.1) :
    firstPosition key (news ++ [new]) a = firstPosition key news a := by
  rw [firstPosition, List.map_append, List.idxOf_append_of_mem ((h.complete a).mp hmem)]
  rfl

theorem Keeps.ordered_concat (h : Keeps key news views) :
    (views.map fun view => key view.1).Pairwise fun a b =>
      firstPosition key (news ++ [new]) a < firstPosition key (news ++ [new]) b := by
  refine h.ordered.imp_of_mem fun ha hb hlt => ?_
  rw [h.firstPosition_concat ha, h.firstPosition_concat hb]
  exact hlt

/-- A key is kept at one position. -/
theorem Keeps.position_unique (h : Keeps key news views) {i j : Nat} {a b : α × Bool}
    (hi : views[i]? = some a) (hj : views[j]? = some b) (hkey : key b.1 = key a.1) : j = i := by
  have hlt : j < (views.map fun view => key view.1).length := by
    rw [List.length_map]
    exact (List.getElem?_eq_some_iff.mp hj).choose
  refine (List.getElem?_inj hlt h.nodup).mp ?_
  rw [List.getElem?_map, List.getElem?_map, hi, hj, Option.map_some, Option.map_some, hkey]

/-- Placing a record of a known key keeps what is kept. -/
theorem Keeps.place_of_known (h : Keeps key news views)
    (hknown : key new.1 ∈ views.map fun view => key view.1) :
    Keeps key (news ++ [new]) (place key views new) := by
  have hmem := hknown
  rw [List.mem_map] at hmem
  rcases hmem with ⟨⟨a, preferred⟩, hmem, hkey⟩
  rcases List.getElem?_of_mem hmem with ⟨i, hi⟩
  have honly : ∀ j view, views[j]? = some view → key view.1 = key new.1 → j = i :=
    fun j view hj hview => h.position_unique hi hj (hview.trans hkey.symm)
  have hnow : chosen key (news ++ [new]) (key a) =
      some (if !preferred && new.2 then new else (a, preferred)) := by
    rw [chosen_concat_of_eq hkey.symm, h.kept (a, preferred) hmem]
  have hother : ∀ j view, views[j]? = some view → j ≠ i →
      chosen key (news ++ [new]) (key view.1) = some view := by
    intro j view hj hne
    have hkeys : key new.1 ≠ key view.1 := fun heq => hne (honly j view hj heq.symm)
    rw [chosen_concat_of_ne hkeys]
    exact h.kept view (List.mem_of_getElem? hj)
  have hcomplete : ∀ k, k ∈ views.map (fun view => key view.1) ↔
      k ∈ (news ++ [new]).map fun new => key new.1 := by
    intro k
    rw [List.map_append, List.mem_append, ← h.complete k, List.map_singleton, List.mem_singleton]
    constructor
    · exact Or.inl
    · rintro (hmem' | rfl)
      · exact hmem'
      · exact hknown
  rw [Merge.place_of_known hi hkey honly]
  cases hmark : !preferred && new.2 with
  | false =>
      rw [if_neg Bool.false_ne_true]
      refine ⟨h.ordered_concat, hcomplete, fun view hview => ?_⟩
      rcases List.getElem?_of_mem hview with ⟨j, hj⟩
      by_cases hji : j = i
      · subst hji
        obtain rfl := Option.some.inj (hi.symm.trans hj)
        rw [hmark] at hnow
        exact hnow
      · exact hother j view hj hji
  | true =>
      -- The new record has the key of the one whose place it takes.
      have hmap : (views.set i new).map (fun view => key view.1) =
          views.map fun view => key view.1 := by
        rw [List.map_set, ← hkey]
        refine List.ext_getElem? fun j => ?_
        rw [List.getElem?_set]
        split
        · next hij =>
            subst hij
            rw [List.getElem?_map, hi, Option.map_some, List.length_map,
              if_pos (List.getElem?_eq_some_iff.mp hi).choose]
        · rfl
      rw [if_pos rfl]
      refine ⟨by rw [hmap]; exact h.ordered_concat, by rw [hmap]; exact hcomplete,
        fun view hview => ?_⟩
      rcases List.getElem?_of_mem hview with ⟨j, hj⟩
      rw [List.getElem?_set] at hj
      by_cases hij : i = j
      · subst hij
        rw [if_pos rfl, if_pos (List.getElem?_eq_some_iff.mp hi).choose, Option.some.injEq] at hj
        subst hj
        rw [hmark, if_pos rfl, hkey] at hnow
        exact hnow
      · rw [if_neg hij] at hj
        exact hother j view hj fun heq => hij heq.symm

/-- Placing a record of a new key keeps what is kept. -/
theorem Keeps.place_of_new (h : Keeps key news views)
    (hunknown : key new.1 ∉ views.map fun view => key view.1) :
    Keeps key (news ++ [new]) (place key views new) := by
  have habsent : ∀ view ∈ views, key view.1 ≠ key new.1 := fun view hmem heq =>
    hunknown (List.mem_map.mpr ⟨view, hmem, heq⟩)
  have hnew : key new.1 ∉ news.map fun new => key new.1 := fun hmem =>
    hunknown ((h.complete _).mpr hmem)
  rw [Merge.place_of_new habsent]
  refine ⟨?_, fun k => ?_, fun view hview => ?_⟩
  · have hsplit : (views ++ [new]).map (fun view => key view.1) =
        views.map (fun view => key view.1) ++ [key new.1] := by
      rw [List.map_append, List.map_singleton]
    rw [hsplit, List.pairwise_append]
    refine ⟨h.ordered_concat, List.pairwise_singleton _ _, fun a ha b hb => ?_⟩
    have hbefore : firstPosition key news a < (news.map fun new => key new.1).length :=
      List.idxOf_lt_length_iff.mpr ((h.complete a).mp ha)
    have hlast : (news.map fun new => key new.1).length ≤
        firstPosition key (news ++ [new]) (key new.1) := by
      rw [firstPosition, List.map_append, List.idxOf_append_of_notMem hnew]
      exact Nat.le_add_right _ _
    rw [List.mem_singleton.mp hb, h.firstPosition_concat ha]
    omega
  · rw [List.map_append, List.map_append, List.mem_append, List.mem_append, h.complete k]
  · rcases List.mem_append.mp hview with hold | hlast
    · rw [chosen_concat_of_ne (habsent view hold).symm]
      exact h.kept view hold
    · obtain rfl := List.mem_singleton.mp hlast
      have hfind : (news.find? fun other => decide (key other.1 = key view.1)) = none := by
        rw [List.find?_eq_none]
        intro other hmem
        rw [decide_eq_true_eq]
        exact fun heq => hnew (List.mem_map.mpr ⟨other, hmem, heq⟩)
      have hpreferred : (news.find? fun other =>
          decide (key other.1 = key view.1) && other.2) = none := by
        rw [List.find?_eq_none] at hfind ⊢
        intro other hmem hboth
        rw [Bool.and_eq_true] at hboth
        exact hfind other hmem hboth.1
      have hnone : chosen key news (key view.1) = none := by
        rw [chosen, hfind, hpreferred, Option.or_none]
      rw [chosen_concat_of_eq rfl, hnone]

/-- Placing a record keeps what is kept. -/
theorem Keeps.place (h : Keeps key news views) (new : α × Bool) :
    Keeps key (news ++ [new]) (place key views new) := by
  by_cases hknown : key new.1 ∈ views.map fun view => key view.1
  · exact h.place_of_known hknown
  · exact h.place_of_new hknown

/-- A merge keeps one record per key, the chosen one. -/
theorem keeps_foldl_place (news : List (α × Bool)) :
    Keeps key news (news.foldl (Merge.place key) []) := by
  induction news using List.reverseRecOn with
  | nil => exact keeps_nil
  | append_singleton news new ih =>
      rw [List.foldl_append]
      exact ih.place new

end Kept

end Merge

end Netfyr
