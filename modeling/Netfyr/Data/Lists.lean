import Mathlib.Data.List.Forall2

/-!
# Lists Compared and Updated in Place

Two lists compared element by element, and the update of the first element that
passes a test. A comparison that respects a test respects everything computed
from the test: whether some element passes, which is the first, which remain.

## Main definitions

* `updateFirst`: Replace the first element that passes a test.

## Theorems

* `append_cons_unique`: The first element that passes a test cuts a list once.
* `any_forall₂`, `find?_forall₂`, `filter_forall₂`: Comparing what a test
  selects.
* `updateFirst_forall₂`: Comparing two updates.
* `find?_updateFirst`, `filter_updateFirst_of_pos`: What a test selects after an
  update.
-/

namespace Netfyr

variable {α β : Type} {R : α → β → Prop} {p : α → Bool} {q : β → Bool} {f : α → α} {g : β → β}
  {as : List α} {bs : List β}

/-- Replace the first element that passes a test. -/
def updateFirst {α : Type} (p : α → Bool) (f : α → α) : List α → List α
  | [] => []
  | a :: as => if p a then f a :: as else a :: updateFirst p f as

/-- The first element that passes a test cuts a list in one way. -/
theorem append_cons_unique {a b a' b' : List α} {x y : α}
    (heq : a ++ x :: b = a' ++ y :: b') (hx : p x = true) (hy : p y = true)
    (ha : ∀ z ∈ a, p z = false) (hb : ∀ z ∈ b, p z = false) : a' = a ∧ y = x ∧ b' = b := by
  induction a generalizing a' with
  | nil =>
      cases a' with
      | nil =>
          rcases List.cons_eq_cons.mp heq with ⟨rfl, rfl⟩
          exact ⟨rfl, rfl, rfl⟩
      | cons z a' =>
          rcases List.cons_eq_cons.mp heq with ⟨rfl, rfl⟩
          have hlater := hb y (List.mem_append_right a' List.mem_cons_self)
          exact absurd (hy.symm.trans hlater) (by decide)
  | cons z a ih =>
      rw [List.forall_mem_cons] at ha
      cases a' with
      | nil =>
          rcases List.cons_eq_cons.mp heq with ⟨rfl, _⟩
          exact absurd (hy.symm.trans ha.1) (by decide)
      | cons z' a' =>
          rcases List.cons_eq_cons.mp heq with ⟨rfl, hrest⟩
          rcases ih hrest ha.2 with ⟨rfl, rfl, rfl⟩
          exact ⟨rfl, rfl, rfl⟩

/-- A list has at most one element that passes if none has another before it. -/
theorem countP_le_one (h : ∀ before after a, as = before ++ a :: after → p a = true →
    ∀ other ∈ before, p other ≠ true) : as.countP p ≤ 1 := by
  induction as with
  | nil => exact Nat.zero_le 1
  | cons a as ih =>
      rw [List.countP_cons]
      by_cases ha : p a = true
      · have hnone : as.countP p = 0 := by
          refine List.countP_eq_zero.mpr fun other hmem hother => ?_
          rcases List.append_of_mem hmem with ⟨before, after, rfl⟩
          exact h (a :: before) after other rfl hother a List.mem_cons_self ha
        exact Nat.le_of_eq (by rw [hnone, if_pos ha])
      · rw [if_neg ha, Nat.add_zero]
        refine ih fun before after b heq hb other hmem => ?_
        exact h (a :: before) after b (by rw [heq]; rfl) hb other (List.mem_cons_of_mem a hmem)

/-- An element that a distinct name was given to is the only one of its name. -/
theorem filter_eq_singleton {α β : Type} [DecidableEq β] {f : α → β} {as : List α} {a : α}
    (h : (as.map f).Nodup) (ha : a ∈ as) : as.filter (fun b => f b = f a) = [a] := by
  induction as with
  | nil => exact absurd ha List.not_mem_nil
  | cons c as ih =>
      rw [List.map_cons, List.nodup_cons] at h
      rw [List.filter_cons]
      rcases List.mem_cons.mp ha with rfl | ha
      · rw [if_pos (decide_eq_true rfl), List.filter_eq_nil_iff.mpr]
        intro b hb heq
        exact h.1 (of_decide_eq_true heq ▸ List.mem_map_of_mem hb)
      · rw [if_neg, ih h.2 ha]
        intro heq
        exact h.1 (of_decide_eq_true heq ▸ List.mem_map_of_mem ha)

/-- Each element of one list is compared with an element of the other. -/
theorem exists_of_forall₂ (h : List.Forall₂ R as bs) {a : α} (ha : a ∈ as) : ∃ b ∈ bs, R a b := by
  induction h with
  | nil => exact absurd ha List.not_mem_nil
  | cons hab _ ih =>
      rcases List.mem_cons.mp ha with rfl | ha
      · exact ⟨_, List.mem_cons_self, hab⟩
      · rcases ih ha with ⟨b, hb, hr⟩
        exact ⟨b, List.mem_cons_of_mem _ hb, hr⟩

/-- Everything on the right is related to something on the left. -/
theorem exists_of_mem_forall₂ {b : β} (h : List.Forall₂ R as bs) (hb : b ∈ bs) :
    ∃ a ∈ as, R a b := by
  induction h with
  | nil => exact absurd hb List.not_mem_nil
  | cons hab _ ih =>
      rcases List.mem_cons.mp hb with rfl | hb
      · exact ⟨_, List.mem_cons_self, hab⟩
      · rcases ih hb with ⟨a, ha, hR⟩
        exact ⟨a, List.mem_cons_of_mem _ ha, hR⟩

/-- A property of all elements is one of the elements they are compared with. -/
theorem forall_mem_forall₂ {P : α → Prop} {Q : β → Prop} (h : List.Forall₂ R as bs)
    (hiff : ∀ a ∈ as, ∀ b, R a b → (P a ↔ Q b)) : (∀ a ∈ as, P a) ↔ ∀ b ∈ bs, Q b := by
  induction h with
  | nil =>
      exact ⟨fun _ b hb => absurd hb List.not_mem_nil, fun _ a ha => absurd ha List.not_mem_nil⟩
  | cons hab hrest ih =>
      rw [List.forall_mem_cons] at hiff
      rw [List.forall_mem_cons, List.forall_mem_cons, hiff.1 _ hab, ih hiff.2]

/-- A comparison may use that the compared elements are in their lists. -/
theorem forall₂_imp_mem {S : α → β → Prop} (h : List.Forall₂ R as bs)
    (himp : ∀ a ∈ as, ∀ b ∈ bs, R a b → S a b) : List.Forall₂ S as bs := by
  induction h with
  | nil => exact .nil
  | cons hab hrest ih =>
      refine .cons (himp _ List.mem_cons_self _ List.mem_cons_self hab) (ih ?_)
      intro a ha b hb
      exact himp a (List.mem_cons_of_mem _ ha) b (List.mem_cons_of_mem _ hb)

/-- Comparisons compose. -/
theorem forall₂_comp {γ : Type} {S : β → γ → Prop} {T : α → γ → Prop} {cs : List γ}
    (h₁ : List.Forall₂ R as bs) (h₂ : List.Forall₂ S bs cs)
    (hcomp : ∀ a b c, R a b → S b c → T a c) : List.Forall₂ T as cs := by
  induction h₁ generalizing cs with
  | nil =>
      cases h₂
      exact .nil
  | cons hab _ ih =>
      cases h₂ with
      | cons hbc hrest => exact .cons (hcomp _ _ _ hab hbc) (ih hrest)

/-- A comparison by way of something between is two comparisons. -/
theorem exists_between_forall₂ {γ : Type} {S : β → γ → Prop} {cs : List γ}
    (h : List.Forall₂ (fun a c => ∃ b, R a b ∧ S b c) as cs) :
    ∃ bs, List.Forall₂ R as bs ∧ List.Forall₂ S bs cs := by
  induction h with
  | nil => exact ⟨[], .nil, .nil⟩
  | cons hac _ ih =>
      rcases hac with ⟨b, hab, hbc⟩
      rcases ih with ⟨bs, hleft, hright⟩
      exact ⟨b :: bs, .cons hab hleft, .cons hbc hright⟩

/-- When each element has its counterpart, the list has one. -/
theorem exists_forall₂_of_forall_mem (h : ∀ a ∈ as, ∃ b, R a b) :
    ∃ bs, List.Forall₂ R as bs := by
  induction as with
  | nil => exact ⟨[], .nil⟩
  | cons a as ih =>
      rw [List.forall_mem_cons] at h
      rcases h.1 with ⟨b, hb⟩
      rcases ih h.2 with ⟨bs, hbs⟩
      exact ⟨b :: bs, .cons hb hbs⟩

theorem any_forall₂ (h : List.Forall₂ R as bs) (hpq : ∀ a b, R a b → p a = q b) :
    as.any p = bs.any q := by
  induction h with
  | nil => rfl
  | cons hab _ ih => rw [List.any_cons, List.any_cons, hpq _ _ hab, ih]

theorem filter_forall₂ (h : List.Forall₂ R as bs) (hpq : ∀ a b, R a b → p a = q b) :
    List.Forall₂ R (as.filter p) (bs.filter q) :=
  List.rel_filter (fun _ _ hab => Bool.eq_iff_iff.mp (hpq _ _ hab)) h

/-- The first elements that pass are compared, or neither list has one. -/
theorem find?_forall₂ (h : List.Forall₂ R as bs) (hpq : ∀ a b, R a b → p a = q b) :
    (as.find? p = none ∧ bs.find? q = none) ∨
      ∃ a b, as.find? p = some a ∧ bs.find? q = some b ∧ R a b := by
  induction h with
  | nil => exact Or.inl ⟨rfl, rfl⟩
  | @cons a b _ _ hab _ ih =>
      have hsame := hpq a b hab
      cases hp : p a with
      | true =>
          refine Or.inr ⟨a, b, ?_, ?_, hab⟩
          · rw [List.find?_cons_of_pos hp]
          · rw [List.find?_cons_of_pos (hsame.symm.trans hp)]
      | false =>
          rw [List.find?_cons_of_neg (by rw [hp]; exact Bool.false_ne_true),
            List.find?_cons_of_neg (by rw [← hsame, hp]; exact Bool.false_ne_true)]
          exact ih

theorem updateFirst_forall₂ (h : List.Forall₂ R as bs) (hpq : ∀ a b, R a b → p a = q b)
    (hfg : ∀ a b, R a b → p a = true → R (f a) (g b)) :
    List.Forall₂ R (updateFirst p f as) (updateFirst q g bs) := by
  induction h with
  | nil => exact .nil
  | @cons a b _ _ hab hrest ih =>
      have hsame := hpq a b hab
      rw [updateFirst, updateFirst, ← hsame]
      by_cases hp : p a = true
      · rw [if_pos hp, if_pos hp]
        exact .cons (hfg a b hab hp) hrest
      · rw [if_neg hp, if_neg hp]
        exact .cons hab ih

/-- An update is compared with the list before when the element updated is. -/
theorem updateFirst_forall₂_self {S : α → α → Prop} (hrefl : ∀ a, S a a)
    (hf : ∀ a, p a = true → S a (f a)) : List.Forall₂ S as (updateFirst p f as) := by
  induction as with
  | nil => exact .nil
  | cons a as ih =>
      rw [updateFirst]
      by_cases hp : p a = true
      · rw [if_pos hp]
        exact .cons (hf a hp) (List.forall₂_same.mpr fun b _ => hrefl b)
      · rw [if_neg hp]
        exact .cons (hrefl a) ih

/-- Where no element passes, nothing is updated. -/
theorem updateFirst_eq_self (h : ∀ a ∈ as, p a = false) : updateFirst p f as = as := by
  induction as with
  | nil => rfl
  | cons a as ih =>
      rw [List.forall_mem_cons] at h
      rw [updateFirst, if_neg (by rw [h.1]; exact Bool.false_ne_true), ih h.2]

/-- What an update keeps of the element it is of, it keeps of all. -/
theorem map_updateFirst {β : Type} {g : α → β} (hf : ∀ a, p a = true → g (f a) = g a) :
    (updateFirst p f as).map g = as.map g := by
  induction as with
  | nil => rfl
  | cons a as ih =>
      rw [updateFirst]
      by_cases hp : p a = true
      · rw [if_pos hp, List.map_cons, List.map_cons, hf a hp]
      · rw [if_neg hp, List.map_cons, List.map_cons, ih]

/-- With distinct keys, the first element of a key is the only one. -/
theorem updateFirst_eq_map {κ : Type} [DecidableEq κ] {key : α → κ} {k : κ}
    (h : (as.map key).Nodup) : updateFirst (fun a => key a == k) f as =
      as.map fun a => if key a = k then f a else a := by
  induction as with
  | nil => rfl
  | cons a as ih =>
      rw [List.map_cons, List.nodup_cons] at h
      rw [updateFirst, List.map_cons]
      by_cases hk : key a = k
      · -- No other element has the key, so the map leaves the rest as it is.
        have hrest : ∀ b ∈ as, (if key b = k then f b else b) = b := by
          intro b hmem
          refine if_neg fun hkey => h.1 ?_
          rw [hk, ← hkey]
          exact List.mem_map_of_mem hmem
        rw [if_pos (beq_iff_eq.mpr hk), if_pos hk, List.map_congr_left hrest, List.map_id']
      · have hne : ¬ (key a == k) = true := fun heq => hk (beq_iff_eq.mp heq)
        rw [if_neg hne, if_neg hk, ih h.2]

/-- The first element that passes after an update is the one updated. -/
theorem find?_updateFirst (hf : ∀ a, p a = true → p (f a) = true) :
    (updateFirst p f as).find? p = (as.find? p).map f := by
  induction as with
  | nil => rfl
  | cons a as ih =>
      rw [updateFirst]
      by_cases hp : p a = true
      · rw [if_pos hp, List.find?_cons_of_pos (hf a hp), List.find?_cons_of_pos hp, Option.map_some]
      · rw [if_neg hp, List.find?_cons_of_neg hp, List.find?_cons_of_neg hp, ih]

/-- An update does not touch what another test selects, when the element updated
    is not selected before or after. -/
theorem filter_updateFirst_of_neg {r : α → Bool}
    (h : ∀ a ∈ as, p a = true → r a = false ∧ r (f a) = false) :
    (updateFirst p f as).filter r = as.filter r := by
  induction as with
  | nil => rfl
  | cons a as ih =>
      rw [List.forall_mem_cons] at h
      rw [updateFirst]
      by_cases hp : p a = true
      · rw [if_pos hp, List.filter_cons_of_neg (by rw [(h.1 hp).2]; exact Bool.false_ne_true),
          List.filter_cons_of_neg (by rw [(h.1 hp).1]; exact Bool.false_ne_true)]
      · rw [if_neg hp, List.filter_cons, List.filter_cons, ih h.2]

/-- An update inside what another test selects can be made after selecting. -/
theorem filter_updateFirst_of_pos {r : α → Bool}
    (h : ∀ a ∈ as, p a = true → r a = true ∧ r (f a) = true) :
    (updateFirst p f as).filter r = updateFirst p f (as.filter r) := by
  induction as with
  | nil => rfl
  | cons a as ih =>
      rw [List.forall_mem_cons] at h
      rw [updateFirst]
      by_cases hp : p a = true
      · rw [if_pos hp, List.filter_cons_of_pos (h.1 hp).2, List.filter_cons_of_pos (h.1 hp).1,
          updateFirst, if_pos hp]
      · rw [if_neg hp]
        cases hr : r a with
        | true =>
            rw [List.filter_cons_of_pos hr, List.filter_cons_of_pos hr, updateFirst, if_neg hp,
              ih h.2]
        | false =>
            have hneg : ¬ r a = true := by rw [hr]; exact Bool.false_ne_true
            rw [List.filter_cons_of_neg hneg, List.filter_cons_of_neg hneg, ih h.2]

/-- Every element stays, or is the one updated. -/
theorem mem_updateFirst_of_mem {a : α} (ha : a ∈ as) :
    a ∈ updateFirst p f as ∨ (p a = true ∧ f a ∈ updateFirst p f as) := by
  induction as with
  | nil => exact absurd ha List.not_mem_nil
  | cons b as ih =>
      rw [updateFirst]
      by_cases hp : p b = true
      · rw [if_pos hp]
        rcases List.mem_cons.mp ha with rfl | ha
        · exact Or.inr ⟨hp, List.mem_cons_self⟩
        · exact Or.inl (List.mem_cons_of_mem _ ha)
      · rw [if_neg hp]
        rcases List.mem_cons.mp ha with rfl | ha
        · exact Or.inl List.mem_cons_self
        · rcases ih ha with hmem | ⟨hpa, hmem⟩
          · exact Or.inl (List.mem_cons_of_mem _ hmem)
          · exact Or.inr ⟨hpa, List.mem_cons_of_mem _ hmem⟩

/-- Every element after an update was there before, or is the one updated. -/
theorem mem_of_mem_updateFirst {a : α} (ha : a ∈ updateFirst p f as) :
    a ∈ as ∨ ∃ b ∈ as, p b = true ∧ a = f b := by
  induction as with
  | nil => exact absurd ha List.not_mem_nil
  | cons b as ih =>
      rw [updateFirst] at ha
      by_cases hp : p b = true
      · rw [if_pos hp] at ha
        rcases List.mem_cons.mp ha with rfl | ha
        · exact Or.inr ⟨b, List.mem_cons_self, hp, rfl⟩
        · exact Or.inl (List.mem_cons_of_mem _ ha)
      · rw [if_neg hp] at ha
        rcases List.mem_cons.mp ha with rfl | ha
        · exact Or.inl List.mem_cons_self
        · rcases ih ha with hmem | ⟨c, hc, hpc, rfl⟩
          · exact Or.inl (List.mem_cons_of_mem _ hmem)
          · exact Or.inr ⟨c, List.mem_cons_of_mem _ hc, hpc, rfl⟩

/-- An update is a write at the position of the first element that passes. -/
theorem updateFirst_eq_set {i : Nat} {a : α} (hi : as.findIdx? p = some i) (ha : as[i]? = some a) :
    updateFirst p f as = as.set i (f a) := by
  induction as generalizing i with
  | nil => exact absurd ha (by simp)
  | cons b as ih =>
      rw [List.findIdx?_cons] at hi
      rw [updateFirst]
      by_cases hp : p b = true
      · rw [if_pos hp, Option.some.injEq] at hi
        subst hi
        rw [List.getElem?_cons_zero, Option.some.injEq] at ha
        rw [if_pos hp, ha, List.set_cons_zero]
      · rw [if_neg hp] at hi
        rcases Option.map_eq_some_iff.mp hi with ⟨j, hj, rfl⟩
        rw [List.getElem?_cons_succ] at ha
        rw [if_neg hp, List.set_cons_succ, ih hj ha]

/-- Lists compared element by element agree on where the first element that
    passes is. -/
theorem findIdx?_forall₂ (h : List.Forall₂ R as bs) (hpq : ∀ a b, R a b → p a = q b) :
    as.findIdx? p = bs.findIdx? q := by
  induction h with
  | nil => rfl
  | cons hab _ ih => rw [List.findIdx?_cons, List.findIdx?_cons, hpq _ _ hab, ih]

theorem getElem?_forall₂ (h : List.Forall₂ R as bs) {i : Nat} {a : α} (ha : as[i]? = some a) :
    ∃ b, bs[i]? = some b ∧ R a b := by
  induction h generalizing i with
  | nil => exact absurd ha (by simp)
  | cons hab _ ih =>
      cases i with
      | zero =>
          rw [List.getElem?_cons_zero, Option.some.injEq] at ha
          exact ⟨_, rfl, ha ▸ hab⟩
      | succ i => exact ih ha

/-- Writing at one position of each list keeps them compared. -/
theorem set_forall₂ (h : List.Forall₂ R as bs) (i : Nat) {a : α} {b : β} (hab : R a b) :
    List.Forall₂ R (as.set i a) (bs.set i b) := by
  induction h generalizing i with
  | nil => exact .nil
  | cons hcd hrest ih =>
      cases i with
      | zero => exact .cons hab hrest
      | succ i => exact .cons hcd (ih i)

/-- Writing at one position of a list compares it with the list before. -/
theorem set_forall₂_self {S : α → α → Prop} (hrefl : ∀ a, S a a) {i : Nat} {a b : α}
    (ha : as[i]? = some a) (hab : S a b) : List.Forall₂ S as (as.set i b) := by
  have hsame := set_forall₂ (List.forall₂_same.mpr fun x (_ : x ∈ as) => hrefl x) i hab
  rcases List.getElem?_eq_some_iff.mp ha with ⟨hi, rfl⟩
  rwa [List.set_getElem_self] at hsame

end Netfyr
