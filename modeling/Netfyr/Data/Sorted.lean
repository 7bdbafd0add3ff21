import Mathlib.Data.List.Sort

/-!
# Lists Sorted by a Key

A list of elements with distinct keys has one sorted form, whatever order it is
in. So what is made of the sorted form does not depend on that order.

## Main definitions

* `Ascending`: The keys of a list strictly increase.

## Theorems

* `Ascending.eq_of_mem`: Such a list is known by its members.
* `insertionSort_ascending`: Sorting a list with distinct keys makes one.
-/

namespace Netfyr

variable {α κ : Type} [LT κ] [LE κ] [Std.LawfulOrderLT κ] {key : α → κ} {as bs : List α}

/-- The keys of a list strictly increase. -/
def Ascending (key : α → κ) (as : List α) : Prop := as.Pairwise fun a b => key a < key b

theorem Ascending.nodup (h : Ascending key as) : (as.map key).Nodup := by
  rw [List.Nodup, List.pairwise_map]
  refine h.imp fun {a b} hlt heq => ?_
  rw [heq] at hlt
  exact Std.lt_irrefl hlt

variable [Std.IsLinearOrder κ]

/-- Such a list is known by its members. -/
theorem Ascending.eq_of_mem (ha : Ascending key as) (hb : Ascending key bs)
    (hmem : ∀ a, a ∈ as ↔ a ∈ bs) : as = bs := by
  have hperm : as.Perm bs :=
    (List.perm_ext_iff_of_nodup ha.nodup.of_map hb.nodup.of_map).mpr hmem
  refine hperm.eq_of_pairwise (fun a b _ _ hab hba => ?_) ha hb
  exact absurd (Std.lt_trans hab hba) Std.lt_irrefl

variable [DecidableLE κ]

/-- Sorting a list with distinct keys makes them increase. -/
theorem insertionSort_ascending (h : (as.map key).Nodup) :
    Ascending key (as.insertionSort fun a b => key a ≤ key b) := by
  have htotal : Std.Total fun a b : α => key a ≤ key b := ⟨fun a b => Std.le_total⟩
  have htrans : IsTrans α fun a b => key a ≤ key b := ⟨fun a b c => Std.le_trans⟩
  have hsorted := List.pairwise_insertionSort (fun a b => key a ≤ key b) as
  have hperm := (List.perm_insertionSort (fun a b => key a ≤ key b) as).map key
  have hdistinct := hperm.nodup_iff.mpr h
  rw [List.Nodup, List.pairwise_map] at hdistinct
  exact hsorted.imp₂ (fun a b hle hne => Std.lt_of_le_of_ne hle hne) hdistinct

end Netfyr
