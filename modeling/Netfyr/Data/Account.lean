import Mathlib.Data.List.Infix
import Mathlib.Data.List.Nodup

/-!
# Accounting for Removals

A tree is here the list of its paths in document order, each path a list of
steps from the root. Something takes subtrees away and keeps a list of the paths
it dropped. The list accounts for the removal when it is in document order, when
what it names is gone, and when whatever is gone lies at or below a path that it
names, or above one: a container may vanish with the last of its contents.

Accounts compose as trees do. Below a common first step an account stays one,
and accounts of trees side by side concatenate, as long as no path of one is a
prefix of a path of the other.

## Main definitions

* `Account`: The dropped paths account for what is missing.

## Theorems

* `Account.refl`: Nothing is missing.
* `Account.append`: Accounts side by side.
* `Account.keep`, `Account.drop`, `Account.vanish`: The fate of one entry.
-/

namespace Netfyr

/-- The dropped paths account for what is missing. -/
structure Account {σ : Type} (before after dropped : List (List σ)) : Prop where
  sublist : dropped.Sublist before
  subset : ∀ path ∈ after, path ∈ before
  gone : ∀ path ∈ dropped, path ∉ after
  accounted : ∀ path ∈ before, path ∉ after →
    ∃ missing ∈ dropped, missing <+: path ∨ path <+: missing

/-- No path of one list is a prefix of one of the other, either way. -/
def Apart {σ : Type} (left right : List (List σ)) : Prop :=
  ∀ path ∈ left, ∀ path' ∈ right, ¬ path <+: path' ∧ ¬ path' <+: path

variable {σ : Type} {step : σ} {before after dropped before' after' dropped' : List (List σ)}

namespace Account

/-- Nothing is missing, and nothing was dropped. -/
theorem refl (paths : List (List σ)) : Account paths paths [] where
  sublist := List.nil_sublist paths
  subset _ h := h
  gone _ h := absurd h List.not_mem_nil
  accounted _ h hnot := absurd h hnot

/-- Accounts of trees side by side. -/
theorem append (h : Account before after dropped) (h' : Account before' after' dropped')
    (hapart : Apart before before') :
    Account (before ++ before') (after ++ after') (dropped ++ dropped') where
  sublist := h.sublist.append h'.sublist
  subset path hpath := by
    rw [List.mem_append] at hpath ⊢
    exact hpath.imp (h.subset path) (h'.subset path)
  gone path hpath := by
    rw [List.mem_append] at hpath ⊢
    rintro (hafter | hafter)
    · rcases hpath with hleft | hright
      · exact h.gone path hleft hafter
      · exact (hapart path (h.subset path hafter) path (h'.sublist.subset hright)).1
          (List.prefix_refl path)
    · rcases hpath with hleft | hright
      · exact (hapart path (h.sublist.subset hleft) path (h'.subset path hafter)).1
          (List.prefix_refl path)
      · exact h'.gone path hright hafter
  accounted path hpath hnot := by
    rw [List.mem_append, not_or] at hnot
    rcases List.mem_append.mp hpath with hleft | hright
    · rcases h.accounted path hleft hnot.1 with ⟨missing, hmissing, hprefix⟩
      exact ⟨missing, List.mem_append_left _ hmissing, hprefix⟩
    · rcases h'.accounted path hright hnot.2 with ⟨missing, hmissing, hprefix⟩
      exact ⟨missing, List.mem_append_right _ hmissing, hprefix⟩

/-- An account stays one below a common first step. -/
theorem below (h : Account before after dropped) (step : σ) :
    Account (before.map (step :: ·)) (after.map (step :: ·)) (dropped.map (step :: ·)) where
  sublist := h.sublist.map _
  subset path hpath := by
    rcases List.mem_map.mp hpath with ⟨rest, hrest, rfl⟩
    exact List.mem_map.mpr ⟨rest, h.subset rest hrest, rfl⟩
  gone path hpath hafter := by
    rcases List.mem_map.mp hpath with ⟨rest, hrest, rfl⟩
    rcases List.mem_map.mp hafter with ⟨rest', hrest', heq⟩
    rw [List.cons.injEq] at heq
    exact h.gone rest hrest (heq.2 ▸ hrest')
  accounted path hpath hnot := by
    rcases List.mem_map.mp hpath with ⟨rest, hrest, rfl⟩
    have hgone : rest ∉ after := fun hafter => hnot (List.mem_map.mpr ⟨rest, hafter, rfl⟩)
    rcases h.accounted rest hrest hgone with ⟨missing, hmissing, hprefix⟩
    refine ⟨step :: missing, List.mem_map.mpr ⟨missing, hmissing, rfl⟩, ?_⟩
    rw [List.prefix_cons_inj, List.prefix_cons_inj]
    exact hprefix

/-- An entry that is kept, with an account of what is below it. -/
theorem keep (h : Account before after dropped) (hroot : [] ∉ before) :
    Account ([step] :: before.map (step :: ·)) ([step] :: after.map (step :: ·))
      (dropped.map (step :: ·)) where
  sublist := (h.below step).sublist.cons [step]
  subset path hpath := by
    rcases List.mem_cons.mp hpath with rfl | hpath
    · exact List.mem_cons_self
    · exact List.mem_cons_of_mem _ ((h.below step).subset path hpath)
  gone path hpath hafter := by
    rcases List.mem_cons.mp hafter with rfl | hafter
    · -- The entry itself is not among the paths below it.
      rcases List.mem_map.mp hpath with ⟨rest, hrest, heq⟩
      rw [List.cons.injEq] at heq
      exact hroot (heq.2 ▸ h.sublist.subset hrest)
    · exact (h.below step).gone path hpath hafter
  accounted path hpath hnot := by
    rw [List.mem_cons, not_or] at hnot
    exact (h.below step).accounted path ((List.mem_cons.mp hpath).resolve_left hnot.1) hnot.2

/-- An entry that is dropped, with all that is below it. -/
theorem drop (step : σ) (before : List (List σ)) :
    Account ([step] :: before.map (step :: ·)) [] [[step]] where
  sublist := List.singleton_sublist.mpr List.mem_cons_self
  subset _ hpath := absurd hpath List.not_mem_nil
  gone _ _ := List.not_mem_nil
  accounted path hpath _ := by
    refine ⟨[step], List.mem_singleton_self _, Or.inl ?_⟩
    rcases List.mem_cons.mp hpath with rfl | hpath
    · exact List.prefix_refl _
    · rcases List.mem_map.mp hpath with ⟨rest, _, rfl⟩
      exact (List.prefix_cons_inj step).mpr (List.nil_prefix)

/-- An entry that vanishes with the last of what is below it. -/
theorem vanish (h : Account before [] dropped) (hne : before ≠ []) :
    Account ([step] :: before.map (step :: ·)) [] (dropped.map (step :: ·)) where
  sublist := (h.below step).sublist.cons [step]
  subset _ hpath := absurd hpath List.not_mem_nil
  gone _ _ := List.not_mem_nil
  accounted path hpath _ := by
    rcases List.mem_cons.mp hpath with rfl | hpath
    · rcases List.exists_mem_of_ne_nil _ hne with ⟨rest, hrest⟩
      rcases h.accounted rest hrest List.not_mem_nil with ⟨missing, hmissing, _⟩
      exact ⟨step :: missing, List.mem_map.mpr ⟨missing, hmissing, rfl⟩,
        Or.inr ((List.prefix_cons_inj step).mpr List.nil_prefix)⟩
    · exact (h.below step).accounted path hpath List.not_mem_nil

end Account

end Netfyr
