import Netfyr.Interact.Action

/-!
# Effects of Actions

What is claimed of an action is often a relation between the state before, the
calls and the state after that composes: nothing done is nothing changed, and
one effect followed by another is an effect. Such a claim is proved of an action
by going through its parts, and the parts that make no difference to it need no
word. `HasEffect` is the claim of every run, or of every run that succeeds.

A count that grows with the calls is such a relation, and so is where a part of
the state comes from: it was there before, or some call brought it.

## Main definitions

* `Composes`: A relation that composes along a run.
* `Action.HasEffect`: Every run, or every successful one, is in the relation.

## Theorems

* `Action.hasEffect_bind`: A sequence has the effect of its parts.
* `Action.hasEffect_foldlM`: A loop has the effect of its body.
-/

namespace Netfyr

namespace Interact

variable {E : Type} {R : E → Type} {S ε α β : Type}

/-- A relation between a state, the calls made and the state after them that
    composes. -/
structure Composes (Q : S → List (Event E R) → S → Prop) : Prop where
  refl : ∀ s, Q s [] s
  trans : ∀ s tr s' tr' s'', Q s tr s' → Q s' tr' s'' → Q s (tr ++ tr') s''

namespace Action

/-- Every run is in the relation, or, with `successful`, every run that
    succeeds. -/
def HasEffect (successful : Bool) (m : Action E R S ε α) (Q : S → List (Event E R) → S → Prop) :
    Prop :=
  ∀ s tr r s', m.Runs s tr r s' → (successful = true → ∃ a, r = .ok a) → Q s tr s'

variable {successful : Bool} {m : Action E R S ε α} {f : α → Action E R S ε β}
  {Q : S → List (Event E R) → S → Prop}

/-- A sequence has the effect of its parts. -/
theorem hasEffect_bind (hQ : Composes Q) (hm : m.HasEffect successful Q)
    (hf : ∀ a, (f a).HasEffect successful Q) : (m >>= f).HasEffect successful Q := by
  intro s tr r s' hrun hok
  rcases runs_bind.mp hrun with ⟨e, rfl, hfirst⟩ | ⟨a, s₁, t₁, t₂, rfl, hfirst, hrest⟩
  · refine hm s tr _ s' hfirst fun hsuccessful => ?_
    rcases hok hsuccessful with ⟨b, hb⟩
    exact absurd hb (by simp only [reduceCtorEq, not_false_eq_true])
  · have hbefore := hm s t₁ _ s₁ hfirst fun _ => ⟨a, rfl⟩
    exact hQ.trans s t₁ s₁ t₂ s' hbefore (hf a s₁ t₂ r s' hrest hok)

theorem hasEffect_pure (hQ : Composes Q) {a : α} :
    (pure a : Action E R S ε α).HasEffect successful Q := by
  intro s tr r s' hrun _
  rcases runs_pure.mp hrun with ⟨rfl, _, rfl⟩
  exact hQ.refl s'

theorem hasEffect_ofExcept (hQ : Composes Q) {x : Except ε α} :
    (ofExcept x : Action E R S ε α).HasEffect successful Q := by
  intro s tr r s' hrun _
  rcases runs_ofExcept.mp hrun with ⟨rfl, _, rfl⟩
  exact hQ.refl s'

theorem hasEffect_fail (hQ : Composes Q) {e : ε} :
    (fail e : Action E R S ε α).HasEffect successful Q :=
  hasEffect_ofExcept hQ (x := .error e)

theorem hasEffect_failWhen (hQ : Composes Q) {b : Bool} {e : ε} :
    (failWhen b e : Action E R S ε Unit).HasEffect successful Q :=
  hasEffect_ofExcept hQ

theorem hasEffect_ofOption (hQ : Composes Q) {x : Option α} :
    (ofOption x : Action E R S ε α).HasEffect successful Q := by
  intro s tr r s' hrun _
  cases x with
  | none => exact hrun.elim
  | some a =>
      rcases hrun with ⟨rfl, heq⟩
      rw [(Prod.mk.inj heq).2]
      exact hQ.refl s

theorem hasEffect_get (hQ : Composes Q) : (get : Action E R S ε S).HasEffect successful Q := by
  intro s tr r s' hrun _
  rcases hrun with ⟨rfl, heq⟩
  rw [(Prod.mk.inj heq).2]
  exact hQ.refl s

theorem hasEffect_modify {g : S → S} (h : ∀ s, Q s [] (g s)) :
    (modify g : Action E R S ε Unit).HasEffect successful Q := by
  intro s tr r s' hrun _
  rcases runs_modify.mp hrun with ⟨rfl, _, rfl⟩
  exact h s

theorem hasEffect_perform {e : E} (h : ∀ s answer, Q s [⟨e, answer⟩] s) :
    (perform e : Action E R S ε (R e)).HasEffect successful Q := by
  intro s tr r s' hrun _
  rcases hrun with ⟨answer, rest, rfl, rfl, heq⟩
  rw [(Prod.mk.inj heq).2]
  exact h s answer

/-- A loop with accumulator has the effect of its body. -/
theorem hasEffect_foldlM (hQ : Composes Q) {ι : Type} {g : α → ι → Action E R S ε α}
    (hg : ∀ a i, (g a i).HasEffect successful Q) (is : List ι) (a : α) :
    (is.foldlM g a).HasEffect successful Q := by
  induction is generalizing a with
  | nil => exact hasEffect_pure hQ
  | cons i is ih =>
      rw [List.foldlM_cons]
      exact hasEffect_bind hQ (hg a i) ih

end Action

end Interact

end Netfyr
