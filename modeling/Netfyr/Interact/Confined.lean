import Netfyr.Interact.Action

/-!
# Confined Actions

Two things can be said of an action without knowing what it is for: what it may
ask, and how it may fail. Both are kept by putting actions together, so an
action is confined when its parts are, whatever it does with the answers and
with its state.

A value that may be missing is confined in the second way only; an action that
ends where such a value is missing fails as the value does.

## Main definitions

* `FailsAs`: A value that is missing for one of some reasons only.
* `Action.Confined`: An action that asks and fails in some ways only.

## Theorems

* `FailsAs.bind`, `FailsAs.foldlM`: Putting values together.
* `Action.Confined.bind`, `Action.Confined.foldlM`: Putting actions together.
-/

namespace Netfyr

namespace Interact

variable {E : Type} {R : E → Type} {S ε α β ι : Type}

section Values

variable {D : ε → Prop} {x : Except ε α}

/-- A value that is missing for one of some reasons only. -/
def FailsAs (D : ε → Prop) (x : Except ε α) : Prop := ∀ e, x = .error e → D e

theorem FailsAs.ok {a : α} : FailsAs D (.ok a) :=
  fun _ h => absurd h (by simp only [reduceCtorEq, not_false_eq_true])

theorem FailsAs.error {e : ε} (h : D e) : FailsAs D (.error e : Except ε α) := by
  intro e' he
  obtain rfl := Except.error.inj he
  exact h

theorem FailsAs.bind {f : α → Except ε β} (hx : FailsAs D x) (hf : ∀ a, FailsAs D (f a)) :
    FailsAs D (x >>= f) := by
  cases x with
  | ok a => exact hf a
  | error e => exact .error (hx e rfl)

theorem FailsAs.map {f : α → β} (hx : FailsAs D x) : FailsAs D (x.map f) := by
  cases x with
  | ok a => exact .ok
  | error e => exact .error (hx e rfl)

/-- A loop over values fails as its body does. -/
theorem FailsAs.foldlM {g : α → ι → Except ε α} (hg : ∀ a i, FailsAs D (g a i)) (is : List ι)
    (a : α) : FailsAs D (is.foldlM g a) := by
  induction is generalizing a with
  | nil => exact .ok
  | cons i is ih =>
      rw [List.foldlM_cons]
      exact (hg a i).bind ih

end Values

namespace Action

variable {P : E → Prop} {D : ε → Prop} {m : Action E R S ε α}

/-- Every run asks only what it may, and fails only as it may. -/
def Confined (P : E → Prop) (D : ε → Prop) (m : Action E R S ε α) : Prop :=
  ∀ s tr r s', m.Runs s tr r s' → (∀ event ∈ tr, P event.1) ∧ FailsAs D r

namespace Confined

/-- A sequence is confined when its parts are. -/
theorem bind {f : α → Action E R S ε β} (hm : m.Confined P D) (hf : ∀ a, (f a).Confined P D) :
    (m >>= f).Confined P D := by
  intro s tr r s' hrun
  rcases runs_bind.mp hrun with ⟨e, rfl, hfirst⟩ | ⟨a, s₁, t₁, t₂, rfl, hfirst, hrest⟩
  · rcases hm s tr _ s' hfirst with ⟨hcalls, hfails⟩
    exact ⟨hcalls, .error (hfails e rfl)⟩
  · rcases hf a s₁ t₂ r s' hrest with ⟨hcalls, hfails⟩
    rw [List.forall_mem_append]
    exact ⟨⟨(hm s t₁ _ s₁ hfirst).1, hcalls⟩, hfails⟩

theorem ofExcept {x : Except ε α} (hx : FailsAs D x) :
    (ofExcept x : Action E R S ε α).Confined P D := by
  intro s tr r s' hrun
  rcases runs_ofExcept.mp hrun with ⟨rfl, rfl, rfl⟩
  exact ⟨fun event hmem => absurd hmem List.not_mem_nil, hx⟩

theorem pure {a : α} : (Pure.pure a : Action E R S ε α).Confined P D := ofExcept .ok

theorem fail {e : ε} (h : D e) : (fail e : Action E R S ε α).Confined P D := ofExcept (.error h)

theorem failWhen {b : Bool} {e : ε} (h : D e) :
    (failWhen b e : Action E R S ε Unit).Confined P D := by
  refine ofExcept ?_
  cases b with
  | true => exact .error h
  | false => exact .ok

theorem ofOption {x : Option α} : (ofOption x : Action E R S ε α).Confined P D := by
  intro s tr r s' hrun
  cases x with
  | none => exact hrun.elim
  | some a =>
      rcases hrun with ⟨rfl, heq⟩
      rw [(Prod.mk.inj heq).1]
      exact ⟨fun event hmem => absurd hmem List.not_mem_nil, .ok⟩

theorem get : (get : Action E R S ε S).Confined P D := by
  intro s tr r s' hrun
  rcases hrun with ⟨rfl, heq⟩
  rw [(Prod.mk.inj heq).1]
  exact ⟨fun event hmem => absurd hmem List.not_mem_nil, .ok⟩

theorem modify {g : S → S} : (modify g : Action E R S ε Unit).Confined P D := by
  intro s tr r s' hrun
  rcases runs_modify.mp hrun with ⟨rfl, rfl, _⟩
  exact ⟨fun event hmem => absurd hmem List.not_mem_nil, .ok⟩

theorem perform {e : E} (h : P e) : (perform e : Action E R S ε (R e)).Confined P D := by
  intro s tr r s' hrun
  rcases hrun with ⟨answer, rest, rfl, rfl, heq⟩
  rw [(Prod.mk.inj heq).1]
  refine ⟨fun event hmem => ?_, .ok⟩
  rw [List.mem_singleton.mp hmem]
  exact h

/-- A loop with accumulator is confined when its body is. -/
theorem foldlM {g : α → ι → Action E R S ε α} (hg : ∀ a i, (g a i).Confined P D) (is : List ι)
    (a : α) : (is.foldlM g a).Confined P D := by
  induction is generalizing a with
  | nil => exact pure
  | cons i is ih =>
      rw [List.foldlM_cons]
      exact (hg a i).bind ih

end Confined

end Action

end Interact

end Netfyr
