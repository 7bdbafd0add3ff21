import Netfyr.Interact.Confined

/-!
# Loops of Actions

A loop with an accumulator is a fold in the action's own monad. Two rules cover
it: what every step that succeeds keeps of the accumulator, the loop keeps; and
where that is enough for a step not to fault, the loop does not fault.

An action that faults from no state is put together from such ones, except where
what it does next depends on what was found before.

## Main definitions

* `Action.Faultless`: No answers make the action fault, from any state.

## Theorems

* `Action.runs_foldlM_traced`, `Action.runs_foldlM_ok`: A loop keeps what its steps
  keep.
* `Action.Faultless.bind`, `Action.Faultless.foldlM`: Putting actions together.
-/

namespace Netfyr

namespace Interact

namespace Action

variable {E S ε α β ι : Type} {R : E → Type}

section Invariants

variable {g : α → ι → Action E R S ε α} {is : List ι}

/-- A loop that succeeds keeps what every step that succeeds keeps, of what it has
    and of what it has called. -/
theorem runs_foldlM_traced {P : α → List (Event E R) → Prop}
    (hg : ∀ a seen, P a seen → ∀ i ∈ is, ∀ s tr b s', (g a i).Runs s tr (.ok b) s' →
      P b (seen ++ tr)) {a b : α} {s s' : S} (seen : List (Event E R)) {tr : List (Event E R)}
    (ha : P a seen) (h : (is.foldlM g a).Runs s tr (.ok b) s') : P b (seen ++ tr) := by
  induction is generalizing a s seen tr with
  | nil =>
      rcases runs_pure.mp h with ⟨rfl, hb, _⟩
      rwa [Except.ok.inj hb, List.append_nil]
  | cons i is ih =>
      rw [List.foldlM_cons] at h
      rcases runs_bind_ok.mp h with ⟨next, s₁, t₁, t₂, rfl, hstep, hrest⟩
      have hnext := hg a seen ha i List.mem_cons_self s t₁ next s₁ hstep
      rw [← List.append_assoc]
      exact ih (fun a seen ha i hmem => hg a seen ha i (List.mem_cons_of_mem _ hmem)) _ hnext hrest

/-- The same of what it has alone. -/
theorem runs_foldlM_ok {P : α → Prop}
    (hg : ∀ a, P a → ∀ i ∈ is, ∀ s tr b s', (g a i).Runs s tr (.ok b) s' → P b) {a b : α}
    {s s' : S} {tr : List (Event E R)} (ha : P a)
    (h : (is.foldlM g a).Runs s tr (.ok b) s') : P b :=
  runs_foldlM_traced (P := fun a _ => P a) (fun a _ => hg a) [] ha h

end Invariants

/-- No answers make the action fault, from any state. -/
def Faultless (m : Action E R S ε α) : Prop := ∀ s, m.Safe s

namespace Faultless

variable {m : Action E R S ε α}

/-- What follows may rely on what was found. -/
theorem bind_of_runs {f : α → Action E R S ε β} (hm : m.Faultless)
    (hf : ∀ a, (∃ s tr s', m.Runs s tr (.ok a) s') → (f a).Faultless) : (m >>= f).Faultless :=
  fun s => safe_bind (hm s) fun tr a s' hrun => hf a ⟨s, tr, s', hrun⟩ s'

theorem bind {f : α → Action E R S ε β} (hm : m.Faultless) (hf : ∀ a, (f a).Faultless) :
    (m >>= f).Faultless :=
  hm.bind_of_runs fun a _ => hf a

theorem pure {a : α} : (pure a : Action E R S ε α).Faultless := fun _ => trivial

theorem ofExcept {x : Except ε α} : (ofExcept x : Action E R S ε α).Faultless := fun _ => trivial

theorem fail {e : ε} : (fail e : Action E R S ε α).Faultless := fun _ => trivial

theorem failWhen {b : Bool} {e : ε} : (failWhen b e : Action E R S ε Unit).Faultless := by
  cases b with
  | true => exact fun _ => trivial
  | false => exact fun _ => trivial

theorem get : (get : Action E R S ε S).Faultless := fun _ => trivial

theorem modify {f : S → S} : (modify f : Action E R S ε Unit).Faultless := fun _ => trivial

theorem perform {e : E} : (perform e : Action E R S ε (R e)).Faultless := fun _ _ => trivial

/-- A value that is there is used without a fault. -/
theorem ofOption {x : Option α} (h : x.isSome = true) :
    (ofOption x : Action E R S ε α).Faultless := by
  cases x with
  | some a => exact fun _ => trivial
  | none => exact absurd h Bool.false_ne_true

/-- A loop does not fault, where what its steps keep is enough for a step. -/
theorem foldlM {g : α → ι → Action E R S ε α} {P : α → Prop} {is : List ι}
    (hsafe : ∀ a, P a → ∀ i ∈ is, (g a i).Faultless)
    (hkeep : ∀ a, P a → ∀ i ∈ is, ∀ s tr b s', (g a i).Runs s tr (.ok b) s' → P b) {a : α}
    (ha : P a) : (is.foldlM g a).Faultless := by
  induction is generalizing a with
  | nil => exact pure
  | cons i is ih =>
      rw [List.foldlM_cons]
      refine (hsafe a ha i List.mem_cons_self).bind_of_runs fun next hrun => ?_
      rcases hrun with ⟨s, tr, s', hstep⟩
      exact ih (fun a ha i hmem => hsafe a ha i (List.mem_cons_of_mem _ hmem))
        (fun a ha i hmem => hkeep a ha i (List.mem_cons_of_mem _ hmem))
        (hkeep a ha i List.mem_cons_self s tr next s' hstep)

end Faultless

end Action

end Interact

end Netfyr
