import Netfyr.Interact.Program

/-!
# Stateful Fallible Actions

A procedure that updates a state, may fail with an error, and makes calls. The
state survives a failure: what was written before the error stays written,
which is how a method on `&mut self` that returns early behaves. That is why an
action returns the state beside the result and not inside it.

`Runs` reads an action as a relation between the state before, the calls made,
the result and the state after. The bind lemmas below execute one primitive at
a time, so unfolding a procedure and rewriting with them turns a run of it into
the list of ways it can go.

## Main definitions

* `Action`: A procedure over a state, with errors and calls.
* `Action.Runs`: The runs of an action.
* `Action.fail`, `Action.failWhen`: Ending with an error.
* `Action.get`, `Action.modify`: Reading and updating the state.
* `Action.perform`: Making a call.
* `Action.ofExcept`: Propagating a result.
* `Action.ofOption`: Using a value whose absence is a fault.

## Theorems

* `Action.runs_bind`: A sequence fails in its first part or runs both.
* `Action.safe_bind`: A sequence is safe when its parts are.
-/

namespace Netfyr

namespace Interact

/-- A procedure over a state `S`, failing with `ε` or returning `α`. -/
def Action (E : Type) (R : E → Type) (S ε α : Type) : Type :=
  S → Program E R (Except ε α × S)

variable {E : Type} {R : E → Type} {S ε α β : Type}

namespace Action

/-- Sequencing: an error of the first part ends the whole, keeping its state. -/
def bind (m : Action E R S ε α) (f : α → Action E R S ε β) : Action E R S ε β :=
  fun s => (m s).bind fun
    | (.ok a, s') => f a s'
    | (.error e, s') => .done (.error e, s')

instance : Monad (Action E R S ε) where
  pure a := fun s => .done (.ok a, s)
  bind := bind

/-- End with an error. -/
def fail (e : ε) : Action E R S ε α := fun s => .done (.error e, s)

/-- End with an error when a condition holds. -/
def failWhen (b : Bool) (e : ε) : Action E R S ε Unit :=
  fun s => .done (if b then .error e else .ok (), s)

/-- Read the state. -/
def get : Action E R S ε S := fun s => .done (.ok s, s)

/-- Update the state. -/
def modify (f : S → S) : Action E R S ε Unit := fun s => .done (.ok (), f s)

/-- Make a call and return its answer. -/
def perform (e : E) : Action E R S ε (R e) := fun s => .call e fun r => .done (.ok r, s)

/-- Propagate a result. -/
def ofExcept (x : Except ε α) : Action E R S ε α := fun s => .done (x, s)

/-- Use a value whose absence is a fault. -/
def ofOption (x : Option α) : Action E R S ε α := fun s =>
  match x with
  | some a => .done (.ok a, s)
  | none => .fault

/-- The runs of an action: the state before, the calls, the result, the state
    after. -/
def Runs (m : Action E R S ε α) (s : S) (tr : List (Event E R)) (r : Except ε α) (s' : S) :
    Prop :=
  (m s).Runs tr (r, s')

/-- No answers make the action fault from this state. -/
def Safe (m : Action E R S ε α) (s : S) : Prop := (m s).Safe

variable {m : Action E R S ε α} {f : α → Action E R S ε β} {s s' : S}
  {tr : List (Event E R)}

/-- A sequence fails in its first part, or runs it and then the second. -/
theorem runs_bind {r : Except ε β} : (m >>= f).Runs s tr r s' ↔
    (∃ e, r = .error e ∧ m.Runs s tr (.error e) s') ∨
      ∃ a s₁ t₁ t₂, tr = t₁ ++ t₂ ∧ m.Runs s t₁ (.ok a) s₁ ∧ (f a).Runs s₁ t₂ r s' := by
  refine Program.runs_bind.trans ?_
  constructor
  · rintro ⟨t₁, t₂, ⟨out, s₁⟩, rfl, h₁, h₂⟩
    cases out with
    | ok a => exact Or.inr ⟨a, s₁, t₁, t₂, rfl, h₁, h₂⟩
    | error e =>
        rcases h₂ with ⟨rfl, heq⟩
        simp only [Prod.mk.injEq] at heq
        rcases heq with ⟨rfl, rfl⟩
        exact Or.inl ⟨e, rfl, by rwa [List.append_nil]⟩
  · rintro (⟨e, rfl, h⟩ | ⟨a, s₁, t₁, t₂, rfl, h₁, h₂⟩)
    · exact ⟨tr, [], _, (List.append_nil tr).symm, h, rfl, rfl⟩
    · exact ⟨t₁, t₂, _, rfl, h₁, h₂⟩

/-- A sequence that succeeds ran both of its parts. -/
theorem runs_bind_ok {b : β} : (m >>= f).Runs s tr (.ok b) s' ↔
    ∃ a s₁ t₁ t₂, tr = t₁ ++ t₂ ∧ m.Runs s t₁ (.ok a) s₁ ∧ (f a).Runs s₁ t₂ (.ok b) s' := by
  rw [runs_bind]
  simp only [reduceCtorEq, false_and, exists_false, false_or]

theorem runs_pure {a : α} {r : Except ε α} :
    (pure a : Action E R S ε α).Runs s tr r s' ↔ tr = [] ∧ r = .ok a ∧ s' = s := by
  refine Program.runs_done.trans ?_
  rw [Prod.mk.injEq]

theorem runs_fail {e : ε} {r : Except ε α} :
    (fail e : Action E R S ε α).Runs s tr r s' ↔ tr = [] ∧ r = .error e ∧ s' = s := by
  refine Program.runs_done.trans ?_
  rw [Prod.mk.injEq]

theorem runs_ofExcept {x r : Except ε α} :
    (ofExcept x : Action E R S ε α).Runs s tr r s' ↔ tr = [] ∧ r = x ∧ s' = s := by
  refine Program.runs_done.trans ?_
  rw [Prod.mk.injEq]

theorem runs_modify {g : S → S} {r : Except ε Unit} :
    (modify g : Action E R S ε Unit).Runs s tr r s' ↔ tr = [] ∧ r = .ok () ∧ s' = g s := by
  refine Program.runs_done.trans ?_
  rw [Prod.mk.injEq]

theorem runs_get_bind {f : S → Action E R S ε β} {r : Except ε β} :
    (get >>= f).Runs s tr r s' ↔ (f s).Runs s tr r s' := Iff.rfl

theorem runs_modify_bind {g : S → S} {f : Unit → Action E R S ε β} {r : Except ε β} :
    (modify g >>= f).Runs s tr r s' ↔ (f ()).Runs (g s) tr r s' := Iff.rfl

theorem runs_perform_bind {e : E} {f : R e → Action E R S ε β} {r : Except ε β} :
    (perform e >>= f).Runs s tr r s' ↔
      ∃ x rest, tr = ⟨e, x⟩ :: rest ∧ (f x).Runs s rest r s' := Iff.rfl

/-- A propagated result either ends the sequence or is used by what follows. -/
theorem runs_ofExcept_bind {x : Except ε α} {r : Except ε β} :
    (ofExcept x >>= f).Runs s tr r s' ↔
      (∃ e, x = .error e ∧ tr = [] ∧ r = .error e ∧ s' = s) ∨
        ∃ a, x = .ok a ∧ (f a).Runs s tr r s' := by
  cases x with
  | ok a =>
      constructor
      · intro h
        exact Or.inr ⟨a, rfl, h⟩
      · rintro (⟨e, he, _⟩ | ⟨b, hb, h⟩)
        · exact absurd he (by simp only [reduceCtorEq, not_false_eq_true])
        · obtain rfl := Except.ok.inj hb
          exact h
  | error e =>
      constructor
      · rintro ⟨rfl, heq⟩
        rw [Prod.mk.injEq] at heq
        exact Or.inl ⟨e, rfl, rfl, heq.1, heq.2⟩
      · rintro (⟨e', he, rfl, rfl, rfl⟩ | ⟨b, hb, _⟩)
        · obtain rfl := Except.error.inj he
          exact ⟨rfl, rfl⟩
        · exact absurd hb (by simp only [reduceCtorEq, not_false_eq_true])

/-- A sequence that succeeds had a result to propagate. -/
theorem runs_ofExcept_bind_ok {x : Except ε α} {b : β} :
    (ofExcept x >>= f).Runs s tr (.ok b) s' ↔ ∃ a, x = .ok a ∧ (f a).Runs s tr (.ok b) s' := by
  rw [runs_ofExcept_bind]
  simp only [reduceCtorEq, false_and, and_false, exists_false, false_or]

theorem runs_failWhen_bind {b : Bool} {e : ε} {f : Unit → Action E R S ε β} {r : Except ε β} :
    (failWhen b e >>= f).Runs s tr r s' ↔
      (b = true ∧ tr = [] ∧ r = .error e ∧ s' = s) ∨ (b = false ∧ (f ()).Runs s tr r s') := by
  cases b with
  | true =>
      constructor
      · rintro ⟨rfl, heq⟩
        rw [Prod.mk.injEq] at heq
        exact Or.inl ⟨rfl, rfl, heq.1, heq.2⟩
      · rintro (⟨_, rfl, rfl, rfl⟩ | ⟨hb, _⟩)
        · exact ⟨rfl, rfl⟩
        · exact absurd hb (by decide)
  | false =>
      constructor
      · intro h
        exact Or.inr ⟨rfl, h⟩
      · rintro (⟨hb, _⟩ | ⟨_, h⟩)
        · exact absurd hb (by decide)
        · exact h

/-- A sequence that succeeds was not ended by a condition. -/
theorem runs_failWhen_bind_ok {c : Bool} {e : ε} {f : Unit → Action E R S ε β} {b : β} :
    (failWhen c e >>= f).Runs s tr (.ok b) s' ↔ c = false ∧ (f ()).Runs s tr (.ok b) s' := by
  rw [runs_failWhen_bind]
  simp only [reduceCtorEq, false_and, and_false, false_or]

/-- A run past a possibly absent value has the value. -/
theorem runs_ofOption_bind {x : Option α} {r : Except ε β} :
    (ofOption x >>= f).Runs s tr r s' ↔ ∃ a, x = some a ∧ (f a).Runs s tr r s' := by
  cases x with
  | none =>
      constructor
      · intro h
        exact h.elim
      · rintro ⟨a, ha, _⟩
        exact absurd ha (by simp only [reduceCtorEq, not_false_eq_true])
  | some a =>
      constructor
      · intro h
        exact ⟨a, rfl, h⟩
      · rintro ⟨b, hb, h⟩
        obtain rfl := Option.some.inj hb
        exact h

theorem safe_bind (hm : m.Safe s) (hf : ∀ tr a s', m.Runs s tr (.ok a) s' → (f a).Safe s') :
    (m >>= f).Safe s := by
  refine Program.safe_bind hm (fun tr out h => ?_)
  rcases out with ⟨_ | a, s'⟩
  · trivial
  · exact hf tr a s' h

theorem safe_pure {a : α} : (pure a : Action E R S ε α).Safe s := trivial

theorem safe_get_bind {f : S → Action E R S ε β} : (get >>= f).Safe s ↔ (f s).Safe s := Iff.rfl

theorem safe_modify_bind {g : S → S} {f : Unit → Action E R S ε β} :
    (modify g >>= f).Safe s ↔ (f ()).Safe (g s) := Iff.rfl

theorem safe_perform_bind {e : E} {f : R e → Action E R S ε β} :
    (perform e >>= f).Safe s ↔ ∀ x, (f x).Safe s := Iff.rfl

theorem safe_ofExcept_bind {x : Except ε α} (h : ∀ a, x = .ok a → (f a).Safe s) :
    (ofExcept x >>= f).Safe s := by
  cases x with
  | ok a => exact h a rfl
  | error e => trivial

theorem safe_failWhen_bind {b : Bool} {e : ε} {f : Unit → Action E R S ε β}
    (h : b = false → (f ()).Safe s) : (failWhen b e >>= f).Safe s := by
  cases b with
  | true => trivial
  | false => exact h rfl

/-- A possibly absent value is used safely when it is there. -/
theorem safe_ofOption_bind {x : Option α} (hx : x.isSome = true)
    (h : ∀ a, x = some a → (f a).Safe s) : (ofOption x >>= f).Safe s := by
  cases x with
  | none => exact absurd hx (by simp only [Option.isSome_none, Bool.false_eq_true,
      not_false_eq_true])
  | some a => exact h a rfl

end Action

end Interact

end Netfyr
