import Mathlib.Data.List.Forall2

/-!
# Checked Operations

List operations whose test may fault. An indexed access that can be out of
range is an `Option`, `none` standing for the panic, and a loop over such tests
faults as soon as one it evaluates does. The operations evaluate left to right
and stop where the language's own iterators stop, so a fault behind the
stopping point is not reached.

A procedure that fails with an error is an `Except`.

## Main definitions

* `anyChecked`, `allChecked`: Quantifiers that stop at the first decisive element.
* `filterChecked`: Keeping the elements that pass a test.

## Theorems

* `anyChecked_eq_false`: A negative answer tested every element.
* `exists_of_anyChecked`: A positive answer has an element that passed.
* `anyChecked_isSome`: No fault when no test faults.
* `anyChecked_eq_some`, `allChecked_eq_some`: The answer over tests that do not
  fault.
* `filterChecked_eq_some`: The elements kept when no test faults.
* `except_bind_eq_ok`: A sequence succeeds when both parts do.
* `mapM_eq_ok`: A traversal succeeds element by element.
* `foldlM_inv`: A fold that succeeds keeps what its steps keep.
* `foldlM_filter_view`, `foldlM_filter`: A fold that leaves elements out.
-/

namespace Netfyr

namespace Checked

variable {α : Type}

/-- Whether some element passes, stopping at the first that does. -/
def anyChecked (f : α → Option Bool) : List α → Option Bool
  | [] => some false
  | a :: as =>
      match f a with
      | none => none
      | some true => some true
      | some false => anyChecked f as

/-- Whether every element passes, stopping at the first that does not. -/
def allChecked (f : α → Option Bool) : List α → Option Bool
  | [] => some true
  | a :: as =>
      match f a with
      | none => none
      | some false => some false
      | some true => allChecked f as

/-- The elements that pass, in order. -/
def filterChecked (f : α → Option Bool) : List α → Option (List α)
  | [] => some []
  | a :: as =>
      match f a, filterChecked f as with
      | some true, some kept => some (a :: kept)
      | some false, some kept => some kept
      | _, _ => none

variable {f : α → Option Bool} {as : List α}

/-- A negative answer tested every element, and none passed. -/
theorem anyChecked_eq_false : anyChecked f as = some false ↔ ∀ a ∈ as, f a = some false := by
  induction as with
  | nil => simp only [anyChecked, List.not_mem_nil, false_imp_iff, implies_true]
  | cons a as ih =>
      rw [List.forall_mem_cons, ← ih, anyChecked]
      rcases f a with _ | _ | _ <;> simp only [reduceCtorEq, false_and, true_and,
        Option.some.injEq, Bool.true_eq_false]

/-- A positive answer has an element that passed. -/
theorem exists_of_anyChecked (h : anyChecked f as = some true) : ∃ a ∈ as, f a = some true := by
  induction as with
  | nil => exact absurd h (by simp only [anyChecked, Option.some.injEq, Bool.false_eq_true,
      not_false_eq_true])
  | cons a as ih =>
      rw [anyChecked] at h
      rcases hf : f a with _ | _ | _
      · simp only [hf, reduceCtorEq] at h
      · simp only [hf] at h
        rcases ih h with ⟨b, hb, hpass⟩
        exact ⟨b, List.mem_cons_of_mem a hb, hpass⟩
      · exact ⟨a, List.mem_cons_self, hf⟩

/-- Testing changed elements is testing by what they are changed to. -/
theorem anyChecked_map {β : Type} {g : β → Option Bool} (change : α → β) (as : List α) :
    anyChecked g (as.map change) = anyChecked (fun a => g (change a)) as := by
  induction as with
  | nil => rfl
  | cons a as ih => rw [List.map_cons, anyChecked, anyChecked, ih]

theorem anyChecked_isSome (h : ∀ a ∈ as, (f a).isSome = true) :
    (anyChecked f as).isSome = true := by
  induction as with
  | nil => rfl
  | cons a as ih =>
      rw [List.forall_mem_cons] at h
      rw [anyChecked]
      rcases hf : f a with _ | _ | _
      · rw [hf] at h
        exact absurd h.1 (by decide)
      · exact ih h.2
      · rfl

/-- Lists compared element by element get the same answer from tests that agree
    on compared elements. -/
theorem anyChecked_forall₂ {β : Type} {R : α → β → Prop} {g : β → Option Bool} {bs : List β}
    (h : List.Forall₂ R as bs) (hfg : ∀ a b, R a b → f a = g b) :
    anyChecked f as = anyChecked g bs := by
  induction h with
  | nil => rfl
  | cons hab _ ih => rw [anyChecked, anyChecked, hfg _ _ hab, ih]

theorem anyChecked_eq_some {g : α → Bool} (h : ∀ a ∈ as, f a = some (g a)) :
    anyChecked f as = some (as.any g) := by
  induction as with
  | nil => rfl
  | cons a as ih =>
      rw [List.forall_mem_cons] at h
      rw [anyChecked, h.1, List.any_cons]
      cases g a with
      | true => rfl
      | false => exact ih h.2

theorem allChecked_eq_some {g : α → Bool} (h : ∀ a ∈ as, f a = some (g a)) :
    allChecked f as = some (as.all g) := by
  induction as with
  | nil => rfl
  | cons a as ih =>
      rw [List.forall_mem_cons] at h
      rw [allChecked, h.1, List.all_cons]
      cases g a with
      | true => exact ih h.2
      | false => rfl

theorem filterChecked_eq_some {g : α → Bool} (h : ∀ a ∈ as, f a = some (g a)) :
    filterChecked f as = some (as.filter g) := by
  induction as with
  | nil => rfl
  | cons a as ih =>
      rw [List.forall_mem_cons] at h
      rw [filterChecked, h.1, ih h.2]
      cases hg : g a with
      | true => rw [List.filter_cons_of_pos hg]
      | false => rw [List.filter_cons_of_neg (by rw [hg]; exact Bool.false_ne_true)]

theorem filterChecked_isSome (h : ∀ a ∈ as, (f a).isSome = true) :
    (filterChecked f as).isSome = true := by
  have hsome : ∀ a ∈ as, f a = some ((f a).getD false) := by
    intro a ha
    rcases Option.isSome_iff_exists.mp (h a ha) with ⟨b, hb⟩
    rw [hb, Option.getD_some]
  rw [filterChecked_eq_some hsome, Option.isSome_some]

/-- What a completed filter says of each element it was given. -/
theorem filterChecked_some {kept : List α} (h : filterChecked f as = some kept) :
    ∃ g : α → Bool, (∀ a ∈ as, f a = some (g a)) ∧ kept = as.filter g := by
  refine ⟨fun a => (f a).getD false, ?_⟩
  have key : ∀ a ∈ as, f a = some ((f a).getD false) := by
    induction as generalizing kept with
    | nil => exact fun a ha => absurd ha List.not_mem_nil
    | cons a as ih =>
        rw [filterChecked] at h
        rcases hf : f a with _ | b
        · rw [hf] at h
          exact absurd h (by simp only [reduceCtorEq, not_false_eq_true])
        · rcases hrest : filterChecked f as with _ | rest
          · rw [hf, hrest] at h
            cases b <;> exact absurd h (by simp only [reduceCtorEq, not_false_eq_true])
          · rw [List.forall_mem_cons]
            exact ⟨by rw [hf, Option.getD_some], ih hrest⟩
  refine ⟨key, ?_⟩
  rw [filterChecked_eq_some key, Option.some.injEq] at h
  exact h.symm

end Checked

/-- Nothing was wrong under a changed error exactly when nothing was wrong. -/
theorem mapError_eq_ok {ε ε' α : Type} {f : ε → ε'} {x : Except ε α} {a : α} :
    x.mapError f = .ok a ↔ x = .ok a := by
  cases x with
  | ok b => simp only [Except.mapError, Except.ok.injEq]
  | error e => simp only [Except.mapError, reduceCtorEq]

/-- A sequence succeeds when both parts do. -/
theorem except_bind_eq_ok {ε α β : Type} {x : Except ε α} {f : α → Except ε β} {b : β} :
    (x >>= f) = .ok b ↔ ∃ a, x = .ok a ∧ f a = .ok b := by
  cases x with
  | ok a =>
      constructor
      · intro h
        exact ⟨a, rfl, h⟩
      · rintro ⟨a', ha, h⟩
        obtain rfl := Except.ok.inj ha
        exact h
  | error e =>
      constructor
      · intro h
        exact absurd h (by simp only [bind, Except.bind, reduceCtorEq, not_false_eq_true])
      · rintro ⟨a', ha, _⟩
        exact absurd ha (by simp only [reduceCtorEq, not_false_eq_true])

/-- A fold that succeeds keeps what each of its steps keeps. -/
theorem foldlM_inv {ε α β : Type} {f : β → α → Except ε β} {P : β → Prop}
    (hstep : ∀ b a b', P b → f b a = .ok b' → P b') {as : List α} {b b' : β} (hb : P b)
    (h : as.foldlM f b = .ok b') : P b' := by
  induction as generalizing b with
  | nil =>
      obtain rfl := Except.ok.inj h
      exact hb
  | cons a as ih =>
      rw [List.foldlM_cons, except_bind_eq_ok] at h
      rcases h with ⟨next, hnext, h⟩
      exact ih (hstep b a next hb hnext) h

/-- A fold that leaves elements out computes a view of the whole fold, when what
    is left out does not show in the view. -/
theorem foldlM_filter_view {ε α β : Type} {f : β → α → Except ε β} {keep : α → Bool}
    (view : β → β)
    (hkeep : ∀ b a b', keep a = true → f b a = .ok b' → f (view b) a = .ok (view b'))
    (hdrop : ∀ b a b', keep a = false → f b a = .ok b' → view b' = view b) {as : List α}
    {b b' : β} (h : as.foldlM f b = .ok b') :
    (as.filter keep).foldlM f (view b) = .ok (view b') := by
  induction as generalizing b with
  | nil =>
      obtain rfl := Except.ok.inj h
      rfl
  | cons a as ih =>
      rw [List.foldlM_cons, except_bind_eq_ok] at h
      rcases h with ⟨next, hnext, h⟩
      rw [List.filter_cons]
      by_cases ha : keep a = true
      · rw [if_pos ha, List.foldlM_cons, hkeep b a next ha hnext]
        exact ih h
      · rw [if_neg ha, ← hdrop b a next (Bool.eq_false_iff.mpr ha) hnext]
        exact ih h

/-- A fold may leave out elements whose steps do nothing. -/
theorem foldlM_filter {ε α β : Type} {f : β → α → Except ε β} {keep : α → Bool} {as : List α}
    (hdrop : ∀ a ∈ as, keep a = false → ∀ b, f b a = .ok b) (b : β) :
    (as.filter keep).foldlM f b = as.foldlM f b := by
  induction as generalizing b with
  | nil => rfl
  | cons a as ih =>
      rw [List.forall_mem_cons] at hdrop
      rw [List.filter_cons]
      by_cases ha : keep a = true
      · rw [if_pos ha, List.foldlM_cons, List.foldlM_cons]
        exact congrArg (f b a >>= ·) (funext fun next => ih hdrop.2 next)
      · rw [if_neg ha, List.foldlM_cons, hdrop.1 (Bool.eq_false_iff.mpr ha) b, ih hdrop.2]
        rfl

/-- In a fold that succeeds the step of every element succeeded. -/
theorem foldlM_step {ε α β : Type} {f : β → α → Except ε β} {as : List α} {b b' : β}
    (h : as.foldlM f b = .ok b') : ∀ a ∈ as, ∃ before after, f before a = .ok after := by
  induction as generalizing b with
  | nil => exact fun a ha => absurd ha List.not_mem_nil
  | cons a as ih =>
      rw [List.foldlM_cons, except_bind_eq_ok] at h
      rcases h with ⟨next, hnext, h⟩
      rw [List.forall_mem_cons]
      exact ⟨⟨b, next, hnext⟩, ih h⟩

/-- A traversal succeeds when it does at every element. -/
theorem mapM_eq_ok {ε α β : Type} {f : α → Except ε β} {as : List α} {bs : List β} :
    as.mapM f = .ok bs ↔ List.Forall₂ (fun a b => f a = .ok b) as bs := by
  induction as generalizing bs with
  | nil =>
      rw [List.mapM_nil, List.forall₂_nil_left_iff]
      constructor
      · intro h
        exact (Except.ok.inj h).symm
      · rintro rfl
        rfl
  | cons a as ih =>
      rw [List.mapM_cons, List.forall₂_cons_left_iff]
      constructor
      · intro h
        rcases except_bind_eq_ok.mp h with ⟨b, hb, h⟩
        rcases except_bind_eq_ok.mp h with ⟨rest, hrest, h⟩
        exact ⟨b, rest, hb, ih.mp hrest, (Except.ok.inj h).symm⟩
      · rintro ⟨b, rest, hb, hrest, rfl⟩
        rw [hb, ih.mpr hrest]
        rfl

end Netfyr
