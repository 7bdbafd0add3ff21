import Mathlib.Data.List.Basic

/-!
# Programs That Make Calls

A program here is a tree: it ends in a value, ends in a fault, or makes a call
`e` and continues with whatever the outside world answers. Nothing says what a
call does. That is the point: a theorem about every run of a program quantifies
over every answer sequence, so an adversarial environment needs no model of its
own.

`Runs` is the semantics used everywhere. `p.Runs tr a` says that, answered as
`tr` records, the program makes exactly those calls in that order and ends in
`a`. A fault has no run, so a fact proved of all runs says nothing about
faulting; `Safe` is the separate statement that no answers lead to one.

An `Environment` is a transition relation that restricts the answers. A trace
is admitted from one state to another when each of its events is a transition,
and `admits_append` cuts an admitted trace wherever a run is cut. A `Handler`
is the deterministic case, and can be executed: `exec_runs` turns an execution
into a run together with the admitted trace it followed.

## Main definitions

* `Program`: A tree of calls ending in a value or a fault.
* `Event`: A call with its answer.
* `Program.Runs`: The runs of a program, by trace and result.
* `Program.Safe`: No sequence of answers reaches a fault.
* `Environment`: A relation restricting how calls are answered.
* `Admits`: The traces an environment allows between two states.
* `Handler`: A function answering every call.
* `Program.resolve`: Answering some calls in advance.
* `Program.exec`: Executing a program against a handler.

## Theorems

* `runs_bind`: A run of a sequence is a run of each part.
* `runs_cut`: A trace determines where a run ends, and its result.
* `admits_append`: Admitted traces compose and split.
* `admits_mono`: A trace is admitted by every environment that allows as much.
* `exec_runs`: An execution is a run along an admitted trace.
* `exec_resolve`: Calls answered as the handler would can be answered in advance.
* `exec_isSome`: A safe program executes to the end.
-/

namespace Netfyr

namespace Interact

/-- A program over calls `E`, a call `e` being answered in `R e`. -/
inductive Program (E : Type) (R : E → Type) (α : Type) where
  | done (a : α)
  | fault
  | call (e : E) (k : R e → Program E R α)

/-- A call together with the answer it got. -/
abbrev Event (E : Type) (R : E → Type) : Type := Σ e : E, R e

variable {E : Type} {R : E → Type} {α β S : Type}

namespace Program

/-- Sequencing: a fault of the first part is a fault of the whole. -/
def bind : Program E R α → (α → Program E R β) → Program E R β
  | .done a, f => f a
  | .fault, _ => .fault
  | .call e k, f => .call e fun r => (k r).bind f

instance : Monad (Program E R) where
  pure := .done
  bind := .bind

/-- The program that makes one call and returns its answer. -/
def perform (e : E) : Program E R (R e) :=
  .call e .done

/-- `p.Runs tr a`: answered as in `tr`, the program makes exactly the calls of
    `tr` and ends in `a`. -/
def Runs : Program E R α → List (Event E R) → α → Prop
  | .done a, tr, b => tr = [] ∧ b = a
  | .fault, _, _ => False
  | .call e k, tr, b => ∃ r rest, tr = ⟨e, r⟩ :: rest ∧ (k r).Runs rest b

/-- No sequence of answers makes the program fault. -/
def Safe : Program E R α → Prop
  | .done _ => True
  | .fault => False
  | .call _ k => ∀ r, (k r).Safe

@[simp] theorem pure_eq_done (a : α) : (pure a : Program E R α) = .done a := rfl

@[simp] theorem bind_eq_bind (p : Program E R α) (f : α → Program E R β) :
    (p >>= f) = p.bind f := rfl

@[simp] theorem runs_done {a b : α} {tr : List (Event E R)} :
    (Program.done a : Program E R α).Runs tr b ↔ tr = [] ∧ b = a := Iff.rfl

@[simp] theorem runs_fault {b : α} {tr : List (Event E R)} :
    ¬ (Program.fault : Program E R α).Runs tr b := fun h => h

@[simp] theorem runs_perform {e : E} {r : R e} {tr : List (Event E R)} :
    (perform e : Program E R (R e)).Runs tr r ↔ tr = [⟨e, r⟩] := by
  constructor
  · rintro ⟨r', rest, rfl, rfl, rfl⟩
    rfl
  · rintro rfl
    exact ⟨r, [], rfl, rfl, rfl⟩

/-- A run of a sequence splits into a run of the first part and a run of what
    follows it, and two such runs make one. -/
theorem runs_bind {p : Program E R α} {f : α → Program E R β} {tr : List (Event E R)} {b : β} :
    (p.bind f).Runs tr b ↔ ∃ t₁ t₂ a, tr = t₁ ++ t₂ ∧ p.Runs t₁ a ∧ (f a).Runs t₂ b := by
  induction p generalizing tr with
  | done a =>
      constructor
      · intro h
        exact ⟨[], tr, a, rfl, ⟨rfl, rfl⟩, h⟩
      · rintro ⟨t₁, t₂, a', rfl, ⟨rfl, rfl⟩, h⟩
        exact h
  | fault =>
      constructor
      · intro h
        exact h.elim
      · rintro ⟨_, _, _, _, h, _⟩
        exact h.elim
  | call e k ih =>
      constructor
      · rintro ⟨r, rest, rfl, h⟩
        rcases (ih r).mp h with ⟨t₁, t₂, a, rfl, h₁, h₂⟩
        exact ⟨⟨e, r⟩ :: t₁, t₂, a, rfl, ⟨r, t₁, rfl, h₁⟩, h₂⟩
      · rintro ⟨t₁, t₂, a, rfl, ⟨r, rest, rfl, h₁⟩, h₂⟩
        exact ⟨r, rest ++ t₂, rfl, (ih r).mpr ⟨rest, t₂, a, rfl, h₁, h₂⟩⟩

/-- A call made first is the first event of every run. -/
theorem runs_perform_bind {e : E} {f : R e → Program E R β} {tr : List (Event E R)} {b : β} :
    ((perform e).bind f).Runs tr b ↔ ∃ r rest, tr = ⟨e, r⟩ :: rest ∧ (f r).Runs rest b :=
  Iff.rfl

/-- A program has no choices of its own: it runs through one part of a trace, to
    one result, and what follows is the rest. -/
theorem runs_cut {p : Program E R α} {t₁ t₂ u₁ u₂ : List (Event E R)} {a b : α}
    (ha : p.Runs t₁ a) (hb : p.Runs t₂ b) (heq : t₁ ++ u₁ = t₂ ++ u₂) :
    t₁ = t₂ ∧ u₁ = u₂ ∧ a = b := by
  induction p generalizing t₁ t₂ with
  | done c =>
      rcases ha with ⟨rfl, rfl⟩
      rcases hb with ⟨rfl, rfl⟩
      exact ⟨rfl, heq, rfl⟩
  | fault => exact ha.elim
  | call e k ih =>
      rcases ha with ⟨r, rest, rfl, ha⟩
      rcases hb with ⟨r', rest', rfl, hb⟩
      rcases List.cons_eq_cons.mp heq with ⟨hevent, hrest⟩
      -- The trace fixes the answer to the call, and with it what comes next.
      obtain rfl : r = r' := by simpa only [Sigma.mk.injEq, heq_eq_eq, true_and] using hevent
      rcases ih r ha hb hrest with ⟨rfl, hafter, hresult⟩
      exact ⟨rfl, hafter, hresult⟩

theorem safe_bind {p : Program E R α} {f : α → Program E R β} (hp : p.Safe)
    (hf : ∀ tr a, p.Runs tr a → (f a).Safe) : (p.bind f).Safe := by
  induction p with
  | done a => exact hf [] a ⟨rfl, rfl⟩
  | fault => exact hp
  | call e k ih =>
      intro r
      exact ih r (hp r) (fun tr a h => hf (⟨e, r⟩ :: tr) a ⟨r, tr, rfl, h⟩)

/-- Answer some calls in advance, leaving the others to be made. -/
def resolve (f : (e : E) → Option (R e)) : Program E R α → Program E R α
  | .done a => .done a
  | .fault => .fault
  | .call e k =>
      match f e with
      | some r => (k r).resolve f
      | none => .call e fun r => (k r).resolve f

end Program

/-- An environment: in state `s`, call `e` may be answered `r`, leaving `s'`. -/
abbrev Environment (S E : Type) (R : E → Type) : Type := S → (e : E) → R e → S → Prop

/-- The traces an environment allows from one state to another. -/
def Admits (env : Environment S E R) : S → List (Event E R) → S → Prop
  | s, [], t => t = s
  | s, ev :: tr, t => ∃ s', env s ev.1 ev.2 s' ∧ Admits env s' tr t

@[simp] theorem admits_nil {env : Environment S E R} {s t : S} :
    Admits env s [] t ↔ t = s := Iff.rfl

@[simp] theorem admits_cons {env : Environment S E R} {s t : S} {ev : Event E R}
    {tr : List (Event E R)} :
    Admits env s (ev :: tr) t ↔ ∃ s', env s ev.1 ev.2 s' ∧ Admits env s' tr t := Iff.rfl

/-- An admitted trace passes through a state at every cut. -/
theorem admits_append {env : Environment S E R} {tr₁ tr₂ : List (Event E R)} {s t : S} :
    Admits env s (tr₁ ++ tr₂) t ↔ ∃ u, Admits env s tr₁ u ∧ Admits env u tr₂ t := by
  induction tr₁ generalizing s with
  | nil => simp only [List.nil_append, admits_nil, exists_eq_left]
  | cons ev tr ih =>
      simp only [List.cons_append, admits_cons, ih]
      constructor
      · rintro ⟨s', h, u, h₁, h₂⟩
        exact ⟨u, ⟨s', h, h₁⟩, h₂⟩
      · rintro ⟨u, ⟨s', h, h₁⟩, h₂⟩
        exact ⟨s', h, u, h₁, h₂⟩

/-- A trace is admitted by every environment that allows the same transitions
    from the states it can reach. -/
theorem admits_mono {env env' : Environment S E R} {P : S → Prop}
    (henv : ∀ s e r s', P s → env s e r s' → env' s e r s' ∧ P s') {tr : List (Event E R)}
    {s t : S} (hs : P s) (hadmits : Admits env s tr t) : Admits env' s tr t ∧ P t := by
  induction tr generalizing s with
  | nil =>
      obtain rfl : t = s := hadmits
      exact ⟨rfl, hs⟩
  | cons ev tr ih =>
      rcases hadmits with ⟨s', hstep, hrest⟩
      rcases henv s ev.1 ev.2 s' hs hstep with ⟨hstep', hs'⟩
      rcases ih hs' hrest with ⟨hrest', ht⟩
      exact ⟨⟨s', hstep', hrest'⟩, ht⟩

/-- A function answering every call. -/
abbrev Handler (S E : Type) (R : E → Type) : Type := S → (e : E) → R e × S

/-- A handler, as the environment that answers only as it does. -/
def Handler.environment (h : Handler S E R) : Environment S E R :=
  fun s e r s' => h s e = (r, s')

namespace Program

/-- Execute a program against a handler, keeping the trace; `none` is a fault. -/
def exec (h : Handler S E R) : Program E R α → S → Option (α × S × List (Event E R))
  | .done a, s => some (a, s, [])
  | .fault, _ => none
  | .call e k, s =>
      match (k (h s e).1).exec h (h s e).2 with
      | none => none
      | some (a, t, tr) => some (a, t, ⟨e, (h s e).1⟩ :: tr)

/-- An execution is a run, along a trace the handler's environment admits. -/
theorem exec_runs {h : Handler S E R} {p : Program E R α} {s t : S} {a : α}
    {tr : List (Event E R)} (hx : p.exec h s = some (a, t, tr)) :
    p.Runs tr a ∧ Admits h.environment s tr t := by
  induction p generalizing s tr with
  | done b =>
      simp only [exec, Option.some.injEq, Prod.mk.injEq] at hx
      rcases hx with ⟨rfl, rfl, rfl⟩
      exact ⟨⟨rfl, rfl⟩, rfl⟩
  | fault => simp only [exec, reduceCtorEq] at hx
  | call e k ih =>
      simp only [exec] at hx
      cases hk : (k (h s e).1).exec h (h s e).2 with
      | none => simp only [hk, reduceCtorEq] at hx
      | some out =>
          rcases out with ⟨b, u, rest⟩
          simp only [hk, Option.some.injEq, Prod.mk.injEq] at hx
          rcases hx with ⟨rfl, rfl, rfl⟩
          rcases ih _ hk with ⟨hrun, hadm⟩
          exact ⟨⟨_, rest, rfl, hrun⟩, (h s e).2, rfl, hadm⟩

/-- A value computed from a result at the end. -/
theorem exec_map {h : Handler S E R} (p : Program E R α) (g : α → β) (s : S) :
    (p.bind fun a => .done (g a)).exec h s =
      (p.exec h s).map fun out => (g out.1, out.2) := by
  induction p generalizing s with
  | done a => rfl
  | fault => rfl
  | call e k ih =>
      simp only [bind, exec, ih]
      rcases (k (h s e).1).exec h (h s e).2 with _ | out <;> rfl

/-- Answering calls in advance as the handler answers them changes nothing but
    the trace. -/
theorem exec_resolve {h : Handler S E R} {f : (e : E) → Option (R e)}
    (hf : ∀ e r, f e = some r → ∀ s, h s e = (r, s)) (p : Program E R α) (s : S) :
    ((p.resolve f).exec h s).map (fun out => (out.1, out.2.1)) =
      (p.exec h s).map fun out => (out.1, out.2.1) := by
  induction p generalizing s with
  | done a => rfl
  | fault => rfl
  | call e k ih =>
      rcases hfe : f e with _ | r
      · -- A call left to be made is answered by the handler on both sides.
        have hk := ih (h s e).1 (h s e).2
        simp only [resolve, hfe, exec]
        revert hk
        rcases ((k (h s e).1).resolve f).exec h (h s e).2 with _ | out <;>
          rcases (k (h s e).1).exec h (h s e).2 with _ | out' <;>
          simp only [Option.map_none, Option.map_some, reduceCtorEq, imp_self, Option.some.injEq]
      · -- A call answered in advance changes nothing in the handler's state.
        have hans := hf e r hfe s
        simp only [resolve, hfe, exec, hans, ih r s]
        rcases (k r).exec h s with _ | out <;> rfl

/-- A program that cannot fault executes to the end. -/
theorem exec_isSome {p : Program E R α} (h : Handler S E R) (hp : p.Safe) (s : S) :
    ∃ a t tr, p.exec h s = some (a, t, tr) := by
  induction p generalizing s with
  | done a => exact ⟨a, s, [], rfl⟩
  | fault => exact hp.elim
  | call e k ih =>
      rcases ih (h s e).1 (hp _) (h s e).2 with ⟨a, t, tr, hx⟩
      exact ⟨a, t, ⟨e, (h s e).1⟩ :: tr, by simp only [exec, hx]⟩

end Program

end Interact

end Netfyr
