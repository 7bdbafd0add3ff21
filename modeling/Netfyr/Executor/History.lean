import Netfyr.Executor.Bounds

/-!
# Histories of Runs

A run of a plan, cut into one round per operation. `RanOperation` is what a
round can be, `History` the rounds so far, and `RunHistory` ties a finished run
to its rounds: the trace is their calls in order and the report their outcomes.
Every claim about runs is a claim about histories.

The first invariant is what eligibility means. The vector the loop mutates holds,
for each operation done, whether its outcome lets dependents run, and `false` for
the others; so reading it is asking about an earlier outcome.

## Main definitions

* `Outcome.isEligible`: An outcome that lets dependents run.
* `RanOperation`: How a round of the loop can go.
* `History`: The rounds of a run so far.
* `RunHistory`: A finished run, as its rounds.

## Theorems

* `runOperation_cases`: Every round is one of `RanOperation`.
* `History.eligible_eq`: What the eligibility vector holds.
* `run_history`: Every run is a history of all operations.
* `run_safe`: No run reads an entry that is missing.
* `run_executes`: Every plan runs to the end.
-/

namespace Netfyr

open Interact

/-- Whether an outcome lets dependents run: success, or nothing to do. -/
def Outcome.isEligible : Outcome → Bool
  | .succeeded => true
  | .skipped .alreadySatisfied => true
  | .skipped .readOnly => true
  | .skipped (.dependencyFailed _) => false
  | .failed _ => false

/-- The outcome of a step. -/
def outcomeOf : Except BackendError (Option SkipReason) → Outcome
  | .error e => .failed e
  | .ok (some reason) => .skipped reason
  | .ok none => .succeeded

/-- The state after a step, its operation eligible when it did not fail. -/
def Execution.settle (self : Execution) (index : Nat) :
    Except BackendError (Option SkipReason) → Execution
  | .error _ => self
  | .ok _ => { self with eligible := self.eligible.set index true }

/-- The error of a malformed dependency. -/
def malformedError : BackendError :=
  .new .unsupportedOperation "dependencies must identify earlier operation indices"

/-- How a round of the loop can go: the calls, the outcome, the state. -/
inductive RanOperation (diff : StateDiff) (preview : Bool) (namespaceId : NamespaceId)
    (index : Nat) (op : Operation) (s : Execution) :
    List IoEvent → Outcome → Execution → Prop where
  | malformed : (∃ dependency ∈ op.dependsOn, index ≤ dependency) →
      RanOperation diff preview namespaceId index op s [] (.failed malformedError) s
  | blocked {blocked : List Nat} : (∀ dependency ∈ op.dependsOn, dependency < index) →
      blockedBy s.eligible op = some blocked → blocked ≠ [] →
      RanOperation diff preview namespaceId index op s []
        (.skipped (.dependencyFailed blocked)) s
  | stepped {tr : List IoEvent} {result : Except BackendError (Option SkipReason)}
      {s' : Execution} : (∀ dependency ∈ op.dependsOn, dependency < index) →
      blockedBy s.eligible op = some [] →
      (step diff preview namespaceId index op).Runs s tr result s' →
      RanOperation diff preview namespaceId index op s tr (outcomeOf result)
        (s'.settle index result)

variable {diff : StateDiff} {preview : Bool} {namespaceId : NamespaceId}

theorem dependsOn_any {index : Nat} {op : Operation} :
    (op.dependsOn.any fun dependency => index ≤ dependency) = true ↔
      ∃ dependency ∈ op.dependsOn, index ≤ dependency := by
  simp only [List.any_eq_true, decide_eq_true_eq]

/-- Dependencies that are not malformed are earlier. -/
theorem earlier_of_not_any {index : Nat} {op : Operation}
    (h : ¬ (op.dependsOn.any fun dependency => index ≤ dependency) = true) :
    ∀ dependency ∈ op.dependsOn, dependency < index := by
  intro dependency hmem
  by_contra hle
  exact h (dependsOn_any.mpr ⟨dependency, hmem, Nat.le_of_not_lt hle⟩)

/-- Earlier dependencies are looked up without a fault. -/
theorem blockedBy_isSome {eligible : List Bool} {index : Nat} {op : Operation}
    (hearlier : ∀ dependency ∈ op.dependsOn, dependency < index)
    (hle : index ≤ eligible.length) : (blockedBy eligible op).isSome = true := by
  refine Checked.filterChecked_isSome fun dependency hmem => ?_
  have hlt := hearlier dependency hmem
  rw [Option.isSome_map, List.getElem?_eq_getElem (by omega), Option.isSome_some]

/-- Every round of the loop is one of `RanOperation`. -/
theorem runOperation_cases {index : Nat} {op : Operation} {s s' : Execution} {tr : List IoEvent}
    {outcome : Outcome}
    (h : (runOperation diff preview namespaceId index op s).Runs tr (outcome, s')) :
    RanOperation diff preview namespaceId index op s tr outcome s' := by
  unfold runOperation at h
  by_cases hmal : (op.dependsOn.any fun dependency => index ≤ dependency) = true
  · rw [if_pos hmal] at h
    rcases h with ⟨rfl, heq⟩
    rw [Prod.mk.injEq] at heq
    rcases heq with ⟨rfl, rfl⟩
    exact .malformed (dependsOn_any.mp hmal)
  · rw [if_neg hmal] at h
    have hearlier := earlier_of_not_any hmal
    cases hblocked : blockedBy s.eligible op with
    | none =>
        simp only [hblocked] at h
        exact h.elim
    | some blocked =>
        simp only [hblocked] at h
        by_cases hnil : blocked = []
        · subst hnil
          rw [if_neg (not_not_intro rfl)] at h
          rcases Program.runs_bind.mp h with ⟨t₁, t₂, ⟨result, s₁⟩, rfl, hstep, hrest⟩
          cases result with
          | error e =>
              rcases hrest with ⟨rfl, heq⟩
              rw [Prod.mk.injEq] at heq
              rcases heq with ⟨rfl, rfl⟩
              rw [List.append_nil]
              exact .stepped hearlier hblocked hstep
          | ok skip =>
              simp only at hrest
              by_cases hlt : index < s₁.eligible.length
              · rw [if_pos hlt] at hrest
                cases skip with
                | none =>
                    rcases hrest with ⟨rfl, heq⟩
                    rw [Prod.mk.injEq] at heq
                    rcases heq with ⟨rfl, rfl⟩
                    rw [List.append_nil]
                    exact .stepped hearlier hblocked hstep
                | some reason =>
                    rcases hrest with ⟨rfl, heq⟩
                    rw [Prod.mk.injEq] at heq
                    rcases heq with ⟨rfl, rfl⟩
                    rw [List.append_nil]
                    exact .stepped hearlier hblocked hstep
              · rw [if_neg hlt] at hrest
                exact hrest.elim
        · rw [if_pos hnil] at h
          rcases h with ⟨rfl, heq⟩
          rw [Prod.mk.injEq] at heq
          rcases heq with ⟨rfl, rfl⟩
          exact .blocked hearlier hblocked hnil

/-- A step skips only what is satisfied or read-only. -/
theorem Stepped.skip_reason {index : Nat} {op : Operation} {s s' : Execution} {tr : List IoEvent}
    {reason : SkipReason}
    (h : Stepped diff preview namespaceId index op s tr (.ok (some reason)) s') :
    reason = .readOnly ∨ reason = .alreadySatisfied := by
  cases h with
  | skipped hd =>
      have hchecked := hd.checked
      unfold check at hchecked
      split at hchecked
      · exact absurd hchecked (by simp)
      · split at hchecked
        · exact absurd hchecked (by simp)
        · split at hchecked
          · simp only [Option.some.injEq, Prod.mk.injEq, Except.ok.injEq,
              Verdict.skip.injEq] at hchecked
            exact Or.inl hchecked.1.symm
          · split at hchecked
            · exact absurd hchecked (by simp)
            · split at hchecked
              · exact absurd hchecked (by simp)
              · simp only [Option.some.injEq, Prod.mk.injEq, Except.ok.injEq,
                  Verdict.skip.injEq] at hchecked
                exact Or.inr hchecked.1.symm
              · split at hchecked <;> exact absurd hchecked (by simp)

/-- One round of a run. -/
abbrev ExecRound : Type := Round IoCall IoAnswer Execution Outcome

/-- The rounds of a run so far, and the state they left. -/
abbrev History (diff : StateDiff) (preview : Bool) (namespaceId : NamespaceId)
    (h : List ExecRound) (s : Execution) : Prop :=
  Rounds (runOperation diff preview namespaceId) diff.operations (.start diff) h s

/-- Round `i` of a history: its operation, and how it went. -/
structure RoundAt (diff : StateDiff) (preview : Bool) (namespaceId : NamespaceId)
    (h : List ExecRound) (i : Nat) (op : Operation) (r : ExecRound) : Prop where
  operation : diff.operations[i]? = some op
  round : h[i]? = some r
  history : History diff preview namespaceId (h.take i) r.before
  ran : RanOperation diff preview namespaceId i op r.before r.calls r.outcome r.after

/-- Every round of a history is one of `RanOperation`. -/
theorem History.roundAt {h : List ExecRound} {s : Execution}
    (hr : History diff preview namespaceId h s) {i : Nat} {r : ExecRound} (hi : h[i]? = some r) :
    ∃ op, RoundAt diff preview namespaceId h i op r := by
  rcases Rounds.nth hr hi with ⟨op, hop, htake, hrun⟩
  exact ⟨op, hop, hi, htake, runOperation_cases hrun⟩

/-- The eligibility vector holds what each operation's outcome says, and nothing
    of the operations to come. -/
theorem History.eligible_eq {h : List ExecRound} {s : Execution}
    (hr : History diff preview namespaceId h s) :
    s.eligible = (h.map fun r => r.outcome.isEligible) ++
      List.replicate (diff.operations.length - h.length) false := by
  induction hr with
  | start => rfl
  | @round h s s' op tr outcome hr hop hrun ih =>
      have hlt : h.length < diff.operations.length :=
        (List.getElem?_eq_some_iff.mp hop).choose
      have hsplit : diff.operations.length - h.length =
          diff.operations.length - (h.length + 1) + 1 := by omega
      -- The entry of this operation is the first of those still false.
      rw [hsplit, List.replicate_succ] at ih
      have hdone : ∀ b, ((h.map fun r => r.outcome.isEligible) ++
          false :: List.replicate (diff.operations.length - (h.length + 1)) false).set h.length b =
          ((h.map fun r => r.outcome.isEligible) ++ [b]) ++
            List.replicate (diff.operations.length - (h.length + 1)) false := by
        intro b
        rw [List.set_append_right _ _ (by rw [List.length_map]), List.length_map, Nat.sub_self,
          List.set_cons_zero, List.append_assoc, List.singleton_append]
      have hkeep : (h.map fun r => r.outcome.isEligible) ++
          false :: List.replicate (diff.operations.length - (h.length + 1)) false =
          ((h.map fun r => r.outcome.isEligible) ++ [false]) ++
            List.replicate (diff.operations.length - (h.length + 1)) false := by
        rw [List.append_assoc, List.singleton_append]
      rw [List.map_append, List.map_singleton, List.length_append, List.length_singleton]
      have hcases := runOperation_cases hrun
      cases hcases with
      | malformed _ => rw [ih, hkeep]; rfl
      | blocked _ _ _ => rw [ih, hkeep]; rfl
      | @stepped _ result s₁ _ _ hstep =>
          have hstepped := step_cases hstep
          have hsame := hstepped.eligible
          cases result with
          | error e => rw [Execution.settle, hsame, ih, hkeep]; rfl
          | ok skip =>
              cases skip with
              | none => rw [Execution.settle, hsame, ih, hdone]; rfl
              | some reason =>
                  rw [Execution.settle, hsame, ih, hdone]
                  rcases hstepped.skip_reason with rfl | rfl <;> rfl

theorem History.eligible_length {h : List ExecRound} {s : Execution}
    (hr : History diff preview namespaceId h s) :
    s.eligible.length = diff.operations.length := by
  have hle := Rounds.length_le hr
  rw [hr.eligible_eq, List.length_append, List.length_map, List.length_replicate]
  omega

/-- An earlier operation's entry is what its outcome says. -/
theorem History.eligible_getElem {h : List ExecRound} {s : Execution}
    (hr : History diff preview namespaceId h s) {i : Nat} {r : ExecRound} (hi : h[i]? = some r) :
    s.eligible[i]? = some r.outcome.isEligible := by
  have hlt : i < h.length := (List.getElem?_eq_some_iff.mp hi).choose
  rw [hr.eligible_eq, List.getElem?_append_left (by rw [List.length_map]; exact hlt),
    List.getElem?_map, hi, Option.map_some]

/-- A finished run, as its rounds: the trace is their calls, the report their
    outcomes. -/
structure RunHistory (diff : StateDiff) (preview : Bool) (namespaceId : NamespaceId)
    (tr : List IoEvent) (report : ApplyReport) (h : List ExecRound) : Prop where
  history : ∃ s, History diff preview namespaceId h s ∧
    report = reportRun diff (h.map Round.outcome) s
  complete : h.length = diff.operations.length
  trace : tr = callsOf h

/-- Every run is a history of all operations. -/
theorem run_history {tr : List IoEvent} {report : ApplyReport}
    (hrun : (run diff preview namespaceId).Runs tr report) :
    ∃ h, RunHistory diff preview namespaceId tr report h := by
  unfold run at hrun
  rcases Program.runs_bind.mp hrun with ⟨t₁, t₂, ⟨outcomes, s⟩, rfl, hloop, hrest⟩
  rcases hrest with ⟨rfl, rfl⟩
  rcases loop_runs_rounds hloop with ⟨h, hr, rfl, rfl, hlen⟩
  exact ⟨h, ⟨s, hr, rfl⟩, hlen, List.append_nil _⟩

/-- No run reads an entry that is missing. -/
theorem run_safe (diff : StateDiff) (preview : Bool) (namespaceId : NamespaceId) :
    (run diff preview namespaceId).Safe := by
  refine Program.safe_bind (loop_safe fun h s op hr hop => ?_) fun _ _ _ => trivial
  have hindex : h.length < diff.operations.length := (List.getElem?_eq_some_iff.mp hop).choose
  have hlen := History.eligible_length hr
  unfold runOperation
  split
  · trivial
  · next hmal =>
      have hblocked : (blockedBy s.eligible op).isSome = true :=
        blockedBy_isSome (earlier_of_not_any hmal) (by omega)
      rcases Option.isSome_iff_exists.mp hblocked with ⟨blocked, hsome⟩
      simp only [hsome]
      split
      · trivial
      · refine Program.safe_bind (step_safe hindex hlen) fun tr out hrun => ?_
        rcases out with ⟨_ | skip, s'⟩
        · trivial
        · have hsame := (step_cases hrun).eligible
          simp only
          rw [if_pos (by rw [hsame, hlen]; exact hindex)]
          cases skip <;> trivial

/-- Every plan runs to the end on every transport that answers each call. -/
theorem run_executes {S : Type} (diff : StateDiff) (preview : Bool) (namespaceId : NamespaceId)
    (transport : Handler S IoCall IoAnswer) (state : S) :
    ∃ report final tr,
      (run diff preview namespaceId).exec transport state = some (report, final, tr) ∧
      (run diff preview namespaceId).Runs tr report ∧
      Admits transport.environment state tr final := by
  have hsafe := run_safe diff preview namespaceId
  rcases Program.exec_isSome transport hsafe state with ⟨report, final, tr, hx⟩
  exact ⟨report, final, tr, hx, Program.exec_runs hx⟩

end Netfyr
