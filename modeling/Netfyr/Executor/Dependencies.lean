import Mathlib.Logic.Relation
import Netfyr.Executor.Ideal
import Netfyr.Executor.Reported

/-!
# Dependencies

The executor decides what may run in one forward pass: an operation is looked at
once, against the eligibility of its direct dependencies. What this buys is a
statement about the whole dependency closure, because an operation that is
eligible was stepped, so its own dependencies were eligible before it. Neither
the plan nor its indices are assumed well formed.

## Main definitions

* `DependsOn`: One operation of a plan depends on another.
* `Gated`: How an operation fares, by its direct dependencies.

## Theorems

* `RunHistory.gated`: Every operation is gated by its direct dependencies.
* `RunHistory.closure_eligible`: What was stepped to the end has an eligible
  closure.
* `RunHistory.closure_failed`: What was skipped has a failure in its closure.
* `run_dependencies`: All of this, of every run.
-/

namespace Netfyr

open Interact Relation

/-- Operation `i` of a plan depends on index `j`. -/
def DependsOn (diff : StateDiff) (i j : Nat) : Prop :=
  ∃ op, diff.operations[i]? = some op ∧ j ∈ op.dependsOn

/-- How operation `i` fares by its direct dependencies: the calls of its round,
    and what is reported of it. -/
structure Gated (diff : StateDiff) (preview : Bool) (namespaceId : NamespaceId)
    (report : ApplyReport) (i : Nat) (op : Operation) (r : ExecRound) : Prop where
  malformed : (∃ dependency ∈ op.dependsOn, i ≤ dependency) →
    r.calls = [] ∧ report.ReportsAt diff i (.failed malformedError)
  blocked : (∀ dependency ∈ op.dependsOn, dependency < i) →
    (∃ dependency ∈ op.dependsOn, report.eligible dependency = false) →
    r.calls = [] ∧ report.ReportsAt diff i (.skipped (.dependencyFailed
      (op.dependsOn.filter fun dependency => !report.eligible dependency)))
  stepped : (∀ dependency ∈ op.dependsOn, dependency < i ∧ report.eligible dependency = true) →
    ∃ result after, (step diff preview namespaceId i op).Runs r.before r.calls result after ∧
      report.ReportsAt diff i (outcomeOf result)

variable {diff : StateDiff} {preview : Bool} {namespaceId : NamespaceId} {tr : List IoEvent}
  {report : ApplyReport} {h : List ExecRound}

namespace RunHistory

/-- The dependencies that block an operation are those reported not eligible. -/
theorem blockedBy_eq (hr : RunHistory diff preview namespaceId tr report h) {i : Nat}
    {op : Operation} {r : ExecRound} (hat : RoundAt diff preview namespaceId h i op r)
    (hearlier : ∀ dependency ∈ op.dependsOn, dependency < i) :
    blockedBy r.before.eligible op =
      some (op.dependsOn.filter fun dependency => !report.eligible dependency) := by
  unfold blockedBy
  refine Checked.filterChecked_eq_some fun dependency hmem => ?_
  have hlt := hearlier dependency hmem
  have hi : i < diff.operations.length := (List.getElem?_eq_some_iff.mp hat.operation).choose
  have hop : diff.operations[dependency]? = some diff.operations[dependency] :=
    List.getElem?_eq_getElem (by omega)
  rcases hr.roundAt hop with ⟨r', hat'⟩
  have hround : (h.take i)[dependency]? = some r' := by
    rw [List.getElem?_take_of_lt hlt, hat'.round]
  rw [hat.history.eligible_getElem hround, hr.eligible_eq hat', Option.map_some]

/-- Every operation is gated by its direct dependencies. -/
theorem gated (hr : RunHistory diff preview namespaceId tr report h) {i : Nat} {op : Operation}
    {r : ExecRound} (hat : RoundAt diff preview namespaceId h i op r) :
    Gated diff preview namespaceId report i op r := by
  have hrep : report.ReportsAt diff i r.outcome := (hr.reportsAt_iff hat).mpr rfl
  have hran := hat.ran
  rcases r with ⟨before, calls, outcome, after⟩
  -- Each clause assumes one kind of round, and the other two contradict it.
  cases hran with
  | malformed hmal =>
      rcases hmal with ⟨d, hmem, hle⟩
      refine ⟨fun _ => ⟨rfl, hrep⟩, fun hearlier _ => ?_, fun hready => ?_⟩
      · have hlt := hearlier d hmem
        omega
      · have hlt := (hready d hmem).1
        omega
  | @blocked blocked hearlier hblocked hne =>
      have heq := Option.some.inj ((hr.blockedBy_eq hat hearlier).symm.trans hblocked)
      refine ⟨fun hmal => ?_, fun _ _ => ⟨rfl, by rw [heq]; exact hrep⟩, fun hready => ?_⟩
      · rcases hmal with ⟨d, hmem, hle⟩
        have hlt := hearlier d hmem
        omega
      · have hnil : blocked = [] := by
          rw [← heq, List.filter_eq_nil_iff]
          intro d hmem
          rw [(hready d hmem).2]
          exact Bool.false_ne_true
        exact absurd hnil hne
  | stepped hearlier hblocked hstep =>
      have hnil := Option.some.inj ((hr.blockedBy_eq hat hearlier).symm.trans hblocked)
      refine ⟨fun hmal => ?_, fun _ hinel => ?_, fun _ => ⟨_, _, hstep, hrep⟩⟩
      · rcases hmal with ⟨d, hmem, hle⟩
        have hlt := hearlier d hmem
        omega
      · rcases hinel with ⟨d, hmem, helig⟩
        have hnot := List.filter_eq_nil_iff.mp hnil d hmem
        rw [helig] at hnot
        exact absurd rfl hnot

/-- A round that makes a call, or whose operation ends up eligible, stepped it,
    so its direct dependencies are earlier and eligible. -/
theorem ready (hr : RunHistory diff preview namespaceId tr report h) {i : Nat} {op : Operation}
    {r : ExecRound} (hat : RoundAt diff preview namespaceId h i op r)
    (hdone : r.calls ≠ [] ∨ report.eligible i = true) :
    ∀ dependency ∈ op.dependsOn, dependency < i ∧ report.eligible dependency = true := by
  have hgated := hr.gated hat
  -- A round without calls ends up eligible only by its outcome.
  have hidle : ∀ outcome, r.calls = [] ∧ report.ReportsAt diff i outcome →
      outcome.isEligible = true := by
    rintro outcome ⟨hnil, hrep⟩
    rcases hdone with hcalls | helig
    · exact absurd hnil hcalls
    · rw [hr.eligible_eq hat, (hr.reportsAt_iff hat).mp hrep] at helig
      exact helig
  by_cases hmal : ∃ dependency ∈ op.dependsOn, i ≤ dependency
  · exact absurd (hidle _ (hgated.malformed hmal)) Bool.false_ne_true
  have hearlier : ∀ dependency ∈ op.dependsOn, dependency < i := by
    intro d hmem
    have hnot : ¬ i ≤ d := fun hle => hmal ⟨d, hmem, hle⟩
    omega
  by_cases hblocked : ∃ dependency ∈ op.dependsOn, report.eligible dependency = false
  · exact absurd (hidle _ (hgated.blocked hearlier hblocked)) Bool.false_ne_true
  · intro d hmem
    refine ⟨hearlier d hmem, ?_⟩
    rw [← Bool.not_eq_false]
    exact fun helig => hblocked ⟨d, hmem, helig⟩

/-- The whole dependency closure of such an operation is earlier and eligible. -/
theorem closure_eligible (hr : RunHistory diff preview namespaceId tr report h) {i : Nat}
    {op : Operation} {r : ExecRound} (hat : RoundAt diff preview namespaceId h i op r)
    (hdone : r.calls ≠ [] ∨ report.eligible i = true) {j : Nat}
    (hdep : TransGen (DependsOn diff) i j) : j < i ∧ report.eligible j = true := by
  induction hdep with
  | single hstep =>
      rcases hstep with ⟨op', hop, hmem⟩
      obtain rfl := Option.some.inj (hat.operation.symm.trans hop)
      exact hr.ready hat hdone _ hmem
  | @tail k j hdep hstep ih =>
      -- `k` is eligible, so it was stepped and the same holds of it.
      rcases hstep with ⟨op', hop, hmem⟩
      rcases hr.roundAt hop with ⟨r', hat'⟩
      have hnext := hr.ready hat' (Or.inr ih.2) _ hmem
      exact ⟨Nat.lt_trans hnext.1 ih.1, hnext.2⟩

/-- An operation skipped for its dependencies has a failed one in its closure. -/
theorem closure_failed (hr : RunHistory diff preview namespaceId tr report h) {i : Nat}
    {blocked : List Nat} (hskip : report.ReportsAt diff i (.skipped (.dependencyFailed blocked))) :
    ∃ j e, TransGen (DependsOn diff) i j ∧ j < i ∧ report.ReportsAt diff j (.failed e) := by
  induction i using Nat.strong_induction_on generalizing blocked with
  | _ i ih =>
      have hentry := hskip
      rcases hentry with ⟨op, hop, _⟩
      rcases hr.roundAt hop with ⟨r, hat⟩
      have hran := hat.ran
      rw [(hr.reportsAt_iff hat).mp hskip] at hran
      -- Some direct dependency is earlier and not eligible.
      have hdep : ∃ d ∈ op.dependsOn, d < i ∧ report.eligible d = false := by
        generalize hout : Outcome.skipped (.dependencyFailed blocked) = outcome at hran
        generalize hcalls : r.calls = calls at hran
        generalize hafter : r.after = after at hran
        cases hran with
        | malformed _ => exact absurd hout (by simp only [reduceCtorEq, not_false_eq_true])
        | @blocked found hearlier hblocked hne =>
            have heq := Option.some.inj ((hr.blockedBy_eq hat hearlier).symm.trans hblocked)
            rcases List.exists_mem_of_ne_nil found hne with ⟨d, hmem⟩
            rw [← heq, List.mem_filter, Bool.not_eq_true'] at hmem
            exact ⟨d, hmem.1, hearlier d hmem.1, hmem.2⟩
        | @stepped _ result _ _ _ hstep =>
            rcases result with e | _ | reason
            · exact absurd hout (by simp only [outcomeOf, reduceCtorEq, not_false_eq_true])
            · exact absurd hout (by simp only [outcomeOf, reduceCtorEq, not_false_eq_true])
            · obtain rfl := Outcome.skipped.inj hout
              rcases (step_cases hstep).skip_reason with habs | habs <;>
                exact absurd habs (by simp only [reduceCtorEq, not_false_eq_true])
      rcases hdep with ⟨d, hmem, hlt, helig⟩
      have hedge : DependsOn diff i d := ⟨op, hop, hmem⟩
      have hlen : i < diff.operations.length := (List.getElem?_eq_some_iff.mp hop).choose
      rcases hr.roundAt (List.getElem?_eq_getElem (Nat.lt_trans hlt hlen)) with ⟨r', hat'⟩
      rw [hr.eligible_eq hat'] at helig
      have hrep : report.ReportsAt diff d r'.outcome := (hr.reportsAt_iff hat').mpr rfl
      generalize r'.outcome = outcome at helig hrep
      match outcome, helig with
      | .failed e, _ => exact ⟨d, e, .single hedge, hlt, hrep⟩
      | .skipped (.dependencyFailed _), _ =>
          rcases ih d hlt hrep with ⟨j, e, hclosure, hj, hfailed⟩
          exact ⟨j, e, .head hedge hclosure, Nat.lt_trans hj hlt, hfailed⟩

end RunHistory

/-- Dependency gating, of every run of every plan. No run faults. Each operation
    is gated by its direct dependencies; one that was executed or counts as
    satisfied has its whole closure earlier and eligible, and one skipped for its
    dependencies has a failed operation in its closure. -/
theorem run_dependencies (diff : StateDiff) (preview : Bool) (namespaceId : NamespaceId) :
    (run diff preview namespaceId).Safe ∧
      ∀ tr report, (run diff preview namespaceId).Runs tr report →
        ∃ h, RunHistory diff preview namespaceId tr report h ∧
          ∀ i op, diff.operations[i]? = some op →
            ∃ r, RoundAt diff preview namespaceId h i op r ∧
            Gated diff preview namespaceId report i op r ∧
            ((∃ target kind answer, ⟨.execute target kind, answer⟩ ∈ r.calls) ∨
                report.eligible i = true →
              ∀ j, TransGen (DependsOn diff) i j → j < i ∧ report.eligible j = true) ∧
            (∀ blocked, report.ReportsAt diff i (.skipped (.dependencyFailed blocked)) →
              ∃ j e, TransGen (DependsOn diff) i j ∧ j < i ∧
                report.ReportsAt diff j (.failed e)) := by
  refine ⟨run_safe diff preview namespaceId, fun tr report hrun => ?_⟩
  rcases run_history hrun with ⟨h, hr⟩
  refine ⟨h, hr, fun i op hop => ?_⟩
  rcases hr.roundAt hop with ⟨r, hat⟩
  refine ⟨r, hat, hr.gated hat, fun hdone j hdep => ?_, fun blocked hskip => ?_⟩
  · refine hr.closure_eligible hat (hdone.imp_left ?_) hdep
    rintro ⟨target, kind, answer, hmem⟩
    exact List.ne_nil_of_mem hmem
  · exact hr.closure_failed hskip

/-- Three MTU changes: the first depends on itself, the second twice on the
    first, the third on nothing. -/
def entangledPlan : StateDiff :=
  { changes := []
    operations := [
      { target := eth0, kind := .setMtu 1500, dependsOn := [0], addressGroup := none },
      { target := eth0, kind := .setMtu 1400, dependsOn := [0, 0], addressGroup := none },
      { target := eth0, kind := .setMtu 1300, dependsOn := [], addressGroup := none }]
    diagnostics := [] }

/-- On a transport without devices the third operation is stepped and fails; the
    second is skipped for the first without being looked at. -/
theorem run_dependencies_entangled : ∃ tr report,
    (run entangledPlan false eth0.namespaceId).Runs tr report ∧
      report.ReportsAt entangledPlan 0 (.failed malformedError) ∧
      report.ReportsAt entangledPlan 1 (.skipped (.dependencyFailed [0, 0])) := by
  rcases run_executes entangledPlan false eth0.namespaceId (idealTransport 0)
      ⟨[], []⟩ with
    ⟨report, _, tr, _, hrun, _⟩
  rcases (run_dependencies entangledPlan false eth0.namespaceId).2 tr report hrun with
    ⟨h, hr, hall⟩
  rcases hall 0 _ rfl with ⟨r₀, hat₀, hgated₀, _⟩
  rcases hall 1 _ rfl with ⟨r₁, _, hgated₁, _⟩
  have hfailed := (hgated₀.malformed ⟨0, by decide, by decide⟩).2
  have hinel : report.eligible 0 = false := by
    rw [hr.eligible_eq hat₀, (hr.reportsAt_iff hat₀).mp hfailed]
    rfl
  have hskipped := (hgated₁.blocked (by decide) ⟨0, by decide, hinel⟩).2
  simp only [List.filter_cons, hinel, Bool.not_false, if_true, List.filter_nil] at hskipped
  exact ⟨tr, report, hrun, hfailed, hskipped⟩

end Netfyr
