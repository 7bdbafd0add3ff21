import Netfyr.Executor.Dependencies

/-!
# The Report of an Unreachable Worker

When the worker cannot be reached, nobody runs the plan, and `failedReport` says
of every operation what a run would have said: one without dependencies failed,
any other is blocked. A run finds this by walking the dependencies, on a
transport whose inventory always fails; the report is written down from each
operation alone.

The two agree as long as dependencies name earlier operations. A run refuses an
operation that depends on itself, on a later one or on none of the plan, while
the report blames what the operation names, which is no earlier operation.

## Main definitions

* `Unreachable`: The inventory always fails, and nothing is cancelled.
* `Outcome.Blames`: Two outcomes that put the blame alike.
* `AgreesWithRun`: The report is that of a run on such a transport.

## Theorems

* `RanOperation.unreachable`: One operation.
* `History.unreachable`: All operations so far.
* `failedReport_agrees_iff`: When the report agrees.
-/

namespace Netfyr

open Interact

/-- The inventory fails with this error, and nothing is cancelled. -/
def Unreachable (failure : BackendError) : IoEvent → Prop
  | ⟨.inventory, answer⟩ => answer = .error failure
  | ⟨.cancelled, answer⟩ => answer = false
  | ⟨.execute _ _, _⟩ | ⟨.now, _⟩ => True

/-- The report says that operation `i` failed, or that what it depends on did. -/
def ApplyReport.Unmet (self : ApplyReport) (diff : StateDiff) (i : Nat) : Prop :=
  (∃ e, self.ReportsAt diff i (.failed e)) ∨
    ∃ operations, self.ReportsAt diff i (.skipped (.dependencyFailed operations))

/-- Whom the report blames are earlier operations that it says failed, or were
    blocked themselves. -/
def ApplyReport.BlamesEarlier (self : ApplyReport) (diff : StateDiff) : Prop :=
  ∀ i operations, self.ReportsAt diff i (.skipped (.dependencyFailed operations)) →
    ∀ dependency ∈ operations, dependency < i ∧ self.Unmet diff dependency

/-- Two reports with the same operations failed, and the same ones skipped for
    the same reasons. -/
structure ApplyReport.SameBlame (report other : ApplyReport) : Prop where
  succeeded : report.succeeded = other.succeeded
  failed : report.failed.map FailedOperation.context = other.failed.map FailedOperation.context
  skipped : report.skipped = other.skipped

/-- The report of a plan that could not be run is that of a run on a transport
    whose inventory always fails so. -/
structure AgreesWithRun (diff : StateDiff) (failure : BackendError) (namespaceId : NamespaceId) :
    Prop where
  unmet : ∀ i < diff.operations.length, (failedReport diff failure).Unmet diff i
  earlier : (failedReport diff failure).BlamesEarlier diff
  runs : ∃ tr report, (run diff false namespaceId).Runs tr report ∧
    ∀ event ∈ tr, Unreachable failure event
  agrees : ∀ tr report, (run diff false namespaceId).Runs tr report →
    (∀ event ∈ tr, Unreachable failure event) →
    report.SameBlame (failedReport diff failure) ∧ report.BlamesEarlier diff

/-- Both failed, or both skipped for the same operations. -/
inductive Outcome.Blames : Outcome → Outcome → Prop where
  | failed (e e' : BackendError) : Blames (.failed e) (.failed e')
  | blocked (operations : List Nat) :
      Blames (.skipped (.dependencyFailed operations)) (.skipped (.dependencyFailed operations))

variable {diff : StateDiff} {failure : BackendError} {namespaceId : NamespaceId}

section Step

variable {index : Nat} {op : Operation} {s s' : Execution} {tr : List IoEvent}

theorem Outcome.Blames.isEligible {outcome expected : Outcome} (h : outcome.Blames expected) :
    outcome.isEligible = false := by
  cases h with
  | failed _ _ => rfl
  | blocked _ => rfl

/-- An unreachable transport shows nothing. -/
theorem Observed.unreachable {observation : Observation} (h : Observed s tr observation s')
    (hcurrent : s.current = none) : ¬ ∀ event ∈ tr, Unreachable failure event := by
  intro hcalls
  cases h with
  | cached hcached =>
      rw [hcurrent] at hcached
      exact absurd hcached (by simp only [reduceCtorEq, not_false_eq_true])
  -- The observation would be the answer of an inventory, and that is an error.
  | fetched _ =>
      have hanswer : Except.ok observation = Except.error failure :=
        hcalls _ List.mem_cons_self
      exact absurd hanswer (by simp only [reduceCtorEq, not_false_eq_true])

/-- A step on an unreachable transport fails, and leaves the state alone. -/
theorem Stepped.unreachable {result : Except BackendError (Option SkipReason)}
    (h : Stepped diff false namespaceId index op s tr result s') (hcurrent : s.current = none)
    (hcalls : ∀ event ∈ tr, Unreachable failure event) : (∃ e, result = .error e) ∧ s' = s := by
  -- Whatever was decided was decided on an observation, and there is none.
  have hblind : ∀ {rest more : List IoEvent} {observation : Observation} {s₁ : Execution},
      Observed s rest observation s₁ →
      ¬ ∀ event ∈ (⟨.cancelled, false⟩ : IoEvent) :: (rest ++ more), Unreachable failure event := by
    intro rest more observation s₁ hobserved hall
    have hrest : ∀ event ∈ rest, Unreachable failure event := fun event hmem =>
      hall event (List.mem_cons_of_mem _ (List.mem_append_left _ hmem))
    exact hobserved.unreachable hcurrent hrest
  cases h with
  | cancelled =>
      have hanswer : true = false := hcalls _ List.mem_cons_self
      exact absurd hanswer (by simp only [Bool.true_eq_false, not_false_eq_true])
  | undecoded _ => exact ⟨⟨_, rfl⟩, rfl⟩
  | unobserved _ _ => exact ⟨⟨_, rfl⟩, rfl⟩
  | @refused rest _ _ _ _ _ hdecided =>
      rw [← List.append_nil rest] at hcalls
      exact absurd hcalls (hblind hdecided.observed)
  | @skipped rest _ _ _ _ _ hdecided =>
      rw [← List.append_nil rest] at hcalls
      exact absurd hcalls (hblind hdecided.observed)
  -- A projection is a preview's, and this run is not one.
  | projected hpreview _ => exact absurd hpreview Bool.false_ne_true
  | unwritten _ hdecided _ => exact absurd hcalls (hblind hdecided.observed)
  | written _ hdecided _ => exact absurd hcalls (hblind hdecided.observed)

/-- An operation on an unreachable transport, after others that all failed or
    were blocked, fares as it is reported. -/
theorem RanOperation.unreachable {outcome : Outcome}
    (h : RanOperation diff false namespaceId index op s tr outcome s')
    (hcurrent : s.current = none) (hnone : ∀ eligible ∈ s.eligible, eligible = false)
    (hlen : index < s.eligible.length) (hearlier : ∀ dependency ∈ op.dependsOn, dependency < index)
    (hcalls : ∀ event ∈ tr, Unreachable failure event) :
    outcome.Blames (failedOutcome failure op) ∧ s'.current = none := by
  -- Nothing is eligible, so every dependency blocks.
  have hall : blockedBy s.eligible op = some op.dependsOn := by
    have hblocked : blockedBy s.eligible op = some (op.dependsOn.filter fun _ => true) := by
      refine Checked.filterChecked_eq_some fun dependency hmem => ?_
      have hlt := hearlier dependency hmem
      have hget : s.eligible[dependency]? = some s.eligible[dependency] :=
        List.getElem?_eq_getElem (by omega)
      rw [hget, hnone _ (List.getElem_mem _)]
      rfl
    rw [hblocked, List.filter_true]
  cases h with
  -- Excluded: dependencies name earlier operations.
  | malformed hmal =>
      rcases hmal with ⟨dependency, hmem, hle⟩
      have hlt := hearlier dependency hmem
      omega
  | blocked _ hblocked hne =>
      obtain rfl := Option.some.inj (hall.symm.trans hblocked)
      have hdeps : op.dependsOn.isEmpty = false := by
        rw [List.isEmpty_eq_false_iff]
        exact hne
      rw [failedOutcome, hdeps]
      exact ⟨.blocked op.dependsOn, hcurrent⟩
  -- Nothing blocks, so there are no dependencies, and the step fails.
  | stepped _ hblocked hstep =>
      have hdeps : op.dependsOn = [] := Option.some.inj (hall.symm.trans hblocked)
      rcases (step_cases hstep).unreachable hcurrent hcalls with ⟨⟨e, rfl⟩, rfl⟩
      rw [failedOutcome, hdeps]
      exact ⟨.failed e failure, hcurrent⟩

end Step

/-- On an unreachable transport every operation so far fares as it is reported. -/
theorem History.unreachable {h : List ExecRound} {s : Execution}
    (hr : History diff false namespaceId h s)
    (hearlier : ∀ i j, DependsOn diff i j → j < i)
    (hcalls : ∀ event ∈ callsOf h, Unreachable failure event) :
    s.current = none ∧ ∀ (i : Nat) (op : Operation) (r : ExecRound),
      diff.operations[i]? = some op → h[i]? = some r →
        r.outcome.Blames (failedOutcome failure op) := by
  induction hr with
  | start =>
      refine ⟨rfl, fun i op r _ hround => ?_⟩
      rw [List.getElem?_nil] at hround
      exact absurd hround (by simp only [reduceCtorEq, not_false_eq_true])
  | @round h s s' op tr outcome hr hop hrun ih =>
      rw [callsOf, List.flatMap_append, List.forall_mem_append] at hcalls
      rcases ih hcalls.1 with ⟨hcurrent, hblames⟩
      -- What ran is not eligible, and what did not run is not eligible yet.
      have hnone : ∀ eligible ∈ s.eligible, eligible = false := by
        intro eligible hmem
        rw [History.eligible_eq hr, List.mem_append, List.mem_map] at hmem
        rcases hmem with ⟨r, hround, rfl⟩ | hmem
        · rcases List.getElem?_of_mem hround with ⟨i, hi⟩
          rcases History.roundAt hr hi with ⟨op', hat⟩
          exact (hblames i op' r hat.operation hi).isEligible
        · exact List.eq_of_mem_replicate hmem
      have hindex : h.length < s.eligible.length := by
        rw [History.eligible_length hr]
        exact (List.getElem?_eq_some_iff.mp hop).choose
      have hown := (runOperation_cases hrun).unreachable hcurrent hnone hindex
        (fun dependency hmem => hearlier _ _ ⟨op, hop, hmem⟩)
        (fun event hmem => hcalls.2 event (by simpa using hmem))
      refine ⟨hown.2, fun i op' r hop' hround => ?_⟩
      rw [List.getElem?_append] at hround
      -- An earlier round by induction, the last one by the step.
      by_cases hlt : i < h.length
      · rw [if_pos hlt] at hround
        exact hblames i op' r hop' hround
      · rw [if_neg hlt] at hround
        have hi : i - h.length = 0 := by
          have hrange := (List.getElem?_eq_some_iff.mp hround).choose
          rw [List.length_singleton] at hrange
          omega
        rw [hi, List.getElem?_cons_zero, Option.some.injEq] at hround
        obtain rfl : i = h.length := by omega
        obtain rfl := Option.some.inj (hop.symm.trans hop')
        subst hround
        exact hown.1

section Reports

/-- Outcomes that put the blame alike make reports that do. -/
theorem sameBlame_reportOutcomes {ops : List Operation} {outcomes expected : List Outcome}
    {index : Nat} {report report' : ApplyReport}
    (hout : List.Forall₂ Outcome.Blames outcomes expected) (h : report.SameBlame report') :
    (reportOutcomes ops outcomes index report).SameBlame
      (reportOutcomes ops expected index report') := by
  induction ops generalizing outcomes expected index report report' with
  | nil =>
      rw [reportOutcomes.eq_def, reportOutcomes.eq_def]
      exact h
  | cons op ops ih =>
      cases hout with
      | nil => exact h
      -- One entry goes to the same list of both reports.
      | @cons outcome expected' outcomes expected hfirst hrest =>
          rw [reportOutcomes, reportOutcomes]
          refine ih hrest ?_
          cases hfirst with
          | failed e e' =>
              refine ⟨h.succeeded, ?_, h.skipped⟩
              simp only [ApplyReport.record, List.map_append, List.map_singleton, h.failed]
          | blocked operations =>
              refine ⟨h.succeeded, h.failed, ?_⟩
              simp only [ApplyReport.record, h.skipped]

/-- What a plan that could not be run is reported with. -/
theorem failedReport_reportsAt {i : Nat} {outcome : Outcome} :
    (failedReport diff failure).ReportsAt diff i outcome ↔
      ∃ op, diff.operations[i]? = some op ∧ outcome = failedOutcome failure op := by
  rw [failedReport, reportsAt_reportOutcomes]
  constructor
  · rintro ⟨⟨op, hop⟩, hout⟩
    rw [List.getElem?_map, hop, Option.map_some, Option.some.injEq] at hout
    exact ⟨op, hop, hout.symm⟩
  · rintro ⟨op, hop, rfl⟩
    refine ⟨⟨op, hop⟩, ?_⟩
    rw [List.getElem?_map, hop, Option.map_some]

/-- Every operation is reported failed or blocked. -/
theorem failedReport_unmet {i : Nat} (hi : i < diff.operations.length) :
    (failedReport diff failure).Unmet diff i := by
  have hop : diff.operations[i]? = some diff.operations[i] := List.getElem?_eq_getElem hi
  have hreports : (failedReport diff failure).ReportsAt diff i
      (failedOutcome failure diff.operations[i]) := failedReport_reportsAt.mpr ⟨_, hop, rfl⟩
  unfold failedOutcome at hreports
  split at hreports
  · exact Or.inl ⟨failure, hreports⟩
  · exact Or.inr ⟨_, hreports⟩

/-- It blames earlier operations exactly when those are what the plan names. -/
theorem failedReport_blamesEarlier_iff :
    (failedReport diff failure).BlamesEarlier diff ↔ ∀ i j, DependsOn diff i j → j < i := by
  constructor
  · rintro h i j ⟨op, hop, hmem⟩
    have hdeps : op.dependsOn.isEmpty = false := by
      rw [List.isEmpty_eq_false_iff]
      exact List.ne_nil_of_mem hmem
    -- An operation with a dependency is reported blocked by all it names.
    have hout : failedOutcome failure op = .skipped (.dependencyFailed op.dependsOn) := by
      rw [failedOutcome, hdeps]
      rfl
    exact (h i op.dependsOn (failedReport_reportsAt.mpr ⟨op, hop, hout.symm⟩) j hmem).1
  · intro h i operations hreports dependency hmem
    rcases failedReport_reportsAt.mp hreports with ⟨op, hop, hout⟩
    unfold failedOutcome at hout
    split at hout
    · exact absurd hout (by simp only [reduceCtorEq, not_false_eq_true])
    · simp only [Outcome.skipped.injEq, SkipReason.dependencyFailed.injEq] at hout
      subst hout
      have hlt := h i dependency ⟨op, hop, hmem⟩
      have hi : i < diff.operations.length := (List.getElem?_eq_some_iff.mp hop).choose
      exact ⟨hlt, failedReport_unmet (by omega)⟩

/-- Blaming earlier operations is a matter of whom a report blames. -/
theorem ApplyReport.SameBlame.blamesEarlier {report other : ApplyReport}
    (h : report.SameBlame other) (hearlier : other.BlamesEarlier diff) :
    report.BlamesEarlier diff := by
  -- The blocked are the same, and the failed but for their errors.
  have hskipped : ∀ i operations,
      report.ReportsAt diff i (.skipped (.dependencyFailed operations)) ↔
        other.ReportsAt diff i (.skipped (.dependencyFailed operations)) := by
    intro i operations
    simp only [ApplyReport.ReportsAt, ApplyReport.Reports, h.skipped]
  have hfailed : ∀ i e, other.ReportsAt diff i (.failed e) →
      ∃ e', report.ReportsAt diff i (.failed e') := by
    rintro i e ⟨op, hop, hmem⟩
    have hcontext : OperationContext.new i op ∈ other.failed.map FailedOperation.context :=
      List.mem_map.mpr ⟨_, hmem, rfl⟩
    rw [← h.failed, List.mem_map] at hcontext
    rcases hcontext with ⟨⟨context, e'⟩, hmem', heq⟩
    obtain rfl : context = .new i op := heq
    exact ⟨e', op, hop, hmem'⟩
  intro i operations hreports dependency hmem
  rcases hearlier i operations ((hskipped i operations).mp hreports) dependency hmem with
    ⟨hlt, ⟨e, hfail⟩ | ⟨others, hblocked⟩⟩
  · exact ⟨hlt, Or.inl (hfailed dependency e hfail)⟩
  · exact ⟨hlt, Or.inr ⟨others, (hskipped dependency others).mpr hblocked⟩⟩

end Reports

/-- A transport without an inventory. -/
def unreachableTransport (failure : BackendError) : Handler Unit IoCall IoAnswer
  | _, .inventory => (.error failure, ())
  | _, .execute _ _ => (.error failure, ())
  | _, .now => (0, ())
  | _, .cancelled => (false, ())

theorem unreachableTransport_admits {tr : List IoEvent} {final : Unit}
    (h : Admits (unreachableTransport failure).environment () tr final) :
    ∀ event ∈ tr, Unreachable failure event := by
  induction tr with
  | nil => exact fun event hmem => absurd hmem List.not_mem_nil
  | cons event tr ih =>
      rcases h with ⟨next, hanswer, hrest⟩
      have hfirst : Unreachable failure event := by
        rcases event with ⟨call, answer⟩
        have hsame : (unreachableTransport failure () call).1 = answer := congrArg Prod.fst hanswer
        cases call with
        | inventory => exact hsame.symm
        | cancelled => exact hsame.symm
        | execute _ _ => trivial
        | now => trivial
      exact List.forall_mem_cons.mpr ⟨hfirst, ih hrest⟩

/-- The report of a plan that could not be run is that of a run on an
    unreachable transport exactly when dependencies name earlier operations. -/
theorem failedReport_agrees_iff (diff : StateDiff) (failure : BackendError)
    (namespaceId : NamespaceId) :
    AgreesWithRun diff failure namespaceId ↔ ∀ i j, DependsOn diff i j → j < i := by
  refine ⟨fun h => failedReport_blamesEarlier_iff.mp h.earlier, fun hearlier => ?_⟩
  have hown : (failedReport diff failure).BlamesEarlier diff :=
    failedReport_blamesEarlier_iff.mpr hearlier
  refine ⟨fun i hi => failedReport_unmet hi, hown, ?_, fun tr report hrun hcalls => ?_⟩
  · rcases run_executes diff false namespaceId (unreachableTransport failure) () with
      ⟨report, final, tr, _, hrun, hadmits⟩
    exact ⟨tr, report, hrun, unreachableTransport_admits hadmits⟩
  · rcases run_history hrun with ⟨h, hr⟩
    rcases hr.history with ⟨s, hs, hreport⟩
    rw [hr.trace] at hcalls
    have hblames := (History.unreachable hs hearlier hcalls).2
    -- Operation by operation, the run ends as it is reported.
    have hout : List.Forall₂ Outcome.Blames (h.map Round.outcome)
        (diff.operations.map (failedOutcome failure)) := by
      rw [List.forall₂_iff_get]
      refine ⟨by rw [List.length_map, List.length_map, hr.complete], fun i hi hi' => ?_⟩
      rw [List.length_map] at hi hi'
      simp only [List.get_eq_getElem, List.getElem_map]
      exact hblames i _ _ (List.getElem?_eq_getElem hi') (List.getElem?_eq_getElem hi)
    have hsame : report.SameBlame (failedReport diff failure) := by
      have hstart : ApplyReport.SameBlame {} { diagnostics := diff.diagnostics } := ⟨rfl, rfl, rfl⟩
      have hentries : (reportOutcomes diff.operations (h.map Round.outcome) 0 {}).SameBlame
          (failedReport diff failure) := sameBlame_reportOutcomes hout hstart
      rw [hreport]
      exact ⟨hentries.succeeded, hentries.failed, hentries.skipped⟩
    exact ⟨hsame, hsame.blamesEarlier hown⟩

/-- The first operation of `entangledPlan` depends on itself. A run refuses it,
    and the report blames it for its own failure. -/
theorem failedReport_disagrees :
    ¬ AgreesWithRun entangledPlan (.new .outcomeUnknown "worker stopped") eth0.namespaceId ∧
      (failedReport entangledPlan (.new .outcomeUnknown "worker stopped")).ReportsAt entangledPlan 0
        (.skipped (.dependencyFailed [0])) ∧
      ∀ tr report, (run entangledPlan false eth0.namespaceId).Runs tr report →
        report.ReportsAt entangledPlan 0 (.failed malformedError) := by
  refine ⟨fun h => ?_, failedReport_reportsAt.mpr ⟨_, rfl, rfl⟩, fun tr report hrun => ?_⟩
  · have hself : DependsOn entangledPlan 0 0 := ⟨_, rfl, List.mem_singleton_self 0⟩
    have hlt := failedReport_blamesEarlier_iff.mp h.earlier 0 0 hself
    omega
  · rcases run_history hrun with ⟨h, hr⟩
    have hop : entangledPlan.operations[0]? = some entangledPlan.operations[0] := rfl
    rcases hr.roundAt hop with ⟨r, hat⟩
    exact ((hr.gated hat).malformed ⟨0, List.mem_singleton_self 0, Nat.le_refl 0⟩).2

end Netfyr
