import Netfyr.Executor.Ideal
import Netfyr.Executor.Reported

/-!
# Exactly-once Reporting

A report covers a plan when every operation has one entry in one of its three
lists, each list in plan order. Reports are built by recording one outcome after
another, and `Covers.record` is the step of that loop: recording the outcome of
the next operation extends what is covered by it. That a report covers its plan
is all a dry run needs to put the entries back into plan order, and all the two
success predicates need to agree on it.

## Main definitions

* `StateDiff.contexts`: The operations of a plan, as reports name them.
* `ApplyReport.contexts`: The operations a report has an entry for.
* `Covers`: Every operation has exactly one entry, in order.

## Theorems

* `Covers.record`: Recording the next operation covers it too.
* `covers_reportOutcomes`: A report of all outcomes covers the plan.
* `previewReport_contexts`: The dry run made of it is the plan, in order.
* `isSuccess_previewReport`: It is a success when the report is.
* `run_exactlyOnce`: All of this holds of every run and of every failed report.
-/

namespace Netfyr

open Interact

/-- The operations of a list as reports name them, the first being number
    `index`. -/
def contextsFrom : Nat → List Operation → List OperationContext
  | _, [] => []
  | index, op :: ops => .new index op :: contextsFrom (index + 1) ops

/-- The operations of a plan as reports name them. -/
def StateDiff.contexts (self : StateDiff) : List OperationContext :=
  contextsFrom 0 self.operations

/-- The operations a report has an entry for. -/
def ApplyReport.contexts (self : ApplyReport) : List OperationContext :=
  self.succeeded ++ self.failed.map FailedOperation.context ++
    self.skipped.map SkippedOperation.context

/-- A list of operations in plan order, none twice. -/
def InPlanOrder (contexts : List OperationContext) : Prop :=
  contexts.Pairwise fun first second => first.index < second.index

/-- The report has exactly one entry for each of these operations, and each of
    its lists is in plan order. -/
structure Covers (report : ApplyReport) (contexts : List OperationContext) : Prop where
  entries : report.contexts.Perm contexts
  succeeded : InPlanOrder report.succeeded
  failed : InPlanOrder (report.failed.map FailedOperation.context)
  skipped : InPlanOrder (report.skipped.map SkippedOperation.context)

section Contexts

variable {ops : List Operation} {index : Nat}

theorem mem_contextsFrom {context : OperationContext} :
    context ∈ contextsFrom index ops ↔
      ∃ k op, ops[k]? = some op ∧ context = .new (index + k) op := by
  induction ops generalizing index with
  | nil => simp [contextsFrom]
  | cons op ops ih =>
      rw [contextsFrom, List.mem_cons, ih]
      constructor
      · rintro (rfl | ⟨k, op', hop, rfl⟩)
        · exact ⟨0, op, rfl, rfl⟩
        · exact ⟨k + 1, op', hop, by rw [Nat.add_right_comm, Nat.add_assoc]⟩
      · rintro ⟨k, op', hop, rfl⟩
        cases k with
        | zero =>
            rw [List.getElem?_cons_zero, Option.some.injEq] at hop
            exact Or.inl (by rw [hop, Nat.add_zero])
        | succ k => exact Or.inr ⟨k, op', hop, by rw [Nat.add_right_comm, Nat.add_assoc]⟩

/-- The operations of a plan are in plan order. -/
theorem inPlanOrder_contextsFrom : InPlanOrder (contextsFrom index ops) := by
  induction ops generalizing index with
  | nil => exact List.Pairwise.nil
  | cons op ops ih =>
      refine List.Pairwise.cons (fun context hmem => ?_) ih
      rcases mem_contextsFrom.mp hmem with ⟨k, op', _, rfl⟩
      have hlater : index < index + 1 + k := by omega
      exact hlater

/-- The operations of a plan are told apart by their indices. -/
theorem InPlanOrder.eq_of_index {contexts : List OperationContext} (h : InPlanOrder contexts)
    {first second : OperationContext} (hfirst : first ∈ contexts) (hsecond : second ∈ contexts)
    (hindex : first.index = second.index) : first = second := by
  have hdistinct : (contexts.map OperationContext.index).Nodup :=
    List.pairwise_map.mpr (h.imp Nat.ne_of_lt)
  exact List.inj_on_of_nodup_map hdistinct hfirst hsecond hindex

end Contexts

section Record

variable {report : ApplyReport} {contexts : List OperationContext} {context : OperationContext}
  {outcome : Outcome}

theorem covers_empty : Covers {} [] :=
  ⟨List.Perm.refl _, List.Pairwise.nil, List.Pairwise.nil, List.Pairwise.nil⟩

/-- Recording an outcome adds its operation to those covered. -/
theorem contexts_record :
    (report.record context outcome).contexts.Perm (report.contexts ++ [context]) := by
  rw [List.perm_iff_count]
  intro other
  cases outcome <;>
    simp only [ApplyReport.record, ApplyReport.contexts, List.map_append, List.map_cons,
      List.map_nil, List.count_append] <;>
    omega

/-- A list in plan order stays so when the next operation comes last. -/
theorem inPlanOrder_concat {earlier : List OperationContext} (h : InPlanOrder earlier)
    (hnext : ∀ other ∈ earlier, other.index < context.index) :
    InPlanOrder (earlier ++ [context]) := by
  unfold InPlanOrder
  rw [List.pairwise_append]
  refine ⟨h, List.pairwise_singleton _ _, fun other hmem last hlast => ?_⟩
  rw [List.mem_singleton.mp hlast]
  exact hnext other hmem

/-- Recording the outcome of the next operation covers it too. -/
theorem Covers.record (h : Covers report contexts)
    (hnext : ∀ other ∈ contexts, other.index < context.index) :
    Covers (report.record context outcome) (contexts ++ [context]) := by
  have hbefore : ∀ other ∈ report.contexts, other.index < context.index := fun other hmem =>
    hnext other (h.entries.mem_iff.mp hmem)
  unfold ApplyReport.contexts at hbefore
  simp only [List.mem_append] at hbefore
  have hentries : (report.record context outcome).contexts.Perm (contexts ++ [context]) :=
    contexts_record.trans (h.entries.append_right [context])
  cases outcome with
  | succeeded =>
      exact ⟨hentries, inPlanOrder_concat h.succeeded fun other hmem =>
        hbefore other (Or.inl (Or.inl hmem)), h.failed, h.skipped⟩
  | failed e =>
      refine ⟨hentries, h.succeeded, ?_, h.skipped⟩
      rw [ApplyReport.record, List.map_append]
      exact inPlanOrder_concat h.failed fun other hmem =>
        hbefore other (Or.inl (Or.inr hmem))
  | skipped reason =>
      refine ⟨hentries, h.succeeded, h.failed, ?_⟩
      rw [ApplyReport.record, List.map_append]
      exact inPlanOrder_concat h.skipped fun other hmem => hbefore other (Or.inr hmem)

/-- Diagnostics are no entries. -/
theorem Covers.diagnostics {diagnostics : List Diagnostic} (h : Covers report contexts) :
    Covers { report with diagnostics } contexts :=
  ⟨h.entries, h.succeeded, h.failed, h.skipped⟩

end Record

/-- A report of an outcome for every operation covers them, after those it
    covered before. -/
theorem covers_reportOutcomes {ops : List Operation} {outcomes : List Outcome} {index : Nat}
    {report : ApplyReport} {contexts : List OperationContext} (h : Covers report contexts)
    (hearlier : ∀ other ∈ contexts, other.index < index) (hlength : outcomes.length = ops.length) :
    Covers (reportOutcomes ops outcomes index report) (contexts ++ contextsFrom index ops) := by
  induction ops generalizing outcomes index report contexts with
  | nil =>
      rw [reportOutcomes.eq_def, contextsFrom, List.append_nil]
      exact h
  | cons op ops ih =>
      cases outcomes with
      | nil => exact absurd hlength (by simp)
      | cons outcome outcomes =>
          rw [List.length_cons, List.length_cons, Nat.add_right_cancel_iff] at hlength
          have hnext : Covers (report.record (.new index op) outcome)
              (contexts ++ [.new index op]) := h.record hearlier
          rw [reportOutcomes, contextsFrom, List.append_cons]
          refine ih hnext (fun other hmem => ?_) hlength
          rcases List.mem_append.mp hmem with hbefore | hlast
          · exact Nat.lt_succ_of_lt (hearlier other hbefore)
          · rw [List.mem_singleton.mp hlast]
            exact Nat.lt_succ_self index

variable {diff : StateDiff} {preview : Bool} {namespaceId : NamespaceId} {tr : List IoEvent}
  {report : ApplyReport} {h : List ExecRound} {failure : BackendError}

/-- The report of a plan that could not be run covers it. -/
theorem covers_failedReport : Covers (failedReport diff failure) diff.contexts :=
  covers_reportOutcomes covers_empty.diagnostics
    (fun _ hmem => absurd hmem List.not_mem_nil) (List.length_map _)

/-- The report of a run covers its plan. -/
theorem RunHistory.covers (hr : RunHistory diff preview namespaceId tr report h) :
    Covers report diff.contexts := by
  rcases hr.history with ⟨s, _, hreport⟩
  have hlength : (h.map Round.outcome).length = diff.operations.length := by
    rw [List.length_map, hr.complete]
  rw [hreport]
  exact (covers_reportOutcomes covers_empty
    (fun _ hmem => absurd hmem List.not_mem_nil) hlength).diagnostics

section Preview

/-- The operations of a dry run are those of the report, in another order. -/
theorem previewReport_perm :
    ((previewReport diff report).operations.map PlannedOperation.context).Perm
      report.contexts := by
  have hsorted := (List.perm_insertionSort
    (fun a b : PlannedOperation => a.context.index ≤ b.context.index)
    ((report.succeeded.map fun context => ⟨context, .write⟩) ++
      (report.skipped.map fun entry => ⟨entry.context, .skip entry.reason⟩) ++
      (report.failed.map fun entry => ⟨entry.context, .fail⟩))).map PlannedOperation.context
  refine hsorted.trans ?_
  rw [List.map_append, List.map_append, List.map_map, List.map_map, List.map_map]
  have hsucceeded : report.succeeded.map
      (PlannedOperation.context ∘ fun context => ⟨context, .write⟩) = report.succeeded :=
    List.map_id _
  rw [hsucceeded, ApplyReport.contexts, List.append_assoc, List.append_assoc]
  exact List.perm_append_comm.append_left _

/-- A dry run made of a report that covers the plan is the plan, in order. -/
theorem previewReport_contexts (hcovers : Covers report diff.contexts) :
    (previewReport diff report).operations.map PlannedOperation.context = diff.contexts := by
  have hperm : ((previewReport diff report).operations.map PlannedOperation.context).Perm
      diff.contexts := previewReport_perm.trans hcovers.entries
  have horder : InPlanOrder diff.contexts := inPlanOrder_contextsFrom
  have hsorted : ((previewReport diff report).operations.map PlannedOperation.context).Pairwise
      fun first second => first.index ≤ second.index := by
    rw [List.pairwise_map]
    exact List.pairwise_insertionSort _ _
  refine List.Perm.eq_of_pairwise (fun first second hfirst hsecond hle hge => ?_) hsorted
    (horder.imp Nat.le_of_lt) hperm
  exact horder.eq_of_index (hperm.mem_iff.mp hfirst) hsecond (Nat.le_antisymm hle hge)

/-- The operations it fails are those that the report has among the failed. -/
theorem previewReport_fail (hcovers : Covers report diff.contexts) {entry : PlannedOperation}
    (hentry : entry ∈ (previewReport diff report).operations) :
    entry.status = .fail ↔
      entry.context.index ∈ report.failed.map fun failed => failed.context.index := by
  constructor
  · intro hfail
    rcases mem_previewReport.mp hentry with ⟨outcome, hreports, hplanned⟩
    rcases Outcome.planned_eq_fail.mp (hplanned.trans hfail) with ⟨e, rfl⟩
    exact List.mem_map.mpr ⟨_, hreports, rfl⟩
  · intro hmem
    rcases List.mem_map.mp hmem with ⟨failed, hfailed, hindex⟩
    have hother : (⟨failed.context, .fail⟩ : PlannedOperation) ∈
        (previewReport diff report).operations :=
      mem_previewReport.mpr ⟨.failed failed.error, hfailed, rfl⟩
    -- The plan has one operation of this index, so the dry run has one entry.
    have horder : InPlanOrder ((previewReport diff report).operations.map
        PlannedOperation.context) := by
      rw [previewReport_contexts hcovers]
      exact inPlanOrder_contextsFrom
    have hdistinct : ((previewReport diff report).operations.map fun planned =>
        planned.context.index).Nodup :=
      List.pairwise_map.mpr ((List.pairwise_map.mp horder).imp Nat.ne_of_lt)
    rw [← List.inj_on_of_nodup_map hdistinct hother hentry hindex]

end Preview

section Success

/-- Nothing failed or was blocked when no entry says so. -/
theorem noFailures_iff {failed : List FailedOperation} {skips : List (Option SkipReason)} :
    noFailures failed skips = true ↔
      failed = [] ∧ ∀ operations, some (.dependencyFailed operations) ∉ skips := by
  unfold noFailures
  rw [Bool.and_eq_true, List.isEmpty_iff, Bool.not_eq_true', List.any_eq_false]
  refine and_congr_right fun _ =>
    ⟨fun hall operations hmem => hall _ hmem rfl, fun hall skip hmem => ?_⟩
  rcases skip with _ | reason
  · exact Bool.false_ne_true
  · cases reason with
    | alreadySatisfied => exact Bool.false_ne_true
    | readOnly => exact Bool.false_ne_true
    | dependencyFailed operations => exact absurd hmem (hall operations)

/-- A report is a success when every entry lets dependents run. -/
theorem ApplyReport.isSuccess_iff : report.isSuccess = true ↔
    ∀ context outcome, report.Reports context outcome → outcome.isEligible = true := by
  unfold ApplyReport.isSuccess
  rw [noFailures_iff]
  constructor
  · rintro ⟨hfailed, hskips⟩ context outcome hreports
    cases outcome with
    | succeeded => rfl
    | failed e =>
        rw [ApplyReport.Reports, hfailed] at hreports
        exact absurd hreports List.not_mem_nil
    | skipped reason =>
        cases reason with
        | alreadySatisfied => rfl
        | readOnly => rfl
        | dependencyFailed operations =>
            exact absurd (List.mem_map.mpr ⟨_, hreports, rfl⟩) (hskips operations)
  · intro hall
    constructor
    · rw [List.eq_nil_iff_forall_not_mem]
      intro failed hmem
      exact absurd (hall failed.context (.failed failed.error) hmem) Bool.false_ne_true
    · intro operations hmem
      rcases List.mem_map.mp hmem with ⟨entry, hentry, hreason⟩
      obtain heq := Option.some.inj hreason
      have hreports : report.Reports entry.context (.skipped entry.reason) := hentry
      rw [heq] at hreports
      exact absurd (hall _ _ hreports) Bool.false_ne_true

/-- A dry run is a success when the report it is made of is. -/
theorem isSuccess_previewReport :
    (previewReport diff report).isSuccess = report.isSuccess := by
  rw [Bool.eq_iff_iff]
  unfold DryRunReport.isSuccess ApplyReport.isSuccess
  rw [noFailures_iff, noFailures_iff]
  refine and_congr_right fun _ => forall_congr' fun operations => not_congr ?_
  rw [List.mem_map, List.mem_map]
  constructor
  · rintro ⟨⟨context, status⟩, hmem, hreason⟩
    rcases mem_previewReport.mp hmem with ⟨outcome, hreports, rfl⟩
    cases outcome with
    | succeeded => exact absurd hreason (by simp [Outcome.planned])
    | failed _ => exact absurd hreason (by simp [Outcome.planned])
    | skipped reason => exact ⟨_, hreports, hreason⟩
  · rintro ⟨entry, hmem, hreason⟩
    have hreports : report.Reports entry.context (.skipped entry.reason) := hmem
    exact ⟨_, mem_previewReport.mpr ⟨_, hreports, rfl⟩, hreason⟩

/-- The report of a run is a success when each operation succeeded or there was
    nothing to do. -/
theorem RunHistory.isSuccess_iff (hr : RunHistory diff preview namespaceId tr report h) :
    report.isSuccess = true ↔ ∀ i < diff.operations.length,
      report.ReportsAt diff i .succeeded ∨ report.ReportsAt diff i (.skipped .alreadySatisfied) ∨
        report.ReportsAt diff i (.skipped .readOnly) := by
  rw [ApplyReport.isSuccess_iff]
  constructor
  · intro hall i hi
    rcases hr.roundAt (List.getElem?_eq_getElem hi) with ⟨r, hat⟩
    have hat' := (hr.reportsAt_iff hat).mpr rfl
    rcases hat' with ⟨op, hop, hreports⟩
    have heligible := hall _ _ hreports
    have hthere : report.ReportsAt diff i r.outcome := ⟨op, hop, hreports⟩
    revert hthere heligible
    cases r.outcome with
    | succeeded => exact fun _ hthere => Or.inl hthere
    | failed e => exact fun heligible _ => absurd heligible Bool.false_ne_true
    | skipped reason =>
        cases reason with
        | alreadySatisfied => exact fun _ hthere => Or.inr (Or.inl hthere)
        | readOnly => exact fun _ hthere => Or.inr (Or.inr hthere)
        | dependencyFailed _ => exact fun heligible _ => absurd heligible Bool.false_ne_true
  · intro hall context outcome hreports
    rcases hr.reports_iff.mp hreports with ⟨i, op, r, hat, rfl, rfl⟩
    have hi := (List.getElem?_eq_some_iff.mp hat.operation).choose
    rcases hall i hi with hdone | hdone | hdone
    · rw [(hr.reportsAt_iff hat).mp hdone]
      rfl
    · rw [(hr.reportsAt_iff hat).mp hdone]
      rfl
    · rw [(hr.reportsAt_iff hat).mp hdone]
      rfl

end Success

/-- Exactly-once reporting. The report of every run, whatever the transport
    answers and whenever it is cancelled, has exactly one entry per operation,
    each of its lists in plan order, and so has the report of a plan that could
    not be run. A dry run made of such a report is the plan in order, failing
    just what the report failed, and a success when the report is; and a run is a
    success when every operation succeeded or had nothing to do. -/
theorem run_exactlyOnce :
    (∀ tr report, (run diff preview namespaceId).Runs tr report →
      Covers report diff.contexts ∧
        (report.isSuccess = true ↔ ∀ i < diff.operations.length,
          report.ReportsAt diff i .succeeded ∨
            report.ReportsAt diff i (.skipped .alreadySatisfied) ∨
            report.ReportsAt diff i (.skipped .readOnly))) ∧
    (∀ failure, Covers (failedReport diff failure) diff.contexts) ∧
    (∀ report : ApplyReport, Covers report diff.contexts →
      (previewReport diff report).operations.map PlannedOperation.context = diff.contexts ∧
        ∀ entry ∈ (previewReport diff report).operations, entry.status = .fail ↔
          entry.context.index ∈ report.failed.map fun failed => failed.context.index) ∧
    ∀ report, (previewReport diff report).isSuccess = report.isSuccess := by
  refine ⟨fun tr report hrun => ?_, fun failure => covers_failedReport, fun report hcovers => ?_,
    fun report => isSuccess_previewReport⟩
  · rcases run_history hrun with ⟨h, hr⟩
    exact ⟨hr.covers, hr.isSuccess_iff⟩
  · exact ⟨previewReport_contexts hcovers, fun entry hentry => previewReport_fail hcovers hentry⟩

/-- A removal that depends on an operation the plan does not have. -/
def danglingRemoval : Operation :=
  { target := eth0
    kind := .removeIpv4 primary.address
    dependsOn := [7]
    addressGroup := none }

/-- A plan of that removal and another one that waits for it. -/
def danglingPlan : StateDiff :=
  { changes := []
    operations := [danglingRemoval, { danglingRemoval with dependsOn := [0] }]
    diagnostics := [] }

theorem run_exactlyOnce_dangling : ∃ report,
    (run danglingPlan false eth0.namespaceId).Runs [] report ∧
      Covers report danglingPlan.contexts ∧ report.isSuccess = false ∧
      (previewReport danglingPlan report).operations.map PlannedOperation.context =
        danglingPlan.contexts ∧
      (previewReport danglingPlan report).isSuccess = false := by
  have hall : (∀ tr report, (run danglingPlan false eth0.namespaceId).Runs tr report →
      Covers report danglingPlan.contexts ∧ _) ∧ _ := run_exactlyOnce
  rcases hall with ⟨hruns, _, hpreview, hsame⟩
  have hrun : (run danglingPlan false eth0.namespaceId).Runs []
      { failed := [⟨.new 0 danglingRemoval, malformedError⟩]
        skipped := [⟨.new 1 { danglingRemoval with dependsOn := [0] }, .dependencyFailed [0]⟩] } :=
    ⟨rfl, rfl⟩
  have hcovers := (hruns _ _ hrun).1
  exact ⟨_, hrun, hcovers, rfl, (hpreview _ hcovers).1, (hsame _).trans rfl⟩

end Netfyr
