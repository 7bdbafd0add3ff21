import Netfyr.Executor.History

/-!
# What a Report Says

A report is three lists of entries. A claim about a run speaks of the outcome of
an operation, so this module reads the lists back: an operation of the plan is
reported with exactly one outcome, and that outcome is the one of its round.

## Main definitions

* `ApplyReport.Reports`: The report has an entry with this outcome.
* `ApplyReport.ReportsAt`: The report gives operation `i` this outcome.
* `ApplyReport.eligible`: The report lets the dependents of an operation run.
* `Outcome.planned`: The status a dry run gives to an outcome.

## Theorems

* `mem_previewReport`: The operations of a dry run are the report's entries.
* `RunHistory.reports_iff`: The entries are the outcomes of the rounds.
* `RunHistory.reportsAt_iff`: The outcome reported is the outcome of the round.
* `RunHistory.reportsAt_unique`: An operation is reported once.
* `RunHistory.eligible_eq`: Eligibility as reported is eligibility as computed.
-/

namespace Netfyr

open Interact

/-- The report has an entry about an operation with an outcome. -/
def ApplyReport.Reports (self : ApplyReport) (context : OperationContext) : Outcome → Prop
  | .succeeded => context ∈ self.succeeded
  | .skipped reason => { context, reason } ∈ self.skipped
  | .failed error => { context, error } ∈ self.failed

/-- The report gives operation `i` of a plan an outcome. -/
def ApplyReport.ReportsAt (self : ApplyReport) (diff : StateDiff) (i : Nat) (outcome : Outcome) :
    Prop :=
  ∃ op, diff.operations[i]? = some op ∧ self.Reports (.new i op) outcome

/-- The report says that operation `i` lets its dependents run: it succeeded, or
    there was nothing to do. -/
def ApplyReport.eligible (self : ApplyReport) (i : Nat) : Bool :=
  (self.succeeded.any fun context => context.index == i) ||
    self.skipped.any fun entry =>
      entry.context.index == i && (Outcome.skipped entry.reason).isEligible

theorem ApplyReport.eligible_iff {self : ApplyReport} {i : Nat} :
    self.eligible i = true ↔
      ∃ context outcome, self.Reports context outcome ∧ context.index = i ∧
        outcome.isEligible = true := by
  unfold ApplyReport.eligible
  rw [Bool.or_eq_true, List.any_eq_true, List.any_eq_true]
  simp only [Bool.and_eq_true, beq_iff_eq]
  constructor
  · rintro (⟨context, hmem, hi⟩ | ⟨entry, hmem, hi, helig⟩)
    · exact ⟨context, .succeeded, hmem, hi, rfl⟩
    · exact ⟨entry.context, .skipped entry.reason, hmem, hi, helig⟩
  · rintro ⟨context, outcome, hrep, hi, helig⟩
    cases outcome with
    | succeeded => exact Or.inl ⟨context, hrep, hi⟩
    | skipped reason => exact Or.inr ⟨_, hrep, hi, helig⟩
    | failed e => exact absurd helig Bool.false_ne_true

/-- The status a dry run gives to an outcome. -/
def Outcome.planned : Outcome → PlannedStatus
  | .succeeded => .write
  | .skipped reason => .skip reason
  | .failed _ => .fail

section Planned

variable {outcome : Outcome}

theorem Outcome.planned_eq_write : outcome.planned = .write ↔ outcome = .succeeded := by
  cases outcome with
  | succeeded => exact iff_of_true rfl rfl
  | skipped _ => simp only [Outcome.planned, reduceCtorEq]
  | failed _ => simp only [Outcome.planned, reduceCtorEq]

theorem Outcome.planned_eq_skip {reason : SkipReason} :
    outcome.planned = .skip reason ↔ outcome = .skipped reason := by
  cases outcome with
  | succeeded => simp only [Outcome.planned, reduceCtorEq]
  | skipped _ => rw [Outcome.planned, PlannedStatus.skip.injEq, Outcome.skipped.injEq]
  | failed _ => simp only [Outcome.planned, reduceCtorEq]

theorem Outcome.planned_eq_fail : outcome.planned = .fail ↔ ∃ e, outcome = .failed e := by
  cases outcome with
  | succeeded => simp only [Outcome.planned, reduceCtorEq, exists_false]
  | skipped _ => simp only [Outcome.planned, reduceCtorEq, exists_false]
  | failed e => exact iff_of_true rfl ⟨e, rfl⟩

end Planned

variable {diff : StateDiff}

/-- The operations of a dry run are those of the preview's report. -/
theorem mem_previewReport {report : ApplyReport} {context : OperationContext}
    {status : PlannedStatus} : { context, status } ∈ (previewReport diff report).operations ↔
      ∃ outcome, report.Reports context outcome ∧ outcome.planned = status := by
  unfold previewReport
  simp only [List.mem_insertionSort, List.mem_append, List.mem_map, PlannedOperation.mk.injEq]
  constructor
  · rintro ((⟨_, hmem, rfl, rfl⟩ | ⟨entry, hmem, rfl, rfl⟩) | ⟨entry, hmem, rfl, rfl⟩)
    · exact ⟨.succeeded, hmem, rfl⟩
    · exact ⟨.skipped entry.reason, hmem, rfl⟩
    · exact ⟨.failed entry.error, hmem, rfl⟩
  · rintro ⟨outcome, hreports, rfl⟩
    cases outcome with
    | succeeded => exact Or.inl (Or.inl ⟨context, hreports, rfl, rfl⟩)
    | skipped reason => exact Or.inl (Or.inr ⟨_, hreports, rfl, rfl⟩)
    | failed e => exact Or.inr ⟨_, hreports, rfl, rfl⟩

/-- Recording an outcome adds its entry and no other. -/
theorem ApplyReport.reports_record {self : ApplyReport} {context added : OperationContext}
    {outcome recorded : Outcome} :
    (self.record added recorded).Reports context outcome ↔
      self.Reports context outcome ∨ (context = added ∧ outcome = recorded) := by
  cases recorded <;> cases outcome <;>
    simp [ApplyReport.record, ApplyReport.Reports]

/-- The entries of a report made of outcomes. -/
theorem reports_reportOutcomes {ops : List Operation} {outcomes : List Outcome} {index : Nat}
    {report : ApplyReport} {context : OperationContext} {outcome : Outcome} :
    (reportOutcomes ops outcomes index report).Reports context outcome ↔
      report.Reports context outcome ∨
        ∃ k op, ops[k]? = some op ∧ outcomes[k]? = some outcome ∧
          context = .new (index + k) op := by
  induction ops generalizing outcomes index report with
  | nil => simp [reportOutcomes]
  | cons op ops ih =>
      cases outcomes with
      | nil => simp [reportOutcomes]
      | cons first outcomes =>
          rw [reportOutcomes, ih, ApplyReport.reports_record, or_assoc]
          refine or_congr_right ?_
          constructor
          · rintro (⟨rfl, rfl⟩ | ⟨k, op', hop, hout, rfl⟩)
            · exact ⟨0, op, rfl, rfl, rfl⟩
            · exact ⟨k + 1, op', hop, hout, by rw [Nat.add_right_comm, Nat.add_assoc]⟩
          · rintro ⟨k, op', hop, hout, rfl⟩
            cases k with
            | zero =>
                rw [List.getElem?_cons_zero, Option.some.injEq] at hop hout
                subst hop
                exact Or.inl ⟨rfl, hout.symm⟩
            | succ k =>
                rw [List.getElem?_cons_succ] at hop hout
                exact Or.inr ⟨k, op', hop, hout, by rw [Nat.add_right_comm, Nat.add_assoc]⟩

theorem not_reports_empty {diagnostics : List Diagnostic} {context : OperationContext}
    {outcome : Outcome} : ¬ ({ diagnostics } : ApplyReport).Reports context outcome := by
  cases outcome <;> exact List.not_mem_nil

/-- A report made of outcomes gives each operation its own. -/
theorem reportsAt_reportOutcomes {outcomes : List Outcome} {diagnostics : List Diagnostic} {i : Nat}
    {outcome : Outcome} :
    (reportOutcomes diff.operations outcomes 0 { diagnostics }).ReportsAt diff i outcome ↔
      (∃ op, diff.operations[i]? = some op) ∧ outcomes[i]? = some outcome := by
  constructor
  · rintro ⟨op, hop, hreports⟩
    rcases reports_reportOutcomes.mp hreports with habs | ⟨k, op', _, hout, hcontext⟩
    · exact absurd habs not_reports_empty
    · have hindex : i = 0 + k := congrArg OperationContext.index hcontext
      rw [Nat.zero_add] at hindex
      subst hindex
      exact ⟨⟨op, hop⟩, hout⟩
  · rintro ⟨⟨op, hop⟩, hout⟩
    exact ⟨op, hop, reports_reportOutcomes.mpr (Or.inr ⟨i, op, hop, hout, by rw [Nat.zero_add]⟩)⟩

/-- The same of the report of a run. -/
theorem reportsAt_reportRun {outcomes : List Outcome} {execution : Execution} {i : Nat}
    {outcome : Outcome} : (reportRun diff outcomes execution).ReportsAt diff i outcome ↔
      (∃ op, diff.operations[i]? = some op) ∧ outcomes[i]? = some outcome := by
  have hsame : (reportRun diff outcomes execution).ReportsAt diff i outcome ↔
      (reportOutcomes diff.operations outcomes 0 {}).ReportsAt diff i outcome := by
    cases outcome <;> rfl
  rw [hsame, reportsAt_reportOutcomes]

variable {preview : Bool} {namespaceId : NamespaceId} {tr : List IoEvent}
  {report : ApplyReport} {h : List ExecRound}

namespace RunHistory

/-- An operation of the plan has a round. -/
theorem roundAt (hr : RunHistory diff preview namespaceId tr report h) {i : Nat} {op : Operation}
    (hop : diff.operations[i]? = some op) :
    ∃ r, RoundAt diff preview namespaceId h i op r := by
  rcases hr.history with ⟨s, hs, _⟩
  have hlt : i < h.length := by
    rw [hr.complete]
    exact (List.getElem?_eq_some_iff.mp hop).choose
  rcases hs.roundAt (List.getElem?_eq_getElem hlt) with ⟨op', hround⟩
  obtain rfl : op' = op := by
    have heq := hround.operation.symm.trans hop
    exact Option.some.inj heq
  exact ⟨_, hround⟩

/-- The entries of a report are the outcomes of the rounds. -/
theorem reports_iff (hr : RunHistory diff preview namespaceId tr report h)
    {context : OperationContext} {outcome : Outcome} : report.Reports context outcome ↔
      ∃ i op r, RoundAt diff preview namespaceId h i op r ∧ r.outcome = outcome ∧
        context = .new i op := by
  rcases hr.history with ⟨s, _, hreport⟩
  -- The report starts empty, so every entry is the outcome of a round.
  have hentries : (reportOutcomes diff.operations (h.map Round.outcome) 0 {}).Reports context
      outcome ↔ ({} : ApplyReport).Reports context outcome ∨
        ∃ k op, diff.operations[k]? = some op ∧ (h.map Round.outcome)[k]? = some outcome ∧
          context = .new (0 + k) op := reports_reportOutcomes
  simp only [Nat.zero_add, not_reports_empty, false_or] at hentries
  have hsame : report.Reports context outcome ↔
      (reportOutcomes diff.operations (h.map Round.outcome) 0 {}).Reports context outcome := by
    rw [hreport]
    cases outcome <;> rfl
  rw [hsame, hentries]
  constructor
  · rintro ⟨i, op, hop, hout, rfl⟩
    rcases hr.roundAt hop with ⟨r, hat⟩
    rw [List.getElem?_map, hat.round, Option.map_some, Option.some.injEq] at hout
    exact ⟨i, op, r, hat, hout, rfl⟩
  · rintro ⟨i, op, r, hat, rfl, rfl⟩
    exact ⟨i, op, hat.operation, by rw [List.getElem?_map, hat.round, Option.map_some], rfl⟩

/-- The outcome reported of an operation is the outcome of its round. -/
theorem reportsAt_iff (hr : RunHistory diff preview namespaceId tr report h) {i : Nat}
    {op : Operation} {r : ExecRound} (hround : RoundAt diff preview namespaceId h i op r)
    {outcome : Outcome} : report.ReportsAt diff i outcome ↔ r.outcome = outcome := by
  constructor
  · rintro ⟨op', _, hrep⟩
    rcases hr.reports_iff.mp hrep with ⟨k, _, r', hat, rfl, hcontext⟩
    obtain rfl : i = k := congrArg OperationContext.index hcontext
    have hsame : some r = some r' := hround.round.symm.trans hat.round
    rw [Option.some.inj hsame]
  · intro hout
    exact ⟨op, hround.operation, hr.reports_iff.mpr ⟨i, op, r, hround, hout, rfl⟩⟩

/-- An operation is eligible by the report when it is by the outcome of its
    round. -/
theorem eligible_eq (hr : RunHistory diff preview namespaceId tr report h) {i : Nat}
    {op : Operation} {r : ExecRound} (hround : RoundAt diff preview namespaceId h i op r) :
    report.eligible i = r.outcome.isEligible := by
  rw [Bool.eq_iff_iff, ApplyReport.eligible_iff]
  constructor
  · rintro ⟨context, outcome, hrep, rfl, helig⟩
    rcases hr.reports_iff.mp hrep with ⟨k, _, r', hat, rfl, rfl⟩
    have hsame : some r = some r' := hround.round.symm.trans hat.round
    rwa [Option.some.inj hsame]
  · intro helig
    have hrep := hr.reports_iff.mpr ⟨i, op, r, hround, rfl, rfl⟩
    exact ⟨.new i op, r.outcome, hrep, rfl, helig⟩

/-- The reports of two runs with the same outcomes say the same. -/
theorem reportsAt_congr {preview' : Bool} {tr' : List IoEvent} {report' : ApplyReport}
    {h' : List ExecRound} (hr : RunHistory diff preview namespaceId tr report h)
    (hr' : RunHistory diff preview' namespaceId tr' report' h')
    (houtcomes : h.map Round.outcome = h'.map Round.outcome) {i : Nat} {outcome : Outcome} :
    report.ReportsAt diff i outcome ↔ report'.ReportsAt diff i outcome := by
  -- Beyond the plan, neither report says anything.
  by_cases hi : ∃ op, diff.operations[i]? = some op
  · rcases hi with ⟨op, hop⟩
    rcases hr.roundAt hop with ⟨r, hat⟩
    rcases hr'.roundAt hop with ⟨r', hat'⟩
    rw [hr.reportsAt_iff hat, hr'.reportsAt_iff hat']
    have hsame := congrArg (fun outcomes => outcomes[i]?) houtcomes
    simp only [List.getElem?_map, hat.round, hat'.round, Option.map_some, Option.some.injEq]
      at hsame
    rw [hsame]
  · constructor
    · rintro ⟨op, hop, _⟩
      exact absurd ⟨op, hop⟩ hi
    · rintro ⟨op, hop, _⟩
      exact absurd ⟨op, hop⟩ hi

/-- An operation is reported with one outcome. -/
theorem reportsAt_unique (hr : RunHistory diff preview namespaceId tr report h) {i : Nat}
    {o₁ o₂ : Outcome} (h₁ : report.ReportsAt diff i o₁) (h₂ : report.ReportsAt diff i o₂) :
    o₁ = o₂ := by
  have hentry := h₁
  rcases hentry with ⟨op, hop, _⟩
  rcases hr.roundAt hop with ⟨r, hround⟩
  have heq₁ := (hr.reportsAt_iff hround).mp h₁
  have heq₂ := (hr.reportsAt_iff hround).mp h₂
  exact heq₁.symm.trans heq₂

end RunHistory

end Netfyr
