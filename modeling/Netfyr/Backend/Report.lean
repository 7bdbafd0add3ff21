import Mathlib.Data.List.Sort
import Netfyr.State.Plan

/-!
# Errors and Reports

What a backend reports about a plan. Every operation of a plan ends in one
`Outcome`; the apply report sorts the outcomes into three lists, and the dry-run
report puts them back into plan order.

## Main definitions

* `BackendErrorKind`, `BackendError`: A failure, as callers see it.
* `SkipReason`, `Outcome`: How an operation ended.
* `ApplyReport`, `DryRunReport`: The two reports, each with its `isSuccess`.
* `previewReport`: The dry-run report made of a preview's apply report.
-/

namespace Netfyr

/-- The kinds of failure. -/
inductive BackendErrorKind where
  | unsupportedEntityType
  | unsupportedOperation
  | queryFailed
  | applyFailed
  | outcomeUnknown
  | notFound
  | permissionDenied
  | staleState
  | conflict
  | internal
  deriving DecidableEq

/-- The operation a report entry is about. -/
structure OperationContext where
  index : Nat
  target : InterfaceId
  kind : OperationKind
  deriving DecidableEq

/-- The context of an operation of a plan. -/
def OperationContext.new (index : Nat) (operation : Operation) : OperationContext :=
  { index, target := operation.target, kind := operation.kind }

/-- A failure of a backend. -/
structure BackendError where
  kind : BackendErrorKind
  message : String
  errno : Option Int
  extack : Option String
  context : Option OperationContext
  deriving DecidableEq

/-- A failure without kernel details or context. -/
def BackendError.new (kind : BackendErrorKind) (message : String) : BackendError :=
  { kind, message, errno := none, extack := none, context := none }

@[simp] theorem BackendError.new_kind (kind : BackendErrorKind) (message : String) :
    (BackendError.new kind message).kind = kind := rfl

/-- The failure as one of an operation. -/
def BackendError.at (self : BackendError) (context : OperationContext) : BackendError :=
  { self with context := some context }

/-- Why an operation was skipped. -/
inductive SkipReason where
  | alreadySatisfied
  | readOnly
  | dependencyFailed (operations : List Nat)
  deriving DecidableEq

/-- How an operation ended. -/
inductive Outcome where
  | succeeded
  | skipped (reason : SkipReason)
  | failed (error : BackendError)
  deriving DecidableEq

/-- A failed operation with its error. -/
structure FailedOperation where
  context : OperationContext
  error : BackendError
  deriving DecidableEq

/-- A skipped operation with the reason. -/
structure SkippedOperation where
  context : OperationContext
  reason : SkipReason
  deriving DecidableEq

/-- The result of applying a plan. -/
structure ApplyReport where
  succeeded : List OperationContext := []
  failed : List FailedOperation := []
  skipped : List SkippedOperation := []
  diagnostics : List Diagnostic := []

/-- Add the outcome of an operation to a report. -/
def ApplyReport.record (self : ApplyReport) (context : OperationContext) : Outcome → ApplyReport
  | .succeeded => { self with succeeded := self.succeeded ++ [context] }
  | .skipped reason => { self with skipped := self.skipped ++ [{ context, reason }] }
  | .failed error => { self with failed := self.failed ++ [{ context, error }] }

/-- Whether nothing failed, and nothing was skipped for a failed dependency. -/
def noFailures (failed : List FailedOperation) (skips : List (Option SkipReason)) : Bool :=
  failed.isEmpty && !skips.any fun
    | some (.dependencyFailed _) => true
    | _ => false

/-- Whether nothing failed or was blocked by a failed dependency. -/
def ApplyReport.isSuccess (self : ApplyReport) : Bool :=
  noFailures self.failed (self.skipped.map fun entry => some entry.reason)

/-- The status of an operation in a dry run. -/
inductive PlannedStatus where
  | write
  | skip (reason : SkipReason)
  | fail
  deriving DecidableEq

/-- An operation of a dry run. -/
structure PlannedOperation where
  context : OperationContext
  status : PlannedStatus
  deriving DecidableEq

/-- The result of a dry run. -/
structure DryRunReport where
  changes : List FieldChange
  operations : List PlannedOperation
  diagnostics : List Diagnostic
  failed : List FailedOperation

/-- Whether nothing would fail or be blocked by a failed dependency. -/
def DryRunReport.isSuccess (self : DryRunReport) : Bool :=
  noFailures self.failed (self.operations.map fun entry =>
    match entry.status with
    | .skip reason => some reason
    | _ => none)

/-- The dry-run report of a preview: every operation with its status, in plan
    order. -/
def previewReport (diff : StateDiff) (report : ApplyReport) : DryRunReport :=
  let operations :=
    (report.succeeded.map fun context => { context, status := .write }) ++
      (report.skipped.map fun entry =>
        { context := entry.context, status := .skip entry.reason }) ++
      (report.failed.map fun entry => { context := entry.context, status := .fail })
  { changes := diff.changes
    operations := operations.insertionSort fun a b => a.context.index ≤ b.context.index
    failed := report.failed
    diagnostics := report.diagnostics }

end Netfyr
