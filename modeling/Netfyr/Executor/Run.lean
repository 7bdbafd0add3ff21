import Netfyr.Executor.Decode
import Netfyr.Executor.Group
import Netfyr.Interact.Action
import Netfyr.Interact.Rounds

/-!
# The Executor

The main loop: operations in plan order, each stepped when its dependencies
were. The transport, the clock and the cancellation predicate are calls, so a
theorem about every run is one about every way these can behave. The state of
the loop is what the source's `Execution` mutates; the plan, the mode and the
namespace never change and are parameters.

An operation's step observes, decides on the observation alone, and then either
projects the write onto the cached observation (preview) or performs it (apply).
The decision is the pure function `check`.

Indexing out of range is a fault of the program, so "no index is out of range"
is `Program.Safe` of `run`.

## Main definitions

* `IoCall`, `IoAnswer`: The calls and their answers.
* `Execution`: The mutable state.
* `check`: The decision on an observation.
* `verifyObservation`: The decision on the observation after a write.
* `step`: One operation.
* `run`: A whole plan.
* `applyPlan`, `previewPlan`: The two entry points.
-/

namespace Netfyr

open Interact

/-- The calls of the executor. -/
inductive IoCall where
  | inventory
  | execute (target : InterfaceId) (kind : OperationKind)
  | now
  | cancelled
  deriving DecidableEq

/-- How each call is answered. -/
abbrev IoAnswer : IoCall → Type
  | .inventory => Except BackendError Observation
  | .execute _ _ => Except BackendError Unit
  | .now => Instant
  | .cancelled => Bool

/-- One call with its answer. -/
abbrev IoEvent : Type := Event IoCall IoAnswer

/-- What the executor mutates. `current` is valid until the next write; preview
    projects onto it instead. -/
structure Execution where
  groups : Groups
  eligible : List Bool
  current : Option Observation
  diagnostics : List Diagnostic

/-- A procedure of the executor. -/
abbrev Exec (α : Type) : Type := Action IoCall IoAnswer Execution BackendError α

/-- Ask the transport for an inventory. -/
abbrev inventory : Exec (Except BackendError Observation) := Action.perform IoCall.inventory

/-- Ask the transport for a write. -/
abbrev execute (target : InterfaceId) (kind : OperationKind) : Exec (Except BackendError Unit) :=
  Action.perform (IoCall.execute target kind)

/-- Read the clock. -/
abbrev readClock : Exec Instant := Action.perform IoCall.now

/-- Ask whether the run is cancelled. -/
abbrev isCancelled : Exec Bool := Action.perform IoCall.cancelled

/-- A write acknowledged but not confirmed. -/
def unconfirmed (message : String) (cause : BackendError) : BackendError :=
  { BackendError.new .outcomeUnknown s!"{message}: {cause.message}" with
    errno := cause.errno
    extack := cause.extack }

/-- The error of a cancelled operation. -/
def cancelledError (message : String) : BackendError := .new .applyFailed message

namespace Execution

/-- Take over the diagnostics of an observation that are new. -/
def absorb (self : Execution) (observation : Observation) : Execution :=
  { self with
    diagnostics := observation.diagnostics.foldl
      (fun known diagnostic => if known.contains diagnostic then known else known ++ [diagnostic])
      self.diagnostics }

end Execution

/-- The cached observation, or a new one. -/
def observe : Exec Observation := do
  let execution ← Action.get
  match execution.current with
  | some observation => pure observation
  | none => do
      let answer ← inventory
      let observation ← Action.ofExcept answer
      Action.modify fun execution =>
        { execution.absorb observation with current := some observation }
      pure observation

/-- What is to become of an observed operation: nothing, or the write of a kind
    to the device at a position. -/
inductive Verdict where
  | skip (reason : SkipReason)
  | write (position : Nat) (device : DeviceObservation) (kind : OperationKind)

/-- Decide on an operation from an observation: the part of a step between
    observing and writing. Groups may be established also when it fails. -/
def check (diff : StateDiff) (namespaceId : NamespaceId) (index : Nat) (op : Operation)
    (decoded : Option OperationKind) (observation : Observation) (groups : Groups)
    (eligible : List Bool) : Option (Except BackendError Verdict × Groups) :=
  match locate observation op.target namespaceId with
  | .error e => some (.error e, groups)
  | .ok position =>
      match observation.devices[position]? with
      | none => none
      | some device =>
          match decoded with
          -- Decoding yields no kind for a read-only field.
          | none => some (.ok (.skip .readOnly), groups)
          | some kind =>
              match validateGroup op device kind groups with
              | (.error e, groups) => some (.error e, groups)
              | (.ok (), groups) =>
                  match satisfied kind device op with
                  | .error e => some (.error e, groups)
                  | .ok true => some (.ok (.skip .alreadySatisfied), groups)
                  | .ok false =>
                      match checkCascade diff index device kind eligible with
                      | none => none
                      | some (.error e) => some (.error e, groups)
                      | some (.ok ()) => some (.ok (.write position device kind), groups)

/-- Whether no member of a group has the identity of an entry. -/
def absentFrom (actualGroup : List AddressObservation) (entry : AddressObservation) : Bool :=
  !actualGroup.any fun other => entry.address.sameIdentity other.address

/-- Expect the first member as a primary when it is one now: with
    promote_secondaries the surviving first member becomes primary. -/
def promoteFirst (expected actualGroup : List AddressObservation) : List AddressObservation :=
  match expected, actualGroup with
  | first :: rest, actualFirst :: _ =>
      if first.address.sameIdentity actualFirst.address && !actualFirst.isSecondary then
        { first with flags := first.flags &&& ~~~ifaFSecondary } :: rest
      else expected
  | _, _ => expected

/-- The members a write is expected to leave in a group: after a removal, those
    that are absent, secondary and covered are not expected. -/
def expectedMembers (diff : StateDiff) (index : Nat) (op : Operation) (kind : OperationKind)
    (expected actualGroup : List AddressObservation) (eligible : List Bool) :
    Option (List AddressObservation) :=
  match kind with
  | .removeIpv4 _ =>
      (Checked.filterChecked
        (fun entry =>
          if absentFrom actualGroup entry && entry.isSecondary then
            (removalIsCovered diff index op.target entry.address eligible).map not
          else some true)
        expected).map (promoteFirst · actualGroup)
  | _ => some expected

/-- Whether every predicted address outside a group is still there. -/
def outsideSurvives (predicted actual : DeviceObservation) (key : GroupKey) : Bool :=
  (predicted.addresses.filter fun entry => !key.contains entry.address).all fun entry =>
    actual.addresses.any fun other => entry.address.sameIdentity other.address

/-- Decide whether the observation after a write shows what was predicted. -/
def verifyObservation (diff : StateDiff) (namespaceId : NamespaceId) (index : Nat) (op : Operation)
    (kind : OperationKind) (addr : Ipv4Address) (predicted : DeviceObservation)
    (after : Observation) (eligible : List Bool) :
    Option (Except BackendError DeviceObservation) :=
  match locate after op.target namespaceId with
  | .error e => some (.error e)
  | .ok position =>
      match after.devices[position]? with
      | none => none
      | some actual =>
          if actual.addressesComplete = false then
            some (.error (.new .outcomeUnknown
              "write acknowledged but the address inventory is incomplete"))
          else
            match GroupKey.new op addr with
            | .error e => some (.error e)
            | .ok key =>
                let actualGroup := groupAddresses actual key
                match expectedMembers diff index op kind (groupAddresses predicted key) actualGroup
                    eligible with
                | none => none
                | some members =>
                    let expected : ExpectedGroup :=
                      { addresses := members, observedAt := predicted.observedAt }
                    if groupMatches expected actualGroup actual.observedAt &&
                        outsideSurvives predicted actual key then
                      some (.ok actual)
                    else some (.error (.new .staleState
                      "addresses changed unexpectedly during the write; earlier changes may have applied"))

/-- Observe the device again after an address write. -/
def verifyAddressWrite (diff : StateDiff) (namespaceId : NamespaceId) (index : Nat)
    (op : Operation) (kind : OperationKind) (addr : Ipv4Address) (predicted : DeviceObservation) :
    Exec DeviceObservation := do
  let answer ← inventory
  let after ← Action.ofExcept (answer.mapError fun e =>
    unconfirmed "write acknowledged but not re-observed" e)
  Action.modify fun execution => execution.absorb after
  let execution ← Action.get
  let verified ← Action.ofOption
    (verifyObservation diff namespaceId index op kind addr predicted after execution.eligible)
  let actual ← Action.ofExcept verified
  Action.modify fun execution => { execution with current := some after }
  pure actual

/-- Preview a write: project it onto the cached observation. -/
def previewWrite (position : Nat) (device : DeviceObservation) (kind : OperationKind) :
    Exec DeviceObservation := do
  let now ← readClock
  let predicted := project (rebaseLifetimes device now) kind
  Action.modify fun execution =>
    { execution with current := execution.current.map fun observation =>
        { observation with devices := observation.devices.set position predicted } }
  pure predicted

/-- Perform a write: drop the cached observation, execute, and observe the
    device again when it was about an address. -/
def performWrite (diff : StateDiff) (namespaceId : NamespaceId) (index : Nat) (op : Operation)
    (device : DeviceObservation) (kind : OperationKind) : Exec DeviceObservation := do
  let cancelled ← isCancelled
  Action.failWhen cancelled (cancelledError "plan execution cancelled before write")
  -- From here on the cached observation may be out of date.
  Action.modify fun execution => { execution with current := none }
  let answer ← execute op.target kind
  Action.ofExcept answer
  let now ← readClock
  let predicted := project (rebaseLifetimes device now) kind
  match kind.ipv4Address with
  | some addr => verifyAddressWrite diff namespaceId index op kind addr predicted
  | none => pure predicted

/-- Carry out a write, or preview it. -/
def carryOut (diff : StateDiff) (preview : Bool) (namespaceId : NamespaceId) (index : Nat)
    (op : Operation) (position : Nat) (device : DeviceObservation) (kind : OperationKind) :
    Exec DeviceObservation :=
  if preview then previewWrite position device kind
  else performWrite diff namespaceId index op device kind

/-- Keep an established group in step with what a write left of it. -/
def updateGroups (groups : Groups) (key : Option GroupKey) (predicted : DeviceObservation) :
    Groups :=
  match key with
  | none => groups
  | some key =>
      match groups key with
      | none => groups
      -- A group not yet established is left for its first operation.
      | some _ => Function.update groups key (some
          { addresses := groupAddresses predicted key, observedAt := predicted.observedAt })

/-- The group of a kind, when it is about an address. -/
def groupKey (op : Operation) (kind : OperationKind) : Except BackendError (Option GroupKey) :=
  match kind.ipv4Address with
  | none => .ok none
  | some addr =>
      match GroupKey.new op addr with
      | .error e => .error e
      | .ok key => .ok (some key)

/-- Account for a write: report its side effect, and update its group. -/
def commit (op : Operation) (device : DeviceObservation) (kind : OperationKind)
    (predicted : DeviceObservation) : Exec Unit := do
  Action.modify fun execution =>
    { execution with diagnostics := execution.diagnostics ++ (collateral device kind).toList }
  let key ← Action.ofExcept (groupKey op kind)
  Action.modify fun execution =>
    { execution with groups := updateGroups execution.groups key predicted }

/-- One operation: `none` when it was written, the reason when it was skipped. -/
def step (diff : StateDiff) (preview : Bool) (namespaceId : NamespaceId) (index : Nat)
    (op : Operation) : Exec (Option SkipReason) := do
  let cancelled ← isCancelled
  Action.failWhen cancelled
    (cancelledError "plan execution cancelled; earlier writes may have applied")
  let decoded ← Action.ofExcept (decode op.kind .new)
  let observation ← observe
  let execution ← Action.get
  let checked ← Action.ofOption
    (check diff namespaceId index op decoded observation execution.groups execution.eligible)
  Action.modify fun execution => { execution with groups := checked.2 }
  let verdict ← Action.ofExcept checked.1
  match verdict with
  | .skip reason => pure (some reason)
  | .write position device kind => do
      let predicted ← carryOut diff preview namespaceId index op position device kind
      commit op device kind predicted
      pure none

/-- The dependencies of an operation that are not eligible, in order. -/
def blockedBy (eligible : List Bool) (op : Operation) : Option (List Nat) :=
  Checked.filterChecked (fun dependency => eligible[dependency]?.map not) op.dependsOn

/-- One round of the loop: refuse malformed dependencies, skip a blocked
    operation, step any other. -/
def runOperation (diff : StateDiff) (preview : Bool) (namespaceId : NamespaceId) (index : Nat)
    (op : Operation) (execution : Execution) :
    Program IoCall IoAnswer (Outcome × Execution) :=
  if op.dependsOn.any fun dependency => index ≤ dependency then
    pure (.failed (.new .unsupportedOperation
      "dependencies must identify earlier operation indices"), execution)
  else
    match blockedBy execution.eligible op with
    | none => .fault
    | some blocked =>
        if blocked ≠ [] then pure (.skipped (.dependencyFailed blocked), execution)
        else do
          let (result, execution) ← step diff preview namespaceId index op execution
          match result with
          | .error e => pure (.failed e, execution)
          | .ok skip =>
              -- The source indexes `eligible`, so a run out of range is a fault here.
              if index < execution.eligible.length then
                let execution := { execution with eligible := execution.eligible.set index true }
                match skip with
                | some reason => pure (.skipped reason, execution)
                | none => pure (.succeeded, execution)
              else .fault

/-- The state the loop starts from. -/
def Execution.start (diff : StateDiff) : Execution :=
  { groups := fun _ => none
    eligible := List.replicate diff.operations.length false
    current := none
    diagnostics := diff.diagnostics }

/-- The report of the outcomes of a plan's operations, the first being number
    `index`. -/
def reportOutcomes : List Operation → List Outcome → Nat → ApplyReport → ApplyReport
  | op :: ops, outcome :: outcomes, index, report =>
      reportOutcomes ops outcomes (index + 1) (report.record (.new index op) outcome)
  | _, _, _, report => report

/-- The outcome of an operation of a plan that could not be run: it failed, or
    what it depends on did. -/
def failedOutcome (failure : BackendError) (op : Operation) : Outcome :=
  if op.dependsOn.isEmpty then .failed failure else .skipped (.dependencyFailed op.dependsOn)

/-- The report of a plan that could not be run. -/
def failedReport (diff : StateDiff) (failure : BackendError) : ApplyReport :=
  reportOutcomes diff.operations (diff.operations.map (failedOutcome failure)) 0
    { diagnostics := diff.diagnostics }

/-- The report of a run. -/
def reportRun (diff : StateDiff) (outcomes : List Outcome) (execution : Execution) : ApplyReport :=
  { reportOutcomes diff.operations outcomes 0 {} with diagnostics := execution.diagnostics }

/-- The loop over a plan's operations. -/
def runLoop (diff : StateDiff) (preview : Bool) (namespaceId : NamespaceId) :
    Program IoCall IoAnswer (List Outcome × Execution) :=
  loop (runOperation diff preview namespaceId) 0 diff.operations (.start diff)

/-- Run a plan. -/
def run (diff : StateDiff) (preview : Bool) (namespaceId : NamespaceId) :
    Program IoCall IoAnswer ApplyReport := do
  let (outcomes, execution) ← runLoop diff preview namespaceId
  pure (reportRun diff outcomes execution)

/-- Apply a plan. -/
def applyPlan (diff : StateDiff) (namespaceId : NamespaceId) :
    Program IoCall IoAnswer ApplyReport :=
  run diff false namespaceId

/-- Preview a plan; a preview is never cancelled. -/
def previewPlan (diff : StateDiff) (namespaceId : NamespaceId) :
    Program IoCall IoAnswer DryRunReport := do
  let report ← (run diff true namespaceId).resolve fun
    | .cancelled => some false
    | _ => none
  pure (previewReport diff report)

end Netfyr
