import Mathlib.Logic.Function.Basic
import Netfyr.Backend.Report

/-!
# The Backend Registry

Backends are registered, each for a network namespace and some device types, and
operations are routed to them by what they discover. A backend is a handle of a
type `β`, and handles are equal when they point to the same backend; what it
answers is a function of the handle, since a query is only routed by while its
answers do not change.

A query asks every backend of a namespace and merges their views: each interface
is listed once, at the place where it first came up, by its owner's view when an
owner saw it. The map of what was seen is a function here.

## Main definitions

* `NetworkBackend`: What a backend offers.
* `BackendRegistry.register`: Registration.
* `BackendRegistry.queryInNamespace`: The merged view.
* `BackendRegistry.select`: The backend of an operation in a view.
* `BackendRegistry.resolve`, `BackendRegistry.resolvePlan`: Routing an operation
  and a plan.
-/

namespace Netfyr

/-- What backends offer: the namespace each works in, the device types it may
    modify, the operations it supports, and its answers to queries. -/
structure NetworkBackend (β : Type) where
  namespaceId : β → NamespaceId
  supportedEntities : β → List String
  supportsOperation : β → OperationKind → Bool
  query : β → Match → Except BackendError Observation

/-- Backends by namespace and device type. -/
structure BackendRegistry (β : Type) where
  backends : List β

/-- How an interface is told from others: its namespace and index. -/
abbrev DeviceKey : Type := NamespaceId × UInt32

/-- The key of a device. -/
def DeviceObservation.key (self : DeviceObservation) : DeviceKey :=
  (self.identity.namespaceId, self.identity.index)

/-- The views merged so far. For a device that was seen, the map has its position
    and whether an owner saw it. -/
structure MergedViews where
  devices : List DeviceObservation := []
  diagnostics : List Diagnostic := []
  seen : DeviceKey → Option (Nat × Bool) := fun _ => none

/-- Take over a view of a device. -/
def MergedViews.insert (self : MergedViews) (device : DeviceObservation) (owned : Bool) :
    MergedViews :=
  match self.seen device.key with
  | some (position, false) =>
      if owned then
        -- The position was recorded when the device was pushed, so it is in range.
        { self with
          devices := self.devices.set position device
          seen := Function.update self.seen device.key (some (position, true)) }
      else self
  | some (_, true) => self
  | none =>
      { self with
        devices := self.devices ++ [device]
        seen := Function.update self.seen device.key (some (self.devices.length, owned)) }

namespace BackendRegistry

variable {β : Type} (io : NetworkBackend β)

/-- No backends. -/
def new : BackendRegistry β := { backends := [] }

/-- Add a backend. Two backends cannot own the same entity type in one
    namespace. -/
def register (self : BackendRegistry β) (backend : β) :
    Except BackendError Unit × BackendRegistry β :=
  let entities := io.supportedEntities backend
  if self.backends.any fun registered =>
      io.namespaceId registered == io.namespaceId backend &&
        (io.supportedEntities registered).any fun entity => entities.contains entity then
    (.error (.new .conflict "an entity type already has a backend in this namespace"), self)
  else (.ok (), { backends := self.backends ++ [backend] })

/-- Registrations one after another, whether or not they succeed. -/
def registerAll (self : BackendRegistry β) (backends : List β) : BackendRegistry β :=
  backends.foldl (fun registry backend => (registry.register io backend).2) self

/-- Whether a backend owns a device type. -/
def owns (backend : β) (deviceType : String) : Bool :=
  (io.supportedEntities backend).contains deviceType

/-- Take over the view a backend has of a device. -/
def mergeDevice (backend : β) (result : MergedViews) (device : DeviceObservation) :
    Except BackendError MergedViews :=
  if device.identity.namespaceId ≠ io.namespaceId backend then
    .error (.new .internal "backend returned an interface from another namespace")
  else .ok (result.insert device (owns io backend device.identity.deviceType))

/-- Take over the answer of a backend, one that found nothing counting as
    empty. -/
def mergeAnswer (backend : β) (result : MergedViews) :
    Except BackendError Observation → Except BackendError MergedViews
  | .error error => if error.kind = .notFound then .ok result else .error error
  | .ok observation =>
      observation.devices.foldlM (mergeDevice io backend)
        { result with diagnostics := result.diagnostics ++ observation.diagnostics }

/-- Ask every backend, or every one of a namespace, keeping the type owner's view
    of each device. -/
def queryInNamespace (self : BackendRegistry β) (selector : Match)
    (namespaceId : Option NamespaceId) : Except BackendError Observation := do
  let backends := self.backends.filter fun backend =>
    match namespaceId with
    | none => true
    | some namespaceId => namespaceId == io.namespaceId backend
  let result ← backends.foldlM
    (fun result backend => mergeAnswer io backend result (io.query backend selector)) {}
  if selector.name.isSome && result.devices.isEmpty then
    .error (.new .notFound "named interface was not found in the registered namespaces")
  else .ok { devices := result.devices, diagnostics := result.diagnostics }

/-- The device of a target in an observation, by namespace and name. -/
def discovered (observation : Observation) (target : InterfaceId) : Option DeviceObservation :=
  observation.devices.find? fun device =>
    device.identity.namespaceId == target.namespaceId && device.identity.name == target.name

/-- The backend of an operation, as an observation has it. -/
def select (self : BackendRegistry β) (context : OperationContext) (observation : Observation) :
    Except BackendError β :=
  let target := context.target
  match discovered observation target with
  | none => .error ((BackendError.new .notFound "target interface was not found").at context)
  | some device =>
      let owner := self.backends.find? fun backend =>
        io.namespaceId backend == device.identity.namespaceId &&
          owns io backend device.identity.deviceType
      match owner with
      | none =>
          .error ((BackendError.new .unsupportedEntityType
            s!"no backend supports {device.identity.deviceType}").at context)
      | some backend =>
          if device.identity ≠ target then
            .error ((BackendError.new .staleState
              "target identity differs from the discovered interface").at context)
          else if !io.supportsOperation backend context.kind then
            .error ((BackendError.new .unsupportedOperation
              s!"backend does not support {context.kind.kindName}").at context)
          else .ok backend

/-- The selector of an interface by its name. -/
def nameSelector (name : String) : Match := { name := some name }

/-- Resolve an operation's backend from discovery. -/
def resolve (self : BackendRegistry β) (index : Nat) (operation : Operation) :
    Except BackendError β := do
  let context := OperationContext.new index operation
  let observation ← (self.queryInNamespace io (nameSelector operation.target.name)
    (some operation.target.namespaceId)).mapError (·.at context)
  self.select io context observation

/-- The observation of a namespace, made when it is first asked for. -/
def observeNamespace (self : BackendRegistry β) (context : OperationContext)
    (observations : NamespaceId → Option Observation) (namespaceId : NamespaceId) :
    Except BackendError Observation :=
  match observations namespaceId with
  | some observation => .ok observation
  | none => (self.queryInNamespace io {} (some namespaceId)).mapError (·.at context)

/-- Resolve the operations of a plan from a position on, given the observations
    made and the backend resolved so far. -/
def resolveOperations [DecidableEq β] (self : BackendRegistry β) :
    List Operation → Nat → (NamespaceId → Option Observation) → Option β →
      Except BackendError (Option β)
  | [], _, _, resolved => .ok resolved
  | operation :: operations, index, observations, resolved => do
      let context := OperationContext.new index operation
      let namespaceId := operation.target.namespaceId
      let observation ← self.observeNamespace io context observations namespaceId
      let backend ← self.select io context observation
      let observations := Function.update observations namespaceId (some observation)
      match resolved with
      | some first =>
          if first ≠ backend then
            .error ((BackendError.new .unsupportedOperation
              "plan operations resolve to different backends; split it by backend").at context)
          else self.resolveOperations operations (index + 1) observations (some first)
      | none => self.resolveOperations operations (index + 1) observations (some backend)

/-- Resolve a whole plan; operations that span backends are rejected. -/
def resolvePlan [DecidableEq β] (self : BackendRegistry β) (diff : StateDiff) :
    Except BackendError β := do
  let resolved ← self.resolveOperations io diff.operations 0 (fun _ => none) none
  match resolved with
  | some backend => .ok backend
  | none => .error (.new .notFound "plan has no operations")

end BackendRegistry

end Netfyr
