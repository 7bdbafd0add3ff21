import Mathlib.Logic.Function.Basic
import Netfyr.Backend.Report
import Netfyr.Data.Checked
import Netfyr.Data.Lists
import Netfyr.Executor.Lifetimes

/-!
# Address Groups

The checks on an address operation before it is written, and what the write is
expected to do. A prefix group is established by a caller's precondition, held
in a map from `GroupKey`, and compared with every inventory before the group is
touched again; the map is a function here, since only lookup and insertion are
used of it.

The look-ahead of `removalIsCovered` runs the executor's own eligibility rule
forward over the operations still to come, pretending that the current one
succeeds. Its indexed accesses are options, `none` standing for a panic.

## Main definitions

* `GroupKey`, `ExpectedGroup`, `Groups`: The established groups.
* `validateGroup`: The group check, which may establish a group.
* `satisfied`: Whether there is nothing to do.
* `removalIsCovered`, `checkCascade`: The check of a primary's removal.
* `project`: What a write does to a device.
* `rebaseLifetimes`: A device at a later time.
-/

namespace Netfyr

/-- A prefix group as it was last known. -/
structure ExpectedGroup where
  addresses : List AddressObservation
  observedAt : Instant
  deriving DecidableEq

/-- The prefix group of a target. -/
structure GroupKey where
  target : InterfaceId
  network : Ipv4Addr
  prefixLen : UInt8
  deriving DecidableEq

/-- The established groups. -/
abbrev Groups : Type := GroupKey → Option ExpectedGroup

namespace GroupKey

/-- The group an operation on an address is about. -/
def new (op : Operation) (addr : Ipv4Address) : Except BackendError GroupKey :=
  match addr.group with
  | none => .error (.new .unsupportedOperation "invalid prefix")
  | some (network, prefixLen) => .ok { target := op.target, network, prefixLen }

/-- Whether an address lies in the group. -/
def contains (self : GroupKey) (address : Ipv4Address) : Bool :=
  address.group == some (self.network, self.prefixLen)

end GroupKey

/-- The members of a group on a device, in order. -/
def groupAddresses (device : DeviceObservation) (key : GroupKey) : List AddressObservation :=
  device.addresses.filter fun entry => key.contains entry.address

/-- Whether observed members are those expected, one by one, now. -/
def groupMatches (expected : ExpectedGroup) (actual : List AddressObservation) (now : Instant) :
    Bool :=
  let elapsed := now - expected.observedAt
  expected.addresses.length == actual.length &&
    (expected.addresses.zip actual).all fun (old, new) => addressMatches old new elapsed

/-- Whether an operation removes or replaces an address. -/
def OperationKind.isDestructive : OperationKind → Bool
  | .removeIpv4 _ | .replaceIpv4 _ => true
  | _ => false

/-- Whether a device has an address of the same identity. -/
def hasAddress (device : DeviceObservation) (addr : Ipv4Address) : Bool :=
  device.addresses.any fun entry => entry.address.sameIdentity addr

/-- A precondition as the group it describes. -/
def AddressGroupPrecondition.expected (self : AddressGroupPrecondition) : ExpectedGroup :=
  { addresses := self.addresses, observedAt := self.observedAt }

/-- An operation's precondition establishes its group, unless one is already. -/
def establish (op : Operation) (key : GroupKey) (groups : Groups) : Groups :=
  match op.addressGroup, groups key with
  | some precondition, none => Function.update groups key (some precondition.expected)
  | _, _ => groups

/-- Whether an operation's precondition describes another group. -/
def describesOther (op : Operation) (key : GroupKey) : Bool :=
  match op.addressGroup with
  | some precondition => precondition.addresses.any fun entry => !key.contains entry.address
  | none => false

/-- Check a group as it is against what is expected of it; where nothing is, an
    existing address may not be removed or replaced. -/
def checkExpected (device : DeviceObservation) (kind : OperationKind) (addr : Ipv4Address)
    (key : GroupKey) : Option ExpectedGroup → Except BackendError Unit
  | some expected =>
      if groupMatches expected (groupAddresses device key) device.observedAt then .ok ()
      else .error (.new .staleState
        "address group membership, ordering or attributes changed; obtain a fresh plan")
  | none =>
      if kind.isDestructive && hasAddress device addr then
        .error (.new .staleState
          "destructive address operation requires a complete group precondition")
      else .ok ()

/-- Check the group of an address operation. Only a caller precondition
    establishes a group, so removing or replacing an existing address needs one
    on this operation or an earlier one. -/
def validateGroup (op : Operation) (device : DeviceObservation) (kind : OperationKind)
    (groups : Groups) : Except BackendError Unit × Groups :=
  match kind.ipv4Address with
  | none => (.ok (), groups)
  | some addr =>
      if device.addressesComplete = false then
        (.error (.new .queryFailed "IPv4 inventory is incomplete"), groups)
      else
        match GroupKey.new op addr with
        | .error e => (.error e, groups)
        | .ok key =>
            if describesOther op key then
              (.error (.new .staleState
                "address precondition describes a different prefix group"), groups)
            else
              -- The group stays established when the comparison fails.
              let groups := establish op key groups
              (checkExpected device kind addr key (groups key), groups)

/-- The time since a precondition was observed, when it lists this very
    address. -/
def preconditionAge (op : Operation) (addr : Ipv4Address) (now : Instant) : Option Duration :=
  match op.addressGroup with
  | none => none
  | some group =>
      if group.addresses.any fun entry => entry.address == addr then some (now - group.observedAt)
      else none

/-- Whether an existing address has the lifetimes asked for. -/
def lifetimesEqual (addr existing : Ipv4Address) (age : Option Duration) : Bool :=
  let (valid, preferred) := addr.lifetimes
  let (actualValid, actualPreferred) := existing.lifetimes
  match age with
  | some elapsed =>
      lifetimeMatches valid actualValid elapsed && lifetimeMatches preferred actualPreferred elapsed
  | none => valid == actualValid && preferred == actualPreferred

/-- Whether a device already is as an operation would make it. -/
def satisfied (kind : OperationKind) (device : DeviceObservation) (op : Operation) :
    Except BackendError Bool :=
  match kind with
  | .setMtu mtu => .ok (device.state.fields.get? "mtu" == some (.u64 mtu.toUInt64))
  | .setEnabled enabled => .ok (device.state.fields.get? "enabled" == some (.bool enabled))
  | .removeIpv4 addr => .ok (!hasAddress device addr)
  | .addIpv4 addr =>
      match device.addresses.find? fun entry => entry.address.sameIdentity addr with
      | none => .ok false
      | some existing =>
          if lifetimesEqual addr existing.address (preconditionAge op addr device.observedAt) then
            .ok true
          else .error (.new .applyFailed
            "address exists with different lifetimes; an explicit replacement is required")
  | .replaceIpv4 addr =>
      match device.addresses.find? fun entry => entry.address.sameIdentity addr with
      | none => .error (.new .notFound "address replacement requires an existing address")
      | some existing =>
          .ok (lifetimesEqual addr existing.address
            (preconditionAge op addr device.observedAt))
  | _ => .ok false

/-- Extend eligibility over the operations from a position on: each is runnable
    when its dependencies are earlier and runnable. -/
def extendRunnable : List Operation → Nat → List Bool → Option (List Bool)
  | [], _, runnable => some runnable
  | op :: ops, position, runnable =>
      match Checked.allChecked
          (fun dependency => if dependency < position then runnable[dependency]? else some false)
          op.dependsOn with
      | none => none
      | some ready => extendRunnable ops (position + 1) (runnable ++ [ready])

/-- Whether an operation removes this address from this target. -/
def removesAddress (op : Operation) (target : InterfaceId) (addr : Ipv4Address) : Bool :=
  op.target == target &&
    match op.kind with
    | .removeIpv4 other => addr.sameIdentity other
    | _ => false

/-- Whether a later operation of the plan removes an address and will run, if
    this one succeeds. -/
def removalIsCovered (diff : StateDiff) (index : Nat) (target : InterfaceId) (addr : Ipv4Address)
    (eligible : List Bool) : Option Bool :=
  if eligible.length < index then none
  else
    match extendRunnable (diff.operations.drop (index + 1)) (index + 1)
        (eligible.take index ++ [true]) with
    | none => none
    | some runnable =>
        Checked.anyChecked
          (fun entry => match runnable[entry.2]? with
            | none => none
            | some ready => some (ready && removesAddress entry.1 target addr))
          (diff.operations.zipIdx.drop (index + 1))

/-- Whether an address is a secondary. -/
def AddressObservation.isSecondary (self : AddressObservation) : Bool :=
  self.flags &&& ifaFSecondary != 0

/-- Whether the kernel deletes or promotes an address when it deletes the given
    primary. -/
def AddressObservation.cascadesWith (self primary : AddressObservation) : Bool :=
  self.isSecondary &&
    ((self.kernelGroup, self.scope) == (primary.kernelGroup, primary.scope))

/-- Whether a secondary would be lost with its primary and nothing in the plan
    accounts for that. -/
def isUncovered (diff : StateDiff) (index : Nat) (device : DeviceObservation) (addr : Ipv4Address)
    (eligible : List Bool) (primary secondary : AddressObservation) : Option Bool :=
  if secondary.cascadesWith primary = false then some false
  else if secondary.address.group ≠ addr.group then some true
  else (removalIsCovered diff index device.identity secondary.address eligible).map not

/-- Check the removal of a primary: the kernel deletes or promotes its
    secondaries, so each must be removed later in the plan, and within the
    primary's local prefix group. -/
def checkCascade (diff : StateDiff) (index : Nat) (device : DeviceObservation)
    (kind : OperationKind) (eligible : List Bool) : Option (Except BackendError Unit) :=
  match kind with
  | .removeIpv4 addr =>
      match device.addresses.find? fun entry =>
          entry.address.sameIdentity addr && !entry.isSecondary with
      | none => some (.ok ())
      | some primary =>
          match Checked.anyChecked (isUncovered diff index device addr eligible primary)
              device.addresses with
          | none => none
          | some true => some (.error (.new .staleState
              ("primary removal could delete a secondary outside its executable prefix-group plan; " ++
                "remove peer-group secondaries first")))
          | some false => some (.ok ())
  | _ => some (.ok ())

/-- The flags the kernel derives from lifetimes. -/
def lifetimeFlags (addr : Ipv4Address) : BitVec 32 :=
  let (valid, preferred) := addr.lifetimes
  (if valid = u32Max then ifaFPermanent else 0) ||| (if preferred = 0 then ifaFDeprecated else 0)

/-- The entry an added address is expected to get. -/
def addedEntry (device : DeviceObservation) (addr : Ipv4Address) : AddressObservation :=
  let secondary := device.addresses.any fun entry => entry.kernelGroup == addr.group
  { address := addr
    flags := lifetimeFlags addr ||| (if secondary then ifaFSecondary else 0)
    scope := if addr.ip.isLoopback then rtScopeHost else 0
    peer := none }

/-- The entry a replaced address is expected to become. -/
def replacedEntry (existing : AddressObservation) (addr : Ipv4Address) : AddressObservation :=
  { existing with
    address := addr
    flags := (existing.flags &&& ~~~(ifaFPermanent ||| ifaFDeprecated)) ||| lifetimeFlags addr }

/-- The addresses an operation is expected to leave. -/
def projectAddresses (device : DeviceObservation) (kind : OperationKind) :
    List AddressObservation :=
  match kind with
  | .removeIpv4 addr => device.addresses.filter fun entry => !entry.address.sameIdentity addr
  | .addIpv4 addr => device.addresses ++ [addedEntry device addr]
  | .replaceIpv4 addr =>
      updateFirst (fun entry => entry.address.sameIdentity addr) (replacedEntry · addr)
        device.addresses
  | _ => device.addresses

/-- The device an operation is expected to leave. -/
def project (device : DeviceObservation) (kind : OperationKind) : DeviceObservation :=
  match kind with
  | .setMtu mtu =>
      { device with state := device.state.setField "mtu" (.u64 mtu.toUInt64) trivial }
  | .setEnabled enabled =>
      { device with state := device.state.setField "enabled" (.bool enabled) trivial }
  | kind => { device with addresses := projectAddresses device kind }

/-- An address after some whole seconds, deprecated when its preferred lifetime
    has ended. -/
def rebaseEntry (elapsed : UInt32) (entry : AddressObservation) : AddressObservation :=
  let (valid, preferred) := entry.address.lifetimes
  { entry with
    address := { entry.address with
      validLft := some (decay valid elapsed)
      preferredLft := some (decay preferred elapsed) }
    flags := if decay preferred elapsed = 0 then entry.flags ||| ifaFDeprecated else entry.flags }

/-- A device at a later time. -/
def rebaseLifetimes (device : DeviceObservation) (now : Instant) : DeviceObservation :=
  let elapsed := wholeSeconds (now - device.observedAt)
  { device with addresses := device.addresses.map (rebaseEntry elapsed), observedAt := now }

/-- The side effect of an operation that a report mentions. -/
def collateral (device : DeviceObservation) (kind : OperationKind) : Option Diagnostic :=
  let message := match kind with
    | .setMtu mtu =>
        if mtu < 1280 then
          some "an MTU below 1280 disables IPv6 on the device and removes its IPv6 addresses"
        else none
    | .setEnabled false =>
        some ("disabling the device removes its IPv4 routes and, unless keep_addr_on_down is set, " ++
          "its IPv6 addresses")
    | _ => none
  message.map fun message => { target := some device.identity, field := kind.field, message }

end Netfyr
