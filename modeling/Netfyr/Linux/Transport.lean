import Mathlib.Logic.Function.Basic
import Netfyr.Interact.Action
import Netfyr.Interact.Rounds
import Netfyr.Linux.Dump

/-!
# The Linux Transport

The state behind the two calls that the executor makes, an inventory and a
write, and behind the notifications that the kernel sends meanwhile. Whatever
the transport asks of the kernel is a call: the requests on the route socket,
the notifications waiting there, the queries about wireless devices, drivers and
link modes, the clock, and the random generation of an identity.

Notifications wait until somebody looks: the idle transport takes one at a
time, and every request first takes all that wait. `Backlog` is what waits at
such a moment; a stream that ended has nothing behind its end.

The worker serves one job after the other, whatever plan a job is from, so what
it does is a loop over a list of jobs.

## Main definitions

* `LinuxTransport`: The state.
* `TransportCall`: What is asked of the kernel.
* `LinuxTransport.record`: What a notification does.
* `LinuxTransport.drainNotifications`, `LinuxTransport.request`: One exchange.
* `LinuxTransport.inventory`: The devices as they are.
* `LinuxTransport.confirmIdentity`, `LinuxTransport.execute`: A write.
* `serve`: One job.
-/

namespace Netfyr

open Interact

/-- The notifications waiting at a moment, and whether the stream ended behind
    them. -/
structure Backlog where
  messages : List NetlinkMessage
  closed : Bool

/-- What is waiting, `none` being the end of the stream. -/
def Backlog.items (self : Backlog) : List (Option NetlinkMessage) :=
  self.messages.map some ++ if self.closed then [none] else []

/-- The answer to a request on the route socket. -/
inductive RequestAnswer where
  | refused (message : String)
  | timedOut
  | answered (stream : List NetlinkMessage)

/-- What the driver of a device says of itself, as its texts are read. -/
structure DriverInfo where
  driver : Except IoError (Option String)
  busInfo : Except IoError (Option String)

/-- An attribute of an ethtool message. -/
inductive EthtoolAttr where
  | header (indices : List UInt32)
  | linkMode (attr : EthtoolLinkModeAttr)
  | other

/-- How an ethtool exchange ends. -/
inductive EthtoolEnd where
  | done
  | netlinkError (code : Int) (message : String)
  | error (message : String)
  | timedOut

/-- The answer to a query for link modes. -/
structure EthtoolAnswer where
  messages : List (List EthtoolAttr)
  ending : EthtoolEnd

/-- What the transport asks of the kernel. -/
inductive TransportCall where
  | notification
  | backlog
  | request (message : RouteNetlinkMessage) (flags : BitVec 16)
  | now
  | wirelessIndices
  | interfaceIndex (name : String)
  | legacyWireless (name : String)
  | driverInfo (name : String)
  | linkModes (name : String) (index : UInt32)
  | getrandom
  deriving DecidableEq

/-- How each call is answered. -/
abbrev TransportAnswer : TransportCall → Type
  | .notification => Option NetlinkMessage
  | .backlog => Backlog
  | .request _ _ => RequestAnswer
  | .now => Instant
  | .wirelessIndices => Except String (List UInt32)
  | .interfaceIndex _ => Except IoError UInt32
  | .legacyWireless _ => Bool
  | .driverInfo _ => Except IoError DriverInfo
  | .linkModes _ _ => EthtoolAnswer
  | .getrandom => Except IoError UInt64

/-- One call with its answer. -/
abbrev TransportEvent : Type := Event TransportCall TransportAnswer

/-- The transport. `generations` are those of the devices that identities were
    issued of, and `addressMessages` the records of the last inventory. -/
structure LinuxTransport where
  namespaceId : NamespaceId
  notificationsClosed : Bool
  ethtool : Bool
  wireless : Bool
  generations : UInt32 → Option UInt64
  deletionEpoch : UInt64
  invalidated : Option String
  addressMessages : List (AddressKey × AddressMessage)
  initializationDiagnostics : List Diagnostic

/-- A procedure of the transport. -/
abbrev Transporting (α : Type) : Type :=
  Action TransportCall TransportAnswer LinuxTransport BackendError α

/-- Draw a generation. -/
def freshGeneration : Transporting UInt64 := do
  let answer ← Action.perform TransportCall.getrandom
  Action.ofExcept (answer.mapError (BackendError.fromIo .internal))

/-- An interface name that the kernel can be asked about. -/
def ifreqFor (name : String) : Except IoError Unit :=
  -- The name and its terminator have to fit into 16 bytes.
  if 16 ≤ name.utf8ByteSize ∨ Char.ofNat 0 ∈ name.toList then
    .error { errno := none, interrupted := false, message := "invalid interface name" }
  else .ok ()

/-- The error of an interface that is not the one it was. -/
def interruptedError : IoError :=
  { errno := none, interrupted := true, message := "operation interrupted" }

def renamedDuringInventory : BackendError :=
  .new .queryFailed "interface renamed during inventory; query again"

/-- The index of the interface of a name. -/
def interfaceIndex (name : String) : Transporting (Except IoError UInt32) :=
  match ifreqFor name with
  | .error e => pure (.error e)
  | .ok () => Action.perform (TransportCall.interfaceIndex name)

/-- Whether an interface still has its index: one that does not, or that is
    gone, interrupts. -/
def checkNamed (index : UInt32) (answer : Except IoError UInt32) : Except IoError Unit :=
  match answer with
  | .ok current => if current = index then .ok () else .error interruptedError
  -- `ENODEV`.
  | .error e => if e.errno = some 19 then .error interruptedError else .error e

/-- Ask about an interface by its name, which names it before and after. -/
def whileNamed {α : Type} (name : String) (index : UInt32)
    (call : Transporting (Except IoError α)) : Transporting (Except IoError α) := do
  let before ← interfaceIndex name
  match checkNamed index before with
  | .error e => pure (.error e)
  | .ok () => do
      let result ← call
      match result with
      | .error e => pure (.error e)
      | .ok a => do
          -- The answer counts only when the name still has its index.
          let after ← interfaceIndex name
          match checkNamed index after with
          | .error e => pure (.error e)
          | .ok () => pure (.ok a)

/-- Whether an interface answers as a wireless one. -/
def legacyWireless (name : String) : Transporting Bool :=
  match ifreqFor name with
  | .error _ => pure false
  | .ok () => Action.perform (TransportCall.legacyWireless name)

def isAsciiHexdigit (c : Char) : Bool :=
  c.isDigit || ('a' ≤ c && c ≤ 'f') || ('A' ≤ c && c ≤ 'F')

/-- Whether a text is the address of a PCI device. -/
def isPciAddress (value : String) : Bool :=
  value.length == 12 &&
    value.toList.zipIdx.all fun (c, index) =>
      if index = 4 ∨ index = 7 then c == ':'
      else if index = 10 then c == '.'
      else isAsciiHexdigit c

/-- The driver and the PCI address of an interface. -/
def driverInfo (name : String) : Transporting (Except IoError (Option String × Option String)) :=
  match ifreqFor name with
  | .error e => pure (.error e)
  | .ok () => do
      let answer ← Action.perform (TransportCall.driverInfo name)
      pure do
        let info ← answer
        let driver ← info.driver
        let bus ← info.busInfo
        .ok (driver, bus.filter isPciAddress)

/-- Whether the error of a query says that it is not supported. -/
def unsupportedIoctl (error : IoError) : Bool :=
  -- `EOPNOTSUPP`, `ENODEV` and `ENOTTY`.
  error.errno == some 95 || error.errno == some 19 || error.errno == some 25

/-- Whether the error of an ethtool exchange says that it is not supported. -/
def unsupportedEthtool (code : Int) : Bool :=
  -- `EOPNOTSUPP`, `ENODEV` and `ENOENT`.
  code.natAbs == 95 || code.natAbs == 19 || code.natAbs == 2

/-- Take over one attribute of an ethtool message; `none` when it is about
    another device. -/
def readEthtool (index : UInt32) (out : FieldMap × List String) :
    EthtoolAttr → Option (FieldMap × List String)
  | .header indices => if indices.any fun other => other ≠ index then none else some out
  | .linkMode attr => some (enrichEthernet out attr)
  | .other => some out

/-- The link modes of an interface, and what is to be said about them. -/
def ethernetAttributes (index : UInt32) (answer : EthtoolAnswer) :
    Except BackendError (FieldMap × List String) :=
  match answer.messages.flatten.foldlM (readEthtool index) (.empty, []) with
  | none => .error renamedDuringInventory
  | some (fields, diagnostics) =>
      match answer.ending with
      | .done =>
          if answer.messages = [] then
            .ok (fields, diagnostics ++ ["ethtool returned no link-mode observation"])
          else .ok (fields, diagnostics)
      | .netlinkError code message =>
          if unsupportedEthtool code then .ok (fields, diagnostics)
          else .ok (fields, diagnostics ++ [s!"ethtool link-mode query failed: {message}"])
      | .error message =>
          .ok (fields, diagnostics ++ [s!"ethtool link-mode query failed: {message}"])
      | .timedOut => .ok (fields, diagnostics ++ ["ethtool link-mode query timed out"])

/-- What the pass over a link dump keeps. -/
structure LinkSweep where
  devices : List DeviceObservation
  linkModeTargets : List (Nat × String × UInt32)
  diagnostics : List Diagnostic

/-- Whether no deletion was recorded since an epoch. -/
def validateDeletionEpoch (before after : UInt64) : Except BackendError Unit :=
  if before ≠ after then
    .error (.new .queryFailed "interface deletion occurred during inventory; query again")
  else .ok ()

namespace LinuxTransport

/-- A transport that has just been opened. -/
def new (namespaceId : NamespaceId) (ethtool wireless : Bool)
    (initializationDiagnostics : List Diagnostic) : LinuxTransport where
  namespaceId := namespaceId
  notificationsClosed := false
  ethtool := ethtool
  wireless := wireless
  generations := fun _ => none
  deletionEpoch := 0
  invalidated := none
  addressMessages := []
  initializationDiagnostics := initializationDiagnostics

/-- Forget every identity: a notification was lost, or could not be read. -/
def invalidate (self : LinuxTransport) (reason : String) : LinuxTransport :=
  { self with
    generations := fun _ => none
    deletionEpoch := self.deletionEpoch + 1
    -- The first reason stays.
    invalidated := self.invalidated.or (some reason) }

/-- Forget the identity of a device that was deleted. -/
def recordDeletion (self : LinuxTransport) (index : UInt32) : LinuxTransport :=
  { self with
    generations := Function.update self.generations index none
    deletionEpoch := self.deletionEpoch + 1 }

/-- Take over what was waiting: a notification, or the end of the stream. -/
def record (self : LinuxTransport) : Option NetlinkMessage → LinuxTransport
  | none => { self with notificationsClosed := true }.invalidate "netlink connection closed"
  | some message =>
      match message.payload with
      | .innerMessage packet =>
          match deletedLink packet with
          | .ok (some index) => self.recordDeletion index
          | .ok none => self
          | .error _ => self.invalidate "unparseable link deletion notification"
      | .overrun => self.invalidate "link notification buffer overrun"
      | .error _ | .done _ | .noop => self

/-- Take over a notification when there is nothing else to do. A stream that
    ended is not waited for. -/
def nextNotification : Transporting Unit := do
  let transport ← Action.get
  -- The source waits for ever here.
  if transport.notificationsClosed then pure ()
  else do
    let item ← Action.perform TransportCall.notification
    Action.modify fun transport => transport.record item

/-- Fail when identities were forgotten since this was last asked. -/
def takeInvalidated : Transporting Unit := do
  let transport ← Action.get
  Action.modify fun transport => { transport with invalidated := none }
  match transport.invalidated with
  | some reason =>
      Action.fail (.new .queryFailed s!"{reason}; identities invalidated, query again")
  | none => pure ()

/-- Take over all that is waiting. -/
def drainNotifications : Transporting Unit := do
  let transport ← Action.get
  if transport.notificationsClosed then takeInvalidated
  else do
    let backlog ← Action.perform TransportCall.backlog
    Action.modify fun transport => backlog.items.foldl record transport
    takeInvalidated

/-- One exchange on the route socket. -/
def request (message : RouteNetlinkMessage) (exchange : Exchange) (extraFlags : BitVec 16) :
    Transporting (List RoutePacket) := do
  drainNotifications
  let answer ← Action.perform (TransportCall.request message (exchange.flags ||| extraFlags))
  match answer with
  -- The connection did not take the message, so it was not sent.
  | .refused message => Action.fail (.new exchange.rejected message)
  | .timedOut =>
      Action.fail (.new exchange.unconfirmed
        "netlink request timed out before confirmed completion")
  | .answered stream => Action.ofExcept (collectResponse exchange stream [])

/-- The indices of the wireless devices. -/
def wirelessIndices : Transporting (Except String (List UInt32)) := do
  let transport ← Action.get
  if transport.wireless then Action.perform TransportCall.wirelessIndices
  else pure (.error ("wireless identification unavailable; " ++
    "unclassified Ethernet link-layer devices are read-only"))

/-- The generation of a device: the one it has, or a new one. -/
def generationOf (index : UInt32) : Transporting UInt64 := do
  let transport ← Action.get
  match transport.generations index with
  | some generation => pure generation
  | none => do
      let generation ← freshGeneration
      Action.modify fun transport =>
        { transport with
          generations := Function.update transport.generations index (some generation) }
      pure generation

/-- Add what the driver of a device says of itself. -/
def enrichDriver (identity : InterfaceId) (state : State) (diagnostics : List Diagnostic) :
    Transporting (State × List Diagnostic) := do
  let answer ← whileNamed identity.name identity.index (driverInfo identity.name)
  match answer with
  | .ok (driver, pciPath) =>
      let state := insertDriver state driver
      pure ({ state with matchSpec := { state.matchSpec with driver, pciPath } }, diagnostics)
  | .error e =>
      if unsupportedIoctl e then pure (state, diagnostics)
      -- A device renamed meanwhile fails the inventory, other errors are told.
      else if e.interrupted then Action.fail renamedDuringInventory
      else pure (state, diagnostics ++ [diagnostic (some identity) "driver" e.message])

/-- Enrich the devices that are to be. -/
def enrichDevice (enrich : Match → Bool) (identity : InterfaceId) (state : State)
    (diagnostics : List Diagnostic) : Transporting (State × List Diagnostic) :=
  if enrich state.matchSpec then enrichDriver identity state diagnostics
  else pure (state, diagnostics)

/-- Take over one packet of a link dump. -/
def observeLink (enrich : Match → Bool) (wireless : Option (List UInt32)) (observedAt : Instant)
    (sweep : LinkSweep) (packet : RoutePacket) : Transporting LinkSweep := do
  Action.failWhen (packet.kind != rtmNewlink)
    (.new .queryFailed "unexpected response in link dump")
  let parsed ← Action.ofExcept (parseLink packet.link)
  let index := parsed.message.header.index
  let answer ← whileNamed parsed.name index do
    let wireless ← legacyWireless parsed.name
    pure (.ok wireless)
  let legacy ← Action.ofExcept (answer.mapError fun e =>
    if e.interrupted then renamedDuringInventory else BackendError.fromIo .queryFailed e)
  let deviceType := if legacy then "wifi" else classifyLink parsed wireless
  -- From here on the identity is issued.
  let generation ← generationOf index
  let transport ← Action.get
  let shown := linkState parsed deviceType
  let identity : InterfaceId :=
    { namespaceId := transport.namespaceId, index, generation, name := parsed.name, deviceType
      mac := shown.2 }
  let diagnostics := sweep.diagnostics ++ parsed.diagnostics.map fun (field, message) =>
    diagnostic (some identity) field message
  let enriched ← enrichDevice enrich identity shown.1 diagnostics
  let device : DeviceObservation :=
    { identity, state := enriched.1, addresses := [], addressesComplete := deviceType == ethernet
      observedAt }
  pure
    { devices := sweep.devices ++ [device]
      linkModeTargets :=
        if enrich shown.1.matchSpec && deviceType == ethernet then
          sweep.linkModeTargets ++ [(sweep.devices.length, parsed.name, index)]
        else sweep.linkModeTargets
      diagnostics := enriched.2 }

/-- Add the link modes of a device. -/
def insertEthernet (sweep : LinkSweep) (result : (Nat × String × UInt32) × EthtoolAnswer) :
    Transporting LinkSweep := do
  let (fields, messages) ← Action.ofExcept (ethernetAttributes result.1.2.2 result.2)
  let device ← Action.ofOption sweep.devices[result.1.1]?
  pure
    { sweep with
      devices := sweep.devices.set result.1.1
        { device with state := insertLinkModes device.state fields }
      diagnostics := sweep.diagnostics ++
        messages.map (diagnostic (some device.identity) "ethernet") }

/-- Ask for the link modes of a device. -/
def askLinkModes (answers : List EthtoolAnswer) (target : Nat × String × UInt32) :
    Transporting (List EthtoolAnswer) := do
  let answer ← Action.perform (TransportCall.linkModes target.2.1 target.2.2)
  pure (answers ++ [answer])

/-- Add the link modes of the devices that have some; all are asked before an
    answer is looked at. -/
def enrichLinkModes (sweep : LinkSweep) : Transporting LinkSweep := do
  let transport ← Action.get
  if transport.ethtool then do
    -- The source asks for all of them at once.
    let answers ← sweep.linkModeTargets.foldlM askLinkModes []
    (sweep.linkModeTargets.zip answers).foldlM insertEthernet sweep
  else pure sweep

/-- Keep the generations of the devices that are there. -/
def retainGenerations (self : LinuxTransport) (devices : List DeviceObservation) :
    LinuxTransport :=
  { self with
    generations := fun index =>
      if devices.any fun device => device.identity.index == index then self.generations index
      else none }

/-- The part of an inventory between its first look at the notifications and its
    last. -/
def observe (enrich : Match → Bool) : Transporting AddressSweep := do
  -- Both dumps are over before a link is looked at.
  let links ← request (.getLink {}) .dump 0
  let addresses ← request (.getAddress { AddressMessage.empty with family := .inet }) .dump 0
  let observedAt ← Action.perform TransportCall.now
  let transport ← Action.get
  let answer ← wirelessIndices
  let (wireless, diagnostics) := match answer with
    | .ok indices => (some indices, transport.initializationDiagnostics)
    | .error message =>
        (none, transport.initializationDiagnostics ++ [diagnostic none "type" message])
  let sweep ← links.foldlM (observeLink enrich wireless observedAt)
    { devices := [], linkModeTargets := [], diagnostics }
  let sweep ← enrichLinkModes sweep
  Action.modify fun transport => transport.retainGenerations sweep.devices
  Action.ofExcept (observeAddresses sweep.devices sweep.diagnostics addresses)

/-- Conclude an inventory: nothing was deleted since the epoch, and every
    generation still stands. -/
def conclude (deletionEpoch : UInt64) (sweep : AddressSweep) : Transporting Observation := do
  let transport ← Action.get
  Action.ofExcept (validateDeletionEpoch deletionEpoch transport.deletionEpoch)
  Action.failWhen
    (sweep.devices.any fun device =>
      transport.generations device.identity.index != some device.identity.generation)
    (.new .queryFailed "interface disappeared during inventory; query again")
  Action.modify fun transport => { transport with addressMessages := sweep.addressMessages }
  pure { devices := sweep.devices, diagnostics := sweep.diagnostics }

/-- The part of an inventory behind its first look at the notifications. -/
def survey (enrich : Match → Bool) : Transporting Observation := do
  let transport ← Action.get
  let sweep ← observe enrich
  drainNotifications
  conclude transport.deletionEpoch sweep

/-- The devices as they are. -/
def inventory (enrich : Match → Bool) : Transporting Observation := do
  drainNotifications
  survey enrich

/-- The error of a target that is not what it was. -/
def staleError : BackendError := .new .staleState "target identity is no longer current"

/-- The name in the reply to a query for one link. -/
def replyName (reply : List RoutePacket) : Except BackendError String :=
  match reply with
  | [packet] =>
      if packet.kind = rtmNewlink then (parseLink packet.link).map ParsedLink.name
      else .error (.new .queryFailed "unexpected reply to a link query")
  | _ => .error (.new .queryFailed "unexpected reply to a link query")

/-- Confirm that a target is what it was. Notifications come in socket order, so
    once the reply is there every earlier deletion is. -/
def confirmIdentity (target : InterfaceId) : Transporting Unit := do
  let transport ← Action.get
  Action.failWhen (target.namespaceId != transport.namespaceId) staleError
  let reply ← request (.getLink { index := target.index }) .read 0
  drainNotifications
  let name ← Action.ofExcept (replyName reply)
  let transport ← Action.get
  Action.failWhen
    (transport.generations target.index != some target.generation || name != target.name) staleError

/-- Execute an operation on a target. -/
def execute (target : InterfaceId) (kind : OperationKind) : Transporting Unit := do
  let transport ← Action.get
  let (message, flags) ← Action.ofExcept (writeMessage transport.addressMessages target kind)
  confirmIdentity target
  let _ ← request message .write flags
  pure ()

end LinuxTransport

/-- What the worker asks of the transport. -/
inductive TransportJob where
  | notification
  | inventory (enrich : Match → Bool)
  | execute (target : InterfaceId) (kind : OperationKind)

/-- What comes of a job. -/
inductive TransportOutcome where
  | noted
  | observed (result : Except BackendError Observation)
  | executed (result : Except BackendError Unit)

/-- Serve one job. -/
def serve (_ : Nat) (job : TransportJob) (transport : LinuxTransport) :
    Program TransportCall TransportAnswer (TransportOutcome × LinuxTransport) :=
  match job with
  | .notification => do
      let (_, transport) ← LinuxTransport.nextNotification transport
      pure (.noted, transport)
  | .inventory enrich => do
      let (result, transport) ← LinuxTransport.inventory enrich transport
      pure (.observed result, transport)
  | .execute target kind => do
      let (result, transport) ← LinuxTransport.execute target kind transport
      pure (.executed result, transport)

end Netfyr
