import Netfyr.Linux.Link

/-!
# Netlink Messages

What the Linux transport sends on its route socket, and what it makes of the
answers. The codec is a library's: a packet is its kind together with what the
codec yields of its body, read as a link or as an address. The errors of the
operating system come with their number and text.

## Main definitions

* `IoError`, `BackendError.fromIo`: The errors of the operating system.
* `RoutePacket`, `NetlinkMessage`: What arrives on the route socket.
* `Exchange`, `collectResponse`: How the answer to a request is read.
* `deletedLink`: Which link a notification deletes.
* `writeMessage`: The message of an operation.
-/

namespace Netfyr

/-- An error of the operating system. -/
structure IoError where
  errno : Option Int
  interrupted : Bool
  message : String
  deriving DecidableEq

/-- A failure with the kernel's error: some errors have a kind of their own. -/
def BackendError.fromIo (fallback : BackendErrorKind) (error : IoError) : BackendError :=
  let kind := match error.errno with
    | some 1 | some 13 => .permissionDenied
    | some 19 | some 6 | some 2 => .notFound
    | _ => fallback
  { BackendError.new kind error.message with errno := error.errno }

/-- Kinds of route messages. -/
def rtmNewlink : UInt16 := 16

def rtmDellink : UInt16 := 17

def rtmNewaddr : UInt16 := 20

/-- A packet: its kind, and its body as the codec reads it. -/
structure RoutePacket where
  kind : UInt16
  link : LinkRecord
  address : Except String AddressMessage

/-- An error message. Without a code it acknowledges; the text among its
    attributes stands behind the request that it echoes. -/
structure ErrorMessage where
  code : Option Int
  io : IoError
  extack : Option String

/-- The end of a dump. -/
structure DoneMessage where
  code : Int
  io : IoError
  extack : Option String

/-- What a message carries. -/
inductive NetlinkPayload where
  | innerMessage (packet : RoutePacket)
  | error (error : ErrorMessage)
  | done (done : DoneMessage)
  | noop
  | overrun

/-- A message of the route socket. -/
structure NetlinkMessage where
  flags : BitVec 16
  payload : NetlinkPayload

/-- Flags of requests and of their answers. -/
def nlmFRequest : BitVec 16 := 0x1

def nlmFAck : BitVec 16 := 0x4

def nlmFDumpIntr : BitVec 16 := 0x10

def nlmFReplace : BitVec 16 := 0x100

def nlmFExcl : BitVec 16 := 0x200

def nlmFDump : BitVec 16 := 0x300

def nlmFCreate : BitVec 16 := 0x400

def nlmFAckTlvs : BitVec 16 := 0x200

/-- How a request is answered: by a dump, by one message, or as a write. -/
inductive Exchange where
  | dump
  | read
  | write
  deriving DecidableEq

namespace Exchange

/-- The flags of a request. -/
def flags : Exchange → BitVec 16
  | .dump => nlmFRequest ||| nlmFDump
  | .read | .write => nlmFRequest ||| nlmFAck

/-- The kind of a failure that the kernel reports. -/
def rejected : Exchange → BackendErrorKind
  | .dump | .read => .queryFailed
  | .write => .applyFailed

/-- The kind of a failure that leaves open what the kernel did. -/
def unconfirmed : Exchange → BackendErrorKind
  | .dump | .read => .queryFailed
  | .write => .outcomeUnknown

end Exchange

/-- The failure that an error message reports. -/
def netlinkError (fallback : BackendErrorKind) (error : ErrorMessage) (flags : BitVec 16) :
    BackendError :=
  let result := BackendError.fromIo fallback error.io
  if flags &&& nlmFAckTlvs ≠ 0 then { result with extack := error.extack } else result

/-- Collect the packets of an answer, up to its acknowledgement or its end. -/
def collectResponse (exchange : Exchange) :
    List NetlinkMessage → List RoutePacket → Except BackendError (List RoutePacket)
  | [], _ =>
      .error (.new exchange.unconfirmed "netlink transport closed before confirmed completion")
  | message :: stream, packets =>
      if message.flags &&& nlmFDumpIntr ≠ 0 then
        .error (.new exchange.rejected "kernel interrupted the netlink dump")
      else
        match message.payload with
        | .innerMessage packet => collectResponse exchange stream (packets ++ [packet])
        | .error error =>
            if error.code.isSome then
              .error (netlinkError exchange.rejected error message.flags)
            -- No code: an acknowledgement, which a dump has none of.
            else if exchange ≠ .dump then .ok packets
            else collectResponse exchange stream packets
        | .done done =>
            if exchange ≠ .dump then
              .error (.new exchange.unconfirmed "unexpected netlink response")
            else if done.code ≠ 0 then
              .error { BackendError.fromIo exchange.rejected done.io with extack := done.extack }
            else .ok packets
        | .noop => collectResponse exchange stream packets
        | .overrun => .error (.new exchange.unconfirmed "unexpected netlink response")

/-- The link that a packet deletes. A deletion in the bridge family reports a
    port that leaves its bridge. -/
def deletedLink (packet : RoutePacket) : Except String (Option UInt32) :=
  if packet.kind ≠ rtmDellink then .ok none
  else
    packet.link.header.map fun header =>
      if header.interfaceFamily = .unspec then some header.index else none

/-- A link in a request: what is asked for or changed. -/
structure LinkRequest where
  index : UInt32 := 0
  up : Bool := false
  changeUp : Bool := false
  attributes : List LinkAttribute := []
  deriving DecidableEq

/-- A request on the route socket. -/
inductive RouteNetlinkMessage where
  | getLink (message : LinkRequest)
  | setLink (message : LinkRequest)
  | getAddress (message : AddressMessage)
  | newAddress (message : AddressMessage)
  | delAddress (message : AddressMessage)
  deriving DecidableEq

/-- Whether a request changes anything. -/
def RouteNetlinkMessage.isWrite : RouteNetlinkMessage → Bool
  | .getLink _ | .getAddress _ => false
  | .setLink _ | .newAddress _ | .delAddress _ => true

/-- An address record without content. -/
def AddressMessage.empty : AddressMessage :=
  { family := .unspec, prefixLen := 0, flags := 0, scope := 0, index := 0, attributes := [] }

/-- The lifetimes that an address asks for. -/
def cacheInfo (addr : Ipv4Address) : AddressAttribute :=
  .cacheInfo { ifaPreferred := addr.lifetimes.2, ifaValid := addr.lifetimes.1 }

/-- The record that adds an address, or names it when it is removed. -/
def addressMessage (index : UInt32) (addr : Ipv4Address) (includeLifetimes : Bool) :
    AddressMessage :=
  { AddressMessage.empty with
    index
    family := .inet
    prefixLen := addr.prefixLen
    -- No peer: both attributes are the address itself.
    attributes := [.local' (.v4 addr.ip), .address (.v4 addr.ip)] ++
      if includeLifetimes then [cacheInfo addr] else [] }

/-- The record that replaces the lifetimes of an address: the observed one, as
    far as there is one. -/
def replacementMessage (observed : Option AddressMessage) (index : UInt32) (addr : Ipv4Address) :
    AddressMessage :=
  match observed with
  | none => addressMessage index addr true
  | some observed =>
      let attributes := observed.attributes.filter fun attr => match attr with
        | .cacheInfo _ => false
        | _ => true
      { observed with attributes := attributes ++ [cacheInfo addr] }

/-- The record that removes an address: the kernel matches the peer too. -/
def removalMessage (observed : Option AddressMessage) (index : UInt32) (addr : Ipv4Address) :
    AddressMessage :=
  let message := observed.getD (addressMessage index addr false)
  { message with
    attributes := message.attributes.filter fun attr => match attr with
      | .local' _ | .address _ | .label _ => true
      | _ => false }

/-- An address of a device, as an operation names it. -/
structure AddressKey where
  index : UInt32
  ip : Ipv4Addr
  prefixLen : UInt8
  deriving DecidableEq

/-- The message of an operation with its flags, given the address records that
    were observed. -/
def writeMessage (addressMessages : List (AddressKey × AddressMessage))
    (target : InterfaceId) : OperationKind → Except BackendError (RouteNetlinkMessage × BitVec 16)
  | .setMtu mtu => .ok (.setLink { index := target.index, attributes := [.mtu mtu] }, 0)
  | .setEnabled enabled =>
      .ok (.setLink { index := target.index, changeUp := true, up := enabled }, 0)
  | .addIpv4 addr =>
      .ok (.newAddress (addressMessage target.index addr true), nlmFCreate ||| nlmFExcl)
  | .replaceIpv4 addr =>
      .ok (.newAddress (replacementMessage
        (addressMessages.lookup ⟨target.index, addr.ip, addr.prefixLen⟩) target.index addr),
        nlmFReplace)
  | .removeIpv4 addr =>
      .ok (.delAddress (removalMessage
        (addressMessages.lookup ⟨target.index, addr.ip, addr.prefixLen⟩) target.index addr), 0)
  | _ => .error (.new .unsupportedOperation "operation is not supported by the Linux transport")

/-- The message of an operation is a write. -/
theorem writeMessage_isWrite {addressMessages : List (AddressKey × AddressMessage)}
    {target : InterfaceId} {kind : OperationKind} {message : RouteNetlinkMessage}
    {flags : BitVec 16} (h : writeMessage addressMessages target kind = .ok (message, flags)) :
    message.isWrite = true := by
  cases kind with
  | setField _ _ | addEntity | removeEntity =>
      exact absurd h (by simp only [writeMessage, reduceCtorEq, not_false_eq_true])
  | _ =>
      rw [writeMessage, Except.ok.injEq, Prod.mk.injEq] at h
      rw [← h.1]
      rfl

end Netfyr
