import Netfyr.Backend.Report

/-!
# Observing Links and Addresses

What the Linux transport makes of a link record, of an address record and of
link modes. The netlink codec is a library's: a record is what the codec yields,
each attribute read or refused, and only the attributes the transport looks at
are told apart.

## Main definitions

* `LinkRecord`, `AddressMessage`, `EthtoolLinkModeAttr`: What the kernel sends.
* `parseLink`, `classifyLink`, `linkState`: The reading of a link.
* `parseAddress`, `addressValue`: The reading of an address.
* `enrichEthernet`: The reading of a link mode.
* `observeState`: The state of a device, assembled from all of them.
-/

namespace Netfyr

/-- Link-layer types. -/
inductive LinkLayerType where
  | ether
  | loopback
  | other (code : UInt16)
  deriving DecidableEq

/-- Address families. -/
inductive AddressFamily where
  | unspec
  | inet
  | other (code : UInt8)
  deriving DecidableEq

/-- Kinds of virtual links; any but one is known by its text. -/
inductive InfoKind where
  | veth
  | other (text : String)
  deriving DecidableEq

/-- The text of a kind. -/
def InfoKind.display : InfoKind → String
  | .veth => "veth"
  | .other text => text

/-- A piece of link information. -/
inductive LinkInfo where
  | kind (kind : InfoKind)
  | other
  deriving DecidableEq

/-- An attribute of a link. -/
inductive LinkAttribute where
  | ifName (name : String)
  | mtu (mtu : UInt32)
  | carrier (value : UInt8)
  | address (bytes : List UInt8)
  | linkInfo (information : List LinkInfo)
  | other
  deriving DecidableEq

/-- The header of a link, of whose flags one is read. -/
structure LinkHeader where
  interfaceFamily : AddressFamily
  index : UInt32
  linkLayerType : LinkLayerType
  up : Bool
  deriving DecidableEq

/-- A link as it is read. -/
structure LinkMessage where
  header : LinkHeader
  attributes : List LinkAttribute
  deriving DecidableEq

/-- A link record as the codec yields it: the header, and the attributes with
    their numbers, up to the first whose framing is wrong. -/
structure LinkRecord where
  header : Except String LinkHeader
  attributes : List (Except String (Nat × Except String LinkAttribute))

/-- A link that was read, with what was wrong with its attributes. -/
structure ParsedLink where
  message : LinkMessage
  name : String
  kindValid : Bool
  diagnostics : List (String × String)

/-- The number of the link information attribute. -/
def iflaLinkinfo : Nat := 18

/-- What has been read of a link's attributes. -/
structure LinkParts where
  attributes : List LinkAttribute
  kindValid : Bool
  diagnostics : List (String × String)

/-- Read one attribute; what cannot be used becomes a diagnostic. -/
def readLinkAttribute (header : LinkHeader) (parts : LinkParts)
    (nla : Except String (Nat × Except String LinkAttribute)) : Except BackendError LinkParts :=
  match nla with
  -- Wrong framing loses the rest of the message; one bad attribute does not.
  | .error error => .error (.new .queryFailed s!"invalid link attribute framing: {error}")
  | .ok (kind, .error error) =>
      .ok { parts with
        -- Without its link information, a link's kind is not known.
        kindValid := if kind = iflaLinkinfo then false else parts.kindValid
        diagnostics := parts.diagnostics ++ [(s!"netlink.attribute.{kind}", error)] }
  | .ok (_, .ok attr) =>
      match attr with
      | .address bytes =>
          if (header.linkLayerType = .ether ∨ header.linkLayerType = .loopback) ∧
              bytes.length ≠ 6 then
            .ok { parts with
              diagnostics := parts.diagnostics ++
                [("mac", s!"invalid Ethernet MAC length {bytes.length}")] }
          else .ok { parts with attributes := parts.attributes ++ [attr] }
      | .carrier value =>
          if 1 < value then
            .ok { parts with
              diagnostics := parts.diagnostics ++
                [("carrier", s!"invalid carrier value {value.toNat}")] }
          else .ok { parts with attributes := parts.attributes ++ [attr] }
      | attr => .ok { parts with attributes := parts.attributes ++ [attr] }

/-- The interface name among attributes. -/
def ifName? : LinkAttribute → Option String
  | .ifName name => some name
  | _ => none

/-- Read a link record. -/
def parseLink (record : LinkRecord) : Except BackendError ParsedLink :=
  match record.header with
  | .error error => .error (.new .queryFailed s!"invalid link header: {error}")
  | .ok header => do
      let parts ← record.attributes.foldlM (readLinkAttribute header)
        { attributes := [], kindValid := true, diagnostics := [] }
      match parts.attributes.findSome? ifName? with
      | none => .error (.new .queryFailed "link has no valid interface name")
      | some name =>
          .ok { message := { header, attributes := parts.attributes }, name,
                kindValid := parts.kindValid, diagnostics := parts.diagnostics }

/-- The kind that link information states. -/
def kind? : LinkInfo → Option InfoKind
  | .kind kind => some kind
  | .other => none

/-- The kind that an attribute states. -/
def infoKind? : LinkAttribute → Option InfoKind
  | .linkInfo information => information.findSome? kind?
  | _ => none

/-- The device type of a link: what its kind says, or its link layer and whether
    it is known to be wireless. -/
def classifyLink (link : ParsedLink) (wireless : Option (List UInt32)) : String :=
  if !link.kindValid then "unknown"
  else
    match link.message.attributes.findSome? infoKind? with
    | some .veth => ethernet
    | some kind => kind.display
    | none =>
        if link.message.header.linkLayerType = .loopback then "loopback"
        -- A wireless interface has the link layer of an Ethernet one.
        else if wireless.any fun indices => indices.contains link.message.header.index then "wifi"
        else if link.message.header.linkLayerType = .ether ∧ wireless.isSome then ethernet
        else "unknown"

/-- A digit of a hardware address. -/
def hexDigit (n : Nat) : Char := "0123456789abcdef".toList.getD n '0'

/-- A hardware address as text. -/
def formatMac (bytes : List UInt8) : String :=
  ":".intercalate (bytes.map fun byte =>
    String.ofList [hexDigit (byte.toNat / 16), hexDigit (byte.toNat % 16)])

/-- Take one attribute of a link over into its state, and keep the hardware
    address. -/
def readAttribute : State × Option String → LinkAttribute → State × Option String
  | (state, mac), .mtu mtu =>
      (state.setField "mtu" (.u64 mtu.toUInt64) (Value.u64_wellKeyed _), mac)
  | (state, mac), .carrier carrier =>
      (state.setField "carrier" (.bool (carrier == 1)) (Value.bool_wellKeyed _), mac)
  | (state, mac), .address bytes =>
      if bytes = [] then (state, mac)
      else
        let text := formatMac bytes
        (state.setField "mac" (.string text) (Value.string_wellKeyed _), some text)
  | out, _ => out

/-- The state a link shows, and its hardware address. -/
def linkState (link : ParsedLink) (deviceType : String) : State × Option String :=
  let state : State :=
    { State.new .kernel with
      deviceType, matchSpec := { name := some link.name, type := some deviceType } }
  let state := state.setField "name" (.string link.name) (Value.string_wellKeyed _)
  let state := state.setField "enabled" (.bool link.message.header.up) (Value.bool_wellKeyed _)
  let out := link.message.attributes.foldl readAttribute (state, none)
  ({ out.1 with matchSpec := { out.1.matchSpec with mac := out.2 } }, out.2)

/-- Lifetimes of an address in seconds. -/
structure CacheInfo where
  ifaPreferred : UInt32
  ifaValid : UInt32
  deriving DecidableEq

/-- An attribute of an address. -/
inductive AddressAttribute where
  | local' (addr : IpAddr)
  | address (addr : IpAddr)
  | flags (bits : BitVec 32)
  | cacheInfo (info : CacheInfo)
  | label (text : String)
  | other
  deriving DecidableEq

/-- An address record. -/
structure AddressMessage where
  family : AddressFamily
  prefixLen : UInt8
  flags : BitVec 8
  scope : UInt8
  index : UInt32
  attributes : List AddressAttribute
  deriving DecidableEq

/-- What has been read of an address's attributes. -/
structure AddressParts where
  local' : Option Ipv4Addr
  address : Option Ipv4Addr
  flags : BitVec 32
  cache : Option CacheInfo

/-- Read one attribute of an address. -/
def readAddressAttribute (parts : AddressParts) : AddressAttribute → Except String AddressParts
  | .local' (.v4 ip) => .ok { parts with local' := some ip }
  | .address (.v4 ip) => .ok { parts with address := some ip }
  | .local' (.v6 _) | .address (.v6 _) => .error "IPv6 attribute in IPv4 address record"
  | .flags bits => .ok { parts with flags := bits }
  | .cacheInfo info => .ok { parts with cache := some info }
  | .label _ | .other => .ok parts

/-- Read an address record. -/
def parseAddress (message : AddressMessage) : Except String AddressObservation :=
  if message.family ≠ .inet ∨ 32 < message.prefixLen then
    .error "invalid IPv4 family or prefix length"
  else do
    let parts ← message.attributes.foldlM readAddressAttribute
      { local' := none, address := none, flags := message.flags.setWidth 32, cache := none }
    -- On a point-to-point link `address` is the peer, and `local'` the address.
    match parts.local'.or parts.address with
    | none => .error "address record has no assigned local address"
    | some ip =>
        match parts.cache with
        | none => .error "address record has no lifetime observation"
        | some cache =>
            if cache.ifaValid < cache.ifaPreferred then
              .error "preferred lifetime exceeds valid lifetime"
            else
              .ok
                { address :=
                    { ip, prefixLen := message.prefixLen, validLft := some cache.ifaValid,
                      preferredLft := some cache.ifaPreferred }
                  flags := parts.flags
                  scope := message.scope
                  peer := parts.address.filter (· ≠ ip) }

/-- Add an optional lifetime to the fields of an address. -/
def insertLifetime (fields : FieldMap) (key : String) : Option UInt32 → FieldMap
  | some lifetime => fields.insert key (.u64 lifetime.toUInt64) (Value.u64_wellKeyed _)
  | none => fields

/-- The fields of an observed address. -/
def addressFields (observation : AddressObservation) : FieldMap :=
  let address := observation.address
  let fields := FieldMap.empty.insert "ip" (.ipNetwork (.v4 address.ip) address.prefixLen)
    (Value.ipNetwork_wellKeyed _ _)
  let fields := insertLifetime fields "valid_lft" address.validLft
  insertLifetime fields "preferred_lft" address.preferredLft

/-- An observed address as a value. -/
def addressValue (observation : AddressObservation) : Value :=
  .map (addressFields observation).entries

/-- Duplex modes. -/
inductive Duplex where
  | full
  | half
  | unknown
  | other (code : UInt8)
  deriving DecidableEq

/-- A link mode. -/
inductive EthtoolLinkModeAttr where
  | speed (speed : UInt32)
  | autoneg (enabled : Bool)
  | duplex (duplex : Duplex)
  | other
  deriving DecidableEq

/-- The text of a duplex mode. -/
def duplexText : Duplex → Except String String
  | .full => .ok "full"
  | .half => .ok "half"
  | .unknown => .ok "unknown"
  | .other code => .error s!"invalid duplex value {code.toNat}"

/-- Take one link mode over into the fields of an Ethernet link. -/
def enrichEthernet : FieldMap × List String → EthtoolLinkModeAttr → FieldMap × List String
  | (fields, diagnostics), .speed speed =>
      -- Both are the kernel's way to say that the speed is not known.
      if speed ≠ u32Max ∧ speed ≠ 0 then
        (fields.insert "speed" (.u64 speed.toUInt64) (Value.u64_wellKeyed _), diagnostics)
      else (fields, diagnostics)
  | (fields, diagnostics), .autoneg enabled =>
      (fields.insert "autoneg" (.bool enabled) (Value.bool_wellKeyed _), diagnostics)
  | (fields, diagnostics), .duplex duplex =>
      match duplexText duplex with
      | .ok text => (fields.insert "duplex" (.string text) (Value.string_wellKeyed _), diagnostics)
      | .error message => (fields, diagnostics ++ [message])
  | out, .other => out

theorem addressValues_wellKeyed (addresses : List AddressObservation) :
    (Value.map [("addresses", .list (addresses.map addressValue))]).WellKeyed := by
  refine ⟨List.nodup_singleton _, ?_, trivial⟩
  rw [Value.WellKeyed, Value.wellKeyedList_iff]
  intro value hvalue
  rcases List.mem_map.mp hvalue with ⟨observation, _, rfl⟩
  exact (addressFields observation).wellKeyed

/-- Add the driver of a device to its state. -/
def insertDriver (state : State) : Option String → State
  | some driver => state.setField "driver" (.string driver) (Value.string_wellKeyed _)
  | none => state

/-- Add the link modes of a device to its state, if there are any. -/
def insertLinkModes (state : State) (fields : FieldMap) : State :=
  if fields.entries = [] then state
  else state.setField "ethernet" (.map fields.entries) fields.wellKeyed

/-- Add the addresses of a device to its state. -/
def insertAddresses (state : State) (addresses : List AddressObservation) : State :=
  state.setField "ipv4" (.map [("addresses", .list (addresses.map addressValue))])
    (addressValues_wellKeyed addresses)

/-- The state of a device, as the inventory assembles it. -/
def observeState (link : ParsedLink) (deviceType : String) (driver : Option String)
    (linkModes : List EthtoolLinkModeAttr) (addresses : List AddressObservation) : State :=
  let state := insertDriver (linkState link deviceType).1 driver
  if deviceType = ethernet then
    insertAddresses (insertLinkModes state (linkModes.foldl enrichEthernet (.empty, [])).1)
      addresses
  else state

end Netfyr
