import Mathlib.Data.List.Count
import Mathlib.Data.List.Nodup
import Netfyr.Linux.Dump

/-!
# Complete Devices

What it means that a device is observed completely. The pass over an address
dump fails on a packet that it cannot take, and otherwise a device that it calls
complete has an address for each of its records, in dump order and no two of one
name, and the record kept for each address is the one it was read from. An
Ethernet device that cannot be represented so is called incomplete, and has one
diagnostic that says so. Devices of other types are not read: they are never
complete, and nothing is said about their records.

## Main definitions

* `recordKeys`: How operations name the addresses of an index.
* `HonestDevice`: What the pass says of a device is true.

## Theorems

* `observeAddresses_honest`: The pass fails on what it cannot take, and is
  honest about every device otherwise.
-/

namespace Netfyr

/-- How operations would name the addresses of the records of an index, as far
    as these can be read. -/
def recordKeys (index : UInt32) (packets : List RoutePacket) : List AddressKey :=
  (ipv4Records index packets).filterMap fun record =>
    (parseAddress record).toOption.map (AddressObservation.key index)

/-- What the pass says of a device is true of the dump. -/
structure HonestDevice (packets : List RoutePacket)
    (addressMessages : List (AddressKey × AddressMessage)) (issued : List Diagnostic)
    (device : DeviceObservation) : Prop where
  /-- The addresses of a complete device are those of its records. -/
  addresses : device.addressesComplete = true →
    (ipv4Records device.identity.index packets).map parseAddress = device.addresses.map .ok ∧
      (device.addresses.map (AddressObservation.key device.identity.index)).Nodup
  /-- The record kept for an address of a complete device is the one it was read
      from. -/
  source : device.addressesComplete = true → ∀ key : AddressKey,
    key.index = device.identity.index → ∀ record,
      addressMessages.lookup key = some record ↔
        record ∈ ipv4Records device.identity.index packets ∧
          ∃ addr, parseAddress record = .ok addr ∧ addr.key device.identity.index = key
  /-- An Ethernet device is incomplete, with one diagnostic, exactly when two of
      its records share a name. -/
  doubled : device.identity.deviceType = ethernet →
    if (recordKeys device.identity.index packets).Nodup then
      device.addressesComplete = true ∧ issued.count (duplicateDiagnostic device.identity) = 0
    else
      device.addressesComplete = false ∧ issued.count (duplicateDiagnostic device.identity) = 1
  /-- A device of another type is never complete, and has no addresses. -/
  other : device.identity.deviceType ≠ ethernet →
    device.addressesComplete = false ∧ device.addresses = []
  /-- The state of an Ethernet device shows its addresses, in order. -/
  mirrored : device.identity.deviceType = ethernet →
    device.state.fields.get? "ipv4" =
      some (.map [("addresses", .list (device.addresses.map addressValue))])

section

variable {packets : List RoutePacket} {addressMessages : List (AddressKey × AddressMessage)}
  {duplicated : List UInt32} {device before : DeviceObservation}
  {observed : List AddressObservation} {diagnostics : List Diagnostic} {sweep : AddressSweep}

/-- The names of the records are those of what was read of them. -/
theorem Assigned.recordKeys (h : Assigned packets addressMessages duplicated device observed) :
    recordKeys device.identity.index packets =
      observed.map (AddressObservation.key device.identity.index) := by
  have hkeys : Netfyr.recordKeys device.identity.index packets =
      ((ipv4Records device.identity.index packets).map parseAddress).filterMap fun read =>
        read.toOption.map (AddressObservation.key device.identity.index) := by
    rw [List.filterMap_map]
    rfl
  rw [hkeys, h.parsed, List.filterMap_map]
  exact congrFun
    (List.filterMap_eq_map (f := AddressObservation.key device.identity.index)) observed

/-- A record of a device was read as one of its addresses, and each address is
    one. -/
theorem Assigned.mem_observed (h : Assigned packets addressMessages duplicated device observed)
    {addr : AddressObservation} : addr ∈ observed ↔
      ∃ record ∈ ipv4Records device.identity.index packets, parseAddress record = .ok addr := by
  have hmem : addr ∈ observed ↔
      (Except.ok addr : Except String AddressObservation) ∈ observed.map Except.ok := by
    rw [List.mem_map]
    constructor
    · intro hin
      exact ⟨addr, hin, rfl⟩
    · rintro ⟨same, hin, heq⟩
      rw [← Except.ok.inj heq]
      exact hin
  rw [hmem, ← h.parsed, List.mem_map]

/-- The diagnostics issued name devices with addresses assigned twice, each once. -/
theorem count_duplicateDiagnostic {issued : List InterfaceId}
    (hnodup : (issued.map InterfaceId.index).Nodup)
    (hindex : ∀ identity ∈ issued, identity.index = device.identity.index →
      identity = device.identity) :
    (issued.map duplicateDiagnostic).count (duplicateDiagnostic device.identity) =
      if device.identity.index ∈ issued.map InterfaceId.index then 1 else 0 := by
  -- A diagnostic names its device, so different devices have different ones.
  have hinj : Function.Injective duplicateDiagnostic := by
    intro a b heq
    exact Option.some.inj (congrArg Diagnostic.target heq)
  rw [List.count_map_of_injective _ _ hinj, (hnodup.of_map _).count]
  refine if_congr ?_ rfl rfl
  constructor
  · intro hmem
    exact List.mem_map_of_mem hmem
  · intro hmem
    rcases List.mem_map.mp hmem with ⟨identity, hin, heq⟩
    rw [← hindex identity hin heq]
    exact hin

/-- What the pass did to a device is honest. -/
theorem SweptDevice.honest {issued : List InterfaceId}
    (h : SweptDevice packets addressMessages (issued.map InterfaceId.index) before device)
    (hnodup : (issued.map InterfaceId.index).Nodup)
    (hindex : ∀ identity ∈ issued, identity.index = device.identity.index →
      identity = device.identity) :
    HonestDevice packets addressMessages (issued.map duplicateDiagnostic)
      (mirrorAddresses device) := by
  have hcount := count_duplicateDiagnostic hnodup hindex
  unfold mirrorAddresses
  by_cases hethernet : device.identity.deviceType = ethernet
  · rw [if_pos hethernet]
    rcases h.own hethernet with ⟨observed, hassigned⟩
    -- A complete device has no address twice.
    have hcomplete : device.addressesComplete = true →
        (observed.map (AddressObservation.key device.identity.index)).Nodup := by
      intro hcomplete
      by_contra hdoubled
      rw [(hassigned.doubled hdoubled).1] at hcomplete
      exact Bool.false_ne_true hcomplete
    refine ⟨?_, ?_, ?_, fun hother => absurd hethernet hother, ?_⟩
    · intro hdevice
      have hdistinct := hcomplete hdevice
      rw [(hassigned.distinct hdistinct).2.1]
      exact ⟨hassigned.parsed, hdistinct⟩
    · intro hdevice key hkey record
      have hdistinct := hcomplete hdevice
      have hsource := (hassigned.distinct hdistinct).2.2.2
      constructor
      · intro hlookup
        -- A key that is known is that of an address, and no other record has the key.
        have hknown := (hassigned.known key hkey).mp (by rw [hlookup, Option.isSome_some])
        rcases List.mem_map.mp hknown with ⟨addr, haddr, heq⟩
        rcases hassigned.mem_observed.mp haddr with ⟨own, hown, hparse⟩
        have hkept := hsource own hown addr hparse
        rw [heq, hlookup] at hkept
        rw [Option.some.inj hkept]
        exact ⟨hown, addr, hparse, heq⟩
      · rintro ⟨hrecord, addr, hparse, rfl⟩
        exact hsource record hrecord addr hparse
    · intro _
      dsimp only
      rw [hassigned.recordKeys, hcount]
      split
      · next hdistinct =>
          rcases hassigned.distinct hdistinct with ⟨hdevice, _, hnot, _⟩
          exact ⟨hdevice, if_neg hnot⟩
      · next hdoubled =>
          rcases hassigned.doubled hdoubled with ⟨hdevice, hmem⟩
          exact ⟨hdevice, if_pos hmem⟩
    · intro _
      exact (State.get?_setField _ _ _ _ _).trans (if_pos rfl)
  · rw [if_neg hethernet]
    -- What is said of complete devices does not concern this one.
    rcases h.other hethernet with ⟨hincomplete, hempty⟩
    refine ⟨?_, ?_, fun hown => absurd hown hethernet, fun _ => ⟨hincomplete, hempty⟩,
      fun hown => absurd hown hethernet⟩
    · intro hdevice
      rw [hincomplete] at hdevice
      exact absurd hdevice Bool.false_ne_true
    · intro hdevice
      rw [hincomplete] at hdevice
      exact absurd hdevice Bool.false_ne_true

end

/-- The pass over an address dump fails exactly on a packet that it cannot take.
    Otherwise it keeps the devices, adds diagnostics about devices with an
    address assigned twice, and says the truth about each device. -/
theorem observeAddresses_honest (devices : List DeviceObservation) (diagnostics : List Diagnostic)
    (packets : List RoutePacket)
    (hdistinct : (devices.map fun device => device.identity.index).Nodup)
    (hunread : Unread devices) :
    ((∃ error, observeAddresses devices diagnostics packets = .error error) ↔
        ∃ packet ∈ packets, Refused devices packet) ∧
      ∀ sweep, observeAddresses devices diagnostics packets = .ok sweep →
        sweep.devices.map DeviceObservation.identity = devices.map DeviceObservation.identity ∧
          ∃ issued, sweep.diagnostics = diagnostics ++ issued ∧
            ∀ device ∈ sweep.devices,
              HonestDevice packets sweep.addressMessages issued device := by
  have hstart : Swept devices diagnostics []
      { devices, addressMessages := [], duplicated := [], diagnostics } := swept_start hunread
  -- The invariant of the pass, from the devices as the link dump leaves them.
  have hfold := foldlM_swept hdistinct packets hstart
  rw [observeAddresses]
  rcases hfold with ⟨last, hlast, hswept, hall⟩ | ⟨error, herror, hrefused⟩
  · rw [hlast]
    constructor
    · constructor
      · rintro ⟨error, herror⟩
        exact absurd herror (by simp only [bind, Except.bind, reduceCtorEq, not_false_eq_true])
      · rintro ⟨packet, hmem, hbad⟩
        exact absurd hbad (hall packet hmem)
    · intro sweep hsweep
      rw [← Except.ok.inj hsweep]
      rw [List.nil_append] at hswept
      rcases hswept.issued with ⟨issued, hdiagnostics, hduplicated, hissued⟩
      -- The last loop writes states only.
      have hmirror : ∀ device, (mirrorAddresses device).identity = device.identity := by
        intro device
        unfold mirrorAddresses
        split <;> rfl
      refine ⟨?_, issued.map duplicateDiagnostic, hdiagnostics, ?_⟩
      · rw [← hswept.identities, List.map_map]
        exact List.map_congr_left fun device _ => hmirror device
      · intro device hdevice
        rcases List.mem_map.mp hdevice with ⟨read, hread, rfl⟩
        -- An index names one device, before and after the pass.
        have hindices : (last.devices.map fun device => device.identity.index).Nodup := by
          have hmap := congrArg (List.map InterfaceId.index) hswept.identities
          rw [List.map_map, List.map_map] at hmap
          exact hmap ▸ hdistinct
        rcases exists_of_mem_forall₂ hswept.devices hread with ⟨before, _, hbefore⟩
        rw [hduplicated] at hbefore
        refine hbefore.honest (hduplicated ▸ hswept.nodup) ?_
        intro identity hidentity hindex
        have hmem := (hissued identity hidentity).1
        rw [← hswept.identities] at hmem
        rcases List.mem_map.mp hmem with ⟨same, hsame, rfl⟩
        rw [List.inj_on_of_nodup_map hindices hsame hread hindex]
  · rw [herror]
    refine ⟨iff_of_true ⟨error, rfl⟩ hrefused, ?_⟩
    intro sweep hsweep
    exact absurd hsweep (by simp only [bind, Except.bind, reduceCtorEq, not_false_eq_true])

/-- A device that was observed, before the address dump is read. -/
def observedDevice (deviceType : String) : DeviceObservation where
  identity :=
    { namespaceId := { device := 4, inode := 1 }, index := 2, generation := 9, name := "net2",
      deviceType, mac := none }
  state := State.new .kernel
  addresses := []
  addressesComplete := deviceType == ethernet
  observedAt := 0

/-- A packet with an address of the device of an index, towards a peer. -/
def addressPacket (index : UInt32) (own peer : Ipv4Addr) : RoutePacket where
  kind := rtmNewaddr
  link := { header := .error "not a link", attributes := [] }
  address := .ok
    { family := .inet, prefixLen := 24, flags := 0, scope := 0, index
      attributes := [.local' (.v4 own), .address (.v4 peer),
        .cacheInfo { ifaPreferred := u32Max, ifaValid := u32Max }] }

/-- A packet with 192.0.2.1/24 for the device of index 2, towards a peer. -/
def peerPacket (peer : Ipv4Addr) : RoutePacket :=
  addressPacket 2 (Ipv4Addr.new 192 0 2 1) peer

/-- The device under another index. -/
def renumbered (index : UInt32) (name deviceType : String) : DeviceObservation :=
  { observedDevice deviceType with
    identity := { (observedDevice deviceType).identity with index, name } }

/-- Two Ethernet devices and a wireless one. -/
def observedDevices : List DeviceObservation :=
  [observedDevice ethernet, renumbered 3 "wlan3" "wifi", renumbered 4 "net4" ethernet]

/-- The first has an address twice, and the others have one each. -/
def observedPackets : List RoutePacket :=
  [peerPacket (Ipv4Addr.new 192 0 2 2),
    addressPacket 3 (Ipv4Addr.new 198 51 100 1) (Ipv4Addr.new 198 51 100 1),
    addressPacket 4 (Ipv4Addr.new 192 0 2 9) (Ipv4Addr.new 192 0 2 9),
    peerPacket (Ipv4Addr.new 192 0 2 3)]

/-- The first device is incomplete and has a diagnostic, and the last has its
    address. -/
theorem observeAddresses_honest_ethernet : ∃ sweep issued,
    observeAddresses observedDevices [] observedPackets = .ok sweep ∧
      sweep.devices.map (fun device => (device.addressesComplete, device.addresses.length)) =
        [(false, 1), (false, 0), (true, 1)] ∧
      issued = [duplicateDiagnostic (observedDevice ethernet).identity] ∧
        ∀ device ∈ sweep.devices,
          HonestDevice observedPackets sweep.addressMessages issued device := by
  have hunread : Unread observedDevices := by
    intro device hdevice
    simp only [observedDevices, List.mem_cons, List.not_mem_nil, or_false] at hdevice
    rcases hdevice with rfl | rfl | rfl
    · exact ⟨rfl, rfl⟩
    · exact ⟨rfl, rfl⟩
    · exact ⟨rfl, rfl⟩
  have hhonest := observeAddresses_honest observedDevices [] observedPackets (by decide) hunread
  rcases hhonest.2 _ rfl with ⟨_, issued, hissued, hdevices⟩
  exact ⟨_, issued, rfl, rfl, hissued.symm, hdevices⟩

/-- A wireless device with an address towards two peers has no diagnostic that
    says so: its records are passed over. -/
theorem observeAddresses_undiagnosed :
    ¬ (recordKeys (observedDevice "wifi").identity.index
        [peerPacket (Ipv4Addr.new 192 0 2 2), peerPacket (Ipv4Addr.new 192 0 2 3)]).Nodup ∧
      ∃ sweep, observeAddresses [observedDevice "wifi"] []
          [peerPacket (Ipv4Addr.new 192 0 2 2), peerPacket (Ipv4Addr.new 192 0 2 3)] = .ok sweep ∧
        sweep.devices = [observedDevice "wifi"] ∧
          sweep.diagnostics.count (duplicateDiagnostic (observedDevice "wifi").identity) ≠ 1 := by
  refine ⟨by decide, _, rfl, rfl, ?_⟩
  decide

end Netfyr
