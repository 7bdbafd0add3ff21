import Netfyr.Data.Lists
import Netfyr.Linux.Message

/-!
# The Address Dump

How an inventory assigns the records of an address dump to the devices it
observed. One pass keeps three things: the addresses of each device, the record
that each address was read from, and which devices have an address twice. A
local address may be assigned more than once, with different peers; what a plan
can name is an address and its prefix length, so the device is then incomplete.

`Swept` says what the pass has done to the records so far, device by device: an
Ethernet device has all its addresses as long as they are distinct.

## Main definitions

* `observeAddress`, `observeAddresses`: The pass.
* `ipv4Records`: The records of a device.
* `Refused`: A packet that the pass does not take.
* `Swept`: What the pass has done.

## Theorems

* `observeAddress_cases`: Everything that the pass can do with one packet.
* `observeAddress_swept`: One packet.
* `foldlM_swept`: A whole dump.
-/

namespace Netfyr

/-- A diagnostic about a field. -/
def diagnostic (target : Option InterfaceId) (field message : String) : Diagnostic :=
  { target, field := some field, message }

/-- What the pass over an address dump keeps. -/
structure AddressSweep where
  devices : List DeviceObservation
  addressMessages : List (AddressKey × AddressMessage)
  duplicated : List UInt32
  diagnostics : List Diagnostic

/-- The diagnostic of a device with an address assigned twice. -/
def duplicateDiagnostic (identity : InterfaceId) : Diagnostic :=
  diagnostic (some identity) "ipv4.addresses"
    "local address assigned more than once with different peers; address operations are refused"

/-- Take over an address of a device, and the record it was read from. -/
def AddressSweep.record (self : AddressSweep) (identity : InterfaceId) (message : AddressMessage)
    (observed : AddressObservation) : AddressSweep :=
  let index := identity.index
  let key : AddressKey := ⟨index, observed.address.ip, observed.address.prefixLen⟩
  let addressMessages := Assoc.insert self.addressMessages key message
  let update := fun f => updateFirst (fun device : DeviceObservation =>
    device.identity.index == index) f self.devices
  if (self.addressMessages.lookup key).isSome then
    -- The plan model names an address by local IP and prefix only.
    { devices := update fun device => { device with addressesComplete := false }
      addressMessages
      duplicated := if index ∈ self.duplicated then self.duplicated else self.duplicated ++ [index]
      diagnostics := if index ∈ self.duplicated then self.diagnostics
        else self.diagnostics ++ [duplicateDiagnostic identity] }
  else
    { self with
      devices := update fun device => { device with addresses := device.addresses ++ [observed] }
      addressMessages }

/-- Take over one packet of an address dump. -/
def observeAddress (sweep : AddressSweep) (packet : RoutePacket) :
    Except BackendError AddressSweep :=
  if packet.kind ≠ rtmNewaddr then
    .error (.new .queryFailed "unexpected response in address dump")
  else
    match packet.address with
    | .error error => .error (.new .queryFailed s!"incomplete IPv4 observation: {error}")
    | .ok message =>
        -- The dump has every family; only IPv4 is observed.
        if message.family ≠ .inet then .ok sweep
        else
          let index := message.index
          match sweep.devices.find? fun device => device.identity.index == index with
          | none =>
              .error (.new .queryFailed
                s!"address inventory contains an unobserved interface {index.toNat}; query again")
          | some device =>
              -- Other devices are observed without addresses.
              if device.identity.deviceType ≠ ethernet then .ok sweep
              else
                match parseAddress message with
                | .error error =>
                    .error (.new .queryFailed
                      s!"{device.identity.name}: incomplete IPv4 observation: {error}")
                | .ok observed => .ok (sweep.record device.identity message observed)

/-- Show the addresses of an Ethernet device in its state. -/
def mirrorAddresses (device : DeviceObservation) : DeviceObservation :=
  if device.identity.deviceType = ethernet then
    { device with state := insertAddresses device.state device.addresses }
  else device

/-- Assign the packets of an address dump to the devices. -/
def observeAddresses (devices : List DeviceObservation) (diagnostics : List Diagnostic)
    (packets : List RoutePacket) : Except BackendError AddressSweep := do
  let sweep ← packets.foldlM observeAddress
    { devices, addressMessages := [], duplicated := [], diagnostics }
  .ok { sweep with devices := sweep.devices.map mirrorAddresses }

/-- The IPv4 record that a packet carries, if it is one of an index. -/
def ipv4Record? (index : UInt32) (packet : RoutePacket) : Option AddressMessage :=
  match packet.address with
  | .ok message => if message.family = .inet ∧ message.index = index then some message else none
  | .error _ => none

/-- The IPv4 records of an index, in dump order. -/
def ipv4Records (index : UInt32) (packets : List RoutePacket) : List AddressMessage :=
  packets.filterMap (ipv4Record? index)

/-- How an operation names an address of the device of an index. -/
def AddressObservation.key (index : UInt32) (self : AddressObservation) : AddressKey :=
  { index, ip := self.address.ip, prefixLen := self.address.prefixLen }

/-- A packet that the pass does not take: no address packet, one that cannot be
    read, or an IPv4 record of no device or of an Ethernet device that cannot be
    used. -/
def Refused (devices : List DeviceObservation) (packet : RoutePacket) : Prop :=
  packet.kind ≠ rtmNewaddr ∨ (∃ error, packet.address = .error error) ∨
    ∃ message, packet.address = .ok message ∧ message.family = .inet ∧
      ((∀ device ∈ devices, device.identity.index ≠ message.index) ∨
        ∃ device ∈ devices, device.identity.index = message.index ∧
          device.identity.deviceType = ethernet ∧ ∃ error, parseAddress message = .error error)

/-- What the pass has made of the records of an Ethernet device. -/
structure Assigned (seen : List RoutePacket)
    (addressMessages : List (AddressKey × AddressMessage))
    (duplicated : List UInt32) (device : DeviceObservation)
    (observed : List AddressObservation) : Prop where
  parsed : (ipv4Records device.identity.index seen).map parseAddress = observed.map .ok
  known : ∀ key : AddressKey, key.index = device.identity.index →
    ((addressMessages.lookup key).isSome = true ↔
      key ∈ observed.map (AddressObservation.key device.identity.index))
  distinct : (observed.map (AddressObservation.key device.identity.index)).Nodup →
    device.addressesComplete = true ∧ device.addresses = observed ∧
      device.identity.index ∉ duplicated ∧
        ∀ record ∈ ipv4Records device.identity.index seen, ∀ addr, parseAddress record = .ok addr →
          addressMessages.lookup (addr.key device.identity.index) = some record
  doubled : ¬ (observed.map (AddressObservation.key device.identity.index)).Nodup →
    device.addressesComplete = false ∧ device.identity.index ∈ duplicated

/-- What the pass has done to a device. -/
structure SweptDevice (seen : List RoutePacket)
    (addressMessages : List (AddressKey × AddressMessage))
    (duplicated : List UInt32) (before device : DeviceObservation) : Prop where
  identity : device.identity = before.identity
  state : device.state = before.state
  other : device.identity.deviceType ≠ ethernet →
    device.addressesComplete = false ∧ device.addresses = []
  own : device.identity.deviceType = ethernet →
    ∃ observed, Assigned seen addressMessages duplicated device observed

/-- What the pass has done: to each device, and in diagnostics, of which each
    device with an address assigned twice has one. -/
structure Swept (start : List DeviceObservation) (diagnostics : List Diagnostic)
    (seen : List RoutePacket) (sweep : AddressSweep) : Prop where
  devices : List.Forall₂ (SweptDevice seen sweep.addressMessages sweep.duplicated) start
    sweep.devices
  issued : ∃ issued : List InterfaceId,
    sweep.diagnostics = diagnostics ++ issued.map duplicateDiagnostic ∧
      sweep.duplicated = issued.map InterfaceId.index ∧
        ∀ identity ∈ issued, identity ∈ start.map DeviceObservation.identity ∧
          identity.deviceType = ethernet
  nodup : sweep.duplicated.Nodup

section Sweep

variable {seen : List RoutePacket} {packet : RoutePacket} {message : AddressMessage}
  {addressMessages : List (AddressKey × AddressMessage)}
  {duplicated : List UInt32} {device before : DeviceObservation} {start : List DeviceObservation}
  {observed : List AddressObservation} {addr : AddressObservation} {diagnostics : List Diagnostic}
  {sweep sweep' : AddressSweep}

theorem ipv4Records_append {index : UInt32} : ipv4Records index (seen ++ [packet]) =
    ipv4Records index seen ++ (ipv4Record? index packet).toList := by
  rw [ipv4Records, List.filterMap_append, List.filterMap_cons, List.filterMap_nil]
  cases ipv4Record? index packet with
  | none => rfl
  | some record => rfl

/-- A record of another device, or none, changes nothing for a device. -/
theorem Assigned.skip (h : Assigned seen addressMessages duplicated device observed)
    (hnone : ipv4Record? device.identity.index packet = none) :
    Assigned (seen ++ [packet]) addressMessages duplicated device observed := by
  have hrecords : ipv4Records device.identity.index (seen ++ [packet]) =
      ipv4Records device.identity.index seen := by
    rw [ipv4Records_append, hnone, Option.toList_none, List.append_nil]
  exact ⟨hrecords ▸ h.parsed, h.known, hrecords ▸ h.distinct, h.doubled⟩

/-- What is kept under another index does not matter. -/
theorem Assigned.congr (h : Assigned seen addressMessages duplicated device observed)
    {addressMessages' : List (AddressKey × AddressMessage)} {duplicated' : List UInt32}
    (hmessages : ∀ key : AddressKey, key.index = device.identity.index →
      addressMessages'.lookup key = addressMessages.lookup key)
    (hduplicated : device.identity.index ∈ duplicated' ↔ device.identity.index ∈ duplicated) :
    Assigned seen addressMessages' duplicated' device observed := by
  refine ⟨h.parsed, ?_, ?_, ?_⟩
  · intro key hkey
    rw [hmessages key hkey]
    exact h.known key hkey
  · intro hdistinct
    rcases h.distinct hdistinct with ⟨hcomplete, haddresses, hnot, hsource⟩
    refine ⟨hcomplete, haddresses, fun hmem => hnot (hduplicated.mp hmem), ?_⟩
    intro record hmem addr haddr
    rw [hmessages _ rfl]
    exact hsource record hmem addr haddr
  · intro hdoubled
    rcases h.doubled hdoubled with ⟨hcomplete, hmem⟩
    exact ⟨hcomplete, hduplicated.mpr hmem⟩

/-- A record of a device is one of its records, and names a known address or a
    new one. -/
theorem Assigned.record (h : Assigned seen addressMessages duplicated device observed)
    (hrecord : ipv4Record? device.identity.index packet = some message)
    (hparse : parseAddress message = .ok addr) :
    (ipv4Records device.identity.index (seen ++ [packet])).map parseAddress =
        (observed ++ [addr]).map .ok ∧
      ∀ key : AddressKey, key.index = device.identity.index →
        (((Assoc.insert addressMessages (addr.key device.identity.index) message).lookup
            key).isSome = true ↔
          key ∈ (observed ++ [addr]).map (AddressObservation.key device.identity.index)) := by
  constructor
  · rw [ipv4Records_append, hrecord, Option.toList_some, List.map_append, List.map_append,
      h.parsed, List.map_singleton, List.map_singleton, hparse]
  · intro key hindex
    rw [Assoc.lookup_insert, List.map_append, List.map_singleton, List.mem_append,
      List.mem_singleton, ← h.known key hindex]
    by_cases hkey : key = addr.key device.identity.index
    · rw [if_pos hkey]
      exact iff_of_true rfl (Or.inr hkey)
    · rw [if_neg hkey, or_iff_left hkey]

/-- A known address makes its device incomplete. -/
theorem Assigned.again (h : Assigned seen addressMessages duplicated device observed)
    (hrecord : ipv4Record? device.identity.index packet = some message)
    (hparse : parseAddress message = .ok addr)
    (hknown : (addressMessages.lookup (addr.key device.identity.index)).isSome = true)
    {duplicated' : List UInt32} (hduplicated : device.identity.index ∈ duplicated') :
    Assigned (seen ++ [packet])
      (Assoc.insert addressMessages (addr.key device.identity.index) message) duplicated'
      { device with addressesComplete := false } (observed ++ [addr]) := by
  have hmem := (h.known _ rfl).mp hknown
  rcases h.record hrecord hparse with ⟨hparsed, hkeys⟩
  refine ⟨hparsed, hkeys, ?_, fun _ => ⟨rfl, hduplicated⟩⟩
  intro hdistinct
  rw [List.map_append, List.map_singleton, List.nodup_append] at hdistinct
  -- Its name is already among those observed.
  exact absurd rfl (hdistinct.2.2 _ hmem _ (List.mem_singleton_self _))

/-- A new address is added to its device. -/
theorem Assigned.add (h : Assigned seen addressMessages duplicated device observed)
    (hrecord : ipv4Record? device.identity.index packet = some message)
    (hparse : parseAddress message = .ok addr)
    (hnew : ¬ (addressMessages.lookup (addr.key device.identity.index)).isSome = true) :
    Assigned (seen ++ [packet])
      (Assoc.insert addressMessages (addr.key device.identity.index) message) duplicated
      { device with addresses := device.addresses ++ [addr] } (observed ++ [addr]) := by
  have hnot : addr.key device.identity.index ∉
      observed.map (AddressObservation.key device.identity.index) := fun hmem =>
    hnew ((h.known _ rfl).mpr hmem)
  have hnodup : ((observed ++ [addr]).map (AddressObservation.key device.identity.index)).Nodup ↔
      (observed.map (AddressObservation.key device.identity.index)).Nodup := by
    rw [List.map_append, List.map_singleton, ← List.concat_eq_append, List.nodup_concat,
      and_iff_right hnot]
  rcases h.record hrecord hparse with ⟨hparsed, hkeys⟩
  refine ⟨hparsed, hkeys, ?_, ?_⟩
  · intro hdistinct
    rcases h.distinct (hnodup.mp hdistinct) with ⟨hcomplete, haddresses, hindex, hsource⟩
    refine ⟨hcomplete, congrArg (· ++ [addr]) haddresses, hindex, ?_⟩
    intro record hmem other hother
    rw [ipv4Records_append, hrecord, Option.toList_some, List.mem_append,
      List.mem_singleton] at hmem
    rw [Assoc.lookup_insert]
    rcases hmem with hold | rfl
    · -- An address of an earlier record has another name.
      have hin : other ∈ observed := by
        have hmapped : (Except.ok other : Except String AddressObservation) ∈
            observed.map Except.ok := by
          rw [← h.parsed, ← hother]
          exact List.mem_map_of_mem hold
        rcases List.mem_map.mp hmapped with ⟨same, hsame, heq⟩
        rw [← Except.ok.inj heq]
        exact hsame
      have hne : ¬ other.key device.identity.index = addr.key device.identity.index := by
        intro heq
        rw [← heq] at hnot
        exact hnot (List.mem_map_of_mem hin)
      rw [if_neg hne]
      exact hsource record hold other hother
    · rw [hparse] at hother
      rw [Except.ok.inj hother, if_pos rfl]
  · intro hdoubled
    exact h.doubled fun hdistinct => hdoubled (hnodup.mpr hdistinct)

theorem Swept.identities (h : Swept start diagnostics seen sweep) :
    sweep.devices.map DeviceObservation.identity = start.map DeviceObservation.identity := by
  have hmap : ∀ {befores devices : List DeviceObservation},
      List.Forall₂ (SweptDevice seen sweep.addressMessages sweep.duplicated) befores devices →
        devices.map DeviceObservation.identity = befores.map DeviceObservation.identity := by
    intro befores devices hdevices
    induction hdevices with
    | nil => rfl
    | cons hdevice hrest ih => rw [List.map_cons, List.map_cons, hdevice.identity, ih]
  exact hmap h.devices

theorem Swept.distinct (h : Swept start diagnostics seen sweep)
    (hdistinct : (start.map fun device => device.identity.index).Nodup) :
    (sweep.devices.map fun device => device.identity.index).Nodup := by
  have hmap : ∀ devices : List DeviceObservation,
      devices.map (fun device => device.identity.index) =
        (devices.map DeviceObservation.identity).map InterfaceId.index := by
    intro devices
    rw [List.map_map]
    rfl
  rw [hmap, h.identities, ← hmap]
  exact hdistinct

/-- A packet without a record for any Ethernet device changes nothing. -/
theorem Swept.skip (h : Swept start diagnostics seen sweep)
    (hnone : ∀ device ∈ sweep.devices, device.identity.deviceType = ethernet →
      ipv4Record? device.identity.index packet = none) :
    Swept start diagnostics (seen ++ [packet]) sweep := by
  refine ⟨forall₂_imp_mem h.devices ?_, h.issued, h.nodup⟩
  intro before _ device hmem hdevice
  refine ⟨hdevice.identity, hdevice.state, hdevice.other, ?_⟩
  intro hethernet
  rcases hdevice.own hethernet with ⟨observed, hassigned⟩
  exact ⟨observed, hassigned.skip (hnone device hmem hethernet)⟩

/-- The update of the device that a record is about. -/
theorem Swept.update (h : Swept start diagnostics seen sweep)
    (hdistinct : (start.map fun device => device.identity.index).Nodup)
    (hfound : device ∈ sweep.devices) (hethernet : device.identity.deviceType = ethernet)
    (hothers : ∀ index, index ≠ device.identity.index → ipv4Record? index packet = none)
    {f : DeviceObservation → DeviceObservation} (hidentity : ∀ d, (f d).identity = d.identity)
    (hstate : ∀ d, (f d).state = d.state)
    (hmessages : ∀ key : AddressKey, key.index ≠ device.identity.index →
      addressMessages.lookup key = sweep.addressMessages.lookup key)
    (hduplicated : ∀ index, index ≠ device.identity.index →
      (index ∈ duplicated ↔ index ∈ sweep.duplicated))
    (hown : ∀ observed, Assigned seen sweep.addressMessages sweep.duplicated device observed →
      ∃ observed', Assigned (seen ++ [packet]) addressMessages duplicated (f device) observed') :
    List.Forall₂ (SweptDevice (seen ++ [packet]) addressMessages duplicated) start
      (updateFirst (fun d => d.identity.index == device.identity.index) f sweep.devices) := by
  have hnodup := h.distinct hdistinct
  rw [updateFirst_eq_map hnodup, List.forall₂_map_right_iff]
  refine forall₂_imp_mem h.devices ?_
  intro before _ other hmem hswept
  by_cases hindex : other.identity.index = device.identity.index
  · -- The device of the record: indices are distinct, so there is one.
    obtain rfl := List.inj_on_of_nodup_map hnodup hmem hfound hindex
    rw [if_pos rfl]
    refine ⟨(hidentity other).trans hswept.identity, (hstate other).trans hswept.state, ?_, ?_⟩
    · intro hother
      rw [hidentity] at hother
      exact absurd hethernet hother
    · intro _
      rcases hswept.own hethernet with ⟨observed, hassigned⟩
      exact hown observed hassigned
  · rw [if_neg hindex]
    refine ⟨hswept.identity, hswept.state, hswept.other, ?_⟩
    intro hother
    rcases hswept.own hother with ⟨observed, hassigned⟩
    -- Any other device, for which nothing was recorded.
    refine ⟨observed, (hassigned.skip (hothers _ hindex)).congr ?_ (hduplicated _ hindex)⟩
    intro key hkey
    exact hmessages key (hkey ▸ hindex)

/-- An address is taken over for its device. -/
theorem Swept.record (h : Swept start diagnostics seen sweep)
    (hdistinct : (start.map fun device => device.identity.index).Nodup)
    (hfound : device ∈ sweep.devices) (hethernet : device.identity.deviceType = ethernet)
    (hrecord : ipv4Record? device.identity.index packet = some message)
    (hothers : ∀ index, index ≠ device.identity.index → ipv4Record? index packet = none)
    (hparse : parseAddress message = .ok addr) :
    Swept start diagnostics (seen ++ [packet]) (sweep.record device.identity message addr) := by
  have hmessages : ∀ key : AddressKey, key.index ≠ device.identity.index →
      (Assoc.insert sweep.addressMessages (addr.key device.identity.index) message).lookup key =
        sweep.addressMessages.lookup key := by
    intro key hne
    rw [Assoc.lookup_insert, if_neg]
    intro heq
    exact hne (congrArg AddressKey.index heq)
  unfold AddressSweep.record
  dsimp only
  by_cases hknown : (sweep.addressMessages.lookup
      (addr.key device.identity.index)).isSome = true
  · -- A name seen before: the device is incomplete, reported once.
    have hif : (sweep.addressMessages.lookup ⟨device.identity.index, addr.address.ip,
        addr.address.prefixLen⟩).isSome = true := hknown
    rw [if_pos hif]
    have hmem : ∀ index, index ∈ (if device.identity.index ∈ sweep.duplicated
        then sweep.duplicated else sweep.duplicated ++ [device.identity.index]) ↔
          index ∈ sweep.duplicated ∨ index = device.identity.index := by
      intro index
      split
      · next hin =>
          refine ⟨Or.inl, ?_⟩
          rintro (hold | rfl)
          · exact hold
          · exact hin
      · rw [List.mem_append, List.mem_singleton]
    refine ⟨h.update hdistinct hfound hethernet hothers (fun _ => rfl) (fun _ => rfl)
      hmessages ?_ ?_, ?_, ?_⟩
    · intro index hne
      exact (hmem index).trans (or_iff_left hne)
    · intro observed hassigned
      exact ⟨_, hassigned.again hrecord hparse hknown ((hmem _).mpr (Or.inr rfl))⟩
    · rcases h.issued with ⟨issued, hdiagnostics, hduplicated, hissued⟩
      by_cases hin : device.identity.index ∈ sweep.duplicated
      · simp only [if_pos hin]
        exact ⟨issued, hdiagnostics, hduplicated, hissued⟩
      · simp only [if_neg hin]
        refine ⟨issued ++ [device.identity], ?_, ?_, ?_⟩
        · rw [hdiagnostics, List.append_assoc, List.map_append]
          rfl
        · rw [hduplicated, List.map_append]
          rfl
        · intro identity hidentity
          rcases List.mem_append.mp hidentity with hold | hlast
          · exact hissued identity hold
          · rw [List.mem_singleton.mp hlast, ← h.identities]
            exact ⟨List.mem_map_of_mem hfound, hethernet⟩
    · by_cases hin : device.identity.index ∈ sweep.duplicated
      · simp only [if_pos hin]
        exact h.nodup
      · simp only [if_neg hin]
        rw [← List.concat_eq_append, List.nodup_concat]
        exact ⟨hin, h.nodup⟩
  · -- A new name: the address joins those of its device.
    have hif : ¬ (sweep.addressMessages.lookup ⟨device.identity.index, addr.address.ip,
        addr.address.prefixLen⟩).isSome = true := hknown
    rw [if_neg hif]
    refine ⟨h.update hdistinct hfound hethernet hothers (fun _ => rfl) (fun _ => rfl)
      hmessages (fun _ _ => Iff.rfl) ?_, h.issued, h.nodup⟩
    intro observed hassigned
    exact ⟨_, hassigned.add hrecord hparse hknown⟩

/-- Everything that the pass can do with one packet. -/
theorem observeAddress_cases (sweep : AddressSweep) (packet : RoutePacket) :
    ((∃ error, observeAddress sweep packet = .error error) ∧ Refused sweep.devices packet) ∨
      ∃ message, packet.kind = rtmNewaddr ∧ packet.address = .ok message ∧
        ((message.family ≠ .inet ∧ observeAddress sweep packet = .ok sweep) ∨
          ∃ device ∈ sweep.devices, message.family = .inet ∧
            device.identity.index = message.index ∧
              ((device.identity.deviceType ≠ ethernet ∧
                  observeAddress sweep packet = .ok sweep) ∨
                ∃ addr, device.identity.deviceType = ethernet ∧ parseAddress message = .ok addr ∧
                  observeAddress sweep packet =
                    .ok (sweep.record device.identity message addr))) := by
  unfold observeAddress
  by_cases hkind : packet.kind ≠ rtmNewaddr
  · rw [if_pos hkind]
    exact Or.inl ⟨⟨_, rfl⟩, Or.inl hkind⟩
  rw [if_neg hkind]
  cases haddress : packet.address with
  | error error => exact Or.inl ⟨⟨_, rfl⟩, Or.inr (Or.inl ⟨error, haddress⟩)⟩
  | ok message =>
      dsimp only
      by_cases hfamily : message.family ≠ .inet
      · rw [if_pos hfamily]
        exact Or.inr ⟨message, not_not.mp hkind, rfl, Or.inl ⟨hfamily, rfl⟩⟩
      rw [if_neg hfamily]
      cases hfind : sweep.devices.find? fun device => device.identity.index == message.index with
      | none =>
          refine Or.inl ⟨⟨_, rfl⟩, Or.inr (Or.inr ⟨message, haddress, not_not.mp hfamily,
            Or.inl ?_⟩)⟩
          intro device hmem heq
          exact List.find?_eq_none.mp hfind device hmem (beq_iff_eq.mpr heq)
      | some device =>
          have hmem := List.mem_of_find?_eq_some hfind
          have hindex : device.identity.index = message.index := beq_iff_eq.mp
            (List.find?_some (p := fun device : DeviceObservation =>
              device.identity.index == message.index) hfind)
          dsimp only
          by_cases hother : device.identity.deviceType ≠ ethernet
          · rw [if_pos hother]
            exact Or.inr ⟨message, not_not.mp hkind, rfl, Or.inr ⟨device, hmem,
              not_not.mp hfamily, hindex, Or.inl ⟨hother, rfl⟩⟩⟩
          rw [if_neg hother]
          cases hparse : parseAddress message with
          | error error =>
              exact Or.inl ⟨⟨_, rfl⟩, Or.inr (Or.inr ⟨message, haddress, not_not.mp hfamily,
                Or.inr ⟨device, hmem, hindex, not_not.mp hother, error, hparse⟩⟩)⟩
          | ok addr =>
              exact Or.inr ⟨message, not_not.mp hkind, rfl, Or.inr ⟨device, hmem,
                not_not.mp hfamily, hindex, Or.inr ⟨addr, not_not.mp hother, hparse, rfl⟩⟩⟩

/-- One packet: what was done to the packets before is done to it. -/
theorem observeAddress_swept (hdistinct : (start.map fun device => device.identity.index).Nodup)
    (h : Swept start diagnostics seen sweep) (hstep : observeAddress sweep packet = .ok sweep') :
    Swept start diagnostics (seen ++ [packet]) sweep' := by
  rcases observeAddress_cases sweep packet with
    ⟨⟨error, herror⟩, _⟩ | ⟨message, _, haddress, hcase⟩
  · rw [herror] at hstep
    exact absurd hstep (by simp only [reduceCtorEq, not_false_eq_true])
  · have hrecord? : ∀ index, ipv4Record? index packet =
        if message.family = .inet ∧ message.index = index then some message else none := by
      intro index
      rw [ipv4Record?, haddress]
    rcases hcase with ⟨hfamily, hsame⟩ | ⟨device, hfound, hfamily, hindex, hcase⟩
    · rw [← Except.ok.inj (hsame.symm.trans hstep)]
      refine h.skip fun other _ _ => ?_
      rw [hrecord?]
      exact if_neg fun hboth => hfamily hboth.1
    · have hothers : ∀ index, index ≠ device.identity.index → ipv4Record? index packet = none := by
        intro index hne
        rw [hrecord?, ← hindex]
        exact if_neg fun hboth => hne hboth.2.symm
      rcases hcase with ⟨hother, hsame⟩ | ⟨addr, hethernet, hparse, hrecorded⟩
      · rw [← Except.ok.inj (hsame.symm.trans hstep)]
        refine h.skip fun other hmem hethernet => hothers _ fun heq => hother ?_
        -- An Ethernet device of that index would be the one found.
        rw [List.inj_on_of_nodup_map (h.distinct hdistinct) hfound hmem heq.symm]
        exact hethernet
      · rw [← Except.ok.inj (hrecorded.symm.trans hstep)]
        have hown : ipv4Record? device.identity.index packet = some message := by
          rw [hrecord?]
          exact if_pos ⟨hfamily, hindex.symm⟩
        exact h.record hdistinct hfound hethernet hown hothers hparse

/-- Whether a packet is taken is a matter of the identities. -/
theorem refused_congr {devices devices' : List DeviceObservation}
    (h : devices.map DeviceObservation.identity = devices'.map DeviceObservation.identity) :
    Refused devices packet ↔ Refused devices' packet := by
  have hiff : ∀ P : InterfaceId → Prop,
      (∃ device ∈ devices, P device.identity) ↔ ∃ device ∈ devices', P device.identity := by
    intro P
    have hmem : ∀ list : List DeviceObservation, (∃ device ∈ list, P device.identity) ↔
        ∃ identity ∈ list.map DeviceObservation.identity, P identity := by
      intro list
      simp only [List.mem_map, exists_exists_and_eq_and]
    rw [hmem, hmem, h]
  unfold Refused
  refine or_congr_right (or_congr_right (exists_congr fun message => and_congr_right fun _ =>
    and_congr_right fun _ => or_congr ?_ ?_))
  · have hnone := not_congr (hiff fun identity => identity.index = message.index)
    simp only [not_exists, not_and] at hnone
    exact hnone
  · exact hiff fun identity => identity.index = message.index ∧ identity.deviceType = ethernet ∧
      ∃ error, parseAddress message = .error error

/-- A packet that was taken is not refused. -/
theorem not_refused (hdistinct : (sweep.devices.map fun device => device.identity.index).Nodup)
    (hstep : observeAddress sweep packet = .ok sweep') : ¬ Refused sweep.devices packet := by
  rcases observeAddress_cases sweep packet with
    ⟨⟨error, herror⟩, _⟩ | ⟨message, hkind, haddress, hcase⟩
  · rw [herror] at hstep
    exact absurd hstep (by simp only [reduceCtorEq, not_false_eq_true])
  · rintro (hbad | ⟨error, herror⟩ | ⟨message', haddress', hfamily, hbad⟩)
    · exact hbad hkind
    · rw [haddress] at herror
      exact absurd herror (by simp only [reduceCtorEq, not_false_eq_true])
    · obtain rfl := Except.ok.inj (haddress.symm.trans haddress')
      rcases hcase with ⟨hother, _⟩ | ⟨device, hfound, _, hindex, hcase⟩
      · exact hother hfamily
      · rcases hbad with hnone | ⟨device', hfound', hindex', hethernet', error, herror⟩
        · exact hnone device hfound hindex
        · obtain rfl := List.inj_on_of_nodup_map hdistinct hfound hfound'
            (hindex.trans hindex'.symm)
          rcases hcase with ⟨hother, _⟩ | ⟨addr, _, hparse, _⟩
          · exact hother hethernet'
          · rw [hparse] at herror
            exact absurd herror (by simp only [reduceCtorEq, not_false_eq_true])

/-- A whole dump, behind the packets that were taken before. -/
theorem foldlM_swept (hdistinct : (start.map fun device => device.identity.index).Nodup)
    (packets : List RoutePacket) (h : Swept start diagnostics seen sweep) :
    (∃ sweep', packets.foldlM observeAddress sweep = .ok sweep' ∧
        Swept start diagnostics (seen ++ packets) sweep' ∧
          ∀ packet ∈ packets, ¬ Refused start packet) ∨
      ∃ error, packets.foldlM observeAddress sweep = .error error ∧
        ∃ packet ∈ packets, Refused start packet := by
  induction packets generalizing seen sweep with
  | nil =>
      refine Or.inl ⟨sweep, rfl, ?_, fun packet hmem => absurd hmem List.not_mem_nil⟩
      rw [List.append_nil]
      exact h
  | cons packet packets ih =>
      rw [List.foldlM_cons]
      cases hstep : observeAddress sweep packet with
      | error error =>
          refine Or.inr ⟨error, rfl, packet, List.mem_cons_self, ?_⟩
          rw [← refused_congr h.identities]
          rcases observeAddress_cases sweep packet with ⟨_, hrefused⟩ | ⟨message, _, _, hcase⟩
          · exact hrefused
          · rcases hcase with ⟨_, hok⟩ | ⟨device, _, _, _, ⟨_, hok⟩ | ⟨addr, _, _, hok⟩⟩
            · exact absurd (hok.symm.trans hstep) (by simp only [reduceCtorEq, not_false_eq_true])
            · exact absurd (hok.symm.trans hstep) (by simp only [reduceCtorEq, not_false_eq_true])
            · exact absurd (hok.symm.trans hstep) (by simp only [reduceCtorEq, not_false_eq_true])
      | ok next =>
          have hnext := observeAddress_swept hdistinct h hstep
          have htaken := not_refused (h.distinct hdistinct) hstep
          rw [refused_congr h.identities] at htaken
          rcases ih hnext with ⟨last, hlast, hswept, hall⟩ | ⟨error, herror, bad, hmem, hbad⟩
          · refine Or.inl ⟨last, hlast, ?_, List.forall_mem_cons.mpr ⟨htaken, hall⟩⟩
            rw [List.append_cons]
            exact hswept
          · exact Or.inr ⟨error, herror, bad, List.mem_cons_of_mem _ hmem, hbad⟩

/-- The devices as they are before the pass: the link dump leaves each without
    addresses, complete as far as its type can be. -/
def Unread (devices : List DeviceObservation) : Prop :=
  ∀ device ∈ devices, device.addresses = [] ∧
    device.addressesComplete = (device.identity.deviceType == ethernet)

theorem swept_start (hunread : Unread start) : Swept start diagnostics []
    { devices := start, addressMessages := [], duplicated := [], diagnostics } := by
  refine ⟨?_, ⟨[], by rw [List.map_nil, List.append_nil], rfl, nofun⟩, List.nodup_nil⟩
  refine List.forall₂_same.mpr fun device hmem => ?_
  rcases hunread device hmem with ⟨haddresses, hcomplete⟩
  refine ⟨rfl, rfl, ?_, ?_⟩
  · intro hother
    rw [hcomplete, beq_eq_false_iff_ne.mpr hother]
    exact ⟨rfl, haddresses⟩
  · intro hethernet
    rw [hethernet, beq_self_eq_true] at hcomplete
    refine ⟨[], rfl, ?_, ?_, ?_⟩
    · intro key _
      exact iff_of_false Bool.false_ne_true List.not_mem_nil
    · intro _
      exact ⟨hcomplete, haddresses, List.not_mem_nil, nofun⟩
    · intro hdoubled
      exact absurd List.nodup_nil hdoubled

end Sweep

end Netfyr
