import Netfyr.Linux.Faultless
import Netfyr.Linux.Records
import Netfyr.Linux.Sent

/-!
# Remembered Records

An address is removed by the record that the kernel gave of it, since the kernel
matches more of it than the plan knows. So the transport remembers, with every
inventory, the record each address was read from. A device whose addresses are
complete is one of which every entry has a record: two records of one local
address end that, and the others have a key of their own.

What is remembered is what the dump said. Nothing before the dump puts an
address on a device, and nothing behind it changes one.

## Main definitions

* `RecordOf`: The record that an entry was read from.
* `Remembers`: Every entry of a complete device has one, and no two records have one
  name.
* `addressDump`: The call that asks for the addresses.

## Theorems

* `observeAddress_remembers`: One packet keeps it so.
* `observeAddresses_remembers`: A dump leads to it from devices without addresses.
* `inventory_remembers`: An inventory that succeeds remembers its records.
-/

namespace Netfyr

open Interact

/-- The record that an entry of a device was read from, among those remembered
    and in a dump. -/
structure RecordOf (packets : List RoutePacket)
    (addressMessages : List (AddressKey × AddressMessage)) (index : UInt32)
    (entry : AddressObservation) (record : AddressMessage) : Prop where
  remembered : addressMessages.lookup (entry.key index) = some record
  dumped : ∃ packet ∈ packets, packet.kind = rtmNewaddr ∧ packet.address = .ok record
  index : record.index = index
  read : parseAddress record = .ok entry

/-- What is remembered of a dump. Of devices with one index the first counts. -/
structure Remembers (packets : List RoutePacket)
    (addressMessages : List (AddressKey × AddressMessage)) (devices : List DeviceObservation) :
    Prop where
  /-- Every entry of a complete device has its record. -/
  entries : ∀ (index : UInt32) (device : DeviceObservation),
    devices.find? (fun device => device.identity.index == index) = some device →
    device.addressesComplete = true → ∀ entry ∈ device.addresses,
      ∃ record, RecordOf packets addressMessages index entry record
  /-- Every record of such a device is remembered, so no two have one name. -/
  covers : ∀ (index : UInt32) (device : DeviceObservation),
    devices.find? (fun device => device.identity.index == index) = some device →
    device.addressesComplete = true → ∀ packet ∈ packets, ∀ record entry,
      packet.address = .ok record → record.family = .inet → record.index = index →
      parseAddress record = .ok entry → addressMessages.lookup (entry.key index) = some record
  /-- The entries are those of its records, in order. -/
  whole : ∀ (index : UInt32) (device : DeviceObservation),
    devices.find? (fun device => device.identity.index == index) = some device →
    device.addressesComplete = true →
      (ipv4Records index packets).map parseAddress = device.addresses.map .ok ∧
        (device.addresses.map (AddressObservation.key index)).Nodup
  ethernet : ∀ device ∈ devices, device.addressesComplete = true →
    device.identity.deviceType = ethernet

section Sweep

variable {packets : List RoutePacket} {addressMessages : List (AddressKey × AddressMessage)}
  {devices : List DeviceObservation} {sweep sweep' : AddressSweep} {index : UInt32}

/-- More packets, and records under other keys, take no record away. -/
theorem RecordOf.more {entry : AddressObservation} {record : AddressMessage}
    {others : List (AddressKey × AddressMessage)} {packet : RoutePacket}
    (h : RecordOf packets addressMessages index entry record)
    (hkeep : others.lookup (entry.key index) = addressMessages.lookup (entry.key index)) :
    RecordOf (packets ++ [packet]) others index entry record := by
  rcases h.dumped with ⟨dumped, hmem, hdumped⟩
  exact ⟨hkeep.trans h.remembered, ⟨dumped, List.mem_append_left _ hmem, hdumped⟩, h.index, h.read⟩

/-- Devices without addresses have nothing to remember. -/
theorem remembers_of_unaddressed (h : ∀ device ∈ devices, device.addresses = [])
    (hethernet : ∀ device ∈ devices, device.addressesComplete = true →
      device.identity.deviceType = ethernet) : Remembers [] addressMessages devices := by
  refine ⟨fun index device hfind _ entry hmem => ?_, fun _ _ _ _ _ habs => ?_,
    fun index device hfind _ => ?_, hethernet⟩
  · rw [h device (List.mem_of_find?_eq_some hfind)] at hmem
    exact absurd hmem List.not_mem_nil
  · exact absurd habs List.not_mem_nil
  · rw [h device (List.mem_of_find?_eq_some hfind)]
    exact ⟨rfl, List.nodup_nil⟩

/-- What an update of the first device of one index makes of the first of any. -/
theorem find?_updateFirst_index {f : DeviceObservation → DeviceObservation} {other : UInt32}
    (hf : ∀ device, (f device).identity = device.identity) :
    (updateFirst (fun device : DeviceObservation => device.identity.index == other) f devices).find?
      (fun device => device.identity.index == index) =
        if index = other then
          (devices.find? fun device => device.identity.index == index).map f
        else devices.find? fun device => device.identity.index == index := by
  by_cases heq : index = other
  · subst heq
    rw [if_pos rfl]
    refine find?_updateFirst fun device hdevice => ?_
    rwa [hf]
  rw [if_neg heq]
  induction devices with
  | nil => rfl
  | cons device devices ih =>
      unfold updateFirst
      by_cases hother : (device.identity.index == other) = true
      · -- The device that is updated is not of this index, before or after.
        have hnot : (device.identity.index == index) = false := by
          rw [beq_iff_eq] at hother
          rw [hother]
          exact beq_false_of_ne (Ne.symm heq)
        simp only [if_pos hother, List.find?_cons, hf, hnot]
      · rw [if_neg hother, List.find?_cons, List.find?_cons, ih]

/-- The devices after one record. -/
theorem record_devices (identity : InterfaceId) (message : AddressMessage)
    (addr : AddressObservation) : (sweep.record identity message addr).devices =
      updateFirst (fun device : DeviceObservation => device.identity.index == identity.index)
        (fun device =>
          if (sweep.addressMessages.lookup (addr.key identity.index)).isSome then
            { device with addressesComplete := false }
          else { device with addresses := device.addresses ++ [addr] }) sweep.devices := by
  by_cases hknown : (sweep.addressMessages.lookup (addr.key identity.index)).isSome = true
  · simp only [if_pos hknown]
    exact congrArg AddressSweep.devices (if_pos hknown)
  · simp only [if_neg hknown]
    exact congrArg AddressSweep.devices (if_neg hknown)

theorem find?_record (identity : InterfaceId) (message : AddressMessage)
    (addr : AddressObservation) :
    ((sweep.record identity message addr).devices.find? fun device =>
        device.identity.index == index) =
      if index = identity.index then
        (sweep.devices.find? fun device => device.identity.index == index).map fun device =>
          if (sweep.addressMessages.lookup (addr.key identity.index)).isSome then
            { device with addressesComplete := false }
          else { device with addresses := device.addresses ++ [addr] }
      else sweep.devices.find? fun device => device.identity.index == index := by
  rw [record_devices]
  refine find?_updateFirst_index fun device => ?_
  split
  · rfl
  · rfl

/-- The records after one more. -/
theorem lookup_record (identity : InterfaceId) (message : AddressMessage)
    (addr : AddressObservation) (key : AddressKey) :
    (sweep.record identity message addr).addressMessages.lookup key =
      if key = addr.key identity.index then some message
      else sweep.addressMessages.lookup key := by
  have hrecords : (sweep.record identity message addr).addressMessages =
      Assoc.insert sweep.addressMessages (addr.key identity.index) message := by
    by_cases hknown : (sweep.addressMessages.lookup (addr.key identity.index)).isSome = true
    · exact congrArg AddressSweep.addressMessages (if_pos hknown)
    · exact congrArg AddressSweep.addressMessages (if_neg hknown)
  rw [hrecords, Assoc.lookup_insert]

/-- A packet that is taken over: one of another family, one of a device of another
    type, or a record. -/
theorem observeAddress_taken {packet : RoutePacket} (h : observeAddress sweep packet = .ok sweep') :
    ∃ message, packet.kind = rtmNewaddr ∧ packet.address = .ok message ∧
      ((message.family ≠ .inet ∧ sweep' = sweep) ∨ ∃ device,
        sweep.devices.find? (fun device => device.identity.index == message.index) = some device ∧
        ((device.identity.deviceType ≠ ethernet ∧ sweep' = sweep) ∨ ∃ addr,
          parseAddress message = .ok addr ∧
            sweep' = sweep.record device.identity message addr)) := by
  unfold observeAddress at h
  by_cases hkind : packet.kind ≠ rtmNewaddr
  · rw [if_pos hkind] at h
    exact absurd h (by simp only [reduceCtorEq, not_false_eq_true])
  rw [if_neg hkind] at h
  cases haddress : packet.address with
  | error error =>
      rw [haddress] at h
      exact absurd h (by simp only [reduceCtorEq, not_false_eq_true])
  | ok message =>
      rw [haddress] at h
      refine ⟨message, not_not.mp hkind, rfl, ?_⟩
      dsimp only at h
      by_cases hfamily : message.family ≠ .inet
      · rw [if_pos hfamily] at h
        exact Or.inl ⟨hfamily, (Except.ok.inj h).symm⟩
      rw [if_neg hfamily] at h
      cases hfind : sweep.devices.find? fun device => device.identity.index == message.index with
      | none =>
          rw [hfind] at h
          exact absurd h (by simp only [reduceCtorEq, not_false_eq_true])
      | some device =>
          rw [hfind] at h
          refine Or.inr ⟨device, rfl, ?_⟩
          dsimp only at h
          by_cases hother : device.identity.deviceType ≠ ethernet
          · rw [if_pos hother] at h
            exact Or.inl ⟨hother, (Except.ok.inj h).symm⟩
          rw [if_neg hother] at h
          cases hparse : parseAddress message with
          | error error =>
              rw [hparse] at h
              exact absurd h (by simp only [reduceCtorEq, not_false_eq_true])
          | ok addr =>
              rw [hparse] at h
              exact Or.inr ⟨addr, rfl, (Except.ok.inj h).symm⟩

/-- A packet that is no record of a complete device changes nothing. -/
theorem Remembers.skip {packet : RoutePacket} {message : AddressMessage}
    (h : Remembers packets addressMessages devices) (haddress : packet.address = .ok message)
    (hnone : ∀ device,
      devices.find? (fun device => device.identity.index == message.index) = some device →
        device.addressesComplete = true → message.family ≠ .inet) :
    Remembers (packets ++ [packet]) addressMessages devices := by
  refine ⟨fun index device hfind hcomplete entry hmem => ?_, ?_,
    fun index device hfind hcomplete => ?_, h.ethernet⟩
  · rcases h.entries index device hfind hcomplete entry hmem with ⟨record, hrecord⟩
    exact ⟨record, hrecord.more rfl⟩
  · intro index device hfind hcomplete other hmem record entry hother hfamily hindex hparse
    rcases List.mem_append.mp hmem with hmem | hmem
    · exact h.covers index device hfind hcomplete other hmem record entry hother hfamily hindex
        hparse
    · rw [List.mem_singleton.mp hmem, haddress, Except.ok.injEq] at hother
      subst hother
      subst hindex
      exact absurd hfamily (hnone device hfind hcomplete)
  · have hother : ipv4Record? index packet = none := by
      unfold ipv4Record?
      rw [haddress]
      refine if_neg ?_
      rintro ⟨hfamily, rfl⟩
      exact hnone device hfind hcomplete hfamily
    rw [ipv4Records_append, hother, Option.toList_none, List.append_nil]
    exact h.whole index device hfind hcomplete

/-- A record is remembered. -/
theorem Remembers.record {packet : RoutePacket} {message : AddressMessage}
    {device : DeviceObservation} {addr : AddressObservation}
    (h : Remembers packets sweep.addressMessages sweep.devices)
    (hkind : packet.kind = rtmNewaddr) (haddress : packet.address = .ok message)
    (hfind : sweep.devices.find? (fun device => device.identity.index == message.index) =
      some device) (hparse : parseAddress message = .ok addr) :
    Remembers (packets ++ [packet]) (sweep.record device.identity message addr).addressMessages
      (sweep.record device.identity message addr).devices := by
  have hindex : device.identity.index = message.index := beq_iff_eq.mp (List.find?_some
    (p := fun device : DeviceObservation => device.identity.index == message.index) hfind)
  -- A device that is complete afterwards was so before, with no record of this name; it
  -- has the entries it had, and the new one if it is the device of the record.
  have hbefore : ∀ {index found},
      (sweep.record device.identity message addr).devices.find?
        (fun device => device.identity.index == index) = some found →
      found.addressesComplete = true → ∃ d,
        sweep.devices.find? (fun device => device.identity.index == index) = some d ∧
        d.addressesComplete = true ∧
        (index = device.identity.index →
          sweep.addressMessages.lookup (addr.key device.identity.index) = none ∧
          found.addresses = d.addresses ++ [addr]) ∧
        (index ≠ device.identity.index → found.addresses = d.addresses) := by
    intro index found hfound hcomplete
    rw [find?_record] at hfound
    by_cases hsame : index = device.identity.index
    · rw [if_pos hsame] at hfound
      rcases Option.map_eq_some_iff.mp hfound with ⟨d, hd, rfl⟩
      by_cases hknown :
          (sweep.addressMessages.lookup (addr.key device.identity.index)).isSome = true
      · rw [if_pos hknown] at hcomplete
        exact absurd hcomplete Bool.false_ne_true
      · rw [if_neg hknown] at hcomplete ⊢
        exact ⟨d, hd, hcomplete, fun _ => ⟨Option.not_isSome_iff_eq_none.mp hknown, rfl⟩,
          fun hne => absurd hsame hne⟩
    · rw [if_neg hsame] at hfound
      exact ⟨found, hfound, hcomplete, fun heq => absurd heq hsame, fun _ => rfl⟩
  -- Under another name nothing changes.
  have hkeep : ∀ {index : UInt32} {entry : AddressObservation} {record : AddressMessage},
      sweep.addressMessages.lookup (entry.key index) = some record →
      (index = device.identity.index →
        sweep.addressMessages.lookup (addr.key device.identity.index) = none) →
      (sweep.record device.identity message addr).addressMessages.lookup (entry.key index) =
        sweep.addressMessages.lookup (entry.key index) := by
    intro index entry record hold hnew
    rw [lookup_record]
    refine if_neg fun hkey => ?_
    have hnone := hnew (congrArg AddressKey.index hkey)
    rw [← hkey, hold] at hnone
    exact absurd hnone (by simp only [reduceCtorEq, not_false_eq_true])
  refine ⟨?_, ?_, ?_, ?_⟩
  · intro index found hfound hcomplete entry hmem
    rcases hbefore hfound hcomplete with ⟨d, hd, hdcomplete, hhere, hthere⟩
    have hold : entry ∈ d.addresses → ∃ record, RecordOf (packets ++ [packet])
        (sweep.record device.identity message addr).addressMessages index entry record := by
      intro hentry
      rcases h.entries index d hd hdcomplete entry hentry with ⟨record, hrecord⟩
      exact ⟨record, hrecord.more (hkeep hrecord.remembered fun heq => (hhere heq).1)⟩
    by_cases hsame : index = device.identity.index
    · rw [(hhere hsame).2] at hmem
      rcases List.mem_append.mp hmem with hmem | hmem
      · exact hold hmem
      · -- The new address, with the record it was read from.
        obtain rfl := List.mem_singleton.mp hmem
        refine ⟨message, ?_, ⟨packet, List.mem_append_right _ List.mem_cons_self, hkind, haddress⟩,
          hindex.symm.trans hsame.symm, hparse⟩
        rw [hsame, lookup_record, if_pos rfl]
    · rw [hthere hsame] at hmem
      exact hold hmem
  · intro index found hfound hcomplete other hmem record entry hother hfamily hrecord hread
    rcases hbefore hfound hcomplete with ⟨d, hd, hdcomplete, hhere, _⟩
    rcases List.mem_append.mp hmem with hmem | hmem
    · have hold := h.covers index d hd hdcomplete other hmem record entry hother hfamily hrecord
        hread
      exact (hkeep hold fun heq => (hhere heq).1).trans hold
    · rw [List.mem_singleton.mp hmem, haddress, Except.ok.injEq] at hother
      subst hother
      obtain rfl := Except.ok.inj (hparse.symm.trans hread)
      rw [← hrecord, ← hindex, lookup_record, if_pos rfl]
  · intro index found hfound hcomplete
    rcases hbefore hfound hcomplete with ⟨d, hd, hdcomplete, hhere, hthere⟩
    rcases h.whole index d hd hdcomplete with ⟨hread, hdistinct⟩
    rw [ipv4Records_append, List.map_append, hread]
    by_cases hsame : index = device.identity.index
    · rcases hhere hsame with ⟨hnew, haddresses⟩
      have hown : ipv4Record? index packet = some message := by
        unfold ipv4Record?
        rw [haddress]
        exact if_pos ⟨(parseAddress_ok_iff.mp hparse).1, hindex.symm.trans hsame.symm⟩
      rw [hown, haddresses, List.map_append, List.map_append, Option.toList_some]
      refine ⟨by rw [List.map_singleton, List.map_singleton, hparse], ?_⟩
      -- A name that was not remembered is that of no entry.
      refine List.nodup_append.mpr ⟨hdistinct, List.nodup_singleton _, ?_⟩
      rintro key hkey other hother rfl
      rcases List.mem_map.mp hkey with ⟨entry, hentry, hname⟩
      rcases h.entries index d hd hdcomplete entry hentry with ⟨record, hrecord⟩
      have hremembered := hrecord.remembered
      rw [hname, List.mem_singleton.mp hother, hsame, hnew] at hremembered
      exact absurd hremembered (by simp only [reduceCtorEq, not_false_eq_true])
    · have hother : ipv4Record? index packet = none := by
        unfold ipv4Record?
        rw [haddress]
        refine if_neg fun habs => hsame ?_
        rw [← habs.2, hindex]
      rw [hother, hthere hsame, Option.toList_none, List.map_nil, List.append_nil]
      exact ⟨rfl, hdistinct⟩
  · intro found hmem hcomplete
    rw [record_devices] at hmem
    rcases mem_of_mem_updateFirst hmem with hsame | ⟨d, hd, _, rfl⟩
    · exact h.ethernet found hsame hcomplete
    · by_cases hknown :
          (sweep.addressMessages.lookup (addr.key device.identity.index)).isSome = true
      · rw [if_pos hknown] at hcomplete
        exact absurd hcomplete Bool.false_ne_true
      · rw [if_neg hknown] at hcomplete ⊢
        exact h.ethernet d hd hcomplete

/-- One packet of a dump keeps it so. -/
theorem observeAddress_remembers {packet : RoutePacket}
    (h : Remembers packets sweep.addressMessages sweep.devices)
    (hstep : observeAddress sweep packet = .ok sweep') :
    Remembers (packets ++ [packet]) sweep'.addressMessages sweep'.devices := by
  rcases observeAddress_taken hstep with ⟨message, hkind, haddress, ⟨hfamily, rfl⟩ |
    ⟨device, hfind, ⟨hother, rfl⟩ | ⟨addr, hparse, rfl⟩⟩⟩
  · exact h.skip haddress fun _ _ _ => hfamily
  · refine h.skip haddress fun found hfound hcomplete => ?_
    obtain rfl := Option.some.inj (hfound.symm.trans hfind)
    exact absurd (h.ethernet found (List.mem_of_find?_eq_some hfound) hcomplete) hother
  · exact h.record hkind haddress hfind hparse

/-- A whole dump, taken over device by device. -/
theorem foldlM_remembers {later : List RoutePacket}
    (h : Remembers packets sweep.addressMessages sweep.devices)
    (hfold : later.foldlM observeAddress sweep = .ok sweep') :
    Remembers (packets ++ later) sweep'.addressMessages sweep'.devices := by
  induction later generalizing packets sweep with
  | nil =>
      obtain rfl := Except.ok.inj hfold
      rwa [List.append_nil]
  | cons packet later ih =>
      rw [List.foldlM_cons] at hfold
      rcases except_bind_eq_ok.mp hfold with ⟨next, hstep, hrest⟩
      have hlater := ih (observeAddress_remembers h hstep) hrest
      rwa [List.append_assoc, List.singleton_append] at hlater

/-- Addresses are shown in the state, and stay what they are. -/
theorem mirrorAddresses_same (device : DeviceObservation) :
    (mirrorAddresses device).identity = device.identity ∧
      (mirrorAddresses device).addresses = device.addresses ∧
        (mirrorAddresses device).addressesComplete = device.addressesComplete := by
  unfold mirrorAddresses
  by_cases hethernet : device.identity.deviceType = ethernet
  · rw [if_pos hethernet]
    exact ⟨rfl, rfl, rfl⟩
  · rw [if_neg hethernet]
    exact ⟨rfl, rfl, rfl⟩

/-- The state that shows the addresses is not what is remembered. -/
theorem Remembers.mirrored (h : Remembers packets addressMessages devices) :
    Remembers packets addressMessages (devices.map mirrorAddresses) := by
  have hfind : ∀ {index device},
      (devices.map mirrorAddresses).find? (fun device => device.identity.index == index) =
        some device → ∃ before,
          devices.find? (fun device => device.identity.index == index) = some before ∧
            mirrorAddresses before = device := by
    intro index device hfound
    rw [List.find?_map] at hfound
    rcases Option.map_eq_some_iff.mp hfound with ⟨before, hbefore, hsame⟩
    refine ⟨before, ?_, hsame⟩
    rw [← hbefore]
    refine congrArg (fun test => devices.find? test) (funext fun other => ?_)
    rw [Function.comp_apply, (mirrorAddresses_same other).1]
  refine ⟨fun index device hfound hcomplete entry hmem => ?_,
    fun index device hfound hcomplete => ?_, fun index device hfound hcomplete => ?_,
    fun device hmem hcomplete => ?_⟩
  · rcases hfind hfound with ⟨before, hbefore, rfl⟩
    rcases mirrorAddresses_same before with ⟨_, haddresses, hsame⟩
    rw [hsame] at hcomplete
    rw [haddresses] at hmem
    exact h.entries index before hbefore hcomplete entry hmem
  · rcases hfind hfound with ⟨before, hbefore, rfl⟩
    rw [(mirrorAddresses_same before).2.2] at hcomplete
    exact h.covers index before hbefore hcomplete
  · rcases hfind hfound with ⟨before, hbefore, rfl⟩
    rcases mirrorAddresses_same before with ⟨_, haddresses, hsame⟩
    rw [hsame] at hcomplete
    rw [haddresses]
    exact h.whole index before hbefore hcomplete
  · rcases List.mem_map.mp hmem with ⟨before, hbefore, rfl⟩
    rcases mirrorAddresses_same before with ⟨hidentity, _, hsame⟩
    rw [hsame] at hcomplete
    rw [hidentity]
    exact h.ethernet before hbefore hcomplete

/-- An address dump that is taken over is remembered. -/
theorem observeAddresses_remembers {diagnostics : List Diagnostic}
    (hnone : ∀ device ∈ devices, device.addresses = [])
    (hethernet : ∀ device ∈ devices, device.addressesComplete = true →
      device.identity.deviceType = ethernet)
    (h : observeAddresses devices diagnostics packets = .ok sweep') :
    Remembers packets sweep'.addressMessages sweep'.devices := by
  rcases except_bind_eq_ok.mp h with ⟨sweep, hfold, hmirrored⟩
  obtain rfl := Except.ok.inj hmirrored
  have hkept := foldlM_remembers (remembers_of_unaddressed hnone hethernet) hfold
  rw [List.nil_append] at hkept
  exact hkept.mirrored

end Sweep

/-- The call that asks for the addresses. -/
def addressDump : TransportCall :=
  .request (.getAddress { AddressMessage.empty with family := .inet }) Exchange.dump.flags

namespace LinuxTransport

variable {enrich : Match → Bool} {transport transport' : LinuxTransport}
  {tr : List TransportEvent} {sweep : AddressSweep} {observation : Observation}

/-- The addresses of an inventory are those of a dump that was read to its end. -/
theorem observe_ok (h : (observe enrich).Runs transport tr (.ok sweep) transport') :
    ∃ before stream after packets, tr = before ++ ⟨addressDump, .answered stream⟩ :: after ∧
      collectResponse .dump stream [] = .ok packets ∧
        Remembers packets sweep.addressMessages sweep.devices := by
  rcases Action.runs_bind_ok.mp h with ⟨links, s₁, t₁, t₂, rfl, _, h⟩
  rcases Action.runs_bind_ok.mp h with ⟨packets, s₂, t₃, t₄, rfl, hdump, h⟩
  rcases Action.runs_perform_bind.mp h with ⟨observedAt, t₅, rfl, hget⟩
  have h := Action.runs_get_bind.mp hget
  rcases Action.runs_bind_ok.mp h with ⟨answer, s₃, t₆, t₇, rfl, _, h⟩
  rcases Action.runs_bind_ok.mp h with ⟨found, s₄, t₈, t₉, rfl, hlinks, h⟩
  rcases Action.runs_bind_ok.mp h with ⟨enriched, s₅, t₁₀, t₁₁, rfl, hmodes, h⟩
  have hobserved := (Action.runs_ofExcept.mp (Action.runs_modify_bind.mp h)).2.1
  -- Nothing has addresses before they are taken over.
  have hprepared := enrichLinkModes_prepared
    (observeLinks_prepared (prepared_nil _) hlinks) hmodes
  have hremembers := observeAddresses_remembers hprepared.unaddressed hprepared.ethernet
    hobserved.symm
  rcases request_ok hdump with ⟨drained, stream, _, rfl, hcollected⟩
  refine ⟨t₁ ++ drained, stream, ⟨.now, observedAt⟩ :: (t₆ ++ (t₈ ++ (t₁₀ ++ t₁₁))), packets, ?_,
    hcollected, hremembers⟩
  rw [List.append_assoc t₁, List.append_assoc drained, List.singleton_append]
  rfl

/-- An inventory that succeeds remembers the records of its dump. -/
theorem inventory_remembers
    (h : (inventory enrich).Runs transport tr (.ok observation) transport') :
    ∃ before stream after packets, tr = before ++ ⟨addressDump, .answered stream⟩ :: after ∧
      collectResponse .dump stream [] = .ok packets ∧
        Remembers packets transport'.addressMessages observation.devices := by
  rcases Action.runs_bind_ok.mp h with ⟨_, s₁, opening, rest, rfl, _, hsurvey⟩
  have hrest := Action.runs_get_bind.mp hsurvey
  rcases Action.runs_bind_ok.mp hrest with ⟨sweep, s₂, t₁, t₂, rfl, hobserve, hrest⟩
  rcases Action.runs_bind_ok.mp hrest with ⟨_, s₃, t₃, t₄, rfl, _, hconclude⟩
  rcases observe_ok hobserve with ⟨before, stream, after, packets, rfl, hcollected, hremembers⟩
  have hconclude := Action.runs_get_bind.mp hconclude
  rcases Action.runs_ofExcept_bind_ok.mp hconclude with ⟨_, _, hconclude⟩
  rcases Action.runs_failWhen_bind_ok.mp hconclude with ⟨_, hconclude⟩
  have hpure := Action.runs_modify_bind.mp hconclude
  rcases Action.runs_pure.mp hpure with ⟨_, hobservation, rfl⟩
  obtain rfl := Except.ok.inj hobservation
  refine ⟨opening ++ before, stream, after ++ (t₃ ++ t₄), packets, ?_, hcollected, hremembers⟩
  rw [List.append_assoc opening, List.append_assoc before]
  rfl

end LinuxTransport

end Netfyr
