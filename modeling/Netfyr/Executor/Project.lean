import Netfyr.Executor.Group

/-!
# What a Write Is Expected to Do

Frame facts about `project` and `rebaseLifetimes`. Moving a device in time
changes lifetimes and the deprecation flag; a write changes the one address it is
about. Neither moves an address to another group, so a group is told apart from
the rest of the device before and after.

## Main definitions

* `restOf`: The addresses other than one.

## Theorems

* `groupAddresses_rebase`: The members of a group at a later time.
* `groupAddresses_project_of_not_contains`: A write leaves other groups alone.
* `restOf_project`: A write leaves the other members of its group alone.
* `mem_project_of_not_contains`: A write leaves addresses outside its group.
* `find?_project_add`, `find?_project_replace`: The address written.
-/

namespace Netfyr

/-- The addresses of a list other than one. -/
def restOf (addr : Ipv4Address) (entries : List AddressObservation) : List AddressObservation :=
  entries.filter fun entry => !entry.address.sameIdentity addr

namespace Ipv4Address

theorem sameIdentity_comm (a b : Ipv4Address) : a.sameIdentity b = b.sameIdentity a := by
  rw [Bool.eq_iff_iff]
  exact ⟨sameIdentity_symm, sameIdentity_symm⟩

/-- Addresses of one identity are told apart from a third alike. -/
theorem sameIdentity_congr {a b : Ipv4Address} (h : a.sameIdentity b = true) (c : Ipv4Address) :
    a.sameIdentity c = b.sameIdentity c := by
  rw [Bool.eq_iff_iff]
  exact ⟨sameIdentity_trans (sameIdentity_symm h), sameIdentity_trans h⟩

end Ipv4Address

namespace GroupKey

theorem contains_congr {a b : Ipv4Address} (h : a.sameIdentity b = true) (key : GroupKey) :
    key.contains a = key.contains b := by
  rw [contains, contains, Ipv4Address.sameIdentity_group h]

/-- The group of an operation's address contains it. -/
theorem contains_new {op : Operation} {addr : Ipv4Address} {key : GroupKey}
    (h : GroupKey.new op addr = .ok key) : key.contains addr = true ∧ key.target = op.target := by
  unfold GroupKey.new at h
  cases hgroup : addr.group with
  | none => simp [hgroup] at h
  | some group =>
      simp only [hgroup, Except.ok.injEq] at h
      subst h
      exact ⟨by rw [contains, hgroup, beq_self_eq_true], rfl⟩

end GroupKey

section Rebase

variable (elapsed : UInt32) (entry : AddressObservation)

@[simp] theorem rebaseEntry_sameIdentity (addr : Ipv4Address) :
    (rebaseEntry elapsed entry).address.sameIdentity addr = entry.address.sameIdentity addr := rfl

@[simp] theorem sameIdentity_rebaseEntry (addr : Ipv4Address) :
    addr.sameIdentity (rebaseEntry elapsed entry).address = addr.sameIdentity entry.address := rfl

@[simp] theorem rebaseEntry_group :
    (rebaseEntry elapsed entry).address.group = entry.address.group := rfl

@[simp] theorem rebaseEntry_kernelGroup :
    (rebaseEntry elapsed entry).kernelGroup = entry.kernelGroup := rfl

@[simp] theorem rebaseEntry_scope : (rebaseEntry elapsed entry).scope = entry.scope := rfl

@[simp] theorem rebaseEntry_peer : (rebaseEntry elapsed entry).peer = entry.peer := rfl

@[simp] theorem contains_rebaseEntry (key : GroupKey) :
    key.contains (rebaseEntry elapsed entry).address = key.contains entry.address := rfl

/-- Moving an address in time changes no flag but the deprecation flag. -/
theorem rebaseEntry_flags (mask : BitVec 32) (hmask : ifaFDeprecated &&& mask = 0#32) :
    (rebaseEntry elapsed entry).flags &&& mask = entry.flags &&& mask := by
  -- Bit by bit: the one that may be set is outside the mask.
  have hor : (entry.flags ||| ifaFDeprecated) &&& mask = entry.flags &&& mask := by
    refine BitVec.eq_of_getLsbD_eq fun i _ => ?_
    have hbit : (ifaFDeprecated &&& mask).getLsbD i = false := by
      rw [hmask, BitVec.getLsbD_zero]
    rw [BitVec.getLsbD_and] at hbit
    rw [BitVec.getLsbD_and, BitVec.getLsbD_or, BitVec.getLsbD_and, Bool.and_or_distrib_right, hbit,
      Bool.or_false]
  unfold rebaseEntry
  simp only
  split
  · exact hor
  · rfl

@[simp] theorem rebaseEntry_isSecondary :
    (rebaseEntry elapsed entry).isSecondary = entry.isSecondary := by
  unfold AddressObservation.isSecondary
  rw [rebaseEntry_flags elapsed entry ifaFSecondary (by decide)]

end Rebase

section Device

variable {device : DeviceObservation} {kind : OperationKind} {key : GroupKey} {addr : Ipv4Address}

@[simp] theorem rebaseLifetimes_identity (now : Instant) :
    (rebaseLifetimes device now).identity = device.identity := rfl

@[simp] theorem rebaseLifetimes_observedAt (now : Instant) :
    (rebaseLifetimes device now).observedAt = now := rfl

@[simp] theorem rebaseLifetimes_addressesComplete (now : Instant) :
    (rebaseLifetimes device now).addressesComplete = device.addressesComplete := rfl

@[simp] theorem project_identity : (project device kind).identity = device.identity := by
  cases kind <;> rfl

@[simp] theorem project_observedAt : (project device kind).observedAt = device.observedAt := by
  cases kind <;> rfl

@[simp] theorem project_addressesComplete :
    (project device kind).addressesComplete = device.addressesComplete := by
  cases kind <;> rfl

@[simp] theorem project_addresses :
    (project device kind).addresses = projectAddresses device kind := by
  cases kind <;> rfl

/-- The members of a group at a later time are its members, moved in time. -/
theorem groupAddresses_rebase (now : Instant) :
    groupAddresses (rebaseLifetimes device now) key =
      (groupAddresses device key).map
        (rebaseEntry (wholeSeconds (now - device.observedAt))) := by
  unfold groupAddresses rebaseLifetimes
  simp only [List.filter_map]
  rfl

/-- A write leaves the addresses outside a group that contains its own as they
    are. -/
theorem filter_project (haddr : kind.ipv4Address = some addr) {p : AddressObservation → Bool}
    (hp : ∀ entry : AddressObservation, entry.address.sameIdentity addr = true →
      p entry = false) :
    (project device kind).addresses.filter p = device.addresses.filter p := by
  have hself : ∀ entry : AddressObservation, entry.address = addr → p entry = false := by
    intro entry heq
    exact hp entry (by rw [heq]; exact Ipv4Address.sameIdentity_refl addr)
  rw [project_addresses]
  cases kind with
  | addIpv4 a =>
      obtain rfl : a = addr := Option.some.inj haddr
      unfold projectAddresses
      rw [List.filter_append, List.filter_cons_of_neg, List.filter_nil, List.append_nil]
      rw [hself _ rfl]
      exact Bool.false_ne_true
  | removeIpv4 a =>
      obtain rfl : a = addr := Option.some.inj haddr
      unfold projectAddresses
      rw [List.filter_filter]
      refine List.filter_congr fun entry _ => ?_
      cases hid : entry.address.sameIdentity a with
      | true => rw [hp entry hid, Bool.false_and]
      | false => rw [Bool.not_false, Bool.and_true]
  | replaceIpv4 a =>
      obtain rfl : a = addr := Option.some.inj haddr
      -- Neither the old entry nor the new one passes the test.
      exact filter_updateFirst_of_neg fun entry _ hid => ⟨hp entry hid, hself _ rfl⟩
  | setMtu _ => rfl
  | setEnabled _ => rfl
  | setField _ _ => rfl
  | addEntity => rfl
  | removeEntity => rfl

/-- A write leaves the groups its address is not in as they are. -/
theorem groupAddresses_project_of_not_contains (haddr : kind.ipv4Address = some addr)
    (hkey : key.contains addr = false) :
    groupAddresses (project device kind) key = groupAddresses device key :=
  filter_project haddr fun entry hid => by rw [GroupKey.contains_congr hid, hkey]

/-- A write leaves the other members of its group as they are. -/
theorem restOf_project (haddr : kind.ipv4Address = some addr) :
    restOf addr (groupAddresses (project device kind) key) =
      restOf addr (groupAddresses device key) := by
  unfold restOf groupAddresses
  rw [List.filter_filter, List.filter_filter]
  exact filter_project haddr fun entry hid => by rw [hid, Bool.not_true, Bool.false_and]

/-- A write leaves the addresses outside its group where they are. -/
theorem mem_project_of_not_contains (haddr : kind.ipv4Address = some addr)
    (hkey : key.contains addr = true) {entry : AddressObservation}
    (hmem : entry ∈ device.addresses) (hout : key.contains entry.address = false) :
    entry ∈ (project device kind).addresses := by
  have hin : entry ∈ device.addresses.filter fun entry => !key.contains entry.address := by
    rw [List.mem_filter, hout]
    exact ⟨hmem, rfl⟩
  have hsame : (project device kind).addresses.filter (fun entry => !key.contains entry.address) =
      device.addresses.filter fun entry => !key.contains entry.address :=
    filter_project haddr fun entry hid => by
      rw [GroupKey.contains_congr hid, hkey, Bool.not_true]
  rw [← hsame, List.mem_filter] at hin
  exact hin.1

/-- An added address is found where none was. -/
theorem find?_project_add
    (h : device.addresses.find? (fun entry => entry.address.sameIdentity addr) = none) :
    (project device (.addIpv4 addr)).addresses.find?
      (fun entry => entry.address.sameIdentity addr) = some (addedEntry device addr) := by
  have hself : (addedEntry device addr).address.sameIdentity addr = true :=
    Ipv4Address.sameIdentity_refl addr
  rw [project_addresses, projectAddresses, List.find?_append, h, Option.none_or]
  exact List.find?_cons_of_pos hself

/-- A replaced address is found where the old one was. -/
theorem find?_project_replace {existing : AddressObservation}
    (h : device.addresses.find? (fun entry => entry.address.sameIdentity addr) = some existing) :
    (project device (.replaceIpv4 addr)).addresses.find?
      (fun entry => entry.address.sameIdentity addr) = some (replacedEntry existing addr) := by
  have hself : ∀ entry : AddressObservation, entry.address.sameIdentity addr = true →
      (replacedEntry entry addr).address.sameIdentity addr = true :=
    fun _ _ => Ipv4Address.sameIdentity_refl addr
  rw [project_addresses, projectAddresses, find?_updateFirst hself, h, Option.map_some]

/-- A removed address is not found. -/
theorem hasAddress_project_remove :
    hasAddress (project device (.removeIpv4 addr)) addr = false := by
  unfold hasAddress
  rw [project_addresses, projectAddresses, List.any_filter, List.any_eq_false]
  intro entry _
  cases entry.address.sameIdentity addr <;> decide

end Device

end Netfyr
