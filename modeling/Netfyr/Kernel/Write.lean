import Netfyr.Executor.Alike
import Netfyr.Executor.Run

/-!
# The Kernel's Side of a Write

What a Linux-like kernel makes of a write: as `project` has it, but for the
removal of a primary. The secondaries of a removed primary are deleted with it,
or, with promote_secondaries, the first of them becomes a primary in its place.
Kernel groups are by peer prefix, so these secondaries need not be the members
of the executor's prefix group.

The kernel's state is the list of its devices. An inventory may show lifetimes
as they have become, and a deprecation flag set in the meantime, so a device is
shown up to these.

## Main definitions

* `cascade`, `kernelRemove`: The removal of an address.
* `kernelWrite`, `kernelApply`: A write to a device, and to the device of a
  target.
* `Shows`, `Reports`: What an inventory says of the kernel's
  state.

## Theorems

* `hasAddress_kernelRemove`: Which addresses survive a removal.
* `Located.shows`: The device of a target, as the kernel has it.
-/

namespace Netfyr

open Interact

/-- A secondary that became a primary. -/
def AddressObservation.promote (self : AddressObservation) : AddressObservation :=
  { self with flags := self.flags &&& ~~~ifaFSecondary }

/-- What the removal of a primary does to the other addresses. -/
def cascade (promoteSecondaries : Bool) (primary : AddressObservation)
    (entries : List AddressObservation) : List AddressObservation :=
  if promoteSecondaries then
    updateFirst (fun entry => entry.cascadesWith primary) AddressObservation.promote entries
  else entries.filter fun entry => !entry.cascadesWith primary

/-- The addresses of a device after the removal of one. -/
def kernelRemove (promoteSecondaries : Bool) (addr : Ipv4Address)
    (entries : List AddressObservation) : List AddressObservation :=
  match entries.find? fun entry => entry.address.sameIdentity addr && !entry.isSecondary with
  | none => restOf addr entries
  | some primary => cascade promoteSecondaries primary (restOf addr entries)

/-- A device after a write. -/
def kernelWrite (promoteSecondaries : Bool) (device : DeviceObservation) (kind : OperationKind) :
    DeviceObservation :=
  match kind with
  | .removeIpv4 addr =>
      { device with addresses := kernelRemove promoteSecondaries addr device.addresses }
  | kind => project device kind

/-- The devices after a write to a target. -/
def kernelApply (promoteSecondaries : Bool) (target : InterfaceId) (kind : OperationKind)
    (devices : List DeviceObservation) : List DeviceObservation :=
  updateFirst (fun device => device.identity.index == target.index)
    (kernelWrite promoteSecondaries · kind) devices

/-- A device as an inventory shows it, with all its addresses. -/
structure Shows (seen device : DeviceObservation) : Prop where
  identity : seen.identity = device.identity
  complete : seen.addressesComplete = true
  addresses : List.Forall₂ SameAddress seen.addresses device.addresses

/-- An inventory that reports the kernel's state. -/
def Reports (observation : Observation) (devices : List DeviceObservation) : Prop :=
  List.Forall₂ Shows observation.devices devices

section Write

variable {promoteSecondaries : Bool} {device : DeviceObservation} {kind : OperationKind}
  {addr : Ipv4Address}

@[simp] theorem kernelWrite_identity :
    (kernelWrite promoteSecondaries device kind).identity = device.identity := by
  cases kind <;> rfl

theorem hasAddress_iff : hasAddress device addr = true ↔
    ∃ entry ∈ device.addresses, entry.address.sameIdentity addr = true :=
  List.any_eq_true

/-- A write other than a removal leaves every address in place. -/
theorem hasAddress_project (hkind : ∀ removed, kind ≠ .removeIpv4 removed)
    (h : hasAddress device addr = true) : hasAddress (project device kind) addr = true := by
  rcases hasAddress_iff.mp h with ⟨entry, hmem, hid⟩
  rw [hasAddress_iff, project_addresses]
  cases kind with
  | removeIpv4 removed => exact absurd rfl (hkind removed)
  | addIpv4 added => exact ⟨entry, List.mem_append_left _ hmem, hid⟩
  | replaceIpv4 replaced =>
      rcases mem_updateFirst_of_mem (p := fun entry => entry.address.sameIdentity replaced)
        (f := (replacedEntry · replaced)) hmem with hstays | ⟨hsame, hupdated⟩
      · exact ⟨entry, hstays, hid⟩
      · refine ⟨_, hupdated, ?_⟩
        exact Ipv4Address.sameIdentity_trans (Ipv4Address.sameIdentity_symm hsame) hid
  | setMtu _ => exact ⟨entry, hmem, hid⟩
  | setEnabled _ => exact ⟨entry, hmem, hid⟩
  | setField _ _ => exact ⟨entry, hmem, hid⟩
  | addEntity => exact ⟨entry, hmem, hid⟩
  | removeEntity => exact ⟨entry, hmem, hid⟩

/-- An address that does not cascade stays, in place or promoted. -/
theorem exists_mem_cascade {primary entry : AddressObservation}
    {entries : List AddressObservation} (hmem : entry ∈ entries)
    (hstays : entry.cascadesWith primary = false) :
    ∃ left ∈ cascade promoteSecondaries primary entries, left.address = entry.address := by
  unfold cascade
  cases promoteSecondaries with
  | false =>
      rw [if_neg Bool.false_ne_true]
      exact ⟨entry, List.mem_filter.mpr ⟨hmem, by rw [hstays]; rfl⟩, rfl⟩
  | true =>
      rw [if_pos rfl]
      rcases mem_updateFirst_of_mem (p := fun entry => entry.cascadesWith primary)
        (f := AddressObservation.promote) hmem with hkept | ⟨_, hpromoted⟩
      · exact ⟨entry, hkept, rfl⟩
      · exact ⟨entry.promote, hpromoted, rfl⟩

/-- An address survives the removal of another one, unless it cascades. -/
theorem hasAddress_kernelRemove {removed : Ipv4Address} {entry : AddressObservation}
    (hmem : entry ∈ device.addresses) (hother : entry.address.sameIdentity removed = false)
    (hstays : ∀ primary, device.addresses.find? (fun entry =>
      entry.address.sameIdentity removed && !entry.isSecondary) = some primary →
      entry.cascadesWith primary = false) :
    hasAddress (kernelWrite promoteSecondaries device (.removeIpv4 removed)) entry.address =
      true := by
  have hrest : entry ∈ restOf removed device.addresses :=
    List.mem_filter.mpr ⟨hmem, by rw [hother]; rfl⟩
  have hleft : ∃ left ∈ kernelRemove promoteSecondaries removed device.addresses,
      left.address = entry.address := by
    unfold kernelRemove
    cases hfind : device.addresses.find? fun entry =>
        entry.address.sameIdentity removed && !entry.isSecondary with
    | none => exact ⟨entry, hrest, rfl⟩
    | some primary => exact exists_mem_cascade hrest (hstays primary hfind)
  rcases hleft with ⟨left, hin, heq⟩
  exact hasAddress_iff.mpr ⟨left, hin, by rw [heq]; exact Ipv4Address.sameIdentity_refl _⟩

end Write

/-- The device an inventory shows for a target is the first of its index in the
    kernel's state. -/
theorem Located.shows {observation : Observation} {devices : List DeviceObservation}
    {target : InterfaceId} {namespaceId : NamespaceId} {position : Nat} {seen : DeviceObservation}
    (h : Located observation target namespaceId position seen)
    (hreports : Reports observation devices) :
    ∃ device, devices.findIdx? (fun device => device.identity.index == target.index) =
        some position ∧ devices[position]? = some device ∧ Shows seen device := by
  rcases getElem?_forall₂ hreports h.atPosition with ⟨device, hdevice, hshows⟩
  have hsame := findIdx?_forall₂ hreports (p := fun device =>
    device.identity.index == target.index) (q := fun device =>
    device.identity.index == target.index) fun a b hab => by rw [hab.identity]
  exact ⟨device, hsame ▸ h.isFirst, hdevice, hshows⟩

end Netfyr
