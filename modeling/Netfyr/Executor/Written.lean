import Netfyr.Data.Lists
import Netfyr.Executor.Decode

/-!
# One Device Replaced

An observation in which the record of one device is replaced by another record of
it. Targets stay where they are, since they are found by what a write leaves
alone.

## Main definitions

* `Observation.written`: The observation with one record replaced.

## Theorems

* `Located.written`: The new record is found in place of the old one.
* `Located.elsewhere`: Every other target is found as before.
* `Located.of_written`: Nothing else is found.
-/

namespace Netfyr

/-- The observation with the record at a position replaced. -/
def Observation.written (self : Observation) (position : Nat) (device : DeviceObservation) :
    Observation :=
  { self with devices := self.devices.set position device }

variable {observation : Observation} {identity other : InterfaceId} {namespaceId : NamespaceId}
  {position position' : Nat} {device device' found : DeviceObservation}

/-- Replacing a record moves no device. -/
theorem findIdx?_written (hat : observation.devices[position]? = some device)
    (hid : device'.identity = device.identity) :
    (observation.written position device').devices.findIdx?
        (fun device => device.identity.index == identity.index) =
      observation.devices.findIdx? fun device => device.identity.index == identity.index := by
  have hsame : List.Forall₂ (fun x y : DeviceObservation => x.identity = y.identity)
      observation.devices (observation.written position device').devices :=
    set_forall₂_self (S := fun x y => x.identity = y.identity) (fun _ => rfl) hat hid.symm
  exact (findIdx?_forall₂ hsame fun x y hxy => by rw [hxy]).symm

/-- The new record is found in place of the old one. -/
theorem Located.written (h : Located observation identity namespaceId position device)
    (hid : device'.identity = device.identity) :
    Located (observation.written position device') identity namespaceId position device' := by
  have hlt := (List.getElem?_eq_some_iff.mp h.atPosition).choose
  refine ⟨(findIdx?_written h.atPosition hid).trans h.isFirst, ?_, hid.trans h.isTarget,
    hid ▸ h.isEthernet, h.inNamespace⟩
  exact List.getElem?_set_self hlt

/-- Every other target is found as before. -/
theorem Located.elsewhere (h : Located observation identity namespaceId position device)
    (hid : device'.identity = device.identity)
    (hother : Located observation other namespaceId position' found) (hne : position' ≠ position) :
    Located (observation.written position device') other namespaceId position' found := by
  refine ⟨(findIdx?_written h.atPosition hid).trans hother.isFirst, ?_, hother.isTarget,
    hother.isEthernet, hother.inNamespace⟩
  have hset : (observation.devices.set position device')[position']? =
      observation.devices[position']? := List.getElem?_set_ne (Ne.symm hne)
  exact hset.trans hother.atPosition

/-- What is found afterwards is the new record, or was found before. -/
theorem Located.of_written (h : Located observation identity namespaceId position device)
    (hid : device'.identity = device.identity)
    (hfound : Located (observation.written position device') other namespaceId position' found) :
    (position' = position ∧ found = device' ∧ other = identity) ∨
      (position' ≠ position ∧ Located observation other namespaceId position' found) := by
  have hat := hfound.atPosition
  by_cases hposition : position' = position
  · subst hposition
    have hlt := (List.getElem?_eq_some_iff.mp h.atPosition).choose
    obtain rfl : device' = found := by
      have hset := List.getElem?_set_self (a := device') hlt
      exact Option.some.inj (hset.symm.trans hat)
    exact Or.inl ⟨rfl, rfl, hfound.isTarget.symm.trans (hid.trans h.isTarget)⟩
  · refine Or.inr ⟨hposition, ?_, ?_, hfound.isTarget, hfound.isEthernet, hfound.inNamespace⟩
    · rw [← findIdx?_written h.atPosition hid]
      exact hfound.isFirst
    · have hset := List.getElem?_set_ne (a := device') (l := observation.devices)
        (Ne.symm hposition)
      exact hset.symm.trans hat

end Netfyr
