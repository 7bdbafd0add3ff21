import Netfyr.Executor.Alike
import Netfyr.Executor.Groups
import Netfyr.Executor.Verify

/-!
# Writes That Go as Predicted

The verification does not raise an alarm over a write that did what was
predicted: an inventory showing a device like the predicted one confirms it. The
tolerances of the comparison play no part then: nothing is missing, and a first
member that is a primary was predicted as one.

## Theorems

* `expectedMembers_of_alike`: The tolerances change nothing.
* `groupMatches_of_alike`: Members that are alike match.
* `verifyObservation_of_alike`: A device like the predicted one is confirmed.
* `DecidedWrite.confirmed`: So is a write that does what `project` says.
-/

namespace Netfyr

variable {diff : StateDiff} {namespaceId : NamespaceId} {index : Nat} {op : Operation}
  {kind : OperationKind} {addr : Ipv4Address} {eligible : List Bool}
  {expected actual : List AddressObservation}

/-- A member with a counterpart is not missing. -/
theorem absentFrom_eq_false {entry other : AddressObservation} (hmem : other ∈ actual)
    (hid : entry.address.sameIdentity other.address = true) :
    absentFrom actual entry = false := by
  unfold absentFrom
  rw [Bool.not_eq_false', List.any_eq_true]
  exact ⟨other, hmem, hid⟩

/-- Clearing the secondary flag of a primary changes nothing. -/
theorem clear_secondary {flags : BitVec 32} (h : flags &&& ifaFSecondary = 0) :
    flags &&& ~~~ifaFSecondary = flags := by
  have hsplit : flags &&& (ifaFSecondary ||| ~~~ifaFSecondary) = flags := by
    rw [show ifaFSecondary ||| ~~~ifaFSecondary = BitVec.allOnes 32 by decide, BitVec.and_allOnes]
  rw [BitVec.and_or_distrib_left, h] at hsplit
  simpa using hsplit

theorem isSecondary_eq_false {entry : AddressObservation} :
    entry.isSecondary = false ↔ entry.flags &&& ifaFSecondary = 0 := by
  unfold AddressObservation.isSecondary
  rw [bne_eq_false_iff_eq]

/-- Where the first members are alike, there is no promotion to allow for. -/
theorem promoteFirst_of_alike (h : List.Forall₂ Alike expected actual) :
    promoteFirst expected actual = expected := by
  cases h with
  | nil => rfl
  | @cons first actualFirst _ _ hfirst _ =>
      rw [promoteFirst]
      by_cases hcond : (first.address.sameIdentity actualFirst.address &&
          !actualFirst.isSecondary) = true
      · rw [if_pos hcond]
        rw [Bool.and_eq_true, Bool.not_eq_true', ← hfirst.isSecondary, isSecondary_eq_false]
          at hcond
        rw [clear_secondary hcond.2]
      · rw [if_neg hcond]

/-- Where the members are alike, nothing is missing and nothing promoted. -/
theorem expectedMembers_of_alike (h : List.Forall₂ Alike expected actual) :
    expectedMembers diff index op kind expected actual eligible = some expected := by
  have hall : ∀ entry ∈ expected,
      (if absentFrom actual entry && entry.isSecondary then
        (removalIsCovered diff index op.target entry.address eligible).map not
      else some true) = some true := by
    intro entry hmem
    rcases exists_of_forall₂ h hmem with ⟨other, hother, hsame⟩
    rw [absentFrom_eq_false hother hsame.identity, Bool.false_and, if_neg Bool.false_ne_true]
  have hkept : expected.filter (fun _ => true) = expected :=
    List.filter_eq_self.mpr fun _ _ => rfl
  cases kind with
  | removeIpv4 removed =>
      rw [expectedMembers, Checked.filterChecked_eq_some hall, Option.map_some, hkept,
        promoteFirst_of_alike h]
  | setMtu _ => rfl
  | setEnabled _ => rfl
  | addIpv4 _ => rfl
  | replaceIpv4 _ => rfl
  | setField _ _ => rfl
  | addEntity => rfl
  | removeEntity => rfl

/-- Members that are alike match, at the instant they were recorded. -/
theorem groupMatches_of_alike (now : Instant) (h : List.Forall₂ Alike expected actual) :
    groupMatches { addresses := expected, observedAt := now } actual now = true := by
  rw [groupMatches_iff]
  refine h.imp fun old new hsame => ?_
  rw [Nat.sub_self]
  exact addressMatches_of_alike hsame

/-- Every address of a device is on a device like it. -/
theorem outsideSurvives_of_alike {predicted after : DeviceObservation} {key : GroupKey}
    (h : AlikeDevice predicted after) : outsideSurvives predicted after key = true := by
  unfold outsideSurvives
  rw [List.all_eq_true]
  intro entry hmem
  rcases exists_of_forall₂ h.addresses (List.mem_filter.mp hmem).1 with ⟨other, hother, hsame⟩
  rw [List.any_eq_true]
  exact ⟨other, hother, hsame.identity⟩

/-- An inventory that shows a device like the predicted one confirms a write. -/
theorem verifyObservation_of_alike {predicted shown : DeviceObservation} {after : Observation}
    {position : Nat} {key : GroupKey}
    (hlocated : Located after op.target namespaceId position shown)
    (hcomplete : shown.addressesComplete = true) (hkey : GroupKey.new op addr = .ok key)
    (h : AlikeDevice predicted shown) :
    verifyObservation diff namespaceId index op kind addr predicted after eligible =
      some (.ok shown) := by
  refine verifyObservation_eq_ok.mpr ⟨position, key, _, hlocated, hcomplete, hkey,
    expectedMembers_of_alike (h.groupAddresses key), ?_, outsideSurvives_of_alike h⟩
  rw [← h.observedAt]
  exact groupMatches_of_alike _ (h.groupAddresses key)

/-- At one instant, predicting a write is projecting it. -/
theorem alikeDevice_predict {device device' : DeviceObservation} {now : Instant}
    (hnow : device.observedAt = now) (h : AlikeDevice device device') (kind : OperationKind) :
    AlikeDevice (predict device kind now) (project device' kind) := by
  subst hnow
  exact ((alikeDevice_rebase device).trans h).project kind

/-- An address write that was decided on is confirmed when it does what `project`
    says. -/
theorem DecidedWrite.confirmed {decoded : Option OperationKind} {observation after : Observation}
    {groups groups' : Groups} {eligible' : List Bool} {position position' : Nat}
    {device shown : DeviceObservation} {now : Instant}
    (hdecided : DecidedWrite diff namespaceId index op decoded observation groups groups' eligible'
      position device kind) (haddr : kind.ipv4Address = some addr)
    (hnow : device.observedAt = now)
    (hlocated : Located after op.target namespaceId position' shown)
    (h : AlikeDevice (project device kind) shown) :
    verifyObservation diff namespaceId index op kind addr (predict device kind now) after eligible =
      some (.ok shown) := by
  rcases validateGroup_ok haddr hdecided.group with ⟨key, hreaches, _⟩
  have hcomplete : shown.addressesComplete = true := by
    rw [← h.complete, project_addressesComplete]
    exact hreaches.complete
  have hpredicted := (alikeDevice_predict hnow (AlikeDevice.refl device) kind).trans h
  exact verifyObservation_of_alike hlocated hcomplete hreaches.isKey hpredicted

end Netfyr
