import Netfyr.Executor.Alike

/-!
# The Cascade Check

What the check of a primary's removal guarantees. The kernel may delete the
primary's secondaries with it, so each of them must be removed by a later
operation of the plan anyway, and lie in the group that the removal is about.

## Main definitions

* `Named`: An address that some operation of a plan removes.

## Theorems

* `named_of_covered`: A covered address is named by a later operation.
* `checkCascade_ok`: What a passed check says of the secondaries.
-/

namespace Netfyr

/-- Some operation of a plan removes this address from this target. -/
def Named (diff : StateDiff) (target : InterfaceId) (addr : Ipv4Address) : Prop :=
  ∃ op ∈ diff.operations, removesAddress op target addr = true

instance (diff : StateDiff) (target : InterfaceId) (addr : Ipv4Address) :
    Decidable (Named diff target addr) :=
  inferInstanceAs (Decidable (∃ op ∈ diff.operations, removesAddress op target addr = true))

variable {diff : StateDiff} {index : Nat} {target : InterfaceId} {addr : Ipv4Address}
  {eligible : List Bool} {device : DeviceObservation}

/-- A covered address is named by a later operation. -/
theorem named_of_covered (h : removalIsCovered diff index target addr eligible = some true) :
    Named diff target addr := by
  unfold removalIsCovered at h
  split at h
  · exact absurd h (by simp)
  split at h
  · exact absurd h (by simp)
  next runnable _ =>
  rcases Checked.exists_of_anyChecked h with ⟨⟨op, position⟩, hmem, hpass⟩
  split at hpass
  · exact absurd hpass (by simp)
  · next ready _ =>
      rw [Option.some.injEq, Bool.and_eq_true] at hpass
      have hin := List.mem_of_mem_drop hmem
      exact ⟨op, List.fst_mem_of_mem_zipIdx hin, hpass.2⟩

/-- Only removals remove an address. -/
theorem removesAddress_iff {op : Operation} : removesAddress op target addr = true ↔
    op.target = target ∧ ∃ removed, op.kind = .removeIpv4 removed ∧
      addr.sameIdentity removed = true := by
  unfold removesAddress
  rw [Bool.and_eq_true, beq_iff_eq]
  refine and_congr_right fun _ => ?_
  cases op.kind with
  | removeIpv4 removed => simp
  | setMtu _ => simp
  | setEnabled _ => simp
  | addIpv4 _ => simp
  | replaceIpv4 _ => simp
  | setField _ _ => simp
  | addEntity => simp
  | removeEntity => simp

/-- Addresses of one identity are removed alike. -/
theorem removesAddress_congr {op : Operation} {other : Ipv4Address}
    (hid : addr.sameIdentity other = true) :
    removesAddress op target addr = removesAddress op target other := by
  unfold removesAddress
  cases op.kind with
  | removeIpv4 removed => simp only [Ipv4Address.sameIdentity_congr hid]
  | setMtu _ => rfl
  | setEnabled _ => rfl
  | addIpv4 _ => rfl
  | replaceIpv4 _ => rfl
  | setField _ _ => rfl
  | addEntity => rfl
  | removeEntity => rfl

/-- Addresses of one identity are named alike. -/
theorem Named.congr {other : Ipv4Address} (hid : addr.sameIdentity other = true)
    (h : Named diff target addr) : Named diff target other := by
  rcases h with ⟨op, hmem, hremoves⟩
  exact ⟨op, hmem, by rwa [← removesAddress_congr hid]⟩

/-- Addresses of one identity are covered alike. -/
theorem removalIsCovered_congr {other : Ipv4Address} (hid : addr.sameIdentity other = true) :
    removalIsCovered diff index target addr eligible =
      removalIsCovered diff index target other eligible := by
  unfold removalIsCovered
  simp only [removesAddress_congr hid]

/-- After a passed check, every secondary that the kernel may delete with the
    primary is in the primary's group, and covered. -/
theorem checkCascade_ok
    (h : checkCascade diff index device (.removeIpv4 addr) eligible = some (.ok ()))
    {primary secondary : AddressObservation}
    (hprimary : device.addresses.find? (fun entry =>
      entry.address.sameIdentity addr && !entry.isSecondary) = some primary)
    (hmem : secondary ∈ device.addresses) (hcascades : secondary.cascadesWith primary = true) :
    secondary.address.group = addr.group ∧
      removalIsCovered diff index device.identity secondary.address eligible = some true := by
  simp only [checkCascade, hprimary] at h
  split at h
  · exact absurd h (by simp)
  · exact absurd h (by simp)
  next hany =>
  have hcovered := Checked.anyChecked_eq_false.mp hany secondary hmem
  unfold isUncovered at hcovered
  rw [if_neg (by rw [hcascades]; decide)] at hcovered
  by_cases hgroup : secondary.address.group = addr.group
  · rw [if_neg (not_not_intro hgroup)] at hcovered
    rcases Option.map_eq_some_iff.mp hcovered with ⟨covered, hsome, hnot⟩
    rw [Bool.not_eq_false'] at hnot
    exact ⟨hgroup, hnot ▸ hsome⟩
  · rw [if_pos hgroup] at hcovered
    exact absurd hcovered (by simp)

/-- Records of one device pass the check alike. -/
theorem AlikeDevice.checkCascade {a b : DeviceObservation} (h : AlikeDevice a b)
    (kind : OperationKind) :
    checkCascade diff index a kind eligible = checkCascade diff index b kind eligible := by
  unfold Netfyr.checkCascade
  cases kind with
  | removeIpv4 addr =>
      have hprimary : (a.addresses.find? (fun entry =>
            entry.address.sameIdentity addr && !entry.isSecondary) = none ∧
          b.addresses.find? (fun entry =>
            entry.address.sameIdentity addr && !entry.isSecondary) = none) ∨
          ∃ p q, a.addresses.find? (fun entry =>
              entry.address.sameIdentity addr && !entry.isSecondary) = some p ∧
            b.addresses.find? (fun entry =>
              entry.address.sameIdentity addr && !entry.isSecondary) = some q ∧ Alike p q :=
        find?_forall₂ h.addresses fun x y hxy => by rw [hxy.sameIdentity, hxy.isSecondary]
      rcases hprimary with ⟨hp, hq⟩ | ⟨p, q, hp, hq, hpq⟩
      · simp only [hp, hq]
      · have hany : Checked.anyChecked (isUncovered diff index a addr eligible p) a.addresses =
            Checked.anyChecked (isUncovered diff index b addr eligible q) b.addresses := by
          refine Checked.anyChecked_forall₂ h.addresses fun x y hxy => ?_
          unfold isUncovered
          rw [hxy.cascadesWith hpq.toSameAddress, hxy.group, h.identity,
            removalIsCovered_congr hxy.identity]
        simp only [hp, hq, hany]
  | setMtu _ => rfl
  | setEnabled _ => rfl
  | addIpv4 _ => rfl
  | replaceIpv4 _ => rfl
  | setField _ _ => rfl
  | addEntity => rfl
  | removeEntity => rfl

end Netfyr
