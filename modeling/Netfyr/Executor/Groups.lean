import Netfyr.Executor.Steps

/-!
# The Group Check

What the group check of an operation finds and what it does to the map of
expected groups. The check gets as far as the operation's precondition, or it
fails before; in the first case the precondition establishes the group unless it
already is, and the group as it is now is compared with what is expected of it.

## Main definitions

* `Reaches`: The check gets as far as the precondition.

## Theorems

* `validateGroup_cases`, `validateGroup_ok`: What the check does and finds.
* `establish_same`, `establish_of_ne`: What establishing a group changes.
* `updateGroups_apply`: What bringing a group up to date changes.
* `check_groups`: What the decision on an operation does to the map.
-/

namespace Netfyr

variable {diff : StateDiff} {namespaceId : NamespaceId} {index : Nat} {op : Operation}
  {kind : OperationKind} {addr : Ipv4Address} {device : DeviceObservation} {key : GroupKey}
  {groups groups' : Groups}

/-- The group check of an operation gets as far as its precondition: the
    addresses are complete, and the precondition lies in the address's group. -/
structure Reaches (op : Operation) (device : DeviceObservation) (addr : Ipv4Address)
    (key : GroupKey) : Prop where
  complete : device.addressesComplete = true
  isKey : GroupKey.new op addr = .ok key
  inside : ∀ precondition, op.addressGroup = some precondition →
    ∀ entry ∈ precondition.addresses, key.contains entry.address = true

theorem describesOther_eq_false : describesOther op key = false ↔
    ∀ precondition, op.addressGroup = some precondition →
      ∀ entry ∈ precondition.addresses, key.contains entry.address = true := by
  unfold describesOther
  cases op.addressGroup with
  | none => simp
  | some precondition => simp [List.any_eq_false]

/-- The group check establishes the group and compares with it, when it gets as
    far as that; else it fails and leaves the map alone. -/
theorem validateGroup_cases (device : DeviceObservation) (op : Operation) (groups : Groups)
    (haddr : kind.ipv4Address = some addr) :
    (∃ key, Reaches op device addr key ∧ validateGroup op device kind groups =
        (checkExpected device kind addr key (establish op key groups key),
          establish op key groups)) ∨
      ((∀ key, ¬ Reaches op device addr key) ∧
        ∃ e, validateGroup op device kind groups = (.error e, groups)) := by
  unfold validateGroup
  simp only [haddr]
  by_cases hcomplete : device.addressesComplete = false
  · rw [if_pos hcomplete]
    refine Or.inr ⟨fun key h => ?_, _, rfl⟩
    rw [h.complete] at hcomplete
    exact absurd hcomplete (by decide)
  rw [if_neg hcomplete]
  rw [Bool.not_eq_false] at hcomplete
  cases hkey : GroupKey.new op addr with
  | error e =>
      refine Or.inr ⟨fun key h => ?_, e, rfl⟩
      rw [h.isKey] at hkey
      exact absurd hkey (by simp)
  | ok key =>
      simp only
      cases hother : describesOther op key with
      | true =>
          refine Or.inr ⟨fun key' h => ?_, _, rfl⟩
          obtain rfl : key = key' := Except.ok.inj (hkey.symm.trans h.isKey)
          rw [describesOther_eq_false.mpr h.inside] at hother
          exact absurd hother Bool.false_ne_true
      | false =>
          exact Or.inl ⟨key, ⟨hcomplete, hkey, describesOther_eq_false.mp hother⟩, rfl⟩

/-- What a passed group check has found: the group matches what is expected of
    it, or nothing is and no existing address is touched. -/
theorem validateGroup_ok (haddr : kind.ipv4Address = some addr)
    (h : validateGroup op device kind groups = (.ok (), groups')) :
    ∃ key, Reaches op device addr key ∧ groups' = establish op key groups ∧
      ((∃ expected, groups' key = some expected ∧
          groupMatches expected (groupAddresses device key) device.observedAt = true) ∨
        (groups' key = none ∧ (kind.isDestructive && hasAddress device addr) = false)) := by
  rcases validateGroup_cases device op groups haddr with ⟨key, hreaches, heq⟩ | ⟨_, e, heq⟩
  · rw [h, Prod.mk.injEq] at heq
    rcases heq with ⟨hcheck, rfl⟩
    refine ⟨key, hreaches, rfl, ?_⟩
    cases hexpected : establish op key groups key with
    | some expected =>
        refine Or.inl ⟨expected, rfl, ?_⟩
        rw [hexpected, checkExpected] at hcheck
        by_contra hne
        rw [if_neg hne] at hcheck
        exact absurd hcheck (by simp)
    | none =>
        refine Or.inr ⟨rfl, ?_⟩
        rw [hexpected, checkExpected] at hcheck
        by_contra hne
        rw [if_pos (by rwa [Bool.not_eq_false] at hne)] at hcheck
        exact absurd hcheck (by simp)
  · rw [h] at heq
    exact absurd (congrArg Prod.fst heq) (by simp)

/-- A group is established by the precondition, unless it already is. -/
theorem establish_same : establish op key groups key =
    (groups key).orElse fun _ => op.addressGroup.map AddressGroupPrecondition.expected := by
  unfold establish
  cases hgroup : op.addressGroup with
  | none => cases hkey : groups key <;> simp [hkey]
  | some precondition => cases hkey : groups key <;> simp [hkey]

/-- Other groups are left alone. -/
theorem establish_of_ne {other : GroupKey} (hne : other ≠ key) :
    establish op key groups other = groups other := by
  unfold establish
  cases op.addressGroup with
  | none => rfl
  | some precondition =>
      cases groups key with
      | none => exact Function.update_of_ne hne _ _
      | some expected => rfl

/-- A verified write brings its group up to date, if that is established, and no
    other. -/
theorem updateGroups_apply {predicted : DeviceObservation} {key' : GroupKey} :
    updateGroups groups (some key') predicted key =
      if key = key' then (groups key).map fun _ =>
        { addresses := groupAddresses predicted key, observedAt := predicted.observedAt }
      else groups key := by
  unfold updateGroups
  simp only
  by_cases hkey : key = key'
  · subst hkey
    rw [if_pos rfl]
    cases hheld : groups key with
    | none => exact hheld
    | some expected => exact Function.update_self _ _ _
  · rw [if_neg hkey]
    cases groups key' with
    | none => rfl
    | some expected => exact Function.update_of_ne hkey _ _

/-- What a check does to the map: it establishes the group of an address
    operation whose group check gets that far, and nothing else. -/
theorem check_groups {decoded : Option OperationKind} {observation : Observation}
    {eligible : List Bool} {verdict : Except BackendError Verdict}
    (h : check diff namespaceId index op decoded observation groups eligible =
      some (verdict, groups')) :
    (∃ position device kind addr key, Located observation op.target namespaceId position device ∧
        decoded = some kind ∧ kind.ipv4Address = some addr ∧ Reaches op device addr key ∧
        groups' = establish op key groups) ∨
      (groups' = groups ∧ ∀ position device kind addr key,
        Located observation op.target namespaceId position device → decoded = some kind →
        kind.ipv4Address = some addr → ¬ Reaches op device addr key) := by
  unfold check at h
  split at h
  · next e hloc =>
      simp only [Option.some.injEq, Prod.mk.injEq] at h
      refine Or.inr ⟨h.2.symm, fun position device _ _ _ hlocated => ?_⟩
      rw [locate_eq_ok.mpr ⟨device, hlocated⟩] at hloc
      exact absurd hloc (by simp)
  next position hloc =>
  rcases locate_eq_ok.mp hloc with ⟨device, hlocated⟩
  simp only [hlocated.atPosition] at h
  split at h
  · simp only [Option.some.injEq, Prod.mk.injEq] at h
    exact Or.inr ⟨h.2.symm, fun _ _ kind _ _ _ hnone => absurd hnone (by simp)⟩
  next kind =>
  have hgroups : groups' = (validateGroup op device kind groups).2 := by
    split at h
    · next hcheck =>
        rw [hcheck]
        simp only [Option.some.injEq, Prod.mk.injEq] at h
        exact h.2.symm
    · next hcheck =>
        rw [hcheck]
        split at h
        · simp only [Option.some.injEq, Prod.mk.injEq] at h
          exact h.2.symm
        · simp only [Option.some.injEq, Prod.mk.injEq] at h
          exact h.2.symm
        · split at h
          · exact absurd h (by simp)
          · simp only [Option.some.injEq, Prod.mk.injEq] at h
            exact h.2.symm
          · simp only [Option.some.injEq, Prod.mk.injEq] at h
            exact h.2.symm
  cases haddr : kind.ipv4Address with
  | none =>
      refine Or.inr ⟨?_, fun _ _ kind' addr _ _ hsome haddr' => ?_⟩
      · rw [hgroups, validateGroup, haddr]
      · rw [← Option.some.inj hsome, haddr] at haddr'
        exact absurd haddr' (by simp)
  | some addr =>
      rcases validateGroup_cases device op groups haddr with ⟨key, hreaches, heq⟩ | ⟨hnot, e, heq⟩
      · rw [heq] at hgroups
        exact Or.inl ⟨position, device, kind, addr, key, hlocated, rfl, haddr, hreaches, hgroups⟩
      · rw [heq] at hgroups
        refine Or.inr ⟨hgroups, fun position' device' kind' addr' key hlocated' hsome haddr' => ?_⟩
        obtain rfl := Option.some.inj hsome
        obtain rfl := Option.some.inj (haddr.symm.trans haddr')
        rw [(hlocated'.unique hlocated).2]
        exact hnot key

end Netfyr
