import Netfyr.Kernel.Distinct
import Netfyr.Kernel.Settled

/-!
# Progress Through a Plan

What a run that succeeds leaves behind. The run is followed round by round: an
operation that succeeded, or had nothing to do, is settled, and later rounds do
not unsettle it, since no other operation assigns its slot and what the kernel
takes with a primary is removed by the plan.

## Main definitions

* `instantKernel`: A kernel nobody else writes to, while no time passes.
* `Exclusive`: No two operations of the plan assign the same slot.
* `snapshot`: The exact snapshot of an operation's group.
* `Done`: An operation is settled on its device.
* `Progress`: What holds of a kernel after some operations of a plan.

## Theorems

* `Done.written`, `Untouched.written`: What a write leaves of the others.
* `Progress.acted`: A round that does not fail makes progress.
* `apply_done`: A successful run leaves every operation done.
-/

namespace Netfyr

open Interact

/-- A kernel that nobody else writes to, while no time passes: inventories show
    its devices or fail, refused writes have no effect, and whether secondaries
    are promoted is settled anew at each removal. -/
def instantKernel (now : Instant) : Environment (List DeviceObservation) IoCall IoAnswer
  | devices, .inventory, answer, devices' =>
      devices' = devices ∧ ∀ observation, answer = .ok observation → observation.devices = devices
  | devices, .execute target kind, answer, devices' =>
      (∃ e, answer = .error e ∧ devices' = devices) ∨
        (answer = .ok () ∧ ∃ promoteSecondaries,
          devices' = kernelApply promoteSecondaries target kind devices)
  | devices, .now, answer, devices' => devices' = devices ∧ answer = now
  | devices, .cancelled, _, devices' => devices' = devices

/-- What an operation of a plan assigns, when it is executable. -/
def assigned (op : Operation) : Option (InterfaceId × Slot) :=
  match decode op.kind .new with
  | .ok (some kind) => kind.slot.map fun slot => (op.target, slot)
  | _ => none

/-- No two operations of the plan assign the same slot of one interface. -/
def Exclusive (diff : StateDiff) : Prop :=
  diff.operations.Pairwise fun a b => assigned a = none ∨ assigned a ≠ assigned b

instance (diff : StateDiff) : Decidable (Exclusive diff) :=
  inferInstanceAs (Decidable (diff.operations.Pairwise _))

/-- The exact snapshot of the prefix group that an operation on an address is
    about. -/
def snapshot (now : Instant) (devices : List DeviceObservation) (op : Operation) :
    Option AddressGroupPrecondition := do
  let addr ← op.kind.ipv4Address
  let device ← devices.find? fun device => device.identity.index == op.target.index
  match GroupKey.new op addr with
  | .ok key => some { addresses := groupAddresses device key, observedAt := now }
  | .error _ => none

/-- The preconditions of a plan are exact snapshots. -/
def SnapshotsOf (now : Instant) (devices : List DeviceObservation) (diff : StateDiff) : Prop :=
  ∀ op ∈ diff.operations, op.kind.ipv4Address.isSome = true →
    op.addressGroup = none ∨ op.addressGroup = snapshot now devices op

/-- An operation is settled on the device of its target. -/
structure Done (namespaceId : NamespaceId) (devices : List DeviceObservation) (op : Operation) :
    Prop where
  decodes : ∃ decoded, decode op.kind .new = .ok decoded
  settled : ∃ position device, Located ⟨devices, []⟩ op.target namespaceId position device ∧
    ∀ kind, decode op.kind .new = .ok (some kind) → Settled device kind

/-- The address an operation wants is on its device as it was at the start. -/
def Untouched (namespaceId : NamespaceId) (start devices : List DeviceObservation)
    (op : Operation) : Prop :=
  ∀ kind addr, decode op.kind .new = .ok (some kind) → kind.wanted = some addr →
    ∀ position device, Located ⟨devices, []⟩ op.target namespaceId position device →
      ∃ device₀, Located ⟨start, []⟩ op.target namespaceId position device₀ ∧
        entriesOf device addr = entriesOf device₀ addr

/-- What holds of a kernel after the first `n` operations of a plan: they are
    done, and the addresses that others want are as they were. -/
structure Progress (diff : StateDiff) (namespaceId : NamespaceId) (now : Instant)
    (start : List DeviceObservation) (n : Nat) (devices : List DeviceObservation) : Prop where
  wellFormed : WellFormed now devices
  done : ∀ i op, i < n → diff.operations[i]? = some op → Done namespaceId devices op
  untouched : ∀ i op, n ≤ i → diff.operations[i]? = some op →
    Untouched namespaceId start devices op

variable {diff : StateDiff} {namespaceId : NamespaceId} {index : Nat} {op other : Operation}
  {decoded : Option OperationKind} {observation : Observation} {groups groups' : Groups}
  {eligible : List Bool} {position position' : Nat} {device found : DeviceObservation}
  {kind kind' : OperationKind} {addr : Ipv4Address} {promoteSecondaries : Bool} {now : Instant}
  {start devices devices' : List DeviceObservation} {tr : List IoEvent} {s s' : Execution}

theorem instantKernel_faithful : Faithful (instantKernel now) ShowsExactly :=
  ⟨fun hanswer => hanswer, fun hanswer => hanswer.1, fun hanswer => hanswer⟩

section Exclusive

theorem assigned_eq {slot : Slot} (hdecode : decode op.kind .new = .ok (some kind))
    (hslot : kind.slot = some slot) : assigned op = some (op.target, slot) := by
  unfold assigned
  rw [hdecode]
  simp only [hslot, Option.map_some]

/-- Two operations of an exclusive plan do not assign the same. -/
theorem Exclusive.apart (h : Exclusive diff) {i j : Nat}
    (hop : diff.operations[i]? = some op) (hother : diff.operations[j]? = some other)
    (hne : i ≠ j) {x : InterfaceId × Slot} (hx : assigned op = some x) :
    assigned other ≠ some x := by
  -- The list is pairwise so in its own order; the claim is symmetric.
  have hpairs := List.pairwise_iff_getElem.mp h
  rcases List.getElem?_eq_some_iff.mp hop with ⟨hi, rfl⟩
  rcases List.getElem?_eq_some_iff.mp hother with ⟨hj, rfl⟩
  intro hsame
  rcases Nat.lt_or_gt_of_ne hne with hlt | hlt
  · rcases hpairs i j hi hj hlt with hnone | hdiffer
    · exact absurd (hnone.symm.trans hx) (by simp)
    · exact hdiffer (hx.trans hsame.symm)
  · rcases hpairs j i hj hi hlt with hnone | hdiffer
    · exact absurd (hnone.symm.trans hsame) (by simp)
    · exact hdiffer (hsame.trans hx.symm)

/-- Two executable operations on one target assign different slots. -/
theorem Exclusive.slot_ne (h : Exclusive diff) {i j : Nat} (hop : diff.operations[i]? = some op)
    (hother : diff.operations[j]? = some other) (hne : i ≠ j) (htarget : other.target = op.target)
    (hdecode : decode op.kind .new = .ok (some kind))
    (hdecode' : decode other.kind .new = .ok (some kind')) : kind.slot ≠ kind'.slot := by
  rcases slot_of_decode hdecode with ⟨slot, hslot⟩
  intro hsame
  have hother' := assigned_eq hdecode' (hsame.symm.trans hslot)
  rw [htarget] at hother'
  exact h.apart hop hother hne (assigned_eq hdecode hslot) hother'

/-- An exclusive plan does not remove an address that one of its operations
    wants. -/
theorem Exclusive.not_named (h : Exclusive diff) {i : Nat} (hop : diff.operations[i]? = some op)
    (hdecode : decode op.kind .new = .ok (some kind)) (hwanted : kind.wanted = some addr) :
    ¬ Named diff op.target addr := by
  rintro ⟨removal, hmem, hremoves⟩
  rcases List.getElem?_of_mem hmem with ⟨j, hremoval⟩
  rcases removesAddress_iff.mp hremoves with ⟨htarget, removed, hkind, hsame⟩
  have haddr := ipv4Address_of_wanted hwanted
  obtain rfl := decode_address hdecode haddr
  -- The removal is executable, because the wanted address has a group.
  have hdecode' : decode removal.kind .new = .ok (some (.removeIpv4 removed)) := by
    rcases decode_group hdecode haddr with ⟨group, hgroup⟩
    rw [Ipv4Address.sameIdentity_group hsame] at hgroup
    rw [hkind]
    simp only [decode, checkDecoded, hgroup, reduceCtorEq, if_false]
  -- An operation that wants an address is no removal.
  have hne : i ≠ j := by
    rintro rfl
    have heq : op = removal := Option.some.inj (hop.symm.trans hremoval)
    rw [heq, hkind] at hwanted
    exact absurd hwanted (by simp [OperationKind.wanted])
  refine h.slot_ne hop hremoval hne htarget hdecode hdecode' ?_
  rw [Ipv4Address.sameIdentity_iff] at hsame
  rw [slot_address haddr, hsame.1, hsame.2]
  rfl

end Exclusive

section Snapshots

/-- The snapshot of a located device's group. -/
theorem snapshot_located {key : GroupKey}
    (hlocated : Located observation op.target namespaceId position device)
    (haddr : op.kind.ipv4Address = some addr) (hkey : GroupKey.new op addr = .ok key) :
    snapshot now observation.devices op =
      some { addresses := groupAddresses device key, observedAt := now } := by
  unfold snapshot
  rw [haddr, hlocated.find?]
  simp only [Option.bind_eq_bind, Option.bind_some, hkey]

/-- A snapshot of the start tells exactly of an address that is as it was. -/
theorem agedExactly (hwell : WellFormed now start) (hnow : device.observedAt = now)
    (hsnapshots : SnapshotsOf now start diff) (hop : op ∈ diff.operations)
    (haddr : op.kind.ipv4Address = some addr) {device₀ : DeviceObservation}
    (hlocated : Located ⟨start, []⟩ op.target namespaceId position device₀)
    (hsame : entriesOf device addr = entriesOf device₀ addr) : AgedExactly op addr device := by
  intro age hage
  unfold preconditionAge at hage
  rcases hsnapshots op hop (by rw [haddr]; rfl) with hnone | hexact
  · rw [hnone] at hage
    exact absurd hage (by simp)
  cases hkey : GroupKey.new op addr with
  | error e =>
      have hnone : snapshot now start op = none := by
        unfold snapshot
        rw [haddr, hlocated.find?]
        simp only [Option.bind_eq_bind, Option.bind_some, hkey]
      rw [hexact, hnone] at hage
      exact absurd hage (by simp)
  | ok key =>
      rw [hexact, snapshot_located hlocated haddr hkey] at hage
      simp only at hage
      split at hage
      · next hany =>
          -- No time has passed, and the entry in the snapshot is the one on the device.
          refine ⟨?_, fun existing hmem => ?_⟩
          · rw [← Option.some.inj hage, hnow]
            exact Nat.sub_self now
          · rcases List.any_eq_true.mp hany with ⟨entry, hentry, hlisted⟩
            rw [beq_iff_eq] at hlisted
            rw [hsame, mem_entriesOf] at hmem
            have hdistinct := hwell.distinct device₀ (List.mem_of_getElem? hlocated.atPosition)
            obtain rfl : existing = entry :=
              hdistinct.eq hmem.1 (List.mem_filter.mp hentry).1 (hlisted ▸ hmem.2)
            rw [hlisted]
      · exact absurd hage (by simp)

end Snapshots

section FirstRun

/-- The device of another target after a write: the written one, or as before. -/
theorem Located.kernelApply_cases
    (h : Located observation op.target namespaceId position device)
    (hshows : ShowsExactly observation devices)
    (hother : Located ⟨devices, []⟩ other.target namespaceId position' found) :
    ∃ found', Located ⟨Netfyr.kernelApply promoteSecondaries op.target kind devices, []⟩
        other.target namespaceId position' found' ∧
      (found' = found ∨ (found = device ∧ other.target = op.target ∧
        found' = kernelWrite promoteSecondaries device kind)) := by
  have hhere : Located ⟨devices, []⟩ op.target namespaceId position device := h.of_devices hshows
  have hdevices : (Observation.written ⟨devices, []⟩ position
      (kernelWrite promoteSecondaries device kind)).devices =
        Netfyr.kernelApply promoteSecondaries op.target kind devices := (h.kernelApply hshows).symm
  -- The device that was written, or one elsewhere.
  by_cases hposition : position' = position
  · subst hposition
    have hsame : found = device :=
      Option.some.inj (hother.atPosition.symm.trans hhere.atPosition)
    have htarget : other.target = op.target := by
      rw [← hother.isTarget, hsame, hhere.isTarget]
    have hwritten : Located (Observation.written ⟨devices, []⟩ position'
        (kernelWrite promoteSecondaries device kind)) op.target namespaceId position'
        (kernelWrite promoteSecondaries device kind) := hhere.written kernelWrite_identity
    rw [← htarget] at hwritten
    exact ⟨_, hwritten.of_devices hdevices, Or.inr ⟨hsame, htarget, rfl⟩⟩
  · have helsewhere : Located (Observation.written ⟨devices, []⟩ position
        (kernelWrite promoteSecondaries device kind)) other.target namespaceId position' found :=
      hhere.elsewhere kernelWrite_identity hother hposition
    exact ⟨_, helsewhere.of_devices hdevices, Or.inl rfl⟩

/-- A write to one target leaves done what is done on another slot. -/
theorem Done.written
    (h : DecidedWrite diff namespaceId index op decoded observation groups groups' eligible position
      device kind) (hshows : ShowsExactly observation devices)
    (hslot : ∀ kind', other.target = op.target → decode other.kind .new = .ok (some kind') →
      kind.slot ≠ kind'.slot)
    (hkept : ∀ kind' addr, decode other.kind .new = .ok (some kind') → kind'.wanted = some addr →
      ¬ Named diff other.target addr)
    (hdone : Done namespaceId devices other) :
    Done namespaceId (kernelApply promoteSecondaries op.target kind devices) other := by
  rcases hdone.settled with ⟨position', found, hfound, hsettled⟩
  have hfound' : ∃ found', Located ⟨kernelApply promoteSecondaries op.target kind devices, []⟩
      other.target namespaceId position' found' ∧ (found' = found ∨ (found = device ∧
        other.target = op.target ∧ found' = kernelWrite promoteSecondaries device kind)) :=
    h.located.kernelApply_cases hshows hfound
  rcases hfound' with ⟨found', hfound', rfl | ⟨rfl, htarget, rfl⟩⟩
  · exact ⟨hdone.decodes, position', found', hfound', hsettled⟩
  · refine ⟨hdone.decodes, position', _, hfound', fun kind' hdecode' => ?_⟩
    refine h.keepsSettled (hslot kind' htarget hdecode') (fun addr hwanted => ?_)
      (hsettled kind' hdecode')
    rw [← htarget]
    exact hkept kind' addr hdecode' hwanted

/-- A write to one target leaves the addresses that others want as they were. -/
theorem Untouched.written
    (h : DecidedWrite diff namespaceId index op decoded observation groups groups' eligible position
      device kind) (hshows : ShowsExactly observation devices)
    (hslot : ∀ kind', other.target = op.target → decode other.kind .new = .ok (some kind') →
      kind.slot ≠ kind'.slot)
    (hkept : ∀ kind' addr, decode other.kind .new = .ok (some kind') → kind'.wanted = some addr →
      ¬ Named diff other.target addr)
    (huntouched : Untouched namespaceId start devices other) :
    Untouched namespaceId start (kernelApply promoteSecondaries op.target kind devices) other := by
  intro kind' addr hdecode' hwanted position' found hfound
  have hhere : Located ⟨devices, []⟩ op.target namespaceId position device :=
    h.located.of_devices hshows
  have hdevices : kernelApply promoteSecondaries op.target kind devices =
      (Observation.written ⟨devices, []⟩ position
        (kernelWrite promoteSecondaries device kind)).devices := h.located.kernelApply hshows
  -- The device was written, and kept the address, or it was not.
  rcases hhere.of_written kernelWrite_identity (hfound.of_devices hdevices) with
    ⟨rfl, rfl, htarget⟩ | ⟨_, hbefore⟩
  · rw [← htarget] at hhere
    rcases huntouched kind' addr hdecode' hwanted _ _ hhere with ⟨device₀, hlocated₀, hsame⟩
    refine ⟨device₀, hlocated₀, Eq.trans ?_ hsame⟩
    refine h.entriesOf (fun own hown => ?_) ?_
    · exact sameIdentity_of_slot_ne (hslot kind' htarget hdecode') hown
        (ipv4Address_of_wanted hwanted)
    · rw [← htarget]
      exact hkept kind' addr hdecode' hwanted
  · exact huntouched kind' addr hdecode' hwanted _ _ hbefore

/-- A round that does not fail makes progress. -/
theorem Progress.acted (hexclusive : Exclusive diff) (hsnapshots : SnapshotsOf now start diff)
    (hstart : WellFormed now start) {n : Nat} {r : Except BackendError (Option SkipReason)}
    (h : Progress diff namespaceId now start n devices) (hop : diff.operations[n]? = some op)
    (hacted : Acted (instantKernel now) ShowsExactly diff namespaceId n op s devices r devices')
    (heligible : (outcomeOf r).isEligible = true) :
    Progress diff namespaceId now start (n + 1) devices' := by
  have hmem : op ∈ diff.operations := List.mem_of_getElem? hop
  -- Whatever the round did to the devices, the operation and the others are looked at apart.
  have hprogress : ∀ {k}, WellFormed now k → Done namespaceId k op →
      (∀ i other, i ≠ n → diff.operations[i]? = some other → Done namespaceId devices other →
        Done namespaceId k other) →
      (∀ i other, i ≠ n → diff.operations[i]? = some other →
        Untouched namespaceId start devices other → Untouched namespaceId start k other) →
      Progress diff namespaceId now start (n + 1) k := by
    intro k hwell hdone hdones huntouched
    refine ⟨hwell, fun i other hi hother => ?_, fun i other hi hother => ?_⟩
    · by_cases hin : i = n
      · subst hin
        rw [← Option.some.inj (hop.symm.trans hother)]
        exact hdone
      · exact hdones i other hin hother (h.done i other (by omega) hother)
    · exact huntouched i other (by omega) hother (h.untouched i other (by omega) hother)
  cases hacted with
  | failed e => exact absurd heligible (by simp [outcomeOf, Outcome.isEligible])
  | @skipped decoded observation reason groups hshows hdecode hcheck =>
      -- Nothing was written, and the reason to skip says that the operation is settled.
      refine hprogress h.wellFormed ?_ (fun _ _ _ _ hdone => hdone) fun _ _ _ _ hsame => hsame
      rcases check_skip hcheck with ⟨position, device, hlocated, hwhy⟩
      have hhere : Located ⟨devices, []⟩ op.target namespaceId position device :=
        hlocated.of_devices hshows
      refine ⟨⟨decoded, hdecode⟩, position, device, hhere, fun kind hkind => ?_⟩
      rw [hdecode, Except.ok.injEq] at hkind
      rcases hwhy with ⟨rfl, _⟩ | ⟨kind', rfl, _, hsatisfied⟩
      · exact absurd hkind (by simp)
      · obtain rfl := Option.some.inj hkind
        refine settled_of_satisfied (fun addr hwanted => ?_) hsatisfied
        have haddr := ipv4Address_of_wanted hwanted
        have hkind := decode_address hdecode haddr
        rw [hkind] at haddr
        rcases h.untouched n op (Nat.le_refl n) hop _ addr hdecode hwanted _ _ hhere with
          ⟨device₀, hlocated₀, hsame⟩
        have hinstant := h.wellFormed.instant device (List.mem_of_getElem? hhere.atPosition)
        exact agedExactly hstart hinstant hsnapshots hmem haddr hlocated₀ hsame
  | @executed observation groups position device kind answer _ _ hshows hdecode hdecided hsent
      hanswer hskip =>
      -- Only a write that was acknowledged lets the operation succeed.
      have hacknowledged : ∃ skip, r = .ok skip := by
        cases r with
        | error e => exact absurd heligible (by simp [outcomeOf, Outcome.isEligible])
        | ok skip => exact ⟨skip, rfl⟩
      rcases hacknowledged with ⟨skip, hr⟩
      obtain rfl := hanswer skip hr
      rcases hsent with ⟨e, habs, _⟩ | ⟨_, promoteSecondaries, rfl⟩
      · exact absurd habs (by simp)
      have hslot : ∀ (i : Nat) (other : Operation), i ≠ n → diff.operations[i]? = some other →
          ∀ kind', other.target = op.target → decode other.kind .new = .ok (some kind') →
            kind.slot ≠ kind'.slot := fun i other hne hother kind' htarget hdecode' =>
        hexclusive.slot_ne hop hother (Ne.symm hne) htarget hdecode hdecode'
      have hkept : ∀ (i : Nat) (other : Operation), diff.operations[i]? = some other → ∀ kind' addr,
          decode other.kind .new = .ok (some kind') → kind'.wanted = some addr →
            ¬ Named diff other.target addr := fun i other hother kind' addr hdecode' hwanted =>
        hexclusive.not_named hother hdecode' hwanted
      refine hprogress (hdecided.wellFormed hshows h.wellFormed) ?_
        (fun i other hne hother hdone =>
          hdone.written hdecided hshows (hslot i other hne hother) (hkept i other hother))
        fun i other hne hother huntouched =>
          huntouched.written hdecided hshows (hslot i other hne hother) (hkept i other hother)
      have hhere : Located ⟨devices, []⟩ op.target namespaceId position device :=
        hdecided.located.of_devices hshows
      have hwritten : Located (Observation.written ⟨devices, []⟩ position
          (kernelWrite promoteSecondaries device kind)) op.target namespaceId position
          (kernelWrite promoteSecondaries device kind) := hhere.written kernelWrite_identity
      have hdevices : kernelApply promoteSecondaries op.target kind devices =
          (Observation.written ⟨devices, []⟩ position
            (kernelWrite promoteSecondaries device kind)).devices :=
        hdecided.located.kernelApply hshows
      refine ⟨⟨_, hdecode⟩, position, _, hwritten.of_devices hdevices.symm, fun kind' hkind => ?_⟩
      rw [hdecode, Except.ok.injEq, Option.some.injEq] at hkind
      subst hkind
      exact hdecided.settled hdecode

/-- A successful run leaves every operation of the plan done. -/
theorem apply_done {report : ApplyReport} {h : List ExecRound} (hexclusive : Exclusive diff)
    (hstart : WellFormed now start) (hsnapshots : SnapshotsOf now start diff)
    (hr : RunHistory diff false namespaceId tr report h)
    (hadmits : Admits (instantKernel now) start tr devices)
    (heligible : ∀ r ∈ h, r.outcome.isEligible = true) :
    Progress diff namespaceId now start diff.operations.length devices := by
  rcases hr.history with ⟨s, hs, _⟩
  rw [hr.trace] at hadmits
  rw [← hr.complete]
  refine (hs.acted instantKernel_faithful (P := fun h devices =>
    (∀ r ∈ h, r.outcome.isEligible = true) → Progress diff namespaceId now start h.length devices)
    ?_ ?_ hadmits).1 heligible
  · intro _
    exact ⟨hstart, fun i op hi => absurd hi (Nat.not_lt_zero i),
      fun i op _ hop kind addr _ _ position device hlocated => ⟨device, hlocated, rfl⟩⟩
  · -- The last round is eligible, so it acted, and makes progress.
    intro h s s' op tr outcome before after _ _ hbefore hop hacted hall
    have hlast : outcome.isEligible = true :=
      hall ⟨s, tr, outcome, s'⟩ (List.mem_append_right h (List.mem_singleton.mpr rfl))
    have hprogress := hbefore fun r hmem => hall r (List.mem_append_left _ hmem)
    rw [List.length_append, List.length_singleton]
    rcases hacted with ⟨_, hnot⟩ | ⟨r, rfl, hacted⟩
    · rw [hlast] at hnot
      exact absurd hnot (by decide)
    · exact hprogress.acted hexclusive hsnapshots hstart hop hacted hlast

end FirstRun

end Netfyr
