import Netfyr.Executor.Acted
import Netfyr.Kernel.Transport
import Netfyr.Kernel.Verification

/-!
# Well-Formed Kernel States

What stays true of a kernel's devices while plans are applied and nothing goes
wrong: address lists are complete and without duplicates, and every device is
observed at the one instant. An addition is sent only where the address is
missing, and nothing else adds an address.

## Main definitions

* `WellFormed`: The devices are as they should be.
* `kernelAfter`: The devices after the writes of a trace.

## Theorems

* `DecidedWrite.distinct`: A write that was decided on makes no duplicate.
* `Acted.wellFormed`: What a step does keeps the devices well formed.
* `steadyKernel_after`: The state is what the writes of the trace make of it.
-/

namespace Netfyr

open Interact

/-- The devices of a kernel at an instant: complete, and without duplicates. -/
structure WellFormed (now : Instant) (devices : List DeviceObservation) : Prop where
  complete : ∀ device ∈ devices, device.addressesComplete = true
  instant : ∀ device ∈ devices, device.observedAt = now
  distinct : ∀ device ∈ devices, Distinct device.addresses

/-- An inventory that shows the devices as they are. -/
def ShowsExactly (observation : Observation) (devices : List DeviceObservation) : Prop :=
  observation.devices = devices

/-- The devices after the writes of a trace. -/
def kernelAfter (promoteSecondaries : Bool) (devices : List DeviceObservation)
    (tr : List IoEvent) : List DeviceObservation :=
  tr.foldl (fun devices event => match event with
    | ⟨.execute target kind, .ok ()⟩ => kernelApply promoteSecondaries target kind devices
    | _ => devices) devices

variable {diff : StateDiff} {namespaceId : NamespaceId} {index : Nat} {op : Operation}
  {decoded : Option OperationKind} {observation : Observation} {groups groups' : Groups}
  {eligible : List Bool} {position : Nat} {device : DeviceObservation} {kind : OperationKind}
  {promoteSecondaries : Bool} {now : Instant} {devices devices' : List DeviceObservation}
  {tr : List IoEvent}

theorem steadyKernel_faithful : Faithful (steadyKernel promoteSecondaries now) ShowsExactly := by
  refine ⟨?_, fun hanswer => hanswer.1, fun hanswer => hanswer⟩
  rintro devices answer _ ⟨rfl, diagnostics, rfl⟩
  exact ⟨rfl, fun observation heq => by rw [← Except.ok.inj heq]; rfl⟩

/-- Lists of the same identities are without duplicates together. -/
theorem Distinct.congr {as bs : List AddressObservation}
    (h : List.Forall₂ (fun a b => a.address.sameIdentity b.address = true) as bs)
    (hdistinct : Distinct as) : Distinct bs := by
  unfold Distinct at *
  induction h with
  | nil => exact .nil
  | @cons a b _ _ hab hrest ih =>
      rw [List.pairwise_cons] at hdistinct ⊢
      refine ⟨fun b' hb' => ?_, ih hdistinct.2⟩
      rcases exists_of_forall₂ hrest.flip hb' with ⟨a', ha', hsame⟩
      have hdiffer := hdistinct.1 a' ha'
      rwa [Ipv4Address.sameIdentity_congr hab, Ipv4Address.sameIdentity_comm,
        Ipv4Address.sameIdentity_congr hsame, Ipv4Address.sameIdentity_comm] at hdiffer

/-- A write that was decided on makes no duplicate. -/
theorem DecidedWrite.distinct
    (h : DecidedWrite diff namespaceId index op decoded observation groups groups' eligible position
      device kind) (hdistinct : Distinct device.addresses) :
    Distinct (kernelWrite promoteSecondaries device kind).addresses := by
  cases kind with
  | addIpv4 addr =>
      have hmissing : ∀ entry ∈ device.addresses, entry.address.sameIdentity addr = false := by
        have hunsatisfied := h.unsatisfied
        cases hfind : device.addresses.find? fun entry => entry.address.sameIdentity addr with
        | none =>
            intro entry hmem
            have hnot := List.find?_eq_none.mp hfind entry hmem
            rwa [Bool.not_eq_true] at hnot
        | some existing =>
            simp only [satisfied, hfind] at hunsatisfied
            split at hunsatisfied <;> exact absurd hunsatisfied (by simp)
      have happend : Distinct (device.addresses ++ [addedEntry device addr]) := by
        refine List.pairwise_append.mpr ⟨hdistinct, List.pairwise_singleton _ _, ?_⟩
        intro entry hmem added hadded
        rw [List.mem_singleton.mp hadded]
        exact hmissing entry hmem
      exact happend
  | removeIpv4 addr =>
      have hrest : Distinct (restOf addr device.addresses) := hdistinct.sublist List.filter_sublist
      unfold kernelWrite kernelRemove
      simp only
      split
      · exact hrest
      · next primary _ =>
          unfold Netfyr.cascade
          cases promoteSecondaries with
          | false => exact hrest.sublist List.filter_sublist
          | true =>
              refine hrest.congr (updateFirst_forall₂_self ?_ ?_)
              · exact fun entry => Ipv4Address.sameIdentity_refl _
              · exact fun entry _ => Ipv4Address.sameIdentity_refl _
  | replaceIpv4 addr =>
      refine hdistinct.congr (updateFirst_forall₂_self ?_ ?_)
      · exact fun entry => Ipv4Address.sameIdentity_refl _
      · exact fun entry hid => hid
  | setMtu _ => exact hdistinct
  | setEnabled _ => exact hdistinct
  | setField _ _ => exact hdistinct
  | addEntity => exact hdistinct
  | removeEntity => exact hdistinct

/-- The device of a target is written in place. -/
theorem Located.kernelApply (h : Located observation op.target namespaceId position device)
    (hshows : ShowsExactly observation devices) :
    kernelApply promoteSecondaries op.target kind devices =
      devices.set position (kernelWrite promoteSecondaries device kind) := by
  obtain rfl : observation.devices = devices := hshows
  exact updateFirst_eq_set h.isFirst h.atPosition

/-- A write that was decided on keeps the devices well formed. -/
theorem DecidedWrite.wellFormed
    (h : DecidedWrite diff namespaceId index op decoded observation groups groups' eligible position
      device kind) (hshows : ShowsExactly observation devices) (hwell : WellFormed now devices) :
    WellFormed now (kernelApply promoteSecondaries op.target kind devices) := by
  rw [h.located.kernelApply hshows]
  have hmem : device ∈ devices := by
    rw [← hshows]
    exact List.mem_of_getElem? h.located.atPosition
  refine ⟨fun found hin => ?_, fun found hin => ?_, fun found hin => ?_⟩
  · rcases List.mem_or_eq_of_mem_set hin with hbefore | rfl
    · exact hwell.complete found hbefore
    · rw [kernelWrite_addressesComplete]
      exact hwell.complete device hmem
  · rcases List.mem_or_eq_of_mem_set hin with hbefore | rfl
    · exact hwell.instant found hbefore
    · rw [kernelWrite_observedAt]
      exact hwell.instant device hmem
  · rcases List.mem_or_eq_of_mem_set hin with hbefore | rfl
    · exact hwell.distinct found hbefore
    · exact h.distinct (hwell.distinct device hmem)

/-- What a step does keeps the devices well formed. -/
theorem Acted.wellFormed {s : Execution} {r : Except BackendError (Option SkipReason)}
    (h : Acted (steadyKernel promoteSecondaries now) ShowsExactly diff namespaceId index op s
      devices r devices') (hwell : WellFormed now devices) : WellFormed now devices' := by
  cases h with
  | failed _ => exact hwell
  | skipped _ _ _ => exact hwell
  | executed hshows _ hdecided hsent _ _ =>
      rcases hsent with ⟨_, rfl⟩
      exact hdecided.wellFormed hshows hwell

/-- The devices are well formed after every history. -/
theorem History.wellFormed {start : List DeviceObservation} {h : List ExecRound} {s : Execution}
    (hr : History diff false namespaceId h s) (hwell : WellFormed now start)
    (hadmits : Admits (steadyKernel promoteSecondaries now) start (callsOf h) devices) :
    WellFormed now devices ∧
      ∀ observation, s.current = some observation → ShowsExactly observation devices := by
  refine hr.acted steadyKernel_faithful (P := fun _ devices => WellFormed now devices) hwell ?_
    hadmits
  intro h s s' op tr outcome before after _ _ hbefore _ hacted
  rcases hacted with ⟨rfl, _⟩ | ⟨r, _, hacted⟩
  · exact hbefore
  · exact hacted.wellFormed hbefore

/-- The state is what the writes of a trace make of it. -/
theorem steadyKernel_after
    (h : Admits (steadyKernel promoteSecondaries now) devices tr devices') :
    devices' = kernelAfter promoteSecondaries devices tr := by
  induction tr generalizing devices with
  | nil => exact h
  | cons event tr ih =>
      rcases h with ⟨next, hanswer, hrest⟩
      rw [ih hrest]
      rcases event with ⟨_ | ⟨target, kind⟩ | _ | _, answer⟩
      · rw [hanswer.1]
        rfl
      · rcases hanswer with ⟨hok, hnext⟩
        obtain rfl : answer = .ok () := hok
        rw [hnext]
        rfl
      · rw [hanswer.1]
        rfl
      · rw [show next = devices from hanswer]
        rfl

end Netfyr
