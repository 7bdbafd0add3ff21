import Netfyr.Interact.Loop
import Netfyr.Linux.Transport

/-!
# No Fault in the Transport

The transport indexes a list at one place: the link modes of a device are put
where the device was when they were asked for. Between the two there are the
questions to every other device, but no list is made shorter, so the index that
was noted is still one of the list.

The pass that notes the indices also shows every device without addresses, which
is what the address dump starts from.

## Main definitions

* `LinkSweep.Prepared`: What the passes over the links keep.

## Theorems

* `observeLink_prepared`, `insertEthernet_prepared`: One step of each pass.
* `inventory_faultless`, `execute_faultless`: No procedure faults.
-/

namespace Netfyr

open Interact

/-- No device has addresses yet, those of Ethernet devices alone can be complete, and
    every index noted is one of the devices. -/
structure LinkSweep.Prepared (sweep : LinkSweep) : Prop where
  unaddressed : ∀ device ∈ sweep.devices, device.addresses = []
  ethernet : ∀ device ∈ sweep.devices, device.addressesComplete = true →
    device.identity.deviceType = ethernet
  inRange : ∀ target ∈ sweep.linkModeTargets, target.1 < sweep.devices.length

namespace LinuxTransport

section Passes

variable {enrich : Match → Bool} {wireless : Option (List UInt32)} {observedAt : Instant}
  {sweep sweep' : LinkSweep} {transport transport' : LinuxTransport} {tr : List TransportEvent}

/-- One link is one more device, and at most one more index. -/
theorem observeLink_prepared {packet : RoutePacket} (h : sweep.Prepared)
    (hrun : (observeLink enrich wireless observedAt sweep packet).Runs transport tr (.ok sweep')
      transport') : sweep'.Prepared := by
  rcases Action.runs_failWhen_bind_ok.mp hrun with ⟨_, hrun⟩
  rcases Action.runs_ofExcept_bind_ok.mp hrun with ⟨parsed, _, hrun⟩
  rcases Action.runs_bind_ok.mp hrun with ⟨answer, _, _, _, rfl, _, hrun⟩
  rcases Action.runs_ofExcept_bind_ok.mp hrun with ⟨legacy, _, hrun⟩
  rcases Action.runs_bind_ok.mp hrun with ⟨generation, s, _, _, rfl, _, hrun⟩
  have hrest := Action.runs_get_bind.mp hrun
  rcases Action.runs_bind_ok.mp hrest with ⟨enriched, _, _, _, rfl, _, hpure⟩
  obtain rfl := Except.ok.inj (Action.runs_pure.mp hpure).2.1
  constructor
  · intro device hmem
    rcases List.mem_append.mp hmem with hmem | hmem
    · exact h.unaddressed device hmem
    · rw [List.mem_singleton.mp hmem]
  · intro device hmem hcomplete
    rcases List.mem_append.mp hmem with hmem | hmem
    · exact h.ethernet device hmem hcomplete
    · rw [List.mem_singleton.mp hmem] at hcomplete ⊢
      exact beq_iff_eq.mp hcomplete
  · intro target hmem
    -- The index noted is where the new device stands.
    have hnoted : ∀ (noted : Bool) (targets : List (Nat × String × UInt32)) new,
        (target ∈ if noted then targets ++ [new] else targets) →
          target ∈ targets ∨ target = new := by
      intro noted targets new hmem
      cases noted with
      | true => exact (List.mem_append.mp hmem).imp_right List.mem_singleton.mp
      | false => exact Or.inl hmem
    dsimp only
    rw [List.length_append, List.length_singleton]
    rcases hnoted _ _ _ hmem with hold | rfl
    · have hlt := h.inRange target hold
      omega
    · exact Nat.lt_succ_self _

/-- Link modes change neither the addresses nor the number of devices. -/
theorem insertEthernet_prepared {result : (Nat × String × UInt32) × EthtoolAnswer}
    (h : sweep.Prepared)
    (hrun : (insertEthernet sweep result).Runs transport tr (.ok sweep') transport') :
    sweep'.Prepared ∧ sweep'.linkModeTargets = sweep.linkModeTargets := by
  rcases Action.runs_ofExcept_bind_ok.mp hrun with ⟨⟨fields, messages⟩, _, hrun⟩
  rcases Action.runs_ofOption_bind.mp hrun with ⟨device, hdevice, hpure⟩
  obtain rfl := Except.ok.inj (Action.runs_pure.mp hpure).2.1
  refine ⟨⟨?_, ?_, ?_⟩, rfl⟩
  · intro other hmem
    rcases List.mem_or_eq_of_mem_set hmem with hmem | rfl
    · exact h.unaddressed other hmem
    · exact h.unaddressed device (List.mem_of_getElem? hdevice)
  · intro other hmem
    rcases List.mem_or_eq_of_mem_set hmem with hmem | rfl
    · exact h.ethernet other hmem
    · exact h.ethernet device (List.mem_of_getElem? hdevice)
  · intro target hmem
    dsimp only
    rw [List.length_set]
    exact h.inRange target hmem

/-- The pass over the links leads to devices without addresses. -/
theorem observeLinks_prepared {links : List RoutePacket} (h : sweep.Prepared)
    (hrun : (links.foldlM (observeLink enrich wireless observedAt) sweep).Runs transport tr
      (.ok sweep') transport') : sweep'.Prepared :=
  Action.runs_foldlM_ok (fun _ hkept _ _ _ _ _ _ hstep => observeLink_prepared hkept hstep) h hrun

theorem enrichLinkModes_prepared (h : sweep.Prepared)
    (hrun : (enrichLinkModes sweep).Runs transport tr (.ok sweep') transport') :
    sweep'.Prepared := by
  have hrest := Action.runs_get_bind.mp hrun
  by_cases hethtool : transport.ethtool = true
  · rw [if_pos hethtool] at hrest
    rcases Action.runs_bind_ok.mp hrest with ⟨answers, _, _, _, rfl, _, hinsert⟩
    exact Action.runs_foldlM_ok
      (fun _ hkept _ _ _ _ _ _ hstep => (insertEthernet_prepared hkept hstep).1) h hinsert
  · rw [if_neg hethtool] at hrest
    rwa [← Except.ok.inj (Action.runs_pure.mp hrest).2.1] at h

end Passes

section Faults

/-- Nothing that the transport does with its notifications faults. -/
theorem drainNotifications_faultless : drainNotifications.Faultless := by
  have htake : takeInvalidated.Faultless := by
    refine Action.Faultless.get.bind fun transport => Action.Faultless.modify.bind fun _ => ?_
    cases transport.invalidated with
    | none => exact .pure
    | some reason => exact .fail
  refine Action.Faultless.get.bind fun transport => ?_
  by_cases hclosed : transport.notificationsClosed = true
  · rw [if_pos hclosed]
    exact htake
  · rw [if_neg hclosed]
    exact Action.Faultless.bind .perform fun _ => Action.Faultless.modify.bind fun _ => htake

theorem nextNotification_faultless : nextNotification.Faultless := by
  refine Action.Faultless.get.bind fun transport => ?_
  by_cases hclosed : transport.notificationsClosed = true
  · rw [if_pos hclosed]
    exact .pure
  · rw [if_neg hclosed]
    exact Action.Faultless.bind .perform fun _ => .modify

theorem request_faultless (message : RouteNetlinkMessage) (exchange : Exchange)
    (extraFlags : BitVec 16) : (request message exchange extraFlags).Faultless := by
  refine drainNotifications_faultless.bind fun _ => ?_
  refine Action.Faultless.bind .perform fun answer => ?_
  cases answer with
  | refused message => exact .fail
  | timedOut => exact .fail
  | answered stream => exact .ofExcept

theorem whileNamed_faultless {α : Type} {name : String} {index : UInt32}
    {call : Transporting (Except IoError α)} (hcall : call.Faultless) :
    (whileNamed name index call).Faultless := by
  have hindex : (interfaceIndex name).Faultless := by
    unfold interfaceIndex
    cases ifreqFor name with
    | error e => exact .pure
    | ok _ => exact .perform
  refine hindex.bind fun before => ?_
  cases checkNamed index before with
  | error e => exact .pure
  | ok _ =>
      refine hcall.bind fun result => ?_
      cases result with
      | error e => exact .pure
      | ok a =>
          refine hindex.bind fun after => ?_
          cases checkNamed index after with
          | error e => exact .pure
          | ok _ => exact .pure

theorem enrichDevice_faultless (enrich : Match → Bool) (identity : InterfaceId) (state : State)
    (diagnostics : List Diagnostic) :
    (enrichDevice enrich identity state diagnostics).Faultless := by
  have hcall : (driverInfo identity.name).Faultless := by
    unfold driverInfo
    cases ifreqFor identity.name with
    | error e => exact .pure
    | ok _ => exact Action.Faultless.bind .perform fun _ => .pure
  unfold enrichDevice
  by_cases hwanted : enrich state.matchSpec = true
  · rw [if_pos hwanted]
    refine (whileNamed_faultless hcall).bind fun answer => ?_
    cases answer with
    | ok info => exact .pure
    | error e =>
        dsimp only
        split
        · exact .pure
        · split
          · exact .fail
          · exact .pure
  · rw [if_neg hwanted]
    exact .pure

theorem generationOf_faultless (index : UInt32) : (generationOf index).Faultless := by
  refine Action.Faultless.get.bind fun transport => ?_
  cases transport.generations index with
  | some generation => exact .pure
  | none =>
      have hdraw : freshGeneration.Faultless := Action.Faultless.bind .perform fun _ => .ofExcept
      exact hdraw.bind fun generation => Action.Faultless.modify.bind fun _ => .pure

theorem observeLink_faultless (enrich : Match → Bool) (wireless : Option (List UInt32))
    (observedAt : Instant) (sweep : LinkSweep) (packet : RoutePacket) :
    (observeLink enrich wireless observedAt sweep packet).Faultless := by
  have hlegacy : ∀ name, (legacyWireless name).Faultless := by
    intro name
    unfold legacyWireless
    cases ifreqFor name with
    | error e => exact .pure
    | ok _ => exact .perform
  refine Action.Faultless.failWhen.bind fun _ => Action.Faultless.ofExcept.bind fun parsed => ?_
  refine (whileNamed_faultless ((hlegacy _).bind fun _ => .pure)).bind fun answer => ?_
  refine Action.Faultless.ofExcept.bind fun legacy => (generationOf_faultless _).bind fun _ => ?_
  exact Action.Faultless.get.bind fun _ => (enrichDevice_faultless _ _ _ _).bind fun _ => .pure

/-- The link modes are put where a device is. -/
theorem insertEthernet_faultless {sweep : LinkSweep}
    {result : (Nat × String × UInt32) × EthtoolAnswer}
    (h : result.1.1 < sweep.devices.length) : (insertEthernet sweep result).Faultless := by
  have hdevice : (sweep.devices[result.1.1]?).isSome = true := by
    rw [List.getElem?_eq_getElem h, Option.isSome_some]
  exact Action.Faultless.ofExcept.bind fun _ => (Action.Faultless.ofOption hdevice).bind fun _ =>
    .pure

theorem enrichLinkModes_faultless {sweep : LinkSweep} (h : sweep.Prepared) :
    (enrichLinkModes sweep).Faultless := by
  have hask : ∀ answers target, (askLinkModes answers target).Faultless := fun _ _ =>
    Action.Faultless.bind .perform fun _ => .pure
  refine Action.Faultless.get.bind fun transport => ?_
  by_cases hethtool : transport.ethtool = true
  · rw [if_pos hethtool]
    refine Action.Faultless.bind (.foldlM (fun _ _ _ _ => hask _ _)
      (fun _ _ _ _ _ _ _ _ _ => trivial) (P := fun _ => True) trivial) fun answers => ?_
    -- The targets stay those that were noted.
    refine Action.Faultless.foldlM
      (P := fun kept => kept.Prepared ∧ kept.linkModeTargets = sweep.linkModeTargets) ?_ ?_ ⟨h, rfl⟩
    · intro kept hkept result hmem
      refine insertEthernet_faultless (hkept.1.inRange _ ?_)
      rw [hkept.2]
      exact (List.of_mem_zip (a := result.1) (b := result.2) hmem).1
    · intro kept hkept result _ s tr next s' hstep
      rcases insertEthernet_prepared hkept.1 hstep with ⟨hnext, htargets⟩
      exact ⟨hnext, htargets.trans hkept.2⟩
  · rw [if_neg hethtool]
    exact .pure

theorem wirelessIndices_faultless : wirelessIndices.Faultless := by
  refine Action.Faultless.get.bind fun transport => ?_
  by_cases hwireless : transport.wireless = true
  · rw [if_pos hwireless]
    exact .perform
  · rw [if_neg hwireless]
    exact .pure

/-- Nothing is known before the first link. -/
theorem prepared_nil (diagnostics : List Diagnostic) :
    LinkSweep.Prepared { devices := [], linkModeTargets := [], diagnostics } :=
  ⟨fun _ hmem => absurd hmem List.not_mem_nil, fun _ hmem => absurd hmem List.not_mem_nil,
    fun _ hmem => absurd hmem List.not_mem_nil⟩

theorem observe_faultless (enrich : Match → Bool) : (observe enrich).Faultless := by
  refine (request_faultless _ _ _).bind fun links => (request_faultless _ _ _).bind fun _ => ?_
  refine Action.Faultless.bind .perform fun observedAt => ?_
  refine Action.Faultless.get.bind fun transport => wirelessIndices_faultless.bind fun answer => ?_
  refine Action.Faultless.bind_of_runs (.foldlM (P := LinkSweep.Prepared)
    (fun _ _ _ _ => observeLink_faultless _ _ _ _ _)
    (fun _ hkept _ _ _ _ _ _ hstep => observeLink_prepared hkept hstep) (prepared_nil _))
      fun sweep hrun => ?_
  rcases hrun with ⟨s, tr, s', hrun⟩
  refine (enrichLinkModes_faultless (observeLinks_prepared (prepared_nil _) hrun)).bind fun _ => ?_
  exact Action.Faultless.modify.bind fun _ => .ofExcept

/-- No answers of the kernel make an inventory fault. -/
theorem inventory_faultless (enrich : Match → Bool) : (inventory enrich).Faultless := by
  refine drainNotifications_faultless.bind fun _ => Action.Faultless.get.bind fun transport => ?_
  refine (observe_faultless enrich).bind fun sweep => drainNotifications_faultless.bind fun _ => ?_
  refine Action.Faultless.get.bind fun _ => Action.Faultless.ofExcept.bind fun _ => ?_
  exact Action.Faultless.failWhen.bind fun _ => Action.Faultless.modify.bind fun _ => .pure

/-- Nor a write. -/
theorem execute_faultless (target : InterfaceId) (kind : OperationKind) :
    (execute target kind).Faultless := by
  have hconfirm : (confirmIdentity target).Faultless := by
    refine Action.Faultless.get.bind fun _ => Action.Faultless.failWhen.bind fun _ => ?_
    refine (request_faultless _ _ _).bind fun _ => drainNotifications_faultless.bind fun _ => ?_
    exact Action.Faultless.ofExcept.bind fun _ => Action.Faultless.get.bind fun _ => .failWhen
  refine Action.Faultless.get.bind fun _ => Action.Faultless.ofExcept.bind fun _ => ?_
  exact hconfirm.bind fun _ => (request_faultless _ _ _).bind fun _ => .pure

end Faults

end LinuxTransport

end Netfyr
