import Netfyr.Kernel.Interface
import Netfyr.Worker.Records

/-!
# Writes as Predicted

A plan is written down for a kernel that does what `project` says, and removes
secondaries with their primary or promotes one of them. What leaves the worker
are messages. Whatever else the worker is asked meanwhile, the message of an
operation on an address does to the interface that its dump showed what the
operation does to the device that was read of the dump.

The kernel is any that does what is documented, in any state with the addresses
that the dump showed. With another writer between the dump and the message the
prediction may be wrong, and the inventory behind the write is there to see that.

## Main definitions

* `PredictedOn`: A message does what its operation is expected to do.

## Theorems

* `Approach.Leads.predicted`: The way to a message makes it so.
* `address_writes_predicted`: Every message about an address is so.
-/

namespace Netfyr

open Interact

/-- On the interface that a dump shows, a message does what its operation is
    expected to do, whatever the kernel. It is not refused for an address that is
    there already, or not there. -/
def PredictedOn (packets : List RoutePacket) (device : DeviceObservation) (op : Operation)
    (message : RouteNetlinkMessage) (flags : BitVec 16) : Prop :=
  ∀ (kernel : AddressKernel) (state : kernel.State), kernel.Documented →
    ipv4Records op.target.index packets = kernel.dump state op.target.index →
    (∀ entry ∈ kernel.addresses state op.target.index, entry.Whole) → Foreseen op.kind →
    device.addresses = kernel.seen state op.target.index ∧
      (∀ errno, kernel.request state message flags = .error errno →
        message.isOutdated errno = false) ∧
      ∀ left, kernel.request state message flags = .ok left →
        Foretold (kernel.promoteSecondaries state op.target.index) device op.kind
          (kernel.seen left op.target.index)

section Predicted

variable {approach : Approach} {namespaceId : NamespaceId} {own : List WorkerEvent}
  {op : Operation} {kind : OperationKind} {message : RouteNetlinkMessage} {flags : BitVec 16}

/-- A device that a dump is remembered of has the addresses of the interface
    that the dump shows, and the records of these are remembered. -/
theorem Remembers.kernel {packets : List RoutePacket}
    {addressMessages : List (AddressKey × AddressMessage)} {devices : List DeviceObservation}
    {device : DeviceObservation} {kernel : AddressKernel} {state : kernel.State} {index : UInt32}
    (h : Remembers packets addressMessages devices)
    (hfind : devices.find? (fun device => device.identity.index == index) = some device)
    (hcomplete : device.addressesComplete = true)
    (hrecords : ipv4Records index packets =
      (kernel.addresses state index).map fun entry => entry.record index)
    (hwhole : ∀ entry ∈ kernel.addresses state index, entry.Whole) :
    device.addresses = kernel.seen state index ∧
      KernelAddress.Distinct index (kernel.addresses state index) ∧
        ∀ entry ∈ kernel.addresses state index,
          addressMessages.lookup (entry.seen.key index) = some (entry.record index) := by
  rcases h.whole index device hfind hcomplete with ⟨hread, hnodup⟩
  have hseen : device.addresses = kernel.seen state index := by
    have hparsed : ((kernel.addresses state index).map fun entry => entry.record index).map
        parseAddress = (kernel.seen state index).map Except.ok := by
      unfold AddressKernel.seen
      rw [List.map_map, List.map_map]
      exact List.map_congr_left fun entry hmem => entry.parse_record index (hwhole entry hmem)
    rw [hrecords, hparsed] at hread
    exact (List.map_injective_iff.mpr (fun _ _ heq => Except.ok.inj heq) hread).symm
  refine ⟨hseen, ?_, fun entry hentry => ?_⟩
  · unfold KernelAddress.Distinct
    rw [hseen] at hnodup
    exact hnodup
  · -- The record of the address is one of the dump.
    have hmem : entry.record index ∈ ipv4Records index packets := by
      rw [hrecords]
      exact List.mem_map_of_mem (f := fun entry => entry.record index) hentry
    rcases List.mem_filterMap.mp hmem with ⟨packet, hpacket, hrecord⟩
    unfold ipv4Record? at hrecord
    cases haddress : packet.address with
    | error _ =>
        rw [haddress] at hrecord
        exact absurd hrecord (by simp only [reduceCtorEq, not_false_eq_true])
    | ok record =>
        rw [haddress] at hrecord
        dsimp only at hrecord
        by_cases hown : record.family = .inet ∧ record.index = index
        · rw [if_pos hown] at hrecord
          obtain rfl := Option.some.inj hrecord
          exact h.covers index device hfind hcomplete packet hpacket _ entry.seen haddress
            hown.1 hown.2 (entry.parse_record index (hwhole entry hentry))
        · rw [if_neg hown] at hrecord
          exact absurd hrecord (by simp only [reduceCtorEq, not_false_eq_true])

/-- A message about an address does what its operation is expected to do, on the
    interface that the dump before it shows. -/
theorem Approach.Leads.predicted (h : approach.Leads namespaceId own op kind message flags)
    {addr : Ipv4Address} (haddr : kind.ipv4Address = some addr) :
    ∃ packets, DumpBefore own packets ∧ PredictedOn packets approach.device op message flags := by
  rcases h.remembers with ⟨packets, hdump, hremembers⟩
  rcases h.written with ⟨extra, rfl, hwritten⟩
  refine ⟨packets, hdump, fun kernel state hkernel hrecords hwhole hforeseen => ?_⟩
  have hcomplete := h.complete (by rw [haddr, Option.isSome_some])
  rw [hkernel.dumps] at hrecords
  rcases hremembers.kernel h.located.find? hcomplete hrecords hwhole with
    ⟨hseen, hdistinct, hlookup⟩
  rw [← decode_address h.decoded haddr] at hforeseen ⊢
  exact ⟨hseen, request_written hkernel hseen hwhole hdistinct hlookup haddr h.unsatisfied
    hforeseen hwritten⟩

/-- The operation of a message about an address is about one. -/
theorem Approach.Leads.ipv4Address (h : approach.Leads namespaceId own op kind message flags)
    {m : AddressMessage} (hmessage : message = .newAddress m ∨ message = .delAddress m) :
    ∃ addr, kind.ipv4Address = some addr := by
  rcases h.written with ⟨extra, _, hwritten⟩
  cases kind with
  | setField _ _ | addEntity | removeEntity =>
      exact absurd hwritten (by simp only [writeMessage, reduceCtorEq, not_false_eq_true])
  | setMtu mtu | setEnabled enabled =>
      rw [writeMessage, Except.ok.injEq, Prod.mk.injEq] at hwritten
      rcases hmessage with rfl | rfl
      · exact absurd hwritten.1 (by simp only [reduceCtorEq, not_false_eq_true])
      · exact absurd hwritten.1 (by simp only [reduceCtorEq, not_false_eq_true])
  | addIpv4 addr | replaceIpv4 addr | removeIpv4 addr => exact ⟨addr, rfl⟩

end Predicted

section Example

/-- The address of the point-to-point interface, as its kernel keeps it. -/
def vethEntry : KernelAddress where
  local' := Ipv4Addr.new 192 0 2 1
  address := Ipv4Addr.new 192 0 2 2
  prefixLen := 24
  scope := 0
  flags := 0x80
  label := ""
  broadcast := false
  protocol := false
  metric := false
  valid := u32Max
  preferred := u32Max
  bounded := by decide
  ordered := by decide

/-- The point-to-point interface. -/
def vethInterface : LinuxInterface where
  index := 2
  name := "veth0"
  promoteSecondaries := false
  addresses := [vethEntry]
  scopes := by
    intro a ha b hb _
    rw [List.mem_singleton.mp ha, List.mem_singleton.mp hb]

/-- The message that removes its address. -/
def vethRemoval : AddressMessage :=
  removalMessage (some (vethEntry.record 2)) 2 vethEntry.seen.address

/-- The caller goes away after the fourth check, and its address is removed. -/
theorem vethParted_vethRemoval : vethParted 4 33 (· == .delAddress vethRemoval) = true := by
  decide +kernel

/-- Each of its dumps shows it. -/
theorem vethInterface_dumped {before : List WorkerHappening} {caller : Nat}
    {packets : List RoutePacket}
    (hanswered : ∀ (job : Job WorkerInput) (call : TransportCall)
      (reply : WorkerAnswer (.transport call)),
      .called job ⟨.transport call, reply⟩ ∈ before → reply = vethKernel (.transport call))
    (hdump : DumpBefore (callsFor caller before) packets) :
    ipv4Records 2 packets = [vethEntry.record 2] := by
  rcases hdump with ⟨earlier, stream, since, hcalls, _, hcollected⟩
  have hmem : (⟨.transport addressDump, .answered stream⟩ : WorkerEvent) ∈
      callsFor caller before := by
    rw [hcalls]
    exact List.mem_append_right _ List.mem_cons_self
  rcases mem_callsFor.mp hmem with ⟨job, _, hcalled⟩
  obtain rfl := RequestAnswer.answered.inj (hanswered job addressDump (.answered stream) hcalled)
  obtain rfl := Except.ok.inj hcollected
  decide

end Example

end Netfyr
