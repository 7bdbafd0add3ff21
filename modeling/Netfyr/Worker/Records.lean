import Netfyr.Linux.Remembered
import Netfyr.Worker.Channel

/-!
# Records on the Wire

Every message about an address that leaves the worker has the form of one of
three operations, and two of them are made of a record that the kernel gave. The
record is one of the address dump of the same request, the dump was read to its
end, and nothing was written since. A removal is that record without what does
not name the address, so it names the address with its peer; a replacement is
the record with other lifetimes, and is read as the address of the plan with
the flags, the scope and the peer it had.

The record is there because the plan is not decided on a device that is not
complete. Without it the transport would write a record of its own, which the
kernel matches to another address or to none. For the same reason it is the only
one: of two records with one local address the wrong one could be written.

## Main definitions

* `DumpBefore`, `DumpedBefore`: The address dump before a message, and a record of it.
* `AddressWrite`: The three forms of a message about an address.

## Theorems

* `Approach.Leads.remembers`: The dump is remembered as it was.
* `Approach.Leads.recorded`: An address of the target that is there has a record.
* `address_writes_recorded`: Every message about an address has one of the forms.
-/

namespace Netfyr

open Interact

/-- An address dump before a message, read to its end, with no write between the
    two. -/
def DumpBefore (before : List WorkerEvent) (packets : List RoutePacket) : Prop :=
  ∃ earlier stream since,
    before = earlier ++ ⟨.transport addressDump, .answered stream⟩ :: since ∧
      (∀ event ∈ since, event.1.isWrite = false) ∧ collectResponse .dump stream [] = .ok packets

/-- The record an entry was read from, in an address dump before a message. No
    other record of the dump has its address. -/
structure DumpedBefore (before : List WorkerEvent) (index : UInt32) (entry : AddressObservation)
    (record : AddressMessage) : Prop where
  dumped : ∃ packets packet, DumpBefore before packets ∧
      packet ∈ packets ∧ packet.kind = rtmNewaddr ∧ packet.address = .ok record ∧
      ∀ other ∈ packets, ∀ (record' : AddressMessage) (found : AddressObservation),
        other.address = .ok record' → record'.family = .inet → record'.index = index →
        parseAddress record' = .ok found →
        found.address.sameIdentity entry.address = true → record' = record
  index : record.index = index
  read : parseAddress record = .ok entry

/-- Entries with one address have one name. -/
theorem AddressObservation.key_eq_of_sameIdentity {index : UInt32}
    {entry other : AddressObservation}
    (hsame : entry.address.sameIdentity other.address = true) :
    entry.key index = other.key index := by
  rcases Ipv4Address.sameIdentity_iff.mp hsame with ⟨hip, hlength⟩
  unfold AddressObservation.key
  rw [hip, hlength]

/-- The forms of a message about an address. -/
inductive AddressWrite (before : List WorkerEvent) (index : UInt32) :
    OperationKind → RouteNetlinkMessage → BitVec 16 → Prop where
  /-- A new address has no peer, and no address of its prefix was there. -/
  | added (addr : Ipv4Address) (m : AddressMessage) (hindex : m.index = index)
      (hread : parseAddress m =
        .ok { address := addr.resolved, flags := 0, scope := 0, peer := none }) :
      AddressWrite before index (.addIpv4 addr) (.newAddress m)
        (Exchange.write.flags ||| (nlmFCreate ||| nlmFExcl))
  /-- A replacement is the record of an address with other lifetimes. -/
  | replaced (addr : Ipv4Address) (entry : AddressObservation) (record m : AddressMessage)
      (hdumped : DumpedBefore before index entry record)
      (hsame : entry.address.sameIdentity addr = true)
      (hmade : m = { record with
        attributes := record.attributes.filter AddressAttribute.isTimeless ++ [cacheInfo addr] })
      (hread : parseAddress m = .ok { entry with address := addr.resolved }) :
      AddressWrite before index (.replaceIpv4 addr) (.newAddress m)
        (Exchange.write.flags ||| nlmFReplace)
  /-- A removal is what the record of an address says to name it. -/
  | removed (addr : Ipv4Address) (entry : AddressObservation) (record m : AddressMessage)
      (hdumped : DumpedBefore before index entry record)
      (hsame : entry.address.sameIdentity addr = true)
      (hmade : m =
        { record with attributes := record.attributes.filter AddressAttribute.isNaming })
      (hnamed : namedAddress m = .ok (some (addr.ip, entry.peer))) :
      AddressWrite before index (.removeIpv4 addr) (.delAddress m) (Exchange.write.flags ||| 0)

section Recorded

variable {approach : Approach} {namespaceId : NamespaceId} {own : List WorkerEvent}
  {op : Operation} {kind : OperationKind} {message : RouteNetlinkMessage} {flags : BitVec 16}

/-- What is asked on the way from the inventory to a message is no write. -/
theorem Approach.Leads.quiet (h : approach.Leads namespaceId own op kind message flags)
    {asked : List TransportEvent} (hasked : ∀ event ∈ asked, event ∈ approach.surveyed) :
    ∀ event ∈ asked.map wire ++ approach.since ++ (approach.checked ++ approach.drained).map wire,
      event.1.isWrite = false := by
  rw [List.forall_mem_append, List.forall_mem_append]
  refine ⟨⟨?_, fun event hmem => ?_⟩, ?_⟩
  · intro event hmem
    rcases List.mem_map.mp hmem with ⟨inner, hinner, rfl⟩
    exact TransportCall.isWrite_of_isSurvey
      ((LinuxTransport.inventory_confined _ _ _ _ _ h.surveys).1 inner (hasked inner hinner))
  · rcases event with ⟨call, answer⟩
    rcases h.idle _ hmem with hcall | hcall
    · obtain rfl : call = .now := hcall
      rfl
    · obtain rfl : call = .isClosed := hcall
      rfl
  · intro event hmem
    rcases List.mem_map.mp hmem with ⟨inner, hinner, rfl⟩
    rcases List.mem_append.mp hinner with hchecked | hdrained
    · exact LinuxTransport.confirmIdentity_calls h.confirms inner hchecked
    · rcases h.drains with ⟨last, hdrains⟩
      have hcall := (LinuxTransport.drainNotifications_cases hdrains).1 inner hdrained
      rcases inner with ⟨call, answer⟩
      obtain rfl : call = .backlog := hcall
      rfl

/-- The dump that an operation was decided on is remembered. -/
theorem Approach.Leads.remembers (h : approach.Leads namespaceId own op kind message flags) :
    ∃ packets, DumpBefore own packets ∧
      Remembers packets approach.observed.addressMessages approach.observation.devices := by
  rcases LinuxTransport.inventory_remembers h.surveys with
    ⟨before, stream, after, packets, hsurveyed, hcollected, hremembers⟩
  refine ⟨packets, ⟨approach.earlier ++ before.map wire, stream, after.map wire ++ approach.since ++
    (approach.checked ++ approach.drained).map wire, ?_, ?_, hcollected⟩, hremembers⟩
  · rw [h.calls, hsurveyed, List.map_append, List.map_cons]
    simp only [List.append_assoc, List.cons_append]
    rfl
  · refine h.quiet fun event hafter => ?_
    rw [hsurveyed]
    exact List.mem_append_right _ (List.mem_cons_of_mem _ hafter)

/-- An address of the target that was there when its operation was decided has
    a record, which is remembered under the name that the plan has for it. -/
theorem Approach.Leads.recorded (h : approach.Leads namespaceId own op kind message flags)
    {entry : AddressObservation} {addr : Ipv4Address} (haddr : kind.ipv4Address = some addr)
    (hmem : entry ∈ approach.device.addresses) (hsame : entry.address.sameIdentity addr = true) :
    ∃ record, DumpedBefore own op.target.index entry record ∧
      approach.observed.addressMessages.lookup ⟨op.target.index, addr.ip, addr.prefixLen⟩ =
        some record := by
  rcases h.remembers with ⟨packets, hdump, hremembers⟩
  have hcomplete := h.complete (by rw [haddr, Option.isSome_some])
  rcases hremembers.entries op.target.index approach.device h.located.find? hcomplete entry hmem
    with ⟨record, hrecord⟩
  rcases hrecord.dumped with ⟨packet, hpacket, hkind, haddress⟩
  refine ⟨record, ⟨⟨packets, packet, hdump, hpacket, hkind, haddress, ?_⟩, hrecord.index,
    hrecord.read⟩, ?_⟩
  · -- A record of the same address has the same name, and a name has one record.
    intro other hother record' found haddress' hfamily hindex hparse hidentity
    have hremembered := hremembers.covers op.target.index approach.device h.located.find? hcomplete
      other hother record' found haddress' hfamily hindex hparse
    rw [AddressObservation.key_eq_of_sameIdentity hidentity, hrecord.remembered] at hremembered
    exact (Option.some.inj hremembered).symm
  · -- The plan names the address as its entry does.
    rcases Ipv4Address.sameIdentity_iff.mp hsame with ⟨hip, hlength⟩
    have hkey : entry.key op.target.index = ⟨op.target.index, addr.ip, addr.prefixLen⟩ := by
      unfold AddressObservation.key
      rw [hip, hlength]
    rw [← hkey]
    exact hrecord.remembered

/-- A message about an address has one of the three forms. -/
theorem Approach.Leads.addressWrite (h : approach.Leads namespaceId own op kind message flags)
    {m : AddressMessage} (hmessage : message = .newAddress m ∨ message = .delAddress m) :
    AddressWrite own op.target.index op.kind message flags := by
  rcases h.written with ⟨extra, rfl, hwritten⟩
  have hchecked := decode_checked h.decoded
  have hunsatisfied := h.unsatisfied
  cases kind with
  | setField _ _ | addEntity | removeEntity =>
      exact absurd hwritten (by simp only [writeMessage, reduceCtorEq, not_false_eq_true])
  | setMtu mtu | setEnabled enabled =>
      rw [writeMessage, Except.ok.injEq, Prod.mk.injEq] at hwritten
      rcases hmessage with rfl | rfl
      · exact absurd hwritten.1 (by simp only [reduceCtorEq, not_false_eq_true])
      · exact absurd hwritten.1 (by simp only [reduceCtorEq, not_false_eq_true])
  | addIpv4 addr =>
      rw [writeMessage, Except.ok.injEq, Prod.mk.injEq] at hwritten
      rcases hwritten with ⟨rfl, rfl⟩
      rw [← decode_address h.decoded rfl]
      exact .added addr _ rfl
        (parseAddress_addressMessage _ (validate_of_checkDecoded (Or.inl rfl) hchecked))
  | replaceIpv4 addr =>
      rw [writeMessage, Except.ok.injEq, Prod.mk.injEq] at hwritten
      rcases hwritten with ⟨rfl, rfl⟩
      rw [← decode_address h.decoded rfl]
      -- There is an entry to replace, or the operation would have been refused.
      unfold satisfied at hunsatisfied
      dsimp only at hunsatisfied
      cases hfind : approach.device.addresses.find? fun entry =>
          entry.address.sameIdentity addr with
      | none =>
          rw [hfind] at hunsatisfied
          exact absurd hunsatisfied (by simp only [reduceCtorEq, not_false_eq_true])
      | some entry =>
          have hsame : entry.address.sameIdentity addr = true :=
            List.find?_some (p := fun entry : AddressObservation =>
              entry.address.sameIdentity addr) hfind
          rcases h.recorded rfl (List.mem_of_find?_eq_some hfind) hsame with
            ⟨record, hdumped, hlookup⟩
          rw [hlookup]
          have hread := parseAddress_replacementMessage op.target.index hdumped.read
            (validate_of_checkDecoded (Or.inr rfl) hchecked)
          rcases Ipv4Address.sameIdentity_iff.mp hsame with ⟨hip, hlength⟩
          have hresolved : addr.resolved = { entry.address with
              validLft := some addr.lifetimes.1, preferredLft := some addr.lifetimes.2 } := by
            unfold Ipv4Address.resolved
            rw [← hip, ← hlength]
          rw [← hresolved] at hread
          exact .replaced addr entry record _ hdumped hsame
            (replacementMessage_some record op.target.index addr) hread
  | removeIpv4 addr =>
      rw [writeMessage, Except.ok.injEq, Prod.mk.injEq] at hwritten
      rcases hwritten with ⟨rfl, rfl⟩
      rw [← decode_address h.decoded rfl]
      -- There is an entry to remove, or the operation would be satisfied.
      have hhas : hasAddress approach.device addr = true := by
        rw [satisfied, Except.ok.injEq, Bool.not_eq_false'] at hunsatisfied
        exact hunsatisfied
      rcases List.any_eq_true.mp hhas with ⟨entry, hmem, hsame⟩
      rcases h.recorded rfl hmem hsame with ⟨record, hdumped, hlookup⟩
      rw [hlookup]
      have hnamed := namedAddress_removalMessage op.target.index addr hdumped.read
      rw [(Ipv4Address.sameIdentity_iff.mp hsame).1] at hnamed
      exact .removed addr entry record _ hdumped hsame
        (removalMessage_some record op.target.index addr) hnamed

end Recorded

/-- Every message about an address that leaves the worker is that of an operation
    of a plan its caller applies, and has one of the three forms: a removal and a
    replacement are made of a record of an address dump made for this caller. -/
theorem address_writes_recorded (describe : Match → String) (start : LinuxTransport)
    (labels : List WorkerHappening) (sys : WorkerSystem)
    (hreaches : WorkerReaches describe start labels sys) (before after : List WorkerHappening)
    (job : Job WorkerInput) (message : RouteNetlinkMessage) (flags : BitVec 16)
    (answer : RequestAnswer)
    (hsplit : labels =
      before ++ .called job ⟨.transport (.request message flags), answer⟩ :: after)
    (m : AddressMessage) (hmessage : message = .newAddress m ∨ message = .delAddress m) :
    ∃ (caller : Nat) (diff : StateDiff) (index : Nat) (op : Operation),
      job = ⟨some caller, .request (.apply diff)⟩ ∧ diff.operations[index]? = some op ∧
      AddressWrite (callsFor caller before) op.target.index op.kind message flags := by
  have hwrite : message.isWrite = true := by
    rcases hmessage with rfl | rfl
    · rfl
    · rfl
  rcases channel_approached hreaches hsplit hwrite with
    ⟨caller, diff, index, op, kind, approach, hjob, _, hop, hleads, _⟩
  exact ⟨caller, diff, index, op, hjob, hop, hleads.addressWrite hmessage⟩

/-- Whether a message is a removal. -/
def RouteNetlinkMessage.isRemoval : RouteNetlinkMessage → Bool
  | .delAddress _ => true
  | _ => false

/-- The caller goes away after the fourth check, and its address is removed. -/
theorem vethParted_isRemoval : vethParted 4 33 RouteNetlinkMessage.isRemoval = true := by
  decide +kernel

/-- The address of a point-to-point interface is removed under the name that the
    kernel's record gives it. -/
theorem address_writes_recorded_veth : ∃ (before : List WorkerHappening)
    (job : Job WorkerInput) (m : AddressMessage) (flags : BitVec 16),
    ∃ (caller : Nat) (diff : StateDiff) (index : Nat) (op : Operation),
      job = ⟨some caller, .request (.apply diff)⟩ ∧ diff.operations[index]? = some op ∧
      AddressWrite (callsFor caller before) op.target.index op.kind (.delAddress m) flags := by
  rcases vethJob_parted vethParted_isRemoval with
    ⟨labels, first, own, rest, sys, message, flags, answer, hreaches, hsplit, hremoval, _⟩
  rw [← List.cons_append, ← List.append_assoc] at hsplit
  cases message with
  | delAddress m =>
      exact ⟨_, vethJob, m, flags,
        address_writes_recorded _ _ _ _ hreaches _ _ _ _ _ _ hsplit m (Or.inr rfl)⟩
  | getLink _ | getAddress _ | setLink _ | newAddress _ =>
      exact absurd hremoval Bool.false_ne_true

end Netfyr
