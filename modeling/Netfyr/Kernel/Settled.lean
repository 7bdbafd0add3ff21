import Netfyr.Executor.Groups
import Netfyr.Kernel.Verification

/-!
# Settled Operations

When a device is as an operation would make it, told from the device alone. An
operation assigns one slot of its target: the MTU, the administrative state, or
an address identity. A write settles its own operation, and unsettles no other
one unless it assigns the same slot: the addresses a kernel deletes or promotes
with a primary are ones that the plan removes.

## Main definitions

* `Slot`, `OperationKind.slot`: What an operation assigns.
* `OperationKind.wanted`: The address an operation wants to be there.
* `entriesOf`: The addresses of one identity on a device.
* `Settled`: The device is as the operation would make it.
* `AgedExactly`: What a precondition tells of an address is still so.

## Theorems

* `Settled.satisfied`: A settled operation is found satisfied.
* `settled_of_satisfied`: An operation found satisfied is settled.
* `DecidedWrite.settled`: A write settles its operation.
* `DecidedWrite.entriesOf`: It leaves the other identities alone.
* `DecidedWrite.keepsSettled`: It unsettles no operation on another slot.
-/

namespace Netfyr

/-- What an operation can assign. -/
inductive Slot where
  | mtu
  | enabled
  | address (ip : Ipv4Addr) (prefixLen : UInt8)
  deriving DecidableEq

/-- What an executable operation assigns. -/
def OperationKind.slot : OperationKind → Option Slot
  | .setMtu _ => some .mtu
  | .setEnabled _ => some .enabled
  | .addIpv4 addr | .removeIpv4 addr | .replaceIpv4 addr => some (.address addr.ip addr.prefixLen)
  | _ => none

/-- The addresses of one identity on a device. -/
def entriesOf (device : DeviceObservation) (addr : Ipv4Address) : List AddressObservation :=
  device.addresses.filter fun entry => entry.address.sameIdentity addr

/-- A device is as an operation would make it. -/
def Settled (device : DeviceObservation) : OperationKind → Prop
  | .setMtu mtu => device.state.fields.get? "mtu" = some (.u64 mtu.toUInt64)
  | .setEnabled enabled => device.state.fields.get? "enabled" = some (.bool enabled)
  | .removeIpv4 addr => entriesOf device addr = []
  | .addIpv4 addr | .replaceIpv4 addr =>
      ∃ existing, (entriesOf device addr).head? = some existing ∧
        existing.address.lifetimes = addr.lifetimes
  | .setField _ _ | .addEntity | .removeEntity => False

/-- The address that an operation wants to be there. -/
def OperationKind.wanted : OperationKind → Option Ipv4Address
  | .addIpv4 addr | .replaceIpv4 addr => some addr
  | _ => none

/-- Where the precondition of an operation lists its very address, the device has
    it just so, and no time has passed. -/
def AgedExactly (op : Operation) (addr : Ipv4Address) (device : DeviceObservation) : Prop :=
  ∀ age, preconditionAge op addr device.observedAt = some age →
    age = 0 ∧ ∀ existing ∈ entriesOf device addr, existing.address.lifetimes = addr.lifetimes

variable {diff : StateDiff} {namespaceId : NamespaceId} {index : Nat} {op : Operation}
  {decoded : Option OperationKind} {observation : Observation} {groups groups' : Groups}
  {eligible : List Bool} {position : Nat} {device : DeviceObservation} {kind kind' : OperationKind}
  {addr : Ipv4Address} {promoteSecondaries : Bool}

section Slots

/-- Operations on one address assign one slot when it is one identity. -/
theorem slot_address (haddr : kind.ipv4Address = some addr) :
    kind.slot = some (.address addr.ip addr.prefixLen) := by
  cases kind with
  | addIpv4 _ => cases haddr; rfl
  | removeIpv4 _ => cases haddr; rfl
  | replaceIpv4 _ => cases haddr; rfl
  | setMtu _ => exact absurd haddr (by simp [OperationKind.ipv4Address])
  | setEnabled _ => exact absurd haddr (by simp [OperationKind.ipv4Address])
  | setField _ _ => exact absurd haddr (by simp [OperationKind.ipv4Address])
  | addEntity => exact absurd haddr (by simp [OperationKind.ipv4Address])
  | removeEntity => exact absurd haddr (by simp [OperationKind.ipv4Address])

/-- Operations on different slots are about different addresses. -/
theorem sameIdentity_of_slot_ne {own : Ipv4Address} (hslot : kind.slot ≠ kind'.slot)
    (hown : kind.ipv4Address = some own) (haddr : kind'.ipv4Address = some addr) :
    own.sameIdentity addr = false := by
  rw [← Bool.not_eq_true]
  intro hsame
  rw [Ipv4Address.sameIdentity_iff] at hsame
  rw [slot_address hown, slot_address haddr, hsame.1, hsame.2] at hslot
  exact hslot rfl

/-- An executable operation assigns something. -/
theorem slot_of_decode {source : OperationKind} {schema : SchemaRegistry}
    (h : decode source schema = .ok (some kind)) : ∃ slot, kind.slot = some slot := by
  rcases decode_some h with ⟨rfl, hkind⟩ | ⟨mtu, rfl⟩ | ⟨enabled, rfl⟩
  · cases kind with
    | setField field value => exact absurd rfl (hkind field value).1
    | addEntity => exact absurd rfl (hkind "" (.bool true)).2.1
    | removeEntity => exact absurd rfl (hkind "" (.bool true)).2.2
    | setMtu _ => exact ⟨_, rfl⟩
    | setEnabled _ => exact ⟨_, rfl⟩
    | addIpv4 _ => exact ⟨_, rfl⟩
    | removeIpv4 _ => exact ⟨_, rfl⟩
    | replaceIpv4 _ => exact ⟨_, rfl⟩
  · exact ⟨_, rfl⟩
  · exact ⟨_, rfl⟩

theorem ipv4Address_of_wanted (h : kind.wanted = some addr) : kind.ipv4Address = some addr := by
  cases kind with
  | addIpv4 _ => exact h
  | replaceIpv4 _ => exact h
  | removeIpv4 _ => exact absurd h (by simp [OperationKind.wanted])
  | setMtu _ => exact absurd h (by simp [OperationKind.wanted])
  | setEnabled _ => exact absurd h (by simp [OperationKind.wanted])
  | setField _ _ => exact absurd h (by simp [OperationKind.wanted])
  | addEntity => exact absurd h (by simp [OperationKind.wanted])
  | removeEntity => exact absurd h (by simp [OperationKind.wanted])

end Slots

section Entries

theorem mem_entriesOf {entry : AddressObservation} :
    entry ∈ entriesOf device addr ↔
      entry ∈ device.addresses ∧ entry.address.sameIdentity addr = true :=
  List.mem_filter

/-- The first address of an identity is the one an operation looks at. -/
theorem find?_eq_head? :
    device.addresses.find? (fun entry => entry.address.sameIdentity addr) =
      (entriesOf device addr).head? :=
  List.head?_filter.symm

/-- A device without addresses of an identity does not have the address. -/
theorem entriesOf_eq_nil : entriesOf device addr = [] ↔ hasAddress device addr = false := by
  unfold entriesOf hasAddress
  rw [List.filter_eq_nil_iff, List.any_eq_false]

end Entries

section Satisfied

/-- Equal lifetimes are found equal, whatever the precondition says. -/
theorem lifetimesEqual_of_eq {existing : Ipv4Address} {age : Option Duration}
    (hage : ∀ elapsed, age = some elapsed → elapsed = 0)
    (h : existing.lifetimes = addr.lifetimes) : lifetimesEqual addr existing age = true := by
  unfold lifetimesEqual
  rw [h]
  rcases age with _ | elapsed
  · simp only [beq_self_eq_true, Bool.and_self]
  · obtain rfl := hage elapsed rfl
    simp only [lifetimeMatches_self, Bool.and_self]

/-- Lifetimes are found equal without a precondition when they are. -/
theorem lifetimes_of_lifetimesEqual {existing : Ipv4Address}
    (h : lifetimesEqual addr existing none = true) : existing.lifetimes = addr.lifetimes := by
  unfold lifetimesEqual at h
  simp only [Bool.and_eq_true, beq_iff_eq] at h
  exact Prod.ext h.1.symm h.2.symm

/-- A settled operation is found satisfied. -/
theorem Settled.satisfied (h : Settled device kind)
    (hage : ∀ addr elapsed, kind.ipv4Address = some addr →
      preconditionAge op addr device.observedAt = some elapsed → elapsed = 0) :
    satisfied kind device op = .ok true := by
  cases kind with
  | setMtu mtu =>
      rw [Netfyr.satisfied, show device.state.fields.get? "mtu" = _ from h, beq_self_eq_true]
  | setEnabled enabled =>
      rw [Netfyr.satisfied, show device.state.fields.get? "enabled" = _ from h, beq_self_eq_true]
  | removeIpv4 addr =>
      have hgone : hasAddress device addr = false := entriesOf_eq_nil.mp h
      rw [Netfyr.satisfied, hgone, Bool.not_false]
  | addIpv4 addr =>
      rcases h with ⟨existing, hhead, hlifetimes⟩
      have hequal : lifetimesEqual addr existing.address
          (preconditionAge op addr device.observedAt) = true :=
        lifetimesEqual_of_eq (fun elapsed => hage addr elapsed rfl) hlifetimes
      simp only [Netfyr.satisfied, find?_eq_head?, hhead, hequal, if_true]
  | replaceIpv4 addr =>
      rcases h with ⟨existing, hhead, hlifetimes⟩
      have hequal : lifetimesEqual addr existing.address
          (preconditionAge op addr device.observedAt) = true :=
        lifetimesEqual_of_eq (fun elapsed => hage addr elapsed rfl) hlifetimes
      simp only [Netfyr.satisfied, find?_eq_head?, hhead, hequal]
  | setField _ _ => exact h.elim
  | addEntity => exact h.elim
  | removeEntity => exact h.elim

/-- Existing lifetimes that are found equal are equal, where the precondition is
    exact. -/
theorem AgedExactly.lifetimes (h : AgedExactly op addr device) {existing : AddressObservation}
    (hmem : existing ∈ entriesOf device addr)
    (hequal : lifetimesEqual addr existing.address (preconditionAge op addr device.observedAt) =
      true) : existing.address.lifetimes = addr.lifetimes := by
  cases hage : preconditionAge op addr device.observedAt with
  | some age => exact (h age hage).2 existing hmem
  | none =>
      rw [hage] at hequal
      exact lifetimes_of_lifetimesEqual hequal

/-- An operation found satisfied is settled, where its precondition is exact. -/
theorem settled_of_satisfied
    (hexact : ∀ addr, kind.wanted = some addr → AgedExactly op addr device)
    (h : satisfied kind device op = .ok true) : Settled device kind := by
  cases kind with
  | setMtu mtu =>
      rw [satisfied, Except.ok.injEq, beq_iff_eq] at h
      exact h
  | setEnabled enabled =>
      rw [satisfied, Except.ok.injEq, beq_iff_eq] at h
      exact h
  | removeIpv4 addr =>
      rw [satisfied, Except.ok.injEq, Bool.not_eq_true'] at h
      exact entriesOf_eq_nil.mpr h
  | addIpv4 addr =>
      simp only [satisfied, find?_eq_head?] at h
      split at h
      · exact absurd h (by simp)
      · next existing hhead =>
          split at h
          · next hequal =>
              exact ⟨existing, hhead, (hexact addr rfl).lifetimes (List.mem_of_head? hhead) hequal⟩
          · exact absurd h (by simp)
  | replaceIpv4 addr =>
      simp only [satisfied, find?_eq_head?] at h
      split at h
      · exact absurd h (by simp)
      · next existing hhead =>
          rw [Except.ok.injEq] at h
          exact ⟨existing, hhead, (hexact addr rfl).lifetimes (List.mem_of_head? hhead) h⟩
  | setField _ _ => exact absurd h (by simp [satisfied])
  | addEntity => exact absurd h (by simp [satisfied])
  | removeEntity => exact absurd h (by simp [satisfied])

end Satisfied

section Write

/-- What is left by a removal was there before, under another identity. -/
theorem exists_before_kernelRemove {entries : List AddressObservation} {entry : AddressObservation}
    (hmem : entry ∈ kernelRemove promoteSecondaries addr entries) :
    ∃ before ∈ restOf addr entries, before.address = entry.address := by
  unfold kernelRemove at hmem
  split at hmem
  · exact ⟨entry, hmem, rfl⟩
  · next primary _ =>
      unfold Netfyr.cascade at hmem
      split at hmem
      · -- Promotion changes flags, not the address.
        rcases mem_of_mem_updateFirst hmem with hkept | ⟨before, hin, _, rfl⟩
        · exact ⟨entry, hkept, rfl⟩
        · exact ⟨before, hin, rfl⟩
      · exact ⟨entry, (List.mem_filter.mp hmem).1, rfl⟩

/-- A removal leaves no address of its identity. -/
theorem entriesOf_removed :
    entriesOf (kernelWrite promoteSecondaries device (.removeIpv4 addr)) addr = [] := by
  unfold entriesOf
  rw [List.filter_eq_nil_iff]
  intro entry hmem
  rcases exists_before_kernelRemove hmem with ⟨before, hin, heq⟩
  rw [← heq, (mem_restOf.mp hin).2]
  exact Bool.false_ne_true

/-- A write adds no identity but its own. -/
theorem exists_before {entry : AddressObservation}
    (hmem : entry ∈ (kernelWrite promoteSecondaries device kind).addresses) :
    (∃ before ∈ device.addresses, before.address.sameIdentity entry.address = true) ∨
      kind.ipv4Address = some entry.address := by
  have hsame : entry ∈ device.addresses →
      ∃ before ∈ device.addresses, before.address.sameIdentity entry.address = true :=
    fun hin => ⟨entry, hin, Ipv4Address.sameIdentity_refl _⟩
  cases kind with
  | removeIpv4 own =>
      rcases exists_before_kernelRemove hmem with ⟨before, hin, heq⟩
      exact Or.inl ⟨before, (mem_restOf.mp hin).1, heq ▸ Ipv4Address.sameIdentity_refl _⟩
  | addIpv4 own =>
      rcases List.mem_append.mp hmem with hin | hadded
      · exact Or.inl (hsame hin)
      · rw [List.mem_singleton.mp hadded]
        exact Or.inr rfl
  | replaceIpv4 own =>
      rcases mem_of_mem_updateFirst hmem with hin | ⟨before, hin, hid, rfl⟩
      · exact Or.inl (hsame hin)
      · exact Or.inl ⟨before, hin, hid⟩
  | setMtu _ => exact Or.inl (hsame hmem)
  | setEnabled _ => exact Or.inl (hsame hmem)
  | setField _ _ => exact Or.inl (hsame hmem)
  | addEntity => exact Or.inl (hsame hmem)
  | removeEntity => exact Or.inl (hsame hmem)

/-- A write that was decided on settles its operation. -/
theorem DecidedWrite.settled
    (h : DecidedWrite diff namespaceId index op decoded observation groups groups' eligible position
      device kind) {source : OperationKind} {schema : SchemaRegistry}
    (hdecode : decode source schema = .ok (some kind)) :
    Settled (kernelWrite promoteSecondaries device kind) kind := by
  have hunsatisfied := h.unsatisfied
  cases kind with
  | setMtu mtu => exact State.get?_setField _ _ _ (.u64 mtu.toUInt64) trivial
  | setEnabled enabled => exact State.get?_setField _ _ _ (.bool enabled) trivial
  | removeIpv4 addr => exact entriesOf_removed
  | addIpv4 addr =>
      -- The address was missing, so the added entry is the first of its identity.
      have hmissing : entriesOf device addr = [] := by
        simp only [satisfied, find?_eq_head?] at hunsatisfied
        split at hunsatisfied
        · next hhead => exact List.head?_eq_none_iff.mp hhead
        · split at hunsatisfied <;> exact absurd hunsatisfied (by simp)
      have hadded : entriesOf (kernelWrite promoteSecondaries device (.addIpv4 addr)) addr =
          [addedEntry device addr] := by
        have hown : (addedEntry device addr).address.sameIdentity addr = true :=
          Ipv4Address.sameIdentity_refl addr
        unfold entriesOf at hmissing ⊢
        simp only [kernelWrite, project, projectAddresses, List.filter_append, hmissing,
          List.nil_append]
        exact List.filter_cons_of_pos hown
      exact ⟨_, by rw [hadded, List.head?_cons], rfl⟩
  | replaceIpv4 addr =>
      have hexists : ∃ existing, (entriesOf device addr).head? = some existing := by
        simp only [satisfied, find?_eq_head?] at hunsatisfied
        split at hunsatisfied
        · exact absurd hunsatisfied (by simp)
        · next existing hhead => exact ⟨existing, hhead⟩
      rcases hexists with ⟨existing, hhead⟩
      have hreplaced : (entriesOf (kernelWrite promoteSecondaries device (.replaceIpv4 addr))
          addr).head? = some (replacedEntry existing addr) := by
        rw [← find?_eq_head?] at hhead ⊢
        simp only [kernelWrite, project, projectAddresses]
        have hupdated : (updateFirst (fun entry => entry.address.sameIdentity addr)
            (replacedEntry · addr) device.addresses).find?
              (fun entry => entry.address.sameIdentity addr) =
            (device.addresses.find? fun entry => entry.address.sameIdentity addr).map
              (replacedEntry · addr) :=
          find?_updateFirst fun _ _ => Ipv4Address.sameIdentity_refl addr
        rw [hupdated, hhead, Option.map_some]
      exact ⟨_, hreplaced, rfl⟩
  | setField _ _ =>
      -- Decoding yields neither a field nor an entity operation.
      rcases decode_some hdecode with ⟨rfl, hkind⟩ | ⟨_, habs⟩ | ⟨_, habs⟩
      · exact absurd rfl (hkind _ _).1
      · exact absurd habs (by simp)
      · exact absurd habs (by simp)
  | addEntity =>
      rcases decode_some hdecode with ⟨rfl, hkind⟩ | ⟨_, habs⟩ | ⟨_, habs⟩
      · exact absurd rfl (hkind "" (.bool true)).2.1
      · exact absurd habs (by simp)
      · exact absurd habs (by simp)
  | removeEntity =>
      rcases decode_some hdecode with ⟨rfl, hkind⟩ | ⟨_, habs⟩ | ⟨_, habs⟩
      · exact absurd rfl (hkind "" (.bool true)).2.2
      · exact absurd habs (by simp)
      · exact absurd habs (by simp)

/-- What the kernel takes with a primary, or promotes, is removed by the plan. -/
theorem DecidedWrite.named
    (h : DecidedWrite diff namespaceId index op decoded observation groups groups' eligible position
      device (.removeIpv4 addr)) {primary entry : AddressObservation}
    (hprimary : device.addresses.find? (fun entry =>
      entry.address.sameIdentity addr && !entry.isSecondary) = some primary)
    (hmem : entry ∈ device.addresses) (hcascades : entry.cascadesWith primary = true) :
    Named diff op.target entry.address := by
  rcases validateGroup_ok rfl h.group with ⟨key, hreaches, _⟩
  exact named_of_covered (h.covered hreaches.isKey hprimary hmem hcascades).2

/-- A removal leaves alone the other identities that the plan does not remove. -/
theorem DecidedWrite.entriesOf_kernelRemove {own : Ipv4Address}
    (h : DecidedWrite diff namespaceId index op decoded observation groups groups' eligible position
      device (.removeIpv4 own)) (hother : own.sameIdentity addr = false)
    (hnamed : ¬ Named diff op.target addr) :
    (kernelRemove promoteSecondaries own device.addresses).filter
        (fun entry => entry.address.sameIdentity addr) =
      device.addresses.filter fun entry => entry.address.sameIdentity addr := by
  -- Another identity is untouched by the removal itself; its cascade remains.
  have hrest : (restOf own device.addresses).filter
      (fun entry => entry.address.sameIdentity addr) =
      device.addresses.filter fun entry => entry.address.sameIdentity addr := by
    unfold restOf
    rw [List.filter_filter]
    refine List.filter_congr fun entry _ => ?_
    by_cases hsame : entry.address.sameIdentity addr = true
    · have hapart : entry.address.sameIdentity own = false := by
        rw [Ipv4Address.sameIdentity_congr hsame, Ipv4Address.sameIdentity_comm]
        exact hother
      rw [hsame, hapart]
      rfl
    · rw [Bool.not_eq_true] at hsame
      rw [hsame, Bool.false_and]
  unfold kernelRemove
  cases hprimary : device.addresses.find? fun entry =>
      entry.address.sameIdentity own && !entry.isSecondary with
  | none => exact hrest
  | some primary =>
      -- Whatever the cascade takes is named by the plan, and `addr` is not.
      have hstays : ∀ entry ∈ restOf own device.addresses, entry.cascadesWith primary = true →
          entry.address.sameIdentity addr = false := by
        intro entry hmem hcascades
        rw [← Bool.not_eq_true]
        intro hsame
        exact hnamed ((h.named hprimary (mem_restOf.mp hmem).1 hcascades).congr hsame)
      unfold Netfyr.cascade
      cases promoteSecondaries with
      | true =>
          simp only [if_true]
          refine Eq.trans (filter_updateFirst_of_neg fun entry hmem hcascades => ?_) hrest
          have hapart := hstays entry hmem hcascades
          exact ⟨hapart, hapart⟩
      | false =>
          simp only [Bool.false_eq_true, if_false, List.filter_filter]
          refine Eq.trans (List.filter_congr fun entry hmem => ?_) hrest
          by_cases hcascades : entry.cascadesWith primary = true
          · rw [hstays entry hmem hcascades, Bool.false_and]
          · rw [Bool.not_eq_true] at hcascades
            rw [hcascades, Bool.not_false, Bool.and_true]

/-- A write leaves alone the identities that neither it nor a removal of the plan
    is about. -/
theorem DecidedWrite.entriesOf
    (h : DecidedWrite diff namespaceId index op decoded observation groups groups' eligible position
      device kind)
    (hother : ∀ own, kind.ipv4Address = some own → own.sameIdentity addr = false)
    (hnamed : ¬ Named diff op.target addr) :
    Netfyr.entriesOf (kernelWrite promoteSecondaries device kind) addr =
      Netfyr.entriesOf device addr := by
  unfold Netfyr.entriesOf
  cases kind with
  | removeIpv4 own => exact h.entriesOf_kernelRemove (hother own rfl) hnamed
  | addIpv4 own =>
      have hown : ¬ (addedEntry device own).address.sameIdentity addr = true := by
        rw [show (addedEntry device own).address = own from rfl, hother own rfl]
        exact Bool.false_ne_true
      simp only [kernelWrite, project, projectAddresses, List.filter_append]
      refine Eq.trans ?_ (List.append_nil _)
      exact congrArg _ (List.filter_cons_of_neg hown)
  | replaceIpv4 own =>
      simp only [kernelWrite, project, projectAddresses]
      refine filter_updateFirst_of_neg fun entry _ hsame => ⟨?_, hother own rfl⟩
      rw [Ipv4Address.sameIdentity_congr hsame]
      exact hother own rfl
  | setMtu _ => rfl
  | setEnabled _ => rfl
  | setField _ _ => rfl
  | addEntity => rfl
  | removeEntity => rfl

/-- An address that is missing is not brought back by another operation. -/
theorem entriesOf_stays_nil
    (hother : ∀ own, kind.ipv4Address = some own → own.sameIdentity addr = false)
    (hmissing : entriesOf device addr = []) :
    entriesOf (kernelWrite promoteSecondaries device kind) addr = [] := by
  rw [List.eq_nil_iff_forall_not_mem]
  intro entry hmem
  rw [mem_entriesOf] at hmem
  rcases exists_before hmem.1 with ⟨before, hin, hid⟩ | hown
  · have hstill : before ∈ entriesOf device addr :=
      mem_entriesOf.mpr ⟨hin, Ipv4Address.sameIdentity_trans hid hmem.2⟩
    rw [hmissing] at hstill
    exact absurd hstill List.not_mem_nil
  · have hapart := hother _ hown
    rw [hmem.2] at hapart
    exact absurd hapart (by decide)

/-- A write keeps the fields of the device's state that it does not assign. -/
theorem get?_kernelWrite {field : String} (hmtu : kind.slot = some .mtu → field ≠ "mtu")
    (henabled : kind.slot = some .enabled → field ≠ "enabled") :
    (kernelWrite promoteSecondaries device kind).state.fields.get? field =
      device.state.fields.get? field := by
  cases kind with
  | setMtu mtu =>
      exact (State.get?_setField _ _ _ (.u64 mtu.toUInt64) trivial).trans (if_neg (hmtu rfl))
  | setEnabled enabled =>
      exact (State.get?_setField _ _ _ (.bool enabled) trivial).trans (if_neg (henabled rfl))
  | removeIpv4 _ => rfl
  | addIpv4 _ => rfl
  | replaceIpv4 _ => rfl
  | setField _ _ => rfl
  | addEntity => rfl
  | removeEntity => rfl

/-- A write unsettles no operation on another slot, unless the plan removes its
    address. -/
theorem DecidedWrite.keepsSettled
    (h : DecidedWrite diff namespaceId index op decoded observation groups groups' eligible position
      device kind) (hslot : kind.slot ≠ kind'.slot)
    (hkept : ∀ addr, kind'.wanted = some addr → ¬ Named diff op.target addr)
    (hsettled : Settled device kind') :
    Settled (kernelWrite promoteSecondaries device kind) kind' := by
  have hother : ∀ {addr}, kind'.ipv4Address = some addr →
      ∀ own, kind.ipv4Address = some own → own.sameIdentity addr = false :=
    fun haddr own hown => sameIdentity_of_slot_ne hslot hown haddr
  cases kind' with
  | setMtu mtu =>
      have hsame : (kernelWrite promoteSecondaries device kind).state.fields.get? "mtu" =
          device.state.fields.get? "mtu" :=
        get?_kernelWrite (fun hmtu => absurd hmtu hslot) fun _ => by decide
      exact hsame.trans hsettled
  | setEnabled enabled =>
      have hsame : (kernelWrite promoteSecondaries device kind).state.fields.get? "enabled" =
          device.state.fields.get? "enabled" :=
        get?_kernelWrite (fun _ => by decide) fun henabled => absurd henabled hslot
      exact hsame.trans hsettled
  | removeIpv4 addr => exact entriesOf_stays_nil (hother rfl) hsettled
  | addIpv4 addr =>
      have hsame : Netfyr.entriesOf (kernelWrite promoteSecondaries device kind) addr =
          Netfyr.entriesOf device addr := h.entriesOf (hother rfl) (hkept addr rfl)
      rcases hsettled with ⟨existing, hhead, hlifetimes⟩
      exact ⟨existing, hsame ▸ hhead, hlifetimes⟩
  | replaceIpv4 addr =>
      have hsame : Netfyr.entriesOf (kernelWrite promoteSecondaries device kind) addr =
          Netfyr.entriesOf device addr := h.entriesOf (hother rfl) (hkept addr rfl)
      rcases hsettled with ⟨existing, hhead, hlifetimes⟩
      exact ⟨existing, hsame ▸ hhead, hlifetimes⟩
  | setField _ _ => exact hsettled
  | addEntity => exact hsettled
  | removeEntity => exact hsettled

end Write

end Netfyr
