import Mathlib.Data.List.Pairwise
import Netfyr.Executor.Cascade
import Netfyr.Executor.Confirm
import Netfyr.Executor.Written
import Netfyr.Kernel.Write

/-!
# When the Verification Accepts the Kernel

What the kernel made of a write, as the executor's verification sees it. Writes
that go as `project` says are accepted. So are the deletions of a primary's
secondaries, which the cascade check has seen to be covered. A promotion is
accepted where the executor expects it, at the first remaining member of the
removed address's prefix group. The kernel promotes the first secondary of the
primary's own kernel group and scope, and with peers in the group this need not
be that member.

## Main definitions

* `cascadeLeads`, `promotesFirst`: The promotion is where it is expected, or there is none.

## Theorems

* `groupAddresses_deleted`, `groupAddresses_promoted`: The group afterwards.
* `expectedMembers_deleted`, `expectedMembers_promoted`: What is expected of it.
* `verifies_iff`: When the verification accepts a write.
-/

namespace Netfyr

/-- Whether the first of some addresses cascades with a primary, or none does. -/
def cascadeLeads (primary : AddressObservation) : List AddressObservation → Bool
  | [] => true
  | first :: rest =>
      first.cascadesWith primary || !rest.any fun entry => entry.cascadesWith primary

/-- Whether the removal of a primary promotes no secondary, or the first remaining
    member of the removed address's prefix group. -/
def promotesFirst (promoteSecondaries : Bool) (device : DeviceObservation)
    (kind : OperationKind) : Bool :=
  match kind with
  | .removeIpv4 addr =>
      match device.addresses.find? fun entry =>
          entry.address.sameIdentity addr && !entry.isSecondary with
      | none => true
      | some primary =>
          !promoteSecondaries ||
            cascadeLeads primary ((restOf addr device.addresses).filter fun entry =>
              entry.address.group == addr.group)
  | _ => true

/-- No two addresses of a device have one identity. -/
def Distinct (entries : List AddressObservation) : Prop :=
  entries.Pairwise fun a b => a.address.sameIdentity b.address = false

instance (entries : List AddressObservation) : Decidable (Distinct entries) :=
  inferInstanceAs (Decidable (entries.Pairwise _))

theorem Distinct.eq {entries : List AddressObservation} (h : Distinct entries)
    {a b : AddressObservation} (ha : a ∈ entries) (hb : b ∈ entries)
    (hid : a.address.sameIdentity b.address = true) : a = b := by
  by_contra hne
  have : Std.Symm fun a b : AddressObservation => a.address.sameIdentity b.address = false :=
    ⟨fun x y hxy => by rwa [Ipv4Address.sameIdentity_comm]⟩
  have hdiffer := h.forall ha hb hne
  rw [hid] at hdiffer
  exact absurd hdiffer (by decide)

theorem mem_restOf {addr : Ipv4Address} {entry : AddressObservation}
    {entries : List AddressObservation} : entry ∈ restOf addr entries ↔
      entry ∈ entries ∧ entry.address.sameIdentity addr = false := by
  rw [restOf, List.mem_filter, Bool.not_eq_true']

section Promote

variable {a b : AddressObservation}

/-- A promoted secondary is none. -/
theorem isSecondary_promote (entry : AddressObservation) : entry.promote.isSecondary = false := by
  have hmask : ~~~ifaFSecondary &&& ifaFSecondary = 0#32 := by decide
  rw [isSecondary_eq_false, AddressObservation.promote, BitVec.and_assoc, hmask, BitVec.and_zero]
  rfl

/-- Promoting one address twice leaves two records of one address. -/
theorem Alike.promote (h : Alike a b) : Alike a.promote b.promote := by
  have hmask : ∀ mask : BitVec 32, a.flags &&& mask = b.flags &&& mask →
      a.promote.flags &&& mask = b.promote.flags &&& mask := by
    intro mask hsame
    unfold AddressObservation.promote
    rw [BitVec.and_assoc, BitVec.and_assoc, BitVec.and_comm (~~~ifaFSecondary), ← BitVec.and_assoc,
      ← BitVec.and_assoc, hsame]
  refine ⟨⟨h.identity, h.scope, h.peer, hmask _ h.flags⟩, h.lifetimes, ?_⟩
  rcases h.deprecated with hsame | hzero
  · exact Or.inl (hmask _ hsame)
  · exact Or.inr hzero

/-- A secondary does not match what was promoted in its place. -/
theorem not_addressMatches_promote {elapsed : Duration} (hsecondary : a.isSecondary = true) :
    addressMatches a b.promote elapsed = false := by
  rw [← Bool.not_eq_true]
  intro hmatch
  rw [addressMatches_iff] at hmatch
  rcases hmatch with ⟨hid, hscope, hpeer, hflags, _⟩
  have hsame : SameAddress a b.promote := ⟨hid, hscope, hpeer, hflags⟩
  rw [hsame.isSecondary, isSecondary_promote] at hsecondary
  exact absurd hsecondary (by decide)

end Promote

/-- Records that match what the kernel left of a list promote nothing in it. -/
theorem not_cascades_of_match {primary : AddressObservation} {elapsed : Duration}
    {expected entries : List AddressObservation} (halike : List.Forall₂ Alike expected entries)
    (hmatch : List.Forall₂ (fun old new => addressMatches old new elapsed = true) expected
      (updateFirst (fun entry => entry.cascadesWith primary) AddressObservation.promote entries)) :
    ∀ entry ∈ entries, entry.cascadesWith primary = false := by
  induction halike with
  | nil => exact fun entry hmem => absurd hmem List.not_mem_nil
  | @cons old entry _ rest hsame _ ih =>
      rw [updateFirst] at hmatch
      rw [List.forall_mem_cons]
      by_cases hcascades : entry.cascadesWith primary = true
      · rw [if_pos hcascades] at hmatch
        cases hmatch with
        | cons hfirst _ =>
            have hsecondary : old.isSecondary = true := by
              unfold AddressObservation.cascadesWith at hcascades
              rw [Bool.and_eq_true] at hcascades
              rw [hsame.isSecondary, hcascades.1]
            rw [not_addressMatches_promote hsecondary] at hfirst
            exact absurd hfirst (by decide)
      · rw [if_neg hcascades] at hmatch
        rw [Bool.not_eq_true] at hcascades
        cases hmatch with
        | cons _ hrest => exact ⟨hcascades, ih hrest⟩

section Removal

variable {diff : StateDiff} {index : Nat} {op : Operation} {addr : Ipv4Address} {key : GroupKey}
  {eligible : List Bool} {primary : AddressObservation}
  {expected entries : List AddressObservation}

/-- When the secondaries of the primary are deleted, those members are not
    expected that were. -/
theorem expectedMembers_deleted (halike : List.Forall₂ Alike expected entries)
    (hdistinct : Distinct entries)
    (hcovered : ∀ entry ∈ entries, entry.cascadesWith primary = true →
      removalIsCovered diff index op.target entry.address eligible = some true) :
    expectedMembers diff index op (.removeIpv4 addr) expected
        (entries.filter fun entry => !entry.cascadesWith primary) eligible =
      some (expected.filter fun entry => !entry.cascadesWith primary) := by
  have hcascades : ∀ a b : AddressObservation, Alike a b →
      (!a.cascadesWith primary) = !b.cascadesWith primary := by
    intro a b hab
    rw [hab.cascadesWith (Alike.refl primary).toSameAddress]
  have htest : ∀ entry ∈ expected,
      (if absentFrom (entries.filter fun entry => !entry.cascadesWith primary) entry &&
          entry.isSecondary then
        (removalIsCovered diff index op.target entry.address eligible).map not
      else some true) = some (!entry.cascadesWith primary) := by
    intro entry hmem
    rcases exists_of_forall₂ halike hmem with ⟨other, hother, hsame⟩
    have hboth := hcascades entry other hsame
    cases hc : other.cascadesWith primary with
    | false =>
        rw [hc] at hboth
        have hleft : other ∈ entries.filter fun entry => !entry.cascadesWith primary :=
          List.mem_filter.mpr ⟨hother, by rw [hc]; rfl⟩
        rw [absentFrom_eq_false hleft hsame.identity, Bool.false_and, if_neg Bool.false_ne_true,
          hboth]
        rfl
    | true =>
        rw [hc] at hboth
        have habsent : absentFrom (entries.filter fun entry => !entry.cascadesWith primary) entry =
            true := by
          unfold absentFrom
          rw [Bool.not_eq_true', List.any_eq_false]
          intro left hleft hid
          rw [List.mem_filter] at hleft
          have hleft' : left = other := hdistinct.eq hleft.1 hother
            (Ipv4Address.sameIdentity_trans (Ipv4Address.sameIdentity_symm hid) hsame.identity)
          rw [hleft', hc] at hleft
          exact absurd hleft.2 (by decide)
        have hsecondary : entry.isSecondary = true := by
          rw [hsame.isSecondary]
          unfold AddressObservation.cascadesWith at hc
          rw [Bool.and_eq_true] at hc
          exact hc.1
        rw [habsent, hsecondary, Bool.and_self, if_pos rfl,
          removalIsCovered_congr hsame.identity, hcovered other hother hc, Option.map_some, hboth]
  have hkept : List.Forall₂ Alike (expected.filter fun entry => !entry.cascadesWith primary)
      (entries.filter fun entry => !entry.cascadesWith primary) :=
    filter_forall₂ halike hcascades
  rw [expectedMembers, Checked.filterChecked_eq_some htest, Option.map_some,
    promoteFirst_of_alike hkept]

/-- When a secondary is promoted, no member is missing. -/
theorem expectedMembers_promoted (halike : List.Forall₂ Alike expected entries) :
    expectedMembers diff index op (.removeIpv4 addr) expected
        (updateFirst (fun entry => entry.cascadesWith primary) AddressObservation.promote entries)
        eligible =
      some (promoteFirst expected
        (updateFirst (fun entry => entry.cascadesWith primary) AddressObservation.promote
          entries)) := by
  have htest : ∀ entry ∈ expected,
      (if absentFrom (updateFirst (fun entry => entry.cascadesWith primary)
          AddressObservation.promote entries) entry && entry.isSecondary then
        (removalIsCovered diff index op.target entry.address eligible).map not
      else some true) = some true := by
    intro entry hmem
    rcases exists_of_forall₂ halike hmem with ⟨other, hother, hsame⟩
    have hpresent : ∃ left ∈ updateFirst (fun entry => entry.cascadesWith primary)
        AddressObservation.promote entries, left.address = other.address := by
      rcases mem_updateFirst_of_mem (p := fun entry => entry.cascadesWith primary)
        (f := AddressObservation.promote) hother with hkept | ⟨_, hpromoted⟩
      · exact ⟨other, hkept, rfl⟩
      · exact ⟨other.promote, hpromoted, rfl⟩
    rcases hpresent with ⟨left, hleft, haddress⟩
    rw [absentFrom_eq_false hleft (by rw [haddress]; exact hsame.identity), Bool.false_and,
      if_neg Bool.false_ne_true]
  have hkept : expected.filter (fun _ => true) = expected :=
    List.filter_eq_self.mpr fun _ _ => rfl
  rw [expectedMembers, Checked.filterChecked_eq_some htest, Option.map_some, hkept]

/-- What is expected of a promotion matches it when the first member cascades, or
    none does. -/
theorem groupMatches_promoted {now : Instant} (halike : List.Forall₂ Alike expected entries) :
    groupMatches
        { addresses := promoteFirst expected
            (updateFirst (fun entry => entry.cascadesWith primary) AddressObservation.promote
              entries)
          observedAt := now }
        (updateFirst (fun entry => entry.cascadesWith primary) AddressObservation.promote entries)
        now = true ↔ cascadeLeads primary entries = true := by
  cases halike with
  | nil => exact iff_of_true rfl rfl
  | @cons old first olds rest hfirst hrest =>
      simp only [updateFirst, cascadeLeads]
      by_cases hcascades : first.cascadesWith primary = true
      · -- The kernel promoted the first member, as is allowed for.
        simp only [hcascades, if_true, Bool.true_or, iff_true]
        have hcond : (old.address.sameIdentity first.promote.address &&
            !first.promote.isSecondary) = true := by
          rw [isSecondary_promote, Bool.not_false, Bool.and_true]
          exact hfirst.identity
        have hpromoted : promoteFirst (old :: olds) (first.promote :: rest) =
            old.promote :: olds := by
          rw [promoteFirst, if_pos hcond]
          rfl
        rw [hpromoted]
        exact groupMatches_of_alike now (.cons hfirst.promote hrest)
      · -- The first member is as it was, and so the others must be.
        simp only [hcascades, if_false, Bool.false_or, Bool.not_eq_true', List.any_eq_false,
          Bool.not_eq_true, Bool.false_eq_true]
        have hhead : promoteFirst [old] [first] = [old] :=
          promoteFirst_of_alike (.cons hfirst .nil)
        have hkept : promoteFirst (old :: olds) (first ::
            updateFirst (fun entry => entry.cascadesWith primary) AddressObservation.promote
              rest) = old :: olds := by
          rw [promoteFirst] at hhead ⊢
          by_cases hcond : (old.address.sameIdentity first.address && !first.isSecondary) = true
          · rw [if_pos hcond, List.cons_eq_cons] at hhead
            rw [if_pos hcond, hhead.1]
          · rw [if_neg hcond]
        rw [hkept]
        constructor
        · intro hmatch
          rw [groupMatches_iff] at hmatch
          cases hmatch with
          | cons _ hmatches => exact not_cascades_of_match hrest hmatches
        · intro hnone
          rw [updateFirst_eq_self hnone]
          exact groupMatches_of_alike now (.cons hfirst hrest)

end Removal

section Decided

variable {diff : StateDiff} {namespaceId : NamespaceId} {index : Nat} {op : Operation}
  {kind : OperationKind} {addr : Ipv4Address} {key : GroupKey} {eligible : List Bool}
  {decoded : Option OperationKind} {observation after : Observation} {groups groups' : Groups}
  {position position' : Nat} {device : DeviceObservation} {now : Instant}
  {promoteSecondaries : Bool} {primary : AddressObservation}

/-- The group of an operation's address, by the address. -/
theorem contains_eq (hkey : GroupKey.new op addr = .ok key) (address : Ipv4Address) :
    key.contains address = (address.group == addr.group) := by
  unfold GroupKey.new at hkey
  cases hgroup : addr.group with
  | none => simp [hgroup] at hkey
  | some group =>
      simp only [hgroup, Except.ok.injEq] at hkey
      subst hkey
      rfl

/-- What the kernel takes with a primary, or promotes, is in the group of the
    removal and covered. -/
theorem DecidedWrite.covered
    (h : DecidedWrite diff namespaceId index op decoded observation groups groups' eligible position
      device (.removeIpv4 addr)) (hkey : GroupKey.new op addr = .ok key)
    (hprimary : device.addresses.find? (fun entry =>
      entry.address.sameIdentity addr && !entry.isSecondary) = some primary)
    {entry : AddressObservation} (hmem : entry ∈ device.addresses)
    (hcascades : entry.cascadesWith primary = true) :
    key.contains entry.address = true ∧
      removalIsCovered diff index op.target entry.address eligible = some true := by
  rcases checkCascade_ok h.cascade hprimary hmem hcascades with ⟨hgroup, hcovered⟩
  rw [h.located.isTarget] at hcovered
  exact ⟨by rw [contains_eq hkey, hgroup, beq_self_eq_true], hcovered⟩

/-- The group of a removed primary, its secondaries deleted with it. -/
theorem groupAddresses_deleted
    (hprimary : device.addresses.find? (fun entry =>
      entry.address.sameIdentity addr && !entry.isSecondary) = some primary) :
    groupAddresses (kernelWrite false device (.removeIpv4 addr)) key =
      ((restOf addr device.addresses).filter fun entry => key.contains entry.address).filter
        fun entry => !entry.cascadesWith primary := by
  have haddresses : (kernelWrite false device (.removeIpv4 addr)).addresses =
      (restOf addr device.addresses).filter fun entry => !entry.cascadesWith primary := by
    simp only [kernelWrite, kernelRemove, hprimary, cascade, Bool.false_eq_true, if_false]
  rw [groupAddresses, haddresses, List.filter_filter, List.filter_filter]
  exact List.filter_congr fun entry _ => Bool.and_comm _ _

/-- The group of a removed primary, a secondary promoted. -/
theorem groupAddresses_promoted
    (hprimary : device.addresses.find? (fun entry =>
      entry.address.sameIdentity addr && !entry.isSecondary) = some primary)
    (hinside : ∀ entry ∈ device.addresses, entry.cascadesWith primary = true →
      key.contains entry.address = true) :
    groupAddresses (kernelWrite true device (.removeIpv4 addr)) key =
      updateFirst (fun entry => entry.cascadesWith primary) AddressObservation.promote
        ((restOf addr device.addresses).filter fun entry => key.contains entry.address) := by
  have haddresses : (kernelWrite true device (.removeIpv4 addr)).addresses =
      updateFirst (fun entry => entry.cascadesWith primary) AddressObservation.promote
        (restOf addr device.addresses) := by
    simp only [kernelWrite, kernelRemove, hprimary, cascade, if_true]
  rw [groupAddresses, haddresses]
  refine filter_updateFirst_of_pos fun entry hmem hcascades => ?_
  have hin := hinside entry (mem_restOf.mp hmem).1 hcascades
  exact ⟨hin, hin⟩

/-- Addresses outside the group of a removal survive it. -/
theorem outsideSurvives_removed
    (hprimary : device.addresses.find? (fun entry =>
      entry.address.sameIdentity addr && !entry.isSecondary) = some primary)
    (hinside : ∀ entry ∈ device.addresses, entry.cascadesWith primary = true →
      key.contains entry.address = true) (hnow : device.observedAt = now) :
    outsideSurvives (predict device (.removeIpv4 addr) now)
      (kernelWrite promoteSecondaries device (.removeIpv4 addr)) key = true := by
  have halike := (alikeDevice_predict hnow (AlikeDevice.refl device) (.removeIpv4 addr)).addresses
  unfold outsideSurvives
  rw [List.all_eq_true]
  intro entry hmem
  rw [List.mem_filter, Bool.not_eq_true'] at hmem
  rcases exists_of_forall₂ halike hmem.1 with ⟨other, hother, hsame⟩
  have hrest : other ∈ restOf addr device.addresses := by
    rwa [project_addresses] at hother
  have hstays : other.cascadesWith primary = false := by
    rw [← Bool.not_eq_true]
    intro hcascades
    have hin := hinside other (mem_restOf.mp hrest).1 hcascades
    rw [← hsame.contains key, hmem.2] at hin
    exact absurd hin (by decide)
  have hsurvivor : ∃ left ∈ cascade promoteSecondaries primary (restOf addr device.addresses),
      left.address = other.address := exists_mem_cascade hrest hstays
  rcases hsurvivor with ⟨left, hleft, haddress⟩
  rw [List.any_eq_true]
  refine ⟨left, ?_, by rw [haddress]; exact hsame.identity⟩
  simp only [kernelWrite, kernelRemove, hprimary]
  exact hleft

/-- A removal of a primary is accepted when the promotion is where it is
    expected. -/
theorem DecidedWrite.verifies_removal
    (h : DecidedWrite diff namespaceId index op decoded observation groups groups' eligible position
      device (.removeIpv4 addr)) (hnow : device.observedAt = now)
    (hdistinct : Distinct device.addresses)
    (hprimary : device.addresses.find? (fun entry =>
      entry.address.sameIdentity addr && !entry.isSecondary) = some primary)
    (hlocated : Located after op.target namespaceId position'
      (kernelWrite promoteSecondaries device (.removeIpv4 addr))) :
    (∃ actual, verifyObservation diff namespaceId index op (.removeIpv4 addr) addr
      (predict device (.removeIpv4 addr) now) after eligible = some (.ok actual)) ↔
      promotesFirst promoteSecondaries device (.removeIpv4 addr) = true := by
  rcases validateGroup_ok rfl h.group with ⟨key, hreaches, _⟩
  have hkey := hreaches.isKey
  have hinside : ∀ entry ∈ device.addresses, entry.cascadesWith primary = true →
      key.contains entry.address = true := fun entry hmem hcascades =>
    (h.covered hkey hprimary hmem hcascades).1
  have hmembers : ∀ entry ∈ (restOf addr device.addresses).filter fun entry =>
      key.contains entry.address, entry ∈ device.addresses := fun entry hmem =>
    (mem_restOf.mp (List.mem_filter.mp hmem).1).1
  have halike : List.Forall₂ Alike (groupAddresses (predict device (.removeIpv4 addr) now) key)
      ((restOf addr device.addresses).filter fun entry => key.contains entry.address) :=
    (alikeDevice_predict hnow (AlikeDevice.refl device) (.removeIpv4 addr)).groupAddresses key
  have houtside : outsideSurvives (predict device (.removeIpv4 addr) now)
      (kernelWrite promoteSecondaries device (.removeIpv4 addr)) key = true :=
    outsideSurvives_removed hprimary hinside hnow
  have hobserved : (kernelWrite promoteSecondaries device (.removeIpv4 addr)).observedAt = now :=
    hnow
  have hpredicted : (predict device (.removeIpv4 addr) now).observedAt = now := project_observedAt
  have hcomplete : (kernelWrite promoteSecondaries device (.removeIpv4 addr)).addressesComplete =
      true := hreaches.complete
  -- Only the comparison of the group is in question.
  have hverifies : (∃ actual, verifyObservation diff namespaceId index op (.removeIpv4 addr) addr
      (predict device (.removeIpv4 addr) now) after eligible = some (.ok actual)) ↔
      ∃ members, expectedMembers diff index op (.removeIpv4 addr)
          (groupAddresses (predict device (.removeIpv4 addr) now) key)
          (groupAddresses (kernelWrite promoteSecondaries device (.removeIpv4 addr)) key) eligible =
            some members ∧
        groupMatches { addresses := members, observedAt := now }
          (groupAddresses (kernelWrite promoteSecondaries device (.removeIpv4 addr)) key) now =
            true := by
    constructor
    · rintro ⟨actual, hactual⟩
      rcases verifyObservation_eq_ok.mp hactual with
        ⟨_, key', members, hfound, _, hkey', hexpected, hmatch, _⟩
      obtain rfl := (hfound.unique hlocated).2
      obtain rfl : key' = key := Except.ok.inj (hkey'.symm.trans hkey)
      rw [hobserved, hpredicted] at hmatch
      exact ⟨members, hexpected, hmatch⟩
    · rintro ⟨members, hexpected, hmatch⟩
      refine ⟨_, verifyObservation_eq_ok.mpr ⟨position', key, members, hlocated, hcomplete, hkey,
        hexpected, ?_, houtside⟩⟩
      rwa [hobserved, hpredicted]
  have hsame : ((restOf addr device.addresses).filter fun entry =>
      entry.address.group == addr.group) =
      (restOf addr device.addresses).filter fun entry => key.contains entry.address :=
    List.filter_congr fun entry _ => (contains_eq hkey _).symm
  rw [hverifies]
  simp only [promotesFirst, hprimary, hsame]
  cases promoteSecondaries with
  | false =>
      rw [groupAddresses_deleted hprimary, expectedMembers_deleted halike
        (hdistinct.sublist ((List.filter_sublist).trans List.filter_sublist))
        fun entry hmem hcascades => (h.covered hkey hprimary (hmembers entry hmem) hcascades).2]
      simp only [Bool.not_false, Bool.true_or, iff_true]
      refine ⟨_, rfl, groupMatches_of_alike now (filter_forall₂ halike fun a b hab => ?_)⟩
      rw [hab.cascadesWith (Alike.refl primary).toSameAddress]
  | true =>
      rw [groupAddresses_promoted hprimary hinside, expectedMembers_promoted halike]
      simp only [Option.some.injEq, exists_eq_left', Bool.not_true, Bool.false_or]
      exact groupMatches_promoted halike

/-- A write that was decided on is accepted when the promotion, if there is one,
    is where it is expected. -/
theorem DecidedWrite.verifies_iff
    (h : DecidedWrite diff namespaceId index op decoded observation groups groups' eligible position
      device kind) (haddr : kind.ipv4Address = some addr) (hnow : device.observedAt = now)
    (hdistinct : Distinct device.addresses)
    (hlocated : Located after op.target namespaceId position'
      (kernelWrite promoteSecondaries device kind)) :
    (∃ actual, verifyObservation diff namespaceId index op kind addr (predict device kind now) after
      eligible = some (.ok actual)) ↔ promotesFirst promoteSecondaries device kind = true := by
  -- A write that goes as `project` says promotes nothing.
  have hprojected : kernelWrite promoteSecondaries device kind = project device kind →
      promotesFirst promoteSecondaries device kind = true →
      ((∃ actual, verifyObservation diff namespaceId index op kind addr (predict device kind now)
        after eligible = some (.ok actual)) ↔
          promotesFirst promoteSecondaries device kind = true) :=
    fun hsame hpromotes => iff_of_true
      ⟨_, h.confirmed haddr hnow hlocated (hsame ▸ AlikeDevice.refl _)⟩ hpromotes
  cases kind with
  | removeIpv4 removed =>
      obtain rfl : removed = addr := Option.some.inj haddr
      cases hprimary : device.addresses.find? fun entry =>
          entry.address.sameIdentity removed && !entry.isSecondary with
      | none =>
          refine hprojected ?_ (by simp only [promotesFirst, hprimary])
          simp only [kernelWrite, kernelRemove, hprimary]
          rfl
      | some primary => exact h.verifies_removal hnow hdistinct hprimary hlocated
  | addIpv4 _ => exact hprojected rfl rfl
  | replaceIpv4 _ => exact hprojected rfl rfl
  | setMtu _ => exact hprojected rfl rfl
  | setEnabled _ => exact hprojected rfl rfl
  | setField _ _ => exact hprojected rfl rfl
  | addEntity => exact hprojected rfl rfl
  | removeEntity => exact hprojected rfl rfl

end Decided

end Netfyr
