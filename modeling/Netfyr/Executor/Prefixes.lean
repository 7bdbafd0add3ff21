import Netfyr.Data.Leading
import Netfyr.Executor.Project

/-!
# Prefix Groups

What it means for two addresses to share a prefix group. The code masks a word
and compares; the kernel's rule is that two addresses of one prefix length agree
on that many leading bits. They are the same for every prefix length that can be
masked at all, the empty prefix included, whose shift is by the whole width and
is made up for by a zero mask.

The rule decides whether the kernel makes a new address secondary, so whoever
predicts that flag by comparing groups predicts what the kernel does.

## Main definitions

* `AddressObservation.SharesPrefix`: The kernel's rule for a new address.

## Theorems

* `shifted_eq_mask`: What the code shifts is the mask, at either end too.
* `masked_eq_iff`: Groups are equal exactly when the leading bits agree.
* `isSecondary_addedEntry`: The flag predicted of a new address.
* `groups_partition`: All of this, of every address and every device.
-/

namespace Netfyr

/-- The kernel's rule: an observed address has the prefix length of a new one,
    and its peer, or its local address when it has none, lies in the new one's
    prefix. -/
def AddressObservation.SharesPrefix (self : AddressObservation) (addr : Ipv4Address) : Prop :=
  self.address.prefixLen = addr.prefixLen ∧
    Leading.Agree addr.prefixLen.toNat (self.peer.getD self.address.ip) addr.ip

instance (self : AddressObservation) (addr : Ipv4Address) : Decidable (self.SharesPrefix addr) :=
  inferInstanceAs (Decidable (_ ∧ _))

section Masking

variable {x y network : Ipv4Addr} {p q : UInt8}

theorem masked_eq_none : masked x p = none ↔ 32 < p.toNat := by
  unfold masked
  split
  · next hlong => exact ⟨fun _ => hlong, fun _ => rfl⟩
  · next hshort => exact ⟨fun h => absurd h (Option.some_ne_none _), fun h => absurd h hshort⟩

/-- What the code shifts is the mask. The shift by the whole width is refused,
    and the zero in its place is the mask of no bits. -/
theorem shifted_eq_mask {n : Nat} (h : n ≤ 32) :
    (checkedShl (BitVec.allOnes 32) (32 - n)).getD 0 = Leading.mask 32 n := by
  unfold checkedShl
  by_cases hzero : n = 0
  · subst hzero
    rfl
  · rw [if_pos (by omega), Option.getD_some]
    rfl

/-- A masked address is cut to its first bits. -/
theorem masked_eq_some (h : p.toNat ≤ 32) :
    masked x p = some (x &&& Leading.mask 32 p.toNat, p) := by
  rw [masked, if_neg (Nat.not_lt.mpr h), shifted_eq_mask h]

/-- Groups are equal exactly when the prefix lengths are and that many leading
    bits agree. -/
theorem masked_eq_iff (hp : p.toNat ≤ 32) :
    masked x p = masked y q ↔ p = q ∧ Leading.Agree p.toNat x y := by
  constructor
  · intro heq
    have hq : q.toNat ≤ 32 := by
      by_contra hlong
      rw [masked_eq_some hp, masked_eq_none.mpr (Nat.lt_of_not_le hlong)] at heq
      exact absurd heq (Option.some_ne_none _)
    rw [masked_eq_some hp, masked_eq_some hq, Option.some.injEq, Prod.mk.injEq] at heq
    rcases heq with ⟨hwords, rfl⟩
    exact ⟨rfl, (Leading.masked_eq_iff hp).mp hwords⟩
  · rintro ⟨rfl, hagree⟩
    rw [masked_eq_some hp, masked_eq_some hp, (Leading.masked_eq_iff hp).mpr hagree]

/-- Masking again changes nothing. -/
theorem masked_idem (h : masked x p = some (network, q)) :
    masked network q = some (network, q) := by
  have hp : p.toNat ≤ 32 := by
    by_contra hlong
    rw [masked_eq_none.mpr (Nat.lt_of_not_le hlong)] at h
    exact absurd h.symm (Option.some_ne_none _)
  rw [masked_eq_some hp, Option.some.injEq, Prod.mk.injEq] at h
  rcases h with ⟨rfl, rfl⟩
  rw [masked_eq_some hp, BitVec.and_assoc, BitVec.and_self]

end Masking

example : masked (Ipv4Addr.new 192 0 2 77) 27 = some (Ipv4Addr.new 192 0 2 64, 27) := by decide

section Flag

variable {device : DeviceObservation} {entry : AddressObservation} {addr : Ipv4Address}

/-- Comparing groups is applying the kernel's rule. -/
theorem kernelGroup_eq_group (h : addr.prefixLen.toNat ≤ 32) :
    entry.kernelGroup = addr.group ↔ entry.SharesPrefix addr := by
  rw [eq_comm, AddressObservation.kernelGroup, Ipv4Address.group, masked_eq_iff h]
  constructor
  · rintro ⟨hlength, hagree⟩
    exact ⟨hlength.symm, hagree.symm⟩
  · rintro ⟨hlength, hagree⟩
    exact ⟨hlength.symm, hagree.symm⟩

/-- The flags that come from lifetimes do not say whether an address is a
    secondary. -/
theorem lifetimeFlags_and_secondary (addr : Ipv4Address) :
    lifetimeFlags addr &&& ifaFSecondary = 0 := by
  unfold lifetimeFlags
  simp only
  split <;> split <;> decide

/-- A new address is predicted to be a secondary exactly when some address shares
    its group. -/
theorem isSecondary_addedEntry : (addedEntry device addr).isSecondary = true ↔
    ∃ entry ∈ device.addresses, entry.kernelGroup = addr.group := by
  have hany : (device.addresses.any fun entry => entry.kernelGroup == addr.group) = true ↔
      ∃ entry ∈ device.addresses, entry.kernelGroup = addr.group := by
    simp only [List.any_eq_true, beq_iff_eq]
  rw [← hany, AddressObservation.isSecondary, addedEntry]
  simp only
  rw [BitVec.and_or_distrib_right, lifetimeFlags_and_secondary]
  cases device.addresses.any fun entry => entry.kernelGroup == addr.group with
  | true => decide
  | false => decide

end Flag

/-- Prefix groups. A group is missing exactly for a prefix length beyond 32, and
    two groups are equal exactly when the prefix lengths are and that many leading
    bits agree, so the empty prefix groups everything and the full one only what is
    equal. Masking is idempotent; its subtraction does not wrap, only the empty
    prefix has its shift refused, and the mask is the number it should be. A new
    address that can be added is predicted to be a secondary exactly by the
    kernel's rule. -/
theorem groups_partition :
    (∀ a : Ipv4Address, a.group = none ↔ 32 < a.prefixLen.toNat) ∧
    (∀ a b : Ipv4Address, a.group ≠ none → b.group ≠ none →
      (a.group = b.group ↔
        a.prefixLen = b.prefixLen ∧ Leading.Agree a.prefixLen.toNat a.ip b.ip)) ∧
    (∀ a b : Ipv4Address, a.prefixLen = 0 → b.prefixLen = 0 → a.group = b.group) ∧
    (∀ a b : Ipv4Address, a.prefixLen = 32 → b.prefixLen = 32 →
      (a.group = b.group ↔ a.ip = b.ip)) ∧
    (∀ (ip network : Ipv4Addr) (p q : UInt8), masked ip p = some (network, q) →
      masked network q = some (network, q)) ∧
    (∀ p : UInt8, p.toNat ≤ 32 → (32 - p).toNat = 32 - p.toNat ∧
      (checkedShl (BitVec.allOnes 32) (32 - p.toNat) = none ↔ p = 0) ∧
      ((checkedShl (BitVec.allOnes 32) (32 - p.toNat)).getD 0).toNat =
        2 ^ 32 - 2 ^ (32 - p.toNat)) ∧
    ∀ (device : DeviceObservation) (addr : Ipv4Address), addr.validate = .ok () →
      ∃ entry, (project device (.addIpv4 addr)).addresses = device.addresses ++ [entry] ∧
        entry.address = addr ∧
        (entry.isSecondary = true ↔ ∃ other ∈ device.addresses, other.SharesPrefix addr) := by
  refine ⟨fun a => masked_eq_none, fun a b ha _ => ?_, fun a b ha hb => ?_, fun a b ha hb => ?_,
    fun ip network p q h => masked_idem h, fun p hp => ⟨?_, ?_, ?_⟩, fun device addr hvalid => ?_⟩
  · exact masked_eq_iff (Nat.le_of_not_lt fun hlong => ha (masked_eq_none.mpr hlong))
  · rw [Ipv4Address.group, Ipv4Address.group, ha, hb, masked_eq_iff (by decide)]
    exact ⟨rfl, Leading.agree_zero⟩
  · rw [Ipv4Address.group, Ipv4Address.group, ha, hb, masked_eq_iff (by decide)]
    have hwidth : Leading.Agree (32 : UInt8).toNat a.ip b.ip ↔ a.ip = b.ip := Leading.agree_width
    rw [hwidth]
    exact and_iff_right rfl
  · exact UInt8.toNat_sub_of_le 32 p hp
  · unfold checkedShl
    rw [ite_eq_right_iff, ← UInt8.toNat_inj]
    constructor
    · intro h
      by_contra hne
      have hpos : p.toNat ≠ 0 := hne
      exact absurd (h (by omega)) (Option.some_ne_none _)
    · intro h hlt
      have hzero : p.toNat = 0 := h
      omega
  · rw [shifted_eq_mask hp, Leading.toNat_mask]
  · refine ⟨addedEntry device addr, project_addresses, rfl, ?_⟩
    have hp := (Ipv4Address.validate_ok_iff.mp hvalid).1
    rw [isSecondary_addedEntry]
    exact exists_congr fun other => and_congr_right fun _ => kernelGroup_eq_group hp

end Netfyr
