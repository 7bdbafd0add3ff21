import Netfyr.State.State

/-!
# Observations and Plans

What a backend observes, and the ordered operations a plan asks of it. The
fields follow the source's records. Instants are counted in nanoseconds from an
arbitrary origin, and a duration is a number of nanoseconds, so the saturating
difference of two instants is truncated subtraction.

## Main definitions

* `InterfaceId`: The identity of a discovered interface.
* `Ipv4Address`: A host address with its prefix and requested lifetimes.
* `masked`: The prefix group of an address.
* `AddressObservation`, `DeviceObservation`, `Observation`: What was observed.
* `OperationKind`, `Operation`, `StateDiff`: What is to be done.

## Theorems

* `Ipv4Address.validate_ok_iff`: What `validate` accepts.
* `Ipv4Address.sameIdentity_group`: Addresses of one identity share their group.
-/

namespace Netfyr

/-- A point in time, in nanoseconds. -/
abbrev Instant : Type := Nat

/-- A length of time, in nanoseconds. -/
abbrev Duration : Type := Nat

/-- Identity of a network namespace, from its device and inode. -/
structure NamespaceId where
  device : UInt64
  inode : UInt64
  deriving DecidableEq

/-- Identity of a discovered interface. -/
structure InterfaceId where
  namespaceId : NamespaceId
  index : UInt32
  generation : UInt64
  name : String
  deviceType : String
  mac : Option String
  deriving DecidableEq

/-- The largest `u32`, which Linux reads as a lifetime without end. -/
def u32Max : UInt32 := 4294967295

/-- One host address, with its host bits and requested lifetimes in seconds. -/
structure Ipv4Address where
  ip : Ipv4Addr
  prefixLen : UInt8
  validLft : Option UInt32
  preferredLft : Option UInt32
  deriving DecidableEq

/-- A left shift, absent when the distance reaches the width. -/
def checkedShl (x : BitVec 32) (n : Nat) : Option (BitVec 32) :=
  if n < 32 then some (x <<< n) else none

/-- The prefix group of an address, absent for an invalid prefix length. -/
def masked (ip : Ipv4Addr) (prefixLen : UInt8) : Option (Ipv4Addr × UInt8) :=
  if 32 < prefixLen.toNat then none
  else some (ip &&& (checkedShl (BitVec.allOnes 32) (32 - prefixLen.toNat)).getD 0, prefixLen)

/-- Why an address cannot be added. -/
inductive AddressError where
  | prefixTooLong
  | zeroValidLifetime
  | preferredExceedsValid
  deriving DecidableEq

/-- The text of an address error. -/
def AddressError.display : AddressError → String
  | .prefixTooLong => "IPv4 prefix length exceeds 32"
  | .zeroValidLifetime => "IPv4 valid lifetime must be greater than zero"
  | .preferredExceedsValid => "IPv4 preferred lifetime exceeds valid lifetime"

namespace Ipv4Address

/-- The masked prefix group of an address. -/
def group (self : Ipv4Address) : Option (Ipv4Addr × UInt8) := masked self.ip self.prefixLen

/-- Whether two addresses agree on local address and prefix length. -/
def sameIdentity (self other : Ipv4Address) : Bool :=
  self.ip == other.ip && self.prefixLen == other.prefixLen

/-- The lifetimes: valid defaults to forever and preferred to valid. -/
def lifetimes (self : Ipv4Address) : UInt32 × UInt32 :=
  let valid := self.validLft.getD u32Max
  (valid, self.preferredLft.getD valid)

/-- Whether an address can be added or used as a replacement. -/
def validate (self : Ipv4Address) : Except AddressError Unit :=
  if 32 < self.prefixLen.toNat then .error .prefixTooLong
  else if self.lifetimes.1 = 0 then .error .zeroValidLifetime
  else if self.lifetimes.1 < self.lifetimes.2 then .error .preferredExceedsValid
  else .ok ()

/-- What `validate` accepts. -/
theorem validate_ok_iff {addr : Ipv4Address} : addr.validate = .ok () ↔
    addr.prefixLen.toNat ≤ 32 ∧ addr.lifetimes.1 ≠ 0 ∧ addr.lifetimes.2 ≤ addr.lifetimes.1 := by
  unfold validate
  by_cases hlength : 32 < addr.prefixLen.toNat
  · simp only [hlength, if_true, reduceCtorEq, false_iff, not_and]
    omega
  · by_cases hzero : addr.lifetimes.1 = 0
    · simp only [hlength, hzero, if_true, if_false, reduceCtorEq, ne_eq, not_true_eq_false,
        false_and, and_false]
    · by_cases hexceeds : addr.lifetimes.1 < addr.lifetimes.2
      · simp only [hlength, hzero, hexceeds, if_true, if_false, reduceCtorEq, false_iff, not_and,
          UInt32.not_le]
        exact fun _ _ => trivial
      · simp only [hlength, hzero, hexceeds, if_false, true_iff, ne_eq, not_false_eq_true,
          true_and]
        exact ⟨Nat.le_of_not_lt hlength, UInt32.not_lt.mp hexceeds⟩

theorem sameIdentity_iff {a b : Ipv4Address} :
    a.sameIdentity b = true ↔ a.ip = b.ip ∧ a.prefixLen = b.prefixLen := by
  simp only [sameIdentity, Bool.and_eq_true, beq_iff_eq]

theorem sameIdentity_refl (a : Ipv4Address) : a.sameIdentity a = true :=
  sameIdentity_iff.mpr ⟨rfl, rfl⟩

theorem sameIdentity_symm {a b : Ipv4Address} (h : a.sameIdentity b = true) :
    b.sameIdentity a = true := by
  rw [sameIdentity_iff] at h ⊢
  exact ⟨h.1.symm, h.2.symm⟩

theorem sameIdentity_trans {a b c : Ipv4Address} (h₁ : a.sameIdentity b = true)
    (h₂ : b.sameIdentity c = true) : a.sameIdentity c = true := by
  rw [sameIdentity_iff] at *
  exact ⟨h₁.1.trans h₂.1, h₁.2.trans h₂.2⟩

/-- Addresses of one identity share their prefix group. -/
theorem sameIdentity_group {a b : Ipv4Address} (h : a.sameIdentity b = true) :
    a.group = b.group := by
  rw [sameIdentity_iff] at h
  rw [group, group, h.1, h.2]

end Ipv4Address

/-- An address as observed: Linux `IFA_F_*` flags, `RT_SCOPE_*` scope, peer. -/
structure AddressObservation where
  address : Ipv4Address
  flags : BitVec 32
  scope : UInt8
  peer : Option Ipv4Addr
  deriving DecidableEq

/-- The primary/secondary group of an address, by its peer when it has one. -/
def AddressObservation.kernelGroup (self : AddressObservation) : Option (Ipv4Addr × UInt8) :=
  masked (self.peer.getD self.address.ip) self.address.prefixLen

/-- A device as observed, `observedAt` dating the remaining lifetimes. -/
structure DeviceObservation where
  identity : InterfaceId
  state : State
  addresses : List AddressObservation
  addressesComplete : Bool
  observedAt : Instant
  deriving DecidableEq

/-- An issue or side effect worth reporting. -/
structure Diagnostic where
  target : Option InterfaceId
  field : Option String
  message : String
  deriving DecidableEq

/-- The devices of a namespace as observed. -/
structure Observation where
  devices : List DeviceObservation
  diagnostics : List Diagnostic
  deriving DecidableEq

/-- A complete, ordered snapshot of a prefix group, for the first operation on
    it. -/
structure AddressGroupPrecondition where
  addresses : List AddressObservation
  observedAt : Instant
  deriving DecidableEq

/-- What an operation does to its target. -/
inductive OperationKind where
  | setMtu (mtu : UInt32)
  | setEnabled (enabled : Bool)
  | addIpv4 (addr : Ipv4Address)
  | removeIpv4 (addr : Ipv4Address)
  | replaceIpv4 (addr : Ipv4Address)
  | setField (field : String) (value : Value)
  | addEntity
  | removeEntity
  deriving DecidableEq

namespace OperationKind

/-- The address an address operation is about. -/
def ipv4Address : OperationKind → Option Ipv4Address
  | .addIpv4 addr | .removeIpv4 addr | .replaceIpv4 addr => some addr
  | _ => none

/-- The field an operation is about. -/
def field : OperationKind → Option String
  | .setMtu _ => some "mtu"
  | .setEnabled _ => some "enabled"
  | .addIpv4 _ | .removeIpv4 _ | .replaceIpv4 _ => some "ipv4.addresses"
  | .setField field _ => some field
  | .addEntity | .removeEntity => none

/-- The name of a kind, as reports print it. -/
def kindName : OperationKind → String
  | .setMtu _ => "set_mtu"
  | .setEnabled _ => "set_enabled"
  | .addIpv4 _ => "add_ipv4"
  | .removeIpv4 _ => "remove_ipv4"
  | .replaceIpv4 _ => "replace_ipv4"
  | .setField _ _ => "set_field"
  | .addEntity => "add_entity"
  | .removeEntity => "remove_entity"

end OperationKind

/-- One operation of a plan; `dependsOn` are indices of earlier operations. -/
structure Operation where
  target : InterfaceId
  kind : OperationKind
  dependsOn : List Nat
  addressGroup : Option AddressGroupPrecondition
  deriving DecidableEq

/-- A field-level change, for display. -/
structure FieldChange where
  target : InterfaceId
  field : String
  old : Option Value
  desired : Option Value
  source : Source
  deriving DecidableEq

/-- A plan: operations executed in list order. -/
structure StateDiff where
  changes : List FieldChange
  operations : List Operation
  diagnostics : List Diagnostic

end Netfyr
