import Netfyr.Executor.Project

/-!
# Two Records of One State

A prediction and an inventory of the same addresses, at the same instant, need
not be equal: a prediction writes lifetimes out and sets the deprecation flag of
an address whose preferred lifetime has ended, an inventory may leave either to
be understood. Such records are alike, and nothing the executor asks of an
observation tells them apart.

## Main definitions

* `SameAddress`: Two records of an address, at whatever times.
* `Alike`: Two records of an address, at one instant.
* `AlikeDevice`: Two records of a device.

## Theorems

* `alike_rebase`: Moving an address by no time makes a record like it.
* `addressMatches_of_alike`: Records that are alike match at once.
* `addressMatches_congr`: Records that are alike match the same expectations.
* `AlikeDevice.project`: A write makes like devices of like devices.
* `AlikeDevice.satisfied`: What is satisfied for one is for the other.
-/

namespace Netfyr

/-- Two records of an address, whenever they were made: lifetimes may have run
    down, and the deprecation flag may have been set. -/
structure SameAddress (a b : AddressObservation) : Prop where
  identity : a.address.sameIdentity b.address = true
  scope : a.scope = b.scope
  peer : a.peer = b.peer
  flags : a.flags &&& ~~~ifaFDeprecated = b.flags &&& ~~~ifaFDeprecated

namespace SameAddress

variable {a b : AddressObservation}

theorem sameIdentity (h : SameAddress a b) (addr : Ipv4Address) :
    a.address.sameIdentity addr = b.address.sameIdentity addr :=
  Ipv4Address.sameIdentity_congr h.identity addr

/-- A flag other than the deprecation flag is the same in both records. -/
theorem mask (h : SameAddress a b) {mask : BitVec 32}
    (hmask : ~~~ifaFDeprecated &&& mask = mask) : a.flags &&& mask = b.flags &&& mask := by
  rw [← hmask, ← BitVec.and_assoc, ← BitVec.and_assoc, h.flags]

theorem isSecondary (h : SameAddress a b) : a.isSecondary = b.isSecondary := by
  unfold AddressObservation.isSecondary
  rw [h.mask (by decide)]

theorem kernelGroup (h : SameAddress a b) : a.kernelGroup = b.kernelGroup := by
  have hid := Ipv4Address.sameIdentity_iff.mp h.identity
  unfold AddressObservation.kernelGroup
  rw [h.peer, hid.1, hid.2]

theorem group (h : SameAddress a b) : a.address.group = b.address.group :=
  Ipv4Address.sameIdentity_group h.identity

/-- Whether two addresses cascade is the same in both records. -/
theorem cascadesWith (h : SameAddress a b) {p q : AddressObservation}
    (hp : SameAddress p q) :
    a.cascadesWith p = b.cascadesWith q := by
  unfold AddressObservation.cascadesWith
  rw [h.isSecondary, h.kernelGroup, hp.kernelGroup, h.scope, hp.scope]

theorem contains (h : SameAddress a b) (key : GroupKey) :
    key.contains a.address = key.contains b.address :=
  GroupKey.contains_congr h.identity key

end SameAddress

/-- Two records of an address made at one instant. -/
structure Alike (a b : AddressObservation) : Prop extends SameAddress a b where
  lifetimes : a.address.lifetimes = b.address.lifetimes
  /-- A flag that only says that the preferred lifetime is over may be missing. -/
  deprecated : a.flags &&& ifaFDeprecated = b.flags &&& ifaFDeprecated ∨
    a.address.lifetimes.2 = 0

namespace Alike

variable {a b c : AddressObservation}

theorem refl (a : AddressObservation) : Alike a a :=
  ⟨⟨Ipv4Address.sameIdentity_refl _, rfl, rfl, rfl⟩, rfl, Or.inl rfl⟩

theorem symm (h : Alike a b) : Alike b a := by
  refine ⟨⟨Ipv4Address.sameIdentity_symm h.identity, h.scope.symm, h.peer.symm, h.flags.symm⟩,
    h.lifetimes.symm, ?_⟩
  rcases h.deprecated with heq | hzero
  · exact Or.inl heq.symm
  · exact Or.inr (by rw [← h.lifetimes, hzero])

theorem trans (h₁ : Alike a b) (h₂ : Alike b c) : Alike a c := by
  refine ⟨⟨Ipv4Address.sameIdentity_trans h₁.identity h₂.identity, h₁.scope.trans h₂.scope,
    h₁.peer.trans h₂.peer, h₁.flags.trans h₂.flags⟩, h₁.lifetimes.trans h₂.lifetimes, ?_⟩
  rcases h₁.deprecated with heq₁ | hzero
  · rcases h₂.deprecated with heq₂ | hzero
    · exact Or.inl (heq₁.trans heq₂)
    · exact Or.inr (by rw [h₁.lifetimes, hzero])
  · exact Or.inr hzero

end Alike

/-- Nothing of a lifetime is lost in no time. -/
theorem decay_zero (seconds : UInt32) : decay seconds 0 = seconds := by
  unfold decay
  by_cases hmax : seconds = u32Max
  · rw [if_pos hmax]
  · rw [if_neg hmax, if_pos UInt32.zero_le, UInt32.sub_zero]

/-- Moving an address by no time makes a record like it. -/
theorem alike_rebase (entry : AddressObservation) : Alike (rebaseEntry 0 entry) entry := by
  have hlifetimes : (rebaseEntry 0 entry).address.lifetimes = entry.address.lifetimes := by
    unfold rebaseEntry
    simp only [decay_zero]
    rfl
  refine ⟨⟨Ipv4Address.sameIdentity_refl _, rfl, rfl,
    rebaseEntry_flags 0 entry _ (by decide)⟩, hlifetimes, ?_⟩
  -- Where the preferred lifetime is over, the flag may be set by moving.
  by_cases hzero : entry.address.lifetimes.2 = 0
  · exact Or.inr (by rw [hlifetimes, hzero])
  · left
    unfold rebaseEntry
    simp only [decay_zero]
    rw [if_neg hzero]

/-- Records that are alike match at once. -/
theorem addressMatches_of_alike {a b : AddressObservation} (h : Alike a b) :
    addressMatches a b 0 = true := by
  rw [addressMatches_iff]
  refine ⟨h.identity, h.scope, h.peer, h.flags, ?_, ?_, ?_⟩
  · rcases h.deprecated with heq | hzero
    · exact Or.inl heq
    · right
      rw [← h.lifetimes, hzero]
      exact ⟨rfl, lifetimeMatches_self 0⟩
  · rw [h.lifetimes]
    exact lifetimeMatches_self _
  · rw [h.lifetimes]
    exact lifetimeMatches_self _

/-- Records that are alike match the same expectations. Where their deprecation
    flags differ the preferred lifetime is over, and then a match asks for no
    more than that. -/
theorem addressMatches_congr {expected a b : AddressObservation} (h : Alike a b)
    (elapsed : Duration) :
    addressMatches expected a elapsed = addressMatches expected b elapsed := by
  have key : ∀ {a b : AddressObservation}, Alike a b → addressMatches expected a elapsed = true →
      addressMatches expected b elapsed = true := by
    intro a b h hmatch
    rw [addressMatches_iff] at hmatch ⊢
    rcases hmatch with ⟨hid, hscope, hpeer, hflags, hdeprecated, hvalid, hpreferred⟩
    rw [h.lifetimes] at hvalid hpreferred
    refine ⟨Ipv4Address.sameIdentity_trans hid h.identity, hscope.trans h.scope,
      hpeer.trans h.peer, hflags.trans h.flags, ?_, hvalid, hpreferred⟩
    rcases h.deprecated with heq | hzero
    · rw [heq, h.lifetimes] at hdeprecated
      exact hdeprecated
    · rw [h.lifetimes] at hzero
      rw [hzero] at hpreferred
      exact Or.inr ⟨hzero, hpreferred⟩
  rw [Bool.eq_iff_iff]
  exact ⟨key h, key h.symm⟩

/-- Two records of a device at one instant. -/
structure AlikeDevice (a b : DeviceObservation) : Prop where
  identity : a.identity = b.identity
  state : a.state = b.state
  complete : a.addressesComplete = b.addressesComplete
  observedAt : a.observedAt = b.observedAt
  addresses : List.Forall₂ Alike a.addresses b.addresses

theorem forall₂_alike_refl (entries : List AddressObservation) :
    List.Forall₂ Alike entries entries :=
  List.forall₂_same.mpr fun entry _ => Alike.refl entry

theorem forall₂_alike_trans {as bs cs : List AddressObservation} (h₁ : List.Forall₂ Alike as bs)
    (h₂ : List.Forall₂ Alike bs cs) : List.Forall₂ Alike as cs :=
  forall₂_comp h₁ h₂ fun _ _ _ => Alike.trans

theorem forall₂_alike_symm {as bs : List AddressObservation} (h : List.Forall₂ Alike as bs) :
    List.Forall₂ Alike bs as :=
  h.flip.imp fun _ _ => Alike.symm

namespace AlikeDevice

variable {a b c : DeviceObservation}

theorem refl (a : DeviceObservation) : AlikeDevice a a :=
  ⟨rfl, rfl, rfl, rfl, forall₂_alike_refl _⟩

theorem trans (h₁ : AlikeDevice a b) (h₂ : AlikeDevice b c) : AlikeDevice a c :=
  ⟨h₁.identity.trans h₂.identity, h₁.state.trans h₂.state, h₁.complete.trans h₂.complete,
    h₁.observedAt.trans h₂.observedAt, forall₂_alike_trans h₁.addresses h₂.addresses⟩

theorem symm (h : AlikeDevice a b) : AlikeDevice b a :=
  ⟨h.identity.symm, h.state.symm, h.complete.symm, h.observedAt.symm,
    forall₂_alike_symm h.addresses⟩

/-- The members of a group are alike. -/
theorem groupAddresses (h : AlikeDevice a b) (key : GroupKey) :
    List.Forall₂ Alike (groupAddresses a key) (groupAddresses b key) :=
  filter_forall₂ h.addresses fun _ _ hab => hab.contains key

theorem hasAddress (h : AlikeDevice a b) (addr : Ipv4Address) :
    hasAddress a addr = hasAddress b addr :=
  any_forall₂ h.addresses fun _ _ hab => hab.sameIdentity addr

/-- A write makes like devices of like devices. -/
theorem project (h : AlikeDevice a b) (kind : OperationKind) :
    AlikeDevice (project a kind) (project b kind) := by
  have hentries : List.Forall₂ Alike (projectAddresses a kind) (projectAddresses b kind) := by
    cases kind with
    | removeIpv4 addr =>
        exact filter_forall₂ h.addresses fun _ _ hab => by rw [hab.sameIdentity]
    | addIpv4 addr =>
        -- Whether the new address is a secondary depends on kernel groups only.
        have hadded : addedEntry a addr = addedEntry b addr := by
          unfold addedEntry
          rw [any_forall₂ h.addresses fun _ _ hab => by rw [hab.kernelGroup]]
        have happend := List.rel_append h.addresses (forall₂_alike_refl [addedEntry b addr])
        rw [projectAddresses, projectAddresses, hadded]
        exact happend
    | replaceIpv4 addr =>
        refine updateFirst_forall₂ h.addresses (fun _ _ hab => hab.sameIdentity addr)
          fun x y hab _ => ?_
        have hflags : x.flags &&& ~~~(ifaFPermanent ||| ifaFDeprecated) =
            y.flags &&& ~~~(ifaFPermanent ||| ifaFDeprecated) := hab.mask (by decide)
        -- A replacement writes the deprecation flag anew, so the records agree on it.
        have hsame : replacedEntry x addr = replacedEntry y addr := by
          unfold replacedEntry
          rw [hflags, hab.scope, hab.peer]
        rw [hsame]
        exact Alike.refl _
    | setMtu _ => exact h.addresses
    | setEnabled _ => exact h.addresses
    | setField _ _ => exact h.addresses
    | addEntity => exact h.addresses
    | removeEntity => exact h.addresses
  refine ⟨?_, ?_, ?_, ?_, ?_⟩
  · rw [project_identity, project_identity, h.identity]
  · cases kind <;> simp only [Netfyr.project, h.state]
  · rw [project_addressesComplete, project_addressesComplete, h.complete]
  · rw [project_observedAt, project_observedAt, h.observedAt]
  · rw [project_addresses, project_addresses]
    exact hentries

/-- The question whether there is nothing to do has the same answer. -/
theorem satisfied (h : AlikeDevice a b) (kind : OperationKind) (op : Operation) :
    satisfied kind a op = satisfied kind b op := by
  have hfind : ∀ addr : Ipv4Address,
      (a.addresses.find? (fun entry => entry.address.sameIdentity addr) = none ∧
        b.addresses.find? (fun entry => entry.address.sameIdentity addr) = none) ∨
      ∃ x y, a.addresses.find? (fun entry => entry.address.sameIdentity addr) = some x ∧
        b.addresses.find? (fun entry => entry.address.sameIdentity addr) = some y ∧ Alike x y :=
    fun addr => find?_forall₂ h.addresses fun _ _ hab => hab.sameIdentity addr
  have hequal : ∀ {x y : AddressObservation}, Alike x y → ∀ addr age,
      lifetimesEqual addr x.address age = lifetimesEqual addr y.address age := by
    intro x y hab addr age
    unfold lifetimesEqual
    rw [hab.lifetimes]
  cases kind with
  | setMtu mtu => simp only [Netfyr.satisfied, h.state]
  | setEnabled enabled => simp only [Netfyr.satisfied, h.state]
  | removeIpv4 addr => simp only [Netfyr.satisfied, h.hasAddress]
  | addIpv4 addr =>
      rcases hfind addr with ⟨hx, hy⟩ | ⟨x, y, hx, hy, hab⟩
      · simp only [Netfyr.satisfied, hx, hy]
      · simp only [Netfyr.satisfied, hx, hy, h.observedAt, hequal hab]
  | replaceIpv4 addr =>
      rcases hfind addr with ⟨hx, hy⟩ | ⟨x, y, hx, hy, hab⟩
      · simp only [Netfyr.satisfied, hx, hy]
      · simp only [Netfyr.satisfied, hx, hy, h.observedAt, hequal hab]
  | setField _ _ => rfl
  | addEntity => rfl
  | removeEntity => rfl

end AlikeDevice

/-- Moving a device by no time makes a record like it. -/
theorem alikeDevice_rebase (device : DeviceObservation) :
    AlikeDevice (rebaseLifetimes device device.observedAt) device := by
  have hzero : wholeSeconds (device.observedAt - device.observedAt) = 0 := by
    rw [Nat.sub_self]
    rfl
  refine ⟨rfl, rfl, rfl, rfl, ?_⟩
  simp only [rebaseLifetimes, hzero, List.forall₂_map_left_iff]
  exact List.forall₂_same.mpr fun entry _ => alike_rebase entry

end Netfyr
