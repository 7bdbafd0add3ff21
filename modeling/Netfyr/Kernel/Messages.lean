import Netfyr.Kernel.Write
import Netfyr.Linux.Dump
import Netfyr.Linux.Records

/-!
# The Kernel's Side of a Message

The messages of the transport, as the kernel takes them. The kernel is not part
of the program, so it is a parameter here: whatever keeps addresses for its
interfaces and does with them what is documented. A dump has a record for each
address. What a new address becomes depends on the others: one in the network of
another is a secondary. An address is replaced or removed by what the message
names of it, and that is more than a plan knows, namely the peer and the label.
Where an address is linked into the list is not documented, and neither is which
secondary is promoted.

A plan is checked against a prediction, and a write is held to have worked when
an inventory shows what was predicted. So the message of an operation has to do
what `project` says, but for the secondaries of a removed primary. That is the
square proved here: a message changes the kernel's list as a write changes the
list that is read of it, up to order.

An address whose valid lifetime never ends is shown as preferred for ever, and no
new address gets another scope than its message has. The prediction knows
neither, which leaves out loopback addresses, and lifetimes of which only one
ends.

## Main definitions

* `KernelAddress`: An address as the kernel keeps it.
* `KernelAddress.record`, `KernelAddress.seen`: What it shows, and what is read.
* `AddressKernel`, `AddressKernel.Documented`: A kernel, and what is relied on.
* `Foreseen`: An operation whose outcome `project` knows.
* `Foretold`: A list that is read as predicted.
* `LinuxInterface.kernel`: A kernel that is so, with one interface.

## Theorems

* `KernelAddress.parse_record`: What is read of a record.
* `isNamed_iff`: A removal names the address of its record and no other.
* `request_add`, `request_replace`, `request_remove`: The three messages.
* `request_written`: The square.
* `LinuxInterface.documented`: There is a kernel of that kind.
-/

namespace Netfyr

/-- An IPv4 address as the kernel keeps it: `local'` is the address itself, and
    `address` its peer, or the address once more. Of what is never read it counts
    whether there is any: a broadcast address, a protocol, a metric. -/
structure KernelAddress where
  local' : Ipv4Addr
  address : Ipv4Addr
  prefixLen : UInt8
  scope : UInt8
  flags : BitVec 32
  label : String
  broadcast : Bool
  protocol : Bool
  metric : Bool
  valid : UInt32
  preferred : UInt32
  bounded : prefixLen ≤ 32
  ordered : preferred ≤ valid

namespace KernelAddress

/-- The network an address is in, by its peer when it has one. -/
def network (self : KernelAddress) : Option (Ipv4Addr × UInt8) :=
  masked self.address self.prefixLen

def isSecondary (self : KernelAddress) : Bool := self.flags &&& ifaFSecondary != 0

/-- The lifetimes that are shown: a permanent address has no others. -/
def cache (self : KernelAddress) : CacheInfo :=
  if self.flags &&& ifaFPermanent ≠ 0 then { ifaPreferred := u32Max, ifaValid := u32Max }
  else { ifaPreferred := self.preferred, ifaValid := self.valid }

/-- The record of an address in a dump. -/
def record (self : KernelAddress) (index : UInt32) : AddressMessage :=
  { family := .inet
    prefixLen := self.prefixLen
    flags := self.flags.setWidth 8
    scope := self.scope
    index
    attributes :=
      (if self.address = 0 then [] else [.address (.v4 self.address)]) ++
        (if self.local' = 0 then [] else [.local' (.v4 self.local')]) ++
          (if self.broadcast then [.other] else []) ++
            (if self.label = "" then [] else [.label self.label]) ++
              (if self.protocol then [.other] else []) ++ [.flags self.flags] ++
                (if self.metric then [.other] else []) ++ [.cacheInfo self.cache] }

/-- What is read of the record of an address. -/
def seen (self : KernelAddress) : AddressObservation :=
  { address :=
      { ip := self.local'
        prefixLen := self.prefixLen
        validLft := some self.cache.ifaValid
        preferredLft := some self.cache.ifaPreferred }
    flags := self.flags
    scope := self.scope
    peer := (some self.address).filter (· ≠ self.local') }

/-- The flags of an address that is given lifetimes. -/
def lifetimeFlags (flags : BitVec 32) (cache : CacheInfo) : BitVec 32 :=
  (flags &&& ~~~(ifaFPermanent ||| ifaFDeprecated)) |||
    ((if cache.ifaValid = u32Max then ifaFPermanent else 0) |||
      if cache.ifaPreferred = 0 then ifaFDeprecated else 0)

/-- Whether an address is another one with other lifetimes. What is never read may
    differ. -/
structure Renews (renewed entry : KernelAddress) (cache : CacheInfo) : Prop where
  local' : renewed.local' = entry.local'
  address : renewed.address = entry.address
  prefixLen : renewed.prefixLen = entry.prefixLen
  scope : renewed.scope = entry.scope
  flags : renewed.flags = lifetimeFlags entry.flags cache
  valid : renewed.valid = cache.ifaValid
  preferred : renewed.preferred = cache.ifaPreferred

/-- A new address, which is a secondary or not. -/
def placed (self : KernelAddress) (secondary : Bool) : KernelAddress :=
  { self with
    flags := (self.flags &&& ~~~ifaFSecondary) ||| (if secondary then ifaFSecondary else 0) }

/-- A secondary that became a primary. -/
def promoted (self : KernelAddress) : KernelAddress :=
  { self with flags := self.flags &&& ~~~ifaFSecondary }

/-- Whether a new address would be this one. -/
def isSame (self other : KernelAddress) : Bool :=
  self.network == other.network && self.local' == other.local'

/-- Whether an address goes with the given primary. -/
def goesWith (self primary : KernelAddress) : Bool :=
  self.isSecondary && self.network == primary.network

end KernelAddress

namespace AddressAttribute

def local? : AddressAttribute → Option Ipv4Addr
  | .local' (.v4 ip) => some ip
  | _ => none

def address? : AddressAttribute → Option Ipv4Addr
  | .address (.v4 ip) => some ip
  | _ => none

def label? : AddressAttribute → Option String
  | .label text => some text
  | _ => none

def bits? : AddressAttribute → Option (BitVec 32)
  | .flags bits => some bits
  | _ => none

def cache? : AddressAttribute → Option CacheInfo
  | .cacheInfo info => some info
  | _ => none

end AddressAttribute

/-- What the last attribute of a kind says. -/
def AddressMessage.last {α : Type} (self : AddressMessage) (kind : AddressAttribute → Option α) :
    Option α :=
  (self.attributes.filterMap kind).getLast?

/-- Whether a message names an address, by all that it says. -/
def KernelAddress.isNamed (self : KernelAddress) (message : AddressMessage) : Bool :=
  (message.last AddressAttribute.local?).all (· == self.local') &&
    (message.last AddressAttribute.label?).all (· == self.label) &&
      (message.last AddressAttribute.address?).all
        (fun address => masked address message.prefixLen == self.network)

/-- Whether the record of an address names all of it. -/
def KernelAddress.Whole (self : KernelAddress) : Prop := self.local' ≠ 0 ∧ self.address ≠ 0

/-- Whether a message asks for an address. Without lifetimes it never ends, and
    without an address of its own the local one is also the peer. -/
structure AddressMessage.AsksFor (message : AddressMessage) (new : KernelAddress) : Prop where
  local' : message.last AddressAttribute.local? = some new.local'
  address : (message.last AddressAttribute.address?).getD new.local' = new.address
  prefixLen : message.prefixLen = new.prefixLen
  scope : message.scope = new.scope
  cache : (message.last AddressAttribute.cache?).getD
      { ifaPreferred := u32Max, ifaValid := u32Max } =
    { ifaPreferred := new.preferred, ifaValid := new.valid }
  flags : message.flags = 0 → message.last AddressAttribute.bits? = none →
    new.flags = KernelAddress.lifetimeFlags 0
      { ifaPreferred := new.preferred, ifaValid := new.valid }

/-- What is left of a list with an address that was not in it. -/
def Joined (entries : List KernelAddress) (new : KernelAddress) (left : List KernelAddress) :
    Prop :=
  (∀ entry ∈ entries, entry.isSame new = false) ∧
    left.Perm (new.placed (entries.any fun entry => entry.network == new.network) :: entries)

/-- What is left of a list with other lifetimes for an address in it. -/
def Renewed (entries : List KernelAddress) (new : KernelAddress) (left : List KernelAddress) :
    Prop :=
  ∃ entry renewed others, entry.isSame new = true ∧ entries.Perm (entry :: others) ∧
    renewed.Renews entry { ifaPreferred := new.preferred, ifaValid := new.valid } ∧
      left.Perm (renewed :: others)

/-- What is left of the others when an address is removed: without their primary
    the secondaries are deleted, or one of them is promoted. -/
inductive Survived (gone : KernelAddress) (others : List KernelAddress) :
    Bool → List KernelAddress → Prop where
  | secondary {promoteSecondaries : Bool} {left : List KernelAddress}
      (hsecondary : gone.isSecondary = true) (hleft : left.Perm others) :
      Survived gone others promoteSecondaries left
  | deleted {left : List KernelAddress} (hprimary : gone.isSecondary = false)
      (hleft : left.Perm (others.filter fun entry => !entry.goesWith gone)) :
      Survived gone others false left
  | alone {left : List KernelAddress} (hprimary : gone.isSecondary = false)
      (halone : ∀ entry ∈ others, entry.goesWith gone = false) (hleft : left.Perm others) :
      Survived gone others true left
  | promoted {next : KernelAddress} {rest left : List KernelAddress}
      (hprimary : gone.isSecondary = false) (hnext : next.goesWith gone = true)
      (hothers : others.Perm (next :: rest)) (hleft : left.Perm (next.promoted :: rest)) :
      Survived gone others true left

/-- The errors by which a kernel says that an address is there, or is not. -/
def eexist : Int := 17
def eaddrnotavail : Int := 99

/-- A kernel: the addresses of an interface, the setting for their secondaries,
    the records that are shown of them, and what becomes of a request. -/
structure AddressKernel where
  State : Type
  addresses : State → UInt32 → List KernelAddress
  promoteSecondaries : State → UInt32 → Bool
  dump : State → UInt32 → List AddressMessage
  request : State → RouteNetlinkMessage → BitVec 16 → Except Int State

/-- What is read of the addresses of an interface. -/
def AddressKernel.seen (kernel : AddressKernel) (state : kernel.State) (index : UInt32) :
    List AddressObservation :=
  (kernel.addresses state index).map KernelAddress.seen

/-- What a kernel is documented to do, for IPv4. -/
structure AddressKernel.Documented (kernel : AddressKernel) : Prop where
  /-- A dump has one record for each address. -/
  dumps : ∀ state index, kernel.dump state index =
    (kernel.addresses state index).map fun entry => entry.record index
  /-- Addresses of one network have one scope. -/
  scopes : ∀ state index, ∀ a ∈ kernel.addresses state index,
    ∀ b ∈ kernel.addresses state index, a.network = b.network → a.scope = b.scope
  /-- An address that is asked for is new, or it is there and gets the lifetimes. -/
  adds : ∀ state message flags left, message.family = .inet →
    message.last AddressAttribute.local? ≠ some 0 →
    kernel.request state (.newAddress message) flags = .ok left →
    ∃ new, message.AsksFor new ∧
      (Joined (kernel.addresses state message.index) new (kernel.addresses left message.index) ∨
        Renewed (kernel.addresses state message.index) new (kernel.addresses left message.index))
  /-- An address exists only for a message that must not find it. -/
  existing : ∀ state message flags, message.family = .inet →
    kernel.request state (.newAddress message) flags = .error eexist →
    (flags &&& nlmFExcl ≠ 0 ∨ flags &&& nlmFReplace = 0) ∧
      ∃ new, message.AsksFor new ∧
        ∃ entry ∈ kernel.addresses state message.index, entry.isSame new = true
  /-- An address that a message names is deleted. -/
  deletes : ∀ state message flags left, message.family = .inet →
    kernel.request state (.delAddress message) flags = .ok left →
    ∃ gone others, gone.isNamed message = true ∧
      (kernel.addresses state message.index).Perm (gone :: others) ∧
      Survived gone others (kernel.promoteSecondaries state message.index)
        (kernel.addresses left message.index)
  /-- There is no address only where a message names none. -/
  missing : ∀ state message flags, message.family = .inet →
    kernel.request state (.delAddress message) flags = .error eaddrnotavail →
    ∀ entry ∈ kernel.addresses state message.index, entry.isNamed message = false

/-- Whether a refusal says that the address of a message is there already, or that
    it is not there. -/
def RouteNetlinkMessage.isOutdated : RouteNetlinkMessage → Int → Bool
  | .newAddress _, errno => errno == eexist
  | .delAddress _, errno => errno == eaddrnotavail
  | .getLink _, _ | .getAddress _, _ | .setLink _, _ => false

/-- Whether `project` knows what becomes of an operation. -/
def Foreseen : OperationKind → Prop
  | .addIpv4 addr => addr.ip ≠ 0 ∧ addr.ip.isLoopback = false ∧
      (addr.lifetimes.1 = u32Max → addr.lifetimes.2 = u32Max)
  | .replaceIpv4 addr => addr.lifetimes.1 = u32Max → addr.lifetimes.2 = u32Max
  | _ => True

/-- Whether a list is what a write is predicted to leave of a device, with the
    addresses before and behind it in whatever order. -/
def Foretold (promoteSecondaries : Bool) (device : DeviceObservation) (kind : OperationKind)
    (left : List AddressObservation) : Prop :=
  ∃ shown entries, shown.Perm device.addresses ∧ entries.Perm left ∧
    List.Forall₂ Alike entries
      (kernelWrite promoteSecondaries { device with addresses := shown } kind).addresses

namespace KernelAddress

variable (self : KernelAddress) (index : UInt32)

theorem cache_ordered : self.cache.ifaPreferred ≤ self.cache.ifaValid := by
  unfold cache
  by_cases hpermanent : self.flags &&& ifaFPermanent ≠ 0
  · rw [if_pos hpermanent]
    exact UInt32.le_refl _
  · rw [if_neg hpermanent]
    exact self.ordered

/-- The attributes of a record: those that name the address, and between others the
    flags and the lifetimes. -/
theorem record_attributes (h : self.Whole) : (self.record index).attributes =
    [.address (.v4 self.address), .local' (.v4 self.local')] ++
      ((if self.broadcast then [.other] else []) ++
        (if self.label = "" then [] else [.label self.label]) ++
          (if self.protocol then [.other] else []) ++ [.flags self.flags] ++
            (if self.metric then [.other] else []) ++ [.cacheInfo self.cache]) := by
  unfold record
  simp only [if_neg h.1, if_neg h.2, List.append_assoc]
  rfl

/-- What is read of a record is the address. -/
theorem parse_record (h : self.Whole) : parseAddress (self.record index) = .ok self.seen := by
  refine parseAddress_ok_iff.mpr ⟨rfl, self.bounded,
    { local' := some self.local', address := some self.address, flags := self.flags,
      cache := some self.cache }, self.local', self.cache, ?_, rfl, rfl, self.cache_ordered, rfl⟩
  rw [self.record_attributes index h]
  -- The label and what else there is are not read.
  by_cases hlabel : self.label = ""
  · rw [if_pos hlabel]
    cases self.broadcast <;> cases self.protocol <;> cases self.metric <;> rfl
  · rw [if_neg hlabel]
    cases self.broadcast <;> cases self.protocol <;> cases self.metric <;> rfl

@[simp] theorem seen_kernelGroup : self.seen.kernelGroup = self.network := by
  unfold AddressObservation.kernelGroup seen network
  by_cases hpeer : self.address = self.local'
  · simp [hpeer, Option.filter]
  · simp [hpeer, Option.filter]

@[simp] theorem seen_isSecondary : self.seen.isSecondary = self.isSecondary := rfl

@[simp] theorem seen_scope : self.seen.scope = self.scope := rfl

/-- Addresses of one network have prefixes of one length. -/
theorem prefixLen_of_network {ip : Ipv4Addr} {prefixLen : UInt8}
    (h : self.network = masked ip prefixLen) : self.prefixLen = prefixLen := by
  have hbounded : ¬ 32 < self.prefixLen.toNat := by
    have := UInt8.le_iff_toNat_le.mp self.bounded
    exact Nat.not_lt.mpr this
  unfold network masked at h
  rw [if_neg hbounded] at h
  by_cases hlong : 32 < prefixLen.toNat
  · rw [if_pos hlong] at h
    exact absurd h (by simp only [reduceCtorEq, not_false_eq_true])
  · rw [if_neg hlong, Option.some.injEq, Prod.mk.injEq] at h
    exact h.2

end KernelAddress

section Named

variable {entries : List KernelAddress} {index : UInt32} {entry other : KernelAddress}

/-- No two addresses of an interface have one local address and one prefix length. -/
def KernelAddress.Distinct (index : UInt32) (entries : List KernelAddress) : Prop :=
  ((entries.map KernelAddress.seen).map (AddressObservation.key index)).Nodup

theorem KernelAddress.Distinct.eq (h : KernelAddress.Distinct index entries)
    (hentry : entry ∈ entries) (hother : other ∈ entries) (hlocal : entry.local' = other.local')
    (hlength : entry.prefixLen = other.prefixLen) : entry = other := by
  unfold KernelAddress.Distinct at h
  rw [List.map_map] at h
  refine List.inj_on_of_nodup_map h hentry hother ?_
  simp only [Function.comp_apply, AddressObservation.key, KernelAddress.seen, hlocal, hlength]

theorem sameIdentity_seen {addr : Ipv4Address} : entry.seen.address.sameIdentity addr = true ↔
    entry.local' = addr.ip ∧ entry.prefixLen = addr.prefixLen := by
  rw [Ipv4Address.sameIdentity_iff]
  rfl

variable {addr : Ipv4Address}

/-- An address that a new one would be is named as the new one. -/
theorem sameIdentity_of_isSame {new : KernelAddress} (h : entry.isSame new = true)
    (hlocal : new.local' = addr.ip) (hlength : new.prefixLen = addr.prefixLen) :
    entry.seen.address.sameIdentity addr = true := by
  unfold KernelAddress.isSame at h
  rw [Bool.and_eq_true, beq_iff_eq, beq_iff_eq] at h
  exact sameIdentity_seen.mpr
    ⟨h.2.trans hlocal, (entry.prefixLen_of_network h.1).trans hlength⟩

/-- What is left of a record in a removal. -/
theorem record_isNaming (hwhole : other.Whole) :
    (other.record index).attributes.filter AddressAttribute.isNaming =
    [.address (.v4 other.address), .local' (.v4 other.local')] ++
      if other.label = "" then [] else [.label other.label] := by
  rw [other.record_attributes index hwhole]
  by_cases hlabel : other.label = ""
  · rw [if_pos hlabel]
    cases other.broadcast <;> cases other.protocol <;> cases other.metric <;> rfl
  · rw [if_neg hlabel]
    cases other.broadcast <;> cases other.protocol <;> cases other.metric <;> rfl

/-- What a message names that says what a record does to name its address. -/
theorem isNamed_naming {label : List AddressAttribute}
    (hlabel : label = [] ∨ label = [.label other.label]) :
    entry.isNamed { other.record index with
        attributes := [.address (.v4 other.address), .local' (.v4 other.local')] ++ label } = true ↔
      other.local' = entry.local' ∧ (label = [] ∨ other.label = entry.label) ∧
        other.network = entry.network := by
  unfold KernelAddress.isNamed
  rw [Bool.and_eq_true, Bool.and_eq_true]
  rcases hlabel with rfl | rfl
  · rw [show AddressMessage.last _ AddressAttribute.local? = some other.local' from rfl,
      show AddressMessage.last _ AddressAttribute.label? = none from rfl,
      show AddressMessage.last _ AddressAttribute.address? = some other.address from rfl]
    simp only [Option.all_some, Option.all_none, beq_iff_eq, and_true, true_or, true_and]
    rfl
  · rw [show AddressMessage.last _ AddressAttribute.local? = some other.local' from rfl,
      show AddressMessage.last _ AddressAttribute.label? = some other.label from rfl,
      show AddressMessage.last _ AddressAttribute.address? = some other.address from rfl]
    simp only [Option.all_some, beq_iff_eq, List.cons_ne_self, false_or, and_assoc]
    rfl

/-- The removal made of a record names its address and no other. -/
theorem isNamed_iff (h : KernelAddress.Distinct index entries) (hentry : entry ∈ entries)
    (hother : other ∈ entries) (hwhole : other.Whole) :
    entry.isNamed (removalMessage (some (other.record index)) index addr) = true ↔
      entry = other := by
  have hlabel : (if other.label = "" then [] else [AddressAttribute.label other.label]) = [] ∨
      (if other.label = "" then [] else [AddressAttribute.label other.label]) =
        [.label other.label] := by
    by_cases hlabel : other.label = ""
    · exact Or.inl (if_pos hlabel)
    · exact Or.inr (if_neg hlabel)
  rw [removalMessage_some, record_isNaming hwhole, isNamed_naming hlabel]
  constructor
  · rintro ⟨hlocal, _, hnetwork⟩
    exact h.eq hentry hother hlocal.symm (entry.prefixLen_of_network hnetwork.symm)
  · rintro rfl
    exact ⟨rfl, Or.inr rfl, rfl⟩

end Named

section Outcome

variable {entry : KernelAddress} {addr : Ipv4Address} {device : DeviceObservation}

/-- The flags that a new address gets are those of the prediction. -/
theorem lifetimeFlags_zero : KernelAddress.lifetimeFlags 0
    { ifaPreferred := addr.lifetimes.2, ifaValid := addr.lifetimes.1 } =
      Netfyr.lifetimeFlags addr := by
  have hflags : KernelAddress.lifetimeFlags 0
      { ifaPreferred := addr.lifetimes.2, ifaValid := addr.lifetimes.1 } =
        (0#32 &&& ~~~(ifaFPermanent ||| ifaFDeprecated)) ||| Netfyr.lifetimeFlags addr := rfl
  rw [hflags, BitVec.zero_and, BitVec.zero_or]

/-- An address is permanent when its valid lifetime never ends. -/
theorem lifetimeFlags_permanent (flags : BitVec 32) (cache : CacheInfo) :
    KernelAddress.lifetimeFlags flags cache &&& ifaFPermanent =
      if cache.ifaValid = u32Max then ifaFPermanent else 0 := by
  unfold KernelAddress.lifetimeFlags
  have hcleared : ~~~(ifaFPermanent ||| ifaFDeprecated) &&& ifaFPermanent = 0#32 := by decide
  rw [BitVec.and_or_distrib_right, BitVec.and_assoc, hcleared, BitVec.and_zero, BitVec.zero_or]
  by_cases hpermanent : cache.ifaValid = u32Max
  · rw [if_pos hpermanent]
    by_cases hdeprecated : cache.ifaPreferred = 0
    · rw [if_pos hdeprecated]
      decide
    · rw [if_neg hdeprecated]
      decide
  · rw [if_neg hpermanent]
    by_cases hdeprecated : cache.ifaPreferred = 0
    · rw [if_pos hdeprecated]
      decide
    · rw [if_neg hdeprecated]
      decide

/-- Lifetimes that the prediction knows are shown as they are. -/
theorem cache_eq (entry : KernelAddress) (hvalid : entry.valid = addr.lifetimes.1)
    (hpreferred : entry.preferred = addr.lifetimes.2)
    (hpermanent : entry.flags &&& ifaFPermanent =
      if addr.lifetimes.1 = u32Max then ifaFPermanent else 0)
    (hknown : addr.lifetimes.1 = u32Max → addr.lifetimes.2 = u32Max) :
    entry.cache = { ifaPreferred := addr.lifetimes.2, ifaValid := addr.lifetimes.1 } := by
  unfold KernelAddress.cache
  rw [hpermanent, hvalid, hpreferred]
  by_cases hends : addr.lifetimes.1 = u32Max
  · rw [if_pos hends, if_pos (by decide), hknown hends, hends]
  · rw [if_neg hends, if_neg (by decide)]

/-- A new address is what the prediction adds. -/
theorem placed_alike {new : KernelAddress} {secondary : Bool}
    (hforeseen : Foreseen (.addIpv4 addr)) (hlocal : new.local' = addr.ip)
    (haddress : new.address = addr.ip) (hlength : new.prefixLen = addr.prefixLen)
    (hscope : new.scope = 0)
    (hflags : new.flags = KernelAddress.lifetimeFlags 0
      { ifaPreferred := addr.lifetimes.2, ifaValid := addr.lifetimes.1 })
    (hvalid : new.valid = addr.lifetimes.1) (hpreferred : new.preferred = addr.lifetimes.2)
    (hsecondary : secondary = device.addresses.any fun entry => entry.kernelGroup == addr.group) :
    Alike (new.placed secondary).seen (addedEntry device addr) := by
  rcases hforeseen with ⟨_, hloopback, hknown⟩
  -- Lifetimes say nothing of being a secondary.
  have hkept : new.flags &&& ~~~ifaFSecondary = Netfyr.lifetimeFlags addr := by
    rw [hflags, lifetimeFlags_zero]
    unfold Netfyr.lifetimeFlags
    dsimp only
    by_cases hpermanent : addr.lifetimes.1 = u32Max
    · rw [if_pos hpermanent]
      by_cases hdeprecated : addr.lifetimes.2 = 0
      · rw [if_pos hdeprecated]
        decide
      · rw [if_neg hdeprecated]
        decide
    · rw [if_neg hpermanent]
      by_cases hdeprecated : addr.lifetimes.2 = 0
      · rw [if_pos hdeprecated]
        decide
      · rw [if_neg hdeprecated]
        decide
  have hplaced : (new.placed secondary).flags = (addedEntry device addr).flags := by
    unfold KernelAddress.placed addedEntry
    dsimp only
    rw [hkept, hsecondary]
  have hpermanent : (new.placed secondary).flags &&& ifaFPermanent =
      if addr.lifetimes.1 = u32Max then ifaFPermanent else 0 := by
    have hnot : ∀ secondary : Bool,
        (if secondary then ifaFSecondary else 0) &&& ifaFPermanent = 0#32 := by decide
    have hown := lifetimeFlags_permanent 0
      { ifaPreferred := addr.lifetimes.2, ifaValid := addr.lifetimes.1 }
    rw [lifetimeFlags_zero] at hown
    unfold KernelAddress.placed
    dsimp only
    rw [hkept, BitVec.and_or_distrib_right, hnot, BitVec.or_zero, hown]
  have hcache := cache_eq (new.placed secondary) hvalid hpreferred hpermanent hknown
  refine ⟨⟨sameIdentity_seen.mpr ⟨hlocal, hlength⟩, ?_, ?_, ?_⟩, ?_, Or.inl ?_⟩
  · unfold addedEntry
    rw [hloopback]
    exact hscope
  · -- The address itself is no peer.
    change (some new.address).filter (fun ip => decide (ip ≠ new.local')) = none
    rw [hlocal, haddress]
    simp only [Option.filter_some, ne_eq, not_true_eq_false, decide_false, Bool.false_eq_true,
      if_false]
  · exact congrArg (· &&& ~~~ifaFDeprecated) hplaced
  · unfold KernelAddress.seen
    rw [hcache]
    rfl
  · exact congrArg (· &&& ifaFDeprecated) hplaced

/-- An address with other lifetimes is what the prediction replaces it by. -/
theorem renews_alike {renewed : KernelAddress} (hforeseen : Foreseen (.replaceIpv4 addr))
    (hrenews : renewed.Renews entry
      { ifaPreferred := addr.lifetimes.2, ifaValid := addr.lifetimes.1 })
    (hlocal : entry.local' = addr.ip) (hlength : entry.prefixLen = addr.prefixLen) :
    Alike renewed.seen (replacedEntry entry.seen addr) := by
  have hpermanent : renewed.flags &&& ifaFPermanent =
      if addr.lifetimes.1 = u32Max then ifaFPermanent else 0 := by
    rw [hrenews.flags]
    exact lifetimeFlags_permanent _ _
  have hcache := cache_eq renewed hrenews.valid hrenews.preferred hpermanent hforeseen
  refine ⟨⟨sameIdentity_seen.mpr ⟨hrenews.local'.trans hlocal, hrenews.prefixLen.trans hlength⟩,
    hrenews.scope, ?_, ?_⟩, ?_, Or.inl ?_⟩
  · unfold KernelAddress.seen replacedEntry
    rw [hrenews.address, hrenews.local']
  · exact congrArg (· &&& ~~~ifaFDeprecated) hrenews.flags
  · unfold KernelAddress.seen
    rw [hcache]
    rfl
  · exact congrArg (· &&& ifaFDeprecated) hrenews.flags

/-- A promoted address is read as one that was promoted. -/
theorem seen_promoted : entry.promoted.seen = entry.seen.promote := by
  have hpermanent : entry.promoted.flags &&& ifaFPermanent = entry.flags &&& ifaFPermanent := by
    unfold KernelAddress.promoted
    dsimp only
    rw [BitVec.and_assoc]
    rfl
  have hcache : entry.promoted.cache = entry.cache := by
    unfold KernelAddress.cache
    rw [hpermanent]
    rfl
  unfold KernelAddress.seen AddressObservation.promote
  rw [hcache]
  rfl

end Outcome

section Square

variable {kernel : AddressKernel} {state left : kernel.State} {index : UInt32}
  {addr : Ipv4Address} {device : DeviceObservation}

/-- An address that is not among those that are seen is not there. -/
theorem not_isSame (hseen : device.addresses = kernel.seen state index)
    (hnone : hasAddress device addr = false) {new entry : KernelAddress}
    (hmem : entry ∈ kernel.addresses state index) (hlocal : new.local' = addr.ip)
    (hlength : new.prefixLen = addr.prefixLen) : entry.isSame new = false := by
  rw [Bool.eq_false_iff]
  intro hsame
  have hhas : hasAddress device addr = true := by
    refine hasAddress_iff.mpr ⟨entry.seen, ?_, sameIdentity_of_isSame hsame hlocal hlength⟩
    rw [hseen]
    exact List.mem_map_of_mem hmem
  rw [hnone] at hhas
  exact Bool.false_ne_true hhas

/-- The lifetimes of the messages of a plan. -/
theorem AddressMessage.AsksFor.lifetimes {message : AddressMessage} {new : KernelAddress}
    (h : message.AsksFor new) (hcache : message.last AddressAttribute.cache? =
      some { ifaPreferred := addr.lifetimes.2, ifaValid := addr.lifetimes.1 }) :
    new.valid = addr.lifetimes.1 ∧ new.preferred = addr.lifetimes.2 := by
  have hsame := h.cache
  rw [hcache, Option.getD_some, CacheInfo.mk.injEq] at hsame
  exact ⟨hsame.2.symm, hsame.1.symm⟩

/-- The message that adds an address does not find it, and leaves what is
    predicted. -/
theorem request_add (hkernel : kernel.Documented) (flags : BitVec 16)
    (hseen : device.addresses = kernel.seen state index) (hforeseen : Foreseen (.addIpv4 addr))
    (hnone : hasAddress device addr = false) :
    kernel.request state (.newAddress (addressMessage index addr true)) flags ≠ .error eexist ∧
    ∀ left, kernel.request state (.newAddress (addressMessage index addr true)) flags = .ok left →
      Foretold (kernel.promoteSecondaries state index) device (.addIpv4 addr)
        (kernel.seen left index) := by
  have hasked : ∀ {new : KernelAddress}, (addressMessage index addr true).AsksFor new →
      new.local' = addr.ip ∧ new.prefixLen = addr.prefixLen := fun hnew =>
    ⟨(Option.some.inj hnew.local').symm, hnew.prefixLen.symm⟩
  constructor
  · intro hrefused
    rcases hkernel.existing _ _ _ rfl hrefused with ⟨_, new, hnew, entry, hmem, hsame⟩
    rcases hasked hnew with ⟨hlocal, hlength⟩
    rw [not_isSame hseen hnone hmem hlocal hlength] at hsame
    exact Bool.false_ne_true hsame
  · intro left hleft
    have hassigned : (addressMessage index addr true).last AddressAttribute.local? ≠ some 0 :=
      fun hzero => hforeseen.1 (Option.some.inj hzero)
    rcases hkernel.adds _ _ _ _ rfl hassigned hleft with ⟨new, hnew, hjoined | hrenewed⟩
    · rcases hasked hnew with ⟨hlocal, hlength⟩
      have hcache : (addressMessage index addr true).last AddressAttribute.cache? =
          some { ifaPreferred := addr.lifetimes.2, ifaValid := addr.lifetimes.1 } := rfl
      rcases hnew.lifetimes hcache with ⟨hvalid, hpreferred⟩
      have haddress : new.address = addr.ip := hnew.address.symm
      have hflags := hnew.flags rfl rfl
      rw [hvalid, hpreferred] at hflags
      -- What is a network of the kernel is a group of the prediction.
      have hnetwork : new.network = addr.group := by
        unfold KernelAddress.network
        rw [haddress, hlength]
        rfl
      have hsecondary : ((kernel.addresses state index).any fun entry =>
          entry.network == new.network) =
          device.addresses.any fun entry => entry.kernelGroup == addr.group := by
        rw [hseen, AddressKernel.seen, List.any_map, hnetwork]
        refine congrArg (fun test => (kernel.addresses state index).any test)
          (funext fun entry => ?_)
        rw [Function.comp_apply, KernelAddress.seen_kernelGroup]
      have hplaced := placed_alike hforeseen hlocal haddress hlength hnew.scope.symm hflags hvalid
        hpreferred hsecondary
      refine ⟨device.addresses, _, List.Perm.refl _, ?_,
        List.rel_append (forall₂_alike_refl _) (.cons hplaced .nil)⟩
      rw [hseen]
      exact (List.perm_append_singleton _ _).trans (hjoined.2.map KernelAddress.seen).symm
    · -- There is no address that could be renewed.
      rcases hasked hnew with ⟨hlocal, hlength⟩
      rcases hrenewed with ⟨entry, _, others, hsame, hentries, _⟩
      rw [not_isSame hseen hnone (hentries.mem_iff.mpr List.mem_cons_self) hlocal hlength] at hsame
      exact absurd hsame Bool.false_ne_true

/-- What a replacement says. -/
theorem last_replacement {own : KernelAddress} (hwhole : own.Whole) (index : UInt32)
    (addr : Ipv4Address) :
    (replacementMessage (some (own.record index)) index addr).last AddressAttribute.local? =
        some own.local' ∧
      (replacementMessage (some (own.record index)) index addr).last AddressAttribute.address? =
        some own.address ∧
      (replacementMessage (some (own.record index)) index addr).last AddressAttribute.cache? =
        some { ifaPreferred := addr.lifetimes.2, ifaValid := addr.lifetimes.1 } := by
  rw [replacementMessage_some, own.record_attributes index hwhole]
  by_cases hlabel : own.label = ""
  · rw [if_pos hlabel]
    cases own.broadcast <;> cases own.protocol <;> cases own.metric <;> exact ⟨rfl, rfl, rfl⟩
  · rw [if_neg hlabel]
    cases own.broadcast <;> cases own.protocol <;> cases own.metric <;> exact ⟨rfl, rfl, rfl⟩

/-- The message that replaces an address may find it, and leaves what is predicted. -/
theorem request_replace (hkernel : kernel.Documented) {own : KernelAddress}
    (hseen : device.addresses = kernel.seen state index)
    (hown : own ∈ kernel.addresses state index) (hwhole : own.Whole) (hlocal : own.local' = addr.ip)
    (hlength : own.prefixLen = addr.prefixLen) (hforeseen : Foreseen (.replaceIpv4 addr)) :
    kernel.request state
        (.newAddress (replacementMessage (some (own.record index)) index addr))
        (Exchange.write.flags ||| nlmFReplace) ≠ .error eexist ∧
    ∀ left, kernel.request state
        (.newAddress (replacementMessage (some (own.record index)) index addr))
        (Exchange.write.flags ||| nlmFReplace) = .ok left →
      Foretold (kernel.promoteSecondaries state index) device (.replaceIpv4 addr)
        (kernel.seen left index) := by
  constructor
  · intro hrefused
    rcases hkernel.existing _ _ _ rfl hrefused with ⟨hexcl | hreplace, _⟩
    · exact hexcl (by decide)
    · exact absurd hreplace (by decide)
  · intro left hleft
    rcases last_replacement hwhole index addr with ⟨hlast, haddress, hcache⟩
    have hassigned : (replacementMessage (some (own.record index)) index addr).last
        AddressAttribute.local? ≠ some 0 := by
      rw [hlast]
      exact fun hzero => hwhole.1 (Option.some.inj hzero)
    rcases hkernel.adds _ _ _ _ rfl hassigned hleft with ⟨new, hnew, houtcome⟩
    have hnewlocal : new.local' = addr.ip := by
      have hsame := hnew.local'
      rw [hlast] at hsame
      exact (Option.some.inj hsame).symm.trans hlocal
    have hnewlength : new.prefixLen = addr.prefixLen := hnew.prefixLen.symm.trans hlength
    rcases hnew.lifetimes hcache with ⟨hvalid, hpreferred⟩
    rcases houtcome with hjoined |
      ⟨entry, renewed, others, hsame, hentries, hrenews, hleft⟩
    · -- The address is there, so it does not join.
      have hagain : own.isSame new = true := by
        have hpeer := hnew.address
        rw [haddress, Option.getD_some] at hpeer
        unfold KernelAddress.isSame KernelAddress.network
        rw [Bool.and_eq_true, beq_iff_eq, beq_iff_eq, hpeer, hnewlength, hlength]
        exact ⟨rfl, hlocal.trans hnewlocal.symm⟩
      rw [hjoined.1 own hown] at hagain
      exact absurd hagain Bool.false_ne_true
    · have hnamed := sameIdentity_of_isSame hsame hnewlocal hnewlength
      rw [hvalid, hpreferred] at hrenews
      -- With the address in front, the prediction is about the first one.
      refine ⟨(entry :: others).map KernelAddress.seen, _, ?_, (hleft.map KernelAddress.seen).symm,
        ?_⟩
      · rw [hseen]
        exact (hentries.map KernelAddress.seen).symm
      · change List.Forall₂ Alike _ (updateFirst (fun entry => entry.address.sameIdentity addr)
          (replacedEntry · addr) (entry.seen :: others.map KernelAddress.seen))
        rw [updateFirst, if_pos hnamed]
        exact .cons (renews_alike hforeseen hrenews (sameIdentity_seen.mp hnamed).1
          (sameIdentity_seen.mp hnamed).2) (forall₂_alike_refl _)

/-- An address goes with a removed primary as it is read to cascade with it. -/
theorem goesWith_eq (hkernel : kernel.Documented) {entry primary : KernelAddress}
    (hentry : entry ∈ kernel.addresses state index)
    (hprimary : primary ∈ kernel.addresses state index) :
    entry.goesWith primary = entry.seen.cascadesWith primary.seen := by
  unfold KernelAddress.goesWith AddressObservation.cascadesWith
  rw [KernelAddress.seen_isSecondary, KernelAddress.seen_kernelGroup,
    KernelAddress.seen_kernelGroup]
  by_cases hnetwork : entry.network = primary.network
  · -- Addresses of one network have one scope.
    have hscope := hkernel.scopes state index entry hentry primary hprimary hnetwork
    rw [hnetwork, KernelAddress.seen_scope, KernelAddress.seen_scope, hscope]
    simp only [beq_self_eq_true]
  · have hother : ¬ (entry.network, entry.seen.scope) = (primary.network, primary.seen.scope) :=
      fun heq => hnetwork (congrArg Prod.fst heq)
    rw [beq_false_of_ne hnetwork, beq_false_of_ne hother]

/-- The removal of an address in front, which is in no other place. -/
theorem kernelRemove_cons {promoteSecondaries : Bool} {gone : AddressObservation}
    {rest : List AddressObservation} (hgone : gone.address.sameIdentity addr = true)
    (hrest : ∀ entry ∈ rest, entry.address.sameIdentity addr = false) :
    kernelRemove promoteSecondaries addr (gone :: rest) =
      if gone.isSecondary = true then rest else cascade promoteSecondaries gone rest := by
  have hleft : restOf addr (gone :: rest) = rest := by
    unfold restOf
    rw [List.filter_cons_of_neg (by rw [hgone]; exact Bool.false_ne_true), List.filter_eq_self]
    intro entry hmem
    rw [hrest entry hmem]
    rfl
  unfold kernelRemove
  rw [hleft, List.find?_cons, hgone]
  cases hsecondary : gone.isSecondary with
  | false => rfl
  | true =>
      have hnone : rest.find? (fun entry =>
          entry.address.sameIdentity addr && !entry.isSecondary) = none := by
        refine List.find?_eq_none.mpr fun entry hmem => ?_
        rw [hrest entry hmem]
        exact Bool.false_ne_true
      rw [Bool.not_true, Bool.and_false]
      dsimp only
      rw [hnone, if_pos rfl]

/-- What survives an address is read as the prediction has it, with the address
    in front, and behind it the one that is promoted. -/
theorem survived_foretold {gone : KernelAddress} {others left : List KernelAddress}
    {promoteSecondaries : Bool} (hsurvived : Survived gone others promoteSecondaries left)
    (hgone : gone.seen.address.sameIdentity addr = true)
    (hothers : ∀ entry ∈ others, entry.seen.address.sameIdentity addr = false)
    (hgoes : ∀ entry ∈ others, entry.goesWith gone = entry.seen.cascadesWith gone.seen)
    (hdevice : device.addresses.Perm ((gone :: others).map KernelAddress.seen)) :
    Foretold promoteSecondaries device (.removeIpv4 addr) (left.map KernelAddress.seen) := by
  have hseen : ∀ entries : List KernelAddress, (∀ entry ∈ entries, entry ∈ others) →
      ∀ seen ∈ entries.map KernelAddress.seen, seen.address.sameIdentity addr = false := by
    intro entries hentries seen hmem
    rcases List.mem_map.mp hmem with ⟨entry, hentry, rfl⟩
    exact hothers entry (hentries entry hentry)
  have hall : kernelRemove promoteSecondaries addr
      (gone.seen :: others.map KernelAddress.seen) =
        if gone.isSecondary = true then others.map KernelAddress.seen
        else cascade promoteSecondaries gone.seen (others.map KernelAddress.seen) :=
    kernelRemove_cons hgone (hseen others fun _ hentry => hentry)
  cases hsurvived with
  | secondary hsecondary hleft =>
      refine ⟨_, _, hdevice.symm, (hleft.map KernelAddress.seen).symm, ?_⟩
      change List.Forall₂ Alike _ (kernelRemove _ _ (gone.seen :: others.map KernelAddress.seen))
      rw [hall, if_pos hsecondary]
      exact forall₂_alike_refl _
  | deleted hprimary hleft =>
      refine ⟨_, _, hdevice.symm, (hleft.map KernelAddress.seen).symm, ?_⟩
      change List.Forall₂ Alike _ (kernelRemove _ _ (gone.seen :: others.map KernelAddress.seen))
      have hkept : (others.map KernelAddress.seen).filter (!·.cascadesWith gone.seen) =
          (others.filter (!·.goesWith gone)).map KernelAddress.seen := by
        rw [List.filter_map]
        refine congrArg (List.map _) (List.filter_congr fun entry hmem => ?_)
        rw [Function.comp_apply, hgoes entry hmem]
      rw [hall, if_neg (by rw [hprimary]; exact Bool.false_ne_true), cascade,
        if_neg Bool.false_ne_true, hkept]
      exact forall₂_alike_refl _
  | alone hprimary halone hleft =>
      refine ⟨_, _, hdevice.symm, (hleft.map KernelAddress.seen).symm, ?_⟩
      change List.Forall₂ Alike _ (kernelRemove _ _ (gone.seen :: others.map KernelAddress.seen))
      rw [hall, if_neg (by rw [hprimary]; exact Bool.false_ne_true), cascade, if_pos rfl,
        updateFirst_eq_self]
      · exact forall₂_alike_refl _
      · intro seen hmem
        rcases List.mem_map.mp hmem with ⟨entry, hentry, rfl⟩
        rw [← hgoes entry hentry]
        exact halone entry hentry
  | @promoted next rest _ hprimary hnext hperm hleft =>
      refine ⟨(gone :: next :: rest).map KernelAddress.seen, _, ?_,
        (hleft.map KernelAddress.seen).symm, ?_⟩
      · exact ((hperm.cons gone).map KernelAddress.seen).symm.trans hdevice.symm
      · have hcascades : next.seen.cascadesWith gone.seen = true := by
          rw [← hgoes next (hperm.mem_iff.mpr List.mem_cons_self)]
          exact hnext
        have hpromoted : kernelRemove true addr
            (gone.seen :: next.seen :: rest.map KernelAddress.seen) =
              if gone.isSecondary = true then next.seen :: rest.map KernelAddress.seen
              else cascade true gone.seen (next.seen :: rest.map KernelAddress.seen) :=
          kernelRemove_cons hgone (hseen (next :: rest) fun _ hentry => hperm.mem_iff.mpr hentry)
        rw [if_neg (by rw [hprimary]; exact Bool.false_ne_true), cascade, if_pos rfl, updateFirst,
          if_pos hcascades, ← seen_promoted] at hpromoted
        change List.Forall₂ Alike _
          (kernelRemove _ _ (gone.seen :: next.seen :: rest.map KernelAddress.seen))
        rw [hpromoted]
        exact forall₂_alike_refl _

/-- The message that removes an address does not miss it, and leaves what is
    predicted. -/
theorem request_remove (hkernel : kernel.Documented) {own : KernelAddress} (flags : BitVec 16)
    (hseen : device.addresses = kernel.seen state index)
    (hdistinct : KernelAddress.Distinct index (kernel.addresses state index))
    (hown : own ∈ kernel.addresses state index) (hwhole : own.Whole) (hlocal : own.local' = addr.ip)
    (hlength : own.prefixLen = addr.prefixLen) :
    kernel.request state
        (.delAddress (removalMessage (some (own.record index)) index addr)) flags ≠
      .error eaddrnotavail ∧
    ∀ left, kernel.request state
        (.delAddress (removalMessage (some (own.record index)) index addr)) flags = .ok left →
      Foretold (kernel.promoteSecondaries state index) device (.removeIpv4 addr)
        (kernel.seen left index) := by
  constructor
  · intro hrefused
    have hmissing := hkernel.missing _ _ _ rfl hrefused own hown
    rw [(isNamed_iff hdistinct hown hown hwhole).mpr rfl] at hmissing
    exact Bool.false_ne_true hmissing.symm
  · intro left hleft
    rcases hkernel.deletes _ _ _ _ rfl hleft with ⟨gone, others, hnamed, hentries, hsurvived⟩
    have hgone : gone ∈ kernel.addresses state index := hentries.mem_iff.mpr List.mem_cons_self
    -- What is deleted is the address, and no other is read as it.
    obtain rfl := (isNamed_iff hdistinct hgone hown hwhole).mp hnamed
    have hnodup : (gone :: others).Nodup :=
      hentries.nodup_iff.mp ((hdistinct.of_map _).of_map _)
    have hothers : ∀ entry ∈ others, entry ∈ kernel.addresses state index := fun entry hmem =>
      hentries.mem_iff.mpr (List.mem_cons_of_mem _ hmem)
    refine survived_foretold hsurvived (sameIdentity_seen.mpr ⟨hlocal, hlength⟩) ?_
      (fun entry hmem => goesWith_eq hkernel (hothers entry hmem) hgone) ?_
    · intro entry hmem
      rw [Bool.eq_false_iff]
      intro hsame
      rcases sameIdentity_seen.mp hsame with ⟨hip, hprefixes⟩
      obtain rfl := hdistinct.eq (hothers entry hmem) hgone (hip.trans hlocal.symm)
        (hprefixes.trans hlength.symm)
      exact (List.nodup_cons.mp hnodup).1 hmem
    · rw [hseen]
      exact hentries.map KernelAddress.seen

/-- The record that an address of a plan is written by. -/
theorem exists_own {records : List (AddressKey × AddressMessage)}
    (hseen : device.addresses = kernel.seen state index)
    (hrecords : ∀ entry ∈ kernel.addresses state index,
      records.lookup (entry.seen.key index) = some (entry.record index))
    (hhas : hasAddress device addr = true) :
    ∃ own ∈ kernel.addresses state index, own.local' = addr.ip ∧ own.prefixLen = addr.prefixLen ∧
      records.lookup ⟨index, addr.ip, addr.prefixLen⟩ = some (own.record index) := by
  rcases hasAddress_iff.mp hhas with ⟨seen, hmem, hsame⟩
  rw [hseen] at hmem
  rcases List.mem_map.mp hmem with ⟨own, hown, rfl⟩
  rcases sameIdentity_seen.mp hsame with ⟨hlocal, hlength⟩
  refine ⟨own, hown, hlocal, hlength, ?_⟩
  rw [← hrecords own hown, ← hlocal, ← hlength]
  rfl

/-- The square: the message of an operation does to an interface what the
    operation does to what is read of it. It is not refused for an address that
    is there already, or not there. -/
theorem request_written (hkernel : kernel.Documented)
    {records : List (AddressKey × AddressMessage)} {target : InterfaceId}
    {op : Operation} {kind : OperationKind} {message : RouteNetlinkMessage} {extra : BitVec 16}
    (hseen : device.addresses = kernel.seen state target.index)
    (hwhole : ∀ entry ∈ kernel.addresses state target.index, entry.Whole)
    (hdistinct : KernelAddress.Distinct target.index (kernel.addresses state target.index))
    (hrecords : ∀ entry ∈ kernel.addresses state target.index,
      records.lookup (entry.seen.key target.index) = some (entry.record target.index))
    (haddr : kind.ipv4Address = some addr) (hunsatisfied : satisfied kind device op = .ok false)
    (hforeseen : Foreseen kind)
    (hwritten : writeMessage records target kind = .ok (message, extra)) :
    (∀ errno, kernel.request state message (Exchange.write.flags ||| extra) = .error errno →
      message.isOutdated errno = false) ∧
    ∀ left, kernel.request state message (Exchange.write.flags ||| extra) = .ok left →
      Foretold (kernel.promoteSecondaries state target.index) device kind
        (kernel.seen left target.index) := by
  cases kind with
  | setField _ _ | setMtu _ | setEnabled _ | addEntity | removeEntity =>
      exact absurd haddr (by simp only [OperationKind.ipv4Address, reduceCtorEq, not_false_eq_true])
  | addIpv4 added =>
      obtain rfl : added = addr := Option.some.inj haddr
      rw [writeMessage, Except.ok.injEq, Prod.mk.injEq] at hwritten
      rcases hwritten with ⟨rfl, rfl⟩
      -- An operation that is not satisfied has no address of its name there.
      have hnone : hasAddress device added = false := by
        unfold satisfied at hunsatisfied
        dsimp only at hunsatisfied
        cases hfind : device.addresses.find? fun entry => entry.address.sameIdentity added with
        | none => exact List.any_eq_false.mpr (List.find?_eq_none.mp hfind)
        | some existing =>
            rw [hfind] at hunsatisfied
            dsimp only at hunsatisfied
            split at hunsatisfied
            · exact absurd hunsatisfied (by simp only [Except.ok.injEq, Bool.true_eq_false,
                not_false_eq_true])
            · exact absurd hunsatisfied (by simp only [reduceCtorEq, not_false_eq_true])
      rcases request_add hkernel (Exchange.write.flags ||| (nlmFCreate ||| nlmFExcl)) hseen
        hforeseen hnone with ⟨hnew, houtcome⟩
      refine ⟨fun errno hrefused => beq_false_of_ne ?_, houtcome⟩
      rintro rfl
      exact hnew hrefused
  | replaceIpv4 replaced =>
      obtain rfl : replaced = addr := Option.some.inj haddr
      rw [writeMessage, Except.ok.injEq, Prod.mk.injEq] at hwritten
      rcases hwritten with ⟨rfl, rfl⟩
      have hhas : hasAddress device replaced = true := by
        unfold satisfied at hunsatisfied
        dsimp only at hunsatisfied
        cases hfind : device.addresses.find? fun entry => entry.address.sameIdentity replaced with
        | none =>
            rw [hfind] at hunsatisfied
            exact absurd hunsatisfied (by simp only [reduceCtorEq, not_false_eq_true])
        | some existing =>
            exact hasAddress_iff.mpr ⟨existing, List.mem_of_find?_eq_some hfind,
              List.find?_some (p := fun entry : AddressObservation =>
                entry.address.sameIdentity replaced) hfind⟩
      rcases exists_own hseen hrecords hhas with ⟨own, hown, hlocal, hlength, hlookup⟩
      rcases request_replace hkernel hseen hown (hwhole own hown) hlocal hlength hforeseen with
        ⟨hnew, houtcome⟩
      rw [hlookup]
      refine ⟨fun errno hrefused => beq_false_of_ne ?_, houtcome⟩
      rintro rfl
      exact hnew hrefused
  | removeIpv4 removed =>
      obtain rfl : removed = addr := Option.some.inj haddr
      rw [writeMessage, Except.ok.injEq, Prod.mk.injEq] at hwritten
      rcases hwritten with ⟨rfl, rfl⟩
      have hhas : hasAddress device removed = true := by
        rw [satisfied, Except.ok.injEq, Bool.not_eq_false'] at hunsatisfied
        exact hunsatisfied
      rcases exists_own hseen hrecords hhas with ⟨own, hown, hlocal, hlength, hlookup⟩
      rcases request_remove hkernel (Exchange.write.flags ||| 0) hseen hdistinct hown
        (hwhole own hown) hlocal hlength with ⟨hthere, houtcome⟩
      rw [hlookup]
      refine ⟨fun errno hrefused => beq_false_of_ne ?_, houtcome⟩
      rintro rfl
      exact hthere hrefused

end Square
end Netfyr
