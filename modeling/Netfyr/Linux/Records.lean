import Netfyr.Data.Checked
import Netfyr.Linux.Message

/-!
# Address Records

The records that are written denote what the reader of records would observe. A
record is a list of attributes in any order and with repeats, of which the last
of each kind counts, and the writers edit such lists. The reader folds over the
list, so an edit is a fold that leaves attributes out, and what the reader makes
of the edited list is what it makes of the whole with the edited part hidden.

## Main definitions

* `Ipv4Address.resolved`: An address with the lifetimes that it asks for.
* `namedAddress`: The local address and the peer that a record names.

## Theorems

* `parseAddress_ok_iff`: What the reader accepts.
* `parseAddress_written`: What is read of the records that are written.
-/

namespace Netfyr

/-- An address with the lifetimes that it asks for written out. -/
def Ipv4Address.resolved (self : Ipv4Address) : Ipv4Address :=
  { self with validLft := some self.lifetimes.1, preferredLft := some self.lifetimes.2 }

/-- What the reader knows before the attributes of a record. -/
def AddressParts.start (message : AddressMessage) : AddressParts :=
  { local' := none, address := none, flags := message.flags.setWidth 32, cache := none }

/-- The local address and the peer that a record names, if it names one. -/
def namedAddress (message : AddressMessage) :
    Except String (Option (Ipv4Addr × Option Ipv4Addr)) := do
  let parts ← message.attributes.foldlM readAddressAttribute (.start message)
  pure ((parts.local'.or parts.address).map fun ip => (ip, parts.address.filter (· ≠ ip)))

/-- Whether an attribute says which address a record is about. -/
def AddressAttribute.isNaming : AddressAttribute → Bool
  | .local' _ | .address _ | .label _ => true
  | .flags _ | .cacheInfo _ | .other => false

/-- Whether an attribute is not about lifetimes. -/
def AddressAttribute.isTimeless : AddressAttribute → Bool
  | .cacheInfo _ => false
  | _ => true

section Reader

variable {message : AddressMessage} {observation : AddressObservation} {addr : Ipv4Address}

/-- The reader accepts an IPv4 record with a local address and lifetimes in
    order, and this is what it observes. -/
theorem parseAddress_ok_iff : parseAddress message = .ok observation ↔
    message.family = .inet ∧ message.prefixLen ≤ 32 ∧ ∃ parts ip cache,
      message.attributes.foldlM readAddressAttribute (.start message) = .ok parts ∧
        parts.local'.or parts.address = some ip ∧ parts.cache = some cache ∧
          cache.ifaPreferred ≤ cache.ifaValid ∧
            observation =
              { address :=
                  { ip, prefixLen := message.prefixLen, validLft := some cache.ifaValid,
                    preferredLft := some cache.ifaPreferred }
                flags := parts.flags
                scope := message.scope
                peer := parts.address.filter (· ≠ ip) } := by
  constructor
  · intro h
    rw [parseAddress] at h
    split at h
    · exact absurd h (by simp only [reduceCtorEq, not_false_eq_true])
    · next hheader =>
        rcases except_bind_eq_ok.mp h with ⟨parts, hparts, h⟩
        rw [not_or, not_not, UInt8.not_lt] at hheader
        refine ⟨hheader.1, hheader.2, parts, ?_⟩
        -- Past the header, a record is refused for what it does not say.
        split at h
        · exact absurd h (by simp only [reduceCtorEq, not_false_eq_true])
        · next ip hip =>
            split at h
            · exact absurd h (by simp only [reduceCtorEq, not_false_eq_true])
            · next cache hcache =>
                split at h
                · exact absurd h (by simp only [reduceCtorEq, not_false_eq_true])
                · next horder =>
                    exact ⟨ip, cache, hparts, hip, hcache, UInt32.not_lt.mp horder,
                      (Except.ok.inj h).symm⟩
  · rintro ⟨hfamily, hlength, parts, ip, cache, hparts, hip, hcache, horder, rfl⟩
    have hheader : ¬ (message.family ≠ .inet ∨ 32 < message.prefixLen) := by
      rw [not_or, not_not, UInt8.not_lt]
      exact ⟨hfamily, hlength⟩
    rw [parseAddress, if_neg hheader]
    refine except_bind_eq_ok.mpr ⟨parts, hparts, ?_⟩
    rw [hip, hcache]
    exact if_neg (UInt32.not_lt.mpr horder)

/-- The address that the reader observes is the one that the record names. -/
theorem namedAddress_of_parseAddress (h : parseAddress message = .ok observation) :
    namedAddress message = .ok (some (observation.address.ip, observation.peer)) := by
  rcases parseAddress_ok_iff.mp h with ⟨_, _, parts, ip, _, hparts, hip, _, _, rfl⟩
  refine except_bind_eq_ok.mpr ⟨parts, hparts, ?_⟩
  rw [hip]
  rfl

end Reader

section Edits

/-- Lifetimes do not show in what is read of the other attributes. -/
theorem readAddressAttribute_isTimeless {parts parts' : AddressParts} {attr : AddressAttribute}
    (hkeep : attr.isTimeless = true) (h : readAddressAttribute parts attr = .ok parts') :
    readAddressAttribute { parts with cache := none } attr = .ok { parts' with cache := none } := by
  rcases attr with ⟨_ | _⟩ | ⟨_ | _⟩ | _ | _ | _ | _
  case cacheInfo => exact absurd hkeep (by simp only [AddressAttribute.isTimeless,
    Bool.false_eq_true, not_false_eq_true])
  all_goals
    first
    | (obtain rfl := Except.ok.inj h; rfl)
    | exact absurd h (by simp only [readAddressAttribute, reduceCtorEq, not_false_eq_true])

/-- Flags and lifetimes do not show in what is read of the naming attributes. -/
theorem readAddressAttribute_isNaming {parts parts' : AddressParts} {attr : AddressAttribute}
    (bits : BitVec 32) (hkeep : attr.isNaming = true)
    (h : readAddressAttribute parts attr = .ok parts') :
    readAddressAttribute { parts with flags := bits, cache := none } attr =
      .ok { parts' with flags := bits, cache := none } := by
  rcases attr with ⟨_ | _⟩ | ⟨_ | _⟩ | _ | _ | _ | _
  case flags | cacheInfo | other => exact absurd hkeep (by simp only [AddressAttribute.isNaming,
    Bool.false_eq_true, not_false_eq_true])
  all_goals
    first
    | (obtain rfl := Except.ok.inj h; rfl)
    | exact absurd h (by simp only [readAddressAttribute, reduceCtorEq, not_false_eq_true])

/-- What is read of a record without its lifetimes is what is read of the whole,
    without lifetimes. -/
theorem foldlM_isTimeless {attributes : List AddressAttribute} {parts parts' : AddressParts}
    (h : attributes.foldlM readAddressAttribute parts = .ok parts') :
    (attributes.filter AddressAttribute.isTimeless).foldlM readAddressAttribute
      { parts with cache := none } = .ok { parts' with cache := none } := by
  refine foldlM_filter_view (fun parts : AddressParts => { parts with cache := none })
    (fun _ _ _ hkeep hread => readAddressAttribute_isTimeless hkeep hread) ?_ h
  intro parts attr next hdrop hread
  cases attr with
  | cacheInfo cache => rw [← Except.ok.inj hread]
  | local' _ | address _ | flags _ | label _ | other =>
      exact absurd hdrop (by simp only [AddressAttribute.isTimeless, reduceCtorEq,
        not_false_eq_true])

/-- What is read of the naming attributes is what is read of the whole, with the
    flags and the lifetimes hidden. -/
theorem foldlM_isNaming {attributes : List AddressAttribute} {parts parts' : AddressParts}
    (bits : BitVec 32) (h : attributes.foldlM readAddressAttribute parts = .ok parts') :
    (attributes.filter AddressAttribute.isNaming).foldlM readAddressAttribute
      { parts with flags := bits, cache := none } =
        .ok { parts' with flags := bits, cache := none } := by
  refine foldlM_filter_view
    (fun parts : AddressParts => { parts with flags := bits, cache := none })
    (fun _ _ _ hkeep hread => readAddressAttribute_isNaming bits hkeep hread) ?_ h
  intro parts attr next hdrop hread
  cases attr with
  | flags _ | cacheInfo _ | other => rw [← Except.ok.inj hread]
  | local' _ | address _ | label _ =>
      exact absurd hdrop (by simp only [AddressAttribute.isNaming, reduceCtorEq,
        not_false_eq_true])

theorem replacementMessage_some (message : AddressMessage) (index : UInt32) (addr : Ipv4Address) :
    replacementMessage (some message) index addr =
      { message with
        attributes :=
          message.attributes.filter AddressAttribute.isTimeless ++ [cacheInfo addr] } := by
  unfold replacementMessage
  refine congrArg (fun kept => { message with attributes := kept ++ [cacheInfo addr] }) ?_
  refine List.filter_congr fun attr _ => ?_
  cases attr with
  | local' _ | address _ | flags _ | cacheInfo _ | label _ | other => rfl

theorem removalMessage_some (message : AddressMessage) (index : UInt32) (addr : Ipv4Address) :
    removalMessage (some message) index addr =
      { message with attributes := message.attributes.filter AddressAttribute.isNaming } := by
  unfold removalMessage
  refine congrArg (fun kept => { message with attributes := kept }) ?_
  refine List.filter_congr fun attr _ => ?_
  cases attr with
  | local' _ | address _ | flags _ | cacheInfo _ | label _ | other => rfl

end Edits

section Written

variable {message : AddressMessage} {observation : AddressObservation} {addr : Ipv4Address}

/-- A new record is observed as the address, with no peer and no flags. -/
theorem parseAddress_addressMessage (index : UInt32) (h : addr.validate = .ok ()) :
    parseAddress (addressMessage index addr true) =
      .ok { address := addr.resolved, flags := 0, scope := 0, peer := none } := by
  rcases Ipv4Address.validate_ok_iff.mp h with ⟨hlength, _, horder⟩
  refine parseAddress_ok_iff.mpr ⟨rfl, hlength, _, addr.ip, _, rfl, rfl, rfl, horder, ?_⟩
  -- Local address and address are one, so there is no peer.
  rw [show Option.filter (fun ip => decide (ip ≠ addr.ip)) (some addr.ip) = none by
    simp only [Option.filter_some, ne_eq, not_true_eq_false, decide_false, Bool.false_eq_true,
      if_false]]
  rfl

/-- A replacement is observed as the record that it replaces, but for the
    lifetimes. -/
theorem parseAddress_replacementMessage (index : UInt32)
    (hobserved : parseAddress message = .ok observation) (hvalid : addr.validate = .ok ()) :
    parseAddress (replacementMessage (some message) index addr) =
      .ok { observation with
        address := { observation.address with
          validLft := some addr.lifetimes.1
          preferredLft := some addr.lifetimes.2 } } := by
  rcases Ipv4Address.validate_ok_iff.mp hvalid with ⟨_, _, horder⟩
  rcases parseAddress_ok_iff.mp hobserved with
    ⟨hfamily, hlength, parts, ip, cache, hparts, hip, _, _, rfl⟩
  rw [replacementMessage_some]
  have hkept := foldlM_isTimeless hparts
  have hread : (message.attributes.filter AddressAttribute.isTimeless ++
      [cacheInfo addr]).foldlM readAddressAttribute (.start message) =
        .ok { parts with
          cache := some { ifaPreferred := addr.lifetimes.2, ifaValid := addr.lifetimes.1 } } := by
    rw [List.foldlM_append]
    -- The record said nothing of lifetimes at the start either.
    exact except_bind_eq_ok.mpr ⟨_, hkept, rfl⟩
  exact parseAddress_ok_iff.mpr
    ⟨hfamily, hlength, _, ip, _, hread, hip, rfl, horder, rfl⟩

/-- A removal names what the record names. -/
theorem namedAddress_removalMessage (index : UInt32) (addr : Ipv4Address)
    (hobserved : parseAddress message = .ok observation) :
    namedAddress (removalMessage (some message) index addr) =
      .ok (some (observation.address.ip, observation.peer)) := by
  rcases parseAddress_ok_iff.mp hobserved with ⟨_, _, parts, ip, _, hparts, hip, _, _, rfl⟩
  rw [removalMessage_some]
  have hread := foldlM_isNaming (message.flags.setWidth 32) hparts
  refine except_bind_eq_ok.mpr ⟨_, hread, ?_⟩
  rw [hip]
  rfl

/-- What is read of the records that are written: a new one is the address that
    was asked for, a replacement is the observed one with other lifetimes, and a
    removal is about the observed local address and peer. -/
theorem parseAddress_written :
    (∀ (index : UInt32) (addr : Ipv4Address), addr.validate = .ok () →
      parseAddress (addressMessage index addr true) =
        .ok { address := addr.resolved, flags := 0, scope := 0, peer := none }) ∧
    (∀ (message : AddressMessage) (observation : AddressObservation),
      parseAddress message = .ok observation →
        ∀ (index : UInt32) (desired : Ipv4Address), desired.validate = .ok () →
          desired.sameIdentity observation.address = true →
            parseAddress (replacementMessage (some message) index desired) =
              .ok { observation with address := desired.resolved }) ∧
    ∀ (message : AddressMessage) (observation : AddressObservation),
      parseAddress message = .ok observation → ∀ index : UInt32,
        removalMessage (some message) index observation.address =
            { message with
              attributes := message.attributes.filter AddressAttribute.isNaming } ∧
          namedAddress message = .ok (some (observation.address.ip, observation.peer)) ∧
          namedAddress (removalMessage (some message) index observation.address) =
            .ok (some (observation.address.ip, observation.peer)) := by
  refine ⟨fun index addr => parseAddress_addressMessage index, ?_, ?_⟩
  · intro message observation hobserved index desired hvalid hsame
    rw [parseAddress_replacementMessage index hobserved hvalid]
    rcases Ipv4Address.sameIdentity_iff.mp hsame with ⟨hip, hlength⟩
    unfold Ipv4Address.resolved
    rw [hip, hlength]
  · intro message observation hobserved index
    exact ⟨removalMessage_some message index observation.address,
      namedAddress_of_parseAddress hobserved,
      namedAddress_removalMessage index observation.address hobserved⟩

end Written

end Netfyr
