import Netfyr.Backend.Report
import Netfyr.Schema.Validate

/-!
# Decoding and Locating

The two questions asked of an operation before its device is looked at: what
does it ask for, in terms the backend can execute, and where in an observation
is the device it was planned for.

## Main definitions

* `decode`: The executable form of an operation's kind.
* `locate`: The position of a target in an observation.
* `Located`: The device of a target in an observation.

## Theorems

* `validate_of_checkDecoded`: An address to be added is valid.
* `decode_some`: What a kind decodes to.
* `decode_address`: An operation on an address decodes to itself.
* `Located.unique`: A target is in one place.
* `locate_eq_ok`: What a located device is.
-/

namespace Netfyr

/-- The executable form of an assignment; `none` is a read-only field. -/
def decodeSetField (field : String) (value : Value) (schema : SchemaRegistry) :
    Except BackendError (Option OperationKind) :=
  let (fragment, name) := (splitOnce field '.').getD ("base", field)
  match schema.fieldInfo fragment name with
  | none => .error (.new .unsupportedOperation s!"unknown field {field}")
  | some info =>
      if !info.writable then .ok none
      else if field = "mtu" then
        match value with
        | .u64 mtu =>
            if mtu.toNat < 2 ^ 32 then .ok (some (.setMtu mtu.toUInt32))
            else .error (.new .unsupportedOperation "MTU overflows u32")
        | _ => unsupported
      else if field = "enabled" then
        match value with
        | .bool enabled => .ok (some (.setEnabled enabled))
        | _ => unsupported
      else unsupported
where
  /-- An assignment that is no executable operation. -/
  unsupported : Except BackendError (Option OperationKind) :=
    .error (.new .unsupportedOperation
      s!"unsupported assignment to {field}; use explicit address operations")

/-- The state of a device with an MTU and nothing else. -/
def mtuState (mtu : UInt32) : State :=
  (State.new .kernel).setField "mtu" (.u64 mtu.toUInt64) trivial

/-- Check an executable operation: the MTU by its schema, an address by its own
    rules. -/
def checkDecoded (kind : OperationKind) (schema : SchemaRegistry) : Except BackendError Unit :=
  match kind with
  | .setMtu mtu =>
      let errors := schema.validateWritable (mtuState mtu)
      if errors = [] then .ok ()
      else .error (.new .unsupportedOperation
        ("; ".intercalate (errors.map ValidationError.display)))
  | .addIpv4 addr | .replaceIpv4 addr =>
      match addr.validate with
      | .ok () => .ok ()
      | .error reason => .error (.new .unsupportedOperation reason.display)
  | .removeIpv4 addr =>
      if addr.group = none then .error (.new .unsupportedOperation "IPv4 prefix length exceeds 32")
      else .ok ()
  | _ => .ok ()

/-- The executable form of an operation's kind; `none` is the assignment of a
    read-only field, which is skipped rather than written. -/
def decode (kind : OperationKind) (schema : SchemaRegistry) :
    Except BackendError (Option OperationKind) :=
  let decoded := match kind with
    | .setField field value => decodeSetField field value schema
    | .addEntity | .removeEntity =>
        .error (.new .unsupportedOperation
          "whole-interface lifecycle operations are not supported")
    | other => .ok (some other)
  match decoded with
  | .error e => .error e
  | .ok none => .ok none
  | .ok (some kind) =>
      match checkDecoded kind schema with
      | .error e => .error e
      | .ok () => .ok (some kind)

/-- An executable assignment sets the MTU or the administrative state. -/
theorem decodeSetField_some {field : String} {value : Value} {schema : SchemaRegistry}
    {kind : OperationKind} (h : decodeSetField field value schema = .ok (some kind)) :
    (∃ mtu, kind = .setMtu mtu) ∨ ∃ enabled, kind = .setEnabled enabled := by
  unfold decodeSetField at h
  simp only at h
  split at h
  · exact absurd h (by simp)
  split at h
  · exact absurd h (by simp)
  split at h
  · split at h
    · split at h
      · next mtu _ =>
          have heq : OperationKind.setMtu mtu.toUInt32 = kind := by simpa using h
          exact Or.inl ⟨_, heq.symm⟩
      · exact absurd h (by simp)
    · exact absurd h (by simp [decodeSetField.unsupported])
  · split at h
    · split at h
      · next enabled =>
          have heq : OperationKind.setEnabled enabled = kind := by simpa using h
          exact Or.inr ⟨_, heq.symm⟩
      · exact absurd h (by simp [decodeSetField.unsupported])
    · exact absurd h (by simp [decodeSetField.unsupported])

/-- What a kind decodes to is itself, or an assignment in executable form. -/
theorem decode_some {kind decoded : OperationKind} {schema : SchemaRegistry}
    (h : decode kind schema = .ok (some decoded)) :
    (decoded = kind ∧ ∀ field value, kind ≠ .setField field value ∧ kind ≠ .addEntity ∧
      kind ≠ .removeEntity) ∨
      (∃ mtu, decoded = .setMtu mtu) ∨ ∃ enabled, decoded = .setEnabled enabled := by
  have hsame : ∀ {other : OperationKind}, (match checkDecoded other schema with
      | .error e => (.error e : Except BackendError (Option OperationKind))
      | .ok () => .ok (some other)) = .ok (some decoded) → decoded = other := by
    intro other hother
    split at hother
    · exact absurd hother (by simp)
    · have heq : other = decoded := by simpa using hother
      exact heq.symm
  unfold decode at h
  cases kind with
  | setField field value =>
      simp only at h
      split at h
      · exact absurd h (by simp)
      · exact absurd h (by simp)
      · next hdecoded =>
          rw [hsame h]
          exact Or.inr (decodeSetField_some hdecoded)
  | addEntity => exact absurd h (by simp)
  | removeEntity => exact absurd h (by simp)
  | setMtu _ => exact Or.inl ⟨hsame h, fun _ _ => by simp⟩
  | setEnabled _ => exact Or.inl ⟨hsame h, fun _ _ => by simp⟩
  | addIpv4 _ => exact Or.inl ⟨hsame h, fun _ _ => by simp⟩
  | removeIpv4 _ => exact Or.inl ⟨hsame h, fun _ _ => by simp⟩
  | replaceIpv4 _ => exact Or.inl ⟨hsame h, fun _ _ => by simp⟩

/-- An executable operation has passed its check. -/
theorem decode_checked {kind decoded : OperationKind} {schema : SchemaRegistry}
    (h : decode kind schema = .ok (some decoded)) : checkDecoded decoded schema = .ok () := by
  unfold decode at h
  simp only at h
  split at h
  · exact absurd h (by simp)
  · exact absurd h (by simp)
  · next candidate _ =>
      split at h
      · exact absurd h (by simp)
      · next hchecked =>
          have heq : candidate = decoded := by simpa using h
          rw [← heq]
          exact hchecked

/-- An address to be added has passed its own rules. -/
theorem validate_of_checkDecoded {kind : OperationKind} {addr : Ipv4Address}
    {schema : SchemaRegistry} (hkind : kind = .addIpv4 addr ∨ kind = .replaceIpv4 addr)
    (h : checkDecoded kind schema = .ok ()) : addr.validate = .ok () := by
  have hadd : checkDecoded (.addIpv4 addr) schema = .ok () := by
    rcases hkind with rfl | rfl <;> exact h
  unfold checkDecoded at hadd
  simp only at hadd
  split at hadd
  · assumption
  · exact absurd hadd (by simp only [reduceCtorEq, not_false_eq_true])

/-- The address of an executable operation has a prefix group. -/
theorem decode_group {kind decoded : OperationKind} {schema : SchemaRegistry} {addr : Ipv4Address}
    (h : decode kind schema = .ok (some decoded)) (haddr : decoded.ipv4Address = some addr) :
    ∃ group, addr.group = some group := by
  have hchecked := decode_checked h
  have hvalid : addr.validate = .ok () → ∃ group, addr.group = some group := by
    intro hvalid
    unfold Ipv4Address.validate at hvalid
    by_cases hlong : 32 < addr.prefixLen.toNat
    · rw [if_pos hlong] at hvalid
      exact absurd hvalid (by simp)
    · exact ⟨_, if_neg hlong⟩
  cases decoded with
  | addIpv4 _ =>
      obtain rfl := Option.some.inj haddr
      exact hvalid (validate_of_checkDecoded (Or.inl rfl) hchecked)
  | replaceIpv4 _ =>
      obtain rfl := Option.some.inj haddr
      exact hvalid (validate_of_checkDecoded (Or.inr rfl) hchecked)
  | removeIpv4 _ =>
      obtain rfl := Option.some.inj haddr
      simp only [checkDecoded] at hchecked
      split at hchecked
      · exact absurd hchecked (by simp)
      · next hgroup => exact Option.ne_none_iff_exists'.mp hgroup
  | setMtu _ => exact absurd haddr (by simp [OperationKind.ipv4Address])
  | setEnabled _ => exact absurd haddr (by simp [OperationKind.ipv4Address])
  | setField _ _ => exact absurd haddr (by simp [OperationKind.ipv4Address])
  | addEntity => exact absurd haddr (by simp [OperationKind.ipv4Address])
  | removeEntity => exact absurd haddr (by simp [OperationKind.ipv4Address])

/-- Only an operation on an address decodes to one. -/
theorem decode_address {kind decoded : OperationKind} {schema : SchemaRegistry}
    {addr : Ipv4Address} (h : decode kind schema = .ok (some decoded))
    (haddr : decoded.ipv4Address = some addr) : decoded = kind := by
  rcases decode_some h with ⟨heq, _⟩ | ⟨mtu, rfl⟩ | ⟨enabled, rfl⟩
  · exact heq
  · exact absurd haddr (by simp [OperationKind.ipv4Address])
  · exact absurd haddr (by simp [OperationKind.ipv4Address])

/-- Only a removal decodes to one. -/
theorem decode_removeIpv4 {kind : OperationKind} {schema : SchemaRegistry} {addr : Ipv4Address}
    (h : decode kind schema = .ok (some (.removeIpv4 addr))) : kind = .removeIpv4 addr :=
  (decode_address h rfl).symm

/-- The position of a target in an observation. -/
def locate (observation : Observation) (identity : InterfaceId) (namespaceId : NamespaceId) :
    Except BackendError Nat :=
  if identity.namespaceId ≠ namespaceId then
    .error (.new .staleState "plan namespace differs from backend namespace")
  else
    match observation.devices.findIdx? fun device => device.identity.index == identity.index with
    | none => .error (.new .notFound
        s!"interface {identity.name} (index {identity.index.toNat}) disappeared")
    | some position =>
        -- The position was just found, so the source's indexing cannot fail.
        match observation.devices[position]? with
        | none => .error (.new .notFound
            s!"interface {identity.name} (index {identity.index.toNat}) disappeared")
        | some device =>
            if device.identity ≠ identity then
              .error (.new .staleState
                s!"interface {identity.name} was replaced or its identity changed")
            else if device.identity.deviceType ≠ ethernet then
              .error (.new .unsupportedEntityType (identity.name ++ " is " ++
                device.identity.deviceType ++ ", which this backend cannot manage"))
            else .ok position

/-- The device at a position is the first with the target's index, and is the
    target: an Ethernet device of the backend's own namespace. -/
structure Located (observation : Observation) (identity : InterfaceId)
    (namespaceId : NamespaceId) (position : Nat) (device : DeviceObservation) : Prop where
  isFirst : observation.devices.findIdx? (fun device => device.identity.index == identity.index) =
    some position
  atPosition : observation.devices[position]? = some device
  isTarget : device.identity = identity
  isEthernet : device.identity.deviceType = ethernet
  inNamespace : identity.namespaceId = namespaceId

/-- Where a target is depends on the devices alone. -/
theorem Located.of_devices {observation other : Observation} {identity : InterfaceId}
    {namespaceId : NamespaceId} {position : Nat} {device : DeviceObservation}
    (h : Located observation identity namespaceId position device)
    (hsame : observation.devices = other.devices) :
    Located other identity namespaceId position device :=
  ⟨hsame ▸ h.isFirst, hsame ▸ h.atPosition, h.isTarget, h.isEthernet, h.inNamespace⟩

/-- The device of a target is the first of its index. -/
theorem Located.find? {observation : Observation} {identity : InterfaceId}
    {namespaceId : NamespaceId} {position : Nat} {device : DeviceObservation}
    (h : Located observation identity namespaceId position device) :
    observation.devices.find? (fun device => device.identity.index == identity.index) =
      some device := by
  rw [List.find?_eq_bind_findIdx?_getElem?, h.isFirst, Option.bind_some, h.atPosition]

/-- A target is in one place. -/
theorem Located.unique {observation : Observation} {identity : InterfaceId}
    {namespaceId : NamespaceId} {p₁ p₂ : Nat} {d₁ d₂ : DeviceObservation}
    (h₁ : Located observation identity namespaceId p₁ d₁)
    (h₂ : Located observation identity namespaceId p₂ d₂) : p₁ = p₂ ∧ d₁ = d₂ := by
  obtain rfl := Option.some.inj (h₁.isFirst.symm.trans h₂.isFirst)
  exact ⟨rfl, Option.some.inj (h₁.atPosition.symm.trans h₂.atPosition)⟩

/-- What a located device is. -/
theorem locate_eq_ok {observation : Observation} {identity : InterfaceId}
    {namespaceId : NamespaceId} {position : Nat} :
    locate observation identity namespaceId = .ok position ↔
      ∃ device, Located observation identity namespaceId position device := by
  unfold locate
  constructor
  · intro h
    split at h
    · exact absurd h (by simp only [reduceCtorEq, not_false_eq_true])
    · next hns =>
        rw [ne_eq, not_not] at hns
        split at h
        · exact absurd h (by simp only [reduceCtorEq, not_false_eq_true])
        · next found hfound =>
            split at h
            · exact absurd h (by simp only [reduceCtorEq, not_false_eq_true])
            · next device hdevice =>
                by_cases hid : device.identity = identity
                · by_cases heth : device.identity.deviceType = ethernet
                  · rw [if_neg (not_not_intro hid), if_neg (not_not_intro heth)] at h
                    obtain rfl := Except.ok.inj h
                    exact ⟨device, hfound, hdevice, hid, heth, hns⟩
                  · rw [if_neg (not_not_intro hid), if_pos heth] at h
                    exact absurd h (by simp only [reduceCtorEq, not_false_eq_true])
                · rw [if_pos hid] at h
                  exact absurd h (by simp only [reduceCtorEq, not_false_eq_true])
  · rintro ⟨device, h⟩
    rw [if_neg (not_not_intro h.inNamespace), h.isFirst]
    simp only [h.atPosition]
    rw [if_neg (not_not_intro h.isTarget), if_neg (not_not_intro h.isEthernet)]

end Netfyr
