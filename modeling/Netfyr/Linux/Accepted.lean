import Netfyr.Data.Checked
import Netfyr.Linux.Link
import Netfyr.Schema.Fields

/-!
# Observed States and the Schema

Which observed states the embedded schema accepts. Everything the transport puts
into a state is of the declared type and within what is declared, with one
exception: the kernel's MTU is any `u32`, and the schema's is one that a policy
may ask for. An Ethernet device has an MTU in that range; a loopback device has
not.

## Main definitions

* `ParsedLink.mtu?`: The MTU that a link states last.
* `ParsedLink.HasPolicyMtu`: It is one that a policy may ask for.
* `Accepts`: The fields of a state, its MTU apart, are accepted.

## Theorems

* `shows_observeState`: Everything but the MTU is accepted.
* `observeState_valid_iff`: A state is accepted exactly when its MTU is.
-/

namespace Netfyr

open SchemaRegistry (new)

/-- The MTU that an attribute states. -/
def mtu? : LinkAttribute → Option UInt32
  | .mtu mtu => some mtu
  | _ => none

/-- The MTU that a link states last. -/
def ParsedLink.mtu? (link : ParsedLink) : Option UInt32 :=
  (link.message.attributes.filterMap Netfyr.mtu?).getLast?

/-- A link that states an MTU states one that a policy may ask for. -/
def ParsedLink.HasPolicyMtu (link : ParsedLink) : Prop :=
  ∀ mtu, link.mtu? = some mtu → 68 ≤ mtu.toNat ∧ mtu.toNat ≤ 65535

/-- Every field but the MTU is one that the embedded schema accepts. -/
def Accepts (state : State) : Prop :=
  ∀ key value, state.fields.get? key = some value → key ≠ "mtu" →
    new.FieldConforms false key value

section Fields

variable {key : String} {value : Value} {node : TypedNode}

theorem fieldConforms_base (ht : new.triggered key = none)
    (hp : new.base.root.property key = some node) (h : Conforms false node value) :
    new.FieldConforms false key value := by
  rw [SchemaRegistry.FieldConforms, ht]
  constructor
  · intro prop hprop
    rw [← Option.some.inj (hp.symm.trans hprop)]
    exact ⟨fun hw => absurd hw Bool.false_ne_true, h⟩
  · intro hnone
    exact absurd (hp.symm.trans hnone) (Option.some_ne_none _)

/-- The textual fields of a device take any text. -/
theorem fieldConforms_text {text : String} (hkey : key = "name" ∨ key = "mac" ∨ key = "driver") :
    new.FieldConforms false key (.string text) := by
  rcases hkey with rfl | rfl | rfl
  · exact fieldConforms_base rfl rfl (Or.inl ⟨rfl, nofun⟩)
  · exact fieldConforms_base rfl rfl (Or.inl ⟨rfl, nofun⟩)
  · exact fieldConforms_base rfl rfl (Or.inl ⟨rfl, nofun⟩)

theorem fieldConforms_bool {b : Bool} (hkey : key = "enabled" ∨ key = "carrier") :
    new.FieldConforms false key (.bool b) := by
  rcases hkey with rfl | rfl
  · exact fieldConforms_base rfl rfl (show _ = _ from rfl)
  · exact fieldConforms_base rfl rfl (show _ = _ from rfl)

/-- The schema's range of the MTU. -/
theorem fieldConforms_mtu {mtu : UInt32} :
    new.FieldConforms false "mtu" (.u64 mtu.toUInt64) ↔ 68 ≤ mtu.toNat ∧ mtu.toNat ≤ 65535 := by
  have hrange : ∀ node : TypedNode, node.fieldType = .integer → node.node.minimum = some 68 →
      node.node.maximum = some 65535 → (Conforms false node (.u64 mtu.toUInt64) ↔
        68 ≤ mtu.toNat ∧ mtu.toNat ≤ 65535) := by
    intro node ht hmin hmax
    rw [Conforms, InRange, hmin, hmax]
    simp only [ht, true_and, Option.some.injEq, forall_eq', UInt32.toNat_toUInt64]
    -- The bounds of the schema are `i64`; a `u32` is compared with them as integers.
    have hlow : (68 : Int64).toInt = 68 := by decide
    have hhigh : (65535 : Int64).toInt = 65535 := by decide
    rw [hlow, hhigh]
    omega
  constructor
  · intro h
    rw [SchemaRegistry.FieldConforms, show new.triggered "mtu" = none from rfl] at h
    exact (hrange _ rfl rfl rfl).mp (h.1 _ rfl).2
  · intro h
    exact fieldConforms_base rfl rfl ((hrange _ rfl rfl rfl).mpr h)

end Fields

section Parts

/-- Setting a field that is accepted, or the MTU, keeps the others accepted. -/
theorem Accepts.setField {state : State} {key : String} {value : Value} {hv : value.WellKeyed}
    (h : Accepts state) (hvalue : key ≠ "mtu" → new.FieldConforms false key value) :
    Accepts (state.setField key value hv) := by
  intro key' value' hget hkey
  rw [State.get?_setField] at hget
  split at hget
  · next heq =>
      subst heq
      rw [← Option.some.inj hget]
      exact hvalue hkey
  · exact h key' value' hget hkey

theorem Accepts.readAttribute {out : State × Option String} (h : Accepts out.1)
    (attr : LinkAttribute) : Accepts (readAttribute out attr).1 := by
  cases attr with
  | mtu mtu => exact h.setField fun hne => absurd rfl hne
  | carrier carrier => exact h.setField fun _ => fieldConforms_bool (Or.inr rfl)
  | address bytes =>
      unfold Netfyr.readAttribute
      dsimp only
      split
      · exact h
      · exact h.setField fun _ => fieldConforms_text (Or.inr (Or.inl rfl))
  | _ => exact h

/-- The MTU after an attribute was read: its own, or the one there was. -/
theorem get?_mtu_readAttribute (out : State × Option String) (attr : LinkAttribute) :
    (readAttribute out attr).1.fields.get? "mtu" =
      ((mtu? attr).map fun mtu => Value.u64 mtu.toUInt64).or (out.1.fields.get? "mtu") := by
  have hne : ∀ key value hv, "mtu" ≠ key →
      (out.1.setField key value hv).fields.get? "mtu" = out.1.fields.get? "mtu" := by
    intro key value hv hkey
    rw [State.get?_setField, if_neg hkey]
  cases attr with
  | mtu mtu =>
      rw [readAttribute, State.get?_setField, if_pos rfl]
      rfl
  | carrier carrier =>
      rw [readAttribute, hne _ _ _ (by decide)]
      rfl
  | address bytes =>
      rw [readAttribute]
      split
      · rfl
      · rw [hne _ _ _ (by decide)]
        rfl
  | _ => rfl

theorem foldl_readAttribute {attributes : List LinkAttribute} {out : State × Option String}
    (h : Accepts out.1) :
    Accepts (attributes.foldl readAttribute out).1 ∧
      (attributes.foldl readAttribute out).1.fields.get? "mtu" =
        (((attributes.filterMap mtu?).getLast?).map fun mtu => Value.u64 mtu.toUInt64).or
          (out.1.fields.get? "mtu") := by
  induction attributes generalizing out with
  | nil => exact ⟨h, rfl⟩
  | cons attr attributes ih =>
      rw [List.foldl_cons]
      refine ⟨(ih (h.readAttribute attr)).1, ?_⟩
      -- The last MTU is the later attributes' if they have one, else this one's.
      have hlast : ((attr :: attributes).filterMap mtu?).getLast? =
          ((attributes.filterMap mtu?).getLast?).or (mtu? attr) := by
        rw [List.filterMap_cons]
        cases mtu? attr with
        | none => rw [Option.or_none]
        | some mtu =>
            rw [List.getLast?_cons]
            cases (attributes.filterMap mtu?).getLast? with
            | none => rfl
            | some last => rfl
      rw [(ih (h.readAttribute attr)).2, get?_mtu_readAttribute, ← Option.or_assoc, hlast,
        Option.map_or]

/-- A link's state has the MTU that the link states last. -/
theorem accepts_linkState (link : ParsedLink) (deviceType : String) :
    Accepts (linkState link deviceType).1 ∧
      (linkState link deviceType).1.fields.get? "mtu" =
        link.mtu?.map fun mtu => Value.u64 mtu.toUInt64 := by
  let state : State :=
    { State.new .kernel with
      deviceType, matchSpec := { name := some link.name, type := some deviceType } }
  have hempty : Accepts state :=
    fun key value hget => absurd hget (by simp [state, State.new, FieldMap.get?, FieldMap.empty])
  let named := state.setField "name" (.string link.name) (Value.string_wellKeyed _)
  have hnamed : Accepts named := hempty.setField fun _ => fieldConforms_text (Or.inl rfl)
  let enabled := named.setField "enabled" (.bool link.message.header.up) (Value.bool_wellKeyed _)
  have henabled : Accepts (enabled, (none : Option String)).1 :=
    hnamed.setField fun _ => fieldConforms_bool (Or.inl rfl)
  have hfold : _ ∧
      (link.message.attributes.foldl readAttribute (enabled, none)).1.fields.get? _ = _ :=
    foldl_readAttribute henabled
  exact ⟨hfold.1, hfold.2.trans Option.or_none⟩

end Parts

section Ethernet

/-- The link modes are among the properties that the schema declares. -/
def LinkModes (fields : FieldMap) : Prop :=
  ∀ key value, fields.get? key = some value →
    (key = "speed" ∧ ∃ n, value = .u64 n) ∨ (key = "autoneg" ∧ ∃ b, value = .bool b) ∨
      (key = "duplex" ∧ ∃ text ∈ ["full", "half", "unknown"], value = .string text)

theorem LinkModes.insert {fields : FieldMap} (h : LinkModes fields) {key : String} {value : Value}
    (hv : value.WellKeyed)
    (hvalue : (key = "speed" ∧ ∃ n, value = .u64 n) ∨ (key = "autoneg" ∧ ∃ b, value = .bool b) ∨
      (key = "duplex" ∧ ∃ text ∈ ["full", "half", "unknown"], value = .string text)) :
    LinkModes (fields.insert key value hv) := by
  intro key' value' hget
  rw [FieldMap.get?_insert] at hget
  split at hget
  · next heq =>
      subst heq
      rw [← Option.some.inj hget]
      exact hvalue
  · exact h key' value' hget

theorem LinkModes.enrichEthernet {out : FieldMap × List String} (h : LinkModes out.1)
    (attr : EthtoolLinkModeAttr) : LinkModes (enrichEthernet out attr).1 := by
  cases attr with
  | speed speed =>
      rw [Netfyr.enrichEthernet]
      split
      · exact h.insert (Value.u64_wellKeyed _) (Or.inl ⟨rfl, _, rfl⟩)
      · exact h
  | autoneg enabled => exact h.insert (Value.bool_wellKeyed _) (Or.inr (Or.inl ⟨rfl, _, rfl⟩))
  | duplex duplex =>
      rw [Netfyr.enrichEthernet]
      split
      · next text htext =>
          -- The texts of the modes are the schema's enumeration.
          have hmem : text ∈ ["full", "half", "unknown"] := by
            cases duplex with
            | other code => exact absurd htext (by simp [duplexText])
            | _ =>
                rw [← Except.ok.inj htext]
                decide
          exact h.insert (Value.string_wellKeyed _) (Or.inr (Or.inr ⟨rfl, text, hmem, rfl⟩))
      · exact h
  | other => exact h

theorem linkModes_foldl (linkModes : List EthtoolLinkModeAttr) {out : FieldMap × List String}
    (h : LinkModes out.1) : LinkModes (linkModes.foldl enrichEthernet out).1 := by
  induction linkModes generalizing out with
  | nil => exact h
  | cons attr linkModes ih => exact ih (h.enrichEthernet attr)

/-- Link modes are an object of the `ethernet` fragment. -/
theorem LinkModes.fieldConforms {fields : FieldMap} (h : LinkModes fields) :
    new.FieldConforms false "ethernet" (.map fields.entries) := by
  unfold SchemaRegistry.FieldConforms
  rw [show new.triggered "ethernet" = some _ from rfl]
  refine ⟨fields.entries, rfl, conformsEntries_iff.mpr ?_, nofun⟩
  intro entry hentry _
  have hget := Assoc.lookup_of_mem fields.wellKeyed.1 hentry
  rcases entry with ⟨key, value⟩
  rcases h key value hget with ⟨rfl, n, rfl⟩ | ⟨rfl, b, rfl⟩ | ⟨rfl, text, htext, rfl⟩
  · refine ⟨fun prop hprop => ?_, nofun⟩
    rw [← Option.some.inj (show some _ = some prop from hprop)]
    exact ⟨nofun, rfl, nofun, nofun⟩
  · refine ⟨fun prop hprop => ?_, nofun⟩
    rw [← Option.some.inj (show some _ = some prop from hprop)]
    exact ⟨nofun, show _ = _ from rfl⟩
  · refine ⟨fun prop hprop => ?_, nofun⟩
    rw [← Option.some.inj (show some _ = some prop from hprop)]
    refine ⟨nofun, Or.inl ⟨rfl, fun allowed hallowed => ?_⟩⟩
    rw [← Option.some.inj (show some _ = some allowed from hallowed)]
    exact htext

end Ethernet

section Addresses

/-- An observed address that came from an IPv4 record. -/
theorem parseAddress_prefixLen {message : AddressMessage} {observation : AddressObservation}
    (h : parseAddress message = .ok observation) : observation.address.prefixLen ≤ 32 := by
  rw [parseAddress] at h
  split at h
  · exact absurd h (by simp only [reduceCtorEq, not_false_eq_true])
  · next hheader =>
      rcases except_bind_eq_ok.mp h with ⟨parts, _, h⟩
      rw [not_or, UInt8.not_lt] at hheader
      -- Every reading ends with the prefix length of the header.
      split at h
      · exact absurd h (by simp only [reduceCtorEq, not_false_eq_true])
      · split at h
        · exact absurd h (by simp only [reduceCtorEq, not_false_eq_true])
        · split at h
          · exact absurd h (by simp only [reduceCtorEq, not_false_eq_true])
          · rw [← Except.ok.inj h]
            exact hheader.2

/-- The fields of an address that was read from a record. -/
theorem get?_addressFields {observation : AddressObservation} {key : String} {value : Value}
    (h : (addressFields observation).get? key = some value) :
    (key = "ip" ∧ value = .ipNetwork (.v4 observation.address.ip) observation.address.prefixLen) ∨
      ((key = "valid_lft" ∨ key = "preferred_lft") ∧ ∃ n, value = .u64 n) := by
  -- A lifetime adds its own field, if it is there, and no other.
  have hstep : ∀ (fields : FieldMap) (name : String) (lifetime : Option UInt32),
      (insertLifetime fields name lifetime).get? key = some value →
        (key = name ∧ ∃ n, value = .u64 n) ∨ fields.get? key = some value := by
    intro fields name lifetime hget
    cases lifetime with
    | none => exact Or.inr hget
    | some seconds =>
        rw [insertLifetime, FieldMap.get?_insert] at hget
        split at hget
        · next hkey => exact Or.inl ⟨hkey, _, (Option.some.inj hget).symm⟩
        · exact Or.inr hget
  rcases hstep _ _ _ h with ⟨hkey, hvalue⟩ | h
  · exact Or.inr ⟨Or.inr hkey, hvalue⟩
  · rcases hstep _ _ _ h with ⟨hkey, hvalue⟩ | h
    · exact Or.inr ⟨Or.inl hkey, hvalue⟩
    · rw [FieldMap.get?_insert] at h
      split at h
      · next hkey => exact Or.inl ⟨hkey, (Option.some.inj h).symm⟩
      · exact absurd h (by simp [FieldMap.get?, FieldMap.empty])

theorem ip_mem_addressFields (observation : AddressObservation) :
    "ip" ∈ Assoc.keys (addressFields observation).entries := by
  have hstep : ∀ (fields : FieldMap) (name : String) (lifetime : Option UInt32),
      "ip" ∈ Assoc.keys fields.entries →
        "ip" ∈ Assoc.keys (insertLifetime fields name lifetime).entries := by
    intro fields name lifetime hmem
    cases lifetime with
    | none => exact hmem
    | some seconds => exact Assoc.mem_keys_insert.mpr (Or.inr hmem)
  exact hstep _ _ _ (hstep _ _ _ List.mem_cons_self)

/-- The schema of an element of `ipv4.addresses`. -/
def addressSchema : SchemaNode :=
  { type := some .object
    additionalProperties := some false
    required := ["ip"]
    properties :=
      [("ip", { type := some .string, format := some .ipv4Cidr, writable := true }),
       ("valid_lft", { type := some .integer, writable := true }),
       ("preferred_lft", { type := some .integer, writable := true })] }

theorem conforms_addressValue {observation : AddressObservation}
    (h : observation.address.prefixLen ≤ 32) :
    Conforms false ⟨addressSchema, rfl⟩ (addressValue observation) := by
  refine ⟨rfl, conformsEntries_iff.mpr ?_, ?_⟩
  · intro entry hentry _
    have hget := Assoc.lookup_of_mem (addressFields observation).wellKeyed.1 hentry
    rcases entry with ⟨key, value⟩
    rcases get?_addressFields hget with ⟨rfl, rfl⟩ | ⟨rfl | rfl, n, rfl⟩
    · refine ⟨fun prop hprop => ?_, nofun⟩
      rw [← Option.some.inj (show some _ = some prop from hprop)]
      exact ⟨nofun, rfl, rfl, h⟩
    · refine ⟨fun prop hprop => ?_, nofun⟩
      rw [← Option.some.inj (show some _ = some prop from hprop)]
      exact ⟨nofun, rfl, nofun, nofun⟩
    · refine ⟨fun prop hprop => ?_, nofun⟩
      rw [← Option.some.inj (show some _ = some prop from hprop)]
      exact ⟨nofun, rfl, nofun, nofun⟩
  · intro key hkey
    rw [List.mem_singleton.mp hkey]
    exact Or.inl (ip_mem_addressFields observation)

/-- Addresses are an object of the `ipv4` fragment. -/
theorem fieldConforms_addresses {addresses : List AddressObservation}
    (h : ∀ observation ∈ addresses, observation.address.prefixLen ≤ 32) :
    new.FieldConforms false "ipv4" (.map [("addresses", .list (addresses.map addressValue))]) := by
  have hitems : ConformsItems false ⟨addressSchema, rfl⟩ (addresses.map addressValue) := by
    induction addresses with
    | nil => trivial
    | cons observation addresses ih =>
        rw [List.forall_mem_cons] at h
        exact ⟨conforms_addressValue h.1, ih h.2⟩
  unfold SchemaRegistry.FieldConforms
  rw [show new.triggered "ipv4" = some _ from rfl]
  refine ⟨_, rfl, ⟨fun _ => ⟨fun prop hprop => ?_, nofun⟩, trivial⟩, nofun⟩
  rw [← Option.some.inj (show some _ = some prop from hprop)]
  refine ⟨nofun, rfl, fun itemSchema hschema => ?_⟩
  rw [← Option.some.inj (show some _ = some itemSchema from hschema)]
  exact hitems

end Addresses

section State

/-- The MTU of a state is what a link states last, and the rest is accepted. -/
def ShowsLink (state : State) (link : ParsedLink) : Prop :=
  Accepts state ∧ state.fields.get? "mtu" = link.mtu?.map fun mtu => Value.u64 mtu.toUInt64

theorem ShowsLink.setField {state : State} {link : ParsedLink} (h : ShowsLink state link)
    {key : String} {value : Value} (hv : value.WellKeyed) (hkey : "mtu" ≠ key)
    (hvalue : new.FieldConforms false key value) :
    ShowsLink (state.setField key value hv) link := by
  refine ⟨h.1.setField fun _ => hvalue, ?_⟩
  rw [State.get?_setField, if_neg hkey]
  exact h.2

/-- Everything the inventory assembles is accepted, the link's MTU apart. -/
theorem shows_observeState {link : ParsedLink} {deviceType : String} {driver : Option String}
    {linkModes : List EthtoolLinkModeAttr} {addresses : List AddressObservation}
    (h : ∀ observation ∈ addresses, observation.address.prefixLen ≤ 32) :
    ShowsLink (observeState link deviceType driver linkModes addresses) link := by
  have hlink : ShowsLink (linkState link deviceType).1 link := accepts_linkState link deviceType
  have hdriver : ShowsLink (insertDriver (linkState link deviceType).1 driver) link := by
    cases driver with
    | none => exact hlink
    | some driver =>
        exact hlink.setField (Value.string_wellKeyed driver) (by decide)
          (fieldConforms_text (Or.inr (Or.inr rfl)))
  unfold observeState
  dsimp only
  split
  · have hempty : LinkModes (FieldMap.empty, ([] : List String)).1 :=
      fun key value hget => absurd hget (by simp [FieldMap.get?, FieldMap.empty])
    have hmodes := linkModes_foldl linkModes hempty
    have hethernet : ShowsLink (insertLinkModes (insertDriver (linkState link deviceType).1 driver)
        (linkModes.foldl enrichEthernet (.empty, [])).1) link := by
      unfold insertLinkModes
      split
      · exact hdriver
      · exact hdriver.setField _ (by decide) hmodes.fieldConforms
    exact hethernet.setField _ (by decide) (fieldConforms_addresses h)
  · exact hdriver

/-- An observed state passes validation exactly when the MTU of its link is one
    that a policy may ask for. -/
theorem observeState_valid_iff (link : ParsedLink) (deviceType : String) (driver : Option String)
    (linkModes : List EthtoolLinkModeAttr) {messages : List AddressMessage}
    {addresses : List AddressObservation}
    (hread : List.Forall₂ (fun message observation => parseAddress message = .ok observation)
      messages addresses) :
    new.validate (observeState link deviceType driver linkModes addresses) = [] ↔
      link.HasPolicyMtu := by
  have hprefix : ∀ observation ∈ addresses, observation.address.prefixLen ≤ 32 := by
    induction hread with
    | nil => exact fun observation hmem => absurd hmem List.not_mem_nil
    | cons hmessage _ ih => exact List.forall_mem_cons.mpr ⟨parseAddress_prefixLen hmessage, ih⟩
  have hshows : ShowsLink (observeState link deviceType driver linkModes addresses) link :=
    shows_observeState hprefix
  rw [SchemaRegistry.validate, SchemaRegistry.validateInner_eq_nil,
    SchemaRegistry.stateConforms_iff]
  constructor
  · rintro ⟨hfields, _⟩ mtu hmtu
    rw [← fieldConforms_mtu]
    exact hfields _ _ (by rw [hshows.2, hmtu]; rfl)
  · intro hmtu
    refine ⟨?_, nofun, ?_⟩
    · intro key value hget
      by_cases hkey : key = "mtu"
      · subst hkey
        rw [hshows.2, Option.map_eq_some_iff] at hget
        rcases hget with ⟨mtu, hlink, rfl⟩
        exact fieldConforms_mtu.mpr (hmtu mtu hlink)
      · exact hshows.1 key value hget hkey
    · intro _ typeNode htype
      rw [← Option.some.inj (show some _ = some typeNode from htype)]
      exact Or.inl ⟨rfl, nofun⟩

/-- An address record: 192.0.2.1/24, valid for ever. -/
def addressRecord : AddressMessage where
  family := .inet
  prefixLen := 24
  flags := 0
  scope := 0
  index := 2
  attributes := [.local' (.v4 (Ipv4Addr.new 192 0 2 1)),
    .cacheInfo { ifaPreferred := u32Max, ifaValid := u32Max }]

/-- A virtual Ethernet link with an MTU. -/
def vethLink (mtu : UInt32) : ParsedLink where
  message :=
    { header := { interfaceFamily := .unspec, index := 2, linkLayerType := .ether, up := true }
      attributes := [.ifName "veth0", .mtu mtu, .linkInfo [.kind .veth]] }
  name := "veth0"
  kindValid := true
  diagnostics := []

theorem observeState_valid_veth : ∃ observation,
    new.validate (observeState (vethLink 1500) ethernet (some "veth") [.speed 10000, .duplex .full]
      [observation]) = [] ↔ (vethLink 1500).HasPolicyMtu :=
  ⟨_, observeState_valid_iff (vethLink 1500) ethernet (some "veth") [.speed 10000, .duplex .full]
    (.cons (show parseAddress addressRecord = .ok _ from rfl) .nil)⟩

/-- The loopback device as a kernel reports it, with its default MTU. -/
def loopbackRecord : LinkRecord where
  header := .ok { interfaceFamily := .unspec, index := 1, linkLayerType := .loopback, up := true }
  attributes := [.ok (3, .ok (.ifName "lo")), .ok (4, .ok (.mtu 65536)),
    .ok (1, .ok (.address [0, 0, 0, 0, 0, 0])), .ok (33, .ok (.carrier 1))]

/-- The state of a loopback device with its default MTU does not pass. -/
theorem observeState_rejected :
    ¬ ∀ (record : LinkRecord) (link : ParsedLink), parseLink record = .ok link →
      ∀ (deviceType : String) (driver : Option String) (linkModes : List EthtoolLinkModeAttr)
        (messages : List AddressMessage) (addresses : List AddressObservation),
        List.Forall₂ (fun message observation => parseAddress message = .ok observation)
          messages addresses →
        new.validate (observeState link deviceType driver linkModes addresses) = [] := by
  intro h
  have hreport : ∃ link, parseLink loopbackRecord = .ok link ∧
      new.validate (observeState link (classifyLink link none) none [] []) ≠ [] := by
    refine ⟨_, rfl, ?_⟩
    decide
  rcases hreport with ⟨link, hparse, hreject⟩
  exact hreject (h _ link hparse _ none [] [] [] .nil)

end State

end Netfyr
