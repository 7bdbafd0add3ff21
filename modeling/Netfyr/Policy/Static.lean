import Netfyr.Schema.Fields
import Netfyr.Policy.Produce

/-!
# Static State

What a policy produces as state was checked against the registry that knows the
providers' triggers, and is read by one that does not. The two registries
differ in two places: the root of the `ipv4` fragment declares the trigger of
its provider, and the base declares an object `ipv6` for the triggers of the
other two. The split takes the triggers out of both, and a map that had nothing
else with them. A map `ipv6` that was empty before stays in the state, and the
embedded registry does not know it.

## Theorems

* `ProviderRegistry.fieldConforms_remainder`: The comparison, for one field.
* `Policy.produce_isSome`: Production never panics.
* `Policy.produced_valid_iff`: When the produced state is valid.
-/

namespace Netfyr

/-- The object that the base declares for the triggers of `ipv6`. -/
def ipv6Json : SchemaNode :=
  { writableObject with properties := [("dhcp6", openParamsSchema), ("ra", openParamsSchema)] }

namespace ProviderRegistry

/-- The keys that are triggers, and their domains. -/
theorem registration_eq_none {domain key : String} : registration domain key = none ↔
    ¬(domain = "ipv4" ∧ key = "dhcp4") ∧ ¬(domain = "ipv6" ∧ (key = "dhcp6" ∨ key = "ra")) := by
  rw [registration, List.find?_eq_none]
  simp only [registrations, List.forall_mem_cons, List.not_mem_nil, false_imp_iff, implies_true,
    and_true, decide_eq_true_eq, eq_comm (b := domain), eq_comm (b := key), and_or_left, not_or]

theorem triggers : schemaRegistry.fragments.map Fragment.triggerKey =
    SchemaRegistry.new.fragments.map Fragment.triggerKey := rfl

theorem base_root : schemaRegistry.base.root.node =
    { baseJson with properties := baseJson.properties ++ [("ipv6", ipv6Json)] } := rfl

/-- The base declares `ipv6`, and everything else as the embedded one. -/
theorem base_property_ne (key : String) (hkey : key ≠ "ipv6") :
    schemaRegistry.base.root.property key = SchemaRegistry.new.base.root.property key := by
  refine TypedNode.property_congr ?_
  rw [base_root]
  dsimp only
  rw [List.lookup_append, Assoc.lookup_cons_ne hkey, List.lookup_nil, Option.or_none]
  rfl

theorem base_property_ipv6 : schemaRegistry.base.root.property "ipv6" = some ⟨ipv6Json, rfl⟩ := rfl

/-- The fragment `ipv4` declares `dhcp4`, and everything else as the embedded
    one. -/
theorem triggered_ipv4 : ∃ fragment embedded, schemaRegistry.triggered "ipv4" = some fragment ∧
    SchemaRegistry.new.triggered "ipv4" = some embedded ∧
      fragment.root.property "dhcp4" = some ⟨dhcp4Schema, rfl⟩ ∧
      embedded.root.node.required = [] ∧ fragment.root.isOpen = embedded.root.isOpen ∧
        ∀ key, key ≠ "dhcp4" → fragment.root.property key = embedded.root.property key := by
  refine ⟨_, _, rfl, rfl, rfl, rfl, rfl, ?_⟩
  intro key hkey
  refine TypedNode.property_congr ?_
  change (ipv4Json.properties ++ [("dhcp4", dhcp4Schema)]).lookup key =
    ipv4Json.properties.lookup key
  rw [List.lookup_append, Assoc.lookup_cons_ne hkey, List.lookup_nil, Option.or_none]

theorem triggered_ethernet :
    schemaRegistry.triggered "ethernet" = SchemaRegistry.new.triggered "ethernet" := rfl

/-- A key that triggers no embedded fragment triggers none of the providers'
    registry. -/
theorem triggered_none (key : String) (hipv4 : key ≠ "ipv4") (hethernet : key ≠ "ethernet") :
    schemaRegistry.triggered key = none ∧ SchemaRegistry.new.triggered key = none := by
  have hmem : some key ∉ SchemaRegistry.new.fragments.map Fragment.triggerKey := by
    change some key ∉ [none, some "ipv4", some "ethernet"]
    simp only [List.mem_cons, reduceCtorEq, Option.some.injEq, hipv4, hethernet, List.not_mem_nil,
      or_false, not_false_eq_true]
  rw [← Option.not_isSome_iff_eq_none, ← Option.not_isSome_iff_eq_none,
    SchemaRegistry.triggered_isSome, SchemaRegistry.triggered_isSome, triggers]
  exact ⟨hmem, hmem⟩

/-- Outside the domains of the providers the registries ask the same. -/
theorem fieldConforms_other {key : String} (hipv4 : key ≠ "ipv4") (hipv6 : key ≠ "ipv6")
    {writableOnly : Bool} {value : Value} :
    schemaRegistry.FieldConforms writableOnly key value ↔
      SchemaRegistry.new.FieldConforms writableOnly key value := by
  unfold SchemaRegistry.FieldConforms
  by_cases hethernet : key = "ethernet"
  · rw [hethernet, triggered_ethernet]
    cases SchemaRegistry.new.triggered "ethernet" with
    | none => rfl
    | some fragment => rfl
  · rw [(triggered_none key hipv4 hethernet).1, (triggered_none key hipv4 hethernet).2,
      base_property_ne key hipv6]
    rfl

/-- Outside their domains the split leaves a field as it is. -/
theorem remainder_other {key : String} (hipv4 : key ≠ "ipv4") (hipv6 : key ≠ "ipv6")
    (value : Value) : remainder key value = some value := by
  have hnone : ∀ inner, registration key inner = none := by
    intro inner
    rw [registration_eq_none]
    exact ⟨fun h => hipv4 h.1, fun h => hipv6 h.1⟩
  cases value with
  | map entries =>
      have hself : (entries.filter fun entry => (registration key entry.1).isNone) = entries := by
        refine List.filter_eq_self.mpr fun entry _ => ?_
        rw [hnone, Option.isNone_none]
      rw [remainder, hself]
      exact if_neg fun h => h.2 h.1
  | _ => rfl

/-- An object that conforms to the base's `ipv6` has no keys but triggers. -/
theorem ipv6_triggers {entries : List (String × Value)}
    (h : Conforms true ⟨ipv6Json, rfl⟩ (.map entries)) :
    ∀ entry ∈ entries, (registration "ipv6" entry.1).isSome = true := by
  intro entry hmem
  have hentry := conformsEntries_iff.mp h.2.1 entry hmem List.not_mem_nil
  rw [Option.isSome_iff_ne_none, ne_eq, registration_eq_none]
  intro hnone
  have hkey : entry.1 ≠ "dhcp6" ∧ entry.1 ≠ "ra" :=
    not_or.mp fun htrigger => hnone.2 ⟨rfl, htrigger⟩
  -- The object is closed, so a key that is no trigger is refused.
  refine Bool.false_ne_true (hentry.2 (TypedNode.property_eq_none.mpr ?_))
  change [("dhcp6", openParamsSchema), ("ra", openParamsSchema)].lookup entry.1 = none
  rw [Assoc.lookup_cons_ne hkey.1, Assoc.lookup_cons_ne hkey.2, List.lookup_nil]

/-- A conforming `ipv6` is a map of triggers, of which the split leaves something
    only when there are none. The embedded base does not declare it. -/
theorem fieldConforms_ipv6 {value rest : Value}
    (h : schemaRegistry.FieldConforms true "ipv6" value)
    (hrest : remainder "ipv6" value = some rest) :
    value = .map [] ∧ ¬SchemaRegistry.new.FieldConforms true "ipv6" rest := by
  have hnone := triggered_none "ipv6" (by decide) (by decide)
  have hnew : ¬SchemaRegistry.new.FieldConforms true "ipv6" rest := by
    rw [SchemaRegistry.FieldConforms, hnone.2]
    intro hnew
    exact Bool.false_ne_true (hnew.2 rfl)
  rw [SchemaRegistry.FieldConforms, hnone.1] at h
  have hvalue := (h.1 _ base_property_ipv6).2
  refine ⟨?_, hnew⟩
  cases value with
  | map entries =>
      have htriggers := ipv6_triggers hvalue
      have hfilter :
          (entries.filter fun entry => (registration "ipv6" entry.1).isNone) = [] := by
        refine List.filter_eq_nil_iff.mpr fun entry hmem hisNone => ?_
        rw [Option.isNone_iff_eq_none] at hisNone
        have hsome := htriggers entry hmem
        rw [hisNone] at hsome
        exact Bool.false_ne_true hsome
      rw [remainder, hfilter] at hrest
      by_contra hne
      rw [Value.map.injEq] at hne
      rw [if_pos ⟨rfl, hne⟩] at hrest
      exact absurd hrest (by simp only [reduceCtorEq, not_false_eq_true])
  | string text =>
      rcases hvalue with hstring | hnetwork
      · exact absurd hstring.1 (by decide)
      · exact absurd hnetwork.1 (by decide)
  | u64 n | i64 n | ipNetwork addr len | list items => exact absurd hvalue.1 (by decide)
  | bool b | ipAddr addr => exact absurd hvalue (by unfold Conforms; decide)

/-- The embedded `ipv4` takes what the split leaves of the providers'. -/
theorem fieldConforms_ipv4 {value rest : Value}
    (h : schemaRegistry.FieldConforms true "ipv4" value)
    (hrest : remainder "ipv4" value = some rest) :
    SchemaRegistry.new.FieldConforms true "ipv4" rest := by
  rcases triggered_ipv4 with ⟨fragment, embedded, hext, hnew, _, hrequired, hopen, hproperty⟩
  rw [SchemaRegistry.FieldConforms, hext] at h
  rw [SchemaRegistry.FieldConforms, hnew]
  rcases h with ⟨inner, rfl, hentries, _⟩
  rw [remainder] at hrest
  split at hrest
  · exact absurd hrest (by simp only [reduceCtorEq, not_false_eq_true])
  · obtain rfl := Option.some.inj hrest
    refine ⟨_, rfl, ?_, ?_⟩
    · have hkept : ConformsEntries true fragment.root []
          (inner.filter fun entry => (registration "ipv4" entry.1).isNone) := by
        rw [conformsEntries_iff] at hentries ⊢
        intro entry hmem
        exact hentries entry (List.mem_of_mem_filter hmem)
      refine (conformsEntries_congr hopen ?_).mp hkept
      intro entry hmem
      have hisNone := (List.mem_filter.mp hmem).2
      rw [Option.isNone_iff_eq_none, registration_eq_none] at hisNone
      exact hproperty entry.1 fun hkey => hisNone.1 ⟨rfl, hkey⟩
    · intro required hmem
      rw [hrequired] at hmem
      exact absurd hmem List.not_mem_nil

/-- What the split leaves of a field conforms to the embedded registry, when the
    field conformed with the triggers: all but an empty map `ipv6`. -/
theorem fieldConforms_remainder {key : String} {value rest : Value}
    (h : schemaRegistry.FieldConforms true key value) (hrest : remainder key value = some rest) :
    SchemaRegistry.new.FieldConforms true key rest ↔ ¬(key = "ipv6" ∧ value = .map []) := by
  by_cases hipv6 : key = "ipv6"
  · subst hipv6
    have hempty := fieldConforms_ipv6 h hrest
    exact iff_of_false hempty.2 fun hnot => hnot ⟨rfl, hempty.1⟩
  · refine iff_of_true ?_ fun hboth => hipv6 hboth.1
    by_cases hipv4 : key = "ipv4"
    · subst hipv4
      exact fieldConforms_ipv4 h hrest
    · rw [remainder_other hipv4 hipv6, Option.some.injEq] at hrest
      rw [← hrest]
      exact (fieldConforms_other hipv4 hipv6).mp h

/-- A trigger of a conforming map has a map of parameters. -/
theorem trigger_isMap {domain key : String} {inner : FieldMap}
    (h : schemaRegistry.FieldConforms true domain (.map inner.entries))
    (hkey : (registration domain key).isSome = true) (hmem : key ∈ inner.keys) :
    (inner.getMap? key).isSome = true := by
  rcases List.mem_map.mp hmem with ⟨entry, hentry, rfl⟩
  have hget : inner.get? entry.1 = some entry.2 :=
    Assoc.lookup_of_mem inner.keys_nodup hentry
  -- The node that governs the trigger is an object, in either domain.
  have hobject : ∃ node : TypedNode, node.fieldType = .object ∧ Conforms true node entry.2 := by
    rw [Option.isSome_iff_ne_none, ne_eq, registration_eq_none, not_and_or, not_not, not_not]
      at hkey
    rcases hkey with ⟨rfl, hdhcp4⟩ | ⟨rfl, htrigger⟩
    · rcases triggered_ipv4 with ⟨fragment, embedded, hext, _, hproperty, _⟩
      rw [SchemaRegistry.FieldConforms, hext] at h
      rcases h with ⟨entries, heq, hentries, _⟩
      obtain rfl := Value.map.inj heq
      have hconforms := (conformsEntries_iff.mp hentries entry hentry List.not_mem_nil).1
        ⟨dhcp4Schema, rfl⟩ (by rw [hdhcp4, hproperty])
      exact ⟨_, rfl, hconforms.2⟩
    · have hnone := triggered_none "ipv6" (by decide) (by decide)
      rw [SchemaRegistry.FieldConforms, hnone.1] at h
      have hmap := (h.1 _ base_property_ipv6).2
      have hconforms := (conformsEntries_iff.mp hmap.2.1 entry hentry List.not_mem_nil).1
        ⟨openParamsSchema, rfl⟩ (by rcases htrigger with hkey | hkey <;> rw [hkey] <;> rfl)
      exact ⟨_, rfl, hconforms.2⟩
  rcases hobject with ⟨node, htype, hconforms⟩
  cases hvalue : entry.2 with
  | map params =>
      rw [hvalue] at hget
      exact Option.isSome_iff_exists.mpr
        ⟨⟨params, FieldMap.get?_wellKeyed hget⟩, FieldMap.getMap?_eq_some.mpr hget⟩
  | _ =>
      rw [hvalue, Conforms, htype] at hconforms
      simp only [reduceCtorEq, false_and, or_self] at hconforms

end ProviderRegistry

namespace Policy

variable {policy : Policy}

/-- What validation asked of each field before the split. -/
theorem fieldConforms_of_valid
    (h : ProviderRegistry.schemaRegistry.validateWritable policy.candidateState = [])
    {key : String} {value : Value} (hget : policy.fields.get? key = some value) :
    ProviderRegistry.schemaRegistry.FieldConforms true key value :=
  (SchemaRegistry.stateConforms_iff.mp (SchemaRegistry.validateInner_eq_nil.mp h)).1 key value hget

/-- The split of a valid policy never meets a trigger that is not a map. -/
theorem splitFields_of_valid
    (h : ProviderRegistry.schemaRegistry.validateWritable policy.candidateState = []) :
    (policy.splitFields policy.fields.keys policy.fields).isSome := by
  refine splitFields_isSome policy.fields.keys_nodup ?_
  intro domain _ values hmap
  refine splitDomain_isSome values.keys_nodup ?_
  intro key hmem hkey
  have hfield := fieldConforms_of_valid h (FieldMap.getMap?_eq_some.mp hmap)
  exact ProviderRegistry.trigger_isMap hfield hkey hmem

/-- Production never panics. -/
theorem produce_isSome (policy : Policy) : policy.produce.isSome = true := by
  rw [produce]
  split
  · rfl
  · split
    · rfl
    · dsimp only
      split
      · rfl
      · next hvalid =>
          rcases Option.isSome_iff_exists.mp (splitFields_of_valid (not_not.mp hvalid))
            with ⟨split, hsplit⟩
          rw [hsplit, Option.bind_eq_bind, Option.bind_some]
          split
          · rfl
          · rfl

/-- The state of a successful production is valid for the embedded registry
    exactly when the policy has no empty map `ipv6`. -/
theorem produced_valid_iff {policy : Policy} {production : Production} {state : State}
    (h : policy.produce = some (.ok production)) (hstate : production.state = some state) :
    SchemaRegistry.new.validateWritable state = [] ↔
      policy.fields.get? "ipv6" ≠ some (.map []) := by
  rcases produce_ok h with ⟨_, _, hvalid, split, hsplit, _, hstatic⟩
  have hown : state = policy.staticState split.1 := by
    rw [hstate] at hstatic
    split at hstatic
    · exact absurd hstatic (by simp only [reduceCtorEq, not_false_eq_true])
    · exact Option.some.inj hstatic
  subst hown
  have hleft := get?_splitFields_keys hsplit
  rw [SchemaRegistry.validateWritable, SchemaRegistry.validateInner_eq_nil,
    SchemaRegistry.stateConforms_iff]
  constructor
  · rintro ⟨hfields, _⟩ hempty
    -- An empty map loses nothing in the split.
    have hkeep : split.1.get? "ipv6" = some (.map []) := by
      rw [hleft, hempty]
      rfl
    exact (ProviderRegistry.fieldConforms_remainder (fieldConforms_of_valid hvalid hempty) rfl).mp
      (hfields "ipv6" _ hkeep) ⟨rfl, rfl⟩
  · intro hipv6
    refine ⟨?_, ?_, ?_⟩
    · intro key rest hget
      rcases Option.bind_eq_some_iff.mp ((hleft key).symm.trans hget) with ⟨value, hvalue, hrest⟩
      refine (ProviderRegistry.fieldConforms_remainder (fieldConforms_of_valid hvalid hvalue)
        hrest).mpr ?_
      rintro ⟨rfl, rfl⟩
      exact hipv6 hvalue
    · exact fun key hmem => absurd hmem List.not_mem_nil
    · -- The device type is a matter of the base, which both registries share there.
      have htype := (SchemaRegistry.stateConforms_iff.mp
        (SchemaRegistry.validateInner_eq_nil.mp hvalid)).2.2
      unfold SchemaRegistry.TypeConforms at htype ⊢
      rw [← ProviderRegistry.base_property_ne "type" (by decide)]
      exact htype

/-- A policy for `eth0` that sets the MTU and asks for addresses. -/
def leased : Policy :=
  { name := "lan"
    matchSpec := { name := some "eth0" }
    deviceType := "ethernet"
    fields := ⟨[("mtu", .u64 1400), ("ipv4", .map [("dhcp4", .map [])])], by decide⟩
    priority := none
    metadata := none }

/-- What the split leaves of it, and what it produces. -/
def leasedFields : FieldMap := FieldMap.empty.insert "mtu" (.u64 1400) (Value.u64_wellKeyed 1400)

def leasedProduction : Production :=
  { state := some (leased.staticState leasedFields)
    providers := (ProviderRegistry.registrations.take 1).map (leased.declare · .empty) }

theorem produced_valid_leased :
    SchemaRegistry.new.validateWritable (leased.staticState leasedFields) = [] ↔
      leased.fields.get? "ipv6" ≠ some (.map []) :=
  have hproduce : leased.produce = some (.ok leasedProduction) := rfl
  produced_valid_iff hproduce rfl

/-- A policy for `eth0` with an empty `ipv6`. -/
def emptyIpv6 : Policy :=
  { name := "lan"
    matchSpec := { name := some "eth0" }
    deviceType := ""
    fields := ⟨[("ipv6", .map [])], by decide⟩
    priority := none
    metadata := none }

/-- An empty map `ipv6` is accepted, stays in the state, and is unknown there. -/
theorem produced_invalid : ¬∀ (policy : Policy) (production : Production) (state : State),
    policy.produce = some (.ok production) → production.state = some state →
      SchemaRegistry.new.validateWritable state = [] := by
  intro h
  have hvalid := h emptyIpv6
    { state := some (emptyIpv6.staticState emptyIpv6.fields), providers := [] } _ rfl rfl
  exact absurd hvalid (by decide)

end Policy

end Netfyr
