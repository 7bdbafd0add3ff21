import Netfyr.Schema.Reachable
import Netfyr.Schema.Rules

/-!
# What Validation Means

The rules of the dialect, over a whole state. `Described` collects the parts of
a state that its fragments describe, `Violation` the violations they give rise
to, and `Conformance` is the absence of any, rule by rule. What the base
describes are the fields that trigger no other fragment.

## Main definitions

* `SchemaRegistry.Described`: The parts of a state.
* `SchemaRegistry.Violation`: A rule is broken somewhere in a state.
* `SchemaRegistry.Conformance`: No rule is broken anywhere.

## Theorems

* `SchemaRegistry.conformance_iff`: A state conforms when there are none.
* `SchemaRegistry.Reachable.mem_validateInner`: Validation reports the violations.
* `SchemaRegistry.Reachable.validate_exact`: It finds nothing else.
-/

namespace Netfyr

variable {writableOnly : Bool} {error : ValidationError}

namespace SchemaRegistry

/-- The fields that trigger no fragment. -/
def ownFields (self : SchemaRegistry) (state : State) : List (String × Value) :=
  state.fields.entries.filter fun entry => !self.triggerKeys.contains entry.1

/-- Where the description of a state begins: the base with the fields of its own
    and with the device type, a triggered fragment with the value of its key. -/
inductive Root (self : SchemaRegistry) (state : State) :
    Fragment → TypedNode → Value → String → Prop where
  | base {fragment : Fragment} :
      fragment ∈ self.fragments → fragment.triggerKey = none →
      Root self state fragment fragment.root (.map (self.ownFields state)) ""
  | deviceType {fragment : Fragment} {node : TypedNode} :
      fragment ∈ self.fragments → fragment.triggerKey = none → state.deviceType ≠ "" →
      fragment.root.property "type" = some node →
      Root self state fragment node (.string state.deviceType) "type"
  | triggered {fragment : Fragment} {key : String} {value : Value} :
      fragment ∈ self.fragments → fragment.triggerKey = some key →
      state.fields.get? key = some value → Root self state fragment fragment.root value key

/-- The parts of a state that a fragment describes. -/
def Described (self : SchemaRegistry) (state : State) (fragment : Fragment) (site : Site) : Prop :=
  ∃ node value path, self.Root state fragment node value path ∧ Part node value path site

/-- A rule is broken somewhere in a state. -/
def Violation (self : SchemaRegistry) (state : State) (writableOnly : Bool)
    (error : ValidationError) : Prop :=
  ∃ fragment site, self.Described state fragment site ∧
    Breaks fragment.name writableOnly site error

/-- No rule is broken anywhere in a state. -/
structure Conformance (registry : SchemaRegistry) (state : State) (writableOnly : Bool) : Prop where
  typed : ∀ {fragment node value path}, registry.Described state fragment ⟨node, value, path⟩ →
    HasType node value
  ranged : ∀ {fragment node value path n}, registry.Described state fragment ⟨node, value, path⟩ →
    node.fieldType = .integer → value.integer? = some n → InRange node n
  listed : ∀ {fragment node text path},
    registry.Described state fragment ⟨node, .string text, path⟩ →
    node.fieldType = .string → IsAllowed node text
  networks : ∀ {fragment node value path}, registry.Described state fragment ⟨node, value, path⟩ →
    node.fieldType = .ipNetwork → IsIpv4Network value
  declared : ∀ {fragment node entries path},
    registry.Described state fragment ⟨node, .map entries, path⟩ → node.fieldType = .object →
      ∀ key ∈ Assoc.keys entries, (node.property key).isSome = true ∨ node.isOpen = true
  required : ∀ {fragment node entries path},
    registry.Described state fragment ⟨node, .map entries, path⟩ → node.fieldType = .object →
      ∀ key ∈ node.node.required, key ∈ Assoc.keys entries
  writable : writableOnly = true → ∀ {fragment node entries path},
    registry.Described state fragment ⟨node, .map entries, path⟩ → node.fieldType = .object →
      ∀ key ∈ Assoc.keys entries, ∀ prop, node.property key = some prop →
        prop.node.writable = true

variable {self : SchemaRegistry} {state : State}

/-- A state conforms when no rule is broken. -/
theorem conformance_iff : self.Conformance state writableOnly ↔
    ∀ error, ¬ self.Violation state writableOnly error := by
  constructor
  · rintro h error ⟨fragment, site, hsite, hbreaks⟩
    cases hbreaks with
    | mistyped hnot => exact hnot (h.typed hsite)
    | outOfRange ht hn hnot => exact hnot (h.ranged hsite ht hn)
    | unlisted ht henum hnot => exact hnot (h.listed hsite ht _ henum)
    | malformed ht _ hnot => exact hnot (h.networks hsite ht)
    | undeclared ht hkey hprop hopen =>
        rcases h.declared hsite ht _ hkey with hdeclared | hisOpen
        · rw [hprop] at hdeclared
          exact Bool.false_ne_true hdeclared
        · exact Bool.false_ne_true (hopen.symm.trans hisOpen)
    | missing ht hrequired hkey => exact hkey (h.required hsite ht _ hrequired)
    | readOnly hw ht hkey hprop hread =>
        exact Bool.false_ne_true (hread.symm.trans (h.writable hw hsite ht _ hkey _ hprop))
  · intro h
    -- A broken rule would be a violation; each field of the conformance excludes one.
    have key : ∀ fragment site error, self.Described state fragment site →
        ¬ Breaks fragment.name writableOnly site error :=
      fun fragment site error hsite hbreaks => h error ⟨fragment, site, hsite, hbreaks⟩
    refine ⟨?typed, ?ranged, ?listed, ?networks, ?declared, ?required, ?writable⟩
    case typed =>
      intro fragment node value path hsite
      by_contra hnot
      exact key _ _ _ hsite (.mistyped hnot)
    case ranged =>
      intro fragment node value path n hsite ht hn
      by_contra hnot
      exact key _ _ _ hsite (.outOfRange ht hn hnot)
    case listed =>
      intro fragment node text path hsite ht allowed henum
      by_contra hnot
      exact key _ _ _ hsite (.unlisted ht henum hnot)
    case networks =>
      intro fragment node value path hsite ht
      by_contra hnot
      -- A value of another type is no network either, but is reported as mistyped.
      by_cases htype : HasType node value
      · exact key _ _ _ hsite (.malformed ht htype hnot)
      · exact key _ _ _ hsite (.mistyped htype)
    case declared =>
      intro fragment node entries path hsite ht k hk
      by_contra hnot
      rw [not_or, Bool.not_eq_true, Bool.not_eq_true, Option.isSome_eq_false_iff,
        Option.isNone_iff_eq_none] at hnot
      exact key _ _ _ hsite (.undeclared ht hk hnot.1 hnot.2)
    case required =>
      intro fragment node entries path hsite ht k hk
      by_contra hnot
      exact key _ _ _ hsite (.missing ht hk hnot)
    case writable =>
      intro hw fragment node entries path hsite ht k hk prop hprop
      by_contra hnot
      rw [Bool.not_eq_true] at hnot
      exact key _ _ _ hsite (.readOnly hw ht hk hprop hnot)

namespace Reachable

variable {parse : String → Except String SchemaNode}

/-- A fragment reports what the parts it describes break. -/
theorem mem_fragmentErrors (hreach : Reachable parse self) {fragment : Fragment}
    (hmem : fragment ∈ self.fragments) :
    error ∈ self.fragmentErrors state writableOnly fragment ↔
      ∃ node value path, self.Root state fragment node value path ∧
        Faulty fragment.name writableOnly node value path error := by
  have ht := hreach.root_fieldType hmem
  have hrequired := hreach.root_required hmem
  rw [fragmentErrors]
  split
  · next hkey =>
      -- The base walks all fields and ignores triggers: it might as well have its own only.
      have hbase : walkMap fragment.name writableOnly fragment.root state.fields.entries ""
          self.triggerKeys =
            walkNode fragment.name writableOnly fragment.root (.map (self.ownFields state)) "" := by
        rw [walkNode_map ht, walkMap, walkEntries_ignore, missingErrors, missingErrors, hrequired]
        rfl
      have htype : fragment.root.property "type" = some (fragment.typeNode hkey) :=
        (Option.some_get (fragment.hasType hkey)).symm
      rw [hbase, List.mem_append, mem_walkNode, walkProperty, readOnlyErrors, Bool.false_and,
        if_neg Bool.false_ne_true, List.nil_append, walkNode_text]
      constructor
      · rintro (hfaulty | hdevice)
        · exact ⟨_, _, _, .base hmem hkey, hfaulty⟩
        · split at hdevice
          · exact absurd hdevice List.not_mem_nil
          · next hdt =>
              exact ⟨_, _, _, .deviceType hmem hkey hdt htype, (mem_walkNode _ _).mp hdevice⟩
      · rintro ⟨node, value, path, hroot, hfaulty⟩
        cases hroot with
        | base => exact Or.inl hfaulty
        | deviceType _ _ hdt hprop =>
            obtain rfl := Option.some.inj (htype.symm.trans hprop)
            rw [if_neg hdt]
            exact Or.inr ((mem_walkNode _ _).mpr hfaulty)
        | triggered _ htrigger =>
            exact absurd (hkey.symm.trans htrigger) (Option.some_ne_none _).symm
  · next key hkey =>
      constructor
      · intro herror
        split at herror
        · next inner hget =>
            rw [walkMap, ← walkNode_map ht, mem_walkNode] at herror
            exact ⟨_, _, _, .triggered hmem hkey hget, herror⟩
        · next other hother hget =>
            refine ⟨_, _, _, .triggered hmem hkey hget, ?_⟩
            -- A triggered root is an object, so what is no map is of the wrong type.
            have hnot : ¬ HasType fragment.root other := by
              rw [hasType_object ht, not_exists]
              exact hother
            rw [faulty_mistyped hnot, ht]
            exact List.mem_singleton.mp herror
        · exact absurd herror List.not_mem_nil
      · rintro ⟨node, value, path, hroot, hfaulty⟩
        cases hroot with
        | base _ hnone => exact absurd (hkey.symm.trans hnone) (Option.some_ne_none _)
        | deviceType _ hnone => exact absurd (hkey.symm.trans hnone) (Option.some_ne_none _)
        | triggered _ htrigger hget =>
            obtain rfl := Option.some.inj (hkey.symm.trans htrigger)
            split
            · next inner hinner =>
                obtain rfl := Option.some.inj (hinner.symm.trans hget)
                rw [walkMap, ← walkNode_map ht, mem_walkNode]
                exact hfaulty
            · next other hother hinner =>
                obtain rfl := Option.some.inj (hinner.symm.trans hget)
                rw [faulty_mistyped (by rw [hasType_object ht, not_exists]; exact hother), ht]
                  at hfaulty
                exact List.mem_singleton.mpr hfaulty
            · next hnone => exact absurd (hget.symm.trans hnone) (Option.some_ne_none _)

/-- Validation reports the violations of a state. -/
theorem mem_validateInner (hreach : Reachable parse self) :
    error ∈ self.validateInner state writableOnly ↔ self.Violation state writableOnly error := by
  rw [validateInner, List.mem_flatMap]
  constructor
  · rintro ⟨fragment, hmem, herror⟩
    rcases (hreach.mem_fragmentErrors hmem).mp herror with ⟨node, value, path, hroot, site, hpart,
      hbreaks⟩
    exact ⟨fragment, site, ⟨node, value, path, hroot, hpart⟩, hbreaks⟩
  · rintro ⟨fragment, site, ⟨node, value, path, hroot, hpart⟩, hbreaks⟩
    -- Only fragments of the registry describe anything.
    have hmem : fragment ∈ self.fragments := by
      cases hroot with
      | base hmem => exact hmem
      | deviceType hmem => exact hmem
      | triggered hmem => exact hmem
    exact ⟨fragment, hmem,
      (hreach.mem_fragmentErrors hmem).mpr ⟨node, value, path, hroot, site, hpart, hbreaks⟩⟩

/-- Validation finds nothing exactly in a state that conforms, and otherwise
    reports every broken rule where it is broken, and nothing else. -/
theorem validate_exact (hreach : Reachable parse self) (state : State) :
    (self.validate state = [] ↔ self.Conformance state false) ∧
      (self.validateWritable state = [] ↔ self.Conformance state true) ∧
      (∀ error, error ∈ self.validate state ↔ self.Violation state false error) ∧
      ∀ error, error ∈ self.validateWritable state ↔ self.Violation state true error := by
  have hnil : ∀ writableOnly, self.validateInner state writableOnly = [] ↔
      self.Conformance state writableOnly := by
    intro writableOnly
    rw [conformance_iff, List.eq_nil_iff_forall_not_mem]
    exact forall_congr' fun error => not_congr hreach.mem_validateInner
  exact ⟨hnil false, hnil true, fun _ => hreach.mem_validateInner,
    fun _ => hreach.mem_validateInner⟩

end Reachable

/-- The schema of a count below ten, to be set by policies, and a reader that knows
    its text alone. -/
def countText : String :=
  "\x7b\"type\":\"integer\",\"x-netfyr-writable\":true,\"minimum\":0,\"maximum\":9\x7d"

def parseCount (json : String) : Except String SchemaNode :=
  if json = countText then
    .ok { type := some .integer, writable := true, minimum := some 0, maximum := some 9 }
  else .error "not a schema"

/-- The embedded registry, with a count among the base properties. -/
def countRegistry : SchemaRegistry := (new.addSchemaNode parseCount "base" "count" countText).2

/-- A state with a count above `i64::MAX`, which no bound may take for negative. -/
def countState : State :=
  (State.new (.static "")).setField "count" (.u64 9223372036854775808) (by decide)

theorem validate_exact_count :
    (countRegistry.validate countState = [] ↔ countRegistry.Conformance countState false) ∧
      (countRegistry.validateWritable countState = [] ↔
        countRegistry.Conformance countState true) ∧
      (∀ error, error ∈ countRegistry.validate countState ↔
        countRegistry.Violation countState false error) ∧
      ∀ error, error ∈ countRegistry.validateWritable countState ↔
        countRegistry.Violation countState true error := by
  have hadd : (new.addSchemaNode parseCount "base" "count" countText).1 = .ok () := by decide
  have hreach : Reachable parseCount countRegistry := .extend .new (Prod.ext hadd rfl)
  exact hreach.validate_exact countState

end SchemaRegistry

end Netfyr
