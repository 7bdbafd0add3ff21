import Netfyr.Schema.Conservative
import Netfyr.Schema.Prepared

/-!
# The Forgotten Selector

A preparation forgets the selector of what came from the kernel and carries its
device type or a read-only field of the base. It looks the fields up in the flat
map, which lists nested ones by dot path as well. The names at the top of a
reachable base are without dots, so for them the flat map says what the property
says, and policy input has no field that would make its selector forgotten.

Two things follow. What was prepared is left alone by another preparation. And
query output, whose selector was derived from the fields that query output only
has, is prepared as the plain states of the same text are.

## Main definitions

* `SchemaRegistry.forgets`: Whether a state loses its selector.
* `Fragment.Flat`: What the flat map needs of the top level of a fragment.
* `SameOutcome`: Two preparations have the same outcome.

## Theorems

* `SchemaRegistry.Reachable.fieldInfo_base`: The flat map at the top of the base.
* `SchemaRegistry.Reachable.prepareForApply_idempotent`: Preparing again.
* `SchemaRegistry.Reachable.prepareForApply_decoded`: Preparing query output.
-/

namespace Netfyr

/-- What the flat map needs of the top level of a fragment. -/
structure Fragment.Flat (fragment : Fragment) : Prop where
  distinct : (Assoc.keys fragment.root.node.properties).Nodup
  dotless : ∀ key ∈ Assoc.keys fragment.root.node.properties, Dotless key
  items : fragment.root.node.items = none
  closed : fragment.root.isOpen = false
  named : fragment.name = "base" ↔ fragment.triggerKey = none

/-- An insertion adds at most the name at the head of its path. -/
theorem mem_keys_insertNode {path : String} {new : SchemaNode} {name : String}
    {parts : List String} {parent : SchemaNode} {key : String}
    (h : key ∈ Assoc.keys (insertNode path new name parts parent).2.properties) :
    key ∈ Assoc.keys parent.properties ∨ key ∈ parts ++ [name] := by
  by_cases hold : key ∈ Assoc.keys parent.properties
  · exact Or.inl hold
  · rw [← Assoc.lookup_isSome, Option.not_isSome_iff_eq_none] at hold
    -- A key that is neither old nor the head of the path stays absent.
    have hhead : key = (parts ++ [name]).headD "" := by
      by_contra hne
      rw [← Assoc.lookup_isSome, lookup_insertNode_none hold hne] at h
      exact absurd h Bool.false_ne_true
    refine Or.inr ?_
    rw [hhead]
    cases parts with
    | nil => exact List.mem_cons_self
    | cons part parts => exact List.mem_cons_self

/-- An insertion keeps the names at the top distinct. -/
theorem nodup_keys_insertNode {path : String} {new : SchemaNode} {name : String}
    {parts : List String} {parent : SchemaNode} (h : (Assoc.keys parent.properties).Nodup) :
    (Assoc.keys (insertNode path new name parts parent).2.properties).Nodup := by
  rcases insertNode_top path new name parts parent with heq | ⟨property, heq, _⟩
  · rw [heq]
    exact h
  · rw [heq]
    exact Assoc.keys_insert_nodup h

namespace Fragment

/-- Insertion along a path without dots keeps the top level flat. -/
theorem Flat.insertNode {fragment : Fragment} (h : fragment.Flat) {path name : String}
    {new : TypedNode} {parts : List String} (hparts : ∀ part ∈ parts ++ [name], Dotless part) :
    (fragment.insertNode path new name parts).2.Flat := by
  -- All of the root is as it was but its properties.
  rcases @insertNode_eq path new.node name parts fragment.root.node with ⟨properties, heq⟩
  have hroot : (fragment.insertNode path new name parts).2.root.node =
      { fragment.root.node with properties } := heq
  refine ⟨nodup_keys_insertNode h.distinct, ?_, ?_, ?_, h.named⟩
  · intro key hkey
    rcases mem_keys_insertNode hkey with hold | hnew
    · exact h.dotless key hold
    · exact hparts key hnew
  · rw [hroot]
    exact h.items
  · rw [TypedNode.isOpen, hroot]
    exact h.closed

end Fragment

namespace SchemaRegistry

variable {parse : String → Except String SchemaNode} {self : SchemaRegistry}

namespace Reachable

/-- Every fragment of a reachable registry is flat at its top level. -/
theorem flat (hreach : Reachable parse self) : ∀ fragment ∈ self.fragments, fragment.Flat := by
  induction hreach with
  | new =>
      have hnew : ∀ fragment ∈ SchemaRegistry.new.fragments,
          (Assoc.keys fragment.root.node.properties).Nodup ∧
            (∀ key ∈ Assoc.keys fragment.root.node.properties, Dotless key) ∧
            fragment.root.node.items.isNone = true ∧ fragment.root.isOpen = false ∧
            (fragment.name = "base" ↔ fragment.triggerKey = none) := by decide
      intro fragment hmem
      rcases hnew fragment hmem with ⟨hdistinct, hdotless, hitems, hclosed, hnamed⟩
      exact ⟨hdistinct, hdotless, Option.isNone_iff_eq_none.mp hitems, hclosed, hnamed⟩
  | @extend registry extended name path json _ hadd ih =>
      have hsnd := congrArg (fun out => out.2) hadd
      dsimp only at hsnd
      rcases addSchemaNode_cases with ⟨err, hrefused⟩ | ⟨_, node, _, before, target, rest, h⟩
      · -- A call that succeeds is not refused.
        rw [hrefused] at hadd
        exact absurd hadd (by simp only [Prod.mk.injEq, reduceCtorEq, false_and,
          not_false_eq_true])
      · rw [← hsnd]
        rw [h.fragments, List.forall_mem_append, List.forall_mem_cons] at ih
        rw [h.updated, List.forall_mem_append, List.forall_mem_cons]
        refine ⟨ih.1, Fragment.Flat.insertNode ih.2.1 ?_, ih.2.2⟩
        rw [h.split]
        exact splitPath_dotless

/-- The fragment of the name `base` is the one without trigger. -/
theorem find_base (hreach : Reachable parse self) :
    (self.fragments.find? fun f => f.name == "base") = some self.base := by
  have hbase := (hreach.flat _ self.base_mem).named.mpr self.base_triggerKey
  cases hfind : self.fragments.find? fun f => f.name == "base" with
  | none =>
      rw [List.find?_eq_none] at hfind
      exact absurd (beq_iff_eq.mpr hbase) (hfind _ self.base_mem)
  | some found =>
      have hmem := List.mem_of_find?_eq_some hfind
      have hnamed := beq_iff_eq.mp (List.find?_some (p := fun f : Fragment => f.name == "base")
        hfind)
      have hnone := (hreach.flat found hmem).named.mp hnamed
      rw [self.eq_of_triggerKey_eq hmem self.base_mem (hnone.trans self.base_triggerKey.symm)]

/-- At a name of the top of the base the flat map says what the property says:
    no nested field has a path without dots. -/
theorem fieldInfo_base (hreach : Reachable parse self) {key : String} (hdotless : Dotless key)
    (hne : key ≠ "") : self.fieldInfo "base" key =
      (self.base.root.property key).map fun prop =>
        { writable := prop.node.writable, type := prop.fieldType } := by
  have hflat := hreach.flat _ self.base_mem
  have hseparate : Separate "" self.base.root.node.properties := by
    intro entry hentry
    refine ⟨hflat.dotless _ (List.mem_map_of_mem hentry), Or.inr ?_⟩
    intro hempty
    -- The empty name is no property of the base.
    have hnone := hreach.base_property_none (Or.inl rfl)
    rw [← Option.map_eq_none_iff, TypedNode.property_map_node,
      ← Option.not_isSome_iff_eq_none, Assoc.lookup_isSome] at hnone
    exact hnone (hempty ▸ List.mem_map_of_mem hentry)
  have hroot : joinPath "" key = key := if_pos rfl
  rw [fieldInfo, hreach.find_base, Option.bind_some, Fragment.lookup_fields, fieldAt_eq,
    hflat.items, fieldAtItems, Option.none_or,
    fieldAtProperties_within hseparate hflat.distinct hdotless (Or.inl hroot.symm),
    ← TypedNode.property_map_node, hroot]
  cases self.base.root.property key with
  | none => rfl
  | some prop =>
      -- What lies below the property has a longer path.
      have hbelow : fieldAt key prop.node key = none := by
        rw [← Option.not_isSome_iff_eq_none]
        exact fun hsome => below_ne (fieldAt_below prop.node key hne hsome) rfl
      rw [Option.map_some, Option.bind_some, fieldOf, hbelow, Option.none_or, if_pos rfl,
        nodeInfo_typed, Option.map_some]

/-- A trigger is no field of the base. -/
theorem fieldInfo_trigger (hreach : Reachable parse self) {key : String}
    (hkey : key = "ipv4" ∨ key = "ethernet") : self.fieldInfo "base" key = none := by
  have hplain : Dotless key ∧ key ≠ "" := by
    rcases hkey with rfl | rfl
    · decide
    · decide
  rw [hreach.fieldInfo_base hplain.1 hplain.2, hreach.base_property_none (Or.inr hkey),
    Option.map_none]

end Reachable

/-- Whether a preparation forgets the selector of a state: it came from the
    kernel, with its device type or a read-only field of the base. -/
def forgets (self : SchemaRegistry) (state : State) : Prop :=
  state.source = .kernel ∧
    (state.deviceType ≠ "" ∨ state.fields.keys.any fun key =>
      (self.fieldInfo "base" key).any fun info => !info.writable)

theorem forgetQueryMatch_of_forgets {state : State} (h : self.forgets state) :
    self.forgetQueryMatch state = { state with matchSpec := {} } := if_pos h

theorem forgetQueryMatch_of_not_forgets {state : State} (h : ¬ self.forgets state) :
    self.forgetQueryMatch state = state := if_neg h

section Idempotent

variable {state : State}

/-- No field of policy input is a read-only one of the base. -/
theorem Reachable.fieldInfo_writable (hreach : Reachable parse self)
    (hvalid : self.validateWritable state = []) {key : String} (hkey : key ∈ state.fields.keys)
    {info : FieldInfo} (hinfo : self.fieldInfo "base" key = some info) : info.writable = true := by
  have hconforms := validateInner_eq_nil.mp hvalid _ self.base_mem
  have hentries := conformsEntries_iff.mp (hconforms.1 self.base_triggerKey).1
  by_cases htrigger : key ∈ self.triggerKeys
  · -- A technology object is no field of the base.
    rcases mem_triggerKeys.mp htrigger with ⟨fragment, hfragment⟩
    have hkeys := hreach.triggered_isSome.mp (Option.isSome_iff_exists.mpr ⟨fragment, hfragment⟩)
    rw [hreach.fieldInfo_trigger hkeys] at hinfo
    exact absurd hinfo (by simp only [reduceCtorEq, not_false_eq_true])
  · rcases List.mem_map.mp hkey with ⟨entry, hentry, rfl⟩
    have hdeclared := hentries entry hentry htrigger
    have hflat := hreach.flat _ self.base_mem
    cases hprop : self.base.root.property entry.1 with
    | none =>
        -- The base takes no key that it does not declare.
        exact absurd ((hdeclared.2 hprop).symm.trans hflat.closed) Bool.noConfusion
    | some prop =>
        have hmem : entry.1 ∈ Assoc.keys self.base.root.node.properties := by
          rw [← Assoc.lookup_isSome, ← TypedNode.property_isSome, hprop]
          rfl
        have hne : entry.1 ≠ "" := by
          intro hempty
          rw [hreach.base_property_none (Or.inl hempty)] at hprop
          exact absurd hprop (by simp only [reduceCtorEq, not_false_eq_true])
        rw [hreach.fieldInfo_base (hflat.dotless _ hmem) hne, hprop, Option.map_some,
          Option.some.injEq] at hinfo
        rw [← hinfo]
        exact (hdeclared.1 prop hprop).1 rfl

/-- Policy input without a device type keeps its selector. -/
theorem Reachable.not_forgets (hreach : Reachable parse self)
    (hvalid : self.validateWritable state = [])
    (hstate : state.source = .kernel → state.deviceType = "") : ¬ self.forgets state := by
  rintro ⟨hsource, htype | hreadOnly⟩
  · exact htype (hstate hsource)
  · rcases List.any_eq_true.mp hreadOnly with ⟨key, hkey, hinfo⟩
    rcases (Option.any_eq_true _ _).mp hinfo with ⟨info, hsome, hwritable⟩
    rw [hreach.fieldInfo_writable hvalid hkey hsome] at hwritable
    exact absurd hwritable Bool.false_ne_true

theorem moveDeviceType_deviceType : (moveDeviceType state).deviceType = "" := by
  rw [moveDeviceType]
  split
  · next hempty => exact hempty
  · rfl

/-- A state from the kernel is prepared to one without a device type: with one
    it has lost its selector, and with no selector its type moves there. -/
theorem prepareState_kernel {matchBy : MatchBy} {stateIndex : Nat} {out : State × List Warning}
    (h : self.prepareState matchBy stateIndex (self.forgetQueryMatch state) = .ok out)
    (hsource : out.1.source = .kernel) : out.1.deviceType = "" := by
  rcases prepareState_ok h with ⟨hselector, rfl⟩ | ⟨_, _, _, _, rfl⟩
  · by_cases hforgets : self.forgets state
    · rw [forgetQueryMatch_of_forgets hforgets] at hselector
      exact absurd hselector Bool.noConfusion
    · rw [forgetQueryMatch_of_not_forgets hforgets] at hsource ⊢
      by_contra htype
      exact hforgets ⟨hsource, Or.inl htype⟩
  · exact moveDeviceType_deviceType

/-- What a state was prepared to is prepared to itself. -/
theorem Prepares.again (hreach : Reachable parse self) {first : MatchBy}
    {part : State × List Warning} (h : self.Prepares first state part) (second : MatchBy) :
    self.Prepares second part.1 (part.1, []) := by
  have hselected := prepareState_selects h.prepared
  have hforgets := hreach.not_forgets h.after fun hsource => prepareState_kernel h.prepared hsource
  have hkept := forgetQueryMatch_of_not_forgets hforgets
  refine ⟨?_, ?_, h.after⟩
  · -- It is validated as policy input again, for it has a selector.
    rw [hkept, hselected]
    exact h.after
  · rw [hkept, prepareState, hselected]
    rfl

/-- What a preparation leaves is kept by another one, whatever strategy either
    follows: it succeeds, with the same states and no warning. -/
theorem Reachable.prepareForApply_idempotent (hreach : Reachable parse self)
    (first second : MatchBy) (states : List State) (outcome : ApplyOutcome)
    (h : prepareForApplyWithRegistry states first self = .ok outcome) :
    prepareForApplyWithRegistry outcome.states second self =
      .ok { states := outcome.states, warnings := [] } := by
  rcases prepareForApply_iff.mp h with ⟨parts, hparts, rfl⟩
  have hagain : List.Forall₂ (self.Prepares second) (parts.map Prod.fst)
      (parts.map fun part => (part.1, [])) := by
    rw [List.forall₂_map_left_iff, List.forall₂_map_right_iff, List.forall₂_same]
    intro part hpart
    rcases exists_of_mem_forall₂ hparts hpart with ⟨state, _, hone⟩
    exact hone.again hreach second
  refine prepareForApply_iff.mpr ⟨_, hagain, ?_⟩
  rw [List.map_map, List.flatMap_map]
  refine congrArg (ApplyOutcome.mk (parts.map Prod.fst)) ?_
  exact (List.flatMap_eq_nil_iff.mpr fun _ _ => rfl).symm

/-- The device of query output as a preparation leaves it. -/
def eth0Prepared : State :=
  { eth0Queried with deviceType := "", fields := ⟨[("mtu", .u64 9000)], by decide⟩ }

/-- Query output prepared by name, and what came of it by hardware address. -/
theorem prepareForApply_idempotent_eth0 :
    prepareForApplyWithRegistry [eth0Prepared] .mac .new =
      .ok { states := [eth0Prepared], warnings := [] } := by
  have hreach : SchemaRegistry.new.Reachable fun _ => .error "not a schema" := .new
  exact hreach.prepareForApply_idempotent .name .mac [eth0Queried] ⟨[eth0Prepared], []⟩ (by rfl)

end Idempotent

end SchemaRegistry

/-- Two preparations have the same outcome: the same error, or states of the
    same content in the same order, with the same warnings. -/
inductive SameOutcome : Except Error ApplyOutcome → Except Error ApplyOutcome → Prop where
  | refused (error : Error) : SameOutcome (.error error) (.error error)
  | prepared {first second : ApplyOutcome} :
      List.Forall₂ (fun a b => a.contentEq b = true) first.states second.states →
      first.warnings = second.warnings → SameOutcome (.ok first) (.ok second)

namespace SchemaRegistry

section Decoded

variable {parse : String → Except String SchemaNode} {self : SchemaRegistry} {matchBy : MatchBy}
  {state : State}

/-- The state with the provenance of query output. -/
def observed (state : State) : State :=
  { state with source := .kernel, priority := Source.kernel.defaultPriority }

@[simp] theorem observed_matchSpec : (observed state).matchSpec = state.matchSpec := rfl

@[simp] theorem observed_fields : (observed state).fields = state.fields := rfl

theorem observed_contentEq : (observed state).contentEq state = true :=
  State.contentEq_iff.mpr ⟨rfl, rfl, rfl⟩

/-- A text field that the embedded base declares read-only makes a preparation
    forget the selector of query output. -/
theorem Reachable.fieldString_none (hreach : Reachable parse self)
    (hforgets : ¬ self.forgets (deriveQueryMatch state)) (key : String) {node : SchemaNode}
    (hkey : baseJson.properties.lookup key = some node) (hreadOnly : node.writable = false)
    (hdotless : Dotless key) (hne : key ≠ "") : fieldString state.fields key = none := by
  by_contra hsome
  refine hforgets ⟨rfl, Or.inr (List.any_eq_true.mpr ⟨key, ?_, ?_⟩)⟩
  · -- The field is there, whatever its value is.
    rw [fieldString] at hsome
    have hget : state.fields.get? key ≠ none := by
      intro hnone
      rw [hnone] at hsome
      exact hsome rfl
    rcases Option.ne_none_iff_exists'.mp hget with ⟨value, hvalue⟩
    exact List.mem_map.mpr ⟨_, Assoc.mem_of_lookup hvalue, rfl⟩
  · have hlookup := hreach.base_lookup hkey
    rw [← TypedNode.property_map_node, Option.map_eq_some_iff] at hlookup
    rcases hlookup with ⟨prop, hprop, rfl⟩
    rw [hreach.fieldInfo_base hdotless hne, hprop, Option.map_some, Option.any_some,
      hreadOnly]
    rfl

/-- Query output loses its selector: either it is forgotten, or there was no
    field to derive one from. -/
theorem Reachable.forgetQueryMatch_derived (hreach : Reachable parse self)
    (hempty : state.matchSpec.isEmpty = true) :
    self.forgetQueryMatch (deriveQueryMatch state) = observed state := by
  rw [Match.isEmpty_iff] at hempty
  have hobserved : observed state = { observed state with matchSpec := {} } := by
    rw [← hempty]
    rfl
  by_cases hforgets : self.forgets (deriveQueryMatch state)
  · rw [forgetQueryMatch_of_forgets hforgets, hobserved]
    rfl
  · have htype : state.deviceType = "" := by
      by_contra htype
      exact hforgets ⟨rfl, Or.inl htype⟩
    have hname := hreach.fieldString_none hforgets "name" rfl rfl (by decide) (by decide)
    have hdriver := hreach.fieldString_none hforgets "driver" rfl rfl (by decide) (by decide)
    have hmac := hreach.fieldString_none hforgets "mac" rfl rfl (by decide) (by decide)
    rw [forgetQueryMatch_of_not_forgets hforgets, hobserved, deriveQueryMatch, hname, hdriver,
      hmac, if_pos htype, hempty]
    rfl

/-- A plain state has no selector to lose. -/
theorem forgetQueryMatch_of_isEmpty (hempty : state.matchSpec.isEmpty = true) :
    self.forgetQueryMatch state = state := by
  rw [Match.isEmpty_iff] at hempty
  unfold forgetQueryMatch
  split
  · rw [← hempty]
  · rfl

theorem collectValidationErrors_observed (finalStates : Bool) (states : List State) :
    self.collectValidationErrors finalStates (states.map observed) =
      self.collectValidationErrors finalStates states := by
  unfold collectValidationErrors
  rw [List.zipIdx_map, List.flatMap_map]
  rfl

theorem prepareState_observed (stateIndex : Nat) :
    self.prepareState matchBy stateIndex (observed state) =
      (self.prepareState matchBy stateIndex state).map fun out => (observed out.1, out.2) := by
  rw [prepareState, prepareState, observed_matchSpec, observed_fields]
  cases state.matchSpec.isEmpty with
  | false => rfl
  | true =>
      rw [Bool.not_true, if_neg Bool.false_ne_true, if_neg Bool.false_ne_true]
      cases state.fields.get? matchBy.field with
      | none => rfl
      | some value =>
          -- Whether there is a device type to move is the same for both.
          by_cases htype : state.deviceType = ""
          · simp only [moveDeviceType, removeReadOnlyFields, observed, Except.map, htype, if_true]
          · simp only [moveDeviceType, removeReadOnlyFields, observed, Except.map, htype, if_false]

/-- The preparation does not look at the provenance. -/
theorem prepareStates_observed (states : List State) (stateIndex : Nat) :
    self.prepareStates matchBy (states.map observed) stateIndex =
      (self.prepareStates matchBy states stateIndex).map
        fun out => (out.1.map observed, out.2) := by
  induction states generalizing stateIndex with
  | nil => rfl
  | cons state states ih =>
      rw [List.map_cons, prepareStates, prepareStates, prepareState_observed, ih]
      cases self.prepareState matchBy stateIndex state with
      | error error => rfl
      | ok out =>
          cases self.prepareStates matchBy states (stateIndex + 1) with
          | error error => rfl
          | ok rest => rfl

end Decoded

/-- Query output is prepared as the plain states of its text are. -/
theorem Reachable.prepareForApply_decoded {parse : String → Except String SchemaNode}
    {self : SchemaRegistry} (hreach : Reachable parse self)
    (parseYaml : String → Except String YamlValue) (input : String) (matchBy : MatchBy)
    (decoded : List State) (h : self.decodeYaml parseYaml input .query = .ok decoded) :
    ∃ states, self.fromYaml parseYaml input = .ok states ∧
      SameOutcome (prepareForApplyWithRegistry decoded matchBy self)
        (prepareForApplyWithRegistry states matchBy self) := by
  rcases except_bind_eq_ok.mp h with ⟨states, hstates, h⟩
  rcases except_bind_eq_ok.mp h with ⟨errors, herrors, h⟩
  split at h
  · exact absurd h (by simp only [reduceCtorEq, not_false_eq_true])
  · next hnil =>
      rw [not_not] at hnil
      subst hnil
      obtain rfl := Except.ok.inj h
      have hempty := decodeErrors_query herrors
      -- Without their selectors the two lists differ in provenance only.
      have hderived : (states.map deriveQueryMatch).map self.forgetQueryMatch =
          states.map observed := by
        rw [List.map_map]
        exact List.map_congr_left fun state hmem =>
          hreach.forgetQueryMatch_derived (hempty state hmem).1
      have hplain : states.map self.forgetQueryMatch = states := by
        rw [List.map_congr_left fun state hmem => forgetQueryMatch_of_isEmpty (hempty state hmem).1,
          List.map_id']
      refine ⟨states, hstates, ?_⟩
      rw [prepareForApplyWithRegistry, prepareForApplyWithRegistry]
      dsimp only
      rw [hderived, hplain, collectValidationErrors_observed, prepareStates_observed]
      split
      · exact .refused _
      · cases self.prepareStates matchBy states 0 with
        | error error => exact .refused error
        | ok out =>
            dsimp only [Except.map, bind, Except.bind]
            rw [collectValidationErrors_observed]
            split
            · exact .refused _
            · refine .prepared ?_ rfl
              rw [List.forall₂_map_left_iff]
              exact List.forall₂_same.mpr fun state _ => observed_contentEq

/-- Query output of the embedded registry, prepared with its names as selectors. -/
theorem prepareForApply_decoded_eth0 :
    ∃ states, SchemaRegistry.new.fromYaml parseEth0 eth0Text = .ok states ∧
      SameOutcome (prepareForApplyWithRegistry [eth0Queried] .name .new)
        (prepareForApplyWithRegistry states .name .new) := by
  have hreach : SchemaRegistry.new.Reachable fun _ => .error "not a schema" := .new
  exact hreach.prepareForApply_decoded parseEth0 eth0Text .name [eth0Queried] (by decide)

end SchemaRegistry

end Netfyr
