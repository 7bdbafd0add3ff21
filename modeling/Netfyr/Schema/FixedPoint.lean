import Netfyr.Data.Lists
import Netfyr.Schema.Accounted
import Netfyr.Schema.RoundTrip

/-!
# Prepared States, Written and Read Back

Preparation drops fields, and what it leaves is still readable: pruning keeps
every value it keeps as it was, or prunes it along the schema it was read by. So
prepared states are written, read again and written again to the same text.

Whether the same states are read is a matter of the device type. Preparation
moves it into the selector, and reading implies it again when a technology
object is still there. The embedded schema of that object declares read-only
fields alone, and the object goes with the last of them; a registry that adds a
writable one keeps the object, and then a device type appears that was moved.

## Main definitions

* `SchemaRegistry.PolicyFixedPoint`: Writing, reading and writing again changes
  nothing.
* `SchemaRegistry.TechnologyReadOnly`: Technology objects hold read-only fields.

## Theorems

* `fieldsReadable_pruneFields`: Pruning keeps fields readable.
* `stateToMapping_reread`: A state that was read again is written alike.
* `implied_pruneFields`: When pruning leaves nothing to imply a device type.
* `prepared_fixedPoint_iff`: When prepared states are a fixed point.
-/

namespace Netfyr

mutual
/-- What pruning leaves of a readable value is readable. -/
theorem readable_pruneProperty {node : TypedNode} : (value : Value) → (path : String) →
    Readable value (some node) → ∀ left, (pruneProperty node value path).1 = some left →
      Readable left (some node)
  | value, path, h, left, hleft => by
      cases hwritable : node.node.writable with
      | false =>
          rw [pruneProperty_readOnly hwritable] at hleft
          exact absurd hleft (by simp only [reduceCtorEq, not_false_eq_true])
      | true =>
          cases value with
          | map entries =>
              rw [pruneProperty_map hwritable] at hleft
              obtain rfl := Option.some.inj hleft
              exact readable_pruneEntries entries path h
          | list items =>
              rw [pruneProperty_list hwritable] at hleft
              cases hitems : node.items with
              | none =>
                  rw [hitems] at hleft
                  obtain rfl := Option.some.inj hleft
                  exact h
              | some itemSchema =>
                  have hread : ReadableItems items (node.items) := h
                  rw [hitems] at hleft hread
                  obtain rfl := Option.some.inj hleft
                  have hpruned := readable_pruneItems items path 0 hread
                  unfold Readable
                  rw [Option.bind_some, hitems]
                  exact hpruned
          | _ =>
              rw [pruneProperty_scalar hwritable (by trivial)] at hleft
              obtain rfl := Option.some.inj hleft
              exact h
termination_by structural value => value
/-- The same for the entries of an object. -/
theorem readable_pruneEntries {node : TypedNode} : (entries : List (String × Value)) →
    (path : String) → ReadableEntries entries (some node) →
    ReadableEntries (pruneEntries node entries path).1 (some node)
  | [], _, _ => trivial
  | (key, value) :: entries, path, h => by
      have hrest := readable_pruneEntries entries path h.2
      have hvalue : Readable value (node.property key) := h.1
      rw [readableEntries_iff] at hrest ⊢
      intro entry hmem
      rw [pruneEntries, mem_keepEntry] at hmem
      rcases hmem with ⟨hkey, hleft⟩ | hold
      · rw [Option.bind_some, hkey]
        cases hproperty : node.property key with
        | none =>
            rw [hproperty] at hleft hvalue
            rw [← Option.some.inj hleft]
            exact hvalue
        | some property =>
            rw [hproperty] at hleft hvalue
            exact readable_pruneProperty value (joinPath path key) hvalue entry.2 hleft
      · exact hrest entry hold
termination_by structural entries => entries
/-- The same for the elements of an array. -/
theorem readable_pruneItems {node : TypedNode} : (items : List Value) → (path : String) →
    (index : Nat) → ReadableItems items (some node) →
    ReadableItems (pruneItems node items path index).1 (some node)
  | [], _, _, _ => trivial
  | .map entries :: items, path, index, h =>
      ⟨readable_pruneEntries entries s!"{path}[{index}]" h.1,
        readable_pruneItems items path (index + 1) h.2⟩
  | .string _ :: items, path, index, h | .u64 _ :: items, path, index, h
  | .i64 _ :: items, path, index, h | .bool _ :: items, path, index, h
  | .ipAddr _ :: items, path, index, h | .ipNetwork _ _ :: items, path, index, h
  | .list _ :: items, path, index, h =>
      ⟨h.1, readable_pruneItems items path (index + 1) h.2⟩
termination_by structural items => items
end

/-- Nothing is left of an object exactly when all its fields are read-only. -/
theorem pruneEntries_eq_nil {node : TypedNode} {path : String} {entries : List (String × Value)} :
    (pruneEntries node entries path).1 = [] ↔ ∀ key ∈ Assoc.keys entries,
      ∃ property, node.property key = some property ∧ property.node.writable = false := by
  induction entries with
  | nil => exact ⟨fun _ key hmem => absurd hmem List.not_mem_nil, fun _ => rfl⟩
  | cons entry entries ih =>
      rcases entry with ⟨key, value⟩
      rw [pruneEntries, keepEntry, Assoc.keys_cons, List.forall_mem_cons, List.append_eq_nil_iff,
        ih, List.map_eq_nil_iff, Option.toList_eq_nil_iff]
      refine and_congr_left' ?_
      cases hproperty : node.property key with
      | none =>
          constructor
          · intro h
            exact absurd h (by simp only [reduceCtorEq, not_false_eq_true])
          · rintro ⟨property, heq, _⟩
            exact absurd heq (by simp only [reduceCtorEq, not_false_eq_true])
      | some property =>
          cases hwritable : property.node.writable with
          | true =>
              constructor
              · intro h
                have hkept := pruneProperty_isSome hwritable value (joinPath path key)
                rw [h] at hkept
                exact absurd hkept Bool.false_ne_true
              · rintro ⟨other, heq, hother⟩
                rw [← Option.some.inj heq, hwritable] at hother
                exact absurd hother Bool.false_ne_true.symm
          | false =>
              constructor
              · intro _
                exact ⟨property, rfl, hwritable⟩
              · intro _
                dsimp only
                rw [pruneProperty_readOnly hwritable]

namespace SchemaRegistry

variable {self : SchemaRegistry} {parse : String → Except String SchemaNode}
  {matchBy : MatchBy} {state : State} {states : List State}

/-- The schema of a trigger is its fragment's root. -/
theorem Reachable.topLevelSchema_triggered (hreach : Reachable parse self) {key : String}
    {fragment : Fragment} (h : self.triggered key = some fragment) :
    self.topLevelSchema key = some fragment.root := by
  have htrigger : key = "ipv4" ∨ key = "ethernet" := by
    rw [← hreach.triggered_isSome, h, Option.isSome_some]
  rw [topLevelSchema, hreach.base_property_none (Or.inr htrigger), h]
  rfl

theorem readable_pruneField (hreach : Reachable parse self) {key : String} {value left : Value}
    (h : Readable value (self.topLevelSchema key))
    (hleft : (self.pruneField key value).1 = some left) :
    Readable left (self.topLevelSchema key) := by
  rw [pruneField] at hleft
  cases htriggered : self.triggered key with
  | none =>
      rw [htriggered] at hleft
      rw [topLevelSchema, htriggered, Option.map_none, Option.or_none] at h ⊢
      cases hproperty : self.base.root.property key with
      | none =>
          rw [hproperty] at hleft h
          rw [← Option.some.inj hleft]
          exact h
      | some node =>
          rw [hproperty] at hleft h
          exact readable_pruneProperty value (joinPath "" key) h left hleft
  | some fragment =>
      rw [htriggered] at hleft
      rw [hreach.topLevelSchema_triggered htriggered] at h ⊢
      cases value with
      | map entries =>
          dsimp only at hleft
          rw [Option.ite_none_left_eq_some] at hleft
          rw [← Option.some.inj hleft.2]
          exact readable_pruneEntries entries key h
      | _ =>
          rw [← Option.some.inj hleft]
          exact h

/-- Pruning keeps fields readable. -/
theorem fieldsReadable_pruneFields (hreach : Reachable parse self)
    {entries : List (String × Value)} (h : self.FieldsReadable entries) :
    self.FieldsReadable (self.pruneFields entries).1 := by
  intro entry hmem
  rcases mem_pruneFields.mp hmem with ⟨value, hvalue, hleft⟩
  have hfield := h (entry.1, value) hvalue
  exact ⟨hfield.1, readable_pruneField hreach hfield.2 hleft⟩

/-- A prepared state is readable when the state was. -/
theorem prepareState_readable (hreach : Reachable parse self) {stateIndex : Nat}
    {out : State × List Warning} (hread : self.FieldsReadable state.fields.entries)
    (h : self.prepareState matchBy stateIndex state = .ok out) :
    self.FieldsReadable out.1.fields.entries := by
  rcases prepareState_ok h with ⟨_, rfl⟩ | ⟨_, value, text, _, rfl⟩
  · exact hread
  · have hselected : self.FieldsReadable (selected matchBy state text).fields.entries :=
      fun entry hmem => hread entry (List.mem_of_mem_filter hmem)
    have hpruned := fieldsReadable_pruneFields hreach hselected
    rw [moveDeviceType]
    split <;> exact hpruned

/-! ### The device type -/

/-- No fragment implies the empty device type. -/
theorem Reachable.implied_ne_empty (hreach : Reachable parse self) :
    ∀ fragment ∈ self.fragments, fragment.root.node.impliedDeviceType ≠ some "" := by
  refine hreach.forall_mem ?_ ?_
  · decide
  · intro registry old fragment _ hextended h
    rcases hextended.root_eq with ⟨properties, heq⟩
    rw [heq]
    exact h

/-- A device type is implied when a technology object is there. -/
theorem Reachable.implied_getD_eq (hreach : Reachable parse self) {fields : FieldMap} :
    (self.impliedDeviceType fields).getD "" = "" ↔
      ∀ key fragment, self.triggered key = some fragment →
        fragment.root.node.impliedDeviceType ≠ none → fields.get? key = none := by
  have hnone : (self.impliedDeviceType fields).getD "" = "" ↔
      self.impliedDeviceType fields = none := by
    cases himplied : self.impliedDeviceType fields with
    | none => exact ⟨fun _ => rfl, fun _ => rfl⟩
    | some implied =>
        rcases List.exists_of_findSome?_eq_some himplied with ⟨fragment, hmem, hfragment⟩
        have hne := hreach.implied_ne_empty fragment (List.mem_of_mem_filter hmem)
        constructor
        · intro hempty
          rw [hfragment] at hne
          exact absurd (congrArg some hempty) hne
        · intro h
          exact absurd h (by simp only [reduceCtorEq, not_false_eq_true])
  rw [hnone, impliedDeviceType, List.findSome?_eq_none_iff]
  constructor
  · intro h key fragment htriggered himplied
    rcases triggered_eq_some.mp htriggered with ⟨hmem, hkey⟩
    cases hget : fields.get? key with
    | none => rfl
    | some value =>
        refine absurd (h fragment (List.mem_filter.mpr ⟨hmem, ?_⟩)) himplied
        rw [hkey, Option.any_some, FieldMap.containsKey, hget, Option.isSome_some]
  · intro h fragment hmem
    rw [List.mem_filter, Option.any_eq_true] at hmem
    rcases hmem with ⟨hfragment, key, hkey, hcontains⟩
    by_contra himplied
    have hget := h key fragment (triggered_eq_some.mpr ⟨hfragment, hkey⟩) himplied
    rw [FieldMap.containsKey, hget, Option.isSome_none] at hcontains
    exact absurd hcontains Bool.false_ne_true

/-- The objects of the fragments that imply a device type hold nothing but
    fields that the registry declares read-only. -/
def TechnologyReadOnly (self : SchemaRegistry) (state : State) : Prop :=
  ∀ key fragment inner, self.triggered key = some fragment →
    fragment.root.node.impliedDeviceType ≠ none → state.fields.get? key = some (.map inner) →
      ∀ field ∈ Assoc.keys inner,
        ∃ property, fragment.root.property field = some property ∧ property.node.writable = false

theorem get?_removeReadOnlyFields {key : String} :
    (self.removeReadOnlyFields state).1.fields.get? key = none ↔
      ∀ value, state.fields.get? key = some value → (self.pruneField key value).1 = none := by
  have hkey : (self.removeReadOnlyFields state).1.fields.get? key = none ↔
      ¬ ∃ left, (key, left) ∈ (self.pruneFields state.fields.entries).1 := by
    rw [← Option.not_isSome_iff_eq_none, FieldMap.get?_isSome, FieldMap.keys, Assoc.keys,
      List.mem_map]
    refine not_congr ⟨?_, ?_⟩
    · rintro ⟨entry, hmem, rfl⟩
      exact ⟨entry.2, hmem⟩
    · rintro ⟨left, hmem⟩
      exact ⟨(key, left), hmem, rfl⟩
  rw [hkey]
  constructor
  · intro h value hvalue
    by_contra hkept
    rcases Option.ne_none_iff_exists'.mp hkept with ⟨left, hleft⟩
    exact h ⟨left, mem_pruneFields.mpr ⟨value, Assoc.mem_of_lookup hvalue, hleft⟩⟩
  · rintro h ⟨left, hmem⟩
    rcases mem_pruneFields.mp hmem with ⟨value, hvalue, hleft⟩
    have hnone := h value (Assoc.lookup_of_mem state.fields.wellKeyed.1 hvalue)
    rw [hnone] at hleft
    exact absurd hleft (by simp only [reduceCtorEq, not_false_eq_true])

/-- After pruning no device type is implied exactly when the technology objects
    held read-only fields alone: each of them went with its last field. -/
theorem Reachable.implied_pruneFields (hreach : Reachable parse self)
    (hvalid : self.validate state = []) (matchBy : MatchBy) (text : String) :
    (self.impliedDeviceType
        (self.removeReadOnlyFields (selected matchBy state text)).1.fields).getD "" = "" ↔
      self.TechnologyReadOnly state := by
  rw [hreach.implied_getD_eq]
  -- The field that became the selector is no trigger.
  have hselected : ∀ key fragment, self.triggered key = some fragment →
      (selected matchBy state text).fields.get? key = state.fields.get? key := by
    intro key fragment htriggered
    have hne : key ≠ matchBy.field := by
      intro heq
      rw [heq, hreach.selector_triggered] at htriggered
      exact absurd htriggered (by simp only [reduceCtorEq, not_false_eq_true])
    rw [selected, FieldMap.get?_shiftRemove, if_neg hne]
  have hprune : ∀ key fragment inner, self.triggered key = some fragment →
      ((self.pruneField key (.map inner)).1 = none ↔ ∀ field ∈ Assoc.keys inner,
        ∃ property, fragment.root.property field = some property ∧
          property.node.writable = false) := by
    intro key fragment inner htriggered
    have hnil : (pruneEntries fragment.root inner key).1 = [] ↔ _ := pruneEntries_eq_nil
    rw [pruneField, htriggered, ← hnil]
    exact ite_eq_left_iff.trans (not_imp_comm.trans
      ⟨fun h => h (by simp only [reduceCtorEq, not_false_eq_true]), fun h _ => h⟩)
  constructor
  · intro h key fragment inner htriggered himplied hinner
    have hnone := h key fragment htriggered himplied
    rw [get?_removeReadOnlyFields, hselected key fragment htriggered] at hnone
    exact (hprune key fragment inner htriggered).mp (hnone _ hinner)
  · intro h key fragment htriggered himplied
    rw [get?_removeReadOnlyFields, hselected key fragment htriggered]
    intro value hvalue
    -- A valid state has an object at a trigger.
    have hfield := (stateConforms_iff.mp (validateInner_eq_nil.mp hvalid)).1 key value hvalue
    rw [FieldConforms, htriggered] at hfield
    rcases hfield with ⟨inner, rfl, _⟩
    exact (hprune key fragment inner htriggered).mpr
      (h key fragment inner htriggered himplied hvalue)

/-- Whether a prepared state is read again as it is. -/
theorem contentEq_prepareState (hreach : Reachable parse self) {stateIndex : Nat}
    {out : State × List Warning}
    (hvalid : state.matchSpec.isEmpty = true → self.validate state = [])
    (htype : state.deviceType = "" → (self.impliedDeviceType state.fields).getD "" = "")
    (h : self.prepareState matchBy stateIndex state = .ok out) :
    (self.reread true out.1).contentEq out.1 = true ↔
      (state.matchSpec.isEmpty = true → self.TechnologyReadOnly state) := by
  rw [contentEq_reread, and_iff_left fun hfalse => absurd hfalse Bool.false_ne_true.symm]
  rcases prepareState_ok h with ⟨hselects, rfl⟩ | ⟨hempty, value, text, _, rfl⟩
  · rw [hselects]
    exact iff_of_true htype fun hfalse => absurd hfalse Bool.false_ne_true
  · have himplied := hreach.implied_pruneFields (hvalid hempty) matchBy text
    have hmoved : (moveDeviceType
        (self.removeReadOnlyFields (selected matchBy state text)).1).deviceType = "" := by
      rw [moveDeviceType]
      split
      · assumption
      · rfl
    have hfields : (moveDeviceType
        (self.removeReadOnlyFields (selected matchBy state text)).1).fields =
          (self.removeReadOnlyFields (selected matchBy state text)).1.fields := by
      rw [moveDeviceType]
      split <;> rfl
    rw [hfields, himplied]
    exact ⟨fun h _ => h hmoved, fun h _ => h hempty⟩

/-! ### The text -/

/-- A state that was read again is written alike: its type is left out when it
    was left out before. -/
theorem stateToMapping_reread {stateIndex : Nat} :
    self.stateToMapping true stateIndex (self.reread true state) =
      self.stateToMapping true stateIndex state := by
  by_cases hempty : state.deviceType = ""
  · have homits : self.omitsType true state = true := by
      rw [omitsType, hempty]
      rfl
    have homits' : self.omitsType true (self.reread true state) = true := by
      rw [omitsType, reread, if_pos hempty]
      cases self.impliedDeviceType state.fields with
      | none => rfl
      | some implied => exact Bool.or_eq_true_iff.mpr (Or.inr (beq_self_eq_true _))
    rw [stateToMapping, stateToMapping, homits, homits']
    rfl
  · have homits : self.omitsType true (self.reread true state) = self.omitsType true state := by
      rw [omitsType, omitsType, reread, if_neg hempty]
    rw [stateToMapping, stateToMapping, homits, reread, if_neg hempty]
    rfl

theorem statesToMappings_reread {stateIndex : Nat} :
    self.statesToMappings true (states.map (self.reread true)) stateIndex =
      self.statesToMappings true states stateIndex := by
  induction states generalizing stateIndex with
  | nil => rfl
  | cons state states ih =>
      rw [List.map_cons, statesToMappings, statesToMappings, stateToMapping_reread, ih]

/-- States that were read again are written to the same text. -/
theorem toYamlPolicy_reread {print : YamlValue → Except String String} :
    self.toYamlPolicy print (states.map (self.reread true)) = self.toYamlPolicy print states := by
  have htree : self.renderTree true (states.map (self.reread true)) =
      self.renderTree true states := by
    match states with
    | [] => rfl
    | [state] => exact stateToMapping_reread
    | first :: second :: rest =>
        have hmappings : self.statesToMappings true
            ((first :: second :: rest).map (self.reread true)) 0 = _ := statesToMappings_reread
        rw [List.map_cons, List.map_cons] at hmappings ⊢
        simp only [renderTree, hmappings]
  rw [toYamlPolicy, toYamlPolicy, render, htree, render]

/-- Writing states as policies, reading them and writing them again changes
    neither the states nor the text. -/
def PolicyFixedPoint (self : SchemaRegistry) (parse : String → Except String YamlValue)
    (print : YamlValue → Except String String) (states : List State) : Prop :=
  ∃ text again, self.toYamlPolicy print states = .ok text ∧ self.fromYaml parse text = .ok again ∧
    List.Forall₂ (fun old new => State.contentEq new old = true) states again ∧
      self.toYamlPolicy print again = .ok text

/-- Readable states are a fixed point when each is read again as it is. -/
theorem policyFixedPoint_iff {parse : String → Except String YamlValue}
    {print : YamlValue → Except String String}
    (h : ∀ state ∈ states, self.FieldsReadable state.fields.entries)
    (hprint : ∀ tree, self.renderTree true states = .ok tree → PrintsBack parse print tree) :
    self.PolicyFixedPoint parse print states ↔
      ∀ state ∈ states, (self.reread true state).contentEq state = true := by
  rcases fromYaml_render h hprint with ⟨text, htext, hagain⟩
  constructor
  · rintro ⟨text', again, htext', hagain', hsame, _⟩
    obtain rfl := Except.ok.inj (htext.symm.trans htext')
    obtain rfl := Except.ok.inj (hagain.symm.trans hagain')
    rw [List.forall₂_map_right_iff, List.forall₂_same] at hsame
    exact hsame
  · intro hsame
    refine ⟨text, _, htext, hagain, ?_, toYamlPolicy_reread.trans htext⟩
    rw [List.forall₂_map_right_iff, List.forall₂_same]
    exact hsame

/-- What was read of a document did not come from the kernel. -/
theorem fromYaml_source {parse : String → Except String YamlValue} {input : String}
    (h : self.fromYaml parse input = .ok states) :
    ∀ state ∈ states, state.source ≠ .kernel := by
  intro state hmem
  rcases fromYaml_mappings h state hmem with ⟨entries, hread⟩
  exact mappingToState_source hread

end SchemaRegistry

/-- Prepared states are written as policies, read again and written again
    without a change exactly when, in the states without selector, technology
    objects hold read-only fields alone. -/
theorem prepared_fixedPoint_iff {parseSchema : String → Except String SchemaNode}
    {parse : String → Except String YamlValue} {print : YamlValue → Except String String}
    {registry : SchemaRegistry} {matchBy : MatchBy} {input : String} {states : List State}
    {outcome : ApplyOutcome} (hreach : registry.Reachable parseSchema)
    (hread : registry.fromYaml parse input = .ok states)
    (hprepare : prepareForApplyWithRegistry states matchBy registry = .ok outcome)
    (hprint : ∀ tree, registry.renderTree true outcome.states = .ok tree →
      PrintsBack parse print tree) :
    registry.PolicyFixedPoint parse print outcome.states ↔
      ∀ state ∈ states, state.matchSpec.isEmpty = true → registry.TechnologyReadOnly state := by
  have hreadable := SchemaRegistry.fromYaml_readable hread
  have hsource := SchemaRegistry.fromYaml_source hread
  have hpairs := SchemaRegistry.prepareForApply_forall₂ hprepare
  -- No state is query output, so none loses a selector.
  have hkept : ∀ state ∈ states, registry.forgetQueryMatch state = state := by
    intro state hmem
    exact SchemaRegistry.forgetQueryMatch_of_source (hsource state hmem)
  have hfields : ∀ state ∈ outcome.states, registry.FieldsReadable state.fields.entries := by
    refine (forall_mem_forall₂ (P := fun _ => True) hpairs ?_).mp fun _ _ => trivial
    rintro state hmem out ⟨gone, hone⟩
    have hout := hone.prepared
    rw [hkept state hmem] at hout
    have hout' := SchemaRegistry.prepareState_readable hreach (hreadable state hmem).1 hout
    exact iff_of_true trivial hout'
  rw [SchemaRegistry.policyFixedPoint_iff hfields hprint]
  refine (forall_mem_forall₂ hpairs ?_).symm
  rintro state hmem out ⟨gone, hone⟩
  have hout := hone.prepared
  have hbefore := hone.before
  rw [hkept state hmem] at hout hbefore
  have hinput : state.matchSpec.isEmpty = true → registry.validate state = [] := by
    intro hempty
    rw [hempty, Bool.not_true, if_neg Bool.false_ne_true] at hbefore
    exact hbefore
  exact (SchemaRegistry.contentEq_prepareState hreach hinput (hreadable state hmem).2 hout).symm

/-- The schema of a writable flag, and a reader that knows its text alone. -/
def wolText : String := "\x7b\"type\":\"boolean\",\"x-netfyr-writable\":true\x7d"

def parseWol (json : String) : Except String SchemaNode :=
  if json = wolText then .ok { type := some .boolean, writable := true }
  else .error "not a schema"

/-- A device with a link speed, as query output and as the policy made of it. -/
def speedText : String := "name: eth0\nmtu: 9000\nethernet:\n  speed: 1000\n"

def speedPolicyText : String := "match:\n  name: eth0\n  type: ethernet\nmtu: 9000\n"

/-- A reader that knows the two documents. -/
def parseSpeed (text : String) : Except String YamlValue :=
  if text = speedText then
    .ok (.mapping [(.string "name", .string "eth0"), (.string "mtu", .number (.unsigned 9000)),
      (.string "ethernet", .mapping [(.string "speed", .number (.unsigned 1000))])])
  else
    .ok (.mapping [(.string "match", .mapping [(.string "name", .string "eth0"),
      (.string "type", .string "ethernet")]), (.string "mtu", .number (.unsigned 9000))])

/-- The device as it is read, and as it is prepared. -/
def speedState : State :=
  { State.new (.static "") with
    deviceType := "ethernet"
    fields := ⟨[("name", .string "eth0"), ("mtu", .u64 9000),
      ("ethernet", .map [("speed", .u64 1000)])], by decide⟩ }

def speedPrepared : State :=
  { State.new (.static "") with
    matchSpec := { name := some "eth0", type := some "ethernet" }
    fields := FieldMap.empty.insert "mtu" (.u64 9000) (Value.u64_wellKeyed 9000) }

theorem prepared_fixedPoint_speed :
    SchemaRegistry.new.PolicyFixedPoint parseSpeed (fun _ => .ok speedPolicyText)
        [speedPrepared] ↔
      ∀ state ∈ [speedState], state.matchSpec.isEmpty = true →
        SchemaRegistry.new.TechnologyReadOnly state := by
  have hread : SchemaRegistry.new.fromYaml parseSpeed speedText = .ok [speedState] := by decide
  have hprepare : prepareForApplyWithRegistry [speedState] .name .new =
      .ok { states := [speedPrepared], warnings := [⟨"ethernet.speed", true⟩] } := rfl
  have hreach : SchemaRegistry.new.Reachable parseWol := .new
  refine prepared_fixedPoint_iff hreach hread hprepare ?_
  intro tree htree
  obtain rfl := Except.ok.inj htree
  exact ⟨speedPolicyText, rfl, rfl, rfl⟩

/-- A device with a writable flag below `ethernet`, and the policy made of it. -/
def wolDeviceText : String := "name: eth0\nethernet:\n  wol: true\n"

def wolPolicyText : String := "match:\n  name: eth0\n  type: ethernet\nethernet:\n  wol: true\n"

def parseWolDevice (text : String) : Except String YamlValue :=
  if text = wolDeviceText then
    .ok (.mapping [(.string "name", .string "eth0"),
      (.string "ethernet", .mapping [(.string "wol", .bool true)])])
  else
    .ok (.mapping [(.string "match", .mapping [(.string "name", .string "eth0"),
      (.string "type", .string "ethernet")]),
      (.string "ethernet", .mapping [(.string "wol", .bool true)])])

/-- The embedded registry, with the flag below `ethernet`. -/
def wolRegistry : SchemaRegistry :=
  (SchemaRegistry.new.addSchemaNode parseWol "ethernet" "wol" wolText).2

/-- The device as it is read, as it is prepared, and as it is read again. -/
def wolState : State :=
  { State.new (.static "") with
    deviceType := "ethernet"
    fields := ⟨[("name", .string "eth0"), ("ethernet", .map [("wol", .bool true)])], by decide⟩ }

def wolPrepared : State :=
  { State.new (.static "") with
    matchSpec := { name := some "eth0", type := some "ethernet" }
    fields := ⟨[("ethernet", .map [("wol", .bool true)])], by decide⟩ }

/-- Prepared states are no fixed point under a registry with a writable field
    below `ethernet`: the device type comes back. -/
theorem prepared_not_fixedPoint :
    ¬ ∀ (parseSchema : String → Except String SchemaNode)
        (parse : String → Except String YamlValue) (print : YamlValue → Except String String)
        (registry : SchemaRegistry) (matchBy : MatchBy) (input : String) (states : List State)
        (outcome : ApplyOutcome), registry.Reachable parseSchema →
      registry.fromYaml parse input = .ok states →
      prepareForApplyWithRegistry states matchBy registry = .ok outcome →
      (∀ tree, registry.renderTree true outcome.states = .ok tree → PrintsBack parse print tree) →
        registry.PolicyFixedPoint parse print outcome.states := by
  intro h
  have hadd : (SchemaRegistry.new.addSchemaNode parseWol "ethernet" "wol" wolText).1 = .ok () := by
    decide
  have hreach : wolRegistry.Reachable parseWol := .extend .new (Prod.ext hadd rfl)
  have hread : wolRegistry.fromYaml parseWolDevice wolDeviceText = .ok [wolState] := by decide
  have hprepare : prepareForApplyWithRegistry [wolState] .name wolRegistry =
      .ok { states := [wolPrepared], warnings := [] } := rfl
  have hprint : ∀ tree, wolRegistry.renderTree true [wolPrepared] = .ok tree →
      PrintsBack parseWolDevice (fun _ => .ok wolPolicyText) tree := by
    intro tree htree
    obtain rfl := Except.ok.inj htree
    exact ⟨wolPolicyText, rfl, rfl, rfl⟩
  rcases h _ _ _ _ _ _ _ _ hreach hread hprepare hprint with ⟨text, again, htext, hagain, hsame, _⟩
  obtain rfl := Except.ok.inj htext
  have hread' : wolRegistry.fromYaml parseWolDevice wolPolicyText =
      .ok [{ wolPrepared with deviceType := "ethernet" }] := by decide
  obtain rfl := Except.ok.inj (hread'.symm.trans hagain)
  rw [List.forall₂_cons] at hsame
  exact absurd hsame.1 (by decide)

end Netfyr
