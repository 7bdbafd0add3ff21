import Netfyr.Schema.Lossless

/-!
# Writing What Was Read of Written States

States are written, read and written again, and the two texts are compared. Any
state that can be written is read again, whatever is in it: what reading makes
of a value is `rereadValue`, and it need not be the value. The text changes in
two ways. Text where the schema asks for a network is read as a network and
written in the one spelling that networks have. And in the query format a device
type appears that a technology object implies, where the state had none.

## Main definitions

* `rereadValue`: What reading makes of a written value.
* `Canonical`: Every text where a network is asked for is spelled like one.
* `SchemaRegistry.WritesAlike`: What makes a state be written alike.

## Theorems

* `valueToModel_reread`: What is read of a written value.
* `modelToValue_reread_iff`: When its tree is the same.
* `SchemaRegistry.render_again_iff`: When states are written to the same text.
-/

namespace Netfyr

mutual
/-- What reading makes of a written value. -/
def rereadValue : Value → Option TypedNode → Value
  | .string text, schema => decodeText schema text
  | .u64 n, _ => .u64 n
  | .i64 n, _ => if n < 0 then .i64 n else .u64 n.toUInt64
  | .bool b, _ => .bool b
  | .ipAddr addr, schema => decodeText schema addr.display
  | .ipNetwork addr len, schema => decodeText schema (networkText addr len)
  | .list items, schema => .list (rereadItems items (schema.bind TypedNode.items))
  | .map entries, schema => .map (rereadEntries entries fun key => schema.bind (·.property key))
termination_by structural value => value
/-- The same for the elements of a list. -/
def rereadItems : List Value → Option TypedNode → List Value
  | [], _ => []
  | item :: items, schema => rereadValue item schema :: rereadItems items schema
termination_by structural items => items
/-- The same for the entries of a map, `schemaOf` being the nodes of keys. -/
def rereadEntries : List (String × Value) → (String → Option TypedNode) → List (String × Value)
  | [], _ => []
  | (key, value) :: entries, schemaOf =>
      (key, rereadValue value (schemaOf key)) :: rereadEntries entries schemaOf
termination_by structural entries => entries
end

/-- Text where a network is asked for is none, or is spelled as networks are. -/
def CanonicalText (schema : Option TypedNode) (text : String) : Prop :=
  ∀ node, schema = some node → node.fieldType = .ipNetwork →
    ∀ addr len, parseIpNetwork text = some (addr, len) → networkText addr len = text

mutual
/-- Every text in a value is spelled canonically. -/
def Canonical : Value → Option TypedNode → Prop
  | .string text, schema => CanonicalText schema text
  | .u64 _, _ | .i64 _, _ | .bool _, _ | .ipAddr _, _ | .ipNetwork _ _, _ => True
  | .list items, schema => CanonicalItems items (schema.bind TypedNode.items)
  | .map entries, schema => CanonicalEntries entries fun key => schema.bind (·.property key)
termination_by structural value => value
/-- The same for the elements of a list. -/
def CanonicalItems : List Value → Option TypedNode → Prop
  | [], _ => True
  | item :: items, schema => Canonical item schema ∧ CanonicalItems items schema
termination_by structural items => items
/-- The same for the entries of a map. -/
def CanonicalEntries : List (String × Value) → (String → Option TypedNode) → Prop
  | [], _ => True
  | (key, value) :: entries, schemaOf =>
      Canonical value (schemaOf key) ∧ CanonicalEntries entries schemaOf
termination_by structural entries => entries
end

theorem keys_rereadEntries (entries : List (String × Value))
    (schemaOf : String → Option TypedNode) :
    Assoc.keys (rereadEntries entries schemaOf) = Assoc.keys entries := by
  induction entries with
  | nil => rfl
  | cons entry entries ih => rw [rereadEntries, Assoc.keys_cons, Assoc.keys_cons, ih]

mutual
/-- A written value is read, whatever it is. -/
theorem valueToModel_reread : (value : Value) → (schema : Option TypedNode) → value.WellKeyed →
    valueToModel (modelToValue value) schema = .ok (rereadValue value schema)
  | .string text, schema, _ => by
      rw [modelToValue, valueToModel_string, rereadValue]
  | .u64 _, _, _ | .bool _, _, _ => rfl
  | .i64 n, _, _ => by
      rw [modelToValue, YamlNumber.ofInt64, rereadValue]
      by_cases hn : n < 0
      · rw [dif_pos hn, if_pos hn, valueToModel]
      · rw [dif_neg hn, if_neg hn, valueToModel]
  | .ipAddr addr, schema, _ => by
      rw [modelToValue, valueToModel_string, rereadValue]
  | .ipNetwork addr len, schema, _ => by
      rw [modelToValue, valueToModel_string, rereadValue]
  | .list items, schema, hkeyed => by
      rw [modelToValue, valueToModel, itemsToModel_reread items _ hkeyed, rereadValue]
      rfl
  | .map entries, schema, hkeyed => by
      have hread := readsEntries_reread entries (fun key => schema.bind (·.property key)) hkeyed.2
      have hnodup : (Assoc.keys (rereadEntries entries fun key =>
          schema.bind (·.property key))).Nodup := by
        rw [keys_rereadEntries]
        exact hkeyed.1
      have hentries := entriesToModel_iff.mpr
        ⟨_, hread, (Assoc.insertAll_nil_eq_iff.mpr hnodup).symm⟩
      rw [modelToValue, valueToModel, hentries, rereadValue]
      rfl
termination_by structural value => value
/-- The same for the elements of a list. -/
theorem itemsToModel_reread : (items : List Value) → (schema : Option TypedNode) →
    Value.WellKeyedList items →
    itemsToModel (itemsToValue items) schema = .ok (rereadItems items schema)
  | [], _, _ => rfl
  | item :: items, schema, hkeyed => by
      rw [itemsToValue, itemsToModel, valueToModel_reread item schema hkeyed.1,
        itemsToModel_reread items schema hkeyed.2]
      rfl
termination_by structural items => items
/-- The same for the entries of a map, one by one. -/
theorem readsEntries_reread : (entries : List (String × Value)) →
    (schemaOf : String → Option TypedNode) → Value.WellKeyedEntries entries →
    List.Forall₂ (ReadsEntry schemaOf) (entriesToValue entries) (rereadEntries entries schemaOf)
  | [], _, _ => .nil
  | (key, value) :: entries, schemaOf, hkeyed =>
      .cons ⟨rfl, valueToModel_reread value (schemaOf key) hkeyed.1⟩
        (readsEntries_reread entries schemaOf hkeyed.2)
termination_by structural entries => entries
end

/-- Text that was read is written alike exactly when it was spelled canonically. -/
theorem modelToValue_decodeText_iff {schema : Option TypedNode} {text : String} :
    modelToValue (decodeText schema text) = .string text ↔ CanonicalText schema text := by
  cases schema with
  | none => exact iff_of_true rfl fun _ habs => absurd habs (by simp only [reduceCtorEq,
      not_false_eq_true])
  | some node =>
      unfold CanonicalText decodeText decodeString
      simp only [Option.some.injEq, forall_eq']
      generalize node.fieldType = expected
      cases expected with
      | ipNetwork =>
          cases hparse : parseIpNetwork text with
          | none => simp only [modelToValue, reduceCtorEq, false_imp_iff, implies_true]
          | some network =>
              rcases network with ⟨addr, len⟩
              dsimp only
              rw [modelToValue, YamlValue.string.injEq]
              constructor
              · intro h _ addr' len' heq
                rw [Option.some.injEq, Prod.mk.injEq] at heq
                rcases heq with ⟨rfl, rfl⟩
                exact h
              · intro h
                exact h rfl addr len rfl
      | _ => simp only [modelToValue, reduceCtorEq, false_imp_iff]

/-- Addresses and networks have one spelling. -/
theorem canonicalText_addr (schema : Option TypedNode) (addr : IpAddr) :
    CanonicalText schema addr.display := by
  intro node _ _ addr' len hparse
  rw [parseIpNetwork_addr] at hparse
  exact absurd hparse (by simp only [reduceCtorEq, not_false_eq_true])

theorem canonicalText_network (schema : Option TypedNode) (addr : IpAddr) (len : UInt8) :
    CanonicalText schema (networkText addr len) := by
  intro node _ _ addr' len' hparse
  rcases parseIpNetwork_text hparse with ⟨rfl, rfl⟩
  rfl

mutual
/-- The tree of what was read again is the same exactly when every text was
    spelled canonically. -/
theorem modelToValue_reread_iff : (value : Value) → (schema : Option TypedNode) →
    (modelToValue (rereadValue value schema) = modelToValue value ↔ Canonical value schema)
  | .string text, schema => by
      rw [rereadValue, Canonical]
      exact modelToValue_decodeText_iff
  | .u64 _, _ | .bool _, _ => iff_of_true rfl trivial
  | .i64 n, _ => by
      refine iff_of_true ?_ trivial
      rw [rereadValue]
      by_cases hn : n < 0
      · rw [if_pos hn]
      · rw [if_neg hn, modelToValue, modelToValue, YamlNumber.ofInt64, dif_neg hn]
  | .ipAddr addr, schema => by
      rw [rereadValue]
      exact iff_of_true (modelToValue_decodeText_iff.mpr (canonicalText_addr schema addr)) trivial
  | .ipNetwork addr len, schema => by
      rw [rereadValue]
      exact iff_of_true (modelToValue_decodeText_iff.mpr (canonicalText_network schema addr len))
        trivial
  | .list items, schema => by
      rw [rereadValue, modelToValue, modelToValue, YamlValue.sequence.injEq, Canonical]
      exact itemsToValue_reread_iff items (schema.bind TypedNode.items)
  | .map entries, schema => by
      rw [rereadValue, modelToValue, modelToValue, YamlValue.mapping.injEq, Canonical]
      exact entriesToValue_reread_iff entries fun key => schema.bind (·.property key)
termination_by structural value => value
/-- The same for the elements of a list. -/
theorem itemsToValue_reread_iff : (items : List Value) → (schema : Option TypedNode) →
    (itemsToValue (rereadItems items schema) = itemsToValue items ↔ CanonicalItems items schema)
  | [], _ => iff_of_true rfl trivial
  | item :: items, schema => by
      rw [rereadItems, itemsToValue, itemsToValue, List.cons.injEq, CanonicalItems,
        modelToValue_reread_iff item schema, itemsToValue_reread_iff items schema]
termination_by structural items => items
/-- The same for the entries of a map. -/
theorem entriesToValue_reread_iff : (entries : List (String × Value)) →
    (schemaOf : String → Option TypedNode) →
    (entriesToValue (rereadEntries entries schemaOf) = entriesToValue entries ↔
      CanonicalEntries entries schemaOf)
  | [], _ => iff_of_true rfl trivial
  | (key, value) :: entries, schemaOf => by
      rw [rereadEntries, entriesToValue, entriesToValue, List.cons.injEq, Prod.mk.injEq,
        CanonicalEntries, modelToValue_reread_iff value (schemaOf key),
        entriesToValue_reread_iff entries schemaOf]
      simp only [true_and]
termination_by structural entries => entries
end

theorem length_entriesToValue (entries : List (String × Value)) :
    (entriesToValue entries).length = entries.length := by
  induction entries with
  | nil => rfl
  | cons entry entries ih => rw [entriesToValue, List.length_cons, List.length_cons, ih]

theorem length_rereadEntries (entries : List (String × Value))
    (schemaOf : String → Option TypedNode) :
    (rereadEntries entries schemaOf).length = entries.length := by
  have hkeys := congrArg List.length (keys_rereadEntries entries schemaOf)
  rwa [Assoc.keys, Assoc.keys, List.length_map, List.length_map] at hkeys

theorem wellKeyedEntries_reread {entries : List (String × Value)}
    (schemaOf : String → Option TypedNode) (h : Value.WellKeyedEntries entries) :
    Value.WellKeyedEntries (rereadEntries entries schemaOf) := by
  induction entries with
  | nil => trivial
  | cons entry entries ih =>
      rcases entry with ⟨key, value⟩
      exact ⟨valueToModel_wellKeyed _ _ (valueToModel_reread value (schemaOf key) h.1), ih h.2⟩

namespace SchemaRegistry

variable {self : SchemaRegistry} {includeMatch : Bool} {state : State} {states : List State}

/-- What reading makes of written fields. -/
def rereadFields (self : SchemaRegistry) (fields : FieldMap) : FieldMap where
  entries := rereadEntries fields.entries self.topLevelSchema
  wellKeyed := ⟨(keys_rereadEntries _ _).symm ▸ fields.wellKeyed.1,
    wellKeyedEntries_reread _ fields.wellKeyed.2⟩

/-- What reading makes of any written state. -/
def reserialized (self : SchemaRegistry) (includeMatch : Bool) (state : State) : State :=
  { self.reread includeMatch state with fields := self.rereadFields state.fields }

/-- What makes a state be written again as it was: its texts are spelled
    canonically, and a type that it lacks is not implied in the query format. -/
def WritesAlike (self : SchemaRegistry) (includeMatch : Bool) (state : State) : Prop :=
  CanonicalEntries state.fields.entries self.topLevelSchema ∧
    (includeMatch = false → state.deviceType = "" →
      (self.impliedDeviceType state.fields).getD "" = "")

theorem rereadsFields_rereadFields {entries : List (String × Value)}
    (hfree : ∀ key ∈ Assoc.keys entries, isReserved key = false)
    (hkeyed : Value.WellKeyedEntries entries) :
    List.Forall₂ self.RereadsField entries (rereadEntries entries self.topLevelSchema) := by
  induction entries with
  | nil => exact .nil
  | cons entry entries ih =>
      rcases entry with ⟨key, value⟩
      rw [Assoc.keys_cons, List.forall_mem_cons] at hfree
      have hread := valueToModel_reread value (self.topLevelSchema key) hkeyed.1
      exact .cons ⟨rfl, hfree.1, hread⟩ (ih hfree.2 hkeyed.2)

theorem rereads_reserialized (hfree : state.fields.keys.find? isReserved = none) :
    self.Rereads includeMatch state (self.reserialized includeMatch state) := by
  have hkeys : ∀ key ∈ Assoc.keys state.fields.entries, isReserved key = false :=
    fun key hmem => Bool.eq_false_iff.mpr (List.find?_eq_none.mp hfree key hmem)
  exact ⟨self.rereadFields state.fields,
    rereadsFields_rereadFields hkeys state.fields.wellKeyed.2, rfl⟩

theorem implied_rereadFields (fields : FieldMap) :
    self.impliedDeviceType (self.rereadFields fields) = self.impliedDeviceType fields :=
  self.impliedDeviceType_congr (keys_rereadEntries _ _)

/-- The device type is written as before, unless the query format lacked one
    that is implied. -/
theorem typeEntry_reserialized_iff (includeMatch : Bool) (state : State) :
    ((if self.omitsType includeMatch (self.reserialized includeMatch state) then []
        else [(YamlValue.string "type",
          YamlValue.string (self.reserialized includeMatch state).deviceType)]) =
      if self.omitsType includeMatch state then []
        else [(YamlValue.string "type", YamlValue.string state.deviceType)]) ↔
      (includeMatch = false → state.deviceType = "" →
        (self.impliedDeviceType state.fields).getD "" = "") := by
  unfold omitsType reserialized reread
  dsimp only
  rw [implied_rereadFields]
  by_cases hempty : state.deviceType = ""
  · rw [if_pos hempty, hempty]
    cases includeMatch with
    | true =>
        -- A policy leaves an implied type out again.
        refine iff_of_true ?_ (fun habs => absurd habs.symm Bool.false_ne_true)
        cases self.impliedDeviceType state.fields with
        | none => rfl
        | some implied =>
            simp only [Option.getD_some, beq_self_eq_true, Bool.and_self, Bool.or_true,
              Bool.true_or, if_true]
    | false =>
        simp only [Bool.false_and, Bool.or_false, beq_self_eq_true, beq_iff_eq, if_true,
          ite_eq_left_iff, List.cons_ne_nil, imp_false, not_not, true_imp_iff]
  · rw [if_neg hempty]
    exact iff_of_true rfl fun _ habs => absurd habs hempty

/-- A state is written again as it was exactly when `WritesAlike` says so. -/
theorem stateToMapping_reserialized_iff (hfree : state.fields.keys.find? isReserved = none)
    (stateIndex : Nat) :
    self.stateToMapping includeMatch stateIndex (self.reserialized includeMatch state) =
        self.stateToMapping includeMatch stateIndex state ↔
      self.WritesAlike includeMatch state := by
  have hfree' : (self.reserialized includeMatch state).fields.keys.find? isReserved = none := by
    have hkeys : (self.reserialized includeMatch state).fields.keys = state.fields.keys :=
      keys_rereadEntries _ _
    rw [hkeys, hfree]
  have hselector :
      (if includeMatch then [(YamlValue.string "match", YamlValue.mapping
        (matchEntries (self.reserialized includeMatch state).matchSpec))] else []) =
      if includeMatch then [(YamlValue.string "match",
        YamlValue.mapping (matchEntries state.matchSpec))] else [] := by
    cases includeMatch with
    | true => rfl
    | false => rfl
  have hlength : (entriesToValue (self.reserialized includeMatch state).fields.entries).length =
      (entriesToValue state.fields.entries).length := by
    rw [length_entriesToValue, length_entriesToValue]
    exact length_rereadEntries _ _
  rw [stateToMapping, stateToMapping, hfree, hfree']
  dsimp only
  rw [Except.ok.injEq, YamlValue.mapping.injEq, hselector, WritesAlike,
    ← entriesToValue_reread_iff, ← typeEntry_reserialized_iff]
  constructor
  · intro heq
    rcases List.append_inj' heq hlength with ⟨hhead, hfields⟩
    exact ⟨hfields, List.append_cancel_left hhead⟩
  · rintro ⟨hfields, htype⟩
    have hentries : entriesToValue (self.reserialized includeMatch state).fields.entries =
        entriesToValue state.fields.entries := hfields
    rw [htype, hentries]

theorem stateToMapping_unreserved {stateIndex : Nat} {mapping : YamlValue}
    (h : self.stateToMapping includeMatch stateIndex state = .ok mapping) :
    state.fields.keys.find? isReserved = none := by
  rw [stateToMapping] at h
  split at h
  · exact absurd h (by simp only [reduceCtorEq, not_false_eq_true])
  · next hfree => exact hfree

theorem statesToMappings_unreserved {stateIndex : Nat} {mappings : List YamlValue}
    (h : self.statesToMappings includeMatch states stateIndex = .ok mappings) :
    ∀ state ∈ states, state.fields.keys.find? isReserved = none := by
  induction states generalizing stateIndex mappings with
  | nil => exact fun state habs => absurd habs List.not_mem_nil
  | cons state states ih =>
      rw [statesToMappings] at h
      rcases except_bind_eq_ok.mp h with ⟨mapping, hmapping, h⟩
      rcases except_bind_eq_ok.mp h with ⟨rest, hrest, _⟩
      rw [List.forall_mem_cons]
      exact ⟨stateToMapping_unreserved hmapping, ih hrest⟩

/-- States that were written have no field with a reserved key. -/
theorem renderTree_unreserved {tree : YamlValue}
    (h : self.renderTree includeMatch states = .ok tree) :
    ∀ state ∈ states, state.fields.keys.find? isReserved = none := by
  rw [renderTree.eq_def] at h
  split at h
  · next only =>
      intro state hmem
      rw [List.mem_singleton.mp hmem]
      exact stateToMapping_unreserved h
  · rcases except_bind_eq_ok.mp h with ⟨mappings, hmappings, _⟩
    exact statesToMappings_unreserved hmappings

theorem statesToMappings_reserialized_iff {stateIndex : Nat} {mappings : List YamlValue}
    (h : self.statesToMappings includeMatch states stateIndex = .ok mappings) :
    self.statesToMappings includeMatch (states.map (self.reserialized includeMatch)) stateIndex =
        .ok mappings ↔ ∀ state ∈ states, self.WritesAlike includeMatch state := by
  induction states generalizing stateIndex mappings with
  | nil => exact iff_of_true h fun state habs => absurd habs List.not_mem_nil
  | cons state states ih =>
      rw [statesToMappings] at h
      rcases except_bind_eq_ok.mp h with ⟨mapping, hmapping, h⟩
      rcases except_bind_eq_ok.mp h with ⟨rest, hrest, h⟩
      obtain rfl := Except.ok.inj h
      have hone : self.stateToMapping includeMatch stateIndex
          (self.reserialized includeMatch state) =
            self.stateToMapping includeMatch stateIndex state ↔
              self.WritesAlike includeMatch state :=
        stateToMapping_reserialized_iff (stateToMapping_unreserved hmapping) stateIndex
      rw [hmapping] at hone
      rw [List.map_cons, statesToMappings, List.forall_mem_cons, ← hone, ← ih hrest]
      constructor
      · intro heq
        rcases except_bind_eq_ok.mp heq with ⟨first, hfirst, heq⟩
        rcases except_bind_eq_ok.mp heq with ⟨others, hothers, heq⟩
        rw [Except.ok.injEq, List.cons.injEq] at heq
        rcases heq with ⟨rfl, rfl⟩
        exact ⟨hfirst, hothers⟩
      · rintro ⟨hfirst, hothers⟩
        rw [hfirst, hothers]
        rfl

/-- The tree of a document is the same again exactly when each state is written
    alike. -/
theorem renderTree_reserialized_iff {tree : YamlValue}
    (h : self.renderTree includeMatch states = .ok tree) :
    self.renderTree includeMatch (states.map (self.reserialized includeMatch)) = .ok tree ↔
      ∀ state ∈ states, self.WritesAlike includeMatch state := by
  match states with
  | [] => exact iff_of_true h fun state habs => absurd habs List.not_mem_nil
  | [state] =>
      have hone : self.stateToMapping includeMatch 0 (self.reserialized includeMatch state) =
          self.stateToMapping includeMatch 0 state ↔ self.WritesAlike includeMatch state :=
        stateToMapping_reserialized_iff (stateToMapping_unreserved h) 0
      have htree : self.stateToMapping includeMatch 0 state = .ok tree := h
      rw [htree] at hone
      simp only [List.mem_singleton, forall_eq]
      exact hone
  | first :: second :: rest =>
      rcases except_bind_eq_ok.mp h with ⟨mappings, hmappings, htree⟩
      rw [← statesToMappings_reserialized_iff hmappings]
      obtain rfl := Except.ok.inj htree
      constructor
      · intro heq
        rcases except_bind_eq_ok.mp heq with ⟨again, hagain, heq⟩
        rw [Except.ok.injEq, YamlValue.sequence.injEq] at heq
        rw [← heq]
        exact hagain
      · intro hagain
        exact except_bind_eq_ok.mpr ⟨mappings, hagain, rfl⟩

section Again

variable {parse : String → Except String YamlValue} {print : YamlValue → Except String String}
  {again : List State} {text : String}

theorem render_ok_iff : self.render print includeMatch states = .ok text ↔
    ∃ tree, self.renderTree includeMatch states = .ok tree ∧ print tree = .ok text := by
  rw [render, except_bind_eq_ok]
  refine exists_congr fun tree => and_congr_right fun _ => ?_
  cases print tree with
  | ok printed => simp only [Except.mapError, Except.ok.injEq]
  | error message => simp only [Except.mapError, reduceCtorEq]

/-- What is read of written states. -/
theorem fromYaml_reserialized (hprint : ∀ tree text, print tree = .ok text → parse text = .ok tree)
    (htext : self.render print includeMatch states = .ok text)
    (hread : self.fromYaml parse text = .ok again) :
    again = states.map (self.reserialized includeMatch) := by
  rcases render_ok_iff.mp htext with ⟨tree, htree, hprinted⟩
  have hrereads : List.Forall₂ (self.Rereads includeMatch) states
      (states.map (self.reserialized includeMatch)) := by
    rw [List.forall₂_map_right_iff, List.forall₂_same]
    exact fun state hmem => rereads_reserialized (renderTree_unreserved htree state hmem)
  rcases renderTree_rereads hrereads with ⟨tree', htree', hreads⟩
  obtain rfl := Except.ok.inj (htree.symm.trans htree')
  -- Blank text is not read at all.
  have hblank : text.toList.all isWhitespace = false := by
    rw [fromYaml] at hread
    split at hread
    · exact absurd hread (by simp only [reduceCtorEq, not_false_eq_true])
    · next hblank => exact Bool.eq_false_iff.mpr hblank
  have hother := hreads parse text hblank (hprint tree text hprinted)
  exact Except.ok.inj (hread.symm.trans hother)

/-- States that were written and read are written to the same text exactly when
    each of them is written alike. -/
theorem render_again_iff (hprint : ∀ tree text, print tree = .ok text → parse text = .ok tree)
    (htext : self.render print includeMatch states = .ok text)
    (hread : self.fromYaml parse text = .ok again) :
    self.render print includeMatch again = .ok text ↔
      ∀ state ∈ states, self.WritesAlike includeMatch state := by
  rcases render_ok_iff.mp htext with ⟨tree, htree, hprinted⟩
  rw [fromYaml_reserialized hprint htext hread, ← renderTree_reserialized_iff htree,
    render_ok_iff]
  constructor
  · rintro ⟨tree', htree', hprinted'⟩
    -- Both trees are what the text is read as.
    have hsame := (hprint tree text hprinted).symm.trans (hprint tree' text hprinted')
    rw [Except.ok.inj hsame, htree']
  · intro hagain
    exact ⟨tree, hagain, hprinted⟩

end Again

/-- A document with an address, as query output and as a policy, behind `front`. -/
def spelledTree (front : List (YamlValue × YamlValue)) (ip : String) : YamlValue :=
  .mapping (front ++ [(.string "ipv4", .mapping [(.string "addresses",
    .sequence [.mapping [(.string "ip", .string ip)]])])])

def selectorEntry : YamlValue × YamlValue := (.string "match", .mapping [])

/-- Its text, with an address in a spelling of its own and in that of networks. -/
def spelledText (front ip : String) : String :=
  front ++ "ipv4:\n  addresses:\n  - ip: " ++ ip ++ "\n"

def selectorText : String := "match: \x7b\x7d\n"

def ownSpelling : String := "192.0.2.1/024"

def networkSpelling : String := "192.0.2.1/24"

/-- A reader and a printer that know these documents. -/
def parseSpelled (text : String) : Except String YamlValue :=
  if text = spelledText "" ownSpelling then .ok (spelledTree [] ownSpelling)
  else if text = spelledText "" networkSpelling then .ok (spelledTree [] networkSpelling)
  else if text = spelledText selectorText ownSpelling then
    .ok (spelledTree [selectorEntry] ownSpelling)
  else if text = spelledText selectorText networkSpelling then
    .ok (spelledTree [selectorEntry] networkSpelling)
  else .error "unexpected text"

def printSpelled : YamlValue → Except String String
  | .mapping [(.string "ipv4", .mapping [(.string "addresses",
      .sequence [.mapping [(.string "ip", .string ip)]])])] =>
      if ip = ownSpelling ∨ ip = networkSpelling then .ok (spelledText "" ip)
      else .error "unexpected address"
  | .mapping [(.string "match", .mapping []), (.string "ipv4", .mapping [(.string "addresses",
      .sequence [.mapping [(.string "ip", .string ip)]])])] =>
      if ip = ownSpelling ∨ ip = networkSpelling then .ok (spelledText selectorText ip)
      else .error "unexpected address"
  | _ => .error "unexpected document"

theorem printSpelled_parseSpelled (tree : YamlValue) (text : String)
    (h : printSpelled tree = .ok text) : parseSpelled text = .ok tree := by
  unfold printSpelled at h
  split at h
  · next ip =>
      by_cases hknown : ip = ownSpelling ∨ ip = networkSpelling
      · rw [if_pos hknown] at h
        rw [← Except.ok.inj h]
        rcases hknown with rfl | rfl
        · rfl
        · rfl
      · rw [if_neg hknown] at h
        exact absurd h (by simp only [reduceCtorEq, not_false_eq_true])
  · next ip =>
      by_cases hknown : ip = ownSpelling ∨ ip = networkSpelling
      · rw [if_pos hknown] at h
        rw [← Except.ok.inj h]
        rcases hknown with rfl | rfl
        · rfl
        · rfl
      · rw [if_neg hknown] at h
        exact absurd h (by simp only [reduceCtorEq, not_false_eq_true])
  · exact absurd h (by simp only [reduceCtorEq, not_false_eq_true])

/-- A state with that address as text. -/
def spelledState : State :=
  { State.new (.static "") with
    fields := ⟨[("ipv4", .map [("addresses", .list [.map [("ip", .string ownSpelling)]])])],
      by decide⟩ }

/-- In both formats the first text spells the prefix length as the state does,
    and the second one as networks are spelled. -/
theorem render_again_differs :
    (¬ ∀ (parse : String → Except String YamlValue) (print : YamlValue → Except String String)
        (states again : List State) (text : String),
        (∀ tree text, print tree = .ok text → parse text = .ok tree) →
        new.toYamlQuery print states = .ok text → new.fromYaml parse text = .ok again →
          new.toYamlQuery print again = .ok text) ∧
      ¬ ∀ (parse : String → Except String YamlValue) (print : YamlValue → Except String String)
        (states again : List State) (text : String),
        (∀ tree text, print tree = .ok text → parse text = .ok tree) →
        new.toYamlPolicy print states = .ok text → new.fromYaml parse text = .ok again →
          new.toYamlPolicy print again = .ok text := by
  constructor
  · intro h
    have hread : new.fromYaml parseSpelled (spelledText "" ownSpelling) =
        .ok [new.reserialized false spelledState] := rfl
    have hagain := h parseSpelled printSpelled [spelledState] _ _ printSpelled_parseSpelled rfl
      hread
    have hsecond : new.toYamlQuery printSpelled [new.reserialized false spelledState] =
        .ok (spelledText "" networkSpelling) := rfl
    exact absurd (Except.ok.inj (hsecond.symm.trans hagain)) (by decide)
  · intro h
    have hread : new.fromYaml parseSpelled (spelledText selectorText ownSpelling) =
        .ok [new.reserialized true spelledState] := rfl
    have hagain := h parseSpelled printSpelled [spelledState] _ _ printSpelled_parseSpelled rfl
      hread
    have hsecond : new.toYamlPolicy printSpelled [new.reserialized true spelledState] =
        .ok (spelledText selectorText networkSpelling) := rfl
    exact absurd (Except.ok.inj (hsecond.symm.trans hagain)) (by decide)

/-- The state is not written alike, and the second text is the other one. -/
theorem render_again_iff_spelled :
    (new.render printSpelled false [new.reserialized false spelledState] =
        .ok (spelledText "" ownSpelling) ↔
      ∀ state ∈ [spelledState], new.WritesAlike false state) ∧
    new.render printSpelled false [new.reserialized false spelledState] =
      .ok (spelledText "" networkSpelling) := by
  have htext : new.render printSpelled false [spelledState] = .ok (spelledText "" ownSpelling) :=
    rfl
  have hread : new.fromYaml parseSpelled (spelledText "" ownSpelling) =
      .ok [new.reserialized false spelledState] := rfl
  exact ⟨render_again_iff printSpelled_parseSpelled htext hread, rfl⟩

end SchemaRegistry

end Netfyr
