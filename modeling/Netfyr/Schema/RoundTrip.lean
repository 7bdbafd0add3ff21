import Netfyr.Data.Lists
import Netfyr.Schema.Render

/-!
# Reading Back Written States

What was read of a document can be written, and is read again as it was. The
fields of a state that was read are readable along the schemas of their keys, so
their trees are read back. The device type is the delicate part: it is left out
when a technology object implies it, and then implied again; a state whose type
is empty has no such object, for otherwise its type would have been implied in
the first place.

`reread` says what becomes of any state with readable fields, whether it was
read or made in another way.

## Main definitions

* `PrintsBack`: The YAML library reads a tree back as it was printed.
* `SchemaRegistry.FieldsReadable`: Reading the fields' trees gives the fields.
* `SchemaRegistry.reread`: What is read of a written state with readable fields.
* `SchemaRegistry.Rereads`: What is read of any written state.

## Theorems

* `mappingToState_readable`: A state that was read has readable fields.
* `mappingToState_stateToMapping`: What is read of a written state.
* `renderTree_rereads`: What is read of written states.
* `fromYaml_roundTrip`: States that were read are written and read back.
-/

namespace Netfyr

/-- The YAML library prints a tree, and reads the text back as that tree. -/
def PrintsBack (parse : String → Except String YamlValue)
    (print : YamlValue → Except String String) (tree : YamlValue) : Prop :=
  ∃ text, print tree = .ok text ∧ text.toList.all isWhitespace = false ∧ parse text = .ok tree

/-- A written selector is read back. -/
theorem parseMatch_matchEntries (spec : Match) :
    parseMatch (.mapping (matchEntries spec)) = .ok spec := by
  -- Every field is set or not, and the entries are read one by one.
  rcases spec with ⟨_ | name, _ | type, _ | driver, _ | pciPath, _ | mac⟩ <;> rfl

namespace SchemaRegistry

variable {self : SchemaRegistry} {state : State} {states : List State}

/-- No field has a reserved key, and reading the tree of each gives its value. -/
def FieldsReadable (self : SchemaRegistry) (entries : List (String × Value)) : Prop :=
  ∀ entry ∈ entries, isReserved entry.1 = false ∧
    Readable entry.2 (self.topLevelSchema entry.1)

/-- What reading makes of a written state. -/
def reread (self : SchemaRegistry) (includeMatch : Bool) (state : State) : State :=
  { deviceType :=
      if state.deviceType = "" then (self.impliedDeviceType state.fields).getD ""
      else state.deviceType
    matchSpec := if includeMatch then state.matchSpec else {}
    fields := state.fields
    source := .static ""
    priority := (Source.static "").defaultPriority }

/-- An entry with a reserved key leaves the fields alone, any other becomes one. -/
theorem readEntry_ok {parts next : MappingParts} {entry : YamlValue × YamlValue}
    (h : self.readEntry parts entry = .ok next) :
    ∃ key, keyToString entry.1 = .ok key ∧
      ((isReserved key = true ∧ next.fields = parts.fields) ∨
        (isReserved key = false ∧ ∃ (value : Value) (hvalue : value.WellKeyed),
          valueToModel entry.2 (self.topLevelSchema key) = .ok value ∧
            next.fields = parts.fields.insert key value hvalue)) := by
  rw [readEntry] at h
  rcases except_bind_eq_ok.mp h with ⟨key, hkey, h⟩
  refine ⟨key, hkey, ?_⟩
  split at h
  · next hmatch =>
      rcases except_bind_eq_ok.mp h with ⟨spec, _, h⟩
      obtain rfl := Except.ok.inj h
      subst hmatch
      exact Or.inl ⟨rfl, rfl⟩
  · next hmatch =>
      split at h
      · next hkind =>
          rcases except_bind_eq_ok.mp h with ⟨_, _, h⟩
          obtain rfl := Except.ok.inj h
          subst hkind
          exact Or.inl ⟨rfl, rfl⟩
      · next hkind =>
          split at h
          · next htype =>
              split at h
              · exact absurd h (by simp only [reduceCtorEq, not_false_eq_true])
              · obtain rfl := Except.ok.inj h
                subst htype
                exact Or.inl ⟨rfl, rfl⟩
          · next htype =>
              split at h
              · exact absurd h (by simp only [reduceCtorEq, not_false_eq_true])
              · next value hvalue =>
                  obtain rfl := Except.ok.inj h
                  have hkeyed := valueToModel_wellKeyed entry.2 _ hvalue
                  refine Or.inr ⟨?_, value, hkeyed, hvalue, rfl⟩
                  rw [isReserved, beq_eq_false_iff_ne.mpr hmatch, beq_eq_false_iff_ne.mpr htype,
                    beq_eq_false_iff_ne.mpr hkind]
                  rfl

/-- A state that was read has readable fields, and a type if they imply one. -/
theorem mappingToState_readable {entries : List (YamlValue × YamlValue)}
    (h : self.mappingToState entries = .ok state) :
    self.FieldsReadable state.fields.entries ∧
      (state.deviceType = "" → (self.impliedDeviceType state.fields).getD "" = "") := by
  rcases except_bind_eq_ok.mp h with ⟨parts, hparts, h⟩
  obtain rfl := Except.ok.inj h
  constructor
  · refine foldlM_inv (P := fun parts : MappingParts => self.FieldsReadable parts.fields.entries)
      ?_ (fun entry hmem => absurd hmem List.not_mem_nil) hparts
    intro before entry after hbefore hstep
    rcases readEntry_ok hstep with
      ⟨key, _, ⟨_, hsame⟩ | ⟨hreserved, value, hvalue, hmodel, hinsert⟩⟩
    · rw [hsame]
      exact hbefore
    · rw [hinsert]
      intro field hmem
      rcases Assoc.mem_insert hmem with rfl | hold
      · exact ⟨hreserved, readable_of_valueToModel entry.2 _ hmodel⟩
      · exact hbefore field hold
  · intro hempty
    dsimp only at hempty ⊢
    split at hempty
    · exact hempty
    · next hne => exact absurd hempty hne

/-- Reading the tree of a field gives another one of its key. -/
def RereadsField (self : SchemaRegistry) (entry read : String × Value) : Prop :=
  read.1 = entry.1 ∧ isReserved entry.1 = false ∧
    valueToModel (modelToValue entry.2) (self.topLevelSchema entry.1) = .ok read.2

/-- Reading a written state gives another one. -/
def Rereads (self : SchemaRegistry) (includeMatch : Bool) (state again : State) : Prop :=
  ∃ fields : FieldMap, List.Forall₂ self.RereadsField state.fields.entries fields.entries ∧
    again = { self.reread includeMatch state with fields }

/-- A readable field is read as it was written. -/
theorem FieldsReadable.rereads {entries : List (String × Value)} (h : self.FieldsReadable entries)
    (hkeyed : Value.WellKeyedEntries entries) :
    List.Forall₂ self.RereadsField entries entries := by
  induction entries with
  | nil => exact .nil
  | cons entry entries ih =>
      rcases entry with ⟨key, value⟩
      have hfirst := h (key, value) List.mem_cons_self
      have hrest : self.FieldsReadable entries :=
        fun field hmem => h field (List.mem_cons_of_mem _ hmem)
      have hread := valueToModel_modelToValue value (self.topLevelSchema key) hkeyed.1 hfirst.2
      exact .cons ⟨rfl, hfirst.1, hread⟩ (ih hrest hkeyed.2)

theorem rereads_of_fieldsReadable (h : self.FieldsReadable state.fields.entries)
    (includeMatch : Bool) : self.Rereads includeMatch state (self.reread includeMatch state) :=
  ⟨state.fields, h.rereads state.fields.wellKeyed.2, rfl⟩

theorem rereadsFields_keys {entries read : List (String × Value)}
    (h : List.Forall₂ self.RereadsField entries read) : Assoc.keys read = Assoc.keys entries := by
  induction h with
  | nil => rfl
  | cons hone _ ih => rw [Assoc.keys_cons, Assoc.keys_cons, hone.1, ih]

/-- What implies a device type is the keys of the fields. -/
theorem impliedDeviceType_congr {fields again : FieldMap}
    (h : Assoc.keys again.entries = Assoc.keys fields.entries) :
    self.impliedDeviceType again = self.impliedDeviceType fields := by
  have hcontains : again.containsKey = fields.containsKey := by
    funext key
    rw [FieldMap.containsKey, FieldMap.containsKey, Bool.eq_iff_iff]
    have hkeys : key ∈ Assoc.keys again.entries ↔ key ∈ Assoc.keys fields.entries := by rw [h]
    exact Assoc.lookup_isSome.trans (hkeys.trans Assoc.lookup_isSome.symm)
  rw [impliedDeviceType, impliedDeviceType, hcontains]

/-- A written field is read back. -/
theorem readEntry_field {parts : MappingParts} {entry read : String × Value}
    (h : self.RereadsField entry read) (hread : read.2.WellKeyed) :
    self.readEntry parts (.string entry.1, modelToValue entry.2) =
      .ok { parts with fields := parts.fields.insert read.1 read.2 hread } := by
  rcases h with ⟨hsame, hreserved, hmodel⟩
  rw [isReserved, Bool.or_eq_false_iff, Bool.or_eq_false_iff] at hreserved
  have hmatch : entry.1 ≠ "match" := beq_eq_false_iff_ne.mp hreserved.1.1
  have htype : entry.1 ≠ "type" := beq_eq_false_iff_ne.mp hreserved.1.2
  have hkind : entry.1 ≠ "kind" := beq_eq_false_iff_ne.mp hreserved.2
  have hkey : keyToString (.string entry.1) = .ok entry.1 := rfl
  rw [readEntry, hkey]
  simp only [bind, Except.bind, hmatch, hkind, htype, if_false]
  split
  · next e herror =>
      rw [hmodel] at herror
      exact absurd herror (by simp only [reduceCtorEq, not_false_eq_true])
  · next value' hvalue' =>
      rw [hmodel] at hvalue'
      obtain rfl := Except.ok.inj hvalue'
      simp only [hsame]

-- Induction on the fields: each is new, and goes to the end of those before it.
theorem foldlM_fields {entries read : List (String × Value)} (parts : MappingParts)
    (h : List.Forall₂ self.RereadsField entries read)
    (hnodup : (Assoc.keys (parts.fields.entries ++ read)).Nodup) :
    ∃ fields, (entriesToValue entries).foldlM self.readEntry parts = .ok { parts with fields } ∧
      fields.entries = parts.fields.entries ++ read := by
  induction h generalizing parts with
  | nil => exact ⟨parts.fields, rfl, (List.append_nil _).symm⟩
  | @cons entry first entries read hone _ ih =>
      have hkeyed := valueToModel_wellKeyed _ _ hone.2.2
      have hnew : first.1 ∉ Assoc.keys parts.fields.entries := by
        rw [Assoc.keys, List.map_append, List.nodup_append] at hnodup
        intro hmem
        exact hnodup.2.2 first.1 hmem first.1 List.mem_cons_self rfl
      have hinsert : (parts.fields.insert first.1 first.2 hkeyed).entries =
          parts.fields.entries ++ [first] := Assoc.insert_of_not_mem hnew
      have hnodup' : (Assoc.keys ((parts.fields.insert first.1 first.2 hkeyed).entries ++
          read)).Nodup := by
        rw [hinsert, List.append_assoc, List.singleton_append]
        exact hnodup
      rcases ih { parts with fields := parts.fields.insert first.1 first.2 hkeyed } hnodup' with
        ⟨fields, hread, hfields⟩
      refine ⟨fields, ?_, ?_⟩
      · rw [entriesToValue, List.foldlM_cons, readEntry_field hone hkeyed]
        exact hread
      · rw [hfields, hinsert, List.append_assoc, List.singleton_append]

/-- Written fields are read back behind what was read of other keys. -/
theorem foldlM_fieldMap {fields again : FieldMap}
    (h : List.Forall₂ self.RereadsField fields.entries again.entries)
    (matchSpec : Match) (deviceType : String) :
    (entriesToValue fields.entries).foldlM self.readEntry
        { matchSpec, deviceType, fields := .empty } =
      .ok { matchSpec, deviceType, fields := again } := by
  rcases foldlM_fields { matchSpec, deviceType, fields := .empty } h again.wellKeyed.1 with
    ⟨read, hread, hentries⟩
  have hsame : read = again := by
    cases read
    cases again
    rw [FieldMap.mk.injEq]
    exact hentries
  rw [hread, hsame]

theorem readEntry_match {parts : MappingParts} (spec : Match) :
    self.readEntry parts (.string "match", .mapping (matchEntries spec)) =
      .ok { parts with matchSpec := spec } := by
  have hkey : keyToString (.string "match") = .ok "match" := rfl
  rw [readEntry, hkey]
  simp only [bind, Except.bind, if_true, parseMatch_matchEntries]

/-- A device type that is left out is implied again. -/
theorem implied_of_omitsType {includeMatch : Bool} (h : self.omitsType includeMatch state = true)
    (hne : state.deviceType ≠ "") :
    self.impliedDeviceType state.fields = some state.deviceType := by
  rw [omitsType, beq_eq_false_iff_ne.mpr hne, Bool.false_or, Bool.and_eq_true, beq_iff_eq] at h
  exact h.2

/-- A state is written, and this is what is read of it. -/
theorem mappingToState_stateToMapping {includeMatch : Bool} {again : State}
    (h : self.Rereads includeMatch state again) (stateIndex : Nat) :
    ∃ entries, self.stateToMapping includeMatch stateIndex state = .ok (.mapping entries) ∧
      self.mappingToState entries = .ok again := by
  rcases h with ⟨fields, hfields, rfl⟩
  have hnone : state.fields.keys.find? isReserved = none := by
    rw [List.find?_eq_none]
    intro key hmem
    rcases List.mem_map.mp hmem with ⟨entry, hentry, rfl⟩
    rcases List.mem_iff_get.mp hentry with ⟨index, rfl⟩
    have hone := (List.forall₂_iff_get.mp hfields).2 index index.isLt
      (hfields.length_eq ▸ index.isLt)
    rw [show isReserved (state.fields.entries.get index).1 = false from hone.2.1]
    exact Bool.false_ne_true
  refine ⟨_, by rw [stateToMapping, hnone], ?_⟩
  -- The selector, the type and the fields are read one after the other.
  have hselector : ∀ rest : List (YamlValue × YamlValue),
      ((if includeMatch then [(YamlValue.string "match",
          YamlValue.mapping (matchEntries state.matchSpec))] else []) ++ rest).foldlM self.readEntry
        { matchSpec := {}, deviceType := "", fields := .empty } =
      rest.foldlM self.readEntry
        { matchSpec := if includeMatch then state.matchSpec else {}, deviceType := ""
          fields := .empty } := by
    intro rest
    cases includeMatch with
    | false => rfl
    | true =>
        rw [if_pos rfl, List.singleton_append, List.foldlM_cons, readEntry_match]
        rfl
  have htype : ∀ (spec : Match) (rest : List (YamlValue × YamlValue)),
      ((if self.omitsType includeMatch state then []
          else [(YamlValue.string "type", YamlValue.string state.deviceType)]) ++ rest).foldlM
        self.readEntry { matchSpec := spec, deviceType := "", fields := .empty } =
      rest.foldlM self.readEntry
        { matchSpec := spec
          deviceType := if self.omitsType includeMatch state then "" else state.deviceType
          fields := .empty } := by
    intro spec rest
    cases self.omitsType includeMatch state with
    | true => rfl
    | false => rfl
  have himplied := self.impliedDeviceType_congr (rereadsFields_keys hfields)
  rw [mappingToState, List.append_assoc, hselector, htype, foldlM_fieldMap hfields]
  simp only [bind, Except.bind, reread, Except.ok.injEq, State.mk.injEq, and_self, and_true,
    himplied]
  -- What is left is the device type.
  by_cases homits : self.omitsType includeMatch state = true
  · rw [if_pos homits, if_pos rfl]
    by_cases hempty : state.deviceType = ""
    · rw [if_pos hempty]
    · rw [if_neg hempty, implied_of_omitsType homits hempty, Option.getD_some]
  · rw [if_neg homits]

/-- Written states are read back, each at its place. -/
theorem sequenceToStates_statesToMappings {includeMatch : Bool} {again : List State}
    (h : List.Forall₂ (self.Rereads includeMatch) states again) (stateIndex : Nat) :
    ∃ mappings, self.statesToMappings includeMatch states stateIndex = .ok mappings ∧
      ∀ index, self.sequenceToStates mappings index = .ok again := by
  induction h generalizing stateIndex with
  | nil => exact ⟨[], rfl, fun _ => rfl⟩
  | cons hone _ ih =>
      rcases mappingToState_stateToMapping hone stateIndex with ⟨entries, hwrite, hread⟩
      rcases ih (stateIndex + 1) with ⟨mappings, hmappings, hstates⟩
      refine ⟨.mapping entries :: mappings, ?_, ?_⟩
      · rw [statesToMappings, hwrite, hmappings]
        rfl
      · intro index
        rw [sequenceToStates, hread, hstates]
        rfl

/-- The tree of a document of states, and what is read of it. -/
theorem renderTree_rereads {includeMatch : Bool} {again : List State}
    (h : List.Forall₂ (self.Rereads includeMatch) states again) :
    ∃ tree, self.renderTree includeMatch states = .ok tree ∧
      ∀ (parse : String → Except String YamlValue) (text : String),
        text.toList.all isWhitespace = false → parse text = .ok tree →
          self.fromYaml parse text = .ok again := by
  -- One state is written as a mapping, any other number as a sequence.
  by_cases hone : ∃ state, states = [state]
  · rcases hone with ⟨state, rfl⟩
    rcases List.forall₂_cons_left_iff.mp h with ⟨first, rest, hfirst, hrest, rfl⟩
    obtain rfl := List.forall₂_nil_left_iff.mp hrest
    rcases mappingToState_stateToMapping hfirst 0 with ⟨entries, hwrite, hread⟩
    refine ⟨.mapping entries, hwrite, ?_⟩
    intro parse text htext hparse
    rw [fromYaml, htext, if_neg Bool.false_ne_true, hparse]
    simp only [hread, bind, Except.bind]
  · rcases sequenceToStates_statesToMappings h 0 with ⟨mappings, hwrite, hread⟩
    refine ⟨.sequence mappings, ?_, ?_⟩
    · rw [renderTree.eq_def]
      split
      · next state => exact absurd ⟨state, rfl⟩ hone
      · rw [hwrite]
        rfl
    · intro parse text htext hparse
      rw [fromYaml, htext, if_neg Bool.false_ne_true, hparse]
      exact hread 0

/-- Written states with readable fields are read again as `reread` says. -/
theorem fromYaml_render {parse : String → Except String YamlValue}
    {print : YamlValue → Except String String} {includeMatch : Bool}
    (h : ∀ state ∈ states, self.FieldsReadable state.fields.entries)
    (hprint : ∀ tree, self.renderTree includeMatch states = .ok tree →
      PrintsBack parse print tree) :
    ∃ text, self.render print includeMatch states = .ok text ∧
      self.fromYaml parse text = .ok (states.map (self.reread includeMatch)) := by
  have hrereads : List.Forall₂ (self.Rereads includeMatch) states
      (states.map (self.reread includeMatch)) := by
    rw [List.forall₂_map_right_iff, List.forall₂_same]
    exact fun state hmem => rereads_of_fieldsReadable (h state hmem) includeMatch
  rcases renderTree_rereads hrereads with ⟨tree, htree, hread⟩
  rcases hprint tree htree with ⟨text, htext, hblank, hparse⟩
  refine ⟨text, ?_, hread parse text hblank hparse⟩
  rw [render, htree]
  simp only [bind, Except.bind, htext, Except.mapError]

/-- What is read again has the same content, unless a type is implied that was
    not there, or a selector is lost. -/
theorem contentEq_reread {includeMatch : Bool} : (self.reread includeMatch state).contentEq state =
    true ↔ (state.deviceType = "" → (self.impliedDeviceType state.fields).getD "" = "") ∧
      (includeMatch = false → state.matchSpec = {}) := by
  rw [State.contentEq_iff, reread]
  dsimp only
  refine and_congr ?_ ?_
  · by_cases hempty : state.deviceType = ""
    · rw [if_pos hempty, hempty]
      exact ⟨fun h _ => h, fun h => h rfl⟩
    · rw [if_neg hempty]
      exact ⟨fun _ h => absurd h hempty, fun _ => rfl⟩
  · cases includeMatch with
    | false => exact ⟨fun h _ => h.1.symm, fun h => ⟨(h rfl).symm, rfl⟩⟩
    | true => exact ⟨fun _ h => absurd h Bool.false_ne_true.symm, fun _ => ⟨rfl, rfl⟩⟩

/-- Every state of a document that was read came from a mapping. -/
theorem fromYaml_mappings {parse : String → Except String YamlValue} {input : String}
    (h : self.fromYaml parse input = .ok states) :
    ∀ state ∈ states, ∃ entries, self.mappingToState entries = .ok state := by
  intro state hmem
  rcases fromYaml_eq_ok.mp h with ⟨_, _, items, _, _, hall⟩
  rcases exists_of_mem_forall₂ hall hmem with ⟨_, _, entries, _, hread⟩
  exact ⟨entries, hread⟩

/-- The states of a document are readable, and have a type if one is implied. -/
theorem fromYaml_readable {parse : String → Except String YamlValue} {input : String}
    (h : self.fromYaml parse input = .ok states) :
    ∀ state ∈ states, self.FieldsReadable state.fields.entries ∧
      (state.deviceType = "" → (self.impliedDeviceType state.fields).getD "" = "") := by
  intro state hmem
  rcases fromYaml_mappings h state hmem with ⟨entries, hread⟩
  exact mappingToState_readable hread

/-- States that were read of a document are written as policies, and as query
    output when none has a selector, and read again as they were. -/
theorem fromYaml_roundTrip {parse : String → Except String YamlValue}
    {print : YamlValue → Except String String} {input : String}
    (h : self.fromYaml parse input = .ok states)
    (hprint : ∀ includeMatch tree, self.renderTree includeMatch states = .ok tree →
      PrintsBack parse print tree) :
    (∃ text again, self.toYamlPolicy print states = .ok text ∧
      self.fromYaml parse text = .ok again ∧
        List.Forall₂ (fun old new => State.contentEq new old = true) states again) ∧
    ((∀ state ∈ states, state.matchSpec.isEmpty = true) →
      ∃ text again, self.toYamlQuery print states = .ok text ∧
        self.fromYaml parse text = .ok again ∧
          List.Forall₂ (fun old new => State.contentEq new old = true) states again) := by
  have hreadable := fromYaml_readable h
  have hfields := fun state hmem => (hreadable state hmem).1
  constructor
  · rcases fromYaml_render hfields (hprint true) with ⟨text, htext, hagain⟩
    refine ⟨text, _, htext, hagain, ?_⟩
    rw [List.forall₂_map_right_iff, List.forall₂_same]
    intro state hmem
    exact contentEq_reread.mpr ⟨(hreadable state hmem).2, fun hfalse => absurd hfalse
      Bool.false_ne_true.symm⟩
  · intro hempty
    rcases fromYaml_render hfields (hprint false) with ⟨text, htext, hagain⟩
    refine ⟨text, _, htext, hagain, ?_⟩
    rw [List.forall₂_map_right_iff, List.forall₂_same]
    intro state hmem
    exact contentEq_reread.mpr ⟨(hreadable state hmem).2,
      fun _ => Match.isEmpty_iff.mp (hempty state hmem)⟩

/-- The fields of `eth0` with an address, as query output and in the tree of it. -/
def addressedText : String := "name: eth0\nipv4:\n  addresses:\n  - ip: 192.0.2.1/24\n"

def addressedEntries : List (YamlValue × YamlValue) :=
  [(.string "name", .string "eth0"),
    (.string "ipv4", .mapping [(.string "addresses",
      .sequence [.mapping [(.string "ip", .string "192.0.2.1/24")]])])]

/-- A reader and a printer that know this state in both formats. -/
def parseAddressed (text : String) : Except String YamlValue :=
  if text = addressedText then .ok (.mapping addressedEntries)
  else if text = "match: \x7b\x7d\n" ++ addressedText then
    .ok (.mapping ((.string "match", .mapping []) :: addressedEntries))
  else .error "unexpected text"

def printAddressed : YamlValue → Except String String
  | .mapping ((.string "match", _) :: _) => .ok ("match: \x7b\x7d\n" ++ addressedText)
  | _ => .ok addressedText

def addressedState : State :=
  { State.new (.static "") with
    fields := ⟨[("name", .string "eth0"), ("ipv4", .map [("addresses",
      .list [.map [("ip", .ipNetwork (.v4 (Ipv4Addr.new 192 0 2 1)) 24)]])])], by decide⟩ }

theorem fromYaml_roundTrip_addressed :
    (∃ text again, new.toYamlPolicy printAddressed [addressedState] = .ok text ∧
      new.fromYaml parseAddressed text = .ok again ∧
        List.Forall₂ (fun old new => State.contentEq new old = true) [addressedState] again) ∧
    ((∀ state ∈ [addressedState], state.matchSpec.isEmpty = true) →
      ∃ text again, new.toYamlQuery printAddressed [addressedState] = .ok text ∧
        new.fromYaml parseAddressed text = .ok again ∧
          List.Forall₂ (fun old new => State.contentEq new old = true) [addressedState] again) := by
  have hread : new.fromYaml parseAddressed addressedText = .ok [addressedState] := rfl
  refine fromYaml_roundTrip hread ?_
  intro includeMatch tree htree
  cases includeMatch with
  | false =>
      obtain rfl := Except.ok.inj htree
      exact ⟨addressedText, rfl, rfl, rfl⟩
  | true =>
      obtain rfl := Except.ok.inj htree
      exact ⟨"match: \x7b\x7d\n" ++ addressedText, rfl, rfl, rfl⟩

end SchemaRegistry

end Netfyr
