import Netfyr.Schema.RoundTrip

/-!
# What Decoding Keeps

Decoding gives each entry of a mapping a text for its key and inserts it into a
map, so an entry whose text is there already replaces the one before it. YAML
keys of different kinds can be different keys of one text, as `9000` and
`"9000"` are. Decoding therefore keeps every entry exactly when no two keys of
one mapping share their text, at every depth.

What has no place in a state makes decoding fail wherever it stands: null, a
float, a tagged value.

## Main definitions

* `YamlValue.Everywhere`: Every node of a tree has a property.
* `KeepsValue`: A value has all that its tree has, in its order.
* `YamlValue.TextsApart`: The keys of a mapping have different texts.

## Theorems

* `keeps_iff`: What decoding a tree keeps.
* `SchemaRegistry.fromYaml_keeps_iff`: What decoding a document keeps.
-/

namespace Netfyr

namespace YamlValue

mutual
/-- Every node of a tree has a property; keys are not nodes. -/
def Everywhere (P : YamlValue → Prop) : YamlValue → Prop
  | .null => P .null
  | .bool b => P (.bool b)
  | .number n => P (.number n)
  | .string text => P (.string text)
  | .sequence items => P (.sequence items) ∧ EverywhereItems P items
  | .mapping entries => P (.mapping entries) ∧ EverywhereEntries P entries
  | .tagged tag value => P (.tagged tag value) ∧ Everywhere P value
termination_by structural value => value
/-- The same below the elements of a sequence. -/
def EverywhereItems (P : YamlValue → Prop) : List YamlValue → Prop
  | [] => True
  | item :: items => Everywhere P item ∧ EverywhereItems P items
termination_by structural items => items
/-- The same below the values of a mapping. -/
def EverywhereEntries (P : YamlValue → Prop) : List (YamlValue × YamlValue) → Prop
  | [] => True
  | (_, item) :: entries => Everywhere P item ∧ EverywhereEntries P entries
termination_by structural entries => entries
end

/-- The keys of a mapping have different texts. -/
def TextsApart : YamlValue → Prop
  | .mapping entries => (entries.map fun entry => keyToString entry.1).Nodup
  | _ => True

/-- The keys of a mapping are different, which the YAML library sees to. -/
def KeysApart : YamlValue → Prop
  | .mapping entries => (entries.map Prod.fst).Nodup
  | _ => True

/-- The node is none of those without a place in a state. -/
def IsPlain : YamlValue → Prop
  | .null | .number (.float _) | .tagged _ _ => False
  | _ => True

end YamlValue

open YamlValue

mutual
/-- A value has all that its tree has: the elements of a sequence, and the
    entries of a mapping under the texts of their keys, decoded and in order. -/
def KeepsValue : YamlValue → Option TypedNode → Value → Prop
  | .sequence items, schema, value =>
      ∃ values, value = .list values ∧ KeepsItems items (schema.bind TypedNode.items) values
  | .mapping entries, schema, value =>
      ∃ out, value = .map out ∧ KeepsEntries entries (fun key => schema.bind (·.property key)) out
  | .null, schema, value => valueToModel .null schema = .ok value
  | .bool b, schema, value => valueToModel (.bool b) schema = .ok value
  | .number n, schema, value => valueToModel (.number n) schema = .ok value
  | .string text, schema, value => valueToModel (.string text) schema = .ok value
  | .tagged tag inner, schema, value => valueToModel (.tagged tag inner) schema = .ok value
termination_by structural yaml => yaml
/-- The same for the elements of a sequence. -/
def KeepsItems : List YamlValue → Option TypedNode → List Value → Prop
  | [], _, values => values = []
  | item :: items, schema, values =>
      ∃ value rest, values = value :: rest ∧ valueToModel item schema = .ok value ∧
        KeepsValue item schema value ∧ KeepsItems items schema rest
termination_by structural items => items
/-- The same for the entries of a mapping, `schemaOf` being the nodes of keys. -/
def KeepsEntries : List (YamlValue × YamlValue) → (String → Option TypedNode) →
    List (String × Value) → Prop
  | [], _, out => out = []
  | (k, item) :: entries, schemaOf, out =>
      ∃ key value rest, out = (key, value) :: rest ∧ keyToString k = .ok key ∧
        valueToModel item (schemaOf key) = .ok value ∧ KeepsValue item (schemaOf key) value ∧
          KeepsEntries entries schemaOf rest
termination_by structural entries => entries
end

/-- An entry is decoded to a text and a value. -/
def ReadsEntry (schemaOf : String → Option TypedNode) (entry : YamlValue × YamlValue)
    (read : String × Value) : Prop :=
  keyToString entry.1 = .ok read.1 ∧ valueToModel entry.2 (schemaOf read.1) = .ok read.2

section Entries

variable {schemaOf : String → Option TypedNode} {entries : List (YamlValue × YamlValue)}
  {read : List (String × Value)}

theorem KeepsEntries.reads {out : List (String × Value)} (h : KeepsEntries entries schemaOf out) :
    List.Forall₂ (ReadsEntry schemaOf) entries out := by
  induction entries generalizing out with
  | nil =>
      have hnil : out = [] := h
      subst hnil
      exact .nil
  | cons entry entries ih =>
      rcases entry with ⟨k, item⟩
      rcases h with ⟨key, value, rest, rfl, hkey, hvalue, _, hrest⟩
      exact .cons ⟨hkey, hvalue⟩ (ih hrest)

/-- Entries are decoded in one way. -/
theorem readsEntries_unique {out : List (String × Value)}
    (h : List.Forall₂ (ReadsEntry schemaOf) entries read)
    (h' : List.Forall₂ (ReadsEntry schemaOf) entries out) : read = out := by
  refine List.right_unique_forall₂' ?_ h h'
  intro entry first second hone hone'
  have hkey : first.1 = second.1 := Except.ok.inj (hone.1.symm.trans hone'.1)
  have hvalue := hone.2
  rw [hkey] at hvalue
  exact Prod.ext hkey (Except.ok.inj (hvalue.symm.trans hone'.2))

/-- The texts of the keys are the keys of what was decoded. -/
theorem readsEntries_texts (h : List.Forall₂ (ReadsEntry schemaOf) entries read) :
    (entries.map fun entry => keyToString entry.1) = (Assoc.keys read).map .ok := by
  induction h with
  | nil => rfl
  | cons hone _ ih =>
      rw [List.map_cons, Assoc.keys_cons, List.map_cons, hone.1, ih]

theorem textsApart_iff (h : List.Forall₂ (ReadsEntry schemaOf) entries read) :
    (YamlValue.mapping entries).TextsApart ↔ (Assoc.keys read).Nodup := by
  rw [TextsApart, readsEntries_texts h]
  exact List.nodup_map_iff fun _ _ heq => Except.ok.inj heq

end Entries

/-- Decoding the entries of a mapping decodes each and inserts it. -/
theorem entriesToModel_iff {entries : List (YamlValue × YamlValue)} {schema : Option TypedNode}
    {out result : List (String × Value)} : entriesToModel entries schema out = .ok result ↔
      ∃ read, List.Forall₂ (ReadsEntry fun key => schema.bind (·.property key)) entries read ∧
        result = Assoc.insertAll out read := by
  induction entries generalizing out with
  | nil =>
      rw [entriesToModel, Except.ok.injEq]
      constructor
      · rintro rfl
        exact ⟨[], .nil, rfl⟩
      · rintro ⟨read, hread, rfl⟩
        cases hread
        rfl
  | cons entry entries ih =>
      rcases entry with ⟨k, item⟩
      rw [entriesToModel_cons_ok]
      constructor
      · rintro ⟨key, value, hkey, hvalue, h⟩
        rcases ih.mp h with ⟨read, hread, rfl⟩
        exact ⟨(key, value) :: read, .cons ⟨hkey, hvalue⟩ hread, rfl⟩
      · rintro ⟨read, hread, rfl⟩
        rcases List.forall₂_cons_left_iff.mp hread with ⟨first, rest, hone, hrest, rfl⟩
        exact ⟨first.1, first.2, hone.1, hone.2, ih.mpr ⟨rest, hrest, rfl⟩⟩

mutual
/-- Decoding a tree keeps all of it exactly when no two keys of one mapping have
    the same text. -/
theorem keeps_iff : (yaml : YamlValue) → (schema : Option TypedNode) → {value : Value} →
    valueToModel yaml schema = .ok value →
    (KeepsValue yaml schema value ↔ Everywhere TextsApart yaml)
  | .bool _, _, _, h | .number _, _, _, h | .string _, _, _, h =>
      iff_of_true h trivial
  | .null, _, _, h | .tagged _ _, _, _, h =>
      absurd h (by simp only [valueToModel, reduceCtorEq, not_false_eq_true])
  | .sequence items, schema, value, h => by
      rw [valueToModel, except_bind_eq_ok] at h
      rcases h with ⟨values, hvalues, hval⟩
      obtain rfl := Except.ok.inj hval
      have hitems := keepsItems_iff items (schema.bind TypedNode.items) hvalues
      rw [KeepsValue, Everywhere, ← hitems]
      constructor
      · rintro ⟨again, heq, hkeeps⟩
        rw [Value.list.injEq] at heq
        rw [heq]
        exact ⟨trivial, hkeeps⟩
      · rintro ⟨_, hkeeps⟩
        exact ⟨values, rfl, hkeeps⟩
  | .mapping entries, schema, value, h => by
      rw [valueToModel, except_bind_eq_ok] at h
      rcases h with ⟨out, hout, hval⟩
      obtain rfl := Except.ok.inj hval
      rcases entriesToModel_iff.mp hout with ⟨read, hread, rfl⟩
      have hentries := keepsEntries_iff entries (fun key => schema.bind (·.property key)) hread
      rw [KeepsValue, Everywhere, textsApart_iff hread, ← hentries, ← Assoc.insertAll_nil_eq_iff]
      constructor
      · rintro ⟨out, heq, hkeeps⟩
        rw [Value.map.injEq] at heq
        subst heq
        -- What is kept is what was decoded, so inserting lost nothing.
        have hsame := readsEntries_unique hread hkeeps.reads
        rw [← hsame] at hkeeps
        exact ⟨hsame.symm, hkeeps⟩
      · rintro ⟨hsame, hkeeps⟩
        exact ⟨_, rfl, by rw [hsame]; exact hkeeps⟩
termination_by structural yaml => yaml
/-- The same for the elements of a sequence. -/
theorem keepsItems_iff : (items : List YamlValue) → (schema : Option TypedNode) →
    {values : List Value} → itemsToModel items schema = .ok values →
    (KeepsItems items schema values ↔ EverywhereItems TextsApart items)
  | [], _, _, h => by
      obtain rfl := Except.ok.inj h
      exact iff_of_true rfl trivial
  | item :: items, schema, _, h => by
      rcases itemsToModel_cons_ok.mp h with ⟨value, values, hvalue, hvalues, rfl⟩
      rw [KeepsItems, EverywhereItems, ← keeps_iff item schema hvalue,
        ← keepsItems_iff items schema hvalues]
      constructor
      · rintro ⟨_, _, heq, _, hkeeps, hrest⟩
        rw [List.cons.injEq] at heq
        rcases heq with ⟨rfl, rfl⟩
        exact ⟨hkeeps, hrest⟩
      · rintro ⟨hkeeps, hrest⟩
        exact ⟨value, values, rfl, hvalue, hkeeps, hrest⟩
termination_by structural items => items
/-- The same for the entries of a mapping, as they are decoded. -/
theorem keepsEntries_iff : (entries : List (YamlValue × YamlValue)) →
    (schemaOf : String → Option TypedNode) → {read : List (String × Value)} →
    List.Forall₂ (ReadsEntry schemaOf) entries read →
    (KeepsEntries entries schemaOf read ↔ EverywhereEntries TextsApart entries)
  | [], _, _, h => by
      cases h
      exact iff_of_true rfl trivial
  | (k, item) :: entries, schemaOf, (key, value) :: read, h => by
      rcases List.forall₂_cons.mp h with ⟨hone, hrest⟩
      rw [KeepsEntries, EverywhereEntries, ← keeps_iff item (schemaOf key) hone.2,
        ← keepsEntries_iff entries schemaOf hrest]
      constructor
      · rintro ⟨_, _, _, heq, _, _, hkeeps, hentries⟩
        rw [List.cons.injEq, Prod.mk.injEq] at heq
        rcases heq with ⟨⟨rfl, rfl⟩, rfl⟩
        exact ⟨hkeeps, hentries⟩
      · rintro ⟨hkeeps, hentries⟩
        exact ⟨key, value, read, rfl, hone.1, hone.2, hkeeps, hentries⟩
termination_by structural entries => entries
end

mutual
/-- What is decoded has only nodes with a place in a state. -/
theorem isPlain_of_valueToModel : (yaml : YamlValue) → (schema : Option TypedNode) →
    {value : Value} → valueToModel yaml schema = .ok value → Everywhere IsPlain yaml
  | .bool _, _, _, _ | .number (.unsigned _), _, _, _ | .number (.negative _ _), _, _, _
  | .string _, _, _, _ => trivial
  | .null, _, _, h | .number (.float _), _, _, h | .tagged _ _, _, _, h =>
      absurd h (by simp only [valueToModel, reduceCtorEq, not_false_eq_true])
  | .sequence items, schema, _, h => by
      rw [valueToModel, except_bind_eq_ok] at h
      rcases h with ⟨values, hvalues, _⟩
      exact ⟨trivial, isPlain_of_itemsToModel items (schema.bind TypedNode.items) hvalues⟩
  | .mapping entries, schema, _, h => by
      rw [valueToModel, except_bind_eq_ok] at h
      rcases h with ⟨out, hout, _⟩
      rcases entriesToModel_iff.mp hout with ⟨read, hread, _⟩
      exact ⟨trivial, isPlain_of_reads entries (fun key => schema.bind (·.property key)) hread⟩
termination_by structural yaml => yaml
/-- The same below the elements of a sequence. -/
theorem isPlain_of_itemsToModel : (items : List YamlValue) → (schema : Option TypedNode) →
    {values : List Value} → itemsToModel items schema = .ok values → EverywhereItems IsPlain items
  | [], _, _, _ => trivial
  | item :: items, schema, _, h => by
      rcases itemsToModel_cons_ok.mp h with ⟨value, values, hvalue, hvalues, _⟩
      exact ⟨isPlain_of_valueToModel item schema hvalue,
        isPlain_of_itemsToModel items schema hvalues⟩
termination_by structural items => items
/-- The same below the values of a mapping. -/
theorem isPlain_of_reads : (entries : List (YamlValue × YamlValue)) →
    (schemaOf : String → Option TypedNode) → {read : List (String × Value)} →
    List.Forall₂ (ReadsEntry schemaOf) entries read → EverywhereEntries IsPlain entries
  | [], _, _, _ => trivial
  | (_, item) :: entries, schemaOf, (key, _) :: _, h => by
      rcases List.forall₂_cons.mp h with ⟨hone, hrest⟩
      exact ⟨isPlain_of_valueToModel item (schemaOf key) hone.2,
        isPlain_of_reads entries schemaOf hrest⟩
termination_by structural entries => entries
end

/-- The entries of a device mapping that are fields. -/
def fieldEntries (entries : List (YamlValue × YamlValue)) : List (YamlValue × YamlValue) :=
  entries.filter fun entry => !(keyToString entry.1).toOption.any isReserved

/-- The device mappings of a document. -/
def deviceMappings : YamlValue → List (List (YamlValue × YamlValue))
  | .mapping entries => [entries]
  | .sequence items => items.filterMap fun item => match item with
      | .mapping entries => some entries
      | _ => none
  | _ => []

namespace SchemaRegistry

variable {self : SchemaRegistry} {state : State} {states : List State}

/-- A state has all that its device mapping has besides the reserved keys. -/
def KeepsMapping (self : SchemaRegistry) (entries : List (YamlValue × YamlValue))
    (state : State) : Prop :=
  KeepsEntries (fieldEntries entries) self.topLevelSchema state.fields.entries

/-- Reading the entries of a device mapping decodes the fields and inserts them. -/
theorem foldlM_readEntry {entries : List (YamlValue × YamlValue)} {parts out : MappingParts}
    (h : entries.foldlM self.readEntry parts = .ok out) :
    ∃ read, List.Forall₂ (ReadsEntry self.topLevelSchema) (fieldEntries entries) read ∧
      out.fields.entries = Assoc.insertAll parts.fields.entries read := by
  induction entries generalizing parts with
  | nil =>
      obtain rfl := Except.ok.inj h
      exact ⟨[], .nil, rfl⟩
  | cons entry entries ih =>
      rw [List.foldlM_cons, except_bind_eq_ok] at h
      rcases h with ⟨next, hnext, h⟩
      rcases ih h with ⟨read, hread, hout⟩
      unfold fieldEntries at *
      rcases readEntry_ok hnext with
        ⟨key, hkey, ⟨hreserved, hsame⟩ | ⟨hfield, value, hvalue, hmodel, hinsert⟩⟩
      · -- A reserved key is no field.
        refine ⟨read, ?_, by rw [hout, hsame]⟩
        rw [List.filter_cons_of_neg]
        · exact hread
        · rw [hkey]
          simp only [Except.toOption, Option.any_some, hreserved, Bool.not_true,
            Bool.false_eq_true, not_false_eq_true]
      · refine ⟨(key, value) :: read, ?_, by rw [hout, hinsert]; rfl⟩
        rw [List.filter_cons_of_pos]
        · exact .cons ⟨hkey, hmodel⟩ hread
        · rw [hkey]
          simp only [Except.toOption, Option.any_some, hfield, Bool.not_false]

theorem mappingToState_fields {entries : List (YamlValue × YamlValue)}
    (h : self.mappingToState entries = .ok state) :
    ∃ read, List.Forall₂ (ReadsEntry self.topLevelSchema) (fieldEntries entries) read ∧
      state.fields.entries = Assoc.insertAll [] read := by
  rcases except_bind_eq_ok.mp h with ⟨parts, hparts, h⟩
  obtain rfl := Except.ok.inj h
  exact foldlM_readEntry hparts

/-- A device mapping is kept exactly when no two fields, and no two keys of one
    mapping below, have the same text. -/
theorem keepsMapping_iff {entries : List (YamlValue × YamlValue)}
    (h : self.mappingToState entries = .ok state) :
    self.KeepsMapping entries state ↔ Everywhere TextsApart (.mapping (fieldEntries entries)) := by
  rcases mappingToState_fields h with ⟨read, hread, hfields⟩
  have hentries := keepsEntries_iff (fieldEntries entries) self.topLevelSchema hread
  rw [KeepsMapping, Everywhere, textsApart_iff hread, ← hentries, ← Assoc.insertAll_nil_eq_iff,
    hfields]
  constructor
  · intro hkeeps
    have hsame := readsEntries_unique hread hkeeps.reads
    rw [← hsame] at hkeeps
    exact ⟨hsame.symm, hkeeps⟩
  · rintro ⟨hsame, hkeeps⟩
    rw [hsame]
    exact hkeeps

theorem isPlain_of_mappingToState {entries : List (YamlValue × YamlValue)}
    (h : self.mappingToState entries = .ok state) :
    EverywhereEntries IsPlain (fieldEntries entries) := by
  rcases mappingToState_fields h with ⟨read, hread, _⟩
  exact isPlain_of_reads _ _ hread

/-- The states of a document are those of its device mappings. -/
theorem fromYaml_deviceMappings {parse : String → Except String YamlValue} {input : String}
    {tree : YamlValue} (hparse : parse input = .ok tree)
    (h : self.fromYaml parse input = .ok states) :
    List.Forall₂ (fun entries state => self.mappingToState entries = .ok state)
      (deviceMappings tree) states := by
  rcases fromYaml_eq_ok.mp h with ⟨_, _, items, htree, hitems, hall⟩
  obtain rfl := Except.ok.inj (hparse.symm.trans htree)
  -- Every element that is read is a device mapping.
  have hmapped : deviceMappings tree = items.filterMap fun item => match item with
      | .mapping entries => some entries
      | _ => none := by
    cases tree with
    | mapping entries =>
        obtain rfl := Option.some.inj hitems
        rfl
    | sequence own =>
        obtain rfl := Option.some.inj hitems
        rfl
    | _ => exact absurd hitems (by simp only [documentElements, reduceCtorEq, not_false_eq_true])
  rw [hmapped]
  clear h hmapped hitems
  induction hall with
  | nil => exact .nil
  | cons hone _ ih =>
      rcases hone with ⟨entries, rfl, hread⟩
      exact .cons hread ih

/-- Decoding a document keeps every entry of every device mapping exactly when
    no two keys of one mapping have the same text. Nothing without a place in a
    state is decoded. -/
theorem fromYaml_keeps_iff {parse : String → Except String YamlValue} {input : String}
    {tree : YamlValue} (hparse : parse input = .ok tree)
    (h : self.fromYaml parse input = .ok states) :
    (List.Forall₂ self.KeepsMapping (deviceMappings tree) states ↔
        ∀ entries ∈ deviceMappings tree, Everywhere TextsApart (.mapping (fieldEntries entries))) ∧
      ∀ entries ∈ deviceMappings tree, EverywhereEntries IsPlain (fieldEntries entries) := by
  have hstates := fromYaml_deviceMappings hparse h
  generalize deviceMappings tree = mappings at hstates
  -- Document by document, then device mapping by device mapping.
  clear h hparse
  induction hstates with
  | nil =>
      exact ⟨iff_of_true .nil fun _ habs => absurd habs List.not_mem_nil,
        fun _ habs => absurd habs List.not_mem_nil⟩
  | cons hone _ ih =>
      rw [List.forall₂_cons, List.forall_mem_cons, List.forall_mem_cons, keepsMapping_iff hone,
        ih.1]
      exact ⟨Iff.rfl, isPlain_of_mappingToState hone, ih.2⟩

/-- A device mapping whose keys are a boolean and the text of one, in a reader
    that reads nothing else. -/
def booleanEntries : List (YamlValue × YamlValue) :=
  [(.bool true, .string "first"), (.string "true", .string "second")]

def parseBoolean (_ : String) : Except String YamlValue := .ok (.mapping booleanEntries)

/-- What is left of it. -/
def booleanState : State :=
  (State.new (.static "")).setField "true" (.string "second") (Value.string_wellKeyed _)

theorem fromYaml_boolean :
    new.fromYaml parseBoolean "true: first\n'true': second\n" = .ok [booleanState] := rfl

/-- Keys that are different, but not as texts, lose an entry. -/
theorem fromYaml_loses :
    ¬ ∀ (parse : String → Except String YamlValue) (input : String) (tree : YamlValue)
        (states : List State), parse input = .ok tree →
        (∀ entries ∈ deviceMappings tree, Everywhere KeysApart (.mapping entries)) →
        new.fromYaml parse input = .ok states →
        List.Forall₂ new.KeepsMapping (deviceMappings tree) states ∧
          ∀ entries ∈ deviceMappings tree, EverywhereEntries IsPlain (fieldEntries entries) := by
  intro h
  have hkeys : ∀ entries ∈ deviceMappings (.mapping booleanEntries),
      Everywhere KeysApart (.mapping entries) := by
    intro entries hmem
    rw [deviceMappings, List.mem_singleton] at hmem
    subst hmem
    refine ⟨?_, trivial, trivial, trivial⟩
    simp only [KeysApart, booleanEntries, List.map_cons, List.map_nil, List.nodup_cons,
      List.mem_singleton, reduceCtorEq, not_false_eq_true, List.not_mem_nil, List.nodup_nil,
      and_self]
  have hkeeps := (h parseBoolean _ _ _ rfl hkeys fromYaml_boolean).1
  -- The text of both keys is the same.
  rcases List.forall₂_cons.mp hkeeps with ⟨hkeeps, _⟩
  rcases hkeeps with ⟨key, value, rest, hfields, _, _, _, hrest⟩
  rcases hrest with ⟨key', value', rest', rfl, _⟩
  have hlength := congrArg List.length hfields
  rw [List.length_cons, List.length_cons] at hlength
  have hone : booleanState.fields.entries.length = 1 := rfl
  omega

theorem fromYaml_keeps_iff_boolean :
    (List.Forall₂ new.KeepsMapping (deviceMappings (.mapping booleanEntries)) [booleanState] ↔
        ∀ entries ∈ deviceMappings (.mapping booleanEntries),
          Everywhere TextsApart (.mapping (fieldEntries entries))) ∧
      ∀ entries ∈ deviceMappings (.mapping booleanEntries),
        EverywhereEntries IsPlain (fieldEntries entries) := by
  have hparse : parseBoolean "true: first\n'true': second\n" = .ok (.mapping booleanEntries) := rfl
  exact fromYaml_keeps_iff hparse rfl

end SchemaRegistry

end Netfyr
