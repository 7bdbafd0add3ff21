import Mathlib.Data.List.Infix
import Netfyr.Schema.Validate

/-!
# Reading YAML

The tree the YAML library yields, and its conversion to states along the
schema. Reading text into a tree is the library's, so the reader is a parameter
`parse` here, which fails with a message. A scalar is interpreted only by the
node that governs its path: text becomes an address where a node says so and
stays text elsewhere.

`SchemaRegistry.decodeYaml` reads candidate states, validates each in its mode,
and gives query output the selector derived from its fields.

## Main definitions

* `YamlValue`: A tree.
* `Error`: Everything that can go wrong, with its data.
* `valueToModel`, `mappingToState`: The conversion.
* `SchemaRegistry.fromYaml`, `SchemaRegistry.decodeYaml`: Reading states.
* `IsQueryOutput`: A state was read in query mode.

## Theorems

* `valueToModel_wellKeyed`: Converted values have distinct keys.
* `SchemaRegistry.fromYaml_eq_ok`: What is read, element by element.
* `IsQueryOutput.exists_candidate`: What a state read in query mode is like.
-/

namespace Netfyr

/-- A number: non-negative, negative, or a float known by its text. A signed
    number is always below zero. -/
inductive YamlNumber where
  | unsigned (n : UInt64)
  | negative (n : Int64) (below : n < 0)
  | float (text : String)
  deriving DecidableEq

/-- The text of a number. -/
def YamlNumber.display : YamlNumber → String
  | .unsigned n => toString n.toNat
  | .negative n _ => toString n.toInt
  | .float text => text

/-- A YAML tree. -/
inductive YamlValue where
  | null
  | bool (b : Bool)
  | number (n : YamlNumber)
  | string (text : String)
  | sequence (items : List YamlValue)
  | mapping (entries : List (YamlValue × YamlValue))
  | tagged (tag : String) (value : YamlValue)

namespace YamlValue

/-- A tree without the tags around it. -/
def untag : YamlValue → YamlValue
  | .tagged _ value => value.untag
  | value => value

/-- The text of a string, tagged or not. -/
def asStr (value : YamlValue) : Option String :=
  match value.untag with
  | .string text => some text
  | _ => none

/-- The entries of a mapping, tagged or not. -/
def asMapping (value : YamlValue) : Option (List (YamlValue × YamlValue)) :=
  match value.untag with
  | .mapping entries => some entries
  | _ => none

/-- A noun for a tree's shape. -/
def shape : YamlValue → String
  | .null => "null"
  | .bool _ => "a boolean"
  | .number _ => "a number"
  | .string _ => "a string"
  | .sequence _ => "a sequence"
  | .mapping _ => "a mapping"
  | .tagged _ _ => "a tagged value"

end YamlValue

/-- A violation with the index of its state. -/
structure IndexedValidationError where
  stateIndex : Nat
  error : ValidationError
  deriving DecidableEq

/-- What can go wrong in reading, writing and preparing states. -/
inductive Error where
  | yaml (message : String)
  | multiDocument
  | emptyInput
  | invalidTopLevel (shape : String)
  | unknownKind (kind : String)
  | policyWrapperNotSupported
  | unknownMatchKey (key : String)
  | matchNotMapping
  | invalidFieldKey (shape : String)
  | matchValueNotString (key : String)
  | unexpectedMatch (stateIndex : Nat)
  | missingMatch (stateIndex : Nat)
  | unsupportedScalar (kind : String)
  | noMatchField (field : String) (stateIndex : Nat)
  | reservedFieldKey (key : String) (stateIndex : Nat)
  | validation (errors : List IndexedValidationError)
  deriving DecidableEq

/-- The text a scalar key stands for. -/
def keyToString : YamlValue → Except Error String
  | .string text => .ok text
  | .number n => .ok n.display
  | .bool b => .ok (if b then "true" else "false")
  | other => .error (.invalidFieldKey other.shape)

/-- The value a node makes of text: an address where its format asks for one
    and the text is one. -/
def decodeString (node : TypedNode) (text : String) : Value :=
  match node.fieldType with
  | .ipNetwork =>
      match parseIpNetwork text with
      | some (addr, len) => .ipNetwork addr len
      | none => .string text
  | _ => .string text

mutual
/-- Convert a tree along the node that governs its path, if any. -/
def valueToModel : YamlValue → Option TypedNode → Except Error Value
  | .null, _ => .error (.unsupportedScalar "null")
  | .bool b, _ => .ok (.bool b)
  | .number (.unsigned n), _ => .ok (.u64 n)
  | .number (.negative n _), _ => .ok (.i64 n)
  | .number (.float _), _ => .error (.unsupportedScalar "float")
  | .string text, schema =>
      .ok (match schema with
        | some node => decodeString node text
        | none => .string text)
  | .sequence items, schema => do
      let out ← itemsToModel items (schema.bind TypedNode.items)
      .ok (.list out)
  | .mapping entries, schema => do
      let out ← entriesToModel entries schema []
      .ok (.map out)
  | .tagged _ _, _ => .error (.yaml "tagged YAML values are not supported")
termination_by structural value => value
/-- Convert the items of a sequence. -/
def itemsToModel : List YamlValue → Option TypedNode → Except Error (List Value)
  | [], _ => .ok []
  | item :: items, schema => do
      let value ← valueToModel item schema
      let values ← itemsToModel items schema
      .ok (value :: values)
termination_by structural items => items
/-- Convert the entries of a mapping, adding them to `out`. -/
def entriesToModel : List (YamlValue × YamlValue) → Option TypedNode → List (String × Value) →
    Except Error (List (String × Value))
  | [], _, out => .ok out
  | (k, item) :: entries, schema, out => do
      let key ← keyToString k
      let value ← valueToModel item (schema.bind (·.property key))
      entriesToModel entries schema (Assoc.insert out key value)
termination_by structural entries => entries
end

/-- A sequence is converted when its first item is and the others are. -/
theorem itemsToModel_cons_ok {item : YamlValue} {items : List YamlValue}
    {schema : Option TypedNode} {out : List Value} :
    itemsToModel (item :: items) schema = .ok out ↔ ∃ value values,
      valueToModel item schema = .ok value ∧ itemsToModel items schema = .ok values ∧
        out = value :: values := by
  rw [itemsToModel, except_bind_eq_ok]
  refine exists_congr fun value => ?_
  rw [except_bind_eq_ok]
  constructor
  · rintro ⟨hvalue, values, hvalues, h⟩
    exact ⟨values, hvalue, hvalues, (Except.ok.inj h).symm⟩
  · rintro ⟨values, hvalue, hvalues, rfl⟩
    exact ⟨hvalue, values, hvalues, rfl⟩

/-- The first entry of a mapping is converted and inserted before the others. -/
theorem entriesToModel_cons_ok {k item : YamlValue} {entries : List (YamlValue × YamlValue)}
    {schema : Option TypedNode} {out result : List (String × Value)} :
    entriesToModel ((k, item) :: entries) schema out = .ok result ↔ ∃ key value,
      keyToString k = .ok key ∧ valueToModel item (schema.bind (·.property key)) = .ok value ∧
        entriesToModel entries schema (Assoc.insert out key value) = .ok result := by
  rw [entriesToModel, except_bind_eq_ok]
  refine exists_congr fun key => ?_
  rw [except_bind_eq_ok]
  exact exists_and_left.symm

mutual
/-- Converted values have distinct keys at every depth. -/
theorem valueToModel_wellKeyed : (yaml : YamlValue) → (schema : Option TypedNode) →
    {value : Value} → valueToModel yaml schema = .ok value → value.WellKeyed
  | .bool _, _, _, h | .number (.unsigned _), _, _, h | .number (.negative _ _), _, _, h => by
      obtain rfl := Except.ok.inj h
      trivial
  | .null, _, _, h | .number (.float _), _, _, h | .tagged _ _, _, _, h =>
      absurd h (by simp only [valueToModel, reduceCtorEq, not_false_eq_true])
  | .string text, schema, _, h => by
      obtain rfl := Except.ok.inj h
      cases schema with
      | none => trivial
      | some node =>
        simp only [decodeString]
        split
        · split <;> trivial
        · trivial
  | .sequence items, schema, _, h => by
      rw [valueToModel, except_bind_eq_ok] at h
      rcases h with ⟨out, hout, hval⟩
      obtain rfl := Except.ok.inj hval
      exact itemsToModel_wellKeyed items (schema.bind TypedNode.items) hout
  | .mapping entries, schema, _, h => by
      rw [valueToModel, except_bind_eq_ok] at h
      rcases h with ⟨out, hout, hval⟩
      obtain rfl := Except.ok.inj hval
      exact entriesToModel_wellKeyed entries schema FieldMap.empty.wellKeyed hout
termination_by structural yaml => yaml
/-- The same for the items of a sequence. -/
theorem itemsToModel_wellKeyed : (items : List YamlValue) → (schema : Option TypedNode) →
    {values : List Value} → itemsToModel items schema = .ok values → Value.WellKeyedList values
  | [], _, _, h => by
      obtain rfl := Except.ok.inj h
      trivial
  | item :: items, schema, _, h => by
      rcases itemsToModel_cons_ok.mp h with ⟨value, values, hvalue, hvalues, rfl⟩
      exact ⟨valueToModel_wellKeyed item schema hvalue, itemsToModel_wellKeyed items schema hvalues⟩
termination_by structural items => items
/-- The same for the entries of a mapping. -/
theorem entriesToModel_wellKeyed : (entries : List (YamlValue × YamlValue)) →
    (schema : Option TypedNode) → {out result : List (String × Value)} →
    (Value.map out).WellKeyed → entriesToModel entries schema out = .ok result →
    (Value.map result).WellKeyed
  | [], _, _, _, hout, h => by
      obtain rfl := Except.ok.inj h
      exact hout
  | (k, item) :: entries, schema, _, _, hout, h => by
      rcases entriesToModel_cons_ok.mp h with ⟨key, value, _, hvalue, h⟩
      exact entriesToModel_wellKeyed entries schema
        (FieldMap.insert_wellKeyed hout (valueToModel_wellKeyed item _ hvalue)) h
termination_by structural entries => entries
end

/-- Read a `match:` section: a closed set of keys, with strings as values. -/
def parseMatch (value : YamlValue) : Except Error Match :=
  match value.asMapping with
  | none => .error .matchNotMapping
  | some entries =>
      entries.foldlM (fun (spec : Match) (entry : YamlValue × YamlValue) => do
        let key ← keyToString entry.1
        match entry.2.asStr with
        | none => .error (.matchValueNotString key)
        | some text =>
            if key = "name" then .ok { spec with name := some text }
            else if key = "type" then .ok { spec with type := some text }
            else if key = "driver" then .ok { spec with driver := some text }
            else if key = "pci_path" then .ok { spec with pciPath := some text }
            else if key = "mac" then .ok { spec with mac := some text }
            else .error (.unknownMatchKey key)) {}

/-- Check the `kind` discriminator. -/
def parseKind : YamlValue → Except Error Unit
  | .string kind =>
      if kind = "state" then .ok ()
      else if kind = "policy" then .error .policyWrapperNotSupported
      else .error (.unknownKind kind)
  | other => .error (.unknownKind other.shape)

/-- What has been read of a device mapping. -/
structure MappingParts where
  matchSpec : Match
  deviceType : String
  fields : FieldMap

namespace SchemaRegistry

/-- Read one entry of a device mapping: a reserved key, or a field. -/
def readEntry (self : SchemaRegistry) (parts : MappingParts) (entry : YamlValue × YamlValue) :
    Except Error MappingParts := do
  let key ← keyToString entry.1
  if key = "match" then
    let matchSpec ← parseMatch entry.2
    .ok { parts with matchSpec }
  else if key = "kind" then
    parseKind entry.2
    .ok parts
  else if key = "type" then
    match entry.2.asStr with
    | none => .error (.unsupportedScalar entry.2.shape)
    | some deviceType => .ok { parts with deviceType }
  else
    match h : valueToModel entry.2 (self.topLevelSchema key) with
    | .error e => .error e
    | .ok value =>
        .ok { parts with
          fields := parts.fields.insert key value (valueToModel_wellKeyed entry.2 _ h) }

/-- Convert a device mapping; a technology object implies the device type. -/
def mappingToState (self : SchemaRegistry) (entries : List (YamlValue × YamlValue)) :
    Except Error State := do
  let parts ← entries.foldlM self.readEntry { matchSpec := {}, deviceType := "", fields := .empty }
  -- An explicit type wins over the implied one.
  let deviceType :=
    if parts.deviceType = "" then (self.impliedDeviceType parts.fields).getD ""
    else parts.deviceType
  let source := Source.static ""
  .ok { deviceType, matchSpec := parts.matchSpec, fields := parts.fields, source,
        priority := source.defaultPriority }

end SchemaRegistry

/-- The characters Unicode counts as white space. -/
def isWhitespace (c : Char) : Bool :=
  let n := c.toNat
  (9 ≤ n && n ≤ 13) || n == 32 || n == 0x85 || n == 0xA0 || n == 0x1680 ||
    (0x2000 ≤ n && n ≤ 0x200A) || n == 0x2028 || n == 0x2029 || n == 0x202F || n == 0x205F ||
    n == 0x3000

namespace SchemaRegistry

/-- Convert the elements of a top-level sequence, numbered from `index`. -/
def sequenceToStates (self : SchemaRegistry) : List YamlValue → Nat → Except Error (List State)
  | [], _ => .ok []
  | entry :: entries, index => do
      let state ← match entry with
        | .mapping m => self.mappingToState m
        | other => .error (.invalidTopLevel
            s!"list element {index} is {other.shape}, not a mapping")
      let states ← self.sequenceToStates entries (index + 1)
      .ok (state :: states)

/-- Read states from text. -/
def fromYaml (parse : String → Except String YamlValue) (self : SchemaRegistry)
    (input : String) : Except Error (List State) :=
  if input.toList.all isWhitespace then .error .emptyInput
  else
    match parse input with
    | .error message =>
        -- The library has no error code for this, so the source looks into the text.
        if "more than one document".toList <:+: message.toList then .error .multiDocument
        else .error (.yaml message)
    | .ok (.mapping m) => do
        let state ← self.mappingToState m
        .ok [state]
    | .ok (.sequence entries) => self.sequenceToStates entries 0
    | .ok other => .error (.invalidTopLevel other.shape)

end SchemaRegistry

/-- The elements of a document: those of a sequence, or its one mapping. -/
def documentElements : YamlValue → Option (List YamlValue)
  | .mapping entries => some [.mapping entries]
  | .sequence items => some items
  | _ => none

namespace SchemaRegistry

variable {self : SchemaRegistry}

/-- A state that is read does not come from the kernel. -/
theorem mappingToState_source {entries : List (YamlValue × YamlValue)} {state : State}
    (h : self.mappingToState entries = .ok state) : state.source ≠ .kernel := by
  rcases except_bind_eq_ok.mp h with ⟨parts, _, hstate⟩
  rw [← Except.ok.inj hstate]
  exact Source.noConfusion

/-- An element of a document is read as a state. -/
def ReadsElement (self : SchemaRegistry) (item : YamlValue) (state : State) : Prop :=
  ∃ entries, item = .mapping entries ∧ self.mappingToState entries = .ok state

/-- A sequence is read element by element. -/
theorem sequenceToStates_eq_ok {items : List YamlValue} {index : Nat} {states : List State} :
    self.sequenceToStates items index = .ok states ↔
      List.Forall₂ self.ReadsElement items states := by
  induction items generalizing index states with
  | nil =>
      rw [sequenceToStates, Except.ok.injEq, List.forall₂_nil_left_iff]
      exact eq_comm
  | cons item items ih =>
      rw [List.forall₂_cons_left_iff]
      constructor
      · intro h
        cases item with
        | mapping entries =>
            rw [sequenceToStates] at h
            rcases except_bind_eq_ok.mp h with ⟨state, hstate, h⟩
            rcases except_bind_eq_ok.mp h with ⟨rest, hrest, h⟩
            exact ⟨state, rest, ⟨entries, rfl, hstate⟩, ih.mp hrest, (Except.ok.inj h).symm⟩
        | _ =>
            -- Nothing else is converted.
            rw [sequenceToStates.eq_def] at h
            exact absurd h (by simp only [bind, Except.bind, reduceCtorEq, not_false_eq_true])
      · rintro ⟨state, rest, ⟨entries, rfl, hstate⟩, hrest, rfl⟩
        rw [sequenceToStates, hstate, ih.mpr hrest]
        rfl

/-- Text is read as states when it is one document, of elements that are read. -/
theorem fromYaml_eq_ok {parse : String → Except String YamlValue} {input : String}
    {states : List State} : self.fromYaml parse input = .ok states ↔
      input.toList.all isWhitespace = false ∧ ∃ tree items, parse input = .ok tree ∧
        documentElements tree = some items ∧ List.Forall₂ self.ReadsElement items states := by
  rw [fromYaml]
  cases input.toList.all isWhitespace with
  | true =>
      rw [if_pos rfl]
      exact iff_of_false (by simp only [reduceCtorEq, not_false_eq_true])
        fun h => Bool.noConfusion h.1
  | false =>
      rw [if_neg Bool.false_ne_true]
      cases hparse : parse input with
      | error message =>
          -- A parse error is reported under one of two names, never read.
          refine iff_of_false ?_ ?_
          · dsimp only
            split <;> simp only [reduceCtorEq, not_false_eq_true]
          · simp only [reduceCtorEq, false_and, exists_false, and_false, not_false_eq_true]
      | ok tree =>
          simp only [Except.ok.injEq, true_and, exists_and_left, exists_eq_left']
          cases tree with
          | mapping entries =>
              simp only [documentElements, Option.some.injEq, exists_eq_left',
                List.forall₂_cons_left_iff, List.forall₂_nil_left_iff]
              constructor
              · intro h
                rcases except_bind_eq_ok.mp h with ⟨state, hstate, h⟩
                exact ⟨state, [], ⟨entries, rfl, hstate⟩, rfl, (Except.ok.inj h).symm⟩
              · rintro ⟨state, _, ⟨_, ⟨⟩, hstate⟩, rfl, rfl⟩
                rw [hstate]
                rfl
          | sequence items =>
              simp only [documentElements, Option.some.injEq, exists_eq_left']
              exact sequenceToStates_eq_ok
          | _ => simp only [documentElements, reduceCtorEq, false_and, exists_false]

end SchemaRegistry

/-- How text is read: as query output or as policy input. -/
inductive DecodeMode where
  | query
  | policy
  deriving DecidableEq

/-- The text of a string field. -/
def fieldString (fields : FieldMap) (key : String) : Option String :=
  match fields.get? key with
  | some (.string text) => some text
  | _ => none

/-- The selector of query output, and its provenance. -/
def deriveQueryMatch (state : State) : State :=
  { state with
    matchSpec :=
      { state.matchSpec with
        name := fieldString state.fields "name"
        type := if state.deviceType = "" then none else some state.deviceType
        driver := fieldString state.fields "driver"
        mac := fieldString state.fields "mac" }
    source := .kernel
    priority := Source.kernel.defaultPriority }

namespace SchemaRegistry

/-- Validate candidate states one by one, refusing a selector in query mode and
    its absence in policy mode. -/
def decodeErrors (self : SchemaRegistry) (mode : DecodeMode) :
    List State → Nat → Except Error (List IndexedValidationError)
  | [], _ => .ok []
  | state :: states, stateIndex =>
      if mode = .query ∧ state.matchSpec.isEmpty = false then .error (.unexpectedMatch stateIndex)
      else if mode = .policy ∧ state.matchSpec.isEmpty = true then
        .error (.missingMatch stateIndex)
      else do
        let errors := match mode with
          | .query => self.validate state
          | .policy => self.validateWritable state
        let rest ← self.decodeErrors mode states (stateIndex + 1)
        .ok (errors.map (IndexedValidationError.mk stateIndex) ++ rest)

/-- Read and validate states in a mode. -/
def decodeYaml (parse : String → Except String YamlValue) (self : SchemaRegistry)
    (input : String) (mode : DecodeMode) : Except Error (List State) := do
  let states ← self.fromYaml parse input
  let errors ← self.decodeErrors mode states 0
  if errors ≠ [] then .error (.validation errors)
  else
    match mode with
    | .query => .ok (states.map deriveQueryMatch)
    | .policy => .ok states

/-- In query mode, candidates without violation have no selector and are valid. -/
theorem decodeErrors_query {self : SchemaRegistry} {states : List State} {stateIndex : Nat}
    (h : self.decodeErrors .query states stateIndex = .ok []) :
    ∀ state ∈ states, state.matchSpec.isEmpty = true ∧ self.validate state = [] := by
  induction states generalizing stateIndex with
  | nil => exact fun state hmem => absurd hmem List.not_mem_nil
  | cons state states ih =>
      rw [decodeErrors] at h
      cases hm : state.matchSpec.isEmpty with
      | false =>
          rw [if_pos ⟨rfl, hm⟩] at h
          exact absurd h (by simp only [reduceCtorEq, not_false_eq_true])
      | true =>
          rw [hm, if_neg (by simp only [Bool.true_eq_false, and_false, not_false_eq_true]),
            if_neg (by simp only [reduceCtorEq, false_and, not_false_eq_true])] at h
          rcases except_bind_eq_ok.mp h with ⟨rest, hrest, hnil⟩
          rw [Except.ok.injEq, List.append_eq_nil_iff, List.map_eq_nil_iff] at hnil
          rw [List.forall_mem_cons]
          exact ⟨⟨hm, hnil.1⟩, ih (by rw [hrest, hnil.2])⟩

end SchemaRegistry

/-- The state was read in query mode, by whatever registry. -/
def IsQueryOutput (parse : String → Except String YamlValue) (state : State) : Prop :=
  ∃ (decoder : SchemaRegistry) (input : String) (states : List State),
    decoder.decodeYaml parse input .query = .ok states ∧ state ∈ states

/-- A state read in query mode is a candidate without selector, given the
    selector its fields describe. -/
theorem IsQueryOutput.exists_candidate {parse : String → Except String YamlValue} {state : State}
    (h : IsQueryOutput parse state) :
    ∃ candidate, state = deriveQueryMatch candidate ∧ candidate.matchSpec.isEmpty = true := by
  rcases h with ⟨decoder, input, states, h, hmem⟩
  rcases except_bind_eq_ok.mp h with ⟨candidates, _, h⟩
  rcases except_bind_eq_ok.mp h with ⟨errors, herrors, h⟩
  split at h
  · exact absurd h (by simp only [reduceCtorEq, not_false_eq_true])
  · next hnil =>
      rw [not_not] at hnil
      subst hnil
      obtain rfl := Except.ok.inj h
      rcases List.mem_map.mp hmem with ⟨candidate, hc, rfl⟩
      exact ⟨candidate, rfl, (decoder.decodeErrors_query herrors candidate hc).1⟩

end Netfyr
