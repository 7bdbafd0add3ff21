import Netfyr.Schema.Yaml
import Netfyr.State.IpText

/-!
# Writing YAML

States are written as a tree, which the YAML library prints. Printing is the
library's, and a parameter `print` here, which may fail with a message. The
source passes the schema along while it makes the tree and never looks at it, so
it is left out: an address becomes its text wherever it stands, and reading
makes an address of it again only where the schema says so.

A value is `Readable` along a schema when reading would make the same value of
its tree. Values that were read are.

## Main definitions

* `modelToValue`: The tree of a value.
* `SchemaRegistry.renderTree`: The tree of a list of states.
* `SchemaRegistry.toYamlPolicy`, `SchemaRegistry.toYamlQuery`: The two formats.
* `Readable`: Reading the tree of a value gives the value.

## Theorems

* `readable_of_valueToModel`: A value that was read is readable.
* `valueToModel_modelToValue`: A readable value is read back from its tree.
-/

namespace Netfyr

/-- The number of a signed integer. -/
def YamlNumber.ofInt64 (n : Int64) : YamlNumber :=
  -- A number that is not negative is written, and read again, as unsigned.
  if h : n < 0 then .negative n h else .unsigned n.toUInt64

/-- The text of a network. -/
def networkText (addr : IpAddr) (len : UInt8) : String :=
  addr.display ++ "/" ++ toString len.toNat

mutual
/-- The tree of a value. -/
def modelToValue : Value → YamlValue
  | .string text => .string text
  | .u64 n => .number (.unsigned n)
  | .i64 n => .number (.ofInt64 n)
  | .bool b => .bool b
  | .ipAddr addr => .string addr.display
  | .ipNetwork addr len => .string (networkText addr len)
  | .list items => .sequence (itemsToValue items)
  | .map entries => .mapping (entriesToValue entries)
termination_by structural value => value
/-- The trees of the elements of a list. -/
def itemsToValue : List Value → List YamlValue
  | [] => []
  | item :: items => modelToValue item :: itemsToValue items
termination_by structural items => items
/-- The trees of the entries of a map, whose keys are distinct. -/
def entriesToValue : List (String × Value) → List (YamlValue × YamlValue)
  | [] => []
  | (key, value) :: entries => (.string key, modelToValue value) :: entriesToValue entries
termination_by structural entries => entries
end

/-- The keys of a device mapping that are no fields. -/
def isReserved (key : String) : Bool := key == "match" || key == "type" || key == "kind"

/-- The entries of a `match:` section: the fields that are set, in fixed order. -/
def matchEntries (spec : Match) : List (YamlValue × YamlValue) :=
  [("name", spec.name), ("type", spec.type), ("driver", spec.driver),
    ("pci_path", spec.pciPath), ("mac", spec.mac)].filterMap fun (key, value) =>
      value.map fun text => (.string key, .string text)

namespace SchemaRegistry

/-- Whether the device type of a state is left out: it is empty, or a technology
    object of the policy format implies it. -/
def omitsType (self : SchemaRegistry) (includeMatch : Bool) (state : State) : Bool :=
  state.deviceType == "" ||
    (includeMatch && self.impliedDeviceType state.fields == some state.deviceType)

/-- The device mapping of a state. The keys that come first are refused as
    fields, so no entry replaces another. -/
def stateToMapping (self : SchemaRegistry) (includeMatch : Bool) (stateIndex : Nat)
    (state : State) : Except Error YamlValue :=
  match state.fields.keys.find? isReserved with
  | some key => .error (.reservedFieldKey key stateIndex)
  | none =>
      .ok (.mapping (
        (if includeMatch then [(.string "match", .mapping (matchEntries state.matchSpec))] else []) ++
        (if self.omitsType includeMatch state then []
          else [(.string "type", .string state.deviceType)]) ++
        entriesToValue state.fields.entries))

/-- The device mappings of states, the first being number `stateIndex`. -/
def statesToMappings (self : SchemaRegistry) (includeMatch : Bool) :
    List State → Nat → Except Error (List YamlValue)
  | [], _ => .ok []
  | state :: states, stateIndex => do
      let mapping ← self.stateToMapping includeMatch stateIndex state
      let mappings ← self.statesToMappings includeMatch states (stateIndex + 1)
      .ok (mapping :: mappings)

/-- The tree of a document: one state is a mapping, any other number a sequence. -/
def renderTree (self : SchemaRegistry) (includeMatch : Bool) : List State → Except Error YamlValue
  | [state] => self.stateToMapping includeMatch 0 state
  | states => do
      let mappings ← self.statesToMappings includeMatch states 0
      .ok (.sequence mappings)

/-- Write states. -/
def render (print : YamlValue → Except String String) (self : SchemaRegistry)
    (includeMatch : Bool) (states : List State) : Except Error String := do
  let doc ← self.renderTree includeMatch states
  (print doc).mapError Error.yaml

/-- Write states as policies. -/
def toYamlPolicy (print : YamlValue → Except String String) (self : SchemaRegistry)
    (states : List State) : Except Error String :=
  self.render print true states

/-- Write states as query output. -/
def toYamlQuery (print : YamlValue → Except String String) (self : SchemaRegistry)
    (states : List State) : Except Error String :=
  self.render print false states

end SchemaRegistry

/-- The value that reading makes of text. -/
def decodeText (schema : Option TypedNode) (text : String) : Value :=
  match schema with
  | some node => decodeString node text
  | none => .string text

theorem valueToModel_string (text : String) (schema : Option TypedNode) :
    valueToModel (.string text) schema = .ok (decodeText schema text) := by
  cases schema with
  | none => rfl
  | some node => rfl

/-- Text is read as it stands, or as a network whose text is read alike. -/
theorem decodeText_cases (schema : Option TypedNode) (text : String) :
    decodeText schema text = .string text ∨ ∃ addr len,
      decodeText schema text = .ipNetwork addr len ∧
        decodeText schema (networkText addr len) = .ipNetwork addr len := by
  cases schema with
  | none => exact Or.inl rfl
  | some node =>
      unfold decodeText decodeString
      dsimp only
      split
      · split
        · next addr len hparse =>
            refine Or.inr ⟨addr, len, rfl, ?_⟩
            rw [networkText, parseIpNetwork_display hparse]
        · exact Or.inl rfl
      · exact Or.inl rfl

mutual
/-- Reading the tree of a value along a schema gives the value. -/
def Readable : Value → Option TypedNode → Prop
  | .string text, schema => decodeText schema text = .string text
  | .u64 _, _ => True
  | .i64 n, _ => n < 0
  | .bool _, _ => True
  | .ipAddr _, _ => False
  | .ipNetwork addr len, schema => decodeText schema (networkText addr len) = .ipNetwork addr len
  | .list items, schema => ReadableItems items (schema.bind TypedNode.items)
  | .map entries, schema => ReadableEntries entries schema
termination_by structural value => value
/-- The same for the elements of a list. -/
def ReadableItems : List Value → Option TypedNode → Prop
  | [], _ => True
  | item :: items, schema => Readable item schema ∧ ReadableItems items schema
termination_by structural items => items
/-- The same for the entries of a map, each along the property of its key. -/
def ReadableEntries : List (String × Value) → Option TypedNode → Prop
  | [], _ => True
  | (key, value) :: entries, schema =>
      Readable value (schema.bind (·.property key)) ∧ ReadableEntries entries schema
termination_by structural entries => entries
end

theorem readableEntries_iff {entries : List (String × Value)} {schema : Option TypedNode} :
    ReadableEntries entries schema ↔
      ∀ entry ∈ entries, Readable entry.2 (schema.bind (·.property entry.1)) := by
  induction entries with
  | nil => simp only [ReadableEntries, List.not_mem_nil, false_imp_iff, implies_true]
  | cons entry entries ih => rw [ReadableEntries, ih, List.forall_mem_cons]

theorem readableEntries_insert {entries : List (String × Value)} {schema : Option TypedNode}
    {key : String} {value : Value} (h : ReadableEntries entries schema)
    (hvalue : Readable value (schema.bind (·.property key))) :
    ReadableEntries (Assoc.insert entries key value) schema := by
  rw [readableEntries_iff] at h ⊢
  intro entry hmem
  rcases Assoc.mem_insert hmem with rfl | hold
  · exact hvalue
  · exact h entry hold

mutual
/-- A value that was read is readable. -/
theorem readable_of_valueToModel : (yaml : YamlValue) → (schema : Option TypedNode) →
    {value : Value} → valueToModel yaml schema = .ok value → Readable value schema
  | .bool _, _, _, h | .number (.unsigned _), _, _, h => by
      obtain rfl := Except.ok.inj h
      trivial
  | .number (.negative n hn), _, _, h => by
      obtain rfl := Except.ok.inj h
      exact hn
  | .null, _, _, h | .number (.float _), _, _, h | .tagged _ _, _, _, h =>
      absurd h (by simp only [valueToModel, reduceCtorEq, not_false_eq_true])
  | .string text, schema, _, h => by
      rw [valueToModel_string] at h
      obtain rfl := Except.ok.inj h
      -- A network may be written in another way than it was read, but the text
      -- written is read alike.
      rcases decodeText_cases schema text with htext | ⟨addr, len, htext, hagain⟩
      · rw [htext]
        exact htext
      · rw [htext]
        exact hagain
  | .sequence items, schema, _, h => by
      rw [valueToModel, except_bind_eq_ok] at h
      rcases h with ⟨out, hout, hval⟩
      obtain rfl := Except.ok.inj hval
      exact readable_of_itemsToModel items (schema.bind TypedNode.items) hout
  | .mapping entries, schema, _, h => by
      rw [valueToModel, except_bind_eq_ok] at h
      rcases h with ⟨out, hout, hval⟩
      obtain rfl := Except.ok.inj hval
      have hempty : ReadableEntries [] schema := trivial
      exact readable_of_entriesToModel entries schema hempty hout
termination_by structural yaml => yaml
/-- The same for the items of a sequence. -/
theorem readable_of_itemsToModel : (items : List YamlValue) → (schema : Option TypedNode) →
    {values : List Value} → itemsToModel items schema = .ok values → ReadableItems values schema
  | [], _, _, h => by
      obtain rfl := Except.ok.inj h
      trivial
  | item :: items, schema, _, h => by
      rcases itemsToModel_cons_ok.mp h with ⟨value, values, hvalue, hvalues, rfl⟩
      exact ⟨readable_of_valueToModel item schema hvalue,
        readable_of_itemsToModel items schema hvalues⟩
termination_by structural items => items
/-- The same for the entries of a mapping. -/
theorem readable_of_entriesToModel : (entries : List (YamlValue × YamlValue)) →
    (schema : Option TypedNode) → {out result : List (String × Value)} →
    ReadableEntries out schema → entriesToModel entries schema out = .ok result →
    ReadableEntries result schema
  | [], _, _, _, hout, h => by
      obtain rfl := Except.ok.inj h
      exact hout
  | (k, item) :: entries, schema, _, _, hout, h => by
      rcases entriesToModel_cons_ok.mp h with ⟨key, value, _, hvalue, h⟩
      have hreadable := readable_of_valueToModel item (schema.bind (·.property key)) hvalue
      exact readable_of_entriesToModel entries schema (readableEntries_insert hout hreadable) h
termination_by structural entries => entries
end

mutual
/-- A readable value is read back from its tree. -/
theorem valueToModel_modelToValue : (value : Value) → (schema : Option TypedNode) →
    value.WellKeyed → Readable value schema → valueToModel (modelToValue value) schema = .ok value
  | .string text, schema, _, h => by
      rw [modelToValue, valueToModel_string, h]
  | .u64 _, _, _, _ | .bool _, _, _, _ => rfl
  | .i64 n, _, _, h => by
      have hn : n < 0 := h
      rw [modelToValue, YamlNumber.ofInt64, dif_pos hn, valueToModel]
  | .ipAddr _, _, _, h => h.elim
  | .ipNetwork addr len, schema, _, h => by
      rw [modelToValue, valueToModel_string, h]
  | .list items, schema, hkeyed, h => by
      have hitems := itemsToModel_itemsToValue items (schema.bind TypedNode.items) hkeyed h
      rw [modelToValue, valueToModel, hitems]
      rfl
  | .map entries, schema, hkeyed, h => by
      have hentries := entriesToModel_entriesToValue entries schema [] hkeyed.1 hkeyed.2 h
      rw [modelToValue, valueToModel, hentries]
      rfl
termination_by structural value => value
/-- The same for the elements of a list. -/
theorem itemsToModel_itemsToValue : (items : List Value) → (schema : Option TypedNode) →
    Value.WellKeyedList items → ReadableItems items schema →
    itemsToModel (itemsToValue items) schema = .ok items
  | [], _, _, _ => rfl
  | item :: items, schema, hkeyed, h => by
      rw [itemsToValue, itemsToModel, valueToModel_modelToValue item schema hkeyed.1 h.1,
        itemsToModel_itemsToValue items schema hkeyed.2 h.2]
      rfl
termination_by structural items => items
/-- The same for the entries of a map: read in order, each goes to the end. -/
theorem entriesToModel_entriesToValue : (entries : List (String × Value)) →
    (schema : Option TypedNode) → (out : List (String × Value)) →
    (Assoc.keys (out ++ entries)).Nodup → Value.WellKeyedEntries entries →
    ReadableEntries entries schema →
    entriesToModel (entriesToValue entries) schema out = .ok (out ++ entries)
  | [], _, out, _, _, _ => by
      rw [entriesToValue, entriesToModel, List.append_nil]
  | (key, value) :: entries, schema, out, hnodup, hkeyed, h => by
      -- Distinct keys: the entry is appended, where it stands in the map.
      have hnew : key ∉ Assoc.keys out := by
        rw [Assoc.keys, List.map_append, List.nodup_append] at hnodup
        intro hmem
        exact hnodup.2.2 key hmem key List.mem_cons_self rfl
      have happend : out ++ (key, value) :: entries = (out ++ [(key, value)]) ++ entries := by
        rw [List.append_assoc, List.singleton_append]
      have hvalue := valueToModel_modelToValue value (schema.bind (·.property key)) hkeyed.1 h.1
      have hkey : keyToString (.string key) = .ok key := rfl
      rw [happend] at hnodup ⊢
      have hrest := entriesToModel_entriesToValue entries schema _ hnodup hkeyed.2 h.2
      rw [entriesToValue, entriesToModel, hkey]
      simp only [hvalue, Assoc.insert_of_not_mem hnew, bind, Except.bind]
      exact hrest
termination_by structural entries => entries
end

end Netfyr
