import Netfyr.Schema.Prune
import Netfyr.Schema.Yaml

/-!
# What the Source Takes for Granted

The registry and its walks as the source has them: nodes may lack a type, a
registry may lack a base, the flat map is stored beside the tree. Where the
source expects something that it does not check, a function here is absent.

The rest of the development works with nodes that have types and registries that
have a base, and its functions are total. These here are the ones they stand for.

## Main definitions

* `Raw.Registry`: A registry as the source stores it.
* `Raw.Registry.addSchemaNode`: Extension, with the derived flat map.
* `Raw.decodeString`, `Raw.valueToModel`: Reading YAML.
* `Raw.walkNode`, `Raw.Registry.validateInner`: Validation.
* `Raw.Registry.removeReadOnlyFields`: Pruning.
* `Raw.Registry.Reachable`: Registries built by successful extensions.
-/

namespace Netfyr

namespace Raw

/-- One schema fragment: the tree, and the flat map derived of it. -/
structure Fragment where
  name : String
  triggerKey : Option String
  root : SchemaNode
  fields : List (String × FieldInfo)

/-- A list of fragments. -/
structure Registry where
  fragments : List Fragment

/-- The flat map of a tree, in key order. -/
def deriveSorted (root : SchemaNode) : Option (List (String × FieldInfo)) :=
  (deriveFields root "" []).map fun fields => fields.insertionSort fun a b => a.1 ≤ b.1

/-- Derive the flat map of an embedded fragment, which has to be valid. -/
def parseFragment (name : String) (root : SchemaNode) (triggerKey : Option String) :
    Option Fragment :=
  match validateSchemaNode root with
  | .error _ => none
  | .ok () => do
      -- Absent when a node below has no type.
      let fields ← deriveSorted root
      some { name, triggerKey, root, fields }

namespace Registry

/-- The embedded fragments, in the order `base`, `ipv4`, `ethernet`. -/
def new : Option Registry := do
  -- Absent when an embedded schema is not valid.
  let base ← parseFragment "base" baseJson none
  let ipv4 ← parseFragment "ipv4" ipv4Json (some "ipv4")
  let ethernet ← parseFragment "ethernet" ethernetJson (some "ethernet")
  some { fragments := [base, ipv4, ethernet] }

end Registry

/-- Extend the first fragment of a name, and derive its flat map anew. -/
def updateFragment (fragment path : String) (node : SchemaNode) (name : String)
    (parents : List String) : List Fragment → Option (Except String Unit × List Fragment)
  | [] => some (.error s!"unknown schema fragment '{fragment}'", [])
  | candidate :: fragments =>
      if candidate.name = fragment then
        -- The tree is written even when the insertion fails, the flat map only when it succeeds.
        let (result, root) := insertNode path node name parents candidate.root
        match result with
        | .error err => some (.error err, { candidate with root } :: fragments)
        | .ok () => do
            let fields ← deriveSorted root
            some (.ok (), { candidate with root, fields } :: fragments)
      else do
        let (result, fragments) ← updateFragment fragment path node name parents fragments
        some (result, candidate :: fragments)

/-- Add a schema node, read from its text, below a fragment's root. -/
def Registry.addSchemaNode (parse : String → Except String SchemaNode) (self : Registry)
    (fragment path json : String) : Option (Except String Unit × Registry) :=
  match parse json with
  | .error err => some (.error s!"schema node at '{path}' is malformed: {err}", self)
  | .ok node =>
      match validateSchemaNode node with
      | .error err => some (.error s!"schema node at '{path}' is malformed: {err}", self)
      | .ok () =>
          let parts := splitPath path
          if parts = [] ∨ "" ∈ parts then
            some (.error "schema node path must not be empty or contain empty components", self)
          else
            let targetIsBase := match self.fragments.find? fun f => f.name == fragment with
              | some f => f.triggerKey.isNone
              | none => false
            let top := parts.headD ""
            if targetIsBase && self.fragments.any fun f => f.triggerKey == some top then
              some (.error s!"base property '{top}' collides with a fragment trigger key", self)
            else do
              -- The source expects a component, having checked that there is one.
              let name ← parts.getLast?
              let (result, fragments) ←
                updateFragment fragment path node name parts.dropLast self.fragments
              some (result, { fragments })

/-- The registries built from the embedded one by successful extensions. -/
inductive Registry.Reachable (parse : String → Except String SchemaNode) : Registry → Prop where
  | new {registry : Registry} : Registry.new = some registry → Reachable parse registry
  | extend {registry extended : Registry} {fragment path json : String} :
      Reachable parse registry →
      registry.addSchemaNode parse fragment path json = some (.ok (), extended) →
      Reachable parse extended

section Decoding

/-- The type of a node, which registration has checked. -/
def expectType (node : SchemaNode) : Option FieldType := (semanticType node).toOption

/-- The value a node makes of text. -/
def decodeString (node : SchemaNode) (text : String) : Option Value := do
  -- Absent when the node has no type, which registration has excluded.
  match ← expectType node with
  | .ipNetwork =>
      match parseIpNetwork text with
      | some (addr, len) => some (.ipNetwork addr len)
      | none => some (.string text)
  | _ => some (.string text)

/-- A computation that may fail, and is absent where the source panics. -/
abbrev Decoding (α : Type) := ExceptT Error Option α

/-- A value that the source takes for granted. -/
def expect {α : Type} : Option α → Decoding α
  | some a => pure a
  | none => ExceptT.mk none

mutual
/-- Convert a tree along the node that governs its path, if any. -/
def valueToModel : YamlValue → Option SchemaNode → Decoding Value
  | .null, _ => throw (.unsupportedScalar "null")
  | .bool b, _ => pure (.bool b)
  | .number (.unsigned n), _ => pure (.u64 n)
  | .number (.negative n _), _ => pure (.i64 n)
  | .number (.float _), _ => throw (.unsupportedScalar "float")
  | .string text, some node => expect (decodeString node text)
  | .string text, none => pure (.string text)
  | .sequence items, schema => do
      let out ← itemsToModel items (schema.bind SchemaNode.items)
      pure (.list out)
  | .mapping entries, schema => do
      let out ← entriesToModel entries schema []
      pure (.map out)
  | .tagged _ _, _ => throw (.yaml "tagged YAML values are not supported")
termination_by structural value => value
/-- Convert the items of a sequence. -/
def itemsToModel : List YamlValue → Option SchemaNode → Decoding (List Value)
  | [], _ => pure []
  | item :: items, schema => do
      let value ← valueToModel item schema
      let values ← itemsToModel items schema
      pure (value :: values)
termination_by structural items => items
/-- Convert the entries of a mapping, adding them to `out`. -/
def entriesToModel : List (YamlValue × YamlValue) → Option SchemaNode → List (String × Value) →
    Decoding (List (String × Value))
  | [], _, out => pure out
  | (k, item) :: entries, schema, out => do
      let key ← keyToString k
      let value ← valueToModel item (schema.bind (·.properties.lookup key))
      entriesToModel entries schema (Assoc.insert out key value)
termination_by structural entries => entries
end

/-- What has been read of a device mapping. -/
structure MappingParts where
  matchSpec : Match
  deviceType : String
  fields : List (String × Value)

namespace Registry

/-- The fragment without a trigger, which every registry has. -/
def base (self : Registry) : Option Fragment :=
  self.fragments.find? fun f => f.triggerKey.isNone

/-- The fragment a top-level key triggers. -/
def triggered (self : Registry) (key : String) : Option Fragment :=
  self.fragments.find? fun f => f.triggerKey == some key

/-- The schema of a top-level property: a base property or a triggered root. -/
def topLevelSchema (self : Registry) (key : String) : Option (Option SchemaNode) := do
  -- The source expects a fragment without a trigger.
  let base ← self.base
  some ((base.root.properties.lookup key).or ((self.triggered key).map Fragment.root))

/-- Read one entry of a device mapping: a reserved key, or a field. -/
def readEntry (self : Registry) (parts : MappingParts) (entry : YamlValue × YamlValue) :
    Decoding MappingParts := do
  let key ← keyToString entry.1
  if key = "match" then
    let matchSpec ← parseMatch entry.2
    pure { parts with matchSpec }
  else if key = "kind" then
    parseKind entry.2
    pure parts
  else if key = "type" then
    match entry.2.asStr with
    | none => throw (.unsupportedScalar entry.2.shape)
    | some deviceType => pure { parts with deviceType }
  else
    -- A field is read along its schema, if there is one.
    let schema ← expect (self.topLevelSchema key)
    let value ← valueToModel entry.2 schema
    pure { parts with fields := Assoc.insert parts.fields key value }

/-- The device type implied by a fragment whose trigger is among the keys. -/
def impliedDeviceType (self : Registry) (fields : List (String × Value)) : Option String :=
  (self.fragments.filter fun f =>
    f.triggerKey.any fun key => (fields.lookup key).isSome).findSome?
      fun f => f.root.impliedDeviceType

/-- Read a device mapping; a technology object implies the device type. -/
def mappingToParts (self : Registry) (entries : List (YamlValue × YamlValue)) :
    Decoding MappingParts := do
  let parts ← entries.foldlM self.readEntry { matchSpec := {}, deviceType := "", fields := [] }
  let deviceType :=
    if parts.deviceType = "" then (self.impliedDeviceType parts.fields).getD ""
    else parts.deviceType
  pure { parts with deviceType }

/-- Read the elements of a top-level sequence, numbered from `index`. -/
def sequenceToParts (self : Registry) : List YamlValue → Nat → Decoding (List MappingParts)
  | [], _ => pure []
  | entry :: entries, index => do
      let parts ← match entry with
        | .mapping m => self.mappingToParts m
        | other => throw (.invalidTopLevel s!"list element {index} is {other.shape}, not a mapping")
      let rest ← self.sequenceToParts entries (index + 1)
      pure (parts :: rest)

/-- Read a tree: one device, or a sequence of them. -/
def treeToParts (self : Registry) : YamlValue → Decoding (List MappingParts)
  | .mapping m => do
      let parts ← self.mappingToParts m
      pure [parts]
  | .sequence entries => self.sequenceToParts entries 0
  | other => throw (.invalidTopLevel other.shape)

end Registry

end Decoding

section Validation

/-- The range violations of an integer. -/
def rangeErrors (node : SchemaNode) (actual : Int) (path fragment : String) :
    List ValidationError :=
  let error := .outOfRange fragment path node.minimum node.maximum
  (if node.minimum.any fun min => actual < min.toInt then [error] else []) ++
    (if node.maximum.any fun max => max.toInt < actual then [error] else [])

/-- The violation of a string that is not among the allowed ones. -/
def enumErrors (node : SchemaNode) (text path fragment : String) : List ValidationError :=
  match node.enum with
  | some allowed =>
      if allowed.contains text then [] else [.enumViolation fragment path allowed]
  | none => []

/-- The required keys of an object that it lacks, in the schema's order. -/
def missingErrors (node : SchemaNode) (keys : List String) (path : String)
    (ignoreKeys : List String) (fragment : String) : List ValidationError :=
  (node.required.filter fun key => !keys.contains key && !ignoreKeys.contains key).map
    fun key => .missingField fragment (joinPath path key)

/-- The violation of setting a read-only property. -/
def readOnlyErrors (node : SchemaNode) (path fragment : String) (writableOnly : Bool) :
    List ValidationError :=
  if writableOnly && !node.writable then [.readOnlyField fragment path] else []

/-- Whether a value of type `found` satisfies a field of type `expected`; a
    CIDR field also takes text. -/
def typeAccepts (node : SchemaNode) (expected found : FieldType) : Bool :=
  expected == found ||
    (node.format == some .ipv4Cidr && expected == .ipNetwork && found == .string)

/-- The value of an integer, once the type test has accepted it as one. -/
def integerValue : Value → Option Int
  | .u64 n => some n.toNat
  | .i64 n => some n.toInt
  | _ => none

/-- Whether a value that the type test accepted is an IPv4 network. -/
def isIpv4Network : Value → Option Bool
  | .ipNetwork addr len => some (addr.isIpv4 && len ≤ 32)
  | .string text => some (isIpv4Cidr text)
  | _ => none

mutual
/-- Validate one value against its node: the type first, then what the type
    asks for, then the parts. -/
def walkNode (fragment : String) (writableOnly : Bool) (node : SchemaNode) :
    Value → String → Option (List ValidationError)
  | value, path =>
      match expectType node with
      -- The source expects a node to have a type.
      | none => none
      | some expected =>
          if typeAccepts node expected (valueType value) = false then
            some [.wrongType fragment path expected (valueType value)]
          else
            match expected with
            -- Unreachable in the source for other values, as the type test has passed.
            | .integer => (integerValue value).map fun n => rangeErrors node n path fragment
            | .string =>
                match value with
                | .string text => some (enumErrors node text path fragment)
                | _ => some []
            -- The same, for what is neither a network nor text.
            | .ipNetwork => (isIpv4Network value).map fun valid => formatErrors valid path fragment
            | .object =>
                match value with
                | .map entries =>
                    (walkEntries fragment writableOnly node entries path []).map fun errors =>
                      errors ++ missingErrors node (Assoc.keys entries) path [] fragment
                | _ => some []
            | .array =>
                match value with
                | .list items =>
                    match node.items with
                    | some itemSchema => walkItems fragment writableOnly itemSchema items path 0
                    | none => some []
                | _ => some []
            | .boolean | .ipAddress => some []
termination_by structural value => value
/-- Validate the entries of an object, skipping the keys to be ignored. -/
def walkEntries (fragment : String) (writableOnly : Bool) (node : SchemaNode) :
    List (String × Value) → String → List String → Option (List ValidationError)
  | [], _, _ => some []
  | (key, value) :: entries, path, ignoreKeys =>
      (if ignoreKeys.contains key then some []
       else match node.properties.lookup key with
        | some prop =>
            (walkNode fragment writableOnly prop value (joinPath path key)).map fun errors =>
              readOnlyErrors prop (joinPath path key) fragment writableOnly ++ errors
        | none =>
            if node.additionalProperties.getD false then some []
            else some [.unknownField fragment (joinPath path key)]).bind fun errors =>
        (walkEntries fragment writableOnly node entries path ignoreKeys).map fun rest =>
          errors ++ rest
termination_by structural entries => entries
/-- Validate the elements of an array, from number `index` on. -/
def walkItems (fragment : String) (writableOnly : Bool) (node : SchemaNode) :
    List Value → String → Nat → Option (List ValidationError)
  | [], _, _ => some []
  | item :: items, path, index =>
      (walkNode fragment writableOnly node item s!"{path}[{index}]").bind fun errors =>
        (walkItems fragment writableOnly node items path (index + 1)).map fun rest =>
          errors ++ rest
termination_by structural items => items
end

/-- Validate a property, wherever its value comes from. -/
def walkProperty (fragment : String) (writableOnly : Bool) (node : SchemaNode) (value : Value)
    (path : String) : Option (List ValidationError) :=
  (walkNode fragment writableOnly node value path).map fun errors =>
    readOnlyErrors node path fragment writableOnly ++ errors

/-- Validate one object: its entries, then the required keys it lacks. -/
def walkMap (fragment : String) (writableOnly : Bool) (node : SchemaNode)
    (entries : List (String × Value)) (path : String) (ignoreKeys : List String) :
    Option (List ValidationError) :=
  (walkEntries fragment writableOnly node entries path ignoreKeys).map fun errors =>
    errors ++ missingErrors node (Assoc.keys entries) path ignoreKeys fragment

namespace Registry

/-- The violations one fragment finds in a state. -/
def fragmentErrors (self : Registry) (state : State) (writableOnly : Bool) (fragment : Fragment) :
    Option (List ValidationError) :=
  match fragment.triggerKey with
  | none => do
      let errors ← walkMap fragment.name writableOnly fragment.root state.fields.entries ""
        (self.fragments.filterMap Fragment.triggerKey)
      if state.deviceType = "" then some errors
      else
        -- The source expects the base schema to have this property.
        let typeNode ← fragment.root.properties.lookup "type"
        let typeErrors ← walkProperty fragment.name false typeNode (.string state.deviceType) "type"
        some (errors ++ typeErrors)
  | some key =>
      match state.fields.get? key with
      | some (.map inner) => walkMap fragment.name writableOnly fragment.root inner key []
      | some other => some [.wrongType fragment.name key .object (valueType other)]
      | none => some []

/-- Every violation of a state, fragment by fragment. -/
def validateInner (self : Registry) (state : State) (writableOnly : Bool) :
    Option (List ValidationError) :=
  (self.fragments.mapM (self.fragmentErrors state writableOnly)).map List.flatten

/-- Validate a state, accepting read-only fields. -/
def validate (self : Registry) (state : State) : Option (List ValidationError) :=
  self.validateInner state false

/-- Validate a state as policy input, rejecting read-only fields. -/
def validateWritable (self : Registry) (state : State) : Option (List ValidationError) :=
  self.validateInner state true

end Registry

end Validation

section Pruning

mutual
/-- Prune one property: what is left of its value, and the paths removed. -/
def pruneProperty (node : SchemaNode) : Value → String → Option Value × List String
  | value, path =>
      if node.writable = false then (none, [path])
      else
        match value with
        | .map entries =>
            let pruned := pruneEntries node entries path
            (some (.map pruned.1), pruned.2)
        | .list items =>
            match node.items with
            | some itemSchema =>
                let pruned := pruneItems itemSchema items path 0
                (some (.list pruned.1), pruned.2)
            | none => (some (.list items), [])
        | value => (some value, [])
termination_by structural value => value
/-- Prune the declared properties among the entries of an object. -/
def pruneEntries (node : SchemaNode) :
    List (String × Value) → String → List (String × Value) × List String
  | [], _ => ([], [])
  | (key, value) :: entries, path =>
      keepEntry key
        (match node.properties.lookup key with
        | some prop => pruneProperty prop value (joinPath path key)
        | none => (some value, []))
        (pruneEntries node entries path)
termination_by structural entries => entries
/-- Prune the elements of an array that are objects. -/
def pruneItems (node : SchemaNode) : List Value → String → Nat → List Value × List String
  | [], _, _ => ([], [])
  | item :: items, path, index =>
      let pruned : Value × List String := match item with
        | .map entries =>
            let pruned := pruneEntries node entries s!"{path}[{index}]"
            (.map pruned.1, pruned.2)
        | item => (item, [])
      let rest := pruneItems node items path (index + 1)
      (pruned.1 :: rest.1, pruned.2 ++ rest.2)
termination_by structural items => items
end

namespace Registry

/-- Prune one top-level entry: a triggered object by its fragment, dropped when
    nothing is left of it, and any other by the base schema. -/
def pruneField (self : Registry) (base : Fragment) (key : String) (value : Value) :
    Option Value × List String :=
  match self.triggered key with
  | some fragment =>
      match value with
      | .map entries =>
          let pruned := pruneEntries fragment.root entries key
          (if pruned.1 = [] then none else some (.map pruned.1), pruned.2)
      | value => (some value, [])
  | none =>
      match base.root.properties.lookup key with
      | some node => pruneProperty node value (joinPath "" key)
      | none => (some value, [])

/-- Prune the top-level entries. -/
def pruneFields (self : Registry) (base : Fragment) :
    List (String × Value) → List (String × Value) × List String
  | [] => ([], [])
  | (key, value) :: entries =>
      keepEntry key (self.pruneField base key value) (self.pruneFields base entries)

/-- Remove the declared read-only fields of a state, with their paths. -/
def removeReadOnlyFields (self : Registry) (state : State) :
    Option (List (String × Value) × List String) := do
  -- Expected here as well.
  let base ← self.base
  some (self.pruneFields base state.fields.entries)

end Registry

end Pruning

end Raw

end Netfyr
