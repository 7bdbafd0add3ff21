import Netfyr.Data.Checked
import Netfyr.State.State

/-!
# Schema Nodes

The parsed schema dialect: a tree of nodes, objects carrying `properties` and
arrays carrying `items`. A node read from text may lack a type or declare a
format its type does not allow, so its type as the model sees it is fallible.
`validateSchemaNode` is the check made before a node enters a registry, and a
`TypedNode` is a node that passed it. The walks over values take typed nodes:
their children are typed again, so the type of every node a walk meets exists.

An absent property table and an empty one are the same here, since nothing in
the source tells them apart.

## Main definitions

* `SchemaNode`: A node of the dialect.
* `semanticType`: The type of a node, with its format.
* `validateSchemaNode`: The check made at registration.
* `TypedNode`: A node that passed it, with its children.
* `deriveFields`: The flat table of a node's fields.
* `ValidationError`: A violation, with the path where it was found.

## Theorems

* `semanticType_of_valid`: A node that passed the check has a type.
* `deriveFields_isSome`: The fields of a checked node can be derived.
-/

namespace Netfyr

/-- The types of the dialect, as the walks see them. -/
inductive FieldType where
  | string
  | boolean
  | integer
  | object
  | array
  | ipAddress
  | ipNetwork
  deriving DecidableEq

/-- The text of a type. -/
def FieldType.display : FieldType → String
  | .string => "string"
  | .boolean => "boolean"
  | .integer => "integer"
  | .object => "object"
  | .array => "array"
  | .ipAddress => "ip"
  | .ipNetwork => "ip-network"

/-- The formats of the dialect. -/
inductive SchemaFormat where
  | ipv4Cidr
  deriving DecidableEq

/-- Whether a policy may set a field, and its type. -/
structure FieldInfo where
  writable : Bool
  type : FieldType
  deriving DecidableEq

/-- One node of the parsed dialect; absent keywords have the source's defaults. -/
structure SchemaNode where
  type : Option FieldType := none
  format : Option SchemaFormat := none
  writable : Bool := false
  minimum : Option Int64 := none
  maximum : Option Int64 := none
  enum : Option (List String) := none
  properties : List (String × SchemaNode) := []
  required : List String := []
  items : Option SchemaNode := none
  additionalProperties : Option Bool := none
  impliedDeviceType : Option String := none

/-- A violation found while validating a state. -/
inductive ValidationError where
  | unknownField (fragment path : String)
  | readOnlyField (fragment path : String)
  | outOfRange (fragment path : String) (min max : Option Int64)
  | wrongType (fragment path : String) (expected found : FieldType)
  | missingField (fragment path : String)
  | enumViolation (fragment path : String) (allowed : List String)
  | invalidFormat (fragment path : String) (expected : String)
  deriving DecidableEq

namespace ValidationError

/-- How an allowed range is described. -/
def displayRange : Option Int64 → Option Int64 → String
  | some low, some high => s!"between {low.toInt} and {high.toInt}"
  | some low, none => s!"at least {low.toInt}"
  | none, some high => s!"at most {high.toInt}"
  | none, none => "the allowed range"

/-- The text of a violation. -/
def display : ValidationError → String
  | .unknownField fragment path => s!"unknown field '{path}' in the '{fragment}' fragment"
  | .readOnlyField fragment path =>
      s!"field '{path}' is read-only and cannot be set ('{fragment}' fragment)"
  | .outOfRange fragment path min max =>
      s!"value of '{path}' is out of range: expected " ++ displayRange min max ++
        s!" ('{fragment}' fragment)"
  | .wrongType fragment path expected found =>
      s!"field '{path}' has the wrong type: expected " ++ expected.display ++ ", found " ++
        found.display ++ s!" ('{fragment}' fragment)"
  | .missingField fragment path => s!"field '{path}' is required ('{fragment}' fragment)"
  | .enumViolation fragment path allowed =>
      s!"field '{path}' must be one of: " ++ ", ".intercalate allowed ++
        s!" ('{fragment}' fragment)"
  | .invalidFormat fragment path expected =>
      s!"field '{path}' must use {expected} format ('{fragment}' fragment)"

/-- Whether a violation is the setting of a read-only field. -/
def isReadOnly : ValidationError → Bool
  | .readOnlyField _ _ => true
  | _ => false

end ValidationError

/-- Join a path and a key with a dot; an empty path yields just the key. -/
def joinPath (path key : String) : String :=
  if path = "" then key else path ++ "." ++ key

/-- A node's type as the model sees it: a format may refine `string`. -/
def semanticType (node : SchemaNode) : Except String FieldType :=
  match node.type, node.format with
  | some .string, some .ipv4Cidr => .ok .ipNetwork
  | some _, some .ipv4Cidr => .error "ipv4-cidr schema format requires type string"
  | some fieldType, none => .ok fieldType
  | none, _ => .error "schema node without a 'type' keyword"

mutual
/-- Check the complete subtree of a node. -/
def validateSchemaNode : SchemaNode → Except String Unit
  | node@(.mk _ _ _ _ _ _ properties _ items _ _) => do
      let _ ← semanticType node
      validateProperties properties
      validateItems items
termination_by structural node => node
/-- Check the properties of an object node. -/
def validateProperties : List (String × SchemaNode) → Except String Unit
  | [] => .ok ()
  | (name, property) :: properties => do
      (validateSchemaNode property).mapError fun err => s!"property '{name}': {err}"
      validateProperties properties
termination_by structural properties => properties
/-- Check the element schema of an array node. -/
def validateItems : Option SchemaNode → Except String Unit
  | none => .ok ()
  | some items => (validateSchemaNode items).mapError fun err => s!"array items: {err}"
termination_by structural items => items
end

mutual
/-- Flatten a node's fields into `out`, keyed by dot path; the fields inside
    array elements continue from the array's path. Absent when a property has no
    type, where the source panics. -/
def deriveFields : SchemaNode → String → List (String × FieldInfo) →
    Option (List (String × FieldInfo))
  | .mk _ _ _ _ _ _ properties _ items _ _, path, out =>
      -- The source checks neither that only objects have properties nor that only
      -- arrays have items.
      (derivePropertyFields properties path out).bind (deriveItemFields items path)
termination_by structural node => node
/-- Flatten the properties of an object node. -/
def derivePropertyFields : List (String × SchemaNode) → String → List (String × FieldInfo) →
    Option (List (String × FieldInfo))
  | [], _, out => some out
  | (name, property) :: properties, path, out =>
      match semanticType property with
      | .error _ => none
      | .ok fieldType =>
          let info := { writable := property.writable, type := fieldType }
          (deriveFields property (joinPath path name)
            (Assoc.insert out (joinPath path name) info)).bind
              (derivePropertyFields properties path)
termination_by structural properties => properties
/-- Flatten the element schema of an array node. -/
def deriveItemFields : Option SchemaNode → String → List (String × FieldInfo) →
    Option (List (String × FieldInfo))
  | none, _, out => some out
  | some items, path, out => deriveFields items path out
termination_by structural items => items
end

/-- The object created for a missing component of an extension's path. -/
def writableObject : SchemaNode :=
  { type := some .object, writable := true, additionalProperties := some false }

/-- A node passes the check when it has a type and its children pass. -/
theorem validateSchemaNode_eq_ok {node : SchemaNode} : validateSchemaNode node = .ok () ↔
    (∃ t, semanticType node = .ok t) ∧ validateProperties node.properties = .ok () ∧
      validateItems node.items = .ok () := by
  cases node
  rw [validateSchemaNode, except_bind_eq_ok]
  simp only [except_bind_eq_ok]
  constructor
  · rintro ⟨t, ht, ⟨⟩, hp, hi⟩
    exact ⟨⟨t, ht⟩, hp, hi⟩
  · rintro ⟨⟨t, ht⟩, hp, hi⟩
    exact ⟨t, ht, (), hp, hi⟩

theorem validateProperties_eq_ok {properties : List (String × SchemaNode)} :
    validateProperties properties = .ok () ↔
      ∀ entry ∈ properties, validateSchemaNode entry.2 = .ok () := by
  induction properties with
  | nil => simp only [validateProperties, List.not_mem_nil, false_imp_iff, implies_true]
  | cons entry properties ih =>
      rw [validateProperties, except_bind_eq_ok, List.forall_mem_cons, ← ih]
      constructor
      · rintro ⟨⟨⟩, h, hrest⟩
        exact ⟨mapError_eq_ok.mp h, hrest⟩
      · rintro ⟨h, hrest⟩
        exact ⟨(), mapError_eq_ok.mpr h, hrest⟩

theorem validateItems_eq_ok {items : Option SchemaNode} : validateItems items = .ok () ↔
    ∀ node, items = some node → validateSchemaNode node = .ok () := by
  cases items with
  | none => simp only [validateItems, reduceCtorEq, false_imp_iff, implies_true]
  | some node =>
      rw [validateItems, mapError_eq_ok]
      constructor
      · intro h node' hnode
        rwa [← Option.some.inj hnode]
      · intro h
        exact h node rfl

/-- A node that passed the check has a type. -/
theorem semanticType_of_valid {node : SchemaNode} (h : validateSchemaNode node = .ok ()) :
    ∃ t, semanticType node = .ok t :=
  (validateSchemaNode_eq_ok.mp h).1

/-- A node of the dialect whose whole subtree has types. -/
structure TypedNode where
  node : SchemaNode
  valid : validateSchemaNode node = .ok ()

namespace TypedNode

/-- The type of a node. -/
def fieldType (self : TypedNode) : FieldType :=
  match h : semanticType self.node with
  | .ok t => t
  -- The source panics here; a node that passed the check does not get here.
  | .error e => absurd (semanticType_of_valid self.valid) fun ⟨t, ht⟩ => by
      rw [h] at ht
      exact absurd ht (by simp only [reduceCtorEq, not_false_eq_true])

theorem semanticType_node (self : TypedNode) : semanticType self.node = .ok self.fieldType := by
  rw [fieldType]
  split
  · assumption
  · next e h =>
      rcases semanticType_of_valid self.valid with ⟨t, ht⟩
      rw [h] at ht
      exact absurd ht (by simp only [reduceCtorEq, not_false_eq_true])

theorem valid_property (self : TypedNode) {key : String} {node : SchemaNode}
    (h : self.node.properties.lookup key = some node) : validateSchemaNode node = .ok () :=
  validateProperties_eq_ok.mp (validateSchemaNode_eq_ok.mp self.valid).2.1 (key, node)
    (Assoc.mem_of_lookup h)

theorem valid_items (self : TypedNode) {node : SchemaNode} (h : self.node.items = some node) :
    validateSchemaNode node = .ok () :=
  validateItems_eq_ok.mp (validateSchemaNode_eq_ok.mp self.valid).2.2 node h

/-- The declared property of an object node. -/
def property (self : TypedNode) (key : String) : Option TypedNode :=
  (self.node.properties.lookup key).pmap TypedNode.mk fun _ h => self.valid_property h

/-- The element schema of an array node. -/
def items (self : TypedNode) : Option TypedNode :=
  self.node.items.pmap TypedNode.mk fun _ h => self.valid_items h

@[simp] theorem property_map_node (self : TypedNode) (key : String) :
    (self.property key).map node = self.node.properties.lookup key := by
  rw [property, Option.map_pmap, Option.pmap_eq_map, Option.map_id']

@[simp] theorem items_map_node (self : TypedNode) : self.items.map node = self.node.items := by
  rw [items, Option.map_pmap, Option.pmap_eq_map, Option.map_id']

/-- The children of a node are those of its property table. -/
theorem property_congr {self other : TypedNode} {key : String}
    (h : self.node.properties.lookup key = other.node.properties.lookup key) :
    self.property key = other.property key := by
  simp only [property, h]

theorem property_eq_none {self : TypedNode} {key : String} :
    self.property key = none ↔ self.node.properties.lookup key = none := by
  rw [← property_map_node, Option.map_eq_none_iff]

end TypedNode

mutual
/-- The fields of a checked node can be derived. -/
theorem deriveFields_isSome : (node : SchemaNode) → (path : String) →
    (out : List (String × FieldInfo)) → validateSchemaNode node = .ok () →
    (deriveFields node path out).isSome = true
  | .mk _ _ _ _ _ _ properties _ items _ _, path, out, h => by
      rw [validateSchemaNode_eq_ok] at h
      rw [deriveFields]
      rcases Option.isSome_iff_exists.mp (derivePropertyFields_isSome properties path out h.2.1)
        with ⟨out', hout⟩
      rw [hout]
      exact deriveItemFields_isSome items path out' h.2.2
/-- The same for the properties of an object node. -/
theorem derivePropertyFields_isSome : (properties : List (String × SchemaNode)) →
    (path : String) → (out : List (String × FieldInfo)) →
    validateProperties properties = .ok () →
    (derivePropertyFields properties path out).isSome = true
  | [], _, _, _ => rfl
  | (name, property) :: properties, path, out, h => by
      rw [validateProperties_eq_ok, List.forall_mem_cons] at h
      rcases semanticType_of_valid h.1 with ⟨t, ht⟩
      rw [derivePropertyFields, ht]
      rcases Option.isSome_iff_exists.mp (deriveFields_isSome property (joinPath path name)
        (Assoc.insert out (joinPath path name) { writable := property.writable, type := t }) h.1)
        with ⟨out', hout⟩
      simp only [hout, Option.bind_some]
      exact derivePropertyFields_isSome properties path out' (validateProperties_eq_ok.mpr h.2)
/-- The same for the element schema of an array node. -/
theorem deriveItemFields_isSome : (items : Option SchemaNode) → (path : String) →
    (out : List (String × FieldInfo)) → validateItems items = .ok () →
    (deriveItemFields items path out).isSome = true
  | none, _, _, _ => rfl
  | some node, path, out, h => deriveFields_isSome node path out (validateItems_eq_ok.mp h node rfl)
end

end Netfyr
