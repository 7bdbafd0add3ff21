import Mathlib.Data.List.Sort
import Netfyr.Schema.Node

/-!
# Schema Registries

A registry is a list of fragments: the base fragment, which applies to every
state, and fragments that apply when their trigger key is present. What the
source expects of a registry without checking it on every use is a field of the
structure here: fragments have distinct triggers, one of them is the base, and
the base declares `type`. An extension keeps all of it, so the lookups that
would panic in the source are total.

`SchemaRegistry.addSchemaNode` returns the registry beside the result, because
the source extends a registry in place and creates the components of a path
before it knows that the path is good.

## Main definitions

* `Fragment`, `SchemaRegistry`: The registry.
* `SchemaRegistry.new`: The embedded fragments.
* `SchemaRegistry.addSchemaNode`: Extension with a node read from text.
* `SchemaRegistry.Reachable`: Registries built by successful extensions.
* `SchemaRegistry.fieldInfo`: Whether a field may be set, and its type.
* `ProviderRegistry.schemaRegistry`: The registry with the providers' triggers.

## Theorems

* `insertNode_valid`: Extension keeps every node typed.
* `insertNode_top`: Extension sets one property at the top, or none.
* `SchemaRegistry.triggered_eq_some`: A key triggers at most one fragment.
* `ProviderRegistry.registerAll_isSome`: No provider's extension fails.
-/

namespace Netfyr

/-- One schema fragment. A fragment without a trigger applies to every state,
    and then declares the device type. -/
structure Fragment where
  name : String
  triggerKey : Option String
  root : TypedNode
  hasType : triggerKey = none → (root.property "type").isSome = true

namespace Fragment

/-- Every field at every nesting level, keyed by dot path, in key order. -/
def fields (self : Fragment) : List (String × FieldInfo) :=
  let derived := (deriveFields self.root.node "" []).get
    (deriveFields_isSome self.root.node "" [] self.root.valid)
  derived.insertionSort fun a b => a.1 ≤ b.1

/-- The node of the device type, in a fragment that applies to every state. -/
def typeNode (self : Fragment) (h : self.triggerKey = none) : TypedNode :=
  (self.root.property "type").get (self.hasType h)

end Fragment

/-- Fragments with distinct triggers, one of them without. -/
structure SchemaRegistry where
  fragments : List Fragment
  distinct : (fragments.map Fragment.triggerKey).Nodup
  hasBase : (fragments.find? fun f => f.triggerKey.isNone).isSome = true

/-- The embedded `base` schema. -/
def baseJson : SchemaNode :=
  { type := some .object
    additionalProperties := some false
    properties :=
      [("type", { type := some .string }),
       ("name", { type := some .string }),
       ("mac", { type := some .string }),
       ("carrier", { type := some .boolean }),
       ("driver", { type := some .string }),
       ("enabled", { type := some .boolean, writable := true }),
       ("mtu", { type := some .integer, writable := true, minimum := some 68,
                 maximum := some 65535 })] }

/-- The embedded `ipv4` schema. -/
def ipv4Json : SchemaNode :=
  { type := some .object
    additionalProperties := some false
    properties :=
      [("addresses",
        { type := some .array
          writable := true
          items := some
            { type := some .object
              additionalProperties := some false
              required := ["ip"]
              properties :=
                [("ip", { type := some .string, format := some .ipv4Cidr, writable := true }),
                 ("valid_lft", { type := some .integer, writable := true }),
                 ("preferred_lft", { type := some .integer, writable := true })] } })] }

/-- The embedded `ethernet` schema. -/
def ethernetJson : SchemaNode :=
  { type := some .object
    impliedDeviceType := some "ethernet"
    additionalProperties := some false
    properties :=
      [("speed", { type := some .integer }),
       ("duplex", { type := some .string, enum := some ["full", "half", "unknown"] }),
       ("autoneg", { type := some .boolean })] }

/-- Split a dotted path into its components. -/
def splitPath (path : String) : List String :=
  (path.toList.foldr (fun c parts => match parts with
    | [] => [[c]]
    | part :: parts => if c = '.' then [] :: part :: parts else (c :: part) :: parts)
    [[]]).map String.ofList

/-- Set a property of a node, in place when it is declared. -/
def SchemaNode.setProperty (self : SchemaNode) (key : String) (property : SchemaNode) :
    SchemaNode :=
  { self with properties := Assoc.insert self.properties key property }

/-- Insert `new` as property `name` of the object found along `parts`, creating
    missing objects. The tree is returned also on failure, as it then is. -/
def insertNode (path : String) (new : SchemaNode) (name : String) :
    List String → SchemaNode → Except String Unit × SchemaNode
  -- At the end of the path the name must be free.
  | [], parent =>
      if (parent.properties.lookup name).isSome then
        (.error s!"schema node '{path}' already exists", parent)
      else (.ok (), parent.setProperty name new)
  | part :: parts, parent =>
      -- A missing component is created, and stays when a later one fails.
      let child := (parent.properties.lookup part).getD writableObject
      if child.type ≠ some .object then
        (.error s!"schema path component '{part}' is not an object", parent.setProperty part child)
      else
        let (result, child) := insertNode path new name parts child
        (result, parent.setProperty part child)

theorem setProperty_valid {node property : SchemaNode} {key : String}
    (h : validateSchemaNode node = .ok ()) (hp : validateSchemaNode property = .ok ()) :
    validateSchemaNode (node.setProperty key property) = .ok () := by
  rw [validateSchemaNode_eq_ok] at h ⊢
  refine ⟨h.1, ?_, h.2.2⟩
  have hold := validateProperties_eq_ok.mp h.2.1
  rw [SchemaNode.setProperty, validateProperties_eq_ok]
  intro entry hentry
  rcases Assoc.mem_insert hentry with rfl | hmem
  · exact hp
  · exact hold entry hmem

/-- Extension keeps every node of the tree typed. -/
theorem insertNode_valid {path : String} {new : SchemaNode} {name : String} {parts : List String}
    {parent : SchemaNode} (h : validateSchemaNode parent = .ok ())
    (hnew : validateSchemaNode new = .ok ()) :
    validateSchemaNode (insertNode path new name parts parent).2 = .ok () := by
  induction parts generalizing parent with
  | nil =>
      rw [insertNode]
      split
      · exact h
      · exact setProperty_valid h hnew
  | cons part parts ih =>
      have hchild : validateSchemaNode ((parent.properties.lookup part).getD writableObject) =
          .ok () := by
        -- The child is declared, hence valid, or the object created for it.
        rcases hl : parent.properties.lookup part with _ | child
        · rfl
        · exact TypedNode.valid_property ⟨parent, h⟩ hl
      rw [insertNode]
      split
      · exact setProperty_valid h hchild
      · exact setProperty_valid h (ih hchild)

/-- At the top of a tree, extension sets the property at the head of its path or
    changes nothing. A property that is not an object is set to what it was. -/
theorem insertNode_top (path : String) (new : SchemaNode) (name : String) (parts : List String)
    (parent : SchemaNode) :
    (insertNode path new name parts parent).2 = parent ∨
      ∃ property, (insertNode path new name parts parent).2 =
          parent.setProperty ((parts ++ [name]).headD "") property ∧
        ∀ old, parent.properties.lookup ((parts ++ [name]).headD "") = some old →
          old.type ≠ some .object → property = old := by
  cases parts with
  | nil =>
      rw [insertNode]
      split
      · exact Or.inl rfl
      · next hfree =>
          refine Or.inr ⟨new, rfl, fun old hold _ => ?_⟩
          rw [List.nil_append, List.headD_cons] at hold
          rw [hold] at hfree
          exact absurd rfl hfree
  | cons part parts =>
      rw [insertNode, List.cons_append, List.headD_cons]
      split
      · refine Or.inr ⟨_, rfl, fun old hold _ => ?_⟩
        rw [hold, Option.getD_some]
      · next hchild =>
          refine Or.inr ⟨_, rfl, fun old hold hobject => ?_⟩
          rw [hold, Option.getD_some] at hchild
          exact absurd hobject hchild

/-- Extension removes no property. -/
theorem insertNode_isSome {path : String} {new : SchemaNode} {name : String} {parts : List String}
    {parent : SchemaNode} {key : String} (h : (parent.properties.lookup key).isSome = true) :
    ((insertNode path new name parts parent).2.properties.lookup key).isSome = true := by
  rcases insertNode_top path new name parts parent with heq | ⟨property, heq, _⟩
  · rw [heq]
    exact h
  · rw [heq]
    exact Assoc.lookup_insert_isSome h

theorem TypedNode.property_isSome {self : TypedNode} {key : String} :
    (self.property key).isSome = (self.node.properties.lookup key).isSome := by
  rw [← TypedNode.property_map_node, Option.isSome_map]

namespace Fragment

/-- Extend a fragment's tree. -/
def insertNode (self : Fragment) (path : String) (new : TypedNode) (name : String)
    (parts : List String) : Except String Unit × Fragment :=
  let out := Netfyr.insertNode path new.node name parts self.root.node
  (out.1,
    { self with
      root := ⟨out.2, insertNode_valid self.root.valid new.valid⟩
      -- `type` is still declared, since extension removes no property.
      hasType := fun h => by
        rw [TypedNode.property_isSome]
        exact insertNode_isSome (by rw [← TypedNode.property_isSome]; exact self.hasType h) })

end Fragment

/-- Update the fragment of a name, with the result of the update. -/
def updateFragment (name : String) (update : Fragment → Except String Unit × Fragment) :
    List Fragment → Except String Unit × List Fragment
  | [] => (.error s!"unknown schema fragment '{name}'", [])
  | fragment :: fragments =>
      if fragment.name = name then
        let (result, fragment) := update fragment
        (result, fragment :: fragments)
      else
        let (result, fragments) := updateFragment name update fragments
        (result, fragment :: fragments)

theorem updateFragment_triggers {name : String}
    {update : Fragment → Except String Unit × Fragment}
    (h : ∀ f, (update f).2.triggerKey = f.triggerKey) (fragments : List Fragment) :
    (updateFragment name update fragments).2.map Fragment.triggerKey =
      fragments.map Fragment.triggerKey := by
  induction fragments with
  | nil => rfl
  | cons fragment fragments ih =>
      rw [updateFragment]
      split
      · rw [List.map_cons, List.map_cons, h]
      · rw [List.map_cons, List.map_cons, ih]

/-- Whether a list has a fragment without trigger is a matter of its triggers. -/
theorem hasBase_iff {fragments : List Fragment} :
    (fragments.find? fun f => f.triggerKey.isNone).isSome = true ↔
      none ∈ fragments.map Fragment.triggerKey := by
  rw [List.find?_isSome, List.mem_map]
  simp only [Option.isNone_iff_eq_none]

namespace SchemaRegistry

/-- The embedded fragments, in the order `base`, `ipv4`, `ethernet`. -/
def new : SchemaRegistry where
  fragments :=
    [{ name := "base", triggerKey := none, root := ⟨baseJson, rfl⟩, hasType := fun _ => rfl },
     { name := "ipv4", triggerKey := some "ipv4", root := ⟨ipv4Json, rfl⟩, hasType := nofun },
     { name := "ethernet", triggerKey := some "ethernet", root := ⟨ethernetJson, rfl⟩,
       hasType := nofun }]
  distinct := by decide
  hasBase := rfl

/-- The base fragment. -/
def base (self : SchemaRegistry) : Fragment :=
  (self.fragments.find? fun f => f.triggerKey.isNone).get self.hasBase

/-- The fragment a top-level key triggers. -/
def triggered (self : SchemaRegistry) (key : String) : Option Fragment :=
  self.fragments.find? fun f => f.triggerKey == some key

/-- The keys that trigger fragments. -/
def triggerKeys (self : SchemaRegistry) : List String :=
  self.fragments.filterMap Fragment.triggerKey

theorem base_mem (self : SchemaRegistry) : self.base ∈ self.fragments :=
  List.mem_of_find?_eq_some (Option.some_get self.hasBase).symm

theorem base_triggerKey (self : SchemaRegistry) : self.base.triggerKey = none :=
  Option.isNone_iff_eq_none.mp (List.find?_some (p := fun f : Fragment => f.triggerKey.isNone)
    (Option.some_get self.hasBase).symm)

/-- A fragment is determined by its trigger. -/
theorem eq_of_triggerKey_eq (self : SchemaRegistry) {f g : Fragment} (hf : f ∈ self.fragments)
    (hg : g ∈ self.fragments) (h : f.triggerKey = g.triggerKey) : f = g :=
  List.inj_on_of_nodup_map self.distinct hf hg h

theorem triggered_triggerKey {self : SchemaRegistry} {key : String} {f : Fragment}
    (h : self.triggered key = some f) : f.triggerKey = some key :=
  beq_iff_eq.mp (List.find?_some (p := fun f : Fragment => f.triggerKey == some key) h)

theorem triggered_eq_some {self : SchemaRegistry} {key : String} {f : Fragment} :
    self.triggered key = some f ↔ f ∈ self.fragments ∧ f.triggerKey = some key := by
  constructor
  · intro h
    exact ⟨List.mem_of_find?_eq_some h, triggered_triggerKey h⟩
  · rintro ⟨hmem, hkey⟩
    rcases h : self.triggered key with _ | g
    · exact absurd (beq_iff_eq.mpr hkey) (List.find?_eq_none.mp h f hmem)
    · rw [self.eq_of_triggerKey_eq hmem (List.mem_of_find?_eq_some h)
        (hkey.trans (triggered_triggerKey h).symm)]

/-- Whether a key triggers a fragment is a matter of the triggers. -/
theorem triggered_isSome {self : SchemaRegistry} {key : String} :
    (self.triggered key).isSome = true ↔ some key ∈ self.fragments.map Fragment.triggerKey := by
  rw [Option.isSome_iff_exists, List.mem_map]
  exact exists_congr fun fragment => triggered_eq_some

theorem mem_triggerKeys {self : SchemaRegistry} {key : String} :
    key ∈ self.triggerKeys ↔ ∃ f, self.triggered key = some f := by
  simp only [triggerKeys, List.mem_filterMap, triggered_eq_some]

theorem not_mem_triggerKeys {self : SchemaRegistry} {key : String} :
    key ∉ self.triggerKeys ↔ self.triggered key = none := by
  rw [mem_triggerKeys, Option.eq_none_iff_forall_ne_some, not_exists]

/-- Add a checked node below a fragment's root. -/
def addNode (self : SchemaRegistry) (fragment path : String) (node : TypedNode) :
    Except String Unit × SchemaRegistry :=
  let parts := splitPath path
  if parts = [] ∨ "" ∈ parts then
    (.error "schema node path must not be empty or contain empty components", self)
  else
    -- A base property may not shadow the trigger of a fragment.
    let targetIsBase := match self.fragments.find? fun f => f.name == fragment with
      | some f => f.triggerKey.isNone
      | none => false
    let top := parts.headD ""
    if targetIsBase && self.fragments.any fun f => f.triggerKey == some top then
      (.error s!"base property '{top}' collides with a fragment trigger key", self)
    else
      let out := updateFragment fragment
        (fun f => f.insertNode path node (parts.getLastD "") parts.dropLast) self.fragments
      -- Both fields of the registry speak of the triggers only.
      have htriggers : out.2.map Fragment.triggerKey = self.fragments.map Fragment.triggerKey :=
        updateFragment_triggers (fun _ => rfl) self.fragments
      (out.1,
        { fragments := out.2
          distinct := by rw [htriggers]; exact self.distinct
          hasBase := by rw [hasBase_iff, htriggers, ← hasBase_iff]; exact self.hasBase })

/-- Add a schema node, read from its text, below a fragment's root. -/
def addSchemaNode (parse : String → Except String SchemaNode) (self : SchemaRegistry)
    (fragment path json : String) : Except String Unit × SchemaRegistry :=
  match parse json with
  | .error err => (.error s!"schema node at '{path}' is malformed: {err}", self)
  | .ok node =>
      match h : validateSchemaNode node with
      | .error err => (.error s!"schema node at '{path}' is malformed: {err}", self)
      | .ok () => self.addNode fragment path ⟨node, h⟩

/-- The registries built from the embedded one by successful extensions. -/
inductive Reachable (parse : String → Except String SchemaNode) : SchemaRegistry → Prop where
  | new : Reachable parse new
  | extend {registry extended : SchemaRegistry} {fragment path json : String} :
      Reachable parse registry →
      registry.addSchemaNode parse fragment path json = (.ok (), extended) →
      Reachable parse extended

/-- Look up a field of a fragment by its dot path. -/
def fieldInfo (self : SchemaRegistry) (fragment field : String) : Option FieldInfo :=
  (self.fragments.find? fun f => f.name == fragment).bind fun f => f.fields.lookup field

/-- The schema of a top-level property: a base property or a triggered root. -/
def topLevelSchema (self : SchemaRegistry) (key : String) : Option TypedNode :=
  (self.base.root.property key).or ((self.triggered key).map Fragment.root)

/-- The device type implied by a fragment whose trigger is among the keys. -/
def impliedDeviceType (self : SchemaRegistry) (fields : FieldMap) : Option String :=
  (self.fragments.filter fun f => f.triggerKey.any fields.containsKey).findSome?
    fun f => f.root.node.impliedDeviceType

end SchemaRegistry

/-- The source family a provider produces state for. -/
inductive ProviderSource where
  | dhcp
  | ra
  deriving DecidableEq

/-- The default priority of a source family. -/
def ProviderSource.defaultPriority : ProviderSource → Int
  | .dhcp => (Source.dhcp "").defaultPriority
  | .ra => (Source.ra "").defaultPriority

/-- One provider registration. -/
structure ProviderRegistration where
  kind : String
  domain : String
  key : String
  source : ProviderSource
  paramsSchema : TypedNode

namespace ProviderRegistration

/-- The dotted location of a trigger. -/
def location (self : ProviderRegistration) : String := self.domain ++ "." ++ self.key

/-- The default priority of a provider's source. -/
def defaultPriority (self : ProviderRegistration) : Int := self.source.defaultPriority

end ProviderRegistration

/-- The parameters of the `dhcp4` provider. -/
def dhcp4Schema : SchemaNode :=
  { type := some .object
    writable := true
    additionalProperties := some false
    properties :=
      [("send-hostname", { type := some .boolean, writable := true }),
       ("route-metric", { type := some .integer, writable := true, minimum := some 0 })] }

/-- Parameters without declared fields. -/
def openParamsSchema : SchemaNode :=
  { type := some .object, writable := true, additionalProperties := some true }

namespace ProviderRegistry

/-- The registrations, in registry order. -/
def registrations : List ProviderRegistration :=
  [{ kind := "dhcp4", domain := "ipv4", key := "dhcp4", source := .dhcp,
     paramsSchema := ⟨dhcp4Schema, rfl⟩ },
   { kind := "dhcp6", domain := "ipv6", key := "dhcp6", source := .dhcp,
     paramsSchema := ⟨openParamsSchema, rfl⟩ },
   { kind := "ra", domain := "ipv6", key := "ra", source := .ra,
     paramsSchema := ⟨openParamsSchema, rfl⟩ }]

/-- Where a registration's trigger goes: fragment and path. -/
def location (registration : ProviderRegistration) : String × String :=
  -- The `ipv4` fragment exists; other domains are objects of the base.
  if registration.domain = "ipv4" then ("ipv4", registration.key)
  else ("base", registration.domain ++ "." ++ registration.key)

/-- Extend a registry with one registration's trigger. -/
def register (schemas : SchemaRegistry) (registration : ProviderRegistration) :
    Except String Unit × SchemaRegistry :=
  schemas.addNode (location registration).1 (location registration).2 registration.paramsSchema

/-- Extend a registry with every trigger, absent when an extension fails. -/
def registerAll : List ProviderRegistration → SchemaRegistry → Option SchemaRegistry
  | [], schemas => some schemas
  | registration :: rest, schemas =>
      match register schemas registration with
      | (.ok (), schemas) => registerAll rest schemas
      | (.error _, _) => none

/-- No provider's extension of the embedded registry fails. -/
theorem registerAll_isSome : (registerAll registrations .new).isSome = true := rfl

/-- The state registry with every provider's trigger. -/
def schemaRegistry : SchemaRegistry := (registerAll registrations .new).get registerAll_isSome

/-- The registration of a key of a domain. -/
def registration (domain key : String) : Option ProviderRegistration :=
  registrations.find? fun registration => registration.domain = domain ∧ registration.key = key

end ProviderRegistry

end Netfyr
