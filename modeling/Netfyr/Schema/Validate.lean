import Netfyr.Schema.Registry

/-!
# Validation

The walk of a value along its schema, collecting every violation in order. The
source pushes onto one list; here each walk returns its own violations and a
container concatenates those of its parts.

Both modes run the same walk and differ in one line: under `writableOnly` a
property that is not writable is a violation. `Conforms` says of a value that
the walk finds nothing, without the paths the violations would carry, and is
what the proofs about pruning and applying use.

## Main definitions

* `walkNode`, `walkProperty`, `walkMap`: The walk.
* `SchemaRegistry.validateInner`: Every fragment's walk over a state.
* `SchemaRegistry.validate`, `SchemaRegistry.validateWritable`: The two modes.
* `Conforms`: The walk finds nothing.

## Theorems

* `walkNode_eq_nil`: A walk finds nothing exactly when the value conforms.
* `validateInner_eq_nil`: The same for a state.
-/

namespace Netfyr

/-- The type a value has. -/
def valueType : Value → FieldType
  | .string _ => .string
  | .u64 _ | .i64 _ => .integer
  | .bool _ => .boolean
  | .ipAddr _ => .ipAddress
  | .ipNetwork _ _ => .ipNetwork
  | .list _ => .array
  | .map _ => .object

/-- Whether a value of type `found` satisfies a field of type `expected`; a
    CIDR field also takes text. -/
def typeAccepts (node : TypedNode) (expected found : FieldType) : Bool :=
  expected == found ||
    (node.node.format == some .ipv4Cidr && expected == .ipNetwork && found == .string)

/-- The range violations of an integer. -/
def rangeErrors (node : TypedNode) (actual : Int) (path fragment : String) :
    List ValidationError :=
  let error := .outOfRange fragment path node.node.minimum node.node.maximum
  (if node.node.minimum.any fun min => actual < min.toInt then [error] else []) ++
    (if node.node.maximum.any fun max => max.toInt < actual then [error] else [])

/-- The violation of a string that is not among the allowed ones. -/
def enumErrors (node : TypedNode) (text path fragment : String) : List ValidationError :=
  match node.node.enum with
  | some allowed =>
      if allowed.contains text then [] else [.enumViolation fragment path allowed]
  | none => []

/-- The violation of a value that is not an IPv4 network. -/
def formatErrors (valid : Bool) (path fragment : String) : List ValidationError :=
  if valid then [] else [.invalidFormat fragment path "ipv4-cidr"]

/-- Whether text is an IPv4 network. -/
def isIpv4Cidr (text : String) : Bool :=
  match parseIpNetwork text with
  | some (.v4 _, len) => len ≤ 32
  | _ => false

/-- The required keys of an object that it lacks, in the schema's order. -/
def missingErrors (node : TypedNode) (keys : List String) (path : String)
    (ignoreKeys : List String) (fragment : String) : List ValidationError :=
  (node.node.required.filter fun key => !keys.contains key && !ignoreKeys.contains key).map
    fun key => .missingField fragment (joinPath path key)

/-- Whether an object takes keys its schema does not declare. -/
def TypedNode.isOpen (self : TypedNode) : Bool := self.node.additionalProperties.getD false

/-- The violation of setting a read-only property. -/
def readOnlyErrors (node : TypedNode) (path fragment : String) (writableOnly : Bool) :
    List ValidationError :=
  if writableOnly && !node.node.writable then [.readOnlyField fragment path] else []

mutual
/-- Validate one value against its node: the type first, then what the type
    asks for, then the parts. -/
def walkNode (fragment : String) (writableOnly : Bool) (node : TypedNode) :
    Value → String → List ValidationError
  | value, path =>
      if typeAccepts node node.fieldType (valueType value) = false then
        [.wrongType fragment path node.fieldType (valueType value)]
      else
        match node.fieldType, value with
        | .integer, .u64 n => rangeErrors node n.toNat path fragment
        | .integer, .i64 n => rangeErrors node n.toInt path fragment
        | .string, .string text => enumErrors node text path fragment
        | .ipNetwork, .ipNetwork addr len => formatErrors (addr.isIpv4 && len ≤ 32) path fragment
        | .ipNetwork, .string text => formatErrors (isIpv4Cidr text) path fragment
        | .object, .map entries =>
            walkEntries fragment writableOnly node entries path [] ++
              missingErrors node (Assoc.keys entries) path [] fragment
        | .array, .list items =>
            match node.items with
            | some itemSchema => walkItems fragment writableOnly itemSchema items path 0
            | none => []
        | _, _ => []
termination_by structural value => value
/-- Validate the entries of an object, skipping the keys to be ignored. -/
def walkEntries (fragment : String) (writableOnly : Bool) (node : TypedNode) :
    List (String × Value) → String → List String → List ValidationError
  | [], _, _ => []
  | (key, value) :: entries, path, ignoreKeys =>
      (if ignoreKeys.contains key then []
       else match node.property key with
        | some prop =>
            readOnlyErrors prop (joinPath path key) fragment writableOnly ++
              walkNode fragment writableOnly prop value (joinPath path key)
        | none =>
            if node.isOpen then [] else [.unknownField fragment (joinPath path key)]) ++
        walkEntries fragment writableOnly node entries path ignoreKeys
termination_by structural entries => entries
/-- Validate the elements of an array, from number `index` on. -/
def walkItems (fragment : String) (writableOnly : Bool) (node : TypedNode) :
    List Value → String → Nat → List ValidationError
  | [], _, _ => []
  | item :: items, path, index =>
      walkNode fragment writableOnly node item s!"{path}[{index}]" ++
        walkItems fragment writableOnly node items path (index + 1)
termination_by structural items => items
end

/-- Validate a property, wherever its value comes from. -/
def walkProperty (fragment : String) (writableOnly : Bool) (node : TypedNode) (value : Value)
    (path : String) : List ValidationError :=
  readOnlyErrors node path fragment writableOnly ++
    walkNode fragment writableOnly node value path

/-- Validate one object: its entries, then the required keys it lacks. -/
def walkMap (fragment : String) (writableOnly : Bool) (node : TypedNode)
    (entries : List (String × Value)) (path : String) (ignoreKeys : List String) :
    List ValidationError :=
  walkEntries fragment writableOnly node entries path ignoreKeys ++
    missingErrors node (Assoc.keys entries) path ignoreKeys fragment

namespace SchemaRegistry

/-- The violations one fragment finds in a state. -/
def fragmentErrors (self : SchemaRegistry) (state : State) (writableOnly : Bool)
    (fragment : Fragment) : List ValidationError :=
  match h : fragment.triggerKey with
  | none =>
      walkMap fragment.name writableOnly fragment.root state.fields.entries "" self.triggerKeys ++
        -- The device type is metadata of the state, never rejected as read-only.
        if state.deviceType = "" then []
        else walkProperty fragment.name false (fragment.typeNode h) (.string state.deviceType)
          "type"
  | some key =>
      match state.fields.get? key with
      | some (.map inner) => walkMap fragment.name writableOnly fragment.root inner key []
      | some other => [.wrongType fragment.name key .object (valueType other)]
      | none => []

/-- Every violation of a state, fragment by fragment. -/
def validateInner (self : SchemaRegistry) (state : State) (writableOnly : Bool) :
    List ValidationError :=
  self.fragments.flatMap (self.fragmentErrors state writableOnly)

/-- Validate a state, accepting read-only fields. -/
def validate (self : SchemaRegistry) (state : State) : List ValidationError :=
  self.validateInner state false

/-- Validate a state as policy input, rejecting read-only fields. -/
def validateWritable (self : SchemaRegistry) (state : State) : List ValidationError :=
  self.validateInner state true

end SchemaRegistry

/-- Whether an integer lies in a node's range. -/
def InRange (node : TypedNode) (actual : Int) : Prop :=
  (∀ min, node.node.minimum = some min → min.toInt ≤ actual) ∧
    ∀ max, node.node.maximum = some max → actual ≤ max.toInt

/-- Whether a string is one of the allowed ones. -/
def IsAllowed (node : TypedNode) (text : String) : Prop :=
  ∀ allowed, node.node.enum = some allowed → text ∈ allowed

/-- Whether an object has every required key, but for those to be ignored. -/
def HasRequired (node : TypedNode) (keys ignoreKeys : List String) : Prop :=
  ∀ key ∈ node.node.required, key ∈ keys ∨ key ∈ ignoreKeys

mutual
/-- The value is what the node describes; under `writableOnly` its parts are
    moreover writable. -/
def Conforms (writableOnly : Bool) (node : TypedNode) : Value → Prop
  | .string text =>
      (node.fieldType = .string ∧ IsAllowed node text) ∨
        (node.fieldType = .ipNetwork ∧ node.node.format = some .ipv4Cidr ∧
          isIpv4Cidr text = true)
  | .u64 n => node.fieldType = .integer ∧ InRange node n.toNat
  | .i64 n => node.fieldType = .integer ∧ InRange node n.toInt
  | .bool _ => node.fieldType = .boolean
  | .ipAddr _ => node.fieldType = .ipAddress
  | .ipNetwork addr len => node.fieldType = .ipNetwork ∧ addr.isIpv4 = true ∧ len ≤ 32
  | .list items =>
      node.fieldType = .array ∧
        ∀ itemSchema, node.items = some itemSchema → ConformsItems writableOnly itemSchema items
  | .map entries =>
      node.fieldType = .object ∧ ConformsEntries writableOnly node [] entries ∧
        HasRequired node (Assoc.keys entries) []
termination_by structural value => value
/-- The same for the elements of an array. -/
def ConformsItems (writableOnly : Bool) (node : TypedNode) : List Value → Prop
  | [] => True
  | item :: items => Conforms writableOnly node item ∧ ConformsItems writableOnly node items
termination_by structural items => items
/-- The same for the entries of an object, skipping the keys to be ignored. -/
def ConformsEntries (writableOnly : Bool) (node : TypedNode) (ignoreKeys : List String) :
    List (String × Value) → Prop
  | [] => True
  | (key, value) :: entries =>
      (key ∉ ignoreKeys →
        (∀ prop, node.property key = some prop →
          (writableOnly = true → prop.node.writable = true) ∧ Conforms writableOnly prop value) ∧
        (node.property key = none → node.isOpen = true)) ∧
        ConformsEntries writableOnly node ignoreKeys entries
termination_by structural entries => entries
end

theorem rangeErrors_eq_nil {node : TypedNode} {actual : Int} {path fragment : String} :
    rangeErrors node actual path fragment = [] ↔ InRange node actual := by
  rw [rangeErrors, InRange, List.append_eq_nil_iff]
  refine and_congr ?_ ?_
  · cases node.node.minimum with
    | none => simp only [Option.any_none, Bool.false_eq_true, if_false, reduceCtorEq,
        false_imp_iff, implies_true]
    | some min =>
        simp only [Option.any_some, decide_eq_true_eq, ite_eq_right_iff, List.cons_ne_nil,
          imp_false, Int.not_lt, Option.some.injEq, forall_eq']
  · cases node.node.maximum with
    | none => simp only [Option.any_none, Bool.false_eq_true, if_false, reduceCtorEq,
        false_imp_iff, implies_true]
    | some max =>
        simp only [Option.any_some, decide_eq_true_eq, ite_eq_right_iff, List.cons_ne_nil,
          imp_false, Int.not_lt, Option.some.injEq, forall_eq']

theorem enumErrors_eq_nil {node : TypedNode} {text path fragment : String} :
    enumErrors node text path fragment = [] ↔ IsAllowed node text := by
  rw [enumErrors, IsAllowed]
  cases node.node.enum with
  | none => simp only [reduceCtorEq, false_imp_iff, implies_true]
  | some allowed =>
      simp only [List.contains_iff_mem, ite_eq_left_iff, List.cons_ne_nil, imp_false, not_not,
        Option.some.injEq, forall_eq']

theorem formatErrors_eq_nil {valid : Bool} {path fragment : String} :
    formatErrors valid path fragment = [] ↔ valid = true := by
  simp only [formatErrors, ite_eq_left_iff, List.cons_ne_nil, imp_false, not_not]

theorem missingErrors_eq_nil {node : TypedNode} {keys ignoreKeys : List String}
    {path fragment : String} :
    missingErrors node keys path ignoreKeys fragment = [] ↔ HasRequired node keys ignoreKeys := by
  rw [missingErrors, List.map_eq_nil_iff, List.filter_eq_nil_iff]
  simp only [Bool.and_eq_true, Bool.not_eq_true', List.contains_eq_mem, decide_eq_false_iff_not,
    not_and, not_not, HasRequired]
  refine forall₂_congr fun key _ => ?_
  exact ⟨fun h => or_iff_not_imp_left.mpr h, fun h hk => h.resolve_left hk⟩

theorem readOnlyErrors_eq_nil {node : TypedNode} {path fragment : String} {writableOnly : Bool} :
    readOnlyErrors node path fragment writableOnly = [] ↔
      (writableOnly = true → node.node.writable = true) := by
  simp only [readOnlyErrors, Bool.and_eq_true, Bool.not_eq_true', ite_eq_right_iff,
    List.cons_ne_nil, imp_false, not_and, Bool.not_eq_false]

mutual
/-- A walk finds nothing exactly when the value conforms. -/
theorem walkNode_eq_nil {fragment : String} {writableOnly : Bool} {node : TypedNode} :
    (value : Value) → (path : String) →
    (walkNode fragment writableOnly node value path = [] ↔ Conforms writableOnly node value)
  | .string text, path => by
      rw [walkNode.eq_def, Conforms]
      generalize node.fieldType = t
      cases t <;> simp [typeAccepts, valueType, enumErrors_eq_nil]
      by_cases hf : node.node.format = some .ipv4Cidr <;> simp [hf, formatErrors_eq_nil]
  | .u64 n, path => by
      rw [walkNode.eq_def, Conforms]
      generalize node.fieldType = t
      cases t <;> simp [typeAccepts, valueType, rangeErrors_eq_nil]
  | .i64 n, path => by
      rw [walkNode.eq_def, Conforms]
      generalize node.fieldType = t
      cases t <;> simp [typeAccepts, valueType, rangeErrors_eq_nil]
  | .bool _, path => by
      rw [walkNode.eq_def, Conforms]
      generalize node.fieldType = t
      cases t <;> simp [typeAccepts, valueType]
  | .ipAddr _, path => by
      rw [walkNode.eq_def, Conforms]
      generalize node.fieldType = t
      cases t <;> simp [typeAccepts, valueType]
  | .ipNetwork addr len, path => by
      rw [walkNode.eq_def, Conforms]
      generalize node.fieldType = t
      cases t <;> simp [typeAccepts, valueType, formatErrors_eq_nil]
  | .list items, path => by
      rw [walkNode.eq_def, Conforms]
      generalize node.fieldType = t
      cases t <;> simp [typeAccepts, valueType]
      cases hi : node.items with
      | none => simp only [reduceCtorEq, false_imp_iff, implies_true]
      | some itemSchema => simp only [Option.some.injEq, forall_eq', walkItems_eq_nil items]
  | .map entries, path => by
      rw [walkNode.eq_def, Conforms]
      generalize node.fieldType = t
      cases t <;> simp [typeAccepts, valueType, walkEntries_eq_nil entries, missingErrors_eq_nil]
/-- The same for the elements of an array. -/
theorem walkItems_eq_nil {fragment : String} {writableOnly : Bool} {node : TypedNode} :
    (items : List Value) → (path : String) → (index : Nat) →
    (walkItems fragment writableOnly node items path index = [] ↔
      ConformsItems writableOnly node items)
  | [], _, _ => by simp only [walkItems, ConformsItems]
  | item :: items, path, index => by
      rw [walkItems, ConformsItems, List.append_eq_nil_iff, walkNode_eq_nil item,
        walkItems_eq_nil items]
/-- The same for the entries of an object. -/
theorem walkEntries_eq_nil {fragment : String} {writableOnly : Bool} {node : TypedNode}
    {ignoreKeys : List String} : (entries : List (String × Value)) → (path : String) →
    (walkEntries fragment writableOnly node entries path ignoreKeys = [] ↔
      ConformsEntries writableOnly node ignoreKeys entries)
  | [], _ => by simp only [walkEntries, ConformsEntries]
  | (key, value) :: entries, path => by
      rw [walkEntries, ConformsEntries, List.append_eq_nil_iff, walkEntries_eq_nil entries]
      refine and_congr ?_ Iff.rfl
      by_cases hk : key ∈ ignoreKeys
      · simp only [List.contains_iff_mem.mpr hk, if_true, hk, not_true, false_imp_iff]
      · simp only [List.contains_eq_mem, hk, decide_false, Bool.false_eq_true, if_false,
          not_false_eq_true, true_imp_iff]
        cases node.property key with
        | none =>
            simp only [ite_eq_left_iff, List.cons_ne_nil, imp_false, not_not, reduceCtorEq,
              false_imp_iff, implies_true, true_and, true_imp_iff]
        | some prop =>
            simp only [List.append_eq_nil_iff, readOnlyErrors_eq_nil, walkNode_eq_nil value,
              Option.some.injEq, forall_eq', reduceCtorEq, false_imp_iff, and_true]
end

theorem conformsEntries_iff {writableOnly : Bool} {node : TypedNode} {ignoreKeys : List String}
    {entries : List (String × Value)} :
    ConformsEntries writableOnly node ignoreKeys entries ↔
      ∀ entry ∈ entries, entry.1 ∉ ignoreKeys →
        (∀ prop, node.property entry.1 = some prop →
          (writableOnly = true → prop.node.writable = true) ∧
            Conforms writableOnly prop entry.2) ∧
        (node.property entry.1 = none → node.isOpen = true) := by
  induction entries with
  | nil => simp only [ConformsEntries, List.not_mem_nil, false_imp_iff, implies_true]
  | cons entry entries ih => rw [ConformsEntries, ih, List.forall_mem_cons]

/-- The entries of an object may be checked against another node that declares
    their keys alike. -/
theorem conformsEntries_congr {writableOnly : Bool} {node other : TypedNode}
    {entries : List (String × Value)} (hopen : node.isOpen = other.isOpen)
    (h : ∀ entry ∈ entries, node.property entry.1 = other.property entry.1) :
    ConformsEntries writableOnly node [] entries ↔
      ConformsEntries writableOnly other [] entries := by
  rw [conformsEntries_iff, conformsEntries_iff]
  refine forall₂_congr fun entry hmem => ?_
  rw [h entry hmem, hopen]

theorem walkMap_eq_nil {fragment : String} {writableOnly : Bool} {node : TypedNode}
    {entries : List (String × Value)} {path : String} {ignoreKeys : List String} :
    walkMap fragment writableOnly node entries path ignoreKeys = [] ↔
      ConformsEntries writableOnly node ignoreKeys entries ∧
        HasRequired node (Assoc.keys entries) ignoreKeys := by
  rw [walkMap, List.append_eq_nil_iff, walkEntries_eq_nil, missingErrors_eq_nil]

namespace SchemaRegistry

/-- What the fragment without trigger asks of a state. -/
def BaseConforms (self : SchemaRegistry) (state : State) (writableOnly : Bool)
    (fragment : Fragment) : Prop :=
  ConformsEntries writableOnly fragment.root self.triggerKeys state.fields.entries ∧
    HasRequired fragment.root state.fields.keys self.triggerKeys ∧
    (state.deviceType ≠ "" → ∀ typeNode, fragment.root.property "type" = some typeNode →
      Conforms false typeNode (.string state.deviceType))

/-- What a triggered fragment asks of a state. -/
def TriggeredConforms (state : State) (writableOnly : Bool) (fragment : Fragment)
    (key : String) : Prop :=
  ∀ value, state.fields.get? key = some value → ∃ inner, value = .map inner ∧
    ConformsEntries writableOnly fragment.root [] inner ∧
      HasRequired fragment.root (Assoc.keys inner) []

/-- The state is what every fragment describes. -/
def StateConforms (self : SchemaRegistry) (state : State) (writableOnly : Bool) : Prop :=
  ∀ fragment ∈ self.fragments,
    (fragment.triggerKey = none → self.BaseConforms state writableOnly fragment) ∧
      ∀ key, fragment.triggerKey = some key → TriggeredConforms state writableOnly fragment key

theorem fragmentErrors_eq_nil {self : SchemaRegistry} {state : State} {writableOnly : Bool}
    {fragment : Fragment} : self.fragmentErrors state writableOnly fragment = [] ↔
      (fragment.triggerKey = none → self.BaseConforms state writableOnly fragment) ∧
        ∀ key, fragment.triggerKey = some key →
          TriggeredConforms state writableOnly fragment key := by
  rw [fragmentErrors]
  split
  · next h =>
      have htype : fragment.root.property "type" = some (fragment.typeNode h) :=
        (Option.some_get (fragment.hasType h)).symm
      simp only [h, true_imp_iff, reduceCtorEq, false_imp_iff, implies_true, and_true,
        BaseConforms, htype, Option.some.injEq, forall_eq', List.append_eq_nil_iff,
        walkMap_eq_nil, and_assoc]
      refine and_congr_right' (and_congr_right' ?_)
      by_cases hd : state.deviceType = ""
      · simp only [hd, if_true, ne_eq, not_true, false_imp_iff]
      · simp only [hd, if_false, ne_eq, not_false_eq_true, true_imp_iff, walkProperty,
          List.append_eq_nil_iff, readOnlyErrors_eq_nil, Bool.false_eq_true, false_imp_iff,
          true_and, walkNode_eq_nil]
  · next key h =>
      simp only [h, reduceCtorEq, false_imp_iff, true_and, Option.some.injEq, forall_eq',
        TriggeredConforms]
      split
      · next inner hv =>
          simp only [hv, Option.some.injEq, forall_eq', Value.map.injEq, exists_eq_left',
            walkMap_eq_nil]
      · next other hother hv =>
          simp only [hv, Option.some.injEq, forall_eq', List.cons_ne_nil, false_iff, not_exists,
            not_and]
          intro inner heq
          exact absurd heq (hother inner)
      · next hv => simp only [hv, reduceCtorEq, false_imp_iff, implies_true]

/-- Validation finds nothing exactly when the state conforms. -/
theorem validateInner_eq_nil {self : SchemaRegistry} {state : State} {writableOnly : Bool} :
    self.validateInner state writableOnly = [] ↔ self.StateConforms state writableOnly := by
  rw [validateInner, List.flatMap_eq_nil_iff, StateConforms]
  exact forall₂_congr fun _ _ => fragmentErrors_eq_nil

end SchemaRegistry

end Netfyr
