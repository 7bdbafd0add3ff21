import Netfyr.Schema.Prune

/-!
# What Pruning Leaves Behind

The pruning walk and the validating walk are separate recursions, and they do
not visit the same places. Validation enters every element of an array; pruning
enters only the elements that are objects, so what lies in an array directly
inside an array stays. `ReadOnlyIn` says that a value holds a declared
read-only property where the validator looks, and `ReadOnlyInNestedList` that it
holds one where only the validator looks: below a list that is itself an
element of a list.

Neither predicate mentions a path or an error, so each half of the argument is
an induction over one walk: validation reports a read-only field exactly when
`ReadOnlyIn` holds, and pruning turns `ReadOnlyInNestedList` into `ReadOnlyIn`.

## Main definitions

* `ReadOnlyIn`: A value holds a declared read-only property.
* `ReadOnlyInNestedList`: It holds one inside a list inside a list.

## Theorems

* `walkNode_readOnly`: The validator reports what `ReadOnlyIn` says.
* `pruneItems_readOnly`: Pruning leaves what `ReadOnlyInNestedList` says.
* `removeReadOnlyFields_complete_iff`: The two combined, for a state.
-/

namespace Netfyr

mutual
/-- The value holds a declared read-only property where the validator looks. -/
def ReadOnlyIn (node : TypedNode) : Value → Prop
  | .map entries => node.fieldType = .object ∧ ReadOnlyInEntries node [] entries
  | .list items =>
      node.fieldType = .array ∧
        ∃ itemSchema, node.items = some itemSchema ∧ ReadOnlyInItems itemSchema items
  | _ => False
termination_by structural value => value
/-- An entry is, or holds, a declared read-only property. -/
def ReadOnlyInEntries (node : TypedNode) (ignoreKeys : List String) :
    List (String × Value) → Prop
  | [] => False
  | (key, value) :: entries =>
      (key ∉ ignoreKeys ∧ ∃ prop, node.property key = some prop ∧
        (prop.node.writable = false ∨ ReadOnlyIn prop value)) ∨
        ReadOnlyInEntries node ignoreKeys entries
termination_by structural entries => entries
/-- An element holds a declared read-only property. -/
def ReadOnlyInItems (node : TypedNode) : List Value → Prop
  | [] => False
  | item :: items => ReadOnlyIn node item ∨ ReadOnlyInItems node items
termination_by structural items => items
end

mutual
/-- Along writable properties, the value reaches a list that is an element of a
    list and holds a declared read-only property. -/
def ReadOnlyInNestedList (node : TypedNode) : Value → Prop
  | .map entries => node.fieldType = .object ∧ NestedInEntries node entries
  | .list items =>
      node.fieldType = .array ∧
        ∃ itemSchema, node.items = some itemSchema ∧ NestedInItems itemSchema items
  | _ => False
termination_by structural value => value
/-- An entry reaches such a list. -/
def NestedInEntries (node : TypedNode) : List (String × Value) → Prop
  | [] => False
  | (key, value) :: entries =>
      (∃ prop, node.property key = some prop ∧ prop.node.writable = true ∧
        ReadOnlyInNestedList prop value) ∨ NestedInEntries node entries
termination_by structural entries => entries
/-- An element is such a list, or an object that reaches one. -/
def NestedInItems (node : TypedNode) : List Value → Prop
  | [] => False
  | item :: items =>
      (match item with
      -- Pruning does not enter it, but validation does.
      | .list inner => ReadOnlyIn node (.list inner)
      | .map entries => node.fieldType = .object ∧ NestedInEntries node entries
      | _ => False) ∨ NestedInItems node items
termination_by structural items => items
end

/-- Whether a list of violations has a read-only field. -/
def reportsReadOnly (errors : List ValidationError) : Prop :=
  ∃ error ∈ errors, error.isReadOnly = true

@[simp] theorem reportsReadOnly_nil : ¬ reportsReadOnly [] := by
  simp only [reportsReadOnly, List.not_mem_nil, false_and, exists_false, not_false_eq_true]

@[simp] theorem reportsReadOnly_append {as bs : List ValidationError} :
    reportsReadOnly (as ++ bs) ↔ reportsReadOnly as ∨ reportsReadOnly bs := by
  simp only [reportsReadOnly, List.mem_append, or_and_right, exists_or]

@[simp] theorem reportsReadOnly_singleton {error : ValidationError} :
    reportsReadOnly [error] ↔ error.isReadOnly = true := by
  simp only [reportsReadOnly, List.mem_singleton, exists_eq_left]

@[simp] theorem reportsReadOnly_rangeErrors {node : TypedNode} {actual : Int}
    {path fragment : String} : ¬ reportsReadOnly (rangeErrors node actual path fragment) := by
  rw [rangeErrors, reportsReadOnly_append]
  rintro (h | h)
  · split at h
    · exact absurd (reportsReadOnly_singleton.mp h) Bool.false_ne_true
    · exact reportsReadOnly_nil h
  · split at h
    · exact absurd (reportsReadOnly_singleton.mp h) Bool.false_ne_true
    · exact reportsReadOnly_nil h

@[simp] theorem reportsReadOnly_enumErrors {node : TypedNode} {text path fragment : String} :
    ¬ reportsReadOnly (enumErrors node text path fragment) := by
  rw [enumErrors]
  split
  · split
    · exact reportsReadOnly_nil
    · exact fun h => absurd (reportsReadOnly_singleton.mp h) Bool.false_ne_true
  · exact reportsReadOnly_nil

@[simp] theorem reportsReadOnly_formatErrors {valid : Bool} {path fragment : String} :
    ¬ reportsReadOnly (formatErrors valid path fragment) := by
  rw [formatErrors]
  split
  · exact reportsReadOnly_nil
  · exact fun h => absurd (reportsReadOnly_singleton.mp h) Bool.false_ne_true

@[simp] theorem reportsReadOnly_missingErrors {node : TypedNode} {keys ignoreKeys : List String}
    {path fragment : String} :
    ¬ reportsReadOnly (missingErrors node keys path ignoreKeys fragment) := by
  rw [missingErrors]
  rintro ⟨error, hmem, herror⟩
  rcases List.mem_map.mp hmem with ⟨key, _, rfl⟩
  exact absurd herror Bool.false_ne_true

@[simp] theorem reportsReadOnly_readOnlyErrors {node : TypedNode} {path fragment : String}
    {writableOnly : Bool} : reportsReadOnly (readOnlyErrors node path fragment writableOnly) ↔
      writableOnly = true ∧ node.node.writable = false := by
  rw [readOnlyErrors]
  split
  · next h =>
      rw [Bool.and_eq_true, Bool.not_eq_true'] at h
      exact iff_of_true (reportsReadOnly_singleton.mpr rfl) h
  · next h =>
      rw [Bool.and_eq_true, Bool.not_eq_true'] at h
      exact iff_of_false reportsReadOnly_nil h

mutual
/-- The validator reports a read-only field exactly when there is one where it
    looks, and only under `writableOnly`. -/
theorem walkNode_readOnly {fragment : String} {writableOnly : Bool} {node : TypedNode} :
    (value : Value) → (path : String) →
    (reportsReadOnly (walkNode fragment writableOnly node value path) ↔
      writableOnly = true ∧ ReadOnlyIn node value)
  | .map entries, path => by
      rw [walkNode.eq_def, ReadOnlyIn]
      generalize node.fieldType = t
      cases t with
      | object =>
          simp only [typeAccepts, valueType, beq_self_eq_true, Bool.true_or, Bool.true_eq_false,
            if_false, reportsReadOnly_append, reportsReadOnly_missingErrors, or_false, true_and]
          exact walkEntries_readOnly entries path
      -- At any other type the walk reports the type and stops.
      | _ => simp [typeAccepts, valueType, ValidationError.isReadOnly]
  | .list items, path => by
      rw [walkNode.eq_def, ReadOnlyIn]
      generalize node.fieldType = t
      cases t with
      | array =>
          simp only [typeAccepts, valueType, beq_self_eq_true, Bool.true_or, Bool.true_eq_false,
            if_false, true_and]
          cases node.items with
          | none => simp only [reportsReadOnly_nil, reduceCtorEq, false_and, exists_false,
              and_false]
          | some itemSchema =>
              simp only [Option.some.injEq, exists_eq_left']
              exact walkItems_readOnly items path 0
      | _ => simp [typeAccepts, valueType, ValidationError.isReadOnly]
  | .string text, path => by
      rw [walkNode.eq_def, ReadOnlyIn.eq_def]
      generalize node.fieldType = t
      cases t <;> simp [typeAccepts, valueType, ValidationError.isReadOnly]
      split <;> simp [ValidationError.isReadOnly]
  | .u64 _, path | .i64 _, path | .bool _, path | .ipAddr _, path | .ipNetwork _ _, path => by
      rw [walkNode.eq_def, ReadOnlyIn.eq_def]
      generalize node.fieldType = t
      cases t <;> simp [typeAccepts, valueType, ValidationError.isReadOnly]
/-- The same for the elements of an array. -/
theorem walkItems_readOnly {fragment : String} {writableOnly : Bool} {node : TypedNode} :
    (items : List Value) → (path : String) → (index : Nat) →
    (reportsReadOnly (walkItems fragment writableOnly node items path index) ↔
      writableOnly = true ∧ ReadOnlyInItems node items)
  | [], _, _ => by
      simp only [walkItems, ReadOnlyInItems, reportsReadOnly_nil, and_false]
  | item :: items, path, index => by
      rw [walkItems, ReadOnlyInItems, reportsReadOnly_append, walkNode_readOnly item,
        walkItems_readOnly items, and_or_left]
/-- The same for the entries of an object. -/
theorem walkEntries_readOnly {fragment : String} {writableOnly : Bool} {node : TypedNode}
    {ignoreKeys : List String} : (entries : List (String × Value)) → (path : String) →
    (reportsReadOnly (walkEntries fragment writableOnly node entries path ignoreKeys) ↔
      writableOnly = true ∧ ReadOnlyInEntries node ignoreKeys entries)
  | [], _ => by simp only [walkEntries, ReadOnlyInEntries, reportsReadOnly_nil, and_false]
  | (key, value) :: entries, path => by
      rw [walkEntries, ReadOnlyInEntries, reportsReadOnly_append, walkEntries_readOnly entries,
        and_or_left]
      refine or_congr ?_ Iff.rfl
      -- An ignored key is not looked at on either side.
      by_cases hk : key ∈ ignoreKeys
      · simp only [List.contains_iff_mem.mpr hk, if_true, reportsReadOnly_nil, hk, not_true,
          false_and, and_false]
      · simp only [List.contains_eq_mem, hk, decide_false, Bool.false_eq_true, if_false,
          not_false_eq_true, true_and]
        cases node.property key with
        | none =>
            simp only [reduceCtorEq, false_and, exists_false, and_false, iff_false]
            split
            · exact reportsReadOnly_nil
            · exact fun h => absurd (reportsReadOnly_singleton.mp h) Bool.false_ne_true
        | some prop =>
            simp only [reportsReadOnly_append, reportsReadOnly_readOnlyErrors,
              walkNode_readOnly value, Option.some.injEq, exists_eq_left', ← and_or_left]
end

/-- What is left of an entry holds what is left of its value. -/
theorem readOnlyInEntries_keepEntry {node : TypedNode} {ignoreKeys : List String} {key : String}
    {pruned : Option Value × List String} {rest : List (String × Value) × List String} :
    ReadOnlyInEntries node ignoreKeys (keepEntry key pruned rest).1 ↔
      (∃ value, pruned.1 = some value ∧ key ∉ ignoreKeys ∧
        ∃ prop, node.property key = some prop ∧
          (prop.node.writable = false ∨ ReadOnlyIn prop value)) ∨
        ReadOnlyInEntries node ignoreKeys rest.1 := by
  rcases pruned with ⟨_ | value, gone⟩
  · simp only [keepEntry, Option.toList_none, List.map_nil, List.nil_append, reduceCtorEq,
      false_and, exists_false, false_or]
  · simp only [keepEntry, Option.toList_some, List.map_cons, List.map_nil, List.singleton_append,
      ReadOnlyInEntries, Option.some.injEq, exists_eq_left']

mutual
/-- Pruning a property leaves a read-only one exactly when it is kept and one is
    hidden in a nested list. -/
theorem pruneProperty_readOnly_iff {node : TypedNode} : (value : Value) → (path : String) →
    ((∃ left, (pruneProperty node value path).1 = some left ∧
        (node.node.writable = false ∨ ReadOnlyIn node left)) ↔
      node.node.writable = true ∧ ReadOnlyInNestedList node value)
  | value, path => by
      cases hw : node.node.writable with
      | false =>
          -- A read-only property is dropped whole.
          simp only [pruneProperty_readOnly hw, reduceCtorEq, false_and, exists_false]
      | true =>
          simp only [Bool.true_eq_false, false_or, true_and]
          cases value with
          | map entries =>
              rw [pruneProperty_map hw, ReadOnlyInNestedList]
              simp only [Option.some.injEq, exists_eq_left', ReadOnlyIn,
                pruneEntries_readOnly entries path]
          | list items =>
              rw [pruneProperty_list hw, ReadOnlyInNestedList]
              cases hi : node.items with
              | none =>
                  simp only [Option.some.injEq, exists_eq_left', ReadOnlyIn, hi, reduceCtorEq,
                    false_and, exists_false, and_false]
              | some itemSchema =>
                  simp only [Option.some.injEq, exists_eq_left', ReadOnlyIn, hi,
                    pruneItems_readOnly items path 0]
          | _ =>
              rw [pruneProperty_scalar hw (by trivial)]
              simp only [Option.some.injEq, exists_eq_left', ReadOnlyIn, ReadOnlyInNestedList]
termination_by structural value => value
/-- The same for the entries of an object. -/
theorem pruneEntries_readOnly {node : TypedNode} : (entries : List (String × Value)) →
    (path : String) →
    (ReadOnlyInEntries node [] (pruneEntries node entries path).1 ↔ NestedInEntries node entries)
  | [], _ => Iff.rfl
  | (key, value) :: entries, path => by
      rw [pruneEntries, NestedInEntries, readOnlyInEntries_keepEntry,
        pruneEntries_readOnly entries path]
      refine or_congr ?_ Iff.rfl
      cases node.property key with
      | none => simp only [reduceCtorEq, false_and, exists_false, and_false]
      | some prop =>
          simp only [List.not_mem_nil, not_false_eq_true, true_and, Option.some.injEq,
            exists_eq_left', pruneProperty_readOnly_iff value (joinPath path key)]
termination_by structural entries => entries
/-- The same for the elements of an array: lists among them are kept whole. -/
theorem pruneItems_readOnly {node : TypedNode} : (items : List Value) → (path : String) →
    (index : Nat) →
    (ReadOnlyInItems node (pruneItems node items path index).1 ↔ NestedInItems node items)
  | [], _, _ => Iff.rfl
  | .map entries :: items, path, index =>
      or_congr (and_congr_right' (pruneEntries_readOnly entries s!"{path}[{index}]"))
        (pruneItems_readOnly items path (index + 1))
  -- Kept whole, so what validation finds in it is found still.
  | .list _ :: items, path, index | .string _ :: items, path, index
  | .u64 _ :: items, path, index | .i64 _ :: items, path, index | .bool _ :: items, path, index
  | .ipAddr _ :: items, path, index | .ipNetwork _ _ :: items, path, index =>
      or_congr Iff.rfl (pruneItems_readOnly items path (index + 1))
termination_by structural items => items
end

theorem readOnlyInEntries_iff {node : TypedNode} {ignoreKeys : List String}
    {entries : List (String × Value)} : ReadOnlyInEntries node ignoreKeys entries ↔
      ∃ entry ∈ entries, entry.1 ∉ ignoreKeys ∧ ∃ prop, node.property entry.1 = some prop ∧
        (prop.node.writable = false ∨ ReadOnlyIn prop entry.2) := by
  induction entries with
  | nil => simp only [ReadOnlyInEntries, List.not_mem_nil, false_and, exists_false]
  | cons entry entries ih => rw [ReadOnlyInEntries, ih, List.exists_mem_cons_iff]

namespace SchemaRegistry

/-- A top-level entry is, or holds, a declared read-only property. -/
def ReadOnlyInField (self : SchemaRegistry) (key : String) (value : Value) : Prop :=
  match self.triggered key with
  | some fragment => ∃ entries, value = .map entries ∧ ReadOnlyInEntries fragment.root [] entries
  | none =>
      ∃ node, self.base.root.property key = some node ∧
        (node.node.writable = false ∨ ReadOnlyIn node value)

/-- A top-level entry reaches a list inside a list that holds one. -/
def NestedInField (self : SchemaRegistry) (key : String) (value : Value) : Prop :=
  match self.triggered key with
  | some fragment => ∃ entries, value = .map entries ∧ NestedInEntries fragment.root entries
  | none =>
      ∃ node, self.base.root.property key = some node ∧ node.node.writable = true ∧
        ReadOnlyInNestedList node value

/-- Somewhere in the state, along writable properties, a list that is an element
    of a list holds a declared read-only property. -/
def HidesReadOnly (self : SchemaRegistry) (state : State) : Prop :=
  ∃ entry ∈ state.fields.entries, self.NestedInField entry.1 entry.2

theorem fragmentErrors_readOnly {self : SchemaRegistry} {state : State} {fragment : Fragment} :
    reportsReadOnly (self.fragmentErrors state true fragment) ↔
      (fragment.triggerKey = none ∧
          ReadOnlyInEntries fragment.root self.triggerKeys state.fields.entries) ∨
        ∃ key inner, fragment.triggerKey = some key ∧
          state.fields.get? key = some (.map inner) ∧
          ReadOnlyInEntries fragment.root [] inner := by
  rw [fragmentErrors]
  split
  · next h =>
      -- The device type is walked without `writableOnly`, so it reports no read-only field.
      have htype : ¬ reportsReadOnly (if state.deviceType = "" then [] else
          walkProperty fragment.name false (fragment.typeNode h) (.string state.deviceType)
            "type") := by
        split
        · exact reportsReadOnly_nil
        · rw [walkProperty, reportsReadOnly_append, reportsReadOnly_readOnlyErrors,
            walkNode_readOnly]
          simp only [Bool.false_eq_true, false_and, or_self, not_false_eq_true]
      simp only [reportsReadOnly_append, htype, or_false, walkMap,
        reportsReadOnly_missingErrors, walkEntries_readOnly, h, true_and, reduceCtorEq,
        false_and, exists_false]
  · next key h =>
      simp only [h, reduceCtorEq, false_and, false_or, Option.some.injEq, exists_and_left,
        exists_eq_left']
      split
      · next inner hv =>
          simp only [walkMap, reportsReadOnly_append, walkEntries_readOnly, true_and,
            reportsReadOnly_missingErrors, or_false, hv, Option.some.injEq, Value.map.injEq,
            exists_eq_left']
      · next other hother hv =>
          refine iff_of_false (fun he => ?_) ?_
          · exact absurd (reportsReadOnly_singleton.mp he) Bool.false_ne_true
          · rintro ⟨inner, heq, _⟩
            exact hother inner (Option.some.inj (hv.symm.trans heq))
      · next hv => simp only [hv, reportsReadOnly_nil, reduceCtorEq, false_and, exists_false]

/-- Writable validation reports a read-only field exactly when some top-level
    entry is or holds one. -/
theorem validateWritable_readOnly {self : SchemaRegistry} {state : State} :
    reportsReadOnly (self.validateWritable state) ↔
      ∃ entry ∈ state.fields.entries, self.ReadOnlyInField entry.1 entry.2 := by
  -- The report is the fragments' one after the other.
  have hsplit : reportsReadOnly (self.validateWritable state) ↔
      ∃ fragment ∈ self.fragments, reportsReadOnly (self.fragmentErrors state true fragment) := by
    simp only [reportsReadOnly, validateWritable, validateInner, List.mem_flatMap]
    constructor
    · rintro ⟨error, ⟨fragment, hf, he⟩, hro⟩
      exact ⟨fragment, hf, error, he, hro⟩
    · rintro ⟨fragment, hf, error, he, hro⟩
      exact ⟨error, ⟨fragment, hf, he⟩, hro⟩
  rw [hsplit]
  constructor
  · rintro ⟨fragment, hf, he⟩
    rcases fragmentErrors_readOnly.mp he with ⟨hkey, hin⟩ | ⟨key, inner, hkey, hget, hin⟩
    · -- Only the base fragment has no trigger.
      obtain rfl := self.eq_of_triggerKey_eq hf self.base_mem (hkey.trans self.base_triggerKey.symm)
      rcases readOnlyInEntries_iff.mp hin with ⟨entry, hmem, hnot, hprop⟩
      refine ⟨entry, hmem, ?_⟩
      rw [ReadOnlyInField, not_mem_triggerKeys.mp hnot]
      exact hprop
    · refine ⟨(key, .map inner), Assoc.mem_of_lookup hget, ?_⟩
      rw [ReadOnlyInField, triggered_eq_some.mpr ⟨hf, hkey⟩]
      exact ⟨inner, rfl, hin⟩
  · rintro ⟨⟨key, value⟩, hmem, hin⟩
    rw [ReadOnlyInField] at hin
    cases ht : self.triggered key with
    | none =>
        rw [ht] at hin
        refine ⟨self.base, self.base_mem, fragmentErrors_readOnly.mpr (Or.inl
          ⟨self.base_triggerKey, readOnlyInEntries_iff.mpr ⟨(key, value), hmem, ?_, hin⟩⟩)⟩
        exact not_mem_triggerKeys.mpr ht
    | some fragment =>
        rw [ht] at hin
        rcases hin with ⟨inner, rfl, hin⟩
        rcases triggered_eq_some.mp ht with ⟨hf, hkey⟩
        exact ⟨fragment, hf, fragmentErrors_readOnly.mpr (Or.inr ⟨key, inner, hkey,
          Assoc.lookup_of_mem state.fields.wellKeyed.1 hmem, hin⟩)⟩

/-- What pruning leaves of an entry is or holds a read-only property exactly
    when a nested list of the entry hides one. -/
theorem pruneField_readOnly {self : SchemaRegistry} {key : String} {value : Value} :
    (∃ left, (self.pruneField key value).1 = some left ∧ self.ReadOnlyInField key left) ↔
      self.NestedInField key value := by
  rw [pruneField, NestedInField]
  simp only [ReadOnlyInField]
  cases self.triggered key with
  | none =>
      cases self.base.root.property key with
      | none => simp only [reduceCtorEq, false_and, exists_false, and_false]
      | some node =>
          simp only [Option.some.injEq, exists_eq_left']
          -- The path is only in the report, so any path will do.
          exact pruneProperty_readOnly_iff value (joinPath "" key)
  | some fragment =>
      cases value with
      | map entries =>
          simp only [Option.ite_none_left_eq_some, Option.some.injEq, Value.map.injEq,
            exists_eq_left', ← pruneEntries_readOnly entries key]
          constructor
          · rintro ⟨_, ⟨_, rfl⟩, inner, heq, hin⟩
            rwa [← Value.map.inj heq] at hin
          · intro hin
            refine ⟨_, ⟨fun hnil => ?_, rfl⟩, _, rfl, hin⟩
            rw [hnil] at hin
            exact hin
      | _ => simp only [Option.some.injEq, exists_eq_left', reduceCtorEq, false_and, exists_false]

theorem pruneFields_readOnly {self : SchemaRegistry} {entries : List (String × Value)} :
    (∃ entry ∈ (self.pruneFields entries).1, self.ReadOnlyInField entry.1 entry.2) ↔
      ∃ entry ∈ entries, self.NestedInField entry.1 entry.2 := by
  induction entries with
  | nil => simp only [pruneFields, List.not_mem_nil, false_and, exists_false]
  | cons entry entries ih =>
      rcases entry with ⟨key, value⟩
      rw [List.exists_mem_cons_iff, ← ih, ← pruneField_readOnly, pruneFields]
      rcases self.pruneField key value with ⟨_ | left, gone⟩
      · simp only [keepEntry, Option.toList_none, List.map_nil, List.nil_append, reduceCtorEq,
          false_and, exists_false, false_or]
      · simp only [keepEntry, Option.toList_some, List.map_cons, List.map_nil,
          List.singleton_append, List.exists_mem_cons_iff, Option.some.injEq, exists_eq_left']

/-- After pruning, writable validation reports no read-only field exactly when
    no list inside a list hides one. -/
theorem removeReadOnlyFields_complete_iff (self : SchemaRegistry) (state : State) :
    (∀ error ∈ self.validateWritable (self.removeReadOnlyFields state).1,
        error.isReadOnly = false) ↔ ¬ self.HidesReadOnly state := by
  have h : reportsReadOnly (self.validateWritable (self.removeReadOnlyFields state).1) ↔
      self.HidesReadOnly state := validateWritable_readOnly.trans pruneFields_readOnly
  rw [← h]
  simp only [reportsReadOnly, not_exists, not_and, Bool.not_eq_true]

/-- An array of arrays of objects with a read-only property. -/
def nestedListJson : SchemaNode :=
  { type := some .array
    writable := true
    items := some
      { type := some .array
        items := some
          { type := some .object, properties := [("ro", { type := some .integer })] } } }

/-- The text of `nestedListJson`. -/
def nestedListText : String :=
  "\x7b\"type\":\"array\",\"x-netfyr-writable\":true,\"items\":\x7b\"type\":\"array\",\"items\":" ++
    "\x7b\"type\":\"object\",\"properties\":\x7b\"ro\":\x7b\"type\":\"integer\"\x7d\x7d\x7d\x7d\x7d"

/-- A reader that reads that text and no other. -/
def parseNestedList (json : String) : Except String SchemaNode :=
  if json = nestedListText then .ok nestedListJson else .error "not a schema"

/-- The embedded registry, with that schema as base property `x`. -/
def nestedListRegistry : SchemaRegistry :=
  (new.addSchemaNode parseNestedList "base" "x" nestedListText).2

/-- A state whose only field is a list in a list with a read-only property. -/
def nestedListState : State :=
  (State.new .kernel).setField "x" (.list [.list [.map [("ro", .u64 1)]]]) (by decide)

/-- Pruning is not complete: it misses a read-only property of an object in a
    list in a list, which writable validation then reports. -/
theorem removeReadOnlyFields_incomplete :
    ¬ ∀ (parse : String → Except String SchemaNode) (registry : SchemaRegistry),
      Reachable parse registry → ∀ state, registry.validate state = [] →
        ∀ error ∈ registry.validateWritable (registry.removeReadOnlyFields state).1,
          error.isReadOnly = false := by
  intro h
  have hadd : (new.addSchemaNode parseNestedList "base" "x" nestedListText).1 = .ok () := by decide
  have hreach : Reachable parseNestedList nestedListRegistry := .extend .new (Prod.ext hadd rfl)
  have hvalid : nestedListRegistry.validate nestedListState = [] := by decide
  have hreport : .readOnlyField "base" "x[0][0].ro" ∈ nestedListRegistry.validateWritable
      (nestedListRegistry.removeReadOnlyFields nestedListState).1 := by decide
  exact absurd (h _ _ hreach _ hvalid _ hreport) (by decide)

end SchemaRegistry

end Netfyr
