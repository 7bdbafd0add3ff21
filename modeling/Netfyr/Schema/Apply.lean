import Netfyr.Schema.Prune
import Netfyr.Schema.Yaml

/-!
# Preparing States for Apply

Query output becomes policy input: the field the strategy names becomes the
selector, read-only fields are dropped with a warning each, and the device type
becomes a constraint of the selector. States that carry a selector of their own
are only validated.

The three walks involved (validation before, pruning, validation after) fit
together when the schema lets them: a required key must be writable, so that
pruning keeps it, and an array's elements must not be arrays, so that pruning
reaches them. `Prunable` is that condition on a schema. It holds of the embedded
registry and of the registry with the providers, and under it pruning a valid
object leaves a valid object that is writable throughout.

## Main definitions

* `prepareForApplyWithRegistry`: The preparation.
* `Prunable`: The condition on a schema node.
* `SchemaRegistry.Prunable`: The condition on a registry.

## Theorems

* `pruneEntries_conforms`: Pruning a valid object leaves a writable valid one.
* `removeReadOnlyFields_conforms`: The same for a state.
* `prepareForApply_query`: Preparing query output succeeds, with writable states
  that select the devices they were queried from.
-/

namespace Netfyr

/-- Which field the generated selector reads. -/
inductive MatchBy where
  | name
  | mac
  deriving DecidableEq

/-- The field a strategy reads. -/
def MatchBy.field : MatchBy → String
  | .name => "name"
  | .mac => "mac"

/-- A field dropped from a state. -/
structure Warning where
  key : String
  knownReadOnly : Bool
  deriving DecidableEq

/-- The prepared states, with a warning per dropped field. -/
structure ApplyOutcome where
  states : List State
  warnings : List Warning

namespace SchemaRegistry

/-- Forget the selector of query output: what came from the kernel and carries
    its device type or a read-only base field. -/
def forgetQueryMatch (self : SchemaRegistry) (state : State) : State :=
  if state.source = .kernel ∧
      (state.deviceType ≠ "" ∨ state.fields.keys.any fun key =>
        (self.fieldInfo "base" key).any fun info => !info.writable) then
    { state with matchSpec := {} }
  else state

/-- The violations of every state; a state with a selector is policy input. -/
def collectValidationErrors (self : SchemaRegistry) (finalStates : Bool) (states : List State) :
    List IndexedValidationError :=
  states.zipIdx.flatMap fun (state, stateIndex) =>
    -- Before the preparation only a state with a selector has to be writable.
    let errors := if finalStates || !state.matchSpec.isEmpty then self.validateWritable state
      else self.validate state
    errors.map (IndexedValidationError.mk stateIndex)

/-- The selector a strategy makes of the text of its field. -/
def matchOf : MatchBy → String → Match
  | .name, text => { name := some text }
  | .mac, text => { mac := some text }

/-- Move the device type of a state into its selector. -/
def moveDeviceType (state : State) : State :=
  if state.deviceType = "" then state
  else { state with
    matchSpec := { state.matchSpec with type := some state.deviceType }, deviceType := "" }

/-- Prepare one state, dropping read-only fields with a warning each. -/
def prepareState (self : SchemaRegistry) (matchBy : MatchBy) (stateIndex : Nat) (state : State) :
    Except Error (State × List Warning) :=
  if !state.matchSpec.isEmpty then .ok (state, [])
  else
    match state.fields.get? matchBy.field with
    | none => .error (.noMatchField matchBy.field stateIndex)
    | some value =>
        let text := match value with
          | .string text => text
          -- A selector field of another type is shown as text.
          | other => other.display
        let selected := { state with
          matchSpec := matchOf matchBy text
          fields := state.fields.shiftRemove matchBy.field }
        -- The selector field is taken out first, so it is not among the warnings.
        let pruned := self.removeReadOnlyFields selected
        .ok (moveDeviceType pruned.1, pruned.2.map fun key => { key, knownReadOnly := true })

/-- Prepare states one by one, the first being number `stateIndex`. -/
def prepareStates (self : SchemaRegistry) (matchBy : MatchBy) :
    List State → Nat → Except Error (List State × List Warning)
  | [], _ => .ok ([], [])
  | state :: states, stateIndex => do
      let (state, warnings) ← self.prepareState matchBy stateIndex state
      let (states, rest) ← self.prepareStates matchBy states (stateIndex + 1)
      .ok (state :: states, warnings ++ rest)

end SchemaRegistry

/-- Prepare states for apply with the schemas of a registry. -/
def prepareForApplyWithRegistry (states : List State) (matchBy : MatchBy)
    (registry : SchemaRegistry) : Except Error ApplyOutcome :=
  let states := states.map registry.forgetQueryMatch
  let errors := registry.collectValidationErrors false states
  if errors ≠ [] then .error (.validation errors)
  else do
    let (states, warnings) ← registry.prepareStates matchBy states 0
    let errors := registry.collectValidationErrors true states
    if errors ≠ [] then .error (.validation errors)
    else .ok { states, warnings }

mutual
/-- What a schema must be for pruning to leave valid values: required keys are
    writable, and the elements of an array are not arrays. -/
def Prunable : SchemaNode → Bool
  | .mk _ _ _ _ _ _ properties required items _ _ =>
      (required.all fun key => (properties.lookup key).all fun prop => prop.writable) &&
        prunableProperties properties && prunableItems items
termination_by structural node => node
/-- The same for the properties of an object. -/
def prunableProperties : List (String × SchemaNode) → Bool
  | [] => true
  | (_, property) :: properties => Prunable property && prunableProperties properties
termination_by structural properties => properties
/-- The same for the elements of an array. -/
def prunableItems : Option SchemaNode → Bool
  | none => true
  | some node => node.type != some .array && Prunable node
termination_by structural items => items
end

theorem prunableProperties_iff {properties : List (String × SchemaNode)} :
    prunableProperties properties = true ↔ ∀ entry ∈ properties, Prunable entry.2 = true := by
  induction properties with
  | nil => simp only [prunableProperties, List.not_mem_nil, false_imp_iff, implies_true]
  | cons entry properties ih =>
      rw [prunableProperties, Bool.and_eq_true, List.forall_mem_cons, ih]

theorem prunable_required {node : TypedNode} (h : Prunable node.node = true) {key : String}
    (hkey : key ∈ node.node.required) {prop : TypedNode} (hp : node.property key = some prop) :
    prop.node.writable = true := by
  have hl : node.node.properties.lookup key = some prop.node := by
    rw [← TypedNode.property_map_node, hp, Option.map_some]
  -- `Prunable` recurses on the node, so the constructor is opened.
  rcases node with ⟨⟨⟩, _⟩
  rw [Prunable, Bool.and_eq_true, Bool.and_eq_true, List.all_eq_true] at h
  have := h.1.1 key hkey
  rwa [hl, Option.all_some] at this

theorem prunable_property {node : TypedNode} (h : Prunable node.node = true) {key : String}
    {prop : TypedNode} (hp : node.property key = some prop) : Prunable prop.node = true := by
  have hl : node.node.properties.lookup key = some prop.node := by
    rw [← TypedNode.property_map_node, hp, Option.map_some]
  rcases node with ⟨⟨⟩, _⟩
  rw [Prunable, Bool.and_eq_true, Bool.and_eq_true] at h
  exact prunableProperties_iff.mp h.1.2 (key, prop.node) (Assoc.mem_of_lookup hl)

theorem prunable_items {node : TypedNode} (h : Prunable node.node = true) {itemSchema : TypedNode}
    (hi : node.items = some itemSchema) :
    itemSchema.node.type ≠ some .array ∧ Prunable itemSchema.node = true := by
  have hn : node.node.items = some itemSchema.node := by
    rw [← TypedNode.items_map_node, hi, Option.map_some]
  rcases node with ⟨⟨⟩, _⟩
  rw [Prunable, Bool.and_eq_true] at h
  have hitems := h.2
  simp only at hn
  rw [hn, prunableItems, Bool.and_eq_true, bne_iff_ne] at hitems
  exact hitems

/-- A node is an array exactly when its declared type is. -/
theorem fieldType_array {node : TypedNode} (h : node.fieldType = .array) :
    node.node.type = some .array := by
  have hs := node.semanticType_node
  rw [h, semanticType] at hs
  split at hs
  · -- A CIDR format makes a network of the node, and no array.
    exact absurd (Except.ok.inj hs) (by decide)
  · exact absurd hs (by simp only [reduceCtorEq, not_false_eq_true])
  · next t _ ht _ => rw [ht, Except.ok.inj hs]
  · exact absurd hs (by simp only [reduceCtorEq, not_false_eq_true])

/-- What pruning leaves of an entry is kept under its key. -/
theorem mem_keepEntry {key : String} {pruned : Option Value × List String}
    {rest : List (String × Value) × List String} {entry : String × Value} :
    entry ∈ (keepEntry key pruned rest).1 ↔
      (entry.1 = key ∧ pruned.1 = some entry.2) ∨ entry ∈ rest.1 := by
  rcases entry with ⟨k, v⟩
  rw [keepEntry, List.mem_append, List.mem_map]
  refine or_congr ?_ Iff.rfl
  constructor
  · rintro ⟨value, hvalue, heq⟩
    rw [Prod.mk.injEq] at heq
    rcases heq with ⟨rfl, rfl⟩
    exact ⟨rfl, Option.mem_toList.mp hvalue⟩
  · rintro ⟨rfl, hv⟩
    exact ⟨v, Option.mem_toList.mpr hv, rfl⟩

/-- A writable property is never dropped. -/
theorem pruneProperty_isSome {node : TypedNode} (h : node.node.writable = true) (value : Value)
    (path : String) : (pruneProperty node value path).1.isSome = true := by
  cases value with
  | map entries => rw [pruneProperty_map h, Option.isSome_some]
  | list items =>
      rw [pruneProperty_list h]
      split <;> rfl
  | _ => rw [pruneProperty_scalar h (by trivial), Option.isSome_some]

/-- Pruning keeps the keys that are not declared read-only. -/
theorem mem_keys_pruneEntries {node : TypedNode} {path key : String}
    {entries : List (String × Value)} (hkey : key ∈ Assoc.keys entries)
    (hw : ∀ prop, node.property key = some prop → prop.node.writable = true) :
    key ∈ Assoc.keys (pruneEntries node entries path).1 := by
  induction entries with
  | nil => exact absurd hkey List.not_mem_nil
  | cons entry entries ih =>
      rcases entry with ⟨k, value⟩
      rw [pruneEntries, Assoc.keys, List.mem_map]
      rcases List.mem_cons.mp hkey with rfl | hrest
      · cases hp : node.property key with
        | none => exact ⟨(key, value), mem_keepEntry.mpr (Or.inl ⟨rfl, rfl⟩), rfl⟩
        | some prop =>
            rcases Option.isSome_iff_exists.mp (pruneProperty_isSome (hw prop hp) value
              (joinPath path key)) with ⟨left, hleft⟩
            exact ⟨(key, left), mem_keepEntry.mpr (Or.inl ⟨rfl, hleft⟩), rfl⟩
      · rcases List.mem_map.mp (ih hrest) with ⟨left, hleft, heq⟩
        exact ⟨left, mem_keepEntry.mpr (Or.inr hleft), heq⟩

/-- Both modes ask the same of a value without parts. -/
theorem conforms_scalar {node : TypedNode} {value : Value} (hv : value.IsScalar)
    (h : Conforms false node value) : Conforms true node value := by
  cases value with
  | list _ => exact hv.elim
  | map _ => exact hv.elim
  | _ => exact h

theorem hasRequired_pruneEntries {node : TypedNode} {path : String}
    {entries : List (String × Value)} (hs : Prunable node.node = true)
    (h : HasRequired node (Assoc.keys entries) []) :
    HasRequired node (Assoc.keys (pruneEntries node entries path).1) [] := by
  intro key hkey
  rcases h key hkey with hmem | hmem
  · exact Or.inl (mem_keys_pruneEntries hmem fun _ hp => prunable_required hs hkey hp)
  · exact Or.inr hmem

mutual
/-- What pruning leaves of a valid property is writable and valid throughout. -/
theorem pruneProperty_conforms {node : TypedNode} (hs : Prunable node.node = true) :
    (value : Value) → (path : String) → Conforms false node value →
    ∀ left, (pruneProperty node value path).1 = some left →
      node.node.writable = true ∧ Conforms true node left
  | value, path, h, left, hleft => by
      cases hw : node.node.writable with
      | false =>
          rw [pruneProperty_readOnly hw] at hleft
          exact absurd hleft (by simp only [reduceCtorEq, not_false_eq_true])
      | true =>
          refine ⟨rfl, ?_⟩
          cases value with
          | map entries =>
              rw [pruneProperty_map hw] at hleft
              obtain rfl := Option.some.inj hleft
              exact ⟨h.1, pruneEntries_conforms hs entries path h.2.1,
                hasRequired_pruneEntries hs h.2.2⟩
          | list items =>
              rw [pruneProperty_list hw] at hleft
              cases hi : node.items with
              | none =>
                  rw [hi] at hleft
                  obtain rfl := Option.some.inj hleft
                  -- Without an element schema the elements are not looked at.
                  refine ⟨h.1, fun itemSchema hitem => ?_⟩
                  exact absurd (hi.symm.trans hitem) (by simp only [reduceCtorEq,
                    not_false_eq_true])
              | some itemSchema =>
                  rw [hi] at hleft
                  obtain rfl := Option.some.inj hleft
                  refine ⟨h.1, fun itemSchema' hitem => ?_⟩
                  obtain rfl := Option.some.inj (hi.symm.trans hitem)
                  exact pruneItems_conforms (prunable_items hs hi).2 (prunable_items hs hi).1 items
                    path 0 (h.2 itemSchema hi)
          | _ =>
              rw [pruneProperty_scalar hw (by trivial)] at hleft
              obtain rfl := Option.some.inj hleft
              exact conforms_scalar (by trivial) h
termination_by structural value => value
/-- Pruning a valid object leaves one that is writable and valid throughout. -/
theorem pruneEntries_conforms {node : TypedNode} (hs : Prunable node.node = true) :
    (entries : List (String × Value)) → (path : String) → ConformsEntries false node [] entries →
    ConformsEntries true node [] (pruneEntries node entries path).1
  | [], _, _ => trivial
  | (key, value) :: entries, path, h => by
      have hrest := conformsEntries_iff.mp (pruneEntries_conforms hs entries path h.2)
      have hentry := h.1 List.not_mem_nil
      rw [pruneEntries, conformsEntries_iff]
      intro entry hmem hnot
      rcases mem_keepEntry.mp hmem with ⟨hkey, hleft⟩ | hmem
      · rcases entry with ⟨_, left⟩
        subst hkey
        -- What is left of the entry is what the property left.
        refine ⟨fun prop hp => ?_, hentry.2⟩
        rw [hp] at hleft
        have hconforms := pruneProperty_conforms (prunable_property hs hp) value _
          (hentry.1 prop hp).2 left hleft
        exact ⟨fun _ => hconforms.1, hconforms.2⟩
      · exact hrest entry hmem hnot
termination_by structural entries => entries
/-- The same for the elements of an array: none of them is an array. -/
theorem pruneItems_conforms {node : TypedNode} (hs : Prunable node.node = true)
    (ht : node.node.type ≠ some .array) :
    (items : List Value) → (path : String) → (index : Nat) → ConformsItems false node items →
    ConformsItems true node (pruneItems node items path index).1
  | [], _, _, _ => trivial
  | .map entries :: items, path, index, h =>
      ⟨⟨h.1.1, pruneEntries_conforms hs entries s!"{path}[{index}]" h.1.2.1,
          hasRequired_pruneEntries hs h.1.2.2⟩,
        pruneItems_conforms hs ht items path (index + 1) h.2⟩
  -- An array in an array would not be pruned, which the condition excludes.
  | .list _ :: _, _, _, h => absurd (fieldType_array h.1.1) ht
  | .string _ :: items, path, index, h | .u64 _ :: items, path, index, h
  | .i64 _ :: items, path, index, h | .bool _ :: items, path, index, h
  | .ipAddr _ :: items, path, index, h | .ipNetwork _ _ :: items, path, index, h =>
      ⟨conforms_scalar trivial h.1, pruneItems_conforms hs ht items path (index + 1) h.2⟩
termination_by structural items => items
end

namespace SchemaRegistry

theorem mem_pruneFields {self : SchemaRegistry} {entries : List (String × Value)}
    {entry : String × Value} : entry ∈ (self.pruneFields entries).1 ↔
      ∃ value, (entry.1, value) ∈ entries ∧ (self.pruneField entry.1 value).1 = some entry.2 := by
  induction entries with
  | nil => simp only [pruneFields, List.not_mem_nil, false_and, exists_false]
  | cons first entries ih =>
      rcases first with ⟨key, value⟩
      rw [pruneFields, mem_keepEntry, ih]
      constructor
      · rintro (⟨hkey, hleft⟩ | ⟨old, hold, hleft⟩)
        · rw [← hkey] at hleft ⊢
          exact ⟨value, List.mem_cons_self, hleft⟩
        · exact ⟨old, List.mem_cons_of_mem _ hold, hleft⟩
      · rintro ⟨old, hold, hleft⟩
        rcases List.mem_cons.mp hold with heq | hold
        · rw [Prod.mk.injEq] at heq
          rcases heq with ⟨hkey, rfl⟩
          rw [hkey] at hleft
          exact Or.inl ⟨hkey, hleft⟩
        · exact Or.inr ⟨old, hold, hleft⟩

/-- The condition on a registry: each of its schemas can be pruned. -/
def Prunable (self : SchemaRegistry) : Prop :=
  ∀ fragment ∈ self.fragments, Netfyr.Prunable fragment.root.node = true

instance (self : SchemaRegistry) : Decidable self.Prunable :=
  inferInstanceAs (Decidable (∀ fragment ∈ self.fragments, _))

/-- Pruning keeps the keys no fragment owns and the base does not declare
    read-only. -/
theorem mem_keys_pruneFields {self : SchemaRegistry} {key : String}
    {entries : List (String × Value)} (hkey : key ∈ Assoc.keys entries)
    (ht : self.triggered key = none)
    (hw : ∀ prop, self.base.root.property key = some prop → prop.node.writable = true) :
    key ∈ Assoc.keys (self.pruneFields entries).1 := by
  rcases List.mem_map.mp hkey with ⟨⟨k, value⟩, hmem, hk⟩
  obtain rfl : key = k := hk.symm
  have hleft : ∃ left, (self.pruneField key value).1 = some left := by
    rw [pruneField, ht]
    cases hp : self.base.root.property key with
    | none => exact ⟨value, rfl⟩
    | some prop => exact Option.isSome_iff_exists.mp (pruneProperty_isSome (hw prop hp) value _)
  rcases hleft with ⟨left, hleft⟩
  exact List.mem_map.mpr ⟨(key, left), mem_pruneFields.mpr ⟨value, hmem, hleft⟩, rfl⟩

/-- Pruning a valid state leaves one that is writable and valid throughout. -/
theorem removeReadOnlyFields_conforms {self : SchemaRegistry} {state : State}
    (hs : self.Prunable) (h : self.StateConforms state false) :
    self.StateConforms (self.removeReadOnlyFields state).1 true := by
  intro fragment hf
  refine ⟨fun hkey => ?_, fun key hkey => ?_⟩
  · obtain rfl := self.eq_of_triggerKey_eq hf self.base_mem (hkey.trans self.base_triggerKey.symm)
    rcases (h _ hf).1 hkey with ⟨hentries, hrequired, htype⟩
    rw [conformsEntries_iff] at hentries
    refine ⟨conformsEntries_iff.mpr fun entry hmem hnot => ?_, fun key hreq => ?_, htype⟩
    · rcases mem_pruneFields.mp hmem with ⟨value, hold, hleft⟩
      have hentry := hentries _ hold hnot
      rw [pruneField, not_mem_triggerKeys.mp hnot] at hleft
      refine ⟨fun prop hp => ?_, hentry.2⟩
      simp only [hp] at hleft
      have := pruneProperty_conforms (prunable_property (hs _ hf) hp) value _ (hentry.1 prop hp).2
        _ hleft
      exact ⟨fun _ => this.1, this.2⟩
    · -- A key that triggers a fragment is not required here; any other is writable, and stays.
      by_cases ht : key ∈ self.triggerKeys
      · exact Or.inr ht
      · refine Or.inl (mem_keys_pruneFields ((hrequired key hreq).resolve_right ht)
          (not_mem_triggerKeys.mp ht) fun prop hp => ?_)
        exact prunable_required (hs _ hf) hreq hp
  · intro value hvalue
    rcases mem_pruneFields.mp (Assoc.mem_of_lookup hvalue) with ⟨old, hold, hleft⟩
    rcases (h _ hf).2 key hkey old (Assoc.lookup_of_mem state.fields.wellKeyed.1 hold) with
      ⟨inner, rfl, hentries, hrequired⟩
    simp only [pruneField, triggered_eq_some.mpr ⟨hf, hkey⟩,
      Option.ite_none_left_eq_some] at hleft
    obtain rfl := Option.some.inj hleft.2
    exact ⟨_, rfl, pruneEntries_conforms (hs _ hf) inner key hentries,
      hasRequired_pruneEntries (hs _ hf) hrequired⟩

/-- The selector fields are what queries make of them: text the base declares
    read-only, which no policy may set. -/
def SelectsBy (self : SchemaRegistry) (matchBy : MatchBy) : Prop :=
  self.fieldInfo "base" matchBy.field = some { writable := false, type := .string } ∧
    self.triggered matchBy.field = none ∧
    ∃ node, self.base.root.property matchBy.field = some node ∧ node.node.writable = false ∧
      node.fieldType = .string

/-- What pruning and the selectors need of a registry. -/
structure Appliable (registry : SchemaRegistry) : Prop where
  prunable : registry.Prunable
  selectsBy : ∀ matchBy, registry.SelectsBy matchBy

theorem appliable_new : new.Appliable where
  prunable := by decide
  selectsBy matchBy := by
    cases matchBy with
    | name => exact ⟨rfl, rfl, _, rfl, rfl, rfl⟩
    | mac => exact ⟨rfl, rfl, _, rfl, rfl, rfl⟩

end SchemaRegistry

theorem ProviderRegistry.appliable_schemaRegistry :
    ProviderRegistry.schemaRegistry.Appliable where
  prunable := by decide
  selectsBy matchBy := by
    cases matchBy with
    | name => exact ⟨rfl, rfl, _, rfl, rfl, rfl⟩
    | mac => exact ⟨rfl, rfl, _, rfl, rfl, rfl⟩

namespace SchemaRegistry

/-- The states the preparation is for: a valid state without selector, or read
    from query output, that carries the strategy's field, or policy input of
    another source than the kernel. -/
def Preparable (parse : String → Except String YamlValue) (self : SchemaRegistry)
    (matchBy : MatchBy) (state : State) : Prop :=
  ((state.matchSpec.isEmpty = true ∨ IsQueryOutput parse state) ∧ self.validate state = [] ∧
      state.fields.containsKey matchBy.field = true) ∨
    (state.matchSpec.isEmpty = false ∧ state.source ≠ .kernel ∧ self.validateWritable state = [])

/-- What preparation makes of a state: a writable valid state with a selector,
    which for query output selects the device it was queried from. -/
def PreparedAs (parse : String → Except String YamlValue) (self : SchemaRegistry)
    (state prepared : State) : Prop :=
  prepared.matchSpec.isEmpty = false ∧ self.validateWritable prepared = [] ∧
    (IsQueryOutput parse state → prepared.matchSpec.matches' state.matchSpec = true)

variable {parse : String → Except String YamlValue} {self : SchemaRegistry} {matchBy : MatchBy}
  {state : State}

/-- A selector field of a valid state is text. -/
theorem SelectsBy.string (hsel : self.SelectsBy matchBy) (h : self.StateConforms state false)
    {value : Value} (hv : state.fields.get? matchBy.field = some value) :
    ∃ text, value = .string text := by
  rcases hsel with ⟨_, ht, node, hp, _, htype⟩
  have hentries := ((h _ self.base_mem).1 self.base_triggerKey).1
  have hentry := conformsEntries_iff.mp hentries _ (Assoc.mem_of_lookup hv)
    (not_mem_triggerKeys.mpr ht)
  have hconf := (hentry.1 node hp).2
  cases value with
  | string text => exact ⟨text, rfl⟩
  | bool _ => exact absurd (htype.symm.trans hconf) (by decide)
  | ipAddr _ => exact absurd (htype.symm.trans hconf) (by decide)
  | _ => exact absurd (htype.symm.trans hconf.1) (by decide)

/-- Taking the selector field out keeps a state valid: it is not required. -/
theorem select_conforms (ha : self.Appliable) (h : self.StateConforms state false)
    (spec : Match) : self.StateConforms { state with
      matchSpec := spec
      fields := state.fields.shiftRemove matchBy.field } false := by
  rcases ha.selectsBy matchBy with ⟨_, ht, node, hp, hw, _⟩
  intro fragment hf
  refine ⟨fun hkey => ?_, fun key hkey => ?_⟩
  · obtain rfl := self.eq_of_triggerKey_eq hf self.base_mem (hkey.trans self.base_triggerKey.symm)
    rcases (h _ hf).1 hkey with ⟨hentries, hrequired, htype⟩
    refine ⟨conformsEntries_iff.mpr fun entry hmem => ?_, fun key hreq => ?_, htype⟩
    · exact conformsEntries_iff.mp hentries entry (List.mem_of_mem_filter hmem)
    · refine (hrequired key hreq).imp_left fun hmem => ?_
      -- A required key is writable, and the selector field is not.
      have hne : key ≠ matchBy.field := by
        rintro rfl
        exact absurd (prunable_required (ha.prunable _ hf) hreq hp) (by rw [hw]; decide)
      rcases List.mem_map.mp hmem with ⟨entry, hentry, rfl⟩
      exact List.mem_map.mpr ⟨entry, List.mem_filter.mpr ⟨hentry, decide_eq_true hne⟩, rfl⟩
  · intro value hvalue
    have hmem := List.mem_of_mem_filter (Assoc.mem_of_lookup hvalue)
    exact (h _ hf).2 key hkey value (Assoc.lookup_of_mem state.fields.wellKeyed.1 hmem)

theorem moveDeviceType_conforms {writableOnly : Bool}
    (h : self.StateConforms state writableOnly) :
    self.StateConforms (moveDeviceType state) writableOnly := by
  rw [moveDeviceType]
  split
  · exact h
  · intro fragment hf
    refine ⟨fun hkey => ?_, (h fragment hf).2⟩
    rcases (h fragment hf).1 hkey with ⟨hentries, hrequired, _⟩
    -- Without a device type there is nothing to check of it.
    exact ⟨hentries, hrequired, fun hne => absurd rfl hne⟩

/-- The selector of query output is forgotten: it carries its selector field,
    which the base declares read-only. -/
theorem forgetQueryMatch_isEmpty (hsel : self.SelectsBy matchBy)
    (hs : state.matchSpec.isEmpty = true ∨ IsQueryOutput parse state)
    (hfield : state.fields.containsKey matchBy.field = true) :
    (self.forgetQueryMatch state).matchSpec.isEmpty = true := by
  rw [forgetQueryMatch]
  split
  · rfl
  · next hcond =>
      -- Query output comes from the kernel, and its selector field is read-only.
      refine hs.resolve_right fun hq => hcond ?_
      rcases hq.exists_candidate with ⟨candidate, rfl, _⟩
      refine ⟨rfl, Or.inr (List.any_eq_true.mpr ⟨matchBy.field, ?_, ?_⟩)⟩
      · rcases Option.isSome_iff_exists.mp hfield with ⟨value, hv⟩
        exact List.mem_map.mpr ⟨_, Assoc.mem_of_lookup hv, rfl⟩
      · rw [hsel.1]
        rfl

theorem forgetQueryMatch_of_source (h : state.source ≠ .kernel) :
    self.forgetQueryMatch state = state := by
  rw [forgetQueryMatch, if_neg fun hcond => h hcond.1]

theorem forgetQueryMatch_fields : (self.forgetQueryMatch state).fields = state.fields := by
  rw [forgetQueryMatch]
  split <;> rfl

theorem forgetQueryMatch_deviceType :
    (self.forgetQueryMatch state).deviceType = state.deviceType := by
  rw [forgetQueryMatch]
  split <;> rfl

/-- Validation does not look at a state's selector. -/
theorem forgetQueryMatch_validateInner {writableOnly : Bool} :
    self.validateInner (self.forgetQueryMatch state) writableOnly =
      self.validateInner state writableOnly := by
  rw [forgetQueryMatch]
  split <;> rfl

theorem moveDeviceType_matchSpec : (moveDeviceType state).matchSpec =
    { state.matchSpec with
      type := if state.deviceType = "" then state.matchSpec.type else some state.deviceType } := by
  rw [moveDeviceType]
  split <;> rfl

/-- The selector made of query output selects what its fields describe. -/
theorem matchOf_matches {candidate : State} {text : String}
    (hv : candidate.fields.get? matchBy.field = some (.string text)) :
    ({ matchOf matchBy text with
      type := if candidate.deviceType = "" then (matchOf matchBy text).type
        else some candidate.deviceType } : Match).matches' (deriveQueryMatch candidate).matchSpec =
      true := by
  cases matchBy with
  | name =>
      have hname : fieldString candidate.fields "name" = some text := by
        rw [fieldString, show candidate.fields.get? "name" = _ from hv]
      by_cases hd : candidate.deviceType = ""
      · simp [matchOf, Match.matches', Match.fieldMatches, deriveQueryMatch, hname, hd]
      · simp [matchOf, Match.matches', Match.fieldMatches, deriveQueryMatch, hname, hd]
  | mac =>
      have hmac : fieldString candidate.fields "mac" = some text := by
        rw [fieldString, show candidate.fields.get? "mac" = _ from hv]
      by_cases hd : candidate.deviceType = ""
      · simp [matchOf, Match.matches', Match.fieldMatches, deriveQueryMatch, hmac, hd,
          Match.eqIgnoreAsciiCase_self]
      · simp [matchOf, Match.matches', Match.fieldMatches, deriveQueryMatch, hmac, hd,
          Match.eqIgnoreAsciiCase_self]

theorem matchOf_isEmpty (text : String) (type : Option String) :
    ({ matchOf matchBy text with type := type } : Match).isEmpty = false := by
  cases matchBy with
  | name => rfl
  | mac => exact Bool.and_false _

/-- Preparing one preparable state succeeds, and makes of it what it should. -/
theorem prepareState_forgetQueryMatch (ha : self.Appliable)
    (hp : self.Preparable parse matchBy state) (stateIndex : Nat) :
    ∃ prepared warnings,
      self.prepareState matchBy stateIndex (self.forgetQueryMatch state) =
        .ok (prepared, warnings) ∧ self.PreparedAs parse state prepared := by
  rcases hp with ⟨hs, hvalid, hfield⟩ | ⟨hne, hsource, hvalid⟩
  · have hsel := ha.selectsBy matchBy
    have hconf := validateInner_eq_nil.mp hvalid
    rcases Option.isSome_iff_exists.mp hfield with ⟨value, hv⟩
    rcases hsel.string hconf hv with ⟨text, rfl⟩
    -- A state without a selector goes through all three steps.
    have hprep : self.prepareState matchBy stateIndex (self.forgetQueryMatch state) =
        .ok (moveDeviceType (self.removeReadOnlyFields { self.forgetQueryMatch state with
            matchSpec := matchOf matchBy text
            fields := (self.forgetQueryMatch state).fields.shiftRemove matchBy.field }).1,
          (self.removeReadOnlyFields { self.forgetQueryMatch state with
            matchSpec := matchOf matchBy text
            fields := (self.forgetQueryMatch state).fields.shiftRemove matchBy.field }).2.map
              fun key => { key, knownReadOnly := true }) := by
      rw [prepareState, forgetQueryMatch_isEmpty hsel hs hfield, forgetQueryMatch_fields, hv]
      rfl
    refine ⟨_, _, hprep, ?_, ?_, fun hq => ?_⟩
    · rw [moveDeviceType_matchSpec]
      exact matchOf_isEmpty _ _
    · refine validateInner_eq_nil.mpr (moveDeviceType_conforms
        (removeReadOnlyFields_conforms ha.prunable (select_conforms ha ?_ _)))
      rw [← validateInner_eq_nil, forgetQueryMatch_validateInner]
      exact hvalid
    · rcases hq.exists_candidate with ⟨candidate, rfl, _⟩
      rw [moveDeviceType_matchSpec]
      simp only [removeReadOnlyFields, forgetQueryMatch_deviceType]
      exact matchOf_matches hv
  · refine ⟨state, [], ?_, hne, hvalid, fun hq => ?_⟩
    · rw [forgetQueryMatch_of_source hsource, prepareState, hne]
      rfl
    · rcases hq.exists_candidate with ⟨candidate, rfl, _⟩
      exact absurd rfl hsource

/-- Preparing preparable states succeeds, one by one. -/
theorem prepareStates_forgetQueryMatch (ha : self.Appliable) {states : List State}
    (hp : ∀ state ∈ states, self.Preparable parse matchBy state) (stateIndex : Nat) :
    ∃ prepared warnings,
      self.prepareStates matchBy (states.map self.forgetQueryMatch) stateIndex =
        .ok (prepared, warnings) ∧ List.Forall₂ (self.PreparedAs parse) states prepared := by
  induction states generalizing stateIndex with
  | nil => exact ⟨[], [], rfl, .nil⟩
  | cons state states ih =>
      rw [List.forall_mem_cons] at hp
      rcases prepareState_forgetQueryMatch ha hp.1 stateIndex with ⟨first, gone, hfirst, has⟩
      rcases ih hp.2 (stateIndex + 1) with ⟨rest, warnings, hrest, hall⟩
      refine ⟨first :: rest, gone ++ warnings, ?_, .cons has hall⟩
      rw [List.map_cons, prepareStates, hfirst]
      simp only [bind, Except.bind, hrest]

/-- No violations are collected when no state has any. -/
theorem collectValidationErrors_eq_nil {finalStates : Bool} {states : List State}
    (h : ∀ state ∈ states, (if finalStates || !state.matchSpec.isEmpty
      then self.validateWritable state else self.validate state) = []) :
    self.collectValidationErrors finalStates states = [] := by
  rw [collectValidationErrors, List.flatMap_eq_nil_iff]
  rintro ⟨state, stateIndex⟩ hmem
  rw [List.map_eq_nil_iff]
  exact h state (List.fst_mem_of_mem_zipIdx hmem)

end SchemaRegistry

/-- Preparing query output always succeeds: with either registry, every
    preparable list of states becomes as many writable valid states with a
    selector, and what was read in query mode selects its own device. -/
theorem prepareForApply_query (parse : String → Except String YamlValue)
    (registry : SchemaRegistry)
    (hregistry : registry = .new ∨ registry = ProviderRegistry.schemaRegistry)
    (matchBy : MatchBy) (states : List State)
    (hstates : ∀ state ∈ states, registry.Preparable parse matchBy state) :
    ∃ outcome, prepareForApplyWithRegistry states matchBy registry = .ok outcome ∧
      List.Forall₂ (registry.PreparedAs parse) states outcome.states := by
  have ha : registry.Appliable := by
    rcases hregistry with rfl | rfl
    · exact SchemaRegistry.appliable_new
    · exact ProviderRegistry.appliable_schemaRegistry
  rcases SchemaRegistry.prepareStates_forgetQueryMatch ha hstates 0 with
    ⟨prepared, warnings, hprep, hall⟩
  -- The first validation sees what the states were, and the second what they became.
  have hbefore : registry.collectValidationErrors false (states.map registry.forgetQueryMatch) =
      [] := by
    refine SchemaRegistry.collectValidationErrors_eq_nil fun state hmem => ?_
    rcases List.mem_map.mp hmem with ⟨original, horiginal, rfl⟩
    rcases hstates original horiginal with ⟨hs, hvalid, hfield⟩ | ⟨hne, hsource, hvalid⟩
    · rw [SchemaRegistry.forgetQueryMatch_isEmpty (ha.selectsBy matchBy) hs hfield]
      exact SchemaRegistry.forgetQueryMatch_validateInner.trans hvalid
    · rw [SchemaRegistry.forgetQueryMatch_of_source hsource, hne]
      exact hvalid
  have hafter : registry.collectValidationErrors true prepared = [] := by
    refine SchemaRegistry.collectValidationErrors_eq_nil fun state hmem => ?_
    rcases List.mem_iff_getElem.mp hmem with ⟨i, hi, rfl⟩
    exact (hall.get (by rw [hall.length_eq]; exact hi) hi).2.1
  refine ⟨{ states := prepared, warnings }, ?_, hall⟩
  simp only [prepareForApplyWithRegistry, hbefore, ne_eq, not_true, if_false, hprep, bind,
    Except.bind, hafter]

/-- Query output for one device, and a reader that knows its text alone. -/
def eth0Text : String := "name: eth0\ntype: ethernet\nmtu: 9000\n"

def parseEth0 (text : String) : Except String YamlValue :=
  if text = eth0Text then
    .ok (.mapping [(.string "name", .string "eth0"), (.string "type", .string "ethernet"),
      (.string "mtu", .number (.unsigned 9000))])
  else .error "unexpected text"

/-- The fields of that device. -/
def eth0Fields : FieldMap :=
  ⟨[("name", .string "eth0"), ("mtu", .u64 9000)], by decide⟩

/-- The device as query output reads it. -/
def eth0Queried : State :=
  { deviceType := "ethernet"
    matchSpec := { name := some "eth0", type := some "ethernet" }
    fields := eth0Fields
    source := .kernel
    priority := 0 }

/-- Query output, an edited state without selector, and a policy, prepared
    together. -/
theorem prepareForApply_query_eth0 :
    ∃ outcome, prepareForApplyWithRegistry
        [eth0Queried, { eth0Queried with matchSpec := {}, source := .static "" },
          { eth0Queried with fields := ⟨[("mtu", .u64 1500)], by decide⟩, source := .static "" }]
        .name .new = .ok outcome ∧
      List.Forall₂ (SchemaRegistry.new.PreparedAs parseEth0)
        [eth0Queried, { eth0Queried with matchSpec := {}, source := .static "" },
          { eth0Queried with fields := ⟨[("mtu", .u64 1500)], by decide⟩, source := .static "" }]
        outcome.states := by
  have hread : SchemaRegistry.new.decodeYaml parseEth0 eth0Text .query = .ok [eth0Queried] := by
    decide
  refine prepareForApply_query parseEth0 .new (Or.inl rfl) .name _ ?_
  simp only [List.forall_mem_cons, List.not_mem_nil, false_imp_iff, implies_true, and_true]
  refine ⟨Or.inl ⟨Or.inr ⟨.new, _, _, hread, List.mem_singleton_self _⟩, ?_, ?_⟩,
    Or.inl ⟨Or.inl ?_, ?_, ?_⟩, Or.inr ⟨?_, ?_, ?_⟩⟩ <;> decide

end Netfyr
