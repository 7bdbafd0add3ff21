import Netfyr.Schema.Conservative
import Netfyr.Schema.Raw

/-!
# Nothing Is Missing

The functions of the source are present wherever a reachable registry leads
them, and do what the typed ones do. `SchemaRegistry.raw` forgets what typed
nodes and registries carry; the registries that the source reaches are forgotten
of typed ones, because an extension checks its node before it inserts it.

## Main definitions

* `SchemaRegistry.raw`: The registry as the source stores it.

## Theorems

* `Raw.valueToModel_raw`, `Raw.walkNode_raw`, `Raw.pruneProperty_raw`: The walks.
* `Raw.addSchemaNode_raw`: Extension.
* `Raw.mappingToParts_raw`, `Raw.validateInner_raw`, `Raw.removeReadOnlyFields_raw`:
  Decoding, validation and pruning.
* `Raw.Registry.Reachable.exists_raw`: Reachable registries.
-/

namespace Netfyr

/-- A fragment as the source stores it. -/
def Fragment.raw (self : Fragment) : Raw.Fragment :=
  { name := self.name, triggerKey := self.triggerKey, root := self.root.node
    fields := self.fields }

/-- A registry as the source stores it. -/
def SchemaRegistry.raw (self : SchemaRegistry) : Raw.Registry :=
  { fragments := self.fragments.map Fragment.raw }

namespace Raw

section Decoding

theorem expectType_raw (node : TypedNode) : expectType node.node = some node.fieldType := by
  rw [expectType, node.semanticType_node]
  rfl

theorem decodeString_raw (node : TypedNode) (text : String) :
    decodeString node.node text = some (Netfyr.decodeString node text) := by
  rw [decodeString, expectType_raw, Netfyr.decodeString]
  generalize node.fieldType = fieldType
  cases fieldType with
  | ipNetwork =>
      dsimp only [Option.bind_eq_bind, Option.bind_some]
      cases parseIpNetwork text with
      | none => rfl
      | some network => rfl
  | _ => rfl

/-- A sequence is present, and does the same, when both parts are and do. -/
theorem decoding_bind {α β γ δ : Type} {x : Decoding α} {y : Except Error β} {φ : β → α}
    {ψ : δ → γ} {f : α → Decoding γ} {g : β → Except Error δ} (hx : x.run = some (y.map φ))
    (hf : ∀ b, y = .ok b → (f (φ b)).run = some ((g b).map ψ)) :
    (x >>= f).run = some ((y >>= g).map ψ) := by
  -- Both stop at the same error, and neither is absent before it.
  change Option.bind x.run (ExceptT.bindCont f) = _
  rw [hx, Option.bind_some]
  cases y with
  | error err => rfl
  | ok b => exact hf b rfl

theorem map_id {α : Type} (x : Except Error α) : x.map id = x := by
  cases x with
  | error _ => rfl
  | ok _ => rfl

mutual
/-- Conversion along a typed node. -/
theorem valueToModel_raw : (yaml : YamlValue) → (schema : Option TypedNode) →
    (valueToModel yaml (schema.map TypedNode.node)).run = some (Netfyr.valueToModel yaml schema)
  | .null, _ | .bool _, _ | .number (.unsigned _), _ | .number (.negative _ _), _
  | .number (.float _), _ | .tagged _ _, _ | .string _, none => rfl
  | .string text, some node => by
      rw [Option.map_some, valueToModel, decodeString_raw]
      rfl
  | .sequence items, schema => by
      -- Forgetting the type of a node and going to its items commute.
      have hitems : (schema.map TypedNode.node).bind SchemaNode.items =
          (schema.bind TypedNode.items).map TypedNode.node := by
        cases schema with
        | none => rfl
        | some node => exact node.items_map_node.symm
      have hrest := itemsToModel_raw items (schema.bind TypedNode.items)
      rw [valueToModel, Netfyr.valueToModel, hitems, ← map_id (_ >>= _)]
      rw [← map_id (Netfyr.itemsToModel items _)] at hrest
      exact decoding_bind hrest fun _ _ => rfl
  | .mapping entries, schema => by
      have hrest := entriesToModel_raw entries schema []
      rw [valueToModel, Netfyr.valueToModel, ← map_id (_ >>= _)]
      rw [← map_id (Netfyr.entriesToModel entries _ _)] at hrest
      exact decoding_bind hrest fun _ _ => rfl
/-- The same for the items of a sequence. -/
theorem itemsToModel_raw : (items : List YamlValue) → (schema : Option TypedNode) →
    (itemsToModel items (schema.map TypedNode.node)).run = some (Netfyr.itemsToModel items schema)
  | [], _ => rfl
  | item :: items, schema => by
      have hitem := valueToModel_raw item schema
      have hrest := itemsToModel_raw items schema
      rw [itemsToModel, Netfyr.itemsToModel, ← map_id (_ >>= _)]
      rw [← map_id (Netfyr.valueToModel item _)] at hitem
      rw [← map_id (Netfyr.itemsToModel items _)] at hrest
      exact decoding_bind hitem fun _ _ => decoding_bind hrest fun _ _ => rfl
/-- The same for the entries of a mapping. -/
theorem entriesToModel_raw : (entries : List (YamlValue × YamlValue)) →
    (schema : Option TypedNode) → (out : List (String × Value)) →
    (entriesToModel entries (schema.map TypedNode.node) out).run =
      some (Netfyr.entriesToModel entries schema out)
  | [], _, _ => rfl
  | (k, item) :: entries, schema, out => by
      have hkey : (liftM (keyToString k) : Decoding String).run =
          some ((keyToString k).map id) := by
        rw [map_id]
        rfl
      rw [entriesToModel, Netfyr.entriesToModel, ← map_id (_ >>= _)]
      refine decoding_bind hkey fun key _ => ?_
      -- And so do forgetting and going to a property.
      have hproperty : (schema.map TypedNode.node).bind (·.properties.lookup key) =
          (schema.bind (·.property key)).map TypedNode.node := by
        cases schema with
        | none => rfl
        | some node => exact (node.property_map_node key).symm
      have hitem := valueToModel_raw item (schema.bind (·.property key))
      rw [← map_id (Netfyr.valueToModel item _)] at hitem
      rw [id_eq, hproperty]
      refine decoding_bind hitem fun value _ => ?_
      rw [map_id]
      exact entriesToModel_raw entries schema _
end

end Decoding

section Validation

theorem property_raw (node : TypedNode) (key : String) :
    node.node.properties.lookup key = (node.property key).map TypedNode.node :=
  (node.property_map_node key).symm

theorem items_raw (node : TypedNode) : node.node.items = node.items.map TypedNode.node :=
  node.items_map_node.symm

mutual
/-- Validation along a typed node. -/
theorem walkNode_raw {fragment : String} {writableOnly : Bool} : (node : TypedNode) →
    (value : Value) → (path : String) →
    walkNode fragment writableOnly node.node value path =
      some (Netfyr.walkNode fragment writableOnly node value path)
  | node, value, path => by
      have haccepts : ∀ expected found,
          typeAccepts node.node expected found = Netfyr.typeAccepts node expected found :=
        fun _ _ => rfl
      rw [walkNode.eq_def, Netfyr.walkNode.eq_def]
      dsimp only
      rw [expectType_raw]
      dsimp only
      rw [haccepts]
      split
      · rfl
      · next htest =>
          rw [Bool.not_eq_false] at htest
          cases htype : node.fieldType with
          | integer =>
              -- The test has accepted an integer.
              rw [htype] at htest
              cases value with
              | u64 n => rfl
              | i64 n => rfl
              | _ => simp [Netfyr.typeAccepts, valueType] at htest
          | ipNetwork =>
              rw [htype] at htest
              cases value with
              | ipNetwork addr len => rfl
              | string text => rfl
              | _ => simp [Netfyr.typeAccepts, valueType] at htest
          | string =>
              cases value with
              | _ => rfl
          | object =>
              cases value with
              | map entries =>
                  dsimp only
                  rw [walkEntries_raw node entries path []]
                  rfl
              | _ => rfl
          | array =>
              cases value with
              | list items =>
                  dsimp only
                  rw [items_raw]
                  cases node.items with
                  | none => rfl
                  | some itemSchema => exact walkItems_raw itemSchema items path 0
              | _ => rfl
          | boolean =>
              cases value with
              | _ => rfl
          | ipAddress =>
              cases value with
              | _ => rfl
termination_by structural _ value => value
/-- The same for the entries of an object. -/
theorem walkEntries_raw {fragment : String} {writableOnly : Bool} : (node : TypedNode) →
    (entries : List (String × Value)) → (path : String) → (ignoreKeys : List String) →
    walkEntries fragment writableOnly node.node entries path ignoreKeys =
      some (Netfyr.walkEntries fragment writableOnly node entries path ignoreKeys)
  | _, [], _, _ => rfl
  | node, (key, value) :: entries, path, ignoreKeys => by
      rw [walkEntries, Netfyr.walkEntries, walkEntries_raw node entries path ignoreKeys]
      split
      · rfl
      · rw [property_raw]
        cases node.property key with
        | none =>
            dsimp only [Option.map_none]
            -- An undeclared key.
            have hopen : node.node.additionalProperties.getD false = node.isOpen := rfl
            rw [hopen]
            cases node.isOpen with
            | true => rfl
            | false => rfl
        | some prop =>
            simp only [Option.map_some, walkNode_raw prop value (joinPath path key)]
            rfl
termination_by structural _ entries => entries
/-- The same for the elements of an array. -/
theorem walkItems_raw {fragment : String} {writableOnly : Bool} : (node : TypedNode) →
    (items : List Value) → (path : String) → (index : Nat) →
    walkItems fragment writableOnly node.node items path index =
      some (Netfyr.walkItems fragment writableOnly node items path index)
  | _, [], _, _ => rfl
  | node, item :: items, path, index => by
      rw [walkItems, Netfyr.walkItems, walkNode_raw node item, walkItems_raw node items]
      rfl
termination_by structural _ items => items
end

end Validation

section Pruning

mutual
/-- Pruning along a typed node. -/
theorem pruneProperty_raw : (node : TypedNode) → (value : Value) → (path : String) →
    pruneProperty node.node value path = Netfyr.pruneProperty node value path
  | node, value, path => by
      rw [pruneProperty.eq_def, Netfyr.pruneProperty.eq_def]
      cases value with
      | map entries =>
          dsimp only
          rw [pruneEntries_raw node entries path]
      | list items =>
          dsimp only
          rw [items_raw]
          cases node.items with
          | none => rfl
          | some itemSchema =>
              dsimp only [Option.map_some]
              rw [pruneItems_raw itemSchema items path 0]
      | _ => rfl
termination_by structural _ value => value
/-- The same for the entries of an object. -/
theorem pruneEntries_raw : (node : TypedNode) → (entries : List (String × Value)) →
    (path : String) → pruneEntries node.node entries path = Netfyr.pruneEntries node entries path
  | _, [], _ => rfl
  | node, (key, value) :: entries, path => by
      rw [pruneEntries, Netfyr.pruneEntries, pruneEntries_raw node entries path, property_raw]
      cases node.property key with
      | none => rfl
      | some prop =>
          dsimp only [Option.map_some]
          rw [pruneProperty_raw prop value (joinPath path key)]
termination_by structural _ entries => entries
/-- The same for the elements of an array. -/
theorem pruneItems_raw : (node : TypedNode) → (items : List Value) → (path : String) →
    (index : Nat) → pruneItems node.node items path index = Netfyr.pruneItems node items path index
  | _, [], _, _ => rfl
  | node, item :: items, path, index => by
      rw [pruneItems.eq_def, Netfyr.pruneItems.eq_def]
      dsimp only
      rw [pruneItems_raw node items path (index + 1)]
      cases item with
      | map entries =>
          dsimp only
          rw [pruneEntries_raw node entries _]
      | _ => rfl
termination_by structural _ items => items
end

end Pruning

section Registries

variable {parse : String → Except String SchemaNode} {registry : SchemaRegistry}

theorem find?_raw {p : Netfyr.Fragment → Bool} {q : Fragment → Bool}
    (h : ∀ fragment, q fragment.raw = p fragment) (fragments : List Netfyr.Fragment) :
    (fragments.map Netfyr.Fragment.raw).find? q =
      (fragments.find? p).map Netfyr.Fragment.raw := by
  rw [List.find?_map]
  congr 2
  exact funext h

theorem base_raw : registry.raw.base = some registry.base.raw := by
  have hfind := find?_raw (p := fun f => f.triggerKey.isNone)
    (q := fun f : Fragment => f.triggerKey.isNone) (fun _ => rfl) registry.fragments
  rw [Registry.base]
  refine hfind.trans ?_
  rw [SchemaRegistry.base, ← Option.map_some, Option.some_get]

theorem triggered_raw (key : String) :
    registry.raw.triggered key = (registry.triggered key).map Netfyr.Fragment.raw :=
  find?_raw (fun _ => rfl) registry.fragments

theorem topLevelSchema_raw (key : String) :
    registry.raw.topLevelSchema key = some ((registry.topLevelSchema key).map TypedNode.node) := by
  rw [Registry.topLevelSchema, base_raw, triggered_raw, SchemaRegistry.topLevelSchema,
    Option.map_or, ← property_raw, Option.map_map, Option.map_map]
  rfl

/-- What was read of a device mapping, as the source keeps it. -/
def MappingParts.of (parts : Netfyr.MappingParts) : MappingParts :=
  { matchSpec := parts.matchSpec, deviceType := parts.deviceType, fields := parts.fields.entries }

/-- Reading one entry of a device mapping. -/
theorem readEntry_raw (parts : Netfyr.MappingParts) (entry : YamlValue × YamlValue) :
    (registry.raw.readEntry (.of parts) entry).run =
      some ((registry.readEntry parts entry).map MappingParts.of) := by
  have hlift : ∀ {α : Type} (x : Except Error α),
      (liftM x : Decoding α).run = some (x.map id) := by
    intro α x
    rw [map_id]
    rfl
  rw [Registry.readEntry, SchemaRegistry.readEntry]
  refine decoding_bind (hlift (keyToString entry.1)) fun key _ => ?_
  rw [id_eq]
  by_cases hmatch : key = "match"
  · rw [if_pos hmatch, if_pos hmatch]
    exact decoding_bind (hlift (parseMatch entry.2)) fun _ _ => rfl
  by_cases hkind : key = "kind"
  · rw [if_neg hmatch, if_neg hmatch, if_pos hkind, if_pos hkind]
    exact decoding_bind (hlift (parseKind entry.2)) fun _ _ => rfl
  by_cases htype : key = "type"
  · rw [if_neg hmatch, if_neg hmatch, if_neg hkind, if_neg hkind, if_pos htype, if_pos htype]
    cases entry.2.asStr with
    | none => rfl
    | some deviceType => rfl
  rw [if_neg hmatch, if_neg hmatch, if_neg hkind, if_neg hkind, if_neg htype, if_neg htype,
    topLevelSchema_raw]
  have hvalue := valueToModel_raw entry.2 (registry.topLevelSchema key)
  change Option.bind (valueToModel entry.2 _).run (ExceptT.bindCont _) = _
  rw [hvalue, Option.bind_some]
  split
  · next err herror =>
      simp only [herror]
      rfl
  · next value hok =>
      simp only [hok]
      rfl

/-- Reading a device mapping. -/
theorem mappingToParts_raw (entries : List (YamlValue × YamlValue)) :
    (registry.raw.mappingToParts entries).run =
      some ((registry.mappingToState entries).map fun state =>
        { matchSpec := state.matchSpec, deviceType := state.deviceType,
          fields := state.fields.entries }) := by
  have hfold : ∀ (entries : List (YamlValue × YamlValue)) (parts : Netfyr.MappingParts),
      (entries.foldlM registry.raw.readEntry (MappingParts.of parts)).run =
        some ((entries.foldlM registry.readEntry parts).map MappingParts.of) := by
    intro entries
    induction entries with
    | nil => exact fun _ => rfl
    | cons entry entries ih =>
        intro parts
        rw [List.foldlM_cons, List.foldlM_cons]
        exact decoding_bind (readEntry_raw parts entry) fun next _ => ih next
  rw [Registry.mappingToParts, SchemaRegistry.mappingToState]
  refine decoding_bind (hfold entries { matchSpec := {}, deviceType := "", fields := .empty })
    fun parts _ => ?_
  have himplied : registry.raw.impliedDeviceType parts.fields.entries =
      registry.impliedDeviceType parts.fields := by
    rw [Registry.impliedDeviceType, SchemaRegistry.impliedDeviceType, SchemaRegistry.raw,
      List.filter_map, List.findSome?_map]
    rfl
  simp only [MappingParts.of, himplied]
  rfl

/-- A sequence is present when both parts are. -/
theorem decoding_bind_isSome {α β : Type} {x : Decoding α} {f : α → Decoding β}
    (hx : x.run.isSome = true) (hf : ∀ a, (f a).run.isSome = true) :
    (x >>= f).run.isSome = true := by
  change (Option.bind x.run (ExceptT.bindCont f)).isSome = true
  rcases Option.isSome_iff_exists.mp hx with ⟨result, hresult⟩
  rw [hresult, Option.bind_some]
  cases result with
  | error err => rfl
  | ok a => exact hf a

/-- Reading a tree is never cut short. -/
theorem treeToParts_isSome (tree : YamlValue) :
    (registry.raw.treeToParts tree).run.isSome = true := by
  have hmapping : ∀ entries, (registry.raw.mappingToParts entries).run.isSome = true := by
    intro entries
    rw [mappingToParts_raw, Option.isSome_some]
  have hsequence : ∀ (items : List YamlValue) (index : Nat),
      (registry.raw.sequenceToParts items index).run.isSome = true := by
    intro items
    induction items with
    | nil => exact fun _ => rfl
    | cons item items ih =>
        intro index
        have hrest : ∀ parts, (registry.raw.sequenceToParts items (index + 1) >>= fun rest =>
            (pure (parts :: rest) : Decoding (List MappingParts))).run.isSome = true :=
          fun _ => decoding_bind_isSome (ih (index + 1)) fun _ => rfl
        unfold Registry.sequenceToParts
        cases item with
        | mapping entries => exact decoding_bind_isSome (hmapping entries) hrest
        | _ => exact decoding_bind_isSome rfl hrest
  unfold Registry.treeToParts
  cases tree with
  | mapping entries => exact decoding_bind_isSome (hmapping entries) fun _ => rfl
  | sequence items => exact hsequence items 0
  | _ => rfl

theorem walkMap_raw {fragment path : String} {writableOnly : Bool} {ignoreKeys : List String}
    (node : TypedNode) (entries : List (String × Value)) :
    walkMap fragment writableOnly node.node entries path ignoreKeys =
      some (Netfyr.walkMap fragment writableOnly node entries path ignoreKeys) := by
  rw [walkMap, walkEntries_raw]
  rfl

/-- Validating a state by one fragment. -/
theorem fragmentErrors_raw (state : State) (writableOnly : Bool) (fragment : Netfyr.Fragment) :
    registry.raw.fragmentErrors state writableOnly fragment.raw =
      some (registry.fragmentErrors state writableOnly fragment) := by
  have htriggers : registry.raw.fragments.filterMap Fragment.triggerKey = registry.triggerKeys := by
    rw [SchemaRegistry.raw, List.filterMap_map]
    rfl
  cases htrigger : fragment.triggerKey with
  | none =>
      -- A fragment without a trigger carries that it declares the device type.
      rcases Option.isSome_iff_exists.mp (fragment.hasType htrigger) with ⟨typeNode, hnode⟩
      have htype : fragment.raw.root.properties.lookup "type" = some typeNode.node :=
        (property_raw fragment.root "type").trans (congrArg (Option.map TypedNode.node) hnode)
      have hraw : fragment.raw.triggerKey = none := htrigger
      rw [Registry.fragmentErrors, hraw, htriggers,
        SchemaRegistry.fragmentErrors_base htrigger hnode]
      dsimp only
      rw [htype]
      change (walkMap fragment.name writableOnly fragment.root.node _ _ _).bind _ = _
      rw [walkMap_raw, Option.bind_some]
      split
      · rw [List.append_nil]
      · change (walkProperty fragment.name false typeNode.node _ _).bind _ = _
        rw [walkProperty, walkNode_raw]
        rfl
  | some key =>
      have hraw : fragment.raw.triggerKey = some key := htrigger
      rw [Registry.fragmentErrors, hraw, SchemaRegistry.fragmentErrors_triggered htrigger]
      dsimp only
      cases state.fields.get? key with
      | none => rfl
      | some value =>
          cases value with
          | map inner => exact walkMap_raw fragment.root inner
          | _ => rfl

/-- Validating a state. -/
theorem validateInner_raw (state : State) (writableOnly : Bool) :
    registry.raw.validateInner state writableOnly =
      some (registry.validateInner state writableOnly) := by
  rw [Registry.validateInner, SchemaRegistry.validateInner, SchemaRegistry.raw]
  -- No fragment is absent, so the list of their errors is there.
  have hall : ∀ fragments : List Netfyr.Fragment,
      ((fragments.map Netfyr.Fragment.raw).mapM
        (registry.raw.fragmentErrors state writableOnly)).map List.flatten =
        some (fragments.flatMap (registry.fragmentErrors state writableOnly)) := by
    intro fragments
    induction fragments with
    | nil => rfl
    | cons fragment fragments ih =>
        rw [List.map_cons, List.mapM_cons, fragmentErrors_raw]
        rcases Option.map_eq_some_iff.mp ih with ⟨rest, hrest, hflat⟩
        rw [hrest, List.flatMap_cons, ← hflat]
        rfl
  exact hall registry.fragments

/-- Pruning one top-level entry. -/
theorem pruneField_raw (key : String) (value : Value) :
    registry.raw.pruneField registry.base.raw key value = registry.pruneField key value := by
  rw [Registry.pruneField, SchemaRegistry.pruneField, triggered_raw]
  cases registry.triggered key with
  | some fragment =>
      dsimp only [Option.map_some]
      cases value with
      | map entries =>
          dsimp only
          rw [Netfyr.Fragment.raw, pruneEntries_raw]
      | _ => rfl
  | none =>
      dsimp only [Option.map_none, Netfyr.Fragment.raw]
      rw [property_raw]
      cases registry.base.root.property key with
      | none => rfl
      | some node => exact pruneProperty_raw node value _

/-- Pruning a state. -/
theorem removeReadOnlyFields_raw (state : State) :
    registry.raw.removeReadOnlyFields state =
      some ((registry.removeReadOnlyFields state).1.fields.entries,
        (registry.removeReadOnlyFields state).2) := by
  have hfields : ∀ entries : List (String × Value),
      registry.raw.pruneFields registry.base.raw entries = registry.pruneFields entries := by
    intro entries
    induction entries with
    | nil => rfl
    | cons entry entries ih =>
        rw [Registry.pruneFields, SchemaRegistry.pruneFields, pruneField_raw, ih]
  rw [Registry.removeReadOnlyFields, base_raw, Option.bind_eq_bind, Option.bind_some, hfields]
  rfl

theorem deriveSorted_raw (fragment : Netfyr.Fragment) :
    deriveSorted fragment.root.node = some fragment.fields := by
  have hderived := Option.some_get
    (deriveFields_isSome fragment.root.node "" [] fragment.root.valid)
  rw [deriveSorted, ← hderived]
  rfl

/-- Extending the first fragment of a name. -/
theorem updateFragment_raw (fragment path : String) (new : TypedNode) (name : String)
    (parents : List String) (fragments : List Netfyr.Fragment) :
    updateFragment fragment path new.node name parents (fragments.map Netfyr.Fragment.raw) =
      some ((Netfyr.updateFragment fragment (·.insertNode path new name parents) fragments).1,
        (Netfyr.updateFragment fragment (·.insertNode path new name parents) fragments).2.map
          Netfyr.Fragment.raw) := by
  induction fragments with
  | nil => rfl
  | cons candidate fragments ih =>
      rw [List.map_cons, updateFragment, Netfyr.updateFragment]
      by_cases hname : candidate.name = fragment
      · rw [if_pos (show candidate.raw.name = fragment from hname), if_pos hname]
        -- The typed fragment has no flat map of its own: it is what the new tree derives.
        have hsorted := deriveSorted_raw (candidate.insertNode path new name parents).2
        change deriveSorted (insertNode path new.node name parents candidate.root.node).2 = _
          at hsorted
        have hresult : (candidate.insertNode path new name parents).1 =
            (insertNode path new.node name parents candidate.root.node).1 := rfl
        have hroot : candidate.raw.root = candidate.root.node := rfl
        dsimp only
        rw [hresult, hroot]
        cases hinsert : (insertNode path new.node name parents candidate.root.node).1 with
        | error err =>
            -- A failed insertion leaves the tree, so its flat map is still right.
            have hsame : (candidate.insertNode path new name parents).2 = candidate :=
              Fragment.insertNode_error (hresult.trans hinsert)
            have hroot : (insertNode path new.node name parents candidate.root.node).2 =
                candidate.root.node := insertNode_error hinsert
            dsimp only
            rw [hsame, List.map_cons]
            congr 4
        | ok _ =>
            dsimp only
            rw [hsorted]
            rfl
      · rw [if_neg (show ¬ candidate.raw.name = fragment from hname), if_neg hname, ih]
        rfl

/-- Adding a checked node. -/
theorem addNode_raw {json : String} (fragment path : String) (node : TypedNode)
    (hparse : parse json = .ok node.node) :
    registry.raw.addSchemaNode parse fragment path json =
      some ((registry.addNode fragment path node).1,
        (registry.addNode fragment path node).2.raw) := by
  rw [Registry.addSchemaNode, hparse]
  dsimp only
  rw [node.valid]
  dsimp only
  unfold SchemaRegistry.addNode
  by_cases hparts : splitPath path = [] ∨ "" ∈ splitPath path
  · simp only [if_pos hparts]
  · -- The same fragment is found, and the same collision with a trigger.
    have hfind : (registry.raw.fragments.find? fun f => f.name == fragment) =
        (registry.fragments.find? fun f => f.name == fragment).map Netfyr.Fragment.raw :=
      find?_raw (fun _ => rfl) registry.fragments
    have hany : (registry.raw.fragments.any fun f =>
        f.triggerKey == some ((splitPath path).headD "")) =
        registry.fragments.any fun f => f.triggerKey == some ((splitPath path).headD "") := by
      rw [SchemaRegistry.raw, List.any_map]
      rfl
    -- The path is not empty, so it has a last component.
    have hlast : (splitPath path).getLast? = some ((splitPath path).getLastD "") := by
      push Not at hparts
      rw [List.getLastD_eq_getLast?, List.getLast?_eq_some_getLast hparts.1, Option.getD_some]
    have hupdate := updateFragment_raw fragment path node ((splitPath path).getLastD "")
      (splitPath path).dropLast registry.fragments
    simp only [if_neg hparts]
    rw [hfind, hany, hlast]
    cases registry.fragments.find? fun f => f.name == fragment with
    | none =>
        dsimp only [Option.map_none, Bool.false_and]
        refine (congrArg (Option.bind · _) hupdate).trans ?_
        rfl
    | some f =>
        dsimp only [Option.map_some]
        by_cases hcollides : (f.triggerKey.isNone && registry.fragments.any fun f =>
            f.triggerKey == some ((splitPath path).headD "")) = true
        · rw [if_pos hcollides]
          exact if_pos hcollides
        · rw [if_neg hcollides]
          refine (if_neg hcollides).trans ?_
          refine (congrArg (Option.bind · _) hupdate).trans ?_
          rfl

/-- Extending a registry. -/
theorem addSchemaNode_raw (fragment path json : String) :
    registry.raw.addSchemaNode parse fragment path json =
      some ((registry.addSchemaNode parse fragment path json).1,
        (registry.addSchemaNode parse fragment path json).2.raw) := by
  unfold SchemaRegistry.addSchemaNode
  cases hparse : parse json with
  | error err =>
      rw [Registry.addSchemaNode, hparse]
  | ok node =>
      dsimp only
      split
      · next err herror =>
          rw [Registry.addSchemaNode, hparse]
          dsimp only
          rw [herror]
      · next hvalid => exact addNode_raw fragment path ⟨node, hvalid⟩ hparse

theorem parseFragment_raw (fragment : Netfyr.Fragment) :
    parseFragment fragment.name fragment.root.node fragment.triggerKey = some fragment.raw := by
  rw [parseFragment, fragment.root.valid]
  dsimp only
  rw [deriveSorted_raw]
  rfl

/-- The embedded fragments. -/
theorem new_raw : Registry.new = some SchemaRegistry.new.raw := by
  -- The embedded schemas are typed ones, which their checks have shown.
  have hbase := parseFragment_raw
    { name := "base", triggerKey := none, root := ⟨baseJson, rfl⟩, hasType := fun _ => rfl }
  have hipv4 := parseFragment_raw
    { name := "ipv4", triggerKey := some "ipv4", root := ⟨ipv4Json, rfl⟩,
      hasType := fun h => absurd h (Option.some_ne_none _) }
  have hethernet := parseFragment_raw
    { name := "ethernet", triggerKey := some "ethernet", root := ⟨ethernetJson, rfl⟩,
      hasType := fun h => absurd h (Option.some_ne_none _) }
  dsimp only at hbase hipv4 hethernet
  rw [Registry.new, hbase, hipv4, hethernet]
  rfl

/-- A registry that the source reaches is a typed one, forgotten. -/
theorem Registry.Reachable.exists_raw {registry : Registry}
    (h : Registry.Reachable parse registry) :
    ∃ typed : SchemaRegistry, SchemaRegistry.Reachable parse typed ∧ registry = typed.raw := by
  induction h with
  | new hnew =>
      rw [new_raw] at hnew
      exact ⟨SchemaRegistry.new, .new, (Option.some.inj hnew).symm⟩
  | @extend registry extended fragment path json _ hextend ih =>
      rcases ih with ⟨typed, htyped, rfl⟩
      rw [addSchemaNode_raw, Option.some.injEq, Prod.mk.injEq] at hextend
      exact ⟨(typed.addSchemaNode parse fragment path json).2,
        .extend htyped (Prod.ext hextend.1 rfl), hextend.2.symm⟩

/-- Extending a registry that the source reaches is never cut short. -/
theorem Registry.Reachable.addSchemaNode_isSome {registry : Registry}
    (h : Registry.Reachable parse registry) (fragment path json : String) :
    (registry.addSchemaNode parse fragment path json).isSome = true := by
  rcases h.exists_raw with ⟨typed, _, rfl⟩
  rw [addSchemaNode_raw, Option.isSome_some]

end Registries

end Raw

end Netfyr
