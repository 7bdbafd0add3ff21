import Netfyr.Schema.Extension
import Netfyr.Schema.Validate

/-!
# Conservative Extensions

What a call that adds a schema node does to a registry, for registries built by
any calls, refused ones included. A refused call leaves the registry as it was.
One that succeeds changes one fragment: its flat map gains what the call
inserted, and a state without an entry where the call created its first
component is validated as before, because the walk never meets what is new.

## Main definitions

* `entryAt`: The value at a path of keys.
* `SchemaRegistry.Extended`: Registries built by any calls.
* `SchemaRegistry.Conserves`: What a successful call does.

## Theorems

* `walkEntries_insertNode`: What an insertion leaves of validation.
* `SchemaRegistry.addSchemaNode_cases`: A call is refused or goes as far as the
  tree.
* `SchemaRegistry.addSchemaNode_conservative`: A call, on a registry.
-/

namespace Netfyr

/-- The value at a path of keys. -/
def entryAt : List String → Value → Option Value
  | [], value => some value
  | key :: keys, .map entries => (entries.lookup key).bind (entryAt keys)
  | _ :: _, _ => none

section Validation

variable {fragment path name : String} {writableOnly : Bool} {parts : List String}
  {new : TypedNode} {old extended : TypedNode}

/-- Nodes that differ in their properties have one type. -/
theorem fieldType_congr {properties : List (String × SchemaNode)}
    (h : extended.node = { old.node with properties }) : extended.fieldType = old.fieldType := by
  have htype : semanticType extended.node = semanticType old.node := by
    rw [h]
    rfl
  rw [extended.semanticType_node, old.semanticType_node] at htype
  exact Except.ok.inj htype

theorem isOpen_congr {properties : List (String × SchemaNode)}
    (h : extended.node = { old.node with properties }) : extended.isOpen = old.isOpen := by
  rw [TypedNode.isOpen, TypedNode.isOpen, h]

/-- At another key the properties are what they were. -/
theorem property_setProperty {part key : String} {property : SchemaNode}
    (h : extended.node = old.node.setProperty part property) (hne : key ≠ part) :
    extended.property key = old.property key := by
  refine TypedNode.property_congr ?_
  rw [h]
  exact Assoc.lookup_insert.trans (if_neg hne)

/-- Nodes that differ in their properties walk alike where their entries do. -/
theorem walkNode_congr {properties : List (String × SchemaNode)} {value : Value}
    {location : String} (h : extended.node = { old.node with properties })
    (hentries : ∀ entries, value = .map entries →
      walkEntries fragment writableOnly extended entries location [] =
        walkEntries fragment writableOnly old entries location []) :
    walkNode fragment writableOnly extended value location =
      walkNode fragment writableOnly old value location := by
  have htype := fieldType_congr h
  have hformat : extended.node.format = old.node.format := by rw [h]
  have hminimum : extended.node.minimum = old.node.minimum := by rw [h]
  have hmaximum : extended.node.maximum = old.node.maximum := by rw [h]
  have henum : extended.node.enum = old.node.enum := by rw [h]
  have hrequired : extended.node.required = old.node.required := by rw [h]
  have hitems : extended.items = old.items := by
    have hnode : extended.node.items = old.node.items := by rw [h]
    simp only [TypedNode.items, hnode]
  rw [walkNode.eq_def, walkNode.eq_def]
  unfold typeAccepts rangeErrors enumErrors missingErrors
  rw [htype, hformat, hminimum, hmaximum, henum, hrequired, hitems]
  -- Only an object that is a map looks at the properties.
  generalize old.fieldType = fieldType
  cases value with
  | map entries =>
      cases fieldType with
      | object =>
          dsimp only
          rw [hentries entries rfl]
      | _ => rfl
  | _ =>
      cases fieldType with
      | _ => rfl

/-- Nodes walk a map alike whose properties walk its entries alike. -/
theorem walkEntries_congr {entries : List (String × Value)} {location : String}
    {ignoreKeys : List String} (hopen : extended.isOpen = old.isOpen)
    (h : ∀ entry ∈ entries, extended.property entry.1 = old.property entry.1 ∨
      ∃ a b, extended.property entry.1 = some a ∧ old.property entry.1 = some b ∧
        a.node.writable = b.node.writable ∧
          walkNode fragment writableOnly a entry.2 (joinPath location entry.1) =
            walkNode fragment writableOnly b entry.2 (joinPath location entry.1)) :
    walkEntries fragment writableOnly extended entries location ignoreKeys =
      walkEntries fragment writableOnly old entries location ignoreKeys := by
  induction entries with
  | nil => rfl
  | cons entry entries ih =>
      rcases entry with ⟨key, value⟩
      rw [List.forall_mem_cons] at h
      rw [walkEntries, walkEntries, ih h.2, hopen]
      congr 2
      rcases h.1 with hsame | ⟨a, b, ha, hb, hwritable, hwalk⟩
      · dsimp only at hsame
        rw [hsame]
      · dsimp only at ha hb hwalk
        rw [ha, hb]
        dsimp only
        rw [hwalk, readOnlyErrors, readOnlyErrors, hwritable]

/-- A map without an entry where an insertion creates its first component is
    walked as before. -/
theorem walkEntries_insertNode {entries : List (String × Value)} {location : String}
    {ignoreKeys : List String}
    (hok : (insertNode path new.node name parts old.node).1 = .ok ())
    (hextended : extended.node = (insertNode path new.node name parts old.node).2)
    (hkeyed : (Value.map entries).WellKeyed)
    (hentry : entryAt (firstCreated name old.node parts) (.map entries) = none) :
    walkEntries fragment writableOnly extended entries location ignoreKeys =
      walkEntries fragment writableOnly old entries location ignoreKeys := by
  induction parts generalizing old extended entries location ignoreKeys with
  | nil =>
      rw [(insertNode_nil_ok hok).2] at hextended
      refine walkEntries_congr (isOpen_congr hextended) ?_
      intro entry hmem
      -- The map has no entry of the name that was added, so every key finds what it found.
      refine Or.inl (property_setProperty hextended ?_)
      intro heq
      rw [firstCreated, entryAt, Option.bind_eq_none_iff] at hentry
      have hlookup := Assoc.lookup_of_mem hkeyed.1 hmem
      rw [heq] at hlookup
      exact absurd (hentry _ hlookup) (by simp only [entryAt, reduceCtorEq, not_false_eq_true])
  | cons part parts ih =>
      rcases insertNode_cons_ok hok with ⟨child, hchild, _, hrest, heq⟩
      rw [heq] at hextended
      refine walkEntries_congr (isOpen_congr hextended) ?_
      rintro ⟨key, value⟩ hmem
      by_cases hkey : key = part
      · subst hkey
        have hlookup := Assoc.lookup_of_mem hkeyed.1 hmem
        rw [firstCreated] at hentry
        cases hproperty : old.node.properties.lookup key with
        | none =>
            rw [hproperty] at hentry
            dsimp only at hentry
            rw [entryAt, hlookup] at hentry
            -- The component was created here, where the map has no entry.
            exact absurd hentry (by simp only [Option.bind_some, entryAt, reduceCtorEq,
              not_false_eq_true])
        | some node =>
            rw [hproperty] at hentry hchild
            rw [Option.getD_some] at hchild
            subst hchild
            dsimp only at hentry
            rw [entryAt, hlookup, Option.bind_some] at hentry
            -- The component is there, and is walked as before.
            have hnew : extended.node.properties.lookup key =
                some (insertNode path new.node name parts node).2 := by
              rw [hextended]
              exact Assoc.lookup_insert.trans (if_pos rfl)
            have hold : old.property key = some ⟨node, old.valid_property hproperty⟩ := by
              simp only [TypedNode.property, hproperty, Option.pmap_some]
            have hnewProperty : extended.property key =
                some ⟨_, extended.valid_property hnew⟩ := by
              simp only [TypedNode.property, hnew, Option.pmap_some]
            refine Or.inr ⟨_, _, hnewProperty, hold, ?_, ?_⟩
            · rcases insertNode_eq with ⟨properties, hproperties⟩
              dsimp only
              rw [hproperties]
            · rcases insertNode_eq with ⟨properties, hproperties⟩
              -- The component differs in its properties only, and its entries are walked alike.
              refine walkNode_congr hproperties ?_
              rintro inner rfl
              have hinner : (Value.map inner).WellKeyed :=
                Value.wellKeyedEntries_iff.mp hkeyed.2 (key, .map inner) hmem
              exact ih hrest rfl hinner hentry
      · exact Or.inl (property_setProperty hextended hkey)

end Validation

/-- A refused insertion changes nothing of a fragment. -/
theorem Fragment.insertNode_error {fragment : Fragment} {path name err : String}
    {new : TypedNode} {parts : List String}
    (h : (fragment.insertNode path new name parts).1 = .error err) :
    (fragment.insertNode path new name parts).2 = fragment := by
  rcases fragment with ⟨own, triggerKey, ⟨node, valid⟩, hasType⟩
  -- The proof that the root is valid goes with the root.
  have hnode : (Netfyr.insertNode path new.node name parts node).2 = node :=
    Netfyr.insertNode_error h
  unfold Fragment.insertNode
  simp only [hnode]

section Update

variable {name : String} {update : Fragment → Except String Unit × Fragment}
  {fragments : List Fragment}

/-- A refused update changes no fragment. -/
theorem updateFragment_error {err : String}
    (hupdate : ∀ fragment err, (update fragment).1 = .error err → (update fragment).2 = fragment)
    (h : (updateFragment name update fragments).1 = .error err) :
    (updateFragment name update fragments).2 = fragments := by
  induction fragments with
  | nil => rfl
  | cons fragment fragments ih =>
      rw [updateFragment] at h ⊢
      split
      · next hname =>
          rw [if_pos hname] at h
          dsimp only at h ⊢
          rw [hupdate fragment err h]
      · next hname =>
          rw [if_neg hname] at h
          dsimp only at h ⊢
          rw [ih h]

/-- An update that succeeds is one of the first fragment of the name. -/
theorem updateFragment_ok (h : (updateFragment name update fragments).1 = .ok ()) :
    ∃ before target rest, fragments = before ++ target :: rest ∧
      (∀ fragment ∈ before, fragment.name ≠ name) ∧ target.name = name ∧
        (update target).1 = .ok () ∧
          (updateFragment name update fragments).2 = before ++ (update target).2 :: rest := by
  induction fragments with
  | nil => exact absurd h (by simp only [updateFragment, reduceCtorEq, not_false_eq_true])
  | cons fragment fragments ih =>
      rw [updateFragment] at h ⊢
      by_cases hname : fragment.name = name
      · rw [if_pos hname] at h
        rw [if_pos hname]
        have hnone : ∀ fragment ∈ ([] : List Fragment), fragment.name ≠ name :=
          fun _ hmem => absurd hmem List.not_mem_nil
        exact ⟨[], fragment, fragments, rfl, hnone, hname, h, rfl⟩
      · rw [if_neg hname] at h
        rw [if_neg hname]
        rcases ih h with ⟨before, target, rest, heq, hbefore, htarget, hok, hupdated⟩
        refine ⟨fragment :: before, target, rest, ?_, ?_, htarget, hok, ?_⟩
        · rw [heq, List.cons_append]
        · exact List.forall_mem_cons.mpr ⟨hname, hbefore⟩
        · dsimp only
          rw [hupdated, List.cons_append]

end Update

namespace SchemaRegistry

variable {parse : String → Except String SchemaNode} {registry : SchemaRegistry}

theorem ext_fragments {a b : SchemaRegistry} (h : a.fragments = b.fragments) : a = b := by
  cases a
  cases b
  cases h
  rfl

/-- What a call does that goes as far as the tree. -/
structure Inserts (registry after : SchemaRegistry) (fragment path : String) (node : TypedNode)
    (before : List Fragment) (target : Fragment) (rest : List Fragment) : Prop where
  nonempty : "" ∉ splitPath path
  split : (splitPath path).dropLast ++ [(splitPath path).getLastD ""] = splitPath path
  fragments : registry.fragments = before ++ target :: rest
  others : ∀ other ∈ before, other.name ≠ fragment
  name : target.name = fragment
  ok : (insertNode path node.node ((splitPath path).getLastD "") (splitPath path).dropLast
    target.root.node).1 = .ok ()
  updated : after.fragments = before ++ (target.insertNode path node
    ((splitPath path).getLastD "") (splitPath path).dropLast).2 :: rest

/-- A call either changes nothing, or goes as far as the tree and succeeds. -/
theorem addNode_cases (registry : SchemaRegistry) (fragment path : String) (node : TypedNode) :
    (∃ err, registry.addNode fragment path node = (.error err, registry)) ∨
      (registry.addNode fragment path node).1 = .ok () ∧ ∃ before target rest,
        registry.Inserts (registry.addNode fragment path node).2 fragment path node before target
          rest := by
  unfold addNode
  dsimp only
  by_cases hparts : splitPath path = [] ∨ "" ∈ splitPath path
  · rw [if_pos hparts]
    exact Or.inl ⟨_, rfl⟩
  · rw [if_neg hparts]
    rw [not_or] at hparts
    have hpath : (splitPath path).dropLast ++ [(splitPath path).getLastD ""] =
        splitPath path := by
      rw [List.getLastD_eq_getLast?, List.getLast?_eq_some_getLast hparts.1, Option.getD_some,
        List.dropLast_append_getLast]
    -- A collision with a trigger refuses the call as well.
    have hite : ∀ (collides : Bool) (refused extended : Except String Unit × SchemaRegistry),
        (∃ err, refused = (.error err, registry)) →
        ((∃ err, extended = (.error err, registry)) ∨
          extended.1 = .ok () ∧ ∃ before target rest,
            registry.Inserts extended.2 fragment path node before target rest) →
        ((∃ err, (if collides = true then refused else extended) = (.error err, registry)) ∨
          (if collides = true then refused else extended).1 = .ok () ∧ ∃ before target rest,
            registry.Inserts (if collides = true then refused else extended).2 fragment path node
              before target rest) := by
      intro collides refused extended hrefused hextended
      cases collides with
      | true => exact Or.inl hrefused
      | false => exact hextended
    refine hite _ _ _ ⟨_, rfl⟩ ?_
    cases hresult : (updateFragment fragment (fun f => f.insertNode path node
        ((splitPath path).getLastD "") (splitPath path).dropLast) registry.fragments).1 with
    | error err =>
        -- The tree refused it, and is as it was.
        have hsame := updateFragment_error (fun _ _ => Fragment.insertNode_error) hresult
        exact Or.inl ⟨err, Prod.ext rfl (ext_fragments hsame)⟩
    | ok =>
        rcases updateFragment_ok hresult with
          ⟨before, target, rest, heq, hbefore, htarget, hok, hupdated⟩
        exact Or.inr ⟨rfl, before, target, rest,
          ⟨hparts.2, hpath, heq, hbefore, htarget, hok, hupdated⟩⟩

/-- The same for a call that reads the node from text. -/
theorem addSchemaNode_cases {fragment path json : String} :
    (∃ err, registry.addSchemaNode parse fragment path json = (.error err, registry)) ∨
      (registry.addSchemaNode parse fragment path json).1 = .ok () ∧
        ∃ node : TypedNode, parse json = .ok node.node ∧ ∃ before target rest,
          registry.Inserts (registry.addSchemaNode parse fragment path json).2 fragment path node
            before target rest := by
  unfold addSchemaNode
  cases hparse : parse json with
  | error err => exact Or.inl ⟨_, rfl⟩
  | ok node =>
      dsimp only
      split
      · exact Or.inl ⟨_, rfl⟩
      · next hvalid =>
          have hnode := registry.addNode_cases fragment path ⟨node, hvalid⟩
          rcases hnode with hrefused | ⟨hok, hinserts⟩
          · exact Or.inl hrefused
          · exact Or.inr ⟨hok, ⟨node, hvalid⟩, rfl, hinserts⟩

/-- The registries built from the embedded one by any calls, refused ones
    included, with property names that are distinct and have no dots. -/
inductive Extended (parse : String → Except String SchemaNode) : SchemaRegistry → Prop where
  | new : Extended parse new
  | call {registry : SchemaRegistry} (fragment path json : String) : Extended parse registry →
      (∀ node, parse json = .ok node → node.Named) →
      Extended parse (registry.addSchemaNode parse fragment path json).2

/-- What a successful call does, that adds a node to the fragment `target`. -/
structure Conserves (registry after : SchemaRegistry) (fragment path : String)
    (node : TypedNode) (target : Fragment) : Prop where
  /-- The flat map of the fragment gains the fields of the node and of the
      parents that were created; a path that had a field keeps it. -/
  fields : ∀ key, after.fieldInfo fragment key = (registry.fieldInfo fragment key).or
    ((newFields node path
      (createdParents target.root.node "" (splitPath path).dropLast)).lookup key)
  /-- Without `items` on the way no such path had a field. -/
  fresh : ¬ ItemsOnTheWay target.root.node (splitPath path).dropLast →
    ∀ key, ((newFields node path
      (createdParents target.root.node "" (splitPath path).dropLast)).lookup key).isSome = true →
        registry.fieldInfo fragment key = none
  /-- The other fragments have the fields they had. -/
  others : ∀ other, other ≠ fragment → ∀ key,
    after.fieldInfo other key = registry.fieldInfo other key
  /-- A state without an entry at the first component that was created is
      validated as before. -/
  validation : ∀ state : State,
    entryAt (target.triggerKey.toList ++ firstCreated ((splitPath path).getLastD "")
      target.root.node (splitPath path).dropLast) (.map state.fields.entries) = none →
        after.validate state = registry.validate state ∧
          after.validateWritable state = registry.validateWritable state

namespace Extended

/-- A refused call adds nothing, so the registry is one of successful calls. -/
theorem reachable (hext : Extended parse registry) : Reachable parse registry := by
  induction hext with
  | new => exact .new
  | call fragment path json _ _ ih =>
      rcases addSchemaNode_cases with ⟨err, hrefused⟩ | ⟨hok, _⟩
      · rw [hrefused]
        exact ih
      · exact .extend ih (Prod.ext hok rfl)

/-- The names in every fragment are distinct and have no dots, and those at the
    top are not empty. -/
theorem named (hext : Extended parse registry) : ∀ fragment ∈ registry.fragments,
    fragment.root.node.Named ∧ "" ∉ Assoc.keys fragment.root.node.properties := by
  induction hext with
  | new => decide
  | call fragment path json _ hnamed ih =>
      rcases addSchemaNode_cases with ⟨err, hrefused⟩ | ⟨_, node, hparse, before, target, rest, h⟩
      · rw [hrefused]
        exact ih
      · rw [h.fragments, List.forall_mem_append, List.forall_mem_cons] at ih
        rw [h.updated, List.forall_mem_append, List.forall_mem_cons]
        refine ⟨ih.1, ⟨?_, ?_⟩, ih.2.2⟩
        · -- Only the fragment that the call names has changed.
          refine insertNode_named ih.2.1.1 (hnamed _ hparse) ?_ h.ok
          rw [h.split]
          exact splitPath_dotless
        · rw [← Assoc.lookup_isSome, Option.not_isSome_iff_eq_none]
          refine lookup_insertNode_none ?_ ?_
          · rw [← Option.not_isSome_iff_eq_none, Assoc.lookup_isSome]
            exact ih.2.1.2
          · rw [h.split]
            intro hempty
            have hnonempty := h.nonempty
            cases hsplit : splitPath path with
            | nil =>
                have hlength := congrArg List.length h.split
                rw [hsplit] at hlength
                exact absurd hlength (by decide)
            | cons head parts =>
                rw [hsplit] at hempty hnonempty
                exact hnonempty (hempty ▸ List.mem_cons_self)

end Extended

section Conserves

variable {after : SchemaRegistry} {fragment path : String} {node : TypedNode}
  {before rest : List Fragment} {target : Fragment} {state : State} {writableOnly : Bool}

theorem Inserts.find (h : registry.Inserts after fragment path node before target rest) :
    (registry.fragments.find? fun f => f.name == fragment) = some target ∧
      (after.fragments.find? fun f => f.name == fragment) =
        some (target.insertNode path node ((splitPath path).getLastD "")
          (splitPath path).dropLast).2 := by
  -- A fragment is found by its name, and this is the first of it.
  have hbefore : (before.find? fun f => f.name == fragment) = none := by
    rw [List.find?_eq_none]
    intro other hmem heq
    exact h.others other hmem (beq_iff_eq.mp heq)
  rw [h.fragments, h.updated, List.find?_append, List.find?_append, hbefore, Option.none_or,
    Option.none_or]
  exact ⟨List.find?_cons_of_pos (beq_iff_eq.mpr h.name),
    List.find?_cons_of_pos (beq_iff_eq.mpr h.name)⟩

/-- The violations of a fragment depend on the registry by its triggers only. -/
theorem fragmentErrors_congr {other : SchemaRegistry}
    (h : other.triggerKeys = registry.triggerKeys) (f : Fragment) :
    other.fragmentErrors state writableOnly f = registry.fragmentErrors state writableOnly f := by
  unfold fragmentErrors
  rw [h]

/-- A map that lies beside what an insertion creates is walked as before, its
    missing keys included. -/
theorem walkMap_insertNode {name location : String} {entries : List (String × Value)}
    {ignoreKeys parts : List String} {own : String} {extended old : TypedNode}
    (hok : (insertNode path node.node own parts old.node).1 = .ok ())
    (hextended : extended.node = (insertNode path node.node own parts old.node).2)
    (hkeyed : (Value.map entries).WellKeyed)
    (hentry : entryAt (firstCreated own old.node parts) (.map entries) = none) :
    walkMap name writableOnly extended entries location ignoreKeys =
      walkMap name writableOnly old entries location ignoreKeys := by
  have hrequired : extended.node.required = old.node.required := by
    rcases insertNode_eq with ⟨properties, hproperties⟩
    rw [hextended, hproperties]
  rw [walkMap, walkMap, walkEntries_insertNode hok hextended hkeyed hentry, missingErrors,
    missingErrors, hrequired]

theorem fragmentErrors_base {f : Fragment} {typeNode : TypedNode} (h : f.triggerKey = none)
    (htype : f.root.property "type" = some typeNode) :
    registry.fragmentErrors state writableOnly f =
      walkMap f.name writableOnly f.root state.fields.entries "" registry.triggerKeys ++
        if state.deviceType = "" then []
        else walkProperty f.name false typeNode (.string state.deviceType) "type" := by
  rw [fragmentErrors]
  split
  · next hnone =>
      have hnode : f.typeNode hnone = typeNode :=
        Option.some.inj ((Option.some_get (f.hasType hnone)).trans htype)
      rw [hnode]
  · next key hkey =>
      rw [h] at hkey
      exact absurd hkey (by simp only [reduceCtorEq, not_false_eq_true])

theorem fragmentErrors_triggered {f : Fragment} {key : String} (h : f.triggerKey = some key) :
    registry.fragmentErrors state writableOnly f =
      match state.fields.get? key with
      | some (.map inner) => walkMap f.name writableOnly f.root inner key []
      | some other => [.wrongType f.name key .object (valueType other)]
      | none => [] := by
  rw [fragmentErrors]
  split
  · next hnone =>
      rw [h] at hnone
      exact absurd hnone (by simp only [reduceCtorEq, not_false_eq_true])
  · next key' hkey =>
      have hsame : key = key' := Option.some.inj (h.symm.trans hkey)
      subst hsame
      rfl

/-- The fragment that a call changed finds the violations it found. -/
theorem fragmentErrors_insertNode (hreach : Reachable parse registry)
    (h : registry.Inserts after fragment path node before target rest)
    (hentry : entryAt (target.triggerKey.toList ++ firstCreated ((splitPath path).getLastD "")
      target.root.node (splitPath path).dropLast) (.map state.fields.entries) = none) :
    registry.fragmentErrors state writableOnly (target.insertNode path node
        ((splitPath path).getLastD "") (splitPath path).dropLast).2 =
      registry.fragmentErrors state writableOnly target := by
  have hmem : target ∈ registry.fragments := by
    rw [h.fragments]
    exact List.mem_append_right before List.mem_cons_self
  -- Whatever map is walked with the root, it is walked as before.
  have hmap : ∀ {name location : String} {entries : List (String × Value)}
      {ignoreKeys : List String}, (Value.map entries).WellKeyed →
      entryAt (firstCreated ((splitPath path).getLastD "") target.root.node
        (splitPath path).dropLast) (.map entries) = none →
      walkMap name writableOnly (target.insertNode path node ((splitPath path).getLastD "")
          (splitPath path).dropLast).2.root entries location ignoreKeys =
        walkMap name writableOnly target.root entries location ignoreKeys := by
    intro name location entries ignoreKeys hkeyed hentry
    exact walkMap_insertNode h.ok rfl hkeyed hentry
  have htriggerKey : (target.insertNode path node ((splitPath path).getLastD "")
      (splitPath path).dropLast).2.triggerKey = target.triggerKey := rfl
  cases htrigger : target.triggerKey with
  | none =>
      rw [htrigger, Option.toList_none, List.nil_append] at hentry
      -- The device type is a scalar, which no insertion changes.
      have hbase : target = registry.base :=
        registry.eq_of_triggerKey_eq hmem registry.base_mem
          (htrigger.trans registry.base_triggerKey.symm)
      have htype : target.root.node.properties.lookup "type" = some { type := some .string } := by
        rw [hbase]
        exact hreach.base_lookup rfl
      have hsame : (target.insertNode path node ((splitPath path).getLastD "")
          (splitPath path).dropLast).2.root.property "type" = target.root.property "type" := by
        refine TypedNode.property_congr ?_
        rw [htype]
        exact lookup_insertNode htype (by decide)
      rcases Option.isSome_iff_exists.mp (target.hasType htrigger) with ⟨typeNode, hnode⟩
      rw [fragmentErrors_base htrigger hnode, fragmentErrors_base (htriggerKey.trans htrigger)
        (hsame.trans hnode), hmap state.fields.wellKeyed hentry]
      rfl
  | some key =>
      -- A fragment with a trigger looks at the map under it, if there is one.
      rw [htrigger, Option.toList_some, List.singleton_append, entryAt] at hentry
      rw [fragmentErrors_triggered htrigger,
        fragmentErrors_triggered (htriggerKey.trans htrigger)]
      cases hget : state.fields.get? key with
      | none => rfl
      | some value =>
          have hlookup : state.fields.entries.lookup key = some value := hget
          rw [hlookup, Option.bind_some] at hentry
          cases value with
          | map inner => exact hmap (FieldMap.get?_wellKeyed hget) hentry
          | _ => rfl

/-- A call that goes as far as the tree is conservative. -/
theorem Inserts.conserves (hext : Extended parse registry)
    (h : registry.Inserts after fragment path node before target rest) :
    registry.Conserves after fragment path node target := by
  have hmem : target ∈ registry.fragments := by
    rw [h.fragments]
    exact List.mem_append_right before List.mem_cons_self
  have hnamed := hext.named target hmem
  have hparts : ∀ part ∈ (splitPath path).dropLast ++ [(splitPath path).getLastD ""],
      Dotless part ∧ part ≠ "" := by
    rw [h.split]
    intro part hpart
    exact ⟨splitPath_dotless part hpart, fun hempty => h.nonempty (hempty ▸ hpart)⟩
  have hpath : ((splitPath path).dropLast ++ [(splitPath path).getLastD ""]).foldl joinPath "" =
      path := by
    rw [h.split]
    exact splitPath_join h.nonempty
  have hroot : "" ≠ "" ∨ "" ∉ Assoc.keys target.root.node.properties := Or.inr hnamed.2
  have hfind := h.find
  -- A call adds no fragment, and changes no trigger.
  have htriggers : after.triggerKeys = registry.triggerKeys := by
    unfold triggerKeys
    rw [h.updated, h.fragments, List.filterMap_append, List.filterMap_append, List.filterMap_cons,
      List.filterMap_cons]
    rfl
  refine ⟨?_, ?_, ?_, ?_⟩
  · intro key
    have hfields := fieldAt_insertNode key hnamed.1 hroot hparts h.ok
    rw [hpath] at hfields
    rw [fieldInfo, fieldInfo, hfind.1, hfind.2, Option.bind_some, Option.bind_some,
      Fragment.lookup_fields, Fragment.lookup_fields]
    exact hfields
  · intro hitems key hkey
    rw [fieldInfo, hfind.1, Option.bind_some, Fragment.lookup_fields]
    refine fieldAt_eq_none hnamed.1 hroot hparts h.ok hitems ?_
    rw [hpath]
    exact hkey
  · intro other hother key
    have hne : (target.name == other) = false := by
      rw [beq_eq_false_iff_ne, h.name]
      exact Ne.symm hother
    have hname : (target.insertNode path node ((splitPath path).getLastD "")
        (splitPath path).dropLast).2.name = target.name := rfl
    have hfind : (after.fragments.find? fun f => f.name == other) =
        registry.fragments.find? fun f => f.name == other := by
      rw [h.updated, h.fragments, List.find?_append, List.find?_append, List.find?_cons,
        List.find?_cons, hname, hne]
    rw [fieldInfo, fieldInfo, hfind]
  · intro state hentry
    have hinner : ∀ writableOnly,
        after.validateInner state writableOnly = registry.validateInner state writableOnly := by
      intro writableOnly
      -- The other fragments see the same triggers, the changed one finds the same.
      have hall : after.fragmentErrors state writableOnly =
          registry.fragmentErrors state writableOnly :=
        funext (fragmentErrors_congr htriggers)
      rw [validateInner, validateInner, hall, h.updated, h.fragments, List.flatMap_append,
        List.flatMap_append, List.flatMap_cons, List.flatMap_cons,
        fragmentErrors_insertNode hext.reachable h hentry]
    exact ⟨hinner false, hinner true⟩

end Conserves

/-- A refused call changes nothing, and a successful one adds what it was asked
    to and nothing else. -/
theorem addSchemaNode_conservative (hext : Extended parse registry) (fragment path json : String) :
    (∀ err after, registry.addSchemaNode parse fragment path json = (.error err, after) →
      after = registry) ∧
    ∀ after, registry.addSchemaNode parse fragment path json = (.ok (), after) →
      ∃ (node : TypedNode) (target : Fragment), parse json = .ok node.node ∧
        (registry.fragments.find? fun f => f.name == fragment) = some target ∧
          registry.Conserves after fragment path node target := by
  rcases addSchemaNode_cases with ⟨err, hrefused⟩ | ⟨hok, node, hparse, before, target, rest, h⟩
  · constructor
    · intro err' after heq
      rw [hrefused] at heq
      exact (congrArg Prod.snd heq).symm
    · intro after heq
      rw [hrefused] at heq
      exact absurd (congrArg Prod.fst heq) (by simp only [reduceCtorEq, not_false_eq_true])
  · constructor
    · intro err after heq
      rw [heq] at hok
      exact absurd hok (by simp only [reduceCtorEq, not_false_eq_true])
    · intro after heq
      rw [heq] at h
      exact ⟨node, target, hparse, h.find.1, h.conserves hext⟩

/-- The schemas of an object that declares `items`, and of a flag, and a reader that
    knows the two. -/
def itemsText : String :=
  "\x7b\"type\":\"object\",\"items\":\x7b\"type\":\"object\"," ++
    "\"properties\":\x7b\"x\":\x7b\"type\":\"integer\"\x7d\x7d\x7d\x7d"

def flagText : String := "\x7b\"type\":\"boolean\",\"x-netfyr-writable\":true\x7d"

def readItems (json : String) : Except String SchemaNode :=
  if json = itemsText then
    .ok { type := some .object
          items := some { type := some .object, properties := [("x", { type := some .integer })] } }
  else if json = flagText then .ok { type := some .boolean, writable := true }
  else .error "not a schema"

theorem addSchemaNode_conservative_nested :
    ∃ after, new.addSchemaNode readItems "base" "custom.nested" flagText = (.ok (), after) ∧
      ∃ (node : TypedNode) (target : Fragment), readItems flagText = .ok node.node ∧
        (new.fragments.find? fun f => f.name == "base") = some target ∧
          new.Conserves after "base" "custom.nested" node target :=
  have hok : new.addSchemaNode readItems "base" "custom.nested" flagText =
      (.ok (), (new.addSchemaNode readItems "base" "custom.nested" flagText).2) := Prod.ext rfl rfl
  ⟨_, hok, (addSchemaNode_conservative .new "base" "custom.nested" flagText).2 _ hok⟩

/-- The registry with an object `p` that declares `items`. -/
def itemsRegistry : SchemaRegistry := (new.addSchemaNode readItems "base" "p" itemsText).2

/-- The flat map takes the field of the array elements, under the path of the
    property that was added. -/
theorem addSchemaNode_shadowed : Extended readItems itemsRegistry ∧
    (itemsRegistry.addSchemaNode readItems "base" "p.x" flagText).1 = .ok () ∧
      (itemsRegistry.addSchemaNode readItems "base" "p.x" flagText).2.fieldInfo "base" "p.x" =
        some { writable := false, type := .integer } := by
  refine ⟨.call "base" "p" itemsText .new ?_, rfl, ?_⟩
  · intro node hparse
    rw [← Except.ok.inj hparse]
    decide
  · change (Fragment.fields _).lookup "p.x" = _
    rw [Fragment.lookup_fields]
    rfl

end SchemaRegistry

end Netfyr
