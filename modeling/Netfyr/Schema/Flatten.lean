import Netfyr.Schema.Registry

/-!
# The Flat Field Map

A fragment lists its fields at every level by dot path. The source walks the
tree and inserts into one map, so that of two nodes with one path the later one
counts. `fieldAt` says which field a path then has, without the map: the fields
of array elements before those of the properties, and later properties before
earlier ones.

The path of a node is a prefix of the paths below it, closed by a dot, and a
name without dots cannot hide one. So two properties of different names have no
path in common.

## Main definitions

* `fieldAt`: The field that a path has below a node.
* `Below`: A path that continues another one.
* `SchemaNode.Named`: Distinct property names without dots, at every level.

## Theorems

* `lookup_deriveFields`: The flat map, path by path.
* `Fragment.lookup_fields`: The same for a fragment.
* `fieldAtProperties_insert`: What a property adds to the flat map.
-/

namespace Netfyr

/-- What the flat map says of a node. -/
def nodeInfo (node : SchemaNode) : Option FieldInfo :=
  match semanticType node with
  | .ok fieldType => some { writable := node.writable, type := fieldType }
  | .error _ => none

mutual
/-- The field that a path has below a node. -/
def fieldAt (key : String) : SchemaNode → String → Option FieldInfo
  | .mk _ _ _ _ _ _ properties _ items _ _, path =>
      -- The source derives `items` last, and what is inserted last counts.
      (fieldAtItems key items path).or (fieldAtProperties key properties path)
termination_by structural node => node
/-- The field that a path has among the properties of an object node. -/
def fieldAtProperties (key : String) : List (String × SchemaNode) → String → Option FieldInfo
  | [], _ => none
  | (name, property) :: properties, path =>
      -- A property goes in before what is below it, and that before the next one.
      (fieldAtProperties key properties path).or
        ((fieldAt key property (joinPath path name)).or
          (if key = joinPath path name then nodeInfo property else none))
termination_by structural properties => properties
/-- The field that a path has in the element schema of an array node. -/
def fieldAtItems (key : String) : Option SchemaNode → String → Option FieldInfo
  | none, _ => none
  | some items, path => fieldAt key items path
termination_by structural items => items
end

/-- The field that a path has at a property or below it. -/
def fieldOf (key : String) (property : SchemaNode) (path : String) : Option FieldInfo :=
  (fieldAt key property path).or (if key = path then nodeInfo property else none)

theorem fieldAt_eq (key : String) (node : SchemaNode) (path : String) :
    fieldAt key node path =
      (fieldAtItems key node.items path).or (fieldAtProperties key node.properties path) := by
  cases node
  rfl

theorem fieldAtProperties_cons (key : String) (entry : String × SchemaNode)
    (properties : List (String × SchemaNode)) (path : String) :
    fieldAtProperties key (entry :: properties) path =
      (fieldAtProperties key properties path).or (fieldOf key entry.2 (joinPath path entry.1)) :=
  rfl

theorem nodeInfo_typed (node : TypedNode) :
    nodeInfo node.node = some { writable := node.node.writable, type := node.fieldType } := by
  rw [nodeInfo, node.semanticType_node]

section Derive

mutual
/-- What deriving a node's fields inserts, path by path. -/
theorem lookup_deriveFields (key : String) : (node : SchemaNode) → (path : String) →
    (out fields : List (String × FieldInfo)) → deriveFields node path out = some fields →
    fields.lookup key = (fieldAt key node path).or (out.lookup key)
  | .mk _ _ _ _ _ _ properties _ items _ _, path, out, fields, h => by
      rw [deriveFields] at h
      rcases Option.bind_eq_some_iff.mp h with ⟨between, hproperties, hitems⟩
      rw [fieldAt, lookup_deriveItemFields key items path between fields hitems,
        lookup_derivePropertyFields key properties path out between hproperties, Option.or_assoc]
/-- The same for the properties of an object node. -/
theorem lookup_derivePropertyFields (key : String) : (properties : List (String × SchemaNode)) →
    (path : String) → (out fields : List (String × FieldInfo)) →
    derivePropertyFields properties path out = some fields →
    fields.lookup key = (fieldAtProperties key properties path).or (out.lookup key)
  | [], _, out, fields, h => by
      rw [derivePropertyFields] at h
      rw [← Option.some.inj h, fieldAtProperties, Option.none_or]
  | (name, property) :: properties, path, out, fields, h => by
      rw [derivePropertyFields] at h
      cases htype : semanticType property with
      | error err =>
          rw [htype] at h
          exact absurd h (by simp only [reduceCtorEq, not_false_eq_true])
      | ok fieldType =>
          rw [htype] at h
          rcases Option.bind_eq_some_iff.mp h with ⟨between, hproperty, hrest⟩
          -- The property itself, then what is below it, then the properties that follow.
          have hinfo : nodeInfo property =
              some { writable := property.writable, type := fieldType } := by
            rw [nodeInfo, htype]
          rw [lookup_derivePropertyFields key properties path between fields hrest,
            lookup_deriveFields key property _ _ between hproperty, Assoc.lookup_insert,
            fieldAtProperties, hinfo, Option.or_assoc, Option.or_assoc]
          congr 2
          split
          · rw [Option.some_or]
          · rw [Option.none_or]
/-- The same for the element schema of an array node. -/
theorem lookup_deriveItemFields (key : String) : (items : Option SchemaNode) → (path : String) →
    (out fields : List (String × FieldInfo)) → deriveItemFields items path out = some fields →
    fields.lookup key = (fieldAtItems key items path).or (out.lookup key)
  | none, _, out, fields, h => by
      rw [deriveItemFields] at h
      rw [← Option.some.inj h, fieldAtItems, Option.none_or]
  | some node, path, out, fields, h => lookup_deriveFields key node path out fields h
end

mutual
/-- A path has at most one entry in the flat map. -/
theorem deriveFields_nodup : (node : SchemaNode) → (path : String) →
    (out fields : List (String × FieldInfo)) → deriveFields node path out = some fields →
    (Assoc.keys out).Nodup → (Assoc.keys fields).Nodup
  | .mk _ _ _ _ _ _ properties _ items _ _, path, out, fields, h, hout => by
      rw [deriveFields] at h
      rcases Option.bind_eq_some_iff.mp h with ⟨between, hproperties, hitems⟩
      exact deriveItemFields_nodup items path between fields hitems
        (derivePropertyFields_nodup properties path out between hproperties hout)
/-- The same for the properties of an object node. -/
theorem derivePropertyFields_nodup : (properties : List (String × SchemaNode)) →
    (path : String) → (out fields : List (String × FieldInfo)) →
    derivePropertyFields properties path out = some fields →
    (Assoc.keys out).Nodup → (Assoc.keys fields).Nodup
  | [], _, out, fields, h, hout => by
      rw [derivePropertyFields] at h
      rw [← Option.some.inj h]
      exact hout
  | (name, property) :: properties, path, out, fields, h, hout => by
      rw [derivePropertyFields] at h
      split at h
      · exact absurd h (by simp only [reduceCtorEq, not_false_eq_true])
      · rcases Option.bind_eq_some_iff.mp h with ⟨between, hproperty, hrest⟩
        exact derivePropertyFields_nodup properties path between fields hrest
          (deriveFields_nodup property _ _ between hproperty (Assoc.keys_insert_nodup hout))
/-- The same for the element schema of an array node. -/
theorem deriveItemFields_nodup : (items : Option SchemaNode) → (path : String) →
    (out fields : List (String × FieldInfo)) → deriveItemFields items path out = some fields →
    (Assoc.keys out).Nodup → (Assoc.keys fields).Nodup
  | none, _, out, fields, h, hout => by
      rw [deriveItemFields] at h
      rw [← Option.some.inj h]
      exact hout
  | some node, path, out, fields, h, hout => deriveFields_nodup node path out fields h hout
end

/-- The flat map of a fragment, path by path. -/
theorem Fragment.lookup_fields (fragment : Fragment) (key : String) :
    fragment.fields.lookup key = fieldAt key fragment.root.node "" := by
  have hderived : deriveFields fragment.root.node "" [] = some ((deriveFields fragment.root.node ""
      []).get (deriveFields_isSome fragment.root.node "" [] fragment.root.valid)) :=
    (Option.some_get _).symm
  have hnodup := deriveFields_nodup _ _ _ _ hderived List.nodup_nil
  have hlookup := lookup_deriveFields key _ _ _ _ hderived
  rw [List.lookup_nil, Option.or_none] at hlookup
  rw [← hlookup, Fragment.fields]
  generalize (deriveFields fragment.root.node "" []).get _ = derived at hnodup
  -- Sorting keeps the entries, whose paths are distinct.
  have hperm := List.perm_insertionSort (fun a b : String × FieldInfo => a.1 ≤ b.1) derived
  have hsorted := (hperm.map Prod.fst).nodup_iff.mpr hnodup
  refine Option.ext fun info => ?_
  constructor
  · intro h
    exact Assoc.lookup_of_mem hnodup (hperm.mem_iff.mp (Assoc.mem_of_lookup h))
  · intro h
    exact Assoc.lookup_of_mem hsorted (hperm.mem_iff.mpr (Assoc.mem_of_lookup h))

end Derive

/-- A name without dots. -/
def Dotless (name : String) : Prop := '.' ∉ name.toList

/-- A path that continues another one after a dot. -/
def Below (path key : String) : Prop := ∃ rest, key.toList = path.toList ++ '.' :: rest

/-- A path, or one that continues it. -/
def Within (path key : String) : Prop := key = path ∨ Below path key

mutual
/-- The names of the properties have no dots, and no object has one twice. What
    lies in arrays is not asked. -/
def SchemaNode.Named : SchemaNode → Prop
  | .mk _ _ _ _ _ _ properties _ _ _ _ =>
      (Assoc.keys properties).Nodup ∧ NamedProperties properties
termination_by structural node => node
/-- The same for the properties themselves. -/
def NamedProperties : List (String × SchemaNode) → Prop
  | [] => True
  | (name, property) :: properties =>
      (Dotless name ∧ property.Named) ∧ NamedProperties properties
termination_by structural properties => properties
end

instance (name : String) : Decidable (Dotless name) :=
  inferInstanceAs (Decidable ('.' ∉ name.toList))

mutual
/-- Whether the names of a node are distinct and without dots. -/
def decNamed : (node : SchemaNode) → Decidable node.Named
  | .mk _ _ _ _ _ _ properties _ _ _ _ =>
      @instDecidableAnd _ _ inferInstance (decNamedProperties properties)
termination_by structural node => node
/-- The same for the properties of an object node. -/
def decNamedProperties :
    (properties : List (String × SchemaNode)) → Decidable (NamedProperties properties)
  | [] => .isTrue trivial
  | (_, property) :: properties =>
      @instDecidableAnd _ _ (@instDecidableAnd _ _ inferInstance (decNamed property))
        (decNamedProperties properties)
termination_by structural properties => properties
end

instance SchemaNode.decidableNamed (node : SchemaNode) : Decidable node.Named := decNamed node

theorem namedProperties_iff {properties : List (String × SchemaNode)} :
    NamedProperties properties ↔
      ∀ entry ∈ properties, Dotless entry.1 ∧ entry.2.Named := by
  induction properties with
  | nil => simp only [NamedProperties, List.not_mem_nil, false_imp_iff, implies_true]
  | cons entry properties ih => rw [NamedProperties, List.forall_mem_cons, ih]

theorem SchemaNode.named_iff {node : SchemaNode} : node.Named ↔
    (Assoc.keys node.properties).Nodup ∧
      ∀ entry ∈ node.properties, Dotless entry.1 ∧ entry.2.Named := by
  cases node
  rw [SchemaNode.Named, namedProperties_iff]

section Paths

variable {path key name name' : String}

theorem below_ne (h : Below path key) : key ≠ path := by
  rintro rfl
  rcases h with ⟨rest, heq⟩
  -- A dot and a rest make a path longer.
  exact absurd (List.self_eq_append_right.mp heq) (List.cons_ne_nil _ _)

theorem below_trans {between : String} (h : Below path between) (h' : Within between key) :
    Below path key := by
  rcases h with ⟨rest, heq⟩
  rcases h' with rfl | ⟨rest', heq'⟩
  · exact ⟨rest, heq⟩
  · exact ⟨rest ++ '.' :: rest', by rw [heq', heq, List.append_assoc, List.cons_append]⟩

theorem below_joinPath (h : path ≠ "") : Below path (joinPath path name) := by
  refine ⟨name.toList, ?_⟩
  rw [joinPath, if_neg h, String.toList_append, String.toList_append, List.append_assoc]
  rfl

theorem joinPath_ne_empty (h : path ≠ "" ∨ name ≠ "") : joinPath path name ≠ "" := by
  rw [joinPath]
  split
  · next hempty => exact h.resolve_left (not_not.mpr hempty)
  · intro heq
    have hlist := congrArg String.toList heq
    rw [String.toList_append, String.toList_append, List.append_assoc] at hlist
    exact absurd (List.append_eq_nil_iff.mp hlist).2 (List.cons_ne_nil _ _)

/-- The path of a name is a prefix of the paths within it. -/
theorem within_joinPath (h : Within (joinPath path name) key) :
    ∃ rest, key.toList = (joinPath path "").toList ++ (name.toList ++ rest) ∧
      (rest = [] ∨ ∃ tail, rest = '.' :: tail) := by
  -- At the root there is no dot before a name.
  have hjoin : (joinPath path name).toList = (joinPath path "").toList ++ name.toList := by
    rw [joinPath, joinPath]
    split
    · rfl
    · rw [String.toList_append, String.toList_append, String.append_empty, String.toList_append]
  rcases h with rfl | ⟨tail, heq⟩
  · exact ⟨[], by rw [hjoin, List.append_nil], Or.inl rfl⟩
  · exact ⟨'.' :: tail, by rw [heq, hjoin, List.append_assoc], Or.inr ⟨tail, rfl⟩⟩

/-- A name without dots ends at the first dot. -/
theorem takeWhile_dotless {rest : List Char} (hname : Dotless name)
    (hrest : rest = [] ∨ ∃ tail, rest = '.' :: tail) :
    (name.toList ++ rest).takeWhile (· ≠ '.') = name.toList := by
  have hall : ∀ c ∈ name.toList, decide (c ≠ '.') = true := by
    intro c hc
    exact decide_eq_true fun heq => hname (heq ▸ hc)
  rw [List.takeWhile_append_of_pos hall]
  rcases hrest with rfl | ⟨tail, rfl⟩
  · rw [List.takeWhile_nil, List.append_nil]
  · rw [List.takeWhile_cons_of_neg (by decide), List.append_nil]

/-- Two properties of different names have no path in common. -/
theorem within_disjoint (hname : Dotless name) (hname' : Dotless name')
    (h : Within (joinPath path name) key) (h' : Within (joinPath path name') key) :
    name = name' := by
  rcases within_joinPath h with ⟨rest, heq, hrest⟩
  rcases within_joinPath h' with ⟨rest', heq', hrest'⟩
  -- Both names are what the path has up to its next dot.
  have hsame := List.append_cancel_left (heq.symm.trans heq')
  rw [← String.toList_inj, ← takeWhile_dotless hname hrest, hsame,
    takeWhile_dotless hname' hrest']

end Paths

section FieldAt

variable {key path name : String}

mutual
/-- A node has fields only at paths below its own. -/
theorem fieldAt_below : (node : SchemaNode) → (path : String) → path ≠ "" →
    (fieldAt key node path).isSome = true → Below path key
  | .mk _ _ _ _ _ _ properties _ items _ _, path, hpath, h => by
      -- Element fields are derived at the path of the array itself, hence below it as well.
      rw [fieldAt, Option.isSome_or, Bool.or_eq_true] at h
      rcases h with hitems | hproperties
      · exact fieldAtItems_below items path hpath hitems
      · exact fieldAtProperties_below properties path hpath hproperties
/-- The same for the properties of an object node. -/
theorem fieldAtProperties_below : (properties : List (String × SchemaNode)) → (path : String) →
    path ≠ "" → (fieldAtProperties key properties path).isSome = true → Below path key
  | [], _, _, h => absurd h Bool.false_ne_true
  | (name, property) :: properties, path, hpath, h => by
      rw [fieldAtProperties, Option.isSome_or, Option.isSome_or, Bool.or_eq_true,
        Bool.or_eq_true] at h
      rcases h with hrest | hbelow | hself
      · exact fieldAtProperties_below properties path hpath hrest
      · have hproperty := fieldAt_below property (joinPath path name)
          (joinPath_ne_empty (Or.inl hpath)) hbelow
        exact below_trans (below_joinPath hpath) (Or.inr hproperty)
      · split at hself
        · next heq =>
            rw [heq]
            exact below_joinPath hpath
        · exact absurd hself Bool.false_ne_true
/-- The same for the element schema of an array node. -/
theorem fieldAtItems_below : (items : Option SchemaNode) → (path : String) → path ≠ "" →
    (fieldAtItems key items path).isSome = true → Below path key
  | none, _, _, h => absurd h Bool.false_ne_true
  | some node, path, hpath, h => fieldAt_below node path hpath h
end

/-- A property has fields only at its path and below. -/
theorem fieldOf_within {property : SchemaNode} (hpath : path ≠ "")
    (h : (fieldOf key property path).isSome = true) : Within path key := by
  rw [fieldOf, Option.isSome_or, Bool.or_eq_true] at h
  rcases h with hbelow | hself
  · exact Or.inr (fieldAt_below property path hpath hbelow)
  · split at hself
    · next heq => exact Or.inl heq
    · exact absurd hself Bool.false_ne_true

/-- Whether the names of an object give its properties paths of their own. -/
def Separate (path : String) (properties : List (String × SchemaNode)) : Prop :=
  ∀ entry ∈ properties, Dotless entry.1 ∧ (path ≠ "" ∨ entry.1 ≠ "")

/-- No property but that of a name has a field at a path within the name's. -/
theorem fieldOf_eq_none {property : SchemaNode} {other : String} (hname : Dotless name)
    (hother : Dotless other) (hne : other ≠ name) (hpath : path ≠ "" ∨ other ≠ "")
    (h : Within (joinPath path name) key) : fieldOf key property (joinPath path other) = none := by
  rw [← Option.not_isSome_iff_eq_none]
  intro hsome
  have hwithin := fieldOf_within (joinPath_ne_empty hpath) hsome
  exact hne (within_disjoint hother hname hwithin h)

/-- At a path within a name's, an object has the fields of that property. -/
theorem fieldAtProperties_within {properties : List (String × SchemaNode)}
    (hseparate : Separate path properties) (hnodup : (Assoc.keys properties).Nodup)
    (hname : Dotless name) (h : Within (joinPath path name) key) :
    fieldAtProperties key properties path =
      (properties.lookup name).bind fun property => fieldOf key property (joinPath path name) := by
  induction properties with
  | nil => rfl
  | cons entry properties ih =>
      rw [Separate, List.forall_mem_cons] at hseparate
      rw [Assoc.keys_cons, List.nodup_cons] at hnodup
      rw [fieldAtProperties_cons, ih hseparate.2 hnodup.2]
      by_cases heq : entry.1 = name
      · -- The names are distinct, so no later property has this one.
        have hnone : properties.lookup name = none := by
          rw [← Option.not_isSome_iff_eq_none, Assoc.lookup_isSome, ← heq]
          exact hnodup.1
        rw [hnone, Option.bind_none, Option.none_or, ← heq, List.lookup_cons_self,
          Option.bind_some]
      · -- Another property has no field at this path.
        rw [fieldOf_eq_none hname hseparate.1.1 heq hseparate.1.2 h, Option.or_none]
        rcases entry with ⟨other, property⟩
        rw [Assoc.lookup_cons_ne (Ne.symm heq)]

/-- A property that is set adds what it has more than the one before. -/
theorem fieldAtProperties_insert {properties : List (String × SchemaNode)}
    {property : SchemaNode} {gained : Option FieldInfo} (hseparate : Separate path properties)
    (hname : Dotless name) (hgained : gained.isSome = true → Within (joinPath path name) key)
    (hproperty : fieldOf key property (joinPath path name) =
      ((properties.lookup name).bind fun old => fieldOf key old (joinPath path name)).or gained) :
    fieldAtProperties key (Assoc.insert properties name property) path =
      (fieldAtProperties key properties path).or gained := by
  induction properties with
  | nil =>
      rw [List.lookup_nil, Option.bind_none, Option.none_or] at hproperty
      rw [Assoc.insert, fieldAtProperties_cons, hproperty]
  | cons entry properties ih =>
      rcases entry with ⟨other, old⟩
      rw [Separate, List.forall_mem_cons] at hseparate
      rw [Assoc.insert]
      by_cases heq : other = name
      · -- The property is replaced where it stands.
        rw [if_pos heq, fieldAtProperties_cons, fieldAtProperties_cons]
        rw [heq, List.lookup_cons_self, Option.bind_some] at hproperty
        dsimp only
        rw [heq, hproperty, Option.or_assoc]
      · rw [Assoc.lookup_cons_ne (Ne.symm heq)] at hproperty
        rw [if_neg heq, fieldAtProperties_cons, fieldAtProperties_cons,
          ih hseparate.2 hproperty, Option.or_assoc, Option.or_assoc]
        -- What is gained is no field of another property.
        cases gained with
        | none => rw [Option.none_or, Option.or_none]
        | some info =>
            rw [fieldOf_eq_none hname hseparate.1.1 heq hseparate.1.2 (hgained rfl),
              Option.or_none, Option.none_or]

end FieldAt

end Netfyr
