import Netfyr.Schema.Flatten
import Netfyr.Schema.Reachable

/-!
# Extending a Tree

What an insertion does to the tree of a fragment. It creates the missing
components of its path while it walks, before the checks at the end. But it
refuses only what is there already, so a refused insertion has created nothing.

An insertion that succeeds adds the fields of its node, and one for each
component it created. Where the flat map has a field already it stays: the
fields of array elements stand under the path of the array itself, and count
before those of the properties. Only an object that declares `items` brings the
two together.

## Main definitions

* `createdParents`, `firstCreated`: What an insertion creates on its way.
* `newFields`: The fields it adds.
* `ItemsOnTheWay`: An object on its way declares `items`.

## Theorems

* `insertNode_error`: A refused insertion changes nothing.
* `fieldAt_insertNode`: What an insertion adds to the flat map.
* `fieldAt_eq_none`: Nothing that it adds was there, without `items` on the way.
* `splitPath_join`: The components of a path are the path.
-/

namespace Netfyr

/-- The paths of the components that an insertion creates on its way. -/
def createdParents : SchemaNode → String → List String → List String
  | _, _, [] => []
  | node, path, part :: parts =>
      match node.properties.lookup part with
      -- What is there is walked into, and what is missing is created from there on.
      | some child => createdParents child (joinPath path part) parts
      | none => joinPath path part :: createdParents writableObject (joinPath path part) parts

/-- The path down to the first component that an insertion creates. -/
def firstCreated (name : String) : SchemaNode → List String → List String
  | _, [] => [name]
  | node, part :: parts =>
      match node.properties.lookup part with
      | some child => part :: firstCreated name child parts
      | none => [part]

/-- An object on the way of an insertion declares `items`. -/
def ItemsOnTheWay : SchemaNode → List String → Prop
  | node, [] => node.items.isSome = true
  | node, part :: parts =>
      node.items.isSome = true ∨
        ∃ child, node.properties.lookup part = some child ∧ ItemsOnTheWay child parts

/-- The fields of a node that is added at a path, below parents that are
    created for it. -/
def newFields (new : TypedNode) (path : String) (created : List String) :
    List (String × FieldInfo) :=
  (deriveFields new.node path []).get (deriveFields_isSome new.node path [] new.valid) ++
    (path, { writable := new.node.writable, type := new.fieldType }) ::
      created.map fun parent => (parent, { writable := true, type := .object })

section Insertion

variable {path name : String} {parts : List String} {new : TypedNode} {parent : SchemaNode}

/-- What is created has room. -/
theorem insertNode_writableObject :
    (insertNode path new.node name parts writableObject).1 = .ok () := by
  induction parts with
  | nil => rfl
  | cons part parts ih =>
      rw [insertNode]
      exact ih

/-- Setting a property to what it is changes nothing. -/
theorem setProperty_self {part : String} {child : SchemaNode}
    (h : parent.properties.lookup part = some child) : parent.setProperty part child = parent := by
  have hinsert : ∀ {properties : List (String × SchemaNode)},
      properties.lookup part = some child → Assoc.insert properties part child = properties := by
    intro properties
    induction properties with
    | nil =>
        intro h
        exact absurd h (by simp only [List.lookup_nil, reduceCtorEq, not_false_eq_true])
    | cons entry properties ih =>
        rcases entry with ⟨other, old⟩
        intro h
        rw [Assoc.insert]
        by_cases heq : other = part
        · -- The first entry of the name is the one that is set, and it has this value.
          rw [heq, List.lookup_cons_self] at h
          rw [if_pos heq, Option.some.inj h]
        · rw [Assoc.lookup_cons_ne (Ne.symm heq)] at h
          rw [if_neg heq, ih h]
  rw [SchemaNode.setProperty, hinsert h]
  cases parent
  rfl

/-- A refused insertion changes nothing. -/
theorem insertNode_error {err : String}
    (h : (insertNode path new.node name parts parent).1 = .error err) :
    (insertNode path new.node name parts parent).2 = parent := by
  induction parts generalizing parent with
  | nil =>
      rw [insertNode] at h ⊢
      split
      · rfl
      · -- The name is free, so nothing is refused.
        next hfree =>
          rw [if_neg hfree] at h
          exact absurd h (by simp only [reduceCtorEq, not_false_eq_true])
  | cons part parts ih =>
      rw [insertNode] at h ⊢
      cases hlookup : parent.properties.lookup part with
      | none =>
          -- A component that is created is an object, and has room.
          rw [hlookup, Option.getD_none] at h
          dsimp only at h
          have hobject : writableObject.type = some .object := rfl
          rw [if_neg (not_not.mpr hobject)] at h
          exact absurd (insertNode_writableObject.symm.trans h)
            (by simp only [reduceCtorEq, not_false_eq_true])
      | some child =>
          rw [hlookup, Option.getD_some] at h
          dsimp only [Option.getD_some] at h ⊢
          split
          · exact setProperty_self hlookup
          · next hobject =>
              rw [if_neg hobject] at h
              -- The child comes back unchanged, and is put where it was.
              rw [ih h]
              exact setProperty_self hlookup

/-- An insertion that succeeds, one component at a time. -/
theorem insertNode_cons_ok {part : String}
    (h : (insertNode path new.node name (part :: parts) parent).1 = .ok ()) :
    ∃ child, (parent.properties.lookup part).getD writableObject = child ∧
      child.type = some .object ∧ (insertNode path new.node name parts child).1 = .ok () ∧
        (insertNode path new.node name (part :: parts) parent).2 =
          parent.setProperty part (insertNode path new.node name parts child).2 := by
  refine ⟨_, rfl, ?_⟩
  rw [insertNode] at h ⊢
  dsimp only at h ⊢
  split at h
  · exact absurd h (by simp only [reduceCtorEq, not_false_eq_true])
  · next hobject =>
      rw [if_neg hobject]
      exact ⟨not_not.mp hobject, h, rfl⟩

/-- An insertion that succeeds at its end. -/
theorem insertNode_nil_ok (h : (insertNode path new.node name [] parent).1 = .ok ()) :
    parent.properties.lookup name = none ∧
      (insertNode path new.node name [] parent).2 = parent.setProperty name new.node := by
  rw [insertNode] at h ⊢
  split at h
  · exact absurd h (by simp only [reduceCtorEq, not_false_eq_true])
  · next hfree =>
      rw [if_neg hfree]
      exact ⟨Option.not_isSome_iff_eq_none.mp hfree, rfl⟩

/-- An insertion keeps the names distinct and without dots. -/
theorem insertNode_named (hparent : parent.Named) (hnew : new.node.Named)
    (hparts : ∀ part ∈ parts ++ [name], Dotless part)
    (h : (insertNode path new.node name parts parent).1 = .ok ()) :
    (insertNode path new.node name parts parent).2.Named := by
  -- Setting a property adds its name, unless it is there.
  have hset : ∀ {node property : SchemaNode} {part : String}, node.Named → property.Named →
      Dotless part → (node.setProperty part property).Named := by
    intro node property part hnode hproperty hpart
    rw [SchemaNode.named_iff] at hnode ⊢
    refine ⟨Assoc.keys_insert_nodup hnode.1, ?_⟩
    intro entry hentry
    rcases Assoc.mem_insert hentry with rfl | hold
    · exact ⟨hpart, hproperty⟩
    · exact hnode.2 entry hold
  induction parts generalizing parent with
  | nil =>
      rw [(insertNode_nil_ok h).2]
      exact hset hparent hnew (hparts name (List.mem_singleton.mpr rfl))
  | cons part parts ih =>
      rcases insertNode_cons_ok h with ⟨child, hchild, _, hrest, heq⟩
      rw [List.cons_append, List.forall_mem_cons] at hparts
      have hnamed : child.Named := by
        rw [← hchild]
        cases hlookup : parent.properties.lookup part with
        -- An object that was just created has no properties.
        | none => exact SchemaNode.named_iff.mpr ⟨List.nodup_nil, nofun⟩
        | some old =>
            exact ((SchemaNode.named_iff.mp hparent).2 _ (Assoc.mem_of_lookup hlookup)).2
      rw [heq]
      exact hset hparent (ih hnamed hparts.2 hrest) hparts.1

end Insertion

section Fields

variable {path key location name : String} {parts created : List String} {new : TypedNode}
  {parent : SchemaNode}

/-- The fields that are added, path by path. -/
theorem lookup_newFields : (newFields new location created).lookup key =
    (fieldOf key new.node location).or
      (if key ∈ created then some { writable := true, type := .object } else none) := by
  have hderived : deriveFields new.node location [] = some ((deriveFields new.node location
      []).get (deriveFields_isSome new.node location [] new.valid)) := (Option.some_get _).symm
  -- Every created parent is a writable object.
  have hparents : ∀ {info : FieldInfo},
      (created.map fun parent => (parent, info)).lookup key =
        if key ∈ created then some info else none := by
    intro info
    induction created with
    | nil => rfl
    | cons head created ih =>
        rw [List.map_cons]
        by_cases heq : key = head
        · rw [heq, List.lookup_cons_self, if_pos List.mem_cons_self]
        · rw [Assoc.lookup_cons_ne heq, ih]
          exact if_congr (by rw [List.mem_cons, or_iff_right heq]) rfl rfl
  rw [newFields, List.lookup_append, lookup_deriveFields key _ _ _ _ hderived, List.lookup_nil,
    Option.or_none, fieldOf, Option.or_assoc]
  congr 1
  by_cases heq : key = location
  · rw [heq, List.lookup_cons_self, if_pos rfl, nodeInfo_typed, Option.some_or]
  · rw [Assoc.lookup_cons_ne heq, if_neg heq, Option.none_or, hparents]

/-- The field of a parent that is created comes to the others. -/
theorem lookup_newFields_cons {head : String} :
    (newFields new location (head :: created)).lookup key =
      ((newFields new location created).lookup key).or
        (if key = head then some { writable := true, type := .object } else none) := by
  rw [lookup_newFields, lookup_newFields, Option.or_assoc]
  congr 1
  by_cases hhead : key = head
  · rw [if_pos (hhead ▸ List.mem_cons_self), if_pos hhead]
    split
    · rfl
    · rfl
  · rw [if_neg hhead, Option.or_none]
    exact if_congr (by rw [List.mem_cons, or_iff_right hhead]) rfl rfl

/-- The names of an object are apart, below a root whose names are not empty. -/
theorem separate_of_named (hparent : parent.Named)
    (hroot : location ≠ "" ∨ "" ∉ Assoc.keys parent.properties) :
    Separate location parent.properties := by
  intro entry hentry
  refine ⟨((SchemaNode.named_iff.mp hparent).2 entry hentry).1, hroot.imp_right ?_⟩
  intro hempty heq
  exact hempty (heq ▸ List.mem_map_of_mem hentry)

/-- What is added lies within the first component of the path. -/
theorem newFields_within (hparts : ∀ part ∈ parts ++ [name], part ≠ "")
    (h : ((newFields new ((parts ++ [name]).foldl joinPath location)
      (createdParents parent location parts)).lookup key).isSome = true) :
    Within (joinPath location ((parts ++ [name]).headD "")) key := by
  induction parts generalizing parent location with
  | nil =>
      have hname := hparts name (List.mem_singleton.mpr rfl)
      rw [createdParents, lookup_newFields, if_neg List.not_mem_nil, Option.or_none] at h
      exact fieldOf_within (joinPath_ne_empty (Or.inr hname)) h
  | cons part parts ih =>
      rw [List.cons_append, List.forall_mem_cons] at hparts
      rw [createdParents] at h
      -- What is added behind `part` lies below it, by induction.
      have hbelow : ∀ {child : SchemaNode},
          ((newFields new ((parts ++ [name]).foldl joinPath (joinPath location part))
            (createdParents child (joinPath location part) parts)).lookup key).isSome = true →
            Within (joinPath location part) key := by
        intro child hchild
        have hne : joinPath location part ≠ "" := joinPath_ne_empty (Or.inr hparts.1)
        exact Or.inr (below_trans (below_joinPath hne) (ih hparts.2 hchild))
      split at h
      · exact hbelow h
      · rw [lookup_newFields_cons, Option.isSome_or, Bool.or_eq_true] at h
        rcases h with hdeeper | hself
        · exact hbelow hdeeper
        · split at hself
          · next heq => exact Or.inl heq
          · exact absurd hself Bool.false_ne_true

/-- What is added behind a component lies below it. -/
theorem newFields_below {part : String} (hpart : part ≠ "")
    (hparts : ∀ part ∈ parts ++ [name], part ≠ "")
    (h : ((newFields new ((parts ++ [name]).foldl joinPath (joinPath location part))
      (createdParents parent (joinPath location part) parts)).lookup key).isSome = true) :
    Below (joinPath location part) key :=
  below_trans (below_joinPath (joinPath_ne_empty (Or.inr hpart))) (newFields_within hparts h)

/-- An insertion adds its fields to the flat map. A path that had a field keeps
    it. -/
theorem fieldAt_insertNode (key : String) (hparent : parent.Named)
    (hroot : location ≠ "" ∨ "" ∉ Assoc.keys parent.properties)
    (hparts : ∀ part ∈ parts ++ [name], Dotless part ∧ part ≠ "")
    (h : (insertNode path new.node name parts parent).1 = .ok ()) :
    fieldAt key (insertNode path new.node name parts parent).2 location =
      (fieldAt key parent location).or
        ((newFields new ((parts ++ [name]).foldl joinPath location)
          (createdParents parent location parts)).lookup key) := by
  induction parts generalizing parent location with
  | nil =>
      rcases insertNode_nil_ok h with ⟨hfree, heq⟩
      rcases hparts name (List.mem_singleton.mpr rfl) with ⟨hdotless, hname⟩
      rw [heq, fieldAt_eq, fieldAt_eq, Option.or_assoc]
      congr 1
      rw [createdParents, lookup_newFields, if_neg List.not_mem_nil, Option.or_none]
      refine fieldAtProperties_insert (separate_of_named hparent hroot) hdotless ?_ ?_
      · exact fieldOf_within (joinPath_ne_empty (Or.inr hname))
      · rw [hfree, Option.bind_none, Option.none_or]
        rfl
  | cons part parts ih =>
      rcases insertNode_cons_ok h with ⟨child, hchild, _, hrest, heq⟩
      rw [List.cons_append, List.forall_mem_cons] at hparts
      have hne : joinPath location part ≠ "" := joinPath_ne_empty (Or.inr hparts.1.2)
      have hnonempty : ∀ part ∈ parts ++ [name], part ≠ "" := fun part hmem =>
        (hparts.2 part hmem).2
      have hnamed : child.Named := by
        rw [← hchild]
        cases hlookup : parent.properties.lookup part with
        | none => exact SchemaNode.named_iff.mpr ⟨List.nodup_nil, nofun⟩
        | some old =>
            exact ((SchemaNode.named_iff.mp hparent).2 _ (Assoc.mem_of_lookup hlookup)).2
      -- The insertion one level down, at the path of the component.
      have hdeeper := ih hnamed (Or.inl hne) hparts.2 hrest
      -- An insertion leaves the type of a node and whether it is writable.
      have hinfo : nodeInfo (insertNode path new.node name parts child).2 = nodeInfo child := by
        rcases insertNode_eq with ⟨properties, hproperties⟩
        rw [hproperties]
        rfl
      have hof : fieldOf key (insertNode path new.node name parts child).2
          (joinPath location part) =
            ((fieldAt key child (joinPath location part)).or
              ((newFields new ((parts ++ [name]).foldl joinPath (joinPath location part))
                (createdParents child (joinPath location part) parts)).lookup key)).or
              (if key = joinPath location part then nodeInfo child else none) := by
        rw [fieldOf, hdeeper, hinfo]
      rw [heq, fieldAt_eq, fieldAt_eq, Option.or_assoc]
      congr 1
      refine fieldAtProperties_insert (separate_of_named hparent hroot) hparts.1.1 ?_ ?_
      · intro hsome
        have hall : ∀ other ∈ part :: parts ++ [name], other ≠ "" :=
          List.forall_mem_cons.mpr ⟨hparts.1.2, hnonempty⟩
        exact newFields_within hall hsome
      · rw [hof, List.cons_append, List.foldl_cons, createdParents]
        cases hlookup : parent.properties.lookup part with
        | some old =>
            rw [hlookup, Option.getD_some] at hchild
            subst hchild
            dsimp only
            rw [Option.bind_some, fieldOf]
            -- What is new lies below the component, whose own field stays.
            by_cases hself : key = joinPath location part
            · have hnone : (newFields new ((parts ++ [name]).foldl joinPath
                  (joinPath location part)) (createdParents old (joinPath location part)
                    parts)).lookup key = none := by
                rw [← Option.not_isSome_iff_eq_none]
                intro hsome
                exact below_ne (newFields_below hparts.1.2 hnonempty hsome) hself
              rw [hnone, Option.or_none, Option.or_none]
            · rw [if_neg hself, Option.or_none, Option.or_none]
        | none =>
            rw [hlookup, Option.getD_none] at hchild
            subst hchild
            dsimp only
            rw [lookup_newFields_cons]
            rfl

/-- Without `items` on the way, nothing that is added had a field before. -/
theorem fieldAt_eq_none (hparent : parent.Named)
    (hroot : location ≠ "" ∨ "" ∉ Assoc.keys parent.properties)
    (hparts : ∀ part ∈ parts ++ [name], Dotless part ∧ part ≠ "")
    (hok : (insertNode path new.node name parts parent).1 = .ok ())
    (hitems : ¬ ItemsOnTheWay parent parts)
    (h : ((newFields new ((parts ++ [name]).foldl joinPath location)
      (createdParents parent location parts)).lookup key).isSome = true) :
    fieldAt key parent location = none := by
  have hnodup := (SchemaNode.named_iff.mp hparent).1
  have hseparate := separate_of_named hparent hroot
  induction parts generalizing parent location with
  | nil =>
      rcases hparts name (List.mem_singleton.mpr rfl) with ⟨hdotless, hname⟩
      rw [ItemsOnTheWay, Option.not_isSome_iff_eq_none] at hitems
      -- The name was free, and only it has fields within its path.
      have hwithin : Within (joinPath location name) key :=
        newFields_within (fun part hmem => (hparts part hmem).2) h
      rw [fieldAt_eq, hitems, fieldAtItems, Option.none_or,
        fieldAtProperties_within hseparate hnodup hdotless hwithin, (insertNode_nil_ok hok).1,
        Option.bind_none]
  | cons part parts ih =>
      rcases insertNode_cons_ok hok with ⟨child, hchild, _, hrest, _⟩
      rw [ItemsOnTheWay, not_or, Option.not_isSome_iff_eq_none] at hitems
      have hnonempty : ∀ other ∈ part :: parts ++ [name], other ≠ "" := fun other hmem =>
        (hparts other hmem).2
      have hwithin := newFields_within hnonempty h
      rw [List.cons_append, List.forall_mem_cons] at hparts
      have hne : joinPath location part ≠ "" := joinPath_ne_empty (Or.inr hparts.1.2)
      rw [fieldAt_eq, hitems.1, fieldAtItems, Option.none_or,
        fieldAtProperties_within hseparate hnodup hparts.1.1 hwithin]
      cases hlookup : parent.properties.lookup part with
      | none => rfl
      | some old =>
          rw [hlookup, Option.getD_some] at hchild
          subst hchild
          have hnamed := ((SchemaNode.named_iff.mp hparent).2 _ (Assoc.mem_of_lookup hlookup)).2
          rw [createdParents, hlookup] at h
          -- Nothing was below the component, and its own path is not below it.
          have hold := ih hnamed (Or.inl hne) hparts.2 hrest
            (fun hway => hitems.2 ⟨old, hlookup, hway⟩) h
            (SchemaNode.named_iff.mp hnamed).1 (separate_of_named hnamed (Or.inl hne))
          have hbelow := newFields_below hparts.1.2 (fun other hmem => (hparts.2 other hmem).2) h
          rw [Option.bind_some, fieldOf, hold, Option.none_or, if_neg (below_ne hbelow)]

end Fields

section SplitPath

/-- The components of a path, as characters. -/
def splitChars (chars : List Char) : List (List Char) :=
  chars.foldr (fun c parts => match parts with
    | [] => [[c]]
    | part :: parts => if c = '.' then [] :: part :: parts else (c :: part) :: parts)
    [[]]

/-- The components of a path have no dots, and are the path when dots are put
    between them. -/
theorem splitChars_spec (chars : List Char) : ∃ head rest, splitChars chars = head :: rest ∧
    (∀ part ∈ head :: rest, '.' ∉ part) ∧ chars = head ++ rest.flatMap fun part => '.' :: part := by
  induction chars with
  | nil =>
      refine ⟨[], [], rfl, ?_, rfl⟩
      intro part hpart
      rw [List.mem_singleton.mp hpart]
      exact List.not_mem_nil
  | cons c chars ih =>
      rcases ih with ⟨head, rest, heq, hdotless, hjoin⟩
      -- A dot opens a new component, any other character joins the one that follows.
      have hstep : splitChars (c :: chars) =
          if c = '.' then [] :: head :: rest else (c :: head) :: rest := by
        rw [splitChars, List.foldr_cons]
        change (match splitChars chars with
          | [] => [[c]]
          | part :: parts => if c = '.' then [] :: part :: parts else (c :: part) :: parts) = _
        rw [heq]
      by_cases hdot : c = '.'
      · refine ⟨[], head :: rest, by rw [hstep, if_pos hdot], ?_, ?_⟩
        · exact List.forall_mem_cons.mpr ⟨List.not_mem_nil, hdotless⟩
        · rw [hdot, hjoin]
          rfl
      · refine ⟨c :: head, rest, by rw [hstep, if_neg hdot], ?_, ?_⟩
        · rw [List.forall_mem_cons] at hdotless ⊢
          refine ⟨?_, hdotless.2⟩
          rw [List.mem_cons, not_or]
          exact ⟨Ne.symm hdot, hdotless.1⟩
        · rw [hjoin, List.cons_append]

theorem foldl_joinPath {path : String} (hpath : path ≠ "") (parts : List String) :
    (parts.foldl joinPath path).toList =
      path.toList ++ parts.flatMap fun part => '.' :: part.toList := by
  induction parts generalizing path with
  | nil => rw [List.foldl_nil, List.flatMap_nil, List.append_nil]
  | cons part parts ih =>
      have hjoin : (joinPath path part).toList = path.toList ++ '.' :: part.toList := by
        rw [joinPath, if_neg hpath, String.toList_append, String.toList_append, List.append_assoc]
        rfl
      rw [List.foldl_cons, ih (joinPath_ne_empty (Or.inl hpath)), hjoin, List.flatMap_cons,
        List.append_assoc]

variable {path : String}

theorem splitPath_dotless : ∀ part ∈ splitPath path, Dotless part := by
  intro part hpart
  rcases List.mem_map.mp (show part ∈ (splitChars path.toList).map String.ofList from hpart)
    with ⟨chars, hchars, rfl⟩
  rcases splitChars_spec path.toList with ⟨head, rest, heq, hdotless, _⟩
  rw [heq] at hchars
  rw [Dotless, String.toList_ofList]
  exact hdotless chars hchars

/-- The components of a path without empty ones, put together again. -/
theorem splitPath_join (hnonempty : "" ∉ splitPath path) :
    (splitPath path).foldl joinPath "" = path := by
  rcases splitChars_spec path.toList with ⟨head, rest, heq, _, hjoin⟩
  have hsplit : splitPath path = String.ofList head :: rest.map String.ofList := by
    change (splitChars path.toList).map String.ofList = _
    rw [heq, List.map_cons]
  rw [hsplit, List.mem_cons, not_or] at hnonempty
  rw [hsplit, List.foldl_cons, ← String.toList_inj]
  have hhead : joinPath "" (String.ofList head) = String.ofList head := if_pos rfl
  rw [hhead, foldl_joinPath (Ne.symm hnonempty.1), String.toList_ofList, List.flatMap_map, hjoin]
  simp only [String.toList_ofList]

end SplitPath

end Netfyr
