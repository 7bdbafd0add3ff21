import Netfyr.Schema.Registry

/-!
# Reachable Registries

What successful extensions leave of the embedded registry. An extension changes
one fragment, and of it only the property table of its root, so every other
keyword of a root is as the embedded schemas have it. A declared property that
is not an object is never changed.

`SchemaRegistry.Reachable.forall_mem` is the induction: a property of fragments
that `Fragment.insertNode` keeps holds of the fragments of a reachable registry
when it holds of the embedded ones.

## Theorems

* `mem_addSchemaNode`: A fragment of an extended registry.
* `SchemaRegistry.Reachable.forall_mem`: The induction.
* `SchemaRegistry.Reachable.root_fieldType`: Every root is an object.
* `SchemaRegistry.Reachable.root_required`: No root requires a key.
-/

namespace Netfyr

/-- Extension changes nothing of a node but its properties. -/
theorem insertNode_eq {path : String} {new : SchemaNode} {name : String} {parts : List String}
    {parent : SchemaNode} :
    ∃ properties, (insertNode path new name parts parent).2 = { parent with properties } := by
  rcases insertNode_top path new name parts parent with heq | ⟨property, heq, _⟩
  · refine ⟨parent.properties, heq.trans ?_⟩
    cases parent
    rfl
  · exact ⟨_, heq⟩

/-- Extension changes no property that is not an object. -/
theorem lookup_insertNode {path : String} {new : SchemaNode} {name : String} {parts : List String}
    {parent property : SchemaNode} {key : String}
    (hkey : parent.properties.lookup key = some property) (hobject : property.type ≠ some .object) :
    (insertNode path new name parts parent).2.properties.lookup key = some property := by
  rcases insertNode_top path new name parts parent with heq | ⟨set, heq, hset⟩
  · rw [heq]
    exact hkey
  · rw [heq]
    by_cases hhead : key = (parts ++ [name]).headD ""
    · -- The property that is set is this one, so it is set to what it was.
      rw [hset property (hhead ▸ hkey) hobject]
      exact Assoc.lookup_insert.trans (if_pos hhead)
    · exact Assoc.lookup_insert.trans ((if_neg hhead).trans hkey)

/-- Extension adds at most the property at the head of its path. -/
theorem lookup_insertNode_none {path : String} {new : SchemaNode} {name : String}
    {parts : List String} {parent : SchemaNode} {key : String}
    (hkey : parent.properties.lookup key = none) (hne : key ≠ (parts ++ [name]).headD "") :
    (insertNode path new name parts parent).2.properties.lookup key = none := by
  rcases insertNode_top path new name parts parent with heq | ⟨property, heq, _⟩
  · rw [heq]
    exact hkey
  · rw [heq]
    exact Assoc.lookup_insert.trans ((if_neg hne).trans hkey)

/-- A fragment of an updated list is an old one, or the first of its name,
    updated. -/
theorem mem_updateFragment {name : String} {update : Fragment → Except String Unit × Fragment}
    {fragments : List Fragment} {fragment : Fragment}
    (h : fragment ∈ (updateFragment name update fragments).2) :
    fragment ∈ fragments ∨ ∃ old, (fragments.find? fun f => f.name == name) = some old ∧
      fragment = (update old).2 := by
  induction fragments with
  | nil => exact absurd h List.not_mem_nil
  | cons head rest ih =>
      rw [updateFragment] at h
      by_cases hname : head.name = name
      · rw [if_pos hname] at h
        rcases List.mem_cons.mp h with rfl | hrest
        · exact Or.inr ⟨head, List.find?_cons_of_pos (beq_iff_eq.mpr hname), rfl⟩
        · exact Or.inl (List.mem_cons_of_mem head hrest)
      · rw [if_neg hname] at h
        rcases List.mem_cons.mp h with rfl | hrest
        · exact Or.inl List.mem_cons_self
        · rcases ih hrest with hold | ⟨old, hold, heq⟩
          · exact Or.inl (List.mem_cons_of_mem head hold)
          · refine Or.inr ⟨old, ?_, heq⟩
            rw [List.find?_cons_of_neg (by rwa [beq_iff_eq])]
            exact hold

namespace SchemaRegistry

variable {parse : String → Except String SchemaNode} {self : SchemaRegistry}

/-- What an extension does to one fragment: it goes below the root, along a path
    without empty components that begins in no other fragment. -/
def Extends (self : SchemaRegistry) (old fragment : Fragment) : Prop :=
  ∃ path node key parts, "" ∉ parts ++ [key] ∧
    (old.triggerKey = none → self.triggered ((parts ++ [key]).headD "") = none) ∧
      fragment = (old.insertNode path node key parts).2

/-- It changes nothing of the root but its properties. -/
theorem Extends.root_eq {old fragment : Fragment} (h : self.Extends old fragment) :
    ∃ properties, fragment.root.node = { old.root.node with properties } := by
  rcases h with ⟨path, node, key, parts, _, _, rfl⟩
  exact insertNode_eq

/-- A fragment of an extended registry is an old one, or one extended. -/
theorem mem_addNode {name path : String} {node : TypedNode} {fragment : Fragment}
    (h : fragment ∈ (self.addNode name path node).2.fragments) :
    fragment ∈ self.fragments ∨ ∃ old ∈ self.fragments, self.Extends old fragment := by
  unfold addNode at h
  dsimp only at h
  by_cases hparts : splitPath path = [] ∨ "" ∈ splitPath path
  · rw [if_pos hparts] at h
    exact Or.inl h
  · rw [if_neg hparts] at h
    -- A collision with a trigger refuses the extension as well.
    have hsplit : ∀ (collides : Bool) {refused extended : Except String Unit × SchemaRegistry},
        fragment ∈ (if collides = true then refused else extended).2.fragments →
          fragment ∈ refused.2.fragments ∨ collides = false ∧ fragment ∈ extended.2.fragments := by
      intro collides refused extended hmem
      cases collides with
      | true => exact Or.inl hmem
      | false => exact Or.inr ⟨rfl, hmem⟩
    rcases hsplit _ h with hold | ⟨hcollides, hextended⟩
    · exact Or.inl hold
    · rcases mem_updateFragment hextended with hold | ⟨old, hold, heq⟩
      · exact Or.inl hold
      · rw [not_or] at hparts
        have hpath : (splitPath path).dropLast ++ [(splitPath path).getLastD ""] =
            splitPath path := by
          rw [List.getLastD_eq_getLast?, List.getLast?_eq_some_getLast hparts.1, Option.getD_some,
            List.dropLast_append_getLast]
        refine Or.inr ⟨old, List.mem_of_find?_eq_some hold, ⟨path, node, _, _, ?_, ?_, heq⟩⟩
        · rw [hpath]
          exact hparts.2
        · intro hbase
          rw [hold] at hcollides
          rw [hpath, triggered, List.find?_eq_none]
          simp only [hbase, Option.isNone_none, Bool.true_and, List.any_eq_false] at hcollides
          exact hcollides

/-- The same where the node is read from text. -/
theorem mem_addSchemaNode {name path json : String} {fragment : Fragment}
    (h : fragment ∈ (self.addSchemaNode parse name path json).2.fragments) :
    fragment ∈ self.fragments ∨ ∃ old ∈ self.fragments, self.Extends old fragment := by
  unfold addSchemaNode at h
  split at h
  · exact Or.inl h
  · split at h
    · exact Or.inl h
    · exact mem_addNode h

/-- Extension keeps the triggers. -/
theorem addSchemaNode_triggers {name path json : String} :
    (self.addSchemaNode parse name path json).2.fragments.map Fragment.triggerKey =
      self.fragments.map Fragment.triggerKey := by
  unfold addSchemaNode
  split
  · rfl
  · split
    · rfl
    · unfold addNode
      dsimp only
      split
      · rfl
      · -- Whether the path collides or not, the triggers are the same.
        have hite : ∀ (collides : Bool) (refused extended : Except String Unit × SchemaRegistry)
            (triggers : List (Option String)),
            refused.2.fragments.map Fragment.triggerKey = triggers →
            extended.2.fragments.map Fragment.triggerKey = triggers →
              (if collides = true then refused else extended).2.fragments.map
                Fragment.triggerKey = triggers := by
          intro collides refused extended triggers hrefused hextended
          cases collides with
          | true => exact hrefused
          | false => exact hextended
        exact hite _ _ _ _ rfl (updateFragment_triggers (fun _ => rfl) self.fragments)

namespace Reachable

/-- The fragments have the embedded triggers. -/
theorem triggers (hreach : Reachable parse self) :
    self.fragments.map Fragment.triggerKey = [none, some "ipv4", some "ethernet"] := by
  induction hreach with
  | new => rfl
  | extend _ hadd ih =>
      have hsnd := congrArg (fun out => out.2.fragments.map Fragment.triggerKey) hadd
      exact hsnd.symm.trans (addSchemaNode_triggers.trans ih)

/-- What holds of the embedded fragments and survives extension holds of every
    fragment of a reachable registry. -/
theorem forall_mem {P : Fragment → Prop} (hreach : Reachable parse self)
    (hnew : ∀ fragment ∈ SchemaRegistry.new.fragments, P fragment)
    (hextends : ∀ (registry : SchemaRegistry) (old fragment : Fragment), Reachable parse registry →
      registry.Extends old fragment → P old → P fragment) :
    ∀ fragment ∈ self.fragments, P fragment := by
  induction hreach with
  | new => exact hnew
  | extend hold hadd ih =>
      intro fragment hmem
      have hsnd := congrArg (fun out => out.2.fragments) hadd
      rcases mem_addSchemaNode (hsnd ▸ hmem) with hkept | ⟨old, hmem, hextended⟩
      · exact ih fragment hkept
      · exact hextends _ old fragment hold hextended (ih old hmem)

/-- The roots are objects that require no key. -/
theorem root_plain (hreach : Reachable parse self) : ∀ fragment ∈ self.fragments,
    fragment.root.node.type = some .object ∧ fragment.root.node.format = none ∧
      fragment.root.node.required = [] := by
  refine hreach.forall_mem ?_ ?_
  · decide
  · intro registry old fragment _ hextended h
    rcases hextended.root_eq with ⟨properties, heq⟩
    rw [heq]
    exact h

theorem root_fieldType (hreach : Reachable parse self) {fragment : Fragment}
    (hmem : fragment ∈ self.fragments) : fragment.root.fieldType = .object := by
  rcases hreach.root_plain fragment hmem with ⟨htype, hformat, _⟩
  have hs := fragment.root.semanticType_node
  rw [semanticType, htype, hformat] at hs
  exact (Except.ok.inj hs).symm

theorem root_required (hreach : Reachable parse self) {fragment : Fragment}
    (hmem : fragment ∈ self.fragments) : fragment.root.node.required = [] :=
  (hreach.root_plain fragment hmem).2.2

/-- A key triggers a fragment when it is one of the embedded triggers. -/
theorem triggered_isSome (hreach : Reachable parse self) {key : String} :
    (self.triggered key).isSome = true ↔ key = "ipv4" ∨ key = "ethernet" := by
  rw [SchemaRegistry.triggered_isSome, hreach.triggers]
  simp only [List.mem_cons, reduceCtorEq, Option.some.injEq, List.not_mem_nil, or_false, false_or]

theorem base_of_triggerKey {fragment : Fragment} (hmem : fragment ∈ SchemaRegistry.new.fragments)
    (hnone : fragment.triggerKey = none) : fragment = SchemaRegistry.new.base :=
  SchemaRegistry.new.eq_of_triggerKey_eq hmem SchemaRegistry.new.base_mem
    (hnone.trans SchemaRegistry.new.base_triggerKey.symm)

/-- The properties that the embedded base declares stay as they are. -/
theorem base_lookup (hreach : Reachable parse self) {key : String} {node : SchemaNode}
    (hkey : baseJson.properties.lookup key = some node) :
    self.base.root.node.properties.lookup key = some node := by
  have hscalar : ∀ entry ∈ baseJson.properties, entry.2.type ≠ some .object := by decide
  have hobject := hscalar _ (Assoc.mem_of_lookup hkey)
  have hall := hreach.forall_mem (P := fun fragment => fragment.triggerKey = none →
    fragment.root.node.properties.lookup key = some node) ?_ ?_
  · exact hall self.base self.base_mem self.base_triggerKey
  · intro fragment hmem hnone
    rw [base_of_triggerKey hmem hnone]
    exact hkey
  · intro registry old fragment _ hextended h hnone
    rcases hextended with ⟨path, node, name, parts, _, _, rfl⟩
    exact lookup_insertNode (h hnone) hobject

/-- No property of the base has a trigger's name, or none. -/
theorem base_property_none (hreach : Reachable parse self) {key : String}
    (hkey : key = "" ∨ key = "ipv4" ∨ key = "ethernet") : self.base.root.property key = none := by
  have hall := hreach.forall_mem (P := fun fragment => fragment.triggerKey = none →
    fragment.root.node.properties.lookup key = none) ?_ ?_
  · rw [← Option.map_eq_none_iff, TypedNode.property_map_node]
    exact hall self.base self.base_mem self.base_triggerKey
  · intro fragment hmem hnone
    rw [base_of_triggerKey hmem hnone]
    rcases hkey with rfl | rfl | rfl <;> rfl
  · intro registry old fragment hreach' hextended h hnone
    rcases hextended with ⟨path, node, name, parts, hnonempty, htriggered, rfl⟩
    refine lookup_insertNode_none (h hnone) ?_
    -- The path of an extension of the base begins with no such key.
    rintro rfl
    have hhead := htriggered hnone
    rcases hkey with hempty | htrigger
    · refine hnonempty ?_
      cases parts with
      | nil => exact List.mem_singleton.mpr hempty.symm
      | cons part parts => exact List.mem_cons.mpr (Or.inl hempty.symm)
    · rw [← Option.not_isSome_iff_eq_none, hreach'.triggered_isSome] at hhead
      exact hhead htrigger

end Reachable

end SchemaRegistry

end Netfyr
