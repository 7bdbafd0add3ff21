import Netfyr.Schema.Validate

/-!
# Pruning Read-Only Fields

The second walk over a state: it drops the properties a schema declares
read-only and reports their paths. The source takes a snapshot of a map's keys
and looks each up again; keys being distinct, that is one pass over the entries.

## Main definitions

* `pruneProperty`, `pruneEntries`, `pruneItems`: The walk.
* `SchemaRegistry.removeReadOnlyFields`: The walk over a state.

## Theorems

* `pruneFields_wellKeyed`: What is left has distinct keys.
-/

namespace Netfyr

/-- Put what is left of an entry before the entries left of the rest. -/
def keepEntry (key : String) (pruned : Option Value × List String)
    (rest : List (String × Value) × List String) : List (String × Value) × List String :=
  (pruned.1.toList.map (Prod.mk key) ++ rest.1, pruned.2 ++ rest.2)

mutual
/-- Prune one property: what is left of its value, and the paths removed. -/
def pruneProperty (node : TypedNode) : Value → String → Option Value × List String
  | value, path =>
      if node.node.writable = false then (none, [path])
      else
        match value with
        | .map entries =>
            let pruned := pruneEntries node entries path
            (some (.map pruned.1), pruned.2)
        | .list items =>
            match node.items with
            | some itemSchema =>
                let pruned := pruneItems itemSchema items path 0
                (some (.list pruned.1), pruned.2)
            | none => (some (.list items), [])
        | value => (some value, [])
termination_by structural value => value
/-- Prune the declared properties among the entries of an object. -/
def pruneEntries (node : TypedNode) :
    List (String × Value) → String → List (String × Value) × List String
  | [], _ => ([], [])
  | (key, value) :: entries, path =>
      keepEntry key
        (match node.property key with
        | some prop => pruneProperty prop value (joinPath path key)
        | none => (some value, []))
        (pruneEntries node entries path)
termination_by structural entries => entries
/-- Prune the elements of an array that are objects. -/
def pruneItems (node : TypedNode) : List Value → String → Nat → List Value × List String
  | [], _, _ => ([], [])
  | item :: items, path, index =>
      let pruned : Value × List String := match item with
        | .map entries =>
            let pruned := pruneEntries node entries s!"{path}[{index}]"
            (.map pruned.1, pruned.2)
        | item => (item, [])
      let rest := pruneItems node items path (index + 1)
      (pruned.1 :: rest.1, pruned.2 ++ rest.2)
termination_by structural items => items
end

/-- Pruning keeps a sublist of the keys. -/
theorem keys_keepEntry_sublist {key : String} {pruned : Option Value × List String}
    {rest : List (String × Value) × List String} {keys : List String}
    (h : (Assoc.keys rest.1).Sublist keys) :
    (Assoc.keys (keepEntry key pruned rest).1).Sublist (key :: keys) := by
  rcases pruned with ⟨_ | value, gone⟩
  · exact h.cons key
  · exact h.cons_cons key

theorem keepEntry_wellKeyed {key : String} {pruned : Option Value × List String}
    {rest : List (String × Value) × List String}
    (hp : ∀ value, pruned.1 = some value → value.WellKeyed)
    (h : Value.WellKeyedEntries rest.1) : Value.WellKeyedEntries (keepEntry key pruned rest).1 := by
  rcases pruned with ⟨_ | value, gone⟩
  · exact h
  · exact ⟨hp value rfl, h⟩

theorem pruneEntries_keys {node : TypedNode} {path : String} (entries : List (String × Value)) :
    (Assoc.keys (pruneEntries node entries path).1).Sublist (Assoc.keys entries) := by
  induction entries with
  | nil => exact List.Sublist.refl _
  | cons entry entries ih => exact keys_keepEntry_sublist ih

theorem pruneProperty_readOnly {node : TypedNode} (h : node.node.writable = false) (value : Value)
    (path : String) : pruneProperty node value path = (none, [path]) := by
  rw [pruneProperty.eq_def]
  exact if_pos h

theorem pruneProperty_map {node : TypedNode} (h : node.node.writable = true)
    (entries : List (String × Value)) (path : String) :
    pruneProperty node (.map entries) path =
      (some (.map (pruneEntries node entries path).1), (pruneEntries node entries path).2) := by
  rw [pruneProperty.eq_def]
  exact if_neg (by rw [h]; exact Bool.noConfusion)

theorem pruneProperty_list {node : TypedNode} (h : node.node.writable = true)
    (items : List Value) (path : String) :
    pruneProperty node (.list items) path =
      match node.items with
      | some itemSchema => (some (.list (pruneItems itemSchema items path 0).1),
          (pruneItems itemSchema items path 0).2)
      | none => (some (.list items), []) := by
  rw [pruneProperty.eq_def]
  exact if_neg (by rw [h]; exact Bool.noConfusion)

theorem pruneProperty_scalar {node : TypedNode} (h : node.node.writable = true) {value : Value}
    (hv : value.IsScalar) (path : String) : pruneProperty node value path = (some value, []) := by
  have hne : ¬ node.node.writable = false := by
    rw [h]
    exact Bool.noConfusion
  rw [pruneProperty.eq_def]
  cases value with
  | map _ => exact hv.elim
  | list _ => exact hv.elim
  | _ => exact if_neg hne

mutual
/-- Pruning a property keeps keys distinct. -/
theorem pruneProperty_wellKeyed {node : TypedNode} {path : String} : (value : Value) →
    value.WellKeyed → ∀ pruned, (pruneProperty node value path).1 = some pruned → pruned.WellKeyed
  | value, h, pruned, hp => by
      cases hw : node.node.writable with
      | false =>
          rw [pruneProperty_readOnly hw] at hp
          exact absurd hp (by simp only [reduceCtorEq, not_false_eq_true])
      | true =>
          cases value with
          | map entries =>
              rw [pruneProperty_map hw] at hp
              obtain rfl := Option.some.inj hp
              exact ⟨h.1.sublist (pruneEntries_keys entries), pruneEntries_wellKeyed entries h.2⟩
          | list items =>
              rw [pruneProperty_list hw] at hp
              cases hi : node.items with
              | none =>
                  rw [hi] at hp
                  obtain rfl := Option.some.inj hp
                  exact h
              | some itemSchema =>
                  rw [hi] at hp
                  obtain rfl := Option.some.inj hp
                  exact pruneItems_wellKeyed items 0 h
          | _ =>
              rw [pruneProperty_scalar hw (by trivial)] at hp
              obtain rfl := Option.some.inj hp
              exact h
termination_by structural value => value
/-- Pruning the entries of an object keeps keys distinct below them. -/
theorem pruneEntries_wellKeyed {node : TypedNode} {path : String} :
    (entries : List (String × Value)) → Value.WellKeyedEntries entries →
    Value.WellKeyedEntries (pruneEntries node entries path).1
  | [], _ => trivial
  | (key, value) :: entries, h => by
      refine keepEntry_wellKeyed ?_ (pruneEntries_wellKeyed entries h.2)
      rcases node.property key with _ | prop
      · rintro _ ⟨⟩
        exact h.1
      · exact pruneProperty_wellKeyed value h.1
termination_by structural entries => entries
/-- Pruning the elements of an array keeps keys distinct in them. -/
theorem pruneItems_wellKeyed {node : TypedNode} {path : String} :
    (items : List Value) → (index : Nat) → Value.WellKeyedList items →
    Value.WellKeyedList (pruneItems node items path index).1
  | [], _, _ => trivial
  | .map entries :: items, index, h =>
      ⟨⟨h.1.1.sublist (pruneEntries_keys entries), pruneEntries_wellKeyed entries h.1.2⟩,
        pruneItems_wellKeyed items (index + 1) h.2⟩
  | .string _ :: items, index, h | .u64 _ :: items, index, h | .i64 _ :: items, index, h
  | .bool _ :: items, index, h | .ipAddr _ :: items, index, h
  | .ipNetwork _ _ :: items, index, h | .list _ :: items, index, h =>
      ⟨h.1, pruneItems_wellKeyed items (index + 1) h.2⟩
termination_by structural items => items
end

namespace SchemaRegistry

/-- Prune one top-level entry: a triggered object by its fragment, dropped when
    nothing is left of it, and any other by the base schema. -/
def pruneField (self : SchemaRegistry) (key : String) (value : Value) :
    Option Value × List String :=
  match self.triggered key with
  | some fragment =>
      match value with
      | .map entries =>
          let pruned := pruneEntries fragment.root entries key
          (if pruned.1 = [] then none else some (.map pruned.1), pruned.2)
      | value => (some value, [])
  | none =>
      match self.base.root.property key with
      | some node => pruneProperty node value (joinPath "" key)
      | none => (some value, [])

/-- Prune the top-level entries. -/
def pruneFields (self : SchemaRegistry) :
    List (String × Value) → List (String × Value) × List String
  | [] => ([], [])
  | (key, value) :: entries => keepEntry key (self.pruneField key value) (self.pruneFields entries)

theorem pruneFields_keys {self : SchemaRegistry} (entries : List (String × Value)) :
    (Assoc.keys (self.pruneFields entries).1).Sublist (Assoc.keys entries) := by
  induction entries with
  | nil => exact List.Sublist.refl _
  | cons entry entries ih => exact keys_keepEntry_sublist ih

theorem pruneField_wellKeyed {self : SchemaRegistry} {key : String} {value : Value}
    (h : value.WellKeyed) :
    ∀ pruned, (self.pruneField key value).1 = some pruned → pruned.WellKeyed := by
  rw [pruneField]
  rcases self.triggered key with _ | fragment
  · rcases self.base.root.property key with _ | node
    · rintro _ ⟨⟩
      exact h
    · exact pruneProperty_wellKeyed value h
  · cases value with
    | map entries =>
        intro pruned hpruned
        rw [Option.ite_none_left_eq_some] at hpruned
        rcases hpruned with ⟨_, ⟨⟩⟩
        exact ⟨h.1.sublist (pruneEntries_keys entries), pruneEntries_wellKeyed entries h.2⟩
    | _ =>
        rintro _ ⟨⟩
        exact h

theorem pruneFields_wellKeyed {self : SchemaRegistry} {entries : List (String × Value)}
    (h : (Value.map entries).WellKeyed) : (Value.map (self.pruneFields entries).1).WellKeyed := by
  refine ⟨h.1.sublist (pruneFields_keys entries), ?_⟩
  have hes := h.2
  clear h
  induction entries with
  | nil => trivial
  | cons entry entries ih => exact keepEntry_wellKeyed (pruneField_wellKeyed hes.1) (ih hes.2)

/-- Remove the declared read-only fields of a state, with their paths. -/
def removeReadOnlyFields (self : SchemaRegistry) (state : State) : State × List String :=
  let pruned := self.pruneFields state.fields.entries
  ({ state with fields := ⟨pruned.1, pruneFields_wellKeyed state.fields.wellKeyed⟩ }, pruned.2)

end SchemaRegistry

end Netfyr
