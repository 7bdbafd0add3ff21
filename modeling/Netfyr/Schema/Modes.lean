import Netfyr.Schema.ReadOnly
import Netfyr.Schema.Violation

/-!
# The Two Modes

Validating policy input is validating a query result and refusing what is
read-only besides. The walk is the same in both modes, and the refusals stand
between the other violations, so leaving them out gives back the violations of a
query result in their order. No violation hides another one: what is wrong with
the value of a read-only property is reported beside the refusal.

## Main definitions

* `valueErrors`: The violations that are not refusals.

## Theorems

* `walkNode_valueErrors`: The walk in both modes.
* `SchemaRegistry.Reachable.validateWritable_modes`: The modes of validation.
-/

namespace Netfyr

/-- The violations that are about values, and not about setting them. -/
def valueErrors (errors : List ValidationError) : List ValidationError :=
  errors.filter fun error => !error.isReadOnly

@[simp] theorem valueErrors_nil : valueErrors [] = [] := rfl

@[simp] theorem valueErrors_append (as bs : List ValidationError) :
    valueErrors (as ++ bs) = valueErrors as ++ valueErrors bs := List.filter_append as bs

theorem valueErrors_eq_self {errors : List ValidationError} (h : ¬ reportsReadOnly errors) :
    valueErrors errors = errors := by
  refine List.filter_eq_self.mpr fun error hmem => ?_
  rw [Bool.not_eq_true', Bool.eq_false_iff]
  exact fun hro => h ⟨error, hmem, hro⟩

theorem mem_valueErrors {errors : List ValidationError} {error : ValidationError} :
    error ∈ valueErrors errors ↔ error ∈ errors ∧ error.isReadOnly = false := by
  rw [valueErrors, List.mem_filter, Bool.not_eq_true']

section Walk

variable {fragment : String} {node : TypedNode}

theorem valueErrors_readOnlyErrors (path : String) (writableOnly : Bool) :
    valueErrors (readOnlyErrors node path fragment writableOnly) = [] := by
  unfold readOnlyErrors
  split
  · rfl
  · rfl

/-- A query result has no refusals. -/
theorem valueErrors_walkNode_false (value : Value) (path : String) :
    valueErrors (walkNode fragment false node value path) =
      walkNode fragment false node value path := by
  refine valueErrors_eq_self fun h => ?_
  exact Bool.false_ne_true (walkNode_readOnly value path |>.mp h).1

/-- The mode makes no difference to a value without parts. -/
theorem walkNode_scalar {value : Value} (hscalar : value.IsScalar) (path : String) :
    walkNode fragment true node value path = walkNode fragment false node value path := by
  rw [walkNode.eq_def fragment true, walkNode.eq_def fragment false]
  generalize node.fieldType = expected
  cases value with
  | string _ | u64 _ | i64 _ | bool _ | ipAddr _ | ipNetwork _ _ =>
      cases expected <;> rfl
  | list _ => exact hscalar.elim
  | map _ => exact hscalar.elim

theorem walkNode_valueErrors_scalar {value : Value} (hscalar : value.IsScalar) (path : String) :
    valueErrors (walkNode fragment true node value path) =
      walkNode fragment false node value path := by
  rw [walkNode_scalar hscalar, valueErrors_walkNode_false]

mutual
/-- The walk over policy input finds what the walk over a query result finds,
    and refusals. -/
theorem walkNode_valueErrors {node : TypedNode} : (value : Value) → (path : String) →
    valueErrors (walkNode fragment true node value path) =
      walkNode fragment false node value path
  | .map entries, path => by
      by_cases ht : node.fieldType = .object
      · rw [walkNode_map ht, walkNode_map ht, valueErrors_append, walkEntries_valueErrors entries,
          valueErrors_eq_self reportsReadOnly_missingErrors]
      · have hnot : ¬ HasType node (.map entries) := ht
        rw [walkNode_mistyped hnot, walkNode_mistyped hnot]
        rfl
  | .list items, path => by
      by_cases ht : node.fieldType = .array
      · rw [walkNode_list ht, walkNode_list ht]
        cases node.items with
        | none => rfl
        | some itemSchema => exact walkItems_valueErrors items path 0
      · have hnot : ¬ HasType node (.list items) := ht
        rw [walkNode_mistyped hnot, walkNode_mistyped hnot]
        rfl
  | .string _, path | .u64 _, path | .i64 _, path | .bool _, path | .ipAddr _, path
  | .ipNetwork _ _, path => by
      refine walkNode_valueErrors_scalar ?_ path
      trivial
/-- The same for the elements of an array. -/
theorem walkItems_valueErrors {node : TypedNode} : (items : List Value) → (path : String) →
    (index : Nat) → valueErrors (walkItems fragment true node items path index) =
      walkItems fragment false node items path index
  | [], _, _ => rfl
  | item :: items, path, index => by
      rw [walkItems, walkItems, valueErrors_append, walkNode_valueErrors item,
        walkItems_valueErrors items]
/-- The same for the entries of an object. -/
theorem walkEntries_valueErrors {node : TypedNode} {ignoreKeys : List String} :
    (entries : List (String × Value)) → (path : String) →
    valueErrors (walkEntries fragment true node entries path ignoreKeys) =
      walkEntries fragment false node entries path ignoreKeys
  | [], _ => rfl
  | (key, value) :: entries, path => by
      rw [walkEntries, walkEntries, valueErrors_append, walkEntries_valueErrors entries]
      refine congrArg (· ++ _) ?_
      by_cases hignored : ignoreKeys.contains key = true
      · rw [if_pos hignored, if_pos hignored, valueErrors_nil]
      · rw [if_neg hignored, if_neg hignored]
        cases node.property key with
        | none =>
            dsimp only
            split
            · rfl
            · rfl
        | some prop =>
            dsimp only
            rw [valueErrors_append, valueErrors_readOnlyErrors, walkNode_valueErrors value]
            rfl
end

end Walk

namespace SchemaRegistry

/-- A fragment finds the same in both modes, but for refusals. -/
theorem fragmentErrors_valueErrors (self : SchemaRegistry) (state : State) (fragment : Fragment) :
    valueErrors (self.fragmentErrors state true fragment) =
      self.fragmentErrors state false fragment := by
  have hmap (node : TypedNode) (entries : List (String × Value)) (path : String)
      (ignoreKeys : List String) :
      valueErrors (walkMap fragment.name true node entries path ignoreKeys) =
        walkMap fragment.name false node entries path ignoreKeys := by
    rw [walkMap, walkMap, valueErrors_append, walkEntries_valueErrors entries,
      valueErrors_eq_self reportsReadOnly_missingErrors]
  unfold fragmentErrors
  split
  · rw [valueErrors_append, hmap]
    refine congrArg (walkMap _ _ _ _ _ _ ++ ·) ?_
    -- The device type is not policy input in either mode.
    split
    · rfl
    · rw [walkProperty, valueErrors_append, valueErrors_readOnlyErrors,
        valueErrors_walkNode_false]
      rfl
  · split
    · exact hmap _ _ _ _
    · rfl
    · rfl

theorem validateWritable_valueErrors (self : SchemaRegistry) (state : State) :
    valueErrors (self.validateWritable state) = self.validate state := by
  unfold validateWritable validate validateInner
  rw [valueErrors, List.filter_flatMap]
  exact congrArg (self.fragments.flatMap ·)
    (funext fun fragment => self.fragmentErrors_valueErrors state fragment)

namespace Reachable

variable {parse : String → Except String SchemaNode} {self : SchemaRegistry}

/-- Validating policy input finds what validating a query result finds, in its
    order, and refusals. So valid policy input is a valid query result, every
    wrong value is reported beside all refusals, and every refusal is reported
    whatever is wrong with the value. -/
theorem validateWritable_modes (hreach : Reachable parse self) (state : State) :
    valueErrors (self.validateWritable state) = self.validate state ∧
      (self.validateWritable state = [] → self.validate state = []) ∧
      (∀ error, error.isReadOnly = false →
        (error ∈ self.validateWritable state ↔ self.Violation state false error)) ∧
      ∀ fragment node entries path key prop,
        self.Described state fragment ⟨node, .map entries, path⟩ → node.fieldType = .object →
          key ∈ Assoc.keys entries → node.property key = some prop →
            prop.node.writable = false →
              .readOnlyField fragment.name (joinPath path key) ∈ self.validateWritable state := by
  have hmodes := self.validateWritable_valueErrors state
  refine ⟨hmodes, ?_, ?_, ?_⟩
  · intro hvalid
    rw [hvalid] at hmodes
    exact hmodes.symm
  · intro error hvalue
    rw [← hreach.mem_validateInner, ← validate, ← hmodes, mem_valueErrors]
    exact (and_iff_left hvalue).symm
  · intro fragment node entries path key prop hsite ht hkey hprop hro
    refine hreach.mem_validateInner.mpr ⟨fragment, _, hsite, ?_⟩
    exact .readOnly rfl ht hkey hprop hro

end Reachable

/-- A state that sets the speed of a link, which is read-only, to a text. -/
def speedState : State :=
  (State.new (.static "")).setField "ethernet" (.map [("speed", .string "fast")]) (by decide)

theorem validateWritable_modes_speed :
    valueErrors (new.validateWritable speedState) = new.validate speedState ∧
      (new.validateWritable speedState = [] → new.validate speedState = []) ∧
      (∀ error, error.isReadOnly = false →
        (error ∈ new.validateWritable speedState ↔ new.Violation speedState false error)) ∧
      ∀ fragment node entries path key prop,
        new.Described speedState fragment ⟨node, .map entries, path⟩ → node.fieldType = .object →
          key ∈ Assoc.keys entries → node.property key = some prop →
            prop.node.writable = false →
              .readOnlyField fragment.name (joinPath path key) ∈
                new.validateWritable speedState := by
  have hreach : Reachable parseCount new := .new
  exact hreach.validateWritable_modes speedState

end SchemaRegistry

end Netfyr
