import Netfyr.Data.Assoc
import Netfyr.State.IpAddr

/-!
# Configuration Values

The type of every configuration value, and the ordered field maps built from
it. A map inside a value is an association list; that its keys are distinct is
`Value.WellKeyed`, required at every depth. A top-level field map is a
`FieldMap`, which carries the condition, so a map with a repeated key cannot be
built and every operation below has to keep it.

Equality of values is positional: two maps with the same pairs in different
orders are different values, which is what equality of association lists says.

## Main definitions

* `Value`: A configuration value.
* `Value.WellKeyed`: Distinct keys at every depth.
* `Value.display`: Canonical text.
* `FieldMap`: An ordered map of fields.
* `FieldMap.get?`, `FieldMap.insert`, `FieldMap.shiftRemove`: Its operations.
-/

namespace Netfyr

/-- A configuration value. -/
inductive Value where
  | string (text : String)
  | u64 (n : UInt64)
  | i64 (n : Int64)
  | bool (b : Bool)
  | ipAddr (addr : IpAddr)
  | ipNetwork (addr : IpAddr) (prefixLen : UInt8)
  | list (items : List Value)
  | map (entries : List (String × Value))

namespace Value

/-- A value that is neither a map nor a list. -/
def IsScalar : Value → Prop
  | .list _ | .map _ => False
  | _ => True

mutual
/-- Distinct keys in every map of a value. -/
def WellKeyed : Value → Prop
  | .string _ | .u64 _ | .i64 _ | .bool _ | .ipAddr _ | .ipNetwork _ _ => True
  | .list items => WellKeyedList items
  | .map entries => (Assoc.keys entries).Nodup ∧ WellKeyedEntries entries
termination_by structural v => v
/-- Every element has distinct keys. -/
def WellKeyedList : List Value → Prop
  | [] => True
  | v :: vs => WellKeyed v ∧ WellKeyedList vs
termination_by structural vs => vs
/-- Every entry's value has distinct keys. -/
def WellKeyedEntries : List (String × Value) → Prop
  | [] => True
  | (_, v) :: es => WellKeyed v ∧ WellKeyedEntries es
termination_by structural es => es
end

theorem string_wellKeyed (text : String) : (string text).WellKeyed := trivial

theorem u64_wellKeyed (n : UInt64) : (u64 n).WellKeyed := trivial

theorem bool_wellKeyed (b : Bool) : (bool b).WellKeyed := trivial

theorem ipNetwork_wellKeyed (addr : IpAddr) (len : UInt8) : (ipNetwork addr len).WellKeyed :=
  trivial

theorem wellKeyedList_iff {vs : List Value} : WellKeyedList vs ↔ ∀ v ∈ vs, v.WellKeyed := by
  induction vs with
  | nil => simp only [WellKeyedList, List.not_mem_nil, false_imp_iff, implies_true]
  | cons v vs ih => rw [WellKeyedList, ih, List.forall_mem_cons]

theorem wellKeyedEntries_iff {es : List (String × Value)} :
    WellKeyedEntries es ↔ ∀ e ∈ es, e.2.WellKeyed := by
  induction es with
  | nil => simp only [WellKeyedEntries, List.not_mem_nil, false_imp_iff, implies_true]
  | cons e es ih => rw [WellKeyedEntries, ih, List.forall_mem_cons]

mutual
/-- Canonical text: scalars bare, lists as `[a, b]`, maps as `{k: v}`. -/
def display : Value → String
  | .string text => text
  | .u64 n => toString n.toNat
  | .i64 n => toString n.toInt
  | .bool b => if b then "true" else "false"
  | .ipAddr addr => addr.display
  | .ipNetwork addr len => addr.display ++ "/" ++ toString len.toNat
  | .list items => "[" ++ ", ".intercalate (displayList items) ++ "]"
  | .map entries => "\x7b" ++ ", ".intercalate (displayEntries entries) ++ "\x7d"
termination_by structural v => v
/-- The texts of the elements of a list. -/
def displayList : List Value → List String
  | [] => []
  | v :: vs => display v :: displayList vs
termination_by structural vs => vs
/-- The texts of the entries of a map. -/
def displayEntries : List (String × Value) → List String
  | [] => []
  | (k, v) :: es => (k ++ ": " ++ display v) :: displayEntries es
termination_by structural es => es
end

mutual
/-- Positional equality of values is decidable. -/
def decEq : (a b : Value) → Decidable (a = b)
  | .string a, .string b => decidable_of_iff (a = b) (by rw [string.injEq])
  | .u64 a, .u64 b => decidable_of_iff (a = b) (by rw [u64.injEq])
  | .i64 a, .i64 b => decidable_of_iff (a = b) (by rw [i64.injEq])
  | .bool a, .bool b => decidable_of_iff (a = b) (by rw [bool.injEq])
  | .ipAddr a, .ipAddr b => decidable_of_iff (a = b) (by rw [ipAddr.injEq])
  | .ipNetwork a m, .ipNetwork b n => decidable_of_iff (a = b ∧ m = n) (by rw [ipNetwork.injEq])
  | .list a, .list b => @decidable_of_iff _ (a = b) (by rw [list.injEq]) (decEqList a b)
  | .map a, .map b => @decidable_of_iff _ (a = b) (by rw [map.injEq]) (decEqEntries a b)
  | .string _, .u64 _ | .string _, .i64 _ | .string _, .bool _ | .string _, .ipAddr _
  | .string _, .ipNetwork _ _ | .string _, .list _ | .string _, .map _
  | .u64 _, .string _ | .u64 _, .i64 _ | .u64 _, .bool _ | .u64 _, .ipAddr _
  | .u64 _, .ipNetwork _ _ | .u64 _, .list _ | .u64 _, .map _
  | .i64 _, .string _ | .i64 _, .u64 _ | .i64 _, .bool _ | .i64 _, .ipAddr _
  | .i64 _, .ipNetwork _ _ | .i64 _, .list _ | .i64 _, .map _
  | .bool _, .string _ | .bool _, .u64 _ | .bool _, .i64 _ | .bool _, .ipAddr _
  | .bool _, .ipNetwork _ _ | .bool _, .list _ | .bool _, .map _
  | .ipAddr _, .string _ | .ipAddr _, .u64 _ | .ipAddr _, .i64 _ | .ipAddr _, .bool _
  | .ipAddr _, .ipNetwork _ _ | .ipAddr _, .list _ | .ipAddr _, .map _
  | .ipNetwork _ _, .string _ | .ipNetwork _ _, .u64 _ | .ipNetwork _ _, .i64 _
  | .ipNetwork _ _, .bool _ | .ipNetwork _ _, .ipAddr _ | .ipNetwork _ _, .list _
  | .ipNetwork _ _, .map _
  | .list _, .string _ | .list _, .u64 _ | .list _, .i64 _ | .list _, .bool _
  | .list _, .ipAddr _ | .list _, .ipNetwork _ _ | .list _, .map _
  | .map _, .string _ | .map _, .u64 _ | .map _, .i64 _ | .map _, .bool _
  | .map _, .ipAddr _ | .map _, .ipNetwork _ _ | .map _, .list _ =>
      isFalse (by simp only [reduceCtorEq, not_false_eq_true])
termination_by structural a => a
/-- Equality of lists of values is decidable. -/
def decEqList : (a b : List Value) → Decidable (a = b)
  | [], [] => isTrue rfl
  | [], _ :: _ | _ :: _, [] => isFalse (by simp only [reduceCtorEq, not_false_eq_true])
  | a :: as, b :: bs => @decidable_of_iff _ (a = b ∧ as = bs) (by rw [List.cons.injEq])
      (@instDecidableAnd _ _ (decEq a b) (decEqList as bs))
termination_by structural a => a
/-- Equality of entry lists is decidable. -/
def decEqEntries : (a b : List (String × Value)) → Decidable (a = b)
  | [], [] => isTrue rfl
  | [], _ :: _ | _ :: _, [] => isFalse (by simp only [reduceCtorEq, not_false_eq_true])
  | (k, a) :: as, (l, b) :: bs =>
      @decidable_of_iff _ ((k = l ∧ a = b) ∧ as = bs) (by rw [List.cons.injEq, Prod.mk.injEq])
        (@instDecidableAnd _ _ (@instDecidableAnd _ _ _ (decEq a b)) (decEqEntries as bs))
termination_by structural a => a
end

instance : DecidableEq Value := decEq

mutual
/-- Distinct keys at every depth is decidable. -/
def decWellKeyed : (v : Value) → Decidable v.WellKeyed
  | .string _ | .u64 _ | .i64 _ | .bool _ | .ipAddr _ | .ipNetwork _ _ => isTrue trivial
  | .list items => decWellKeyedList items
  | .map entries => @instDecidableAnd _ _ _ (decWellKeyedEntries entries)
termination_by structural v => v
/-- The same for the elements of a list. -/
def decWellKeyedList : (vs : List Value) → Decidable (WellKeyedList vs)
  | [] => isTrue trivial
  | v :: vs => @instDecidableAnd _ _ (decWellKeyed v) (decWellKeyedList vs)
termination_by structural vs => vs
/-- The same for the entries of a map. -/
def decWellKeyedEntries : (es : List (String × Value)) → Decidable (WellKeyedEntries es)
  | [] => isTrue trivial
  | (_, v) :: es => @instDecidableAnd _ _ (decWellKeyed v) (decWellKeyedEntries es)
termination_by structural es => es
end

instance (v : Value) : Decidable v.WellKeyed := decWellKeyed v

instance (es : List (String × Value)) : Decidable (WellKeyedEntries es) := decWellKeyedEntries es

end Value

/-- An ordered map of fields: entries with distinct keys, at every depth. -/
structure FieldMap where
  entries : List (String × Value)
  wellKeyed : (Value.map entries).WellKeyed
  deriving DecidableEq

namespace FieldMap

/-- The map without fields. -/
def empty : FieldMap := ⟨[], List.nodup_nil, trivial⟩

/-- The value of a field. -/
def get? (fields : FieldMap) (key : String) : Option Value := fields.entries.lookup key

/-- The keys, in order. -/
def keys (fields : FieldMap) : List String := Assoc.keys fields.entries

/-- Whether a field is present. -/
def containsKey (fields : FieldMap) (key : String) : Bool := (fields.get? key).isSome

theorem insert_wellKeyed {es : List (String × Value)} {k : String} {v : Value}
    (h : (Value.map es).WellKeyed) (hv : v.WellKeyed) :
    (Value.map (Assoc.insert es k v)).WellKeyed := by
  refine ⟨Assoc.keys_insert_nodup h.1, ?_⟩
  have hes := h.2
  clear h
  induction es with
  | nil => exact ⟨hv, trivial⟩
  | cons e es ih =>
      rcases e with ⟨l, w⟩
      by_cases hl : l = k
      · rw [Assoc.insert, if_pos hl]
        exact ⟨hv, hes.2⟩
      · rw [Assoc.insert, if_neg hl]
        exact ⟨hes.1, ih hes.2⟩

/-- Set a field, in place when it is there and at the end when it is not. -/
def insert (fields : FieldMap) (key : String) (value : Value) (h : value.WellKeyed) : FieldMap :=
  ⟨Assoc.insert fields.entries key value, insert_wellKeyed fields.wellKeyed h⟩

theorem shiftRemove_wellKeyed {es : List (String × Value)} {k : String}
    (h : (Value.map es).WellKeyed) : (Value.map (Assoc.shiftRemove es k)).WellKeyed := by
  refine ⟨Assoc.keys_shiftRemove_nodup h.1, Value.wellKeyedEntries_iff.mpr fun e he => ?_⟩
  exact Value.wellKeyedEntries_iff.mp h.2 e (List.mem_of_mem_filter he)

/-- Remove a field, keeping the order of the others. -/
def shiftRemove (fields : FieldMap) (key : String) : FieldMap :=
  ⟨Assoc.shiftRemove fields.entries key, shiftRemove_wellKeyed fields.wellKeyed⟩

theorem get?_isSome {fields : FieldMap} {key : String} :
    (fields.get? key).isSome = true ↔ key ∈ fields.keys := Assoc.lookup_isSome

theorem keys_nodup (fields : FieldMap) : fields.keys.Nodup := fields.wellKeyed.1

theorem get?_wellKeyed {fields : FieldMap} {key : String} {value : Value}
    (h : fields.get? key = some value) : value.WellKeyed :=
  Value.wellKeyedEntries_iff.mp fields.wellKeyed.2 (key, value) (Assoc.mem_of_lookup h)

/-- The map that a field holds, if it holds one. -/
def getMap? (fields : FieldMap) (key : String) : Option FieldMap :=
  match h : fields.get? key with
  | some (.map entries) => some ⟨entries, get?_wellKeyed h⟩
  | _ => none

theorem getMap?_eq_some {fields inner : FieldMap} {key : String} :
    fields.getMap? key = some inner ↔ fields.get? key = some (.map inner.entries) := by
  rw [getMap?]
  split
  · next entries h =>
      constructor
      · intro heq
        rw [h, ← Option.some.inj heq]
      · intro heq
        rw [h, Option.some.injEq, Value.map.injEq] at heq
        cases inner
        simp only [heq]
  · next hother =>
      constructor
      · intro h
        exact absurd h (by simp only [reduceCtorEq, not_false_eq_true])
      · intro h
        exact absurd h (hother inner.entries)

theorem getMap?_congr {fields other : FieldMap} {key : String}
    (h : fields.get? key = other.get? key) : fields.getMap? key = other.getMap? key := by
  refine Option.ext fun inner => ?_
  rw [getMap?_eq_some, getMap?_eq_some, h]

@[simp] theorem get?_shiftRemove (fields : FieldMap) (k k' : String) :
    (fields.shiftRemove k).get? k' = if k' = k then none else fields.get? k' :=
  Assoc.lookup_shiftRemove

@[simp] theorem get?_insert (fields : FieldMap) (k k' : String) (v : Value) (h : v.WellKeyed) :
    (fields.insert k v h).get? k' = if k' = k then some v else fields.get? k' :=
  Assoc.lookup_insert

end FieldMap

end Netfyr
