import Netfyr.Schema.Validate

/-!
# The Rules of the Dialect

What a schema node asks of a value, stated without the walk. `Part` says which
parts of a value a node describes: the value itself, and by way of a declared
type the declared properties and the elements. `Breaks` lists the rules a single
part can break, each with the violation that reports it.

Below a value of the wrong type nothing is described: there is no telling what
its parts should be. Ranges are the integers' and enumerations the strings'; a
network is text in the schema, but not a string of the model.

## Main definitions

* `Part`: The parts of a value that a node describes.
* `HasType`, `IsIpv4Network`: What a type and a format ask for.
* `Breaks`: The rules, with the violation of each.
* `Faulty`: A part of a value breaks a rule.

## Theorems

* `breaks_integer`, `breaks_string`, `breaks_network`, `breaks_map`: What values
  of a type can break.
* `faulty_map`, `faulty_list`: The parts of a value with parts.
* `mem_walkNode`: A walk reports what the parts break.
-/

namespace Netfyr

/-- A part of a value: the node that describes it, the part, and its path. -/
structure Site where
  node : TypedNode
  value : Value
  path : String

/-- The parts of a value that a node describes. -/
inductive Part : TypedNode → Value → String → Site → Prop where
  | whole {node : TypedNode} {value : Value} {path : String} :
      Part node value path ⟨node, value, path⟩
  | property {node prop : TypedNode} {entries : List (String × Value)} {key path : String}
      {value : Value} {site : Site} :
      node.fieldType = .object → (key, value) ∈ entries → node.property key = some prop →
      Part prop value (joinPath path key) site → Part node (.map entries) path site
  | item {node itemSchema : TypedNode} {items : List Value} {index : Nat} {path : String}
      {value : Value} {site : Site} :
      node.fieldType = .array → node.items = some itemSchema → items[index]? = some value →
      Part itemSchema value s!"{path}[{index}]" site → Part node (.list items) path site

/-- The value is of the declared type. Where the format asks for a network, text
    is of that type too. -/
def HasType (node : TypedNode) : Value → Prop
  | .string _ => node.fieldType = .string ∨
      (node.fieldType = .ipNetwork ∧ node.node.format = some .ipv4Cidr)
  | .u64 _ | .i64 _ => node.fieldType = .integer
  | .bool _ => node.fieldType = .boolean
  | .ipAddr _ => node.fieldType = .ipAddress
  | .ipNetwork _ _ => node.fieldType = .ipNetwork
  | .list _ => node.fieldType = .array
  | .map _ => node.fieldType = .object

/-- The mathematical value of an integer. -/
def Value.integer? : Value → Option Int
  | .u64 n => some n.toNat
  | .i64 n => some n.toInt
  | _ => none

/-- The value is an IPv4 network, or text of one. -/
def IsIpv4Network : Value → Prop
  | .ipNetwork addr len => addr.isIpv4 = true ∧ len ≤ 32
  | .string text => ∃ addr len, parseIpNetwork text = some (.v4 addr, len) ∧ len ≤ 32
  | _ => False

/-- The rules that one part of a state can break, and how that is reported. -/
inductive Breaks (fragment : String) (writableOnly : Bool) : Site → ValidationError → Prop where
  | mistyped {node : TypedNode} {value : Value} {path : String} :
      ¬ HasType node value →
      Breaks fragment writableOnly ⟨node, value, path⟩
        (.wrongType fragment path node.fieldType (valueType value))
  | outOfRange {node : TypedNode} {value : Value} {path : String} {n : Int} :
      node.fieldType = .integer → value.integer? = some n → ¬ InRange node n →
      Breaks fragment writableOnly ⟨node, value, path⟩
        (.outOfRange fragment path node.node.minimum node.node.maximum)
  | unlisted {node : TypedNode} {text path : String} {allowed : List String} :
      node.fieldType = .string → node.node.enum = some allowed → text ∉ allowed →
      Breaks fragment writableOnly ⟨node, .string text, path⟩
        (.enumViolation fragment path allowed)
  | malformed {node : TypedNode} {value : Value} {path : String} :
      node.fieldType = .ipNetwork → HasType node value → ¬ IsIpv4Network value →
      Breaks fragment writableOnly ⟨node, value, path⟩ (.invalidFormat fragment path "ipv4-cidr")
  | undeclared {node : TypedNode} {entries : List (String × Value)} {key path : String} :
      node.fieldType = .object → key ∈ Assoc.keys entries → node.property key = none →
      node.isOpen = false →
      Breaks fragment writableOnly ⟨node, .map entries, path⟩
        (.unknownField fragment (joinPath path key))
  | missing {node : TypedNode} {entries : List (String × Value)} {key path : String} :
      node.fieldType = .object → key ∈ node.node.required → key ∉ Assoc.keys entries →
      Breaks fragment writableOnly ⟨node, .map entries, path⟩
        (.missingField fragment (joinPath path key))
  | readOnly {node prop : TypedNode} {entries : List (String × Value)} {key path : String} :
      writableOnly = true → node.fieldType = .object → key ∈ Assoc.keys entries →
      node.property key = some prop → prop.node.writable = false →
      Breaks fragment writableOnly ⟨node, .map entries, path⟩
        (.readOnlyField fragment (joinPath path key))

/-- A part of a value breaks a rule. -/
def Faulty (fragment : String) (writableOnly : Bool) (node : TypedNode) (value : Value)
    (path : String) (error : ValidationError) : Prop :=
  ∃ site, Part node value path site ∧ Breaks fragment writableOnly site error

variable {fragment : String} {writableOnly : Bool} {node : TypedNode} {path : String}
  {error : ValidationError}

section Rules

/-- The type test is the rule. -/
theorem typeAccepts_iff {value : Value} :
    typeAccepts node node.fieldType (valueType value) = true ↔ HasType node value := by
  unfold typeAccepts
  generalize ht : node.fieldType = t
  -- Both sides are a table over the kinds of values and the types.
  cases value <;> cases t <;> simp [valueType, HasType, ht]

/-- The values of an object node are the maps. -/
theorem hasType_object {value : Value} (ht : node.fieldType = .object) :
    HasType node value ↔ ∃ entries, value = .map entries := by
  cases value <;> simp [HasType, ht]

/-- A value of the wrong type is one violation, whatever its parts. -/
theorem faulty_mistyped {value : Value} (h : ¬ HasType node value) :
    Faulty fragment writableOnly node value path error ↔
      error = .wrongType fragment path node.fieldType (valueType value) := by
  constructor
  · rintro ⟨site, hpart, hbreaks⟩
    cases hpart with
    -- A part below would make the value an object or an array, hence of its type.
    | property hobject => exact absurd hobject h
    | item harray => exact absurd harray h
    | whole =>
        cases hbreaks with
        | mistyped => rfl
        | outOfRange hinteger hn _ =>
            cases value with
            | u64 n => exact absurd hinteger h
            | i64 n => exact absurd hinteger h
            | _ => exact absurd hn (by simp only [Value.integer?, reduceCtorEq, not_false_eq_true])
        | unlisted hstring => exact absurd (Or.inl hstring) h
        | malformed _ htype => exact absurd htype h
        | undeclared hobject => exact absurd hobject h
        | missing hobject => exact absurd hobject h
        | readOnly _ hobject => exact absurd hobject h
  · rintro rfl
    exact ⟨_, .whole, .mistyped h⟩

theorem mem_rangeErrors {n : Int} : error ∈ rangeErrors node n path fragment ↔
    ¬ InRange node n ∧ error = .outOfRange fragment path node.node.minimum node.node.maximum := by
  constructor
  · intro hmem
    have hne : rangeErrors node n path fragment ≠ [] := List.ne_nil_of_mem hmem
    rw [Ne, rangeErrors_eq_nil] at hne
    refine ⟨hne, ?_⟩
    -- Both bounds are reported with the same violation.
    rcases List.mem_append.mp hmem with hlow | hhigh
    · split at hlow
      · exact List.mem_singleton.mp hlow
      · exact absurd hlow List.not_mem_nil
    · split at hhigh
      · exact List.mem_singleton.mp hhigh
      · exact absurd hhigh List.not_mem_nil
  · rintro ⟨hrange, rfl⟩
    rw [InRange, not_and_or] at hrange
    rw [rangeErrors, List.mem_append]
    rcases hrange with hlow | hhigh
    · push Not at hlow
      rcases hlow with ⟨min, hmin, hlt⟩
      rw [hmin, Option.any_some, if_pos (decide_eq_true hlt)]
      exact Or.inl List.mem_cons_self
    · push Not at hhigh
      rcases hhigh with ⟨max, hmax, hlt⟩
      rw [hmax, Option.any_some, if_pos (decide_eq_true hlt)]
      exact Or.inr List.mem_cons_self

/-- What an integer can break is its range. -/
theorem breaks_integer {value : Value} {n : Int} (ht : HasType node value)
    (hn : value.integer? = some n) :
    Breaks fragment writableOnly ⟨node, value, path⟩ error ↔
      error ∈ rangeErrors node n path fragment := by
  have hinteger : node.fieldType = .integer := by
    cases value with
    | u64 _ => exact ht
    | i64 _ => exact ht
    | _ => exact absurd hn (by simp only [Value.integer?, reduceCtorEq, not_false_eq_true])
  rw [mem_rangeErrors]
  constructor
  · intro hbreaks
    cases hbreaks with
    | mistyped h => exact absurd ht h
    | outOfRange _ hn' hrange =>
        rw [Option.some.inj (hn.symm.trans hn')]
        exact ⟨hrange, rfl⟩
    | malformed hnetwork => exact absurd (hinteger.symm.trans hnetwork) (by decide)
    -- The other rules are about text and maps.
    | _ => exact absurd hn (by simp only [Value.integer?, reduceCtorEq, not_false_eq_true])
  · rintro ⟨hrange, rfl⟩
    exact .outOfRange hinteger hn hrange

/-- What plain text can break is its enumeration. -/
theorem breaks_string {text : String} (ht : node.fieldType = .string) :
    Breaks fragment writableOnly ⟨node, .string text, path⟩ error ↔
      error ∈ enumErrors node text path fragment := by
  rw [enumErrors]
  constructor
  · intro hbreaks
    cases hbreaks with
    | mistyped h => exact absurd (Or.inl ht) h
    | outOfRange hinteger => exact absurd (ht.symm.trans hinteger) (by decide)
    | malformed hnetwork => exact absurd (ht.symm.trans hnetwork) (by decide)
    | unlisted _ henum hnot =>
        rw [henum]
        dsimp only
        rw [if_neg (by rwa [List.contains_iff_mem])]
        exact List.mem_cons_self
  · intro hmem
    split at hmem
    · next allowed henum =>
        split at hmem
        · exact absurd hmem List.not_mem_nil
        · next hnot =>
            rw [List.contains_iff_mem] at hnot
            rw [List.mem_singleton.mp hmem]
            exact .unlisted ht henum hnot
    · exact absurd hmem List.not_mem_nil

/-- The format test is the rule. -/
theorem isIpv4Cidr_iff {text : String} : isIpv4Cidr text = true ↔ IsIpv4Network (.string text) := by
  unfold isIpv4Cidr IsIpv4Network
  split
  · next addr len h =>
      rw [decide_eq_true_eq]
      constructor
      · intro hle
        exact ⟨addr, len, h, hle⟩
      · rintro ⟨addr', len', h', hle⟩
        -- The text is parsed once, so the two networks are one.
        rw [h, Option.some.injEq, Prod.mk.injEq] at h'
        rwa [h'.2]
  · next h =>
      simp only [Bool.false_eq_true, false_iff, not_exists, not_and]
      intro addr len hparse
      exact absurd hparse (h addr len)

/-- What a network can break is its format. -/
theorem breaks_network {value : Value} {valid : Bool} (ht : node.fieldType = .ipNetwork)
    (htype : HasType node value) (hvalid : valid = true ↔ IsIpv4Network value) :
    Breaks fragment writableOnly ⟨node, value, path⟩ error ↔
      error ∈ formatErrors valid path fragment := by
  rw [formatErrors]
  constructor
  · intro hbreaks
    cases hbreaks with
    | mistyped h => exact absurd htype h
    | malformed _ _ hnot =>
        rw [if_neg (hvalid.not.mpr hnot)]
        exact List.mem_cons_self
    | outOfRange hinteger => exact absurd (ht.symm.trans hinteger) (by decide)
    | unlisted hstring => exact absurd (ht.symm.trans hstring) (by decide)
    | undeclared hobject => exact absurd (ht.symm.trans hobject) (by decide)
    | missing hobject => exact absurd (ht.symm.trans hobject) (by decide)
    | readOnly _ hobject => exact absurd (ht.symm.trans hobject) (by decide)
  · intro hmem
    split at hmem
    · exact absurd hmem List.not_mem_nil
    · next hnot =>
        rw [List.mem_singleton.mp hmem]
        exact .malformed ht htype (hvalid.not.mp hnot)

/-- What an entry of an object can break by its key. -/
theorem breaks_map {entries : List (String × Value)} (ht : node.fieldType = .object) :
    Breaks fragment writableOnly ⟨node, .map entries, path⟩ error ↔
      (∃ key ∈ Assoc.keys entries, (node.property key = none ∧ node.isOpen = false ∧
          error = .unknownField fragment (joinPath path key)) ∨
        ∃ prop, node.property key = some prop ∧
          error ∈ readOnlyErrors prop (joinPath path key) fragment writableOnly) ∨
      error ∈ missingErrors node (Assoc.keys entries) path [] fragment := by
  constructor
  · intro hbreaks
    cases hbreaks with
    | mistyped h => exact absurd ht h
    | outOfRange hinteger => exact absurd (ht.symm.trans hinteger) (by decide)
    | malformed hnetwork => exact absurd (ht.symm.trans hnetwork) (by decide)
    | undeclared _ hkey hprop hopen => exact Or.inl ⟨_, hkey, Or.inl ⟨hprop, hopen, rfl⟩⟩
    | missing _ hrequired hkey =>
        -- No key is ignored below the top level.
        refine Or.inr (List.mem_map.mpr ⟨_, List.mem_filter.mpr ⟨hrequired, ?_⟩, rfl⟩)
        simp only [List.contains_eq_mem, hkey, decide_false, Bool.not_false, List.not_mem_nil,
          Bool.and_self]
    | readOnly hw _ hkey hprop hread =>
        refine Or.inl ⟨_, hkey, Or.inr ⟨_, hprop, ?_⟩⟩
        rw [readOnlyErrors, hw, hread]
        exact List.mem_cons_self
  · rintro (⟨key, hkey, ⟨hprop, hopen, rfl⟩ | ⟨prop, hprop, hmem⟩⟩ | hmem)
    · exact .undeclared ht hkey hprop hopen
    · rw [readOnlyErrors] at hmem
      split at hmem
      · next hw =>
          rw [Bool.and_eq_true, Bool.not_eq_true'] at hw
          rw [List.mem_singleton.mp hmem]
          exact .readOnly hw.1 ht hkey hprop hw.2
      · exact absurd hmem List.not_mem_nil
    · rcases List.mem_map.mp hmem with ⟨key, hkey, rfl⟩
      rw [List.mem_filter, Bool.and_eq_true, Bool.not_eq_true', List.contains_eq_mem,
        decide_eq_false_iff_not] at hkey
      exact .missing ht hkey.1 hkey.2.1

/-- The other values break nothing that their type does not. -/
theorem breaks_other {value : Value} (ht : HasType node value) (hn : value.integer? = none)
    (hstring : node.fieldType ≠ .string) (hnetwork : node.fieldType ≠ .ipNetwork)
    (hobject : node.fieldType ≠ .object) :
    ¬ Breaks fragment writableOnly ⟨node, value, path⟩ error := by
  intro hbreaks
  cases hbreaks with
  | mistyped h => exact h ht
  | outOfRange _ hn' => exact absurd (hn.symm.trans hn') (Option.some_ne_none _).symm
  | unlisted h => exact hstring h
  | malformed h => exact hnetwork h
  | undeclared h => exact hobject h
  | missing h => exact hobject h
  | readOnly _ h => exact hobject h

end Rules

section Walk

/-- The parts of a value without parts. -/
theorem faulty_scalar {value : Value} (hv : value.IsScalar) :
    Faulty fragment writableOnly node value path error ↔
      Breaks fragment writableOnly ⟨node, value, path⟩ error := by
  constructor
  · rintro ⟨site, hpart, hbreaks⟩
    cases hpart with
    | whole => exact hbreaks
    | property => exact hv.elim
    | item => exact hv.elim
  · intro hbreaks
    exact ⟨_, .whole, hbreaks⟩

/-- The parts of an object are the object and those of its declared entries. -/
theorem faulty_map {entries : List (String × Value)} (ht : node.fieldType = .object) :
    Faulty fragment writableOnly node (.map entries) path error ↔
      Breaks fragment writableOnly ⟨node, .map entries, path⟩ error ∨
        ∃ entry ∈ entries, ∃ prop, node.property entry.1 = some prop ∧
          Faulty fragment writableOnly prop entry.2 (joinPath path entry.1) error := by
  constructor
  · rintro ⟨site, hpart, hbreaks⟩
    cases hpart with
    | whole => exact Or.inl hbreaks
    | property _ hentry hprop hpart => exact Or.inr ⟨_, hentry, _, hprop, _, hpart, hbreaks⟩
  · rintro (hbreaks | ⟨entry, hentry, prop, hprop, site, hpart, hbreaks⟩)
    · exact ⟨_, .whole, hbreaks⟩
    · exact ⟨site, .property ht hentry hprop hpart, hbreaks⟩

/-- The parts of an array are the array and those of its elements. -/
theorem faulty_list {items : List Value} (ht : node.fieldType = .array) :
    Faulty fragment writableOnly node (.list items) path error ↔
      ∃ itemSchema, node.items = some itemSchema ∧ ∃ (index : Nat) (value : Value),
        items[index]? = some value ∧
          Faulty fragment writableOnly itemSchema value s!"{path}[{index}]" error := by
  constructor
  · rintro ⟨site, hpart, hbreaks⟩
    cases hpart with
    | whole =>
        -- The array itself breaks nothing, being of its type.
        exact absurd hbreaks (breaks_other ht rfl (by rw [ht]; decide) (by rw [ht]; decide)
          (by rw [ht]; decide))
    | item _ hitems hvalue hpart => exact ⟨_, hitems, _, _, hvalue, _, hpart, hbreaks⟩
  · rintro ⟨itemSchema, hitems, index, value, hvalue, site, hpart, hbreaks⟩
    exact ⟨site, .item ht hitems hvalue hpart, hbreaks⟩

theorem walkNode_mistyped {value : Value} (h : ¬ HasType node value) :
    walkNode fragment writableOnly node value path =
      [.wrongType fragment path node.fieldType (valueType value)] := by
  rw [← typeAccepts_iff, Bool.not_eq_true] at h
  rw [walkNode.eq_def]
  exact if_pos h

theorem walkNode_integer {value : Value} {n : Int} (ht : HasType node value)
    (hn : value.integer? = some n) :
    walkNode fragment writableOnly node value path = rangeErrors node n path fragment := by
  rw [walkNode.eq_def]
  cases value with
  | u64 m =>
      rw [← Option.some.inj hn]
      simp [typeAccepts, valueType, show node.fieldType = .integer from ht]
  | i64 m =>
      rw [← Option.some.inj hn]
      simp [typeAccepts, valueType, show node.fieldType = .integer from ht]
  | _ => exact absurd hn (by simp only [Value.integer?, reduceCtorEq, not_false_eq_true])

theorem walkNode_string {text : String} (ht : node.fieldType = .string) :
    walkNode fragment writableOnly node (.string text) path =
      enumErrors node text path fragment := by
  rw [walkNode.eq_def]
  simp [typeAccepts, valueType, ht]

theorem walkNode_cidr {text : String} (ht : node.fieldType = .ipNetwork)
    (hf : node.node.format = some .ipv4Cidr) :
    walkNode fragment writableOnly node (.string text) path =
      formatErrors (isIpv4Cidr text) path fragment := by
  rw [walkNode.eq_def]
  simp [typeAccepts, valueType, ht, hf]

theorem walkNode_network {addr : IpAddr} {len : UInt8} (ht : node.fieldType = .ipNetwork) :
    walkNode fragment writableOnly node (.ipNetwork addr len) path =
      formatErrors (addr.isIpv4 && len ≤ 32) path fragment := by
  rw [walkNode.eq_def]
  simp [typeAccepts, valueType, ht]

theorem walkNode_bool {b : Bool} (ht : node.fieldType = .boolean) :
    walkNode fragment writableOnly node (.bool b) path = [] := by
  rw [walkNode.eq_def]
  simp [typeAccepts, valueType, ht]

theorem walkNode_ipAddr {addr : IpAddr} (ht : node.fieldType = .ipAddress) :
    walkNode fragment writableOnly node (.ipAddr addr) path = [] := by
  rw [walkNode.eq_def]
  simp [typeAccepts, valueType, ht]

theorem walkNode_map {entries : List (String × Value)} (ht : node.fieldType = .object) :
    walkNode fragment writableOnly node (.map entries) path =
      walkEntries fragment writableOnly node entries path [] ++
        missingErrors node (Assoc.keys entries) path [] fragment := by
  rw [walkNode.eq_def]
  simp [typeAccepts, valueType, ht]

theorem walkNode_list {items : List Value} (ht : node.fieldType = .array) :
    walkNode fragment writableOnly node (.list items) path =
      (node.items.map fun itemSchema =>
        walkItems fragment writableOnly itemSchema items path 0).getD [] := by
  rw [walkNode.eq_def]
  cases node.items <;> simp [typeAccepts, valueType, ht]

mutual
/-- A walk reports what the parts of a value break. -/
theorem mem_walkNode {node : TypedNode} : (value : Value) → (path : String) →
    (error ∈ walkNode fragment writableOnly node value path ↔
      Faulty fragment writableOnly node value path error)
  | value, path => by
      by_cases ht : HasType node value
      · cases value with
        | u64 n => rw [walkNode_integer ht rfl, faulty_scalar (by trivial), breaks_integer ht rfl]
        | i64 n => rw [walkNode_integer ht rfl, faulty_scalar (by trivial), breaks_integer ht rfl]
        | string text =>
            -- Text is of two types, and each has its own test.
            rcases id ht with hstring | ⟨hnetwork, hformat⟩
            · rw [walkNode_string hstring, faulty_scalar (by trivial), breaks_string hstring]
            · rw [walkNode_cidr hnetwork hformat, faulty_scalar (by trivial),
                breaks_network hnetwork ht isIpv4Cidr_iff]
        | ipNetwork addr len =>
            -- The test of a network and the rule are the same condition.
            have hvalid : (addr.isIpv4 && decide (len ≤ 32)) = true ↔
                IsIpv4Network (.ipNetwork addr len) := by
              rw [Bool.and_eq_true, decide_eq_true_eq, IsIpv4Network]
            rw [walkNode_network ht, faulty_scalar (by trivial), breaks_network ht ht hvalid]
        | bool b =>
            -- No rule is about truth values, or about addresses.
            have hnone : ¬ Breaks fragment writableOnly ⟨node, .bool b, path⟩ error :=
              breaks_other ht rfl (by rw [show node.fieldType = _ from ht]; decide)
                (by rw [show node.fieldType = _ from ht]; decide)
                (by rw [show node.fieldType = _ from ht]; decide)
            rw [walkNode_bool ht, faulty_scalar (by trivial)]
            exact iff_of_false List.not_mem_nil hnone
        | ipAddr addr =>
            have hnone : ¬ Breaks fragment writableOnly ⟨node, .ipAddr addr, path⟩ error :=
              breaks_other ht rfl (by rw [show node.fieldType = _ from ht]; decide)
                (by rw [show node.fieldType = _ from ht]; decide)
                (by rw [show node.fieldType = _ from ht]; decide)
            rw [walkNode_ipAddr ht, faulty_scalar (by trivial)]
            exact iff_of_false List.not_mem_nil hnone
        | map entries =>
            rw [walkNode_map ht, faulty_map ht, breaks_map ht, List.mem_append,
              mem_walkEntries entries, or_right_comm]
            -- A key breaks the same rules whether or not its value does.
            refine or_congr_left ?_
            simp only [Assoc.keys, List.mem_map, exists_exists_and_eq_and, ← exists_or,
              ← and_or_left, or_assoc]
        | list items =>
            rw [walkNode_list ht, faulty_list ht]
            cases hi : node.items with
            | none =>
                simp only [Option.map_none, Option.getD_none, List.not_mem_nil, reduceCtorEq,
                  false_and, exists_false]
            | some itemSchema =>
                simp only [Option.map_some, Option.getD_some, mem_walkItems items, Nat.zero_add,
                  Option.some.injEq, exists_eq_left']
      · rw [walkNode_mistyped ht, faulty_mistyped ht, List.mem_singleton]
termination_by structural value => value
/-- The same for the entries of an object, and what their keys break. -/
theorem mem_walkEntries {node : TypedNode} : (entries : List (String × Value)) →
    (path : String) →
    (error ∈ walkEntries fragment writableOnly node entries path [] ↔
      ∃ entry ∈ entries, (node.property entry.1 = none ∧ node.isOpen = false ∧
          error = .unknownField fragment (joinPath path entry.1)) ∨
        ∃ prop, node.property entry.1 = some prop ∧
          (error ∈ readOnlyErrors prop (joinPath path entry.1) fragment writableOnly ∨
            Faulty fragment writableOnly prop entry.2 (joinPath path entry.1) error))
  | [], path => by simp only [walkEntries, List.not_mem_nil, false_and, exists_false]
  | (key, value) :: entries, path => by
      rw [walkEntries, List.mem_append, mem_walkEntries entries, List.exists_mem_cons_iff]
      -- The first entry is either declared, and walked, or judged by its key.
      refine or_congr_left ?_
      rw [List.contains_nil, if_neg Bool.false_ne_true]
      cases hprop : node.property key with
      | none =>
          cases hopen : node.isOpen with
          | true => simp
          | false => simp
      | some prop =>
          simp only [List.mem_append, mem_walkNode value, reduceCtorEq, false_and, false_or,
            Option.some.injEq, exists_eq_left']
termination_by structural entries => entries
/-- The same for the elements of an array, from number `start` on. -/
theorem mem_walkItems {node : TypedNode} : (items : List Value) → (path : String) →
    (start : Nat) → (error ∈ walkItems fragment writableOnly node items path start ↔
      ∃ (index : Nat) (value : Value), items[index]? = some value ∧
        Faulty fragment writableOnly node value s!"{path}[{start + index}]" error)
  | [], path, start => by
      simp only [walkItems, List.not_mem_nil, List.getElem?_nil, reduceCtorEq, false_and,
        exists_false]
  | item :: items, path, start => by
      rw [walkItems, List.mem_append, mem_walkNode item, mem_walkItems items]
      constructor
      · rintro (hfaulty | ⟨index, value, hvalue, hfaulty⟩)
        · exact ⟨0, item, rfl, hfaulty⟩
        · -- The walk counts from `start`, the list from zero.
          rw [Nat.add_right_comm, Nat.add_assoc] at hfaulty
          exact ⟨index + 1, value, hvalue, hfaulty⟩
      · rintro ⟨index, value, hvalue, hfaulty⟩
        cases index with
        | zero =>
            obtain rfl := Option.some.inj hvalue
            exact Or.inl hfaulty
        | succ index =>
            rw [← Nat.add_assoc, Nat.add_right_comm] at hfaulty
            exact Or.inr ⟨index, value, hvalue, hfaulty⟩
termination_by structural items => items
end

/-- Text has no properties, so that both modes ask the same of it. -/
theorem walkNode_text {text : String} :
    walkNode fragment false node (.string text) path =
      walkNode fragment writableOnly node (.string text) path := by
  by_cases ht : HasType node (.string text)
  · rcases id ht with hstring | ⟨hnetwork, hformat⟩
    · rw [walkNode_string hstring, walkNode_string hstring]
    · rw [walkNode_cidr hnetwork hformat, walkNode_cidr hnetwork hformat]
  · rw [walkNode_mistyped ht, walkNode_mistyped ht]

/-- Keys to be ignored might as well not be there. -/
theorem walkEntries_ignore {entries : List (String × Value)} {ignoreKeys : List String} :
    walkEntries fragment writableOnly node entries path ignoreKeys =
      walkEntries fragment writableOnly node
        (entries.filter fun entry => !ignoreKeys.contains entry.1) path [] := by
  induction entries with
  | nil => rfl
  | cons entry entries ih =>
      rcases entry with ⟨key, value⟩
      rw [walkEntries, ih]
      by_cases hkey : ignoreKeys.contains key = true
      · rw [if_pos hkey, List.nil_append, List.filter_cons_of_neg (by rw [hkey]; decide)]
      · rw [if_neg hkey, List.filter_cons_of_pos (by rw [Bool.not_eq_true] at hkey; rw [hkey]; rfl),
          walkEntries, List.contains_nil, if_neg Bool.false_ne_true]

end Walk

end Netfyr
