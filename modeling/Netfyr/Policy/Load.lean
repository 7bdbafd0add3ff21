import Netfyr.Data.Lists
import Netfyr.Schema.Prepared
import Netfyr.Policy.Static

/-!
# Loading Policies

A document is one mapping or a sequence of them, and every mapping becomes one
policy. The keys that belong to the policy are read from the tree; what is left
is printed and read again as a state, along the schema that knows the providers'
triggers. Printing and parsing are the YAML library's, and parameters here.

There are three routes to a policy: one that says it is a policy, a state with a
selector, and a state without one, which is prepared as query output is. Each
validates at its own point. `Policy.Producible` is what they have in common.

Where the source panics, a computation here is absent: `Loading` adds that to
failing.

## Main definitions

* `policyFromMapping`: One mapping, by one of the routes.
* `loadDocument`: One document.
* `Policy.Producible`: What every loaded policy satisfies.

## Theorems

* `policyFromMapping_producible`: One mapping yields a producible policy.
* `loadDocument_producible`: The policies of a document are named apart, and
  production refuses none but an empty one.
* `loadDocument_isSome`: Loading never panics.
-/

namespace Netfyr

/-- A computation that may fail, and is absent where the source panics. -/
abbrev Loading (α : Type) := ExceptT PolicyError Option α

/-- A value that the source takes for granted. -/
def expect {α : Type} : Option α → Loading α
  | some a => pure a
  | none => ExceptT.mk none

/-- The error of the YAML library, told apart by its text alone. -/
def parseError (message : String) : PolicyError :=
  if "more than one document".toList <:+: message.toList then .multiDocument else .yaml message

/-- The value of a mapping under a plain string key. -/
def mappingGet (entries : List (YamlValue × YamlValue)) (name : String) : Option YamlValue :=
  entries.findSome? fun entry => match entry.1 with
    | .string key => if key = name then some entry.2 else none
    | _ => none

/-- A number as a signed integer of 64 bits. -/
def YamlNumber.asI64 : YamlNumber → Option Int
  | .unsigned n => if n ≤ 9223372036854775807 then some n.toNat else none
  | .negative n _ => some n.toInt
  | .float _ => none

/-- A priority fits 32 bits. -/
def parsePriority (value : YamlValue) : Except PolicyError Int :=
  let number := match value.untag with
    | .number n => n.asI64
    | _ => none
  match number with
  | some n => if -2147483648 ≤ n ∧ n ≤ 2147483647 then .ok n else .error .invalidPriority
  | none => .error .invalidPriority

mutual
/-- Convert an annotation, without a schema. -/
def yamlMapToModel : YamlValue → Except PolicyError Value
  | .null => .error (.yaml "null metadata values are unsupported")
  | .bool b => .ok (.bool b)
  | .number (.unsigned n) => .ok (.u64 n)
  | .number (.negative n _) => .ok (.i64 n)
  | .number (.float _) => .error (.yaml "floating-point metadata values are unsupported")
  | .string text => .ok (.string text)
  | .sequence items => do
      let out ← yamlItemsToModel items
      .ok (.list out)
  | .mapping entries => do
      let out ← yamlEntriesToModel entries []
      .ok (.map out)
  | .tagged _ _ => .error (.yaml "tagged metadata values are unsupported")
termination_by structural value => value
/-- Convert the items of a sequence. -/
def yamlItemsToModel : List YamlValue → Except PolicyError (List Value)
  | [] => .ok []
  | item :: items => do
      let value ← yamlMapToModel item
      let values ← yamlItemsToModel items
      .ok (value :: values)
termination_by structural items => items
/-- Convert the entries of a mapping, adding them to `out`. -/
def yamlEntriesToModel : List (YamlValue × YamlValue) → List (String × Value) →
    Except PolicyError (List (String × Value))
  | [], out => .ok out
  | (k, item) :: entries, out =>
      match k.asStr with
      | none => .error (.yaml "metadata keys must be strings")
      | some key => do
          let value ← yamlMapToModel item
          yamlEntriesToModel entries (Assoc.insert out key value)
termination_by structural entries => entries
end

mutual
/-- Converted annotations have distinct keys at every depth. -/
theorem yamlMapToModel_wellKeyed : (yaml : YamlValue) → {value : Value} →
    yamlMapToModel yaml = .ok value → value.WellKeyed
  | .bool _, _, h | .number (.unsigned _), _, h | .number (.negative _ _), _, h
  | .string _, _, h => by
      obtain rfl := Except.ok.inj h
      trivial
  | .null, _, h | .number (.float _), _, h | .tagged _ _, _, h =>
      absurd h (by simp only [yamlMapToModel, reduceCtorEq, not_false_eq_true])
  | .sequence items, _, h => by
      rw [yamlMapToModel, except_bind_eq_ok] at h
      rcases h with ⟨out, hout, hval⟩
      obtain rfl := Except.ok.inj hval
      exact yamlItemsToModel_wellKeyed items hout
  | .mapping entries, _, h => by
      rw [yamlMapToModel, except_bind_eq_ok] at h
      rcases h with ⟨out, hout, hval⟩
      obtain rfl := Except.ok.inj hval
      exact yamlEntriesToModel_wellKeyed entries FieldMap.empty.wellKeyed hout
termination_by structural yaml => yaml
/-- The same for the items of a sequence. -/
theorem yamlItemsToModel_wellKeyed : (items : List YamlValue) → {values : List Value} →
    yamlItemsToModel items = .ok values → Value.WellKeyedList values
  | [], _, h => by
      obtain rfl := Except.ok.inj h
      trivial
  | item :: items, _, h => by
      rw [yamlItemsToModel, except_bind_eq_ok] at h
      rcases h with ⟨value, hvalue, h⟩
      rw [except_bind_eq_ok] at h
      rcases h with ⟨values, hvalues, h⟩
      obtain rfl := Except.ok.inj h
      exact ⟨yamlMapToModel_wellKeyed item hvalue, yamlItemsToModel_wellKeyed items hvalues⟩
termination_by structural items => items
/-- The same for the entries of a mapping. -/
theorem yamlEntriesToModel_wellKeyed : (entries : List (YamlValue × YamlValue)) →
    {out result : List (String × Value)} → (Value.map out).WellKeyed →
    yamlEntriesToModel entries out = .ok result → (Value.map result).WellKeyed
  | [], _, _, hout, h => by
      obtain rfl := Except.ok.inj h
      exact hout
  | (k, item) :: entries, _, _, hout, h => by
      rw [yamlEntriesToModel] at h
      split at h
      · exact absurd h (by simp only [reduceCtorEq, not_false_eq_true])
      · rw [except_bind_eq_ok] at h
        rcases h with ⟨value, hvalue, h⟩
        exact yamlEntriesToModel_wellKeyed entries
          (FieldMap.insert_wellKeyed hout (yamlMapToModel_wellKeyed item hvalue)) h
termination_by structural entries => entries
end

/-- The annotations of a policy: a mapping. -/
def parseMetadata (yaml : YamlValue) : Except PolicyError FieldMap :=
  match h : yamlMapToModel yaml with
  | .error e => .error e
  | .ok (.map entries) => .ok ⟨entries, yamlMapToModel_wellKeyed yaml h⟩
  | .ok _ => .error .metadataNotMapping

/-- Read a key that may be missing. -/
def optional {α : Type} (read : YamlValue → Except PolicyError α) :
    Option YamlValue → Except PolicyError (Option α)
  | none => .ok none
  | some value => do
      let a ← read value
      .ok (some a)

/-- Whether a mapping says it is a policy. -/
def isExplicit (entries : List (YamlValue × YamlValue)) : Except PolicyError Bool :=
  match mappingGet entries "kind" with
  | none => .ok false
  | some (.string kind) =>
      if kind = "state" then .ok false
      else if kind = "policy" then .ok true
      else .error (.unknownKind kind)
  | some value => .error (.unknownKind value.shape)

/-- The name of a policy: an explicit one gives it itself. -/
def policyName (explicit : Bool) (entries : List (YamlValue × YamlValue))
    (fallbackName : String) : Except PolicyError String :=
  if explicit then
    match (mappingGet entries "name").bind YamlValue.asStr with
    | some name => if name = "" then .error .emptyName else .ok name
    | none => .error .emptyName
  else .ok fallbackName

/-- What is left of a mapping for the state: all but the policy's own keys. -/
def candidateEntries (explicit : Bool) (entries : List (YamlValue × YamlValue)) :
    List (YamlValue × YamlValue) :=
  entries.filter fun entry => match entry.1.asStr with
    | some key =>
        !(key == "kind" || key == "metadata" || key == "priority" || explicit && key == "name")
    | none => true

/-- Validate a state as policy input. -/
def validatePolicyState (state : State) (schemas : SchemaRegistry) : Except PolicyError Unit :=
  let errors := schemas.validateWritable state
  if errors = [] then .ok () else .error (.validation errors)

/-- Prepare or validate what was read, by its route. -/
def resolveState (explicit : Bool) (state : State) (matchBy : MatchBy) :
    Loading (State × List Warning) :=
  let schemas := ProviderRegistry.schemaRegistry
  if explicit then do
    if state.matchSpec.isEmpty then throw .missingMatch
    validatePolicyState state schemas
    pure (state, [])
  else if state.matchSpec.isEmpty then do
    let prepared ← (prepareForApplyWithRegistry [state] matchBy schemas).mapError PolicyError.state
    let state ← expect prepared.states.head?
    pure (state, prepared.warnings)
  else do
    validatePolicyState state schemas
    pure (state, [])

section

variable (parse : String → Except String YamlValue) (print : YamlValue → Except String String)

/-- Read one mapping as a policy. -/
def policyFromMapping (entries : List (YamlValue × YamlValue)) (fallbackName : String)
    (matchBy : MatchBy) : Loading (Policy × List Warning) := do
  let explicit ← isExplicit entries
  let name ← policyName explicit entries fallbackName
  let priority ← optional parsePriority (mappingGet entries "priority")
  let metadata ← optional parseMetadata (mappingGet entries "metadata")
  let candidate := YamlValue.mapping (candidateEntries explicit entries)
  let text ← (print candidate).mapError PolicyError.yaml
  let states ← (ProviderRegistry.schemaRegistry.fromYaml parse text).mapError PolicyError.state
  let state ← expect states.getLast?
  let (state, warnings) ← resolveState explicit state matchBy
  pure ({ name, matchSpec := state.matchSpec, deviceType := state.deviceType,
          fields := state.fields, priority, metadata }, warnings)

/-- What was loaded, in the order of the document. -/
structure LoadOutcome where
  policies : List Policy
  warnings : List Warning

/-- The mappings of a document: itself, or the elements of a sequence. -/
def topMappings : YamlValue → Except PolicyError (List (List (YamlValue × YamlValue)))
  | .mapping entries => .ok [entries]
  | .sequence items => items.mapM fun item => match item.asMapping with
      | some entries => .ok entries
      | none => .error (.invalidTopLevel item.shape)
  | other => .error (.invalidTopLevel other.shape)

/-- Whether a document is a sequence, whose policies are numbered. -/
def isMultiple : YamlValue → Bool
  | .sequence _ => true
  | _ => false

/-- Load the mappings of a document one by one, from number `index`; the names
    that are taken are those of the policies already loaded. -/
def loadMappings (stem : String) (multiple : Bool) (matchBy : MatchBy) :
    List (List (YamlValue × YamlValue)) → Nat → LoadOutcome → Loading LoadOutcome
  | [], _, outcome => pure outcome
  | entries :: rest, index, outcome => do
      let fallback := if multiple then s!"{stem}-{index + 1}" else stem
      let (policy, warnings) ← policyFromMapping parse print entries fallback matchBy
      if policy.name ∈ outcome.policies.map Policy.name then throw (.duplicateName policy.name)
      loadMappings stem multiple matchBy rest (index + 1)
        { policies := outcome.policies ++ [policy], warnings := outcome.warnings ++ warnings }

/-- Load one document. -/
def loadDocument (input stem : String) (matchBy : MatchBy) : Loading LoadOutcome := do
  let value ← (parse input).mapError parseError
  let mappings ← topMappings value
  loadMappings parse print stem (isMultiple value) matchBy mappings 0
    { policies := [], warnings := [] }

end

/-- A sequence succeeds when both parts do. -/
theorem loading_bind_eq_ok {α β : Type} {x : Loading α} {f : α → Loading β} {b : β} :
    (x >>= f).run = some (.ok b) ↔ ∃ a, x.run = some (.ok a) ∧ (f a).run = some (.ok b) := by
  change Option.bind x.run (ExceptT.bindCont f) = some (.ok b) ↔ _
  rcases hx : x.run with _ | e | a
  · simp only [Option.bind_none, reduceCtorEq, false_and, exists_false]
  · simp only [Option.bind_some, ExceptT.bindCont, Option.pure_def, Option.some.injEq,
      reduceCtorEq, false_and, exists_false]
  · simp only [Option.bind_some, ExceptT.bindCont, Option.some.injEq, Except.ok.injEq,
      exists_eq_left']
    rfl

theorem loading_lift_eq_ok {α : Type} {x : Except PolicyError α} {a : α} :
    (liftM x : Loading α).run = some (.ok a) ↔ x = .ok a := by
  change some x = some (.ok a) ↔ _
  rw [Option.some.injEq]

theorem loading_pure_eq_ok {α : Type} {a b : α} :
    (pure a : Loading α).run = some (.ok b) ↔ a = b := by
  change some (Except.ok a) = some (.ok b) ↔ _
  rw [Option.some.injEq, Except.ok.injEq]

theorem loading_throw_ne_ok {α : Type} {e : PolicyError} {a : α} :
    (throw e : Loading α).run ≠ some (.ok a) := by
  change some (Except.error e) ≠ some (.ok a)
  simp only [ne_eq, Option.some.injEq, reduceCtorEq, not_false_eq_true]

theorem expect_eq_ok {α : Type} {o : Option α} {a : α} :
    (expect o).run = some (.ok a) ↔ o = some a := by
  cases o with
  | none =>
      change none = some (Except.ok a) ↔ _
      simp only [reduceCtorEq]
  | some b =>
      rw [expect, loading_pure_eq_ok, Option.some.injEq]

/-- What production asks of a policy before it splits it. -/
structure Policy.Producible (policy : Policy) : Prop where
  name : policy.name ≠ ""
  selects : policy.matchSpec.isEmpty = false
  valid : ProviderRegistry.schemaRegistry.validateWritable policy.candidateState = []

/-- Production of such a policy succeeds, unless there is nothing to produce. -/
theorem Policy.Producible.produce {policy : Policy} (h : policy.Producible) :
    (∃ production, policy.produce = some (.ok production)) ∨
      policy.produce = some (.error .emptyPolicy) := by
  rcases Option.isSome_iff_exists.mp (Policy.splitFields_of_valid h.valid) with ⟨split, hsplit⟩
  rw [Policy.produce, if_neg h.name, h.selects, if_neg Bool.false_ne_true]
  dsimp only
  rw [if_neg (not_not.mpr h.valid), hsplit, Option.bind_eq_bind, Option.bind_some]
  split
  · exact Or.inr rfl
  · exact Or.inl ⟨_, rfl⟩

theorem validatePolicyState_eq_ok {state : State} {schemas : SchemaRegistry} {u : Unit} :
    validatePolicyState state schemas = .ok u ↔ schemas.validateWritable state = [] := by
  rw [validatePolicyState]
  split
  · next h => exact iff_of_true rfl h
  · next h => exact iff_of_false (by simp only [reduceCtorEq, not_false_eq_true]) h

/-- Every route yields a state with a selector that is valid policy input. -/
theorem resolveState_ok {explicit : Bool} {state : State} {matchBy : MatchBy}
    {out : State × List Warning}
    (h : (resolveState explicit state matchBy).run = some (.ok out)) :
    out.1.matchSpec.isEmpty = false ∧
      ProviderRegistry.schemaRegistry.validateWritable out.1 = [] := by
  -- Both routes that validate end in the same two steps.
  have hvalidated :
      (do
        validatePolicyState state ProviderRegistry.schemaRegistry
        pure (state, []) : Loading (State × List Warning)).run = some (.ok out) →
      out.1 = state ∧ ProviderRegistry.schemaRegistry.validateWritable out.1 = [] := by
    intro hrun
    rcases loading_bind_eq_ok.mp hrun with ⟨⟨⟩, hvalid, hpure⟩
    rw [loading_lift_eq_ok, validatePolicyState_eq_ok] at hvalid
    rw [loading_pure_eq_ok] at hpure
    rw [← hpure]
    exact ⟨rfl, hvalid⟩
  rw [resolveState] at h
  cases explicit with
  | true =>
      rw [if_pos rfl] at h
      split at h
      · rcases loading_bind_eq_ok.mp h with ⟨_, hthrow, _⟩
        exact absurd hthrow loading_throw_ne_ok
      · next hmatch =>
          rcases hvalidated h with ⟨heq, hvalid⟩
          exact ⟨heq ▸ Bool.eq_false_of_not_eq_true hmatch, hvalid⟩
  | false =>
      rw [if_neg Bool.false_ne_true] at h
      split at h
      · rcases loading_bind_eq_ok.mp h with ⟨prepared, hprepared, h⟩
        rw [loading_lift_eq_ok, mapError_eq_ok] at hprepared
        rcases loading_bind_eq_ok.mp h with ⟨last, hlast, h⟩
        rw [expect_eq_ok] at hlast
        rw [loading_pure_eq_ok] at h
        rw [← h]
        have hmem : last ∈ prepared.states := List.mem_of_mem_head? hlast
        have hpairs := SchemaRegistry.prepareForApply_forall₂ hprepared
        rcases exists_of_mem_forall₂ hpairs hmem with ⟨_, _, gone, hone⟩
        have hselects := SchemaRegistry.prepareState_selects hone.prepared
        exact ⟨hselects, hone.after⟩
      · next hmatch =>
          rcases hvalidated h with ⟨heq, hvalid⟩
          exact ⟨heq ▸ Bool.eq_false_of_not_eq_true hmatch, hvalid⟩

/-- The name of a policy is not empty, unless the fallback is. -/
theorem policyName_ok {explicit : Bool} {entries : List (YamlValue × YamlValue)}
    {fallbackName name : String} (h : policyName explicit entries fallbackName = .ok name)
    (hfallback : fallbackName ≠ "") : name ≠ "" := by
  rw [policyName] at h
  split at h
  · split at h
    · split at h
      · exact absurd h (by simp only [reduceCtorEq, not_false_eq_true])
      · next hname => exact Except.ok.inj h ▸ hname
    · exact absurd h (by simp only [reduceCtorEq, not_false_eq_true])
  · exact Except.ok.inj h ▸ hfallback

section

variable {parse : String → Except String YamlValue} {print : YamlValue → Except String String}

/-- One mapping yields a producible policy, by whichever route. -/
theorem policyFromMapping_producible {entries : List (YamlValue × YamlValue)}
    {fallbackName : String} {matchBy : MatchBy} {policy : Policy} {warnings : List Warning}
    (h : (policyFromMapping parse print entries fallbackName matchBy).run =
      some (.ok (policy, warnings))) (hfallback : fallbackName ≠ "") : policy.Producible := by
  rw [policyFromMapping] at h
  rcases loading_bind_eq_ok.mp h with ⟨explicit, _, h⟩
  rcases loading_bind_eq_ok.mp h with ⟨name, hname, h⟩
  rcases loading_bind_eq_ok.mp h with ⟨priority, _, h⟩
  rcases loading_bind_eq_ok.mp h with ⟨metadata, _, h⟩
  rcases loading_bind_eq_ok.mp h with ⟨text, _, h⟩
  rcases loading_bind_eq_ok.mp h with ⟨states, _, h⟩
  rcases loading_bind_eq_ok.mp h with ⟨read, _, h⟩
  rcases loading_bind_eq_ok.mp h with ⟨resolved, hresolved, h⟩
  have hpolicy := congrArg Prod.fst (loading_pure_eq_ok.mp h)
  dsimp only at hpolicy
  subst hpolicy
  rcases resolveState_ok hresolved with ⟨hselects, hvalid⟩
  refine ⟨?_, hselects, ?_⟩
  · exact policyName_ok (loading_lift_eq_ok.mp hname) hfallback
  · -- The candidate has the fields and the device type that were validated.
    rw [← hvalid]
    rfl

/-- The name given to a mapping by its place is not empty. -/
theorem fallback_ne_empty {stem : String} (hstem : stem ≠ "") (multiple : Bool) (index : Nat) :
    (if multiple then s!"{stem}-{index + 1}" else stem) ≠ "" := by
  cases multiple with
  | false => exact hstem
  | true =>
      intro h
      have happend : stem ++ ("-" ++ toString (index + 1)) = "" := by
        rw [← String.append_assoc]
        exact h
      exact hstem (String.append_eq_empty_iff.mp happend).1

/-- Loading one mapping after another keeps the policies producible and named
    apart. -/
theorem loadMappings_producible {stem : String} {multiple : Bool} {matchBy : MatchBy}
    {mappings : List (List (YamlValue × YamlValue))} {index : Nat} {outcome result : LoadOutcome}
    (hstem : stem ≠ "")
    (h : (loadMappings parse print stem multiple matchBy mappings index outcome).run =
      some (.ok result))
    (hproducible : ∀ policy ∈ outcome.policies, policy.Producible)
    (hnodup : (outcome.policies.map Policy.name).Nodup) :
    (∀ policy ∈ result.policies, policy.Producible) ∧
      (result.policies.map Policy.name).Nodup := by
  induction mappings generalizing index outcome with
  | nil =>
      rw [loadMappings, loading_pure_eq_ok] at h
      rw [← h]
      exact ⟨hproducible, hnodup⟩
  | cons entries mappings ih =>
      rw [loadMappings] at h
      rcases loading_bind_eq_ok.mp h with ⟨⟨policy, warnings⟩, hpolicy, h⟩
      have hone := policyFromMapping_producible hpolicy (fallback_ne_empty hstem multiple index)
      dsimp only at h
      split at h
      · rcases loading_bind_eq_ok.mp h with ⟨_, hthrow, _⟩
        exact absurd hthrow loading_throw_ne_ok
      · next hnew =>
          refine ih h ?_ ?_
          · intro other hmem
            rcases List.mem_append.mp hmem with hold | hlast
            · exact hproducible other hold
            · exact List.mem_singleton.mp hlast ▸ hone
          · rw [List.map_append, List.map_singleton]
            exact List.nodup_append_comm.mp (List.nodup_cons.mpr ⟨hnew, hnodup⟩)

/-- The policies of a document have distinct names that are not empty, and
    production of each succeeds unless there is nothing to produce. -/
theorem loadDocument_producible {input stem : String} {matchBy : MatchBy} {outcome : LoadOutcome}
    (hstem : stem ≠ "")
    (h : (loadDocument parse print input stem matchBy).run = some (.ok outcome)) :
    (∀ policy ∈ outcome.policies, policy.name ≠ "") ∧
      (outcome.policies.map Policy.name).Nodup ∧
      ∀ policy ∈ outcome.policies,
        (∃ production, policy.produce = some (.ok production)) ∨
          policy.produce = some (.error .emptyPolicy) := by
  rw [loadDocument] at h
  rcases loading_bind_eq_ok.mp h with ⟨value, _, h⟩
  rcases loading_bind_eq_ok.mp h with ⟨mappings, _, h⟩
  rcases loadMappings_producible hstem h (fun _ hmem => absurd hmem List.not_mem_nil)
    List.nodup_nil with ⟨hproducible, hnodup⟩
  refine ⟨?_, hnodup, ?_⟩
  · intro policy hmem
    exact (hproducible policy hmem).name
  · intro policy hmem
    exact (hproducible policy hmem).produce

end

/-- The text of a state for `eth0` that sets the MTU, and what is read of it. -/
def lanText : String := "match:\n  name: eth0\nmtu: 1280\n"

def lanTree : YamlValue :=
  .mapping [(.string "match", .mapping [(.string "name", .string "eth0")]),
    (.string "mtu", .number (.unsigned 1280))]

/-- A reader and a printer that know this text. -/
def parseLan (text : String) : Except String YamlValue :=
  if text = lanText then .ok lanTree else .error "unexpected text"

def printLan (_ : YamlValue) : Except String String := .ok lanText

/-- The policy it is loaded as. -/
def lanPolicy : Policy :=
  { name := "lan"
    matchSpec := { name := some "eth0" }
    deviceType := ""
    fields := FieldMap.empty.insert "mtu" (.u64 1280) (Value.u64_wellKeyed 1280)
    priority := none
    metadata := none }

/-- A list of an explicit policy, a state with a selector and a query result. -/
def siteText : String :=
  "- kind: policy\n  name: uplink\n  priority: 10\n  match:\n    name: eth0\n  mtu: 1280\n" ++
    "- match:\n    name: eth1\n  mtu: 1450\n" ++
      "- name: eth2\n  type: ethernet\n  mtu: 4000\n"

/-- The last two of them, and what is read of them. -/
def portText : String := "match:\n  name: eth1\nmtu: 1450\n"

def portTree : YamlValue :=
  .mapping [(.string "match", .mapping [(.string "name", .string "eth1")]),
    (.string "mtu", .number (.unsigned 1450))]

def queriedText : String := "name: eth2\ntype: ethernet\nmtu: 4000\n"

def queriedTree : YamlValue :=
  .mapping [(.string "name", .string "eth2"), (.string "type", .string "ethernet"),
    (.string "mtu", .number (.unsigned 4000))]

def siteTree : YamlValue :=
  .sequence [
    .mapping [(.string "kind", .string "policy"), (.string "name", .string "uplink"),
      (.string "priority", .number (.unsigned 10)),
      (.string "match", .mapping [(.string "name", .string "eth0")]),
      (.string "mtu", .number (.unsigned 1280))],
    portTree, queriedTree]

/-- A reader that knows these texts, and a printer of what is left of the
    elements. -/
def parseSite (text : String) : Except String YamlValue :=
  if text = siteText then .ok siteTree
  else if text = lanText then .ok lanTree
  else if text = portText then .ok portTree
  else if text = queriedText then .ok queriedTree
  else .error "unexpected text"

def printSite : YamlValue → Except String String
  | .mapping [(.string "match", .mapping [(.string "name", .string "eth0")]),
      (.string "mtu", .number (.unsigned 1280))] => .ok lanText
  | .mapping [(.string "match", .mapping [(.string "name", .string "eth1")]),
      (.string "mtu", .number (.unsigned 1450))] => .ok portText
  | .mapping [(.string "name", .string "eth2"), (.string "type", .string "ethernet"),
      (.string "mtu", .number (.unsigned 4000))] => .ok queriedText
  | _ => .error "unexpected tree"

/-- The policies of the list: the first has its own name, and the others are
    numbered. -/
def sitePolicies : List Policy :=
  [{ lanPolicy with name := "uplink", priority := some 10 },
    { lanPolicy with
      name := "site-2"
      matchSpec := { name := some "eth1" }
      fields := FieldMap.empty.insert "mtu" (.u64 1450) (Value.u64_wellKeyed 1450) },
    { lanPolicy with
      name := "site-3"
      matchSpec := { name := some "eth2", type := some "ethernet" }
      fields := FieldMap.empty.insert "mtu" (.u64 4000) (Value.u64_wellKeyed 4000) }]

set_option maxRecDepth 4000 in
theorem loadDocument_producible_site :
    (∀ policy ∈ sitePolicies, policy.name ≠ "") ∧ (sitePolicies.map Policy.name).Nodup ∧
      ∀ policy ∈ sitePolicies, (∃ production, policy.produce = some (.ok production)) ∨
        policy.produce = some (.error .emptyPolicy) :=
  have hload : (loadDocument parseSite printSite siteText "site" .name).run =
      some (.ok { policies := sitePolicies, warnings := [] }) := rfl
  loadDocument_producible (by decide) hload

section

variable {parse : String → Except String YamlValue} {print : YamlValue → Except String String}

/-- A sequence panics only where one of its parts does. -/
theorem loading_bind_isSome {α β : Type} {x : Loading α} {f : α → Loading β}
    (hx : x.run.isSome = true) (hf : ∀ a, x.run = some (.ok a) → (f a).run.isSome = true) :
    (x >>= f).run.isSome = true := by
  change (Option.bind x.run (ExceptT.bindCont f)).isSome = true
  rcases hrun : x.run with _ | e | a
  · rw [hrun] at hx
    exact absurd hx Bool.false_ne_true
  · rfl
  · exact hf a hrun

theorem expect_isSome {α : Type} {o : Option α} (h : o.isSome = true) :
    (expect o).run.isSome = true := by
  rcases Option.isSome_iff_exists.mp h with ⟨a, rfl⟩
  rfl

/-- A state that is prepared alone yields one state. -/
theorem resolveState_isSome (explicit : Bool) (state : State) (matchBy : MatchBy) :
    (resolveState explicit state matchBy).run.isSome = true := by
  rw [resolveState]
  split
  · split
    · exact loading_bind_isSome rfl fun _ _ => loading_bind_isSome rfl fun _ _ => rfl
    · exact loading_bind_isSome rfl fun _ _ => rfl
  · split
    · refine loading_bind_isSome rfl fun prepared hprepared => ?_
      rw [loading_lift_eq_ok, mapError_eq_ok] at hprepared
      have hlength := (SchemaRegistry.prepareForApply_forall₂ hprepared).length_eq
      refine loading_bind_isSome (expect_isSome ?_) fun _ _ => rfl
      cases hlist : prepared.states with
      | nil =>
          rw [hlist] at hlength
          exact absurd hlength Nat.one_ne_zero
      | cons head rest => rfl
    · exact loading_bind_isSome rfl fun _ _ => rfl

/-- Text that is read as a mapping yields one state. -/
theorem fromYaml_mapping {registry : SchemaRegistry} {text : String}
    {entries : List (YamlValue × YamlValue)} {states : List State}
    (hparse : parse text = .ok (.mapping entries))
    (h : registry.fromYaml parse text = .ok states) :
    ∃ state, registry.mappingToState entries = .ok state ∧ states = [state] := by
  rcases SchemaRegistry.fromYaml_eq_ok.mp h with ⟨_, tree, items, htree, hitems, hstates⟩
  obtain rfl := Except.ok.inj (hparse.symm.trans htree)
  obtain rfl := Option.some.inj hitems
  rcases List.forall₂_cons_left_iff.mp hstates with ⟨state, rest, ⟨_, ⟨⟩, hstate⟩, hrest, rfl⟩
  obtain rfl := List.forall₂_nil_left_iff.mp hrest
  exact ⟨state, hstate, rfl⟩

/-- Reading a mapping as a policy never panics, when text that was printed is
    read as what was printed. -/
theorem policyFromMapping_isSome
    (hprint : ∀ tree text, print tree = .ok text → parse text = .ok tree)
    (entries : List (YamlValue × YamlValue)) (fallbackName : String) (matchBy : MatchBy) :
    (policyFromMapping parse print entries fallbackName matchBy).run.isSome = true := by
  rw [policyFromMapping]
  refine loading_bind_isSome rfl fun explicit _ => ?_
  refine loading_bind_isSome rfl fun name _ => ?_
  refine loading_bind_isSome rfl fun priority _ => ?_
  refine loading_bind_isSome rfl fun metadata _ => ?_
  refine loading_bind_isSome rfl fun text htext => ?_
  refine loading_bind_isSome rfl fun states hstates => ?_
  rw [loading_lift_eq_ok, mapError_eq_ok] at htext hstates
  rcases fromYaml_mapping (hprint _ text htext) hstates with ⟨state, _, rfl⟩
  refine loading_bind_isSome rfl fun read _ => ?_
  refine loading_bind_isSome (resolveState_isSome explicit read matchBy) fun resolved _ => ?_
  rfl

/-- Loading a document never panics, under the same condition. -/
theorem loadDocument_isSome
    (hprint : ∀ tree text, print tree = .ok text → parse text = .ok tree)
    (input stem : String) (matchBy : MatchBy) :
    (loadDocument parse print input stem matchBy).run.isSome = true := by
  rw [loadDocument]
  refine loading_bind_isSome rfl fun value _ => ?_
  refine loading_bind_isSome rfl fun mappings _ => ?_
  -- The loop panics only where one of its mappings does.
  have hloop : ∀ (rest : List (List (YamlValue × YamlValue))) (index : Nat)
      (outcome : LoadOutcome), (loadMappings parse print stem (isMultiple value) matchBy rest
        index outcome).run.isSome = true := by
    intro rest
    induction rest with
    | nil => exact fun _ _ => rfl
    | cons entries rest ih =>
        intro index outcome
        rw [loadMappings]
        refine loading_bind_isSome
          (policyFromMapping_isSome hprint entries _ matchBy) fun policy _ => ?_
        dsimp only
        split
        · exact loading_bind_isSome rfl fun _ _ => ih _ _
        · exact ih _ _
  exact hloop mappings 0 _

end

end Netfyr
