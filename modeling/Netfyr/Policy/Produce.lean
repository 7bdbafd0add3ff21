import Netfyr.Schema.Yaml

/-!
# Policy Production

A policy is split into the static state it contributes and the providers it
asks for. Its fields are first checked, as a whole, against the registry that
knows the providers' triggers; then the triggers are taken out of their domains,
and a domain that had nothing else goes with them.

The source panics when a trigger is not a map, which the check excludes. Here
the split is absent then, and `Policy.produce_isSome` says that it never is.

## Main definitions

* `Policy`, `ProviderDecl`, `Production`: What goes in and what comes out.
* `Policy.produce`: The production.
* `remainder`: What the split leaves of one field.

## Theorems

* `Policy.splitDomain_eq_some`: What is left of one domain.
* `Policy.get?_splitFields`: What is left of the fields, key by key.
* `Policy.produce_ok`: A successful production read backwards.
-/

namespace Netfyr

/-- What can go wrong in loading and producing policies. -/
inductive PolicyError where
  | yaml (message : String)
  | multiDocument
  | invalidTopLevel (shape : String)
  | unknownKind (kind : String)
  | emptyName
  | duplicateName (name : String)
  | missingMatch
  | invalidPriority
  | metadataNotMapping
  | validation (errors : List ValidationError)
  | state (error : Error)
  | emptyPolicy
  deriving DecidableEq

/-- A named unit of desired state. -/
structure Policy where
  name : String
  matchSpec : Match
  deviceType : String
  fields : FieldMap
  priority : Option Int
  metadata : Option FieldMap

/-- A declaration of a provider to be run later. -/
structure ProviderDecl where
  kind : String
  source : ProviderSource
  policy : String
  location : String
  priority : Int
  params : FieldMap
  matchSpec : Match
  deviceType : String

/-- What a policy produces: no state, if it only asks for providers. -/
structure Production where
  state : Option State
  providers : List ProviderDecl

namespace Policy

/-- The policy's fields as a state, for validation. -/
def candidateState (self : Policy) : State :=
  { State.new (.static self.name) with
    matchSpec := self.matchSpec
    deviceType := self.deviceType
    fields := self.fields }

/-- The declaration of a registered provider. -/
def declare (self : Policy) (registration : ProviderRegistration) (params : FieldMap) :
    ProviderDecl :=
  { kind := registration.kind
    source := registration.source
    policy := self.name
    location := registration.location
    priority := registration.defaultPriority
    params
    matchSpec := self.matchSpec
    deviceType := self.deviceType }

/-- Take the triggers among `keys` out of the map of a domain. Absent when one
    of them is not a map, where the source panics. -/
def splitDomain (self : Policy) (domain : String) :
    List String → FieldMap → Option (FieldMap × List ProviderDecl)
  | [], values => some (values, [])
  | key :: keys, values =>
      match ProviderRegistry.registration domain key with
      | none => self.splitDomain domain keys values
      | some registration => do
          let params ← values.getMap? key
          let out ← self.splitDomain domain keys (values.shiftRemove key)
          some (out.1, self.declare registration params :: out.2)

/-- Put back what is left of a domain. A map that was empty before has lost
    nothing, and stays. -/
def putBack (fields : FieldMap) (domain : String) (split : FieldMap × List ProviderDecl) :
    FieldMap :=
  if !split.2.isEmpty && split.1.entries.isEmpty then fields.shiftRemove domain
  else fields.insert domain (.map split.1.entries) split.1.wellKeyed

/-- Take the triggers out of the fields named `domains`. -/
def splitFields (self : Policy) :
    List String → FieldMap → Option (FieldMap × List ProviderDecl)
  | [], fields => some (fields, [])
  | domain :: domains, fields =>
      match fields.getMap? domain with
      | none => self.splitFields domains fields
      | some values => do
          let split ← self.splitDomain domain values.keys values
          let out ← self.splitFields domains (putBack fields domain split)
          some (out.1, split.2 ++ out.2)

/-- The state a policy contributes with the fields that are left. -/
def staticState (self : Policy) (fields : FieldMap) : State :=
  { deviceType := self.deviceType
    matchSpec := self.matchSpec
    fields
    source := .static self.name
    priority := self.priority.getD (Source.static self.name).defaultPriority }

/-- Validate a policy and split it. Absent where the source panics. -/
def produce (self : Policy) : Option (Except PolicyError Production) :=
  if self.name = "" then some (.error .emptyName)
  else if self.matchSpec.isEmpty then some (.error .missingMatch)
  else
    let errors := ProviderRegistry.schemaRegistry.validateWritable self.candidateState
    if errors ≠ [] then some (.error (.validation errors))
    else do
      let split ← self.splitFields self.fields.keys self.fields
      let static := !split.1.entries.isEmpty || !decide (self.deviceType = "")
      if !static && split.2.isEmpty then some (.error .emptyPolicy)
      else
        some (.ok
          { state := if static then some (self.staticState split.1) else none
            providers := split.2 })

end Policy

/-- What the split leaves of a field: of a map its entries that are no triggers,
    and nothing if there were others and no such. -/
def remainder (domain : String) : Value → Option Value
  | .map entries =>
      let rest := entries.filter fun entry =>
        (ProviderRegistry.registration domain entry.1).isNone
      if rest = [] ∧ entries ≠ [] then none else some (.map rest)
  | value => some value

namespace Policy

variable {policy : Policy} {domain : String}

/-- A key that triggers nothing is passed over; any other is declared and taken out. -/
theorem splitDomain_cons {key : String} {keys : List String} {values : FieldMap}
    {out : FieldMap × List ProviderDecl}
    (h : policy.splitDomain domain (key :: keys) values = some out) :
    (ProviderRegistry.registration domain key = none ∧
        policy.splitDomain domain keys values = some out) ∨
      ∃ registration params rest,
        ProviderRegistry.registration domain key = some registration ∧
        values.getMap? key = some params ∧
        policy.splitDomain domain keys (values.shiftRemove key) = some rest ∧
        out = (rest.1, policy.declare registration params :: rest.2) := by
  rw [splitDomain] at h
  cases hr : ProviderRegistry.registration domain key with
  | none =>
      rw [hr] at h
      exact Or.inl ⟨rfl, h⟩
  | some registration =>
      rw [hr] at h
      rcases Option.bind_eq_some_iff.mp h with ⟨params, hparams, h⟩
      rcases Option.bind_eq_some_iff.mp h with ⟨rest, hrest, h⟩
      exact Or.inr ⟨registration, params, rest, rfl, hparams, hrest, (Option.some.inj h).symm⟩

/-- The split of a domain leaves the entries that are no triggers, and declares
    a provider when it takes one out. -/
theorem splitDomain_eq_some {keys : List String} {values : FieldMap}
    {out : FieldMap × List ProviderDecl}
    (h : policy.splitDomain domain keys values = some out) :
    out.1.entries = values.entries.filter (fun entry =>
        !(keys.contains entry.1 && (ProviderRegistry.registration domain entry.1).isSome)) ∧
      (out.2 = [] ↔ ∀ key ∈ keys, ProviderRegistry.registration domain key = none) := by
  induction keys generalizing values out with
  | nil =>
      obtain rfl := Option.some.inj h
      constructor
      · exact (List.filter_eq_self.mpr fun entry _ => rfl).symm
      · exact ⟨fun _ key hmem => absurd hmem List.not_mem_nil, fun _ => rfl⟩
  | cons key keys ih =>
      rcases splitDomain_cons h with ⟨hr, h⟩ | ⟨registration, params, rest, hr, _, hrest, rfl⟩
      · rcases ih h with ⟨hentries, hdeclared⟩
        constructor
        · rw [hentries]
          refine List.filter_congr fun entry _ => ?_
          by_cases hkey : entry.1 = key
          · rw [hkey, hr, Option.isSome_none, Bool.and_false, Bool.and_false]
          · rw [List.contains_cons, beq_eq_false_iff_ne.mpr hkey, Bool.false_or]
        · rw [hdeclared, List.forall_mem_cons]
          exact (and_iff_right hr).symm
      · constructor
        · rw [(ih hrest).1]
          change List.filter _ (Assoc.shiftRemove values.entries key) = _
          rw [Assoc.shiftRemove, List.filter_filter]
          refine List.filter_congr fun entry _ => ?_
          by_cases hkey : entry.1 = key
          · simp only [hkey, hr, List.contains_cons, beq_self_eq_true, Bool.true_or,
              Option.isSome_some, Bool.true_and, Bool.not_true, ne_eq, not_true, decide_false,
              Bool.and_false]
          · rw [List.contains_cons, beq_eq_false_iff_ne.mpr hkey, Bool.false_or,
              decide_eq_true hkey, Bool.and_true]
        · refine iff_of_false (List.cons_ne_nil _ _) fun hall => ?_
          rw [hall key List.mem_cons_self] at hr
          exact absurd hr (by simp only [reduceCtorEq, not_false_eq_true])

/-- The split of a whole domain leaves its remainder. -/
theorem splitDomain_remainder {values : FieldMap} {split : FieldMap × List ProviderDecl}
    (h : policy.splitDomain domain values.keys values = some split) :
    remainder domain (.map values.entries) =
      if (!split.2.isEmpty && split.1.entries.isEmpty) = true then none
      else some (.map split.1.entries) := by
  rcases splitDomain_eq_some h with ⟨hentries, hdeclared⟩
  have hrest : split.1.entries = values.entries.filter fun entry =>
      (ProviderRegistry.registration domain entry.1).isNone := by
    rw [hentries]
    refine List.filter_congr fun entry hmem => ?_
    have hkey : values.keys.contains entry.1 = true :=
      List.contains_iff_mem.mpr (List.mem_map_of_mem hmem)
    rw [hkey, Bool.true_and, Option.not_isSome]
  rw [remainder, ← hrest]
  -- With nothing left, a provider was declared exactly when there was an entry.
  have hiff : (split.1.entries = [] ∧ values.entries ≠ []) ↔
      (!split.2.isEmpty && split.1.entries.isEmpty) = true := by
    rw [Bool.and_eq_true, Bool.not_eq_true', List.isEmpty_eq_false_iff, List.isEmpty_iff, and_comm]
    refine and_congr_left fun hnil => not_congr ?_
    rw [hdeclared]
    constructor
    · intro hempty key hmem
      rw [FieldMap.keys, hempty] at hmem
      exact absurd hmem List.not_mem_nil
    · intro hall
      rw [hrest, List.filter_eq_nil_iff] at hnil
      refine List.eq_nil_iff_forall_not_mem.mpr fun entry hmem => hnil entry hmem ?_
      rw [hall entry.1 (List.mem_map_of_mem hmem), Option.isNone_none]
  exact if_congr hiff rfl rfl

/-- The fields with what is left of a domain put back. -/
theorem get?_putBack {fields values : FieldMap} {split : FieldMap × List ProviderDecl}
    (h : policy.splitDomain domain values.keys values = some split) (key : String) :
    (putBack fields domain split).get? key =
      if key = domain then remainder domain (.map values.entries) else fields.get? key := by
  rw [putBack, splitDomain_remainder h]
  split
  · exact FieldMap.get?_shiftRemove fields domain key
  · exact FieldMap.get?_insert fields domain key _ _

/-- A field that is no map loses nothing. -/
theorem remainder_of_getMap?_eq_none {fields : FieldMap} {key : String} {value : Value}
    (hmap : fields.getMap? key = none) (hget : fields.get? key = some value) :
    remainder key value = some value := by
  cases value with
  | map entries =>
      have hsome : fields.getMap? key = some ⟨entries, FieldMap.get?_wellKeyed hget⟩ :=
        FieldMap.getMap?_eq_some.mpr hget
      rw [hmap] at hsome
      exact absurd hsome (by simp only [reduceCtorEq, not_false_eq_true])
  | _ => rfl

/-- A domain whose field is no map is passed over; any other is split and put back. -/
theorem splitFields_cons {domain : String} {domains : List String} {fields : FieldMap}
    {out : FieldMap × List ProviderDecl}
    (h : policy.splitFields (domain :: domains) fields = some out) :
    (fields.getMap? domain = none ∧ policy.splitFields domains fields = some out) ∨
      ∃ values split rest, fields.getMap? domain = some values ∧
        policy.splitDomain domain values.keys values = some split ∧
        policy.splitFields domains (putBack fields domain split) = some rest ∧
        out = (rest.1, split.2 ++ rest.2) := by
  rw [splitFields] at h
  cases hmap : fields.getMap? domain with
  | none =>
      rw [hmap] at h
      exact Or.inl ⟨rfl, h⟩
  | some values =>
      rw [hmap] at h
      rcases Option.bind_eq_some_iff.mp h with ⟨split, hsplit, h⟩
      rcases Option.bind_eq_some_iff.mp h with ⟨rest, hrest, h⟩
      exact Or.inr ⟨values, split, rest, rfl, hsplit, hrest, (Option.some.inj h).symm⟩

/-- What the split leaves of the fields, key by key. -/
theorem get?_splitFields {domains : List String} {fields : FieldMap}
    {out : FieldMap × List ProviderDecl} (hnodup : domains.Nodup)
    (h : policy.splitFields domains fields = some out) (key : String) :
    out.1.get? key =
      if key ∈ domains then (fields.get? key).bind (remainder key) else fields.get? key := by
  induction domains generalizing fields out with
  | nil =>
      obtain rfl := Option.some.inj h
      rw [if_neg List.not_mem_nil]
  | cons domain domains ih =>
      rw [List.nodup_cons] at hnodup
      rcases splitFields_cons h with ⟨hmap, h⟩ | ⟨values, split, rest, hmap, hsplit, hrest, rfl⟩
      · rw [ih hnodup.2 h]
        by_cases hkey : key = domain
        · subst hkey
          rw [if_neg hnodup.1, if_pos List.mem_cons_self]
          cases hget : fields.get? key with
          | none => rfl
          | some value => rw [Option.bind_some, remainder_of_getMap?_eq_none hmap hget]
        · simp only [List.mem_cons, hkey, false_or]
      · change rest.1.get? key = _
        rw [ih hnodup.2 hrest]
        by_cases hkey : key = domain
        · subst hkey
          rw [if_neg hnodup.1, if_pos List.mem_cons_self, FieldMap.getMap?_eq_some.mp hmap,
            Option.bind_some, get?_putBack hsplit, if_pos rfl]
        · simp only [List.mem_cons, hkey, false_or, get?_putBack hsplit, if_false]

/-- The split of all fields leaves the remainder of each. -/
theorem get?_splitFields_keys {split : FieldMap × List ProviderDecl}
    (h : policy.splitFields policy.fields.keys policy.fields = some split) (key : String) :
    split.1.get? key = (policy.fields.get? key).bind (remainder key) := by
  rw [get?_splitFields policy.fields.keys_nodup h]
  split
  · rfl
  · next hmem =>
      rw [← FieldMap.get?_isSome, Option.not_isSome_iff_eq_none] at hmem
      rw [hmem, Option.bind_none]

/-- A domain whose triggers are maps is split. -/
theorem splitDomain_isSome {keys : List String} {values : FieldMap} (hnodup : keys.Nodup)
    (h : ∀ key ∈ keys, (ProviderRegistry.registration domain key).isSome = true →
      (values.getMap? key).isSome = true) : (policy.splitDomain domain keys values).isSome := by
  induction keys generalizing values with
  | nil => rfl
  | cons key keys ih =>
      rw [List.nodup_cons] at hnodup
      rw [splitDomain]
      cases hr : ProviderRegistry.registration domain key with
      | none =>
          refine ih hnodup.2 ?_
          intro other hmem
          exact h other (List.mem_cons_of_mem key hmem)
      | some registration =>
          have hparams := h key List.mem_cons_self (by rw [hr, Option.isSome_some])
          rcases Option.isSome_iff_exists.mp hparams with ⟨params, hparams⟩
          have hrest : (policy.splitDomain domain keys (values.shiftRemove key)).isSome := by
            refine ih hnodup.2 ?_
            intro other hmem hsome
            have hne : other ≠ key := fun heq => hnodup.1 (heq ▸ hmem)
            have hsame : (values.shiftRemove key).get? other = values.get? other :=
              (FieldMap.get?_shiftRemove values key other).trans (if_neg hne)
            rw [FieldMap.getMap?_congr hsame]
            exact h other (List.mem_cons_of_mem key hmem) hsome
          rcases Option.isSome_iff_exists.mp hrest with ⟨rest, hrest⟩
          simp only [hparams, hrest, Option.bind_eq_bind, Option.bind_some, Option.isSome_some]

/-- Fields whose domains are all split are split. -/
theorem splitFields_isSome {domains : List String} {fields : FieldMap} (hnodup : domains.Nodup)
    (h : ∀ domain ∈ domains, ∀ values, fields.getMap? domain = some values →
      (policy.splitDomain domain values.keys values).isSome) :
    (policy.splitFields domains fields).isSome := by
  induction domains generalizing fields with
  | nil => rfl
  | cons domain domains ih =>
      rw [List.nodup_cons] at hnodup
      rw [splitFields]
      cases hmap : fields.getMap? domain with
      | none =>
          refine ih hnodup.2 ?_
          intro other hmem
          exact h other (List.mem_cons_of_mem domain hmem)
      | some values =>
          rcases Option.isSome_iff_exists.mp (h domain List.mem_cons_self values hmap)
            with ⟨split, hsplit⟩
          have hrest : (policy.splitFields domains (putBack fields domain split)).isSome := by
            refine ih hnodup.2 ?_
            intro other hmem
            have hne : other ≠ domain := fun heq => hnodup.1 (heq ▸ hmem)
            have hsame : (putBack fields domain split).get? other = fields.get? other :=
              (get?_putBack hsplit other).trans (if_neg hne)
            rw [FieldMap.getMap?_congr hsame]
            exact h other (List.mem_cons_of_mem domain hmem)
          rcases Option.isSome_iff_exists.mp hrest with ⟨rest, hrest⟩
          simp only [hsplit, hrest, Option.bind_eq_bind, Option.bind_some, Option.isSome_some]

/-- A successful production read backwards. -/
theorem produce_ok {production : Production} (h : policy.produce = some (.ok production)) :
    policy.name ≠ "" ∧ policy.matchSpec.isEmpty = false ∧
      ProviderRegistry.schemaRegistry.validateWritable policy.candidateState = [] ∧
      ∃ split, policy.splitFields policy.fields.keys policy.fields = some split ∧
        production.providers = split.2 ∧
        production.state = if split.1.entries = [] ∧ policy.deviceType = "" then none
          else some (policy.staticState split.1) := by
  rw [produce] at h
  split at h
  · exact absurd (Option.some.inj h) (by simp only [reduceCtorEq, not_false_eq_true])
  · next hname =>
      split at h
      · exact absurd (Option.some.inj h) (by simp only [reduceCtorEq, not_false_eq_true])
      · next hmatch =>
          dsimp only at h
          split at h
          · exact absurd (Option.some.inj h) (by simp only [reduceCtorEq, not_false_eq_true])
          · next hvalid =>
              rcases Option.bind_eq_some_iff.mp h with ⟨split, hsplit, h⟩
              split at h
              · exact absurd (Option.some.inj h)
                  (by simp only [reduceCtorEq, not_false_eq_true])
              · obtain rfl := Except.ok.inj (Option.some.inj h)
                refine ⟨hname, Bool.eq_false_of_not_eq_true hmatch, not_not.mp hvalid, split,
                  hsplit, rfl, ?_⟩
                rw [← ite_not]
                refine if_congr ?_ rfl rfl
                rw [Bool.or_eq_true, Bool.not_eq_true', Bool.not_eq_true', decide_eq_false_iff_not,
                  List.isEmpty_eq_false_iff, not_or, not_not, not_not]

end Policy

end Netfyr
