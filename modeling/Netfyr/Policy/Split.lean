import Mathlib.Data.List.Nodup
import Netfyr.Data.Lists
import Netfyr.Policy.Static

/-!
# Nothing Lost, Nothing Twice

What production does with each entry of a policy. A trigger becomes a provider
declaration with its parameters, in the order of the fields, and every other
entry stays where it is in the static state. A domain goes only when it had a
trigger and nothing else, and the static state only when nothing is left of it.

The split takes the domains one after another out of the fields as they were
left by the ones before. `splitFields_entries` and `splitFields_providers` read
it off the fields as they were at first.

## Main definitions

* `Policy.triggers`: The triggers of a policy, in order, with their parameters.
* `Production.staticFields`: The fields of the static state, if there is one.
* `Policy.SplitBy`: A production is the policy, split.

## Theorems

* `Policy.produce_splits`: A successful production splits its policy.
-/

namespace Netfyr

/-- The fields of the static state, if there is one. -/
def Production.staticFields (self : Production) : List (String × Value) :=
  match self.state with
  | some state => state.fields.entries
  | none => []

namespace Policy

/-- The triggers in the map of a domain, in order, with their parameters. -/
def domainTriggers (domain : String) (keys : List String) (values : FieldMap) :
    List (ProviderRegistration × FieldMap) :=
  keys.filterMap fun key => do
    let registration ← ProviderRegistry.registration domain key
    let params ← values.getMap? key
    some (registration, params)

/-- The triggers in the fields named `domains`, in order, with their parameters. -/
def fieldTriggers (domains : List String) (fields : FieldMap) :
    List (ProviderRegistration × FieldMap) :=
  domains.flatMap fun domain =>
    match fields.getMap? domain with
    | some values => domainTriggers domain values.keys values
    -- A field that is no map holds no trigger.
    | none => []

/-- The triggers of a policy, in the order of its fields, with their parameters. -/
def triggers (self : Policy) : List (ProviderRegistration × FieldMap) :=
  fieldTriggers self.fields.keys self.fields

/-- A domain holds a trigger, and nothing else. -/
def OnlyTriggers (domain : String) (value : Value) : Prop :=
  ∃ entries, value = .map entries ∧ entries ≠ [] ∧
    ∀ entry ∈ entries, (ProviderRegistry.registration domain entry.1).isSome = true

/-- A production is the policy, split into triggers and the rest. -/
structure SplitBy (policy : Policy) (production : Production) : Prop where
  /-- A trigger is declared once, with its parameters, and is not left in the
      static state. -/
  taken : ∀ (domain key : String) (registration : ProviderRegistration) (entries : List _)
      (value : Value), ProviderRegistry.registration domain key = some registration →
    policy.fields.get? domain = some (.map entries) → (key, value) ∈ entries →
      (∃ params : FieldMap, value = .map params.entries ∧
        production.providers.filter (fun provider => provider.location = domain ++ "." ++ key) =
          [policy.declare registration params]) ∧
        ∀ rest, production.staticFields.lookup domain = some (.map rest) → key ∉ Assoc.keys rest
  /-- The providers are the triggers, in their order. -/
  declared : production.providers =
    policy.triggers.map fun trigger => policy.declare trigger.1 trigger.2
  /-- What is no trigger stays, in its place and in its order. -/
  kept : production.staticFields = policy.fields.entries.filterMap fun field =>
    (remainder field.1 field.2).map fun rest => (field.1, rest)
  /-- A domain goes when it held triggers only. -/
  missing : ∀ domain value, policy.fields.get? domain = some value →
    (production.staticFields.lookup domain = none ↔ OnlyTriggers domain value)
  /-- The static state goes when nothing is left of it. -/
  absent : production.state = none ↔ production.staticFields = [] ∧ policy.deviceType = ""

variable {policy : Policy} {domain : String}

/-- The triggers in a domain do not depend on keys that were taken out. -/
theorem domainTriggers_congr {keys : List String} {values other : FieldMap}
    (h : ∀ key ∈ keys, values.get? key = other.get? key) :
    domainTriggers domain keys values = domainTriggers domain keys other := by
  refine List.filterMap_congr fun key hmem => ?_
  rw [FieldMap.getMap?_congr (h key hmem)]

/-- The providers that the split of a domain declares. -/
theorem splitDomain_providers {keys : List String} {values : FieldMap}
    {out : FieldMap × List ProviderDecl} (hnodup : keys.Nodup)
    (h : policy.splitDomain domain keys values = some out) :
    out.2 = (domainTriggers domain keys values).map fun trigger =>
      policy.declare trigger.1 trigger.2 := by
  induction keys generalizing values out with
  | nil =>
      rw [← Option.some.inj h]
      rfl
  | cons key keys ih =>
      rw [List.nodup_cons] at hnodup
      rcases splitDomain_cons h with ⟨hr, h⟩ | ⟨registration, params, rest, hr, hparams, hrest, rfl⟩
      · -- An entry that is no trigger is passed over on both sides.
        have hskip : domainTriggers domain (key :: keys) values =
            domainTriggers domain keys values := by
          refine List.filterMap_cons_none ?_
          rw [hr, Option.bind_eq_bind, Option.bind_none]
        rw [hskip, ih hnodup.2 h]
      · -- A trigger is declared, and then taken out of the map.
        have htake : domainTriggers domain (key :: keys) values =
            (registration, params) :: domainTriggers domain keys values := by
          refine List.filterMap_cons_some ?_
          rw [hr, hparams]
          rfl
        -- The keys that follow are still there.
        have hsame : domainTriggers domain keys (values.shiftRemove key) =
            domainTriggers domain keys values := by
          refine domainTriggers_congr fun other hmem => ?_
          have hne : other ≠ key := fun heq => hnodup.1 (heq ▸ hmem)
          exact (FieldMap.get?_shiftRemove values key other).trans (if_neg hne)
        rw [htake, List.map_cons, ← hsame, ih hnodup.2 hrest]

/-- The triggers in other fields do not depend on a domain that was put back. -/
theorem fieldTriggers_congr {domains : List String} {fields other : FieldMap}
    (h : ∀ key ∈ domains, fields.get? key = other.get? key) :
    fieldTriggers domains fields = fieldTriggers domains other := by
  refine List.flatMap_congr fun key hmem => ?_
  rw [FieldMap.getMap?_congr (h key hmem)]

/-- The providers that the split declares. -/
theorem splitFields_providers {domains : List String} {fields : FieldMap}
    {out : FieldMap × List ProviderDecl} (hnodup : domains.Nodup)
    (h : policy.splitFields domains fields = some out) :
    out.2 = (fieldTriggers domains fields).map fun trigger =>
      policy.declare trigger.1 trigger.2 := by
  induction domains generalizing fields out with
  | nil =>
      rw [← Option.some.inj h]
      rfl
  | cons domain domains ih =>
      rw [List.nodup_cons] at hnodup
      rcases splitFields_cons h with ⟨hmap, h⟩ | ⟨values, split, rest, hmap, hsplit, hrest, rfl⟩
      · rw [ih hnodup.2 h, fieldTriggers, fieldTriggers, List.flatMap_cons, hmap]
        rfl
      · -- Putting this domain back does not touch the domains that follow.
        have hsame : fieldTriggers domains (putBack fields domain split) =
            fieldTriggers domains fields := by
          refine fieldTriggers_congr fun other hmem => ?_
          have hne : other ≠ domain := fun heq => hnodup.1 (heq ▸ hmem)
          exact (get?_putBack hsplit other).trans (if_neg hne)
        -- The triggers of this domain come first.
        have htake : fieldTriggers (domain :: domains) fields =
            domainTriggers domain values.keys values ++ fieldTriggers domains fields := by
          rw [fieldTriggers, List.flatMap_cons, hmap]
          rfl
        rw [htake, List.map_append, ← hsame, splitDomain_providers values.keys_nodup hsplit,
          ih hnodup.2 hrest]

/-- What the split of the fields named `domains` leaves of an entry. -/
def leave (domains : List String) (field : String × Value) : Option (String × Value) :=
  if field.1 ∈ domains then (remainder field.1 field.2).map fun rest => (field.1, rest)
  else some field

theorem leave_of_not_mem {domains : List String} {field : String × Value}
    (h : field.1 ∉ domains) : leave domains field = some field := if_neg h

theorem leave_of_mem {domains : List String} {field : String × Value} (h : field.1 ∈ domains) :
    leave domains field = (remainder field.1 field.2).map fun rest => (field.1, rest) := if_pos h

/-- Putting a domain back leaves the other fields where they are. -/
theorem putBack_entries {fields values : FieldMap} {split : FieldMap × List ProviderDecl}
    (hmap : fields.getMap? domain = some values)
    (h : policy.splitDomain domain values.keys values = some split) :
    (putBack fields domain split).entries = fields.entries.filterMap (leave [domain]) := by
  have hrest := splitDomain_remainder h
  -- The keys are distinct, so there is one field of that name.
  have hvalue : ∀ field ∈ fields.entries, field.1 = domain → field.2 = .map values.entries := by
    intro field hmem heq
    have hget := Assoc.lookup_of_mem fields.keys_nodup hmem
    rw [heq] at hget
    exact Option.some.inj (hget.symm.trans (FieldMap.getMap?_eq_some.mp hmap))
  have hleave : ∀ field ∈ fields.entries, field.1 = domain →
      leave [domain] field = (remainder domain (.map values.entries)).map fun rest =>
        (field.1, rest) := by
    intro field hmem heq
    rw [leave_of_mem (List.mem_singleton.mpr heq), hvalue field hmem heq, heq]
  rw [putBack]
  split
  · next hgone =>
      -- The domain goes.
      rw [if_pos hgone] at hrest
      change List.filter _ fields.entries = _
      rw [← List.filterMap_eq_filter]
      refine List.filterMap_congr fun field hmem => ?_
      by_cases heq : field.1 = domain
      · rw [hleave field hmem heq, hrest, Option.map_none, Option.guard, if_neg]
        intro hne
        exact of_decide_eq_true hne heq
      · rw [leave_of_not_mem (mt List.mem_singleton.mp heq), Option.guard,
          if_pos (decide_eq_true heq)]
  · next hstays =>
      rw [if_neg hstays] at hrest
      -- The domain stays where it was, with what is left of it.
      have hkey : domain ∈ fields.keys := by
        rw [← FieldMap.get?_isSome, FieldMap.getMap?_eq_some.mp hmap, Option.isSome_some]
      change Assoc.insert fields.entries domain _ = _
      rw [Assoc.insert_of_mem fields.keys_nodup hkey, ← List.filterMap_eq_map]
      refine List.filterMap_congr fun field hmem => ?_
      rw [Function.comp_apply]
      by_cases heq : field.1 = domain
      · rw [hleave field hmem heq, hrest, if_pos heq, Option.map_some]
      · rw [leave_of_not_mem (mt List.mem_singleton.mp heq), if_neg heq]

/-- What the split leaves of the fields, in order. -/
theorem splitFields_entries {domains : List String} {fields : FieldMap}
    {out : FieldMap × List ProviderDecl} (hnodup : domains.Nodup)
    (h : policy.splitFields domains fields = some out) :
    out.1.entries = fields.entries.filterMap (leave domains) := by
  induction domains generalizing fields out with
  | nil =>
      rw [← Option.some.inj h]
      have hall : fields.entries.filterMap (leave []) = fields.entries.filterMap some :=
        List.filterMap_congr fun field _ => leave_of_not_mem List.not_mem_nil
      rw [hall, List.filterMap_some]
  | cons domain domains ih =>
      rw [List.nodup_cons] at hnodup
      rcases splitFields_cons h with ⟨hmap, h⟩ | ⟨values, split, rest, hmap, hsplit, hrest, rfl⟩
      · rw [ih hnodup.2 h]
        -- `domain` is no map: it loses nothing, and the rest are as the induction says.
        refine List.filterMap_congr fun field hmem => ?_
        by_cases heq : field.1 = domain
        · have hget := Assoc.lookup_of_mem fields.keys_nodup hmem
          rw [heq] at hget
          rw [leave_of_not_mem (heq ▸ hnodup.1), leave_of_mem (heq ▸ List.mem_cons_self), heq,
            remainder_of_getMap?_eq_none hmap hget, Option.map_some, ← heq]
        · rw [leave, leave]
          exact if_congr (by rw [List.mem_cons, or_iff_right heq]) rfl rfl
      · change rest.1.entries = _
        rw [ih hnodup.2 hrest, putBack_entries hmap hsplit, List.filterMap_filterMap]
        refine List.filterMap_congr fun field _ => ?_
        by_cases heq : field.1 = domain
        · rw [leave_of_mem (List.mem_singleton.mpr heq), leave_of_mem (heq ▸ List.mem_cons_self)]
          -- What is left of the domain is not split again.
          cases remainder field.1 field.2 with
          | none => rfl
          | some left =>
              rw [Option.map_some, Option.bind_some]
              exact leave_of_not_mem (heq ▸ hnodup.1)
        · rw [leave_of_not_mem (mt List.mem_singleton.mp heq), Option.bind_some, leave, leave]
          exact if_congr (by rw [List.mem_cons, or_iff_right heq]) rfl rfl

/-- The fields of the produced state are those that the split leaves. -/
theorem staticFields_eq {production : Production} {fields : FieldMap}
    (h : production.state = if fields.entries = [] ∧ policy.deviceType = "" then none
      else some (policy.staticState fields)) : production.staticFields = fields.entries := by
  rw [Production.staticFields, h]
  split
  · next hsome =>
      split at hsome
      · exact absurd hsome (by simp only [reduceCtorEq, not_false_eq_true])
      · rw [← Option.some.inj hsome]
        rfl
  · next hnone =>
      split at hnone
      · next hnothing => exact hnothing.1.symm
      · exact absurd hnone (by simp only [reduceCtorEq, not_false_eq_true])

/-- A registration is found under its own domain and key. -/
theorem registration_domain {key : String} {registration : ProviderRegistration}
    (h : ProviderRegistry.registration domain key = some registration) :
    registration ∈ ProviderRegistry.registrations ∧ registration.domain = domain ∧
      registration.key = key := by
  have hfound := List.find?_some h
  rw [decide_eq_true_eq] at hfound
  exact ⟨List.mem_of_find?_eq_some h, hfound⟩

/-- A location names one trigger. -/
theorem location_inj {domain' key key' : String} {registration other : ProviderRegistration}
    (h : ProviderRegistry.registration domain key = some registration)
    (h' : ProviderRegistry.registration domain' key' = some other)
    (heq : registration.location = other.location) : domain = domain' ∧ key = key' := by
  -- The table of providers is closed, so the check is finite.
  have hinj : ∀ a ∈ ProviderRegistry.registrations, ∀ b ∈ ProviderRegistry.registrations,
      a.location = b.location → a.domain = b.domain ∧ a.key = b.key := by
    decide
  rcases registration_domain h with ⟨hmem, rfl, rfl⟩
  rcases registration_domain h' with ⟨hmem', rfl, rfl⟩
  exact hinj registration hmem other hmem' heq

theorem mem_domainTriggers {keys : List String} {values : FieldMap}
    {trigger : ProviderRegistration × FieldMap} :
    trigger ∈ domainTriggers domain keys values ↔ ∃ key ∈ keys,
      ProviderRegistry.registration domain key = some trigger.1 ∧
        values.getMap? key = some trigger.2 := by
  rw [domainTriggers, List.mem_filterMap]
  refine exists_congr fun key => and_congr_right fun _ => ?_
  simp only [Option.bind_eq_bind, Option.bind_eq_some_iff, Option.some.injEq]
  constructor
  · rintro ⟨registration, hregistration, params, hparams, rfl⟩
    exact ⟨hregistration, hparams⟩
  · rintro ⟨hregistration, hparams⟩
    exact ⟨_, hregistration, _, hparams, rfl⟩

theorem mem_fieldTriggers {domains : List String} {fields : FieldMap}
    {trigger : ProviderRegistration × FieldMap} :
    trigger ∈ fieldTriggers domains fields ↔ ∃ domain ∈ domains, ∃ values,
      fields.getMap? domain = some values ∧ trigger ∈ domainTriggers domain values.keys values := by
  rw [fieldTriggers, List.mem_flatMap]
  refine exists_congr fun domain => and_congr_right fun _ => ?_
  cases fields.getMap? domain with
  | none => simp only [List.not_mem_nil, reduceCtorEq, false_and, exists_false]
  | some values => simp only [Option.some.injEq, exists_eq_left']

/-- No two triggers have the same location. -/
theorem triggers_nodup (policy : Policy) :
    (policy.triggers.map fun trigger => trigger.1.location).Nodup := by
  rw [triggers, fieldTriggers, List.map_flatMap, List.nodup_flatMap]
  constructor
  · intro domain _
    split
    · next values _ =>
        rw [domainTriggers, List.map_filterMap]
        -- Within a domain the keys differ.
        refine values.keys_nodup.filterMap ?_
        intro key key' location hkey hkey'
        simp only [Option.bind_eq_bind, Option.mem_def, Option.map_eq_some_iff,
          Option.bind_eq_some_iff, Option.some.injEq] at hkey hkey'
        rcases hkey with ⟨_, ⟨registration, hregistration, params, _, rfl⟩, rfl⟩
        rcases hkey' with ⟨_, ⟨other, hother, params', _, rfl⟩, heq⟩
        exact (location_inj hregistration hother heq.symm).2
    · exact List.nodup_nil
  · refine List.Pairwise.imp ?_ policy.fields.keys_nodup
    -- Across domains the domains differ, and a location has its domain in it.
    intro domain domain' hne location hlocation hlocation'
    rcases List.mem_map.mp hlocation with ⟨trigger, hmem, rfl⟩
    rcases List.mem_map.mp hlocation' with ⟨other, hmem', heq⟩
    split at hmem
    · split at hmem'
      · rcases mem_domainTriggers.mp hmem with ⟨key, _, hregistration, _⟩
        rcases mem_domainTriggers.mp hmem' with ⟨key', _, hother, _⟩
        exact hne (location_inj hother hregistration heq).1.symm
      · exact List.not_mem_nil hmem'
    · exact List.not_mem_nil hmem

/-- Nothing is left of a field exactly when it held triggers only. -/
theorem remainder_eq_none {value : Value} :
    remainder domain value = none ↔ OnlyTriggers domain value := by
  unfold remainder OnlyTriggers
  cases value with
  | map entries =>
      have hfilter : (entries.filter fun entry =>
            (ProviderRegistry.registration domain entry.1).isNone) = [] ↔
          ∀ entry ∈ entries, (ProviderRegistry.registration domain entry.1).isSome = true := by
        rw [List.filter_eq_nil_iff]
        refine forall₂_congr fun entry _ => ?_
        rw [Option.isNone_iff_eq_none, ← ne_eq, Option.isSome_iff_ne_none]
      constructor
      · intro hnone
        dsimp only at hnone
        split at hnone
        · next hempty => exact ⟨entries, rfl, hempty.2, hfilter.mp hempty.1⟩
        · exact absurd hnone (by simp only [reduceCtorEq, not_false_eq_true])
      · rintro ⟨inner, heq, hne, hall⟩
        rw [← Value.map.inj heq] at hne hall
        exact if_pos ⟨hfilter.mpr hall, hne⟩
  | _ => simp only [reduceCtorEq, false_and, exists_false]

/-- No trigger is left of a domain. -/
theorem remainder_no_trigger {key : String} {registration : ProviderRegistration}
    {entries rest : List (String × Value)}
    (hregistration : ProviderRegistry.registration domain key = some registration)
    (h : remainder domain (.map entries) = some (.map rest)) : key ∉ Assoc.keys rest := by
  intro hleft
  rw [remainder] at h
  split at h
  · exact absurd h (by simp only [reduceCtorEq, not_false_eq_true])
  · -- What stays passed the filter, and `key` does not.
    rw [← Value.map.inj (Option.some.inj h)] at hleft
    rcases List.mem_map.mp hleft with ⟨entry, hentry, rfl⟩
    have hnone := (List.mem_filter.mp hentry).2
    rw [hregistration] at hnone
    exact Bool.false_ne_true hnone

/-- A trigger is declared once, under its location. -/
theorem declared_once {registration : ProviderRegistration} {params : FieldMap}
    {providers : List ProviderDecl}
    (hdeclared : providers = policy.triggers.map fun trigger => policy.declare trigger.1 trigger.2)
    (hmem : (registration, params) ∈ policy.triggers) :
    providers.filter (fun provider => provider.location = registration.location) =
      [policy.declare registration params] := by
  have hnodup : (providers.map ProviderDecl.location).Nodup := by
    rw [hdeclared, List.map_map]
    exact policy.triggers_nodup
  have hlocation : (policy.declare registration params).location = registration.location := rfl
  rw [← hlocation]
  refine filter_eq_singleton hnodup ?_
  rw [hdeclared]
  exact List.mem_map_of_mem (f := fun trigger => policy.declare trigger.1 trigger.2) hmem

/-- A successful production splits its policy: it loses nothing, declares
    nothing twice, and keeps the order. -/
theorem produce_splits {production : Production} (h : policy.produce = some (.ok production)) :
    policy.SplitBy production := by
  rcases produce_ok h with ⟨_, _, hvalid, split, hsplit, hproviders, hstate⟩
  have hstatic : production.staticFields = split.1.entries := staticFields_eq hstate
  have hlookup : ∀ domain, production.staticFields.lookup domain =
      (policy.fields.get? domain).bind (remainder domain) := by
    intro domain
    rw [hstatic]
    exact get?_splitFields_keys hsplit domain
  have hdeclared : production.providers =
      policy.triggers.map fun trigger => policy.declare trigger.1 trigger.2 := by
    rw [hproviders]
    exact splitFields_providers policy.fields.keys_nodup hsplit
  refine ⟨?_, hdeclared, ?_, ?_, ?_⟩
  · intro domain key registration entries value hregistration hget hmem
    constructor
    · have hmap : policy.fields.getMap? domain =
          some ⟨entries, FieldMap.get?_wellKeyed hget⟩ := FieldMap.getMap?_eq_some.mpr hget
      have hkey : key ∈ Assoc.keys entries := List.mem_map_of_mem hmem
      -- Validation has seen that the trigger is a map.
      have hisMap : ((⟨entries, FieldMap.get?_wellKeyed hget⟩ : FieldMap).getMap? key).isSome =
          true :=
        ProviderRegistry.trigger_isMap (fieldConforms_of_valid hvalid hget)
          (by rw [hregistration, Option.isSome_some]) hkey
      rcases Option.isSome_iff_exists.mp hisMap with ⟨params, hparams⟩
      have hvalue := (Assoc.lookup_of_mem (FieldMap.get?_wellKeyed hget).1 hmem).symm.trans
        (FieldMap.getMap?_eq_some.mp hparams)
      refine ⟨params, Option.some.inj hvalue, ?_⟩
      have htrigger : (registration, params) ∈ policy.triggers := by
        refine mem_fieldTriggers.mpr ⟨domain, ?_, _, hmap, ?_⟩
        · rw [← FieldMap.get?_isSome, hget, Option.isSome_some]
        · exact mem_domainTriggers.mpr ⟨key, hkey, hregistration, hparams⟩
      rcases registration_domain hregistration with ⟨_, rfl, rfl⟩
      exact declared_once hdeclared htrigger
    · intro rest hrest
      rw [hlookup, hget, Option.bind_some] at hrest
      exact remainder_no_trigger hregistration hrest
  · rw [hstatic, splitFields_entries policy.fields.keys_nodup hsplit]
    refine List.filterMap_congr fun field hmem => ?_
    exact leave_of_mem (List.mem_map_of_mem hmem)
  · intro domain value hget
    rw [hlookup, hget, Option.bind_some]
    exact remainder_eq_none
  · rw [hstatic, hstate]
    exact ite_eq_left_iff.trans (by simp only [reduceCtorEq, imp_false, not_not])

theorem produce_splits_leased : leased.SplitBy leasedProduction :=
  have hproduce : leased.produce = some (.ok leasedProduction) := rfl
  produce_splits hproduce

end Policy

end Netfyr
