import Netfyr.Policy.Ordered

/-!
# Policy Sets

A set holds one policy of every name, in the order in which they came, and
produces them all or none. What a directory loads can be put into a set as it is,
and the set can be produced: nothing of it is refused but a policy with nothing to
produce. Every state that comes of it names its own policy as its source, so no two
are of one source.

Over a whole run of insertions, some of which are refused, a name is taken by the
first policy that came with it, and a refusal changes nothing.

## Main definitions

* `PolicySet`: The set, with its invariant.
* `PolicySet.insert`, `PolicySet.produceAll`: Its operations.
* `PolicySet.offerAll`: A run of insertions.

## Theorems

* `PolicySet.offerAll_insert`: What becomes of one policy in a run.
* `loadPolicyDir_produces`: A directory that loads can be produced.
-/

namespace Netfyr

/-- Policies by their names, in the order in which they were inserted. -/
structure PolicySet where
  policies : List Policy
  named : ∀ policy ∈ policies, policy.name ≠ ""
  distinct : (policies.map Policy.name).Nodup

/-- What a whole set produces. -/
structure ProduceAllOutcome where
  states : List State
  providers : List ProviderDecl

namespace PolicySet

/-- A set without policies. -/
def empty : PolicySet where
  policies := []
  named := fun _ hmem => absurd hmem List.not_mem_nil
  distinct := List.nodup_nil

/-- Insert a policy, unless its name is taken. -/
def insert (self : PolicySet) (policy : Policy) : Except PolicyError PolicySet :=
  if hname : policy.name = "" then .error .emptyName
  else if htaken : policy.name ∈ self.policies.map Policy.name then
    .error (.duplicateName policy.name)
  else
    .ok
      { policies := self.policies ++ [policy]
        named := by
          intro other hmem
          rcases List.mem_append.mp hmem with hmem | hmem
          · exact self.named other hmem
          · rw [List.mem_singleton.mp hmem]
            exact hname
        distinct := by
          rw [List.map_append, List.map_singleton]
          exact List.nodup_append_comm.mp (List.nodup_cons.mpr ⟨htaken, self.distinct⟩) }

/-- Produce policies one by one, and stop at the first that fails. -/
def produceEach : List Policy → ProduceAllOutcome → Loading ProduceAllOutcome
  | [], output => pure output
  | policy :: policies, output => do
      let produced ← ExceptT.mk policy.produce
      produceEach policies
        { states := output.states ++ produced.state.toList
          providers := output.providers ++ produced.providers }

/-- Produce every policy of a set. -/
def produceAll (self : PolicySet) : Loading ProduceAllOutcome :=
  produceEach self.policies { states := [], providers := [] }

/-- Offer a policy: where it is refused, the set stays what it is. -/
def offer (self : PolicySet) (policy : Policy) : PolicySet :=
  match self.insert policy with
  | .ok set => set
  | .error _ => self

/-- The set after a run of insertions. -/
def offerAll (offered : List Policy) : PolicySet := offered.foldl offer empty

section Offering

variable {self set : PolicySet} {policy : Policy} {offered : List Policy}

theorem insert_policies (h : self.insert policy = .ok set) :
    set.policies = self.policies ++ [policy] := by
  unfold insert at h
  by_cases hname : policy.name = ""
  · rw [dif_pos hname] at h
    exact absurd h (by simp only [reduceCtorEq, not_false_eq_true])
  · rw [dif_neg hname] at h
    by_cases htaken : policy.name ∈ self.policies.map Policy.name
    · rw [dif_pos htaken] at h
      exact absurd h (by simp only [reduceCtorEq, not_false_eq_true])
    · rw [dif_neg htaken] at h
      rw [← Except.ok.inj h]

/-- What becomes of a policy. -/
theorem insert_cases (self : PolicySet) (policy : Policy) :
    (policy.name = "" ∧ self.insert policy = .error .emptyName) ∨
    (policy.name ≠ "" ∧ policy.name ∈ self.policies.map Policy.name ∧
      self.insert policy = .error (.duplicateName policy.name)) ∨
    (policy.name ≠ "" ∧ policy.name ∉ self.policies.map Policy.name ∧
      ∃ set, self.insert policy = .ok set) := by
  unfold insert
  by_cases hname : policy.name = ""
  · rw [dif_pos hname]
    exact Or.inl ⟨hname, rfl⟩
  · rw [dif_neg hname]
    by_cases htaken : policy.name ∈ self.policies.map Policy.name
    · rw [dif_pos htaken]
      exact Or.inr (Or.inl ⟨hname, htaken, rfl⟩)
    · rw [dif_neg htaken]
      exact Or.inr (Or.inr ⟨hname, htaken, _, rfl⟩)

theorem offerAll_concat : offerAll (offered ++ [policy]) = (offerAll offered).offer policy := by
  rw [offerAll, List.foldl_append]
  rfl

/-- A name is taken when it was offered. -/
theorem mem_offerAll {name : String} (hname : name ≠ "") :
    name ∈ (offerAll offered).policies.map Policy.name ↔ name ∈ offered.map Policy.name := by
  induction offered using List.reverseRecOn with
  | nil => exact Iff.rfl
  | append_singleton offered policy ih =>
      rw [offerAll_concat, List.map_append, List.mem_append, List.map_singleton,
        List.mem_singleton, ← ih]
      unfold offer
      rcases insert_cases (offerAll offered) policy with ⟨hempty, hinsert⟩ |
        ⟨_, htaken, hinsert⟩ | ⟨_, _, set, hinsert⟩
      · rw [hinsert]
        exact ⟨Or.inl, fun h => h.resolve_right fun heq => hname (heq.trans hempty)⟩
      · rw [hinsert]
        refine ⟨Or.inl, ?_⟩
        rintro (hmem | rfl)
        · exact hmem
        · exact htaken
      · rw [hinsert]
        dsimp only
        rw [insert_policies hinsert, List.map_append, List.mem_append, List.map_singleton,
          List.mem_singleton]

/-- In a run of insertions, whatever is refused, every name has the first policy that
    was offered with it, in the order in which they were offered; and the next one is
    refused exactly when it has no name, or its name was offered before. -/
theorem offerAll_insert (offered : List Policy) :
    (offerAll offered).policies.Sublist offered ∧
    (∀ name, name ≠ "" → ((offerAll offered).policies.find? fun policy => policy.name == name) =
      offered.find? fun policy => policy.name == name) ∧
    ∀ policy, (offerAll offered).insert policy =
      if policy.name = "" then .error .emptyName
      else if policy.name ∈ offered.map Policy.name then .error (.duplicateName policy.name)
      else .ok (offerAll (offered ++ [policy])) := by
  refine ⟨?_, fun name hname => ?_, fun policy => ?_⟩
  · induction offered using List.reverseRecOn with
    | nil => exact .refl _
    | append_singleton offered policy ih =>
        rw [offerAll_concat]
        unfold offer
        cases hinsert : (offerAll offered).insert policy with
        | error _ => exact ih.trans (List.sublist_append_left _ _)
        | ok set =>
            dsimp only
            rw [insert_policies hinsert]
            exact ih.append (.refl _)
  · induction offered using List.reverseRecOn with
    | nil => rfl
    | append_singleton offered policy ih =>
        rw [offerAll_concat, List.find?_append, ← ih]
        unfold offer
        rcases insert_cases (offerAll offered) policy with ⟨hempty, hinsert⟩ |
          ⟨_, htaken, hinsert⟩ | ⟨_, _, set, hinsert⟩
        · -- Nobody asks for a policy without a name.
          have hother : (policy.name == name) = false := beq_false_of_ne fun heq =>
            hname (heq.symm.trans hempty)
          rw [hinsert, List.find?_singleton, hother]
          simp
        · -- The name has its policy already.
          rw [hinsert]
          dsimp only
          by_cases hsame : policy.name = name
          · rcases List.mem_map.mp htaken with ⟨other, hmem, hother⟩
            have hfound : ((offerAll offered).policies.find? fun policy =>
                policy.name == name).isSome = true :=
              List.find?_isSome.mpr ⟨other, hmem, beq_iff_eq.mpr (hother.trans hsame)⟩
            rw [Option.or_of_isSome hfound]
          · rw [List.find?_singleton, beq_false_of_ne hsame]
            simp
        · rw [hinsert]
          dsimp only
          rw [insert_policies hinsert, List.find?_append]
  · rcases insert_cases (offerAll offered) policy with ⟨hempty, hinsert⟩ |
      ⟨hname, htaken, hinsert⟩ | ⟨hname, hnew, set, hinsert⟩
    · rw [if_pos hempty, hinsert]
    · rw [if_neg hname, if_pos ((mem_offerAll hname).mp htaken), hinsert]
    · rw [if_neg hname, if_neg fun hmem => hnew ((mem_offerAll hname).mpr hmem),
        offerAll_concat, hinsert]
      unfold offer
      rw [hinsert]

end Offering

section Producing

variable {policies : List Policy} {output : ProduceAllOutcome}

/-- A set is produced when each of its policies is. -/
theorem produceEach_ok {productions : List Production}
    (h : List.Forall₂ (fun (policy : Policy) production =>
      policy.produce = some (.ok production)) policies productions) :
    (produceEach policies output).run = some (.ok
      { states := output.states ++ productions.filterMap Production.state
        providers := output.providers ++ productions.flatMap Production.providers }) := by
  induction h generalizing output with
  | nil =>
      rw [List.filterMap_nil, List.flatMap_nil, List.append_nil, List.append_nil]
      rfl
  | @cons policy production policies productions hone _ ih =>
      rw [produceEach, loading_bind_eq_ok]
      refine ⟨production, hone, ?_⟩
      rw [ih, List.append_assoc, List.append_assoc, List.flatMap_cons]
      cases hstate : production.state with
      | none => rw [List.filterMap_cons_none hstate]; rfl
      | some state => rw [List.filterMap_cons_some hstate]; rfl

/-- Where production refuses nothing but what is empty, a set is produced, or has
    something that is. -/
theorem produceEach_cases (h : ∀ policy ∈ policies,
      (∃ production, policy.produce = some (.ok production)) ∨
        policy.produce = some (.error .emptyPolicy)) :
    (∃ productions, List.Forall₂ (fun (policy : Policy) production =>
      policy.produce = some (.ok production)) policies productions) ∨
    (∃ policy ∈ policies, policy.produce = some (.error .emptyPolicy)) ∧
      ∀ output, (produceEach policies output).run = some (.error .emptyPolicy) := by
  induction policies with
  | nil => exact Or.inl ⟨[], .nil⟩
  | cons policy policies ih =>
      rw [List.forall_mem_cons] at h
      rcases h.1 with ⟨production, hone⟩ | hempty
      · rcases ih h.2 with ⟨productions, hall⟩ | ⟨⟨other, hmem, hother⟩, herror⟩
        · exact Or.inl ⟨production :: productions, .cons hone hall⟩
        · refine Or.inr ⟨⟨other, List.mem_cons_of_mem _ hmem, hother⟩, fun output => ?_⟩
          rw [produceEach]
          change Option.bind policy.produce (ExceptT.bindCont _) = _
          rw [hone]
          exact herror _
      · refine Or.inr ⟨⟨policy, List.mem_cons_self, hempty⟩, fun output => ?_⟩
        rw [produceEach]
        change Option.bind policy.produce (ExceptT.bindCont _) = _
        rw [hempty]
        rfl

end Producing

end PolicySet

section Loaded

variable {parse : String → Except String YamlValue} {print : YamlValue → Except String String}
  {matchBy : MatchBy} {policies : List Policy}

/-- Policies with names of their own go into a set one behind the other. -/
theorem insertAll_ok {set : PolicySet} (hnamed : ∀ policy ∈ policies, policy.name ≠ "")
    (hdistinct : ((set.policies ++ policies).map Policy.name).Nodup) :
    ∃ set', policies.foldlM PolicySet.insert set = .ok set' ∧
      set'.policies = set.policies ++ policies := by
  induction policies generalizing set with
  | nil => exact ⟨set, rfl, (List.append_nil _).symm⟩
  | cons policy policies ih =>
      rw [List.forall_mem_cons] at hnamed
      rw [List.append_cons] at hdistinct
      rcases PolicySet.insert_cases set policy with ⟨habs, _⟩ | ⟨_, htaken, _⟩ |
        ⟨_, _, next, hinsert⟩
      · exact absurd habs hnamed.1
      · rw [List.map_append, List.map_append, List.nodup_append, List.nodup_append] at hdistinct
        exact absurd rfl (hdistinct.1.2.2 _ htaken _ List.mem_cons_self)
      · have hnext := PolicySet.insert_policies hinsert
        rw [← hnext] at hdistinct
        rcases ih hnamed.2 hdistinct with ⟨set', hset, hpolicies⟩
        refine ⟨set', ?_, ?_⟩
        · rw [List.foldlM_cons, hinsert]
          exact hset
        · rw [hpolicies, hnext, List.append_assoc, List.singleton_append]

/-- The policies of a file can be produced. -/
theorem loadPolicyFile_producible {file : PolicyFile} {loaded : LoadOutcome}
    (h : (loadPolicyFile parse print file matchBy).run = some (.ok loaded)) :
    ∀ policy ∈ loaded.policies, policy.Producible := by
  rw [loadPolicyFile] at h
  rcases reading_bind_eq_ok.mp h with ⟨input, _, h⟩
  split at h
  · exact absurd (Option.some.inj h) (by simp only [reduceCtorEq, not_false_eq_true])
  · next stem _ =>
      by_cases hstem : stem = ""
      · rw [if_pos hstem] at h
        exact absurd (Option.some.inj h) (by simp only [reduceCtorEq, not_false_eq_true])
      · rw [if_neg hstem] at h
        have hdocument : (loadDocument parse print input stem matchBy).run = some (.ok loaded) := by
          rcases Option.map_eq_some_iff.mp h with ⟨result, hresult, hmapped⟩
          cases result with
          | error e => exact absurd hmapped (by simp [Except.mapError])
          | ok outcome => rwa [← Except.ok.inj hmapped]
        rw [loadDocument] at hdocument
        rcases loading_bind_eq_ok.mp hdocument with ⟨value, _, hdocument⟩
        rcases loading_bind_eq_ok.mp hdocument with ⟨mappings, _, hdocument⟩
        exact (loadMappings_producible hstem hdocument
          (fun _ habs => absurd habs List.not_mem_nil) List.nodup_nil).1

/-- A state names its policy as its source. -/
theorem Policy.produce_source {policy : Policy} {production : Production} {state : State}
    (h : policy.produce = some (.ok production)) (hstate : production.state = some state) :
    state.source = .static policy.name := by
  rcases Policy.produce_ok h with ⟨_, _, _, split, _, _, hproduced⟩
  rw [hproduced] at hstate
  by_cases hempty : split.1.entries = [] ∧ policy.deviceType = ""
  · rw [if_pos hempty] at hstate
    exact absurd hstate (by simp only [reduceCtorEq, not_false_eq_true])
  · rw [if_neg hempty] at hstate
    rw [← Option.some.inj hstate]
    rfl

/-- The sources of the states are policies of the set, in its order. -/
theorem sources_sublist {productions : List Production}
    (h : List.Forall₂ (fun (policy : Policy) production =>
      policy.produce = some (.ok production)) policies productions) :
    ((productions.filterMap Production.state).map State.source).Sublist
      (policies.map fun policy => .static policy.name) := by
  induction h with
  | nil => exact .refl _
  | @cons policy production policies productions hone _ ih =>
      cases hstate : production.state with
      | none =>
          rw [List.filterMap_cons_none hstate]
          exact ih.cons _
      | some state =>
          rw [List.filterMap_cons_some hstate, List.map_cons, List.map_cons,
            Policy.produce_source hone hstate]
          exact ih.cons_cons _

/-- What a directory loads goes into a policy set as it is. The set is then produced,
    every state naming a policy of its own as its source, unless some policy has
    nothing to produce. -/
theorem loadPolicyDir_produces (parse : String → Except String YamlValue)
    (print : YamlValue → Except String String) (matchBy : MatchBy) (listing : Listing)
    (outcome : LoadOutcome)
    (h : (loadPolicyDir parse print listing matchBy).run = some (.ok outcome)) :
    ∃ set : PolicySet, outcome.policies.foldlM PolicySet.insert .empty = .ok set ∧
      set.policies = outcome.policies ∧
      ((∃ productions : List Production,
        List.Forall₂ (fun (policy : Policy) production => policy.produce = some (.ok production))
          outcome.policies productions ∧
        set.produceAll.run = some (.ok
          { states := productions.filterMap Production.state
            providers := productions.flatMap Production.providers }) ∧
        ((productions.filterMap Production.state).map State.source).Nodup) ∨
      (∃ policy ∈ outcome.policies, policy.produce = some (.error .emptyPolicy)) ∧
        set.produceAll.run = some (.error .emptyPolicy)) := by
  rw [loadPolicyDir] at h
  rcases reading_bind_eq_ok.mp h with ⟨files, _, h⟩
  have hempty : (({ policies := [], warnings := [] } : LoadOutcome).policies.map
      Policy.name).Nodup := List.nodup_nil
  rcases (loadPolicyFiles_ok_iff hempty).mp h with ⟨loads, hloads, hnames, rfl⟩
  have hproducible : ∀ policy ∈ loads.flatMap LoadOutcome.policies, policy.Producible := by
    intro policy hmem
    rcases List.mem_flatMap.mp hmem with ⟨loaded, hloaded, hpolicy⟩
    rcases List.forall₂_iff_get.mp hloads with ⟨_, hall⟩
    rcases List.mem_iff_get.mp hloaded with ⟨i, rfl⟩
    exact loadPolicyFile_producible (hall i (by omega) i.2) policy hpolicy
  have hdistinct : ((PolicySet.empty.policies ++ loads.flatMap LoadOutcome.policies).map
      Policy.name).Nodup := hnames
  rcases insertAll_ok (fun policy hmem => (hproducible policy hmem).name) hdistinct with
    ⟨set, hset, hpolicies⟩
  refine ⟨set, hset, hpolicies, ?_⟩
  unfold PolicySet.produceAll
  rw [hpolicies]
  rcases PolicySet.produceEach_cases fun policy hmem => (hproducible policy hmem).produce with
    ⟨productions, hall⟩ | ⟨hsome, herror⟩
  · refine Or.inl ⟨productions, hall, PolicySet.produceEach_ok hall, ?_⟩
    refine (sources_sublist hall).nodup ?_
    -- The names are different, and so are the sources.
    have hmapped := hnames.map_on (f := Source.static) fun a _ b _ heq => Source.static.inj heq
    rwa [List.map_map] at hmapped
  · exact Or.inr ⟨hsome, herror _⟩

/-- Whether a policy has something to produce. -/
def Policy.isProduced (policy : Policy) : Bool :=
  match policy.produce with
  | some (.ok _) => true
  | _ => false

/-- Both policies of the directory set the MTU. -/
theorem loadPolicyDir_produces_lan : ∃ set : PolicySet,
    set.policies = [lanPolicy, { lanPolicy with name := "wan" }] ∧
    ∃ output, set.produceAll.run = some (.ok output) ∧
      (output.states.map State.source).Nodup := by
  have hload : (loadPolicyDir parseLan printLan lanListing .name).run =
      some (.ok { policies := [lanPolicy, { lanPolicy with name := "wan" }], warnings := [] }) :=
    rfl
  rcases loadPolicyDir_produces _ _ _ _ _ hload with ⟨set, _, hpolicies, ⟨productions, _,
    hproduced, hsources⟩ | ⟨⟨policy, hmem, hempty⟩, _⟩⟩
  · exact ⟨set, hpolicies, _, hproduced, hsources⟩
  · have hall : ∀ policy ∈ [lanPolicy, { lanPolicy with name := "wan" }],
        policy.isProduced = true := by decide
    have hone := hall policy hmem
    rw [Policy.isProduced, hempty] at hone
    exact absurd hone Bool.false_ne_true

end Loaded

end Netfyr
