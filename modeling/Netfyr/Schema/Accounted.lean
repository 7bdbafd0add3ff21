import Netfyr.Schema.Fields
import Netfyr.Schema.Prepared
import Netfyr.Schema.Reachable
import Netfyr.Schema.Warnings

/-!
# Nothing Dropped in Silence

The warnings of a preparation, compared with what is missing from the prepared
state. They account for everything but one kind of field: the object of a
fragment that was empty from the start, which pruning removes as if it had
emptied it. Without such a field the account is complete, and with one it is
not.

## Main definitions

* `AccountedBy`: The warnings account for what a preparation removed.

## Theorems

* `prepared_accounted_iff`: They do unless a field vanishes silently.
-/

namespace Netfyr

/-- The warnings account for what a preparation removed. Each names an entry that
    was there and is gone, once and in field order; what is gone is the selector
    field, or lies at or below an entry named, or contains one; and what is left
    keeps its place and its value. -/
structure AccountedBy (selector : String) (before after : List (String × Value))
    (warnings : List String) (dropped : List Address) : Prop where
  named : warnings = dropped.map render
  once : dropped.Nodup
  inOrder : dropped.Sublist (entryAddresses before)
  gone : ∀ address ∈ dropped, address ∉ entryAddresses after
  accounted : ∀ address ∈ entryAddresses before, address ∉ entryAddresses after →
    address = [.key selector] ∨ ∃ missing ∈ dropped, missing <+: address ∨ address <+: missing
  left : ThinnedEntries before after

section Selector

/-- Fewer entries have fewer addresses. -/
theorem entryAddresses_sublist {entries entries' : List (String × Value)}
    (h : entries'.Sublist entries) :
    (entryAddresses entries').Sublist (entryAddresses entries) := by
  induction h with
  | slnil => exact List.Sublist.refl _
  | cons entry _ ih => exact ih.trans (List.sublist_append_right _ _)
  | cons_cons entry _ ih => exact ih.append_left _

/-- What is thinned after entries were removed was thinned altogether. -/
theorem thinnedEntries_of_sublist {entries entries' after : List (String × Value)}
    (h : entries'.Sublist entries) (hthin : ThinnedEntries entries' after) :
    ThinnedEntries entries after := by
  induction h generalizing after with
  | slnil => exact hthin
  | cons entry _ ih => exact .drop (ih hthin)
  | cons_cons entry _ ih =>
      cases hthin with
      | keep hvalue hrest => exact .keep hvalue (ih hrest)
      | drop hrest => exact .drop (ih hrest)

/-- An address of a map that is none without a key goes through the key. -/
theorem mem_entryAddresses_shiftRemove {entries : List (String × Value)} {selector : String}
    {address : Address} (h : address ∈ entryAddresses entries) :
    address ∈ entryAddresses (Assoc.shiftRemove entries selector) ∨
      ∃ value, (selector, value) ∈ entries ∧
        (address = [.key selector] ∨
          ∃ rest ∈ addresses value, address = .key selector :: rest) := by
  induction entries with
  | nil => exact absurd h List.not_mem_nil
  | cons entry entries ih =>
      rcases entry with ⟨key, value⟩
      by_cases hkey : key = selector
      · subst hkey
        rw [entryAddresses, List.mem_append] at h
        rw [Assoc.shiftRemove, List.filter_cons_of_neg (by simp)]
        rcases h with hhead | htail
        · refine Or.inr ⟨value, List.mem_cons_self, ?_⟩
          rcases List.mem_cons.mp hhead with rfl | hbelow
          · exact Or.inl rfl
          · rcases List.mem_map.mp hbelow with ⟨rest, hrest, rfl⟩
            exact Or.inr ⟨rest, hrest, rfl⟩
        · rcases ih htail with hmem | ⟨value', hvalue', haddress⟩
          · exact Or.inl hmem
          · exact Or.inr ⟨value', List.mem_cons_of_mem _ hvalue', haddress⟩
      · rw [entryAddresses, List.mem_append] at h
        rw [Assoc.shiftRemove, List.filter_cons_of_pos (by simpa using hkey), entryAddresses,
          List.mem_append]
        rcases h with hhead | htail
        · exact Or.inl (Or.inl hhead)
        · rcases ih htail with hmem | ⟨value', hvalue', haddress⟩
          · exact Or.inl (Or.inr hmem)
          · exact Or.inr ⟨value', List.mem_cons_of_mem _ hvalue', haddress⟩

theorem mem_entryAddresses_of_mem {entries : List (String × Value)} {key : String} {value : Value}
    (h : (key, value) ∈ entries) : [Step.key key] ∈ entryAddresses entries := by
  induction entries with
  | nil => exact absurd h List.not_mem_nil
  | cons entry entries ih =>
      rcases entry with ⟨key', value'⟩
      rw [entryAddresses, List.mem_append]
      rcases List.mem_cons.mp h with heq | hrest
      · rw [(Prod.mk.inj heq).1]
        exact Or.inl List.mem_cons_self
      · exact Or.inr (ih hrest)

/-- The only address along a key whose value is an empty map is the key's own. -/
theorem address_of_empty {entries : List (String × Value)} {key : String}
    (hvalues : ∀ value, (key, value) ∈ entries → value = .map []) {address : Address}
    (h : address ∈ entryAddresses entries)
    (hbelow : address <+: [.key key] ∨ [.key key] <+: address) : address = [.key key] := by
  have hselector : address ∈ entryAddresses (Assoc.shiftRemove _ key) ∨ _ :=
    mem_entryAddresses_shiftRemove h
  rcases hselector with hother | ⟨value, hvalue, heq | ⟨rest, hrest, rfl⟩⟩
  · rcases head_entryAddresses hother with ⟨key', hkey', rest, rfl⟩
    rcases List.mem_map.mp hkey' with ⟨entry, hentry, rfl⟩
    have hne : entry.1 ≠ key := by simpa using (List.mem_filter.mp hentry).2
    rw [List.cons_prefix_cons, List.cons_prefix_cons, Step.key.injEq, Step.key.injEq] at hbelow
    exact absurd (hbelow.elim And.left fun h => h.1.symm) hne
  · exact heq
  · rw [hvalues value hvalue] at hrest
    exact absurd hrest List.not_mem_nil

end Selector

namespace SchemaRegistry

variable {self : SchemaRegistry} {parse : String → Except String SchemaNode} {matchBy : MatchBy}
  {state : State}

/-- The strategy's field triggers no fragment. -/
theorem Reachable.selector_triggered (hreach : Reachable parse self) :
    self.triggered matchBy.field = none := by
  rw [← Option.not_isSome_iff_eq_none, hreach.triggered_isSome]
  cases matchBy with
  | name => decide
  | mac => decide

/-- The strategy's field is text in a valid state. -/
theorem Reachable.selector_text (hreach : Reachable parse self) (hvalid : self.validate state = [])
    {value : Value} (hget : state.fields.get? matchBy.field = some value) :
    ∃ text, value = .string text := by
  have hfield := (stateConforms_iff.mp (validateInner_eq_nil.mp hvalid)).1 _ value hget
  have hlookup : self.base.root.node.properties.lookup matchBy.field =
      some { type := some .string } := by
    cases matchBy with
    | name => exact hreach.base_lookup rfl
    | mac => exact hreach.base_lookup rfl
  rw [FieldConforms, hreach.selector_triggered] at hfield
  rw [← TypedNode.property_map_node, Option.map_eq_some_iff] at hlookup
  rcases hlookup with ⟨prop, hprop, hnode⟩
  -- The embedded node of the field is a plain string.
  have ht : prop.fieldType = .string := by
    have hs := prop.semanticType_node
    rw [hnode] at hs
    exact (Except.ok.inj hs).symm
  have hconforms := (hfield.1 prop hprop).2
  cases value with
  | string text => exact ⟨text, rfl⟩
  | u64 n => exact absurd (ht.symm.trans hconforms.1) (by decide)
  | i64 n => exact absurd (ht.symm.trans hconforms.1) (by decide)
  | bool b => exact absurd (ht.symm.trans hconforms) (by decide)
  | ipAddr addr => exact absurd (ht.symm.trans hconforms) (by decide)
  | ipNetwork addr len => exact absurd (ht.symm.trans hconforms.1) (by decide)
  | list items => exact absurd (ht.symm.trans hconforms.1) (by decide)
  | map entries => exact absurd (ht.symm.trans hconforms.1) (by decide)

/-- Preparing one state without selector, on the fields. -/
theorem prepareForApply_single {outcome : ApplyOutcome} (hmatch : state.matchSpec.isEmpty = true)
    (h : prepareForApplyWithRegistry [state] matchBy self = .ok outcome) :
    self.validate state = [] ∧ (∃ value, state.fields.get? matchBy.field = some value) ∧
      ∃ prepared, outcome.states = [prepared] ∧
        prepared.fields.entries =
          (self.pruneFields (Assoc.shiftRemove state.fields.entries matchBy.field)).1 ∧
        outcome.warnings.map Warning.key =
          (self.pruneFields (Assoc.shiftRemove state.fields.entries matchBy.field)).2 := by
  have hforget : (self.forgetQueryMatch state).matchSpec.isEmpty = true := by
    rw [forgetQueryMatch]
    split
    · rfl
    · exact hmatch
  rcases prepareForApply_ok h with ⟨hbefore, hstates, _⟩
  have hvalid := hbefore (self.forgetQueryMatch state) List.mem_cons_self
  rw [hforget, Bool.not_true, if_neg Bool.false_ne_true, validate,
    forgetQueryMatch_validateInner] at hvalid
  rw [List.map_singleton, prepareStates] at hstates
  rcases except_bind_eq_ok.mp hstates with ⟨first, hfirst, hrest⟩
  rw [prepareStates] at hrest
  have hout := Prod.mk.injEq _ _ _ _ ▸ Except.ok.inj hrest
  rcases prepareState_ok hfirst with ⟨hkept, _⟩ | ⟨_, value, text, hget, rfl⟩
  · exact absurd (hforget.symm.trans hkept) (by decide)
  · rw [forgetQueryMatch_fields] at hget
    refine ⟨hvalid, ⟨value, hget⟩, _, hout.1.symm, ?_, ?_⟩
    · rw [moveDeviceType]
      split <;> exact congrArg (fun fields : FieldMap =>
        (self.pruneFields (Assoc.shiftRemove fields.entries matchBy.field)).1)
          forgetQueryMatch_fields
    · rw [← hout.2, List.append_nil, List.map_map, List.map_id'']
      · exact congrArg (fun fields : FieldMap =>
          (self.pruneFields (Assoc.shiftRemove fields.entries matchBy.field)).2)
            forgetQueryMatch_fields
      · exact fun _ => rfl

/-- Without a field that vanishes silently the warnings account for everything. -/
theorem accountedBy_of_not_silent (hreach : Reachable parse self)
    (hvalid : self.validate state = []) (hsilent : ¬ self.Silent state.fields.entries) :
    ∃ dropped, AccountedBy matchBy.field state.fields.entries
      (self.pruneFields (Assoc.shiftRemove state.fields.entries matchBy.field)).1
      (self.pruneFields (Assoc.shiftRemove state.fields.entries matchBy.field)).2 dropped := by
  let selected := state.fields.shiftRemove matchBy.field
  have hsub : selected.entries.Sublist state.fields.entries := List.filter_sublist
  have hselected : ¬ self.Silent selected.entries := by
    rintro ⟨key, ht, hmem⟩
    exact hsilent ⟨key, ht, hsub.subset hmem⟩
  rcases pruneFields_account selected.entries selected.wellKeyed hselected with
    ⟨⟨dropped, hnamed, haccount⟩, hthin⟩
  have hinOrder := haccount.sublist.trans (entryAddresses_sublist hsub)
  refine ⟨dropped, hnamed, hinOrder.nodup (entryAddresses_nodup _ state.fields.wellKeyed), hinOrder,
    haccount.gone, ?_, thinnedEntries_of_sublist hsub hthin⟩
  intro address haddress hgone
  have hselector : address ∈ entryAddresses (Assoc.shiftRemove _ matchBy.field) ∨ _ :=
    mem_entryAddresses_shiftRemove haddress
  rcases hselector with hmem | ⟨value, hvalue, rfl | ⟨rest, hrest, rfl⟩⟩
  · exact Or.inr (haccount.accounted address hmem hgone)
  · exact Or.inl rfl
  · -- Nothing is below the selector, which is text.
    have hlookup := Assoc.lookup_of_mem state.fields.wellKeyed.1 hvalue
    rcases hreach.selector_text hvalid hlookup with ⟨text, rfl⟩
    exact absurd hrest List.not_mem_nil

/-- An empty object of a fragment goes without a name. -/
theorem pruneField_silent {key : String} (h : (self.triggered key).isSome = true) :
    self.pruneField key (.map []) = (none, []) := by
  rcases Option.isSome_iff_exists.mp h with ⟨fragment, ht⟩
  simp only [pruneField, ht, pruneEntries, if_true]

/-- Pruning names no trigger: what it names is a base property, or has a path of
    more than one component. -/
theorem Reachable.trigger_not_named (hreach : Reachable parse self) {key : String}
    (htriggered : (self.triggered key).isSome = true) {entries : List (String × Value)}
    (hwellKeyed : (Value.map entries).WellKeyed) : key ∉ (self.pruneFields entries).2 := by
  intro hname
  rcases mem_pruneFields_gone hwellKeyed hname with
    ⟨key', ⟨hnone, _, rfl⟩ | ⟨hknown, address, haddress, heq⟩⟩
  · rw [hnone] at htriggered
    exact absurd htriggered Bool.false_ne_true
  · have hne : key' ≠ "" := by
      rintro rfl
      rcases hknown with ht | hp
      · rw [hreach.triggered_isSome] at ht
        exact absurd ht (by decide)
      · exact hp (hreach.base_property_none (Or.inl rfl))
    have hspecial := special_mem_renderFrom hne haddress
    rw [← heq] at hspecial
    -- Neither trigger has a dot or a bracket in it.
    rcases hreach.triggered_isSome.mp htriggered with rfl | rfl
    · exact absurd hspecial (by decide)
    · exact absurd hspecial (by decide)

/-- A field that vanishes silently is in no account. -/
theorem not_accountedBy_of_silent (hreach : Reachable parse self)
    (hsilent : self.Silent state.fields.entries) (dropped : List Address) :
    ¬ AccountedBy matchBy.field state.fields.entries
      (self.pruneFields (Assoc.shiftRemove state.fields.entries matchBy.field)).1
      (self.pruneFields (Assoc.shiftRemove state.fields.entries matchBy.field)).2 dropped := by
  rcases hsilent with ⟨key, htriggered, hmem⟩
  intro haccounted
  -- The field is gone, its own address is the only one that could account for
  -- it, and no warning has that name.
  have hvalues : ∀ value, (key, value) ∈ state.fields.entries → value = .map [] := by
    intro value hvalue
    have hlookup := Assoc.lookup_of_mem state.fields.wellKeyed.1 hvalue
    rw [Assoc.lookup_of_mem state.fields.wellKeyed.1 hmem] at hlookup
    exact (Option.some.inj hlookup).symm
  have hgone : [Step.key key] ∉ entryAddresses
      (self.pruneFields (Assoc.shiftRemove state.fields.entries matchBy.field)).1 := by
    intro hleft
    rcases head_entryAddresses hleft with ⟨key', hkey', rest, heq⟩
    rw [List.cons.injEq, Step.key.injEq] at heq
    rw [← heq.1, Assoc.keys, List.mem_map] at hkey'
    rcases hkey' with ⟨⟨_, left⟩, hentry, rfl⟩
    rcases mem_pruneFields.mp hentry with ⟨value, hvalue, hkept⟩
    obtain rfl := hvalues value (List.mem_of_mem_filter hvalue)
    rw [pruneField_silent htriggered] at hkept
    exact absurd hkept (by simp only [reduceCtorEq, not_false_eq_true])
  have hbefore : [Step.key key] ∈ entryAddresses state.fields.entries :=
    mem_entryAddresses_of_mem hmem
  rcases haccounted.accounted _ hbefore hgone with heq | ⟨missing, hmissing, hbelow⟩
  · -- The strategy's field triggers no fragment.
    rw [List.cons.injEq, Step.key.injEq] at heq
    rw [heq.1, hreach.selector_triggered] at htriggered
    exact absurd htriggered Bool.false_ne_true
  · have hmissing' : missing = [Step.key key] :=
      address_of_empty hvalues (haccounted.inOrder.subset hmissing) hbelow
    have hname : key ∈ (self.pruneFields
        (Assoc.shiftRemove state.fields.entries matchBy.field)).2 := by
      rw [haccounted.named]
      exact List.mem_map.mpr ⟨missing, hmissing, by rw [hmissing']; rfl⟩
    exact hreach.trigger_not_named htriggered
      (state.fields.shiftRemove matchBy.field).wellKeyed hname

end SchemaRegistry

/-- The warnings of a preparation account for everything that it removes, exactly
    when no field was an empty object of a fragment to begin with. -/
theorem prepared_accounted_iff {parse : String → Except String SchemaNode}
    {registry : SchemaRegistry} (hreach : registry.Reachable parse) (matchBy : MatchBy)
    {state : State} (hmatch : state.matchSpec.isEmpty = true) {outcome : ApplyOutcome}
    (h : prepareForApplyWithRegistry [state] matchBy registry = .ok outcome) :
    (∃ prepared dropped, outcome.states = [prepared] ∧
      AccountedBy matchBy.field state.fields.entries prepared.fields.entries
        (outcome.warnings.map Warning.key) dropped) ↔
      ∀ key, (registry.triggered key).isSome = true → state.fields.get? key ≠ some (.map []) := by
  rcases SchemaRegistry.prepareForApply_single hmatch h with
    ⟨hvalid, _, prepared, hstates, hfields, hwarnings⟩
  have hsilent : registry.Silent state.fields.entries ↔
      ∃ key, (registry.triggered key).isSome = true ∧ state.fields.get? key = some (.map []) := by
    refine exists_congr fun key => and_congr_right' ⟨?_, Assoc.mem_of_lookup⟩
    exact Assoc.lookup_of_mem state.fields.wellKeyed.1
  have hnot : ¬ registry.Silent state.fields.entries ↔
      ∀ key, (registry.triggered key).isSome = true →
        state.fields.get? key ≠ some (.map []) := by
    rw [hsilent, not_exists]
    exact forall_congr' fun key => not_and
  rw [← hnot, hwarnings]
  constructor
  · rintro ⟨prepared', dropped, hstates', haccounted⟩
    obtain rfl := List.singleton_inj.mp (hstates.symm.trans hstates')
    rw [hfields] at haccounted
    intro hbad
    exact SchemaRegistry.not_accountedBy_of_silent hreach hbad dropped haccounted
  · intro hgood
    rcases SchemaRegistry.accountedBy_of_not_silent hreach hvalid hgood with ⟨dropped, haccounted⟩
    rw [← hfields] at haccounted
    exact ⟨prepared, dropped, hstates, haccounted⟩

/-- A queried device with addresses and a read-only field. -/
def queriedState : State :=
  (((State.new .kernel).setField "name" (.string "eth0") (Value.string_wellKeyed _)).setField
    "carrier" (.bool true) (Value.bool_wellKeyed _)).setField "ipv4"
      (.map [("addresses", .list [])]) (by decide)

theorem prepared_accounted_queried : ∃ outcome,
    prepareForApplyWithRegistry [queriedState] .name .new = .ok outcome ∧
      ((∃ prepared dropped, outcome.states = [prepared] ∧
        AccountedBy "name" queriedState.fields.entries prepared.fields.entries
          (outcome.warnings.map Warning.key) dropped) ↔
        ∀ key, (SchemaRegistry.new.triggered key).isSome = true →
          queriedState.fields.get? key ≠ some (.map [])) := by
  have hreach : SchemaRegistry.new.Reachable fun _ => .error "not a schema" := .new
  have hprepared : ∃ outcome, prepareForApplyWithRegistry [queriedState] .name .new =
      .ok outcome := ⟨_, rfl⟩
  rcases hprepared with ⟨outcome, houtcome⟩
  exact ⟨outcome, houtcome, prepared_accounted_iff hreach .name rfl houtcome⟩

/-- A queried device whose `ipv4` object is empty. -/
def emptyObjectState : State :=
  ((State.new .kernel).setField "name" (.string "eth0") (Value.string_wellKeyed _)).setField "ipv4"
    (.map []) (by decide)

/-- The empty object is dropped, and no warning says so. -/
theorem prepared_not_accounted :
    ¬ ∀ (parse : String → Except String SchemaNode) (registry : SchemaRegistry),
      registry.Reachable parse → ∀ (matchBy : MatchBy) (state : State),
        state.matchSpec.isEmpty = true → ∀ outcome,
          prepareForApplyWithRegistry [state] matchBy registry = .ok outcome →
          ∃ prepared dropped, outcome.states = [prepared] ∧
            AccountedBy matchBy.field state.fields.entries prepared.fields.entries
              (outcome.warnings.map Warning.key) dropped := by
  intro h
  have hprepared : ∃ outcome, prepareForApplyWithRegistry [emptyObjectState] .name .new =
      .ok outcome := ⟨_, rfl⟩
  rcases hprepared with ⟨outcome, houtcome⟩
  have hreach : SchemaRegistry.new.Reachable fun _ => .error "not a schema" := .new
  rcases h _ _ hreach .name emptyObjectState rfl outcome houtcome with
    ⟨prepared, dropped, hstates, haccounted⟩
  rcases SchemaRegistry.prepareForApply_single rfl houtcome with
    ⟨_, _, prepared', hstates', hfields, hwarnings⟩
  obtain rfl := List.singleton_inj.mp (hstates.symm.trans hstates')
  rw [hfields, hwarnings] at haccounted
  refine SchemaRegistry.not_accountedBy_of_silent hreach ?_ dropped haccounted
  exact ⟨"ipv4", rfl, by decide⟩

end Netfyr
