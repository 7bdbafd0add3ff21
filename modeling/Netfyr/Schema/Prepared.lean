import Netfyr.Data.Lists
import Netfyr.Schema.Apply

/-!
# What a Preparation Did

The preparation read backwards: when it succeeds, its states were valid, each
went through `prepareState` alone, and what came out is valid policy input. A
state without selector has lost the field that the strategy names, then what
pruning drops, and its device type has moved into the selector.

A list is prepared when every state is, each by itself: a state's number is in
the errors alone.

## Main definitions

* `SchemaRegistry.selected`: A state whose selector was made of a field.
* `SchemaRegistry.Prepares`: One state is prepared to another.

## Theorems

* `prepareForApply_ok`: What a successful preparation checked and did.
* `prepareState_ok`: What it did to one state.
* `prepareState_selects`: A prepared state has a selector.
* `prepareForApply_iff`: The preparation of a list, state by state.
-/

namespace Netfyr

namespace SchemaRegistry

variable {self : SchemaRegistry} {matchBy : MatchBy} {state : State} {states : List State}

/-- A state whose selector was made of the text of the strategy's field. -/
def selected (matchBy : MatchBy) (state : State) (text : String) : State :=
  { state with
    matchSpec := matchOf matchBy text
    fields := state.fields.shiftRemove matchBy.field }

/-- A state with a selector is kept, and another one selected and pruned. -/
theorem prepareState_ok {stateIndex : Nat} {out : State × List Warning}
    (h : self.prepareState matchBy stateIndex state = .ok out) :
    (state.matchSpec.isEmpty = false ∧ out = (state, [])) ∨
      (state.matchSpec.isEmpty = true ∧ ∃ value text,
        state.fields.get? matchBy.field = some value ∧
        out = (moveDeviceType (self.removeReadOnlyFields (selected matchBy state text)).1,
          (self.removeReadOnlyFields (selected matchBy state text)).2.map
            fun key => { key, knownReadOnly := true })) := by
  rw [prepareState] at h
  cases hm : state.matchSpec.isEmpty with
  | false =>
      rw [hm] at h
      exact Or.inl ⟨rfl, (Except.ok.inj h).symm⟩
  | true =>
      rw [hm, Bool.not_true, if_neg Bool.false_ne_true] at h
      cases hv : state.fields.get? matchBy.field with
      | none =>
          rw [hv] at h
          exact absurd h (by simp only [reduceCtorEq, not_false_eq_true])
      | some value =>
          rw [hv] at h
          exact Or.inr ⟨rfl, value, _, rfl, (Except.ok.inj h).symm⟩

/-- A prepared state has a selector. -/
theorem prepareState_selects {stateIndex : Nat} {out : State × List Warning}
    (h : self.prepareState matchBy stateIndex state = .ok out) :
    out.1.matchSpec.isEmpty = false := by
  rcases prepareState_ok h with ⟨hm, rfl⟩ | ⟨_, value, text, _, rfl⟩
  · exact hm
  · rw [moveDeviceType_matchSpec]
    exact matchOf_isEmpty text _

/-- No violations were collected: no state has any. -/
theorem collectValidationErrors_nil {finalStates : Bool}
    (h : self.collectValidationErrors finalStates states = []) :
    ∀ state ∈ states, (if finalStates || !state.matchSpec.isEmpty
      then self.validateWritable state else self.validate state) = [] := by
  intro state hstate
  rw [collectValidationErrors, List.flatMap_eq_nil_iff] at h
  rcases List.getElem_of_mem hstate with ⟨i, hi, hget⟩
  -- Any position of the state will do: its violations are the same at each.
  have hmem : (state, i) ∈ states.zipIdx := by
    rw [List.mk_mem_zipIdx_iff_getElem?, List.getElem?_eq_getElem hi, hget]
  exact List.map_eq_nil_iff.mp (h (state, i) hmem)

/-- What a successful preparation checked and did. -/
theorem prepareForApply_ok {outcome : ApplyOutcome}
    (h : prepareForApplyWithRegistry states matchBy self = .ok outcome) :
    (∀ state ∈ states.map self.forgetQueryMatch, (if !state.matchSpec.isEmpty
        then self.validateWritable state else self.validate state) = []) ∧
      self.prepareStates matchBy (states.map self.forgetQueryMatch) 0 =
        .ok (outcome.states, outcome.warnings) ∧
      ∀ state ∈ outcome.states, self.validateWritable state = [] := by
  rw [prepareForApplyWithRegistry] at h
  split at h
  · exact absurd h (by simp only [reduceCtorEq, not_false_eq_true])
  · next hbefore =>
      rw [not_not] at hbefore
      rcases except_bind_eq_ok.mp h with ⟨⟨prepared, warnings⟩, hprepared, h⟩
      dsimp only at h
      split at h
      · exact absurd h (by simp only [reduceCtorEq, not_false_eq_true])
      · next hafter =>
          rw [not_not] at hafter
          obtain rfl := Except.ok.inj h
          refine ⟨collectValidationErrors_nil hbefore, hprepared, ?_⟩
          intro state hstate
          exact collectValidationErrors_nil hafter state hstate

section Single

/-- The number of a state shows in errors alone. -/
theorem prepareState_index {stateIndex : Nat} {out : State × List Warning} (other : Nat)
    (h : self.prepareState matchBy stateIndex state = .ok out) :
    self.prepareState matchBy other state = .ok out := by
  rw [prepareState] at h ⊢
  split
  · next hselected =>
      rw [if_pos hselected] at h
      exact h
  · next hselected =>
      rw [if_neg hselected] at h
      cases hv : state.fields.get? matchBy.field with
      | none =>
          rw [hv] at h
          exact absurd h (by simp only [reduceCtorEq, not_false_eq_true])
      | some value =>
          rw [hv] at h
          exact h

/-- States are prepared one by one, each as the first would be. -/
theorem prepareStates_eq_ok {stateIndex : Nat} {out : List State × List Warning} :
    self.prepareStates matchBy states stateIndex = .ok out ↔
      ∃ parts : List (State × List Warning),
        List.Forall₂ (fun state part => self.prepareState matchBy 0 state = .ok part) states
          parts ∧ out = (parts.map Prod.fst, parts.flatMap Prod.snd) := by
  induction states generalizing stateIndex out with
  | nil =>
      simp only [prepareStates, Except.ok.injEq, List.forall₂_nil_left_iff, exists_eq_left,
        List.map_nil, List.flatMap_nil]
      exact eq_comm
  | cons state states ih =>
      rw [prepareStates]
      constructor
      · intro h
        rcases except_bind_eq_ok.mp h with ⟨first, hfirst, h⟩
        rcases except_bind_eq_ok.mp h with ⟨rest, hrest, h⟩
        rcases ih.mp hrest with ⟨parts, hparts, rfl⟩
        exact ⟨first :: parts, .cons (prepareState_index 0 hfirst) hparts,
          (Except.ok.inj h).symm⟩
      · rintro ⟨parts, hparts, rfl⟩
        rcases List.forall₂_cons_left_iff.mp hparts with ⟨first, rest, hfirst, hrest, rfl⟩
        rw [prepareState_index stateIndex hfirst, ih.mpr ⟨rest, hrest, rfl⟩]
        rfl

/-- One state is prepared to another, with warnings: it was valid, and what came
    of it is valid policy input. -/
structure Prepares (registry : SchemaRegistry) (matchBy : MatchBy) (state : State)
    (part : State × List Warning) : Prop where
  before : (if !(registry.forgetQueryMatch state).matchSpec.isEmpty
    then registry.validateWritable (registry.forgetQueryMatch state)
    else registry.validate (registry.forgetQueryMatch state)) = []
  prepared : registry.prepareState matchBy 0 (registry.forgetQueryMatch state) = .ok part
  after : registry.validateWritable part.1 = []

/-- What a state is prepared to is determined. -/
theorem Prepares.unique {part other : State × List Warning}
    (h : self.Prepares matchBy state part) (h' : self.Prepares matchBy state other) :
    part = other := Except.ok.inj (h.prepared.symm.trans h'.prepared)

/-- The preparation of a list is that of each of its states. -/
theorem prepareForApply_iff {outcome : ApplyOutcome} :
    prepareForApplyWithRegistry states matchBy self = .ok outcome ↔
      ∃ parts : List (State × List Warning),
        List.Forall₂ (self.Prepares matchBy) states parts ∧
          outcome = { states := parts.map Prod.fst, warnings := parts.flatMap Prod.snd } := by
  constructor
  · intro h
    rcases prepareForApply_ok h with ⟨hbefore, hprepared, hafter⟩
    rcases prepareStates_eq_ok.mp hprepared with ⟨parts, hparts, heq⟩
    rw [Prod.mk.injEq] at heq
    rw [List.forall_mem_map] at hbefore
    rw [heq.1, List.forall_mem_map] at hafter
    rw [List.forall₂_map_left_iff] at hparts
    refine ⟨parts, forall₂_imp_mem hparts ?_, ?_⟩
    · intro state hstate part hpart hone
      exact ⟨hbefore state hstate, hone, hafter part hpart⟩
    · rw [← heq.1, ← heq.2]
  · rintro ⟨parts, hparts, rfl⟩
    have hstates : self.prepareStates matchBy (states.map self.forgetQueryMatch) 0 =
        .ok (parts.map Prod.fst, parts.flatMap Prod.snd) := by
      refine prepareStates_eq_ok.mpr ⟨parts, ?_, rfl⟩
      rw [List.forall₂_map_left_iff]
      exact hparts.imp fun _ _ h => h.prepared
    have hbefore : self.collectValidationErrors false (states.map self.forgetQueryMatch) = [] := by
      refine collectValidationErrors_eq_nil fun state hmem => ?_
      rcases List.mem_map.mp hmem with ⟨original, horiginal, rfl⟩
      rcases exists_of_forall₂ hparts horiginal with ⟨part, _, hone⟩
      exact hone.before
    have hafter : self.collectValidationErrors true (parts.map Prod.fst) = [] := by
      refine collectValidationErrors_eq_nil fun state hmem => ?_
      rcases List.mem_map.mp hmem with ⟨part, hpart, rfl⟩
      rcases exists_of_mem_forall₂ hparts hpart with ⟨_, _, hone⟩
      exact hone.after
    simp only [prepareForApplyWithRegistry, hbefore, ne_eq, not_true, if_false, hstates, bind,
      Except.bind, hafter]

/-- What a preparation left, state by state. -/
theorem prepareForApply_forall₂ {outcome : ApplyOutcome}
    (h : prepareForApplyWithRegistry states matchBy self = .ok outcome) :
    List.Forall₂ (fun state out => ∃ gone, self.Prepares matchBy state (out, gone)) states
      outcome.states := by
  rcases prepareForApply_iff.mp h with ⟨parts, hparts, rfl⟩
  rw [List.forall₂_map_right_iff]
  exact hparts.imp fun _ part hone => ⟨part.2, hone⟩

end Single

end SchemaRegistry

end Netfyr
