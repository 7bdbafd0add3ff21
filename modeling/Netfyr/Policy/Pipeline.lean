import Netfyr.Schema.RoundTrip
import Netfyr.Policy.Load

/-!
# Loading and the State Pipeline

A document of states can be loaded as policies, or read as states that are then
prepared. The loader goes through the elements one by one. Of each it leaves out
the policy's own keys, prints the rest and reads it back, and then prepares that
state alone, or validates it. The pipeline reads the whole document and prepares
the list.

Both do the same to an element that is a plain mapping. But the loader asks for
mappings and for keys by accessors that look through tags. So it takes a tagged
element, which the pipeline refuses, and leaves out a tagged key that has the
text of one of its own, which the pipeline refuses as well.

## Main definitions

* `statePipeline`: Reading states and preparing them.
* `Bare`: A device mapping without the policy's own keys.
* `AgreesOn`: The loader agrees with the pipeline on an input.
* `Untagged`: Nothing that the loader looks through is tagged.
* `Loadable`: What the loader keeps of an element is a state it takes.

## Theorems

* `policyFromMapping_iff`: One mapping as a policy.
* `loadDocument_iff`: A document as policies.
* `statePipeline_iff`: A document as prepared states.
* `loadDocument_agrees_iff`: Where the two agree.
-/

namespace Netfyr

open ProviderRegistry (schemaRegistry)

section

variable (parse : String → Except String YamlValue) (print : YamlValue → Except String String)

/-- Read states along the schema with the providers, and prepare them. -/
def statePipeline (input : String) (matchBy : MatchBy) : Except Error ApplyOutcome := do
  let states ← schemaRegistry.fromYaml parse input
  prepareForApplyWithRegistry states matchBy schemaRegistry

/-- A policy has the selector, the device type and the fields of a state. -/
def HasContentOf (policy : Policy) (state : State) : Prop :=
  policy.matchSpec = state.matchSpec ∧ policy.deviceType = state.deviceType ∧
    policy.fields = state.fields

/-- The loader takes an input exactly when the pipeline does, and then with the
    same states in the same order and the same warnings. -/
def AgreesOn (input stem : String) (matchBy : MatchBy) : Prop :=
  ((∃ loaded, (loadDocument parse print input stem matchBy).run = some (.ok loaded)) ↔
      ∃ prepared, statePipeline parse input matchBy = .ok prepared) ∧
    ∀ loaded prepared, (loadDocument parse print input stem matchBy).run = some (.ok loaded) →
      statePipeline parse input matchBy = .ok prepared →
        List.Forall₂ HasContentOf loaded.policies prepared.states ∧
          loaded.warnings = prepared.warnings

end

/-- A device mapping without priority and metadata, of the kind of a state if it
    says so. -/
def Bare (entries : List (YamlValue × YamlValue)) : Prop :=
  ∀ entry ∈ entries, entry.1 ≠ .string "priority" ∧ entry.1 ≠ .string "metadata" ∧
    (entry.1 = .string "kind" → entry.2 = .string "state")

/-- Whether a tree has a tag. -/
def YamlValue.isTagged : YamlValue → Bool
  | .tagged _ _ => true
  | _ => false

/-- A key that the loader leaves out, by its text. -/
def LeftOut (key : YamlValue) : Prop :=
  key.asStr = some "kind" ∨ key.asStr = some "metadata" ∨ key.asStr = some "priority"

/-- Nothing that the loader looks through is tagged: neither an element nor a key
    of it that is left out. -/
def Untagged (item : YamlValue) : Prop :=
  item.isTagged = false ∧ ∀ entries, item.asMapping = some entries →
    ∀ entry ∈ entries, LeftOut entry.1 → entry.1.isTagged = false

/-- A state that is valid policy input, or a valid query result with the
    strategy's field. -/
def Admissible (matchBy : MatchBy) (state : State) : Prop :=
  (state.matchSpec.isEmpty = true ∧ schemaRegistry.validate state = [] ∧
      state.fields.containsKey matchBy.field = true) ∨
    (state.matchSpec.isEmpty = false ∧ schemaRegistry.validateWritable state = [])

/-- What the loader keeps of a mapping is read as a state. -/
def KeptAs (item : YamlValue) (state : State) : Prop :=
  ∃ entries, item.asMapping = some entries ∧
    schemaRegistry.mappingToState (candidateEntries false entries) = .ok state

/-- What the loader keeps of an element is a state it takes. -/
def Loadable (matchBy : MatchBy) (item : YamlValue) : Prop :=
  ∃ state, KeptAs item state ∧ Admissible matchBy state

section Elements

variable {matchBy : MatchBy} {state : State} {entries : List (YamlValue × YamlValue)}

theorem candidateEntries_keeps {entry : YamlValue × YamlValue} :
    (match entry.1.asStr with
      | some key => !(key == "kind" || key == "metadata" || key == "priority" ||
          false && key == "name")
      | none => true) = false ↔ LeftOut entry.1 := by
  rw [LeftOut]
  cases entry.1.asStr with
  | none => simp only [Bool.true_eq_false, reduceCtorEq, or_self]
  | some key => simp only [Bool.false_and, Bool.or_false, Bool.not_eq_false', Bool.or_eq_true,
      beq_iff_eq, Option.some.injEq, or_assoc]

/-- The text of a key without tag is the key. -/
theorem asStr_of_untagged {key : YamlValue} {text : String} (htag : key.isTagged = false)
    (h : key.asStr = some text) : key = .string text := by
  cases key with
  | string own => exact congrArg YamlValue.string (Option.some.inj h)
  | tagged _ _ => exact absurd htag Bool.noConfusion
  | _ => exact absurd h (by simp only [YamlValue.asStr, YamlValue.untag, reduceCtorEq,
      not_false_eq_true])

/-- Without tags the loader leaves out what the pipeline reads as nothing. -/
theorem mappingToState_candidateEntries (hbare : Bare entries)
    (htag : ∀ entry ∈ entries, LeftOut entry.1 → entry.1.isTagged = false) :
    schemaRegistry.mappingToState (candidateEntries false entries) =
      schemaRegistry.mappingToState entries := by
  unfold SchemaRegistry.mappingToState
  rw [candidateEntries, foldlM_filter]
  intro entry hmem hdrop parts
  have hout := candidateEntries_keeps.mp hdrop
  have huntagged := htag entry hmem hout
  rcases hbare entry hmem with ⟨hpriority, hmetadata, hkind⟩
  rcases hout with hkey | hkey | hkey
  · -- The kind of a state is checked and not kept.
    have hkey := asStr_of_untagged huntagged hkey
    have hentry : entry = (.string "kind", .string "state") := Prod.ext hkey (hkind hkey)
    rw [hentry]
    rfl
  · exact absurd (asStr_of_untagged huntagged hkey) hmetadata
  · exact absurd (asStr_of_untagged huntagged hkey) hpriority

/-- The pipeline takes no tagged key. -/
theorem mappingToState_untagged (h : schemaRegistry.mappingToState entries = .ok state) :
    ∀ entry ∈ entries, entry.1.isTagged = false := by
  intro entry hmem
  rcases except_bind_eq_ok.mp h with ⟨parts, hparts, _⟩
  rcases foldlM_step hparts entry hmem with ⟨before, after, hstep⟩
  rcases except_bind_eq_ok.mp hstep with ⟨key, hkey, _⟩
  cases hentry : entry.1 with
  | tagged tag value =>
      rw [hentry] at hkey
      exact absurd hkey (by simp only [keyToString, reduceCtorEq, not_false_eq_true])
  | _ => rfl

/-- The pipeline reads an element exactly when nothing is tagged and what the
    loader keeps of it is read. -/
theorem readsElement_iff {item : YamlValue}
    (hbare : ∀ entries, item.asMapping = some entries → Bare entries) :
    schemaRegistry.ReadsElement item state ↔ Untagged item ∧ KeptAs item state := by
  constructor
  · rintro ⟨entries, rfl, hread⟩
    have htag := mappingToState_untagged hread
    refine ⟨⟨rfl, ?_⟩, entries, rfl, ?_⟩
    · rintro _ ⟨⟩ entry hmem _
      exact htag entry hmem
    · rw [mappingToState_candidateEntries (hbare entries rfl) fun entry hmem _ => htag entry hmem]
      exact hread
  · rintro ⟨⟨hplain, htag⟩, entries, hmapping, hread⟩
    rw [mappingToState_candidateEntries (hbare entries hmapping) (htag entries hmapping)] at hread
    refine ⟨entries, ?_, hread⟩
    cases item with
    | mapping own => exact congrArg YamlValue.mapping (Option.some.inj hmapping)
    | tagged _ _ => exact absurd hplain Bool.noConfusion
    | _ => exact absurd hmapping (by simp only [YamlValue.asMapping, YamlValue.untag,
        reduceCtorEq, not_false_eq_true])

/-- A state from elsewhere than the kernel can be prepared when it is admissible. -/
theorem exists_prepares_iff (hsource : state.source ≠ .kernel) :
    (∃ part, schemaRegistry.Prepares matchBy state part) ↔ Admissible matchBy state := by
  have hforget : schemaRegistry.forgetQueryMatch state = state :=
    SchemaRegistry.forgetQueryMatch_of_source hsource
  constructor
  · rintro ⟨part, hbefore, hprepared, _⟩
    rw [hforget] at hbefore hprepared
    rcases SchemaRegistry.prepareState_ok hprepared with ⟨hselector, _⟩ | ⟨hempty, value, _, hv, _⟩
    · rw [hselector] at hbefore
      exact Or.inr ⟨hselector, hbefore⟩
    · rw [hempty] at hbefore
      exact Or.inl ⟨hempty, hbefore, Option.isSome_iff_exists.mpr ⟨value, hv⟩⟩
  · intro h
    have hpreparable : schemaRegistry.Preparable (fun _ => .error "") matchBy state := by
      rcases h with ⟨hempty, hvalid, hfield⟩ | ⟨hselector, hvalid⟩
      · exact Or.inl ⟨Or.inl hempty, hvalid, hfield⟩
      · exact Or.inr ⟨hselector, hsource, hvalid⟩
    rcases SchemaRegistry.prepareState_forgetQueryMatch ProviderRegistry.appliable_schemaRegistry
      hpreparable 0 with ⟨prepared, warnings, hprepared, has⟩
    refine ⟨(prepared, warnings), ?_, hprepared, has.2.1⟩
    rw [hforget]
    rcases h with ⟨hempty, hvalid, _⟩ | ⟨hselector, hvalid⟩
    · rw [hempty]
      exact hvalid
    · rw [hselector]
      exact hvalid

end Elements

section Loader

variable {parse : String → Except String YamlValue} {print : YamlValue → Except String String}
  {matchBy : MatchBy} {state : State} {entries : List (YamlValue × YamlValue)}
  {fallbackName stem : String}

/-- What the loader keeps of an element is read as a state and prepared. -/
def LoadsAs (matchBy : MatchBy) (item : YamlValue) (part : State × List Warning) : Prop :=
  ∃ state, KeptAs item state ∧ schemaRegistry.Prepares matchBy state part

/-- The policy that a prepared state is loaded as. -/
def barePolicy (name : String) (state : State) : Policy :=
  { name, matchSpec := state.matchSpec, deviceType := state.deviceType, fields := state.fields,
    priority := none, metadata := none }

theorem KeptAs.unique {item : YamlValue} {other : State} (h : KeptAs item state)
    (h' : KeptAs item other) : state = other := by
  rcases h with ⟨entries, hmapping, hread⟩
  rcases h' with ⟨entries', hmapping', hread'⟩
  obtain rfl := Option.some.inj (hmapping.symm.trans hmapping')
  exact Except.ok.inj (hread.symm.trans hread')

theorem LoadsAs.unique {item : YamlValue} {part other : State × List Warning}
    (h : LoadsAs matchBy item part) (h' : LoadsAs matchBy item other) : part = other := by
  rcases h with ⟨state, hkept, hprepares⟩
  rcases h' with ⟨state', hkept', hprepares'⟩
  obtain rfl := hkept.unique hkept'
  exact hprepares.unique hprepares'

theorem loadable_iff {item : YamlValue} :
    Loadable matchBy item ↔ ∃ part, LoadsAs matchBy item part := by
  constructor
  · rintro ⟨state, hkept, hadmissible⟩
    rcases hkept with ⟨entries, hmapping, hread⟩
    have hsource := SchemaRegistry.mappingToState_source hread
    rcases (exists_prepares_iff hsource).mpr hadmissible with ⟨part, hpart⟩
    exact ⟨part, state, ⟨entries, hmapping, hread⟩, hpart⟩
  · rintro ⟨part, state, ⟨entries, hmapping, hread⟩, hpart⟩
    exact ⟨state, ⟨entries, hmapping, hread⟩,
      (exists_prepares_iff (SchemaRegistry.mappingToState_source hread)).mp ⟨part, hpart⟩⟩

/-- A mapping without a plain key of a name has no value under it. -/
theorem mappingGet_none {name : String} (h : ∀ entry ∈ entries, entry.1 ≠ .string name) :
    mappingGet entries name = none := by
  rw [mappingGet, List.findSome?_eq_none_iff]
  intro entry hmem
  split
  · next key hkey =>
      rw [if_neg]
      rintro rfl
      exact h entry hmem hkey
  · rfl

/-- A bare mapping is no explicit policy. -/
theorem isExplicit_bare (hbare : Bare entries) : isExplicit entries = .ok false := by
  have hkind : mappingGet entries "kind" = none ∨
      mappingGet entries "kind" = some (.string "state") := by
    cases hget : mappingGet entries "kind" with
    | none => exact Or.inl rfl
    | some value =>
        rcases List.exists_of_findSome?_eq_some hget with ⟨entry, hmem, hentry⟩
        split at hentry
        · next key hkey =>
            split at hentry
            · next hname =>
                rw [hname] at hkey
                rw [← hentry, (hbare entry hmem).2.2 hkey]
                exact Or.inr rfl
            · exact absurd hentry (by simp only [reduceCtorEq, not_false_eq_true])
        · exact absurd hentry (by simp only [reduceCtorEq, not_false_eq_true])
  rcases hkind with hkind | hkind
  · rw [isExplicit, hkind]
  · rw [isExplicit, hkind]
    rfl

/-- The loader prepares or validates what the pipeline would prepare. -/
theorem resolveState_iff (hsource : state.source ≠ .kernel) {part : State × List Warning} :
    (resolveState false state matchBy).run = some (.ok part) ↔
      schemaRegistry.Prepares matchBy state part := by
  have hforget : schemaRegistry.forgetQueryMatch state = state :=
    SchemaRegistry.forgetQueryMatch_of_source hsource
  rw [resolveState, if_neg Bool.false_ne_true]
  cases hselector : state.matchSpec.isEmpty with
  | true =>
      rw [if_pos rfl]
      constructor
      · intro h
        rcases loading_bind_eq_ok.mp h with ⟨prepared, hprepared, h⟩
        rw [loading_lift_eq_ok, mapError_eq_ok] at hprepared
        rcases loading_bind_eq_ok.mp h with ⟨first, hfirst, h⟩
        rw [expect_eq_ok] at hfirst
        rw [loading_pure_eq_ok] at h
        rcases SchemaRegistry.prepareForApply_iff.mp hprepared with ⟨parts, hparts, rfl⟩
        rcases List.forall₂_cons_left_iff.mp hparts with ⟨only, rest, honly, hrest, rfl⟩
        obtain rfl := List.forall₂_nil_left_iff.mp hrest
        obtain rfl := Option.some.inj hfirst
        have hwarnings : [only].flatMap Prod.snd = only.2 := List.append_nil _
        rw [← h, hwarnings]
        exact honly
      · intro h
        have hprepared := SchemaRegistry.prepareForApply_iff.mpr ⟨[part], .cons h .nil, rfl⟩
        refine loading_bind_eq_ok.mpr ⟨_, loading_lift_eq_ok.mpr (mapError_eq_ok.mpr hprepared), ?_⟩
        refine loading_bind_eq_ok.mpr ⟨part.1, expect_eq_ok.mpr rfl, loading_pure_eq_ok.mpr ?_⟩
        exact Prod.ext rfl (List.append_nil _)
  | false =>
      rw [if_neg Bool.false_ne_true]
      -- A state with a selector is prepared to itself.
      have hself : schemaRegistry.prepareState matchBy 0 state = .ok (state, []) := by
        rw [SchemaRegistry.prepareState, hselector]
        rfl
      constructor
      · intro h
        rcases loading_bind_eq_ok.mp h with ⟨⟨⟩, hvalid, hpure⟩
        rw [loading_lift_eq_ok, validatePolicyState_eq_ok] at hvalid
        rw [loading_pure_eq_ok] at hpure
        subst hpure
        refine ⟨?_, ?_, hvalid⟩
        · rw [hforget, hselector]
          exact hvalid
        · rw [hforget]
          exact hself
      · rintro ⟨_, hprepared, hvalid⟩
        rw [hforget, hself] at hprepared
        obtain rfl := Except.ok.inj hprepared
        refine loading_bind_eq_ok.mpr ⟨(), ?_, loading_pure_eq_ok.mpr rfl⟩
        exact loading_lift_eq_ok.mpr (validatePolicyState_eq_ok.mpr hvalid)

/-- One bare mapping is loaded as the policy of what it is prepared to. -/
theorem policyFromMapping_iff {item : YamlValue} (hitem : item.asMapping = some entries)
    (hbare : Bare entries)
    (hprint : PrintsBack parse print (.mapping (candidateEntries false entries)))
    {out : Policy × List Warning} :
    (policyFromMapping parse print entries fallbackName matchBy).run = some (.ok out) ↔
      ∃ part, LoadsAs matchBy item part ∧ out = (barePolicy fallbackName part.1, part.2) := by
  rcases hprint with ⟨text, htext, hblank, hparse⟩
  -- The text that was printed is read as the one state of what was left.
  have hread (states : List State) : schemaRegistry.fromYaml parse text = .ok states ↔
      ∃ state, KeptAs item state ∧ states = [state] := by
    rw [SchemaRegistry.fromYaml_eq_ok]
    constructor
    · rintro ⟨_, tree, items, htree, hitems, hstates⟩
      obtain rfl := Except.ok.inj (hparse.symm.trans htree)
      obtain rfl := Option.some.inj hitems
      rcases List.forall₂_cons_left_iff.mp hstates with ⟨state, rest, ⟨_, ⟨⟩, hstate⟩, hrest, rfl⟩
      obtain rfl := List.forall₂_nil_left_iff.mp hrest
      exact ⟨state, ⟨entries, hitem, hstate⟩, rfl⟩
    · rintro ⟨state, ⟨_, hentries, hstate⟩, rfl⟩
      obtain rfl := Option.some.inj (hitem.symm.trans hentries)
      exact ⟨hblank, _, _, hparse, rfl, .cons ⟨_, rfl, hstate⟩ .nil⟩
  have hexplicit := isExplicit_bare hbare
  have hpriority := mappingGet_none fun entry hmem => (hbare entry hmem).1
  have hmetadata := mappingGet_none fun entry hmem => (hbare entry hmem).2.1
  rw [policyFromMapping, hexplicit, hpriority, hmetadata]
  constructor
  · intro h
    rcases loading_bind_eq_ok.mp h with ⟨explicit, hexplicit, h⟩
    obtain rfl := Except.ok.inj (loading_lift_eq_ok.mp hexplicit)
    rcases loading_bind_eq_ok.mp h with ⟨name, hname, h⟩
    obtain rfl := Except.ok.inj (loading_lift_eq_ok.mp hname)
    rcases loading_bind_eq_ok.mp h with ⟨priority, hpriority, h⟩
    obtain rfl := Except.ok.inj (loading_lift_eq_ok.mp hpriority)
    rcases loading_bind_eq_ok.mp h with ⟨metadata, hmetadata, h⟩
    obtain rfl := Except.ok.inj (loading_lift_eq_ok.mp hmetadata)
    rcases loading_bind_eq_ok.mp h with ⟨printed, hprinted, h⟩
    rw [loading_lift_eq_ok, mapError_eq_ok, htext, Except.ok.injEq] at hprinted
    subst hprinted
    rcases loading_bind_eq_ok.mp h with ⟨states, hstates, h⟩
    rw [loading_lift_eq_ok, mapError_eq_ok, hread] at hstates
    rcases hstates with ⟨state, hkept, rfl⟩
    rcases loading_bind_eq_ok.mp h with ⟨last, hlast, h⟩
    have hsame : state = last := Option.some.inj (expect_eq_ok.mp hlast)
    subst hsame
    rcases loading_bind_eq_ok.mp h with ⟨part, hpart, h⟩
    rcases hkept with ⟨kept, hmapping, hstate⟩
    rw [resolveState_iff (SchemaRegistry.mappingToState_source hstate)] at hpart
    exact ⟨part, ⟨_, ⟨kept, hmapping, hstate⟩, hpart⟩, (loading_pure_eq_ok.mp h).symm⟩
  · rintro ⟨part, ⟨state, ⟨kept, hmapping, hstate⟩, hpart⟩, rfl⟩
    have hstates := (hread [state]).mpr ⟨state, ⟨kept, hmapping, hstate⟩, rfl⟩
    rw [← resolveState_iff (SchemaRegistry.mappingToState_source hstate)] at hpart
    -- Nothing is absent and nothing fails on the way.
    refine loading_bind_eq_ok.mpr ⟨_, loading_lift_eq_ok.mpr rfl, ?_⟩
    refine loading_bind_eq_ok.mpr ⟨_, loading_lift_eq_ok.mpr rfl, ?_⟩
    refine loading_bind_eq_ok.mpr ⟨_, loading_lift_eq_ok.mpr rfl, ?_⟩
    refine loading_bind_eq_ok.mpr ⟨_, loading_lift_eq_ok.mpr rfl, ?_⟩
    refine loading_bind_eq_ok.mpr ⟨_, loading_lift_eq_ok.mpr (mapError_eq_ok.mpr htext), ?_⟩
    refine loading_bind_eq_ok.mpr ⟨_, loading_lift_eq_ok.mpr (mapError_eq_ok.mpr hstates), ?_⟩
    refine loading_bind_eq_ok.mpr ⟨_, expect_eq_ok.mpr rfl, ?_⟩
    exact loading_bind_eq_ok.mpr ⟨_, hpart, loading_pure_eq_ok.mpr rfl⟩

/-- The name that the loader gives an element by its place. -/
def placeName (stem : String) (multiple : Bool) (index : Nat) : String :=
  if multiple then s!"{stem}-{index + 1}" else stem

/-- The elements of a sequence are named apart by their places. -/
theorem placeName_injective (stem : String) : (placeName stem true).Injective := by
  intro i j h
  have hdigits : stem ++ "-" ++ (i + 1).repr = stem ++ "-" ++ (j + 1).repr := h
  have hlist := congrArg String.toList hdigits
  simp only [String.toList_append, Nat.toList_repr] at hlist
  -- The digits of a number determine it.
  have hsame := congrArg (Nat.ofDigitChars 10 · 0) (List.append_cancel_left hlist)
  rw [Nat.ofDigitChars_ten_toDigits, Nat.ofDigitChars_ten_toDigits] at hsame
  omega

/-- A device mapping without the policy's keys, that the YAML library can print
    and read back. -/
def ReadBack (parse : String → Except String YamlValue)
    (print : YamlValue → Except String String) (item : YamlValue)
    (entries : List (YamlValue × YamlValue)) : Prop :=
  item.asMapping = some entries ∧ Bare entries ∧
    PrintsBack parse print (.mapping (candidateEntries false entries))

section Mappings

variable {multiple : Bool} {items : List YamlValue}
  {mappings : List (List (YamlValue × YamlValue))} {index : Nat} {outcome : LoadOutcome}

/-- The loop goes on with the policies and warnings of its first mapping, whose
    name must be new. -/
theorem loadMappings_cons_iff {item : YamlValue} {result : LoadOutcome}
    (hitem : ReadBack parse print item entries) :
    (loadMappings parse print stem multiple matchBy (entries :: mappings) index outcome).run =
        some (.ok result) ↔
      ∃ part, LoadsAs matchBy item part ∧
        placeName stem multiple index ∉ outcome.policies.map Policy.name ∧
        (loadMappings parse print stem multiple matchBy mappings (index + 1)
          { policies := outcome.policies ++ [barePolicy (placeName stem multiple index) part.1]
            warnings := outcome.warnings ++ part.2 }).run = some (.ok result) := by
  rcases hitem with ⟨hmapping, hbare, hprint⟩
  rw [loadMappings]
  change (policyFromMapping parse print entries (placeName stem multiple index) matchBy >>=
    _).run = _ ↔ _
  rw [loading_bind_eq_ok]
  constructor
  · rintro ⟨out, hout, h⟩
    rw [policyFromMapping_iff hmapping hbare hprint] at hout
    rcases hout with ⟨part, hpart, rfl⟩
    dsimp only [barePolicy] at h
    split at h
    · rcases loading_bind_eq_ok.mp h with ⟨_, hthrow, _⟩
      exact absurd hthrow loading_throw_ne_ok
    · next hnew => exact ⟨part, hpart, hnew, h⟩
  · rintro ⟨part, hpart, hnew, h⟩
    refine ⟨_, (policyFromMapping_iff hmapping hbare hprint).mpr ⟨part, hpart, rfl⟩, ?_⟩
    dsimp only [barePolicy]
    rw [if_neg hnew]
    exact h

/-- Mappings that are loaded were all prepared, in order. -/
theorem loadMappings_parts {result : LoadOutcome}
    (hitems : List.Forall₂ (ReadBack parse print) items mappings)
    (h : (loadMappings parse print stem multiple matchBy mappings index outcome).run =
      some (.ok result)) :
    ∃ parts policies, List.Forall₂ (LoadsAs matchBy) items parts ∧
      List.Forall₂ HasContentOf policies (parts.map Prod.fst) ∧
        result.policies = outcome.policies ++ policies ∧
          result.warnings = outcome.warnings ++ parts.flatMap Prod.snd := by
  induction hitems generalizing index outcome with
  | nil =>
      rw [loadMappings, loading_pure_eq_ok] at h
      subst h
      exact ⟨[], [], .nil, .nil, (List.append_nil _).symm, (List.append_nil _).symm⟩
  | cons hitem _ ih =>
      rcases (loadMappings_cons_iff hitem).mp h with ⟨part, hpart, _, h⟩
      rcases ih h with ⟨parts, policies, hparts, hcarries, hpolicies, hwarnings⟩
      have hfirst : HasContentOf (barePolicy (placeName stem multiple index) part.1) part.1 :=
        ⟨rfl, rfl, rfl⟩
      refine ⟨part :: parts, _ :: policies, .cons hpart hparts, .cons hfirst hcarries, ?_, ?_⟩
      · rw [hpolicies, List.append_assoc]
        rfl
      · rw [hwarnings, List.append_assoc, List.flatMap_cons]

/-- Mappings that can all be prepared are loaded, when their names are new. -/
theorem loadMappings_isOk (outcome : LoadOutcome) {parts : List (State × List Warning)}
    (hitems : List.Forall₂ (ReadBack parse print) items mappings)
    (hparts : List.Forall₂ (LoadsAs matchBy) items parts)
    (hnames : (outcome.policies.map Policy.name ++
      (List.range' index mappings.length).map (placeName stem multiple)).Nodup) :
    ∃ result, (loadMappings parse print stem multiple matchBy mappings index outcome).run =
      some (.ok result) := by
  induction hitems generalizing index outcome parts with
  | nil => exact ⟨outcome, loading_pure_eq_ok.mpr rfl⟩
  | cons hitem _ ih =>
      rcases List.forall₂_cons_left_iff.mp hparts with ⟨part, rest, hpart, hrest, rfl⟩
      rw [List.length_cons, List.range'_succ, List.map_cons] at hnames
      have hnew : placeName stem multiple index ∉ outcome.policies.map Policy.name := by
        intro hmem
        exact (List.nodup_append.mp hnames).2.2 _ hmem _ List.mem_cons_self rfl
      have hnext := @ih (index + 1)
        { policies := outcome.policies ++ [barePolicy (placeName stem multiple index) part.1]
          warnings := outcome.warnings ++ part.2 } rest hrest
      rw [List.map_append, List.append_assoc] at hnext
      rcases hnext hnames with ⟨result, hresult⟩
      exact ⟨result, (loadMappings_cons_iff hitem).mpr ⟨part, hpart, hnew, hresult⟩⟩

end Mappings

/-- The mappings that are loaded are those behind the tags of a document's
    elements. -/
theorem topMappings_eq_ok {tree : YamlValue}
    {mappings : List (List (YamlValue × YamlValue))} :
    topMappings tree = .ok mappings ↔ ∃ items, documentElements tree = some items ∧
      List.Forall₂ (fun item entries => item.asMapping = some entries) items mappings := by
  cases tree with
  | mapping entries =>
      simp only [topMappings, Except.ok.injEq, documentElements, Option.some.injEq,
        exists_eq_left', List.forall₂_cons_left_iff, List.forall₂_nil_left_iff]
      constructor
      · rintro rfl
        exact ⟨entries, [], rfl, rfl, rfl⟩
      · rintro ⟨_, _, ⟨⟩, rfl, rfl⟩
        rfl
  | sequence items =>
      rw [topMappings, mapM_eq_ok]
      simp only [documentElements, Option.some.injEq, exists_eq_left']
      constructor
      · refine fun h => h.imp fun item entries hitem => ?_
        split at hitem
        · next own hown => rw [hown, Except.ok.inj hitem]
        · exact absurd hitem (by simp only [reduceCtorEq, not_false_eq_true])
      · refine fun h => h.imp fun item entries hitem => ?_
        rw [hitem]
  | _ =>
      simp only [topMappings, documentElements, reduceCtorEq, false_and, exists_false]

end Loader

/-- The elements of the document that an input is, none when it is no document
    of device mappings. -/
def inputElements (parse : String → Except String YamlValue) (input : String) :
    List YamlValue :=
  ((parse input).toOption.bind documentElements).getD []

section Document

variable {parse : String → Except String YamlValue} {print : YamlValue → Except String String}
  {matchBy : MatchBy} {input stem : String}

theorem inputElements_eq {tree : YamlValue} {items : List YamlValue}
    (hparse : parse input = .ok tree) (hitems : documentElements tree = some items) :
    inputElements parse input = items := by
  rw [inputElements, hparse, Except.toOption, Option.bind_some, hitems, Option.getD_some]

/-- No two elements of a document have the same name by their places. -/
theorem placeNames_nodup (stem : String) {tree : YamlValue} {items : List YamlValue}
    (hitems : documentElements tree = some items) :
    ((List.range' 0 items.length).map (placeName stem (isMultiple tree))).Nodup := by
  cases tree with
  | mapping entries =>
      -- A mapping is the only element.
      obtain rfl := Option.some.inj hitems
      exact List.nodup_singleton _
  | sequence own => exact List.Nodup.map (placeName_injective stem) List.nodup_range'
  | _ => exact absurd hitems (by simp only [documentElements, reduceCtorEq, not_false_eq_true])

/-- A loaded document was prepared element by element. -/
theorem loadDocument_parts {loaded : LoadOutcome}
    (hbare : ∀ item ∈ inputElements parse input, ∀ entries, item.asMapping = some entries →
      Bare entries)
    (hprint : ∀ item ∈ inputElements parse input, ∀ entries, item.asMapping = some entries →
      PrintsBack parse print (.mapping (candidateEntries false entries)))
    (h : (loadDocument parse print input stem matchBy).run = some (.ok loaded)) :
    ∃ tree items parts, parse input = .ok tree ∧ documentElements tree = some items ∧
      List.Forall₂ (LoadsAs matchBy) items parts ∧
        List.Forall₂ HasContentOf loaded.policies (parts.map Prod.fst) ∧
          loaded.warnings = parts.flatMap Prod.snd := by
  rw [loadDocument] at h
  rcases loading_bind_eq_ok.mp h with ⟨tree, htree, h⟩
  rw [loading_lift_eq_ok, mapError_eq_ok] at htree
  rcases loading_bind_eq_ok.mp h with ⟨mappings, hmappings, h⟩
  rw [loading_lift_eq_ok, topMappings_eq_ok] at hmappings
  rcases hmappings with ⟨items, hitems, hall⟩
  rw [inputElements_eq htree hitems] at hbare hprint
  have hread : List.Forall₂ (ReadBack parse print) items mappings := by
    refine forall₂_imp_mem hall fun item hitem entries _ hmapping => ?_
    exact ⟨hmapping, hbare item hitem entries hmapping, hprint item hitem entries hmapping⟩
  rcases loadMappings_parts hread h with ⟨parts, policies, hparts, hcarries, hpolicies, hwarnings⟩
  rw [List.nil_append] at hpolicies hwarnings
  rw [← hpolicies] at hcarries
  exact ⟨tree, items, parts, htree, hitems, hparts, hcarries, hwarnings⟩

/-- A document is loaded when every element is, behind its tags. -/
theorem loadDocument_iff
    (hbare : ∀ item ∈ inputElements parse input, ∀ entries, item.asMapping = some entries →
      Bare entries)
    (hprint : ∀ item ∈ inputElements parse input, ∀ entries, item.asMapping = some entries →
      PrintsBack parse print (.mapping (candidateEntries false entries))) :
    (∃ loaded, (loadDocument parse print input stem matchBy).run = some (.ok loaded)) ↔
      ∃ tree items, parse input = .ok tree ∧ documentElements tree = some items ∧
        ∀ item ∈ items, Loadable matchBy item := by
  constructor
  · rintro ⟨loaded, h⟩
    rcases loadDocument_parts hbare hprint h with ⟨tree, items, parts, htree, hitems, hparts, _⟩
    refine ⟨tree, items, htree, hitems, fun item hitem => ?_⟩
    rcases exists_of_forall₂ hparts hitem with ⟨part, _, hpart⟩
    exact loadable_iff.mpr ⟨part, hpart⟩
  · rintro ⟨tree, items, htree, hitems, hloadable⟩
    rw [inputElements_eq htree hitems] at hbare hprint
    rcases exists_forall₂_of_forall_mem fun item hitem => loadable_iff.mp (hloadable item hitem)
      with ⟨parts, hparts⟩
    -- Behind the tags of a loadable element there is a mapping.
    have hmapped : ∀ item ∈ items, ∃ entries, ReadBack parse print item entries := by
      intro item hitem
      rcases hloadable item hitem with ⟨_, ⟨entries, hmapping, _⟩, _⟩
      exact ⟨entries, hmapping, hbare item hitem entries hmapping,
        hprint item hitem entries hmapping⟩
    rcases exists_forall₂_of_forall_mem hmapped with ⟨mappings, hread⟩
    have htop := topMappings_eq_ok.mpr ⟨items, hitems, hread.imp fun _ _ h => h.1⟩
    have hnames := placeNames_nodup stem hitems
    rw [hread.length_eq] at hnames
    rcases loadMappings_isOk { policies := [], warnings := [] } hread hparts hnames with
      ⟨loaded, hloaded⟩
    refine ⟨loaded, ?_⟩
    rw [loadDocument]
    refine loading_bind_eq_ok.mpr ⟨tree, loading_lift_eq_ok.mpr (mapError_eq_ok.mpr htree), ?_⟩
    exact loading_bind_eq_ok.mpr ⟨mappings, loading_lift_eq_ok.mpr htop, hloaded⟩

/-- A document is read and prepared when every element is, with nothing tagged
    that the loader looks through. -/
theorem statePipeline_iff
    (hblank : ∀ tree, input.toList.all isWhitespace = true → parse input = .ok tree →
      documentElements tree = none)
    (hbare : ∀ item ∈ inputElements parse input, ∀ entries, item.asMapping = some entries →
      Bare entries) {prepared : ApplyOutcome} :
    statePipeline parse input matchBy = .ok prepared ↔
      ∃ tree items parts, parse input = .ok tree ∧ documentElements tree = some items ∧
        (∀ item ∈ items, Untagged item) ∧ List.Forall₂ (LoadsAs matchBy) items parts ∧
          prepared = { states := parts.map Prod.fst, warnings := parts.flatMap Prod.snd } := by
  rw [statePipeline, except_bind_eq_ok]
  constructor
  · rintro ⟨states, hstates, hprepared⟩
    rcases SchemaRegistry.fromYaml_eq_ok.mp hstates with ⟨_, tree, items, htree, hitems, hread⟩
    rcases SchemaRegistry.prepareForApply_iff.mp hprepared with ⟨parts, hparts, rfl⟩
    rw [inputElements_eq htree hitems] at hbare
    have hall := forall₂_imp_mem hread fun item hitem state _ h =>
      (readsElement_iff (hbare item hitem)).mp h
    refine ⟨tree, items, parts, htree, hitems, fun item hitem => ?_, ?_, rfl⟩
    · rcases exists_of_forall₂ hall hitem with ⟨_, _, huntagged, _⟩
      exact huntagged
    · exact forall₂_comp hall hparts fun item state part h hpart => ⟨state, h.2, hpart⟩
  · rintro ⟨tree, items, parts, htree, hitems, huntagged, hparts, rfl⟩
    rw [inputElements_eq htree hitems] at hbare
    rcases exists_between_forall₂ hparts with ⟨states, hkept, hprepares⟩
    have hread := forall₂_imp_mem hkept fun item hitem state _ h =>
      (readsElement_iff (hbare item hitem)).mpr ⟨huntagged item hitem, h⟩
    refine ⟨states, ?_, SchemaRegistry.prepareForApply_iff.mpr ⟨parts, hprepares, rfl⟩⟩
    refine SchemaRegistry.fromYaml_eq_ok.mpr ⟨?_, tree, items, htree, hitems, hread⟩
    -- Text without content holds no document.
    rw [Bool.eq_false_iff]
    intro hempty
    rw [hblank tree hempty htree] at hitems
    exact absurd hitems (by simp only [reduceCtorEq, not_false_eq_true])

theorem statePipeline_isOk_iff
    (hblank : ∀ tree, input.toList.all isWhitespace = true → parse input = .ok tree →
      documentElements tree = none)
    (hbare : ∀ item ∈ inputElements parse input, ∀ entries, item.asMapping = some entries →
      Bare entries) :
    (∃ prepared, statePipeline parse input matchBy = .ok prepared) ↔
      ∃ tree items, parse input = .ok tree ∧ documentElements tree = some items ∧
        ∀ item ∈ items, Untagged item ∧ Loadable matchBy item := by
  constructor
  · rintro ⟨prepared, h⟩
    rcases (statePipeline_iff hblank hbare).mp h with
      ⟨tree, items, parts, htree, hitems, huntagged, hparts, _⟩
    refine ⟨tree, items, htree, hitems, fun item hitem => ⟨huntagged item hitem, ?_⟩⟩
    rcases exists_of_forall₂ hparts hitem with ⟨part, _, hpart⟩
    exact loadable_iff.mpr ⟨part, hpart⟩
  · rintro ⟨tree, items, htree, hitems, hall⟩
    rcases exists_forall₂_of_forall_mem fun item hitem => loadable_iff.mp (hall item hitem).2
      with ⟨parts, hparts⟩
    exact ⟨_, (statePipeline_iff hblank hbare).mpr ⟨tree, items, parts, htree, hitems,
      fun item hitem => (hall item hitem).1, hparts, rfl⟩⟩

theorem exists_of_mem_inputElements {item : YamlValue} (h : item ∈ inputElements parse input) :
    ∃ tree, parse input = .ok tree ∧
      documentElements tree = some (inputElements parse input) := by
  unfold inputElements at h ⊢
  cases hparse : parse input with
  | error message =>
      rw [hparse] at h
      exact absurd h List.not_mem_nil
  | ok tree =>
      rw [hparse] at h
      dsimp only [Except.toOption, Option.bind_some] at h ⊢
      cases hitems : documentElements tree with
      | none =>
          rw [hitems] at h
          exact absurd h List.not_mem_nil
      | some items => exact ⟨tree, rfl, hitems⟩

/-- The loader agrees with the pipeline on a document of states exactly when
    nothing that it looks through is tagged, or some element is none that it
    would take. -/
theorem loadDocument_agrees_iff (stem : String) (matchBy : MatchBy)
    (hblank : ∀ tree, input.toList.all isWhitespace = true → parse input = .ok tree →
      documentElements tree = none)
    (hprint : ∀ item ∈ inputElements parse input, ∀ entries, item.asMapping = some entries →
      PrintsBack parse print (.mapping (candidateEntries false entries)))
    (hbare : ∀ item ∈ inputElements parse input, ∀ entries, item.asMapping = some entries →
      Bare entries) :
    AgreesOn parse print input stem matchBy ↔
      (∀ item ∈ inputElements parse input, Untagged item) ∨
        ∃ item ∈ inputElements parse input, ¬ Loadable matchBy item := by
  rw [AgreesOn, loadDocument_iff hbare hprint, statePipeline_isOk_iff hblank hbare]
  constructor
  · rintro ⟨hiff, _⟩
    by_cases hrefused : ∃ item ∈ inputElements parse input, ¬ Loadable matchBy item
    · exact Or.inr hrefused
    · -- The loader takes the document, so the pipeline does, and nothing is tagged.
      refine Or.inl fun item hitem => ?_
      rcases exists_of_mem_inputElements hitem with ⟨tree, htree, hitems⟩
      have hloadable : ∀ item ∈ inputElements parse input, Loadable matchBy item := by
        intro other hother
        by_contra hnot
        exact hrefused ⟨other, hother, hnot⟩
      rcases hiff.mp ⟨tree, _, htree, hitems, hloadable⟩ with ⟨tree', items, htree', hitems', hall⟩
      rw [inputElements_eq htree' hitems'] at hitem
      exact (hall item hitem).1
  · intro h
    refine ⟨⟨?_, ?_⟩, ?_⟩
    · rintro ⟨tree, items, htree, hitems, hloadable⟩
      rw [inputElements_eq htree hitems] at h
      rcases h with huntagged | ⟨item, hitem, hnot⟩
      · exact ⟨tree, items, htree, hitems,
          fun item hitem => ⟨huntagged item hitem, hloadable item hitem⟩⟩
      · exact absurd (hloadable item hitem) hnot
    · rintro ⟨tree, items, htree, hitems, hall⟩
      exact ⟨tree, items, htree, hitems, fun item hitem => (hall item hitem).2⟩
    · intro loaded prepared hloaded hprepared
      rcases loadDocument_parts hbare hprint hloaded with
        ⟨tree, items, parts, htree, hitems, hparts, hcarries, hwarnings⟩
      rcases (statePipeline_iff hblank hbare).mp hprepared with
        ⟨tree', items', parts', htree', hitems', _, hparts', rfl⟩
      obtain rfl := Except.ok.inj (htree.symm.trans htree')
      obtain rfl := Option.some.inj (hitems.symm.trans hitems')
      -- What an element is prepared to is determined.
      have hsame := List.right_unique_forall₂' (fun _ _ _ h h' => h.unique h') hparts hparts'
      rw [← hsame]
      exact ⟨hcarries, hwarnings⟩

end Document

/-- A device that is named and no more, and the tree with a tag. -/
def deviceTree : YamlValue := .mapping [(.string "name", .string "eth0")]

def taggedTree : YamlValue := .sequence [.tagged "device" deviceTree]

def deviceText : String := "name: eth0\n"

def taggedText : String := "- !device {name: eth0}\n"

/-- A reader and a printer that know these two texts. -/
def parseDevice (text : String) : Except String YamlValue :=
  if text = deviceText then .ok deviceTree
  else if text = taggedText then .ok taggedTree
  else .error "unexpected text"

def printDevice : YamlValue → Except String String
  | .mapping [(.string "name", .string "eth0")] => .ok deviceText
  | .sequence [.tagged "device" (.mapping [(.string "name", .string "eth0")])] => .ok taggedText
  | _ => .error "unexpected tree"

theorem parseDevice_printDevice (tree : YamlValue) (text : String)
    (h : printDevice tree = .ok text) : parseDevice text = .ok tree := by
  unfold printDevice at h
  split at h
  · obtain rfl := Except.ok.inj h
    rfl
  · obtain rfl := Except.ok.inj h
    rfl
  · exact absurd h (by simp only [reduceCtorEq, not_false_eq_true])

/-- The device is no policy, and what the loader keeps of it is printed. -/
theorem deviceTree_bare {item : YamlValue} (hitem : item.untag = deviceTree)
    (entries : List (YamlValue × YamlValue)) (h : item.asMapping = some entries) :
    Bare entries ∧
      PrintsBack parseDevice printDevice (.mapping (candidateEntries false entries)) := by
  rw [YamlValue.asMapping, hitem] at h
  obtain rfl := Option.some.inj h
  refine ⟨?_, deviceText, rfl, by decide, rfl⟩
  intro entry hmem
  obtain rfl := List.mem_singleton.mp hmem
  simp only [ne_eq, YamlValue.string.injEq, String.reduceEq, not_false_eq_true, false_imp_iff,
    and_self]

/-- A list of a state with a selector, which says that it is one, and a query
    result. -/
def statesText : String :=
  "- kind: state\n  match:\n    name: eth1\n  mtu: 1450\n" ++
    "- name: eth2\n  type: ethernet\n  mtu: 4000\n"

def statesTree : List YamlValue :=
  [.mapping [(.string "kind", .string "state"),
      (.string "match", .mapping [(.string "name", .string "eth1")]),
      (.string "mtu", .number (.unsigned 1450))],
    queriedTree]

/-- A reader that knows this text and what is printed of its elements. -/
def parseStates (text : String) : Except String YamlValue :=
  if text = statesText then .ok (.sequence statesTree) else parseSite text

/-- Both have no tag, are states, and are printed without their kind. -/
theorem statesTree_bare {item : YamlValue} (hitem : item ∈ statesTree) :
    Untagged item ∧ ∀ entries, item.asMapping = some entries → Bare entries ∧
      PrintsBack parseStates printSite (.mapping (candidateEntries false entries)) := by
  rcases List.mem_cons.mp hitem with rfl | hitem
  · refine ⟨⟨rfl, fun entries h => ?_⟩, fun entries h => ⟨?_, ?_⟩⟩
    · obtain rfl := Option.some.inj h
      simp [YamlValue.isTagged]
    · obtain rfl := Option.some.inj h
      simp [Bare]
    · obtain rfl := Option.some.inj h
      exact ⟨portText, rfl, by decide, rfl⟩
  · obtain rfl := List.mem_singleton.mp hitem
    refine ⟨⟨rfl, fun entries h => ?_⟩, fun entries h => ⟨?_, ?_⟩⟩
    · obtain rfl := Option.some.inj h
      simp [YamlValue.isTagged]
    · obtain rfl := Option.some.inj h
      simp [Bare]
    · obtain rfl := Option.some.inj h
      exact ⟨queriedText, rfl, by decide, rfl⟩

/-- Nothing in the list is tagged, so the loader agrees with the pipeline, and it
    takes both states. -/
theorem loadDocument_agrees_iff_states :
    (AgreesOn parseStates printSite statesText "site" .name ↔
      (∀ item ∈ inputElements parseStates statesText, Untagged item) ∨
        ∃ item ∈ inputElements parseStates statesText, ¬ Loadable .name item) ∧
    AgreesOn parseStates printSite statesText "site" .name ∧
    ∃ outcome, (loadDocument parseStates printSite statesText "site" .name).run =
        some (.ok outcome) ∧ outcome.policies.map Policy.name = ["site-1", "site-2"] := by
  have hiff : AgreesOn parseStates printSite statesText "site" .name ↔
      (∀ item ∈ inputElements parseStates statesText, Untagged item) ∨
        ∃ item ∈ inputElements parseStates statesText, ¬ Loadable .name item :=
    loadDocument_agrees_iff "site" .name (fun tree hblank => absurd hblank (by decide))
      (fun item hitem entries h => ((statesTree_bare hitem).2 entries h).2)
      (fun item hitem entries h => ((statesTree_bare hitem).2 entries h).1)
  exact ⟨hiff, hiff.mpr (Or.inl fun item hitem => (statesTree_bare hitem).1), _, rfl, rfl⟩

/-- The loader takes a tagged device that the pipeline refuses. -/
theorem loadDocument_disagrees :
    ¬ ∀ (parse : String → Except String YamlValue) (print : YamlValue → Except String String)
        (input stem : String) (matchBy : MatchBy),
        (∀ tree text, print tree = .ok text → parse text = .ok tree) →
        (∀ tree, input.toList.all isWhitespace = true → parse input = .ok tree →
          documentElements tree = none) →
        (∀ item ∈ inputElements parse input, ∀ entries, item.asMapping = some entries →
          PrintsBack parse print (.mapping (candidateEntries false entries))) →
        (∀ item ∈ inputElements parse input, ∀ entries, item.asMapping = some entries →
          Bare entries) →
        stem ≠ "" → AgreesOn parse print input stem matchBy := by
  intro h
  have hdevice : ∀ item ∈ inputElements parseDevice taggedText, item.untag = deviceTree := by
    intro item hitem
    obtain rfl := List.mem_singleton.mp hitem
    rfl
  have hagrees := h parseDevice printDevice taggedText "test" .name parseDevice_printDevice
    (fun tree hblank => absurd hblank (by decide))
    (fun item hitem entries h => (deviceTree_bare (hdevice item hitem) entries h).2)
    (fun item hitem entries h => (deviceTree_bare (hdevice item hitem) entries h).1) (by decide)
  have hloaded : (loadDocument parseDevice printDevice taggedText "test" .name).run =
      some (.ok { policies := [barePolicy "test-1"
        { State.new (.static "") with matchSpec := { name := some "eth0" } }], warnings := [] }) :=
    rfl
  have hrefused : statePipeline parseDevice taggedText .name =
      .error (.invalidTopLevel "list element 0 is a tagged value, not a mapping") := rfl
  -- What is loaded would have been prepared.
  rcases hagrees.1.mp ⟨_, hloaded⟩ with ⟨prepared, hprepared⟩
  rw [hrefused] at hprepared
  exact absurd hprepared (by simp only [reduceCtorEq, not_false_eq_true])

end Netfyr
