import Netfyr.Executor.Groups
import Netfyr.Executor.Verify

/-!
# Authority to Remove

What entitles the executor to remove or replace an address. The map of expected
groups is written in two places, by the first precondition of a group and by
every verified write in it, and read in a third. What an entry stands for is
therefore a fact about the rounds so far: which operation brought the group, and
which write in it was the last.

## Main definitions

* `Processes`: A round that processes a precondition for a group.
* `WritesGroup`: A round that ends in a verified write in a group.
* `Stands`: What an entry of the map stands for.

## Theorems

* `RoundAt.changesGroup`: What a round does to the map.
* `History.stands`: Every entry stands for what it should, in every run.
* `apply_authority`: No address is removed or replaced without authority.
-/

namespace Netfyr

open Interact

variable {diff : StateDiff} {namespaceId : NamespaceId} {index : Nat} {op : Operation}
  {key : GroupKey} {groups : Groups}

/-- A round processes a precondition for a group: its step gets to the group
    check on a located device, for an address of that group. -/
def Processes (namespaceId : NamespaceId) (op : Operation) (r : ExecRound) (key : GroupKey)
    (precondition : AddressGroupPrecondition) : Prop :=
  op.addressGroup = some precondition ∧
    ∃ observed rest observation s position device kind addr,
      r.calls = ⟨.cancelled, false⟩ :: (observed ++ rest) ∧
      decode op.kind .new = .ok (some kind) ∧ Observed r.before observed observation s ∧
      Located observation op.target namespaceId position device ∧
      kind.ipv4Address = some addr ∧ Reaches op device addr key

/-- A round ends in a verified write of an address in a group, `actual` being
    the device its last inventory shows. -/
def WritesGroup (namespaceId : NamespaceId) (op : Operation) (r : ExecRound) (key : GroupKey)
    (actual : DeviceObservation) : Prop :=
  r.outcome = .succeeded ∧ ∃ kind addr own after position,
    decode op.kind .new = .ok (some kind) ∧ kind.ipv4Address = some addr ∧
    GroupKey.new op addr = .ok key ∧ r.calls = own ++ [⟨.inventory, .ok after⟩] ∧
    Located after op.target namespaceId position actual

/-- What the map holds for a group once a round has made its check: what it held
    before, or the precondition the round processed. -/
def ChecksGroup (namespaceId : NamespaceId) (op : Operation) (r : ExecRound) (key : GroupKey)
    (held : Option ExpectedGroup) : Prop :=
  (held = r.before.groups key ∧
      (r.before.groups key = none → ∀ precondition,
        ¬ Processes namespaceId op r key precondition)) ∨
    (r.before.groups key = none ∧ ∃ precondition, Processes namespaceId op r key precondition ∧
      held = some precondition.expected)

/-- What is observed in a round is determined by its calls. -/
theorem Observed.unique {s s₁ s₂ : Execution} {t₁ t₂ r₁ r₂ : List IoEvent} {o₁ o₂ : Observation}
    (h₁ : Observed s t₁ o₁ s₁) (h₂ : Observed s t₂ o₂ s₂) (heq : t₁ ++ r₁ = t₂ ++ r₂) :
    o₁ = o₂ := by
  cases h₁ with
  | cached hc₁ =>
      cases h₂ with
      | cached hc₂ => exact Option.some.inj (hc₁.symm.trans hc₂)
      | fetched hc₂ => exact absurd (hc₁.symm.trans hc₂) (by simp)
  | fetched hc₁ =>
      cases h₂ with
      | cached hc₂ => exact absurd (hc₁.symm.trans hc₂) (by simp)
      | fetched hc₂ =>
          have hhead := (List.cons_eq_cons.mp heq).1
          simpa using hhead

/-- The check of a round changes the map as `ChecksGroup` says. -/
theorem Decided.checksGroup {r : ExecRound} {tr rest : List IoEvent}
    {decoded : Option OperationKind} {observation : Observation}
    {verdict : Except BackendError Verdict} {s₁ : Execution}
    (h : Decided diff namespaceId index op r.before tr decoded observation verdict groups s₁)
    (hcalls : r.calls = ⟨.cancelled, false⟩ :: (tr ++ rest)) :
    ChecksGroup namespaceId op r key (groups key) := by
  have hsame : s₁.groups = r.before.groups := by
    rcases h.observed with _ | _ <;> rfl
  have hchecked := check_groups h.checked
  rw [hsame] at hchecked
  -- Whatever the round is said to process, it processes what it decided on.
  have hdetermined : ∀ {precondition}, Processes namespaceId op r key precondition →
      ∃ position device kind addr, Located observation op.target namespaceId position device ∧
        decoded = some kind ∧ kind.ipv4Address = some addr ∧ Reaches op device addr key := by
    rintro precondition ⟨_, observed', rest', observation', s', position, device, kind, addr,
      hcalls', hdecode, hobserved, hlocated, haddr, hreaches⟩
    rw [hcalls] at hcalls'
    obtain rfl := h.observed.unique hobserved (List.cons_eq_cons.mp hcalls').2
    exact ⟨position, device, kind, addr, hlocated, Except.ok.inj (h.decode.symm.trans hdecode),
      haddr, hreaches⟩
  rcases hchecked with
    ⟨position, device, kind, addr, key', hlocated, rfl, haddr, hreaches, rfl⟩ | ⟨rfl, hnot⟩
  · by_cases hkey : key = key'
    · subst hkey
      rw [establish_same]
      cases hbefore : r.before.groups key with
      | some expected =>
          refine Or.inl ⟨by rw [hbefore]; rfl, fun hnone => ?_⟩
          exact absurd (hbefore.symm.trans hnone) (by simp)
      | none =>
          cases hgroup : op.addressGroup with
          | none =>
              refine Or.inl ⟨by rw [hbefore]; rfl, fun _ precondition hp => ?_⟩
              exact absurd (hgroup.symm.trans hp.1) (by simp)
          | some precondition =>
              have hprocesses : Processes namespaceId op r key precondition :=
                ⟨hgroup, tr, rest, observation, s₁, position, device, kind, addr, hcalls, h.decode,
                  h.observed, hlocated, haddr, hreaches⟩
              exact Or.inr ⟨hbefore, precondition, hprocesses, rfl⟩
    · refine Or.inl ⟨establish_of_ne hkey, fun _ precondition hp => ?_⟩
      rcases hdetermined hp with
        ⟨position', device', kind', addr', hlocated', hsome, haddr', hreaches'⟩
      obtain rfl := Option.some.inj hsome
      obtain rfl := Option.some.inj (haddr.symm.trans haddr')
      exact hkey (Except.ok.inj (hreaches'.isKey.symm.trans hreaches.isKey))
  · refine Or.inl ⟨rfl, fun _ precondition hp => ?_⟩
    rcases hdetermined hp with
      ⟨position', device', kind', addr', hlocated', hsome, haddr', hreaches'⟩
    exact hnot position' device' kind' addr' key hlocated' hsome haddr' hreaches'

/-- What a round makes of an entry: the check's, brought up to date when the
    round ends in a verified write in the group. -/
def ChangesGroup (namespaceId : NamespaceId) (op : Operation) (r : ExecRound) (key : GroupKey) :
    Prop :=
  ∃ held, ChecksGroup namespaceId op r key held ∧
    ((r.after.groups key = held ∧ ∀ actual, ¬ WritesGroup namespaceId op r key actual) ∨
      ∃ actual, WritesGroup namespaceId op r key actual ∧
        r.after.groups key = held.map fun _ =>
          { addresses := groupAddresses actual key, observedAt := actual.observedAt })

/-- A round that fails or is skipped writes in no group. -/
theorem not_writesGroup {r : ExecRound} (hout : r.outcome ≠ .succeeded)
    (actual : DeviceObservation) : ¬ WritesGroup namespaceId op r key actual :=
  fun h => hout h.1

/-- A write leaves the map to be brought up to date afterwards. -/
theorem Wrote.keepsGroups {s s' : Execution} {tr : List IoEvent} {device : DeviceObservation}
    {kind : OperationKind} {result : Except BackendError DeviceObservation}
    (h : Wrote diff namespaceId index op device kind s tr result s') :
    s'.groups = s.groups := by
  cases h <;> rfl

/-- A round that stops short of its check processes no precondition. -/
theorem not_processes_of_calls {r : ExecRound} {e : BackendError}
    (h : r.calls = [] ∨ r.calls = [⟨.cancelled, true⟩] ∨
      (decode op.kind .new = .error e) ∨
      (r.before.current = none ∧ r.calls = [⟨.cancelled, false⟩, ⟨.inventory, .error e⟩]))
    (precondition : AddressGroupPrecondition) :
    ¬ Processes namespaceId op r key precondition := by
  rintro ⟨_, observed, rest, observation, s, position, device, kind, addr, hcalls, hdecode,
    hobserved, _⟩
  rcases h with hnil | hcancelled | hundecoded | ⟨hnone, hfailed⟩
  · exact absurd (hnil.symm.trans hcalls) (by simp)
  · exact absurd (hcancelled.symm.trans hcalls) (by simp)
  · exact absurd (hundecoded.symm.trans hdecode) (by simp)
  · have heq := hfailed.symm.trans hcalls
    cases hobserved with
    | cached hc => exact absurd (hnone.symm.trans hc) (by simp)
    | fetched _ => exact absurd heq (by simp)

/-- What a written operation does to the map. -/
theorem changesGroup_written {r : ExecRound} {tr tw : List IoEvent}
    {decoded : Option OperationKind} {observation : Observation} {position : Nat}
    {device predicted : DeviceObservation} {kind : OperationKind} {s₁ s₂ : Execution}
    (hd : Decided diff namespaceId index op r.before tr decoded observation
      (.ok (.write position device kind)) groups s₁)
    (hw : Wrote diff namespaceId index op device kind { s₁ with groups } tw (.ok predicted) s₂)
    (hcalls : r.calls = ⟨.cancelled, false⟩ :: (tr ++ tw)) (hout : r.outcome = .succeeded)
    (hafter : r.after.groups = (s₂.committed op device kind predicted).groups) :
    ChangesGroup namespaceId op r key := by
  have hdecided := check_write hd.checked
  have hdecode : decode op.kind .new = .ok (some kind) := by rw [← hdecided.decoded, hd.decode]
  rcases hdecided.groupKey with ⟨writtenKey, hkey⟩
  refine ⟨groups key, hd.checksGroup hcalls, ?_⟩
  have hkeep : s₂.groups = groups := hw.keepsGroups
  rw [hafter]
  simp only [Execution.committed, hkey, hkeep]
  cases hw with
  | scalar hnone =>
      rw [groupKey, hnone] at hkey
      obtain rfl := Except.ok.inj hkey
      refine Or.inl ⟨rfl, ?_⟩
      rintro actual ⟨_, kind', addr, _, _, _, hdecode', haddr, _⟩
      obtain rfl := Option.some.inj (Except.ok.inj (hdecode.symm.trans hdecode'))
      exact absurd (hnone.symm.trans haddr) (by simp)
  | @verified now addr after _ haddr hverified =>
      rcases verifyObservation_eq_ok.mp hverified with
        ⟨position', key', members, hlocated, _, hkey', _⟩
      simp only [groupKey, haddr, hkey', Except.ok.injEq] at hkey
      subst hkey
      rw [updateGroups_apply]
      have hsplit : r.calls = (⟨.cancelled, false⟩ :: (tr ++ [⟨.cancelled, false⟩,
          ⟨.execute op.target kind, .ok ()⟩, ⟨.now, now⟩])) ++ [⟨.inventory, .ok after⟩] := by
        rw [hcalls, List.cons_append, List.append_assoc]
        rfl
      by_cases hsame : key = key'
      · subst hsame
        rw [if_pos rfl]
        exact Or.inr ⟨predicted, ⟨hout, kind, addr, _, after, position', hdecode, haddr, hkey',
          hsplit, hlocated⟩, rfl⟩
      · rw [if_neg hsame]
        refine Or.inl ⟨rfl, ?_⟩
        rintro actual ⟨_, kind', addr', _, _, _, hdecode', haddr', hkey'', _⟩
        obtain rfl := Option.some.inj (Except.ok.inj (hdecode.symm.trans hdecode'))
        obtain rfl := Option.some.inj (haddr.symm.trans haddr')
        exact hsame (Except.ok.inj (hkey''.symm.trans hkey'))

/-- What a round does to the map, when plans are applied. -/
theorem RoundAt.changesGroup {h : List ExecRound} {r : ExecRound}
    (hat : RoundAt diff false namespaceId h index op r) (key : GroupKey) :
    ChangesGroup namespaceId op r key := by
  have hran := hat.ran
  -- A round without a check leaves the entry, and processes nothing.
  have hunchecked : r.after.groups = r.before.groups → r.outcome ≠ .succeeded →
      (∀ precondition, ¬ Processes namespaceId op r key precondition) →
      ChangesGroup namespaceId op r key := by
    intro hkeep hout hnot
    exact ⟨_, Or.inl ⟨rfl, fun _ => hnot⟩, Or.inl ⟨congrFun hkeep key, not_writesGroup hout⟩⟩
  rcases r with ⟨s, calls, outcome, s'⟩
  cases hran with
  | malformed _ =>
      exact hunchecked rfl (by simp) (not_processes_of_calls (e := malformedError) (Or.inl rfl))
  | blocked _ _ _ =>
      exact hunchecked rfl (by simp) (not_processes_of_calls (e := malformedError) (Or.inl rfl))
  | @stepped _ result s₁ _ _ hstep =>
      have hstepped : Stepped diff false namespaceId index op s calls result s₁ := step_cases hstep
      cases hstepped with
      | cancelled =>
          exact hunchecked rfl (by simp)
            (not_processes_of_calls (e := malformedError) (Or.inr (Or.inl rfl)))
      | undecoded he =>
          exact hunchecked rfl (by simp) (not_processes_of_calls (Or.inr (Or.inr (Or.inl he))))
      | unobserved _ hnone =>
          exact hunchecked rfl (by simp)
            (not_processes_of_calls (Or.inr (Or.inr (Or.inr ⟨hnone, rfl⟩))))
      | @refused tr _ _ _ groups _ hd =>
          exact ⟨groups key, hd.checksGroup (by rw [List.append_nil]),
            Or.inl ⟨rfl, not_writesGroup (by simp)⟩⟩
      | @skipped tr _ _ _ groups _ hd =>
          exact ⟨groups key, hd.checksGroup (by rw [List.append_nil]),
            Or.inl ⟨rfl, not_writesGroup (by simp)⟩⟩
      | projected hmode _ => exact absurd hmode Bool.false_ne_true
      | @unwritten tr tw _ _ _ _ _ groups _ _ _ _ hd hw =>
          exact ⟨groups key, hd.checksGroup rfl,
            Or.inl ⟨congrFun hw.keepsGroups key, not_writesGroup (by simp)⟩⟩
      | written _ hd hw => exact changesGroup_written hd hw rfl rfl rfl

/-- Operation `j` of a history processed a precondition for a group. -/
def ProcessedAt (diff : StateDiff) (namespaceId : NamespaceId) (h : List ExecRound)
    (key : GroupKey) (j : Nat) (op : Operation) (precondition : AddressGroupPrecondition) : Prop :=
  diff.operations[j]? = some op ∧
    ∃ r, h[j]? = some r ∧ Processes namespaceId op r key precondition

/-- Operation `k` of a history ended in a verified write in a group. -/
def WrittenAt (diff : StateDiff) (namespaceId : NamespaceId) (h : List ExecRound)
    (key : GroupKey) (k : Nat) (actual : DeviceObservation) : Prop :=
  ∃ op r, diff.operations[k]? = some op ∧ h[k]? = some r ∧ WritesGroup namespaceId op r key actual

/-- Operation `j` was the first to process a precondition for a group. -/
def FirstProcessedAt (diff : StateDiff) (namespaceId : NamespaceId) (h : List ExecRound)
    (key : GroupKey) (j : Nat) (op : Operation) (precondition : AddressGroupPrecondition) : Prop :=
  ProcessedAt diff namespaceId h key j op precondition ∧
    ∀ i, i < j → ∀ op precondition, ¬ ProcessedAt diff namespaceId h key i op precondition

/-- What a group is known to be since operation `j` brought it: its precondition
    until a write in it was verified, and then what the last of these showed. -/
inductive LastKnown (diff : StateDiff) (namespaceId : NamespaceId) (h : List ExecRound)
    (key : GroupKey) (j : Nat) (precondition : AddressGroupPrecondition) :
    ExpectedGroup → Prop where
  | precondition : (∀ k, j ≤ k → ∀ actual, ¬ WrittenAt diff namespaceId h key k actual) →
      LastKnown diff namespaceId h key j precondition precondition.expected
  | written {k : Nat} {actual : DeviceObservation} : j ≤ k →
      WrittenAt diff namespaceId h key k actual →
      (∀ l, k < l → ∀ actual, ¬ WrittenAt diff namespaceId h key l actual) →
      LastKnown diff namespaceId h key j precondition
        { addresses := groupAddresses actual key, observedAt := actual.observedAt }

/-- What an entry of the map stands for, after a history. -/
def Stands (diff : StateDiff) (namespaceId : NamespaceId) (h : List ExecRound) (key : GroupKey) :
    Option ExpectedGroup → Prop
  | none => ∀ j op precondition, ¬ ProcessedAt diff namespaceId h key j op precondition
  | some group => ∃ j op precondition,
      FirstProcessedAt diff namespaceId h key j op precondition ∧
      LastKnown diff namespaceId h key j precondition group

section Extension

variable {h : List ExecRound} {r : ExecRound} {precondition : AddressGroupPrecondition}
  {actual : DeviceObservation}

theorem ProcessedAt.lt {j : Nat} (hp : ProcessedAt diff namespaceId h key j op precondition) :
    j < h.length := by
  rcases hp.2 with ⟨_, hround, _⟩
  exact (List.getElem?_eq_some_iff.mp hround).choose

theorem WrittenAt.lt {k : Nat} (hw : WrittenAt diff namespaceId h key k actual) :
    k < h.length := by
  rcases hw with ⟨_, _, _, hround, _⟩
  exact (List.getElem?_eq_some_iff.mp hround).choose

theorem getElem?_concat {j : Nat} {r' : ExecRound} : (h ++ [r])[j]? = some r' ↔
    h[j]? = some r' ∨ (j = h.length ∧ r' = r) := by
  by_cases hlt : j < h.length
  · rw [List.getElem?_append_left hlt]
    exact ⟨Or.inl, fun hor => hor.resolve_right fun heq => by omega⟩
  · rw [List.getElem?_append_right (by omega), List.getElem?_eq_none (l := h) (by omega)]
    by_cases heq : j = h.length
    · subst heq
      simp [eq_comm]
    · rw [List.getElem?_eq_none (by rw [List.length_singleton]; omega)]
      simp [heq]

/-- A further round adds what it processes. -/
theorem processedAt_concat {j : Nat} :
    ProcessedAt diff namespaceId (h ++ [r]) key j op precondition ↔
      ProcessedAt diff namespaceId h key j op precondition ∨
        (j = h.length ∧ diff.operations[j]? = some op ∧
          Processes namespaceId op r key precondition) := by
  constructor
  · rintro ⟨hop, r', hround, hp⟩
    rcases getElem?_concat.mp hround with hold | ⟨rfl, rfl⟩
    · exact Or.inl ⟨hop, r', hold, hp⟩
    · exact Or.inr ⟨rfl, hop, hp⟩
  · rintro (⟨hop, r', hround, hp⟩ | ⟨hj, hop, hp⟩)
    · exact ⟨hop, r', getElem?_concat.mpr (Or.inl hround), hp⟩
    · exact ⟨hop, r, getElem?_concat.mpr (Or.inr ⟨hj, rfl⟩), hp⟩

/-- A further round adds what it writes. -/
theorem writtenAt_concat {k : Nat} :
    WrittenAt diff namespaceId (h ++ [r]) key k actual ↔
      WrittenAt diff namespaceId h key k actual ∨
        (k = h.length ∧ ∃ op, diff.operations[k]? = some op ∧
          WritesGroup namespaceId op r key actual) := by
  constructor
  · rintro ⟨op, r', hop, hround, hw⟩
    rcases getElem?_concat.mp hround with hold | ⟨rfl, rfl⟩
    · exact Or.inl ⟨op, r', hop, hold, hw⟩
    · exact Or.inr ⟨rfl, op, hop, hw⟩
  · rintro (⟨op, r', hop, hround, hw⟩ | ⟨hk, op, hop, hw⟩)
    · exact ⟨op, r', hop, getElem?_concat.mpr (Or.inl hround), hw⟩
    · exact ⟨op, r, hop, getElem?_concat.mpr (Or.inr ⟨hk, rfl⟩), hw⟩

/-- A round that writes nothing in a group leaves what is known of it. -/
theorem LastKnown.concat {j : Nat} {group : ExpectedGroup}
    (hop : diff.operations[h.length]? = some op)
    (hquiet : ∀ actual, ¬ WritesGroup namespaceId op r key actual)
    (hlast : LastKnown diff namespaceId h key j precondition group) :
    LastKnown diff namespaceId (h ++ [r]) key j precondition group := by
  have hnew : ∀ {k actual}, WrittenAt diff namespaceId (h ++ [r]) key k actual →
      WrittenAt diff namespaceId h key k actual := by
    intro k actual hw
    rcases writtenAt_concat.mp hw with hold | ⟨rfl, op', hop', hwrites⟩
    · exact hold
    · obtain rfl := Option.some.inj (hop.symm.trans hop')
      exact absurd hwrites (hquiet actual)
  cases hlast with
  | precondition hnone =>
      exact .precondition fun k hle actual hw => hnone k hle actual (hnew hw)
  | written hle hw hlater =>
      exact .written hle (writtenAt_concat.mpr (Or.inl hw))
        fun l hlt actual hw' => hlater l hlt actual (hnew hw')

/-- What the check of a further round leaves in the map: nothing, if nothing was
    processed yet; else what was last known before, and the round's own
    precondition if it is the first. -/
theorem stands_checked {held : Option ExpectedGroup}
    (hop : diff.operations[h.length]? = some op)
    (hstands : Stands diff namespaceId h key (r.before.groups key))
    (hchecks : ChecksGroup namespaceId op r key held) :
    (held = none ∧ ∀ j op precondition,
        ¬ ProcessedAt diff namespaceId (h ++ [r]) key j op precondition) ∨
      ∃ j op precondition group, held = some group ∧ j ≤ h.length ∧
        FirstProcessedAt diff namespaceId (h ++ [r]) key j op precondition ∧
        LastKnown diff namespaceId h key j precondition group := by
  rcases hchecks with ⟨rfl, hnothing⟩ | ⟨hbefore, precondition, hp, rfl⟩
  · cases hbefore : r.before.groups key with
    | none =>
        rw [hbefore] at hstands
        refine Or.inl ⟨rfl, fun j op' precondition hp => ?_⟩
        rcases processedAt_concat.mp hp with hold | ⟨rfl, hop', hnew⟩
        · exact hstands j op' precondition hold
        · obtain rfl := Option.some.inj (hop.symm.trans hop')
          exact hnothing hbefore precondition hnew
    | some group =>
        rw [hbefore] at hstands
        rcases hstands with ⟨j, op', precondition, ⟨hp, hfirst⟩, hlast⟩
        refine Or.inr ⟨j, op', precondition, group, rfl, Nat.le_of_lt hp.lt,
          ⟨processedAt_concat.mpr (Or.inl hp), fun i hlt op'' precondition' hp' => ?_⟩, hlast⟩
        have hj := hp.lt
        rcases processedAt_concat.mp hp' with hold | ⟨rfl, _⟩
        · exact hfirst i hlt op'' precondition' hold
        · omega
  · rw [hbefore] at hstands
    refine Or.inr ⟨h.length, op, precondition, _, rfl, Nat.le_refl _,
      ⟨processedAt_concat.mpr (Or.inr ⟨rfl, hop, hp⟩), fun i hlt op' precondition' hp' => ?_⟩,
      .precondition fun k hle actual hw => absurd hw.lt (by omega)⟩
    rcases processedAt_concat.mp hp' with hold | ⟨rfl, _⟩
    · exact hstands i op' precondition' hold
    · omega

/-- A further round keeps every entry standing for what it should. -/
theorem stands_concat (hop : diff.operations[h.length]? = some op)
    (hstands : Stands diff namespaceId h key (r.before.groups key))
    (hchanges : ChangesGroup namespaceId op r key) :
    Stands diff namespaceId (h ++ [r]) key (r.after.groups key) := by
  rcases hchanges with ⟨held, hchecks, hwrites⟩
  rcases stands_checked hop hstands hchecks with
    ⟨rfl, hnothing⟩ | ⟨j, op', precondition, group, rfl, hle, hfirst, hlast⟩
  · rcases hwrites with ⟨hafter, _⟩ | ⟨actual, _, hafter⟩ <;> rw [hafter] <;> exact hnothing
  · rcases hwrites with ⟨hafter, hquiet⟩ | ⟨actual, hw, hafter⟩
    · rw [hafter]
      exact ⟨j, op', precondition, hfirst, hlast.concat hop hquiet⟩
    · rw [hafter]
      refine ⟨j, op', precondition, hfirst, .written hle
        (writtenAt_concat.mpr (Or.inr ⟨rfl, op, hop, hw⟩)) fun l hlt actual' hw' => ?_⟩
      have hl := hw'.lt
      rw [List.length_append, List.length_singleton] at hl
      omega

end Extension

/-- Every entry of the map stands for what it should, after every history. -/
theorem History.stands {h : List ExecRound} {s : Execution}
    (hr : History diff false namespaceId h s) (key : GroupKey) :
    Stands diff namespaceId h key (s.groups key) := by
  induction hr with
  | start => exact fun j op precondition hp => absurd hp.lt (by simp)
  | @round h s s' op tr outcome hr hop hrun ih =>
      have hat : RoundAt diff false namespaceId (h ++ [⟨s, tr, outcome, s'⟩]) h.length op
          ⟨s, tr, outcome, s'⟩ :=
        ⟨hop, getElem?_concat.mpr (Or.inr ⟨rfl, rfl⟩), by rwa [List.take_left],
          runOperation_cases hrun⟩
      exact stands_concat hop ih (hat.changesGroup key)

/-- What entitles operation `i` to remove or replace an address in a group that
    an inventory shows on `device`: the group as it was last known to be, since
    the first operation that processed a precondition for it. -/
def Authorised (diff : StateDiff) (namespaceId : NamespaceId) (h : List ExecRound) (i : Nat)
    (op : Operation) (key : GroupKey) (device : DeviceObservation) : Prop :=
  ∃ j opened precondition group, j ≤ i ∧
    FirstProcessedAt diff namespaceId h key j opened precondition ∧ opened.target = op.target ∧
    (∀ entry ∈ precondition.addresses, key.contains entry.address = true) ∧
    LastKnown diff namespaceId (h.take i) key j precondition group ∧
    List.Forall₂ (fun known seen =>
      addressMatches known seen (device.observedAt - group.observedAt) = true)
      group.addresses (groupAddresses device key)

/-- A removal or replacement is only written where the address is. -/
theorem hasAddress_of_unsatisfied {kind : OperationKind} {addr : Ipv4Address}
    {device : DeviceObservation} (hkind : kind = .removeIpv4 addr ∨ kind = .replaceIpv4 addr)
    (hunsat : satisfied kind device op = .ok false) :
    (kind.isDestructive && hasAddress device addr) = true := by
  rcases hkind with rfl | rfl
  · rw [satisfied, Except.ok.injEq, Bool.not_eq_false'] at hunsat
    rw [hunsat]
    rfl
  · cases hfind : device.addresses.find? fun entry => entry.address.sameIdentity addr with
    | none => simp [satisfied, hfind] at hunsat
    | some existing =>
        have hhas : hasAddress device addr = true := by
          rw [hasAddress, List.any_eq_true]
          have hid := List.find?_some hfind
          exact ⟨existing, List.mem_of_find?_eq_some hfind, hid⟩
        rw [hhas]
        rfl

/-- What was first processed in a part of a history was first processed in the
    whole. -/
theorem FirstProcessedAt.of_take {h : List ExecRound} {i j : Nat}
    {precondition : AddressGroupPrecondition}
    (hfirst : FirstProcessedAt diff namespaceId (h.take i) key j op precondition) :
    j < i ∧ FirstProcessedAt diff namespaceId h key j op precondition := by
  have hj : j < i := by
    have hlt := hfirst.1.lt
    rw [List.length_take] at hlt
    omega
  have hlookup : ∀ {k}, k < i → (h.take i)[k]? = h[k]? := fun hk => List.getElem?_take_of_lt hk
  refine ⟨hj, ?_, fun k hk op' precondition' hp => ?_⟩
  · rcases hfirst.1 with ⟨hop, r, hround, hp⟩
    exact ⟨hop, r, by rwa [hlookup hj] at hround, hp⟩
  · rcases hp with ⟨hop, r, hround, hp⟩
    exact hfirst.2 k hk op' precondition' ⟨hop, r, by rwa [hlookup (by omega)], hp⟩

/-- The operation that opened a group has the group's target, and its
    precondition lies in the group. -/
theorem ProcessedAt.inside {h : List ExecRound} {j : Nat} {precondition : AddressGroupPrecondition}
    (hp : ProcessedAt diff namespaceId h key j op precondition) : key.target = op.target ∧
      ∀ entry ∈ precondition.addresses, key.contains entry.address = true := by
  rcases hp with ⟨_, _, _, hgroup, _, _, _, _, _, _, _, _, _, _, _, _, _, hreaches⟩
  exact ⟨(GroupKey.contains_new hreaches.isKey).2, hreaches.inside precondition hgroup⟩

/-- A removal or replacement that is executed is authorised. -/
theorem RoundAt.authorised {h : List ExecRound} {r : ExecRound} {own rest observed : List IoEvent}
    {kind : OperationKind} {addr : Ipv4Address} {answer : Except BackendError Unit}
    {result : Except BackendError (Option SkipReason)} {s' s₁ s₂ : Execution}
    {observation : Observation} {position : Nat} {device : DeviceObservation}
    {written : Except BackendError DeviceObservation}
    (hat : RoundAt diff false namespaceId h index op r)
    (hcalls : r.calls = own ++ ⟨.execute op.target kind, answer⟩ :: rest)
    (hexecuted : Executed diff namespaceId index op r.before own kind answer rest result s' observed
      observation position device groups s₁ s₂ written)
    (hkind : kind = .removeIpv4 addr ∨ kind = .replaceIpv4 addr) :
    ∃ key, GroupKey.new op addr = .ok key ∧ device.addressesComplete = true ∧
      Authorised diff namespaceId h index op key device := by
  have hdecided := hexecuted.decision
  have haddr : kind.ipv4Address = some addr := by rcases hkind with rfl | rfl <;> rfl
  have hbefore : s₁.groups = r.before.groups := by
    rcases hexecuted.decided.observed with _ | _ <;> rfl
  rcases validateGroup_ok haddr hdecided.group with
    ⟨key, hreaches, rfl, ⟨group, hgroup, hmatch⟩ | ⟨_, hnot⟩⟩
  swap
  · rw [hasAddress_of_unsatisfied hkind hdecided.unsatisfied] at hnot
    exact absurd hnot (by decide)
  rw [hbefore, establish_same] at hgroup
  have htarget := (GroupKey.contains_new hreaches.isKey).2
  have hstands := hat.history.stands key
  rw [groupMatches_iff] at hmatch
  refine ⟨key, hreaches.isKey, hreaches.complete, ?_⟩
  cases hheld : r.before.groups key with
  | some known =>
      -- The group was brought by an earlier operation, and stands for that.
      rw [hheld] at hgroup hstands
      obtain rfl : known = group := Option.some.inj hgroup
      rcases hstands with ⟨j, opened, precondition, hfirst, hlast⟩
      rcases hfirst.of_take with ⟨hlt, hfirst'⟩
      rcases hfirst.1.inside with ⟨hopened, hinside⟩
      exact ⟨j, opened, precondition, known, Nat.le_of_lt hlt, hfirst', hopened.symm.trans htarget,
        hinside, hlast, hmatch⟩
  | none =>
      -- Nobody brought the group before, so this operation's precondition does.
      rw [hheld] at hgroup hstands
      rcases Option.map_eq_some_iff.mp hgroup with ⟨precondition, hprecondition, rfl⟩
      have hsplit : r.calls = ⟨.cancelled, false⟩ :: (observed ++ (⟨.cancelled, false⟩ ::
          ⟨.execute op.target kind, answer⟩ :: rest)) := by
        rw [hcalls, hexecuted.cut, List.cons_append, List.append_assoc]
        rfl
      have hprocesses : Processes namespaceId op r key precondition :=
        ⟨hprecondition, observed, _, observation, s₁, position, device, kind, addr, hsplit,
          hexecuted.decided.decode, hexecuted.decided.observed, hdecided.located, haddr, hreaches⟩
      have hlen : ∀ {k actual}, WrittenAt diff namespaceId (h.take index) key k actual →
          k < index := by
        intro k actual hw
        have hlt := hw.lt
        rw [List.length_take] at hlt
        omega
      refine ⟨index, op, precondition, _, Nat.le_refl _,
        ⟨⟨hat.operation, r, hat.round, hprocesses⟩, fun i hlt op' precondition' hp => ?_⟩, rfl,
        hreaches.inside precondition hprecondition,
        .precondition fun k hle actual hw => absurd (hlen hw) (by omega), hmatch⟩
      rcases hp with ⟨hop', r', hround', hp⟩
      exact hstands i op' precondition' ⟨hop', r', by rwa [List.getElem?_take_of_lt hlt], hp⟩

/-- No address is removed or replaced without authority: in every run, against
    any transport, the latest inventory shows the whole prefix group as the first
    precondition processed for it has it, or as the last verified write in it
    left it. -/
theorem apply_authority {tr : List IoEvent} {report : ApplyReport}
    (hrun : (applyPlan diff namespaceId).Runs tr report) :
    ∃ h, RunHistory diff false namespaceId tr report h ∧
      ∀ before target kind answer after addr,
        tr = before ++ ⟨.execute target kind, answer⟩ :: after →
        kind = .removeIpv4 addr ∨ kind = .replaceIpv4 addr →
        ∃ i op r own observation position device key,
          RoundAt diff false namespaceId h i op r ∧ before = callsOf (h.take i) ++ own ∧
          target = op.target ∧ view before = some observation ∧
          Located observation target namespaceId position device ∧
          GroupKey.new op addr = .ok key ∧ device.addressesComplete = true ∧
          Authorised diff namespaceId h i op key device := by
  rcases run_history hrun with ⟨h, hr⟩
  refine ⟨h, hr, fun before target kind answer after addr hsplit hkind => ?_⟩
  rcases hr.executed hsplit with ⟨_, i, op, r, own, rest, hat, rfl, _, hcalls, rfl, _, _, _, _,
    observed, observation, position, device, groups, s₁, s₂, written, hexecuted⟩
  have hview := hexecuted.view hat.history.current
  rcases hat.authorised hcalls hexecuted hkind with ⟨key, hkey, hcomplete, hauthorised⟩
  exact ⟨i, op, r, own, observation, position, device, key, hat, rfl, rfl, hview,
    hexecuted.decision.located, hkey, hcomplete, hauthorised⟩

/-- The plan that removes it, with its group as a precondition. -/
def removalPlan : StateDiff :=
  { changes := []
    operations := [
      { target := eth0
        kind := .removeIpv4 primary.address
        dependsOn := []
        addressGroup := some { addresses := [primary], observedAt := 0 } }]
    diagnostics := [] }

theorem apply_authority_removal : ∃ tr report h op key device,
    (applyPlan removalPlan eth0.namespaceId).Runs tr report ∧ 0 < tr.countP isExecute ∧
      Authorised removalPlan eth0.namespaceId h 0 op key device := by
  rcases run_executes removalPlan false eth0.namespaceId (idealTransport 0)
      ⟨[eth0Device [primary]], []⟩ with
    ⟨report, final, tr, hx, hrun, _⟩
  have hcalls : ((run removalPlan false eth0.namespaceId).exec (idealTransport 0)
      ⟨[eth0Device [primary]], []⟩).map (fun out => out.2.2.map Sigma.fst) =
        some [.cancelled, .inventory, .cancelled, .execute eth0 (.removeIpv4 primary.address), .now,
          .inventory] := by decide
  rw [hx, Option.map_some, Option.some.injEq] at hcalls
  have hmem : IoCall.execute eth0 (.removeIpv4 primary.address) ∈ tr.map Sigma.fst := by
    rw [hcalls]
    decide
  rcases List.mem_map.mp hmem with ⟨⟨call, answer⟩, hmem, rfl⟩
  rcases List.append_of_mem hmem with ⟨before, after, hsplit⟩
  rcases apply_authority hrun with ⟨h, _, hall⟩
  rcases hall before eth0 _ answer after _ hsplit (Or.inl rfl) with
    ⟨i, op, r, _, _, _, device, key, hat, _, _, _, _, _, _, hauthorised⟩
  have hi : i < 1 := (List.getElem?_eq_some_iff.mp hat.operation).choose
  obtain rfl : i = 0 := by omega
  exact ⟨tr, report, h, op, key, device, hrun, List.countP_pos_iff.mpr ⟨_, hmem, rfl⟩, hauthorised⟩

end Netfyr
