import Netfyr.Executor.Run

/-!
# How a Step Can Go

The inversion of the executor's procedures: every run of a step is one of a few
kinds, each with its calls, its result and the state it leaves. Nothing after
this module unfolds a procedure; an invariant of the executor is a case analysis
over `Stepped` and `Wrote`.

The relations mirror the procedures. `Observed` is `observe` when it succeeds,
`Decided` what a step knows once `check` has answered, `Wrote` is
`performWrite`, and `Stepped` is `step`.

## Main definitions

* `Observed`, `Decided`: What happens before a write.
* `Wrote`: How a write can go.
* `Stepped`: How a step can go.

## Theorems

* `check_write`: What a decision to write is made on.
* `step_cases`: Every run of a step is one of `Stepped`.
-/

namespace Netfyr

open Interact

/-- The device a write is predicted to leave. -/
def predict (device : DeviceObservation) (kind : OperationKind) (now : Instant) :
    DeviceObservation :=
  project (rebaseLifetimes device now) kind

/-- Observing succeeded: the cached observation was used, or a new one taken. -/
inductive Observed (s : Execution) : List IoEvent → Observation → Execution → Prop where
  | cached {observation : Observation} : s.current = some observation →
      Observed s [] observation s
  | fetched {observation : Observation} : s.current = none →
      Observed s [⟨.inventory, .ok observation⟩] observation
        { s.absorb observation with current := some observation }

/-- How a write can go: the calls, the device it left or the error, the state. -/
inductive Wrote (diff : StateDiff) (namespaceId : NamespaceId) (index : Nat) (op : Operation)
    (device : DeviceObservation) (kind : OperationKind) (s : Execution) :
    List IoEvent → Except BackendError DeviceObservation → Execution → Prop where
  | stopped : Wrote diff namespaceId index op device kind s [⟨.cancelled, true⟩]
      (.error (cancelledError "plan execution cancelled before write")) s
  | rejected {e : BackendError} : Wrote diff namespaceId index op device kind s
      [⟨.cancelled, false⟩, ⟨.execute op.target kind, .error e⟩] (.error e)
      { s with current := none }
  | scalar {now : Instant} : kind.ipv4Address = none →
      Wrote diff namespaceId index op device kind s
        [⟨.cancelled, false⟩, ⟨.execute op.target kind, .ok ()⟩, ⟨.now, now⟩]
        (.ok (predict device kind now)) { s with current := none }
  | unobserved {now : Instant} {addr : Ipv4Address} {e : BackendError} :
      kind.ipv4Address = some addr →
      Wrote diff namespaceId index op device kind s
        [⟨.cancelled, false⟩, ⟨.execute op.target kind, .ok ()⟩, ⟨.now, now⟩,
          ⟨.inventory, .error e⟩]
        (.error (unconfirmed "write acknowledged but not re-observed" e))
        { s with current := none }
  | misverified {now : Instant} {addr : Ipv4Address} {after : Observation} {e : BackendError} :
      kind.ipv4Address = some addr →
      verifyObservation diff namespaceId index op kind addr (predict device kind now) after
        s.eligible = some (.error e) →
      Wrote diff namespaceId index op device kind s
        [⟨.cancelled, false⟩, ⟨.execute op.target kind, .ok ()⟩, ⟨.now, now⟩,
          ⟨.inventory, .ok after⟩]
        (.error e) ({ s with current := none }.absorb after)
  | verified {now : Instant} {addr : Ipv4Address} {after : Observation}
      {actual : DeviceObservation} :
      kind.ipv4Address = some addr →
      verifyObservation diff namespaceId index op kind addr (predict device kind now) after
        s.eligible = some (.ok actual) →
      Wrote diff namespaceId index op device kind s
        [⟨.cancelled, false⟩, ⟨.execute op.target kind, .ok ()⟩, ⟨.now, now⟩,
          ⟨.inventory, .ok after⟩]
        (.ok actual) { s.absorb after with current := some after }

/-- What a step knows once it has decided: the kind it decoded, the observation
    it decided on, and the verdict with the groups. -/
structure Decided (diff : StateDiff) (namespaceId : NamespaceId) (index : Nat) (op : Operation)
    (s : Execution) (tr : List IoEvent) (decoded : Option OperationKind)
    (observation : Observation) (verdict : Except BackendError Verdict) (groups : Groups)
    (s₁ : Execution) : Prop where
  decode : decode op.kind .new = .ok decoded
  observed : Observed s tr observation s₁
  checked : check diff namespaceId index op decoded observation s₁.groups s₁.eligible =
    some (verdict, groups)

/-- The state after a write has been accounted for. -/
def Execution.committed (self : Execution) (op : Operation) (device : DeviceObservation)
    (kind : OperationKind) (predicted : DeviceObservation) : Execution :=
  { self with
    diagnostics := self.diagnostics ++ (collateral device kind).toList
    groups := match groupKey op kind with
      | .ok key => updateGroups self.groups key predicted
      | .error _ => self.groups }

/-- The state after a write has been projected onto the cached observation. -/
def Execution.projected (self : Execution) (position : Nat) (predicted : DeviceObservation) :
    Execution :=
  { self with current := self.current.map fun observation =>
      { observation with devices := observation.devices.set position predicted } }

/-- How a step can go: the calls, the result, the state. -/
inductive Stepped (diff : StateDiff) (preview : Bool) (namespaceId : NamespaceId) (index : Nat)
    (op : Operation) (s : Execution) :
    List IoEvent → Except BackendError (Option SkipReason) → Execution → Prop where
  | cancelled : Stepped diff preview namespaceId index op s [⟨.cancelled, true⟩]
      (.error (cancelledError "plan execution cancelled; earlier writes may have applied")) s
  | undecoded {e : BackendError} : decode op.kind .new = .error e →
      Stepped diff preview namespaceId index op s [⟨.cancelled, false⟩] (.error e) s
  | unobserved {decoded : Option OperationKind} {e : BackendError} :
      decode op.kind .new = .ok decoded → s.current = none →
      Stepped diff preview namespaceId index op s
        [⟨.cancelled, false⟩, ⟨.inventory, .error e⟩] (.error e) s
  | refused {tr : List IoEvent} {decoded : Option OperationKind} {observation : Observation}
      {e : BackendError} {groups : Groups} {s₁ : Execution} :
      Decided diff namespaceId index op s tr decoded observation (.error e) groups s₁ →
      Stepped diff preview namespaceId index op s (⟨.cancelled, false⟩ :: tr) (.error e)
        { s₁ with groups }
  | skipped {tr : List IoEvent} {decoded : Option OperationKind} {observation : Observation}
      {reason : SkipReason} {groups : Groups} {s₁ : Execution} :
      Decided diff namespaceId index op s tr decoded observation (.ok (.skip reason)) groups s₁ →
      Stepped diff preview namespaceId index op s (⟨.cancelled, false⟩ :: tr)
        (.ok (some reason)) { s₁ with groups }
  | projected {tr : List IoEvent} {decoded : Option OperationKind} {observation : Observation}
      {position : Nat} {device : DeviceObservation} {kind : OperationKind} {groups : Groups}
      {s₁ : Execution} {now : Instant} :
      preview = true →
      Decided diff namespaceId index op s tr decoded observation
        (.ok (.write position device kind)) groups s₁ →
      Stepped diff preview namespaceId index op s
        (⟨.cancelled, false⟩ :: (tr ++ [⟨.now, now⟩])) (.ok none)
        (({ s₁ with groups }.projected position (predict device kind now)).committed op device
          kind (predict device kind now))
  | unwritten {tr tw : List IoEvent} {decoded : Option OperationKind} {observation : Observation}
      {position : Nat} {device : DeviceObservation} {kind : OperationKind} {groups : Groups}
      {s₁ s₂ : Execution} {e : BackendError} :
      preview = false →
      Decided diff namespaceId index op s tr decoded observation
        (.ok (.write position device kind)) groups s₁ →
      Wrote diff namespaceId index op device kind { s₁ with groups } tw (.error e) s₂ →
      Stepped diff preview namespaceId index op s (⟨.cancelled, false⟩ :: (tr ++ tw)) (.error e)
        s₂
  | written {tr tw : List IoEvent} {decoded : Option OperationKind} {observation : Observation}
      {position : Nat} {device predicted : DeviceObservation} {kind : OperationKind}
      {groups : Groups} {s₁ s₂ : Execution} :
      preview = false →
      Decided diff namespaceId index op s tr decoded observation
        (.ok (.write position device kind)) groups s₁ →
      Wrote diff namespaceId index op device kind { s₁ with groups } tw (.ok predicted) s₂ →
      Stepped diff preview namespaceId index op s (⟨.cancelled, false⟩ :: (tr ++ tw)) (.ok none)
        (s₂.committed op device kind predicted)

/-- A decision to write is made on a located device that passed every check. -/
structure DecidedWrite (diff : StateDiff) (namespaceId : NamespaceId) (index : Nat)
    (op : Operation) (decoded : Option OperationKind) (observation : Observation)
    (groups groups' : Groups) (eligible : List Bool) (position : Nat)
    (device : DeviceObservation) (kind : OperationKind) : Prop where
  decoded : decoded = some kind
  located : Located observation op.target namespaceId position device
  group : validateGroup op device kind groups = (.ok (), groups')
  unsatisfied : satisfied kind device op = .ok false
  cascade : checkCascade diff index device kind eligible = some (.ok ())

/-- What a decision to write is made on. -/
theorem check_write {diff : StateDiff} {namespaceId : NamespaceId} {index : Nat} {op : Operation}
    {decoded : Option OperationKind} {observation : Observation} {groups groups' : Groups}
    {eligible : List Bool} {position : Nat} {device : DeviceObservation} {kind : OperationKind}
    (h : check diff namespaceId index op decoded observation groups eligible =
      some (.ok (.write position device kind), groups')) :
    DecidedWrite diff namespaceId index op decoded observation groups groups' eligible position
      device kind := by
  -- The checks of the source in their order; each refusal ends with an error.
  unfold check at h
  split at h
  · exact absurd h (by simp)
  · next found hloc =>
      rcases locate_eq_ok.mp hloc with ⟨target, hlocated⟩
      simp only [hlocated.atPosition] at h
      split at h
      · exact absurd h (by simp)
      · next decodedKind =>
          split at h
          · exact absurd h (by simp)
          · next groups₁ hgroup =>
              split at h
              · exact absurd h (by simp)
              · exact absurd h (by simp)
              · next hsat =>
                  split at h
                  · exact absurd h (by simp)
                  · exact absurd h (by simp)
                  · next hcascade =>
                      simp only [Option.some.injEq, Prod.mk.injEq, Except.ok.injEq,
                        Verdict.write.injEq] at h
                      rcases h with ⟨⟨rfl, rfl, rfl⟩, rfl⟩
                      exact ⟨rfl, hlocated, hgroup, hsat, hcascade⟩

/-- What a decision to skip is made on: a located device, and an assignment of a
    read-only field or an operation with nothing to do. -/
theorem check_skip {diff : StateDiff} {namespaceId : NamespaceId} {index : Nat} {op : Operation}
    {decoded : Option OperationKind} {observation : Observation} {groups groups' : Groups}
    {eligible : List Bool} {reason : SkipReason}
    (h : check diff namespaceId index op decoded observation groups eligible =
      some (.ok (.skip reason), groups')) :
    ∃ position device, Located observation op.target namespaceId position device ∧
      ((decoded = none ∧ reason = .readOnly) ∨
        ∃ kind, decoded = some kind ∧ reason = .alreadySatisfied ∧
          satisfied kind device op = .ok true) := by
  unfold check at h
  split at h
  · exact absurd h (by simp)
  · next found hloc =>
      rcases locate_eq_ok.mp hloc with ⟨device, hlocated⟩
      simp only [hlocated.atPosition] at h
      refine ⟨found, device, hlocated, ?_⟩
      split at h
      · simp only [Option.some.injEq, Prod.mk.injEq, Except.ok.injEq, Verdict.skip.injEq] at h
        exact Or.inl ⟨rfl, h.1.symm⟩
      · next kind =>
          split at h
          · exact absurd h (by simp)
          · split at h
            · exact absurd h (by simp)
            · next hsatisfied =>
                simp only [Option.some.injEq, Prod.mk.injEq, Except.ok.injEq,
                  Verdict.skip.injEq] at h
                exact Or.inr ⟨kind, rfl, h.1.symm, hsatisfied⟩
            · split at h
              · exact absurd h (by simp)
              · exact absurd h (by simp)
              · exact absurd h (by simp)

/-- A run of `observe` finds an observation, or fails in the inventory. -/
theorem observe_cases {s s' : Execution} {tr : List IoEvent} {r : Except BackendError Observation}
    (h : observe.Runs s tr r s') :
    (∃ observation, r = .ok observation ∧ Observed s tr observation s') ∨
      ∃ e, r = .error e ∧ s.current = none ∧ tr = [⟨.inventory, .error e⟩] ∧ s' = s := by
  unfold observe at h
  rw [Action.runs_get_bind] at h
  cases hc : s.current with
  | some observation =>
      simp only [hc] at h
      rcases Action.runs_pure.mp h with ⟨rfl, rfl, rfl⟩
      exact Or.inl ⟨observation, rfl, .cached hc⟩
  | none =>
      simp only [hc] at h
      rcases Action.runs_perform_bind.mp h with ⟨answer, rest, rfl, h₁⟩
      rcases Action.runs_ofExcept_bind.mp h₁ with ⟨e, rfl, rfl, rfl, rfl⟩ | ⟨observation, rfl, h₂⟩
      · exact Or.inr ⟨e, rfl, rfl, rfl, rfl⟩
      · rw [Action.runs_modify_bind] at h₂
        rcases Action.runs_pure.mp h₂ with ⟨rfl, rfl, rfl⟩
        exact Or.inl ⟨observation, rfl, .fetched hc⟩

/-- A run of the verification ends as the observation after the write tells. -/
theorem verifyAddressWrite_cases {diff : StateDiff} {namespaceId : NamespaceId} {index : Nat}
    {op : Operation} {kind : OperationKind} {addr : Ipv4Address} {predicted : DeviceObservation}
    {s s' : Execution} {tr : List IoEvent} {r : Except BackendError DeviceObservation}
    (h : (verifyAddressWrite diff namespaceId index op kind addr predicted).Runs s tr r s') :
    (∃ e, tr = [⟨.inventory, .error e⟩] ∧ s' = s ∧
        r = .error (unconfirmed "write acknowledged but not re-observed" e)) ∨
      ∃ after verified, tr = [⟨.inventory, .ok after⟩] ∧ r = verified ∧
        verifyObservation diff namespaceId index op kind addr predicted after s.eligible =
          some verified ∧
        ((∃ e, verified = .error e ∧ s' = s.absorb after) ∨
          ∃ actual, verified = .ok actual ∧
            s' = { s.absorb after with current := some after }) := by
  unfold verifyAddressWrite at h
  rcases Action.runs_perform_bind.mp h with ⟨answer, rest, rfl, h₁⟩
  rcases Action.runs_ofExcept_bind.mp h₁ with ⟨e, he, rfl, rfl, rfl⟩ | ⟨after, hafter, h₂⟩
  · rcases answer with e' | after
    · obtain rfl := Except.error.inj he
      exact Or.inl ⟨e', rfl, rfl, rfl⟩
    · exact absurd he (by simp only [Except.mapError, reduceCtorEq, not_false_eq_true])
  · -- Only the message of an error is changed, so the answer itself was fine.
    obtain rfl : answer = .ok after := mapError_eq_ok.mp hafter
    rw [Action.runs_modify_bind, Action.runs_get_bind] at h₂
    rcases Action.runs_ofOption_bind.mp h₂ with ⟨verified, hverified, h₃⟩
    rcases Action.runs_ofExcept_bind.mp h₃ with ⟨e, rfl, rfl, rfl, rfl⟩ | ⟨actual, rfl, h₄⟩
    · exact Or.inr ⟨after, .error e, rfl, rfl, hverified, Or.inl ⟨e, rfl, rfl⟩⟩
    · rw [Action.runs_modify_bind] at h₄
      rcases Action.runs_pure.mp h₄ with ⟨rfl, rfl, rfl⟩
      exact Or.inr ⟨after, .ok actual, rfl, rfl, hverified, Or.inr ⟨actual, rfl, rfl⟩⟩

/-- Every run of `performWrite` is one of `Wrote`. -/
theorem performWrite_cases {diff : StateDiff} {namespaceId : NamespaceId} {index : Nat}
    {op : Operation} {device : DeviceObservation} {kind : OperationKind} {s s' : Execution}
    {tr : List IoEvent} {r : Except BackendError DeviceObservation}
    (h : (performWrite diff namespaceId index op device kind).Runs s tr r s') :
    Wrote diff namespaceId index op device kind s tr r s' := by
  unfold performWrite at h
  rcases Action.runs_perform_bind.mp h with ⟨cancelled, rest, rfl, h₁⟩
  rcases Action.runs_failWhen_bind.mp h₁ with ⟨hc, rfl, rfl, rfl⟩ | ⟨hc, h₂⟩
  · obtain rfl : cancelled = true := hc
    exact .stopped
  · obtain rfl : cancelled = false := hc
    rw [Action.runs_modify_bind] at h₂
    rcases Action.runs_perform_bind.mp h₂ with ⟨answer, rest, rfl, h₃⟩
    rcases Action.runs_ofExcept_bind.mp h₃ with ⟨e, rfl, rfl, rfl, rfl⟩ | ⟨⟨⟩, rfl, h₄⟩
    · exact .rejected
    · rcases Action.runs_perform_bind.mp h₄ with ⟨now, rest, rfl, h₅⟩
      cases haddr : kind.ipv4Address with
      | none =>
          simp only [haddr] at h₅
          rcases Action.runs_pure.mp h₅ with ⟨rfl, rfl, rfl⟩
          exact .scalar haddr
      | some addr =>
          simp only [haddr] at h₅
          rcases verifyAddressWrite_cases h₅ with ⟨e, rfl, rfl, rfl⟩ |
            ⟨after, verified, rfl, rfl, hverified, ⟨e, rfl, rfl⟩ | ⟨actual, rfl, rfl⟩⟩
          · exact .unobserved haddr
          · exact .misverified haddr hverified
          · exact .verified haddr hverified

/-- A write is projected in a preview and performed otherwise. -/
theorem carryOut_cases {diff : StateDiff} {preview : Bool} {namespaceId : NamespaceId}
    {index : Nat} {op : Operation} {position : Nat} {device : DeviceObservation}
    {kind : OperationKind} {s s' : Execution} {tr : List IoEvent}
    {r : Except BackendError DeviceObservation}
    (h : (carryOut diff preview namespaceId index op position device kind).Runs s tr r s') :
    (preview = true ∧ ∃ now, tr = [⟨.now, now⟩] ∧ r = .ok (predict device kind now) ∧
        s' = s.projected position (predict device kind now)) ∨
      (preview = false ∧ Wrote diff namespaceId index op device kind s tr r s') := by
  unfold carryOut at h
  cases preview with
  | true =>
      rw [if_pos rfl] at h
      unfold previewWrite at h
      rcases Action.runs_perform_bind.mp h with ⟨now, rest, rfl, h₁⟩
      rw [Action.runs_modify_bind] at h₁
      rcases Action.runs_pure.mp h₁ with ⟨rfl, rfl, rfl⟩
      exact Or.inl ⟨rfl, now, rfl, rfl, rfl⟩
  | false =>
      rw [if_neg (by decide)] at h
      exact Or.inr ⟨rfl, performWrite_cases h⟩

/-- After a decision to write, the group of the write is known. -/
theorem DecidedWrite.groupKey {diff : StateDiff} {namespaceId : NamespaceId} {index : Nat}
    {op : Operation} {decoded : Option OperationKind} {observation : Observation}
    {groups groups' : Groups} {eligible : List Bool} {position : Nat} {device : DeviceObservation}
    {kind : OperationKind}
    (h : DecidedWrite diff namespaceId index op decoded observation groups groups' eligible position
      device kind) : ∃ key, Netfyr.groupKey op kind = .ok key := by
  have hgroup := h.group
  -- `validateGroup` computes the same group before it looks at it.
  unfold validateGroup at hgroup
  unfold Netfyr.groupKey
  cases haddr : kind.ipv4Address with
  | none => exact ⟨none, rfl⟩
  | some addr =>
      simp only [haddr] at hgroup ⊢
      split at hgroup
      · exact absurd hgroup (by simp)
      · cases hkey : GroupKey.new op addr with
        | error e => simp [hkey] at hgroup
        | ok key => exact ⟨some key, rfl⟩

/-- Accounting for a write cannot fail once its group is known. -/
theorem commit_cases {op : Operation} {device predicted : DeviceObservation} {kind : OperationKind}
    {s s' : Execution} {tr : List IoEvent} {r : Except BackendError Unit}
    {key : Option GroupKey} (hkey : groupKey op kind = .ok key)
    (h : (commit op device kind predicted).Runs s tr r s') :
    tr = [] ∧ r = .ok () ∧ s' = s.committed op device kind predicted := by
  unfold commit at h
  rw [Action.runs_modify_bind, hkey] at h
  rcases Action.runs_ofExcept_bind.mp h with ⟨e, he, _⟩ | ⟨key', hk, h⟩
  · exact absurd he (by simp only [reduceCtorEq, not_false_eq_true])
  · obtain rfl := Except.ok.inj hk
    rcases Action.runs_modify.mp h with ⟨rfl, rfl, rfl⟩
    refine ⟨rfl, rfl, ?_⟩
    unfold Execution.committed
    rw [hkey]

/-- Every run of a step is one of `Stepped`. -/
theorem step_cases {diff : StateDiff} {preview : Bool} {namespaceId : NamespaceId} {index : Nat}
    {op : Operation} {s s' : Execution} {tr : List IoEvent}
    {r : Except BackendError (Option SkipReason)}
    (h : (step diff preview namespaceId index op).Runs s tr r s') :
    Stepped diff preview namespaceId index op s tr r s' := by
  unfold step at h
  rcases Action.runs_perform_bind.mp h with ⟨cancelled, rest, rfl, h₁⟩
  rcases Action.runs_failWhen_bind.mp h₁ with ⟨hc, rfl, rfl, rfl⟩ | ⟨hc, h₂⟩
  · obtain rfl : cancelled = true := hc
    exact .cancelled
  obtain rfl : cancelled = false := hc
  rcases Action.runs_ofExcept_bind.mp h₂ with ⟨e, he, rfl, rfl, rfl⟩ | ⟨decoded, hdecoded, h₃⟩
  · exact .undecoded he
  rcases Action.runs_bind.mp h₃ with
    ⟨e, rfl, hobserve⟩ | ⟨observation, s₁, t₁, t₂, rfl, hobserve, h₄⟩
  · rcases observe_cases hobserve with ⟨_, habs, _⟩ | ⟨e', he, hcur, rfl, rfl⟩
    · exact absurd habs (by simp only [reduceCtorEq, not_false_eq_true])
    · obtain rfl := Except.error.inj he
      exact .unobserved hdecoded hcur
  rcases observe_cases hobserve with ⟨_, hok, hobserved⟩ | ⟨_, habs, _⟩
  swap
  · exact absurd habs (by simp only [reduceCtorEq, not_false_eq_true])
  obtain rfl := Except.ok.inj hok
  rw [Action.runs_get_bind] at h₄
  rcases Action.runs_ofOption_bind.mp h₄ with ⟨⟨verdict, groups⟩, hchecked, h₅⟩
  rw [Action.runs_modify_bind] at h₅
  have hdecided : Decided diff namespaceId index op s t₁ decoded observation verdict groups s₁ :=
    ⟨hdecoded, hobserved, hchecked⟩
  rcases Action.runs_ofExcept_bind.mp h₅ with ⟨e, rfl, rfl, rfl, rfl⟩ | ⟨verdict, rfl, h₆⟩
  · rw [List.append_nil]
    exact .refused hdecided
  cases verdict with
  | skip reason =>
      rcases Action.runs_pure.mp h₆ with ⟨rfl, rfl, rfl⟩
      rw [List.append_nil]
      exact .skipped hdecided
  | write position device kind =>
      -- The group was computed by the check, so accounting cannot fail on it.
      rcases (check_write hchecked).groupKey with ⟨key, hkey⟩
      rcases Action.runs_bind.mp h₆ with ⟨e, rfl, hw⟩ | ⟨predicted, s₂, tw, t₃, rfl, hw, h₇⟩
      · rcases carryOut_cases hw with ⟨_, now, _, habs, _⟩ | ⟨hmode, hwrote⟩
        · exact absurd habs (by simp only [reduceCtorEq, not_false_eq_true])
        · exact .unwritten hmode hdecided hwrote
      · rcases Action.runs_bind.mp h₇ with ⟨e, rfl, hcommit⟩ | ⟨⟨⟩, s₃, t₄, t₅, rfl, hcommit, h₈⟩
        · exact absurd (commit_cases hkey hcommit).2.1 (by simp only [reduceCtorEq,
            not_false_eq_true])
        · rcases commit_cases hkey hcommit with ⟨rfl, _, rfl⟩
          rcases Action.runs_pure.mp h₈ with ⟨rfl, rfl, rfl⟩
          rw [List.append_nil, List.append_nil]
          rcases carryOut_cases hw with ⟨hmode, now, rfl, hpred, rfl⟩ | ⟨hmode, hwrote⟩
          · obtain rfl := Except.ok.inj hpred
            exact .projected hmode hdecided
          · exact .written hmode hdecided hwrote

end Netfyr
