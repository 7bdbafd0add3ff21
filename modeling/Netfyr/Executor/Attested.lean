import Netfyr.Executor.Discipline
import Netfyr.Interact.Confined

/-!
# Attested Outcomes

A report is the only thing that a caller learns of what was written, so it has
to be read backwards: from an outcome to the calls. A success has a write that
was acknowledged behind it and a skip has none. A write that was rejected is
reported with its own error, and an outcome that is unknown is that of a write
or comes from the transport; before a write, the executor itself always knows
that it did not happen.

## Main definitions

* `BackendError.Known`: A failure that leaves no doubt.
* `Attested`: What the calls of an operation say of its outcome.

## Theorems

* `failsAs_check`: Deciding leaves no doubt.
* `RoundAt.attested`: The calls of a round attest its outcome.
-/

namespace Netfyr

open Interact

/-- A failure that leaves no doubt about what was written. -/
def BackendError.Known (self : BackendError) : Prop := self.kind ≠ .outcomeUnknown

section Decisions

variable {diff : StateDiff} {namespaceId : NamespaceId} {index : Nat} {op : Operation}

theorem known_new {kind : BackendErrorKind} {message : String} (h : kind ≠ .outcomeUnknown) :
    (BackendError.new kind message).Known := h

theorem failsAs_decode (kind : OperationKind) (schema : SchemaRegistry) :
    FailsAs BackendError.Known (decode kind schema) := by
  have hset : ∀ field value, FailsAs BackendError.Known (decodeSetField field value schema) := by
    intro field value
    unfold decodeSetField decodeSetField.unsupported
    dsimp only
    repeat' split
    all_goals first | exact .error (known_new nofun) | exact .ok
  have hchecked : ∀ kind, FailsAs BackendError.Known (checkDecoded kind schema) := by
    intro kind
    unfold checkDecoded
    dsimp only
    repeat' split
    all_goals first | exact .error (known_new nofun) | exact .ok
  unfold decode
  cases kind with
  | setField field value =>
      dsimp only
      cases hdecoded : decodeSetField field value schema with
      | error e => exact .error (hset field value e hdecoded)
      | ok decoded =>
          cases decoded with
          | none => exact .ok
          | some kind =>
              dsimp only
              cases hcheck : checkDecoded kind schema with
              | error e => exact .error (hchecked kind e hcheck)
              | ok _ => exact .ok
  | addEntity => exact .error (known_new nofun)
  | removeEntity => exact .error (known_new nofun)
  | setMtu _ | setEnabled _ | addIpv4 _ | removeIpv4 _ | replaceIpv4 _ =>
      -- A kind that needs no decoding is checked as it is.
      dsimp only
      cases hcheck : checkDecoded _ schema with
      | error e => exact .error (hchecked _ e hcheck)
      | ok _ => exact .ok

theorem failsAs_locate (observation : Observation) (identity : InterfaceId) :
    FailsAs BackendError.Known (locate observation identity namespaceId) := by
  unfold locate
  repeat' split
  all_goals first | exact .error (known_new nofun) | exact .ok

theorem failsAs_groupKey (addr : Ipv4Address) :
    FailsAs BackendError.Known (GroupKey.new op addr) := by
  unfold GroupKey.new
  split
  · exact .error (known_new nofun)
  · exact .ok

theorem failsAs_validateGroup (device : DeviceObservation) (kind : OperationKind)
    (groups : Groups) : FailsAs BackendError.Known (validateGroup op device kind groups).1 := by
  unfold validateGroup
  cases kind.ipv4Address with
  | none => exact .ok
  | some addr =>
      dsimp only
      split
      · exact .error (known_new nofun)
      cases hkey : GroupKey.new op addr with
      | error e => exact .error (failsAs_groupKey addr e hkey)
      | ok key =>
          dsimp only
          split
          · exact .error (known_new nofun)
          · unfold checkExpected
            repeat' split
            all_goals first | exact .error (known_new nofun) | exact .ok

theorem failsAs_satisfied (device : DeviceObservation) (kind : OperationKind) :
    FailsAs BackendError.Known (satisfied kind device op) := by
  unfold satisfied
  repeat' split
  all_goals first | exact .error (known_new nofun) | exact .ok

theorem known_checkCascade {device : DeviceObservation} {kind : OperationKind}
    {eligible : List Bool} {e : BackendError}
    (h : checkCascade diff index device kind eligible = some (.error e)) : e.Known := by
  unfold checkCascade at h
  repeat' split at h
  all_goals first
    | (obtain rfl := Except.error.inj (Option.some.inj h); exact known_new nofun)
    | exact absurd h (by simp only [Option.some.injEq, reduceCtorEq, not_false_eq_true])

/-- Before a write there is no doubt about it. -/
theorem failsAs_check {decoded : Option OperationKind} {observation : Observation}
    {groups groups' : Groups} {eligible : List Bool} {e : BackendError}
    (h : check diff namespaceId index op decoded observation groups eligible =
      some (.error e, groups')) : e.Known := by
  have hsame : ∀ {e' : BackendError} {g : Groups},
      some ((.error e' : Except BackendError Verdict), g) = some (.error e, groups') → e' = e :=
    fun heq => Except.error.inj (congrArg Prod.fst (Option.some.inj heq))
  unfold check at h
  split at h
  · next e' hlocate =>
      obtain rfl := hsame h
      exact failsAs_locate observation op.target e' hlocate
  split at h
  · exact absurd h (by simp only [reduceCtorEq, not_false_eq_true])
  next device _ =>
  split at h
  · exact absurd h (by simp)
  next kind =>
  split at h
  · next e' established hgroup =>
      obtain rfl := hsame h
      exact failsAs_validateGroup device kind groups e' (congrArg Prod.fst hgroup)
  split at h
  · next e' hsatisfied =>
      obtain rfl := hsame h
      exact failsAs_satisfied device kind e' hsatisfied
  · exact absurd h (by simp)
  split at h
  · exact absurd h (by simp only [reduceCtorEq, not_false_eq_true])
  · next e' hcascade =>
      obtain rfl := hsame h
      exact known_checkCascade hcascade
  · exact absurd h (by simp)

end Decisions

/-- What the calls of an operation say of its outcome. -/
structure Attested (calls : List IoEvent) (outcome : Outcome) : Prop where
  succeeded : outcome = .succeeded → ∃ target kind, ⟨.execute target kind, .ok ()⟩ ∈ calls
  skipped : ∀ reason, outcome = .skipped reason → ∀ event ∈ calls, isExecute event = false
  rejected : ∀ target kind e, ⟨.execute target kind, .error e⟩ ∈ calls → outcome = .failed e
  unknown : ∀ e, outcome = .failed e → ¬ e.Known →
    (∃ target kind, ⟨.execute target kind, .ok ()⟩ ∈ calls ∨
      ⟨.execute target kind, .error e⟩ ∈ calls) ∨ ⟨.inventory, .error e⟩ ∈ calls

section Rounds

variable {diff : StateDiff} {namespaceId : NamespaceId} {index : Nat} {op : Operation}
  {s s' : Execution} {tr : List IoEvent}

theorem known_cancelled (message : String) : (cancelledError message).Known := by
  unfold cancelledError
  exact known_new nofun

/-- A write that ends in an error was rejected with it, or acknowledged, or not
    sent at all. -/
theorem Wrote.attested {device : DeviceObservation} {kind : OperationKind}
    {result : Except BackendError DeviceObservation}
    (h : Wrote diff namespaceId index op device kind s tr result s') :
    (∀ target kind' e, ⟨.execute target kind', .error e⟩ ∈ tr → result = .error e) ∧
      (∀ device', result = .ok device' → ⟨.execute op.target kind, .ok ()⟩ ∈ tr) ∧
        ∀ e, result = .error e → ¬ e.Known →
          ⟨.execute op.target kind, .ok ()⟩ ∈ tr ∨ ⟨.execute op.target kind, .error e⟩ ∈ tr := by
  cases h with
  | stopped =>
      refine ⟨fun _ _ _ hmem => absurd hmem (by simp), fun _ habs => absurd habs (by simp), ?_⟩
      intro e he hdoubt
      obtain rfl := Except.error.inj he
      exact absurd (known_cancelled _) hdoubt
  | rejected =>
      refine ⟨fun target kind' e' hmem => ?_, fun _ habs => absurd habs (by simp), ?_⟩
      · simp only [List.mem_cons, List.not_mem_nil, or_false, Sigma.mk.injEq, reduceCtorEq,
          false_and, false_or, IoCall.execute.injEq] at hmem
        rcases hmem with ⟨⟨rfl, rfl⟩, hanswer⟩
        rw [Except.error.inj (eq_of_heq hanswer)]
      · intro e' he _
        obtain rfl := Except.error.inj he
        exact Or.inr (by simp)
  | scalar _ =>
      exact ⟨fun _ _ _ hmem => absurd hmem (by simp), fun _ _ => by simp,
        fun _ habs => absurd habs (by simp)⟩
  | unobserved _ =>
      exact ⟨fun _ _ _ hmem => absurd hmem (by simp), fun _ habs => absurd habs (by simp),
        fun _ _ _ => Or.inl (by simp)⟩
  | misverified _ _ =>
      exact ⟨fun _ _ _ hmem => absurd hmem (by simp), fun _ habs => absurd habs (by simp),
        fun _ _ _ => Or.inl (by simp)⟩
  | verified _ _ =>
      exact ⟨fun _ _ _ hmem => absurd hmem (by simp), fun _ _ => by simp,
        fun _ habs => absurd habs (by simp)⟩

/-- Observing does not write. -/
theorem Observed.not_execute {observation : Observation} {target : InterfaceId}
    {kind : OperationKind} {answer : Except BackendError Unit}
    (h : Observed s tr observation s') : (⟨.execute target kind, answer⟩ : IoEvent) ∉ tr := by
  intro hmem
  exact absurd (h.quiet _ hmem) (by simp only [isExecute, Bool.true_eq_false, not_false_eq_true])

/-- A failure that leaves no doubt needs only that no write was rejected with
    another. -/
theorem attested_known {e : BackendError} (he : e.Known)
    (hnone : ∀ target kind e', (⟨.execute target kind, .error e'⟩ : IoEvent) ∉ tr) :
    Attested tr (.failed e) where
  succeeded habs := absurd habs (by simp only [reduceCtorEq, not_false_eq_true])
  skipped _ habs := absurd habs (by simp only [reduceCtorEq, not_false_eq_true])
  rejected target kind e' hmem := absurd hmem (hnone target kind e')
  unknown e' heq hdoubt := by
    rw [← Outcome.failed.inj heq] at hdoubt
    exact absurd he hdoubt

/-- The calls of a step attest its outcome. -/
theorem Stepped.attested {result : Except BackendError (Option SkipReason)}
    (h : Stepped diff false namespaceId index op s tr result s') :
    Attested tr (outcomeOf result) := by
  cases h with
  | cancelled => exact attested_known (known_cancelled _) fun _ _ _ => by simp
  | undecoded hdecode => exact attested_known (failsAs_decode _ _ _ hdecode) fun _ _ _ => by simp
  | @unobserved _ e _ _ =>
      constructor
      · exact fun habs => absurd habs (by simp only [outcomeOf, reduceCtorEq, not_false_eq_true])
      · exact fun _ habs => absurd habs (by simp only [outcomeOf, reduceCtorEq, not_false_eq_true])
      · exact fun _ _ _ hmem => absurd hmem (by simp)
      · intro e' heq _
        obtain rfl : e = e' := Outcome.failed.inj heq
        exact Or.inr (by simp)
  | refused hd =>
      refine attested_known (failsAs_check hd.checked) fun target kind e' hmem => ?_
      rw [List.mem_cons] at hmem
      exact hd.observed.not_execute (hmem.resolve_left (by simp))
  | skipped hd =>
      constructor
      · exact fun habs => absurd habs (by simp only [outcomeOf, reduceCtorEq, not_false_eq_true])
      · intro _ _ event hmem
        rcases List.mem_cons.mp hmem with rfl | hmem
        · rfl
        · exact hd.observed.quiet event hmem
      · intro target kind e hmem
        rw [List.mem_cons] at hmem
        exact absurd (hmem.resolve_left (by simp)) hd.observed.not_execute
      · exact fun _ habs => absurd habs (by simp only [outcomeOf, reduceCtorEq, not_false_eq_true])
  | projected habs _ => exact absurd habs Bool.false_ne_true
  | @unwritten _ _ _ _ _ _ _ _ _ _ e _ hd hw =>
      rcases hw.attested with ⟨hrejected, _, hunknown⟩
      constructor
      · exact fun habs => absurd habs (by simp only [outcomeOf, reduceCtorEq, not_false_eq_true])
      · exact fun _ habs => absurd habs (by simp only [outcomeOf, reduceCtorEq, not_false_eq_true])
      · intro target kind e' hmem
        rw [List.mem_cons, List.mem_append] at hmem
        have hwrite := (hmem.resolve_left (by simp)).resolve_left hd.observed.not_execute
        rw [Except.error.inj (hrejected target kind e' hwrite)]
        rfl
      · intro e' heq hdoubt
        obtain rfl : e = e' := Outcome.failed.inj heq
        left
        rcases hunknown e rfl hdoubt with hmem | hmem
        · exact ⟨_, _, Or.inl (List.mem_cons_of_mem _ (List.mem_append_right _ hmem))⟩
        · exact ⟨_, _, Or.inr (List.mem_cons_of_mem _ (List.mem_append_right _ hmem))⟩
  | written _ hd hw =>
      rcases hw.attested with ⟨hrejected, hacknowledged, _⟩
      constructor
      · intro _
        exact ⟨_, _, List.mem_cons_of_mem _ (List.mem_append_right _ (hacknowledged _ rfl))⟩
      · exact fun _ habs => absurd habs (by simp only [outcomeOf, reduceCtorEq, not_false_eq_true])
      · intro target kind e hmem
        rw [List.mem_cons, List.mem_append] at hmem
        have hwrite := (hmem.resolve_left (by simp)).resolve_left hd.observed.not_execute
        exact absurd (hrejected target kind e hwrite) (by simp only [reduceCtorEq,
          not_false_eq_true])
      · exact fun _ habs => absurd habs (by simp only [outcomeOf, reduceCtorEq, not_false_eq_true])

/-- The calls of a round attest its outcome. -/
theorem RoundAt.attested {h : List ExecRound} {r : ExecRound}
    (hat : RoundAt diff false namespaceId h index op r) : Attested r.calls r.outcome := by
  have hran := hat.ran
  rcases r with ⟨s, calls, outcome, s'⟩
  cases hran with
  | malformed _ =>
      refine attested_known ?_ fun _ _ _ => List.not_mem_nil
      unfold malformedError
      exact known_new nofun
  | blocked _ _ _ =>
      constructor
      · exact fun habs => absurd habs (by simp only [reduceCtorEq, not_false_eq_true])
      · exact fun _ _ _ hmem => absurd hmem List.not_mem_nil
      · exact fun _ _ _ hmem => absurd hmem List.not_mem_nil
      · exact fun _ habs => absurd habs (by simp only [reduceCtorEq, not_false_eq_true])
  | stepped _ _ hstep => exact (step_cases hstep).attested

end Rounds

end Netfyr
