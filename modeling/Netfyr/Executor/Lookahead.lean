import Netfyr.Executor.Cascade
import Netfyr.Executor.Ideal

/-!
# The Look-ahead

Before a primary is removed the executor asks whether a later operation removes
each of its secondaries too, and answers that without running anything: it copies
the eligibility vector, sets the entry of the operation at hand, and extends the
copy by the dependency rule. The loop will apply the same rule, one operation at
a time and between steps that make calls.

The two are compared through what they have in common. A vector is `Closed` when
every entry ahead says whether the dependencies of its operation are earlier and
set. There is one closed vector that starts like a given one, since each entry is
fixed by those before it: `extendRunnable` computes it, the loop leaves it behind
when every step succeeds, and so does every run in which they did.

## Main definitions

* `Ready`: The loop's dependency rule.
* `Closed`: A vector that follows the rule ahead of an operation.
* `runOperationBy`, `supposeSuccess`: The loop from an operation on, with steps
  that succeed.
* `RemovedAfter`: A later operation that was stepped removes an address.

## Theorems

* `extendRunnable_take`: The look-ahead computes the closed vector.
* `loop_succeeding`: The loop leaves the closed vector behind.
* `History.closed`: So does a run whose steps succeeded.
* `removalIsCovered_agrees`: The look-ahead agrees with the loop.
-/

namespace Netfyr

open Interact

/-- The loop's dependency rule: an operation is stepped when its dependencies are
    earlier and eligible. -/
def Ready (eligible : List Bool) (index : Nat) (op : Operation) : Prop :=
  ∀ dependency ∈ op.dependsOn, dependency < index ∧ eligible[dependency]? = some true

instance (eligible : List Bool) (index : Nat) (op : Operation) :
    Decidable (Ready eligible index op) :=
  inferInstanceAs (Decidable (∀ dependency ∈ op.dependsOn,
    dependency < index ∧ eligible[dependency]? = some true))

/-- The rule reads only entries of earlier operations. -/
theorem Ready.congr {v w : List Bool} {index : Nat} {op : Operation}
    (h : ∀ j < index, v[j]? = w[j]?) : Ready v index op ↔ Ready w index op := by
  refine forall₂_congr fun dependency _ => and_congr_right fun hlt => ?_
  rw [h dependency hlt]

/-- Nothing blocks an operation when the rule holds of it. -/
theorem blockedBy_eq_nil {eligible : List Bool} {index : Nat} {op : Operation}
    {blocked : List Nat} (hearlier : ∀ dependency ∈ op.dependsOn, dependency < index)
    (h : blockedBy eligible op = some blocked) : blocked = [] ↔ Ready eligible index op := by
  rcases Checked.filterChecked_some h with ⟨blocks, hblocks, rfl⟩
  rw [List.filter_eq_nil_iff]
  refine forall₂_congr fun dependency hmem => ?_
  rcases Option.map_eq_some_iff.mp (hblocks dependency hmem) with ⟨ready, hready, hnot⟩
  rw [hready, ← hnot, Option.some.injEq, Bool.not_eq_true', Bool.not_eq_false]
  exact (and_iff_right (hearlier dependency hmem)).symm

/-- Every entry ahead of an operation follows the rule. -/
structure Closed (diff : StateDiff) (index : Nat) (v : List Bool) : Prop where
  length : v.length = diff.operations.length
  current : v[index]? = some true
  ahead : ∀ j op, index < j → diff.operations[j]? = some op →
    (v[j]? = some true ↔ Ready v j op)

section LookAhead

/-- The look-ahead appends what the rule says of the next operation. -/
theorem extendRunnable_cons (op : Operation) (ops : List Operation) (runnable : List Bool) :
    extendRunnable (op :: ops) runnable.length runnable =
      extendRunnable ops (runnable.length + 1)
        (runnable ++ [decide (Ready runnable runnable.length op)]) := by
  have htest : ∀ dependency ∈ op.dependsOn,
      (if dependency < runnable.length then runnable[dependency]? else some false) =
        some (decide (dependency < runnable.length ∧ runnable[dependency]? = some true)) := by
    intro dependency _
    by_cases hlt : dependency < runnable.length
    · rw [if_pos hlt, List.getElem?_eq_getElem hlt]
      simp only [hlt, true_and, Option.some.injEq, Bool.decide_eq_true]
    · rw [if_neg hlt, decide_eq_false fun h => hlt h.1]
  have hready : (op.dependsOn.all fun dependency =>
      decide (dependency < runnable.length ∧ runnable[dependency]? = some true)) =
        decide (Ready runnable runnable.length op) := by
    rw [Bool.eq_iff_iff, List.all_eq_true, decide_eq_true_eq]
    exact forall₂_congr fun dependency _ => decide_eq_true_iff
  rw [extendRunnable, Checked.allChecked_eq_some htest, hready]

/-- The look-ahead computes the vector that follows the rule. -/
theorem extendRunnable_take {v : List Bool} (ops : List Operation) (position : Nat)
    (hlen : v.length = position + ops.length)
    (hrule : ∀ j op, ops[j]? = some op →
      (v[position + j]? = some true ↔ Ready v (position + j) op)) :
    extendRunnable ops position (v.take position) = some v := by
  induction ops generalizing position with
  | nil =>
      have hle : v.length ≤ position := Nat.le_of_eq hlen
      rw [extendRunnable, List.take_of_length_le hle]
  | cons op ops ih =>
      rw [List.length_cons] at hlen
      have hlt : position < v.length := by omega
      have htake : (v.take position).length = position := by
        rw [List.length_take]
        omega
      -- The entry appended is the next of the vector.
      have hentry : decide (Ready (v.take position) position op) = v[position] := by
        have hnext := hrule 0 op rfl
        rw [Nat.add_zero, List.getElem?_eq_getElem hlt, Option.some.injEq] at hnext
        rw [Bool.eq_iff_iff, hnext, decide_eq_true_eq]
        exact Ready.congr fun j hj => List.getElem?_take_of_lt hj
      have hcons := extendRunnable_cons op ops (v.take position)
      rw [htake, hentry, ← List.take_succ_eq_append_getElem hlt] at hcons
      rw [hcons]
      refine ih (position + 1) (by omega) fun j op' hop => ?_
      have hnext := hrule (j + 1) op' hop
      rwa [← Nat.add_assoc, Nat.add_right_comm] at hnext

end LookAhead

/-- An operation that removes exactly this address from exactly this target. -/
def Operation.RemovesExactly (self : Operation) (target : InterfaceId) (addr : Ipv4Address) :
    Prop :=
  self.target = target ∧ ∃ removed, self.kind = .removeIpv4 removed ∧
    removed.ip = addr.ip ∧ removed.prefixLen = addr.prefixLen

section Covered

variable {diff : StateDiff} {index : Nat} {target : InterfaceId} {addr : Ipv4Address}
  {eligible v : List Bool}

theorem removesAddress_iff_exactly {op : Operation} :
    removesAddress op target addr = true ↔ op.RemovesExactly target addr := by
  rw [removesAddress_iff]
  refine and_congr_right fun _ => exists_congr fun removed => and_congr_right fun _ => ?_
  rw [Ipv4Address.sameIdentity_iff, eq_comm, @eq_comm _ addr.prefixLen]

/-- The operations after a position, with their own positions. -/
theorem mem_zipIdx_drop {α : Type} {as : List α} {a : α} {j : Nat} :
    (a, j) ∈ as.zipIdx.drop (index + 1) ↔ index < j ∧ as[j]? = some a := by
  rw [List.mem_iff_getElem?]
  constructor
  · rintro ⟨k, hk⟩
    rw [List.getElem?_drop, List.getElem?_zipIdx, Option.map_eq_some_iff] at hk
    rcases hk with ⟨b, hb, heq⟩
    rw [Prod.mk.injEq] at heq
    rcases heq with ⟨rfl, rfl⟩
    rw [Nat.zero_add]
    exact ⟨by omega, hb⟩
  · rintro ⟨hlt, ha⟩
    have hj : index + 1 + (j - (index + 1)) = j := by omega
    refine ⟨j - (index + 1), ?_⟩
    rw [List.getElem?_drop, hj, List.getElem?_zipIdx, ha, Option.map_some, Nat.zero_add]

/-- The look-ahead looks for a removal in any vector that follows the rule and
    starts as the given one. -/
theorem Closed.removalIsCovered (hclosed : Closed diff index v)
    (hsame : ∀ j < index, v[j]? = eligible[j]?) (hle : index ≤ eligible.length) :
    ∃ covered, removalIsCovered diff index target addr eligible = some covered ∧
      (covered = true ↔ ∃ j op, index < j ∧ diff.operations[j]? = some op ∧
        op.RemovesExactly target addr ∧ v[j]? = some true) := by
  have hlt : index < v.length := (List.getElem?_eq_some_iff.mp hclosed.current).choose
  have hlength := hclosed.length
  have htake : v.take index = eligible.take index := by
    refine List.ext_getElem? fun j => ?_
    by_cases hj : j < index
    · rw [List.getElem?_take_of_lt hj, List.getElem?_take_of_lt hj, hsame j hj]
    · rw [List.getElem?_take_eq_none (Nat.le_of_not_lt hj),
        List.getElem?_take_eq_none (Nat.le_of_not_lt hj)]
  have hstart : eligible.take index ++ [true] = v.take (index + 1) := by
    rw [List.take_add_one, hclosed.current, htake]
    rfl
  have hextend : extendRunnable (diff.operations.drop (index + 1)) (index + 1)
      (eligible.take index ++ [true]) = some v := by
    rw [hstart]
    refine extendRunnable_take _ _ ?_ fun j op hop => ?_
    · rw [List.length_drop]
      omega
    · rw [List.getElem?_drop] at hop
      exact hclosed.ahead _ op (by omega) hop
  refine ⟨(diff.operations.zipIdx.drop (index + 1)).any fun entry =>
    v[entry.2]?.getD false && removesAddress entry.1 target addr, ?_, ?_⟩
  · rw [Netfyr.removalIsCovered, if_neg (Nat.not_lt.mpr hle)]
    simp only [hextend]
    refine Checked.anyChecked_eq_some ?_
    rintro ⟨op, j⟩ hmem
    have hj := (List.getElem?_eq_some_iff.mp (mem_zipIdx_drop.mp hmem).2).choose
    simp only [List.getElem?_eq_getElem (hclosed.length ▸ hj), Option.getD_some]
  · rw [List.any_eq_true]
    constructor
    · rintro ⟨⟨op, j⟩, hmem, hpass⟩
      rw [Bool.and_eq_true, Option.getD_eq_iff, removesAddress_iff_exactly] at hpass
      rcases hpass with ⟨hready | ⟨_, habs⟩, hremoves⟩
      · exact ⟨j, op, (mem_zipIdx_drop.mp hmem).1, (mem_zipIdx_drop.mp hmem).2, hremoves, hready⟩
      · exact absurd habs Bool.false_ne_true
    · rintro ⟨j, op, hlater, hop, hremoves, hready⟩
      refine ⟨(op, j), mem_zipIdx_drop.mpr ⟨hlater, hop⟩, ?_⟩
      rw [hready, Option.getD_some, Bool.true_and]
      exact removesAddress_iff_exactly.mpr hremoves

end Covered

/-- A round of the loop, whatever a step does. -/
def runOperationBy (stepOf : Nat → Operation → Exec (Option SkipReason)) (index : Nat)
    (op : Operation) (execution : Execution) : Program IoCall IoAnswer (Outcome × Execution) :=
  if op.dependsOn.any fun dependency => index ≤ dependency then
    pure (.failed malformedError, execution)
  else
    match blockedBy execution.eligible op with
    | none => .fault
    | some blocked =>
        if blocked ≠ [] then pure (.skipped (.dependencyFailed blocked), execution)
        else do
          let (result, execution) ← stepOf index op execution
          match result with
          | .error e => pure (.failed e, execution)
          | .ok skip =>
              if index < execution.eligible.length then
                let execution := { execution with eligible := execution.eligible.set index true }
                match skip with
                | some reason => pure (.skipped reason, execution)
                | none => pure (.succeeded, execution)
              else .fault

/-- The executor's loop is the one that takes the executor's steps. -/
theorem runOperation_eq (diff : StateDiff) (preview : Bool) (namespaceId : NamespaceId) :
    runOperation diff preview namespaceId =
      runOperationBy (step diff preview namespaceId) := rfl

/-- A step that succeeds and does nothing else. -/
def succeedingStep (_ : Nat) (_ : Operation) : Exec (Option SkipReason) := pure none

/-- The loop after an operation, supposing that the operation succeeds and that
    every later one does that is stepped. -/
def supposeSuccess (diff : StateDiff) (index : Nat) (execution : Execution) :
    Program IoCall IoAnswer (List Outcome × Execution) :=
  loop (runOperationBy succeedingStep) (index + 1) (diff.operations.drop (index + 1))
    (execution.settle index (.ok none))

/-- The outcome of an operation that was not stepped: it failed for a malformed
    dependency, or was skipped for one that failed. -/
def Outcome.PassedOver (self : Outcome) : Prop :=
  self = .failed malformedError ∨ ∃ blocked, self = .skipped (.dependencyFailed blocked)

/-- By the outcomes of the operations after a position, one of them was stepped
    that removes exactly this address from exactly this target. -/
def RemovedAfter (diff : StateDiff) (index : Nat) (target : InterfaceId) (addr : Ipv4Address)
    (outcomes : List Outcome) : Prop :=
  ∃ j op outcome, diff.operations[index + 1 + j]? = some op ∧ op.RemovesExactly target addr ∧
    outcomes[j]? = some outcome ∧ ¬ outcome.PassedOver

/-- Outcomes that tell which entries are set tell which removals were stepped. -/
theorem removedAfter_iff {diff : StateDiff} {index : Nat} {target : InterfaceId}
    {addr : Ipv4Address} {outcomes : List Outcome} {v : List Bool}
    (htell : ∀ j op, diff.operations[index + 1 + j]? = some op →
      ∃ outcome, outcomes[j]? = some outcome ∧
        (¬ outcome.PassedOver ↔ v[index + 1 + j]? = some true)) :
    (∃ j op, index < j ∧ diff.operations[j]? = some op ∧ op.RemovesExactly target addr ∧
        v[j]? = some true) ↔ RemovedAfter diff index target addr outcomes := by
  constructor
  · rintro ⟨j, op, hlater, hop, hremoves, hset⟩
    obtain ⟨k, rfl⟩ := Nat.exists_eq_add_of_le hlater
    rcases htell k op hop with ⟨outcome, houtcome, hpassed⟩
    exact ⟨k, op, outcome, hop, hremoves, houtcome, hpassed.mpr hset⟩
  · rintro ⟨k, op, outcome, hop, hremoves, houtcome, hstepped⟩
    rcases htell k op hop with ⟨outcome', houtcome', hpassed⟩
    obtain rfl := Option.some.inj (houtcome.symm.trans houtcome')
    exact ⟨index + 1 + k, op, by omega, hop, hremoves, hpassed.mp hstepped⟩

theorem Outcome.not_passedOver_succeeded : ¬ Outcome.succeeded.PassedOver := by
  rintro (habs | ⟨blocked, habs⟩)
  · exact absurd habs (by simp only [reduceCtorEq, not_false_eq_true])
  · exact absurd habs (by simp only [reduceCtorEq, not_false_eq_true])

section Supposed

/-- A round with a step that succeeds: the operation is stepped when the rule says
    so, and passed over otherwise. -/
theorem runOperationBy_succeeding {index : Nat} {op : Operation} {s : Execution}
    (hlt : index < s.eligible.length) :
    (Ready s.eligible index op ∧ runOperationBy succeedingStep index op s =
        .done (.succeeded, s.settle index (.ok none))) ∨
      ¬ Ready s.eligible index op ∧ ∃ outcome : Outcome, outcome.PassedOver ∧
        runOperationBy succeedingStep index op s = .done (outcome, s) := by
  unfold runOperationBy
  by_cases hmal : (op.dependsOn.any fun dependency => index ≤ dependency) = true
  · rw [if_pos hmal]
    rcases dependsOn_any.mp hmal with ⟨d, hmem, hle⟩
    refine Or.inr ⟨fun hready => ?_, _, Or.inl rfl, rfl⟩
    have hearlier := (hready d hmem).1
    omega
  · rw [if_neg hmal]
    have hearlier := earlier_of_not_any hmal
    rcases Option.isSome_iff_exists.mp (blockedBy_isSome hearlier (Nat.le_of_lt hlt)) with
      ⟨blocked, hblocked⟩
    have hready := blockedBy_eq_nil hearlier hblocked
    simp only [hblocked]
    by_cases hnil : blocked = []
    · rw [if_neg (not_not_intro hnil)]
      refine Or.inl ⟨hready.mp hnil, ?_⟩
      have hstep : succeedingStep index op s = .done (.ok none, s) := rfl
      rw [hstep]
      simp only [Program.bind_eq_bind, Program.bind, if_pos hlt, Program.pure_eq_done,
        Execution.settle]
    · rw [if_pos hnil]
      exact Or.inr ⟨fun h => hnil (hready.mpr h), _, Or.inr ⟨_, rfl⟩, rfl⟩

/-- Such a round settles the entry of its operation, by the rule. -/
theorem round_succeeding {index : Nat} (op : Operation) {s : Execution}
    (hlt : index < s.eligible.length) (hunset : s.eligible[index]? ≠ some true) :
    ∃ (outcome : Outcome) (s' : Execution),
      runOperationBy succeedingStep index op s = .done (outcome, s') ∧
      s'.eligible.length = s.eligible.length ∧
      (∀ j, j ≠ index → s'.eligible[j]? = s.eligible[j]?) ∧
      (¬ outcome.PassedOver ↔ s'.eligible[index]? = some true) ∧
      (s'.eligible[index]? = some true ↔ Ready s.eligible index op) := by
  rcases runOperationBy_succeeding hlt with ⟨hready, hrun⟩ | ⟨hnot, outcome, hpassed, hrun⟩
  · have hset : (s.eligible.set index true)[index]? = some true := List.getElem?_set_self hlt
    exact ⟨_, _, hrun, List.length_set, fun j hj => List.getElem?_set_ne (Ne.symm hj),
      iff_of_true Outcome.not_passedOver_succeeded hset, iff_of_true hset hready⟩
  · exact ⟨outcome, s, hrun, rfl, fun _ _ => rfl, iff_of_false (not_not_intro hpassed) hunset,
      iff_of_false hunset hnot⟩

/-- When every step succeeds the loop leaves a vector that follows the rule, and
    passes over exactly the operations whose entries are not set. -/
theorem loop_succeeding (ops : List Operation) (position : Nat) (s : Execution)
    (hlen : s.eligible.length = position + ops.length)
    (hunset : ∀ j, position ≤ j → s.eligible[j]? ≠ some true) :
    ∃ outcomes t, loop (runOperationBy succeedingStep) position ops s = .done (outcomes, t) ∧
      t.eligible.length = s.eligible.length ∧
      (∀ j < position, t.eligible[j]? = s.eligible[j]?) ∧
      ∀ j op, ops[j]? = some op → ∃ outcome, outcomes[j]? = some outcome ∧
        (¬ outcome.PassedOver ↔ t.eligible[position + j]? = some true) ∧
        (t.eligible[position + j]? = some true ↔ Ready t.eligible (position + j) op) := by
  induction ops generalizing position s with
  | nil =>
      refine ⟨[], s, rfl, rfl, fun _ _ => rfl, fun j op hop => ?_⟩
      exact absurd hop (by simp only [List.getElem?_nil, reduceCtorEq, not_false_eq_true])
  | cons op ops ih =>
      rw [List.length_cons] at hlen
      rcases round_succeeding op (by omega) (hunset position (Nat.le_refl position)) with
        ⟨outcome, s', hround, hlength, hothers, hpassed, hentry⟩
      have hunset' : ∀ j, position + 1 ≤ j → s'.eligible[j]? ≠ some true := by
        intro j hj
        rw [hothers j (by omega)]
        exact hunset j (by omega)
      rcases ih (position + 1) s' (by omega) hunset' with
        ⟨outcomes, t, hloop, hlengths, hearlier, hlater⟩
      refine ⟨outcome :: outcomes, t, ?_, hlengths.trans hlength, fun j hj => ?_, fun j => ?_⟩
      · rw [loop, hround]
        simp only [Program.bind_eq_bind, Program.bind, hloop, Program.pure_eq_done]
      · rw [hearlier j (by omega), hothers j (by omega)]
      · cases j with
        | zero =>
            intro op' hop
            obtain rfl := Option.some.inj hop
            -- The rounds to come leave this entry and those before it alone.
            have hsame : Ready t.eligible position op ↔ Ready s.eligible position op := by
              refine Ready.congr fun j hj => ?_
              rw [hearlier j (by omega), hothers j (by omega)]
            rw [Nat.add_zero, hearlier position (Nat.lt_succ_self position), hsame]
            exact ⟨outcome, rfl, hpassed, hentry⟩
        | succ j =>
            intro op' hop
            rw [← Nat.add_assoc, Nat.add_right_comm]
            exact hlater j op' hop

end Supposed

/-- Whatever was stepped in the rounds after a position succeeded. -/
def LaterSucceed (diff : StateDiff) (preview : Bool) (namespaceId : NamespaceId) (index : Nat)
    (rest : List ExecRound) : Prop :=
  ∀ j op later, rest[j]? = some later → diff.operations[index + 1 + j]? = some op →
    (∃ result after, (step diff preview namespaceId (index + 1 + j) op).Runs later.before
      later.calls result after) → later.outcome.isEligible = true

section Real

variable {diff : StateDiff} {preview : Bool} {namespaceId : NamespaceId} {h : List ExecRound}
  {s t : Execution} {j : Nat} {op : Operation} {r : ExecRound}

theorem Outcome.PassedOver.isEligible {outcome : Outcome} (h : outcome.PassedOver) :
    outcome.isEligible = false := by
  rcases h with rfl | ⟨blocked, rfl⟩
  · rfl
  · rfl

/-- A round of a run steps its operation when the rule says so, and passes it over
    otherwise. -/
theorem RanOperation.ready_or {index : Nat} {calls : List IoEvent} {outcome : Outcome}
    (hran : RanOperation diff preview namespaceId index op s calls outcome t) :
    (Ready s.eligible index op ∧
        ∃ result after, (step diff preview namespaceId index op).Runs s calls result after) ∨
      ¬ Ready s.eligible index op ∧ outcome.PassedOver := by
  cases hran with
  | malformed hmal =>
      rcases hmal with ⟨d, hmem, hle⟩
      refine Or.inr ⟨fun hready => ?_, Or.inl rfl⟩
      have hlt := (hready d hmem).1
      omega
  | blocked hearlier hblocked hne =>
      exact Or.inr ⟨fun hready => hne ((blockedBy_eq_nil hearlier hblocked).mpr hready),
        Or.inr ⟨_, rfl⟩⟩
  | stepped hearlier hblocked hstep =>
      exact Or.inl ⟨(blockedBy_eq_nil hearlier hblocked).mp rfl, _, _, hstep⟩

/-- The vector at the end of a run says the same of an operation's dependencies as
    the one its round found. -/
theorem RoundAt.ready_iff (hat : RoundAt diff preview namespaceId h j op r)
    (hr : History diff preview namespaceId h t) :
    Ready t.eligible j op ↔ Ready r.before.eligible j op := by
  refine Ready.congr fun k hk => ?_
  have hj : j < h.length := (List.getElem?_eq_some_iff.mp hat.round).choose
  have hround : h[k]? = some h[k] := List.getElem?_eq_getElem (by omega)
  have htake : (h.take j)[k]? = some h[k] := by rw [List.getElem?_take_of_lt hk, hround]
  rw [hr.eligible_getElem hround, hat.history.eligible_getElem htake]

/-- An operation that did not fail once stepped has the entry that the rule gives
    it, and was passed over exactly when it is not set. -/
theorem RoundAt.settled (hat : RoundAt diff preview namespaceId h j op r)
    (hr : History diff preview namespaceId h t)
    (hstep : (∃ result after,
      (step diff preview namespaceId j op).Runs r.before r.calls result after) →
        r.outcome.isEligible = true) :
    (¬ r.outcome.PassedOver ↔ t.eligible[j]? = some true) ∧
      (t.eligible[j]? = some true ↔ Ready t.eligible j op) := by
  rw [hr.eligible_getElem hat.round, hat.ready_iff hr, Option.some.injEq]
  rcases hat.ran.ready_or with ⟨hready, hstepped⟩ | ⟨hnot, hpassed⟩
  · have helig := hstep hstepped
    refine ⟨iff_of_true (fun hpassed => ?_) helig, iff_of_true helig hready⟩
    rw [hpassed.isEligible] at helig
    exact Bool.false_ne_true helig
  · have hinel : r.outcome.isEligible ≠ true := by
      rw [hpassed.isEligible]
      exact Bool.false_ne_true
    exact ⟨iff_of_false (not_not_intro hpassed) hinel, iff_of_false hinel hnot⟩

/-- A run in which an operation succeeded, and everything stepped after it, leaves a
    vector that follows the rule. -/
theorem History.closed {rest : List ExecRound}
    (hr : History diff preview namespaceId (h ++ r :: rest) t)
    (hcomplete : (h ++ r :: rest).length = diff.operations.length)
    (hcurrent : r.outcome.isEligible = true)
    (hlater : LaterSucceed diff preview namespaceId h.length rest) :
    Closed diff h.length t.eligible ∧
      ∀ j op, diff.operations[h.length + 1 + j]? = some op →
        ∃ outcome, (rest.map Round.outcome)[j]? = some outcome ∧
          (¬ outcome.PassedOver ↔ t.eligible[h.length + 1 + j]? = some true) := by
  have hround : ∀ j, (h ++ r :: rest)[h.length + 1 + j]? = rest[j]? := by
    intro j
    have hsub : h.length + 1 + j - h.length = j + 1 := by omega
    rw [List.getElem?_append_right (by omega), hsub, List.getElem?_cons_succ]
  have hsettled : ∀ j op, diff.operations[h.length + 1 + j]? = some op →
      ∃ later, rest[j]? = some later ∧
        (¬ later.outcome.PassedOver ↔ t.eligible[h.length + 1 + j]? = some true) ∧
        (t.eligible[h.length + 1 + j]? = some true ↔ Ready t.eligible (h.length + 1 + j) op) := by
    intro j op hop
    have hlt : h.length + 1 + j < (h ++ r :: rest).length := by
      rw [hcomplete]
      exact (List.getElem?_eq_some_iff.mp hop).choose
    have hat := List.getElem?_eq_getElem hlt
    rcases hr.roundAt hat with ⟨op', hat'⟩
    obtain rfl := Option.some.inj (hop.symm.trans hat'.operation)
    rw [hround j] at hat
    exact ⟨_, hat, hat'.settled hr (hlater j op _ hat hop)⟩
  refine ⟨⟨hr.eligible_length, ?_, fun j op hlt hop => ?_⟩, fun j op hop => ?_⟩
  · have hself : (h ++ r :: rest)[h.length]? = some r := by
      rw [List.getElem?_append_right (Nat.le_refl _), Nat.sub_self, List.getElem?_cons_zero]
    rw [hr.eligible_getElem hself, hcurrent]
  · obtain ⟨k, rfl⟩ := Nat.exists_eq_add_of_le hlt
    rcases hsettled k op hop with ⟨_, _, _, hrule⟩
    exact hrule
  · rcases hsettled j op hop with ⟨later, hat, hpassed, _⟩
    exact ⟨later.outcome, by rw [List.getElem?_map, hat, Option.map_some], hpassed⟩

/-- The entries of the operations to come are not set. -/
theorem History.eligible_unset (hr : History diff preview namespaceId h s) (hj : h.length ≤ j) :
    s.eligible[j]? ≠ some true := by
  rw [hr.eligible_eq, List.getElem?_append_right (by rw [List.length_map]; exact hj),
    List.getElem?_replicate]
  split
  · simp only [ne_eq, Option.some.injEq, Bool.false_eq_true, not_false_eq_true]
  · simp only [ne_eq, reduceCtorEq, not_false_eq_true]

/-- The supposed rest of the loop leaves a vector that follows the rule. -/
theorem supposeSuccess_closed (hr : History diff preview namespaceId h s)
    (hi : h.length < diff.operations.length) :
    ∃ outcomes t, supposeSuccess diff h.length s = pure (outcomes, t) ∧
      Closed diff h.length t.eligible ∧
      (∀ j < h.length, t.eligible[j]? = s.eligible[j]?) ∧
      ∀ j op, diff.operations[h.length + 1 + j]? = some op →
        ∃ outcome, outcomes[j]? = some outcome ∧
          (¬ outcome.PassedOver ↔ t.eligible[h.length + 1 + j]? = some true) := by
  have hlen := History.eligible_length hr
  have hlength : (s.settle h.length (.ok none)).eligible.length =
      h.length + 1 + (diff.operations.drop (h.length + 1)).length := by
    rw [Execution.settle, List.length_set, List.length_drop]
    omega
  have hunset : ∀ j, h.length + 1 ≤ j →
      (s.settle h.length (.ok none)).eligible[j]? ≠ some true := by
    intro j hj
    rw [Execution.settle, List.getElem?_set_ne (by omega)]
    exact hr.eligible_unset (by omega)
  rcases loop_succeeding _ _ _ hlength hunset with ⟨outcomes, t, hloop, hfinal, hsame, hrule⟩
  refine ⟨outcomes, t, hloop, ⟨?_, ?_, fun j op hlt hop => ?_⟩, fun j hj => ?_, fun j op hop => ?_⟩
  · rw [hfinal, Execution.settle, List.length_set, hlen]
  · rw [hsame h.length (Nat.lt_succ_self _), Execution.settle,
      List.getElem?_set_self (by omega)]
  · obtain ⟨k, rfl⟩ := Nat.exists_eq_add_of_le hlt
    rcases hrule k op (by rw [List.getElem?_drop]; exact hop) with ⟨_, _, _, hready⟩
    exact hready
  · rw [hsame j (by omega), Execution.settle, List.getElem?_set_ne (by omega)]
  · rcases hrule j op (by rw [List.getElem?_drop]; exact hop) with ⟨outcome, houtcome, hpassed, _⟩
    exact ⟨outcome, houtcome, hpassed⟩

/-- The look-ahead agrees with the loop, at every position that a run reaches. It
    does not fault, and it answers that a removal is covered exactly when the loop,
    supposing that the operation at hand and every later one it steps succeed, steps
    a later removal of this address from this target. The rest of every run in which
    they do succeed steps such a removal exactly when it answers so. -/
theorem removalIsCovered_agrees (hr : History diff preview namespaceId h s)
    (hi : h.length < diff.operations.length) (target : InterfaceId) (addr : Ipv4Address) :
    ∃ covered outcomes t,
      removalIsCovered diff h.length target addr s.eligible = some covered ∧
      supposeSuccess diff h.length s = pure (outcomes, t) ∧
      (covered = true ↔ RemovedAfter diff h.length target addr outcomes) ∧
      ∀ r rest t', History diff preview namespaceId (h ++ r :: rest) t' →
        (h ++ r :: rest).length = diff.operations.length → r.outcome.isEligible = true →
        LaterSucceed diff preview namespaceId h.length rest →
        (covered = true ↔
          RemovedAfter diff h.length target addr (rest.map Round.outcome)) := by
  have hle : h.length ≤ s.eligible.length := by
    rw [hr.eligible_length]
    exact Nat.le_of_lt hi
  rcases supposeSuccess_closed hr hi with ⟨outcomes, t, hloop, hclosed, hsame, htell⟩
  rcases hclosed.removalIsCovered hsame hle with ⟨covered, hcovered, hiff⟩
  refine ⟨covered, outcomes, t, hcovered, hloop, hiff.trans (removedAfter_iff htell), ?_⟩
  intro r rest t' hr' hcomplete hcurrent hlater
  rcases hr'.closed hcomplete hcurrent hlater with ⟨hclosed', htell'⟩
  -- The run started like the history at hand, so its vector does too.
  have hsame' : ∀ j < h.length, t'.eligible[j]? = s.eligible[j]? := by
    intro j hj
    have hround : h[j]? = some h[j] := List.getElem?_eq_getElem hj
    have hround' : (h ++ r :: rest)[j]? = some h[j] := by
      rw [List.getElem?_append_left hj, hround]
    rw [hr'.eligible_getElem hround', hr.eligible_getElem hround]
  rcases hclosed'.removalIsCovered hsame' hle with ⟨covered', hcovered', hiff'⟩
  obtain rfl := Option.some.inj (hcovered.symm.trans hcovered')
  exact hiff'.trans (removedAfter_iff htell')

end Real

/-- An address of the group 192.0.2.0/24. -/
def member (host : BitVec 8) : Ipv4Address := ⟨Ipv4Addr.new 192 0 2 host, 24, none, none⟩

/-- Three removals from a group after an operation that depends on itself: of the
    primary, of a secondary that depends on the malformed operation, and of one that
    depends on the primary. -/
def heldBackPlan : StateDiff :=
  { changes := []
    operations := [
      { target := eth0, kind := .setMtu 1500, dependsOn := [0], addressGroup := none },
      { target := eth0, kind := .removeIpv4 (member 1), dependsOn := [], addressGroup := none },
      { target := eth0, kind := .removeIpv4 (member 2), dependsOn := [0], addressGroup := none },
      { target := eth0, kind := .removeIpv4 (member 3), dependsOn := [1], addressGroup := none }]
    diagnostics := [] }

/-- After the malformed operation, the removal that depends on it is not counted
    on, and the one that depends on the primary is. -/
theorem removalIsCovered_agrees_heldBack :
    ∃ s, History heldBackPlan false eth0.namespaceId
        [⟨.start heldBackPlan, [], .failed malformedError, s⟩] s ∧
      ∃ outcomes t, supposeSuccess heldBackPlan 1 s = pure (outcomes, t) ∧
        ¬ RemovedAfter heldBackPlan 1 eth0 (member 2) outcomes ∧
        RemovedAfter heldBackPlan 1 eth0 (member 3) outcomes := by
  have hr : History heldBackPlan false eth0.namespaceId
      [⟨.start heldBackPlan, [], .failed malformedError, .start heldBackPlan⟩]
      (.start heldBackPlan) := by
    have hround : (runOperation heldBackPlan false eth0.namespaceId 0
        { target := eth0, kind := .setMtu 1500, dependsOn := [0], addressGroup := none }
        (.start heldBackPlan)).Runs [] (.failed malformedError, .start heldBackPlan) := ⟨rfl, rfl⟩
    exact .round .start rfl hround
  rcases removalIsCovered_agrees hr (by decide) eth0 (member 2) with
    ⟨covered, outcomes, t, hcovered, hloop, hiff, _⟩
  rcases removalIsCovered_agrees hr (by decide) eth0 (member 3) with
    ⟨covered', outcomes', t', hcovered', hloop', hiff', _⟩
  have hfalse : removalIsCovered heldBackPlan 1 eth0 (member 2)
      (Execution.start heldBackPlan).eligible = some false := by decide
  have htrue : removalIsCovered heldBackPlan 1 eth0 (member 3)
      (Execution.start heldBackPlan).eligible = some true := by decide
  obtain rfl := Option.some.inj (hcovered.symm.trans hfalse)
  obtain rfl := Option.some.inj (hcovered'.symm.trans htrue)
  rw [hloop, Program.pure_eq_done, Program.pure_eq_done, Program.done.injEq,
    Prod.mk.injEq] at hloop'
  rcases hloop' with ⟨rfl, rfl⟩
  exact ⟨_, hr, outcomes, t, hloop, fun h => Bool.false_ne_true (hiff.mpr h), hiff'.mp rfl⟩

end Netfyr
