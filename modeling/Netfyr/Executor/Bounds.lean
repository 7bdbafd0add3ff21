import Netfyr.Executor.Steps

/-!
# No Index Is Out of Range

The executor indexes two vectors: its eligibility vector, by the dependencies of
an operation, and the look-ahead's copy of it, by the dependencies and the
positions of the operations still to come. Both stay in range because a
dependency is only followed when it is earlier, and because each vector covers
the operations before the one looked at. The look-ahead has an invariant of its
own, which is that the vector has as many entries as operations were seen.

## Theorems

* `extendRunnable_eq_some`: The look-ahead covers every operation.
* `removalIsCovered_isSome`: The look-ahead reads no entry it lacks.
* `step_safe`: Nothing the executor reads in a step is missing.
-/

namespace Netfyr

open Interact

/-- The look-ahead completes, with one entry more for each operation. -/
theorem extendRunnable_eq_some (ops : List Operation) (position : Nat) (runnable : List Bool)
    (hlen : runnable.length = position) :
    ∃ result, extendRunnable ops position runnable = some result ∧
      result.length = position + ops.length := by
  induction ops generalizing position runnable with
  | nil => exact ⟨runnable, rfl, by rw [hlen, List.length_nil, Nat.add_zero]⟩
  | cons op ops ih =>
      -- A dependency is looked up only when it is earlier, hence covered.
      have htest : ∀ dependency ∈ op.dependsOn,
          (if dependency < position then runnable[dependency]? else some false) =
            some (runnable[dependency]?.getD false) := by
        intro dependency _
        by_cases hlt : dependency < position
        · rw [if_pos hlt, List.getElem?_eq_getElem (by omega), Option.getD_some]
        · rw [if_neg hlt, List.getElem?_eq_none (by omega), Option.getD_none]
      rw [extendRunnable, Checked.allChecked_eq_some htest]
      have hnext := ih (position + 1)
        (runnable ++ [op.dependsOn.all fun dependency => runnable[dependency]?.getD false])
        (by rw [List.length_append, List.length_singleton, hlen])
      rcases hnext with ⟨result, hresult, hlength⟩
      exact ⟨result, hresult, by rw [hlength, List.length_cons]; omega⟩

/-- The look-ahead of an operation of the plan reads no entry it lacks. -/
theorem removalIsCovered_isSome {diff : StateDiff} {index : Nat} {target : InterfaceId}
    {addr : Ipv4Address} {eligible : List Bool} (hindex : index < diff.operations.length)
    (hlen : eligible.length = diff.operations.length) :
    (removalIsCovered diff index target addr eligible).isSome = true := by
  unfold removalIsCovered
  rw [if_neg (by omega)]
  have hstart : (eligible.take index ++ [true]).length = index + 1 := by
    rw [List.length_append, List.length_take, List.length_singleton]
    omega
  rcases extendRunnable_eq_some (diff.operations.drop (index + 1)) (index + 1) _ hstart with
    ⟨runnable, hrunnable, hlength⟩
  rw [List.length_drop] at hlength
  simp only [hrunnable]
  refine Checked.anyChecked_isSome fun entry hentry => ?_
  have hmem := List.mem_of_mem_drop hentry
  have hlt : entry.2 < diff.operations.length := by
    have := List.snd_lt_of_mem_zipIdx hmem
    omega
  rw [List.getElem?_eq_getElem (by omega), Option.isSome_some]

theorem checkCascade_isSome {diff : StateDiff} {index : Nat} {device : DeviceObservation}
    {kind : OperationKind} {eligible : List Bool} (hindex : index < diff.operations.length)
    (hlen : eligible.length = diff.operations.length) :
    (checkCascade diff index device kind eligible).isSome = true := by
  unfold checkCascade
  split
  · next addr =>
      split
      · rfl
      · next primary _ =>
          have hany : (Checked.anyChecked
              (isUncovered diff index device addr eligible primary) device.addresses).isSome =
                true := by
            refine Checked.anyChecked_isSome fun secondary _ => ?_
            unfold isUncovered
            split
            · rfl
            · split
              · rfl
              · rw [Option.isSome_map]
                exact removalIsCovered_isSome hindex hlen
          rcases Option.isSome_iff_exists.mp hany with ⟨_ | _, hsome⟩
          · simp only [hsome, Option.isSome_some]
          · simp only [hsome, Option.isSome_some]
  · rfl

theorem check_isSome {diff : StateDiff} {namespaceId : NamespaceId} {index : Nat} {op : Operation}
    {decoded : Option OperationKind} {observation : Observation} {groups : Groups}
    {eligible : List Bool} (hindex : index < diff.operations.length)
    (hlen : eligible.length = diff.operations.length) :
    (check diff namespaceId index op decoded observation groups eligible).isSome = true := by
  unfold check
  split
  · rfl
  · next position hloc =>
      rcases locate_eq_ok.mp hloc with ⟨device, hlocated⟩
      simp only [hlocated.atPosition]
      split
      · rfl
      · next kind =>
          split
          · rfl
          · split
            · rfl
            · rfl
            · have hcascade : (checkCascade diff index device kind eligible).isSome = true :=
                checkCascade_isSome hindex hlen
              rcases Option.isSome_iff_exists.mp hcascade with ⟨_ | _, hsome⟩
              · simp only [hsome, Option.isSome_some]
              · simp only [hsome, Option.isSome_some]

theorem expectedMembers_isSome {diff : StateDiff} {index : Nat} {op : Operation}
    {kind : OperationKind} {expected actualGroup : List AddressObservation} {eligible : List Bool}
    (hindex : index < diff.operations.length) (hlen : eligible.length = diff.operations.length) :
    (expectedMembers diff index op kind expected actualGroup eligible).isSome = true := by
  unfold expectedMembers
  split
  · rw [Option.isSome_map]
    refine Checked.filterChecked_isSome fun entry _ => ?_
    split
    · rw [Option.isSome_map]
      exact removalIsCovered_isSome hindex hlen
    · rfl
  · rfl

theorem verifyObservation_isSome {diff : StateDiff} {namespaceId : NamespaceId} {index : Nat}
    {op : Operation} {kind : OperationKind} {addr : Ipv4Address} {predicted : DeviceObservation}
    {after : Observation} {eligible : List Bool} (hindex : index < diff.operations.length)
    (hlen : eligible.length = diff.operations.length) :
    (verifyObservation diff namespaceId index op kind addr predicted after eligible).isSome =
      true := by
  unfold verifyObservation
  split
  · rfl
  · next position hloc =>
      rcases locate_eq_ok.mp hloc with ⟨actual, hlocated⟩
      simp only [hlocated.atPosition]
      split
      · rfl
      · split
        · rfl
        · next key _ =>
            have hmembers : (expectedMembers diff index op kind (groupAddresses predicted key)
                (groupAddresses actual key) eligible).isSome = true :=
              expectedMembers_isSome hindex hlen
            rcases Option.isSome_iff_exists.mp hmembers with ⟨members, hsome⟩
            simp only [hsome]
            split <;> rfl

/-- Observing leaves eligibility as it was. -/
theorem Observed.eligible {s s' : Execution} {tr : List IoEvent} {observation : Observation}
    (h : Observed s tr observation s') : s'.eligible = s.eligible := by
  cases h with
  | cached _ => rfl
  | fetched _ => rfl

/-- A write leaves eligibility as it was. -/
theorem Wrote.eligible {diff : StateDiff} {namespaceId : NamespaceId} {index : Nat}
    {op : Operation} {device : DeviceObservation} {kind : OperationKind} {s s' : Execution}
    {tr : List IoEvent} {r : Except BackendError DeviceObservation}
    (h : Wrote diff namespaceId index op device kind s tr r s') : s'.eligible = s.eligible := by
  cases h <;> rfl

/-- A step leaves eligibility as it was: the loop settles it afterwards. -/
theorem Stepped.eligible {diff : StateDiff} {preview : Bool} {namespaceId : NamespaceId}
    {index : Nat} {op : Operation} {s s' : Execution} {tr : List IoEvent}
    {r : Except BackendError (Option SkipReason)}
    (h : Stepped diff preview namespaceId index op s tr r s') : s'.eligible = s.eligible := by
  cases h with
  | cancelled => rfl
  | undecoded _ => rfl
  | unobserved _ _ => rfl
  | refused hd => exact hd.observed.eligible
  | skipped hd => exact hd.observed.eligible
  | projected _ hd => exact hd.observed.eligible
  | unwritten _ hd hw => exact hw.eligible.trans hd.observed.eligible
  | written _ hd hw => exact hw.eligible.trans hd.observed.eligible

section Safety

variable {diff : StateDiff} {namespaceId : NamespaceId} {index : Nat} {op : Operation}
  {s : Execution}

theorem observe_safe : observe.Safe s := by
  unfold observe
  rw [Action.safe_get_bind]
  cases s.current with
  | some observation => exact Action.safe_pure
  | none =>
      refine Action.safe_perform_bind.mpr fun answer => ?_
      exact Action.safe_ofExcept_bind fun observation _ => trivial

theorem verifyAddressWrite_safe {kind : OperationKind} {addr : Ipv4Address}
    {predicted : DeviceObservation} (hindex : index < diff.operations.length)
    (hlen : s.eligible.length = diff.operations.length) :
    (verifyAddressWrite diff namespaceId index op kind addr predicted).Safe s := by
  unfold verifyAddressWrite
  refine Action.safe_perform_bind.mpr fun answer => ?_
  refine Action.safe_ofExcept_bind fun after _ => ?_
  rw [Action.safe_modify_bind, Action.safe_get_bind]
  refine Action.safe_ofOption_bind (verifyObservation_isSome hindex hlen) fun verified _ => ?_
  exact Action.safe_ofExcept_bind fun actual _ => trivial

theorem carryOut_safe {preview : Bool} {position : Nat} {device : DeviceObservation}
    {kind : OperationKind} (hindex : index < diff.operations.length)
    (hlen : s.eligible.length = diff.operations.length) :
    (carryOut diff preview namespaceId index op position device kind).Safe s := by
  unfold carryOut
  cases preview with
  | true => exact fun _ => trivial
  | false =>
      rw [if_neg (by decide)]
      unfold performWrite
      refine Action.safe_perform_bind.mpr fun cancelled => ?_
      refine Action.safe_failWhen_bind fun _ => ?_
      rw [Action.safe_modify_bind]
      refine Action.safe_perform_bind.mpr fun answer => ?_
      refine Action.safe_ofExcept_bind fun _ _ => ?_
      refine Action.safe_perform_bind.mpr fun now => ?_
      cases haddr : kind.ipv4Address with
      | none => exact Action.safe_pure
      | some addr => exact verifyAddressWrite_safe hindex hlen

/-- Nothing a step reads is missing. -/
theorem step_safe {preview : Bool} (hindex : index < diff.operations.length)
    (hlen : s.eligible.length = diff.operations.length) :
    (step diff preview namespaceId index op).Safe s := by
  unfold step
  refine Action.safe_perform_bind.mpr fun cancelled => ?_
  refine Action.safe_failWhen_bind fun _ => ?_
  refine Action.safe_ofExcept_bind fun decoded _ => ?_
  refine Action.safe_bind observe_safe fun tr observation s₁ hobserve => ?_
  have hlen₁ : s₁.eligible.length = diff.operations.length := by
    rcases observe_cases hobserve with ⟨_, _, hobserved⟩ | ⟨_, habs, _⟩
    · rw [hobserved.eligible, hlen]
    · exact absurd habs (by simp only [reduceCtorEq, not_false_eq_true])
  rw [Action.safe_get_bind]
  refine Action.safe_ofOption_bind (check_isSome hindex hlen₁) fun checked hchecked => ?_
  rw [Action.safe_modify_bind]
  refine Action.safe_ofExcept_bind fun verdict hverdict => ?_
  cases verdict with
  | skip reason => exact Action.safe_pure
  | write position device kind =>
      refine Action.safe_bind (carryOut_safe hindex hlen₁) fun tr predicted s₂ _ => ?_
      refine Action.safe_bind ?_ fun tr _ s₃ _ => Action.safe_pure
      unfold commit
      rw [Action.safe_modify_bind]
      exact Action.safe_ofExcept_bind fun key _ => trivial

end Safety

end Netfyr
