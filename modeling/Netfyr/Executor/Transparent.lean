import Netfyr.Executor.Reported
import Netfyr.Executor.View

/-!
# What Reaches the Kernel

An operation is decoded before it is looked at, and everything after works on
what it decodes to. So what is executed has passed the check of its kind, and an
assignment of a field is the same as the operation it stands for: a run of the
plan that says so makes the same calls and ends in the same outcomes.

The checks that look ahead read the plan as it was written, but they look for
removals of addresses, which no assignment stands for. Reports name the kinds as
they were written.

## Main definitions

* `OperationKind.Executable`: What is passed to the transport.
* `OperationKind.explicit`: The operation an assignment stands for.
* `FaresLike`: The same calls and the same outcomes.

## Theorems

* `decode_executable`: What a kind decodes to is executable.
* `decode_explicit`: An assignment decodes as what it stands for.
* `removalIsCovered_explicit`: The plan ahead, read as written, looks the same.
* `step_explicit`, `runLoop_explicit`: A step and a whole run.
* `run_transparent`: Only executable operations are executed, and assignments
  are transparent.
-/

namespace Netfyr

open Interact

/-- An operation the transport is asked for: an MTU in the range of the schema, a
    state, an address that may be added, or one that may be looked up. -/
inductive OperationKind.Executable : OperationKind → Prop where
  | setMtu {mtu : UInt32} {node : TypedNode} :
      SchemaRegistry.new.base.root.property "mtu" = some node → InRange node mtu.toNat →
      Executable (.setMtu mtu)
  | setEnabled {enabled : Bool} : Executable (.setEnabled enabled)
  | addIpv4 {addr : Ipv4Address} : addr.prefixLen.toNat ≤ 32 → addr.lifetimes.1 ≠ 0 →
      addr.lifetimes.2 ≤ addr.lifetimes.1 → Executable (.addIpv4 addr)
  | replaceIpv4 {addr : Ipv4Address} : addr.prefixLen.toNat ≤ 32 → addr.lifetimes.1 ≠ 0 →
      addr.lifetimes.2 ≤ addr.lifetimes.1 → Executable (.replaceIpv4 addr)
  | removeIpv4 {addr : Ipv4Address} : addr.prefixLen.toNat ≤ 32 → Executable (.removeIpv4 addr)

/-- The operation that an assignment of the MTU or the administrative state
    stands for; any other is itself. -/
def OperationKind.explicit (self : OperationKind) : OperationKind :=
  match self with
  | .setField field (.u64 mtu) =>
      if field = "mtu" ∧ mtu.toNat < 2 ^ 32 then .setMtu mtu.toUInt32 else self
  | .setField field (.bool enabled) =>
      if field = "enabled" then .setEnabled enabled else self
  | _ => self

/-- An operation with an explicit kind. -/
def Operation.explicit (self : Operation) : Operation := { self with kind := self.kind.explicit }

/-- A plan with explicit kinds. -/
def StateDiff.explicit (self : StateDiff) : StateDiff :=
  { self with operations := self.operations.map Operation.explicit }

section Decoding

theorem base_mtu : ∃ node, SchemaRegistry.new.base.root.property "mtu" = some node := ⟨_, rfl⟩

theorem mtu_notMem_triggerKeys : "mtu" ∉ SchemaRegistry.new.triggerKeys := by decide

/-- A state that sets the MTU alone is valid when the MTU is in range. -/
theorem inRange_of_mtuState {mtu : UInt32}
    (h : SchemaRegistry.new.validateWritable (mtuState mtu) = []) :
    ∃ node, SchemaRegistry.new.base.root.property "mtu" = some node ∧
      InRange node mtu.toNat := by
  rcases base_mtu with ⟨node, hnode⟩
  -- The base fragment is checked on every state, and `mtu` is one of its properties.
  have hconforms := SchemaRegistry.validateInner_eq_nil.mp h SchemaRegistry.new.base
    SchemaRegistry.new.base_mem
  have hbase := (hconforms.1 SchemaRegistry.new.base_triggerKey).1
  have hentries : (mtuState mtu).fields.entries = [("mtu", .u64 mtu.toUInt64)] := rfl
  rw [hentries, conformsEntries_iff] at hbase
  have hown := ((hbase _ List.mem_cons_self mtu_notMem_triggerKeys).1 node hnode).2
  have hrange : InRange node mtu.toUInt64.toNat := hown.2
  rw [UInt32.toNat_toUInt64] at hrange
  exact ⟨node, hnode, hrange⟩

/-- What a kind decodes to is executable. -/
theorem decode_executable {kind decoded : OperationKind}
    (h : decode kind .new = .ok (some decoded)) : decoded.Executable := by
  have hchecked := decode_checked h
  cases decoded with
  | setMtu mtu =>
      unfold checkDecoded at hchecked
      by_cases hvalid : SchemaRegistry.new.validateWritable (mtuState mtu) = []
      · rcases inRange_of_mtuState hvalid with ⟨node, hnode, hrange⟩
        exact .setMtu hnode hrange
      · simp only [if_neg hvalid, reduceCtorEq] at hchecked
  | setEnabled enabled => exact .setEnabled
  | addIpv4 addr =>
      have hvalid := validate_of_checkDecoded (Or.inl rfl) hchecked
      rcases Ipv4Address.validate_ok_iff.mp hvalid with ⟨hshort, hzero, hexceeds⟩
      exact .addIpv4 hshort hzero hexceeds
  | replaceIpv4 addr =>
      have hvalid := validate_of_checkDecoded (Or.inr rfl) hchecked
      rcases Ipv4Address.validate_ok_iff.mp hvalid with ⟨hshort, hzero, hexceeds⟩
      exact .replaceIpv4 hshort hzero hexceeds
  | removeIpv4 addr =>
      -- A removal is not validated, but its group needs a mask of at most 32 bits.
      rcases decode_group h rfl with ⟨group, hgroup⟩
      refine .removeIpv4 (Nat.le_of_not_lt fun hlong => ?_)
      rw [Ipv4Address.group, masked, if_pos hlong] at hgroup
      exact absurd hgroup (by simp only [reduceCtorEq, not_false_eq_true])
  | setField field value =>
      -- An assignment decodes to a setting.
      rcases decode_some h with ⟨rfl, hkind⟩ | ⟨mtu, heq⟩ | ⟨enabled, heq⟩
      · exact absurd rfl (hkind field value).1
      · exact absurd heq (by simp only [reduceCtorEq, not_false_eq_true])
      · exact absurd heq (by simp only [reduceCtorEq, not_false_eq_true])
  | addEntity =>
      rcases decode_some h with ⟨rfl, hkind⟩ | ⟨mtu, heq⟩ | ⟨enabled, heq⟩
      · exact absurd rfl (hkind "" (.bool true)).2.1
      · exact absurd heq (by simp only [reduceCtorEq, not_false_eq_true])
      · exact absurd heq (by simp only [reduceCtorEq, not_false_eq_true])
  | removeEntity =>
      rcases decode_some h with ⟨rfl, hkind⟩ | ⟨mtu, heq⟩ | ⟨enabled, heq⟩
      · exact absurd rfl (hkind "" (.bool true)).2.2
      · exact absurd heq (by simp only [reduceCtorEq, not_false_eq_true])
      · exact absurd heq (by simp only [reduceCtorEq, not_false_eq_true])

/-- The schema knows both fields that can be assigned, and may write them. -/
theorem decodeSetField_mtu {mtu : UInt64} (hmtu : mtu.toNat < 2 ^ 32) :
    decodeSetField "mtu" (.u64 mtu) .new = .ok (some (.setMtu mtu.toUInt32)) := by
  -- A field without a dot is one of the base schema.
  have hinfo : ∃ info, SchemaRegistry.new.fieldInfo "base" "mtu" = some info ∧
      info.writable = true := ⟨_, rfl, rfl⟩
  have hsplit : splitOnce "mtu" '.' = none := by decide
  rcases hinfo with ⟨info, hinfo, hwritable⟩
  unfold decodeSetField
  simp only [hsplit, Option.getD_none, hinfo, hwritable]
  rw [if_neg (by decide), if_pos trivial, if_pos hmtu]

theorem decodeSetField_enabled {enabled : Bool} :
    decodeSetField "enabled" (.bool enabled) .new = .ok (some (.setEnabled enabled)) := by
  have hinfo : ∃ info, SchemaRegistry.new.fieldInfo "base" "enabled" = some info ∧
      info.writable = true := ⟨_, rfl, rfl⟩
  have hsplit : splitOnce "enabled" '.' = none := by decide
  rcases hinfo with ⟨info, hinfo, hwritable⟩
  unfold decodeSetField
  simp only [hsplit, Option.getD_none, hinfo, hwritable]
  rw [if_neg (by decide), if_neg (by decide), if_pos trivial]

/-- An assignment decodes as the operation it stands for. -/
theorem decode_explicit (kind : OperationKind) :
    decode kind.explicit .new = decode kind .new := by
  cases kind with
  | setField field value =>
      cases value with
      | u64 mtu =>
          by_cases hmtu : field = "mtu" ∧ mtu.toNat < 2 ^ 32
          · rw [OperationKind.explicit, if_pos hmtu]
            rcases hmtu with ⟨rfl, hlt⟩
            unfold decode
            simp only [decodeSetField_mtu hlt]
          · rw [OperationKind.explicit, if_neg hmtu]
      | bool enabled =>
          by_cases hfield : field = "enabled"
          · rw [OperationKind.explicit, if_pos hfield]
            subst hfield
            unfold decode
            simp only [decodeSetField_enabled]
          · rw [OperationKind.explicit, if_neg hfield]
      | _ => rfl
  | _ => rfl

end Decoding

section Plans

variable {diff : StateDiff} {index : Nat}

theorem extendRunnable_explicit (ops : List Operation) (position : Nat) (runnable : List Bool) :
    extendRunnable (ops.map Operation.explicit) position runnable =
      extendRunnable ops position runnable := by
  induction ops generalizing position runnable with
  | nil => rfl
  | cons op ops ih =>
      have hdeps : op.explicit.dependsOn = op.dependsOn := rfl
      rw [List.map_cons, extendRunnable, extendRunnable, hdeps]
      simp only [ih]

/-- No assignment stands for the removal of an address. -/
theorem removesAddress_explicit (op : Operation) :
    removesAddress op.explicit = removesAddress op := by
  funext target addr
  unfold removesAddress Operation.explicit
  congr 1
  cases op.kind with
  | setField field value =>
      cases value with
      | u64 mtu =>
          by_cases hmtu : field = "mtu" ∧ mtu.toNat < 2 ^ 32
          · simp only [OperationKind.explicit, if_pos hmtu]
          · simp only [OperationKind.explicit, if_neg hmtu]
      | bool enabled =>
          by_cases hfield : field = "enabled"
          · simp only [OperationKind.explicit, if_pos hfield]
          · simp only [OperationKind.explicit, if_neg hfield]
      | _ => rfl
  | _ => rfl

theorem removalIsCovered_explicit (target : InterfaceId) (addr : Ipv4Address)
    (eligible : List Bool) : removalIsCovered diff.explicit index target addr eligible =
      removalIsCovered diff index target addr eligible := by
  have hoperations : diff.explicit.operations = diff.operations.map Operation.explicit := rfl
  unfold removalIsCovered
  -- The look ahead reads dependencies and removals, which are the same.
  rw [hoperations, ← List.map_drop, extendRunnable_explicit, List.zipIdx_map, ← List.map_drop]
  simp only [Checked.anyChecked_map, Prod.map_fst, Prod.map_snd, id_eq, removesAddress_explicit]

theorem checkCascade_explicit (device : DeviceObservation) (kind : OperationKind)
    (eligible : List Bool) : checkCascade diff.explicit index device kind eligible =
      checkCascade diff index device kind eligible := by
  have huncovered : isUncovered diff.explicit index = isUncovered diff index := by
    funext device addr eligible primary secondary
    rw [isUncovered, isUncovered, removalIsCovered_explicit]
  unfold checkCascade
  rw [huncovered]

theorem expectedMembers_explicit (op : Operation) (kind : OperationKind)
    (expected actual : List AddressObservation) (eligible : List Bool) :
    expectedMembers diff.explicit index op.explicit kind expected actual eligible =
      expectedMembers diff index op kind expected actual eligible := by
  have htarget : op.explicit.target = op.target := rfl
  unfold expectedMembers
  simp only [removalIsCovered_explicit, htarget]

end Plans

section Runs

variable {diff : StateDiff} {preview : Bool} {namespaceId : NamespaceId} {index : Nat}

/-- The kind of an operation is not looked at once it is decoded. -/
theorem check_explicit (op : Operation) (decoded : Option OperationKind)
    (observation : Observation) (groups : Groups) (eligible : List Bool) :
    check diff.explicit namespaceId index op.explicit decoded observation groups eligible =
      check diff namespaceId index op decoded observation groups eligible := by
  unfold check
  simp only [checkCascade_explicit]
  rfl

theorem verifyObservation_explicit (op : Operation) (kind : OperationKind) (addr : Ipv4Address)
    (predicted : DeviceObservation) (after : Observation) (eligible : List Bool) :
    verifyObservation diff.explicit namespaceId index op.explicit kind addr predicted after
        eligible =
      verifyObservation diff namespaceId index op kind addr predicted after eligible := by
  unfold verifyObservation
  simp only [expectedMembers_explicit]
  rfl

theorem carryOut_explicit (op : Operation) (position : Nat) (device : DeviceObservation)
    (kind : OperationKind) :
    carryOut diff.explicit preview namespaceId index op.explicit position device kind =
      carryOut diff preview namespaceId index op position device kind := by
  unfold carryOut performWrite verifyAddressWrite
  simp only [verifyObservation_explicit]
  rfl

theorem step_explicit (op : Operation) :
    step diff.explicit preview namespaceId index op.explicit =
      step diff preview namespaceId index op := by
  have hdecode : decode op.explicit.kind .new = decode op.kind .new := decode_explicit op.kind
  unfold step
  simp only [hdecode, check_explicit, carryOut_explicit]
  rfl

theorem runOperation_explicit (op : Operation) :
    runOperation diff.explicit preview namespaceId index op.explicit =
      runOperation diff preview namespaceId index op := by
  funext execution
  unfold runOperation
  simp only [step_explicit]
  rfl

/-- A run of the plan with explicit kinds is a run of the plan. -/
theorem runLoop_explicit :
    runLoop diff.explicit preview namespaceId = runLoop diff preview namespaceId := by
  -- The plans have the same length, so their runs start alike.
  have hstart : Execution.start diff.explicit = .start diff := by
    unfold Execution.start StateDiff.explicit
    simp only [List.length_map]
  have hoperations : diff.explicit.operations = diff.operations.map Operation.explicit := rfl
  unfold runLoop
  rw [hoperations, loop_map, hstart]
  simp only [runOperation_explicit]

/-- Only a kind that passed its check is executed. -/
theorem run_executable {tr : List IoEvent} {report : ApplyReport} {target : InterfaceId}
    {kind : OperationKind} {answer : Except BackendError Unit}
    (hrun : (run diff preview namespaceId).Runs tr report)
    (hmem : ⟨.execute target kind, answer⟩ ∈ tr) : kind.Executable := by
  rcases run_history hrun with ⟨h, hr⟩
  rcases List.append_of_mem hmem with ⟨before, after, hsplit⟩
  -- What is executed at an event was decoded in the step that executes it.
  rcases hr.executed hsplit with ⟨_, i, op, r, own, rest, _, _, _, _, _, result, s', _, _,
    observed, observation, position, device, groups, s₁, s₂, written, hexecuted⟩
  exact decode_executable hexecuted.decided.decode

/-- The report of a plan with explicit kinds says the same of each operation. -/
theorem reportRun_explicit {outcomes : List Outcome} {execution : Execution} {i : Nat}
    {outcome : Outcome} :
    (reportRun diff.explicit outcomes execution).ReportsAt diff.explicit i outcome ↔
      (reportRun diff outcomes execution).ReportsAt diff i outcome := by
  -- A report names an operation of its plan, and the plans have the same indices.
  have hop : (∃ op, diff.explicit.operations[i]? = some op) ↔
      ∃ op, diff.operations[i]? = some op := by
    have hoperations : diff.explicit.operations = diff.operations.map Operation.explicit := rfl
    rw [hoperations, List.getElem?_map, ← Option.isSome_iff_exists, ← Option.isSome_iff_exists,
      Option.isSome_map]
  rw [reportsAt_reportRun, reportsAt_reportRun, hop]

/-- Two plans fare alike when every run of one is a run of the other: the same
    calls answered the same, every operation with the same outcome, and the same
    diagnostics. -/
def FaresLike (diff other : StateDiff) (preview : Bool) (namespaceId : NamespaceId) : Prop :=
  ∀ tr report, (run diff preview namespaceId).Runs tr report →
    ∃ report', (run other preview namespaceId).Runs tr report' ∧
      (∀ i outcome, report.ReportsAt diff i outcome ↔ report'.ReportsAt other i outcome) ∧
      report.diagnostics = report'.diagnostics

/-- Plans with the same runs fare alike when their reports say the same. -/
theorem faresLike_of_runLoop {diff other : StateDiff}
    (h : runLoop diff preview namespaceId = runLoop other preview namespaceId)
    (hreports : ∀ outcomes execution i outcome,
      (reportRun diff outcomes execution).ReportsAt diff i outcome ↔
        (reportRun other outcomes execution).ReportsAt other i outcome) :
    FaresLike diff other preview namespaceId := by
  intro tr report hrun
  -- A run is the loop and a report that is read off its end.
  unfold run at hrun
  rw [h] at hrun
  rcases Program.runs_bind.mp hrun with ⟨t₁, t₂, ⟨outcomes, execution⟩, rfl, hloop, hdone⟩
  rcases Program.runs_done.mp hdone with ⟨rfl, rfl⟩
  refine ⟨reportRun other outcomes execution, ?_, fun i outcome => hreports _ _ i outcome, rfl⟩
  exact Program.runs_bind.mpr ⟨t₁, [], _, rfl, hloop, Program.runs_done.mpr ⟨rfl, rfl⟩⟩

/-- Only executable operations are executed, and a plan fares like the one with
    explicit kinds. -/
theorem run_transparent (diff : StateDiff) (preview : Bool) (namespaceId : NamespaceId) :
    (∀ tr report, (run diff preview namespaceId).Runs tr report →
      ∀ target kind answer, ⟨.execute target kind, answer⟩ ∈ tr → kind.Executable) ∧
      FaresLike diff diff.explicit preview namespaceId ∧
        FaresLike diff.explicit diff preview namespaceId := by
  refine ⟨fun tr report hrun target kind answer hmem => run_executable hrun hmem, ?_, ?_⟩
  · exact faresLike_of_runLoop runLoop_explicit.symm fun _ _ _ _ => reportRun_explicit.symm
  · exact faresLike_of_runLoop runLoop_explicit fun _ _ _ _ => reportRun_explicit

end Runs

end Netfyr
