import Netfyr.Executor.Reported
import Netfyr.Executor.View
import Netfyr.Kernel.Distinct

/-!
# Alarms over Acknowledged Writes

Plans applied when nothing goes wrong: every inventory and write succeeds, nobody
else writes and no time passes. An operation whose write was acknowledged is then
reported as failed in one case only, when the write removed a primary and the
kernel promoted a secondary that is not the first remaining member of the removed
address's prefix group. The executor expects the promotion of the first member or
of none.

## Main definitions

* `promotionExpected`: A write promotes the first member, or nothing.

## Theorems

* `Wrote.accepted_iff`: When an acknowledged write is accepted.
* `apply_acknowledged`: When an acknowledged write is reported as failed.
* `apply_falseAlarm`: A run with such an alarm.
-/

namespace Netfyr

open Interact

/-- Whether a write to the devices as they are promotes the first remaining member
    of its address's prefix group, or nothing. -/
def promotionExpected (promoteSecondaries : Bool) (devices : List DeviceObservation)
    (target : InterfaceId) (kind : OperationKind) : Bool :=
  match devices.find? fun device => device.identity.index == target.index with
  | none => true
  | some device => promotesFirst promoteSecondaries device kind

variable {diff : StateDiff} {namespaceId : NamespaceId} {index : Nat} {op : Operation}
  {observation : Observation} {position : Nat} {device : DeviceObservation}
  {kind : OperationKind} {promoteSecondaries : Bool} {now : Instant}
  {start devices devices' : List DeviceObservation} {tr : List IoEvent}

/-- The device of a located target is the one a write goes to. -/
theorem Located.promotionExpected (h : Located observation op.target namespaceId position device)
    (hshows : ShowsExactly observation devices) :
    promotionExpected promoteSecondaries devices op.target kind =
      promotesFirst promoteSecondaries device kind := by
  obtain rfl : observation.devices = devices := hshows
  have hfind : observation.devices.find? (fun device =>
      device.identity.index == op.target.index) = some device := by
    rw [List.find?_eq_bind_findIdx?_getElem?, h.isFirst]
    exact h.atPosition
  unfold Netfyr.promotionExpected
  rw [hfind]

/-- An acknowledged write is accepted when the promotion, if there is one, is where
    it is expected. -/
theorem Wrote.accepted_iff {groups groups' : Groups} {s s' : Execution}
    {rest : List IoEvent} {result : Except BackendError DeviceObservation}
    (h : Wrote diff namespaceId index op device kind s
      (⟨.cancelled, false⟩ :: ⟨.execute op.target kind, .ok ()⟩ :: rest) result s')
    (hdecided : DecidedWrite diff namespaceId index op (some kind) observation groups groups'
      s.eligible position device kind) (hshows : ShowsExactly observation devices)
    (hwell : WellFormed now devices)
    (hadmits : Admits (steadyKernel promoteSecondaries now) devices
      (⟨.cancelled, false⟩ :: ⟨.execute op.target kind, .ok ()⟩ :: rest) devices') :
    (∃ predicted, result = .ok predicted) ↔
      promotesFirst promoteSecondaries device kind = true := by
  have hmem : device ∈ devices := by
    rw [← hshows]
    exact List.mem_of_getElem? hdecided.located.atPosition
  -- The inventory after the write shows the device in place, as the kernel left it.
  have hlocated : ∀ diagnostics, Located
      ⟨kernelApply promoteSecondaries op.target kind devices, diagnostics⟩ op.target namespaceId
      position (kernelWrite promoteSecondaries device kind) := by
    intro diagnostics
    have hwritten : Located
        (observation.written position (kernelWrite promoteSecondaries device kind)) op.target
        namespaceId position (kernelWrite promoteSecondaries device kind) :=
      hdecided.located.written kernelWrite_identity
    rw [hdecided.located.kernelApply hshows, ← hshows]
    exact ⟨hwritten.isFirst, hwritten.atPosition, hwritten.isTarget, hwritten.isEthernet,
      hwritten.inNamespace⟩
  have hverifies : ∀ {addr diagnostics}, kind.ipv4Address = some addr →
      ((∃ actual, verifyObservation diff namespaceId index op kind addr (predict device kind now)
        ⟨kernelApply promoteSecondaries op.target kind devices, diagnostics⟩ s.eligible =
          some (.ok actual)) ↔ promotesFirst promoteSecondaries device kind = true) :=
    fun haddr => hdecided.verifies_iff haddr (hwell.instant device hmem)
      (hwell.distinct device hmem) (hlocated _)
  rcases hadmits with ⟨_, hcancelled, _, ⟨_, rfl⟩, hrest⟩
  obtain rfl := hcancelled
  cases h with
  | scalar hscalar =>
      refine iff_of_true ⟨_, rfl⟩ ?_
      cases kind with
      | removeIpv4 _ => exact absurd hscalar (by simp [OperationKind.ipv4Address])
      | addIpv4 _ => exact absurd hscalar (by simp [OperationKind.ipv4Address])
      | replaceIpv4 _ => exact absurd hscalar (by simp [OperationKind.ipv4Address])
      | setMtu _ => rfl
      | setEnabled _ => rfl
      | setField _ _ => rfl
      | addEntity => rfl
      | removeEntity => rfl
  | unobserved _ =>
      rcases hrest with ⟨_, _, _, ⟨_, _, habs⟩, _⟩
      exact absurd habs (by simp)
  | @misverified clock _ _ _ haddr hverified =>
      rcases hrest with ⟨_, ⟨rfl, hclock⟩, _, ⟨_, diagnostics, hafter⟩, _⟩
      obtain rfl := Except.ok.inj hafter
      obtain rfl : clock = now := hclock
      rw [← hverifies haddr, hverified]
      simp
  | @verified clock _ _ _ haddr hverified =>
      rcases hrest with ⟨_, ⟨rfl, hclock⟩, _, ⟨_, diagnostics, hafter⟩, _⟩
      obtain rfl := Except.ok.inj hafter
      obtain rfl : clock = now := hclock
      rw [← hverifies haddr, hverified]
      exact iff_of_true ⟨_, rfl⟩ ⟨_, rfl⟩

/-- An operation that sent a write is reported as failed when the write was not
    accepted. -/
theorem Executed.failed_iff {h : List ExecRound} {r : ExecRound} {report : ApplyReport}
    {own rest observed : List IoEvent} {answer : Except BackendError Unit}
    {result : Except BackendError (Option SkipReason)} {s' s₁ s₂ : Execution} {groups : Groups}
    {written : Except BackendError DeviceObservation}
    (hexecuted : Executed diff namespaceId index op r.before own kind answer rest result s' observed
      observation position device groups s₁ s₂ written)
    (hr : RunHistory diff false namespaceId tr report h)
    (hat : RoundAt diff false namespaceId h index op r) (hout : r.outcome = outcomeOf result) :
    (∃ e, report.ReportsAt diff index (.failed e)) ↔ ¬ ∃ predicted, written = .ok predicted := by
  have hconcluded := hexecuted.concluded
  cases written with
  | error e =>
      rw [hconcluded.1] at hout
      exact iff_of_true ⟨e, (hr.reportsAt_iff hat).mpr hout⟩ (by simp)
  | ok predicted =>
      rw [hconcluded.1] at hout
      refine iff_of_false ?_ (not_not_intro ⟨predicted, rfl⟩)
      rintro ⟨e, hfailed⟩
      have hsame := hout.symm.trans ((hr.reportsAt_iff hat).mp hfailed)
      exact absurd hsame (by simp [outcomeOf])

/-- When nothing goes wrong, an operation whose write was acknowledged is reported
    as failed exactly when the write promoted a secondary other than the first
    remaining member of its address's prefix group. -/
theorem apply_acknowledged {report : ApplyReport} (hwell : WellFormed now start)
    (hrun : (applyPlan diff namespaceId).Runs tr report)
    (hadmits : Admits (steadyKernel promoteSecondaries now) start tr devices) :
    ∃ h, RunHistory diff false namespaceId tr report h ∧
      ∀ before target kind after, tr = before ++ ⟨.execute target kind, .ok ()⟩ :: after →
        ∃ i op r own rest, RoundAt diff false namespaceId h i op r ∧
          before = callsOf (h.take i) ++ own ∧
          r.calls = own ++ ⟨.execute target kind, .ok ()⟩ :: rest ∧ target = op.target ∧
          decode op.kind .new = .ok (some kind) ∧
          ((∃ e, report.ReportsAt diff i (.failed e)) ↔
            promotionExpected promoteSecondaries (kernelAfter promoteSecondaries start before)
              target kind = false) := by
  rcases run_history hrun with ⟨h, hr⟩
  refine ⟨h, hr, fun before target kind after hsplit => ?_⟩
  rcases hr.executed hsplit with ⟨_, i, op, r, own, rest, hat, hbefore, hafter, hcalls, rfl, result,
    s', hout, _, observed, observation, position, device, groups, s₁, s₂, written, hexecuted⟩
  refine ⟨i, op, r, own, rest, hat, hbefore, hcalls, rfl, hexecuted.decided.decode, ?_⟩
  -- The trace, cut at the start of the round and before and after the write.
  have hcut : tr = callsOf (h.take i) ++ (⟨.cancelled, false⟩ :: (observed ++
      ((⟨.cancelled, false⟩ :: ⟨.execute op.target kind, .ok ()⟩ :: rest) ++
        callsOf (h.drop (i + 1))))) := by
    rw [hsplit, hbefore, hexecuted.cut, hafter]
    simp only [List.append_assoc, List.cons_append, List.nil_append]
  rw [hcut] at hadmits
  rcases admits_append.mp hadmits with ⟨devices₁, hhistory, devices₂, hopened, hround⟩
  obtain rfl : devices₂ = devices₁ := hopened
  rcases admits_append.mp hround with ⟨devices₃, hobserve, hwrite⟩
  rcases admits_append.mp hwrite with ⟨_, hwrite, _⟩
  rcases hat.history.wellFormed hwell hhistory with ⟨hwell₁, hshows⟩
  rcases hexecuted.decided.faithful steadyKernel_faithful hobserve hshows with
    ⟨rfl, hshown, _, _⟩
  have hdecided := check_write hexecuted.decided.checked
  have hstate : kernelAfter promoteSecondaries start before = devices₃ := by
    have hprefix : Admits (steadyKernel promoteSecondaries now) start before devices₃ := by
      rw [hbefore, hexecuted.cut]
      refine admits_append.mpr ⟨devices₃, hhistory, devices₃, rfl, ?_⟩
      exact admits_append.mpr ⟨devices₃, hobserve, devices₃, rfl, rfl⟩
    exact (steadyKernel_after hprefix).symm
  have haccepted := hexecuted.wrote.accepted_iff hdecided hshown hwell₁ hwrite
  rw [hexecuted.failed_iff hr hat hout, haccepted, hstate,
    hdecided.located.promotionExpected hshown, Bool.not_eq_true]

/-- The kernel acknowledges a write that was sent to it. -/
theorem steadyKernel_acknowledges {promotes : Bool} {now : Instant}
    {devices devices' : List DeviceObservation} {tr : List IoEvent} {target : InterfaceId}
    {kind : OperationKind} (hadmits : Admits (steadyKernel promotes now) devices tr devices')
    (hmem : IoCall.execute target kind ∈ tr.map Sigma.fst) :
    ∃ before after, tr = before ++ ⟨.execute target kind, .ok ()⟩ :: after := by
  rcases List.mem_map.mp hmem with ⟨⟨call, answer⟩, hmem, rfl⟩
  rcases List.append_of_mem hmem with ⟨before, after, rfl⟩
  rcases admits_append.mp hadmits with ⟨_, _, _, ⟨hok, _⟩, _⟩
  obtain rfl : answer = .ok () := hok
  exact ⟨before, after, rfl⟩

/-- The first operation of the plan sends the write, and is not reported as
    failed. -/
theorem apply_acknowledged_group : ∃ tr report devices before after h op r own rest,
    (applyPlan groupRemovalPlan eth0.namespaceId).Runs tr report ∧
      Admits (steadyKernel true 0) [eth0Device [primary, secondary]] tr devices ∧
      tr = before ++ ⟨.execute eth0 (.removeIpv4 primary.address), .ok ()⟩ :: after ∧
      RoundAt groupRemovalPlan false eth0.namespaceId h 0 op r ∧
      r.calls = own ++ ⟨.execute eth0 (.removeIpv4 primary.address), .ok ()⟩ :: rest ∧
      ((∃ e, report.ReportsAt groupRemovalPlan 0 (.failed e)) ↔
        promotionExpected true (kernelAfter true [eth0Device [primary, secondary]] before) eth0
          (.removeIpv4 primary.address) = false) ∧
      ¬ ∃ e, report.ReportsAt groupRemovalPlan 0 (.failed e) := by
  rcases run_executes groupRemovalPlan false eth0.namespaceId (kernelTransport true 0)
      [eth0Device [primary, secondary]] with ⟨report, devices, tr, hx, hrun, htransport⟩
  have hadmits := kernelTransport_admits htransport
  have hresult : ((run groupRemovalPlan false eth0.namespaceId).exec (kernelTransport true 0)
      [eth0Device [primary, secondary]]).map (fun out =>
        ((out.2.2.map Sigma.fst).take 4, out.1.failed.map FailedOperation.context)) =
      some ([.cancelled, .inventory, .cancelled, .execute eth0 (.removeIpv4 primary.address)],
        []) := by
    decide
  rw [hx, Option.map_some, Option.some.injEq, Prod.mk.injEq] at hresult
  have hmem : IoCall.execute eth0 (.removeIpv4 primary.address) ∈ tr.map Sigma.fst :=
    List.mem_of_mem_take (by rw [hresult.1]; decide)
  rcases steadyKernel_acknowledges hadmits hmem with ⟨before, after, hsplit⟩
  have hwell : WellFormed 0 [eth0Device [primary, secondary]] :=
    ⟨by decide, by decide, by decide⟩
  rcases apply_acknowledged hwell hrun hadmits with ⟨h, _, hall⟩
  rcases hall before eth0 _ after hsplit with
    ⟨i, op, r, own, rest, hat, _, hcalls, _, hdecode, hiff⟩
  -- The other operation of the plan is about another address.
  obtain rfl : i = 0 := by
    have hkind := decode_removeIpv4 hdecode
    have hop := hat.operation
    cases i with
    | zero => rfl
    | succ i =>
        rw [groupRemovalPlan, List.getElem?_cons_succ] at hop
        rw [List.mem_singleton.mp (List.mem_of_getElem? hop)] at hkind
        exact absurd hkind (by decide)
  refine ⟨tr, report, devices, before, after, h, op, r, own, rest, hrun, hadmits, hsplit, hat,
    hcalls, hiff, ?_⟩
  rintro ⟨e, _, _, hfailed⟩
  have hlisted := List.mem_map_of_mem (f := FailedOperation.context) hfailed
  rw [hresult.2] at hlisted
  exact absurd hlisted List.not_mem_nil

/-- The address 192.0.2.50/24 with the peer 198.51.100.9, as a primary. -/
def peered : AddressObservation :=
  { primary with
    address := ⟨Ipv4Addr.new 192 0 2 50, 24, none, none⟩
    peer := some (Ipv4Addr.new 198 51 100 9) }

/-- Removing 192.0.2.1/24 from a group that has a member with a peer. -/
def peeredRemoval : Operation :=
  { target := eth0
    kind := .removeIpv4 primary.address
    dependsOn := []
    addressGroup := some { addresses := [primary, peered, secondary], observedAt := 0 } }

/-- The plan that does so, and then removes the secondary. -/
def peeredRemovalPlan : StateDiff :=
  { changes := []
    operations := [
      peeredRemoval,
      { target := eth0
        kind := .removeIpv4 secondary.address
        dependsOn := [0]
        addressGroup := none }]
    diagnostics := [] }

/-- The kernel promotes 192.0.2.2/24, which is behind the member with a peer, and
    the removal is reported as failed after its write was acknowledged. -/
theorem apply_falseAlarm : WellFormed 0 [eth0Device [primary, peered, secondary]] ∧
    ∃ tr report devices before after,
      (applyPlan peeredRemovalPlan eth0.namespaceId).Runs tr report ∧
      Admits (steadyKernel true 0) [eth0Device [primary, peered, secondary]] tr devices ∧
      tr = before ++ ⟨.execute peeredRemoval.target peeredRemoval.kind, .ok ()⟩ :: after ∧
      ∃ e, report.ReportsAt peeredRemovalPlan 0 (.failed e) := by
  refine ⟨⟨by decide, by decide, by decide⟩, ?_⟩
  rcases run_executes peeredRemovalPlan false eth0.namespaceId (kernelTransport true 0)
      [eth0Device [primary, peered, secondary]] with ⟨report, devices, tr, hx, hrun, htransport⟩
  have hadmits := kernelTransport_admits htransport
  have hresult : ((run peeredRemovalPlan false eth0.namespaceId).exec (kernelTransport true 0)
      [eth0Device [primary, peered, secondary]]).map (fun out =>
        ((out.2.2.map Sigma.fst).take 4, out.1.failed.map FailedOperation.context)) =
      some ([.cancelled, .inventory, .cancelled, .execute eth0 peeredRemoval.kind],
        [.new 0 peeredRemoval]) := by
    decide
  rw [hx, Option.map_some, Option.some.injEq, Prod.mk.injEq] at hresult
  have hmem : IoCall.execute eth0 peeredRemoval.kind ∈ tr.map Sigma.fst :=
    List.mem_of_mem_take (by rw [hresult.1]; decide)
  rcases steadyKernel_acknowledges hadmits hmem with ⟨before, after, hsplit⟩
  have hfailed : OperationContext.new 0 peeredRemoval ∈
      report.failed.map FailedOperation.context := by
    rw [hresult.2]
    exact List.mem_singleton.mpr rfl
  rcases List.mem_map.mp hfailed with ⟨⟨context, e⟩, hentry, rfl⟩
  exact ⟨tr, report, devices, before, after, hrun, hadmits, hsplit, e, peeredRemoval, rfl, hentry⟩

end Netfyr
