import Netfyr.Worker.Attested
import Netfyr.Worker.Channel

/-!
# What a Caller Is Told

A call that applies a plan returns a report in the end, whatever becomes of the
worker, and the report has exactly one entry for each operation of the plan. What
it says can be held against the calls that were made for this caller, among those
for all the others.

If the request was not sent, nothing was called for it. If it was sent and the
reply is lost, the worker broke down, and the report says that writes may have
applied. It says so of the operations that depend on no other. Those that do are
reported as skipped, as they are when nothing was sent, so of a lost reply these
entries say nothing of the calls.

If the worker replied, the calls fall into one piece for each operation, and the
report attests the pieces. In all three cases an operation is reported as done
only if the kernel acknowledged its message.

## Main definitions

* `SaysUnrun`: What is said of a plan without a reply to it.
* `Returned`: What a call says of the calls made for it.

## Theorems

* `apply_returned`: What applying a plan returns.
-/

namespace Netfyr

open Interact

/-- What a report says of a plan when the worker has not: every operation has failed
    with the error, or is skipped for the operations it depends on. -/
def SaysUnrun (report : ApplyReport) (diff : StateDiff) (error : BackendError) : Prop :=
  ∀ k outcome, report.ReportsAt diff k outcome ↔ ∃ op, diff.operations[k]? = some op ∧
    outcome = if op.dependsOn.isEmpty then .failed error
      else .skipped (.dependencyFailed op.dependsOn)

/-- What a call that applies a plan says of the calls that were made for it. -/
structure Returned (labels : List WorkerHappening) (caller : Nat) (diff : StateDiff)
    (delivery : Delivery ApplyReport) : Prop where
  covers : Covers (NetlinkBackend.apply diff delivery) diff.contexts
  /-- What is reported as done was acknowledged. -/
  succeeded : ∀ k, (NetlinkBackend.apply diff delivery).ReportsAt diff k .succeeded →
    ∃ message flags answer packets,
      ⟨.transport (.request message flags), answer⟩ ∈ callsFor caller labels ∧
        message.isWrite = true ∧ answer.collected .write = .ok packets
  refused : delivery = .refused → .crashed ∈ labels ∧ callsFor caller labels = [] ∧
    SaysUnrun (NetlinkBackend.apply diff delivery) diff disconnected
  lost : delivery = .lost → .crashed ∈ labels ∧
    ⟨some caller, .request (.apply diff)⟩ ∈ sentJobs labels ∧
    SaysUnrun (NetlinkBackend.apply diff delivery) diff unreported
  replied : ∀ report, delivery = .replied report → ∃ pieces : List (List WorkerEvent),
    callsFor caller labels = pieces.flatten ∧ pieces.length = diff.operations.length ∧
    ∀ k piece, pieces[k]? = some piece → ∃ op outcome, diff.operations[k]? = some op ∧
      (∀ other, report.ReportsAt diff k other ↔ outcome = other) ∧ AttestedOnWire op piece outcome

section Failed

variable {diff : StateDiff} {failure : BackendError} {k : Nat}

/-- A plan that could not be run has nothing done. -/
theorem failedReport_not_succeeded : ¬ (failedReport diff failure).ReportsAt diff k .succeeded := by
  intro hreports
  rcases failedReport_reportsAt.mp hreports with ⟨op, _, hout⟩
  unfold failedOutcome at hout
  by_cases hdepends : op.dependsOn.isEmpty = true
  · rw [if_pos hdepends] at hout
    exact absurd hout (by simp only [reduceCtorEq, not_false_eq_true])
  · rw [if_neg hdepends] at hout
    exact absurd hout (by simp only [reduceCtorEq, not_false_eq_true])

/-- What is said of it. -/
theorem failedReport_saysUnrun : SaysUnrun (failedReport diff failure) diff failure :=
  fun _ _ => failedReport_reportsAt

end Failed

/-- A call that applies a plan is answered in one of three ways, and in each what
    it returns is true of the calls that were made for it. -/
theorem apply_returned (describe : Match → String) (start : LinuxTransport)
    (labels : List WorkerHappening) (sys : WorkerSystem)
    (hreaches : WorkerReaches describe start labels sys) (caller : Nat) (diff : StateDiff)
    (delivery : Delivery (Option WorkerReply))
    (hdelivery : (sys.callers caller).delivery = some (.request (.apply diff), delivery)) :
    ∃ own : Delivery ApplyReport, delivery = own.map (fun report => some (.applied report)) ∧
      Returned labels caller diff own := by
  cases hplace : sys.callers caller with
  | absent | sending _ | waiting _ | abandoned =>
      rw [hplace] at hdelivery
      exact absurd hdelivery (by simp [Caller.delivery])
  | refused input =>
      rw [hplace, Caller.delivery, Option.some.injEq, Prod.mk.injEq] at hdelivery
      rcases hdelivery with ⟨rfl, rfl⟩
      have hcalls : callsFor caller labels = [] := hreaches.uncalled (by rw [hplace]; rfl)
      have hcrashed := hreaches.orderly.served caller _ (Or.inl hplace)
      exact ⟨.refused, rfl,
        { covers := covers_failedReport
          succeeded := fun k hreports => absurd hreports failedReport_not_succeeded
          refused := fun _ => ⟨hcrashed, hcalls, failedReport_saysUnrun⟩
          lost := fun habs => absurd habs (by simp)
          replied := fun report habs => absurd habs (by simp) }⟩
  | lost input =>
      rw [hplace, Caller.delivery, Option.some.injEq, Prod.mk.injEq] at hdelivery
      rcases hdelivery with ⟨rfl, rfl⟩
      have hsent := hreaches.placed.lost caller _ hplace
      have hcrashed := hreaches.orderly.served caller _ (Or.inr hplace)
      exact ⟨.lost, rfl,
        { covers := covers_failedReport
          succeeded := fun k hreports => absurd hreports failedReport_not_succeeded
          refused := fun habs => absurd habs (by simp)
          lost := fun _ => ⟨hcrashed, hsent, failedReport_saysUnrun⟩
          replied := fun report habs => absurd habs (by simp) }⟩
  | replied input outcome =>
      rw [hplace, Caller.delivery, Option.some.injEq, Prod.mk.injEq] at hdelivery
      rcases hdelivery with ⟨rfl, rfl⟩
      rcases hreaches.replied hplace with ⟨s, s', _, hplayed⟩
      have hrun : (serveInput describe 0 (.request (.apply diff)) s).Runs (callsFor caller labels)
          (outcome, s') := hplayed
      rcases serveInput_attested hrun with ⟨report, pieces, rfl, hcovers, hcalls, hlength, hall⟩
      refine ⟨.replied report, rfl,
        { covers := hcovers
          succeeded := fun k hreports => ?_
          refused := fun habs => absurd habs (by simp)
          lost := fun habs => absurd habs (by simp)
          replied := fun other hother => ?_ }⟩
      · -- The piece of the operation has the message.
        rcases hreports with ⟨op, hop, hreport⟩
        have hlt : k < pieces.length := by
          rw [hlength]
          exact (List.getElem?_eq_some_iff.mp hop).choose
        rcases hall k pieces[k] (List.getElem?_eq_getElem hlt) with
          ⟨op', outcome, _, hsame, hattested⟩
        rcases hattested.succeeded ((hsame _).mp ⟨op, hop, hreport⟩) with
          ⟨message, flags, answer, packets, hmem, hwrite, hcollected⟩
        refine ⟨message, flags, answer, packets, ?_, hwrite, hcollected⟩
        rw [hcalls]
        exact List.mem_flatten_of_mem (List.getElem_mem hlt) hmem
      · rw [← Delivery.replied.inj hother]
        exact ⟨pieces, hcalls, hlength, hall⟩

section Example

/-- The plan of a caller that waits to the end. -/
theorem vethApplied_heard :
    ((vethApplied 9).any fun applied => applied.2.2.all (heard false)) = true := by
  decide +kernel

/-- What the caller of that plan is told is true. -/
theorem apply_returned_veth : ∃ (labels : List WorkerHappening) (sys : WorkerSystem)
    (delivery : Delivery (Option WorkerReply)),
    (sys.callers 0).delivery = some (.request (.apply vethPlan), delivery) ∧
    ∃ own : Delivery ApplyReport, delivery = own.map (fun report => some (.applied report)) ∧
      Returned labels 0 vethPlan own := by
  rcases (Option.any_eq_true _ _).mp vethApplied_heard with
    ⟨⟨⟨reply, s⟩, _, tr⟩, happlied, hthere⟩
  rcases vethJob_taken with ⟨taken, htaken, hphase, hplace⟩
  have hstill : taken.gone vethJob = false := by
    simp [Service.gone, vethJob, hplace, Caller.isAbandoned]
  rcases htaken.plays hphase (Program.exec_runs happlied).1 (fun event hevent => by
    rw [hstill]
    exact List.all_eq_true.mp hthere event hevent) with ⟨sys, hreaches, _, _, _, hcallers⟩
  have hreplied : (sys.callers 0).delivery =
      some (.request (.apply vethPlan), .replied reply) := by
    rw [hcallers, Service.reply_own rfl hplace]
    rfl
  exact ⟨_, sys, _, hreplied, apply_returned _ _ _ _ hreaches 0 vethPlan _ hreplied⟩

end Example

end Netfyr
