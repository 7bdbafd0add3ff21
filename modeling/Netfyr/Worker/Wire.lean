import Netfyr.Executor.Discipline
import Netfyr.Worker.Jobs

/-!
# Writes on the Wire

A message that changes something leaves the worker in one situation only. The
request being served is a plan to apply, and the message is that of one of its
operations. The operation was decided on an inventory that this very request
made, in which its target is found as the plan names it, and nothing was written
since; then the target was confirmed, and between its confirmation and the
message there is nothing but a last look at the notifications.

This joins the two halves of the backend. The executor is known to decide on the
view and to write once, whatever the transport answers; the transport is known
to confirm what it writes to, whatever it is asked. A message on the wire has
both behind it.

The same holds across requests: an identity that was in the answer to an earlier
query is confirmed only if nothing was lost of it since, so a plan made of a
query writes to the device that was queried or not at all.

## Main definitions

* `WorkerCall.isWrite`: The calls that change something.
* `Approach`, `Approach.Leads`: The way to a message.

## Theorems

* `carriesOut_idle`: Without inventories and writes the transport rests.
* `apply_approached`: Every write of a plan has a way to it.
* `serveInput_approached`: Every write of a round has.
* `queried_identity_kept`: What was queried is what is written to.
-/

namespace Netfyr

open Interact

/-- Whether a call of the worker changes anything. -/
def WorkerCall.isWrite : WorkerCall → Bool
  | .transport call => call.isWrite
  | .now | .isClosed => false

/-- The way to a message: the inventory its operation was decided on, and the
    confirmation of its target. -/
structure Approach where
  earlier : List WorkerEvent
  before : LinuxTransport
  surveyed : List TransportEvent
  observation : Observation
  observed : LinuxTransport
  since : List WorkerEvent
  checked : List TransportEvent
  confirmed : LinuxTransport
  drained : List TransportEvent
  position : Nat
  device : DeviceObservation

/-- The way leads from the start of a request to a message of an operation. -/
structure Approach.Leads (approach : Approach) (namespaceId : NamespaceId) (own : List WorkerEvent)
    (op : Operation) (kind : OperationKind) (message : RouteNetlinkMessage) (flags : BitVec 16) :
    Prop where
  calls : own = approach.earlier ++ approach.surveyed.map wire ++ approach.since ++
    (approach.checked ++ approach.drained).map wire
  decoded : decode op.kind .new = .ok (some kind)
  /-- The inventory succeeded, and it is complete where the operation needs it. -/
  surveys : (LinuxTransport.inventory fun _ => false).Runs approach.before approach.surveyed
    (.ok approach.observation) approach.observed
  located : Located approach.observation op.target namespaceId approach.position approach.device
  complete : kind.ipv4Address.isSome = true → approach.device.addressesComplete = true
  unsatisfied : satisfied kind approach.device op = .ok false
  /-- Since the inventory nothing was asked of the kernel, and last the worker
      heard that the plan is not cancelled. -/
  idle : ∀ event ∈ approach.since, event.1 = .now ∨ event.1 = .isClosed
  asked : ∃ earlier, approach.since = earlier ++ [⟨.isClosed, false⟩]
  confirms : (LinuxTransport.confirmIdentity op.target).Runs approach.observed approach.checked
    (.ok ()) approach.confirmed
  seen : LinuxTransport.Confirmed approach.observed op.target approach.checked approach.confirmed
  drains : ∃ last, LinuxTransport.drainNotifications.Runs approach.confirmed approach.drained
    (.ok ()) last
  /-- The message is what the records of that inventory make of the operation. -/
  written : ∃ extra, flags = Exchange.write.flags ||| extra ∧
    writeMessage approach.observed.addressMessages op.target kind = .ok (message, extra)

section Carrying

variable {t t' : LinuxTransport}
  {carried : List (Carried LinuxTransport IoCall IoAnswer WorkerCall WorkerAnswer)}

/-- Without inventories and writes the transport rests. -/
theorem carriesOut_idle (h : CarriesOut transportIo t carried t')
    (hidle : ∀ event ∈ carried.map Carried.event, isIo event = false) :
    t' = t ∧ ∀ event ∈ callsBelow carried, event.1 = .now ∨ event.1 = .isClosed := by
  induction h with
  | nil t => exact ⟨rfl, fun event hmem => absurd hmem List.not_mem_nil⟩
  | @cons c rest t' hrun _ ih =>
      rw [List.map_cons, List.forall_mem_cons] at hidle
      rcases ih hidle.2 with ⟨hstate, hcalls⟩
      rw [callsBelow_cons, List.forall_mem_append]
      rcases c with ⟨before, ⟨call, answer⟩, calls, after⟩
      cases call with
      | inventory =>
          exact absurd hidle.1 (by simp only [isIo, Bool.true_eq_false, not_false_eq_true])
      | execute _ _ =>
          exact absurd hidle.1 (by simp only [isIo, Bool.true_eq_false, not_false_eq_true])
      | now =>
          rcases transportIo_now.mp hrun with ⟨hown, hafter⟩
          refine ⟨hstate.trans hafter, fun event hmem => ?_, hcalls⟩
          rw [hown, List.mem_singleton] at hmem
          rw [hmem]
          exact Or.inl rfl
      | cancelled =>
          rcases transportIo_cancelled.mp hrun with ⟨hown, hafter⟩
          refine ⟨hstate.trans hafter, fun event hmem => ?_, hcalls⟩
          rw [hown, List.mem_singleton] at hmem
          rw [hmem]
          exact Or.inr rfl

/-- What ends with the question for a cancellation ends with its answer. -/
theorem carriesOut_cancelled {before : List IoEvent} {answer : Bool}
    (h : CarriesOut transportIo t carried t')
    (heq : carried.map Carried.event = before ++ [⟨.cancelled, answer⟩]) :
    ∃ earlier, callsBelow carried = earlier ++ [⟨.isClosed, answer⟩] := by
  rcases h.split heq with ⟨first, ⟨u, event, calls, u'⟩, later, rfl, _, hc, hlater, _, hrun, _⟩
  obtain rfl : event = ⟨.cancelled, answer⟩ := hc
  obtain rfl : calls = [⟨.isClosed, answer⟩] := (transportIo_cancelled.mp hrun).1
  rw [List.map_eq_nil_iff] at hlater
  rw [hlater, callsBelow_append]
  exact ⟨callsBelow first, rfl⟩

/-- A write is made for a write. -/
theorem transportIo_write {call : IoCall} {answer : IoAnswer call} {tr : List WorkerEvent}
    (h : (transportIo call t).Runs tr (answer, t')) {event : WorkerEvent} (hmem : event ∈ tr)
    (hwrite : event.1.isWrite = true) : ∃ target kind, call = .execute target kind := by
  cases call with
  | execute target kind => exact ⟨target, kind, rfl⟩
  | inventory =>
      rcases transportIo_inventory.mp h with ⟨own, rfl, hrun⟩
      rcases List.mem_map.mp hmem with ⟨asked, hasked, rfl⟩
      -- An inventory surveys, which changes nothing.
      have hsurvey := (LinuxTransport.inventory_confined _ _ _ _ _ hrun).1 asked hasked
      have hquiet := TransportCall.isWrite_of_isSurvey hsurvey
      exact absurd (hwrite.symm.trans hquiet) (by simp only [Bool.true_eq_false,
        not_false_eq_true])
  | now =>
      rw [(transportIo_now.mp h).1, List.mem_singleton] at hmem
      rw [hmem] at hwrite
      exact absurd hwrite Bool.false_ne_true
  | cancelled =>
      rw [(transportIo_cancelled.mp h).1, List.mem_singleton] at hmem
      rw [hmem] at hwrite
      exact absurd hwrite Bool.false_ne_true

/-- The message of a write, where it was sent. -/
theorem transportIo_sent {target : InterfaceId} {kind : OperationKind}
    {result : Except BackendError Unit} {before after : List WorkerEvent}
    {message : RouteNetlinkMessage} {flags : BitVec 16} {answer : RequestAnswer}
    (h : (transportIo (.execute target kind) t).Runs
      (before ++ ⟨.transport (.request message flags), answer⟩ :: after) (result, t'))
    (hwrite : message.isWrite = true) :
    ∃ own checked confirmed drained extra,
      LinuxTransport.Sent t target kind own result t' checked confirmed drained message extra
        answer ∧
      flags = Exchange.write.flags ||| extra ∧ before = (checked ++ drained).map wire ∧
        after = [] := by
  rcases transportIo_execute.mp h with ⟨own, hown, hrun⟩
  have hsplit : own.map wire = before ++ wire ⟨.request message flags, answer⟩ :: after := hown.symm
  rcases map_wire_split hsplit with ⟨unsent, others, rfl, rfl, rfl⟩
  rcases LinuxTransport.execute_sent hrun with ⟨_, hquiet⟩ |
    ⟨checked, confirmed, drained, message', extra, reply, hsent⟩
  · have hnone := hquiet _ (List.mem_append_right unsent List.mem_cons_self)
    exact absurd (hwrite.symm.trans hnone) (by simp only [Bool.true_eq_false, not_false_eq_true])
  · rcases hsent.unique rfl hwrite with ⟨rfl, hsame, rfl⟩
    rw [Sigma.mk.injEq, TransportCall.request.injEq] at hsame
    rcases hsame with ⟨⟨rfl, rfl⟩, hanswer⟩
    obtain rfl := eq_of_heq hanswer
    exact ⟨_, checked, confirmed, drained, extra, hsent, rfl, rfl, rfl⟩

end Carrying

section Applied

variable {diff : StateDiff} {namespaceId : NamespaceId} {transport transport' : LinuxTransport}
  {carried : List (Carried LinuxTransport IoCall IoAnswer WorkerCall WorkerAnswer)}
  {report : ApplyReport}

/-- A group that is validated is one of a complete device. -/
theorem complete_of_validateGroup {op : Operation} {device : DeviceObservation}
    {kind : OperationKind} {groups groups' : Groups}
    (h : validateGroup op device kind groups = (.ok (), groups'))
    (haddr : kind.ipv4Address.isSome = true) : device.addressesComplete = true := by
  unfold validateGroup at h
  rcases Option.isSome_iff_exists.mp haddr with ⟨addr, haddr⟩
  rw [haddr] at h
  by_contra hincomplete
  rw [Bool.not_eq_true] at hincomplete
  simp [hincomplete] at h

/-- Every write of a plan has a way to it, which begins in the run of the plan. -/
theorem apply_approached {before after : List WorkerEvent} {message : RouteNetlinkMessage}
    {flags : BitVec 16} {answer : RequestAnswer}
    (hcarries : CarriesOut transportIo transport carried transport')
    (hrun : (applyPlan diff namespaceId).Runs (carried.map Carried.event) report)
    (hsplit : callsBelow carried = before ++ ⟨.transport (.request message flags), answer⟩ :: after)
    (hwrite : message.isWrite = true) :
    ∃ (index : Nat) (op : Operation) (kind : OperationKind) (approach : Approach)
      (earlier : List (Carried LinuxTransport IoCall IoAnswer WorkerCall WorkerAnswer)),
      diff.operations[index]? = some op ∧
      approach.Leads namespaceId before op kind message flags ∧
      approach.earlier = callsBelow earlier ∧
      CarriesOut transportIo transport earlier approach.before := by
  -- The message belongs to one call of the executor, and that call is a write.
  rcases callsBelow_split hsplit with ⟨earlier, c, later, own, rest, rfl, hcalls, rfl, rfl⟩
  rcases carriesOut_append.mp hcarries with ⟨u, hearlier, hc⟩
  rcases c with ⟨sending, ⟨call, result⟩, calls, left⟩
  obtain rfl : calls = own ++ ⟨.transport (.request message flags), answer⟩ :: rest := hcalls
  cases hc with
  | cons hcall _ =>
      have hmem : (⟨.transport (.request message flags), answer⟩ : WorkerEvent) ∈
          own ++ ⟨.transport (.request message flags), answer⟩ :: rest :=
        List.mem_append_right own List.mem_cons_self
      rcases transportIo_write hcall hmem hwrite with ⟨target, kind, rfl⟩
      rcases transportIo_sent hcall hwrite with ⟨_, checked, confirmed, drained, extra, hsent, rfl,
        rfl, _⟩
      -- What the executor decided on.
      rcases run_history hrun with ⟨h, hr⟩
      rw [List.map_append, List.map_cons] at hr
      rcases hr.executed rfl with ⟨_, i, op, r, _, _, hat, hbefore, _, _, rfl, _, _, _, _, _,
        observation, position, device, _, _, _, _, hexecuted⟩
      have hview := hexecuted.view hat.history.current
      rw [← hbefore] at hview
      have hlast := hbefore
      rw [hexecuted.cut, ← List.cons_append, ← List.append_assoc] at hlast
      rcases view_eq_some.mp hview with ⟨ios, since, hviewed, hsince⟩
      -- Where the inventory was carried out, and that nothing was since.
      rcases hearlier.split hviewed with ⟨first, c', between, rfl, _, hc', hbetween, hfirst,
        hsurvey, hafter⟩
      rcases c' with ⟨surveying, event, surveyed, observed⟩
      obtain rfl : event = ⟨.inventory, .ok observation⟩ := hc'
      rcases transportIo_inventory.mp hsurvey with ⟨asked, hsurveyed, hinventory⟩
      obtain rfl : surveyed = asked.map wire := hsurveyed
      have hasked : ∃ earlier, callsBelow between = earlier ++ [⟨.isClosed, false⟩] := by
        rw [hlast] at hviewed
        rcases List.eq_nil_or_concat since with rfl | ⟨others, event, rfl⟩
        · exact absurd (List.append_inj' hviewed rfl).2 (by simp)
        · rw [List.concat_eq_append, ← List.cons_append, ← List.append_assoc] at hviewed
          obtain rfl := List.singleton_inj.mp (List.append_inj' hviewed rfl).2
          exact carriesOut_cancelled hafter (hbetween.trans List.concat_eq_append)
      rw [← hbetween] at hsince
      rcases carriesOut_idle hafter hsince with ⟨hrested, hidle⟩
      obtain rfl : sending = observed := hrested
      let approach : Approach :=
        { earlier := callsBelow first, before := surveying, surveyed := asked, observation
          observed := sending, since := callsBelow between, checked, confirmed, drained, position
          device }
      have hleads : approach.Leads namespaceId
          (callsBelow first ++ (asked.map wire ++ callsBelow between) ++
            (checked ++ drained).map wire)
          op kind message (Exchange.write.flags ||| extra) :=
        { calls := by rw [List.append_assoc (callsBelow first) (asked.map wire)]
          decoded := hexecuted.decided.decode
          surveys := hinventory
          located := hexecuted.decision.located
          complete := complete_of_validateGroup hexecuted.decision.group
          unsatisfied := hexecuted.decision.unsatisfied
          idle := hidle
          asked := hasked
          confirms := hsent.confirms
          seen := LinuxTransport.confirmIdentity_confirmed hsent.confirms
          drains := ⟨_, hsent.drains⟩
          written := ⟨extra, rfl, hsent.written⟩ }
      refine ⟨i, op, kind, approach, first, hat.operation, ?_, rfl, hfirst⟩
      rwa [callsBelow_append, callsBelow_cons]

end Applied

section Authority

variable {describe : Match → String} {inputs : List WorkerInput} {start transport : LinuxTransport}
  {h : List WorkerRound} {i j : Nat} {r r' : WorkerRound}

/-- What is asked without a request changes nothing. -/
theorem nextNotification_quiet {transport' : LinuxTransport} {tr : List TransportEvent}
    {result : Except BackendError Unit}
    (h : LinuxTransport.nextNotification.Runs transport tr result transport') :
    ∀ event ∈ tr, event.1.isWrite = false := by
  have hrest := Action.runs_get_bind.mp h
  by_cases hclosed : transport.notificationsClosed = true
  · rw [if_pos hclosed] at hrest
    rw [(Action.runs_pure.mp hrest).1]
    exact fun event hmem => absurd hmem List.not_mem_nil
  · rw [if_neg hclosed] at hrest
    rcases Action.runs_perform_bind.mp hrest with ⟨item, rest, rfl, hmodify⟩
    rw [(Action.runs_modify.mp hmodify).1]
    intro event hmem
    rw [List.mem_singleton.mp hmem]
    rfl

/-- A preview changes nothing. -/
theorem preview_quiet {diff : StateDiff} {namespaceId : NamespaceId} {t t' : LinuxTransport}
    {carried : List (Carried LinuxTransport IoCall IoAnswer WorkerCall WorkerAnswer)}
    {report : DryRunReport} (hcarries : CarriesOut transportIo t carried t')
    (hrun : (previewPlan diff namespaceId).Runs (carried.map Carried.event) report) :
    ∀ event ∈ callsBelow carried, event.1.isWrite = false := by
  intro event hmem
  by_contra hwrite
  rw [Bool.not_eq_false] at hwrite
  rcases List.mem_flatMap.mp hmem with ⟨c, hc, hcall⟩
  rcases List.append_of_mem hc with ⟨earlier, later, rfl⟩
  rcases carriesOut_append.mp hcarries with ⟨u, _, hrest⟩
  cases hrest with
  | cons hcarried _ =>
      rcases transportIo_write hcarried hcall hwrite with ⟨target, kind, hexecute⟩
      -- The executor, previewing, would have asked for a write.
      rcases previewPlan_runs hrun with ⟨full, report', hfull, _, hin⟩
      have hio : c.event ∈ full := hin _ (List.mem_map_of_mem hc)
      rcases run_history hfull with ⟨rounds, hr⟩
      rcases hr.history with ⟨s, hs, _⟩
      have hnone := (History.preview_calls hs).1
      rw [← hr.trace, List.countP_eq_zero] at hnone
      refine hnone c.event hio ?_
      rcases c with ⟨before, ⟨call, answer⟩, calls, after⟩
      obtain rfl : call = .execute target kind := hexecute
      rfl

/-- A round with a write serves a plan that is applied. -/
theorem serveInput_write {input : WorkerInput} {tr : List WorkerEvent}
    {reply : Option WorkerReply} {transport' : LinuxTransport} {event : WorkerEvent}
    (hrun : (serveInput describe i input transport).Runs tr (reply, transport'))
    (hmem : event ∈ tr) (hwrite : event.1.isWrite = true) :
    ∃ diff carried report, input = .request (.apply diff) ∧ reply = some (.applied report) ∧
      tr = callsBelow carried ∧ CarriesOut transportIo transport carried transport' ∧
        (applyPlan diff transport.namespaceId).Runs (carried.map Carried.event) report := by
  have hquiet : ∀ {own : List TransportEvent}, tr = own.map wire →
      (∀ event ∈ own, event.1.isWrite = false) → False := by
    intro own htr hall
    rw [htr] at hmem
    rcases List.mem_map.mp hmem with ⟨asked, hasked, rfl⟩
    exact absurd (hwrite.symm.trans (hall asked hasked)) (by simp only [Bool.true_eq_false,
      not_false_eq_true])
  rcases serveInput_cases hrun with ⟨_, _, own, result, htr, hnext⟩ |
    ⟨request, answer, rfl, rfl, hserve⟩
  · exact (hquiet htr (nextNotification_quiet hnext)).elim
  cases request with
  | query selector =>
      rcases serveRequest_query hserve with ⟨own, result, _, htr, hinventory⟩
      refine (hquiet htr fun event hmem => ?_).elim
      exact TransportCall.isWrite_of_isSurvey
        ((LinuxTransport.inventory_confined _ _ _ _ _ hinventory).1 event hmem)
  | preview diff =>
      rcases serveRequest_preview hserve with ⟨carried, report, _, rfl, hcarries, hpreview⟩
      have hnone := preview_quiet hcarries hpreview event hmem
      exact absurd (hwrite.symm.trans hnone) (by simp only [Bool.true_eq_false, not_false_eq_true])
  | apply diff =>
      rcases serveRequest_apply hserve with ⟨carried, report, rfl, rfl, hcarries, happly⟩
      exact ⟨diff, carried, report, rfl, rfl, rfl, hcarries, happly⟩

/-- A write in a round serves a plan that is applied, and has a way to it. -/
theorem serveInput_approached {input : WorkerInput} {own rest : List WorkerEvent}
    {reply : Option WorkerReply} {transport' : LinuxTransport} {message : RouteNetlinkMessage}
    {flags : BitVec 16} {answer : RequestAnswer}
    (hrun : (serveInput describe i input transport).Runs
      (own ++ ⟨.transport (.request message flags), answer⟩ :: rest) (reply, transport'))
    (hwrite : message.isWrite = true) :
    ∃ (diff : StateDiff) (index : Nat) (op : Operation) (kind : OperationKind)
      (approach : Approach)
      (earlier : List (Carried LinuxTransport IoCall IoAnswer WorkerCall WorkerAnswer)),
      input = .request (.apply diff) ∧ diff.operations[index]? = some op ∧
      Approach.Leads approach transport.namespaceId own op kind message flags ∧
      approach.earlier = callsBelow earlier ∧
      CarriesOut transportIo transport earlier approach.before := by
  have hmem : (⟨.transport (.request message flags), answer⟩ : WorkerEvent) ∈
      own ++ ⟨.transport (.request message flags), answer⟩ :: rest :=
    List.mem_append_right own List.mem_cons_self
  rcases serveInput_write hrun hmem hwrite with ⟨diff, carried, report, rfl, _, htr, hcarries,
    happly⟩
  rcases apply_approached hcarries happly htr.symm hwrite with
    ⟨index, op, kind, approach, earlier, hop, hleads, hfirst, hstart⟩
  exact ⟨diff, index, op, kind, approach, earlier, rfl, hop, hleads, hfirst, hstart⟩

/-- The same of a round of a worker, in the namespace that was opened. -/
theorem Worked.approached {own rest : List WorkerEvent} {message : RouteNetlinkMessage}
    {flags : BitVec 16} {answer : RequestAnswer} (hr : Worked describe inputs start h transport)
    (hi : h[i]? = some r)
    (hcalls : r.calls = own ++ ⟨.transport (.request message flags), answer⟩ :: rest)
    (hwrite : message.isWrite = true) :
    ∃ (diff : StateDiff) (index : Nat) (op : Operation) (kind : OperationKind)
      (approach : Approach)
      (earlier : List (Carried LinuxTransport IoCall IoAnswer WorkerCall WorkerAnswer)),
      inputs[i]? = some (.request (.apply diff)) ∧ diff.operations[index]? = some op ∧
      Approach.Leads approach start.namespaceId own op kind message flags ∧
      approach.earlier = callsBelow earlier ∧
      CarriesOut transportIo r.before earlier approach.before := by
  rcases Rounds.nth hr hi with ⟨input, hinput, hbefore, hrun⟩
  rw [hcalls] at hrun
  rcases serveInput_approached hrun hwrite with
    ⟨diff, index, op, kind, approach, earlier, rfl, hop, hleads, hfirst, hstart⟩
  rw [(Worked.steady hbefore).namespaceId] at hleads
  exact ⟨diff, index, op, kind, approach, earlier, hinput, hop, hleads, hfirst, hstart⟩

/-- The calls on the way to a message, as the transport makes them. -/
theorem Approach.Leads.transportEvents {approach : Approach} {namespaceId : NamespaceId}
    {own : List WorkerEvent} {op : Operation} {kind : OperationKind} {message : RouteNetlinkMessage}
    {flags : BitVec 16} (hleads : approach.Leads namespaceId own op kind message flags) :
    Netfyr.transportEvents own = (Netfyr.transportEvents approach.earlier ++ approach.surveyed ++
      approach.checked) ++ approach.drained := by
  have hsince : Netfyr.transportEvents approach.since = [] := by
    refine List.filterMap_eq_nil_iff.mpr fun event hmem => ?_
    rcases event with ⟨call, answer⟩
    rcases hleads.idle _ hmem with hcall | hcall
    · obtain rfl : call = .now := hcall
      rfl
    · obtain rfl : call = .isClosed := hcall
      rfl
  rw [hleads.calls, transportEvents_append, transportEvents_append, transportEvents_append,
    transportEvents_wire, transportEvents_wire, hsince, List.append_nil]
  exact (List.append_assoc _ _ _).symm

/-- A plan made of the answer to a query writes to the device that was queried:
    where the target of a write has an index and a generation of the answer,
    nothing was lost of the device between the answer and the confirmation. -/
theorem queried_identity_kept (describe : Match → String) (inputs : List WorkerInput)
    (namespaceId : NamespaceId) (ethtool wireless : Bool) (diagnostics : List Diagnostic)
    (h : List WorkerRound) (transport : LinuxTransport)
    (hr : Worked describe inputs (.new namespaceId ethtool wireless diagnostics) h transport)
    (hfresh : (draws (transportEvents (callsOf h))).Nodup) (i j : Nat) (r r' : WorkerRound)
    (observation : Observation) (device : DeviceObservation) (own rest : List WorkerEvent)
    (message : RouteNetlinkMessage) (flags : BitVec 16) (answer : RequestAnswer)
    (hlt : i < j) (hi : h[i]? = some r)
    (hanswered : r.outcome = some (.observed (.ok observation)))
    (hmem : device ∈ observation.devices) (hj : h[j]? = some r')
    (hcalls : r'.calls = own ++ ⟨.transport (.request message flags), answer⟩ :: rest)
    (hwrite : message.isWrite = true) :
    ∃ (diff : StateDiff) (index : Nat) (op : Operation) (kind : OperationKind)
      (approach : Approach), inputs[j]? = some (.request (.apply diff)) ∧
      diff.operations[index]? = some op ∧
      approach.Leads namespaceId own op kind message flags ∧
      (op.target.index = device.identity.index →
        op.target.generation = device.identity.generation →
          ¬ Lost op.target.index (transportEvents (callsOf ((h.take j).drop (i + 1))) ++
            (transportEvents approach.earlier ++ approach.surveyed ++ approach.checked))) := by
  rcases Worked.approached hr hj hcalls hwrite with
    ⟨diff, index, op, kind, approach, earlier, hinput, hop, hleads, hfirst, hstart⟩
  refine ⟨diff, index, op, kind, approach, hinput, hop, hleads, fun hindex hgeneration => ?_⟩
  have hlive := Worked.stands hr hi hanswered hmem
  rw [← hindex, ← hgeneration] at hlive
  -- The history up to the query, and what was called since.
  have hpast := Worked.carries (Worked.upTo hr hi)
  rcases Rounds.nth hr hj with ⟨_, _, hbefore, _⟩
  have hsplit : callsOf (h.take j) =
      callsOf (h.take (i + 1)) ++ callsOf ((h.take j).drop (i + 1)) := by
    have htake : h.take (i + 1) = (h.take j).take (i + 1) := by
      rw [List.take_take, Nat.min_eq_left hlt]
    rw [htake, ← callsOf_append, List.take_append_drop]
  have hC := LinuxTransport.composes_carries
  have hall := hC.trans _ _ _ _ _ (Worked.carries hbefore)
    (hC.trans _ _ _ _ _ (hC.trans _ _ _ _ _ (carriesOut_carries hstart)
      ((LinuxTransport.respected_carries.inventory _) _ _ _ _ hleads.surveys nofun))
      ((LinuxTransport.respected_carries.confirmIdentity _) _ _ _ _ hleads.confirms nofun))
  rw [← hfirst, hsplit, transportEvents_append, List.append_assoc] at hall
  refine not_lost_of_carries rfl ?_ hpast hlive hall hleads.seen.stands
  -- The calls up to the confirmation are the first of all.
  have hwhole : callsOf h = callsOf (h.take j) ++ own ++
      (⟨.transport (.request message flags), answer⟩ :: rest ++ callsOf (h.drop (j + 1))) := by
    have hround : callsOf (h.drop j) = r'.calls ++ callsOf (h.drop (j + 1)) := by
      rcases List.getElem?_eq_some_iff.mp hj with ⟨hbound, heq⟩
      rw [List.drop_eq_getElem_cons hbound, heq]
      rfl
    rw [List.append_assoc, ← List.append_assoc own, ← hcalls, ← hround, ← callsOf_append,
      List.take_append_drop]
  have hevents := congrArg transportEvents hwhole
  rw [transportEvents_append, transportEvents_append, hleads.transportEvents, hsplit,
    transportEvents_append, ← List.append_assoc _ _ approach.drained,
    List.append_assoc _ approach.drained,
    List.append_assoc (transportEvents (callsOf (h.take (i + 1))))] at hevents
  rw [hevents, draws, List.filterMap_append, List.nodup_append] at hfresh
  exact hfresh.1

end Authority

section Example

/-- The record of the one address of the interface, which has a peer. -/
def pointToPoint : AddressMessage where
  family := .inet
  prefixLen := 24
  flags := 0x80
  scope := 0
  index := 2
  attributes := [.address (.v4 (Ipv4Addr.new 192 0 2 2)), .local' (.v4 (Ipv4Addr.new 192 0 2 1)),
    .flags 0x80, .cacheInfo { ifaPreferred := u32Max, ifaValid := u32Max }]

/-- A kernel that acknowledges writes and forgets them, while nobody leaves. -/
def vethKernel : (call : WorkerCall) → WorkerAnswer call
  | .now => (0 : Instant)
  | .isClosed => false
  | .transport call =>
      match call with
      | .notification => some acknowledgement
      | .backlog => { messages := [], closed := false }
      | .request (.getLink message) _ =>
          if message.index = 0 then .answered [packetMessage vethPacket, dumpEnd]
          else .answered [packetMessage vethPacket, acknowledgement]
      | .request (.getAddress _) _ =>
          .answered [packetMessage
            { vethPacket with kind := rtmNewaddr, address := .ok pointToPoint }, dumpEnd]
      | .request _ _ => .answered [acknowledgement]
      | .now => (0 : Instant)
      | .wirelessIndices => .ok []
      | .interfaceIndex _ => .ok 2
      | .legacyWireless _ => false
      | .driverInfo _ => .ok { driver := .ok (some "veth"), busInfo := .ok none }
      | .linkModes _ _ => { messages := [], ending := .done }
      | .getrandom => .ok 1

/-- The interface. -/
def veth0 : InterfaceId where
  namespaceId := openedTransport.namespaceId
  index := 2
  generation := 1
  name := "veth0"
  deviceType := ethernet
  mac := none

/-- Its address. -/
def vethAddress : AddressObservation where
  address := ⟨Ipv4Addr.new 192 0 2 1, 24, some u32Max, some u32Max⟩
  flags := 0x80
  scope := 0
  peer := some (Ipv4Addr.new 192 0 2 2)

/-- Changing the MTU of the interface, and removing its address. -/
def vethPlan : StateDiff where
  changes := []
  operations := [
    { target := veth0, kind := .setMtu 1400, dependsOn := [], addressGroup := none },
    { target := veth0, kind := .removeIpv4 vethAddress.address, dependsOn := [0]
      addressGroup := some { addresses := [vethAddress], observedAt := 0 } }]
  diagnostics := []

/-- A query, and then the plan. -/
def vethInputs : List WorkerInput := [.request (.query {}), .request (.apply vethPlan)]

/-- One round against that kernel. -/
def vethRound (i : Nat) (input : WorkerInput) (transport : LinuxTransport) :
    Option ((Option WorkerReply × LinuxTransport) × Unit × List WorkerEvent) :=
  (serveInput (fun _ => "") i input transport).exec (fun s call => (vethKernel call, s)) ()

/-- Whether a reply to a query shows the interface. -/
def showsVeth : Option WorkerReply → Bool
  | some (.observed (.ok observation)) =>
      observation.devices.any fun device => device.identity == veth0
  | _ => false

/-- Whether a call sends a message that passes a test. -/
def WorkerCall.sends (wanted : RouteNetlinkMessage → Bool) : WorkerCall → Bool
  | .transport (.request message _) => wanted message
  | _ => false

/-- The query shows the interface, the plan sends a message that passes a test,
    and one generation is drawn. -/
def vethServed (wanted : RouteNetlinkMessage → Bool) : Bool :=
  (vethRound 0 (.request (.query {})) openedTransport).any fun queried =>
    (vethRound 1 (.request (.apply vethPlan)) queried.1.2).any fun applied =>
      showsVeth queried.1.1 &&
        (applied.2.2.any fun event => event.1.sends wanted) &&
        (draws (transportEvents (queried.2.2 ++ applied.2.2))).length ≤ 1

/-- The two rounds, with a device that the query shows and a message of the plan. -/
theorem worked_veth {wanted : RouteNetlinkMessage → Bool} (hserved : vethServed wanted = true) :
    ∃ (h : List WorkerRound) (transport : LinuxTransport) (r r' : WorkerRound)
    (observation : Observation) (device : DeviceObservation) (own rest : List WorkerEvent)
    (message : RouteNetlinkMessage) (flags : BitVec 16) (answer : RequestAnswer),
    Worked (fun _ => "") vethInputs openedTransport h transport ∧ h = [r, r'] ∧
      r.outcome = some (.observed (.ok observation)) ∧ device ∈ observation.devices ∧
      device.identity = veth0 ∧
      r'.calls = own ++ ⟨.transport (.request message flags), answer⟩ :: rest ∧
      wanted message = true ∧ (draws (transportEvents (callsOf h))).Nodup := by
  rcases (Option.any_eq_true _ _).mp hserved with ⟨⟨⟨reply, queried⟩, _, tr⟩, hquery, hserved⟩
  rcases (Option.any_eq_true _ _).mp hserved with ⟨⟨⟨reply', applied⟩, _, tr'⟩, happly, hserved⟩
  rw [Bool.and_eq_true, Bool.and_eq_true, decide_eq_true_iff] at hserved
  rcases hserved with ⟨⟨hshows, hsends⟩, hdraws⟩
  -- The two runs, as a history of two rounds.
  let r : WorkerRound := ⟨openedTransport, tr, reply, queried⟩
  let r' : WorkerRound := ⟨queried, tr', reply', applied⟩
  have hfirst : Worked (fun _ => "") vethInputs openedTransport ([] ++ [r]) queried :=
    .round .start rfl (Program.exec_runs hquery).1
  have hboth : Worked (fun _ => "") vethInputs openedTransport ([] ++ [r] ++ [r']) applied :=
    .round hfirst rfl (Program.exec_runs happly).1
  -- What the query shows.
  have hobserved : ∃ observation device, reply = some (.observed (.ok observation)) ∧
      device ∈ observation.devices ∧ device.identity = veth0 := by
    rcases reply with _ | ⟨_ | observation⟩ | _ | _
    · exact absurd hshows Bool.false_ne_true
    · exact absurd hshows Bool.false_ne_true
    · rcases List.any_eq_true.mp hshows with ⟨device, hmem, hsame⟩
      exact ⟨observation, device, rfl, hmem, beq_iff_eq.mp hsame⟩
    · exact absurd hshows Bool.false_ne_true
    · exact absurd hshows Bool.false_ne_true
  rcases hobserved with ⟨observation, device, hreply, hmem, hdevice⟩
  -- What the plan sends.
  rcases List.any_eq_true.mp hsends with ⟨⟨call, answer⟩, hevent, hsent⟩
  rcases List.append_of_mem hevent with ⟨own, rest, hsplit⟩
  cases call with
  | now | isClosed => exact absurd hsent Bool.false_ne_true
  | transport call =>
      cases call with
      | request message flags =>
          refine ⟨[] ++ [r] ++ [r'], applied, r, r', observation, device, own, rest, message, flags,
            answer, hboth, rfl, hreply, hmem, hdevice, hsplit, hsent, ?_⟩
          rw [callsOf_append, callsOf_append, callsOf_nil, List.nil_append, callsOf_singleton,
            callsOf_singleton]
          have hfew : (draws (transportEvents (tr ++ tr'))).length ≤ 1 := hdraws
          rcases hone : draws (transportEvents (tr ++ tr')) with _ | ⟨generation, _ | ⟨_, _⟩⟩
          · exact List.nodup_nil
          · exact List.nodup_singleton generation
          · rw [hone, List.length_cons, List.length_cons] at hfew
            omega
      | _ => exact absurd hsent Bool.false_ne_true

theorem vethServed_isWrite : vethServed RouteNetlinkMessage.isWrite = true := by
  decide +kernel

/-- Its plan writes to the device that the query showed. -/
theorem queried_identity_kept_veth : ∃ (h : List WorkerRound) (own : List WorkerEvent)
    (device : DeviceObservation) (message : RouteNetlinkMessage) (flags : BitVec 16),
    device.identity = veth0 ∧
    ∃ (diff : StateDiff) (index : Nat) (op : Operation) (kind : OperationKind)
      (approach : Approach), vethInputs[1]? = some (.request (.apply diff)) ∧
      diff.operations[index]? = some op ∧
      approach.Leads openedTransport.namespaceId own op kind message flags ∧
      (op.target.index = device.identity.index →
        op.target.generation = device.identity.generation →
          ¬ Lost op.target.index (transportEvents (callsOf ((h.take 1).drop (0 + 1))) ++
            (transportEvents approach.earlier ++ approach.surveyed ++ approach.checked))) := by
  rcases worked_veth vethServed_isWrite with ⟨h, transport, r, r', observation, device, own, rest,
    message, flags, answer, hr, rfl, hanswered, hmem, hdevice, hcalls, hwrite, hfresh⟩
  exact ⟨[r, r'], own, device, message, flags, hdevice,
    queried_identity_kept _ _ _ _ _ _ _ _ hr hfresh 0 1 r r' observation device own rest message
      flags answer Nat.zero_lt_one rfl hanswered hmem rfl hcalls hwrite⟩

end Example

end Netfyr
