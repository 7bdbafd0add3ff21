import Netfyr.Executor.Unreachable
import Netfyr.Interact.Owned
import Netfyr.Linux.Faultless
import Netfyr.Worker.Wire

/-!
# The Worker behind its Channel

Callers reach the worker through a channel with room for sixteen requests. Each
has a channel of its own for the reply, and the worker sees from it whether the
caller is still there. Callers come and go in any order, and the worker may be
gone from one moment to the next.

However the steps fall, the worker is one that serves one request after the
other: the calls on the wire are those of a history of rounds, the rounds are of
the requests in the order in which they were sent, no request is served twice,
and a caller is handed the outcome of its own round. So a message that changes
something is still one of a plan being applied, with a way to it made of the
calls for that plan's caller, also when the worker breaks down before it is done.

Nobody waits for nothing. No request makes the worker fault, whatever it is
answered, so as long as it is there its own steps lead to the reply of every
caller that waits.

## Main definitions

* `netnsWorker`: The worker behind its channel.
* `NetlinkBackend.query`, `NetlinkBackend.apply`, `NetlinkBackend.dryRun`: What
  callers return.
* `Linearization`: One request after the other.
* `Approach.Begins`: Where the way to a message begins.

## Theorems

* `serveInput_safe`: No request makes the worker fault.
* `worker_linearizable`: The worker serves one request after the other.
* `channel_approached`: Every write has a way to it, by the calls for its caller.
* `channel_authorized`: Every write is that of a plan its caller applies.
* `abandoned_writes`: At most one is left when the caller is gone.
* `caller_answered`: A caller that waits can be replied to.
-/

namespace Netfyr

open Interact

/-- The worker stopped before a request was sent, or without a reply to one that
    only asks. -/
def disconnected : BackendError :=
  .new .internal "namespace worker stopped before accepting the request"

/-- The worker stopped without a reply to a plan. -/
def unreported : BackendError :=
  .new .outcomeUnknown "namespace worker stopped before reporting; writes may have applied"

/-- What a query returns. -/
def NetlinkBackend.query :
    Delivery (Except BackendError Observation) → Except BackendError Observation
  | .refused => .error disconnected
  | .lost => .error disconnected
  | .replied result => result

/-- What applying a plan returns. -/
def NetlinkBackend.apply (diff : StateDiff) : Delivery ApplyReport → ApplyReport
  | .refused => failedReport diff disconnected
  | .lost => failedReport diff unreported
  | .replied report => report

/-- What previewing a plan returns. -/
def NetlinkBackend.dryRun (diff : StateDiff) : Delivery DryRunReport → DryRunReport
  | .refused => previewReport diff (failedReport diff disconnected)
  | .lost => previewReport diff (failedReport diff disconnected)
  | .replied report => report

/-- What a call hears of its caller: the receiver of the reply is closed if the
    caller has gone away. -/
def heard (gone : Bool) : WorkerEvent → Bool
  | ⟨.isClosed, closed⟩ => closed == gone
  | ⟨.now, _⟩ | ⟨.transport _, _⟩ => true

/-- The worker behind its channel. -/
def netnsWorker (describe : Match → String) :
    Serving WorkerCall WorkerAnswer LinuxTransport WorkerInput (Option WorkerReply) where
  serve := serveInput describe 0
  background := .notification
  capacity := 16
  hears gone event := heard gone event = true

/-- The channel, the worker and its callers. -/
abbrev WorkerSystem : Type :=
  Service WorkerCall WorkerAnswer LinuxTransport WorkerInput (Option WorkerReply)

/-- What can happen around the worker. -/
abbrev WorkerHappening : Type :=
  Happening WorkerCall WorkerAnswer WorkerInput (Option WorkerReply)

/-- What can happen around a worker whose transport was just opened. -/
abbrev WorkerReaches (describe : Match → String) (start : LinuxTransport)
    (labels : List WorkerHappening) (sys : WorkerSystem) : Prop :=
  Service.Reaches (netnsWorker describe) start labels sys

section Safety

variable {describe : Match → String} {transport : LinuxTransport}

/-- No call of the executor makes the transport fault. -/
theorem transportIo_safe (call : IoCall) : (transportIo call transport).Safe := by
  cases call with
  | inventory => exact Program.embed_safe (LinuxTransport.inventory_faultless _ transport)
  | execute target kind =>
      exact Program.embed_safe (LinuxTransport.execute_faultless target kind transport)
  | now => exact fun _ => trivial
  | cancelled => exact fun _ => trivial

theorem serveRequest_safe (request : Request) : (serveRequest describe request transport).Safe := by
  cases request with
  | query selector =>
      refine Program.safe_bind (Program.embed_safe ?_) fun _ _ _ => trivial
      exact LinuxTransport.inventory_faultless _ transport
  | apply diff =>
      refine Program.safe_bind ?_ fun _ _ _ => trivial
      exact Program.implement_safe (run_safe diff false _) (fun call _ => transportIo_safe call) _
  | preview diff =>
      refine Program.safe_bind ?_ fun _ _ _ => trivial
      refine Program.implement_safe ?_ (fun call _ => transportIo_safe call) _
      exact Program.safe_bind (Program.resolve_safe (run_safe diff true _)) fun _ _ _ => trivial

/-- No request makes the worker fault, and no notification does. -/
theorem serveInput_safe {i : Nat} (input : WorkerInput) :
    (serveInput describe i input transport).Safe := by
  cases input with
  | notification =>
      refine Program.safe_bind (Program.embed_safe ?_) fun _ _ _ => trivial
      exact LinuxTransport.nextNotification_faultless transport
  | request request =>
      exact Program.safe_bind (serveRequest_safe request) fun _ _ _ => trivial

/-- Every call can be answered, by whoever is there or gone. -/
theorem netnsWorker_total : Service.Total (netnsWorker describe) where
  safe := fun input _ => serveInput_safe (i := 0) input
  hears := by
    intro gone call
    cases call with
    | isClosed => exact ⟨gone, beq_self_eq_true gone⟩
    | now => exact ⟨(0 : Instant), rfl⟩
    | transport call =>
        cases call with
        | notification => exact ⟨none, rfl⟩
        | backlog => exact ⟨{ messages := [], closed := false }, rfl⟩
        | request _ _ => exact ⟨.answered [], rfl⟩
        | now => exact ⟨(0 : Instant), rfl⟩
        | wirelessIndices => exact ⟨.ok [], rfl⟩
        | interfaceIndex _ => exact ⟨.ok 0, rfl⟩
        | legacyWireless _ => exact ⟨false, rfl⟩
        | driverInfo _ => exact ⟨.ok { driver := .ok none, busInfo := .ok none }, rfl⟩
        | linkModes _ _ => exact ⟨{ messages := [], ending := .done }, rfl⟩
        | getrandom => exact ⟨.ok 0, rfl⟩

end Safety

section Linear

variable {describe : Match → String} {start : LinuxTransport} {labels : List WorkerHappening}
  {sys : WorkerSystem}

/-- One request after the other: those that are done with their rounds, the one
    being served with its calls so far, and those still to come. -/
structure Linearization where
  done : List (Job WorkerInput)
  rounds : List WorkerRound
  transport : LinuxTransport
  current : Option (Job WorkerInput)
  own : List WorkerEvent
  pending : List (Job WorkerInput)

/-- What happened around a worker is what happens when it serves so. -/
structure Linearization.Explains (l : Linearization) (describe : Match → String)
    (start : LinuxTransport) (labels : List WorkerHappening) (sys : WorkerSystem) : Prop where
  worked : Worked describe (l.done.map Job.input) start l.rounds l.transport
  complete : l.rounds.length = l.done.length
  calls : madeCalls labels = callsOf l.rounds ++ l.own
  idle : l.current = none → l.own = []
  serving : ∀ job, l.current = some job →
    ∃ rest, (serveInput describe 0 job.input l.transport).Leads l.own rest
  /-- Requests are served in the order in which they were sent, once each. -/
  order : sentJobs labels =
    (l.done ++ l.current.toList).filter (fun job => job.caller.isSome) ++ l.pending
  distinct : ((sentJobs labels).map Job.caller).Nodup
  queued : sys.phase ≠ .stopped → l.pending = sys.queue
  /-- What nobody sent is a notification. -/
  background : ∀ job ∈ l.done ++ l.current.toList, job.caller = none → job.input = .notification
  /-- A caller is handed the outcome of its own round. -/
  replies : ∀ caller input outcome, sys.callers caller = .replied input outcome →
    ∃ (i : Nat) (r : WorkerRound), l.done[i]? = some ⟨some caller, input⟩ ∧
      l.rounds[i]? = some r ∧ r.outcome = outcome

/-- However the steps of callers and worker fall, it serves one request after the
    other. -/
theorem worker_linearizable (describe : Match → String) (start : LinuxTransport)
    (labels : List WorkerHappening) (sys : WorkerSystem)
    (hreaches : WorkerReaches describe start labels sys) :
    ∃ l : Linearization, l.Explains describe start labels sys := by
  rcases hreaches.progress with ⟨done, h, transport, hprogress⟩
  have hknown := hreaches.known
  rcases hknown.fifo with ⟨dropped, hsent, hnone⟩
  have hreplies : ∀ caller input outcome, sys.callers caller = .replied input outcome → _ :=
    fun caller input outcome hplace => hreaches.answered hprogress hplace
  rcases hprogress with ⟨hr, hcomplete, _, hstanding⟩
  have hqueued : sys.phase ≠ .stopped → sys.queue ++ dropped = sys.queue := by
    intro hthere
    rw [hnone hthere, List.append_nil]
  rw [List.append_assoc] at hsent
  -- Where the server stands, or stood when it stopped.
  have hexplains : ∀ {phase},
      Service.Standing (netnsWorker describe) labels done h transport phase →
      ∃ l : Linearization, l.Explains describe start labels sys := by
    intro phase hstanding
    induction hstanding with
    | stopped _ ih => exact ih
    | idle htaken hcalls =>
        refine ⟨⟨done, h, transport, none, [], sys.queue ++ dropped⟩, ?_⟩
        have hall : done ++ (none : Option (Job WorkerInput)).toList = takenJobs labels := by
          rw [htaken]
          exact List.append_nil _
        exact
          { worked := hr
            complete := hcomplete
            calls := by rw [hcalls, List.append_nil]
            idle := fun _ => rfl
            serving := fun job habs => absurd habs (by simp)
            order := by rw [hall, hsent]
            distinct := hknown.distinct
            queued := hqueued
            background := fun job hmem => hreaches.taken_background (hall ▸ hmem)
            replies := hreplies }
    | @serving job rest own htaken hcalls hleads =>
        refine ⟨⟨done, h, transport, some job, own, sys.queue ++ dropped⟩, ?_⟩
        have hall : done ++ (some job).toList = takenJobs labels := by
          rw [htaken]
          rfl
        exact
          { worked := hr
            complete := hcomplete
            calls := hcalls
            idle := fun habs => absurd habs (by simp)
            serving := by
              intro other hother
              obtain rfl := Option.some.inj hother
              exact ⟨rest, hleads⟩
            order := by rw [hall, hsent]
            distinct := hknown.distinct
            queued := hqueued
            background := fun job hmem => hreaches.taken_background (hall ▸ hmem)
            replies := hreplies }
  exact hexplains hstanding

end Linear

section Authority

variable {describe : Match → String} {start : LinuxTransport} {labels : List WorkerHappening}
  {sys : WorkerSystem}

/-- Between two rounds the worker is in the namespace that was opened. -/
theorem between_namespaceId {s : LinuxTransport}
    (h : Service.Between (netnsWorker describe) start s) : s.namespaceId = start.namespaceId := by
  rcases h with ⟨jobs, rounds, hr⟩
  have hworked : Worked describe jobs start rounds s := hr
  exact hworked.steady.namespaceId

/-- The way begins where the worker's history has left the transport: in the state
    that the request was taken in, and what was called for it until the
    inventory. -/
def Approach.Begins (approach : Approach) (describe : Match → String) (start : LinuxTransport)
    (labels : List WorkerHappening) (job : Job WorkerInput) : Prop :=
  ∃ (s : LinuxTransport)
    (earlier : List (Carried LinuxTransport IoCall IoAnswer WorkerCall WorkerAnswer)),
    Service.TakenIn (netnsWorker describe) start labels job s ∧
      approach.earlier = callsBelow earlier ∧ CarriesOut transportIo s earlier approach.before

/-- A write at any moment has a way to it, by the calls for its caller. -/
theorem channel_approached {before after : List WorkerHappening} {job : Job WorkerInput}
    {message : RouteNetlinkMessage} {flags : BitVec 16} {answer : RequestAnswer}
    (hreaches : WorkerReaches describe start labels sys)
    (hsplit : labels =
      before ++ .called job ⟨.transport (.request message flags), answer⟩ :: after)
    (hwrite : message.isWrite = true) :
    ∃ (caller : Nat) (diff : StateDiff) (index : Nat) (op : Operation) (kind : OperationKind)
      (approach : Approach), job = ⟨some caller, .request (.apply diff)⟩ ∧ job ∈ takenJobs before ∧
      diff.operations[index]? = some op ∧
      approach.Leads start.namespaceId (callsFor caller before) op kind message flags ∧
      approach.Begins describe start before job := by
  rcases hreaches.leads hsplit with ⟨own, s, k, hbetween, hleads, htaken, hown⟩
  -- What was begun can be brought to its end, so the message is one of a round.
  have htotal : Service.Total (netnsWorker describe) := netnsWorker_total
  have hmade : (serveInput describe 0 job.input s).Leads
      (own ++ [⟨.transport (.request message flags), answer⟩]) (k answer) := hleads.call answer
  rcases hmade.completes (htotal.hears false) (serveInput_safe job.input) with
    ⟨rest, ⟨reply, t⟩, hrun, _⟩
  rw [List.append_assoc, List.singleton_append] at hrun
  rcases serveInput_approached hrun hwrite with ⟨diff, index, op, kind, approach, earlier, hinput,
    hop, happroach, hfirst, hstart⟩
  rw [between_namespaceId hbetween] at happroach
  rcases job with ⟨_ | caller, input⟩
  · rcases hreaches.split hsplit with ⟨sys₁, _, hbefore, _, _⟩
    have habs := (hbefore.taken_background htaken rfl).symm.trans hinput
    exact absurd habs (by simp [netnsWorker])
  · obtain rfl : input = .request (.apply diff) := hinput
    rcases hown caller rfl with ⟨rfl, hstate⟩
    exact ⟨caller, diff, index, op, kind, approach, rfl, htaken, hop, happroach, s, earlier, hstate,
      hfirst, hstart⟩

/-- On the way to a message the worker heard that the caller is still there, and
    since then it has only looked. -/
theorem Approach.Leads.guarded {approach : Approach} {namespaceId : NamespaceId}
    {own : List WorkerEvent} {op : Operation} {kind : OperationKind}
    {message : RouteNetlinkMessage} {flags : BitVec 16}
    (h : approach.Leads namespaceId own op kind message flags) :
    ∃ asked since, own = asked ++ ⟨.isClosed, false⟩ :: since ∧
      ∀ event ∈ since, event.1.isWrite = false := by
  rcases h.asked with ⟨earlier, hsince⟩
  rcases h.drains with ⟨last, hdrains⟩
  refine ⟨approach.earlier ++ approach.surveyed.map wire ++ earlier,
    (approach.checked ++ approach.drained).map wire, ?_, fun event hmem => ?_⟩
  · rw [h.calls, hsince]
    simp
  · rcases List.mem_map.mp hmem with ⟨inner, hinner, rfl⟩
    rcases List.mem_append.mp hinner with hinner | hinner
    · rcases (LinuxTransport.confirmIdentity_confined op.target _ _ _ _ h.confirms).1 inner hinner
        with hcall | hcall
      · exact congrArg TransportCall.isWrite hcall
      · exact congrArg TransportCall.isWrite hcall
    · have hdrain := LinuxTransport.drainNotifications_confined (P := (· = .backlog)) rfl
      exact congrArg TransportCall.isWrite ((hdrain _ _ _ _ hdrains).1 inner hinner)

/-- A check that a caller is there, where it was made: the caller had not gone
    away before. -/
theorem channel_checked {asked rest : List WorkerEvent} {caller : Nat}
    (hreaches : WorkerReaches describe start labels sys)
    (hcalls : callsFor caller labels = asked ++ ⟨.isClosed, false⟩ :: rest) :
    ∃ before job after, labels = before ++ .called job ⟨.isClosed, false⟩ :: after ∧
      job.caller = some caller ∧ job ∈ takenJobs labels ∧ .abandoned caller ∉ before ∧
        callsFor caller after = rest := by
  rcases Service.callsFor_split hcalls with ⟨before, job, after, rfl, hcaller, _, hrest⟩
  rcases hreaches.heard rfl with ⟨gone, hheard, hgone⟩
  rcases hreaches.leads rfl with ⟨_, _, _, _, _, htaken, _⟩
  refine ⟨before, job, after, rfl, hcaller, ?_, fun habandoned => ?_, hrest⟩
  · rw [takenJobs_append]
    exact List.mem_append_left _ htaken
  · rw [hgone.mpr ⟨caller, hcaller, habandoned⟩] at hheard
    exact absurd hheard Bool.false_ne_true

/-- Every write that leaves the worker, at any moment and whatever becomes of its
    caller, is that of an operation of a plan the caller applies: decided on an
    inventory that was made for this caller, and confirmed since. Before the
    confirmation the caller was still there. -/
theorem channel_authorized (describe : Match → String) (start : LinuxTransport)
    (labels : List WorkerHappening) (sys : WorkerSystem)
    (hreaches : WorkerReaches describe start labels sys) (before after : List WorkerHappening)
    (job : Job WorkerInput) (message : RouteNetlinkMessage) (flags : BitVec 16)
    (answer : RequestAnswer)
    (hsplit : labels =
      before ++ .called job ⟨.transport (.request message flags), answer⟩ :: after)
    (hwrite : message.isWrite = true) :
    ∃ (caller : Nat) (diff : StateDiff) (index : Nat) (op : Operation) (kind : OperationKind)
      (approach : Approach) (earlier since : List WorkerHappening),
      job = ⟨some caller, .request (.apply diff)⟩ ∧ diff.operations[index]? = some op ∧
      approach.Leads start.namespaceId (callsFor caller before) op kind message flags ∧
      approach.Begins describe start before job ∧
      before = earlier ++ .called job ⟨.isClosed, false⟩ :: since ∧
      .abandoned caller ∉ earlier ∧ ∀ event ∈ callsFor caller since, event.1.isWrite = false := by
  rcases channel_approached hreaches hsplit hwrite with
    ⟨caller, diff, index, op, kind, approach, rfl, htaken, hop, hleads, hbegins⟩
  rcases hleads.guarded with ⟨asked, looked, hown, hquiet⟩
  rcases hreaches.split hsplit with ⟨sys₁, _, hbefore, _, _⟩
  rcases channel_checked hbefore hown with
    ⟨earlier, job, since, heq, hcaller, htaken', hthere, hsince⟩
  -- The check was made for the same request.
  obtain rfl := hbefore.known.same htaken htaken' rfl hcaller
  rw [← hsince] at hquiet
  exact ⟨caller, diff, index, op, kind, approach, earlier, since, rfl, hop, hleads, hbegins, heq,
    hthere, hquiet⟩

/-- After a caller has gone away, at most one more message that changes something
    leaves for it: one of an operation that was past its last check by then. -/
theorem abandoned_writes (describe : Match → String) (start : LinuxTransport)
    (labels : List WorkerHappening) (sys : WorkerSystem)
    (hreaches : WorkerReaches describe start labels sys) (caller : Nat)
    (before after : List WorkerHappening) (hsplit : labels = before ++ .abandoned caller :: after) :
    (callsFor caller after).countP (fun event => event.1.isWrite) ≤ 1 ∧
      (0 < (callsFor caller after).countP (fun event => event.1.isWrite) →
        ∃ asked since, callsFor caller before = asked ++ ⟨.isClosed, false⟩ :: since ∧
          ∀ event ∈ since, event.1.isWrite = false) := by
  have hears := (hreaches.hears hsplit).2
  -- What comes before a message after the caller is gone.
  have hguarded : ∀ {own rest event}, callsFor caller after = own ++ event :: rest →
      event.1.isWrite = true → (∀ event ∈ own, event.1.isWrite = false) ∧
        ∃ asked since, callsFor caller before = asked ++ ⟨.isClosed, false⟩ :: since ∧
          ∀ event ∈ since, event.1.isWrite = false := by
    intro own rest event hcalls hwrite
    rcases event with ⟨call, answer⟩
    cases call with
    | now | isClosed => exact absurd hwrite Bool.false_ne_true
    | transport call =>
        cases call with
        | request message flags =>
            rcases Service.callsFor_split hcalls with ⟨first, job, later, rfl, hjob, hfirst, _⟩
            have hwhole : labels = (before ++ .abandoned caller :: first) ++
                .called job ⟨.transport (.request message flags), answer⟩ :: later := by
              rw [hsplit, List.append_assoc]
              rfl
            rcases channel_approached hreaches hwhole hwrite with
              ⟨caller', diff, _, _, _, approach, rfl, _, _, hleads, _⟩
            obtain rfl : caller' = caller := Option.some.inj hjob
            rcases hleads.guarded with ⟨asked, looked, hown, hquiet⟩
            have hbefore : callsFor caller' (before ++ .abandoned caller' :: first) =
                callsFor caller' before ++ own := by
              rw [callsFor_append, ← hfirst]
              rfl
            rw [hbefore] at hown
            -- A check after the caller is gone would have heard of it.
            have hnot : (⟨.isClosed, false⟩ : WorkerEvent) ∉ own := by
              intro hmem
              have habs := hears ⟨.isClosed, false⟩
                (by rw [hcalls]; exact List.mem_append_left _ hmem)
              exact absurd habs Bool.false_ne_true
            rcases List.append_eq_append_iff.mp hown with ⟨own', _, hlater⟩ |
              ⟨since, hasked, hlater⟩
            · rw [hlater] at hnot
              exact absurd (List.mem_append_right _ List.mem_cons_self) hnot
            · rcases List.cons_eq_append_iff.mp hlater with ⟨_, hlater⟩ | ⟨since, rfl, rfl⟩
              · rw [hlater] at hnot
                exact absurd List.mem_cons_self hnot
              · rw [List.forall_mem_append] at hquiet
                exact ⟨hquiet.2, asked, since, hasked, hquiet.1⟩
        | _ => exact absurd hwrite Bool.false_ne_true
  refine ⟨countP_le_one fun own rest event hcalls hwrite => ?_, fun hpos => ?_⟩
  · intro other hmem hother
    exact absurd (hother.symm.trans ((hguarded hcalls hwrite).1 other hmem)) (by simp)
  · rcases List.countP_pos_iff.mp hpos with ⟨event, hmem, hwrite⟩
    rcases List.append_of_mem hmem with ⟨own, rest, hcalls⟩
    exact (hguarded hcalls hwrite).2

end Authority

section Answers

variable {describe : Match → String} {transport transport' : LinuxTransport}
  {tr : List WorkerEvent}

/-- Whether a reply is of the kind that a request asks for. -/
def Request.isAnswered : Request → WorkerReply → Bool
  | .query _, .observed _ | .apply _, .applied _ | .preview _, .previewed _ => true
  | _, _ => false

/-- Every request has a reply of its kind. -/
theorem serveRequest_answered {request : Request} {reply : WorkerReply}
    (h : (serveRequest describe request transport).Runs tr (reply, transport')) :
    request.isAnswered reply = true := by
  cases request with
  | query selector =>
      rcases serveRequest_query h with ⟨_, _, rfl, _⟩
      rfl
  | apply diff =>
      rcases serveRequest_apply h with ⟨_, _, rfl, _⟩
      rfl
  | preview diff =>
      rcases serveRequest_preview h with ⟨_, _, rfl, _⟩
      rfl

/-- What a caller is handed is of the kind that it asked for. -/
theorem replied_answered {start : LinuxTransport} {labels : List WorkerHappening}
    {sys : WorkerSystem} {caller : Nat} {request : Request} {outcome : Option WorkerReply}
    (hreaches : WorkerReaches describe start labels sys)
    (hplace : sys.callers caller = .replied (.request request) outcome) :
    ∃ reply, outcome = some reply ∧ request.isAnswered reply = true := by
  rcases hreaches.replied hplace with ⟨s, s', _, hplayed⟩
  have hrun : (serveInput describe 0 (.request request) s).Runs (callsFor caller labels)
      (outcome, s') := hplayed
  rcases serveInput_cases hrun with ⟨habs, _⟩ | ⟨asked, reply, hasked, hreply, hserve⟩
  · exact absurd habs (by simp only [reduceCtorEq, not_false_eq_true])
  · obtain rfl := WorkerInput.request.inj hasked
    exact ⟨reply, hreply, serveRequest_answered hserve⟩

/-- While the worker does not break down, no caller is turned away or left
    without a reply, and the worker's own steps can bring every caller that waits
    a reply of the kind it asked for. -/
theorem caller_answered (describe : Match → String) (start : LinuxTransport)
    (labels : List WorkerHappening) (sys : WorkerSystem)
    (hreaches : WorkerReaches describe start labels sys) (hcrash : .crashed ∉ labels)
    (caller : Nat) (request : Request) :
    (sys.callers caller).delivery ≠ some (.request request, .refused) ∧
    (sys.callers caller).delivery ≠ some (.request request, .lost) ∧
    (sys.callers caller = .waiting (.request request) →
      ∃ (own : List WorkerHappening) (sys' : WorkerSystem) (reply : WorkerReply),
        WorkerReaches describe start (labels ++ own) sys' ∧
        sys'.callers caller = .replied (.request request) (some reply) ∧
        request.isAnswered reply = true ∧ ∀ label ∈ own, label.isServers = true) := by
  have horderly := hreaches.orderly
  refine ⟨fun hrefused => ?_, fun hlost => ?_, fun hwaits => ?_⟩
  · cases hplace : sys.callers caller with
    | refused input => exact hcrash (horderly.served caller input (Or.inl hplace))
    | _ => simp [hplace, Caller.delivery] at hrefused
  · cases hplace : sys.callers caller with
    | lost input => exact hcrash (horderly.served caller input (Or.inr hplace))
    | _ => simp [hplace, Caller.delivery] at hlost
  · have hthere : sys.phase ≠ .stopped := by
      intro hstopped
      rcases horderly.stopped hstopped with hhandles | habs
      · rw [horderly.handles caller _ (Or.inr hwaits)] at hhandles
        exact absurd hhandles (by simp)
      · exact hcrash habs
    rcases hreaches.served netnsWorker_total hwaits hthere with
      ⟨own, outcome, sys', hend, hreplied, hown⟩
    rcases replied_answered hend hreplied with ⟨reply, rfl, hanswered⟩
    exact ⟨own, sys', reply, hend, hreplied, hanswered, hown⟩

end Answers

section Example

/-- The kernel with one interface, and a caller that goes away after some checks. -/
def vethHandler (checks : Nat) : Handler Nat WorkerCall WorkerAnswer
  | asked, .isClosed => (decide (checks ≤ asked), asked + 1)
  | asked, .now => (vethKernel .now, asked)
  | asked, .transport call => (vethKernel (.transport call), asked)

/-- What comes of the plan there. -/
def vethApplied (checks : Nat) :
    Option ((Option WorkerReply × LinuxTransport) × Nat × List WorkerEvent) :=
  (serveInput (fun _ => "") 0 (.request (.apply vethPlan)) openedTransport).exec
    (vethHandler checks) 0

/-- The calls hear of the caller up to some number, and of its absence after; and
    one of those after sends a message that passes a test. -/
def vethParted (checks calls : Nat) (wanted : RouteNetlinkMessage → Bool) : Bool :=
  (vethApplied checks).any fun applied =>
    (applied.2.2.take calls).all (heard false) && (applied.2.2.drop calls).all (heard true) &&
      (applied.2.2.drop calls).any fun event => event.1.sends wanted

/-- The request of the one caller. -/
def vethJob : Job WorkerInput := ⟨some 0, .request (.apply vethPlan)⟩

/-- The caller sends the request, and the worker takes it. -/
theorem vethJob_taken : ∃ sys : WorkerSystem,
    WorkerReaches (fun _ => "") openedTransport
      [.submitted 0 vethJob.input, .sent vethJob, .taken vethJob] sys ∧
    sys.phase =
      .serving vethJob ((netnsWorker fun _ => "").serve vethJob.input openedTransport) ∧
    sys.callers 0 = .waiting vethJob.input := by
  have hopened : WorkerReaches (fun _ => "") openedTransport [] (.opened openedTransport) := .opened
  have hsubmitted : WorkerReaches (fun _ => "") openedTransport [.submitted 0 vethJob.input] _ :=
    hopened.step (.submit rfl rfl)
  have hsent : WorkerReaches (fun _ => "") openedTransport
      [.submitted 0 vethJob.input, .sent vethJob] _ :=
    hsubmitted.step (.send rfl (by simp [Service.opened]) (by decide))
  exact ⟨_, hsent.step (.take rfl rfl), rfl, rfl⟩

/-- The caller goes away after the second check, and the first write is past it. -/
theorem vethParted_isWrite : vethParted 2 14 RouteNetlinkMessage.isWrite = true := by
  decide +kernel

/-- Nothing but the kernel answers the calls of the transport. -/
theorem vethHandler_answers {checks asked asked' : Nat} {tr : List WorkerEvent}
    (h : Admits (vethHandler checks).environment asked tr asked') {call : TransportCall}
    {reply : WorkerAnswer (.transport call)} (hmem : ⟨.transport call, reply⟩ ∈ tr) :
    reply = vethKernel (.transport call) := by
  induction tr generalizing asked with
  | nil => exact absurd hmem List.not_mem_nil
  | cons event tr ih =>
      rcases h with ⟨next, hanswer, hrest⟩
      rcases List.mem_cons.mp hmem with rfl | hmem
      · exact (congrArg Prod.fst hanswer).symm
      · exact ih hrest hmem

/-- The caller goes away after some calls, and the worker goes on. -/
theorem vethJob_parted {checks calls : Nat} {wanted : RouteNetlinkMessage → Bool}
    (h : vethParted checks calls wanted = true) :
    ∃ (labels first own rest : List WorkerHappening) (sys : WorkerSystem)
      (message : RouteNetlinkMessage) (flags : BitVec 16) (answer : RequestAnswer),
      WorkerReaches (fun _ => "") openedTransport labels sys ∧
      labels = first ++ .abandoned 0 ::
        (own ++ .called vethJob ⟨.transport (.request message flags), answer⟩ :: rest) ∧
      wanted message = true ∧
      ∀ (job : Job WorkerInput) (call : TransportCall) (reply : WorkerAnswer (.transport call)),
        .called job ⟨.transport call, reply⟩ ∈ labels → reply = vethKernel (.transport call) := by
  rcases (Option.any_eq_true _ _).mp h with ⟨⟨⟨reply, s⟩, _, tr⟩, happlied, hparts⟩
  rw [Bool.and_eq_true, Bool.and_eq_true, List.all_eq_true, List.all_eq_true,
    List.any_eq_true] at hparts
  rcases hparts with ⟨⟨hthere, hgone⟩, ⟨call, answer⟩, hmem, hsends⟩
  rcases vethJob_taken with ⟨taken, htaken, hphase, hplace⟩
  -- The run of the request, in two parts.
  have hleads : ((netnsWorker fun _ => "").serve vethJob.input openedTransport).Leads
      (tr.take calls ++ tr.drop calls) (.done (reply, s)) := by
    rw [List.take_append_drop]
    exact Program.leads_of_runs (Program.exec_runs happlied).1
  rcases Program.leads_append.mp hleads with ⟨middle, hfirst, hlast⟩
  have hstill : taken.gone vethJob = false := by
    simp [Service.gone, vethJob, hplace, Caller.isAbandoned]
  have hbefore := htaken.goes hphase hfirst fun event hevent => by
    rw [hstill]
    exact hthere event hevent
  have habandoned := hbefore.step (.abandon (Or.inr hplace))
  have hnow : (({ taken with phase := .serving vethJob middle } : WorkerSystem).move 0
      .abandoned).gone vethJob = true := by
    simp [Service.gone, vethJob, Caller.isAbandoned]
  have hafter := habandoned.goes rfl hlast fun event hevent => by
    rw [hnow]
    exact hgone event hevent
  rcases List.append_of_mem hmem with ⟨own, rest, hdrop⟩
  cases call with
  | now | isClosed => exact absurd hsends Bool.false_ne_true
  | transport call =>
      cases call with
      | request message flags =>
          have hlate : tr.drop calls = own ++
            ⟨.transport (.request message flags), answer⟩ :: rest := hdrop
          refine ⟨_, [.submitted 0 vethJob.input, .sent vethJob, .taken vethJob] ++
            (tr.take calls).map (.called vethJob), own.map (.called vethJob),
            rest.map (.called vethJob), _, message, flags, answer, hafter, ?_, hsends, ?_⟩
          · rw [hlate]
            simp
          · intro job call reply hcalled
            refine vethHandler_answers (Program.exec_runs happlied).2 ?_
            simp only [List.cons_append, List.nil_append, List.mem_cons, List.mem_append,
              List.mem_map, List.not_mem_nil, reduceCtorEq, false_or, or_false,
              Happening.called.injEq] at hcalled
            rcases hcalled with ⟨_, hearlier, _, rfl⟩ | ⟨_, hlater, _, rfl⟩
            · exact List.mem_of_mem_take hearlier
            · exact List.mem_of_mem_drop hlater
      | _ => exact absurd hsends Bool.false_ne_true

/-- The MTU is set for a caller that went away after the last check. -/
theorem channel_authorized_veth : ∃ (before : List WorkerHappening) (job : Job WorkerInput)
    (message : RouteNetlinkMessage) (flags : BitVec 16), message.isWrite = true ∧
    ∃ (caller : Nat) (diff : StateDiff) (index : Nat) (op : Operation) (kind : OperationKind)
      (approach : Approach) (earlier since : List WorkerHappening),
      job = ⟨some caller, .request (.apply diff)⟩ ∧ diff.operations[index]? = some op ∧
      approach.Leads openedTransport.namespaceId (callsFor caller before) op kind message flags ∧
      approach.Begins (fun _ => "") openedTransport before job ∧
      before = earlier ++ .called job ⟨.isClosed, false⟩ :: since ∧
      .abandoned caller ∉ earlier ∧ ∀ event ∈ callsFor caller since, event.1.isWrite = false := by
  rcases vethJob_parted vethParted_isWrite with
    ⟨labels, first, own, rest, sys, message, flags, answer, hreaches, hsplit, hwrite, _⟩
  rw [← List.cons_append, ← List.append_assoc] at hsplit
  exact ⟨_, vethJob, message, flags, hwrite,
    channel_authorized _ _ _ _ hreaches _ _ _ _ _ _ hsplit hwrite⟩

/-- The worker is one that serves its one request, though the caller went away. -/
theorem worker_linearizable_veth : ∃ (labels : List WorkerHappening) (sys : WorkerSystem),
    .abandoned 0 ∈ labels ∧
    ∃ l : Linearization, l.Explains (fun _ => "") openedTransport labels sys := by
  rcases vethJob_parted vethParted_isWrite with
    ⟨labels, first, _, _, sys, _, _, _, hreaches, hsplit, _, _⟩
  refine ⟨labels, sys, ?_, worker_linearizable _ _ _ _ hreaches⟩
  rw [hsplit]
  exact List.mem_append_right first List.mem_cons_self

/-- That message is the one that still left. -/
theorem abandoned_writes_veth : ∃ before after : List WorkerHappening,
    0 < (callsFor 0 after).countP (fun event => event.1.isWrite) ∧
    (callsFor 0 after).countP (fun event => event.1.isWrite) ≤ 1 ∧
      (0 < (callsFor 0 after).countP (fun event => event.1.isWrite) →
        ∃ asked since, callsFor 0 before = asked ++ ⟨.isClosed, false⟩ :: since ∧
          ∀ event ∈ since, event.1.isWrite = false) := by
  rcases vethJob_parted vethParted_isWrite with
    ⟨labels, first, own, rest, sys, message, flags, answer, hreaches, hsplit, hwrite, _⟩
  refine ⟨_, _, ?_, abandoned_writes _ _ _ _ hreaches 0 _ _ hsplit⟩
  rw [List.countP_pos_iff]
  refine ⟨⟨.transport (.request message flags), answer⟩, ?_, hwrite⟩
  rw [callsFor_append, List.mem_append]
  exact Or.inr List.mem_cons_self

/-- The caller can be replied to from when its plan was taken. -/
theorem caller_answered_veth : ∃ (labels : List WorkerHappening) (sys : WorkerSystem),
    sys.callers 0 = .waiting vethJob.input ∧
    (sys.callers 0).delivery ≠ some (.request (.apply vethPlan), .refused) ∧
    (sys.callers 0).delivery ≠ some (.request (.apply vethPlan), .lost) ∧
    (sys.callers 0 = .waiting (.request (.apply vethPlan)) →
      ∃ (own : List WorkerHappening) (sys' : WorkerSystem) (reply : WorkerReply),
        WorkerReaches (fun _ => "") openedTransport (labels ++ own) sys' ∧
        sys'.callers 0 = .replied (.request (.apply vethPlan)) (some reply) ∧
        (Request.apply vethPlan).isAnswered reply = true ∧
        ∀ label ∈ own, label.isServers = true) := by
  rcases vethJob_taken with ⟨taken, htaken, _, hplace⟩
  exact ⟨_, taken, hplace, caller_answered _ _ _ _ htaken (by simp) 0 _⟩

end Example

end Netfyr
