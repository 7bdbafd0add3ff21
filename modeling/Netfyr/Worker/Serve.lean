import Netfyr.Executor.Run
import Netfyr.Interact.Layer
import Netfyr.Linux.Selection

/-!
# The Namespace Worker

One thread of a backend owns the transport of its namespace and serves requests
one after the other: an inventory for a query, and the executor for a plan that
is applied or previewed. Between requests it takes notifications over.

The executor's calls are carried out by the transport, but for the clock and the
question whether the plan is cancelled, which is whether the receiver of the
reply is gone. So a request is a program in two layers, and what it asks of the
world are the transport's calls and these two.

The loop ends with the last handle of the backend; until then it is a loop over
whatever comes.

## Main definitions

* `Request`, `WorkerReply`: What the worker is asked for, and its replies.
* `WorkerCall`: What the worker asks of the world.
* `transportIo`: The transport under the executor.
* `serveRequest`: One request.
* `serveInput`: One round of the loop.

## Theorems

* `transportIo_inventory`, `transportIo_execute`, `transportIo_now`,
  `transportIo_cancelled`: How a call of the executor is carried out.
* `serveRequest_query`, `serveRequest_apply`, `serveRequest_preview`: How a
  request is served.
* `serveInput_cases`: What a round is.
-/

namespace Netfyr

open Interact

/-- What the worker is asked for. -/
inductive Request where
  | query (selector : Match)
  | apply (diff : StateDiff)
  | preview (diff : StateDiff)

/-- What comes of a request. -/
inductive WorkerReply where
  | observed (result : Except BackendError Observation)
  | applied (report : ApplyReport)
  | previewed (report : DryRunReport)

/-- What wakes the worker. -/
inductive WorkerInput where
  | notification
  | request (request : Request)

/-- What the worker asks of the world: what the transport asks, the clock, and
    whether the receiver of the reply is gone. -/
inductive WorkerCall where
  | transport (call : TransportCall)
  | now
  | isClosed

/-- How each call is answered. -/
abbrev WorkerAnswer : WorkerCall → Type
  | .transport call => TransportAnswer call
  | .now => Instant
  | .isClosed => Bool

/-- One call with its answer. -/
abbrev WorkerEvent : Type := Event WorkerCall WorkerAnswer

/-- A call of the transport, as one of the worker. -/
abbrev wire (event : TransportEvent) : WorkerEvent := Event.embed WorkerCall.transport event

/-- The transport carries out what the executor asks. Nothing is enriched for a
    plan. -/
def transportIo : Implementation LinuxTransport IoCall IoAnswer WorkerCall WorkerAnswer
  | .inventory, transport =>
      (LinuxTransport.inventory (fun _ => false) transport).embed WorkerCall.transport
  | .execute target kind, transport =>
      (LinuxTransport.execute target kind transport).embed WorkerCall.transport
  | .now, transport => .call .now fun now => .done (now, transport)
  | .cancelled, transport => .call .isClosed fun closed => .done (closed, transport)

/-- Serve one request; `describe` is how errors show a selector. -/
def serveRequest (describe : Match → String) (request : Request) (transport : LinuxTransport) :
    Program WorkerCall WorkerAnswer (WorkerReply × LinuxTransport) :=
  match request with
  | .query selector => do
      let (result, transport) ←
        (LinuxTransport.inventory (mayMatch selector) transport).embed WorkerCall.transport
      pure (.observed (result.bind (answerQuery describe selector)), transport)
  | .apply diff => do
      let (report, transport) ←
        (applyPlan diff transport.namespaceId).implement transportIo transport
      pure (.applied report, transport)
  | .preview diff => do
      let (report, transport) ←
        (previewPlan diff transport.namespaceId).implement transportIo transport
      pure (.previewed report, transport)

/-- One round of the worker's loop, a notification having no reply. -/
def serveInput (describe : Match → String) (_ : Nat) (input : WorkerInput)
    (transport : LinuxTransport) :
    Program WorkerCall WorkerAnswer (Option WorkerReply × LinuxTransport) :=
  match input with
  | .notification => do
      let (_, transport) ← (LinuxTransport.nextNotification transport).embed WorkerCall.transport
      pure (none, transport)
  | .request request => do
      let (reply, transport) ← serveRequest describe request transport
      pure (some reply, transport)

/-- The rounds of a worker since its transport was opened. -/
abbrev Worked (describe : Match → String) (inputs : List WorkerInput) (start : LinuxTransport)
    (h : List (Round WorkerCall WorkerAnswer LinuxTransport (Option WorkerReply)))
    (transport : LinuxTransport) : Prop :=
  Rounds (serveInput describe) inputs start h transport

section Cases

variable {describe : Match → String} {transport transport' : LinuxTransport}
  {tr : List WorkerEvent}

/-- What runs as a part of the transport runs on the wire. -/
theorem runs_wire {α : Type} {m : Transporting α} {out : Except BackendError α} :
    ((m transport).embed WorkerCall.transport : Program WorkerCall WorkerAnswer _).Runs tr
        (out, transport') ↔
      ∃ own, tr = own.map wire ∧ m.Runs transport own out transport' :=
  Program.embed_runs

/-- An inventory for a plan enriches nothing. -/
theorem transportIo_inventory {answer : Except BackendError Observation} :
    (transportIo .inventory transport).Runs tr (answer, transport') ↔
      ∃ own, tr = own.map wire ∧
        (LinuxTransport.inventory fun _ => false).Runs transport own answer transport' :=
  runs_wire

theorem transportIo_execute {target : InterfaceId} {kind : OperationKind}
    {answer : Except BackendError Unit} :
    (transportIo (.execute target kind) transport).Runs tr (answer, transport') ↔
      ∃ own, tr = own.map wire ∧
        (LinuxTransport.execute target kind).Runs transport own answer transport' :=
  runs_wire

/-- The clock and the question for a cancellation do not reach the transport. -/
theorem transportIo_now {answer : Instant} :
    (transportIo .now transport).Runs tr (answer, transport') ↔
      tr = [⟨.now, answer⟩] ∧ transport' = transport := by
  constructor
  · rintro ⟨r, rest, rfl, rfl, heq⟩
    rcases Prod.mk.inj heq with ⟨rfl, rfl⟩
    exact ⟨rfl, rfl⟩
  · rintro ⟨rfl, rfl⟩
    exact ⟨answer, [], rfl, rfl, rfl⟩

theorem transportIo_cancelled {answer : Bool} :
    (transportIo .cancelled transport).Runs tr (answer, transport') ↔
      tr = [⟨.isClosed, answer⟩] ∧ transport' = transport := by
  constructor
  · rintro ⟨r, rest, rfl, rfl, heq⟩
    rcases Prod.mk.inj heq with ⟨rfl, rfl⟩
    exact ⟨rfl, rfl⟩
  · rintro ⟨rfl, rfl⟩
    exact ⟨answer, [], rfl, rfl, rfl⟩

/-- A query is answered from one inventory. -/
theorem serveRequest_query {selector : Match} {reply : WorkerReply}
    (h : (serveRequest describe (.query selector) transport).Runs tr (reply, transport')) :
    ∃ own result, reply = .observed (result.bind (answerQuery describe selector)) ∧
      tr = own.map wire ∧
        (LinuxTransport.inventory (mayMatch selector)).Runs transport own result transport' := by
  rcases Program.runs_bind.mp h with ⟨t₁, t₂, ⟨result, s⟩, rfl, hinventory, rfl, heq⟩
  rcases Prod.mk.inj heq with ⟨rfl, rfl⟩
  rcases runs_wire.mp hinventory with ⟨own, rfl, hrun⟩
  rw [List.append_nil]
  exact ⟨own, result, rfl, rfl, hrun⟩

/-- An application is a run of the executor that the transport carries out. -/
theorem serveRequest_apply {diff : StateDiff} {reply : WorkerReply}
    (h : (serveRequest describe (.apply diff) transport).Runs tr (reply, transport')) :
    ∃ carried report, reply = .applied report ∧ tr = callsBelow carried ∧
      CarriesOut transportIo transport carried transport' ∧
        (applyPlan diff transport.namespaceId).Runs (carried.map Carried.event) report := by
  rcases Program.runs_bind.mp h with ⟨t₁, t₂, ⟨report, s⟩, rfl, happly, rfl, heq⟩
  rcases Prod.mk.inj heq with ⟨rfl, rfl⟩
  rcases Program.implement_runs.mp happly with ⟨carried, hcarries, hrun, rfl⟩
  rw [List.append_nil]
  exact ⟨carried, report, rfl, rfl, hcarries, hrun⟩

/-- So is a preview. -/
theorem serveRequest_preview {diff : StateDiff} {reply : WorkerReply}
    (h : (serveRequest describe (.preview diff) transport).Runs tr (reply, transport')) :
    ∃ carried report, reply = .previewed report ∧ tr = callsBelow carried ∧
      CarriesOut transportIo transport carried transport' ∧
        (previewPlan diff transport.namespaceId).Runs (carried.map Carried.event) report := by
  rcases Program.runs_bind.mp h with ⟨t₁, t₂, ⟨report, s⟩, rfl, hpreview, rfl, heq⟩
  rcases Prod.mk.inj heq with ⟨rfl, rfl⟩
  rcases Program.implement_runs.mp hpreview with ⟨carried, hcarries, hrun, rfl⟩
  rw [List.append_nil]
  exact ⟨carried, report, rfl, rfl, hcarries, hrun⟩

/-- A round takes a notification over, or serves a request. -/
theorem serveInput_cases {i : Nat} {input : WorkerInput} {reply : Option WorkerReply}
    (h : (serveInput describe i input transport).Runs tr (reply, transport')) :
    (input = .notification ∧ reply = none ∧ ∃ own result, tr = own.map wire ∧
        LinuxTransport.nextNotification.Runs transport own result transport') ∨
      ∃ request answer, input = .request request ∧ reply = some answer ∧
        (serveRequest describe request transport).Runs tr (answer, transport') := by
  cases input with
  | notification =>
      rcases Program.runs_bind.mp h with ⟨t₁, t₂, ⟨result, s⟩, rfl, hnext, rfl, heq⟩
      rcases Prod.mk.inj heq with ⟨rfl, rfl⟩
      rcases runs_wire.mp hnext with ⟨own, rfl, hrun⟩
      rw [List.append_nil]
      exact Or.inl ⟨rfl, rfl, own, result, rfl, hrun⟩
  | request request =>
      rcases Program.runs_bind.mp h with ⟨t₁, t₂, ⟨answer, s⟩, rfl, hserve, rfl, heq⟩
      rcases Prod.mk.inj heq with ⟨rfl, rfl⟩
      rw [List.append_nil]
      exact Or.inr ⟨request, answer, rfl, rfl, hserve⟩

/-- A preview is a run of the executor that does not write. -/
theorem previewPlan_runs {diff : StateDiff} {namespaceId : NamespaceId} {report : DryRunReport}
    {ios : List IoEvent} (h : (previewPlan diff namespaceId).Runs ios report) :
    ∃ full report', (run diff true namespaceId).Runs full report' ∧
      report = previewReport diff report' ∧ ∀ event ∈ ios, event ∈ full := by
  rcases Program.runs_bind.mp h with ⟨t₁, t₂, report', rfl, hrun, rfl, rfl⟩
  rcases Program.resolve_runs hrun with ⟨full, hfull, rfl⟩
  refine ⟨full, report', hfull, rfl, fun event hmem => ?_⟩
  rw [List.append_nil] at hmem
  exact (List.mem_filter.mp hmem).1

end Cases

end Netfyr
