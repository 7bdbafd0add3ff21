import Netfyr.Linux.Sent
import Netfyr.Worker.Serve

/-!
# Requests as Jobs

A worker serves requests, and its transport serves jobs. Whatever requests come,
what the transport does for them is a history of jobs: one for an inventory, one
for a write, and one for a notification. So what holds of every history of jobs
holds of the worker, across the boundaries of its requests.

The first use is the way from a query to a plan. A caller plans on the answer to
a query and sends the plan later; in between other requests are served, and the
kernel may delete the device and give its index to another. An identity that was
in the answer and is confirmed for a write was not lost between the two.

## Main definitions

* `transportEvents`: What a worker's trace shows of the transport.
* `JobsDone`: A history of jobs, all of them done.

## Theorems

* `JobsDone.carried`: What carries out the executor's calls are jobs.
* `worked_done`: What a worker does are jobs.
* `Worked.carries`: A worker carries generations.
-/

namespace Netfyr

open Interact

/-- An event of the worker, if it is one of the transport. -/
def transportEvent? : WorkerEvent → Option TransportEvent
  | ⟨.transport call, answer⟩ => some ⟨call, answer⟩
  | ⟨.now, _⟩ | ⟨.isClosed, _⟩ => none

/-- What a worker's trace shows of the transport. -/
def transportEvents (tr : List WorkerEvent) : List TransportEvent := tr.filterMap transportEvent?

@[simp] theorem transportEvents_nil : transportEvents [] = [] := rfl

@[simp] theorem transportEvents_append (tr tr' : List WorkerEvent) :
    transportEvents (tr ++ tr') = transportEvents tr ++ transportEvents tr' :=
  List.filterMap_append

@[simp] theorem transportEvents_wire (own : List TransportEvent) :
    transportEvents (own.map wire) = own := by
  induction own with
  | nil => rfl
  | cons event own ih =>
      have hevent : transportEvent? (wire event) = some event := rfl
      rw [List.map_cons, transportEvents, List.filterMap_cons_some hevent]
      exact congrArg (event :: ·) ih

/-- An event on the wire of what runs as a part of the transport is one of its
    own. -/
theorem map_wire_split {own : List TransportEvent} {event : TransportEvent}
    {before after : List WorkerEvent} (h : own.map wire = before ++ wire event :: after) :
    ∃ earlier later, own = earlier ++ event :: later ∧ before = earlier.map wire ∧
      after = later.map wire := by
  rcases List.map_eq_append_iff.mp h with ⟨earlier, others, rfl, rfl, hothers⟩
  rcases List.map_eq_cons_iff.mp hothers with ⟨event', later, rfl, hevent, rfl⟩
  obtain rfl : event' = event := Option.some.inj (congrArg transportEvent? hevent)
  exact ⟨earlier, later, rfl, rfl, rfl⟩

section Jobs

variable {start transport transport' : LinuxTransport} {jobs : List TransportJob}
  {rounds : List TransportRound}

/-- A history of jobs, all of them done. -/
structure JobsDone (start : LinuxTransport) (jobs : List TransportJob)
    (rounds : List TransportRound) (transport : LinuxTransport) : Prop where
  served : Served jobs start rounds transport
  complete : rounds.length = jobs.length

/-- One more job. -/
theorem JobsDone.serve {job : TransportJob} {tr : List TransportEvent} {outcome : TransportOutcome}
    (h : JobsDone start jobs rounds transport)
    (hrun : (Netfyr.serve rounds.length job transport).Runs tr (outcome, transport')) :
    JobsDone start (jobs ++ [job]) (rounds ++ [⟨transport, tr, outcome, transport'⟩])
      transport' := by
  refine ⟨h.served.next h.complete hrun, ?_⟩
  rw [List.length_append, List.length_append, h.complete]
  rfl

/-- A part of the transport that is served as a job is one more. -/
theorem JobsDone.transported {α : Type} {m : Transporting α} (job : TransportJob)
    (outcome : Except BackendError α → TransportOutcome) {own : List TransportEvent}
    {result : Except BackendError α}
    (hjob : ∀ i transport, Netfyr.serve i job transport =
      (m transport).bind fun out => .done (outcome out.1, out.2))
    (h : JobsDone start jobs rounds transport) (hrun : m.Runs transport own result transport') :
    ∃ later done, JobsDone start (jobs ++ later) (rounds ++ done) transport' ∧
      callsOf done = own := by
  refine ⟨[job], [⟨transport, own, outcome result, transport'⟩], h.serve ?_, callsOf_singleton _⟩
  rw [hjob]
  exact Program.runs_bind.mpr ⟨own, [], _, (List.append_nil own).symm, hrun, rfl, rfl⟩

theorem JobsDone.inventory {enrich : Match → Bool} {own : List TransportEvent}
    {result : Except BackendError Observation} (h : JobsDone start jobs rounds transport)
    (hrun : (LinuxTransport.inventory enrich).Runs transport own result transport') :
    ∃ later done, JobsDone start (jobs ++ later) (rounds ++ done) transport' ∧ callsOf done = own :=
  h.transported (.inventory enrich) _ (fun _ _ => rfl) hrun

theorem JobsDone.execute {target : InterfaceId} {kind : OperationKind} {own : List TransportEvent}
    {result : Except BackendError Unit} (h : JobsDone start jobs rounds transport)
    (hrun : (LinuxTransport.execute target kind).Runs transport own result transport') :
    ∃ later done, JobsDone start (jobs ++ later) (rounds ++ done) transport' ∧ callsOf done = own :=
  h.transported (.execute target kind) _ (fun _ _ => rfl) hrun

/-- What carries out the executor's calls are jobs. -/
theorem JobsDone.carried {carried : List (Carried LinuxTransport IoCall IoAnswer WorkerCall
    WorkerAnswer)} (h : CarriesOut transportIo transport carried transport')
    (hdone : JobsDone start jobs rounds transport) :
    ∃ later done, JobsDone start (jobs ++ later) (rounds ++ done) transport' ∧
      callsOf done = transportEvents (callsBelow carried) := by
  induction h generalizing jobs rounds with
  | nil t => exact ⟨[], [], by rwa [List.append_nil, List.append_nil], rfl⟩
  | @cons c rest t' hrun _ ih =>
      -- One call of the executor is a job, or does not reach the transport.
      have hcall : ∃ later done, JobsDone start (jobs ++ later) (rounds ++ done) c.after ∧
          callsOf done = transportEvents c.calls := by
        rcases c with ⟨before, ⟨call, answer⟩, calls, after⟩
        cases call with
        | inventory =>
            rcases transportIo_inventory.mp hrun with ⟨own, rfl, hown⟩
            rw [transportEvents_wire]
            exact hdone.inventory hown
        | execute target kind =>
            rcases transportIo_execute.mp hrun with ⟨own, rfl, hown⟩
            rw [transportEvents_wire]
            exact hdone.execute hown
        | now =>
            rcases transportIo_now.mp hrun with ⟨hcalls, hafter⟩
            obtain rfl : after = before := hafter
            obtain rfl : calls = [⟨.now, answer⟩] := hcalls
            exact ⟨[], [], by rwa [List.append_nil, List.append_nil], rfl⟩
        | cancelled =>
            rcases transportIo_cancelled.mp hrun with ⟨hcalls, hafter⟩
            obtain rfl : after = before := hafter
            obtain rfl : calls = [⟨.isClosed, answer⟩] := hcalls
            exact ⟨[], [], by rwa [List.append_nil, List.append_nil], rfl⟩
      rcases hcall with ⟨later, done, hmore, hcalls⟩
      rcases ih hmore with ⟨later', done', hall, hcalls'⟩
      refine ⟨later ++ later', done ++ done', ?_, ?_⟩
      · rwa [← List.append_assoc, ← List.append_assoc]
      · rw [callsOf_append, hcalls, hcalls', callsBelow_cons, transportEvents_append]

end Jobs

section Histories

variable {describe : Match → String} {inputs : List WorkerInput}
  {start transport transport' : LinuxTransport}

/-- One round of a worker. -/
abbrev WorkerRound : Type := Round WorkerCall WorkerAnswer LinuxTransport (Option WorkerReply)

variable {h : List WorkerRound}

/-- What one round does are jobs. -/
theorem JobsDone.round {i : Nat} {input : WorkerInput} {tr : List WorkerEvent}
    {reply : Option WorkerReply} {jobs : List TransportJob} {rounds : List TransportRound}
    (hdone : JobsDone start jobs rounds transport)
    (hrun : (serveInput describe i input transport).Runs tr (reply, transport')) :
    ∃ later done, JobsDone start (jobs ++ later) (rounds ++ done) transport' ∧
      callsOf done = transportEvents tr := by
  rcases serveInput_cases hrun with ⟨_, _, own, result, rfl, hown⟩ | ⟨request, reply, _, _, hserve⟩
  · rw [transportEvents_wire]
    exact hdone.transported .notification (fun _ => .noted) (fun _ _ => rfl) hown
  · cases request with
    | query selector =>
        rcases serveRequest_query hserve with ⟨own, result, _, rfl, hown⟩
        rw [transportEvents_wire]
        exact hdone.inventory hown
    | apply diff =>
        rcases serveRequest_apply hserve with ⟨carried, report, _, rfl, hcarries, _⟩
        exact hdone.carried hcarries
    | preview diff =>
        rcases serveRequest_preview hserve with ⟨carried, report, _, rfl, hcarries, _⟩
        exact hdone.carried hcarries

/-- What a worker does are jobs. -/
theorem worked_done (hr : Worked describe inputs start h transport) :
    ∃ jobs rounds, JobsDone start jobs rounds transport ∧
      callsOf rounds = transportEvents (callsOf h) := by
  induction hr with
  | start => exact ⟨[], [], ⟨.start, rfl⟩, rfl⟩
  | round _ _ hrun ih =>
      rcases ih with ⟨jobs, rounds, hdone, hcalls⟩
      rcases hdone.round hrun with ⟨later, done, hmore, hcalls'⟩
      refine ⟨jobs ++ later, rounds ++ done, hmore, ?_⟩
      rw [callsOf_append, hcalls, hcalls', callsOf_append, callsOf_singleton,
        transportEvents_append]

/-- A worker carries generations. -/
theorem Worked.carries (hr : Worked describe inputs start h transport) :
    LinuxTransport.Carries start (transportEvents (callsOf h)) transport := by
  rcases worked_done hr with ⟨jobs, rounds, hdone, hcalls⟩
  rw [← hcalls]
  exact hdone.served.carries

/-- So does what carries out a part of a request. -/
theorem carriesOut_carries
    {carried : List (Carried LinuxTransport IoCall IoAnswer WorkerCall WorkerAnswer)}
    (hcarries : CarriesOut transportIo transport carried transport') :
    LinuxTransport.Carries transport (transportEvents (callsBelow carried)) transport' := by
  have hnone : JobsDone transport [] [] transport := ⟨.start, rfl⟩
  rcases hnone.carried hcarries with ⟨later, done, hdone, hcalls⟩
  rw [← hcalls]
  exact hdone.served.carries

/-- A history up to one of its rounds. -/
theorem Worked.upTo {i : Nat} {r : WorkerRound} (hr : Worked describe inputs start h transport)
    (hi : h[i]? = some r) : Worked describe inputs start (h.take (i + 1)) r.after := by
  rcases Rounds.nth hr hi with ⟨input, hinput, hbefore, hrun⟩
  have hlength : (h.take i).length = i :=
    List.length_take_of_le (Nat.le_of_lt (List.getElem?_eq_some_iff.mp hi).choose)
  have hround : Worked describe inputs start (h.take i ++ [r]) r.after :=
    .round hbefore (by rwa [hlength]) (by rwa [hlength])
  rwa [List.take_add_one, hi, Option.toList_some]

/-- What a query was answered stands when it was. -/
theorem Worked.stands {i : Nat} {r : WorkerRound} {observation : Observation}
    {device : DeviceObservation} (hr : Worked describe inputs start h transport)
    (hi : h[i]? = some r) (hanswered : r.outcome = some (.observed (.ok observation)))
    (hmem : device ∈ observation.devices) :
    r.after.generations device.identity.index = some device.identity.generation := by
  rcases Rounds.nth hr hi with ⟨input, _, _, hrun⟩
  rw [hanswered] at hrun
  rcases serveInput_cases hrun with ⟨_, habs, _⟩ | ⟨request, reply, _, hreply, hserve⟩
  · exact absurd habs (by simp only [reduceCtorEq, not_false_eq_true])
  obtain rfl := Option.some.inj hreply
  cases request with
  | apply diff =>
      rcases serveRequest_apply hserve with ⟨_, _, habs, _⟩
      exact absurd habs (by simp only [reduceCtorEq, not_false_eq_true])
  | preview diff =>
      rcases serveRequest_preview hserve with ⟨_, _, habs, _⟩
      exact absurd habs (by simp only [reduceCtorEq, not_false_eq_true])
  | query selector =>
      rcases serveRequest_query hserve with ⟨own, result, hresult, _, hinventory⟩
      cases result with
      | error e => exact absurd hresult (by simp [Except.bind])
      | ok found =>
          -- The answer is a part of what the inventory found.
          have hanswer : answerQuery describe selector found = .ok observation :=
            (WorkerReply.observed.inj hresult).symm
          unfold answerQuery at hanswer
          dsimp only at hanswer
          split at hanswer
          · exact absurd hanswer (by simp only [reduceCtorEq, not_false_eq_true])
          · obtain rfl := Except.ok.inj hanswer
            exact (LinuxTransport.inventory_ok hinventory).1 device (List.mem_filter.mp hmem).1

/-- No job changes what the transport was opened with. -/
theorem Served.steady {jobs : List TransportJob} {rounds : List TransportRound}
    (hr : Served jobs start rounds transport) : LinuxTransport.Steady start [] transport := by
  induction hr with
  | start => exact ⟨rfl, rfl, rfl, rfl⟩
  | @round _ s s' job _ _ _ _ hrun ih =>
      suffices hown : LinuxTransport.Steady s [] _ from ih.trans hown
      cases job with
      | notification =>
          rcases Program.runs_bind.mp hrun with ⟨t₁, t₂, ⟨result, s₁⟩, rfl, hnext, rfl, heq⟩
          obtain rfl := (Prod.mk.inj heq).2
          have hrest := Action.runs_get_bind.mp hnext
          by_cases hclosed : s.notificationsClosed = true
          · rw [if_pos hclosed] at hrest
            obtain rfl := (Action.runs_pure.mp hrest).2.2
            exact ⟨rfl, rfl, rfl, rfl⟩
          · rw [if_neg hclosed] at hrest
            rcases Action.runs_perform_bind.mp hrest with ⟨item, rest, rfl, hmodify⟩
            obtain rfl := (Action.runs_modify.mp hmodify).2.2
            exact (LinuxTransport.foldl_record_steady [item] s).1
      | inventory enrich =>
          rcases serve_inventory hrun with ⟨result, _, hinventory⟩
          have hsteady :=
            (LinuxTransport.respected_steady.inventory enrich) _ _ _ _ hinventory nofun
          exact ⟨hsteady.namespaceId, hsteady.ethtool, hsteady.wireless, hsteady.diagnostics⟩
      | execute target kind =>
          rcases serve_execute hrun with ⟨result, _, hexecute⟩
          have hsteady :=
            (LinuxTransport.respected_steady.execute target kind) _ _ _ _ hexecute nofun
          exact ⟨hsteady.namespaceId, hsteady.ethtool, hsteady.wireless, hsteady.diagnostics⟩

theorem Worked.steady (hr : Worked describe inputs start h transport) :
    LinuxTransport.Steady start [] transport := by
  rcases worked_done hr with ⟨jobs, rounds, hdone, _⟩
  exact hdone.served.steady

end Histories

end Netfyr
