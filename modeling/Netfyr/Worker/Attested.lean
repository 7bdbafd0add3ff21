import Netfyr.Executor.Attested
import Netfyr.Executor.ExactlyOnce
import Netfyr.Worker.Wire

/-!
# The Report and the Wire

What was sent of a plan falls into one piece for each operation, in plan order,
and the report attests the pieces. No piece has two writes. An operation that
succeeded has a write that the kernel acknowledged, one that was skipped has
none, and a write that the kernel did not acknowledge is reported with its
error. Where the outcome of an operation is not known, a message did leave: a
message that the connection never took is not among the unknown.

So no update is lost or sent twice, as far as the worker can tell, and where it
cannot tell it says so.

## Main definitions

* `AttestedOnWire`: What the messages of an operation say of its outcome.

## Theorems

* `carriesOut_writes`: There are no more messages than writes.
* `Attested.onWire`: What attests the executor attests the messages.
* `serveInput_attested`: The report of a plan attests its messages.
-/

namespace Netfyr

open Interact

/-- What the messages of an operation say of its outcome. -/
structure AttestedOnWire (op : Operation) (calls : List WorkerEvent) (outcome : Outcome) :
    Prop where
  once : calls.countP (fun event => event.1.isWrite) ≤ 1
  own : ∀ message flags answer, ⟨.transport (.request message flags), answer⟩ ∈ calls →
    message.isWrite = true → ∃ kind records extra, decode op.kind .new = .ok (some kind) ∧
      writeMessage records op.target kind = .ok (message, extra) ∧
        flags = Exchange.write.flags ||| extra
  succeeded : outcome = .succeeded → ∃ message flags answer packets,
    ⟨.transport (.request message flags), answer⟩ ∈ calls ∧ message.isWrite = true ∧
      answer.collected .write = .ok packets
  skipped : ∀ reason, outcome = .skipped reason → ∀ event ∈ calls, event.1.isWrite = false
  rejected : ∀ message flags answer e, ⟨.transport (.request message flags), answer⟩ ∈ calls →
    message.isWrite = true → answer.collected .write = .error e → outcome = .failed e
  unknown : ∀ e, outcome = .failed e → e.kind = .outcomeUnknown → ∃ message flags answer,
    ⟨.transport (.request message flags), answer⟩ ∈ calls ∧ message.isWrite = true ∧
      ∀ reason, answer ≠ .refused reason

section Pieces

variable {t t' : LinuxTransport} {target : InterfaceId} {kind : OperationKind}
  {carried : List (Carried LinuxTransport IoCall IoAnswer WorkerCall WorkerAnswer)}
  {calls : List WorkerEvent} {op : Operation} {outcome : Outcome}

/-- A write fails before its message, or comes to what the message does. -/
theorem transportIo_messages {answer : Except BackendError Unit}
    (h : (transportIo (.execute target kind) t).Runs calls (answer, t')) :
    ((∃ e, answer = .error e ∧ e.OfReading) ∧ ∀ event ∈ calls, event.1.isWrite = false) ∨
      ∃ quiet message extra reply,
        writeMessage t.addressMessages target kind = .ok (message, extra) ∧
        calls = quiet ++
          [⟨.transport (.request message (Exchange.write.flags ||| extra)), reply⟩] ∧
        (∀ event ∈ quiet, event.1.isWrite = false) ∧
        answer = (reply.collected .write).map fun _ => () := by
  rcases transportIo_execute.mp h with ⟨own, rfl, hrun⟩
  have hwire : ∀ {asked : List TransportEvent}, (∀ event ∈ asked, event.1.isWrite = false) →
      ∀ event ∈ asked.map wire, event.1.isWrite = false := by
    intro asked hall event hmem
    rcases List.mem_map.mp hmem with ⟨inner, hinner, rfl⟩
    exact hall inner hinner
  rcases LinuxTransport.execute_sent hrun with ⟨hfailed, hquiet⟩ |
    ⟨checked, confirmed, drained, message, flags, reply, hsent⟩
  · exact Or.inl ⟨hfailed, hwire hquiet⟩
  · refine Or.inr ⟨(checked ++ drained).map wire, message, flags, reply, hsent.written, ?_,
      hwire hsent.quiet, hsent.result⟩
    rw [hsent.calls, List.map_append]
    rfl

/-- There are no more messages than writes. -/
theorem carriesOut_writes (h : CarriesOut transportIo t carried t') :
    (callsBelow carried).countP (fun event => event.1.isWrite) ≤
      (carried.map Carried.event).countP isExecute := by
  induction h with
  | nil t => exact Nat.le_refl 0
  | @cons c rest t' hrun _ ih =>
      rw [callsBelow_cons, List.countP_append, List.map_cons, List.countP_cons]
      rcases c with ⟨before, ⟨call, answer⟩, calls, after⟩
      by_cases hexecute : isExecute ⟨call, answer⟩ = true
      · rcases isExecute_iff.mp hexecute with ⟨target, kind, answer', heq⟩
        rw [Sigma.mk.injEq] at heq
        rcases heq with ⟨rfl, heq⟩
        obtain rfl := eq_of_heq heq
        have hone : calls.countP (fun event => event.1.isWrite) ≤ 1 := by
          rcases transportIo_messages hrun with ⟨_, hquiet⟩ | ⟨quiet, message, flags, reply, _,
            hcalls, hquiet, _⟩
          · rw [List.countP_eq_zero.mpr fun event hmem => by
              rw [hquiet event hmem]
              exact Bool.false_ne_true]
            exact Nat.zero_le 1
          · obtain rfl : calls = _ := hcalls
            rw [List.countP_append, List.countP_eq_zero.mpr fun event hmem => by
              rw [hquiet event hmem]
              exact Bool.false_ne_true, List.countP_singleton]
            split <;> omega
        dsimp only
        rw [if_pos hexecute]
        omega
      · -- Nothing else is a write.
        have hnone : calls.countP (fun event => event.1.isWrite) = 0 := by
          refine List.countP_eq_zero.mpr fun event hmem hwrite => hexecute ?_
          rcases transportIo_write hrun hmem hwrite with ⟨target, kind, heq⟩
          obtain rfl : call = .execute target kind := heq
          rfl
        dsimp only
        rw [hnone, if_neg hexecute]
        omega

/-- A message among those of a piece is that of a write. -/
theorem mem_callsBelow_message {message : RouteNetlinkMessage} {flags : BitVec 16}
    {reply : RequestAnswer} (h : CarriesOut transportIo t carried t')
    (hmem : ⟨.transport (.request message flags), reply⟩ ∈ callsBelow carried)
    (hwrite : message.isWrite = true) : ∃ target kind records extra,
      ⟨.execute target kind, (reply.collected .write).map fun _ => ()⟩ ∈
        carried.map Carried.event ∧
      writeMessage records target kind = .ok (message, extra) ∧
        flags = Exchange.write.flags ||| extra := by
  rcases List.mem_flatMap.mp hmem with ⟨⟨before, ⟨call, answer⟩, calls, after⟩, hc, hcall⟩
  have hrun := h.run_of_mem hc
  rcases transportIo_write hrun hcall hwrite with ⟨target, kind, heq⟩
  obtain rfl : call = .execute target kind := heq
  rcases transportIo_messages hrun with ⟨_, hquiet⟩ | ⟨quiet, message', extra, reply', hwritten,
    hcalls, hquiet, hanswer⟩
  · exact absurd (hwrite.symm.trans (hquiet _ hcall)) (by simp only [Bool.true_eq_false,
      not_false_eq_true])
  · -- The message is the last call, all others being none.
    obtain rfl : calls = _ := hcalls
    obtain rfl : answer = _ := hanswer
    rcases List.mem_append.mp hcall with hcall | hcall
    · exact absurd (hwrite.symm.trans (hquiet _ hcall)) (by simp only [Bool.true_eq_false,
        not_false_eq_true])
    · rw [List.mem_singleton, Sigma.mk.injEq] at hcall
      rcases hcall with ⟨hcall, hreply⟩
      rw [WorkerCall.transport.injEq, TransportCall.request.injEq] at hcall
      rcases hcall with ⟨rfl, rfl⟩
      obtain rfl := eq_of_heq hreply
      exact ⟨target, kind, _, extra, List.mem_map.mpr ⟨_, hc, rfl⟩, hwritten, rfl⟩

/-- A write that was acknowledged or left doubt has a message. -/
theorem message_of_mem {answer : Except BackendError Unit}
    (h : CarriesOut transportIo t carried t')
    (hmem : ⟨.execute target kind, answer⟩ ∈ carried.map Carried.event)
    (hsent : ∀ e, answer = .error e → ¬ e.OfReading) : ∃ message flags reply,
      ⟨.transport (.request message flags), reply⟩ ∈ callsBelow carried ∧
        message.isWrite = true ∧ answer = (reply.collected .write).map fun _ => () := by
  rcases List.mem_map.mp hmem with ⟨⟨before, event, calls, after⟩, hc, heq⟩
  obtain rfl : event = ⟨.execute target kind, answer⟩ := heq
  rcases transportIo_messages (h.run_of_mem hc) with ⟨⟨e, he, hreading⟩, _⟩ |
    ⟨quiet, message, extra, reply, hwritten, hcalls, _, hanswer⟩
  · exact absurd hreading (hsent e he)
  · refine ⟨message, Exchange.write.flags ||| extra, reply, List.mem_flatMap.mpr ⟨_, hc, ?_⟩,
      writeMessage_isWrite hwritten, hanswer⟩
    obtain rfl : calls = _ := hcalls
    exact List.mem_append_right _ List.mem_cons_self

/-- What attests the outcome of an operation attests it on the wire. -/
theorem Attested.onWire (h : Attested (carried.map Carried.event) outcome)
    (honce : (carried.map Carried.event).countP isExecute ≤ 1)
    (hown : ∀ target kind answer,
      ⟨.execute target kind, answer⟩ ∈ carried.map Carried.event →
        target = op.target ∧ decode op.kind .new = .ok (some kind))
    (hcarries : CarriesOut transportIo t carried t') :
    AttestedOnWire op (callsBelow carried) outcome where
  once := Nat.le_trans (carriesOut_writes hcarries) honce
  own message flags answer hmem hwrite := by
    rcases mem_callsBelow_message hcarries hmem hwrite with
      ⟨target, kind, records, extra, hexecute, hwritten, hflags⟩
    rcases hown target kind _ hexecute with ⟨rfl, hdecode⟩
    exact ⟨kind, records, extra, hdecode, hwritten, hflags⟩
  succeeded hout := by
    rcases h.succeeded hout with ⟨target, kind, hmem⟩
    rcases message_of_mem hcarries hmem (fun e he => absurd he (by simp only [reduceCtorEq,
      not_false_eq_true])) with ⟨message, flags, reply, hsent, hwrite, hok⟩
    cases hcollected : reply.collected .write with
    | error e =>
        rw [hcollected] at hok
        exact absurd hok (by simp only [Except.map, reduceCtorEq, not_false_eq_true])
    | ok packets => exact ⟨message, flags, reply, packets, hsent, hwrite, hcollected⟩
  skipped reason hout event hmem := by
    by_contra hwrite
    rw [Bool.not_eq_false] at hwrite
    rcases List.mem_flatMap.mp hmem with ⟨⟨before, ⟨call, answer⟩, calls, after⟩, hc, hcall⟩
    rcases transportIo_write (hcarries.run_of_mem hc) hcall hwrite with ⟨target, kind, heq⟩
    obtain rfl : call = .execute target kind := heq
    have hnone := h.skipped reason hout _ (List.mem_map.mpr ⟨_, hc, rfl⟩)
    exact absurd hnone (by simp only [isExecute, Bool.true_eq_false, not_false_eq_true])
  rejected message flags reply e hmem hwrite hcollected := by
    rcases mem_callsBelow_message hcarries hmem hwrite with ⟨target, kind, _, _, hexecute, _⟩
    rw [hcollected] at hexecute
    exact h.rejected target kind e hexecute
  unknown e hout hkind := by
    have hdoubt : ¬ e.Known := not_not_intro hkind
    have hnot : ¬ e.OfReading := by
      unfold BackendError.OfReading
      rw [hkind]
      exact fun habs => Bool.false_ne_true habs.symm
    -- The message of the write was taken, or the error would say that it was not.
    have hmessage : ∀ {target kind} {answer : Except BackendError Unit},
        ⟨.execute target kind, answer⟩ ∈ carried.map Carried.event →
        (∀ e', answer = .error e' → e' = e) → ∃ message flags reply,
          ⟨.transport (.request message flags), reply⟩ ∈ callsBelow carried ∧
            message.isWrite = true ∧ ∀ reason, reply ≠ .refused reason := by
      intro target kind answer hmem hsame
      rcases message_of_mem hcarries hmem (fun e' he => hsame e' he ▸ hnot) with
        ⟨message, flags, reply, hsent, hwrite, hanswer⟩
      refine ⟨message, flags, reply, hsent, hwrite, fun reason hrefused => ?_⟩
      rw [hrefused] at hanswer
      have hrejected := hsame _ hanswer
      rw [← hrejected] at hkind
      exact absurd hkind (by simp only [BackendError.new_kind, Exchange.rejected, reduceCtorEq,
        not_false_eq_true])
    rcases h.unknown e hout hdoubt with ⟨target, kind, hmem | hmem⟩ | hmem
    · exact hmessage hmem fun e' he => absurd he (by simp only [reduceCtorEq, not_false_eq_true])
    · exact hmessage hmem fun e' he => (Except.error.inj he).symm
    · -- An inventory never leaves doubt about a write.
      rcases List.mem_map.mp hmem with ⟨⟨before, event, calls, after⟩, hc, heq⟩
      obtain rfl : event = ⟨.inventory, .error e⟩ := heq
      rcases transportIo_inventory.mp (hcarries.run_of_mem hc) with ⟨own, _, hinventory⟩
      exact absurd ((LinuxTransport.inventory_confined _ _ _ _ _ hinventory).2 e rfl) hnot

end Pieces

/-- The report of a plan attests what was sent of it: the calls fall into one
    piece for each operation, and each operation is reported with one outcome,
    which its piece attests. -/
theorem serveInput_attested {describe : Match → String} {i : Nat} {diff : StateDiff}
    {transport transport' : LinuxTransport} {tr : List WorkerEvent} {reply : Option WorkerReply}
    (hrun : (serveInput describe i (.request (.apply diff)) transport).Runs tr
      (reply, transport')) :
    ∃ (report : ApplyReport) (pieces : List (List WorkerEvent)),
      reply = some (.applied report) ∧ Covers report diff.contexts ∧
      tr = pieces.flatten ∧ pieces.length = diff.operations.length ∧
      ∀ k piece, pieces[k]? = some piece → ∃ op outcome, diff.operations[k]? = some op ∧
        (∀ other, report.ReportsAt diff k other ↔ outcome = other) ∧
          AttestedOnWire op piece outcome := by
  rcases serveInput_cases hrun with ⟨habs, _⟩ | ⟨request, answer, hrequest, hreply, hserve⟩
  · exact absurd habs (by simp only [reduceCtorEq, not_false_eq_true])
  obtain rfl := WorkerInput.request.inj hrequest
  rcases serveRequest_apply hserve with ⟨carried, report, rfl, hcalls, hcarries, happly⟩
  rcases run_history happly with ⟨rounds, hhistory⟩
  have hparts : carried.map Carried.event = (rounds.map Round.calls).flatten := by
    rw [hhistory.trace, callsOf, List.flatMap_def]
  rcases hcarries.parts hparts with ⟨pieces, rfl, hpieces⟩
  have hlength := hpieces.length_eq
  rw [List.length_map, hhistory.complete] at hlength
  refine ⟨report, pieces.map callsBelow, hreply, hhistory.covers, ?_, ?_, ?_⟩
  · rw [hcalls, callsBelow, List.flatMap_def, List.map_flatten, List.flatten_flatten, List.map_map]
    rfl
  · rw [List.length_map, hlength]
  · intro k piece hk
    rw [List.getElem?_map] at hk
    rcases Option.map_eq_some_iff.mp hk with ⟨carried, hpiece, rfl⟩
    have hlt : k < diff.operations.length := by
      rw [hlength]
      exact (List.getElem?_eq_some_iff.mp hpiece).choose
    rcases hhistory.roundAt (List.getElem?_eq_getElem hlt) with ⟨round, hat⟩
    rcases List.getElem?_eq_some_iff.mp hpiece with ⟨hbound, hat'⟩
    rcases List.getElem?_eq_some_iff.mp hat.round with ⟨hbound', hround⟩
    rcases List.forall₂_iff_get.mp hpieces with ⟨_, hall⟩
    rcases hall k (by rwa [List.length_map]) hbound with ⟨hsame, u, u', hpart⟩
    rw [List.get_eq_getElem, List.get_eq_getElem, List.getElem_map, hat', hround] at hsame
    rw [List.get_eq_getElem, hat'] at hpart
    refine ⟨_, round.outcome, hat.operation, fun _ => hhistory.reportsAt_iff hat, ?_⟩
    have hattested := hat.attested
    have honce := hat.writes_once
    rw [← hsame] at hattested honce
    refine hattested.onWire honce (fun target kind answer hmem => ?_) hpart
    rw [hsame] at hmem
    exact hat.writes_own hmem

end Netfyr
