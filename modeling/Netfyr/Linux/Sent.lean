import Netfyr.Interact.Confined
import Netfyr.Linux.Generations

/-!
# What Is Sent

What the transport asks of the kernel can be read off its procedures. An
inventory asks for two dumps and, about single devices, for what it shows of
them; a confirmation asks for one link; and neither fails as a write does. A
write is sent at one point, behind a confirmation that succeeded, as the message
that the records of the last inventory make of the operation.

Only an inventory changes the records, and nothing changes what the transport
was opened with.

## Main definitions

* `TransportCall.isSurvey`: The calls of an inventory.
* `BackendErrorKind.isOfWrite`: The kinds that say what became of a write.
* `LinuxTransport.Steady`: What no procedure changes.
* `LinuxTransport.Sent`: A write that was sent, with what led to it.

## Theorems

* `inventory_confined`: An inventory changes nothing, and does not fail as a
  write does.
* `respected_steady`: No procedure changes what the transport was opened with.
* `confirmIdentity_confirmed`: What a confirmation has seen.
* `execute_sent`: A write is sent at one point, or fails before it.
-/

namespace Netfyr

open Interact

/-- A call of an inventory: the two dumps, and what is asked about single
    devices. -/
def TransportCall.isSurvey : TransportCall → Bool
  | .notification => false
  | .request message flags =>
      (message == .getLink {} ||
        message == .getAddress { AddressMessage.empty with family := .inet }) &&
          flags == Exchange.dump.flags
  | .backlog | .now | .wirelessIndices | .interfaceIndex _ | .legacyWireless _ | .driverInfo _
  | .linkModes _ _ | .getrandom => true

/-- Nothing that an inventory asks for changes anything. -/
theorem TransportCall.isWrite_of_isSurvey {call : TransportCall} (h : call.isSurvey = true) :
    call.isWrite = false := by
  cases call with
  | request message flags =>
      cases message with
      | getLink _ | getAddress _ => rfl
      | setLink _ | newAddress _ | delAddress _ =>
          exact absurd h (by simp [TransportCall.isSurvey])
  | _ => rfl

/-- Whether a kind of failure says what became of a write. -/
def BackendErrorKind.isOfWrite : BackendErrorKind → Bool
  | .applyFailed | .outcomeUnknown => true
  | _ => false

/-- A failure that says nothing of a write. -/
def BackendError.OfReading (self : BackendError) : Prop := self.kind.isOfWrite = false

/-- What the answer to a request comes to. -/
def RequestAnswer.collected (exchange : Exchange) :
    RequestAnswer → Except BackendError (List RoutePacket)
  | .refused message => .error (.new exchange.rejected message)
  | .timedOut =>
      .error (.new exchange.unconfirmed "netlink request timed out before confirmed completion")
  | .answered stream => collectResponse exchange stream []

section Readings

theorem ofReading_fromIo {fallback : BackendErrorKind} {error : IoError}
    (h : fallback.isOfWrite = false) : (BackendError.fromIo fallback error).OfReading := by
  unfold BackendError.OfReading BackendError.fromIo
  dsimp only
  split <;> first | rfl | exact h

/-- What ends the exchange of a reading does not say what became of a write. -/
theorem failsAs_collectResponse {exchange : Exchange} (hread : exchange ≠ .write)
    (stream : List NetlinkMessage) (packets : List RoutePacket) :
    FailsAs BackendError.OfReading (collectResponse exchange stream packets) := by
  have hrejected : exchange.rejected.isOfWrite = false := by
    cases exchange with
    | write => exact absurd rfl hread
    | dump | read => rfl
  have hunconfirmed : exchange.unconfirmed.isOfWrite = false := by
    cases exchange with
    | write => exact absurd rfl hread
    | dump | read => rfl
  induction stream generalizing packets with
  | nil => exact .error hunconfirmed
  | cons message stream ih =>
      rcases message with ⟨flags, payload⟩
      unfold collectResponse
      by_cases hflags : flags &&& nlmFDumpIntr ≠ 0
      · rw [if_pos hflags]
        exact .error hrejected
      rw [if_neg hflags]
      cases payload with
      | innerMessage packet => exact ih _
      | noop => exact ih _
      | overrun => exact .error hunconfirmed
      | error error =>
          dsimp only
          by_cases hcode : error.code.isSome = true
          · rw [if_pos hcode]
            refine .error ?_
            unfold netlinkError
            dsimp only
            split <;> exact ofReading_fromIo hrejected
          rw [if_neg hcode]
          split
          · exact .ok
          · exact ih _
      | done done =>
          dsimp only
          split
          · exact .error hunconfirmed
          · split
            · exact .error (ofReading_fromIo hrejected)
            · exact .ok

theorem failsAs_parseLink (record : LinkRecord) :
    FailsAs BackendError.OfReading (parseLink record) := by
  unfold parseLink
  cases record.header with
  | error error => exact .error rfl
  | ok header =>
      refine (FailsAs.foldlM ?_ _ _).bind fun parts => ?_
      · intro parts nla
        rcases nla with error | ⟨kind, error | attr⟩
        · exact .error rfl
        · exact .ok
        · cases attr with
          | address bytes | carrier value =>
              unfold readLinkAttribute
              dsimp only
              split <;> exact .ok
          | _ => exact .ok
      · cases parts.attributes.findSome? ifName? with
        | none => exact .error rfl
        | some name => exact .ok

theorem failsAs_ethernetAttributes (index : UInt32) (answer : EthtoolAnswer) :
    FailsAs BackendError.OfReading (ethernetAttributes index answer) := by
  unfold ethernetAttributes
  cases answer.messages.flatten.foldlM (readEthtool index) (.empty, []) with
  | none => exact .error rfl
  | some out =>
      cases answer.ending with
      | done | netlinkError code message =>
          dsimp only
          split <;> exact .ok
      | error message | timedOut => exact .ok

theorem failsAs_observeAddresses (devices : List DeviceObservation)
    (diagnostics : List Diagnostic) (packets : List RoutePacket) :
    FailsAs BackendError.OfReading (observeAddresses devices diagnostics packets) := by
  refine (FailsAs.foldlM ?_ _ _).bind fun sweep => .ok
  intro sweep packet
  unfold observeAddress
  split
  · exact .error rfl
  · split
    · exact .error rfl
    · split
      · exact .ok
      · dsimp only
        split
        · exact .error rfl
        · split
          · exact .ok
          · split
            · exact .error rfl
            · exact .ok

end Readings

namespace LinuxTransport

section Surveys

/-- An inventory, or a part of it. -/
abbrev Surveying {α : Type} (m : Transporting α) : Prop :=
  m.Confined (fun call => call.isSurvey = true) BackendError.OfReading

theorem drainNotifications_confined {P : TransportCall → Prop} (h : P .backlog) :
    drainNotifications.Confined P BackendError.OfReading := by
  have htake : takeInvalidated.Confined P BackendError.OfReading := by
    refine Action.Confined.get.bind fun transport => Action.Confined.modify.bind fun _ => ?_
    cases transport.invalidated with
    | none => exact .pure
    | some reason => exact .fail rfl
  refine Action.Confined.get.bind fun transport => ?_
  split
  · exact htake
  · exact Action.Confined.bind (.perform h) fun backlog =>
      Action.Confined.modify.bind fun _ => htake

/-- An exchange that is no write. -/
theorem request_confined {P : TransportCall → Prop} {message : RouteNetlinkMessage}
    {exchange : Exchange} {extraFlags : BitVec 16} (hread : exchange ≠ .write)
    (hdrain : P .backlog) (h : P (.request message (exchange.flags ||| extraFlags))) :
    (request message exchange extraFlags).Confined P BackendError.OfReading := by
  refine (drainNotifications_confined hdrain).bind fun _ => ?_
  refine Action.Confined.bind (.perform h) fun answer => ?_
  cases answer with
  | refused message => cases exchange <;> first | exact .fail rfl | exact absurd rfl hread
  | timedOut => cases exchange <;> first | exact .fail rfl | exact absurd rfl hread
  | answered stream => exact .ofExcept (failsAs_collectResponse hread stream [])

theorem whileNamed_surveying {α : Type} {name : String} {index : UInt32}
    {call : Transporting (Except IoError α)} (hcall : Surveying call) :
    Surveying (whileNamed name index call) := by
  have hindex : Surveying (interfaceIndex name) := by
    unfold interfaceIndex
    split
    · exact .pure
    · exact .perform rfl
  refine hindex.bind fun before => ?_
  cases checkNamed index before with
  | error e => exact .pure
  | ok _ =>
      refine hcall.bind fun result => ?_
      cases result with
      | error e => exact .pure
      | ok a =>
          refine hindex.bind fun after => ?_
          cases checkNamed index after <;> exact .pure

theorem enrichDevice_surveying (enrich : Match → Bool) (identity : InterfaceId) (state : State)
    (diagnostics : List Diagnostic) :
    Surveying (enrichDevice enrich identity state diagnostics) := by
  have hcall : Surveying (driverInfo identity.name) := by
    unfold driverInfo
    split
    · exact .pure
    · exact Action.Confined.bind (.perform rfl) fun _ => .pure
  unfold enrichDevice
  split
  · refine (whileNamed_surveying hcall).bind fun answer => ?_
    cases answer with
    | ok info => exact .pure
    | error e =>
        dsimp only
        split
        · exact .pure
        · split
          · exact .fail rfl
          · exact .pure
  · exact .pure

theorem generationOf_surveying (index : UInt32) : Surveying (generationOf index) := by
  refine Action.Confined.get.bind fun transport => ?_
  split
  · exact .pure
  · have hdraw : Surveying freshGeneration := by
      refine Action.Confined.bind (.perform rfl) fun answer => .ofExcept ?_
      cases answer with
      | error e => exact .error (ofReading_fromIo rfl)
      | ok generation => exact .ok
    exact hdraw.bind fun generation => Action.Confined.modify.bind fun _ => .pure

theorem observeLink_surveying (enrich : Match → Bool) (wireless : Option (List UInt32))
    (observedAt : Instant) (sweep : LinkSweep) (packet : RoutePacket) :
    Surveying (observeLink enrich wireless observedAt sweep packet) := by
  have hlegacy : ∀ name, Surveying (legacyWireless name) := by
    intro name
    unfold legacyWireless
    split
    · exact .pure
    · exact .perform rfl
  refine Action.Confined.bind (.failWhen rfl) fun _ => ?_
  refine Action.Confined.bind (.ofExcept (failsAs_parseLink _)) fun parsed => ?_
  refine (whileNamed_surveying ((hlegacy _).bind fun _ => .pure)).bind fun answer => ?_
  refine Action.Confined.bind (.ofExcept ?_) fun legacy => ?_
  · cases answer with
    | ok legacy => exact .ok
    | error e =>
        refine .error ?_
        dsimp only
        split
        · rfl
        · exact ofReading_fromIo rfl
  refine (generationOf_surveying _).bind fun generation => ?_
  refine Action.Confined.get.bind fun transport => ?_
  exact (enrichDevice_surveying enrich _ _ _).bind fun _ => .pure

theorem enrichLinkModes_surveying (sweep : LinkSweep) : Surveying (enrichLinkModes sweep) := by
  have hask : ∀ answers target, Surveying (askLinkModes answers target) := fun answers target =>
    Action.Confined.bind (.perform rfl) fun _ => .pure
  have hinsert : ∀ sweep result, Surveying (insertEthernet sweep result) := by
    intro sweep result
    refine Action.Confined.bind (.ofExcept (failsAs_ethernetAttributes _ _)) fun out => ?_
    exact Action.Confined.ofOption.bind fun _ => .pure
  refine Action.Confined.get.bind fun transport => ?_
  split
  · exact Action.Confined.bind (.foldlM hask _ _) fun answers => .foldlM hinsert _ _
  · exact .pure

theorem conclude_surveying (deletionEpoch : UInt64) (sweep : AddressSweep) :
    Surveying (conclude deletionEpoch sweep) := by
  refine Action.Confined.get.bind fun transport => ?_
  refine Action.Confined.bind (.ofExcept ?_) fun _ => ?_
  · unfold validateDeletionEpoch
    split
    · exact .error rfl
    · exact .ok
  refine Action.Confined.bind (.failWhen rfl) fun _ => ?_
  exact Action.Confined.modify.bind fun _ => .pure

/-- An inventory asks for two dumps and about single devices, and does not fail
    as a write does. -/
theorem inventory_confined (enrich : Match → Bool) : Surveying (inventory enrich) := by
  have hwireless : Surveying wirelessIndices := by
    refine Action.Confined.get.bind fun transport => ?_
    split
    · exact .perform rfl
    · exact .pure
  have hobserve : Surveying (observe enrich) := by
    refine Action.Confined.bind (request_confined (by decide) rfl (by decide)) fun links => ?_
    refine Action.Confined.bind (request_confined (by decide) rfl (by decide)) fun addresses => ?_
    refine Action.Confined.bind (.perform rfl) fun observedAt => ?_
    refine Action.Confined.get.bind fun transport => hwireless.bind fun answer => ?_
    refine Action.Confined.bind (.foldlM (observeLink_surveying enrich _ observedAt) _ _)
      fun sweep => (enrichLinkModes_surveying sweep).bind fun sweep => ?_
    exact Action.Confined.modify.bind fun _ => .ofExcept (failsAs_observeAddresses _ _ _)
  refine Action.Confined.bind (drainNotifications_confined rfl) fun _ =>
    Action.Confined.get.bind fun transport => ?_
  exact hobserve.bind fun sweep => Action.Confined.bind (drainNotifications_confined rfl) fun _ =>
    conclude_surveying _ sweep

/-- A confirmation asks for the one link, and does not fail as a write does. -/
theorem confirmIdentity_confined (target : InterfaceId) :
    (confirmIdentity target).Confined (fun call => call = .backlog ∨
      call = .request (.getLink { index := target.index }) Exchange.read.flags)
      BackendError.OfReading := by
  refine Action.Confined.get.bind fun transport => ?_
  refine Action.Confined.bind (.failWhen rfl) fun _ => ?_
  refine Action.Confined.bind (request_confined (by decide) (Or.inl rfl) (Or.inr rfl))
    fun reply => ?_
  refine Action.Confined.bind (drainNotifications_confined (Or.inl rfl)) fun _ => ?_
  refine Action.Confined.bind (.ofExcept ?_) fun name => ?_
  · unfold replyName
    split
    · split
      · exact (failsAs_parseLink _).map
      · exact .error rfl
    · exact .error rfl
  exact Action.Confined.get.bind fun transport => .failWhen rfl

end Surveys

section Steadiness

/-- What no procedure changes: what the transport was opened with. -/
structure Steady (transport : LinuxTransport) (_ : List TransportEvent)
    (transport' : LinuxTransport) : Prop where
  namespaceId : transport'.namespaceId = transport.namespaceId
  ethtool : transport'.ethtool = transport.ethtool
  wireless : transport'.wireless = transport.wireless
  diagnostics : transport'.initializationDiagnostics = transport.initializationDiagnostics

variable {transport transport' : LinuxTransport} {tr : List TransportEvent}

theorem Steady.trans {transport'' : LinuxTransport} {tr' tr'' : List TransportEvent}
    (h : Steady transport tr transport') (h' : Steady transport' tr' transport'') :
    Steady transport tr'' transport'' :=
  ⟨h'.namespaceId.trans h.namespaceId, h'.ethtool.trans h.ethtool, h'.wireless.trans h.wireless,
    h'.diagnostics.trans h.diagnostics⟩

/-- Taking notifications over changes neither what the transport was opened with
    nor the records. -/
theorem foldl_record_steady (items : List (Option NetlinkMessage)) (transport : LinuxTransport) :
    Steady transport [] (items.foldl record transport) ∧
      (items.foldl record transport).addressMessages = transport.addressMessages := by
  induction items generalizing transport with
  | nil => exact ⟨⟨rfl, rfl, rfl, rfl⟩, rfl⟩
  | cons item items ih =>
      rw [List.foldl_cons]
      rcases ih (transport.record item) with ⟨hsteady, hrecords⟩
      rcases record_cases transport item with ⟨_, heq⟩ | ⟨index, _, heq⟩ | ⟨_, closed, reason, heq⟩
      · rw [heq] at hsteady hrecords ⊢
        exact ⟨hsteady, hrecords⟩
      · rw [heq] at hsteady hrecords ⊢
        exact ⟨⟨hsteady.namespaceId, hsteady.ethtool, hsteady.wireless, hsteady.diagnostics⟩,
          hrecords⟩
      · rw [heq] at hsteady hrecords ⊢
        exact ⟨⟨hsteady.namespaceId, hsteady.ethtool, hsteady.wireless, hsteady.diagnostics⟩,
          hrecords⟩

theorem drainNotifications_steady {r : Except BackendError Unit}
    (h : drainNotifications.Runs transport tr r transport') :
    Steady transport tr transport' ∧ transport'.addressMessages = transport.addressMessages := by
  have hrest := Action.runs_get_bind.mp h
  by_cases hclosed : transport.notificationsClosed = true
  · rw [if_pos hclosed] at hrest
    rcases takeInvalidated_cases hrest with ⟨_, rfl, _⟩
    exact ⟨⟨rfl, rfl, rfl, rfl⟩, rfl⟩
  · rw [if_neg hclosed] at hrest
    rcases Action.runs_perform_bind.mp hrest with ⟨backlog, rest, rfl, hmodify⟩
    rcases takeInvalidated_cases (Action.runs_modify_bind.mp hmodify) with ⟨_, rfl, _⟩
    rcases foldl_record_steady backlog.items transport with ⟨hsteady, hrecords⟩
    exact ⟨⟨hsteady.namespaceId, hsteady.ethtool, hsteady.wireless, hsteady.diagnostics⟩, hrecords⟩

/-- No procedure changes what the transport was opened with. -/
theorem respected_steady : Respected false Steady := by
  refine ⟨⟨fun _ => ⟨rfl, rfl, rfl, rfl⟩, fun _ _ _ _ _ h h' => h.trans h'⟩,
    fun _ _ _ => ⟨rfl, rfl, rfl, rfl⟩, fun _ _ _ _ h _ => (drainNotifications_steady h).1, ?_,
    fun _ _ => ⟨rfl, rfl, rfl, rfl⟩, fun _ _ => ⟨rfl, rfl, rfl, rfl⟩⟩
  intro index transport tr r transport' hrun _
  rcases generationOf_cases hrun with ⟨_, rfl⟩ | ⟨e, _, rfl⟩ | ⟨generation, _, rfl⟩ <;>
    exact ⟨rfl, rfl, rfl, rfl⟩

end Steadiness

section Sending

variable {transport transport' : LinuxTransport} {target : InterfaceId} {kind : OperationKind}
  {tr : List TransportEvent}

/-- What an exchange leaves behind: a drain that failed, or one that succeeded
    and the request behind it. -/
theorem request_cases {message : RouteNetlinkMessage} {exchange : Exchange}
    {extraFlags : BitVec 16} {r : Except BackendError (List RoutePacket)}
    (h : (request message exchange extraFlags).Runs transport tr r transport') :
    (∃ e, r = .error e ∧ drainNotifications.Runs transport tr (.error e) transport') ∨
      ∃ drained answer, drainNotifications.Runs transport drained (.ok ()) transport' ∧
        tr = drained ++ [⟨.request message (exchange.flags ||| extraFlags), answer⟩] ∧
          r = answer.collected exchange := by
  rcases Action.runs_bind.mp h with ⟨e, rfl, hdrain⟩ | ⟨_, s₁, drained, t₂, rfl, hdrain, hrest⟩
  · exact Or.inl ⟨e, rfl, hdrain⟩
  rcases Action.runs_perform_bind.mp hrest with ⟨answer, rest, rfl, hanswer⟩
  refine Or.inr ⟨drained, answer, ?_⟩
  cases answer with
  | refused message =>
      rcases Action.runs_fail.mp hanswer with ⟨rfl, rfl, rfl⟩
      exact ⟨hdrain, rfl, rfl⟩
  | timedOut =>
      rcases Action.runs_fail.mp hanswer with ⟨rfl, rfl, rfl⟩
      exact ⟨hdrain, rfl, rfl⟩
  | answered stream =>
      rcases Action.runs_ofExcept.mp hanswer with ⟨rfl, rfl, rfl⟩
      exact ⟨hdrain, rfl, rfl⟩

/-- A request that succeeds was answered, and the answer was read to its end. -/
theorem request_ok {message : RouteNetlinkMessage} {exchange : Exchange} {extraFlags : BitVec 16}
    {packets : List RoutePacket}
    (h : (request message exchange extraFlags).Runs transport tr (.ok packets) transport') :
    ∃ drained stream, drainNotifications.Runs transport drained (.ok ()) transport' ∧
      tr = drained ++ [⟨.request message (exchange.flags ||| extraFlags), .answered stream⟩] ∧
        collectResponse exchange stream [] = .ok packets := by
  rcases request_cases h with ⟨e, he, _⟩ | ⟨drained, answer, hdrained, rfl, hcollected⟩
  · exact absurd he (by simp only [reduceCtorEq, not_false_eq_true])
  cases answer with
  | refused message =>
      exact absurd hcollected (by simp only [RequestAnswer.collected, reduceCtorEq,
        not_false_eq_true])
  | timedOut =>
      exact absurd hcollected (by simp only [RequestAnswer.collected, reduceCtorEq,
        not_false_eq_true])
  | answered stream => exact ⟨drained, stream, hdrained, rfl, hcollected.symm⟩

/-- What a confirmation has seen: the kernel answered with one link of the
    target's name, and the target's generation stood all the while. -/
structure Confirmed (transport : LinuxTransport) (target : InterfaceId)
    (checked : List TransportEvent) (transport' : LinuxTransport) : Prop where
  inNamespace : target.namespaceId = transport.namespaceId
  named : ∃ opening stream reply closing,
    checked = opening ++ ⟨.request (.getLink { index := target.index }) Exchange.read.flags,
      .answered stream⟩ :: closing ∧
    collectResponse .read stream [] = .ok reply ∧ replyName reply = .ok target.name
  stood : transport.generations target.index = some target.generation
  stands : transport'.generations target.index = some target.generation
  kept : ¬ Lost target.index checked
  records : transport'.addressMessages = transport.addressMessages

/-- Confirming an identity draws none. -/
theorem not_mem_confirmIdentity {r : Except BackendError Unit} {generation : UInt64}
    (h : (confirmIdentity target).Runs transport tr r transport') :
    drawEvent generation ∉ tr := by
  intro hmem
  rcases (confirmIdentity_confined target _ _ _ _ h).1 _ hmem with hcall | hcall
  · exact absurd hcall (by simp only [drawEvent, reduceCtorEq, not_false_eq_true])
  · exact absurd hcall (by simp only [drawEvent, reduceCtorEq, not_false_eq_true])

theorem confirmIdentity_confirmed
    (h : (confirmIdentity target).Runs transport tr (.ok ()) transport') :
    Confirmed transport target tr transport' := by
  have hstands := confirmIdentity_ok h
  have hcarries := (respected_carries.confirmIdentity target) _ _ _ _ h nofun
  have hkept : transport.generations target.index = some target.generation ∧
      ¬ Lost target.index tr := by
    rcases hcarries target.index target.generation hstands with hkept | ⟨before, after, htr, _⟩
    · exact hkept
    · -- The generation cannot have been drawn while it was confirmed.
      have hdrawn : drawEvent target.generation ∈ tr := by
        rw [htr]
        exact List.mem_append_right before List.mem_cons_self
      exact absurd hdrawn (not_mem_confirmIdentity h)
  have hrest := Action.runs_get_bind.mp h
  rcases Action.runs_failWhen_bind_ok.mp hrest with ⟨hnamespace, hrest⟩
  rcases Action.runs_bind_ok.mp hrest with ⟨reply, s₁, t₁, t₂, rfl, hreply, hrest⟩
  rcases Action.runs_bind_ok.mp hrest with ⟨_, s₂, t₃, t₄, rfl, hdrain, hrest⟩
  rcases Action.runs_ofExcept_bind_ok.mp hrest with ⟨name, hname, hrest⟩
  have hcheck := Action.runs_get_bind.mp hrest
  rcases Action.runs_ofExcept.mp hcheck with ⟨rfl, hsame, rfl⟩
  rcases request_ok hreply with ⟨drained, stream, hopening, rfl, hcollected⟩
  have hname' : name = target.name := by
    by_contra hne
    rw [if_pos (by rw [bne_iff_ne.mpr hne, Bool.or_true])] at hsame
    exact absurd hsame (by simp only [reduceCtorEq, not_false_eq_true])
  refine ⟨by simpa using hnamespace, ?_, hkept.1, hstands, hkept.2, ?_⟩
  · refine ⟨drained, stream, reply, t₃ ++ [], ?_, hcollected, hname' ▸ hname⟩
    rw [List.append_assoc, List.singleton_append]
    rfl
  · -- Both drains leave the records alone.
    rw [(drainNotifications_steady hdrain).2, (drainNotifications_steady hopening).2]

/-- A write that was sent: its message was made of the records, its target was
    confirmed, and what was waiting was taken over; then it went out, and the
    answer to it is the result. -/
structure Sent (transport : LinuxTransport) (target : InterfaceId) (kind : OperationKind)
    (tr : List TransportEvent) (r : Except BackendError Unit) (transport' : LinuxTransport)
    (checked : List TransportEvent) (confirmed : LinuxTransport) (drained : List TransportEvent)
    (message : RouteNetlinkMessage) (flags : BitVec 16) (answer : RequestAnswer) : Prop where
  written : writeMessage transport.addressMessages target kind = .ok (message, flags)
  confirms : (confirmIdentity target).Runs transport checked (.ok ()) confirmed
  drains : drainNotifications.Runs confirmed drained (.ok ()) transport'
  calls : tr = checked ++ drained ++ [⟨.request message (Exchange.write.flags ||| flags), answer⟩]
  result : r = (answer.collected .write).map fun _ => ()

theorem writeMessage_ofReading {addressMessages : List (AddressKey × AddressMessage)} :
    FailsAs BackendError.OfReading (writeMessage addressMessages target kind) := by
  cases kind with
  | setField _ _ | addEntity | removeEntity => exact .error rfl
  | _ => exact .ok

/-- A write is sent at one point, or fails before it, as no write does. -/
theorem execute_sent {r : Except BackendError Unit}
    (h : (execute target kind).Runs transport tr r transport') :
    ((∃ e, r = .error e ∧ e.OfReading) ∧ ∀ event ∈ tr, event.1.isWrite = false) ∨
      ∃ checked confirmed drained message flags answer,
        Sent transport target kind tr r transport' checked confirmed drained message flags
          answer := by
  have hrest := Action.runs_get_bind.mp h
  rcases Action.runs_ofExcept_bind.mp hrest with ⟨e, hwritten, rfl, rfl, _⟩ | ⟨⟨message, flags⟩,
    hwritten, hrest⟩
  · exact Or.inl ⟨⟨e, rfl, writeMessage_ofReading e hwritten⟩,
      fun event hmem => absurd hmem List.not_mem_nil⟩
  rcases Action.runs_bind.mp hrest with ⟨e, rfl, hcheck⟩ | ⟨_, s₁, checked, t₂, rfl, hcheck, hsend⟩
  · have hfails := (confirmIdentity_confined target _ _ _ _ hcheck).2
    exact Or.inl ⟨⟨e, rfl, hfails e rfl⟩, confirmIdentity_calls hcheck⟩
  have hquiet : ∀ {drained : List TransportEvent} {verdict s₂},
      drainNotifications.Runs s₁ drained verdict s₂ → ∀ event ∈ checked ++ drained,
        event.1.isWrite = false := by
    intro drained verdict s₂ hdrain
    rw [List.forall_mem_append]
    refine ⟨confirmIdentity_calls hcheck, fun event hmem => ?_⟩
    rw [(drainNotifications_cases hdrain).1 event hmem]
    rfl
  -- The result is that of the exchange, without the packets.
  have hexchange : ∃ r', (request message .write flags).Runs s₁ t₂ r' transport' ∧
      r = r'.map fun _ => () := by
    rcases Action.runs_bind.mp hsend with ⟨e, rfl, hrequest⟩ | ⟨reply, s₂, t₃, t₄, rfl, hrequest,
      hpure⟩
    · exact ⟨_, hrequest, rfl⟩
    · rcases Action.runs_pure.mp hpure with ⟨rfl, rfl, rfl⟩
      rw [List.append_nil]
      exact ⟨_, hrequest, rfl⟩
  rcases hexchange with ⟨r', hrequest, rfl⟩
  rcases request_cases hrequest with ⟨e, rfl, hdrain⟩ | ⟨drained, answer, hdrain, rfl, rfl⟩
  · have hfails := (drainNotifications_confined (P := fun _ => True) trivial _ _ _ _ hdrain).2
    exact Or.inl ⟨⟨e, rfl, hfails e rfl⟩, hquiet hdrain⟩
  · refine Or.inr ⟨checked, s₁, drained, message, flags, answer, hwritten, hcheck, hdrain, ?_, rfl⟩
    rw [List.append_assoc]

namespace Sent

variable {r : Except BackendError Unit} {checked drained : List TransportEvent}
  {confirmed : LinuxTransport} {message : RouteNetlinkMessage} {flags : BitVec 16}
  {answer : RequestAnswer}

/-- Nothing else that is asked for a write is one. -/
theorem quiet (h : Sent transport target kind tr r transport' checked confirmed drained message
    flags answer) : ∀ event ∈ checked ++ drained, event.1.isWrite = false := by
  rw [List.forall_mem_append]
  refine ⟨confirmIdentity_calls h.confirms, fun event hmem => ?_⟩
  rw [(drainNotifications_cases h.drains).1 event hmem]
  rfl

/-- The write of an operation is the one that is sent. -/
theorem unique (h : Sent transport target kind tr r transport' checked confirmed drained message
    flags answer) {before after : List TransportEvent} {event : TransportEvent}
    (hsplit : tr = before ++ event :: after) (hwrite : event.1.isWrite = true) :
    before = checked ++ drained ∧
      event = ⟨.request message (Exchange.write.flags ||| flags), answer⟩ ∧ after = [] := by
  have hsent : (TransportCall.request message (Exchange.write.flags ||| flags)).isWrite = true :=
    writeMessage_isWrite h.written
  have hsame : before ++ event :: after = (checked ++ drained) ++
      ⟨.request message (Exchange.write.flags ||| flags), answer⟩ :: [] :=
    hsplit.symm.trans h.calls
  exact append_cons_unique hsame.symm hsent hwrite h.quiet nofun

end Sent

end Sending

end LinuxTransport

end Netfyr
