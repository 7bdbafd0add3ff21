import Netfyr.Linux.Message

/-!
# Complete Answers

When an answer is complete, and what an incomplete one is called. Messages are
read as long as they pass; the first that does not decides about the whole
answer, and an answer without such a message is cut off. Only an acknowledgement
completes a read or a write, and only the end of a dump completes a dump.

An answer to a write that is not completed leaves open what the kernel did,
unless the kernel refused it. One way of reading such an answer says otherwise:
a message flagged as an interrupted dump is reported as a refusal, whatever it
says, and whatever the request was.

## Main definitions

* `NetlinkMessage.passes`: A message is read and reading goes on.
* `NetlinkMessage.terminates`: A message completes an answer.
* `NetlinkMessage.refuses`: The kernel refuses a request.

## Theorems

* `collectResponse_eq`: The first message that does not pass decides.
* `collectResponse_eq_ok`: Which answers are complete, and what they hold.
* `collectResponse_unconfirmed_iff`: When an unfinished write is called refused.
-/

namespace Netfyr

namespace NetlinkMessage

/-- Whether a message is flagged as part of an interrupted dump. -/
def interrupted (self : NetlinkMessage) : Bool := self.flags &&& nlmFDumpIntr ≠ 0

/-- The packet that a message carries. -/
def packet? (self : NetlinkMessage) : Option RoutePacket :=
  match self.payload with
  | .innerMessage packet => some packet
  | _ => none

/-- Whether a message says nothing about the end of an answer: a packet, nothing
    at all, or, in a dump, an acknowledgement. -/
def isPart (exchange : Exchange) (self : NetlinkMessage) : Bool :=
  match self.payload with
  | .innerMessage _ | .noop => true
  -- An acknowledgement inside a dump is passed over.
  | .error error => exchange == .dump && error.code.isNone
  | .done _ | .overrun => false

/-- Whether a message is read and reading goes on. -/
def passes (exchange : Exchange) (self : NetlinkMessage) : Bool :=
  !self.interrupted && self.isPart exchange

/-- Whether a message completes an answer: an acknowledgement, or the end of a
    dump. -/
def terminates (exchange : Exchange) (self : NetlinkMessage) : Bool :=
  match self.payload with
  | .error error => exchange != .dump && error.code.isNone
  | .done done => exchange == .dump && done.code == 0
  | .innerMessage _ | .noop | .overrun => false

/-- Whether a message is an error message with a code. -/
def refuses (self : NetlinkMessage) : Bool :=
  match self.payload with
  | .error error => error.code.isSome
  | _ => false

end NetlinkMessage

variable {exchange : Exchange} {message : NetlinkMessage} {stream : List NetlinkMessage}
  {packets : List RoutePacket}

theorem collectResponse_interrupted (h : message.interrupted = true) :
    collectResponse exchange (message :: stream) packets =
      .error (.new exchange.rejected "kernel interrupted the netlink dump") := by
  have hflag : message.flags &&& nlmFDumpIntr ≠ 0 := of_decide_eq_true h
  rw [collectResponse, if_pos hflag]

/-- A message that passes leaves its packet, if it has one. -/
theorem collectResponse_passes (h : message.passes exchange = true) :
    collectResponse exchange (message :: stream) packets =
      collectResponse exchange stream (packets ++ message.packet?.toList) := by
  rw [NetlinkMessage.passes, Bool.and_eq_true, Bool.not_eq_true'] at h
  have hflag : ¬ message.flags &&& nlmFDumpIntr ≠ 0 := of_decide_eq_false h.1
  have hpart := h.2
  rw [collectResponse, if_neg hflag]
  rcases message with ⟨flags, payload⟩
  cases payload with
  | innerMessage packet => rfl
  | noop => simp only [NetlinkMessage.packet?, Option.toList_none, List.append_nil]
  | error error =>
      -- The one message of this kind that passes is an acknowledgement in a dump.
      simp only [NetlinkMessage.isPart, Bool.and_eq_true, beq_iff_eq,
        Option.isNone_iff_eq_none] at hpart
      simp only [hpart.1, hpart.2, Option.isSome_none, Bool.false_eq_true, if_false, ne_eq,
        not_true, NetlinkMessage.packet?, Option.toList_none, List.append_nil]
  | done done => exact absurd hpart Bool.false_ne_true
  | overrun => exact absurd hpart Bool.false_ne_true

/-- A message that does not pass and is not flagged: an error with a code, an
    acknowledgement, the end of a dump, or one that is not expected. -/
theorem not_isPart_cases (h : message.isPart exchange = false) :
    (∃ error, message.payload = .error error ∧ error.code.isSome = true) ∨
      (∃ error, message.payload = .error error ∧ error.code.isSome = false ∧ exchange ≠ .dump) ∨
        (∃ done, message.payload = .done done) ∨ message.payload = .overrun := by
  rcases message with ⟨flags, payload⟩
  cases payload with
  | innerMessage packet => exact absurd h Bool.false_ne_true.symm
  | noop => exact absurd h Bool.false_ne_true.symm
  | error error =>
      by_cases hcode : error.code.isSome = true
      · exact Or.inl ⟨error, rfl, hcode⟩
      · have hnone : error.code.isNone = true := by
          rw [Option.isNone_iff_eq_none, ← Option.not_isSome_iff_eq_none]
          exact hcode
        unfold NetlinkMessage.isPart at h
        dsimp only at h
        rw [hnone, Bool.and_true, beq_eq_false_iff_ne] at h
        exact Or.inr (Or.inl ⟨error, rfl, Bool.eq_false_iff.mpr hcode, h⟩)
  | done done => exact Or.inr (Or.inr (Or.inl ⟨done, rfl⟩))
  | overrun => exact Or.inr (Or.inr (Or.inr rfl))

/-- A message that does not pass is the last that is read. -/
theorem collectResponse_decides (h : message.passes exchange = false) :
    collectResponse exchange (message :: stream) packets =
      collectResponse exchange [message] packets := by
  by_cases hflag : message.interrupted = true
  · -- The flag is looked at first, and fails whatever follows.
    rw [collectResponse_interrupted hflag, collectResponse_interrupted hflag]
  · rw [NetlinkMessage.passes, Bool.eq_false_iff.mpr hflag, Bool.not_false, Bool.true_and] at h
    -- Every branch that is left returns without looking at the rest.
    rw [collectResponse, collectResponse]
    rcases not_isPart_cases h with ⟨error, hpayload, hcode⟩ | ⟨error, hpayload, hcode, hdump⟩ |
      ⟨done, hpayload⟩ | hpayload
    · simp only [hpayload, hcode, if_true]
    · simp only [hpayload, hcode, Bool.false_eq_true, if_false, hdump, ne_eq, not_false_eq_true,
        if_true]
    · simp only [hpayload]
    · simp only [hpayload]

/-- The first message that does not pass decides about an answer, which without
    such a message is cut off. -/
theorem collectResponse_eq : collectResponse exchange stream packets =
    match stream.find? fun message => !message.passes exchange with
    | none =>
        .error (.new exchange.unconfirmed "netlink transport closed before confirmed completion")
    | some message =>
        collectResponse exchange [message] (packets ++
          (stream.takeWhile (NetlinkMessage.passes exchange)).filterMap
            NetlinkMessage.packet?) := by
  induction stream generalizing packets with
  | nil => rfl
  | cons message stream ih =>
      rw [List.find?_cons]
      by_cases hpasses : message.passes exchange = true
      · -- A part is taken off on both sides, and its packet is collected.
        rw [collectResponse_passes hpasses, ih, List.takeWhile_cons_of_pos hpasses,
          List.filterMap_cons, hpasses]
        cases message.packet? with
        | none => rw [Option.toList_none, List.append_nil]; rfl
        | some packet =>
            rw [Option.toList_some, List.append_assoc, List.singleton_append]
            rfl
      · rw [Bool.not_eq_true] at hpasses
        -- The answer ends here, with what was collected before.
        have hstop : ¬ message.passes exchange = true := by
          rw [hpasses]
          exact Bool.false_ne_true
        rw [collectResponse_decides hpasses, List.takeWhile_cons_of_neg hstop, hpasses,
          List.filterMap_nil, List.append_nil]
        rfl

/-- The deciding message completes the answer when it terminates it and is not
    flagged. -/
theorem collectResponse_singleton (h : message.passes exchange = false)
    {collected : List RoutePacket} : collectResponse exchange [message] packets = .ok collected ↔
      message.terminates exchange = true ∧ message.interrupted = false ∧ collected = packets := by
  by_cases hflag : message.interrupted = true
  · rw [collectResponse_interrupted hflag, hflag]
    simp only [reduceCtorEq, Bool.true_eq_false, false_and, and_false]
  · have hnot : ¬ message.flags &&& nlmFDumpIntr ≠ 0 :=
      of_decide_eq_false (Bool.eq_false_iff.mpr hflag)
    rw [NetlinkMessage.passes, Bool.eq_false_iff.mpr hflag, Bool.not_false, Bool.true_and] at h
    unfold NetlinkMessage.terminates
    rw [collectResponse, if_neg hnot, Bool.eq_false_iff.mpr hflag]
    rcases not_isPart_cases h with ⟨error, hpayload, hcode⟩ | ⟨error, hpayload, hcode, hdump⟩ |
      ⟨done, hpayload⟩ | hpayload
    · -- An error with a code.
      rw [Option.isSome_iff_ne_none, ne_eq, ← Option.isNone_iff_eq_none] at hcode
      simp only [hpayload, Bool.eq_false_iff.mpr hcode, Option.isSome_iff_ne_none, ne_eq,
        ← Option.isNone_iff_eq_none, Bool.false_eq_true, not_false_eq_true, if_true, reduceCtorEq,
        Bool.and_false, false_and]
    · -- An acknowledgement of a read or a write.
      have hnone : error.code.isNone = true := by
        rw [Option.isNone_iff_eq_none, ← Option.not_isSome_iff_eq_none, hcode]
        exact Bool.false_ne_true
      simp only [hpayload, hcode, hnone, hdump, Bool.false_eq_true, if_false, ne_eq,
        not_false_eq_true, if_true, Except.ok.injEq, Bool.and_true, bne_iff_ne, true_and]
      exact eq_comm
    · -- The end of a dump, which only a dump expects, and only without a code.
      by_cases hdump : exchange = .dump
      · by_cases hcode : done.code = 0
        · simp only [hpayload, hdump, hcode, ne_eq, not_true, if_false, Except.ok.injEq,
            beq_self_eq_true, Bool.and_self, true_and]
          exact eq_comm
        · simp only [hpayload, hdump, hcode, ne_eq, not_true, if_false, not_false_eq_true, if_true,
            reduceCtorEq, beq_iff_eq, Bool.and_eq_true, and_false, false_and]
      · simp only [hpayload, hdump, ne_eq, not_false_eq_true, if_true, reduceCtorEq, beq_iff_eq,
          Bool.and_eq_true, false_and]
    · simp only [hpayload, reduceCtorEq, Bool.false_eq_true, false_and]

/-- Of a sequence of messages the part before the first that does not pass. -/
theorem find?_not_passes {terminator : NetlinkMessage} {before after : List NetlinkMessage}
    (hpass : ∀ message ∈ before, message.passes exchange = true)
    (hstop : terminator.passes exchange = false) :
    ((before ++ terminator :: after).find? fun message => !message.passes exchange) =
        some terminator ∧
      (before ++ terminator :: after).takeWhile (NetlinkMessage.passes exchange) = before := by
  constructor
  · rw [List.find?_eq_some_iff_append]
    refine ⟨by rw [hstop]; rfl, before, after, rfl, ?_⟩
    intro message hmem
    rw [hpass message hmem]
    rfl
  · rw [List.takeWhile_append_of_pos hpass, List.takeWhile_cons_of_neg, List.append_nil]
    rw [hstop]
    exact Bool.false_ne_true

theorem not_passes_of_terminates (h : message.terminates exchange = true) :
    message.passes exchange = false := by
  rcases message with ⟨flags, payload⟩
  rw [NetlinkMessage.passes, Bool.and_eq_false_iff]
  right
  cases payload with
  | innerMessage packet => exact absurd h Bool.false_ne_true
  | noop => exact absurd h Bool.false_ne_true
  | overrun => rfl
  | done done => rfl
  | error error =>
      simp only [NetlinkMessage.terminates, Bool.and_eq_true, bne_iff_ne] at h
      exact Bool.and_eq_false_iff.mpr (Or.inl (beq_eq_false_iff_ne.mpr h.1))

/-- An answer is complete exactly when it has a message that terminates it, only
    parts of an answer stand before that message, and none up to it is flagged.
    The packets are then those before it; any other answer is an error. -/
theorem collectResponse_eq_ok (exchange : Exchange) (stream : List NetlinkMessage)
    (packets : List RoutePacket) :
    (collectResponse exchange stream [] = .ok packets ↔
      ∃ before terminator after, stream = before ++ terminator :: after ∧
        terminator.terminates exchange = true ∧
        (∀ message ∈ before, message.isPart exchange = true) ∧
        (∀ message ∈ before ++ [terminator], message.interrupted = false) ∧
        packets = before.filterMap NetlinkMessage.packet?) ∧
      ((∀ packets, collectResponse exchange stream [] ≠ .ok packets) →
        ∃ error, collectResponse exchange stream [] = .error error) := by
  constructor
  · constructor
    · intro h
      rw [collectResponse_eq] at h
      cases hfind : stream.find? fun message => !message.passes exchange with
      | none =>
          rw [hfind] at h
          exact absurd h (by simp only [reduceCtorEq, not_false_eq_true])
      | some terminator =>
          rw [hfind] at h
          -- The message that decides is the first that does not pass, so it is the terminator.
          rcases List.find?_eq_some_iff_append.mp hfind with ⟨hstop, before, after, rfl, hbefore⟩
          rw [Bool.not_eq_true'] at hstop
          have hpass : ∀ message ∈ before, message.passes exchange = true := by
            intro message hmem
            have hmessage := hbefore message hmem
            rw [Bool.not_not] at hmessage
            exact hmessage
          dsimp only at h
          rw [collectResponse_singleton hstop, (find?_not_passes hpass hstop).2] at h
          refine ⟨before, terminator, after, rfl, h.1, ?_, ?_, h.2.2⟩
          · intro message hmem
            exact (Bool.and_eq_true_iff.mp (hpass message hmem)).2
          · intro message hmem
            rcases List.mem_append.mp hmem with hold | hlast
            · exact Bool.not_eq_true' _ ▸ (Bool.and_eq_true_iff.mp (hpass message hold)).1
            · rw [List.mem_singleton.mp hlast]
              exact h.2.1
    · rintro ⟨before, terminator, after, rfl, hterminates, hparts, hflags, rfl⟩
      -- What stands before the terminator passes, so the terminator decides.
      have hpass : ∀ message ∈ before, message.passes exchange = true := by
        intro message hmem
        have hflag := hflags message (List.mem_append_left _ hmem)
        rw [NetlinkMessage.passes, hflag, hparts message hmem]
        rfl
      have hstop := not_passes_of_terminates hterminates
      have hflag := hflags terminator (List.mem_append_right _ (List.mem_singleton_self _))
      rw [collectResponse_eq, (find?_not_passes hpass hstop).1, (find?_not_passes hpass hstop).2]
      dsimp only
      rw [collectResponse_singleton hstop]
      exact ⟨hterminates, hflag, rfl⟩
  · intro h
    cases hread : collectResponse exchange stream [] with
    | ok collected => exact absurd hread (h collected)
    | error error => exact ⟨error, rfl⟩

/-- The message that decides about an answer to a write, if there is one: the
    first that is flagged, or is more than a part of the answer. -/
def decidingMessage (stream : List NetlinkMessage) : Option NetlinkMessage :=
  stream.find? fun message => !message.passes .write

/-- The kind of failure that the deciding message makes of a write. -/
theorem collectResponse_write_singleton (h : message.passes .write = false) {error : BackendError}
    (herror : collectResponse .write [message] packets = .error error) :
    (message.interrupted = true ∧ error.kind = .applyFailed) ∨
      (message.interrupted = false ∧
        (message.refuses = false → error.kind = .outcomeUnknown)) := by
  by_cases hflag : message.interrupted = true
  · rw [collectResponse_interrupted hflag, Except.error.injEq] at herror
    rw [← herror]
    exact Or.inl ⟨hflag, rfl⟩
  · have hnot : ¬ message.flags &&& nlmFDumpIntr ≠ 0 :=
      of_decide_eq_false (Bool.eq_false_iff.mpr hflag)
    rw [NetlinkMessage.passes, Bool.eq_false_iff.mpr hflag, Bool.not_false, Bool.true_and] at h
    refine Or.inr ⟨Bool.eq_false_iff.mpr hflag, ?_⟩
    unfold NetlinkMessage.refuses
    rw [collectResponse, if_neg hnot] at herror
    rcases not_isPart_cases h with ⟨refusal, hpayload, hcode⟩ | ⟨ack, hpayload, hcode, hdump⟩ |
      ⟨done, hpayload⟩ | hpayload
    · -- An error with a code is a refusal.
      intro hrefuses
      simp only [hpayload, hcode, Bool.true_eq_false] at hrefuses
    · -- An acknowledgement is no failure.
      simp only [hpayload, hcode, Bool.false_eq_true, if_false, ne_eq, reduceCtorEq,
        not_false_eq_true, if_true] at herror
    · simp only [hpayload, ne_eq, reduceCtorEq, not_false_eq_true, if_true,
        Except.error.injEq] at herror
      intro _
      rw [← herror]
      rfl
    · simp only [hpayload, Except.error.injEq] at herror
      intro _
      rw [← herror]
      rfl

/-- An unfinished write is called anything but unknown only when the kernel
    refused it: exactly when the message that decides, if there is one, is not
    flagged or is such a refusal. -/
theorem collectResponse_unconfirmed_iff (stream : List NetlinkMessage) :
    (∀ error, collectResponse .write stream [] = .error error → error.kind ≠ .outcomeUnknown →
        ∃ message, decidingMessage stream = some message ∧ message.refuses = true) ↔
      ∀ message, decidingMessage stream = some message →
        message.interrupted = false ∨ message.refuses = true := by
  rw [collectResponse_eq]
  unfold decidingMessage
  cases hfind : stream.find? fun message => !message.passes .write with
  | none =>
      refine iff_of_true ?_ ?_
      · -- A stream that was cut off leaves the outcome open.
        intro error herror hkind
        rw [← Except.error.inj herror] at hkind
        exact absurd rfl hkind
      · intro message hsome
        exact absurd hsome (by simp only [reduceCtorEq, not_false_eq_true])
  | some message =>
      have hstop : message.passes .write = false := by
        rw [← Bool.not_eq_true']
        exact List.find?_some (p := fun message : NetlinkMessage => !message.passes .write) hfind
      dsimp only
      simp only [Option.some.injEq, exists_eq_left', forall_eq']
      constructor
      · intro h
        by_cases hflag : message.interrupted = true
        · right
          -- A flagged message is called a refusal, so it has to be one.
          exact h _ (collectResponse_interrupted hflag) BackendErrorKind.noConfusion
        · exact Or.inl (Bool.eq_false_iff.mpr hflag)
      · intro h error herror hkind
        rcases h with hflag | hrefuses
        · rcases collectResponse_write_singleton hstop herror with ⟨hflag', _⟩ | ⟨_, hunknown⟩
          · rw [hflag] at hflag'
            exact absurd hflag' Bool.false_ne_true
          · by_contra hnot
            exact hkind (hunknown (Bool.eq_false_iff.mpr hnot))
        · exact hrefuses

/-- An acknowledgement flagged as part of an interrupted dump. -/
def flaggedAck : NetlinkMessage :=
  { flags := nlmFDumpIntr
    payload := .error { code := none, io := ⟨none, false, "Success"⟩, extack := none } }

/-- A flagged acknowledgement is reported as a refusal, without any refusal. -/
theorem collectResponse_flagged :
    ¬ ∀ (stream : List NetlinkMessage) (error : BackendError),
      collectResponse .write stream [] = .error error → error.kind ≠ .outcomeUnknown →
        ∃ message ∈ stream, message.refuses = true := by
  intro h
  rcases h [flaggedAck] (.new .applyFailed "kernel interrupted the netlink dump") rfl (by decide)
    with ⟨message, hmem, hrefuses⟩
  rw [List.mem_singleton.mp hmem] at hrefuses
  exact absurd hrefuses (by decide)

end Netfyr
