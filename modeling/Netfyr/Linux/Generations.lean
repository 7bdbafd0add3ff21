import Netfyr.Linux.Losses

/-!
# Generations

A plan names a device by its index and its generation, and the index alone may
be given to another device once the first is gone. The transport draws a new
generation for a device that it has none for, so an identity is as good as the
last loss of its index: what two inventories report under one generation is one
device, and what was lost is not confirmed again.

A history here is any sequence of jobs with any answers. The invariant is where
a standing generation comes from: it was drawn, and nothing of its device was
lost since. A generation that is never drawn twice was drawn at one place, so
nothing was lost between two moments at which it stands.

An inventory looks at what is waiting before it takes note of the epoch. A
deletion found then is behind it, and no reason to fail.

## Main definitions

* `Served`: Histories of jobs.
* `NeverReused`: What holds of the identities of a history.

## Theorems

* `LinuxTransport.inventory_ok`: What a successful inventory says.
* `LinuxTransport.confirmIdentity_ok`: What a confirmed identity says.
* `not_lost_of_carries`: A generation stands because nothing was lost.
* `identities_neverReused`: Identities are never reused.
* `inventory_not_interrupted`: A deletion that was waiting is no reason to fail.
-/

namespace Netfyr

open Interact

namespace LinuxTransport

section Inventories

variable {transport transport' : LinuxTransport} {enrich : Match → Bool}
  {observation : Observation} {tr : List TransportEvent}

/-- A concluded inventory lost nothing since its epoch, and its generations
    stand. -/
theorem conclude_ok {deletionEpoch : UInt64} {sweep : AddressSweep}
    (h : (conclude deletionEpoch sweep).Runs transport tr (.ok observation) transport') :
    transport'.deletionEpoch = deletionEpoch ∧ ∀ device ∈ observation.devices,
      transport'.generations device.identity.index = some device.identity.generation := by
  have hrest := Action.runs_get_bind.mp h
  rcases Action.runs_ofExcept_bind_ok.mp hrest with ⟨_, hepoch, hrest⟩
  rcases Action.runs_failWhen_bind_ok.mp hrest with ⟨hstand, hrest⟩
  have hpure := Action.runs_modify_bind.mp hrest
  rcases Action.runs_pure.mp hpure with ⟨_, hobservation, rfl⟩
  obtain rfl := Except.ok.inj hobservation
  constructor
  · -- The epoch that was read is the one that the check compares.
    unfold validateDeletionEpoch at hepoch
    by_cases hsame : deletionEpoch = transport.deletionEpoch
    · exact hsame.symm
    · rw [if_pos hsame] at hepoch
      exact absurd hepoch (by simp only [reduceCtorEq, not_false_eq_true])
  · intro device hmem
    have hdevice := List.any_eq_false.mp hstand device hmem
    rw [bne_iff_ne, ne_eq, not_not] at hdevice
    exact hdevice

theorem survey_ok (h : (survey enrich).Runs transport tr (.ok observation) transport') :
    transport'.deletionEpoch = transport.deletionEpoch ∧ ∀ device ∈ observation.devices,
      transport'.generations device.identity.index = some device.identity.generation := by
  have hrest := Action.runs_get_bind.mp h
  rcases Action.runs_bind_ok.mp hrest with ⟨sweep, s₁, t₁, t₂, rfl, _, hrest⟩
  rcases Action.runs_bind_ok.mp hrest with ⟨_, s₂, t₃, t₄, rfl, _, hrest⟩
  exact conclude_ok hrest

/-- An inventory that succeeds lost nothing behind its first look at the
    notifications, and only single devices before. -/
theorem inventory_ok (h : (inventory enrich).Runs transport tr (.ok observation) transport') :
    (∀ device ∈ observation.devices,
        transport'.generations device.identity.index = some device.identity.generation) ∧
      ∃ opening rest s₁, tr = opening ++ rest ∧
        drainNotifications.Runs transport opening (.ok ()) s₁ ∧ .invalidated ∉ losses opening ∧
          ((deletions rest).length < 2 ^ 64 → losses rest = []) := by
  rcases Action.runs_bind_ok.mp h with ⟨_, s₁, opening, rest, rfl, hopening, hsurvey⟩
  rcases survey_ok hsurvey with ⟨hepoch, hstand⟩
  -- The opening drain takes the reason, or fails for it.
  refine ⟨hstand, opening, rest, s₁, rfl, hopening, ?_, ?_⟩
  · rcases drainNotifications_cases hopening with ⟨_, recorded, hrecorded, _, ⟨_, hnone⟩ | ⟨e, he⟩⟩
    · exact hrecorded.invalidated hnone
    · exact absurd he (by simp only [reduceCtorEq, not_false_eq_true])
  · intro hfew
    have hnone : s₁.invalidated = none := by
      rcases drainNotifications_cases hopening with ⟨_, recorded, _, rfl, _⟩
      rfl
    -- No reason is left behind it, so the epoch counts what comes.
    have hcounts := (respected_counts.survey enrich) s₁ rest _ transport' hsurvey
      (fun _ => ⟨observation, rfl⟩) hnone
    rcases hcounts with ⟨_, hnot, hcount⟩
    -- And what comes is deletions only.
    have hdeletions : deletions rest = losses rest := by
      refine List.filter_eq_self.mpr fun loss hmem => ?_
      rw [decide_eq_true_iff]
      rintro rfl
      exact hnot hmem
    rw [hdeletions] at hfew
    -- The epoch came back to where it was, and too little was lost to wrap it.
    have hzero : UInt64.ofNat (losses rest).length = 0 := by
      rw [hepoch] at hcount
      exact UInt64.add_eq_left.mp hcount.symm
    have hlength : (losses rest).length = 0 := by
      have htoNat := congrArg UInt64.toNat hzero
      rw [UInt64.toNat_ofNat_of_lt' hfew] at htoNat
      exact htoNat
    exact List.eq_nil_of_length_eq_zero hlength

/-- A confirmed identity stands. -/
theorem confirmIdentity_ok {target : InterfaceId}
    (h : (confirmIdentity target).Runs transport tr (.ok ()) transport') :
    transport'.generations target.index = some target.generation := by
  have hrest := Action.runs_get_bind.mp h
  rcases Action.runs_failWhen_bind_ok.mp hrest with ⟨_, hrest⟩
  rcases Action.runs_bind_ok.mp hrest with ⟨reply, s₁, t₁, t₂, rfl, _, hrest⟩
  rcases Action.runs_bind_ok.mp hrest with ⟨_, s₂, t₃, t₄, rfl, _, hrest⟩
  rcases Action.runs_ofExcept_bind_ok.mp hrest with ⟨name, _, hrest⟩
  have hcheck := Action.runs_get_bind.mp hrest
  rcases Action.runs_ofExcept.mp hcheck with ⟨_, hstand, rfl⟩
  by_cases hgeneration : transport'.generations target.index = some target.generation
  · exact hgeneration
  · rw [if_pos (by rw [bne_iff_ne.mpr hgeneration, Bool.true_or])] at hstand
    exact absurd hstand (by simp only [reduceCtorEq, not_false_eq_true])

/-- What is asked in an exchange. -/
theorem request_calls {message : RouteNetlinkMessage} {exchange : Exchange}
    {extraFlags : BitVec 16} {r : Except BackendError (List RoutePacket)}
    (h : (request message exchange extraFlags).Runs transport tr r transport') :
    ∀ event ∈ tr, event.1 = .backlog ∨ ∃ flags, event.1 = .request message flags := by
  -- An exchange begins with a drain, and then sends its one message.
  have hdrain : ∀ {t₁ verdict s₁}, drainNotifications.Runs transport t₁ verdict s₁ →
      ∀ event ∈ t₁, event.1 = .backlog ∨ ∃ flags, event.1 = .request message flags := by
    intro t₁ verdict s₁ hdrain event hmem
    exact Or.inl ((drainNotifications_cases hdrain).1 event hmem)
  rcases Action.runs_bind.mp h with ⟨e, _, hfirst⟩ | ⟨_, s₁, t₁, t₂, rfl, hfirst, hrest⟩
  · exact hdrain hfirst
  rcases Action.runs_perform_bind.mp hrest with ⟨answer, rest, rfl, hanswer⟩
  have hrest : rest = [] := by
    cases answer with
    | refused message => exact (Action.runs_fail.mp hanswer).1
    | timedOut => exact (Action.runs_fail.mp hanswer).1
    | answered stream => exact (Action.runs_ofExcept.mp hanswer).1
  intro event hmem
  rw [hrest, List.mem_append, List.mem_singleton] at hmem
  rcases hmem with hmem | rfl
  · exact hdrain hfirst event hmem
  · exact Or.inr ⟨_, rfl⟩

end Inventories

end LinuxTransport

/-- Whether a call sends a write. -/
def TransportCall.isWrite : TransportCall → Bool
  | .request message _ => message.isWrite
  | _ => false

namespace LinuxTransport

section Writes

variable {transport transport' : LinuxTransport} {target : InterfaceId} {kind : OperationKind}
  {tr : List TransportEvent}

/-- Confirming an identity writes nothing. -/
theorem confirmIdentity_calls {r : Except BackendError Unit}
    (h : (confirmIdentity target).Runs transport tr r transport') :
    ∀ event ∈ tr, event.1.isWrite = false := by
  have hbacklog : ∀ {event : TransportEvent}, event.1 = .backlog → event.1.isWrite = false := by
    intro event hcall
    rw [hcall]
    rfl
  -- The only message that is sent is the query for the link.
  have hrequest : ∀ {t₁ reply s s₁}, (request (.getLink { index := target.index }) .read 0).Runs
      s t₁ reply s₁ → ∀ event ∈ t₁, event.1.isWrite = false := by
    intro t₁ reply s s₁ hreply event hmem
    rcases request_calls hreply event hmem with hcall | ⟨flags, hcall⟩
    · exact hbacklog hcall
    · rw [hcall]
      rfl
  have hrest := Action.runs_get_bind.mp h
  rcases Action.runs_failWhen_bind.mp hrest with ⟨_, rfl, _⟩ | ⟨_, hrest⟩
  · exact fun event hmem => absurd hmem List.not_mem_nil
  rcases Action.runs_bind.mp hrest with ⟨e, _, hreply⟩ | ⟨reply, s₁, t₁, t₂, rfl, hreply, hrest⟩
  · exact hrequest hreply
  rw [List.forall_mem_append]
  refine ⟨hrequest hreply, ?_⟩
  rcases Action.runs_bind.mp hrest with ⟨e, _, hdrain⟩ | ⟨_, s₂, t₃, t₄, rfl, hdrain, hrest⟩
  · exact fun event hmem => hbacklog ((drainNotifications_cases hdrain).1 event hmem)
  -- Behind the second drain nothing is asked any more.
  have hlast : t₄ = [] := by
    rcases Action.runs_ofExcept_bind.mp hrest with ⟨e, _, hnil, _⟩ | ⟨name, _, hcheck⟩
    · exact hnil
    · have hfail := Action.runs_get_bind.mp hcheck
      exact (Action.runs_ofExcept.mp hfail).1
  rw [hlast, List.append_nil]
  exact fun event hmem => hbacklog ((drainNotifications_cases hdrain).1 event hmem)

/-- An operation that is executed is refused at once, or its target is
    confirmed first. -/
theorem execute_cases {r : Except BackendError Unit}
    (h : (execute target kind).Runs transport tr r transport') :
    (tr = [] ∧ ∃ e, r = .error e) ∨
      ∃ checked rest verdict s₁, tr = checked ++ rest ∧
        (confirmIdentity target).Runs transport checked verdict s₁ ∧
        ((∃ e, verdict = .error e ∧ r = .error e ∧ rest = []) ∨ verdict = .ok ()) := by
  have hrest := Action.runs_get_bind.mp h
  rcases Action.runs_ofExcept_bind.mp hrest with ⟨e, _, rfl, rfl, _⟩ | ⟨_, _, hrest⟩
  · exact Or.inl ⟨rfl, e, rfl⟩
  rcases Action.runs_bind.mp hrest with ⟨e, rfl, hcheck⟩ | ⟨_, s₁, t₁, t₂, rfl, hcheck, _⟩
  · have hnil : tr = tr ++ [] := (List.append_nil tr).symm
    exact Or.inr ⟨tr, [], _, transport', hnil, hcheck, Or.inl ⟨e, rfl, rfl, rfl⟩⟩
  · exact Or.inr ⟨t₁, t₂, _, s₁, rfl, hcheck, Or.inr rfl⟩

end Writes

end LinuxTransport

section Histories

/-- One job and what was done for it. -/
abbrev TransportRound : Type := Round TransportCall TransportAnswer LinuxTransport TransportOutcome

/-- A history of jobs, from a transport that was just opened. -/
abbrev Served (jobs : List TransportJob) (start : LinuxTransport) :
    List TransportRound → LinuxTransport → Prop :=
  Rounds serve jobs start

variable {jobs : List TransportJob} {start transport transport' : LinuxTransport} {i j : Nat}
  {job : TransportJob} {outcome : TransportOutcome} {tr : List TransportEvent}
  {h : List TransportRound} {r : TransportRound}

theorem serve_inventory {enrich : Match → Bool}
    (hrun : (serve i (.inventory enrich) transport).Runs tr (outcome, transport')) :
    ∃ result, outcome = .observed result ∧
      (LinuxTransport.inventory enrich).Runs transport tr result transport' := by
  rcases Program.runs_bind.mp hrun with ⟨t₁, t₂, ⟨result, s⟩, rfl, hinventory, rfl, heq⟩
  rcases Prod.mk.inj heq with ⟨rfl, rfl⟩
  rw [List.append_nil]
  exact ⟨result, rfl, hinventory⟩

theorem serve_execute {target : InterfaceId} {kind : OperationKind}
    (hrun : (serve i (.execute target kind) transport).Runs tr (outcome, transport')) :
    ∃ result, outcome = .executed result ∧
      (LinuxTransport.execute target kind).Runs transport tr result transport' := by
  rcases Program.runs_bind.mp hrun with ⟨t₁, t₂, ⟨result, s⟩, rfl, hexecute, rfl, heq⟩
  rcases Prod.mk.inj heq with ⟨rfl, rfl⟩
  rw [List.append_nil]
  exact ⟨result, rfl, hexecute⟩

/-- Every job carries generations. -/
theorem serve_carries (hrun : (serve i job transport).Runs tr (outcome, transport')) :
    LinuxTransport.Carries transport tr transport' := by
  cases job with
  | notification =>
      rcases Program.runs_bind.mp hrun with ⟨t₁, t₂, ⟨result, s⟩, rfl, hnext, rfl, heq⟩
      rcases Prod.mk.inj heq with ⟨_, rfl⟩
      rw [List.append_nil]
      have hrest := Action.runs_get_bind.mp hnext
      by_cases hclosed : transport.notificationsClosed = true
      · rw [if_pos hclosed] at hrest
        rcases Action.runs_pure.mp hrest with ⟨rfl, _, rfl⟩
        exact LinuxTransport.composes_carries.refl _
      · rw [if_neg hclosed] at hrest
        rcases Action.runs_perform_bind.mp hrest with ⟨item, rest, rfl, hmodify⟩
        rcases Action.runs_modify.mp hmodify with ⟨rfl, _, rfl⟩
        have hlosses : losses [(⟨.notification, item⟩ : TransportEvent)] =
            (lossOf item).toList := by
          rw [losses_cons, losses_nil, List.append_nil, recordedBy, List.filterMap_cons,
            List.filterMap_nil]
          cases lossOf item with
          | none => rfl
          | some loss => rfl
        -- What a notification leaves of the generations was not lost by it.
        intro index generation hlive
        rcases (LinuxTransport.recorded_record transport item).generations index generation hlive
          with ⟨hbefore, hdeleted, hinvalidated⟩
        rw [← hlosses] at hdeleted hinvalidated
        exact Or.inl ⟨hbefore, fun hlost => hlost.elim hdeleted hinvalidated⟩
  | inventory enrich =>
      rcases serve_inventory hrun with ⟨result, _, hinventory⟩
      exact (LinuxTransport.respected_carries.inventory enrich) _ _ _ _ hinventory nofun
  | execute target kind =>
      rcases serve_execute hrun with ⟨result, _, hexecute⟩
      exact (LinuxTransport.respected_carries.execute target kind) _ _ _ _ hexecute nofun

/-- A history carries generations. -/
theorem Served.carries (hr : Served jobs start h transport) :
    LinuxTransport.Carries start (callsOf h) transport := by
  induction hr with
  | start => exact LinuxTransport.composes_carries.refl start
  | round _ _ hrun ih =>
      rw [callsOf_append, callsOf_singleton]
      exact LinuxTransport.composes_carries.trans _ _ _ _ _ ih (serve_carries hrun)

theorem callsOf_take_succ (hi : h[i]? = some r) :
    callsOf (h.take (i + 1)) = callsOf (h.take i) ++ r.calls := by
  rw [List.take_add_one, hi, callsOf_append, Option.toList_some, callsOf_singleton]

/-- A history up to one of its rounds carries generations. -/
theorem Served.carries_after (hr : Served jobs start h transport) (hi : h[i]? = some r) :
    LinuxTransport.Carries start (callsOf (h.take (i + 1))) r.after := by
  rcases Rounds.nth hr hi with ⟨job, _, hbefore, hrun⟩
  rw [callsOf_take_succ hi]
  exact LinuxTransport.composes_carries.trans _ _ _ _ _ (Served.carries hbefore)
    (serve_carries hrun)

/-- The calls of the rounds behind round `i` and before round `j`. -/
def callsBetween (h : List TransportRound) (i j : Nat) : List TransportEvent :=
  callsOf ((h.take j).drop (i + 1))

theorem callsOf_take_of_lt (hlt : i < j) :
    callsOf (h.take j) = callsOf (h.take (i + 1)) ++ callsBetween h i j := by
  rw [callsBetween, ← callsOf_append]
  have htake : h.take (i + 1) = (h.take j).take (i + 1) := by
    rw [List.take_take, Nat.min_eq_left hlt]
  rw [htake, List.take_append_drop]

/-- A generation that stands before and after was not lost between. -/
theorem not_lost_of_carries {past rest : List TransportEvent} {index : UInt32}
    {generation : UInt64} (hstart : start.generations = fun _ => none)
    (hfresh : (draws (past ++ rest)).Nodup) (hpast : LinuxTransport.Carries start past transport)
    (hlive : transport.generations index = some generation)
    (hall : LinuxTransport.Carries start (past ++ rest) transport')
    (hlive' : transport'.generations index = some generation) : ¬ Lost index rest := by
  -- A transport that starts with no generation has drawn those it has.
  have hdrawn : ∀ {tr transport}, LinuxTransport.Carries start tr transport →
      transport.generations index = some generation →
      ∃ before after, tr = before ++ drawEvent generation :: after ∧ ¬ Lost index after := by
    intro tr transport hcarries hstands
    rcases hcarries index generation hstands with ⟨habs, _⟩ | hdrawn
    · rw [hstart] at habs
      exact absurd habs (by simp only [reduceCtorEq, not_false_eq_true])
    · exact hdrawn
  rcases hdrawn hpast hlive with ⟨before, after, rfl, _⟩
  rcases hdrawn hall hlive' with ⟨before', after', hsplit, hkept⟩
  -- Both times it is the same draw.
  have hsame : before ++ drawEvent generation :: (after ++ rest) =
      before' ++ drawEvent generation :: after' := by
    rw [← hsplit, List.append_assoc, List.cons_append]
  rw [List.append_assoc, List.cons_append] at hfresh
  have hafter := draw_unique hfresh hsame
  rw [hafter, lost_append, not_or] at hkept
  exact hkept.2

end Histories

section Reuse

variable {jobs : List TransportJob} {start transport : LinuxTransport}
  {h : List TransportRound} {i j : Nat} {r r' : TransportRound} {observation : Observation}
  {device : DeviceObservation}

/-- The round is an inventory that succeeded. -/
def Observes (r : TransportRound) (observation : Observation) : Prop :=
  r.outcome = .observed (.ok observation)

/-- Every loss recorded while an inventory runs makes it fail. -/
def InterruptedByLosses (jobs : List TransportJob) (h : List TransportRound) : Prop :=
  ∀ (i : Nat) (r : TransportRound) (enrich : Match → Bool), h[i]? = some r →
    jobs[i]? = some (.inventory enrich) → losses r.calls ≠ [] →
    ∃ e, r.outcome = .observed (.error e)

/-- A history in which identities are never reused: an identity found twice was
    not lost between; a loss behind an inventory's first look at the
    notifications, or one of every identity, makes it fail; and an identity that
    was lost is not confirmed, nothing being written without that. -/
structure NeverReused (jobs : List TransportJob) (h : List TransportRound) : Prop where
  unique : ∀ (i j : Nat) (r r' : TransportRound) (observation observation' : Observation)
    (device device' : DeviceObservation), i < j →
    h[i]? = some r → Observes r observation → device ∈ observation.devices →
    h[j]? = some r' → Observes r' observation' → device' ∈ observation'.devices →
    device.identity.index = device'.identity.index →
    device.identity.generation = device'.identity.generation →
    ¬ Lost device.identity.index (callsBetween h i (j + 1))
  interrupted : ∀ (i : Nat) (r : TransportRound) (enrich : Match → Bool)
    (opening rest : List TransportEvent) (verdict : Except BackendError Unit)
    (transport : LinuxTransport), h[i]? = some r → jobs[i]? = some (.inventory enrich) →
    LinuxTransport.drainNotifications.Runs r.before opening verdict transport →
    r.calls = opening ++ rest → .invalidated ∈ losses opening ∨ losses rest ≠ [] →
    ∃ e, r.outcome = .observed (.error e)
  rejected : ∀ (i j : Nat) (r r' : TransportRound) (observation : Observation)
    (device : DeviceObservation) (target : InterfaceId) (kind : OperationKind)
    (checked rest : List TransportEvent) (verdict : Except BackendError Unit)
    (transport : LinuxTransport), i < j →
    h[i]? = some r → Observes r observation → device ∈ observation.devices →
    h[j]? = some r' → jobs[j]? = some (.execute target kind) →
    target.index = device.identity.index → target.generation = device.identity.generation →
    (LinuxTransport.confirmIdentity target).Runs r'.before checked verdict transport →
    r'.calls = checked ++ rest → Lost target.index (callsBetween h i j ++ checked) →
    (∃ e, verdict = .error e) ∧ (∃ e, r'.outcome = .executed (.error e)) ∧
      ∀ event ∈ r'.calls, event.1.isWrite = false
  confirmed : ∀ (j : Nat) (r : TransportRound) (target : InterfaceId) (kind : OperationKind)
    (event : TransportEvent), h[j]? = some r → jobs[j]? = some (.execute target kind) →
    event ∈ r.calls → event.1.isWrite = true →
    ∃ checked rest transport, r.calls = checked ++ rest ∧
      (LinuxTransport.confirmIdentity target).Runs r.before checked (.ok ()) transport

/-- What an inventory found stands when it is done. -/
theorem Served.stands (hr : Served jobs start h transport) (hi : h[i]? = some r)
    (hobserves : Observes r observation) (hmem : device ∈ observation.devices) :
    r.after.generations device.identity.index = some device.identity.generation := by
  rcases Rounds.nth hr hi with ⟨job, _, _, hrun⟩
  rw [hobserves] at hrun
  cases job with
  | notification =>
      rcases Program.runs_bind.mp hrun with ⟨t₁, t₂, out, _, _, _, heq⟩
      exact absurd (Prod.mk.inj heq).1 (by simp only [reduceCtorEq, not_false_eq_true])
  | inventory enrich =>
      rcases serve_inventory hrun with ⟨result, heq, hinventory⟩
      obtain rfl := TransportOutcome.observed.inj heq
      exact (LinuxTransport.inventory_ok hinventory).1 device hmem
  | execute target kind =>
      rcases serve_execute hrun with ⟨result, heq, _⟩
      exact absurd heq (by simp only [reduceCtorEq, not_false_eq_true])

theorem draws_nodup_take (hfresh : (draws (callsOf h)).Nodup) (k : Nat) :
    (draws (callsOf (h.take k))).Nodup := by
  have hsplit : callsOf h = callsOf (h.take k) ++ callsOf (h.drop k) := by
    rw [← callsOf_append, List.take_append_drop]
  rw [hsplit, draws, List.filterMap_append, List.nodup_append] at hfresh
  exact hfresh.1

/-- Few deletions in a history are few in a part of a round. -/
theorem deletions_part_le {opening rest : List TransportEvent} (hi : h[i]? = some r)
    (hcalls : r.calls = opening ++ rest) :
    (deletions rest).length ≤ (deletions (callsOf h)).length := by
  have hsplit : callsOf h =
      (callsOf (h.take i) ++ opening) ++ rest ++ callsOf (h.drop (i + 1)) := by
    rw [List.append_assoc (callsOf (h.take i)), ← hcalls, ← callsOf_take_succ hi, ← callsOf_append,
      List.take_append_drop]
  rw [hsplit]
  unfold deletions
  rw [losses_append, losses_append, List.filter_append, List.filter_append, List.length_append,
    List.length_append]
  omega

/-- An identity found twice was not lost between. -/
theorem Served.not_lost_between {r' : TransportRound} {observation' : Observation}
    {device' : DeviceObservation} (hr : Served jobs start h transport)
    (hstart : start.generations = fun _ => none) (hfresh : (draws (callsOf h)).Nodup)
    (hlt : i < j) (hi : h[i]? = some r) (hobserves : Observes r observation)
    (hmem : device ∈ observation.devices) (hj : h[j]? = some r')
    (hobserves' : Observes r' observation') (hmem' : device' ∈ observation'.devices)
    (hindex : device.identity.index = device'.identity.index)
    (hgeneration : device.identity.generation = device'.identity.generation) :
    ¬ Lost device.identity.index (callsBetween h i (j + 1)) := by
  have hlive := hr.stands hi hobserves hmem
  have hlive' := hr.stands hj hobserves' hmem'
  rw [← hindex, ← hgeneration] at hlive'
  have hsplit := callsOf_take_of_lt (h := h) (Nat.lt_succ_of_lt hlt)
  refine not_lost_of_carries hstart ?_ (hr.carries_after hi) hlive ?_ hlive'
  · rw [← hsplit]
    exact draws_nodup_take hfresh (j + 1)
  · rw [← hsplit]
    exact hr.carries_after hj

/-- What is lost behind the first look at the notifications makes an inventory
    fail, and so does what concerns every device. -/
theorem Served.fails_of_lost {enrich : Match → Bool} {opening rest : List TransportEvent}
    {verdict : Except BackendError Unit} {drained : LinuxTransport}
    (hr : Served jobs start h transport) (hfew : (deletions (callsOf h)).length < 2 ^ 64)
    (hi : h[i]? = some r) (hjob : jobs[i]? = some (.inventory enrich))
    (hopening : LinuxTransport.drainNotifications.Runs r.before opening verdict drained)
    (hcalls : r.calls = opening ++ rest)
    (hlost : .invalidated ∈ losses opening ∨ losses rest ≠ []) :
    ∃ e, r.outcome = .observed (.error e) := by
  rcases Rounds.nth hr hi with ⟨job, hjob', _, hrun⟩
  obtain rfl := Option.some.inj (hjob'.symm.trans hjob)
  rcases serve_inventory hrun with ⟨result, houtcome, hinventory⟩
  cases result with
  | error e => exact ⟨e, houtcome⟩
  | ok observation =>
      rcases LinuxTransport.inventory_ok hinventory with
        ⟨_, opening', rest', s₁, hcalls', hopening', hnone, hrest⟩
      -- The drain that was cut off here is the one that the inventory made.
      rcases Program.runs_cut hopening hopening' (hcalls.symm.trans hcalls') with ⟨rfl, rfl, _⟩
      have hpart := deletions_part_le hi hcalls
      rcases hlost with hinvalidated | hlost
      · exact absurd hinvalidated hnone
      · exact absurd (hrest (by omega)) hlost

/-- An identity that was lost since an inventory issued it is not confirmed. -/
theorem Served.not_confirmed {target : InterfaceId} {checked rest : List TransportEvent}
    {verdict : Except BackendError Unit} {confirmed : LinuxTransport}
    (hr : Served jobs start h transport)
    (hstart : start.generations = fun _ => none) (hfresh : (draws (callsOf h)).Nodup)
    (hlt : i < j) (hi : h[i]? = some r) (hobserves : Observes r observation)
    (hmem : device ∈ observation.devices) (hj : h[j]? = some r')
    (hindex : target.index = device.identity.index)
    (hgeneration : target.generation = device.identity.generation)
    (hcheck : (LinuxTransport.confirmIdentity target).Runs r'.before checked verdict confirmed)
    (hcalls : r'.calls = checked ++ rest)
    (hlost : Lost target.index (callsBetween h i j ++ checked)) : ∃ e, verdict = .error e := by
  rcases Rounds.nth hr hj with ⟨job, hjob', hbefore, _⟩
  cases verdict with
  | error e => exact ⟨e, rfl⟩
  | ok _ =>
      -- What is confirmed stands, so it was not lost.
      have hlive := hr.stands hi hobserves hmem
      rw [← hindex, ← hgeneration] at hlive
      have hsplit : callsOf (h.take (i + 1)) ++ (callsBetween h i j ++ checked) =
          callsOf (h.take j) ++ checked := by
        rw [callsOf_take_of_lt hlt, List.append_assoc]
      have hcarries : LinuxTransport.Carries start (callsOf (h.take j) ++ checked) confirmed :=
        LinuxTransport.composes_carries.trans _ _ _ _ _ (Served.carries hbefore)
          ((LinuxTransport.respected_carries.confirmIdentity target) _ _ _ _ hcheck nofun)
      have hnodup : (draws (callsOf (h.take j) ++ checked)).Nodup := by
        have hround := draws_nodup_take hfresh (j + 1)
        rw [callsOf_take_succ hj, hcalls, ← List.append_assoc, draws, List.filterMap_append,
          List.nodup_append] at hround
        exact hround.1
      refine absurd hlost (not_lost_of_carries hstart ?_ (hr.carries_after hi) hlive ?_
        (LinuxTransport.confirmIdentity_ok hcheck))
      · rw [hsplit]
        exact hnodup
      · rw [hsplit]
        exact hcarries

/-- An operation whose target is not confirmed fails, and writes nothing. -/
theorem Served.nothing_written {target : InterfaceId} {kind : OperationKind}
    {checked rest : List TransportEvent} {verdict : Except BackendError Unit}
    {confirmed : LinuxTransport} (hr : Served jobs start h transport) (hj : h[j]? = some r')
    (hjob : jobs[j]? = some (.execute target kind))
    (hcheck : (LinuxTransport.confirmIdentity target).Runs r'.before checked verdict confirmed)
    (hcalls : r'.calls = checked ++ rest) (hverdict : ∃ e, verdict = .error e) :
    (∃ e, r'.outcome = .executed (.error e)) ∧ ∀ event ∈ r'.calls, event.1.isWrite = false := by
  rcases Rounds.nth hr hj with ⟨job, hjob', _, hrun⟩
  obtain rfl := Option.some.inj (hjob'.symm.trans hjob)
  rcases serve_execute hrun with ⟨result, houtcome, hexecute⟩
  rcases LinuxTransport.execute_cases hexecute with ⟨hnil, e, rfl⟩ |
    ⟨checked', rest', verdict', s₁, hcalls', hcheck', hended⟩
  · refine ⟨⟨e, houtcome⟩, fun event hevent => ?_⟩
    rw [hnil] at hevent
    exact absurd hevent List.not_mem_nil
  · rcases Program.runs_cut hcheck hcheck' (hcalls.symm.trans hcalls') with ⟨rfl, rfl, heq⟩
    rcases Prod.mk.inj heq with ⟨rfl, rfl⟩
    rcases hended with ⟨e, _, rfl, rfl⟩ | hok
    · refine ⟨⟨e, houtcome⟩, ?_⟩
      rw [hcalls, List.append_nil]
      exact LinuxTransport.confirmIdentity_calls hcheck
    · rcases hverdict with ⟨e, he⟩
      exact absurd (he.symm.trans hok) (by simp only [reduceCtorEq, not_false_eq_true])

/-- Nothing is written unless the target was confirmed. -/
theorem Served.confirmed_of_write {target : InterfaceId} {kind : OperationKind}
    {event : TransportEvent} (hr : Served jobs start h transport) (hj : h[j]? = some r)
    (hjob : jobs[j]? = some (.execute target kind)) (hevent : event ∈ r.calls)
    (hwrite : event.1.isWrite = true) :
    ∃ checked rest confirmed, r.calls = checked ++ rest ∧
      (LinuxTransport.confirmIdentity target).Runs r.before checked (.ok ()) confirmed := by
  rcases Rounds.nth hr hj with ⟨job, hjob', _, hrun⟩
  obtain rfl := Option.some.inj (hjob'.symm.trans hjob)
  rcases serve_execute hrun with ⟨result, _, hexecute⟩
  rcases LinuxTransport.execute_cases hexecute with ⟨hnil, _⟩ |
    ⟨checked, rest, verdict, s, hcalls, hcheck, ⟨e, _, _, rfl⟩ | rfl⟩
  · rw [hnil] at hevent
    exact absurd hevent List.not_mem_nil
  · -- The calls end with the check, and the check writes nothing.
    rw [hcalls, List.append_nil] at hevent
    have hquiet := LinuxTransport.confirmIdentity_calls hcheck event hevent
    exact absurd (hwrite.symm.trans hquiet) (by decide)
  · exact ⟨checked, rest, s, hcalls, hcheck⟩

/-- Generations being drawn once and less than 2^64 devices being deleted,
    identities are never reused. -/
theorem identities_neverReused (jobs : List TransportJob) (namespaceId : NamespaceId)
    (ethtool wireless : Bool) (diagnostics : List Diagnostic) (h : List TransportRound)
    (transport : LinuxTransport)
    (hr : Served jobs (.new namespaceId ethtool wireless diagnostics) h transport)
    (hfresh : (draws (callsOf h)).Nodup) (hfew : (deletions (callsOf h)).length < 2 ^ 64) :
    NeverReused jobs h := by
  refine ⟨?_, ?_, ?_, ?_⟩
  · intro i j r r' observation observation' device device' hlt hi hobserves hmem hj hobserves'
      hmem' hindex hgeneration
    exact hr.not_lost_between rfl hfresh hlt hi hobserves hmem hj hobserves' hmem' hindex
      hgeneration
  · intro i r enrich opening rest verdict s hi hjob hopening hcalls hlost
    exact hr.fails_of_lost hfew hi hjob hopening hcalls hlost
  · intro i j r r' observation device target kind checked rest verdict s hlt hi hobserves hmem hj
      hjob hindex hgeneration hcheck hcalls hlost
    have hverdict := hr.not_confirmed rfl hfresh hlt hi hobserves hmem hj hindex hgeneration
      hcheck hcalls hlost
    exact ⟨hverdict, hr.nothing_written hj hjob hcheck hcalls hverdict⟩
  · intro j r target kind event hj hjob hevent hwrite
    exact hr.confirmed_of_write hj hjob hevent hwrite

/-- A transport that was just opened. -/
def openedTransport : LinuxTransport := .new { device := 4, inode := 1 } false true []

/-- A notification that a link was deleted. -/
def linkDeletion (index : UInt32) : NetlinkMessage where
  flags := 0
  payload := .innerMessage
    { kind := rtmDellink
      link :=
        { header := .ok { interfaceFamily := .unspec, index, linkLayerType := .ether, up := true }
          attributes := [] }
      address := .error "no address record" }

/-- The end of a dump. -/
def dumpEnd : NetlinkMessage where
  flags := 0
  payload := .done { code := 0, io := interruptedError, extack := none }

/-- A kernel without interfaces, with these notifications waiting. -/
def emptyKernel : Handler (List NetlinkMessage) TransportCall TransportAnswer
  | waiting, .backlog => ({ messages := waiting, closed := false }, [])
  | waiting, .notification => (waiting.head?, waiting.tail)
  | waiting, .request _ _ => (.answered [dumpEnd], waiting)
  | waiting, .now => (0, waiting)
  | waiting, .wirelessIndices => (.ok [], waiting)
  | waiting, .interfaceIndex _ => (.error interruptedError, waiting)
  | waiting, .legacyWireless _ => (false, waiting)
  | waiting, .driverInfo _ => (.error interruptedError, waiting)
  | waiting, .linkModes _ _ => ({ messages := [], ending := .done }, waiting)
  | waiting, .getrandom => (.ok 0, waiting)

/-- A deletion that was waiting is recorded by the inventory that looks at it
    first, and does not make it fail. -/
theorem served_deletion : ∃ h transport,
    Served [.inventory fun _ => true] openedTransport h transport ∧
      draws (callsOf h) = [] ∧ losses (callsOf h) = [.deleted 7] ∧
      ∃ r, h[0]? = some r ∧ r.calls = callsOf h ∧
        Observes r { devices := [], diagnostics := [] } := by
  have hexec : ∃ out, (serve 0 (.inventory fun _ => true) openedTransport).exec emptyKernel
      [linkDeletion 7] = some out ∧ out.1.1 = .observed (.ok { devices := [], diagnostics := [] }) ∧
        draws out.2.2 = [] ∧ losses out.2.2 = [.deleted 7] := ⟨_, rfl, rfl, rfl, rfl⟩
  rcases hexec with ⟨⟨⟨outcome, transport⟩, _, tr⟩, hexec, hobserves, hdraws, hlosses⟩
  have hrun := (Program.exec_runs hexec).1
  -- The run of the one job, as a history of one round.
  let round : TransportRound := ⟨openedTransport, tr, outcome, transport⟩
  refine ⟨[] ++ [round], transport, Rounds.round .start rfl hrun, ?_⟩
  have hcalls : callsOf ([] ++ [round]) = tr := by
    rw [callsOf_append, callsOf_nil, List.nil_append, callsOf_singleton]
  rw [hcalls]
  exact ⟨hdraws, hlosses, _, rfl, rfl, hobserves⟩

/-- The link of a kernel with one interface. -/
def vethPacket : RoutePacket where
  kind := rtmNewlink
  link :=
    { header := .ok { interfaceFamily := .unspec, index := 2, linkLayerType := .ether, up := true }
      attributes := [.ok (3, .ok (.ifName "veth0")), .ok (18, .ok (.linkInfo [.kind .veth]))] }
  address := .error "no address record"

/-- A packet on its own. -/
def packetMessage (packet : RoutePacket) : NetlinkMessage where
  flags := 0
  payload := .innerMessage packet

/-- An acknowledgement. -/
def acknowledgement : NetlinkMessage where
  flags := 0
  payload := .error { code := none, io := interruptedError, extack := none }

/-- The interface under a generation. -/
def vethIdentity (generation : UInt64) : InterfaceId where
  namespaceId := openedTransport.namespaceId
  index := 2
  generation
  name := "veth0"
  deviceType := ethernet
  mac := none

/-- A kernel that has the interface, with the notifications that are still to come and
    the next random number. A notification comes when there is nothing else to do. -/
def recreatingKernel : Handler (List NetlinkMessage × UInt64) TransportCall TransportAnswer
  | (coming, drawn), .notification => (coming.head?, (coming.tail, drawn))
  | (coming, drawn), .getrandom => (.ok drawn, (coming, drawn + 1))
  | s, .backlog => ({ messages := [], closed := false }, s)
  | s, .request (.getLink message) _ =>
      (.answered
        [packetMessage vethPacket, if message.index = 0 then dumpEnd else acknowledgement], s)
  | s, .request (.getAddress _) _ => (.answered [dumpEnd], s)
  | s, .request _ _ => (.answered [acknowledgement], s)
  | s, .now => (0, s)
  | s, .wirelessIndices => (.ok [], s)
  | s, .interfaceIndex _ => (.ok 2, s)
  | s, .legacyWireless _ => (false, s)
  | s, .driverInfo _ => (.ok { driver := .ok (some "veth"), busInfo := .ok none }, s)
  | s, .linkModes _ _ => ({ messages := [], ending := .done }, s)

/-- An interface is found, deleted and found again under the same index and name, and
    is written to under both identities. -/
def recreatedJobs : List TransportJob :=
  [.inventory fun _ => true, .notification, .inventory fun _ => true,
    .execute (vethIdentity 1) (.setMtu 1400), .execute (vethIdentity 2) (.setMtu 1400)]

/-- What an inventory found. -/
def TransportOutcome.identities : TransportOutcome → List InterfaceId
  | .observed (.ok observation) => observation.devices.map DeviceObservation.identity
  | _ => []

/-- Whether a write was made. -/
def TransportOutcome.isDone : TransportOutcome → Bool
  | .executed (.ok ()) => true
  | _ => false

/-- The index and the name are issued twice, and only the second identity is written
    to. -/
theorem served_recreated : ∃ h transport, Served recreatedJobs openedTransport h transport ∧
    draws (callsOf h) = [1, 2] ∧ losses (callsOf h) = [.deleted 2] ∧
    h.map (fun r => r.outcome.identities) = [[vethIdentity 1], [], [vethIdentity 2], [], []] ∧
    h.map (fun r => r.outcome.isDone) = [false, false, false, false, true] := by
  have hexec : ∃ out, (loop serve 0 recreatedJobs openedTransport).exec recreatingKernel
      ([linkDeletion 2], 1) = some out ∧
        draws out.2.2 = [1, 2] ∧ losses out.2.2 = [.deleted 2] ∧
        out.1.1.map TransportOutcome.identities =
          [[vethIdentity 1], [], [vethIdentity 2], [], []] ∧
        out.1.1.map TransportOutcome.isDone = [false, false, false, false, true] :=
    ⟨_, rfl, rfl, rfl, rfl, rfl⟩
  rcases hexec with ⟨⟨⟨outcomes, transport⟩, _, tr⟩, hexec, hdraws, hlosses, hidentities, hdone⟩
  rcases loop_runs_rounds (Program.exec_runs hexec).1 with ⟨h, hr, htr, houtcomes, _⟩
  dsimp only at hdraws hlosses hidentities hdone
  rw [htr] at hdraws hlosses
  rw [houtcomes, List.map_map] at hidentities hdone
  exact ⟨h, transport, hr, hdraws, hlosses, hidentities, hdone⟩

/-- Identities are never reused where an interface is deleted and made again: the old
    one is not confirmed, and nothing is written for it. -/
theorem identities_neverReused_recreated : ∃ h, NeverReused recreatedJobs h ∧
    h.map (fun r => r.outcome.identities) = [[vethIdentity 1], [], [vethIdentity 2], [], []] ∧
    h.map (fun r => r.outcome.isDone) = [false, false, false, false, true] := by
  rcases served_recreated with ⟨h, transport, hr, hdraws, hlosses, hidentities, hdone⟩
  refine ⟨h, identities_neverReused _ _ _ _ _ h transport hr ?_ ?_, hidentities, hdone⟩
  · rw [hdraws]
    decide
  · unfold deletions
    rw [hlosses]
    decide

/-- A deletion recorded while an inventory runs need not make it fail. -/
theorem inventory_not_interrupted : ¬ ∀ (jobs : List TransportJob) (namespaceId : NamespaceId)
    (ethtool wireless : Bool) (diagnostics : List Diagnostic) (h : List TransportRound)
    (transport : LinuxTransport),
    Served jobs (.new namespaceId ethtool wireless diagnostics) h transport →
    (draws (callsOf h)).Nodup → (deletions (callsOf h)).length < 2 ^ 64 →
    InterruptedByLosses jobs h := by
  intro hclaim
  rcases served_deletion with ⟨h, transport, hr, hdraws, hlosses, r, hround, hcalls, hobserves⟩
  have hfresh : (draws (callsOf h)).Nodup := by
    rw [hdraws]
    exact List.nodup_nil
  have hfew : (deletions (callsOf h)).length < 2 ^ 64 := by
    unfold deletions
    rw [hlosses]
    decide
  have hinterrupted := hclaim _ _ _ _ _ h transport hr hfresh hfew
  have hlost : losses r.calls ≠ [] := by
    rw [hcalls, hlosses]
    exact List.cons_ne_nil _ _
  rcases hinterrupted 0 r _ hround rfl hlost with ⟨e, he⟩
  rw [hobserves] at he
  exact absurd he (by simp only [TransportOutcome.observed.injEq, reduceCtorEq, not_false_eq_true])

end Reuse

end Netfyr
