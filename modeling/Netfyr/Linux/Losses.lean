import Netfyr.Linux.Procedures

/-!
# Lost Identities

A generation identifies a device until the kernel says that the device is gone,
or until the transport cannot tell: a notification overrun, a deletion that
cannot be read, or the end of the stream. `Loss` is what a notification takes
away. The transport forgets the generations that are lost, counts the losses in
an epoch, and keeps a reason for those that concern every device.

## Main definitions

* `Loss`, `losses`: The losses recorded in a trace.
* `Lost`: Whether a device was among them.
* `draws`: The generations drawn in a trace.
* `LinuxTransport.Carries`: How a generation may stand.
* `LinuxTransport.Counts`: What the epoch counts.

## Theorems

* `draw_unique`: A generation drawn once is drawn in one place.
* `drainNotifications_cases`: What a drain does.
* `respected_carries`: Every procedure carries generations.
* `respected_counts`: Every procedure that succeeds counts deletions.
-/

namespace Netfyr

open Interact

section Losses

/-- A loss of identities: of one device, or of all. -/
inductive Loss where
  | deleted (index : UInt32)
  | invalidated
  deriving DecidableEq

/-- The loss that a notification, or the end of the stream, is. -/
def lossOf : Option NetlinkMessage → Option Loss
  -- The stream ended, and with it the news of deletions.
  | none => some .invalidated
  | some message =>
      match message.payload with
      | .innerMessage packet =>
          match deletedLink packet with
          | .ok (some index) => some (.deleted index)
          | .ok none => none
          -- A deletion of some device, and nobody knows of which.
          | .error _ => some .invalidated
      | .overrun => some .invalidated
      | .error _ | .done _ | .noop => none

/-- What the transport takes over at a call. -/
def recordedBy : TransportEvent → List (Option NetlinkMessage)
  | ⟨.notification, item⟩ => [item]
  | ⟨.backlog, backlog⟩ => backlog.items
  | _ => []

/-- The losses recorded in a trace. -/
def losses (tr : List TransportEvent) : List Loss := (tr.flatMap recordedBy).filterMap lossOf

/-- Whether the identity of a device is lost in a trace. -/
def Lost (index : UInt32) (tr : List TransportEvent) : Prop :=
  .deleted index ∈ losses tr ∨ .invalidated ∈ losses tr

/-- The deletions recorded in a trace. -/
def deletions (tr : List TransportEvent) : List Loss :=
  (losses tr).filter fun loss => loss ≠ .invalidated

/-- The generation drawn at a call. -/
def drawn? : TransportEvent → Option UInt64
  | ⟨.getrandom, .ok generation⟩ => some generation
  | _ => none

/-- The generations drawn in a trace. -/
def draws (tr : List TransportEvent) : List UInt64 := tr.filterMap drawn?

/-- A drawn generation. -/
def drawEvent (generation : UInt64) : TransportEvent := ⟨.getrandom, .ok generation⟩

variable {index : UInt32} {generation : UInt64} {tr tr' : List TransportEvent}

@[simp] theorem losses_nil : losses [] = [] := rfl

@[simp] theorem losses_append : losses (tr ++ tr') = losses tr ++ losses tr' := by
  rw [losses, List.flatMap_append, List.filterMap_append]
  rfl

theorem losses_cons (event : TransportEvent) :
    losses (event :: tr) = (recordedBy event).filterMap lossOf ++ losses tr := by
  rw [losses, List.flatMap_cons, List.filterMap_append]
  rfl

theorem recordedBy_quiet {event : TransportEvent} (h : event.1.isQuiet = true) :
    recordedBy event = [] := by
  rcases event with ⟨call, answer⟩
  cases call with
  | notification => exact absurd h Bool.false_ne_true
  | backlog => exact absurd h Bool.false_ne_true
  | _ => rfl

theorem losses_quiet {event : TransportEvent} (h : event.1.isQuiet = true) :
    losses [event] = [] := by
  rw [losses_cons, recordedBy_quiet h]
  rfl

theorem not_lost_nil : ¬ Lost index [] := by
  intro h
  rcases h with h | h <;> exact absurd h List.not_mem_nil

theorem lost_append : Lost index (tr ++ tr') ↔ Lost index tr ∨ Lost index tr' := by
  rw [Lost, losses_append, List.mem_append, List.mem_append]
  exact or_or_or_comm

/-- A generation drawn once is drawn in one place. -/
theorem draw_unique {before after before' after' : List TransportEvent}
    (hfresh : (draws (before ++ drawEvent generation :: after)).Nodup)
    (h : before ++ drawEvent generation :: after = before' ++ drawEvent generation :: after') :
    after' = after := by
  have hdrawn : drawn? (drawEvent generation) = some generation := rfl
  rw [draws, List.filterMap_append, List.filterMap_cons_some hdrawn, List.nodup_append,
    List.nodup_cons] at hfresh
  rcases hfresh with ⟨_, ⟨hafter, _⟩, hbefore⟩
  -- The place is the only one where the event draws this generation.
  let p : TransportEvent → Bool := fun event => drawn? event == some generation
  have hp : p (drawEvent generation) = true := beq_self_eq_true _
  have hnot : ∀ {event : TransportEvent} {rest : List TransportEvent}, event ∈ rest →
      generation ∉ rest.filterMap drawn? → p event = false := by
    intro event rest hmem hnone
    refine beq_eq_false_iff_ne.mpr fun heq => hnone ?_
    exact List.mem_filterMap.mpr ⟨event, hmem, heq⟩
  have hnone : generation ∉ before.filterMap drawn? := fun hmem =>
    hbefore generation hmem generation List.mem_cons_self rfl
  exact (append_cons_unique h hp hp (fun event hmem => hnot hmem hnone)
    (fun event hmem => hnot hmem hafter)).2.2

end Losses

namespace LinuxTransport

section Recording

variable {transport transport' : LinuxTransport} {item : Option NetlinkMessage}
  {index : UInt32} {generation : UInt64} {tr : List TransportEvent}

/-- Recording does what the loss says. -/
theorem record_cases (transport : LinuxTransport) (item : Option NetlinkMessage) :
    (lossOf item = none ∧ transport.record item = transport) ∨
      (∃ index, lossOf item = some (.deleted index) ∧
        transport.record item = transport.recordDeletion index) ∨
      (lossOf item = some .invalidated ∧ ∃ closed reason,
        transport.record item =
          invalidate { transport with notificationsClosed := closed } reason) := by
  cases item with
  | none => exact Or.inr (Or.inr ⟨rfl, true, _, rfl⟩)
  | some message =>
      rcases message with ⟨flags, payload⟩
      cases payload with
      | innerMessage packet =>
          unfold lossOf record
          cases hdeleted : deletedLink packet with
          | error e =>
              simp only [hdeleted, true_and]
              exact Or.inr (Or.inr ⟨transport.notificationsClosed, _, rfl⟩)
          | ok deleted =>
              cases deleted with
              | none =>
                  simp only [hdeleted, true_and, true_or]
              | some index =>
                  simp only [hdeleted]
                  exact Or.inr (Or.inl ⟨index, rfl, rfl⟩)
      | overrun => exact Or.inr (Or.inr ⟨rfl, transport.notificationsClosed, _, rfl⟩)
      | error e => exact Or.inl ⟨rfl, rfl⟩
      | done d => exact Or.inl ⟨rfl, rfl⟩
      | noop => exact Or.inl ⟨rfl, rfl⟩

/-- What one notification, or several, do to the state of the transport. -/
structure Recorded (transport : LinuxTransport) (lost : List Loss) (transport' : LinuxTransport) :
    Prop where
  generations : ∀ index generation, transport'.generations index = some generation →
    transport.generations index = some generation ∧
      .deleted index ∉ lost ∧ .invalidated ∉ lost
  epoch : transport'.deletionEpoch = transport.deletionEpoch + UInt64.ofNat lost.length
  invalidated : transport'.invalidated = none → .invalidated ∉ lost

theorem Recorded.refl (transport : LinuxTransport) : Recorded transport [] transport := by
  refine ⟨fun index generation h => ⟨h, List.not_mem_nil, List.not_mem_nil⟩, ?_,
    fun _ => List.not_mem_nil⟩
  exact (UInt64.add_zero _).symm

/-- What is recorded one after the other. Nothing takes back a reason. -/
theorem Recorded.trans {transport'' : LinuxTransport} {lost lost' : List Loss}
    (h : Recorded transport lost transport') (h' : Recorded transport' lost' transport'')
    (hkeeps : transport''.invalidated = none → transport'.invalidated = none) :
    Recorded transport (lost ++ lost') transport'' := by
  refine ⟨?_, ?_, ?_⟩
  · intro index generation hlive
    rcases h'.generations index generation hlive with ⟨hlive', hdeleted', hinvalidated'⟩
    rcases h.generations index generation hlive' with ⟨hlive, hdeleted, hinvalidated⟩
    rw [List.mem_append, List.mem_append, not_or, not_or]
    exact ⟨hlive, ⟨hdeleted, hdeleted'⟩, hinvalidated, hinvalidated'⟩
  · rw [h'.epoch, h.epoch, List.length_append, UInt64.ofNat_add, UInt64.add_assoc]
  · intro hnone
    rw [List.mem_append, not_or]
    exact ⟨h.invalidated (hkeeps hnone), h'.invalidated hnone⟩

/-- A reason stays until it is taken. -/
theorem record_invalidated (h : (transport.record item).invalidated = none) :
    transport.invalidated = none := by
  rcases record_cases transport item with ⟨_, heq⟩ | ⟨index, _, heq⟩ | ⟨_, closed, reason, heq⟩
  · rwa [heq] at h
  · rwa [heq] at h
  · rw [heq, invalidate, Option.or_eq_none_iff] at h
    exact h.1

theorem recorded_record (transport : LinuxTransport) (item : Option NetlinkMessage) :
    Recorded transport (lossOf item).toList (transport.record item) := by
  rcases record_cases transport item with ⟨hloss, heq⟩ | ⟨index, hloss, heq⟩ |
    ⟨hloss, closed, reason, heq⟩
  · rw [hloss, heq]
    exact .refl transport
  · -- A deletion takes one generation and gives no reason.
    have hnot : Loss.invalidated ∉ [Loss.deleted index] := by
      simp only [List.mem_singleton, reduceCtorEq, not_false_eq_true]
    rw [hloss, heq, Option.toList_some]
    refine ⟨?_, rfl, fun _ => hnot⟩
    intro other generation hlive
    have hupdate : Function.update transport.generations index none other = some generation := hlive
    by_cases hother : other = index
    · rw [hother, Function.update_self] at hupdate
      exact absurd hupdate (by simp only [reduceCtorEq, not_false_eq_true])
    · rw [Function.update_of_ne hother] at hupdate
      refine ⟨hupdate, ?_, hnot⟩
      rw [List.mem_singleton, Loss.deleted.injEq]
      exact hother
  · -- An invalidation leaves no generation, and a reason.
    rw [hloss, heq, Option.toList_some]
    refine ⟨?_, rfl, ?_⟩
    · intro other generation hlive
      exact absurd hlive (by simp only [invalidate, reduceCtorEq, not_false_eq_true])
    · intro hnone
      rw [invalidate, Option.or_eq_none_iff] at hnone
      exact absurd hnone.2 (by simp only [reduceCtorEq, not_false_eq_true])

/-- All that was waiting is recorded. -/
theorem recorded_foldl (items : List (Option NetlinkMessage)) (transport : LinuxTransport) :
    Recorded transport (items.filterMap lossOf) (items.foldl record transport) ∧
      ((items.foldl record transport).invalidated = none → transport.invalidated = none) := by
  induction items generalizing transport with
  | nil => exact ⟨.refl transport, id⟩
  | cons item items ih =>
      rcases ih (transport.record item) with ⟨hrest, hkeeps⟩
      -- The first item is recorded first, whatever it loses.
      have hlost : (item :: items).filterMap lossOf =
          (lossOf item).toList ++ items.filterMap lossOf := by
        rw [List.filterMap_cons]
        cases lossOf item with
        | none => rfl
        | some loss => rfl
      rw [List.foldl_cons, hlost]
      refine ⟨(recorded_record transport item).trans hrest hkeeps, fun hnone => ?_⟩
      exact record_invalidated (hkeeps hnone)

/-- A reason is taken once. -/
theorem takeInvalidated_cases {r : Except BackendError Unit}
    (h : takeInvalidated.Runs transport tr r transport') :
    tr = [] ∧ transport' = { transport with invalidated := none } ∧
      ((r = .ok () ∧ transport.invalidated = none) ∨ ∃ e, r = .error e) := by
  have hrest := Action.runs_modify_bind.mp (Action.runs_get_bind.mp h)
  cases hreason : transport.invalidated with
  | none =>
      rw [hreason] at hrest
      rcases Action.runs_pure.mp hrest with ⟨rfl, rfl, rfl⟩
      exact ⟨rfl, rfl, Or.inl ⟨rfl, rfl⟩⟩
  | some reason =>
      rw [hreason] at hrest
      rcases Action.runs_fail.mp hrest with ⟨rfl, rfl, rfl⟩
      exact ⟨rfl, rfl, Or.inr ⟨_, rfl⟩⟩

/-- A drain records what was waiting, and fails when there is a reason to. -/
theorem drainNotifications_cases {r : Except BackendError Unit}
    (h : drainNotifications.Runs transport tr r transport') :
    (∀ event ∈ tr, event.1 = .backlog) ∧
      ∃ recorded, Recorded transport (losses tr) recorded ∧
        transport' = { recorded with invalidated := none } ∧
        ((r = .ok () ∧ recorded.invalidated = none) ∨ ∃ e, r = .error e) := by
  have hrest := Action.runs_get_bind.mp h
  by_cases hclosed : transport.notificationsClosed = true
  · rw [if_pos hclosed] at hrest
    rcases takeInvalidated_cases hrest with ⟨rfl, heq, hr⟩
    -- A stream that ended is not asked, and nothing is recorded.
    exact ⟨fun event hmem => absurd hmem List.not_mem_nil, transport, .refl transport, heq, hr⟩
  · rw [if_neg hclosed] at hrest
    rcases Action.runs_perform_bind.mp hrest with ⟨backlog, rest, rfl, hmodify⟩
    rcases takeInvalidated_cases (Action.runs_modify_bind.mp hmodify) with ⟨rfl, heq, hr⟩
    refine ⟨fun event hmem => ?_, _, ?_, heq, hr⟩
    · rw [List.mem_singleton.mp hmem]
    · -- The one call brings all that was waiting.
      have hlosses : losses [(⟨.backlog, backlog⟩ : TransportEvent)] =
          backlog.items.filterMap lossOf := by
        rw [losses_cons, losses_nil, List.append_nil]
        rfl
      rw [hlosses]
      exact (recorded_foldl backlog.items transport).1

/-- The generation of a device is the one it has, or is drawn. -/
theorem generationOf_cases {r : Except BackendError UInt64}
    (h : (generationOf index).Runs transport tr r transport') :
    (tr = [] ∧ transport' = transport) ∨
      (∃ e, tr = [(⟨.getrandom, .error e⟩ : TransportEvent)] ∧ transport' = transport) ∨
      ∃ generation, tr = [drawEvent generation] ∧ transport' =
        { transport with
          generations := Function.update transport.generations index (some generation) } := by
  have hrest := Action.runs_get_bind.mp h
  cases hlive : transport.generations index with
  | some generation =>
      rw [hlive] at hrest
      rcases Action.runs_pure.mp hrest with ⟨rfl, _, rfl⟩
      exact Or.inl ⟨rfl, rfl⟩
  | none =>
      rw [hlive] at hrest
      rcases Action.runs_bind.mp hrest with ⟨e, _, hdraw⟩ |
        ⟨generation, s₁, t₁, t₂, rfl, hdraw, hset⟩
      · rcases Action.runs_perform_bind.mp hdraw with ⟨answer, rest, rfl, hdrawn⟩
        rcases Action.runs_ofExcept.mp hdrawn with ⟨rfl, hr, rfl⟩
        cases answer with
        -- No random number, no generation.
        | error e => exact Or.inr (Or.inl ⟨e, rfl, rfl⟩)
        | ok g => exact absurd hr (by simp only [Except.mapError, reduceCtorEq, not_false_eq_true])
      · rcases Action.runs_perform_bind.mp hdraw with ⟨answer, rest, rfl, hdrawn⟩
        rcases Action.runs_ofExcept.mp hdrawn with ⟨rfl, hr, rfl⟩
        have hpure := Action.runs_modify_bind.mp hset
        rcases Action.runs_pure.mp hpure with ⟨rfl, _, rfl⟩
        cases answer with
        | error e =>
            exact absurd hr (by simp only [Except.mapError, reduceCtorEq, not_false_eq_true])
        | ok g =>
            obtain rfl : generation = g := Except.ok.inj hr
            exact Or.inr (Or.inr ⟨generation, rfl, rfl⟩)

end Recording

section Effects

/-- A generation that stands did so before and nothing was lost of its device
    since, or it was drawn and nothing was lost since. -/
def Carries (transport : LinuxTransport) (tr : List TransportEvent) (transport' : LinuxTransport) :
    Prop :=
  ∀ index generation, transport'.generations index = some generation →
    (transport.generations index = some generation ∧ ¬ Lost index tr) ∨
      ∃ before after, tr = before ++ drawEvent generation :: after ∧ ¬ Lost index after

/-- Without a reason before there is none after, nothing was lost but by
    deletions, and the epoch counts them. -/
def Counts (transport : LinuxTransport) (tr : List TransportEvent) (transport' : LinuxTransport) :
    Prop :=
  transport.invalidated = none → transport'.invalidated = none ∧ .invalidated ∉ losses tr ∧
    transport'.deletionEpoch = transport.deletionEpoch + UInt64.ofNat (losses tr).length

theorem carries_of_quiet {transport transport' : LinuxTransport} {tr : List TransportEvent}
    (hlosses : losses tr = [])
    (h : ∀ index generation, transport'.generations index = some generation →
      transport.generations index = some generation) : Carries transport tr transport' := by
  intro index generation hlive
  refine Or.inl ⟨h index generation hlive, ?_⟩
  rw [Lost, hlosses]
  simp only [List.not_mem_nil, or_self, not_false_eq_true]

theorem composes_carries : Composes Carries := by
  constructor
  · intro transport
    exact carries_of_quiet rfl fun _ _ h => h
  · intro s tr s' tr' s'' hfirst hsecond index generation hlive
    rcases hsecond index generation hlive with ⟨hlive', hkept'⟩ | ⟨before, after, rfl, hkept'⟩
    · rcases hfirst index generation hlive' with ⟨hlive, hkept⟩ | ⟨before, after, rfl, hkept⟩
      · -- It stood from the start, and both parts lost nothing of it.
        refine Or.inl ⟨hlive, ?_⟩
        rw [lost_append, not_or]
        exact ⟨hkept, hkept'⟩
      · -- It was drawn in the first part, and what follows is longer.
        refine Or.inr ⟨before, after ++ tr', ?_, ?_⟩
        · rw [List.append_assoc, List.cons_append]
        · rw [lost_append, not_or]
          exact ⟨hkept, hkept'⟩
    · -- It was drawn in the second part.
      exact Or.inr ⟨tr ++ before, after, by rw [List.append_assoc], hkept'⟩

/-- Every procedure carries generations, whether it succeeds or not. -/
theorem respected_carries : Respected false Carries := by
  refine ⟨composes_carries, ?_, ?_, ?_, ?_, ?_⟩
  · intro transport event hquiet
    exact carries_of_quiet (losses_quiet hquiet) fun _ _ h => h
  · intro s tr r s' hrun _ index generation hlive
    rcases drainNotifications_cases hrun with ⟨_, recorded, hrecorded, rfl, _⟩
    rcases hrecorded.generations index generation hlive with ⟨hbefore, hdeleted, hinvalidated⟩
    exact Or.inl ⟨hbefore, fun hlost => hlost.elim hdeleted hinvalidated⟩
  · intro index s tr r s' hrun _
    rcases generationOf_cases hrun with ⟨rfl, rfl⟩ | ⟨e, rfl, rfl⟩ | ⟨drawn, rfl, rfl⟩
    · exact composes_carries.refl s'
    · exact carries_of_quiet rfl fun _ _ h => h
    · intro other generation hlive
      have hupdate : Function.update s.generations index (some drawn) other = some generation :=
        hlive
      by_cases hother : other = index
      · rw [hother, Function.update_self, Option.some.injEq] at hupdate
        subst hupdate
        -- Just drawn: nothing is behind the draw.
        exact Or.inr ⟨[], [], rfl, not_lost_nil⟩
      · rw [Function.update_of_ne hother] at hupdate
        exact Or.inl ⟨hupdate, fun hlost => not_lost_nil hlost⟩
  · intro transport devices
    refine carries_of_quiet rfl fun index generation hlive => ?_
    unfold retainGenerations at hlive
    dsimp only at hlive
    split at hlive
    · exact hlive
    · exact absurd hlive (by simp only [reduceCtorEq, not_false_eq_true])
  · intro transport addressMessages
    exact carries_of_quiet rfl fun _ _ h => h

theorem counts_of_quiet {transport transport' : LinuxTransport} {tr : List TransportEvent}
    (hlosses : losses tr = []) (hinvalidated : transport'.invalidated = transport.invalidated)
    (hepoch : transport'.deletionEpoch = transport.deletionEpoch) :
    Counts transport tr transport' := by
  intro hnone
  rw [hinvalidated, hlosses, hepoch]
  exact ⟨hnone, List.not_mem_nil, (UInt64.add_zero _).symm⟩

theorem composes_counts : Composes Counts := by
  constructor
  · intro transport
    exact counts_of_quiet rfl rfl rfl
  · intro s tr s' tr' s'' hfirst hsecond hnone
    rcases hfirst hnone with ⟨hnone', hnot, hepoch⟩
    rcases hsecond hnone' with ⟨hnone'', hnot', hepoch'⟩
    refine ⟨hnone'', ?_, ?_⟩
    · rw [losses_append, List.mem_append, not_or]
      exact ⟨hnot, hnot'⟩
    · rw [hepoch', hepoch, losses_append, List.length_append, UInt64.ofNat_add, UInt64.add_assoc]

/-- Every procedure that succeeds counts deletions. -/
theorem respected_counts : Respected true Counts := by
  refine ⟨composes_counts, ?_, ?_, ?_, ?_, ?_⟩
  · intro transport event hquiet
    exact counts_of_quiet (losses_quiet hquiet) rfl rfl
  · intro s tr r s' hrun hok _
    rcases drainNotifications_cases hrun with ⟨_, recorded, hrecorded, rfl, ⟨_, hnone⟩ | ⟨e, he⟩⟩
    · exact ⟨rfl, hrecorded.invalidated hnone, hrecorded.epoch⟩
    · -- A drain that failed did not succeed.
      rcases hok rfl with ⟨a, ha⟩
      exact absurd (he.symm.trans ha) (by simp only [reduceCtorEq, not_false_eq_true])
  · intro index s tr r s' hrun _
    rcases generationOf_cases hrun with ⟨rfl, rfl⟩ | ⟨e, rfl, rfl⟩ | ⟨drawn, rfl, rfl⟩ <;>
      exact counts_of_quiet rfl rfl rfl
  · intro transport devices
    exact counts_of_quiet rfl rfl rfl
  · intro transport addressMessages
    exact counts_of_quiet rfl rfl rfl

end Effects

end LinuxTransport

end Netfyr
