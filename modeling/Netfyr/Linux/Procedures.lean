import Netfyr.Interact.Effect
import Netfyr.Linux.Transport

/-!
# The Procedures of the Transport

Most of what the transport does is asking. What is claimed of its state is
therefore claimed of three procedures: the one that takes notifications over,
the one that issues a generation, and what forgets the generations of devices
that are gone. `Respected` is a relation that these three are in, and every
other procedure is in it too.

## Main definitions

* `TransportCall.isQuiet`: A call that makes no difference to generations.
* `LinuxTransport.Respected`: A relation that the three procedures are in.

## Theorems

* `Respected.inventory`, `Respected.execute`: Every procedure is.
-/

namespace Netfyr

open Interact

/-- A call that is neither about notifications nor for a generation. -/
def TransportCall.isQuiet : TransportCall → Bool
  | .notification | .backlog | .getrandom => false
  | _ => true

namespace LinuxTransport

/-- A relation between states of the transport that its procedures are in when
    three of them are: what takes notifications, what issues a generation and
    what forgets those of the devices that are gone. -/
structure Respected (successful : Bool)
    (Q : LinuxTransport → List TransportEvent → LinuxTransport → Prop) : Prop where
  composes : Composes Q
  quiet : ∀ transport (event : TransportEvent), event.1.isQuiet = true →
    Q transport [event] transport
  drain : drainNotifications.HasEffect successful Q
  generation : ∀ index, (generationOf index).HasEffect successful Q
  retain : ∀ (transport : LinuxTransport) devices,
    Q transport [] (transport.retainGenerations devices)
  remember : ∀ (transport : LinuxTransport) addressMessages,
    Q transport [] { transport with addressMessages }

namespace Respected

variable {successful : Bool} {Q : LinuxTransport → List TransportEvent → LinuxTransport → Prop}

theorem perform (h : Respected successful Q) {call : TransportCall} (hquiet : call.isQuiet = true) :
    (Action.perform call : Transporting (TransportAnswer call)).HasEffect successful Q :=
  Action.hasEffect_perform fun transport answer => h.quiet transport ⟨call, answer⟩ hquiet

theorem request (h : Respected successful Q) (message : RouteNetlinkMessage) (exchange : Exchange)
    (extraFlags : BitVec 16) : (request message exchange extraFlags).HasEffect successful Q := by
  refine Action.hasEffect_bind h.composes h.drain fun _ => ?_
  refine Action.hasEffect_bind h.composes (h.perform rfl) fun answer => ?_
  cases answer with
  | refused message => exact Action.hasEffect_fail h.composes
  | timedOut => exact Action.hasEffect_fail h.composes
  | answered stream => exact Action.hasEffect_ofExcept h.composes

theorem interfaceIndex (h : Respected successful Q) (name : String) :
    (interfaceIndex name).HasEffect successful Q := by
  unfold Netfyr.interfaceIndex
  split
  · exact Action.hasEffect_pure h.composes
  · exact h.perform rfl

theorem whileNamed (h : Respected successful Q) {α : Type} {name : String} {index : UInt32}
    {call : Transporting (Except IoError α)} (hcall : call.HasEffect successful Q) :
    (whileNamed name index call).HasEffect successful Q := by
  refine Action.hasEffect_bind h.composes (h.interfaceIndex name) fun before => ?_
  cases checkNamed index before with
  | error e => exact Action.hasEffect_pure h.composes
  | ok _ =>
      refine Action.hasEffect_bind h.composes hcall fun result => ?_
      cases result with
      | error e => exact Action.hasEffect_pure h.composes
      | ok a =>
          refine Action.hasEffect_bind h.composes (h.interfaceIndex name) fun after => ?_
          cases checkNamed index after with
          | error e => exact Action.hasEffect_pure h.composes
          | ok _ => exact Action.hasEffect_pure h.composes

theorem enrichDriver (h : Respected successful Q) (identity : InterfaceId) (state : State)
    (diagnostics : List Diagnostic) :
    (enrichDriver identity state diagnostics).HasEffect successful Q := by
  have hcall : (driverInfo identity.name).HasEffect successful Q := by
    unfold driverInfo
    split
    · exact Action.hasEffect_pure h.composes
    · exact Action.hasEffect_bind h.composes (h.perform rfl) fun _ =>
        Action.hasEffect_pure h.composes
  refine Action.hasEffect_bind h.composes (h.whileNamed hcall) fun answer => ?_
  cases answer with
  | ok info => exact Action.hasEffect_pure h.composes
  | error e =>
      dsimp only
      by_cases hunsupported : unsupportedIoctl e = true
      · rw [if_pos hunsupported]
        exact Action.hasEffect_pure h.composes
      by_cases hinterrupted : e.interrupted = true
      · rw [if_neg hunsupported, if_pos hinterrupted]
        exact Action.hasEffect_fail h.composes
      · -- Any other failure becomes a diagnostic, and the inventory goes on.
        rw [if_neg hunsupported, if_neg hinterrupted]
        exact Action.hasEffect_pure h.composes

theorem enrichDevice (h : Respected successful Q) (enrich : Match → Bool) (identity : InterfaceId)
    (state : State) (diagnostics : List Diagnostic) :
    (enrichDevice enrich identity state diagnostics).HasEffect successful Q := by
  unfold LinuxTransport.enrichDevice
  by_cases henrich : enrich state.matchSpec = true
  · rw [if_pos henrich]
    exact h.enrichDriver identity state diagnostics
  · rw [if_neg henrich]
    exact Action.hasEffect_pure h.composes

theorem observeLink (h : Respected successful Q) (enrich : Match → Bool)
    (wireless : Option (List UInt32)) (observedAt : Instant) (sweep : LinkSweep)
    (packet : RoutePacket) :
    (observeLink enrich wireless observedAt sweep packet).HasEffect successful Q := by
  have hlegacy : ∀ name, (legacyWireless name).HasEffect successful Q := by
    intro name
    unfold legacyWireless
    split
    · exact Action.hasEffect_pure h.composes
    · exact h.perform rfl
  refine Action.hasEffect_bind h.composes (Action.hasEffect_failWhen h.composes) fun _ => ?_
  refine Action.hasEffect_bind h.composes (Action.hasEffect_ofExcept h.composes) fun parsed => ?_
  refine Action.hasEffect_bind h.composes (h.whileNamed ?_) fun answer => ?_
  · exact Action.hasEffect_bind h.composes (hlegacy _) fun _ => Action.hasEffect_pure h.composes
  refine Action.hasEffect_bind h.composes (Action.hasEffect_ofExcept h.composes) fun legacy => ?_
  refine Action.hasEffect_bind h.composes (h.generation _) fun generation => ?_
  refine Action.hasEffect_bind h.composes (Action.hasEffect_get h.composes) fun transport => ?_
  exact Action.hasEffect_bind h.composes (h.enrichDevice enrich _ _ _) fun _ =>
    Action.hasEffect_pure h.composes

theorem enrichLinkModes (h : Respected successful Q) (sweep : LinkSweep) :
    (enrichLinkModes sweep).HasEffect successful Q := by
  have hask : ∀ answers target, (askLinkModes answers target).HasEffect successful Q := by
    intro answers target
    exact Action.hasEffect_bind h.composes (h.perform rfl) fun _ =>
      Action.hasEffect_pure h.composes
  have hinsert : ∀ sweep result, (insertEthernet sweep result).HasEffect successful Q := by
    intro sweep result
    refine Action.hasEffect_bind h.composes (Action.hasEffect_ofExcept h.composes) fun out => ?_
    exact Action.hasEffect_bind h.composes (Action.hasEffect_ofOption h.composes) fun _ =>
      Action.hasEffect_pure h.composes
  refine Action.hasEffect_bind h.composes (Action.hasEffect_get h.composes) fun transport => ?_
  split
  · refine Action.hasEffect_bind h.composes ?_ fun answers => ?_
    · exact Action.hasEffect_foldlM h.composes hask _ _
    · exact Action.hasEffect_foldlM h.composes hinsert _ _
  · exact Action.hasEffect_pure h.composes

theorem observe (h : Respected successful Q) (enrich : Match → Bool) :
    (observe enrich).HasEffect successful Q := by
  have hwireless : wirelessIndices.HasEffect successful Q := by
    refine Action.hasEffect_bind h.composes (Action.hasEffect_get h.composes) fun transport => ?_
    split
    · exact h.perform rfl
    · exact Action.hasEffect_pure h.composes
  refine Action.hasEffect_bind h.composes (h.request _ _ _) fun links => ?_
  refine Action.hasEffect_bind h.composes (h.request _ _ _) fun addresses => ?_
  refine Action.hasEffect_bind h.composes (h.perform rfl) fun observedAt => ?_
  refine Action.hasEffect_bind h.composes (Action.hasEffect_get h.composes) fun transport => ?_
  refine Action.hasEffect_bind h.composes hwireless fun answer => ?_
  refine Action.hasEffect_bind h.composes ?_ fun sweep => ?_
  · exact Action.hasEffect_foldlM h.composes (h.observeLink enrich _ observedAt) _ _
  refine Action.hasEffect_bind h.composes (h.enrichLinkModes sweep) fun sweep => ?_
  refine Action.hasEffect_bind h.composes ?_ fun _ => Action.hasEffect_ofExcept h.composes
  -- The only changes of the state are retaining here and remembering below.
  exact Action.hasEffect_modify fun transport => h.retain transport sweep.devices

theorem conclude (h : Respected successful Q) (deletionEpoch : UInt64) (sweep : AddressSweep) :
    (conclude deletionEpoch sweep).HasEffect successful Q := by
  refine Action.hasEffect_bind h.composes (Action.hasEffect_get h.composes) fun transport => ?_
  refine Action.hasEffect_bind h.composes (Action.hasEffect_ofExcept h.composes) fun _ => ?_
  refine Action.hasEffect_bind h.composes (Action.hasEffect_failWhen h.composes) fun _ => ?_
  refine Action.hasEffect_bind h.composes ?_ fun _ => Action.hasEffect_pure h.composes
  exact Action.hasEffect_modify fun transport => h.remember transport sweep.addressMessages

theorem survey (h : Respected successful Q) (enrich : Match → Bool) :
    (survey enrich).HasEffect successful Q := by
  refine Action.hasEffect_bind h.composes (Action.hasEffect_get h.composes) fun transport => ?_
  refine Action.hasEffect_bind h.composes (h.observe enrich) fun sweep => ?_
  exact Action.hasEffect_bind h.composes h.drain fun _ => h.conclude _ sweep

theorem inventory (h : Respected successful Q) (enrich : Match → Bool) :
    (inventory enrich).HasEffect successful Q :=
  Action.hasEffect_bind h.composes h.drain fun _ => h.survey enrich

theorem confirmIdentity (h : Respected successful Q) (target : InterfaceId) :
    (confirmIdentity target).HasEffect successful Q := by
  refine Action.hasEffect_bind h.composes (Action.hasEffect_get h.composes) fun transport => ?_
  refine Action.hasEffect_bind h.composes (Action.hasEffect_failWhen h.composes) fun _ => ?_
  refine Action.hasEffect_bind h.composes (h.request _ _ _) fun reply => ?_
  refine Action.hasEffect_bind h.composes h.drain fun _ => ?_
  refine Action.hasEffect_bind h.composes (Action.hasEffect_ofExcept h.composes) fun name => ?_
  refine Action.hasEffect_bind h.composes (Action.hasEffect_get h.composes) fun transport => ?_
  exact Action.hasEffect_failWhen h.composes

theorem execute (h : Respected successful Q) (target : InterfaceId) (kind : OperationKind) :
    (execute target kind).HasEffect successful Q := by
  refine Action.hasEffect_bind h.composes (Action.hasEffect_get h.composes) fun transport => ?_
  refine Action.hasEffect_bind h.composes (Action.hasEffect_ofExcept h.composes) fun out => ?_
  refine Action.hasEffect_bind h.composes (h.confirmIdentity target) fun _ => ?_
  exact Action.hasEffect_bind h.composes (h.request _ _ _) fun _ =>
    Action.hasEffect_pure h.composes

end Respected

end LinuxTransport

end Netfyr
