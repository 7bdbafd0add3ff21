import Netfyr.Executor.History

/-!
# A Transport That Does as Predicted

The transport a dry run has in mind: an inventory returns the state, a write
succeeds and changes the device it is sent to exactly as `project` says, no time
passes and nobody cancels. It is a handler, so plans can be executed against it,
and the traces of such an execution are those its environment admits.

## Main definitions

* `projectOnto`: What a write does to an observation.
* `idealTransport`: The handler.

## Theorems

* `ideal_uncancelled`: It never cancels.
-/

namespace Netfyr

open Interact

/-- A write changes the device its target's index selects, as `project` says. -/
def projectOnto (observation : Observation) (target : InterfaceId) (kind : OperationKind) :
    Observation :=
  { observation with
    devices := updateFirst (fun device => device.identity.index == target.index)
      (project · kind) observation.devices }

/-- The transport that does as predicted, at one instant. -/
def idealTransport (now : Instant) : Handler Observation IoCall IoAnswer
  | observation, .inventory => (.ok observation, observation)
  | observation, .execute target kind => (.ok (), projectOnto observation target kind)
  | observation, .now => (now, observation)
  | observation, .cancelled => (false, observation)

/-- It never cancels. -/
theorem ideal_uncancelled {now : Instant} {observation final : Observation} {tr : List IoEvent}
    (h : Admits (idealTransport now).environment observation tr final) :
    (⟨.cancelled, true⟩ : IoEvent) ∉ tr := by
  induction tr generalizing observation with
  | nil => exact List.not_mem_nil
  | cons event tr ih =>
      rcases h with ⟨next, hanswer, hrest⟩
      intro hmem
      rcases List.mem_cons.mp hmem with rfl | hmem
      · exact absurd hanswer (by simp [Handler.environment, idealTransport])
      · exact ih hrest hmem

/-- An Ethernet interface, for running plans on. -/
def eth0 : InterfaceId :=
  { namespaceId := ⟨4, 4026531840⟩
    index := 2
    generation := 1
    name := "eth0"
    deviceType := ethernet
    mac := some "52:54:00:12:34:56" }

/-- The interface as observed, with the given addresses. -/
def eth0Device (addresses : List AddressObservation) : DeviceObservation :=
  { identity := eth0
    state := .new .kernel
    addresses
    addressesComplete := true
    observedAt := 0 }

/-- The address 192.0.2.1/24, as a permanent primary. -/
def primary : AddressObservation :=
  { address := ⟨Ipv4Addr.new 192 0 2 1, 24, none, none⟩
    flags := ifaFPermanent
    scope := 0
    peer := none }

/-- The address 198.51.100.1/24, of another group. -/
def bystander : AddressObservation :=
  { primary with address := ⟨Ipv4Addr.new 198 51 100 1, 24, none, none⟩ }

end Netfyr
