import Netfyr.Executor.Ideal
import Netfyr.Kernel.Write

/-!
# The Kernel as a Transport

How a kernel answers the executor's calls, when nobody else writes to it. In
general an inventory may fail, a write may be refused, time may pass, and whether
secondaries are promoted is settled anew at each removal.

When nothing goes wrong every inventory and every write succeeds, no time passes,
and the setting is fixed. Cancellations are arbitrary in either case. The second
kernel is one of the first kind, and the one to execute plans on.

## Main definitions

* `kernel`: The kernel that answers as it likes.
* `steadyKernel`: The kernel when nothing goes wrong.
* `kernelTransport`: The handler, which never cancels.

## Theorems

* `kernelTransport_admits`: The handler's traces are the kernel's.
* `steadyKernel_admits`: They are also those of a kernel that may fail.
-/

namespace Netfyr

open Interact

/-- A kernel that nobody else writes to: inventories report its state or fail,
    refused writes have no effect, and accepted ones are the kernel's. -/
def kernel : Environment (List DeviceObservation) IoCall IoAnswer
  | devices, .inventory, answer, devices' =>
      devices' = devices ∧ ∀ observation, answer = .ok observation → Reports observation devices
  | devices, .execute target kind, answer, devices' =>
      (∃ e, answer = .error e ∧ devices' = devices) ∨
        (answer = .ok () ∧ ∃ promoteSecondaries,
          devices' = kernelApply promoteSecondaries target kind devices)
  | devices, .now, _, devices' => devices' = devices
  | devices, .cancelled, _, devices' => devices' = devices

/-- A kernel at one instant, every inventory and every write succeeding. -/
def steadyKernel (promoteSecondaries : Bool) (now : Instant) :
    Environment (List DeviceObservation) IoCall IoAnswer
  | devices, .inventory, answer, devices' =>
      devices' = devices ∧ ∃ diagnostics, answer = .ok ⟨devices, diagnostics⟩
  | devices, .execute target kind, answer, devices' =>
      answer = .ok () ∧ devices' = kernelApply promoteSecondaries target kind devices
  | devices, .now, answer, devices' => devices' = devices ∧ answer = now
  | devices, .cancelled, _, devices' => devices' = devices

/-- The transport of this kernel, without cancellations. -/
def kernelTransport (promoteSecondaries : Bool) (now : Instant) :
    Handler (List DeviceObservation) IoCall IoAnswer
  | devices, .inventory => (.ok ⟨devices, []⟩, devices)
  | devices, .execute target kind => (.ok (), kernelApply promoteSecondaries target kind devices)
  | devices, .now => (now, devices)
  | devices, .cancelled => (false, devices)

variable {promoteSecondaries : Bool} {now : Instant} {devices devices' : List DeviceObservation}
  {tr : List IoEvent}

/-- The transport's traces are the kernel's. -/
theorem kernelTransport_admits
    (h : Admits (kernelTransport promoteSecondaries now).environment devices tr devices') :
    Admits (steadyKernel promoteSecondaries now) devices tr devices' := by
  refine (admits_mono (P := fun _ => True) ?_ trivial h).1
  intro before call answer after _ hanswer
  refine ⟨?_, trivial⟩
  cases call with
  | inventory =>
      rcases Prod.mk.inj hanswer with ⟨rfl, rfl⟩
      exact ⟨rfl, [], rfl⟩
  | execute target kind =>
      rcases Prod.mk.inj hanswer with ⟨rfl, rfl⟩
      exact ⟨rfl, rfl⟩
  | now =>
      rcases Prod.mk.inj hanswer with ⟨rfl, rfl⟩
      exact ⟨rfl, rfl⟩
  | cancelled =>
      rcases Prod.mk.inj hanswer with ⟨_, rfl⟩
      rfl

@[simp] theorem kernelWrite_addressesComplete {device : DeviceObservation} {kind : OperationKind} :
    (kernelWrite promoteSecondaries device kind).addressesComplete = device.addressesComplete := by
  cases kind <;> rfl

@[simp] theorem kernelWrite_observedAt {device : DeviceObservation} {kind : OperationKind} :
    (kernelWrite promoteSecondaries device kind).observedAt = device.observedAt := by
  cases kind <;> rfl

/-- Observed addresses are the kernel's own. -/
theorem reports_self (hcomplete : ∀ device ∈ devices, device.addressesComplete = true)
    (diagnostics : List Diagnostic) : Reports ⟨devices, diagnostics⟩ devices := by
  refine List.forall₂_same.mpr fun device hmem => ⟨rfl, hcomplete device hmem, ?_⟩
  exact List.forall₂_same.mpr fun entry _ => (Alike.refl entry).toSameAddress

/-- Where every inventory is complete, this kernel is one that might have
    failed. -/
theorem steadyKernel_admits (hcomplete : ∀ device ∈ devices, device.addressesComplete = true)
    (h : Admits (steadyKernel promoteSecondaries now) devices tr devices') :
    Admits kernel devices tr devices' := by
  refine (admits_mono (P := fun devices : List DeviceObservation =>
    ∀ device ∈ devices, device.addressesComplete = true) ?_ hcomplete h).1
  intro before call answer after hbefore hanswer
  cases call with
  | inventory =>
      rcases hanswer with ⟨rfl, diagnostics, rfl⟩
      refine ⟨⟨rfl, fun observation heq => ?_⟩, hbefore⟩
      rw [← Except.ok.inj heq]
      exact reports_self hbefore diagnostics
  | execute target kind =>
      rcases hanswer with ⟨rfl, rfl⟩
      refine ⟨Or.inr ⟨rfl, promoteSecondaries, rfl⟩, fun device hmem => ?_⟩
      rcases mem_of_mem_updateFirst hmem with hsame | ⟨written, hin, _, rfl⟩
      · exact hbefore device hsame
      · rw [kernelWrite_addressesComplete]
        exact hbefore written hin
  | now =>
      rcases hanswer with ⟨rfl, _⟩
      exact ⟨rfl, hbefore⟩
  | cancelled =>
      obtain rfl := hanswer
      exact ⟨rfl, hbefore⟩

/-- The address 192.0.2.2/24, as a secondary of 192.0.2.1/24. -/
def secondary : AddressObservation :=
  { primary with
    address := ⟨Ipv4Addr.new 192 0 2 2, 24, none, none⟩
    flags := ifaFPermanent ||| ifaFSecondary }

/-- The plan that removes the whole group, the primary first. -/
def groupRemovalPlan : StateDiff :=
  { changes := []
    operations := [
      { target := eth0
        kind := .removeIpv4 primary.address
        dependsOn := []
        addressGroup := some { addresses := [primary, secondary], observedAt := 0 } },
      { target := eth0
        kind := .removeIpv4 secondary.address
        dependsOn := [0]
        addressGroup := none }]
    diagnostics := [] }

end Netfyr
