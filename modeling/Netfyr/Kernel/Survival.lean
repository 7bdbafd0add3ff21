import Netfyr.Executor.Acted
import Netfyr.Executor.Cascade
import Netfyr.Executor.View
import Netfyr.Kernel.Transport

/-!
# No Unplanned Address Loss

The executor against a kernel that answers as it likes: an inventory may fail, a
write may be refused, and whether secondaries are promoted or deleted with their
primary is settled anew at each removal. What the executor removes is named by
the plan, and so is everything the kernel takes with it.

A removal is decided on the cached observation, so the argument needs that this
reports the kernel's state at that time. It does, because nobody else writes and
every write drops it.

## Main definitions

* `Keeps`: A device keeps the addresses no removal names.

## Theorems

* `DecidedWrite.keeps`: What a write that was decided on takes is named.
* `Acted.keepsAll`: What a step does to the kernel keeps the others.
* `apply_keeps`: No run loses an address that no removal names.
-/

namespace Netfyr

open Interact

/-- A device keeps the addresses that no removal of the plan names for it. -/
structure Keeps (diff : StateDiff) (device device' : DeviceObservation) : Prop where
  identity : device'.identity = device.identity
  addresses : ∀ addr, hasAddress device addr = true → ¬ Named diff device.identity addr →
    hasAddress device' addr = true

theorem Keeps.refl (diff : StateDiff) (device : DeviceObservation) : Keeps diff device device :=
  ⟨rfl, fun _ h _ => h⟩

theorem Keeps.trans {diff : StateDiff} {a b c : DeviceObservation} (h₁ : Keeps diff a b)
    (h₂ : Keeps diff b c) : Keeps diff a c :=
  ⟨h₂.identity.trans h₁.identity, fun addr hhas hnot =>
    h₂.addresses addr (h₁.addresses addr hhas hnot) (by rwa [h₁.identity])⟩

/-- The devices keep the addresses that no removal names, one by one. -/
abbrev KeepsAll (diff : StateDiff) : List DeviceObservation → List DeviceObservation → Prop :=
  List.Forall₂ (Keeps diff)

theorem KeepsAll.trans {diff : StateDiff} {a b c : List DeviceObservation}
    (h₁ : KeepsAll diff a b) (h₂ : KeepsAll diff b c) : KeepsAll diff a c :=
  forall₂_comp h₁ h₂ fun _ _ _ => Keeps.trans

variable {diff : StateDiff} {namespaceId : NamespaceId} {index : Nat} {op : Operation}

/-- A removal that was decided on takes only addresses that the plan names. -/
theorem DecidedWrite.keeps_removed {observation : Observation} {groups groups' : Groups}
    {eligible : List Bool} {position : Nat} {seen device : DeviceObservation}
    {addr : Ipv4Address} {decoded : Option OperationKind} (promoteSecondaries : Bool)
    (h : DecidedWrite diff namespaceId index op decoded observation groups groups' eligible position
      seen (.removeIpv4 addr)) (hop : op ∈ diff.operations) (hkind : op.kind = .removeIpv4 addr)
    (hshows : Shows seen device) :
    Keeps diff device (kernelWrite promoteSecondaries device (.removeIpv4 addr)) := by
  have htarget : device.identity = op.target := hshows.identity.symm.trans h.located.isTarget
  have hnamed : Named diff device.identity addr := by
    refine ⟨op, hop, ?_⟩
    rw [removesAddress, htarget, beq_self_eq_true, hkind]
    exact Ipv4Address.sameIdentity_refl addr
  refine ⟨kernelWrite_identity, fun other hhas hnot => ?_⟩
  rcases hasAddress_iff.mp hhas with ⟨entry, hmem, hid⟩
  have hother : entry.address.sameIdentity addr = false := by
    rw [← Bool.not_eq_true]
    intro hsame
    exact hnot (hnamed.congr
      (Ipv4Address.sameIdentity_trans (Ipv4Address.sameIdentity_symm hsame) hid))
  have hstays : ∀ primary, device.addresses.find? (fun entry =>
      entry.address.sameIdentity addr && !entry.isSecondary) = some primary →
      entry.cascadesWith primary = false := by
    intro primary hprimary
    rw [← Bool.not_eq_true]
    intro hcascades
    -- The check saw the same primary and the same secondary.
    rcases find?_forall₂ hshows.addresses (p := fun entry =>
        entry.address.sameIdentity addr && !entry.isSecondary) (q := fun entry =>
        entry.address.sameIdentity addr && !entry.isSecondary)
        (fun a b hab => by rw [hab.sameIdentity, hab.isSecondary]) with
      ⟨_, hnone⟩ | ⟨seenPrimary, _, hseen, hfound, hsame⟩
    · exact absurd (hnone.symm.trans hprimary) (by simp)
    obtain rfl := Option.some.inj (hfound.symm.trans hprimary)
    rcases exists_of_forall₂ hshows.addresses.flip hmem with ⟨seenEntry, hin, hentry⟩
    have hcovered := (checkCascade_ok h.cascade hseen hin
      (by rw [hentry.cascadesWith hsame, hcascades])).2
    rw [hshows.identity] at hcovered
    exact hnot ((named_of_covered hcovered).congr
      (Ipv4Address.sameIdentity_trans hentry.identity hid))
  have hleft : hasAddress (kernelWrite promoteSecondaries device (.removeIpv4 addr))
      entry.address = true := hasAddress_kernelRemove hmem hother hstays
  rcases hasAddress_iff.mp hleft with ⟨left, hin, hsame⟩
  exact hasAddress_iff.mpr ⟨left, hin, Ipv4Address.sameIdentity_trans hsame hid⟩

/-- A write that was decided on takes only addresses that the plan names. -/
theorem DecidedWrite.keeps {observation : Observation} {groups groups' : Groups}
    {eligible : List Bool} {position : Nat} {seen device : DeviceObservation}
    {kind : OperationKind} (promoteSecondaries : Bool)
    (h : DecidedWrite diff namespaceId index op (some kind) observation groups groups' eligible
      position seen kind) (hop : op ∈ diff.operations)
    (hdecode : decode op.kind .new = .ok (some kind)) (hshows : Shows seen device) :
    Keeps diff device (kernelWrite promoteSecondaries device kind) := by
  by_cases hremove : ∃ addr, kind = .removeIpv4 addr
  · rcases hremove with ⟨addr, rfl⟩
    exact h.keeps_removed promoteSecondaries hop (decode_removeIpv4 hdecode) hshows
  · have hkind : ∀ addr, kind ≠ .removeIpv4 addr := fun addr heq => hremove ⟨addr, heq⟩
    have hproject : kernelWrite promoteSecondaries device kind = project device kind := by
      cases kind with
      | removeIpv4 addr => exact absurd rfl (hkind addr)
      | setMtu _ => rfl
      | setEnabled _ => rfl
      | addIpv4 _ => rfl
      | replaceIpv4 _ => rfl
      | setField _ _ => rfl
      | addEntity => rfl
      | removeEntity => rfl
    rw [hproject]
    exact ⟨project_identity, fun addr hhas _ => hasAddress_project hkind hhas⟩

variable {start devices devices' : List DeviceObservation}

/-- An accepted write to a located target takes only addresses the plan names. -/
theorem DecidedWrite.keepsAll {observation : Observation} {groups groups' : Groups}
    {eligible : List Bool} {position : Nat} {seen : DeviceObservation} {kind : OperationKind}
    (promoteSecondaries : Bool)
    (h : DecidedWrite diff namespaceId index op (some kind) observation groups groups' eligible
      position seen kind) (hop : op ∈ diff.operations)
    (hdecode : decode op.kind .new = .ok (some kind)) (hreports : Reports observation devices) :
    KeepsAll diff devices (kernelApply promoteSecondaries op.target kind devices) := by
  rcases h.located.shows hreports with ⟨device, hfirst, hat, hshows⟩
  rw [kernelApply, updateFirst_eq_set hfirst hat]
  exact set_forall₂_self (Keeps.refl diff) hat
    (h.keeps promoteSecondaries hop hdecode hshows)

/-- Nothing but a write changes this kernel. -/
theorem kernel_faithful : Faithful kernel Reports :=
  ⟨fun hanswer => hanswer, fun hanswer => hanswer, fun hanswer => hanswer⟩

/-- What a step does to the kernel takes only addresses the plan names. -/
theorem Acted.keepsAll {s : Execution} {r : Except BackendError (Option SkipReason)}
    (h : Acted kernel Reports diff namespaceId index op s devices r devices')
    (hop : op ∈ diff.operations) : KeepsAll diff devices devices' := by
  have hrefl : KeepsAll diff devices devices :=
    List.forall₂_same.mpr fun device _ => Keeps.refl diff device
  cases h with
  | failed _ => exact hrefl
  | skipped _ _ _ => exact hrefl
  | executed hreports hdecode hdecided hsent _ _ =>
      rcases hsent with ⟨_, _, rfl⟩ | ⟨_, promoteSecondaries, rfl⟩
      · exact hrefl
      · exact hdecided.keepsAll promoteSecondaries hop hdecode hreports

/-- No history loses an address that no removal of the plan names. -/
theorem History.keepsAll {h : List ExecRound} {s : Execution}
    (hr : History diff false namespaceId h s) (hadmits : Admits kernel start (callsOf h) devices) :
    KeepsAll diff start devices := by
  refine (hr.acted kernel_faithful (P := fun _ devices => KeepsAll diff start devices) ?_ ?_
    hadmits).1
  · exact List.forall₂_same.mpr fun device _ => Keeps.refl diff device
  · intro h s s' op tr outcome before after _ _ hkeeps hop hacted
    rcases hacted with ⟨rfl, _⟩ | ⟨r, _, hacted⟩
    · exact hkeeps
    · exact hkeeps.trans (hacted.keepsAll (List.mem_of_getElem? hop))

/-- No run against such a kernel loses an address that no removal of the plan
    names: every device is still there, with every such address. -/
theorem apply_keeps {tr : List IoEvent} {report : ApplyReport}
    (hrun : (applyPlan diff namespaceId).Runs tr report)
    (hadmits : Admits kernel start tr devices) :
    List.Forall₂ (fun device device' => device'.identity = device.identity ∧
      ∀ entry ∈ device.addresses, ¬ Named diff device.identity entry.address →
        hasAddress device' entry.address = true) start devices := by
  rcases run_history hrun with ⟨h, hr⟩
  rcases hr.history with ⟨s, hs, _⟩
  rw [hr.trace] at hadmits
  refine (hs.keepsAll hadmits).imp fun device device' hkeeps => ?_
  refine ⟨hkeeps.identity, fun entry hmem hnot => hkeeps.addresses _ ?_ hnot⟩
  exact hasAddress_iff.mpr ⟨entry, hmem, Ipv4Address.sameIdentity_refl _⟩

theorem apply_keeps_bystander : ∃ tr report device,
    (applyPlan groupRemovalPlan eth0.namespaceId).Runs tr report ∧ 0 < tr.countP isExecute ∧
      Admits kernel [eth0Device [primary, secondary, bystander]] tr [device] ∧
      hasAddress device bystander.address = true := by
  rcases run_executes groupRemovalPlan false eth0.namespaceId (kernelTransport true 0)
      [eth0Device [primary, secondary, bystander]] with ⟨report, devices, tr, hx, hrun, hsteady⟩
  have hcount : ((run groupRemovalPlan false eth0.namespaceId).exec (kernelTransport true 0)
      [eth0Device [primary, secondary, bystander]]).map (fun out => out.2.2.countP isExecute) =
        some 2 := by decide
  rw [hx, Option.map_some, Option.some.injEq] at hcount
  have hadmits := steadyKernel_admits (by decide) (kernelTransport_admits hsteady)
  have hkeeps := apply_keeps hrun hadmits
  rcases List.forall₂_cons_left_iff.mp hkeeps with ⟨device, _, ⟨_, hstays⟩, hnil, rfl⟩
  obtain rfl := List.forall₂_nil_left_iff.mp hnil
  exact ⟨tr, report, device, hrun, by rw [hcount]; decide, hadmits,
    hstays bystander (by decide) (by decide)⟩

end Netfyr
