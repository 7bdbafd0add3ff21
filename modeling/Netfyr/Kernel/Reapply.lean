import Netfyr.Executor.ExactlyOnce
import Netfyr.Kernel.Progress

/-!
# Applying a Plan Again

A plan that was applied with success has nothing left to do. The second run
finds every operation settled, its group as the fresh snapshot has it, and sends
nothing.

## Main definitions

* `refreshed`: An operation with a fresh snapshot as its precondition.
* `Undisturbed`: Nothing cancels a run, and no inventory fails.
* `Idle`: Rounds that found nothing to do.

## Theorems

* `validateGroup_refreshed`: A fresh snapshot passes.
* `check_done`: An operation that is done is skipped.
* `History.idle`: A run of operations that are done sends nothing.
* `reapply_noop`: Applying the plan again sends nothing.
-/

namespace Netfyr

open Interact

/-- An operation with a fresh snapshot as its precondition, when it is about an
    address. -/
def refreshed (now : Instant) (devices : List DeviceObservation) (op : Operation) : Operation :=
  if op.kind.ipv4Address.isSome then { op with addressGroup := snapshot now devices op } else op

/-- The same operations, each on an address with a fresh snapshot. -/
def StateDiff.refresh (self : StateDiff) (now : Instant) (devices : List DeviceObservation) :
    StateDiff :=
  { self with operations := self.operations.map (refreshed now devices) }

/-- The established groups are as they are on the devices. -/
def ExactGroups (namespaceId : NamespaceId) (now : Instant) (devices : List DeviceObservation)
    (groups : Groups) : Prop :=
  ∀ key expected, groups key = some expected → ∀ position device,
    Located ⟨devices, []⟩ key.target namespaceId position device →
      expected = { addresses := groupAddresses device key, observedAt := now }

/-- Nothing cancels, and no inventory fails. -/
def Undisturbed (tr : List IoEvent) : Prop :=
  (⟨.cancelled, true⟩ : IoEvent) ∉ tr ∧ ∀ e, (⟨.inventory, .error e⟩ : IoEvent) ∉ tr

/-- Rounds that found nothing to do, against a kernel with these devices. -/
structure Idle (namespaceId : NamespaceId) (now : Instant) (devices : List DeviceObservation)
    (h : List ExecRound) (s : Execution) (k : List DeviceObservation) : Prop where
  unchanged : k = devices
  current : ∀ observation, s.current = some observation → ShowsExactly observation devices
  groups : ExactGroups namespaceId now devices s.groups
  outcomes : ∀ r ∈ h, r.outcome = .skipped .alreadySatisfied ∨ r.outcome = .skipped .readOnly
  quiet : ∀ event ∈ callsOf h, isExecute event = false

variable {diff : StateDiff} {namespaceId : NamespaceId} {index : Nat} {op : Operation}
  {decoded : Option OperationKind} {observation : Observation} {groups : Groups}
  {eligible : List Bool} {position : Nat} {device : DeviceObservation} {kind : OperationKind}
  {addr : Ipv4Address} {promoteSecondaries : Bool} {now : Instant}
  {start devices devices' : List DeviceObservation} {tr : List IoEvent} {s s' : Execution}

section SecondRun

@[simp] theorem refreshed_kind : (refreshed now devices op).kind = op.kind := by
  unfold refreshed
  split <;> rfl

@[simp] theorem refreshed_target : (refreshed now devices op).target = op.target := by
  unfold refreshed
  split <;> rfl

@[simp] theorem refreshed_dependsOn : (refreshed now devices op).dependsOn = op.dependsOn := by
  unfold refreshed
  split <;> rfl

/-- An operation on an address is refreshed with the snapshot of its group. -/
theorem refreshed_addressGroup {key : GroupKey}
    (hlocated : Located ⟨devices, []⟩ op.target namespaceId position device)
    (haddr : op.kind.ipv4Address = some addr) (hkey : GroupKey.new op addr = .ok key) :
    (refreshed now devices op).addressGroup =
      some { addresses := groupAddresses device key, observedAt := now } := by
  have hexact : snapshot now devices op =
      some { addresses := groupAddresses device key, observedAt := now } :=
    snapshot_located hlocated haddr hkey
  unfold refreshed
  rw [if_pos (by rw [haddr]; rfl)]
  exact hexact

/-- An executable operation on an address has a group. -/
theorem groupKey_of_decode (op : Operation) (hdecode : decode op.kind .new = .ok (some kind))
    (haddr : kind.ipv4Address = some addr) : ∃ key, GroupKey.new op addr = .ok key := by
  rcases decode_group hdecode haddr with ⟨⟨network, prefixLen⟩, hgroup⟩
  exact ⟨{ target := op.target, network, prefixLen }, by simp only [GroupKey.new, hgroup]⟩

/-- A group matches itself while no time passes. -/
theorem groupMatches_self {key : GroupKey} :
    groupMatches { addresses := groupAddresses device key, observedAt := now }
      (groupAddresses device key) now = true := by
  rw [groupMatches_iff]
  refine List.forall₂_same.mpr fun entry _ => ?_
  simp only [Nat.sub_self]
  exact addressMatches_self entry

/-- The group check of a refreshed operation passes, and the groups stay exact. -/
theorem validateGroup_refreshed (hwell : WellFormed now devices)
    (hexact : ExactGroups namespaceId now devices groups)
    (hlocated : Located ⟨devices, []⟩ op.target namespaceId position device)
    (hdecode : decode op.kind .new = .ok (some kind)) :
    ∃ groups', validateGroup (refreshed now devices op) device kind groups = (.ok (), groups') ∧
      ExactGroups namespaceId now devices groups' := by
  cases haddr : kind.ipv4Address with
  | none =>
      refine ⟨groups, ?_, hexact⟩
      unfold validateGroup
      simp only [haddr]
  | some addr =>
      obtain rfl := decode_address hdecode haddr
      have hmem : device ∈ devices := List.mem_of_getElem? hlocated.atPosition
      have hnow := hwell.instant device hmem
      rcases groupKey_of_decode op hdecode haddr with ⟨key, hkey⟩
      have htarget : key.target = op.target := (GroupKey.contains_new hkey).2
      -- The precondition is what the device shows.
      have hgroupOf : (refreshed now devices op).addressGroup =
          some { addresses := groupAddresses device key, observedAt := now } :=
        refreshed_addressGroup hlocated haddr hkey
      have hkey' : GroupKey.new (refreshed now devices op) addr = .ok key := by
        rw [← hkey, GroupKey.new, GroupKey.new, refreshed_target]
      have hreaches : Reaches (refreshed now devices op) device addr key := by
        refine ⟨hwell.complete device hmem, hkey', fun precondition hpre entry hentry => ?_⟩
        rw [hgroupOf, Option.some.injEq] at hpre
        rw [← hpre] at hentry
        exact (List.mem_filter.mp hentry).2
      -- Established just now or earlier, the group is the device's.
      have hestablished : establish (refreshed now devices op) key groups key =
          some { addresses := groupAddresses device key, observedAt := now } := by
        rw [establish_same, hgroupOf]
        cases hold : groups key with
        | none => rfl
        | some expected =>
            have hthere := hexact key expected hold position device (htarget ▸ hlocated)
            rw [hthere]
            rfl
      refine ⟨establish (refreshed now devices op) key groups, ?_, ?_⟩
      · rcases validateGroup_cases device (refreshed now devices op) groups haddr with
          ⟨key', hreaches', heq⟩ | ⟨hnot, _⟩
        · obtain rfl : key' = key := Except.ok.inj (hreaches'.isKey.symm.trans hkey')
          rw [heq, hestablished, checkExpected, hnow, groupMatches_self, if_pos rfl]
        · exact absurd hreaches (hnot key)
      · -- The group that was established is exact, the others are as they were.
        intro key' expected hexpected position' device' hlocated'
        by_cases hsame : key' = key
        · subst hsame
          rw [htarget] at hlocated'
          rcases hlocated.unique hlocated' with ⟨rfl, rfl⟩
          exact Option.some.inj (hexpected.symm.trans hestablished)
        · rw [establish_of_ne hsame] at hexpected
          exact hexact key' expected hexpected position' device' hlocated'

/-- An operation that is done is skipped, and the groups stay exact. -/
theorem check_done (hwell : WellFormed now devices)
    (hexact : ExactGroups namespaceId now devices groups) (hdone : Done namespaceId devices op)
    (hshows : ShowsExactly observation devices) (hdecode : decode op.kind .new = .ok decoded) :
    ∃ reason groups', check diff namespaceId index (refreshed now devices op) decoded observation
        groups eligible = some (.ok (.skip reason), groups') ∧
      (reason = .alreadySatisfied ∨ reason = .readOnly) ∧
      ExactGroups namespaceId now devices groups' := by
  rcases hdone.settled with ⟨position, device, hlocated, hsettled⟩
  have hhere : Located observation op.target namespaceId position device :=
    hlocated.of_devices hshows.symm
  have hlocate : locate observation op.target namespaceId = .ok position :=
    locate_eq_ok.mpr ⟨device, hhere⟩
  unfold check
  rw [refreshed_target, hlocate]
  simp only [hhere.atPosition]
  cases decoded with
  | none => exact ⟨.readOnly, groups, rfl, Or.inr rfl, hexact⟩
  | some kind =>
      rcases validateGroup_refreshed hwell hexact hlocated hdecode with ⟨groups', hvalid, hexact'⟩
      have hsatisfied : satisfied kind device (refreshed now devices op) = .ok true := by
        -- What is settled is satisfied when the snapshot has no age.
        refine (hsettled kind hdecode).satisfied fun addr elapsed haddr hage => ?_
        obtain rfl := decode_address hdecode haddr
        have hnow := hwell.instant device (List.mem_of_getElem? hlocated.atPosition)
        rcases groupKey_of_decode op hdecode haddr with ⟨key, hkey⟩
        unfold preconditionAge at hage
        rw [refreshed_addressGroup hlocated haddr hkey] at hage
        simp only at hage
        split at hage
        · rw [← Option.some.inj hage, hnow]
          exact Nat.sub_self now
        · exact absurd hage (by simp)
      refine ⟨.alreadySatisfied, groups', ?_, Or.inl rfl, hexact'⟩
      simp only [hvalid, hsatisfied]

/-- An undisturbed step on an operation that is done finds nothing to do. -/
theorem Stepped.idle {r : Except BackendError (Option SkipReason)}
    (h : Stepped diff false namespaceId index (refreshed now devices op) s tr r s')
    (hadmits : Admits (instantKernel now) devices tr devices') (hundisturbed : Undisturbed tr)
    (hwell : WellFormed now devices) (hdone : Done namespaceId devices op)
    (hcurrent : ∀ observation, s.current = some observation → ShowsExactly observation devices)
    (hexact : ExactGroups namespaceId now devices s.groups) :
    (∃ reason, r = .ok (some reason) ∧ (reason = .alreadySatisfied ∨ reason = .readOnly)) ∧
      devices' = devices ∧
      (∀ observation, s'.current = some observation → ShowsExactly observation devices) ∧
      ExactGroups namespaceId now devices s'.groups ∧ ∀ event ∈ tr, isExecute event = false := by
  have hopened : ∀ {answer : Bool} {rest : List IoEvent},
      Admits (instantKernel now) devices (⟨.cancelled, answer⟩ :: rest) devices' →
        Admits (instantKernel now) devices rest devices' := by
    rintro answer rest ⟨_, hcancelled, hrest⟩
    obtain rfl := instantKernel_faithful.cancelled hcancelled
    exact hrest
  -- Whatever is observed, the verdict is to skip.
  have hskips : ∀ {t₁ t₂ : List IoEvent} {decoded : Option OperationKind}
      {observation : Observation} {verdict : Except BackendError Verdict} {groups : Groups}
      {s₁ : Execution}, Decided diff namespaceId index (refreshed now devices op) s t₁ decoded
        observation verdict groups s₁ → Admits (instantKernel now) devices (t₁ ++ t₂) devices' →
      ∃ reason, verdict = .ok (.skip reason) ∧ (reason = .alreadySatisfied ∨ reason = .readOnly) ∧
        Admits (instantKernel now) devices t₂ devices' ∧
        s₁.current = some observation ∧ ShowsExactly observation devices ∧
        ExactGroups namespaceId now devices groups := by
    intro t₁ t₂ decoded observation verdict groups s₁ hdecided hboth
    rcases admits_append.mp hboth with ⟨_, hobserved, hrest⟩
    rcases hdecided.faithful instantKernel_faithful hobserved hcurrent with
      ⟨hsame, hshows, hcached, hchecked⟩
    obtain rfl := hsame.symm
    have hdecode := hdecided.decode
    rw [refreshed_kind] at hdecode
    have hdoneChecked : ∃ reason groups', check diff namespaceId index (refreshed now devices op)
        decoded observation s.groups s.eligible = some (.ok (.skip reason), groups') ∧
        (reason = .alreadySatisfied ∨ reason = .readOnly) ∧
        ExactGroups namespaceId now devices groups' :=
      check_done hwell hexact hdone hshows hdecode
    rcases hdoneChecked with ⟨reason, groups', hskip, hreason, hexact'⟩
    rw [hchecked, Option.some.injEq, Prod.mk.injEq] at hskip
    exact ⟨reason, hskip.1, hreason, hrest, hcached, hshows, hskip.2 ▸ hexact'⟩
  cases h with
  -- Three ways to stop that the run is free of, and three verdicts that are not to skip.
  | cancelled => exact absurd List.mem_cons_self hundisturbed.1
  | undecoded hdecode =>
      rcases hdone.decodes with ⟨decoded, hdecoded⟩
      rw [refreshed_kind, hdecoded] at hdecode
      exact absurd hdecode (by simp)
  | unobserved _ _ =>
      exact absurd (List.mem_cons_of_mem _ List.mem_cons_self) (hundisturbed.2 _)
  | @refused t₁ _ _ _ _ _ hd =>
      have happend := hopened hadmits
      rw [← List.append_nil t₁] at happend
      rcases hskips hd happend with ⟨_, habs, _⟩
      exact absurd habs (by simp)
  | @skipped t₁ _ observation reason _ _ hd =>
      have happend := hopened hadmits
      rw [← List.append_nil t₁] at happend
      rcases hskips hd happend with ⟨reason', hskip, hreason, hrest, hcached, hshows, hexact'⟩
      obtain rfl : reason = reason' := by simpa using hskip
      refine ⟨⟨reason, rfl, hreason⟩, hrest, fun found hfound => ?_, hexact', ?_⟩
      · rw [← Option.some.inj (hcached.symm.trans hfound)]
        exact hshows
      · intro event hmem
        rcases List.mem_cons.mp hmem with rfl | hmem
        · rfl
        · exact hd.observed.quiet event hmem
  | projected hmode _ => exact absurd hmode Bool.false_ne_true
  | unwritten _ hd _ =>
      rcases hskips hd (hopened hadmits) with ⟨_, habs, _⟩
      exact absurd habs (by simp)
  | written _ hd _ =>
      rcases hskips hd (hopened hadmits) with ⟨_, habs, _⟩
      exact absurd habs (by simp)

theorem refresh_operations {i : Nat} (hop : (diff.refresh now devices).operations[i]? = some op) :
    ∃ old, diff.operations[i]? = some old ∧ op = refreshed now devices old := by
  have hmap : (diff.operations.map (refreshed now devices))[i]? = some op := hop
  rw [List.getElem?_map] at hmap
  rcases Option.map_eq_some_iff.mp hmap with ⟨old, hold, hnew⟩
  exact ⟨old, hold, hnew.symm⟩

/-- Undisturbed rounds on operations that are done find nothing to do. -/
theorem History.idle {h : List ExecRound} (hwell : WellFormed now devices)
    (hdone : ∀ op ∈ diff.operations, Done namespaceId devices op)
    (hearlier : ∀ (i : Nat) (op : Operation), diff.operations[i]? = some op →
      ∀ dependency ∈ op.dependsOn, dependency < i)
    (hr : History (diff.refresh now devices) false namespaceId h s)
    (hadmits : Admits (instantKernel now) devices (callsOf h) devices')
    (hundisturbed : Undisturbed (callsOf h)) : Idle namespaceId now devices h s devices' := by
  refine Rounds.admitted (P := fun h s k => Undisturbed (callsOf h) →
    Idle namespaceId now devices h s k) ?_ ?_ hr hadmits hundisturbed
  · intro _
    refine ⟨rfl, fun observation hc => absurd hc (by simp [Execution.start]), ?_,
      fun r hmem => absurd hmem List.not_mem_nil, fun event hmem => absurd hmem List.not_mem_nil⟩
    intro key expected hexpected
    exact absurd hexpected (by simp [Execution.start])
  · intro h s s' op tr outcome k k' hr hidle hop hrun hcalls hquiet
    rw [callsOf_append, callsOf_singleton] at hquiet
    have hbefore := hidle ⟨fun hmem => hquiet.1 (List.mem_append_left _ hmem),
      fun e hmem => hquiet.2 e (List.mem_append_left _ hmem)⟩
    have hround : Undisturbed tr := ⟨fun hmem => hquiet.1 (List.mem_append_right _ hmem),
      fun e hmem => hquiet.2 e (List.mem_append_right _ hmem)⟩
    obtain rfl := hbefore.unchanged
    rcases refresh_operations hop with ⟨old, hold, rfl⟩
    have hready : ∀ dependency ∈ (refreshed now k old).dependsOn, dependency < h.length := by
      rw [refreshed_dependsOn]
      exact hearlier h.length old hold
    have hran := runOperation_cases hrun
    cases hran with
    -- The first run has shown that dependencies are earlier.
    | malformed hmalformed =>
        rcases hmalformed with ⟨dependency, hmem, hle⟩
        have hlt := hready dependency hmem
        omega
    | blocked _ hblocked hne =>
        -- Every earlier operation was skipped, which lets its dependents run.
        have heligible : blockedBy s.eligible (refreshed now k old) =
            some ((refreshed now k old).dependsOn.filter fun _ => false) := by
          unfold blockedBy
          refine Checked.filterChecked_eq_some fun dependency hmem => ?_
          have hlt := hready dependency hmem
          have hentry : h[dependency]? = some h[dependency] := List.getElem?_eq_getElem hlt
          rw [History.eligible_getElem hr hentry, Option.map_some]
          rcases hbefore.outcomes _ (List.getElem_mem hlt) with hskip | hskip <;> rw [hskip] <;> rfl
        rw [heligible, Option.some.injEq, List.filter_false] at hblocked
        exact absurd hblocked.symm hne
    | @stepped _ result s₁ _ _ hstep =>
        have hstepped : Stepped (diff.refresh now k) false namespaceId h.length
            (refreshed now k old) s tr result s₁ := step_cases hstep
        rcases hstepped.idle hcalls hround hwell (hdone old (List.mem_of_getElem? hold))
          hbefore.current hbefore.groups with
          ⟨⟨reason, rfl, hreason⟩, rfl, hcurrent, hgroups, hsent⟩
        refine ⟨rfl, hcurrent, hgroups, fun r hmem => ?_, fun event hmem => ?_⟩
        · rcases List.mem_append.mp hmem with hold | hlast
          · exact hbefore.outcomes r hold
          · rw [List.mem_singleton.mp hlast]
            rcases hreason with rfl | rfl
            · exact Or.inl rfl
            · exact Or.inr rfl
        · rw [callsOf_append, callsOf_singleton] at hmem
          rcases List.mem_append.mp hmem with hold | hlast
          · exact hbefore.quiet event hold
          · exact hsent event hlast

/-- Applying a plan again is a no-op: when nobody else writes, no time passes, no
    two operations assign the same slot and preconditions are exact, a plan that
    was applied with success can be applied again with fresh snapshots, and then
    nothing is sent and every operation is skipped with nothing to do. -/
theorem reapply_noop {tr' : List IoEvent} {report report' : ApplyReport}
    {after : List DeviceObservation} (hstart : WellFormed now start) (hexclusive : Exclusive diff)
    (hsnapshots : SnapshotsOf now start diff)
    (hrun : (applyPlan diff namespaceId).Runs tr report)
    (hadmits : Admits (instantKernel now) start tr devices)
    (hsuccess : report.isSuccess = true)
    (hrun' : (applyPlan (diff.refresh now devices) namespaceId).Runs tr' report')
    (hadmits' : Admits (instantKernel now) devices tr' after) (hundisturbed : Undisturbed tr') :
    (∀ target kind answer, (⟨.execute target kind, answer⟩ : IoEvent) ∉ tr') ∧
      ∀ i < diff.operations.length,
        report'.ReportsAt (diff.refresh now devices) i (.skipped .alreadySatisfied) ∨
          report'.ReportsAt (diff.refresh now devices) i (.skipped .readOnly) := by
  rcases run_history hrun with ⟨h, hr⟩
  rcases run_history hrun' with ⟨h', hr'⟩
  rcases hr.history with ⟨s, hs, _⟩
  rcases hr'.history with ⟨s', hs', _⟩
  -- A report of success has every operation succeed, or find nothing to do.
  have heligible : ∀ i op r, RoundAt diff false namespaceId h i op r →
      r.outcome.isEligible = true := fun i op r hat =>
    ApplyReport.isSuccess_iff.mp hsuccess _ _ (hr.reports_iff.mpr ⟨i, op, r, hat, rfl, rfl⟩)
  have hprogress : Progress diff namespaceId now start diff.operations.length devices := by
    refine apply_done hexclusive hstart hsnapshots hr hadmits fun r hmem => ?_
    rcases List.getElem?_of_mem hmem with ⟨i, hi⟩
    rcases hs.roundAt hi with ⟨op, hat⟩
    exact heligible i op r hat
  have hdone : ∀ op ∈ diff.operations, Done namespaceId devices op := by
    intro op hmem
    rcases List.getElem?_of_mem hmem with ⟨i, hop⟩
    exact hprogress.done i op (List.getElem?_eq_some_iff.mp hop).choose hop
  have hearlier : ∀ (i : Nat) (op : Operation), diff.operations[i]? = some op →
      ∀ dependency ∈ op.dependsOn, dependency < i := by
    intro i op hop
    rcases hr.roundAt hop with ⟨⟨before, calls, outcome, after⟩, hat⟩
    have hlets := heligible i op _ hat
    have hran := hat.ran
    cases hran with
    | malformed _ => exact absurd hlets Bool.false_ne_true
    | blocked _ _ _ => exact absurd hlets Bool.false_ne_true
    | stepped hready _ _ => exact hready
  rw [hr'.trace] at hadmits' hundisturbed
  have hidle := hs'.idle hprogress.wellFormed hdone hearlier hadmits' hundisturbed
  refine ⟨fun target kind answer hmem => ?_, fun i hi => ?_⟩
  · rw [hr'.trace] at hmem
    exact absurd (hidle.quiet _ hmem) (by simp [isExecute])
  · have hop : (diff.refresh now devices).operations[i]? =
        some (refreshed now devices diff.operations[i]) := by
      have hmap : (diff.operations.map (refreshed now devices))[i]? =
          some (refreshed now devices diff.operations[i]) := by
        rw [List.getElem?_map, List.getElem?_eq_getElem hi, Option.map_some]
      exact hmap
    rcases hr'.roundAt hop with ⟨r, hat⟩
    rcases hidle.outcomes r (List.mem_of_getElem? hat.round) with hskip | hskip
    · exact Or.inl ((hr'.reportsAt_iff hat).mpr hskip)
    · exact Or.inr ((hr'.reportsAt_iff hat).mpr hskip)

end SecondRun

theorem Undisturbed.cons {event : IoEvent} (h : Undisturbed tr)
    (hcancelled : event ≠ ⟨.cancelled, true⟩) (hobserved : ∀ e, event ≠ ⟨.inventory, .error e⟩) :
    Undisturbed (event :: tr) := by
  refine ⟨fun hmem => ?_, fun e hmem => ?_⟩
  · rcases List.mem_cons.mp hmem with heq | hmem
    · exact hcancelled heq.symm
    · exact h.1 hmem
  · rcases List.mem_cons.mp hmem with heq | hmem
    · exact hobserved e heq.symm
    · exact h.2 e hmem

/-- The transport's traces are this kernel's, and nothing disturbs them. -/
theorem kernelTransport_undisturbed
    (h : Admits (kernelTransport promoteSecondaries now).environment devices tr devices') :
    Admits (instantKernel now) devices tr devices' ∧ Undisturbed tr := by
  induction tr generalizing devices with
  | nil => exact ⟨h, List.not_mem_nil, fun _ => List.not_mem_nil⟩
  | cons event tr ih =>
      rcases h with ⟨next, hanswer, hrest⟩
      rcases ih hrest with ⟨hadmits, hundisturbed⟩
      rcases event with ⟨call, answer⟩
      cases call with
      | inventory =>
          rcases Prod.mk.inj hanswer with ⟨rfl, rfl⟩
          refine ⟨⟨_, ⟨rfl, fun observation heq => ?_⟩, hadmits⟩,
            hundisturbed.cons (by simp) (by simp)⟩
          rw [← Except.ok.inj heq]
      | execute target kind =>
          rcases Prod.mk.inj hanswer with ⟨rfl, rfl⟩
          exact ⟨⟨_, Or.inr ⟨rfl, promoteSecondaries, rfl⟩, hadmits⟩,
            hundisturbed.cons (by simp) (by simp)⟩
      | now =>
          rcases Prod.mk.inj hanswer with ⟨rfl, rfl⟩
          exact ⟨⟨_, ⟨rfl, rfl⟩, hadmits⟩, hundisturbed.cons (by simp) (by simp)⟩
      | cancelled =>
          rcases Prod.mk.inj hanswer with ⟨hcancelled, rfl⟩
          obtain rfl : false = answer := hcancelled
          exact ⟨⟨_, rfl, hadmits⟩, hundisturbed.cons (by simp) (by simp)⟩

/-- The group's removal, which leaves nothing, applied again. -/
theorem reapply_noop_group : ∃ devices tr report,
    (applyPlan (groupRemovalPlan.refresh 0 devices) eth0.namespaceId).Runs tr report ∧
      (∀ target kind answer, (⟨.execute target kind, answer⟩ : IoEvent) ∉ tr) ∧
      ∀ i < 2,
        report.ReportsAt (groupRemovalPlan.refresh 0 devices) i (.skipped .alreadySatisfied) ∨
        report.ReportsAt (groupRemovalPlan.refresh 0 devices) i (.skipped .readOnly) := by
  rcases run_executes groupRemovalPlan false eth0.namespaceId (kernelTransport true 0)
      [eth0Device [primary, secondary]] with ⟨report, devices, tr, hx, hrun, hadmits⟩
  rcases run_executes (groupRemovalPlan.refresh 0 devices) false eth0.namespaceId
      (kernelTransport true 0) devices with ⟨report', after, tr', _, hrun', hadmits'⟩
  have hsuccess : ((run groupRemovalPlan false eth0.namespaceId).exec (kernelTransport true 0)
      [eth0Device [primary, secondary]]).map (fun out => out.1.isSuccess) = some true := by decide
  rw [hx, Option.map_some, Option.some.injEq] at hsuccess
  have hwell : WellFormed 0 [eth0Device [primary, secondary]] :=
    ⟨by decide, by decide, by decide⟩
  have hsnapshots : SnapshotsOf 0 [eth0Device [primary, secondary]] groupRemovalPlan := by
    unfold SnapshotsOf
    decide
  exact ⟨devices, tr', report', hrun', reapply_noop hwell (by decide) hsnapshots hrun
    (kernelTransport_undisturbed hadmits).1 hsuccess hrun' (kernelTransport_undisturbed hadmits').1
    (kernelTransport_undisturbed hadmits').2⟩

end Netfyr
