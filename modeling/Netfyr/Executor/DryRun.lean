import Netfyr.Executor.Agree
import Netfyr.Executor.Ideal
import Netfyr.Executor.Reported

/-!
# A Dry Run Foretells the Run

Against a transport that does as predicted, at one instant, a preview and the run
it previews go the same way. The preview threads one observation through the
plan, projecting each write onto it; the run writes, asks again and keeps what it
sees. What the preview knows and what the transport holds are two records of one
state, and `Agree` says what the two have in common of the groups. The relation
`InStep` is kept by every operation, and operations that start in step have the
same outcome.

## Main definitions

* `decision`: What a step decides on a view.
* `Went`: How a step goes on from its decision.
* `InStep`: The relation between the two runs.
* `DryRunReport.PlansAt`, `DryRunReport.FailsAt`: What a dry run says.

## Theorems

* `Stepped.previewed`, `Stepped.applied`: A step of each run, by its decision.
* `InStep.stepped`: The runs stay in step.
* `run_outcomes`: They have the same outcomes.
* `preview_foretells`: The two reports say the same.
-/

namespace Netfyr

open Interact

/-- What a step decides on a view. -/
def decision (diff : StateDiff) (namespaceId : NamespaceId) (index : Nat) (op : Operation)
    (observation : Observation) (groups : Groups) (eligible : List Bool) :
    Option (Except BackendError Verdict × Groups) :=
  match decode op.kind .new with
  | .error e => some (.error e, groups)
  | .ok decoded => check diff namespaceId index op decoded observation groups eligible

/-- How a step goes on from its decision, when a write leaves the device as
    `write` says: the result, and the view and the groups afterwards. -/
inductive Went (namespaceId : NamespaceId) (op : Operation)
    (write : DeviceObservation → OperationKind → DeviceObservation) (observation : Observation)
    (groups : Groups) : Except BackendError Verdict →
    Except BackendError (Option SkipReason) → Observation → Groups → Prop where
  | refused (e : BackendError) :
      Went namespaceId op write observation groups (.error e) (.error e) observation groups
  | skipped (reason : SkipReason) :
      Went namespaceId op write observation groups (.ok (.skip reason)) (.ok (some reason))
        observation groups
  | written {position : Nat} {device : DeviceObservation} {kind : OperationKind}
      {key : Option GroupKey} : Located observation op.target namespaceId position device →
      groupKey op kind = .ok key →
      Went namespaceId op write observation groups (.ok (.write position device kind)) (.ok none)
        (observation.written position (write device kind))
        (updateGroups groups key (write device kind))

variable {diff : StateDiff} {namespaceId : NamespaceId} {index : Nat} {op : Operation}
  {now : Instant} {s s' : Execution} {k k' : Observation} {tr : List IoEvent}
  {r : Except BackendError (Option SkipReason)}

/-- On this transport observing shows what is known, or the state. -/
theorem Observed.ideal {observation : Observation} (h : Observed s tr observation s')
    (hadmits : Admits (idealTransport now).environment k tr k') :
    k' = k ∧ observation = s.current.getD k ∧ s'.current = some observation ∧
      s'.groups = s.groups := by
  cases h with
  | cached hc =>
      obtain rfl : k' = k := hadmits
      exact ⟨rfl, by rw [hc, Option.getD_some], hc, rfl⟩
  | fetched hc =>
      rcases hadmits with ⟨_, hanswer, rfl⟩
      rcases Prod.mk.inj hanswer with ⟨hshown, rfl⟩
      obtain rfl := Except.ok.inj hshown
      exact ⟨rfl, by rw [hc, Option.getD_none], rfl, rfl⟩

/-- A decided step decided on what is known, or on the state. -/
theorem Decided.ideal {decoded : Option OperationKind} {observation : Observation}
    {verdict : Except BackendError Verdict} {groups : Groups}
    (h : Decided diff namespaceId index op s tr decoded observation verdict groups s')
    (hadmits : Admits (idealTransport now).environment k tr k') :
    k' = k ∧ observation = s.current.getD k ∧ s'.current = some observation ∧
      decision diff namespaceId index op observation s.groups s.eligible =
        some (verdict, groups) := by
  rcases h.observed.ideal hadmits with ⟨hsame, hknown, hcurrent, hgroups⟩
  refine ⟨hsame, hknown, hcurrent, ?_⟩
  unfold decision
  rw [h.decode]
  have hchecked := h.checked
  rwa [hgroups, h.observed.eligible] at hchecked

/-- The groups after a write has been accounted for. -/
theorem Execution.committed_groups {device predicted : DeviceObservation} {kind : OperationKind}
    {key : Option GroupKey} (hkey : groupKey op kind = .ok key) :
    (s.committed op device kind predicted).groups = updateGroups s.groups key predicted := by
  unfold Execution.committed
  rw [hkey]

/-- The cancellation check at the head of a step is answered in the negative. -/
theorem admits_uncancelled {answer : Bool} {rest : List IoEvent}
    (h : Admits (idealTransport now).environment k (⟨.cancelled, answer⟩ :: rest) k') :
    answer = false ∧ Admits (idealTransport now).environment k rest k' := by
  rcases h with ⟨_, hanswer, hrest⟩
  rcases Prod.mk.inj hanswer with ⟨rfl, rfl⟩
  exact ⟨rfl, hrest⟩

/-- A step of a preview leaves the transport alone, and goes on from its decision
    by predicting. -/
theorem Stepped.previewed (h : Stepped diff true namespaceId index op s tr r s')
    (hadmits : Admits (idealTransport now).environment k tr k') :
    k' = k ∧ ∃ verdict groups,
      decision diff namespaceId index op (s.current.getD k) s.groups s.eligible =
        some (verdict, groups) ∧
      Went namespaceId op (predict · · now) (s.current.getD k) groups verdict r
        (s'.current.getD k) s'.groups := by
  cases h with
  -- The transport is never cancelled, and its inventory never fails.
  | cancelled => exact absurd (admits_uncancelled hadmits).1 (by decide)
  | undecoded hdecode =>
      obtain rfl : k' = k := (admits_uncancelled hadmits).2
      exact ⟨rfl, _, _, by rw [decision, hdecode], .refused _⟩
  | unobserved _ _ =>
      rcases (admits_uncancelled hadmits).2 with ⟨_, hanswer, _⟩
      exact absurd (congrArg Prod.fst hanswer) (by simp [idealTransport])
  | refused hd =>
      rcases hd.ideal (admits_uncancelled hadmits).2 with ⟨rfl, rfl, hcurrent, hdecision⟩
      rw [hcurrent]
      exact ⟨rfl, _, _, hdecision, .refused _⟩
  | skipped hd =>
      rcases hd.ideal (admits_uncancelled hadmits).2 with ⟨rfl, rfl, hcurrent, hdecision⟩
      rw [hcurrent]
      exact ⟨rfl, _, _, hdecision, .skipped _⟩
  | @projected trObserve decoded observation position device kind groups s₁ clock _ hd =>
      rcases admits_append.mp (admits_uncancelled hadmits).2 with ⟨u, hobserve, v, hclock, hend⟩
      rcases hd.ideal hobserve with ⟨hsame, rfl, hcurrent, hdecision⟩
      obtain rfl : k = u := hsame.symm
      rcases Prod.mk.inj hclock with ⟨rfl, hsame⟩
      obtain rfl : k = k' := hsame.trans hend.symm
      have hdecided := check_write hd.checked
      rcases hdecided.groupKey with ⟨key, hkey⟩
      refine ⟨rfl, _, _, hdecision, ?_⟩
      -- The preview knows the observation it decided on, and writes its prediction into it.
      have hview : ((({ s₁ with groups } : Execution).projected position
          (predict device kind now)).committed op device kind (predict device kind now)).current =
          some ((s.current.getD k).written position (predict device kind now)) := by
        have hmapped := congrArg (Option.map fun observation : Observation =>
          observation.written position (predict device kind now)) hcurrent
        exact hmapped
      rw [hview, Execution.committed_groups hkey]
      exact .written hdecided.located hkey
  | unwritten hmode _ _ => exact absurd hmode (by decide)
  | written hmode _ _ => exact absurd hmode (by decide)

/-- A write sends its target's device to where `project` says. -/
theorem projectOnto_eq {device : DeviceObservation} {position : Nat} {kind : OperationKind}
    (h : Located k op.target namespaceId position device) :
    projectOnto k op.target kind = k.written position (project device kind) := by
  unfold projectOnto Observation.written
  rw [updateFirst_eq_set h.isFirst h.atPosition]

/-- An acknowledged address write is confirmed on this transport. -/
theorem DecidedWrite.confirmed_ideal {decoded : Option OperationKind} {groups groups' : Groups}
    {eligible : List Bool} {position : Nat} {device : DeviceObservation} {kind : OperationKind}
    {addr : Ipv4Address} (eligible' : List Bool)
    (h : DecidedWrite diff namespaceId index op decoded k groups groups' eligible position device
      kind) (haddr : kind.ipv4Address = some addr) (hnow : device.observedAt = now) :
    verifyObservation diff namespaceId index op kind addr (predict device kind now)
      (projectOnto k op.target kind) eligible' = some (.ok (project device kind)) := by
  rw [projectOnto_eq h.located]
  exact h.confirmed haddr hnow (h.located.written project_identity) (AlikeDevice.refl _)

/-- On this transport a write that was decided on goes through: the state is
    written, what is known is the state, and its own group is what was written. -/
theorem Wrote.ideal {decoded : Option OperationKind} {groups groups' : Groups}
    {eligible : List Bool} {position : Nat} {device : DeviceObservation} {kind : OperationKind}
    {key : Option GroupKey} {result : Except BackendError DeviceObservation}
    (h : Wrote diff namespaceId index op device kind s tr result s')
    (hdecided : DecidedWrite diff namespaceId index op decoded k groups groups' eligible position
      device kind) (hkey : groupKey op kind = .ok key) (hnow : device.observedAt = now)
    (hadmits : Admits (idealTransport now).environment k tr k') :
    ∃ predicted, result = .ok predicted ∧ k' = k.written position (project device kind) ∧
      (∀ observation, s'.current = some observation → observation = k') ∧
      updateGroups s'.groups key predicted = updateGroups s.groups key (project device kind) := by
  rw [← projectOnto_eq hdecided.located]
  cases h with
  | stopped => exact absurd (admits_uncancelled hadmits).1 (by decide)
  | rejected =>
      rcases (admits_uncancelled hadmits).2 with ⟨_, hanswer, _⟩
      exact absurd (congrArg Prod.fst hanswer) (by simp [idealTransport])
  | @scalar clock hscalar =>
      rcases (admits_uncancelled hadmits).2 with ⟨_, hwrite, _, hclock, rfl⟩
      rcases Prod.mk.inj hwrite with ⟨_, rfl⟩
      rcases Prod.mk.inj hclock with ⟨rfl, rfl⟩
      -- A write that is not about an address has no group to account for.
      obtain rfl : key = none := by
        rcases groupKey_eq_ok hkey with ⟨_, hnone⟩ | ⟨_, _, haddr, _⟩
        · exact hnone
        · exact absurd (hscalar.symm.trans haddr).symm (Option.some_ne_none _)
      exact ⟨_, rfl, rfl, fun _ hc => absurd hc (by simp), rfl⟩
  | unobserved _ =>
      rcases (admits_uncancelled hadmits).2 with ⟨_, _, _, _, _, hanswer, _⟩
      exact absurd (congrArg Prod.fst hanswer) (by simp [idealTransport])
  -- The verification looks at what the transport predicted, and confirms it.
  | @misverified clock addr after e haddr hverified =>
      rcases (admits_uncancelled hadmits).2 with ⟨_, hwrite, _, hclock, _, hshown, _⟩
      rcases Prod.mk.inj hwrite with ⟨_, rfl⟩
      rcases Prod.mk.inj hclock with ⟨rfl, rfl⟩
      rcases Prod.mk.inj hshown with ⟨hafter, _⟩
      obtain rfl := Except.ok.inj hafter
      have hconfirmed := hdecided.confirmed_ideal s.eligible haddr hnow
      exact absurd (hverified.symm.trans hconfirmed) (by simp)
  | @verified clock addr after actual haddr hverified =>
      rcases (admits_uncancelled hadmits).2 with ⟨_, hwrite, _, hclock, _, hshown, rfl⟩
      rcases Prod.mk.inj hwrite with ⟨_, rfl⟩
      rcases Prod.mk.inj hclock with ⟨rfl, rfl⟩
      rcases Prod.mk.inj hshown with ⟨hafter, rfl⟩
      obtain rfl := Except.ok.inj hafter
      have hconfirmed := hdecided.confirmed_ideal s.eligible haddr hnow
      obtain rfl : actual = project device kind := by
        have hsame := hverified.symm.trans hconfirmed
        exact Except.ok.inj (Option.some.inj hsame)
      exact ⟨_, rfl, rfl, fun _ hc => (Option.some.inj hc).symm, rfl⟩

/-- A step of the run goes on from its decision by writing, and what it knows
    afterwards is the state. -/
theorem Stepped.applied (h : Stepped diff false namespaceId index op s tr r s')
    (hadmits : Admits (idealTransport now).environment k tr k')
    (hcurrent : ∀ observation, s.current = some observation → observation = k)
    (hnow : ∀ device ∈ k.devices, device.observedAt = now) :
    (∀ observation, s'.current = some observation → observation = k') ∧ ∃ verdict groups,
      decision diff namespaceId index op k s.groups s.eligible = some (verdict, groups) ∧
      Went namespaceId op project k groups verdict r k' s'.groups := by
  -- What the run knows is the state, or it asks for it.
  have hknown : s.current.getD k = k := by
    cases hc : s.current with
    | none => rfl
    | some observation => exact hcurrent observation hc
  cases h with
  | cancelled => exact absurd (admits_uncancelled hadmits).1 (by decide)
  | undecoded hdecode =>
      obtain rfl : k' = k := (admits_uncancelled hadmits).2
      exact ⟨hcurrent, _, _, by rw [decision, hdecode], .refused _⟩
  | unobserved _ _ =>
      rcases (admits_uncancelled hadmits).2 with ⟨_, hanswer, _⟩
      exact absurd (congrArg Prod.fst hanswer) (by simp [idealTransport])
  | refused hd =>
      rcases hd.ideal (admits_uncancelled hadmits).2 with ⟨rfl, rfl, hseen, hdecision⟩
      rw [hknown] at hseen hdecision
      exact ⟨fun _ hc => Option.some.inj (hc.symm.trans hseen), _, _, hdecision, .refused _⟩
  | skipped hd =>
      rcases hd.ideal (admits_uncancelled hadmits).2 with ⟨rfl, rfl, hseen, hdecision⟩
      rw [hknown] at hseen hdecision
      exact ⟨fun _ hc => Option.some.inj (hc.symm.trans hseen), _, _, hdecision, .skipped _⟩
  | projected hmode _ => exact absurd hmode (by decide)
  | @unwritten trObserve tw decoded observation position device kind groups s₁ _ e _ hd hw =>
      rcases admits_append.mp (admits_uncancelled hadmits).2 with ⟨u, hobserve, hwrite⟩
      rcases hd.ideal hobserve with ⟨hsame, rfl, hseen, hdecision⟩
      obtain rfl : k = u := hsame.symm
      rw [hknown] at hd
      have hdecided := check_write hd.checked
      have hobserved := hnow device (List.mem_of_getElem? hdecided.located.atPosition)
      rcases hdecided.groupKey with ⟨key, hkey⟩
      -- The write goes through, so it cannot have failed.
      rcases hw.ideal hdecided hkey hobserved hwrite with ⟨_, habs, _⟩
      exact absurd habs (by simp)
  | @written trObserve tw decoded observation position device predicted kind groups s₁ s₂ _ hd hw =>
      rcases admits_append.mp (admits_uncancelled hadmits).2 with ⟨u, hobserve, hwrite⟩
      rcases hd.ideal hobserve with ⟨hsame, rfl, hseen, hdecision⟩
      obtain rfl : k = u := hsame.symm
      rw [hknown] at hd hdecision
      have hdecided := check_write hd.checked
      rcases hdecided.groupKey with ⟨key, hkey⟩
      have hobserved := hnow device (List.mem_of_getElem? hdecided.located.atPosition)
      rcases hw.ideal hdecided hkey hobserved hwrite with ⟨_, hok, rfl, hafter, hgroups⟩
      obtain rfl := Except.ok.inj hok
      refine ⟨hafter, _, _, hdecision, ?_⟩
      rw [Execution.committed_groups hkey, hgroups]
      exact .written hdecided.located hkey

/-- A preview and a run in step: what the one knows and the state of the other
    are records of one state, and the two agree on the groups. -/
structure InStep (now : Instant) (namespaceId : NamespaceId) (start : Observation)
    (s₁ : Execution) (k₁ : Observation) (s₂ : Execution) (k₂ : Observation) : Prop where
  unchanged : k₁ = start
  eligible : s₁.eligible = s₂.eligible
  devices : AlikeObservation (s₁.current.getD start) k₂
  groups : Agree now namespaceId (s₁.current.getD start) k₂ s₁.groups s₂.groups
  current : ∀ observation, s₂.current = some observation → observation = k₂
  instant : ∀ device ∈ k₂.devices, device.observedAt = now

/-- Two records of one state were made at one instant. -/
theorem AlikeObservation.instant {a b : Observation} (h : AlikeObservation a b)
    (hnow : ∀ device ∈ b.devices, device.observedAt = now) :
    ∀ device ∈ a.devices, device.observedAt = now := by
  intro device hmem
  rcases exists_of_forall₂ h hmem with ⟨device', hmem', hsame⟩
  rw [hsame.observedAt]
  exact hnow device' hmem'

/-- Runs that agree decide alike. -/
theorem decision_agree {a b : Observation} {groups₁ groups₂ groups : Groups}
    {eligible : List Bool} {verdict : Except BackendError Verdict}
    (hdevices : AlikeObservation a b) (h : Agree now namespaceId a b groups₁ groups₂)
    (hnow : ∀ device ∈ b.devices, device.observedAt = now)
    (hdecision : decision diff namespaceId index op a groups₁ eligible = some (verdict, groups)) :
    ∃ verdict' groups', decision diff namespaceId index op b groups₂ eligible =
        some (verdict', groups') ∧ SameVerdict verdict verdict' ∧
      Agree now namespaceId a b groups groups' := by
  unfold decision at hdecision ⊢
  cases hdecode : decode op.kind .new with
  | error e =>
      simp only [hdecode, Option.some.injEq, Prod.mk.injEq] at hdecision
      rcases hdecision with ⟨rfl, rfl⟩
      exact ⟨_, _, rfl, .refused e, h⟩
  | ok decoded =>
      rw [hdecode] at hdecision
      exact check_agree hdevices h (hdevices.instant hnow) hdecision

/-- Runs that decided alike go on alike. -/
theorem Went.agree {a b a' b' : Observation} {groups₁ groups₂ groups₁' groups₂' : Groups}
    {verdict₁ verdict₂ : Except BackendError Verdict}
    {r₁ r₂ : Except BackendError (Option SkipReason)}
    (h₁ : Went namespaceId op (predict · · now) a groups₁ verdict₁ r₁ a' groups₁')
    (h₂ : Went namespaceId op project b groups₂ verdict₂ r₂ b' groups₂')
    (hverdict : SameVerdict verdict₁ verdict₂) (hdevices : AlikeObservation a b)
    (hgroups : Agree now namespaceId a b groups₁ groups₂)
    (hnow : ∀ device ∈ b.devices, device.observedAt = now) :
    r₁ = r₂ ∧ AlikeObservation a' b' ∧ Agree now namespaceId a' b' groups₁' groups₂' ∧
      ∀ device ∈ b'.devices, device.observedAt = now := by
  cases hverdict with
  | refused e =>
      cases h₁ with
      | refused =>
          cases h₂ with
          | refused => exact ⟨rfl, hdevices, hgroups, hnow⟩
  | skipped reason =>
      cases h₁ with
      | skipped =>
          cases h₂ with
          | skipped => exact ⟨rfl, hdevices, hgroups, hnow⟩
  | @written device device' position kind hsame =>
      cases h₁ with
      | written ha hkey =>
          cases h₂ with
          | written hb hkey' =>
              obtain rfl := Except.ok.inj (hkey.symm.trans hkey')
              have hobserved' := hnow device' (List.mem_of_getElem? hb.atPosition)
              have hobserved : device.observedAt = now := hsame.observedAt.trans hobserved'
              refine ⟨rfl, set_forall₂ hdevices position (alikeDevice_predict hobserved hsame kind),
                hgroups.written ha hb hsame hobserved hkey, fun found hmem => ?_⟩
              rcases List.mem_or_eq_of_mem_set hmem with hbefore | rfl
              · exact hnow found hbefore
              · rw [project_observedAt]
                exact hobserved'

/-- A preview and a run in step stay in step, and their operation has one
    outcome. -/
theorem InStep.stepped {start : Observation} {s₁ s₁' s₂ s₂' : Execution}
    {k₁ k₁' k₂ k₂' : Observation} {tr₁ tr₂ : List IoEvent}
    {r₁ r₂ : Except BackendError (Option SkipReason)}
    (h : InStep now namespaceId start s₁ k₁ s₂ k₂)
    (h₁ : Stepped diff true namespaceId index op s₁ tr₁ r₁ s₁')
    (hadmits₁ : Admits (idealTransport now).environment k₁ tr₁ k₁')
    (h₂ : Stepped diff false namespaceId index op s₂ tr₂ r₂ s₂')
    (hadmits₂ : Admits (idealTransport now).environment k₂ tr₂ k₂') :
    r₁ = r₂ ∧ InStep now namespaceId start s₁' k₁' s₂' k₂' := by
  obtain rfl := h.unchanged
  rcases h₁.previewed hadmits₁ with ⟨hunchanged, verdict₁, groups₁, hdecision₁, hwent₁⟩
  rcases h₂.applied hadmits₂ h.current h.instant with
    ⟨hcurrent, verdict₂, groups₂, hdecision₂, hwent₂⟩
  rcases decision_agree h.devices h.groups h.instant hdecision₁ with
    ⟨verdict, groups, hdecision, hverdict, hgroups⟩
  -- The two decide on records of one state, so the decisions are of one kind.
  rw [h.eligible, hdecision₂] at hdecision
  rcases Prod.mk.inj (Option.some.inj hdecision) with ⟨rfl, rfl⟩
  rcases hwent₁.agree hwent₂ hverdict h.devices hgroups h.instant with
    ⟨hresult, hdevices, hgroups', hinstant⟩
  refine ⟨hresult, hunchanged, ?_, hdevices, hgroups', hcurrent, hinstant⟩
  rw [h₁.eligible, h₂.eligible, h.eligible]

/-- So do the rounds of the two loops. -/
theorem InStep.ran {start : Observation} {s₁ s₁' s₂ s₂' : Execution}
    {k₁ k₁' k₂ k₂' : Observation} {tr₁ tr₂ : List IoEvent} {o₁ o₂ : Outcome}
    (h : InStep now namespaceId start s₁ k₁ s₂ k₂)
    (h₁ : RanOperation diff true namespaceId index op s₁ tr₁ o₁ s₁')
    (hadmits₁ : Admits (idealTransport now).environment k₁ tr₁ k₁')
    (h₂ : RanOperation diff false namespaceId index op s₂ tr₂ o₂ s₂')
    (hadmits₂ : Admits (idealTransport now).environment k₂ tr₂ k₂') :
    o₁ = o₂ ∧ InStep now namespaceId start s₁' k₁' s₂' k₂' := by
  -- Both look at the same dependencies and the same eligible operations first.
  have hearlier : (∃ dependency ∈ op.dependsOn, index ≤ dependency) →
      ¬ ∀ dependency ∈ op.dependsOn, dependency < index := by
    rintro ⟨dependency, hmem, hle⟩ hall
    exact Nat.not_lt.mpr hle (hall dependency hmem)
  cases h₁ with
  | malformed hmal =>
      cases h₂ with
      | malformed _ =>
          obtain rfl : k₁' = k₁ := hadmits₁
          obtain rfl : k₂' = k₂ := hadmits₂
          exact ⟨rfl, h⟩
      | blocked hall _ _ => exact absurd hall (hearlier hmal)
      | stepped hall _ _ => exact absurd hall (hearlier hmal)
  | blocked hall hblocked hne =>
      cases h₂ with
      | malformed hmal => exact absurd hall (hearlier hmal)
      | blocked _ hblocked' _ =>
          obtain rfl : k₁' = k₁ := hadmits₁
          obtain rfl : k₂' = k₂ := hadmits₂
          rw [h.eligible, hblocked'] at hblocked
          obtain rfl := Option.some.inj hblocked
          exact ⟨rfl, h⟩
      | stepped _ hblocked' _ =>
          rw [h.eligible, hblocked'] at hblocked
          exact absurd (Option.some.inj hblocked).symm hne
  | @stepped _ r₁ t₁ hall hblocked hstep₁ =>
      cases h₂ with
      | malformed hmal => exact absurd hall (hearlier hmal)
      | blocked _ hblocked' hne =>
          rw [h.eligible, hblocked'] at hblocked
          exact absurd (Option.some.inj hblocked) hne
      | @stepped _ r₂ t₂ _ _ hstep₂ =>
          rcases h.stepped (step_cases hstep₁) hadmits₁ (step_cases hstep₂) hadmits₂ with
            ⟨rfl, hnext⟩
          refine ⟨rfl, ?_⟩
          cases r₁ with
          | error e => exact hnext
          | ok skip =>
              exact ⟨hnext.unchanged, congrArg (List.set · index true) hnext.eligible,
                hnext.devices, hnext.groups, hnext.current, hnext.instant⟩

/-- A preview and a run of a plan have the same outcomes. -/
theorem run_outcomes {start final₁ final₂ : Observation} {tr₁ tr₂ : List IoEvent}
    {report₁ report₂ : ApplyReport} {h₁ h₂ : List ExecRound}
    (hnow : ∀ device ∈ start.devices, device.observedAt = now)
    (hr₁ : RunHistory diff true namespaceId tr₁ report₁ h₁)
    (hadmits₁ : Admits (idealTransport now).environment start tr₁ final₁)
    (hr₂ : RunHistory diff false namespaceId tr₂ report₂ h₂)
    (hadmits₂ : Admits (idealTransport now).environment start tr₂ final₂) :
    h₁.map Round.outcome = h₂.map Round.outcome := by
  rcases hr₁.history with ⟨s₁, hs₁, _⟩
  rcases hr₂.history with ⟨s₂, hs₂, _⟩
  rw [hr₁.trace] at hadmits₁
  rw [hr₂.trace] at hadmits₂
  -- Both start knowing nothing, on the same state.
  have hstart : InStep now namespaceId start (.start diff) start (.start diff) start := by
    refine ⟨rfl, rfl, ?_, fun key => .same none, ?_, hnow⟩
    · exact List.forall₂_same.mpr fun device _ => AlikeDevice.refl device
    · exact fun observation hc => absurd hc (by simp [Execution.start])
  refine (Rounds.simulates hstart ?_ hs₁ hs₂ (hr₁.complete.trans hr₂.complete.symm) hadmits₁
    hadmits₂).1
  intro i op s₁ k₁ s₂ k₂ tr₁ o₁ s₁' k₁' tr₂ o₂ s₂' k₂' hstep _ hrun₁ hround₁ hrun₂ hround₂
  exact hstep.ran (runOperation_cases hrun₁) hround₁ (runOperation_cases hrun₂) hround₂

/-- A dry run gives operation `i` of a plan a status. -/
def DryRunReport.PlansAt (self : DryRunReport) (diff : StateDiff) (i : Nat)
    (status : PlannedStatus) : Prop :=
  ∃ op, diff.operations[i]? = some op ∧ { context := .new i op, status } ∈ self.operations

/-- A dry run gives operation `i` of a plan an error. -/
def DryRunReport.FailsAt (self : DryRunReport) (diff : StateDiff) (i : Nat)
    (error : BackendError) : Prop :=
  ∃ op, diff.operations[i]? = some op ∧ { context := .new i op, error } ∈ self.failed

theorem plansAt_iff {report : ApplyReport} {i : Nat} {status : PlannedStatus} :
    (previewReport diff report).PlansAt diff i status ↔
      ∃ outcome, report.ReportsAt diff i outcome ∧ outcome.planned = status := by
  constructor
  · rintro ⟨op, hop, hmem⟩
    rcases mem_previewReport.mp hmem with ⟨outcome, hreports, hplanned⟩
    exact ⟨outcome, ⟨op, hop, hreports⟩, hplanned⟩
  · rintro ⟨outcome, ⟨op, hop, hreports⟩, hplanned⟩
    exact ⟨op, hop, mem_previewReport.mpr ⟨outcome, hreports, hplanned⟩⟩

/-- On this transport a preview is a run that projects, and is never cancelled. -/
theorem previewPlan_exec (start : Observation) :
    ((previewPlan diff namespaceId).exec (idealTransport now) start).map Prod.fst =
      ((run diff true namespaceId).exec (idealTransport now) start).map fun out =>
        previewReport diff out.1 := by
  -- Answering the cancellation check ahead changes nothing where it is answered so anyway.
  have hresolved : ∀ f : (call : IoCall) → Option (IoAnswer call),
      (∀ call answer, f call = some answer → ∀ observation : Observation,
        idealTransport now observation call = (answer, observation)) →
      ((do
          let report ← (run diff true namespaceId).resolve f
          pure (previewReport diff report)).exec (idealTransport now) start).map Prod.fst =
        ((run diff true namespaceId).exec (idealTransport now) start).map fun out =>
          previewReport diff out.1 := by
    intro f hf
    have hfirst := congrArg (Option.map fun out => previewReport diff out.1)
      (Program.exec_resolve hf (run diff true namespaceId) start)
    rw [Option.map_map, Option.map_map] at hfirst
    refine Eq.trans ?_ hfirst
    rw [Program.bind_eq_bind]
    simp only [Program.pure_eq_done]
    rw [Program.exec_map, Option.map_map]
    rfl
  unfold previewPlan
  refine hresolved _ fun call answer hanswer observation => ?_
  cases call with
  | cancelled =>
      obtain rfl := Option.some.inj hanswer
      rfl
  | inventory => exact absurd hanswer (by simp)
  | execute _ _ => exact absurd hanswer (by simp)
  | now => exact absurd hanswer (by simp)

/-- A dry run foretells the run: against a transport that does as predicted, at
    one instant, both come to an end, and every operation that the dry run has as
    a write succeeds, one that it skips is skipped for the same reason, and one
    that it fails fails with an error of the same kind. -/
theorem preview_foretells {start : Observation}
    (hnow : ∀ device ∈ start.devices, device.observedAt = now) :
    ∃ dry report, ((previewPlan diff namespaceId).exec (idealTransport now) start).map Prod.fst =
        some dry ∧
      ((applyPlan diff namespaceId).exec (idealTransport now) start).map Prod.fst = some report ∧
      (∀ i < diff.operations.length, ∃! outcome, report.ReportsAt diff i outcome) ∧
      ∀ i, (dry.PlansAt diff i .write ↔ report.ReportsAt diff i .succeeded) ∧
        (∀ reason, dry.PlansAt diff i (.skip reason) ↔ report.ReportsAt diff i (.skipped reason)) ∧
        (dry.PlansAt diff i .fail ↔ ∃ e, report.ReportsAt diff i (.failed e)) ∧
        ∀ kind, (∃ e, dry.FailsAt diff i e ∧ e.kind = kind) ↔
          ∃ e, report.ReportsAt diff i (.failed e) ∧ e.kind = kind := by
  rcases run_executes diff true namespaceId (idealTransport now) start with
    ⟨report₁, final₁, tr₁, hx₁, hrun₁, hadmits₁⟩
  rcases run_executes diff false namespaceId (idealTransport now) start with
    ⟨report₂, final₂, tr₂, hx₂, hrun₂, hadmits₂⟩
  rcases run_history hrun₁ with ⟨h₁, hr₁⟩
  rcases run_history hrun₂ with ⟨h₂, hr₂⟩
  have houtcomes := run_outcomes hnow hr₁ hadmits₁ hr₂ hadmits₂
  have hsame : ∀ i outcome, report₁.ReportsAt diff i outcome ↔ report₂.ReportsAt diff i outcome :=
    fun i outcome => hr₁.reportsAt_congr hr₂ houtcomes
  refine ⟨previewReport diff report₁, report₂, ?_, ?_, fun i hi => ?_, fun i =>
    ⟨?_, fun reason => ?_, ?_, ?_⟩⟩
  · rw [previewPlan_exec, hx₁, Option.map_some]
  · unfold applyPlan
    rw [hx₂, Option.map_some]
  · rcases hr₂.roundAt (List.getElem?_eq_getElem hi) with ⟨r, hat⟩
    have hreports := (hr₂.reportsAt_iff hat).mpr rfl
    exact ⟨r.outcome, hreports, fun _ hother => hr₂.reportsAt_unique hother hreports⟩
  · rw [plansAt_iff, ← hsame]
    simp only [Outcome.planned_eq_write, exists_eq_right]
  · rw [plansAt_iff, ← hsame]
    simp only [Outcome.planned_eq_skip, exists_eq_right]
  · rw [plansAt_iff]
    constructor
    · rintro ⟨outcome, hreports, hplanned⟩
      rcases Outcome.planned_eq_fail.mp hplanned with ⟨e, rfl⟩
      exact ⟨e, (hsame i _).mp hreports⟩
    · rintro ⟨e, hreports⟩
      exact ⟨_, (hsame i _).mpr hreports, rfl⟩
  · intro kind
    constructor
    · rintro ⟨e, hfails, hkind⟩
      exact ⟨e, (hsame i _).mp hfails, hkind⟩
    · rintro ⟨e, hreports, hkind⟩
      exact ⟨e, (hsame i _).mpr hreports, hkind⟩

/-- Removing 192.0.2.1/24, with its group as a precondition. -/
def firstRemoval : Operation :=
  { target := eth0
    kind := .removeIpv4 primary.address
    dependsOn := []
    addressGroup := some { addresses := [primary], observedAt := 0 } }

/-- Removing it once more. -/
def secondRemoval : Operation := { firstRemoval with dependsOn := [0], addressGroup := none }

/-- The plan that removes it twice. -/
def repeatedRemovalPlan : StateDiff :=
  { changes := [], operations := [firstRemoval, secondRemoval], diagnostics := [] }

theorem preview_foretells_removal : ∃ dry report,
    ((previewPlan repeatedRemovalPlan eth0.namespaceId).exec (idealTransport 0)
      ⟨[eth0Device [primary]], []⟩).map Prod.fst = some dry ∧
    ((applyPlan repeatedRemovalPlan eth0.namespaceId).exec (idealTransport 0)
      ⟨[eth0Device [primary]], []⟩).map Prod.fst = some report ∧
    dry.PlansAt repeatedRemovalPlan 0 .write ∧
    report.ReportsAt repeatedRemovalPlan 0 .succeeded ∧
    dry.PlansAt repeatedRemovalPlan 1 (.skip .alreadySatisfied) ∧
    report.ReportsAt repeatedRemovalPlan 1 (.skipped .alreadySatisfied) := by
  have hforetells : ∃ dry report,
      ((previewPlan repeatedRemovalPlan eth0.namespaceId).exec (idealTransport 0)
        ⟨[eth0Device [primary]], []⟩).map Prod.fst = some dry ∧ _ :=
    preview_foretells (by decide)
  rcases hforetells with ⟨dry, report, hdry, happly, _, hall⟩
  have hcontexts : (((applyPlan repeatedRemovalPlan eth0.namespaceId).exec (idealTransport 0)
      ⟨[eth0Device [primary]], []⟩).map Prod.fst).map (fun report =>
        (report.succeeded, report.skipped)) =
      some ([.new 0 firstRemoval], [⟨.new 1 secondRemoval, .alreadySatisfied⟩]) := by decide
  rw [happly, Option.map_some, Option.some.injEq, Prod.mk.injEq] at hcontexts
  have hsucceeded : report.ReportsAt repeatedRemovalPlan 0 .succeeded := by
    refine ⟨firstRemoval, rfl, ?_⟩
    rw [ApplyReport.Reports, hcontexts.1]
    exact List.mem_singleton.mpr rfl
  have hskipped : report.ReportsAt repeatedRemovalPlan 1 (.skipped .alreadySatisfied) := by
    refine ⟨secondRemoval, rfl, ?_⟩
    rw [ApplyReport.Reports, hcontexts.2]
    exact List.mem_singleton.mpr rfl
  exact ⟨dry, report, hdry, happly, (hall 0).1.mpr hsucceeded, hsucceeded,
    ((hall 1).2.1 _).mpr hskipped, hskipped⟩

end Netfyr
