import Netfyr.Executor.Cascade
import Netfyr.Executor.Confirm
import Netfyr.Executor.Groups
import Netfyr.Executor.Written

/-!
# Decisions on Two Records of One State

Two runs of a plan may know the same state by different records of it, and hold
different records of the groups they have established. A group that a
precondition established is the same in both. One that a write brought up to date
is told by what was written, so each run holds the members as its own view shows
them, and finds that they match. With this much in common the two decide alike.

## Main definitions

* `AlikeObservation`: Two records of an observation.
* `Tracks`: A held group is the group as a view shows it.
* `Agree`: Two maps hold the same groups, or each tracks its own view.
* `SameVerdict`: Two verdicts that differ in the record of the device alone.

## Theorems

* `locate_congr`, `Located.alike`: A target is in one place.
* `validateGroup_agree`: The group checks have the same result.
* `check_agree`: The decisions are the same.
* `Agree.written`: Runs that agree do so after a write.
-/

namespace Netfyr

/-- Two records of an observation, device by device. -/
def AlikeObservation (a b : Observation) : Prop :=
  List.Forall₂ AlikeDevice a.devices b.devices

/-- A held group is, at an instant, the group as an observation shows it. -/
structure Tracks (now : Instant) (namespaceId : NamespaceId) (observation : Observation)
    (key : GroupKey) (group : ExpectedGroup) : Prop where
  observedAt : group.observedAt = now
  members : ∀ position device, Located observation key.target namespaceId position device →
    List.Forall₂ Alike group.addresses (groupAddresses device key)

/-- Two maps agree on a group: they hold the same of it, or each tracks its own
    view. -/
inductive AgreeAt (now : Instant) (namespaceId : NamespaceId) (a b : Observation)
    (key : GroupKey) : Option ExpectedGroup → Option ExpectedGroup → Prop where
  | same (held : Option ExpectedGroup) : AgreeAt now namespaceId a b key held held
  | tracked {g₁ g₂ : ExpectedGroup} : Tracks now namespaceId a key g₁ →
      Tracks now namespaceId b key g₂ → AgreeAt now namespaceId a b key (some g₁) (some g₂)

/-- Two maps agree on every group. -/
def Agree (now : Instant) (namespaceId : NamespaceId) (a b : Observation)
    (groups₁ groups₂ : Groups) : Prop :=
  ∀ key, AgreeAt now namespaceId a b key (groups₁ key) (groups₂ key)

/-- Two verdicts that differ in the record of the device alone. -/
inductive SameVerdict : Except BackendError Verdict → Except BackendError Verdict → Prop where
  | refused (e : BackendError) : SameVerdict (.error e) (.error e)
  | skipped (reason : SkipReason) : SameVerdict (.ok (.skip reason)) (.ok (.skip reason))
  | written {device device' : DeviceObservation} (position : Nat) (kind : OperationKind) :
      AlikeDevice device device' →
      SameVerdict (.ok (.write position device kind)) (.ok (.write position device' kind))

variable {diff : StateDiff} {namespaceId : NamespaceId} {index : Nat} {op : Operation}
  {kind : OperationKind} {addr : Ipv4Address} {now : Instant} {a b : Observation} {key : GroupKey}
  {groups₁ groups₂ : Groups} {device device' : DeviceObservation} {position position' : Nat}

/-- A target is in one place in both records, or in neither. -/
theorem locate_congr (h : AlikeObservation a b) (identity : InterfaceId) :
    locate a identity namespaceId = locate b identity namespaceId := by
  have hindex : a.devices.findIdx? (fun device => device.identity.index == identity.index) =
      b.devices.findIdx? (fun device => device.identity.index == identity.index) :=
    findIdx?_forall₂ h fun x y hxy => by rw [hxy.identity]
  unfold locate
  rw [hindex]
  cases b.devices.findIdx? fun device => device.identity.index == identity.index with
  | none => rfl
  | some position =>
      cases ha : a.devices[position]? with
      | none =>
          have hb : b.devices[position]? = none := by
            rw [List.getElem?_eq_none_iff] at ha ⊢
            rwa [← h.length_eq]
          simp only [ha, hb]
      | some device =>
          rcases getElem?_forall₂ h ha with ⟨device', hb, hsame⟩
          simp only [ha, hb, hsame.identity]

/-- A located device has a record in the other observation, at its position. -/
theorem Located.alike (h : AlikeObservation a b)
    (hlocated : Located a op.target namespaceId position device) :
    ∃ device', Located b op.target namespaceId position device' ∧ AlikeDevice device device' := by
  rcases getElem?_forall₂ h hlocated.atPosition with ⟨device', hat, hsame⟩
  have hindex : a.devices.findIdx? (fun device => device.identity.index == op.target.index) =
      b.devices.findIdx? (fun device => device.identity.index == op.target.index) :=
    findIdx?_forall₂ h fun x y hxy => by rw [hxy.identity]
  exact ⟨device', ⟨hindex ▸ hlocated.isFirst, hat, hsame.identity ▸ hlocated.isTarget,
    hsame.identity ▸ hlocated.isEthernet, hlocated.inNamespace⟩, hsame⟩

/-- Members that are alike match the same expectations. -/
theorem groupMatches_congr {expected : ExpectedGroup} {actual actual' : List AddressObservation}
    (h : List.Forall₂ Alike actual actual') (now : Instant) :
    groupMatches expected actual now = groupMatches expected actual' now := by
  rw [Bool.eq_iff_iff, groupMatches_iff, groupMatches_iff]
  constructor
  · intro hmatch
    exact forall₂_comp hmatch h fun old new new' hold hsame =>
      addressMatches_congr hsame _ ▸ hold
  · intro hmatch
    exact forall₂_comp hmatch (forall₂_alike_symm h) fun old new new' hold hsame =>
      addressMatches_congr hsame _ ▸ hold

/-- A tracked group matches. -/
theorem Tracks.groupMatches {group : ExpectedGroup} (h : Tracks now namespaceId a key group)
    (hlocated : Located a key.target namespaceId position device) :
    groupMatches group (groupAddresses device key) now = true := by
  have hmembers := groupMatches_of_alike now (h.members _ _ hlocated)
  rwa [← h.observedAt] at hmembers ⊢

/-- Groups that agree pass the check alike. -/
theorem AgreeAt.checkExpected {held₁ held₂ : Option ExpectedGroup}
    (h : AgreeAt now namespaceId a b key held₁ held₂)
    (ha : Located a key.target namespaceId position device)
    (hb : Located b key.target namespaceId position' device') (hsame : AlikeDevice device device')
    (hnow : device.observedAt = now) :
    checkExpected device kind addr key held₁ = checkExpected device' kind addr key held₂ := by
  have hnow' : device'.observedAt = now := hsame.observedAt ▸ hnow
  cases h with
  | same =>
      cases held₁ with
      | none => simp only [Netfyr.checkExpected, hsame.hasAddress addr]
      | some expected =>
          simp only [Netfyr.checkExpected, hnow, hnow',
            groupMatches_congr (hsame.groupAddresses key) now]
  | tracked h₁ h₂ =>
      simp only [Netfyr.checkExpected, hnow, hnow', h₁.groupMatches ha, h₂.groupMatches hb]

/-- Establishing a group keeps the maps in agreement. -/
theorem Agree.establish (h : Agree now namespaceId a b groups₁ groups₂) (key : GroupKey) :
    Agree now namespaceId a b (establish op key groups₁) (establish op key groups₂) := by
  intro key'
  by_cases hkey : key' = key
  · subst hkey
    rw [establish_same, establish_same]
    have hheld := h key'
    generalize groups₁ key' = held₁ at hheld
    generalize groups₂ key' = held₂ at hheld
    cases hheld with
    | same => exact .same _
    | tracked h₁ h₂ => exact .tracked h₁ h₂
  · rw [establish_of_ne hkey, establish_of_ne hkey]
    exact h key'

/-- The group checks have the same result, and leave the maps in agreement. -/
theorem validateGroup_agree (kind : OperationKind)
    (h : Agree now namespaceId a b groups₁ groups₂)
    (ha : Located a op.target namespaceId position device)
    (hb : Located b op.target namespaceId position' device') (hsame : AlikeDevice device device')
    (hnow : device.observedAt = now) :
    (validateGroup op device kind groups₁).1 = (validateGroup op device' kind groups₂).1 ∧
      Agree now namespaceId a b (validateGroup op device kind groups₁).2
        (validateGroup op device' kind groups₂).2 := by
  unfold validateGroup
  cases kind.ipv4Address with
  | none => exact ⟨rfl, h⟩
  | some addr =>
      simp only [hsame.complete]
      by_cases hcomplete : device'.addressesComplete = false
      · rw [if_pos hcomplete, if_pos hcomplete]
        exact ⟨rfl, h⟩
      rw [if_neg hcomplete, if_neg hcomplete]
      cases hkey : GroupKey.new op addr with
      | error e => exact ⟨rfl, h⟩
      | ok key =>
          simp only
          by_cases hother : describesOther op key = true
          · rw [if_pos hother, if_pos hother]
            exact ⟨rfl, h⟩
          rw [if_neg hother, if_neg hother]
          have htarget := (GroupKey.contains_new hkey).2
          rw [← htarget] at ha hb
          exact ⟨(h.establish key key).checkExpected ha hb hsame hnow, h.establish key⟩

/-- Two runs that agree decide alike. -/
theorem check_agree {decoded : Option OperationKind} {eligible : List Bool}
    {verdict : Except BackendError Verdict} {groups : Groups} (hdevices : AlikeObservation a b)
    (h : Agree now namespaceId a b groups₁ groups₂)
    (hnow : ∀ device ∈ a.devices, device.observedAt = now)
    (hcheck : check diff namespaceId index op decoded a groups₁ eligible = some (verdict, groups)) :
    ∃ verdict' groups', check diff namespaceId index op decoded b groups₂ eligible =
        some (verdict', groups') ∧ SameVerdict verdict verdict' ∧
      Agree now namespaceId a b groups groups' := by
  unfold check at hcheck ⊢
  rw [← locate_congr hdevices]
  split at hcheck
  · next e _ =>
      simp only [Option.some.injEq, Prod.mk.injEq] at hcheck
      rcases hcheck with ⟨rfl, rfl⟩
      exact ⟨_, _, rfl, .refused e, h⟩
  next position hloc =>
  rcases locate_eq_ok.mp hloc with ⟨device, ha⟩
  rcases ha.alike hdevices with ⟨device', hb, hsame⟩
  simp only [ha.atPosition, hb.atPosition] at hcheck ⊢
  split at hcheck
  · simp only [Option.some.injEq, Prod.mk.injEq] at hcheck
    rcases hcheck with ⟨rfl, rfl⟩
    exact ⟨_, _, rfl, .skipped _, h⟩
  next kind =>
  have hobserved := hnow device (List.mem_of_getElem? ha.atPosition)
  rcases validateGroup_agree kind h ha hb hsame hobserved with ⟨hresult, hgroups⟩
  -- Both checks go on from here with the same result.
  generalize validateGroup op device kind groups₁ = checked₁ at hcheck hresult hgroups
  generalize validateGroup op device' kind groups₂ = checked₂ at hresult hgroups ⊢
  rcases checked₁ with ⟨result, groups₁'⟩
  rcases checked₂ with ⟨result', groups₂'⟩
  obtain rfl : result = result' := hresult
  rw [← hsame.satisfied kind op, ← hsame.checkCascade kind]
  cases result with
  | error e =>
      simp only [Option.some.injEq, Prod.mk.injEq] at hcheck
      rcases hcheck with ⟨rfl, rfl⟩
      exact ⟨_, _, rfl, .refused e, hgroups⟩
  | ok _ =>
      simp only at hcheck ⊢
      rcases hsat : satisfied kind device op with e | _ | _
      · simp only [hsat, Option.some.injEq, Prod.mk.injEq] at hcheck
        rcases hcheck with ⟨rfl, rfl⟩
        exact ⟨_, _, rfl, .refused e, hgroups⟩
      · simp only [hsat] at hcheck ⊢
        rcases hcascade : checkCascade diff index device kind eligible with _ | e | _
        · simp only [hcascade, reduceCtorEq] at hcheck
        · simp only [hcascade, Option.some.injEq, Prod.mk.injEq] at hcheck
          rcases hcheck with ⟨rfl, rfl⟩
          exact ⟨_, _, rfl, .refused e, hgroups⟩
        · simp only [hcascade, Option.some.injEq, Prod.mk.injEq] at hcheck
          rcases hcheck with ⟨rfl, rfl⟩
          exact ⟨_, _, rfl, .written position kind hsame, hgroups⟩
      · simp only [hsat, Option.some.injEq, Prod.mk.injEq] at hcheck
        rcases hcheck with ⟨rfl, rfl⟩
        exact ⟨_, _, rfl, .skipped _, hgroups⟩

/-- A group keeps tracking the view when the record of a device is replaced by one
    with the same members. -/
theorem Tracks.written {group : ExpectedGroup} (h : Tracks now namespaceId a key group)
    (ha : Located a op.target namespaceId position device)
    (hid : device'.identity = device.identity)
    (hmembers : key.target = op.target →
      List.Forall₂ Alike (groupAddresses device key) (groupAddresses device' key)) :
    Tracks now namespaceId (a.written position device') key group := by
  refine ⟨h.observedAt, fun position' found hfound => ?_⟩
  rcases ha.of_written hid hfound with ⟨rfl, rfl, htarget⟩ | ⟨_, hbefore⟩
  · rw [← htarget] at ha
    exact forall₂_alike_trans (h.members _ _ ha) (hmembers htarget)
  · exact h.members _ _ hbefore

/-- The group a write brings up to date tracks the view after it. -/
theorem tracks_written (ha : Located a op.target namespaceId position device)
    (hid : device'.identity = device.identity) (hnow : device'.observedAt = now)
    (htarget : key.target = op.target) :
    Tracks now namespaceId (a.written position device') key
      { addresses := groupAddresses device' key, observedAt := device'.observedAt } := by
  refine ⟨hnow, fun position' found hfound => ?_⟩
  rcases ha.of_written hid hfound with ⟨rfl, rfl, _⟩ | ⟨hne, hbefore⟩
  · exact forall₂_alike_refl _
  · rw [htarget] at hbefore
    exact absurd (hbefore.unique ha).1 hne

/-- A write has the group of its address, and none when it is about no address. -/
theorem groupKey_eq_ok {written : Option GroupKey} (h : groupKey op kind = .ok written) :
    (kind.ipv4Address = none ∧ written = none) ∨
      ∃ addr own, kind.ipv4Address = some addr ∧ GroupKey.new op addr = .ok own ∧
        written = some own := by
  unfold groupKey at h
  cases haddr : kind.ipv4Address with
  | none =>
      simp only [haddr, Except.ok.injEq] at h
      exact Or.inl ⟨rfl, h.symm⟩
  | some addr =>
      simp only [haddr] at h
      cases hnew : GroupKey.new op addr with
      | error e => simp [hnew] at h
      | ok own =>
          simp only [hnew, Except.ok.injEq] at h
          exact Or.inr ⟨addr, own, rfl, hnew, h.symm⟩

/-- The group of a write is one of its target. -/
theorem groupKey_target (hkey : groupKey op kind = .ok (some key)) : key.target = op.target := by
  rcases groupKey_eq_ok hkey with ⟨_, habs⟩ | ⟨addr, own, _, hnew, heq⟩
  · exact absurd habs (Option.some_ne_none key)
  · obtain rfl := Option.some.inj heq
    exact (GroupKey.contains_new hnew).2

/-- A write leaves the groups that are not its own as they are. -/
theorem groupAddresses_project {key : GroupKey} {written : Option GroupKey}
    (hkey : groupKey op kind = .ok written) (hne : written ≠ some key)
    (htarget : key.target = op.target) :
    groupAddresses (project device kind) key = groupAddresses device key := by
  rcases groupKey_eq_ok hkey with ⟨haddr, _⟩ | ⟨addr, own, haddr, hnew, rfl⟩
  · -- A write that is about no address changes none.
    unfold groupAddresses
    rw [project_addresses]
    cases kind with
    | addIpv4 _ => exact absurd haddr (by simp [OperationKind.ipv4Address])
    | removeIpv4 _ => exact absurd haddr (by simp [OperationKind.ipv4Address])
    | replaceIpv4 _ => exact absurd haddr (by simp [OperationKind.ipv4Address])
    | setMtu _ => rfl
    | setEnabled _ => rfl
    | setField _ _ => rfl
    | addEntity => rfl
    | removeEntity => rfl
  · rcases GroupKey.contains_new hnew with ⟨hcontains, hown⟩
    refine groupAddresses_project_of_not_contains haddr ?_
    rw [← Bool.not_eq_true]
    intro hin
    refine hne (congrArg some ?_)
    unfold GroupKey.contains at hin hcontains
    rw [beq_iff_eq] at hin hcontains
    have hgroup := Option.some.inj (hcontains.symm.trans hin)
    rw [Prod.mk.injEq] at hgroup
    rcases own with ⟨target, network, prefixLen⟩
    rcases key with ⟨target', network', prefixLen'⟩
    rw [GroupKey.mk.injEq]
    exact ⟨hown.trans htarget.symm, hgroup⟩

/-- Runs that agree do so after they have written, one predicting and the other
    seeing what was written. -/
theorem Agree.written {written : Option GroupKey} (h : Agree now namespaceId a b groups₁ groups₂)
    (ha : Located a op.target namespaceId position device)
    (hb : Located b op.target namespaceId position' device') (hsame : AlikeDevice device device')
    (hnow : device.observedAt = now) (hkey : groupKey op kind = .ok written) :
    Agree now namespaceId (a.written position (predict device kind now))
      (b.written position' (project device' kind))
      (updateGroups groups₁ written (predict device kind now))
      (updateGroups groups₂ written (project device' kind)) := by
  have hid₁ : (predict device kind now).identity = device.identity := project_identity
  have hid₂ : (project device' kind).identity = device'.identity := project_identity
  have hnow₁ : (predict device kind now).observedAt = now := project_observedAt
  have hnow₂ : (project device' kind).observedAt = now := by
    rw [project_observedAt, ← hsame.observedAt, hnow]
  -- A group that is not the one written is held, and shown, as before.
  have hother : ∀ key, written ≠ some key → AgreeAt now namespaceId
      (a.written position (predict device kind now))
      (b.written position' (project device' kind)) key (groups₁ key) (groups₂ key) := by
    intro key hne
    have hheld := h key
    generalize groups₁ key = held₁ at hheld
    generalize groups₂ key = held₂ at hheld
    cases hheld with
    | same => exact .same _
    | tracked h₁ h₂ =>
        refine .tracked (h₁.written ha hid₁ fun htarget => ?_)
          (h₂.written hb hid₂ fun htarget => ?_)
        · have hpredicted := alikeDevice_predict hnow (AlikeDevice.refl device) kind
          have hmembers := forall₂_alike_symm (hpredicted.groupAddresses key)
          rwa [groupAddresses_project hkey hne htarget] at hmembers
        · rw [groupAddresses_project hkey hne htarget]
          exact forall₂_alike_refl _
  intro key
  cases written with
  | none => exact hother key (by simp)
  | some own =>
      rw [updateGroups_apply, updateGroups_apply]
      by_cases heq : key = own
      · subst heq
        rw [if_pos rfl, if_pos rfl]
        have htarget := groupKey_target hkey
        have htracked₁ := tracks_written ha hid₁ hnow₁ htarget
        have htracked₂ := tracks_written hb hid₂ hnow₂ htarget
        have hheld := h key
        generalize groups₁ key = held₁ at hheld
        generalize groups₂ key = held₂ at hheld
        cases hheld with
        | same =>
            cases held₁ with
            | none => exact .same none
            | some _ => exact .tracked htracked₁ htracked₂
        | tracked _ _ => exact .tracked htracked₁ htracked₂
      · rw [if_neg heq, if_neg heq]
        exact hother key fun habs => heq (Option.some.inj habs).symm

end Netfyr
