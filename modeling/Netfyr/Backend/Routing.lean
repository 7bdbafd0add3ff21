import Netfyr.Backend.Registry
import Netfyr.Data.Checked
import Netfyr.Data.Merge

/-!
# Routing Reaches the Owner

No two backends of a namespace own one device type, whatever was registered, so
the first owner that a search finds is the only one. An operation is resolved by
a query for its target's name and a plan by one query per namespace; that both
see the same device is a property of the merge, which commutes with selecting by
name when an interface has one name in all views.

## Main definitions

* `OneOwner`: No two backends of a namespace share a device type.
* `Represents`: The merged views as a list of records with their marks.
* `Discovers`: What is asked of backends: stable and complete answers.

## Theorems

* `registerAll_oneOwner`: Every registry has one owner per type.
* `Represents.insert`: Taking over a view is placing a record.
* `discovered_named`: A query by name discovers what a full query does.
* `resolveOperations_iff`: A plan resolves to what all its operations do.
* `registry_routes`: Routing reaches only the unique owner.
-/

namespace Netfyr

namespace BackendRegistry

variable {β : Type} {io : NetworkBackend β} {registry : BackendRegistry β}

section Registration

/-- No two backends of one namespace share a device type. -/
def OneOwner (io : NetworkBackend β) (registry : BackendRegistry β) : Prop :=
  registry.backends.Pairwise fun a b => io.namespaceId a = io.namespaceId b →
    ∀ entity ∈ io.supportedEntities a, entity ∉ io.supportedEntities b

/-- A registration that is rejected changes nothing. -/
theorem register_rejected {backend : β} {e : BackendError}
    (h : (registry.register io backend).1 = .error e) :
    (registry.register io backend).2 = registry := by
  unfold register at h ⊢
  simp only at h ⊢
  split
  · rfl
  · next hfree =>
      rw [if_neg hfree] at h
      exact absurd h (by simp)

/-- A registration leaves one owner per type. -/
theorem register_oneOwner (h : OneOwner io registry) (backend : β) :
    OneOwner io (registry.register io backend).2 := by
  unfold register
  simp only
  split
  · exact h
  · next hfree =>
      refine List.pairwise_append.mpr ⟨h, List.pairwise_singleton _ _, ?_⟩
      intro registered hmem last hlast hsame entity hentity hshared
      obtain rfl := List.mem_singleton.mp hlast
      -- A type that both own would have made the registration collide.
      refine hfree (List.any_eq_true.mpr ⟨registered, hmem, ?_⟩)
      rw [Bool.and_eq_true, beq_iff_eq, List.any_eq_true]
      exact ⟨hsame, entity, hentity, List.contains_iff_mem.mpr hshared⟩

/-- Every registry has one owner per type. -/
theorem registerAll_oneOwner (backends : List β) :
    OneOwner io ((new : BackendRegistry β).registerAll io backends) := by
  have hkept : ∀ registry : BackendRegistry β, OneOwner io registry →
      OneOwner io (registry.registerAll io backends) := by
    induction backends with
    | nil => exact fun _ h => h
    | cons backend backends ih =>
        exact fun registry h => ih _ (register_oneOwner h backend)
  exact hkept new List.Pairwise.nil

/-- Two owners of one type in one namespace are the same backend. -/
theorem OneOwner.unique (h : OneOwner io registry) {a b : β} (ha : a ∈ registry.backends)
    (hb : b ∈ registry.backends) (hsame : io.namespaceId a = io.namespaceId b)
    {deviceType : String} (howns : owns io a deviceType = true)
    (howns' : owns io b deviceType = true) : a = b := by
  unfold owns at howns howns'
  rw [List.contains_iff_mem] at howns howns'
  rcases List.getElem_of_mem ha with ⟨i, hi, rfl⟩
  rcases List.getElem_of_mem hb with ⟨j, hj, rfl⟩
  have hapart := List.pairwise_iff_getElem.mp h
  -- Of two positions one comes first, and the one behind it owns nothing of it.
  rcases Nat.lt_trichotomy i j with hlt | heq | hlt
  · exact absurd howns' (hapart i j hi hj hlt hsame _ howns)
  · simp only [heq]
  · exact absurd howns (hapart j i hj hi hlt hsame.symm _ howns')

end Registration

section Views

/-- The merged views as records, each marked when an owner saw it. -/
structure Represents (views : List (DeviceObservation × Bool)) (merged : MergedViews) : Prop where
  devices : merged.devices = views.map Prod.fst
  seen : ∀ key position owned, merged.seen key = some (position, owned) ↔
    ∃ device, views[position]? = some (device, owned) ∧ device.key = key

variable {views : List (DeviceObservation × Bool)} {merged : MergedViews}

/-- A record is at one position. -/
theorem Represents.position_unique (h : Represents views merged) {i j : Nat}
    {a b : DeviceObservation × Bool} (ha : views[i]? = some a) (hb : views[j]? = some b)
    (hkey : a.1.key = b.1.key) : i = j := by
  have hi := (h.seen b.1.key i a.2).mpr ⟨a.1, ha, hkey⟩
  have hj := (h.seen b.1.key j b.2).mpr ⟨b.1, hb, rfl⟩
  rw [hi, Option.some.injEq, Prod.mk.injEq] at hj
  exact hj.1

theorem represents_empty : Represents [] {} := by
  refine ⟨rfl, fun key position owned => ⟨fun h => absurd h (by simp), ?_⟩⟩
  rintro ⟨device, hat, _⟩
  exact absurd hat (by simp)

/-- A device that was not seen is pushed. -/
theorem Represents.push (h : Represents views merged) {device : DeviceObservation} {owned : Bool}
    (hnew : merged.seen device.key = none) :
    Represents (Merge.place DeviceObservation.key views (device, owned))
      { merged with
        devices := merged.devices ++ [device]
        seen := Function.update merged.seen device.key (some (merged.devices.length, owned)) } := by
  have habsent : ∀ (position : Nat) (view : DeviceObservation × Bool),
      views[position]? = some view → view.1.key ≠ device.key := by
    intro position view hat hkey
    have hseen := (h.seen device.key position view.2).mpr ⟨view.1, hat, hkey⟩
    rw [hnew] at hseen
    exact absurd hseen (by simp)
  have hlength : merged.devices.length = views.length := by rw [h.devices, List.length_map]
  have hplaced : Merge.place DeviceObservation.key views (device, owned) =
      views ++ [(device, owned)] := by
    refine Merge.place_of_new fun view hmem => ?_
    rcases List.getElem?_of_mem hmem with ⟨position, hat⟩
    exact habsent position view hat
  rw [hplaced]
  refine ⟨by rw [h.devices, List.map_append]; rfl, fun key position marked => ?_⟩
  by_cases hkey : key = device.key
  · -- At the key of the device the mark is the new one, at the end of the list.
    subst hkey
    simp only [Function.update_self, Option.some.injEq, Prod.mk.injEq, hlength]
    constructor
    · rintro ⟨rfl, rfl⟩
      exact ⟨device, List.getElem?_concat_length, rfl⟩
    · rintro ⟨found, hat, hfound⟩
      by_cases hlt : position < views.length
      · rw [List.getElem?_append_left hlt] at hat
        exact absurd hfound (habsent position _ hat)
      · have hend : position = views.length := by
          have hbound := (List.getElem?_eq_some_iff.mp hat).choose
          rw [List.length_append, List.length_singleton] at hbound
          omega
        rw [hend, List.getElem?_concat_length, Option.some.injEq, Prod.mk.injEq] at hat
        exact ⟨hend.symm, hat.2⟩
  · simp only [Function.update_of_ne hkey, h.seen key position marked]
    refine exists_congr fun found => and_congr_left fun hfound => ?_
    -- Any other key has its record where it was.
    by_cases hlt : position < views.length
    · rw [List.getElem?_append_left hlt]
    · constructor
      · intro hat
        exact absurd (List.getElem?_eq_some_iff.mp hat).choose hlt
      · intro hat
        have hbound := (List.getElem?_eq_some_iff.mp hat).choose
        rw [List.length_append, List.length_singleton] at hbound
        obtain rfl : position = views.length := by omega
        rw [List.getElem?_concat_length, Option.some.injEq, Prod.mk.injEq] at hat
        rw [← hat.1] at hfound
        exact absurd hfound.symm hkey

/-- A device that was seen, but not by an owner, is replaced by an owner's view. -/
theorem Represents.replace (h : Represents views merged) {device : DeviceObservation}
    {position : Nat} (hknown : merged.seen device.key = some (position, false)) :
    Represents (Merge.place DeviceObservation.key views (device, true))
      { merged with
        devices := merged.devices.set position device
        seen := Function.update merged.seen device.key (some (position, true)) } := by
  rcases (h.seen _ _ _).mp hknown with ⟨old, hold, hkey⟩
  have hlt := (List.getElem?_eq_some_iff.mp hold).choose
  have honly : ∀ (j : Nat) (view : DeviceObservation × Bool), views[j]? = some view →
      view.1.key = device.key → j = position :=
    fun j view hview hsame => h.position_unique hview hold (hsame.trans hkey.symm)
  have hplaced : Merge.place DeviceObservation.key views (device, true) =
      views.set position (device, true) := by
    rw [Merge.place_of_known hold hkey honly]
    rfl
  -- Only the position of the device changes, and its mark.
  rw [hplaced]
  refine ⟨by rw [h.devices, List.map_set], fun key j marked => ?_⟩
  by_cases hsame : key = device.key
  · subst hsame
    simp only [Function.update_self, Option.some.injEq, Prod.mk.injEq]
    constructor
    · rintro ⟨rfl, rfl⟩
      exact ⟨device, List.getElem?_set_self hlt, rfl⟩
    · rintro ⟨found, hat, hfound⟩
      by_cases hj : j = position
      · subst hj
        rw [List.getElem?_set_self hlt, Option.some.injEq, Prod.mk.injEq] at hat
        exact ⟨rfl, hat.2⟩
      · rw [List.getElem?_set_ne (Ne.symm hj)] at hat
        exact absurd (honly j _ hat hfound) hj
  · simp only [Function.update_of_ne hsame, h.seen key j marked]
    refine exists_congr fun found => and_congr_left fun hfound => ?_
    by_cases hj : j = position
    · subst hj
      rw [hold, List.getElem?_set_self hlt]
      constructor
      · intro hat
        rw [Option.some.injEq, Prod.mk.injEq] at hat
        rw [← hat.1, hkey] at hfound
        exact absurd hfound.symm hsame
      · intro hat
        rw [Option.some.injEq, Prod.mk.injEq] at hat
        rw [← hat.1] at hfound
        exact absurd hfound.symm hsame
    · rw [List.getElem?_set_ne (Ne.symm hj)]

/-- Taking over a view is placing a record. -/
theorem Represents.insert (h : Represents views merged) (device : DeviceObservation)
    (owned : Bool) :
    Represents (Merge.place DeviceObservation.key views (device, owned))
      (merged.insert device owned) := by
  -- A view that is not taken over leaves everything as it is.
  have hkept : ∀ {position marked}, merged.seen device.key = some (position, marked) →
      (!marked && owned) = false →
        Represents (Merge.place DeviceObservation.key views (device, owned)) merged := by
    intro position marked hknown hskip
    -- The record that stands there is the only one of its key.
    rcases (h.seen _ _ _).mp hknown with ⟨old, hold, hkey⟩
    have honly : ∀ (j : Nat) (view : DeviceObservation × Bool), views[j]? = some view →
        view.1.key = device.key → j = position :=
      fun j view hview hsame => h.position_unique hview hold (hsame.trans hkey.symm)
    rw [Merge.place_of_known hold hkey honly, if_neg (by rw [hskip]; exact Bool.false_ne_true)]
    exact h
  unfold MergedViews.insert
  cases hseen : merged.seen device.key with
  | none => exact h.push hseen
  | some known =>
      rcases known with ⟨position, _ | _⟩
      · cases owned with
        | true => exact h.replace hseen
        | false => exact hkept hseen rfl
      · exact hkept hseen rfl

end Views

section Queries

/-- The views a backend has of devices, marked when it owns them. -/
def viewsOf (io : NetworkBackend β) (backend : β) (devices : List DeviceObservation) :
    List (DeviceObservation × Bool) :=
  devices.map fun device => (device, owns io backend device.identity.deviceType)

/-- A backend answers a selector with these devices, or finds nothing when there
    are none. -/
inductive Answers (io : NetworkBackend β) (backend : β) (selector : Match) :
    List DeviceObservation → Prop where
  | found {devices : List DeviceObservation} {diagnostics : List Diagnostic} :
      io.query backend selector = .ok ⟨devices, diagnostics⟩ → Answers io backend selector devices
  | missing {e : BackendError} : io.query backend selector = .error e → e.kind = .notFound →
      Answers io backend selector []

variable {views : List (DeviceObservation × Bool)} {merged : MergedViews} {selector : Match}

/-- Taking over the devices of a backend is placing them one by one. -/
theorem mergeDevices_represents {backend : β} {devices : List DeviceObservation}
    (h : Represents views merged)
    (hown : ∀ device ∈ devices, device.identity.namespaceId = io.namespaceId backend) :
    ∃ merged', devices.foldlM (mergeDevice io backend) merged = .ok merged' ∧
      Represents ((viewsOf io backend devices).foldl (Merge.place DeviceObservation.key) views)
        merged' := by
  induction devices generalizing views merged with
  | nil => exact ⟨merged, rfl, h⟩
  | cons device devices ih =>
      rw [List.forall_mem_cons] at hown
      rcases ih (h.insert device (owns io backend device.identity.deviceType)) hown.2 with
        ⟨merged', hfold, hrepresents⟩
      refine ⟨merged', ?_, hrepresents⟩
      rw [List.foldlM_cons, mergeDevice, if_neg (not_not_intro hown.1)]
      exact hfold

/-- Taking over the answers of backends is placing all their views. -/
theorem mergeAnswers_represents {answers : β → List DeviceObservation} {backends : List β}
    (h : Represents views merged)
    (hanswers : ∀ backend ∈ backends, Answers io backend selector (answers backend))
    (hown : ∀ backend ∈ backends, ∀ device ∈ answers backend,
      device.identity.namespaceId = io.namespaceId backend) :
    ∃ merged', backends.foldlM
        (fun result backend => mergeAnswer io backend result (io.query backend selector)) merged =
          .ok merged' ∧
      Represents ((backends.flatMap fun backend => viewsOf io backend (answers backend)).foldl
        (Merge.place DeviceObservation.key) views) merged' := by
  induction backends generalizing views merged with
  | nil => exact ⟨merged, rfl, h⟩
  | cons backend backends ih =>
      rw [List.forall_mem_cons] at hanswers hown
      rw [List.flatMap_cons, List.foldl_append]
      have hone : ∃ merged₁, mergeAnswer io backend merged (io.query backend selector) =
          .ok merged₁ ∧ Represents ((viewsOf io backend (answers backend)).foldl
            (Merge.place DeviceObservation.key) views) merged₁ := by
        generalize hdevices : answers backend = devices at hanswers hown
        cases hanswers.1 with
        -- A backend that finds nothing contributes nothing.
        | missing hquery hkind =>
            refine ⟨merged, ?_, h⟩
            rw [hquery, mergeAnswer, if_pos hkind]
        | @found _ diagnostics hquery =>
            -- The diagnostics are taken over first, and say nothing of the devices.
            have hbegun : Represents views
                { merged with diagnostics := merged.diagnostics ++ diagnostics } :=
              ⟨h.devices, h.seen⟩
            rw [hquery]
            exact mergeDevices_represents hbegun hown.1
      rcases hone with ⟨merged₁, hfirst, hrepresents₁⟩
      rcases ih hrepresents₁ hanswers.2 hown.2 with ⟨merged', hrest, hrepresents⟩
      refine ⟨merged', ?_, hrepresents⟩
      rw [List.foldlM_cons, hfirst]
      exact hrest

/-- What is asked of backends: complete inventories of their own namespace, a
    query by name answered with the devices of that name, one name for each
    interface, and that name in its selector. -/
structure Discovers (io : NetworkBackend β) (backends : List β)
    (inventory : β → List DeviceObservation) : Prop where
  full : ∀ backend ∈ backends, ∃ diagnostics,
    io.query backend {} = .ok ⟨inventory backend, diagnostics⟩
  own : ∀ backend ∈ backends, ∀ device ∈ inventory backend,
    device.identity.namespaceId = io.namespaceId backend
  named : ∀ backend ∈ backends, ∀ name, Answers io backend (nameSelector name)
    ((inventory backend).filter fun device => (nameSelector name).matches' device.state.matchSpec)
  oneName : ∀ a ∈ backends, ∀ b ∈ backends, ∀ device ∈ inventory a, ∀ device' ∈ inventory b,
    device.key = device'.key → device.identity.name = device'.identity.name
  selectorName : ∀ backend ∈ backends, ∀ device ∈ inventory backend,
    device.state.matchSpec.name = some device.identity.name

/-- The backends of a namespace. -/
def inNamespace (io : NetworkBackend β) (registry : BackendRegistry β) (namespaceId : NamespaceId) :
    List β :=
  registry.backends.filter fun backend => namespaceId == io.namespaceId backend

/-- All views of a namespace's devices, backend by backend. -/
def allViews (io : NetworkBackend β) (registry : BackendRegistry β) (namespaceId : NamespaceId)
    (answers : β → List DeviceObservation) : List (DeviceObservation × Bool) :=
  (inNamespace io registry namespaceId).flatMap fun backend => viewsOf io backend (answers backend)

/-- The devices a namespace's backends answer with, merged. -/
def mergedDevices (io : NetworkBackend β) (registry : BackendRegistry β)
    (namespaceId : NamespaceId) (answers : β → List DeviceObservation) : List DeviceObservation :=
  ((allViews io registry namespaceId answers).foldl (Merge.place DeviceObservation.key) []).map
    Prod.fst

/-- A query of a namespace finds the merged devices, or fails when it is by name
    and there are none. -/
theorem queryInNamespace_eq {answers : β → List DeviceObservation} {namespaceId : NamespaceId}
    (hanswers : ∀ backend ∈ registry.backends, Answers io backend selector (answers backend))
    (hown : ∀ backend ∈ registry.backends, ∀ device ∈ answers backend,
      device.identity.namespaceId = io.namespaceId backend) :
    (∃ observation, registry.queryInNamespace io selector (some namespaceId) = .ok observation ∧
        observation.devices = mergedDevices io registry namespaceId answers) ∨
      (selector.name.isSome = true ∧ mergedDevices io registry namespaceId answers = [] ∧
        ∃ e, registry.queryInNamespace io selector (some namespaceId) = .error e) := by
  have hsubset : ∀ backend ∈ inNamespace io registry namespaceId, backend ∈ registry.backends :=
    fun backend hmem => List.mem_of_mem_filter hmem
  rcases mergeAnswers_represents represents_empty
      (fun backend hmem => hanswers backend (hsubset backend hmem))
      (fun backend hmem => hown backend (hsubset backend hmem)) with
    ⟨merged, hfold, hrepresents⟩
  have hdevices : merged.devices = mergedDevices io registry namespaceId answers :=
    hrepresents.devices
  have hquery : registry.queryInNamespace io selector (some namespaceId) =
      if selector.name.isSome && merged.devices.isEmpty then
        .error (.new .notFound "named interface was not found in the registered namespaces")
      else .ok { devices := merged.devices, diagnostics := merged.diagnostics } := by
    unfold queryInNamespace
    simp only
    rw [show registry.backends.filter (fun backend => namespaceId == io.namespaceId backend) =
      inNamespace io registry namespaceId from rfl, hfold]
    rfl
  rw [hquery]
  -- Only a query by name that finds nothing fails.
  by_cases hempty : (selector.name.isSome && merged.devices.isEmpty) = true
  · rw [if_pos hempty]
    rw [Bool.and_eq_true, List.isEmpty_iff, hdevices] at hempty
    exact Or.inr ⟨hempty.1, hempty.2, _, rfl⟩
  · rw [if_neg hempty]
    exact Or.inl ⟨_, rfl, hdevices⟩

end Queries

section Routing

variable {inventory : β → List DeviceObservation}

/-- The name selector selects a device by its name. -/
theorem selects_iff {name : String} {device : DeviceObservation}
    (h : device.state.matchSpec.name = some device.identity.name) :
    (nameSelector name).matches' device.state.matchSpec = (device.identity.name == name) := by
  simp only [nameSelector, Match.matches', Match.fieldMatches, h, Bool.and_true]
  exact Bool.beq_comm

/-- The views found by a query by name are the views of that name. -/
theorem allViews_named (h : Discovers io registry.backends inventory) {namespaceId : NamespaceId}
    {name : String} :
    allViews io registry namespaceId (fun backend => (inventory backend).filter fun device =>
        (nameSelector name).matches' device.state.matchSpec) =
      (allViews io registry namespaceId inventory).filter fun view =>
        view.1.identity.name == name := by
  unfold allViews
  rw [List.filter_flatMap]
  refine List.flatMap_congr fun backend hmem => ?_
  have hregistered : backend ∈ registry.backends := List.mem_of_mem_filter hmem
  unfold viewsOf
  rw [List.filter_map]
  refine congrArg _ (List.filter_congr fun device hdevice => ?_)
  rw [selects_iff (h.selectorName backend hregistered device hdevice)]
  rfl

theorem mem_allViews {namespaceId : NamespaceId} {view : DeviceObservation × Bool}
    (hmem : view ∈ allViews io registry namespaceId inventory) :
    ∃ backend ∈ registry.backends, view.1 ∈ inventory backend := by
  rcases List.mem_flatMap.mp hmem with ⟨backend, hbackend, hview⟩
  rcases List.mem_map.mp hview with ⟨device, hdevice, rfl⟩
  exact ⟨backend, List.mem_of_mem_filter hbackend, hdevice⟩

/-- What a query by name merges to is what the full query does, of that name. -/
theorem mergedDevices_named (h : Discovers io registry.backends inventory)
    {namespaceId : NamespaceId} {name : String} :
    mergedDevices io registry namespaceId (fun backend => (inventory backend).filter fun device =>
        (nameSelector name).matches' device.state.matchSpec) =
      (mergedDevices io registry namespaceId inventory).filter fun device =>
        device.identity.name == name := by
  unfold mergedDevices
  rw [allViews_named h, List.filter_map]
  -- Merging and selecting by name commute, for a key has one name.
  have hcommutes : ((allViews io registry namespaceId inventory).foldl
        (Merge.place DeviceObservation.key) []).filter (fun view => view.1.identity.name == name) =
      ((allViews io registry namespaceId inventory).filter
        fun view => view.1.identity.name == name).foldl (Merge.place DeviceObservation.key) [] := by
    refine Merge.filter_foldl_place (p := fun device : DeviceObservation =>
      device.identity.name == name) fun a ha b hb hkey => ?_
    rw [List.nil_append] at ha hb
    rcases mem_allViews ha with ⟨owner, howner, hdevice⟩
    rcases mem_allViews hb with ⟨owner', howner', hdevice'⟩
    rw [h.oneName owner howner owner' howner' _ hdevice _ hdevice' hkey]
  exact congrArg _ hcommutes.symm

/-- A query by name discovers the device that a full query does. -/
theorem discovered_named (h : Discovers io registry.backends inventory) (target : InterfaceId) :
    ∃ full, registry.queryInNamespace io {} (some target.namespaceId) = .ok full ∧
      ((∃ named, registry.queryInNamespace io (nameSelector target.name)
            (some target.namespaceId) = .ok named ∧
          discovered named target = discovered full target) ∨
        (discovered full target = none ∧ ∃ e, registry.queryInNamespace io
          (nameSelector target.name) (some target.namespaceId) = .error e)) := by
  -- The device that is looked for has the name that was selected.
  have hselect : ∀ devices : List DeviceObservation,
      (devices.filter fun device => device.identity.name == target.name).find? (fun device =>
        device.identity.namespaceId == target.namespaceId &&
          device.identity.name == target.name) =
      devices.find? fun device => device.identity.namespaceId == target.namespaceId &&
        device.identity.name == target.name := by
    intro devices
    rw [List.find?_filter]
    refine congrArg (fun p => devices.find? p) (funext fun device => ?_)
    rw [Bool.eq_iff_iff, decide_eq_true_eq]
    exact ⟨fun hboth => hboth.2, fun hthis => ⟨(Bool.and_eq_true_iff.mp hthis).2, hthis⟩⟩
  have hfull : ∃ full, registry.queryInNamespace io {} (some target.namespaceId) = .ok full ∧
      full.devices = mergedDevices io registry target.namespaceId inventory := by
    have hanswers : ∀ backend ∈ registry.backends, Answers io backend {} (inventory backend) := by
      intro backend hmem
      rcases h.full backend hmem with ⟨diagnostics, hquery⟩
      exact Answers.found hquery
    rcases queryInNamespace_eq hanswers h.own with hok | ⟨hname, _⟩
    · exact hok
    · -- The full query is by no name, so it does not fail.
      exact absurd hname Bool.false_ne_true
  rcases hfull with ⟨full, hquery, hdevices⟩
  refine ⟨full, hquery, ?_⟩
  have hdiscovered : discovered full target =
      ((mergedDevices io registry target.namespaceId inventory).filter fun device =>
        device.identity.name == target.name).find? fun device =>
          device.identity.namespaceId == target.namespaceId &&
            device.identity.name == target.name := by
    rw [hselect, discovered, hdevices]
  have hown : ∀ backend ∈ registry.backends, ∀ device ∈ (inventory backend).filter fun device =>
      (nameSelector target.name).matches' device.state.matchSpec,
      device.identity.namespaceId = io.namespaceId backend :=
    fun backend hmem device hdevice => h.own backend hmem device (List.mem_of_mem_filter hdevice)
  rcases queryInNamespace_eq (fun backend hmem => h.named backend hmem target.name) hown with
    ⟨named, hnamed, hmerged⟩ | ⟨_, hempty, hfails⟩
  · refine Or.inl ⟨named, hnamed, ?_⟩
    rw [hdiscovered, discovered, hmerged, mergedDevices_named h]
  · refine Or.inr ⟨?_, hfails⟩
    rw [hdiscovered, ← mergedDevices_named h, hempty]
    rfl

/-- What is selected depends on the device discovered alone. -/
theorem select_congr {context : OperationContext} {first second : Observation}
    (h : discovered first context.target = discovered second context.target) :
    registry.select io context first = registry.select io context second := by
  unfold select
  simp only [h]

/-- What a selected backend is. -/
theorem select_ok {context : OperationContext} {observation : Observation} {backend : β}
    (h : registry.select io context observation = .ok backend) :
    ∃ device, discovered observation context.target = some device ∧
      device.identity = context.target ∧ backend ∈ registry.backends ∧
      io.namespaceId backend = context.target.namespaceId ∧
      owns io backend device.identity.deviceType = true ∧
      io.supportsOperation backend context.kind = true := by
  unfold select at h
  simp only at h
  split at h
  · exact absurd h (by simp)
  · next device hdevice =>
      split at h
      · exact absurd h (by simp)
      · next owner howner =>
          split at h
          · exact absurd h (by simp)
          · next hidentity =>
              split at h
              · exact absurd h (by simp)
              · next hsupports =>
                  obtain rfl := Except.ok.inj h
                  have hidentity := of_not_not hidentity
                  have hpasses := List.find?_some howner
                  rw [Bool.and_eq_true, beq_iff_eq] at hpasses
                  refine ⟨device, hdevice, hidentity, List.mem_of_find?_eq_some howner, ?_,
                    hpasses.2, ?_⟩
                  · rw [hpasses.1, hidentity]
                  · simpa using hsupports

/-- Resolving an operation is selecting from the full view of its namespace. -/
theorem resolve_iff (h : Discovers io registry.backends inventory) {index : Nat}
    {operation : Operation} {full : Observation} {backend : β}
    (hfull : registry.queryInNamespace io {} (some operation.target.namespaceId) = .ok full) :
    registry.resolve io index operation = .ok backend ↔
      registry.select io (.new index operation) full = .ok backend := by
  rcases discovered_named h operation.target with
    ⟨full', hquery, ⟨named, hnamed, hsame⟩ | ⟨hnone, e, hfails⟩⟩
  · obtain rfl : full' = full := Except.ok.inj (hquery.symm.trans hfull)
    have hresolve : registry.resolve io index operation =
        registry.select io (.new index operation) named := by
      unfold resolve
      rw [hnamed]
      rfl
    rw [hresolve, select_congr hsame]
  · obtain rfl : full' = full := Except.ok.inj (hquery.symm.trans hfull)
    have hresolve : registry.resolve io index operation = .error (e.at (.new index operation)) := by
      unfold resolve
      rw [hfails]
      rfl
    have hselect : registry.select io (.new index operation) full' =
        .error ((BackendError.new .notFound "target interface was not found").at
          (.new index operation)) := by
      unfold select
      have hthis : discovered full' (OperationContext.new index operation).target = none := hnone
      simp only [hthis]
    rw [hresolve, hselect]
    exact ⟨fun habs => absurd habs (by simp), fun habs => absurd habs (by simp)⟩

/-- The first operation selects a backend, the one resolved so far if any, and
    the others go on from it. -/
theorem resolveOperations_cons [DecidableEq β] {operation : Operation}
    {operations : List Operation} {index : Nat} {observations : NamespaceId → Option Observation}
    {resolved result : Option β} {full : Observation}
    (hobserve : registry.observeNamespace io (.new index operation) observations
      operation.target.namespaceId = .ok full) :
    registry.resolveOperations io (operation :: operations) index observations resolved =
        .ok result ↔
      ∃ backend, registry.select io (.new index operation) full = .ok backend ∧
        (∀ first, resolved = some first → first = backend) ∧
        registry.resolveOperations io operations (index + 1)
          (Function.update observations operation.target.namespaceId (some full)) (some backend) =
            .ok result := by
  rw [resolveOperations, hobserve, except_bind_eq_ok]
  simp only [Except.ok.injEq, exists_eq_left', except_bind_eq_ok]
  refine exists_congr fun backend => and_congr_right fun _ => ?_
  cases resolved with
  | none => simp
  | some first =>
      by_cases hsame : first = backend
      · simp [hsame]
      · simp [hsame]

/-- The operations of a plan resolve to a backend when each of them does, whatever
    was observed before. -/
theorem resolveOperations_iff [DecidableEq β] (h : Discovers io registry.backends inventory)
    {operations : List Operation} {index : Nat} {observations : NamespaceId → Option Observation}
    {resolved : Option β} {backend : β}
    (hobservations : ∀ namespaceId observation, observations namespaceId = some observation →
      registry.queryInNamespace io {} (some namespaceId) = .ok observation) :
    registry.resolveOperations io operations index observations resolved = .ok (some backend) ↔
      (resolved = some backend ∨ (resolved = none ∧ operations ≠ [])) ∧
        ∀ i operation, operations[i]? = some operation →
          registry.resolve io (index + i) operation = .ok backend := by
  induction operations generalizing index observations resolved with
  | nil =>
      simp only [resolveOperations, Except.ok.injEq, ne_eq, not_true_eq_false, and_false, or_false,
        List.getElem?_nil, reduceCtorEq, false_implies, implies_true, and_true]
  | cons operation operations ih =>
      rcases discovered_named h operation.target with ⟨full, hfull, _⟩
      have hobserve : registry.observeNamespace io (.new index operation) observations
          operation.target.namespaceId = .ok full := by
        unfold observeNamespace
        cases hcached : observations operation.target.namespaceId with
        -- A namespace that was observed before is not queried again.
        | none => simp only [hfull]; rfl
        | some observation =>
            rw [Except.ok.inj ((hobservations _ _ hcached).symm.trans hfull)]
      have hkept : ∀ namespaceId observation,
          Function.update observations operation.target.namespaceId (some full) namespaceId =
            some observation → registry.queryInNamespace io {} (some namespaceId) =
              .ok observation := by
        intro namespaceId observation hthere
        by_cases hsame : namespaceId = operation.target.namespaceId
        · subst hsame
          rw [Function.update_self, Option.some.injEq] at hthere
          rw [← hthere]
          exact hfull
        · rw [Function.update_of_ne hsame] at hthere
          exact hobservations _ _ hthere
      have hshift : ∀ i, index + 1 + i = index + (i + 1) := fun i => by omega
      rw [resolveOperations_cons hobserve]
      constructor
      · -- The backend of the first operation is what the others are compared with.
        rintro ⟨first, hselect, hagrees, hrest⟩
        rcases (ih hkept).mp hrest with ⟨hsame | ⟨habs, _⟩, hothers⟩
        · obtain rfl := Option.some.inj hsame
          refine ⟨?_, fun i other hother => ?_⟩
          · cases resolved with
            | none => exact Or.inr ⟨rfl, List.cons_ne_nil _ _⟩
            | some before => exact Or.inl (congrArg some (hagrees before rfl))
          · cases i with
            | zero =>
                rw [List.getElem?_cons_zero, Option.some.injEq] at hother
                subst hother
                exact (resolve_iff h hfull).mpr hselect
            | succ i =>
                rw [← hshift]
                exact hothers i other hother
        · exact absurd habs (by simp)
      · rintro ⟨hstart, hresolves⟩
        refine ⟨backend, (resolve_iff h hfull).mp (hresolves 0 operation rfl), ?_, ?_⟩
        · rintro first rfl
          rcases hstart with hsame | ⟨habs, _⟩
          · exact Option.some.inj hsame
          · exact absurd habs (by simp)
        · refine (ih hkept).mpr ⟨Or.inl rfl, fun i other hother => ?_⟩
          rw [hshift]
          exact hresolves (i + 1) other hother

/-- A plan resolves to a backend when it is not empty and all its operations do. -/
theorem resolvePlan_iff [DecidableEq β] (h : Discovers io registry.backends inventory)
    {diff : StateDiff} {backend : β} :
    registry.resolvePlan io diff = .ok backend ↔ diff.operations ≠ [] ∧
      ∀ i operation, diff.operations[i]? = some operation →
        registry.resolve io i operation = .ok backend := by
  have hoperations : registry.resolveOperations io diff.operations 0 (fun _ => none) none =
      .ok (some backend) ↔ diff.operations ≠ [] ∧
        ∀ i operation, diff.operations[i]? = some operation →
          registry.resolve io i operation = .ok backend := by
    rw [resolveOperations_iff h fun _ _ habs => absurd habs (by simp)]
    simp only [reduceCtorEq, false_or, true_and, Nat.zero_add]
  rw [← hoperations]
  unfold resolvePlan
  rw [except_bind_eq_ok]
  constructor
  · rintro ⟨resolved, hresolved, hfound⟩
    -- Nothing is resolved only when there was no operation.
    cases resolved with
    | none => exact absurd hfound (by simp)
    | some found => rw [hresolved, Except.ok.inj hfound]
  · intro hresolved
    exact ⟨some backend, hresolved, rfl⟩

end Routing

/-- Routing reaches only the unique owner. Whatever is registered, no two backends
    of a namespace own one device type, and a rejected registration changes
    nothing. When backends discover as they should, an operation is resolved only
    to the one backend of its target's namespace that owns the device discovered
    under the target's name, that device being the target in every field and the
    operation one that the backend supports; and a plan resolves to a backend when
    it has operations and all of them resolve to that backend. -/
theorem registry_routes [DecidableEq β] (io : NetworkBackend β) (registrations : List β) :
    OneOwner io ((new : BackendRegistry β).registerAll io registrations) ∧
    (∀ (registry : BackendRegistry β) backend e, (registry.register io backend).1 = .error e →
      (registry.register io backend).2 = registry) ∧
    ∀ registry inventory, registry = (new : BackendRegistry β).registerAll io registrations →
      Discovers io registry.backends inventory →
      (∀ index operation backend, registry.resolve io index operation = .ok backend →
        ∃ observation device,
          registry.queryInNamespace io (nameSelector operation.target.name)
            (some operation.target.namespaceId) = .ok observation ∧
          discovered observation operation.target = some device ∧
          device.identity = operation.target ∧ backend ∈ registry.backends ∧
          io.namespaceId backend = operation.target.namespaceId ∧
          owns io backend device.identity.deviceType = true ∧
          (∀ other ∈ registry.backends, io.namespaceId other = operation.target.namespaceId →
            owns io other device.identity.deviceType = true → other = backend) ∧
          io.supportsOperation backend operation.kind = true) ∧
      ∀ diff backend, registry.resolvePlan io diff = .ok backend ↔ diff.operations ≠ [] ∧
        ∀ i operation, diff.operations[i]? = some operation →
          registry.resolve io i operation = .ok backend := by
  refine ⟨registerAll_oneOwner registrations, fun registry backend e => register_rejected, ?_⟩
  rintro registry inventory rfl hdiscovers
  refine ⟨fun index operation backend hresolve => ?_, fun diff backend =>
    resolvePlan_iff hdiscovers⟩
  unfold resolve at hresolve
  rw [except_bind_eq_ok] at hresolve
  rcases hresolve with ⟨observation, hquery, hselect⟩
  rw [mapError_eq_ok] at hquery
  rcases select_ok hselect with ⟨device, hdevice, hidentity, hmem, hnamespace, howns, hsupports⟩
  refine ⟨observation, device, hquery, hdevice, hidentity, hmem, hnamespace, howns, ?_, hsupports⟩
  -- A second owner of the type would share it with this one.
  intro other hother hsame howns'
  exact (registerAll_oneOwner registrations).unique hother hmem (hsame.trans hnamespace.symm)
    howns' howns

/-- An Ethernet interface as a backend observes it. -/
def wiredDevice : DeviceObservation :=
  { identity :=
      { namespaceId := ⟨4, 4026531840⟩
        index := 2
        generation := 1
        name := "eth0"
        deviceType := "ethernet"
        mac := none }
    state := { State.new .kernel with matchSpec := { name := some "eth0" } }
    addresses := []
    addressesComplete := true
    observedAt := 0 }

/-- A backend that owns Ethernet devices, and sees one of them. -/
def wiredBackend : NetworkBackend Unit :=
  { namespaceId := fun _ => ⟨4, 4026531840⟩
    supportedEntities := fun _ => ["ethernet"]
    supportsOperation := fun _ _ => true
    query := fun _ selector =>
      if selector.matches' wiredDevice.state.matchSpec then .ok ⟨[wiredDevice], []⟩
      else .error (.new .notFound "interface not found") }

/-- Enabling the device. -/
def enableWired : Operation :=
  { target := wiredDevice.identity, kind := .setEnabled true, dependsOn := []
    addressGroup := none }

theorem registry_routes_wired :
    (∃ observation device, ((new : BackendRegistry Unit).registerAll wiredBackend
        [(), ()]).queryInNamespace wiredBackend (nameSelector "eth0") (some ⟨4, 4026531840⟩) =
          .ok observation ∧
        discovered observation wiredDevice.identity = some device ∧
        device.identity = wiredDevice.identity) ∧
      ((new : BackendRegistry Unit).registerAll wiredBackend [(), ()]).resolvePlan wiredBackend
        { changes := [], operations := [enableWired], diagnostics := [] } = .ok () := by
  have hdiscovers : Discovers wiredBackend
      ((new : BackendRegistry Unit).registerAll wiredBackend [(), ()]).backends
      (fun _ => [wiredDevice]) := by
    refine ⟨fun _ _ => ⟨[], rfl⟩, fun _ _ device hmem => ?_, fun _ _ name => ?_,
      fun _ _ _ _ device hmem device' hmem' _ => ?_, fun _ _ device hmem => ?_⟩
    · rw [List.mem_singleton.mp hmem]
      rfl
    · by_cases hname : (nameSelector name).matches' wiredDevice.state.matchSpec = true
      · have hfound : [wiredDevice].filter (fun device =>
            (nameSelector name).matches' device.state.matchSpec) = [wiredDevice] :=
          List.filter_cons_of_pos hname
        rw [hfound]
        exact .found (if_pos hname)
      · have hmissing : [wiredDevice].filter (fun device =>
            (nameSelector name).matches' device.state.matchSpec) = [] :=
          List.filter_cons_of_neg hname
        rw [hmissing]
        exact .missing (if_neg hname) rfl
    · rw [List.mem_singleton.mp hmem, List.mem_singleton.mp hmem']
    · rw [List.mem_singleton.mp hmem]
      rfl
  rcases registry_routes wiredBackend [(), ()] with ⟨_, _, hroutes⟩
  rcases hroutes _ _ rfl hdiscovers with ⟨hresolve, hplan⟩
  have hresolves : ((new : BackendRegistry Unit).registerAll wiredBackend [(), ()]).resolve
      wiredBackend 0 enableWired = .ok () := rfl
  rcases hresolve 0 enableWired () hresolves with ⟨observation, device, hquery, hdevice, hsame, _⟩
  refine ⟨⟨observation, device, hquery, hdevice, hsame⟩, (hplan _ ()).mpr ⟨by simp, ?_⟩⟩
  intro i operation hoperation
  cases i with
  | zero =>
      obtain rfl := Option.some.inj hoperation
      exact hresolves
  | succ i => exact absurd hoperation (by simp)

end BackendRegistry

end Netfyr
