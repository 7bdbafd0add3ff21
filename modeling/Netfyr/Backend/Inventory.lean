import Netfyr.Backend.Routing

/-!
# What a Merged Inventory Has

A query takes the answers of the backends in the order of their registration,
and what each reports in the order it reports it, whether or not a backend
answers twice for one interface, several own its type or none does. So the
reports are one list, and the inventory is its merge: an interface is listed
once, where it first came up, as its first owner to report it does, or as the
first to report it does when no owner does.

A query fails when a backend does, other than by finding nothing; when one
reports an interface of another namespace; and when a name was asked for and
nothing was found.

## Main definitions

* `reports`: What all backends asked report.
* `MergesReports`: An inventory is the merge of reports.
* `QueryFails`: How a query can fail.

## Theorems

* `mergeAnswers_ok`, `mergeAnswers_error`: The loop over the answers.
* `queryInNamespace_merges`: What a query returns.
-/

namespace Netfyr

namespace BackendRegistry

variable {β : Type} (io : NetworkBackend β)

/-- The backends that a query asks: all, or those of a namespace. -/
def queried (self : BackendRegistry β) (namespaceId : Option NamespaceId) : List β :=
  self.backends.filter fun backend => match namespaceId with
    | none => true
    | some namespaceId => namespaceId == io.namespaceId backend

/-- What a backend reports, marked where it owns the type; nothing when it fails. -/
def reportsOf (selector : Match) (backend : β) : List (DeviceObservation × Bool) :=
  match io.query backend selector with
  | .ok observation => viewsOf io backend observation.devices
  | .error _ => []

/-- The diagnostics of a backend that answers. -/
def diagnosticsOf (selector : Match) (backend : β) : List Diagnostic :=
  match io.query backend selector with
  | .ok observation => observation.diagnostics
  | .error _ => []

/-- What the backends asked report, in the order of their registration. -/
def reports (self : BackendRegistry β) (selector : Match) (namespaceId : Option NamespaceId) :
    List (DeviceObservation × Bool) :=
  (self.queried io namespaceId).flatMap (reportsOf io selector)

/-- The devices are the merge of the reports: each pair once, in the order of
    the first reports, as the first owner to report it does, or the first one
    when no owner reports it. -/
structure MergesReports (reports : List (DeviceObservation × Bool))
    (devices : List DeviceObservation) : Prop where
  distinct : (devices.map DeviceObservation.key).Nodup
  complete : ∀ key, key ∈ devices.map DeviceObservation.key ↔
    key ∈ reports.map fun report => report.1.key
  ordered : (devices.map DeviceObservation.key).Pairwise fun first second =>
    Merge.firstPosition DeviceObservation.key reports first <
      Merge.firstPosition DeviceObservation.key reports second
  kept : ∀ device ∈ devices,
    Merge.IsFirst (fun report => report.1.key = device.key ∧ report.2 = true) reports
        (device, true) ∨
      (∀ report ∈ reports, report.1.key = device.key → report.2 = false) ∧
        Merge.IsFirst (fun report => report.1.key = device.key) reports (device, false)

/-- How a query of backends can fail. -/
inductive QueryFails (backends : List β) (selector : Match) : BackendError → Prop where
  | failed {backend : β} {e : BackendError} : backend ∈ backends →
      io.query backend selector = .error e → e.kind ≠ .notFound → QueryFails backends selector e
  | foreign {backend : β} {observation : Observation} {device : DeviceObservation} :
      backend ∈ backends → io.query backend selector = .ok observation →
      device ∈ observation.devices → device.identity.namespaceId ≠ io.namespaceId backend →
      QueryFails backends selector
        (.new .internal "backend returned an interface from another namespace")
  | missing : selector.name.isSome = true →
      backends.flatMap (reportsOf io selector) = [] →
      QueryFails backends selector
        (.new .notFound "named interface was not found in the registered namespaces")

section Answers

variable {io} {selector : Match} {backend : β} {views : List (DeviceObservation × Bool)}
  {merged merged' : MergedViews}

/-- Taking over a view leaves the diagnostics. -/
theorem insert_diagnostics (device : DeviceObservation) (owned : Bool) :
    (merged.insert device owned).diagnostics = merged.diagnostics := by
  unfold MergedViews.insert
  split
  · split
    · rfl
    · rfl
  · rfl
  · rfl

/-- Taking over devices is placing them one by one. -/
theorem mergeDevices_ok {devices : List DeviceObservation} (h : Represents views merged)
    (hok : devices.foldlM (mergeDevice io backend) merged = .ok merged') :
    Represents ((viewsOf io backend devices).foldl (Merge.place DeviceObservation.key) views)
        merged' ∧ merged'.diagnostics = merged.diagnostics := by
  induction devices generalizing views merged with
  | nil =>
      obtain rfl := Except.ok.inj hok
      exact ⟨h, rfl⟩
  | cons device devices ih =>
      rw [List.foldlM_cons, except_bind_eq_ok] at hok
      rcases hok with ⟨next, hnext, hrest⟩
      unfold mergeDevice at hnext
      split at hnext
      · exact absurd hnext (by simp only [reduceCtorEq, not_false_eq_true])
      · obtain rfl := Except.ok.inj hnext
        -- `Represents` goes through one insertion, and the rest by induction.
        have hplaced := ih (h.insert device (owns io backend device.identity.deviceType)) hrest
        rw [insert_diagnostics] at hplaced
        exact hplaced

/-- Taking over devices fails at one of another namespace. -/
theorem mergeDevices_error {devices : List DeviceObservation} {e : BackendError}
    (herror : devices.foldlM (mergeDevice io backend) merged = .error e) :
    e = .new .internal "backend returned an interface from another namespace" ∧
      ∃ device ∈ devices, device.identity.namespaceId ≠ io.namespaceId backend := by
  induction devices generalizing merged with
  | nil => exact absurd herror (by simp only [List.foldlM_nil]; exact nofun)
  | cons device devices ih =>
      rw [List.foldlM_cons] at herror
      -- The first foreign device stops the pass.
      by_cases hown : device.identity.namespaceId = io.namespaceId backend
      · rw [mergeDevice, if_neg (not_not_intro hown)] at herror
        rcases ih herror with ⟨he, other, hmem, hforeign⟩
        exact ⟨he, other, List.mem_cons_of_mem _ hmem, hforeign⟩
      · rw [mergeDevice, if_pos hown] at herror
        exact ⟨(Except.error.inj herror).symm, device, List.mem_cons_self, hown⟩

/-- Taking over the answers of backends is placing what they report. -/
theorem mergeAnswers_ok {backends : List β} (h : Represents views merged)
    (hok : backends.foldlM (fun result backend =>
      mergeAnswer io backend result (io.query backend selector)) merged = .ok merged') :
    Represents ((backends.flatMap (reportsOf io selector)).foldl
        (Merge.place DeviceObservation.key) views) merged' ∧
      merged'.diagnostics = merged.diagnostics ++ backends.flatMap (diagnosticsOf io selector) ∧
      ∀ backend ∈ backends, ∀ e, io.query backend selector = .error e → e.kind = .notFound := by
  induction backends generalizing views merged with
  | nil =>
      obtain rfl := Except.ok.inj hok
      exact ⟨h, (List.append_nil _).symm, fun _ hmem => absurd hmem List.not_mem_nil⟩
  | cons backend backends ih =>
      rw [List.foldlM_cons, except_bind_eq_ok] at hok
      rcases hok with ⟨next, hnext, hrest⟩
      rw [List.flatMap_cons, List.flatMap_cons, List.foldl_append, List.forall_mem_cons]
      -- One answer: nothing found adds nothing, devices are placed behind what is there.
      have hfirst : Represents ((reportsOf io selector backend).foldl
          (Merge.place DeviceObservation.key) views) next ∧
          next.diagnostics = merged.diagnostics ++ diagnosticsOf io selector backend ∧
          ∀ e, io.query backend selector = .error e → e.kind = .notFound := by
        unfold reportsOf diagnosticsOf
        cases hquery : io.query backend selector with
        | error e =>
            rw [hquery, mergeAnswer] at hnext
            split at hnext
            · next hkind =>
                obtain rfl := Except.ok.inj hnext
                refine ⟨h, (List.append_nil _).symm, fun e' heq => ?_⟩
                rw [← Except.error.inj heq]
                exact hkind
            · exact absurd hnext (by simp only [reduceCtorEq, not_false_eq_true])
        | ok observation =>
            rw [hquery, mergeAnswer] at hnext
            have hbegun : Represents views
                { merged with diagnostics := merged.diagnostics ++ observation.diagnostics } :=
              ⟨h.devices, h.seen⟩
            rcases mergeDevices_ok hbegun hnext with ⟨hplaced, hdiagnostics⟩
            refine ⟨hplaced, hdiagnostics, fun e heq => ?_⟩
            exact absurd heq (by simp only [reduceCtorEq, not_false_eq_true])
      rcases ih hfirst.1 hrest with ⟨hplaced, hdiagnostics, hmissing⟩
      refine ⟨hplaced, ?_, hfirst.2.2, hmissing⟩
      rw [hdiagnostics, hfirst.2.1, List.append_assoc]

/-- Taking over the answers of backends fails with one of them. -/
theorem mergeAnswers_error {backends : List β} {e : BackendError}
    (herror : backends.foldlM (fun result backend =>
      mergeAnswer io backend result (io.query backend selector)) merged = .error e) :
    ∃ backend ∈ backends,
      (io.query backend selector = .error e ∧ e.kind ≠ .notFound) ∨
        ∃ observation, io.query backend selector = .ok observation ∧
          e = .new .internal "backend returned an interface from another namespace" ∧
          ∃ device ∈ observation.devices,
            device.identity.namespaceId ≠ io.namespaceId backend := by
  induction backends generalizing merged with
  | nil => exact absurd herror (by simp only [List.foldlM_nil]; exact nofun)
  | cons backend backends ih =>
      rw [List.foldlM_cons] at herror
      rcases hfirst : mergeAnswer io backend merged (io.query backend selector) with e' | next
      · -- This answer is the one that fails.
        rw [hfirst] at herror
        obtain rfl := Except.error.inj herror
        refine ⟨backend, List.mem_cons_self, ?_⟩
        cases hquery : io.query backend selector with
        | error own =>
            rw [hquery, mergeAnswer] at hfirst
            split at hfirst
            · exact absurd hfirst (by simp only [reduceCtorEq, not_false_eq_true])
            · next hkind =>
                obtain rfl := Except.error.inj hfirst
                exact Or.inl ⟨rfl, hkind⟩
        | ok observation =>
            rw [hquery, mergeAnswer] at hfirst
            exact Or.inr ⟨observation, rfl, mergeDevices_error hfirst⟩
      · rw [hfirst] at herror
        -- A later answer fails.
        rcases ih herror with ⟨other, hmem, hfails⟩
        exact ⟨other, List.mem_cons_of_mem _ hmem, hfails⟩

/-- The records of merged reports are the merge of the reports. -/
theorem mergesReports_of_represents {reports : List (DeviceObservation × Bool)}
    (h : Represents (reports.foldl (Merge.place DeviceObservation.key) []) merged) :
    MergesReports reports merged.devices := by
  have hkeeps : Merge.Keeps DeviceObservation.key reports
      (reports.foldl (Merge.place DeviceObservation.key) []) := Merge.keeps_foldl_place reports
  have hkeys : merged.devices.map DeviceObservation.key =
      (reports.foldl (Merge.place DeviceObservation.key) []).map fun view => view.1.key := by
    rw [h.devices, List.map_map]
    rfl
  refine ⟨?_, fun key => ?_, ?_, fun device hmem => ?_⟩
  · rw [hkeys]
    exact hkeeps.nodup
  · rw [hkeys]
    exact hkeeps.complete key
  · rw [hkeys]
    exact hkeeps.ordered
  · rw [h.devices, List.mem_map] at hmem
    rcases hmem with ⟨⟨device, owned⟩, hview, rfl⟩
    -- What is kept for a key is an owner's, or nobody owns it.
    have hchosen := Merge.chosen_isFirst (hkeeps.kept _ hview)
    rcases hchosen with hpreferred | ⟨hnone, hfirst⟩
    · left
      obtain rfl : owned = true := hpreferred.1.2
      exact hpreferred
    · right
      obtain rfl : owned = false := by
        rcases hfirst.2 with ⟨before, after, heq, _⟩
        have hreported : (device, owned) ∈ reports := by
          rw [heq]
          exact List.mem_append_right _ List.mem_cons_self
        exact hnone _ hreported rfl
      exact ⟨hnone, hfirst⟩

end Answers

/-- A query that succeeds returns the merge of the reports with all diagnostics,
    and every backend asked answered or found nothing; one that fails does so for
    a reason. -/
theorem queryInNamespace_merges (registry : BackendRegistry β) (selector : Match)
    (namespaceId : Option NamespaceId) :
    (∀ observation, registry.queryInNamespace io selector namespaceId = .ok observation →
      MergesReports (registry.reports io selector namespaceId) observation.devices ∧
        observation.diagnostics =
          (registry.queried io namespaceId).flatMap (diagnosticsOf io selector) ∧
        ∀ backend ∈ registry.queried io namespaceId, ∀ e,
          io.query backend selector = .error e → e.kind = .notFound) ∧
    ∀ e, registry.queryInNamespace io selector namespaceId = .error e →
      QueryFails io (registry.queried io namespaceId) selector e := by
  -- Both ways to ask are one loop over the backends asked.
  have hquery : registry.queryInNamespace io selector namespaceId =
      ((registry.queried io namespaceId).foldlM (fun result backend =>
        mergeAnswer io backend result (io.query backend selector)) {} >>= fun result =>
        if selector.name.isSome && result.devices.isEmpty then
          .error (.new .notFound "named interface was not found in the registered namespaces")
        else .ok { devices := result.devices, diagnostics := result.diagnostics }) := by
    unfold queryInNamespace queried
    cases namespaceId with
    | none => rfl
    | some _ => rfl
  rw [hquery]
  refine ⟨fun observation hok => ?_, fun e herror => ?_⟩
  · rw [except_bind_eq_ok] at hok
    rcases hok with ⟨merged, hmerged, hrest⟩
    split at hrest
    · exact absurd hrest (by simp only [reduceCtorEq, not_false_eq_true])
    · obtain rfl := Except.ok.inj hrest
      rcases mergeAnswers_ok represents_empty hmerged with ⟨hplaced, hdiagnostics, hmissing⟩
      exact ⟨mergesReports_of_represents hplaced, hdiagnostics, hmissing⟩
  · cases hmerged : (registry.queried io namespaceId).foldlM (fun result backend =>
        mergeAnswer io backend result (io.query backend selector)) {} with
    | error e' =>
        rw [hmerged] at herror
        obtain rfl := Except.error.inj herror
        rcases mergeAnswers_error hmerged with ⟨backend, hmem, ⟨hown, hkind⟩ |
          ⟨observation, hok, rfl, device, hdevice, hforeign⟩⟩
        · exact .failed hmem hown hkind
        · exact .foreign hmem hok hdevice hforeign
    | ok merged =>
        rw [hmerged] at herror
        change (if selector.name.isSome && merged.devices.isEmpty then _ else _) = _ at herror
        split at herror
        · next hempty =>
            obtain rfl := Except.error.inj herror
            -- No device is listed, so none was reported.
            rw [Bool.and_eq_true, List.isEmpty_iff] at hempty
            have hmerges := mergesReports_of_represents (mergeAnswers_ok represents_empty hmerged).1
            rw [hempty.2] at hmerges
            refine .missing hempty.1 (List.eq_nil_iff_forall_not_mem.mpr fun report hmem => ?_)
            have hkey := (hmerges.complete report.1.key).mpr (List.mem_map.mpr ⟨report, hmem, rfl⟩)
            exact absurd hkey List.not_mem_nil
        · exact absurd herror (by simp only [reduceCtorEq, not_false_eq_true])

end BackendRegistry

end Netfyr
