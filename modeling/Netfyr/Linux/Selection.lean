import Netfyr.Linux.Transport

/-!
# Selective Enrichment

A query asks the driver only of the devices that may still match. The driver and
the PCI address are not known before, so the selector is first tried without
them. Whatever it refuses then it refuses afterwards as well, since asking the
driver tells nothing else of a device. So a query answers as if every driver had
been asked.

## Main definitions

* `mayMatch`: Whether a device may still match a selector.
* `Discovered`: A device before and after its driver is asked.
* `selectively`: The devices, with the drivers of some asked.
* `answerQuery`: The answer to a query.

## Theorems

* `retainMatching_mayMatch`: No device is hidden.
* `observeLinks_selectively`: The pass over a link dump asks selectively.
* `retainMatching_selectively`: Both together, and selection is a preorder.
-/

namespace Netfyr

open Interact

/-- Whether what is known of a device before its driver is asked leaves open
    that the selector selects it. -/
def mayMatch (selector spec : Match) : Bool :=
  Match.matches' { selector with driver := none, pciPath := none } spec

/-- The devices that a selector selects. -/
def retainMatching (selector : Match) (devices : List DeviceObservation) :
    List DeviceObservation :=
  devices.filter fun device => selector.matches' device.state.matchSpec

/-- The answer to a query, `describe` being how errors show a selector. -/
def answerQuery (describe : Match → String) (selector : Match) (observation : Observation) :
    Except BackendError Observation :=
  let devices := retainMatching selector observation.devices
  if devices = [] ∧ selector.name.isSome = true then
    .error (.new .notFound ("no interface matches " ++ describe selector))
  else .ok { observation with devices }

/-- A device as a link dump shows it, and as it is with its driver asked. -/
structure Discovered where
  bare : DeviceObservation
  enriched : DeviceObservation
  /-- The driver tells nothing that a selector sees but itself and the PCI
      address. -/
  tells : ∃ driver pciPath,
    enriched.state.matchSpec = { bare.state.matchSpec with driver, pciPath }

/-- A device of which nothing more is told. -/
def Discovered.untold (device : DeviceObservation) : Discovered where
  bare := device
  enriched := device
  tells := ⟨device.state.matchSpec.driver, device.state.matchSpec.pciPath, rfl⟩

/-- What is observed of a device, its driver being asked if it is wanted. -/
def Discovered.observed (wanted : Match → Bool) (self : Discovered) : DeviceObservation :=
  if wanted self.bare.state.matchSpec then self.enriched else self.bare

/-- The devices, the drivers of those wanted being asked. -/
def selectively (wanted : Match → Bool) (found : List Discovered) : List DeviceObservation :=
  found.map (Discovered.observed wanted)

/-- Whether a device is one that a packet of a link dump shows. -/
def Discovered.isShownBy (self : Discovered) (packet : RoutePacket) : Prop :=
  ∃ parsed deviceType, parseLink packet.link = .ok parsed ∧
    self.bare.state = (linkState parsed deviceType).1

/-- What a selector selects, whatever the driver tells, may match it. -/
theorem mayMatch_of_matches' {selector spec : Match} {driver pciPath : Option String}
    (h : selector.matches' { spec with driver, pciPath } = true) :
    mayMatch selector spec = true := by
  rw [Match.matches'_iff] at h
  rcases h with ⟨hname, htype, _, _, hmac⟩
  unfold mayMatch
  rw [Match.matches'_iff]
  -- A field that is not set asks for nothing.
  exact ⟨hname, htype, rfl, rfl, hmac⟩

namespace Discovered

variable {selector : Match} (self : Discovered)

/-- A device that matches in the end was one that may match. -/
theorem mayMatch_of_enriched (h : selector.matches' self.enriched.state.matchSpec = true) :
    mayMatch selector self.bare.state.matchSpec = true := by
  rcases self.tells with ⟨driver, pciPath, htells⟩
  rw [htells] at h
  exact mayMatch_of_matches' h

theorem mayMatch_of_bare (h : selector.matches' self.bare.state.matchSpec = true) :
    mayMatch selector self.bare.state.matchSpec = true := by
  have hsame : selector.matches'
      { self.bare.state.matchSpec with
        driver := self.bare.state.matchSpec.driver
        pciPath := self.bare.state.matchSpec.pciPath } = true := h
  exact mayMatch_of_matches' hsame

/-- A device is selected with its driver asked exactly when it is with the driver
    asked only if it may match, and it is the same device then. -/
theorem retainMatching_observed :
    retainMatching selector [self.observed (mayMatch selector)] =
      retainMatching selector [self.enriched] := by
  unfold observed
  by_cases hmay : mayMatch selector self.bare.state.matchSpec = true
  · rw [if_pos hmay]
  · rw [if_neg hmay]
    -- A device that may not match is refused with its driver and without.
    have hbare : ¬ selector.matches' self.bare.state.matchSpec = true :=
      fun h => hmay (self.mayMatch_of_bare h)
    have henriched : ¬ selector.matches' self.enriched.state.matchSpec = true :=
      fun h => hmay (self.mayMatch_of_enriched h)
    simp only [retainMatching, List.filter_cons, hbare, henriched, Bool.false_eq_true, if_false]

end Discovered

theorem retainMatching_cons (selector : Match) (device : DeviceObservation)
    (devices : List DeviceObservation) :
    retainMatching selector (device :: devices) =
      retainMatching selector [device] ++ retainMatching selector devices := by
  unfold retainMatching
  rw [← List.singleton_append, List.filter_append]

/-- Asking only the drivers of the devices that may match hides no device. -/
theorem retainMatching_mayMatch (selector : Match) (found : List Discovered) :
    retainMatching selector (selectively (mayMatch selector) found) =
      retainMatching selector (selectively (fun _ => true) found) := by
  induction found with
  | nil => rfl
  | cons device found ih =>
      have hone : retainMatching selector [device.observed (mayMatch selector)] =
          retainMatching selector [device.enriched] := device.retainMatching_observed
      unfold selectively at *
      rw [List.map_cons, List.map_cons, retainMatching_cons, ih, hone, ← retainMatching_cons]
      rfl

namespace LinuxTransport

variable {transport transport' : LinuxTransport} {tr : List TransportEvent}
  {enrich : Match → Bool}

theorem insertDriver_matchSpec (state : State) (driver : Option String) :
    (insertDriver state driver).matchSpec = state.matchSpec := by
  cases driver with
  | none => rfl
  | some driver => rfl

/-- Asking a driver tells a selector nothing but the driver and the PCI address. -/
theorem enrichDriver_tells {identity : InterfaceId} {state : State}
    {diagnostics : List Diagnostic} {out : State × List Diagnostic}
    (h : (enrichDriver identity state diagnostics).Runs transport tr (.ok out) transport') :
    ∃ driver pciPath, out.1.matchSpec = { state.matchSpec with driver, pciPath } := by
  rcases Action.runs_bind_ok.mp h with ⟨answer, s₁, t₁, t₂, rfl, _, hrest⟩
  cases answer with
  | ok told =>
      rcases Action.runs_pure.mp hrest with ⟨_, hout, _⟩
      rw [Except.ok.injEq] at hout
      refine ⟨told.1, told.2, ?_⟩
      rw [hout]
      dsimp only
      rw [insertDriver_matchSpec]
  | error e =>
      -- Nothing is told then, so both stay what they are.
      refine ⟨state.matchSpec.driver, state.matchSpec.pciPath, ?_⟩
      dsimp only at hrest
      split at hrest
      · rcases Action.runs_pure.mp hrest with ⟨_, hout, _⟩
        rw [Except.ok.inj hout]
      · split at hrest
        · rcases Action.runs_fail.mp hrest with ⟨_, hout, _⟩
          exact absurd hout (by simp only [reduceCtorEq, not_false_eq_true])
        · rcases Action.runs_pure.mp hrest with ⟨_, hout, _⟩
          rw [Except.ok.inj hout]

/-- One packet of a link dump adds one device, whose driver is asked if it is
    wanted. -/
theorem observeLink_selectively {wireless : Option (List UInt32)} {observedAt : Instant}
    {sweep sweep' : LinkSweep} {packet : RoutePacket}
    (h : (observeLink enrich wireless observedAt sweep packet).Runs transport tr (.ok sweep')
      transport') :
    ∃ device : Discovered, sweep'.devices = sweep.devices ++ selectively enrich [device] ∧
      device.isShownBy packet := by
  rcases Action.runs_failWhen_bind_ok.mp h with ⟨_, h₁⟩
  rcases Action.runs_ofExcept_bind_ok.mp h₁ with ⟨parsed, hparsed, h₂⟩
  rcases Action.runs_bind_ok.mp h₂ with ⟨answer, s₁, t₁, t₂, rfl, _, h₃⟩
  rcases Action.runs_ofExcept_bind_ok.mp h₃ with ⟨legacy, _, h₄⟩
  rcases Action.runs_bind_ok.mp h₄ with ⟨generation, s₂, t₃, t₄, rfl, _, h₅⟩
  have h₆ := Action.runs_get_bind.mp h₅
  rcases Action.runs_bind_ok.mp h₆ with ⟨enriched, s₃, t₅, t₆, rfl, henrich, h₇⟩
  rcases Action.runs_pure.mp h₇ with ⟨_, hsweep, _⟩
  rw [Except.ok.injEq] at hsweep
  subst hsweep
  -- Both forms of the device differ in nothing but the state.
  let shown := linkState parsed (if legacy then "wifi" else classifyLink parsed wireless)
  let device (state : State) : DeviceObservation :=
    { identity :=
        { namespaceId := s₂.namespaceId, index := parsed.message.header.index, generation
          name := parsed.name
          deviceType := if legacy then "wifi" else classifyLink parsed wireless
          mac := shown.2 }
      state, addresses := []
      addressesComplete :=
        (if legacy then "wifi" else classifyLink parsed wireless) == ethernet
      observedAt }
  unfold enrichDevice at henrich
  by_cases hwanted : enrich shown.1.matchSpec = true
  · rw [if_pos hwanted] at henrich
    refine ⟨⟨device shown.1, device enriched.1, enrichDriver_tells henrich⟩, ?_, parsed, _,
      hparsed, rfl⟩
    simp only [selectively, List.map_cons, List.map_nil, Discovered.observed]
    rw [if_pos hwanted]
  · rw [if_neg hwanted] at henrich
    rcases Action.runs_pure.mp henrich with ⟨_, hout, _⟩
    rw [Except.ok.injEq] at hout
    refine ⟨Discovered.untold (device shown.1), ?_, parsed, _, hparsed, rfl⟩
    simp only [selectively, List.map_cons, List.map_nil, Discovered.observed,
      Discovered.untold]
    rw [if_neg hwanted, hout]

/-- The pass over a link dump adds a device for each of its packets, as the
    packet shows it, and asks the drivers of those wanted. -/
theorem observeLinks_selectively {wireless : Option (List UInt32)} {observedAt : Instant}
    {links : List RoutePacket} {sweep sweep' : LinkSweep}
    (h : (links.foldlM (observeLink enrich wireless observedAt) sweep).Runs transport tr
      (.ok sweep') transport') :
    ∃ found : List Discovered, sweep'.devices = sweep.devices ++ selectively enrich found ∧
      List.Forall₂ (fun packet (device : Discovered) => device.isShownBy packet) links found := by
  induction links generalizing sweep transport tr with
  | nil =>
      rcases Action.runs_pure.mp h with ⟨_, hsweep, _⟩
      rw [Except.ok.injEq] at hsweep
      exact ⟨[], by rw [hsweep]; exact (List.append_nil _).symm, .nil⟩
  | cons packet links ih =>
      rw [List.foldlM_cons] at h
      rcases Action.runs_bind_ok.mp h with ⟨between, s₁, t₁, t₂, rfl, hone, hrest⟩
      rcases observeLink_selectively hone with ⟨device, hdevice, hshown⟩
      rcases ih hrest with ⟨found, hfound, hall⟩
      refine ⟨device :: found, ?_, .cons hshown hall⟩
      rw [hfound, hdevice, List.append_assoc]
      rfl

end LinuxTransport

/-- The devices of a query's answer are those of the answer with every driver
    asked, and the refusal is the same. Selecting is reflexive and transitive. So
    a pass over a link dump that asks the drivers of the devices that may match
    hides none of the devices that the dump shows. -/
theorem retainMatching_selectively (describe : Match → String) (selector : Match)
    (found : List Discovered) (diagnostics diagnostics' : List Diagnostic) :
    retainMatching selector (selectively (mayMatch selector) found) =
        retainMatching selector (selectively (fun _ => true) found) ∧
      (answerQuery describe selector
          { devices := selectively (mayMatch selector) found, diagnostics }).map
          Observation.devices =
        (answerQuery describe selector
          { devices := selectively (fun _ => true) found,
            diagnostics := diagnostics' }).map Observation.devices ∧
      (∀ spec : Match, spec.matches' spec = true) ∧
      (∀ a b c : Match, a.matches' b = true → b.matches' c = true → a.matches' c = true) ∧
      (∀ policy : Match, selector.matches' policy = true →
        ∀ device ∈ retainMatching policy (selectively (fun _ => true) found),
          device ∈ retainMatching selector (selectively (mayMatch selector) found)) ∧
      ∀ (wireless : Option (List UInt32)) (observedAt : Instant) (links : List RoutePacket)
        (sweep sweep' : LinkSweep) (transport transport' : LinuxTransport)
        (tr : List TransportEvent), sweep.devices = [] →
        (links.foldlM (LinuxTransport.observeLink (mayMatch selector) wireless observedAt)
          sweep).Runs transport tr (.ok sweep') transport' →
        ∃ shown : List Discovered,
          List.Forall₂ (fun packet (device : Discovered) => device.isShownBy packet) links shown ∧
          sweep'.devices = selectively (mayMatch selector) shown ∧
          retainMatching selector sweep'.devices =
            retainMatching selector (selectively (fun _ => true) shown) := by
  have hsame := retainMatching_mayMatch selector found
  refine ⟨hsame, ?_, Match.matches'_refl, fun a b c => Match.matches'_trans, ?_, ?_⟩
  · unfold answerQuery
    rw [hsame]
    dsimp only
    by_cases hnone : retainMatching selector (selectively (fun _ => true) found) = [] ∧
        selector.name.isSome = true
    · rw [if_pos hnone, if_pos hnone]
    · rw [if_neg hnone, if_neg hnone]
      rfl
  · intro policy hpolicy device hmem
    rw [hsame]
    unfold retainMatching at *
    rw [List.mem_filter] at *
    exact ⟨hmem.1, Match.matches'_trans hpolicy hmem.2⟩
  · intro wireless observedAt links sweep sweep' transport transport' tr hempty hpass
    rcases LinuxTransport.observeLinks_selectively hpass with ⟨shown, hdevices, hall⟩
    rw [hempty, List.nil_append] at hdevices
    refine ⟨shown, hall, hdevices, ?_⟩
    rw [hdevices]
    exact retainMatching_mayMatch selector shown

end Netfyr
