import Netfyr.Linux.Remembered

/-!
# What Makes a Device Manageable

Only a device of type Ethernet is written to, and a wireless device has the link
layer of one. So the type is not read off a link alone. Each inventory asks for
the wireless devices, and asks the kernel about every device by its name, with
the index looked up before and after; a device is shown as Ethernet only if the
answer about it was no, and if its kind says so or a list of the wireless devices
was received that does not have it.

A device the type of which is settled keeps it: neither the link modes nor the
addresses that are added to it change what it is.

## Main definitions

* `AskedWireless`: The question about a device, between two looks at its index.
* `Classified`: What the type of a device was made of.
* `SeenEthernet`: What shows that a device is one of Ethernet.

## Theorems

* `classifyLink_eq_ethernet`: When a link is one of Ethernet.
* `observeLink_classified`, `enrichLinkModes_identities`,
  `observeAddresses_identities`: The passes of an inventory.
* `inventory_classified`: What the types of an inventory are made of.
* `inventory_ethernet`: What an inventory shows as Ethernet was seen to be.
-/

namespace Netfyr

open Interact

/-- When a link is one of Ethernet: its kind says so, or it has no kind, the link
    layer, and is not among the wireless devices, which are known. -/
theorem classifyLink_eq_ethernet {link : ParsedLink} {wireless : Option (List UInt32)}
    (h : classifyLink link wireless = ethernet) :
    link.kindValid = true ∧
      ((∃ kind, link.message.attributes.findSome? infoKind? = some kind ∧
          (kind = .veth ∨ kind.display = ethernet)) ∨
        link.message.attributes.findSome? infoKind? = none ∧
          link.message.header.linkLayerType = .ether ∧
            ∃ indices, wireless = some indices ∧ link.message.header.index ∉ indices) := by
  unfold classifyLink at h
  by_cases hvalid : link.kindValid = true
  · refine ⟨hvalid, ?_⟩
    rw [hvalid, Bool.not_true, if_neg Bool.false_ne_true] at h
    cases hkind : link.message.attributes.findSome? infoKind? with
    | some kind =>
        rw [hkind] at h
        cases kind with
        | veth => exact Or.inl ⟨.veth, rfl, Or.inl rfl⟩
        | other text => exact Or.inl ⟨.other text, rfl, Or.inr h⟩
    | none =>
        rw [hkind] at h
        dsimp only at h
        by_cases hloopback : link.message.header.linkLayerType = .loopback
        · rw [if_pos hloopback] at h
          exact absurd h (by decide)
        rw [if_neg hloopback] at h
        by_cases hwifi : (wireless.any fun indices =>
            indices.contains link.message.header.index) = true
        · rw [if_pos hwifi] at h
          exact absurd h (by decide)
        rw [if_neg hwifi] at h
        by_cases hether : link.message.header.linkLayerType = .ether ∧ wireless.isSome = true
        · rcases Option.isSome_iff_exists.mp hether.2 with ⟨indices, rfl⟩
          refine Or.inr ⟨rfl, hether.1, indices, rfl, fun hmem => hwifi ?_⟩
          exact List.contains_iff_mem.mpr hmem
        · rw [if_neg hether] at h
          exact absurd h (by decide)
  · rw [Bool.not_eq_true] at hvalid
    rw [hvalid, Bool.not_false, if_pos rfl] at h
    exact absurd h (by decide)

/-- The question whether a device answers as a wireless one, between two looks at
    the index that its name has. -/
def AskedWireless (calls : List TransportEvent) (name : String) (index : UInt32)
    (legacy : Bool) : Prop :=
  ∃ before after, calls = before ++
    [⟨.interfaceIndex name, .ok index⟩, ⟨.legacyWireless name, legacy⟩,
      ⟨.interfaceIndex name, .ok index⟩] ++ after

theorem AskedWireless.extend {calls : List TransportEvent} {name : String} {index : UInt32}
    {legacy : Bool} (h : AskedWireless calls name index legacy)
    (earlier later : List TransportEvent) :
    AskedWireless (earlier ++ calls ++ later) name index legacy := by
  rcases h with ⟨before, after, rfl⟩
  exact ⟨earlier ++ before, after ++ later, by simp⟩

/-- What the type of a device was made of: a record of the link dump, the answer
    of the device, and the list of the wireless devices, if there is one. -/
def Classified (links : List RoutePacket) (wireless : Option (List UInt32))
    (calls : List TransportEvent) (identity : InterfaceId) : Prop :=
  ∃ packet parsed legacy, packet ∈ links ∧ packet.kind = rtmNewlink ∧
    parseLink packet.link = .ok parsed ∧ parsed.name = identity.name ∧
    parsed.message.header.index = identity.index ∧
    AskedWireless calls identity.name identity.index legacy ∧
    identity.deviceType = if legacy then "wifi" else classifyLink parsed wireless

theorem Classified.extend {links : List RoutePacket} {wireless : Option (List UInt32)}
    {calls : List TransportEvent} {identity : InterfaceId}
    (h : Classified links wireless calls identity) (earlier later : List TransportEvent) :
    Classified links wireless (earlier ++ calls ++ later) identity := by
  rcases h with ⟨packet, parsed, legacy, hmem, hkind, hparsed, hname, hindex, hasked, htype⟩
  exact ⟨packet, parsed, legacy, hmem, hkind, hparsed, hname, hindex, hasked.extend earlier later,
    htype⟩

/-- The call that asks for the links. -/
def linkDump : TransportCall := .request (.getLink {}) Exchange.dump.flags

/-- What shows that the device of a name and an index is one of Ethernet: a record
    of the link dump by its kind, or without a kind by its link layer where it is not
    listed as a wireless device. Either way it does not answer as one. -/
structure SeenEthernet (calls : List TransportEvent) (name : String) (index : UInt32) : Prop where
  linked : ∃ stream links packet parsed, ⟨linkDump, .answered stream⟩ ∈ calls ∧
    collectResponse .dump stream [] = .ok links ∧ packet ∈ links ∧ packet.kind = rtmNewlink ∧
    parseLink packet.link = .ok parsed ∧ parsed.name = name ∧
    parsed.message.header.index = index ∧ parsed.kindValid = true ∧
    ((∃ kind, parsed.message.attributes.findSome? infoKind? = some kind ∧
        (kind = .veth ∨ kind.display = ethernet)) ∨
      parsed.message.attributes.findSome? infoKind? = none ∧
        parsed.message.header.linkLayerType = .ether ∧
          ∃ indices, ⟨.wirelessIndices, .ok indices⟩ ∈ calls ∧ index ∉ indices)
  asked : AskedWireless calls name index false

namespace LinuxTransport

section Questions

variable {transport transport' : LinuxTransport} {tr : List TransportEvent} {name : String}
  {index : UInt32}

/-- A look at the index of a name that finds the one expected. -/
theorem interfaceIndex_checked {answer : Except IoError UInt32}
    (h : (interfaceIndex name).Runs transport tr (.ok answer) transport')
    (hchecked : checkNamed index answer = .ok ()) :
    tr = [⟨.interfaceIndex name, .ok index⟩] ∧ ifreqFor name = .ok () := by
  have hfound : answer = .ok index := by
    unfold checkNamed at hchecked
    cases answer with
    | ok current =>
        dsimp only at hchecked
        by_cases hsame : current = index
        · rw [hsame]
        · rw [if_neg hsame] at hchecked
          exact absurd hchecked (by simp only [reduceCtorEq, not_false_eq_true])
    | error e =>
        dsimp only at hchecked
        split at hchecked
        · exact absurd hchecked (by simp only [reduceCtorEq, not_false_eq_true])
        · exact absurd hchecked (by simp only [reduceCtorEq, not_false_eq_true])
  subst hfound
  unfold interfaceIndex at h
  cases hreq : ifreqFor name with
  | error e =>
      rw [hreq] at h
      have habs := Except.ok.inj (Action.runs_pure.mp h).2.1
      exact absurd habs (by simp only [reduceCtorEq, not_false_eq_true])
  | ok _ =>
      rw [hreq] at h
      rcases h with ⟨r, rest, rfl, rfl, hout⟩
      have hsame : r = .ok index := (Except.ok.inj (Prod.mk.inj hout).1).symm
      rw [hsame]
      exact ⟨rfl, rfl⟩

/-- An answer about a device that counts was given between two looks at its
    index. -/
theorem whileNamed_legacyWireless {legacy : Bool}
    (h : (whileNamed name index do
        let wireless ← legacyWireless name
        pure (.ok wireless)).Runs transport tr (.ok (.ok legacy)) transport') :
    AskedWireless tr name index legacy := by
  unfold whileNamed at h
  rcases Action.runs_bind_ok.mp h with ⟨before, s₁, t₁, t₂, rfl, hbefore, hrest⟩
  clear h
  cases hfirst : checkNamed index before with
  | error e =>
      rw [hfirst] at hrest
      have habs := Except.ok.inj (Action.runs_pure.mp hrest).2.1
      exact absurd habs (by simp only [reduceCtorEq, not_false_eq_true])
  | ok _ =>
      rw [hfirst] at hrest
      rcases interfaceIndex_checked hbefore hfirst with ⟨rfl, hreq⟩
      rcases Action.runs_bind_ok.mp hrest with ⟨result, s₂, t₃, t₄, rfl, hcall, hlook⟩
      rcases Action.runs_bind_ok.mp hcall with ⟨wireless, s₃, t₅, t₆, rfl, hlegacy, hpure⟩
      rcases Action.runs_pure.mp hpure with ⟨rfl, hresult, _⟩
      obtain rfl := Except.ok.inj hresult
      unfold legacyWireless at hlegacy
      rw [hreq] at hlegacy
      rcases hlegacy with ⟨r, rest, rfl, rfl, hout⟩
      obtain rfl := Except.ok.inj (Prod.mk.inj hout).1
      rcases Action.runs_bind_ok.mp hlook with ⟨after, s₄, t₇, t₈, rfl, hafter, hend⟩
      cases hlast : checkNamed index after with
      | error e =>
          rw [hlast] at hend
          have habs := Except.ok.inj (Action.runs_pure.mp hend).2.1
          exact absurd habs (by simp only [reduceCtorEq, not_false_eq_true])
      | ok _ =>
          rw [hlast] at hend
          rcases interfaceIndex_checked hafter hlast with ⟨rfl, _⟩
          rcases Action.runs_pure.mp hend with ⟨rfl, hout, _⟩
          obtain rfl := Except.ok.inj (Except.ok.inj hout)
          exact ⟨[], [], rfl⟩

end Questions

section Passes

variable {enrich : Match → Bool} {wireless : Option (List UInt32)} {observedAt : Instant}
  {links : List RoutePacket} {seen tr : List TransportEvent} {transport transport' : LinuxTransport}

/-- What a pass over the links keeps: the type of every device was made of what is
    known of it. -/
def LinkSweep.Classified (links : List RoutePacket) (wireless : Option (List UInt32))
    (sweep : LinkSweep) (calls : List TransportEvent) : Prop :=
  ∀ device ∈ sweep.devices, Netfyr.Classified links wireless calls device.identity

/-- One link is one more device that is classified. -/
theorem observeLink_classified {sweep sweep' : LinkSweep} {packet : RoutePacket}
    (hmem : packet ∈ links) (h : LinkSweep.Classified links wireless sweep seen)
    (hrun : (observeLink enrich wireless observedAt sweep packet).Runs transport tr (.ok sweep')
      transport') : LinkSweep.Classified links wireless sweep' (seen ++ tr) := by
  rcases Action.runs_failWhen_bind_ok.mp hrun with ⟨hkind, hrun⟩
  rcases Action.runs_ofExcept_bind_ok.mp hrun with ⟨parsed, hparsed, hrun⟩
  rcases Action.runs_bind_ok.mp hrun with ⟨answer, s₁, t₁, t₂, rfl, hasked, hrun⟩
  rcases Action.runs_ofExcept_bind_ok.mp hrun with ⟨legacy, hlegacy, hrun⟩
  rcases Action.runs_bind_ok.mp hrun with ⟨generation, s₂, t₃, t₄, rfl, _, hrun⟩
  have hrest := Action.runs_get_bind.mp hrun
  rcases Action.runs_bind_ok.mp hrest with ⟨enriched, s₃, t₅, t₆, rfl, _, hpure⟩
  obtain rfl := Except.ok.inj (Action.runs_pure.mp hpure).2.1
  have hanswer : answer = .ok legacy := by
    cases answer with
    | error e => exact absurd hlegacy (by simp [Except.mapError])
    | ok wireless => exact congrArg _ (Except.ok.inj hlegacy)
  subst hanswer
  intro device hdevice
  rcases List.mem_append.mp hdevice with hdevice | hdevice
  · have hkept := (h device hdevice).extend [] (t₁ ++ (t₃ ++ (t₅ ++ t₆)))
    rwa [List.nil_append] at hkept
  · rw [List.mem_singleton.mp hdevice]
    have hnew := (whileNamed_legacyWireless hasked).extend seen (t₃ ++ (t₅ ++ t₆))
    rw [List.append_assoc] at hnew
    exact ⟨packet, parsed, legacy, hmem, by simpa using hkind, hparsed, rfl, rfl, hnew, rfl⟩

/-- The pass over a link dump classifies the devices by its records. -/
theorem observeLinks_classified {sweep : LinkSweep} {diagnostics : List Diagnostic}
    (hrun : (links.foldlM (observeLink enrich wireless observedAt)
      { devices := [], linkModeTargets := [], diagnostics }).Runs transport tr (.ok sweep)
        transport') : LinkSweep.Classified links wireless sweep tr :=
  Action.runs_foldlM_traced
    (fun _ _ hkept _ hmem _ _ _ _ hstep => observeLink_classified hmem hkept hstep) []
    (fun _ hnone => absurd hnone List.not_mem_nil) hrun

/-- Link modes are added to the state of a device, not to what it is. -/
theorem insertEthernet_identities {sweep sweep' : LinkSweep}
    {result : (Nat × String × UInt32) × EthtoolAnswer}
    (hrun : (insertEthernet sweep result).Runs transport tr (.ok sweep') transport') :
    sweep'.devices.map DeviceObservation.identity =
      sweep.devices.map DeviceObservation.identity := by
  rcases Action.runs_ofExcept_bind_ok.mp hrun with ⟨⟨fields, messages⟩, _, hrun⟩
  rcases Action.runs_ofOption_bind.mp hrun with ⟨device, hdevice, hpure⟩
  obtain rfl := Except.ok.inj (Action.runs_pure.mp hpure).2.1
  rcases List.getElem?_eq_some_iff.mp hdevice with ⟨hlt, rfl⟩
  dsimp only
  rw [List.map_set]
  refine List.ext_getElem (List.length_set ..) fun i hi hi' => ?_
  rw [List.getElem_set]
  by_cases hsame : result.1.1 = i
  · subst hsame
    rw [if_pos rfl, List.getElem_map]
  · rw [if_neg hsame]

theorem enrichLinkModes_identities {sweep sweep' : LinkSweep}
    (hrun : (enrichLinkModes sweep).Runs transport tr (.ok sweep') transport') :
    sweep'.devices.map DeviceObservation.identity =
      sweep.devices.map DeviceObservation.identity := by
  have hrest := Action.runs_get_bind.mp hrun
  by_cases hethtool : transport.ethtool = true
  · rw [if_pos hethtool] at hrest
    rcases Action.runs_bind_ok.mp hrest with ⟨answers, _, _, _, rfl, _, hinsert⟩
    refine Action.runs_foldlM_ok (P := fun later => later.devices.map DeviceObservation.identity =
      sweep.devices.map DeviceObservation.identity) ?_ rfl hinsert
    exact fun later hkept _ _ _ _ _ _ hstep => (insertEthernet_identities hstep).trans hkept
  · rw [if_neg hethtool] at hrest
    rw [← Except.ok.inj (Action.runs_pure.mp hrest).2.1]

end Passes

section Addresses

variable {devices : List DeviceObservation} {diagnostics : List Diagnostic}
  {packets : List RoutePacket} {sweep sweep' : AddressSweep}

theorem observeAddress_identities {packet : RoutePacket}
    (h : observeAddress sweep packet = .ok sweep') :
    sweep'.devices.map DeviceObservation.identity =
      sweep.devices.map DeviceObservation.identity := by
  rcases observeAddress_cases sweep packet with ⟨⟨error, herror⟩, _⟩ |
    ⟨message, _, _, ⟨_, hskip⟩ | ⟨device, _, _, _, ⟨_, hskip⟩ | ⟨addr, _, _, hrecorded⟩⟩⟩
  · exact absurd (herror.symm.trans h) (by simp only [reduceCtorEq, not_false_eq_true])
  · rw [← Except.ok.inj (hskip.symm.trans h)]
  · rw [← Except.ok.inj (hskip.symm.trans h)]
  -- Either way the device that is updated stays who it is.
  obtain rfl := Except.ok.inj (hrecorded.symm.trans h)
  unfold AddressSweep.record
  dsimp only
  split
  · exact map_updateFirst fun _ _ => rfl
  · exact map_updateFirst fun _ _ => rfl

/-- Addresses are added to devices, and do not change which they are. -/
theorem observeAddresses_identities
    (h : observeAddresses devices diagnostics packets = .ok sweep') :
    sweep'.devices.map DeviceObservation.identity = devices.map DeviceObservation.identity := by
  rcases except_bind_eq_ok.mp h with ⟨sweep, hfold, hmirrored⟩
  obtain rfl := Except.ok.inj hmirrored
  have hkept : ∀ {later : List RoutePacket} {first : AddressSweep},
      later.foldlM observeAddress first = .ok sweep →
      sweep.devices.map DeviceObservation.identity =
        first.devices.map DeviceObservation.identity := by
    intro later first hfold
    induction later generalizing first with
    | nil => rw [← Except.ok.inj hfold]
    | cons packet later ih =>
        rw [List.foldlM_cons] at hfold
        rcases except_bind_eq_ok.mp hfold with ⟨next, hstep, hrest⟩
        exact (ih hrest).trans (observeAddress_identities hstep)
  rw [← hkept hfold, List.map_map]
  exact List.map_congr_left fun device _ => (mirrorAddresses_same device).1

end Addresses

section Inventories

variable {enrich : Match → Bool} {tr : List TransportEvent} {transport transport' : LinuxTransport}

/-- A list of the wireless devices is one that the kernel gave. -/
theorem wirelessIndices_ok {indices : List UInt32}
    (h : wirelessIndices.Runs transport tr (.ok (.ok indices)) transport') :
    ⟨.wirelessIndices, .ok indices⟩ ∈ tr := by
  have hrest := Action.runs_get_bind.mp h
  by_cases hwireless : transport.wireless = true
  · rw [if_pos hwireless] at hrest
    rcases hrest with ⟨r, rest, rfl, rfl, hout⟩
    obtain rfl := Except.ok.inj (Prod.mk.inj hout).1
    exact List.mem_cons_self
  · rw [if_neg hwireless] at hrest
    have habs := Except.ok.inj (Action.runs_pure.mp hrest).2.1
    exact absurd habs (by simp only [reduceCtorEq, not_false_eq_true])

/-- The types of an observation are made of a link dump that was read to its end,
    and of what was asked behind it. -/
theorem observe_classified {sweep : AddressSweep}
    (h : (observe enrich).Runs transport tr (.ok sweep) transport') :
    ∃ stream links wireless, ⟨linkDump, .answered stream⟩ ∈ tr ∧
      collectResponse .dump stream [] = .ok links ∧
      (∀ indices, wireless = some indices → ⟨.wirelessIndices, .ok indices⟩ ∈ tr) ∧
      ∀ identity ∈ sweep.devices.map DeviceObservation.identity,
        Netfyr.Classified links wireless tr identity := by
  rcases Action.runs_bind_ok.mp h with ⟨links, s₁, t₁, t₂, rfl, hdump, h⟩
  rcases Action.runs_bind_ok.mp h with ⟨packets, s₂, t₃, t₄, rfl, _, h⟩
  rcases Action.runs_perform_bind.mp h with ⟨observedAt, t₅, rfl, hget⟩
  have h := Action.runs_get_bind.mp hget
  rcases Action.runs_bind_ok.mp h with ⟨answer, s₃, t₆, t₇, rfl, hwireless, h⟩
  rcases Action.runs_bind_ok.mp h with ⟨found, s₄, t₈, t₉, rfl, hlinks, h⟩
  rcases Action.runs_bind_ok.mp h with ⟨enriched, s₅, t₁₀, t₁₁, rfl, hmodes, h⟩
  have hobserved := (Action.runs_ofExcept.mp (Action.runs_modify_bind.mp h)).2.1
  rcases request_ok hdump with ⟨drained, stream, _, rfl, hcollected⟩
  refine ⟨stream, links, answer.toOption, ?_, hcollected, fun indices hindices => ?_, ?_⟩
  · exact List.mem_append_left _ (List.mem_append_right _ List.mem_cons_self)
  · cases answer with
    | error message => exact absurd hindices (by simp [Except.toOption])
    | ok _ =>
        obtain rfl := Option.some.inj hindices
        have hmem := wirelessIndices_ok hwireless
        simp [hmem]
  · -- Behind the pass over the links nobody changes who a device is.
    rw [observeAddresses_identities hobserved.symm, enrichLinkModes_identities hmodes]
    intro identity hidentity
    rcases List.mem_map.mp hidentity with ⟨device, hdevice, rfl⟩
    have hpass : LinkSweep.Classified links answer.toOption found t₈ := by
      cases answer with
      | ok _ => exact observeLinks_classified hlinks
      | error _ => exact observeLinks_classified hlinks
    have hkept := (hpass device hdevice).extend
      ((drained ++ [⟨.request (.getLink {}) (Exchange.dump.flags ||| 0), .answered stream⟩]) ++
        (t₃ ++ ⟨.now, observedAt⟩ :: t₆)) (t₁₀ ++ t₁₁)
    simpa using hkept

/-- The types of an inventory that succeeds are made of its own calls. -/
theorem inventory_classified {observation : Observation}
    (h : (inventory enrich).Runs transport tr (.ok observation) transport') :
    ∃ stream links wireless, ⟨linkDump, .answered stream⟩ ∈ tr ∧
      collectResponse .dump stream [] = .ok links ∧
      (∀ indices, wireless = some indices → ⟨.wirelessIndices, .ok indices⟩ ∈ tr) ∧
      ∀ device ∈ observation.devices, Netfyr.Classified links wireless tr device.identity := by
  rcases Action.runs_bind_ok.mp h with ⟨_, s₁, opening, rest, rfl, _, hsurvey⟩
  have hrest := Action.runs_get_bind.mp hsurvey
  rcases Action.runs_bind_ok.mp hrest with ⟨sweep, s₂, t₁, t₂, rfl, hobserve, hrest⟩
  rcases Action.runs_bind_ok.mp hrest with ⟨_, s₃, t₃, t₄, rfl, _, hconclude⟩
  rcases observe_classified hobserve with
    ⟨stream, links, wireless, hdump, hcollected, hindices, hclassified⟩
  have hconclude := Action.runs_get_bind.mp hconclude
  rcases Action.runs_ofExcept_bind_ok.mp hconclude with ⟨_, _, hconclude⟩
  rcases Action.runs_failWhen_bind_ok.mp hconclude with ⟨_, hconclude⟩
  have hpure := Action.runs_modify_bind.mp hconclude
  obtain rfl := Except.ok.inj (Action.runs_pure.mp hpure).2.1
  have hwithin : ∀ event ∈ t₁, event ∈ opening ++ (t₁ ++ (t₃ ++ t₄)) := fun event hmem =>
    List.mem_append_right _ (List.mem_append_left _ hmem)
  refine ⟨stream, links, wireless, hwithin _ hdump, hcollected,
    fun indices heq => hwithin _ (hindices indices heq), fun device hdevice => ?_⟩
  have hkept := (hclassified _ (List.mem_map_of_mem hdevice)).extend opening (t₃ ++ t₄)
  rwa [List.append_assoc] at hkept

/-- What an inventory shows as Ethernet was seen to be. -/
theorem inventory_ethernet {observation : Observation} {device : DeviceObservation}
    (h : (inventory enrich).Runs transport tr (.ok observation) transport')
    (hmem : device ∈ observation.devices) (hethernet : device.identity.deviceType = ethernet) :
    SeenEthernet tr device.identity.name device.identity.index := by
  rcases inventory_classified h with
    ⟨stream, links, wireless, hdump, hcollected, hindices, hclassified⟩
  rcases hclassified device hmem with
    ⟨packet, parsed, legacy, hpacket, hkind, hparsed, hname, hindex, hasked, htype⟩
  rw [hethernet] at htype
  cases legacy with
  | true =>
      have habs : ethernet = "wifi" := htype
      exact absurd habs (by decide)
  | false =>
      rcases classifyLink_eq_ethernet htype.symm with ⟨hvalid, hshown⟩
      refine ⟨⟨stream, links, packet, parsed, hdump, hcollected, hpacket, hkind, hparsed, hname,
        hindex, hvalid, hshown.imp_right ?_⟩, hasked⟩
      rintro ⟨hnone, hether, indices, heq, hnot⟩
      rw [hindex] at hnot
      exact ⟨hnone, hether, indices, hindices indices heq, hnot⟩

end Inventories

end LinuxTransport

end Netfyr
