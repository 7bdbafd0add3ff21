import Netfyr.Linux.Classified

/-!
# The Wireless Inventory

A wireless device has the link layer of Ethernet, and is told apart by the list of
the wireless devices alone. A list that is cut short would make a wireless device one
of Ethernet, so there is a list only when the kernel has ended the dump without an
error, nothing of it was interrupted, and every message before the end was read. A
kernel without wireless devices at all does not know the family that is asked for,
and that is a list too, an empty one.

Whatever else comes of the exchange is no list, and without one no device is Ethernet
by its link layer.

## Main definitions

* `WirelessAnswer`: What comes of asking for the wireless devices.
* `WirelessAnswer.collected`: The list made of it.
* `WirelessAnswer.Omits`: A complete list without a device.

## Theorems

* `collectWireless_complete`, `collectWireless_ok`: A complete dump makes a list, and
  no other does.
* `classifyLink_wireless_iff`: A link is Ethernet by its link layer exactly when a
  complete list omits it.
-/

namespace Netfyr

/-- An attribute of a message about a wireless device. -/
inductive Nl80211Attr where
  | ifIndex (index : UInt32)
  | other

/-- What such a message carries. -/
inductive WirelessPayload where
  | innerMessage (attributes : List Nl80211Attr)
  | error (code : Option Int) (message : String)
  | done (code : Int)
  | noop
  | overrun

/-- A message of the dump. -/
structure WirelessMessage where
  flags : BitVec 16
  payload : WirelessPayload

/-- The index that an attribute gives. -/
def Nl80211Attr.index? : Nl80211Attr → Option UInt32
  | .ifIndex index => some index
  | .other => none

/-- Add an index to those found before. -/
def insertIndex (indices : List UInt32) (index : UInt32) : List UInt32 :=
  if index ∈ indices then indices else indices ++ [index]

/-- Collect the indices of a dump. A message that cannot be read is given by its
    error. -/
def collectWireless : List (Except String WirelessMessage) → List UInt32 →
    Except String (List UInt32)
  | [], _ => .error "wireless inventory closed without completion"
  | .error message :: _, _ => .error s!"invalid wireless inventory: {message}"
  | .ok message :: responses, indices =>
      if message.flags &&& nlmFDumpIntr ≠ 0 then .error "wireless inventory interrupted"
      else
        match message.payload with
        | .innerMessage attributes =>
            collectWireless responses
              ((attributes.filterMap Nl80211Attr.index?).foldl insertIndex indices)
        | .done code =>
            if code = 0 then .ok indices
            else .error "unexpected wireless inventory response"
        | .error code message =>
            if code.isSome then .error s!"wireless inventory failed: {message}"
            else .error "unexpected wireless inventory response"
        | .noop => collectWireless responses indices
        | .overrun => .error "unexpected wireless inventory response"

/-- What comes of asking for the wireless devices: the request is refused, there is no
    end within its time, or there are responses. -/
inductive WirelessAnswer where
  | refused (errno : Option Int) (message : String)
  | timedOut
  | answered (responses : List (Except String WirelessMessage))

/-- The list that is made of it. -/
def WirelessAnswer.collected : WirelessAnswer → Except String (List UInt32)
  | .refused errno message =>
      -- `ENOENT`: the kernel does not know the family.
      if errno = some 2 then .ok []
      else .error s!"wireless identification failed: {message}"
  | .timedOut => .error "wireless identification timed out"
  | .answered responses => collectWireless responses []

/-- A message that is read, and behind which reading goes on. -/
def WirelessMessage.passes (self : WirelessMessage) : Bool :=
  self.flags &&& nlmFDumpIntr == 0 &&
    match self.payload with
    | .innerMessage _ | .noop => true
    | .error _ _ | .done _ | .overrun => false

/-- The end of a dump without an error. -/
def WirelessMessage.completes (self : WirelessMessage) : Bool :=
  self.flags &&& nlmFDumpIntr == 0 &&
    match self.payload with
    | .done code => code == 0
    | .innerMessage _ | .error _ _ | .noop | .overrun => false

/-- The indices that a message gives. -/
def WirelessMessage.indices (self : WirelessMessage) : List UInt32 :=
  match self.payload with
  | .innerMessage attributes => attributes.filterMap Nl80211Attr.index?
  | .error _ _ | .done _ | .noop | .overrun => []

section Collecting

variable {responses : List (Except String WirelessMessage)} {message : WirelessMessage}
  {indices found : List UInt32} {index : UInt32}

theorem mem_foldl_insertIndex :
    index ∈ found.foldl insertIndex indices ↔ index ∈ indices ∨ index ∈ found := by
  induction found generalizing indices with
  | nil => simp
  | cons other found ih =>
      rw [List.foldl_cons, ih, List.mem_cons, ← or_assoc]
      refine or_congr_left ?_
      unfold insertIndex
      by_cases hmem : other ∈ indices
      · rw [if_pos hmem]
        refine ⟨Or.inl, ?_⟩
        rintro (h | rfl)
        · exact h
        · exact hmem
      · rw [if_neg hmem, List.mem_append, List.mem_singleton]

/-- Reading goes on behind a message that passes. -/
theorem collectWireless_passes (h : message.passes = true) :
    collectWireless (.ok message :: responses) indices =
      collectWireless responses (message.indices.foldl insertIndex indices) := by
  rcases message with ⟨flags, payload⟩
  rw [WirelessMessage.passes, Bool.and_eq_true, beq_iff_eq] at h
  rw [collectWireless, if_neg (not_not.mpr h.1)]
  cases payload with
  | innerMessage attributes => rfl
  | noop => rfl
  | error code text => exact absurd h.2 Bool.false_ne_true
  | done code => exact absurd h.2 Bool.false_ne_true
  | overrun => exact absurd h.2 Bool.false_ne_true

/-- Another message ends the dump: it makes a list if it completes it. -/
theorem collectWireless_ends (h : message.passes = false) :
    (message.completes = true ∧
      collectWireless (.ok message :: responses) indices = .ok indices) ∨
    (message.completes = false ∧ ∃ error,
      collectWireless (.ok message :: responses) indices = .error error) := by
  rcases message with ⟨flags, payload⟩
  rw [collectWireless, WirelessMessage.completes]
  by_cases hflag : flags &&& nlmFDumpIntr = 0
  · rw [if_neg (not_not.mpr hflag), hflag, beq_self_eq_true, Bool.true_and]
    rw [WirelessMessage.passes, hflag, beq_self_eq_true, Bool.true_and] at h
    cases payload with
    | innerMessage attributes => exact absurd h.symm Bool.false_ne_true
    | noop => exact absurd h.symm Bool.false_ne_true
    | error code text =>
        dsimp only
        by_cases hcode : code.isSome = true
        · rw [if_pos hcode]
          exact Or.inr ⟨rfl, _, rfl⟩
        · rw [if_neg hcode]
          exact Or.inr ⟨rfl, _, rfl⟩
    | done code =>
        dsimp only
        by_cases hcode : code = 0
        · rw [if_pos hcode, hcode]
          exact Or.inl ⟨rfl, rfl⟩
        · rw [if_neg hcode]
          exact Or.inr ⟨beq_false_of_ne hcode, _, rfl⟩
    | overrun => exact Or.inr ⟨rfl, _, rfl⟩
  · rw [if_pos hflag, beq_false_of_ne hflag]
    exact Or.inr ⟨rfl, _, rfl⟩

/-- What passes does not complete. -/
theorem WirelessMessage.not_passes_of_completes (h : message.completes = true) :
    message.passes = false := by
  rcases message with ⟨flags, payload⟩
  rw [completes, Bool.and_eq_true] at h
  rw [passes]
  cases payload with
  | done code => exact Bool.and_false _
  | _ => exact absurd h.2 Bool.false_ne_true

/-- A complete dump makes a list of the indices of its messages. -/
theorem collectWireless_complete {dump : List WirelessMessage} {last : WirelessMessage}
    (hdump : ∀ message ∈ dump, message.passes = true) (hlast : last.completes = true) :
    collectWireless (dump.map .ok ++ .ok last :: responses) indices =
      .ok ((dump.flatMap WirelessMessage.indices).foldl insertIndex indices) := by
  induction dump generalizing indices with
  | nil =>
      rcases collectWireless_ends (WirelessMessage.not_passes_of_completes hlast) with
        ⟨_, hok⟩ | ⟨habs, _⟩
      · exact hok
      · exact absurd (hlast.symm.trans habs) (by decide)
  | cons message dump ih =>
      rw [List.forall_mem_cons] at hdump
      rw [List.map_cons, List.cons_append, collectWireless_passes hdump.1, ih hdump.2,
        List.flatMap_cons, List.foldl_append]

/-- Only a complete dump makes a list. -/
theorem collectWireless_ok (h : collectWireless responses indices = .ok found) :
    ∃ (dump : List WirelessMessage) (last : WirelessMessage)
      (rest : List (Except String WirelessMessage)),
      responses = dump.map .ok ++ .ok last :: rest ∧ last.completes = true ∧
        ∀ message ∈ dump, message.passes = true := by
  induction responses generalizing indices with
  | nil => exact absurd h (by simp only [collectWireless, reduceCtorEq, not_false_eq_true])
  | cons response responses ih =>
      cases response with
      | error text =>
          exact absurd h (by simp only [collectWireless, reduceCtorEq, not_false_eq_true])
      | ok message =>
          by_cases hpasses : message.passes = true
          · rw [collectWireless_passes hpasses] at h
            rcases ih h with ⟨dump, last, rest, rfl, hlast, hdump⟩
            exact ⟨message :: dump, last, rest, rfl, hlast,
              List.forall_mem_cons.mpr ⟨hpasses, hdump⟩⟩
          · rw [Bool.not_eq_true] at hpasses
            rcases collectWireless_ends hpasses with ⟨hlast, _⟩ | ⟨_, error, herror⟩
            · exact ⟨[], message, responses, rfl, hlast,
                fun _ habs => absurd habs List.not_mem_nil⟩
            · exact absurd (herror.symm.trans h)
                (by simp only [reduceCtorEq, not_false_eq_true])

end Collecting

/-- The kernel's answer is complete, and does not list a device. -/
inductive WirelessAnswer.Omits (index : UInt32) : WirelessAnswer → Prop where
  /-- The kernel has no wireless devices at all. -/
  | absent (message : String) : Omits index (.refused (some 2) message)
  | dumped (dump : List WirelessMessage) (last : WirelessMessage)
      (rest : List (Except String WirelessMessage)) (hlast : last.completes = true)
      (hdump : ∀ message ∈ dump, message.passes = true ∧ index ∉ message.indices) :
      Omits index (.answered (dump.map .ok ++ .ok last :: rest))

/-- There is a list without a device when the kernel's answer is such. -/
theorem WirelessAnswer.collected_omits {answer : WirelessAnswer} {index : UInt32} :
    (∃ indices, answer.collected = .ok indices ∧ index ∉ indices) ↔ answer.Omits index := by
  cases answer with
  | refused errno message =>
      unfold collected
      dsimp only
      by_cases hfamily : errno = some 2
      · rw [if_pos hfamily, hfamily]
        exact iff_of_true ⟨[], rfl, List.not_mem_nil⟩ (.absent message)
      · rw [if_neg hfamily]
        refine iff_of_false ?_ fun h => ?_
        · rintro ⟨indices, habs, _⟩
          exact absurd habs (by simp only [reduceCtorEq, not_false_eq_true])
        · cases h
          exact hfamily rfl
  | timedOut =>
      refine iff_of_false ?_ nofun
      rintro ⟨indices, habs, _⟩
      exact absurd habs (by simp only [collected, reduceCtorEq, not_false_eq_true])
  | answered responses =>
      unfold collected
      constructor
      · rintro ⟨indices, hok, hnot⟩
        rcases collectWireless_ok hok with ⟨dump, last, rest, rfl, hlast, hdump⟩
        dsimp only at hok
        rw [collectWireless_complete hdump hlast, Except.ok.injEq] at hok
        refine .dumped dump last rest hlast fun message hmem => ⟨hdump message hmem, fun hin => ?_⟩
        rw [← hok, mem_foldl_insertIndex] at hnot
        exact hnot (Or.inr (List.mem_flatMap.mpr ⟨message, hmem, hin⟩))
      · intro h
        cases h with
        | dumped dump last rest hlast hdump =>
            refine ⟨_, collectWireless_complete (fun message hmem => (hdump message hmem).1) hlast,
              fun hin => ?_⟩
            rcases mem_foldl_insertIndex.mp hin with habs | hin
            · exact absurd habs List.not_mem_nil
            · rcases List.mem_flatMap.mp hin with ⟨message, hmem, hindex⟩
              exact (hdump message hmem).2 hindex

/-- A link without a kind is taken for one of Ethernet exactly when it has that link
    layer and the kernel's list of the wireless devices is complete and omits it. An
    answer that was refused, cut short, interrupted or not understood makes no device
    one of Ethernet. -/
theorem classifyLink_wireless_iff (link : ParsedLink) (answer : WirelessAnswer)
    (hkind : link.message.attributes.findSome? infoKind? = none) :
    classifyLink link answer.collected.toOption = ethernet ↔
      link.kindValid = true ∧ link.message.header.linkLayerType = .ether ∧
        answer.Omits link.message.header.index := by
  rw [← WirelessAnswer.collected_omits]
  constructor
  · intro h
    rcases classifyLink_eq_ethernet h with
      ⟨hvalid, ⟨kind, habs, _⟩ | ⟨_, hether, indices, hsome, hnot⟩⟩
    · exact absurd (hkind.symm.trans habs) (by simp only [reduceCtorEq, not_false_eq_true])
    · cases hcollected : answer.collected with
      | error message =>
          rw [hcollected] at hsome
          exact absurd hsome (by simp [Except.toOption])
      | ok all =>
          rw [hcollected] at hsome
          obtain rfl := Option.some.inj hsome
          exact ⟨hvalid, hether, all, rfl, hnot⟩
  · rintro ⟨hvalid, hether, indices, hcollected, hnot⟩
    have hlayer : link.message.header.linkLayerType ≠ .loopback := by
      rw [hether]
      simp only [ne_eq, reduceCtorEq, not_false_eq_true]
    have hunlisted : ¬ ((some indices).any fun indices =>
        indices.contains link.message.header.index) = true := fun hlisted =>
      hnot (List.contains_iff_mem.mp hlisted)
    have hlist : answer.collected.toOption = some indices := by rw [hcollected]; rfl
    unfold classifyLink
    rw [hlist, hvalid, Bool.not_true, if_neg Bool.false_ne_true, hkind]
    dsimp only
    rw [if_neg hlayer, if_neg hunlisted, if_pos ⟨hether, rfl⟩]

/-- A link of that layer, with the index 3. -/
def stationLink : ParsedLink where
  message := { header := { interfaceFamily := .unspec, index := 3, linkLayerType := .ether
                           up := true }, attributes := [] }
  name := "wlan0"
  kindValid := true
  diagnostics := []

/-- A dump that lists another device, and is not ended. -/
def cutDump : WirelessAnswer :=
  .answered [.ok { flags := 2, payload := .innerMessage [.ifIndex 4] }]

/-- It leaves open whether the link is wireless. -/
theorem classifyLink_wireless_iff_cut :
    classifyLink stationLink cutDump.collected.toOption ≠ ethernet ∧ ¬ cutDump.Omits 3 := by
  have hiff := classifyLink_wireless_iff stationLink cutDump rfl
  have hother : classifyLink stationLink cutDump.collected.toOption ≠ ethernet := by decide
  exact ⟨hother, fun homits => hother (hiff.mpr ⟨rfl, rfl, homits⟩)⟩

end Netfyr
