import Mathlib.Data.Nat.Bitwise
import Netfyr.Data.Drain
import Netfyr.Linux.Message

/-!
# Strict Framing

A datagram of the kernel is a sequence of messages, each behind a header that
gives its length and followed by padding to the next multiple of four. The codec
takes one message off at a time. The length comes from outside, so everything
that is done with it can go wrong: it is rounded up, the result cuts the
datagram, and it is cut to again. A message that cannot be read ends the
datagram with an error, so a datagram is never taken for a shorter one.

Whether a header is good, and what is in a message, is decided elsewhere:
`newChecked` and `deserialize` stand for that. The sections below assume of the
first that it accepts a buffer exactly when the length its header gives covers
the header and stays within the buffer.

## Main definitions

* `align`: Rounding a length up to the alignment of messages.
* `strictDecode`: Taking one message off a datagram.
* `Datagram`: Messages one after the other, the last one padded or not.
* `FollowedBy`: Padded messages and what comes behind.

## Theorems

* `strictDecode_frame`: A good frame is taken off, and nothing else.
* `strictDecode_cases`: What taking a message off can come to.
* `drains_strictDecode`: Draining a datagram.
-/

namespace Netfyr

/-- The largest `usize`. -/
def usizeMax : Nat := 2 ^ 64 - 1

/-- What messages are aligned to. -/
def nlaAlignto : Nat := 4

/-- An addition that does not overflow. -/
def checkedAdd (a b : Nat) : Option Nat := if a + b ≤ usizeMax then some (a + b) else none

/-- Round a length up. -/
def align (length : Nat) : Option Nat :=
  -- The mask is the complement of `nlaAlignto - 1`.
  (checkedAdd length (nlaAlignto - 1)).map fun padded => padded &&& (usizeMax - (nlaAlignto - 1))

/-- The order of the bytes of an integer in memory. -/
inductive ByteOrder where
  | little
  | big
  deriving DecidableEq

/-- The integer of 4 bytes. -/
def ByteOrder.integer : ByteOrder → UInt8 → UInt8 → UInt8 → UInt8 → Nat
  | .little, a, b, c, d => a.toNat + 256 * (b.toNat + 256 * (c.toNat + 256 * d.toNat))
  | .big, a, b, c, d => d.toNat + 256 * (c.toNat + 256 * (b.toNat + 256 * a.toNat))

/-- The length that a header gives, in its first 4 bytes. -/
def lengthField (order : ByteOrder) : List UInt8 → Nat
  | a :: b :: c :: d :: _ => order.integer a b c d
  | _ => 0

/-- Cut a buffer in two, which panics behind its end. -/
def splitTo (source : List UInt8) (n : Nat) : Option (List UInt8 × List UInt8) :=
  if n ≤ source.length then some (source.take n, source.drop n) else none

/-- The front of a buffer, which panics behind its end. -/
def sliceTo (data : List UInt8) (n : Nat) : Option (List UInt8) :=
  if n ≤ data.length then some (data.take n) else none

def invalidData (message : String) : IoError := { errno := none, interrupted := false, message }

/-- Take one message off a datagram. -/
def strictDecode {M : Type} (order : ByteOrder) (newChecked : List UInt8 → Except String Unit)
    (deserialize : List UInt8 → Except String M) : Decoder (List UInt8) IoError M :=
  fun source =>
    if source = [] then some (.ok none, source)
    else
      match newChecked source with
      | .error message => some (.error (invalidData message), source)
      | .ok () =>
          let size := lengthField order source
          match align size with
          | none => some (.error (invalidData "netlink message length overflow"), source)
          | some alignedSize => do
              let (data, rest) ← splitTo source (min alignedSize source.length)
              let frame ← sliceTo data size
              match deserialize frame with
              | .error message => some (.error (invalidData message), rest)
              | .ok packet => some (.ok (some packet), rest)

/-- What the codec assumes of the check of a header: it accepts a buffer that
    holds a header of 16 bytes and all that the header says. -/
def ChecksHeader (order : ByteOrder) (newChecked : List UInt8 → Except String Unit) : Prop :=
  ∀ source, newChecked source = .ok () ↔
    16 ≤ source.length ∧ 16 ≤ lengthField order source ∧
      lengthField order source ≤ source.length

/-- A check that decides just that. -/
def checkHeader (order : ByteOrder) (source : List UInt8) : Except String Unit :=
  if 16 ≤ source.length ∧ 16 ≤ lengthField order source ∧
      lengthField order source ≤ source.length then .ok ()
  else .error "invalid netlink header"

theorem checkHeader_checks (order : ByteOrder) : ChecksHeader order (checkHeader order) := by
  intro source
  unfold checkHeader
  split
  · next hgood => exact iff_of_true rfl hgood
  · next hbad => exact iff_of_false (by simp only [reduceCtorEq, not_false_eq_true]) hbad

/-- A message as it is sent: its header gives its length. -/
structure IsFrame (order : ByteOrder) (frame : List UInt8) : Prop where
  header : 16 ≤ frame.length
  length : lengthField order frame = frame.length

/-- How many bytes align a length. -/
def padLength (length : Nat) : Nat := (length + 3) / 4 * 4 - length

/-- A frame has all of its padding, or ends the datagram. -/
def Padded (frame padding rest : List UInt8) : Prop :=
  padding.length = padLength frame.length ∨
    (rest = [] ∧ padding.length ≤ padLength frame.length)

/-- Messages one after the other, each padded, with something behind them. -/
inductive FollowedBy (order : ByteOrder) (tail : List UInt8) :
    List (List UInt8) → List UInt8 → Prop where
  | here : FollowedBy order tail [] tail
  | frame {frame padding rest : List UInt8} {frames : List (List UInt8)} : IsFrame order frame →
      padding.length = padLength frame.length → FollowedBy order tail frames rest →
        FollowedBy order tail (frame :: frames) (frame ++ padding ++ rest)

/-- Messages one after the other, of which the last may lack padding. -/
inductive Datagram (order : ByteOrder) : List (List UInt8) → List UInt8 → Prop where
  | nil : Datagram order [] []
  | last {frame padding : List UInt8} : IsFrame order frame →
      padding.length ≤ padLength frame.length → Datagram order [frame] (frame ++ padding)
  | frame {frame padding rest : List UInt8} {frames : List (List UInt8)} : IsFrame order frame →
      padding.length = padLength frame.length → Datagram order frames rest →
        Datagram order (frame :: frames) (frame ++ padding ++ rest)

/-- No message can be read here: the header is not good, or what it covers is
    not. -/
def Malformed {M : Type} (order : ByteOrder) (deserialize : List UInt8 → Except String M)
    (source : List UInt8) : Prop :=
  source ≠ [] ∧
    (¬ (16 ≤ source.length ∧ 16 ≤ lengthField order source ∧
        lengthField order source ≤ source.length) ∨
      ∃ message, deserialize (source.take (lengthField order source)) = .error message)

section Align

/-- Clearing the two lowest bits rounds down. -/
theorem and_mask (n : Nat) (h : n < 2 ^ 64) : n &&& (2 ^ 64 - 1 - 3) = n / 4 * 4 := by
  have hmask : 2 ^ 64 - 1 - 3 = 2 ^ 64 - (3 + 1) := by decide
  have hshift : n / 4 * 4 = (n >>> 2) <<< 2 := by
    rw [Nat.shiftLeft_eq, Nat.shiftRight_eq_div_pow]
  have hlow (i : Nat) : Nat.testBit 3 i = decide (i < 2) := Nat.testBit_two_pow_sub_one 2 i
  rw [hmask, hshift]
  refine Nat.eq_of_testBit_eq fun i => ?_
  rw [Nat.testBit_and, Nat.testBit_two_pow_sub_succ (by decide), hlow, Nat.testBit_shiftLeft,
    Nat.testBit_shiftRight]
  by_cases hi : i < 2
  · simp only [hi, decide_true, Bool.not_true, Bool.and_false, ge_iff_le, Nat.not_le.mpr hi,
      decide_false, Bool.false_and]
  · have hle : 2 ≤ i := Nat.le_of_not_lt hi
    rw [Nat.add_sub_of_le hle]
    by_cases hhigh : i < 64
    · simp only [hi, hhigh, hle, decide_true, decide_false, Bool.not_false, Bool.and_true,
        Bool.true_and]
    · -- The number has no bits there.
      have hn : n.testBit i = false :=
        Nat.testBit_lt_two_pow (Nat.lt_of_lt_of_le h
          (Nat.pow_le_pow_right (by decide) (Nat.le_of_not_lt hhigh)))
      simp only [hn, Bool.false_and, Bool.and_false]

/-- A length below 2³² is aligned without overflow. -/
theorem align_eq {n : Nat} (h : n < 2 ^ 32) : align n = some (n + padLength n) := by
  have hadd : checkedAdd n (nlaAlignto - 1) = some (n + 3) := by
    refine if_pos ?_
    unfold usizeMax nlaAlignto
    omega
  have hround : n + padLength n = (n + 3) / 4 * 4 := by
    unfold padLength
    omega
  rw [align, hadd, Option.map_some, hround]
  exact congrArg some (and_mask (n + 3) (by omega))

end Align

section Header

variable {order : ByteOrder}

theorem ByteOrder.integer_lt (order : ByteOrder) (a b c d : UInt8) :
    order.integer a b c d < 2 ^ 32 := by
  have ha := a.toNat_lt
  have hb := b.toNat_lt
  have hc := c.toNat_lt
  have hd := d.toNat_lt
  cases order with
  | little =>
      simp only [ByteOrder.integer]
      omega
  | big =>
      simp only [ByteOrder.integer]
      omega

theorem lengthField_lt (order : ByteOrder) (source : List UInt8) :
    lengthField order source < 2 ^ 32 := by
  unfold lengthField
  split
  · exact order.integer_lt _ _ _ _
  · decide

/-- The length is in the header, whatever comes behind it. -/
theorem lengthField_append {front : List UInt8} (h : 4 ≤ front.length) (rest : List UInt8) :
    lengthField order (front ++ rest) = lengthField order front := by
  match front, h with
  | _ :: _ :: _ :: _ :: _, _ => rfl

/-- A good header begins a frame: behind it are its padding and the rest, or as
    much of the padding as there is. -/
theorem exists_frame {source : List UInt8} (h₁ : 16 ≤ lengthField order source)
    (h₂ : lengthField order source ≤ source.length) :
    ∃ frame padding rest, source = frame ++ padding ++ rest ∧
      source.take (lengthField order source) = frame ∧ IsFrame order frame ∧
        Padded frame padding rest := by
  let n := lengthField order source
  have hsplit : source = source.take n ++ (source.drop n).take (padLength n) ++
      (source.drop n).drop (padLength n) := by
    rw [List.append_assoc, List.take_append_drop, List.take_append_drop]
  have hlength : (source.take n).length = n := List.length_take_of_le h₂
  have hfield : lengthField order (source.take n) = n := by
    have happend : lengthField order (source.take n ++ source.drop n) =
        lengthField order (source.take n) :=
      lengthField_append (by rw [hlength]; omega) (source.drop n)
    rw [List.take_append_drop] at happend
    exact happend.symm
  refine ⟨_, _, _, hsplit, rfl, ⟨by rw [hlength]; exact h₁, by rw [hlength, hfield]⟩, ?_⟩
  unfold Padded
  rw [hlength, List.length_take, List.length_drop]
  by_cases hshort : source.length - n ≤ padLength n
  · refine Or.inr ⟨List.drop_eq_nil_of_le ?_, by omega⟩
    rw [List.length_drop]
    exact hshort
  · exact Or.inl (by omega)

end Header

section Decode

variable {M : Type} {order : ByteOrder} {newChecked : List UInt8 → Except String Unit}
  (deserialize : List UInt8 → Except String M)

theorem strictDecode_nil :
    strictDecode order newChecked deserialize [] = some (.ok none, []) := rfl

/-- What cannot begin a message is not cut. -/
theorem strictDecode_refused (hchecked : ChecksHeader order newChecked) {source : List UInt8}
    (hne : source ≠ []) (hbad : ¬ (16 ≤ source.length ∧ 16 ≤ lengthField order source ∧
      lengthField order source ≤ source.length)) :
    ∃ message, strictDecode order newChecked deserialize source =
      some (.error (invalidData message), source) := by
  cases hcheck : newChecked source with
  | ok =>
      exact absurd ((hchecked source).mp hcheck) hbad
  | error message =>
      refine ⟨message, ?_⟩
      rw [strictDecode, if_neg hne, hcheck]

/-- A frame is taken off with its padding, and read. -/
theorem strictDecode_frame (hchecked : ChecksHeader order newChecked)
    {frame padding rest : List UInt8} (hframe : IsFrame order frame)
    (hpadded : Padded frame padding rest) :
    strictDecode order newChecked deserialize (frame ++ padding ++ rest) =
      some (((deserialize frame).mapError invalidData).map some, rest) := by
  have hheader := hframe.header
  have hsize : lengthField order (frame ++ padding ++ rest) = frame.length := by
    rw [List.append_assoc, lengthField_append (by omega), hframe.length]
  have hlength : (frame ++ padding ++ rest).length =
      frame.length + padding.length + rest.length := by
    rw [List.length_append, List.length_append]
  have hne : frame ++ padding ++ rest ≠ [] := by
    intro hnil
    rw [hnil, List.length_nil] at hlength
    omega
  have hcheck : newChecked (frame ++ padding ++ rest) = .ok () := by
    refine (hchecked _).mpr ⟨?_, ?_, ?_⟩
    · omega
    · omega
    · omega
  have hsmall : frame.length < 2 ^ 32 := hframe.length ▸ lengthField_lt order frame
  -- The cut is behind the padding, or at the end when there is less.
  have hcut : min (frame.length + padLength frame.length) (frame ++ padding ++ rest).length =
      (frame ++ padding).length := by
    rw [hlength, List.length_append]
    rcases hpadded with hfull | ⟨rfl, hless⟩
    · omega
    · rw [List.length_nil]
      omega
  have hsplit : splitTo (frame ++ padding ++ rest) (frame ++ padding).length =
      some (frame ++ padding, rest) := by
    unfold splitTo
    have hshort : (frame ++ padding).length ≤ (frame ++ padding ++ rest).length := by
      rw [hlength, List.length_append]
      omega
    rw [if_pos hshort, List.take_left, List.drop_left]
  have hslice : sliceTo (frame ++ padding) frame.length = some frame := by
    unfold sliceTo
    have hshort : frame.length ≤ (frame ++ padding).length := by
      rw [List.length_append]
      omega
    rw [if_pos hshort, List.take_left]
  rw [strictDecode, if_neg hne, hcheck]
  dsimp only
  rw [hsize, align_eq hsmall]
  dsimp only
  rw [hcut, hsplit]
  dsimp only [bind, Option.bind]
  rw [hslice]
  dsimp only
  cases deserialize frame with
  | error message => rfl
  | ok packet => rfl

/-- A source is empty, or cannot begin a message, or begins with a frame. -/
theorem strictDecode_cases (hchecked : ChecksHeader order newChecked) (source : List UInt8) :
    source = [] ∨
      (Malformed order deserialize source ∧ ∃ message,
        strictDecode order newChecked deserialize source =
          some (.error (invalidData message), source)) ∨
      ∃ frame padding rest, source = frame ++ padding ++ rest ∧
        source.take (lengthField order source) = frame ∧ IsFrame order frame ∧
        Padded frame padding rest ∧
          strictDecode order newChecked deserialize source =
            some (((deserialize frame).mapError invalidData).map some, rest) := by
  by_cases hnil : source = []
  · exact Or.inl hnil
  · by_cases hgood : 16 ≤ source.length ∧ 16 ≤ lengthField order source ∧
        lengthField order source ≤ source.length
    · rcases exists_frame hgood.2.1 hgood.2.2 with
        ⟨frame, padding, rest, rfl, htake, hframe, hpadded⟩
      exact Or.inr (Or.inr ⟨frame, padding, rest, rfl, htake, hframe, hpadded,
        strictDecode_frame deserialize hchecked hframe hpadded⟩)
    · exact Or.inr (Or.inl ⟨⟨hnil, Or.inl hgood⟩,
        strictDecode_refused deserialize hchecked hnil hgood⟩)

/-- A call never faults, and takes off a header at least with a message. -/
theorem strictDecode_consumes (hchecked : ChecksHeader order newChecked) (source : List UInt8) :
    ∃ outcome rest,
      strictDecode order newChecked deserialize source = some (outcome, rest) ∧
        ∀ packet, outcome = .ok (some packet) →
          ∃ consumed, source = consumed ++ rest ∧ 16 ≤ consumed.length := by
  rcases strictDecode_cases deserialize hchecked source with
    rfl | ⟨_, message, hdecode⟩ | ⟨frame, padding, rest, rfl, _, hframe, _, hdecode⟩
  · refine ⟨.ok none, [], rfl, fun packet habs => ?_⟩
    exact absurd habs (by simp only [Except.ok.injEq, reduceCtorEq, not_false_eq_true])
  · refine ⟨_, _, hdecode, fun packet habs => ?_⟩
    exact absurd habs (by simp only [reduceCtorEq, not_false_eq_true])
  · refine ⟨_, _, hdecode, fun packet _ => ⟨frame ++ padding, rfl, ?_⟩⟩
    have hheader := hframe.header
    rw [List.length_append]
    omega

end Decode

section Drain

variable {M : Type} {order : ByteOrder} {newChecked : List UInt8 → Except String Unit}
  {deserialize : List UInt8 → Except String M} {frames : List (List UInt8)}
  {source tail : List UInt8} {packets : List M} {ending : Except IoError Unit}

/-- A frame that is read is the first of what is drained. -/
theorem Drains.frame (hchecked : ChecksHeader order newChecked) {frame padding rest : List UInt8}
    {packet : M} (hframe : IsFrame order frame) (hpadded : Padded frame padding rest)
    (hread : deserialize frame = .ok packet)
    (hrest : Drains (strictDecode order newChecked deserialize) rest packets ending) :
    Drains (strictDecode order newChecked deserialize) (frame ++ padding ++ rest)
      (packet :: packets) ending := by
  refine .item ?_ hrest
  rw [strictDecode_frame deserialize hchecked hframe hpadded, hread]
  rfl

/-- The messages in front are read before whatever is behind them. -/
theorem FollowedBy.drains (hchecked : ChecksHeader order newChecked)
    (h : FollowedBy order tail frames source)
    (hread : List.Forall₂ (fun frame packet => deserialize frame = .ok packet) frames packets)
    (htail : Drains (strictDecode order newChecked deserialize) tail [] ending) :
    Drains (strictDecode order newChecked deserialize) source packets ending := by
  induction h generalizing packets with
  | here =>
      cases hread
      exact htail
  | frame hframe hpadding _ ih =>
      cases hread with
      | cons hone hread => exact Drains.frame hchecked hframe (Or.inl hpadding) hone (ih hread)

/-- A datagram of good messages drains to these, and ends. -/
theorem Datagram.drains (hchecked : ChecksHeader order newChecked)
    (h : Datagram order frames source)
    (hread : List.Forall₂ (fun frame packet => deserialize frame = .ok packet) frames packets) :
    Drains (strictDecode order newChecked deserialize) source packets (.ok ()) := by
  induction h generalizing packets with
  | nil =>
      cases hread
      exact .ended (strictDecode_nil deserialize)
  | @last frame padding hframe hpadding =>
      cases hread with
      | cons hone hread =>
          cases hread
          rw [← List.append_nil (frame ++ padding)]
          exact Drains.frame hchecked hframe (Or.inr ⟨rfl, hpadding⟩) hone
            (.ended (strictDecode_nil deserialize))
  | frame hframe hpadding _ ih =>
      cases hread with
      | cons hone hread => exact Drains.frame hchecked hframe (Or.inl hpadding) hone (ih hread)

/-- What is malformed is an error. -/
theorem Malformed.drains (hchecked : ChecksHeader order newChecked)
    (h : Malformed order deserialize source) :
    ∃ error, Drains (strictDecode order newChecked deserialize) source [] (.error error) := by
  rcases strictDecode_cases deserialize hchecked source with
    rfl | ⟨_, message, hdecode⟩ | ⟨frame, padding, rest, rfl, htake, hframe, _, hdecode⟩
  · exact absurd rfl h.1
  · exact ⟨_, .failed hdecode⟩
  · rcases h.2 with hbad | ⟨message, hread⟩
    · rcases strictDecode_refused deserialize hchecked h.1 hbad with
        ⟨message, hrefused⟩
      exact ⟨_, .failed hrefused⟩
    · rw [htake] at hread
      rw [hread] at hdecode
      exact ⟨_, .failed hdecode⟩

/-- What drains to its end is a datagram of good messages, and these are what it
    drains to. -/
theorem datagram_of_drains (hchecked : ChecksHeader order newChecked)
    (h : Drains (strictDecode order newChecked deserialize) source packets ending)
    (hend : ending = .ok ()) :
    ∃ frames, Datagram order frames source ∧
      List.Forall₂ (fun frame packet => deserialize frame = .ok packet) frames packets := by
  induction h with
  | @ended source rest hdecode =>
      rcases strictDecode_cases deserialize hchecked source with
        rfl | ⟨_, message, hother⟩ | ⟨frame, padding, rest', rfl, _, _, _, hother⟩
      · exact ⟨[], .nil, .nil⟩
      · rw [hother] at hdecode
        simp only [Option.some.injEq, Prod.mk.injEq, reduceCtorEq, false_and] at hdecode
      · rw [hother] at hdecode
        -- A frame that is taken off is a message or an error.
        cases hread : deserialize frame with
        | error message =>
            simp only [hread, Except.mapError, Except.map, Option.some.injEq, Prod.mk.injEq,
              reduceCtorEq, false_and] at hdecode
        | ok packet =>
            simp only [hread, Except.mapError, Except.map, Option.some.injEq, Prod.mk.injEq,
              Except.ok.injEq, reduceCtorEq, false_and] at hdecode
  | failed _ => exact absurd hend (by simp only [reduceCtorEq, not_false_eq_true])
  | @item source rest packet packets ending hdecode hrest ih =>
      rcases strictDecode_cases deserialize hchecked source with
        rfl | ⟨_, message, hother⟩ | ⟨frame, padding, rest', rfl, _, hframe, hpadded, hother⟩
      · rw [strictDecode_nil deserialize] at hdecode
        simp only [Option.some.injEq, Prod.mk.injEq, Except.ok.injEq, reduceCtorEq,
          false_and] at hdecode
      · rw [hother] at hdecode
        simp only [Option.some.injEq, Prod.mk.injEq, reduceCtorEq, false_and] at hdecode
      · rw [hother, Option.some.injEq, Prod.mk.injEq] at hdecode
        rcases hdecode with ⟨hpacket, rfl⟩
        have hread : deserialize frame = .ok packet := by
          cases hframeRead : deserialize frame with
          | error message =>
              simp only [hframeRead, Except.mapError, Except.map, reduceCtorEq] at hpacket
          | ok other =>
              simp only [hframeRead, Except.mapError, Except.map, Except.ok.injEq,
                Option.some.injEq] at hpacket
              rw [hpacket]
        rcases ih hend with ⟨frames, hdatagram, hframes⟩
        refine ⟨frame :: frames, ?_, .cons hread hframes⟩
        rcases hpadded with hfull | ⟨rfl, hless⟩
        · exact .frame hframe hfull hdatagram
        · -- Nothing is left, so this message was the last.
          subst hend
          cases hrest with
          | ended _ =>
              cases hframes
              rw [List.append_nil]
              exact .last hframe hless
          | item habs _ =>
              rw [strictDecode_nil deserialize] at habs
              simp only [Option.some.injEq, Prod.mk.injEq, Except.ok.injEq, reduceCtorEq,
                false_and] at habs

/-- Draining a datagram: no call faults, and one that gives a message takes 16
    bytes at least, so calling ends. Good messages, each padded and the last one
    perhaps not, are given in order, and then the end. What cannot be read ends
    the draining with an error behind the messages before it, and the end is
    reached on datagrams of good messages only. -/
theorem drains_strictDecode (order : ByteOrder) (newChecked : List UInt8 → Except String Unit)
    (deserialize : List UInt8 → Except String M) (hchecked : ChecksHeader order newChecked) :
    (∀ source, ∃ outcome rest,
      strictDecode order newChecked deserialize source = some (outcome, rest) ∧
        ∀ packet, outcome = .ok (some packet) →
          ∃ consumed, source = consumed ++ rest ∧ 16 ≤ consumed.length) ∧
    (∀ source, ∃ packets ending, ∀ fuel, source.length < fuel →
      drain (strictDecode order newChecked deserialize) fuel source = some (packets, ending)) ∧
    (∀ frames source packets, Datagram order frames source →
      List.Forall₂ (fun frame packet => deserialize frame = .ok packet) frames packets →
        Drains (strictDecode order newChecked deserialize) source packets (.ok ())) ∧
    (∀ frames tail source packets, FollowedBy order tail frames source →
      List.Forall₂ (fun frame packet => deserialize frame = .ok packet) frames packets →
        Malformed order deserialize tail → ∃ error,
          Drains (strictDecode order newChecked deserialize) source packets (.error error)) ∧
    ∀ source packets,
      Drains (strictDecode order newChecked deserialize) source packets (.ok ()) →
        ∃ frames, Datagram order frames source ∧
          List.Forall₂ (fun frame packet => deserialize frame = .ok packet) frames packets := by
  refine ⟨strictDecode_consumes deserialize hchecked, ?_, ?_, ?_, ?_⟩
  · intro source
    have hdrains := exists_drains (strictDecode order newChecked deserialize) List.length ?_ ?_
      source
    · rcases hdrains with ⟨packets, ending, hdrains, hlength⟩
      exact ⟨packets, ending, fun fuel hfuel => hdrains.drain (by omega)⟩
    · intro source
      rcases strictDecode_consumes deserialize hchecked source with
        ⟨_, _, hdecode, _⟩
      rw [hdecode]
      rfl
    · intro source packet rest hitem
      rcases strictDecode_consumes deserialize hchecked source with
        ⟨outcome, rest', hdecode, hconsumes⟩
      rw [hdecode, Option.some.injEq, Prod.mk.injEq] at hitem
      rcases hitem with ⟨houtcome, rfl⟩
      rcases hconsumes packet houtcome with ⟨consumed, rfl, hlong⟩
      rw [List.length_append]
      omega
  · intro frames source packets hdatagram hread
    exact hdatagram.drains hchecked hread
  · intro frames tail source packets hfollowed hread hmalformed
    rcases hmalformed.drains hchecked with ⟨error, htail⟩
    exact ⟨error, hfollowed.drains hchecked hread htail⟩
  · intro source packets hdrains
    exact datagram_of_drains hchecked hdrains rfl

/-- A message of 17 bytes with its padding, and one that is a header only. -/
theorem drains_strictDecode_two :
    Drains (strictDecode .little (checkHeader .little) fun frame => .ok (frame.drop 16))
      ([17, 0, 0, 0, 0, 0, 0, 0, 0, 0, 0, 0, 0, 0, 0, 0, 9] ++ [0, 0, 0] ++
        ([16, 0, 0, 0, 0, 0, 0, 0, 0, 0, 0, 0, 0, 0, 0, 0] ++ []))
      [[9], []] (.ok ()) := by
  have hdatagram : Datagram .little
      [[17, 0, 0, 0, 0, 0, 0, 0, 0, 0, 0, 0, 0, 0, 0, 0, 9],
        [16, 0, 0, 0, 0, 0, 0, 0, 0, 0, 0, 0, 0, 0, 0, 0]]
      ([17, 0, 0, 0, 0, 0, 0, 0, 0, 0, 0, 0, 0, 0, 0, 0, 9] ++ [0, 0, 0] ++
        ([16, 0, 0, 0, 0, 0, 0, 0, 0, 0, 0, 0, 0, 0, 0, 0] ++ [])) :=
    .frame ⟨by decide, by decide⟩ (by decide) (.last ⟨by decide, by decide⟩ (by decide))
  exact (drains_strictDecode .little (checkHeader .little) (fun frame => .ok (frame.drop 16))
    (checkHeader_checks .little)).2.2.1 _ _ _ hdatagram (.cons rfl (.cons rfl .nil))

end Drain

end Netfyr
