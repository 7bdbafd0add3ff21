import Mathlib.Data.List.TakeDrop
import Mathlib.Data.List.TakeWhile
import Netfyr.State.IpAddr

/-!
# Reading Back Written Addresses

Writing an address and reading the text gives the address. The pieces of the
reader are taken in turn, each on the text that the writer makes for it,
followed by something that ends the piece: a number ends where no digit
follows.

A group of an IPv6 address is tried as an IPv4 address first. The texts without
a dot are read as groups alone, which leaves the mixed form of mapped addresses
to be followed by hand.

## Main definitions

* `IpText.Ends`: No digit follows.

## Theorems

* `IpText.readNumber_toDigits`: A written number is read back.
* `IpText.readIpv4Addr_display`: A written IPv4 address is read back.
* `IpAddr.parse_display`: Any written address is read back.
* `parseIpNetwork_display`: So is a network.
-/

namespace Netfyr

namespace IpText

/-- What follows a number: nothing, or no digit. -/
def Ends (radix : Nat) (rest : List Char) : Prop :=
  ∀ c ∈ rest.head?, toDigit radix c = none

theorem ends_nil (radix : Nat) : Ends radix [] := by
  intro c hc
  exact absurd hc (by simp only [List.head?_nil, Option.mem_def, reduceCtorEq, not_false_eq_true])

theorem ends_cons {radix : Nat} {c : Char} (rest : List Char) (h : toDigit radix c = none) :
    Ends radix (c :: rest) := by
  intro c' hc
  rw [List.head?_cons, Option.mem_some_iff] at hc
  rw [← hc]
  exact h

/-- The radices whose digits are read as they are written. -/
def Reads (radix : Nat) : Prop :=
  1 < radix ∧ ∀ d < radix, toDigit radix d.digitChar = some d ∧ (0 < d → d.digitChar ≠ '0')

theorem reads_ten : Reads 10 := by
  refine ⟨by omega, ?_⟩
  decide

theorem reads_sixteen : Reads 16 := by
  refine ⟨by omega, ?_⟩
  decide

variable {radix n : Nat} {rest : List Char}

/-- Reading stops where no digit follows. -/
theorem readDigits_ends (h : Ends radix rest) (value count : Nat) :
    readDigits radix value count rest = (value, count, rest) := by
  cases rest with
  | nil => rfl
  | cons c rest =>
      rw [readDigits, h c (by rw [List.head?_cons]; rfl)]

-- Induction on the number, along the recursion that writes its digits: what the
-- leading digits leave to be read is the last digit and the rest.
theorem readDigits_toDigits (h : Reads radix) (rest : List Char) :
    readDigits radix 0 0 (Nat.toDigits radix n ++ rest) =
      readDigits radix n (Nat.toDigits radix n).length rest := by
  induction n using Nat.strongRecOn generalizing rest with
  | ind n ih =>
      by_cases hn : n < radix
      · rw [Nat.toDigits_of_lt_base hn, List.singleton_append, readDigits, (h.2 n hn).1]
        simp only [Nat.zero_mul, Nat.zero_add, List.length_singleton]
      · have hdiv : n / radix < n := Nat.div_lt_self (by have := h.1; omega) h.1
        have hmod : n % radix < radix := Nat.mod_lt n (by have := h.1; omega)
        rw [Nat.toDigits_of_base_le h.1 (Nat.le_of_not_lt hn), List.append_assoc, ih _ hdiv,
          List.singleton_append, readDigits, (h.2 _ hmod).1, List.length_append,
          List.length_singleton]
        simp only [Nat.div_add_mod']

/-- The first digit of a positive number is not zero. -/
theorem head?_toDigits (h : Reads radix) (hn : 0 < n) :
    (Nat.toDigits radix n).head? ≠ some '0' := by
  induction n using Nat.strongRecOn with
  | ind n ih =>
      by_cases hlt : n < radix
      · rw [Nat.toDigits_of_lt_base hlt, List.head?_cons, ne_eq, Option.some.injEq]
        exact (h.2 n hlt).2 hn
      · have hle := Nat.le_of_not_lt hlt
        have hdiv : n / radix < n := Nat.div_lt_self hn h.1
        have hpos : 0 < n / radix := Nat.div_pos hle (by have := h.1; omega)
        rw [Nat.toDigits_of_base_le h.1 hle, List.head?_append_of_ne_nil _ Nat.toDigits_ne_nil]
        exact ih _ hdiv hpos

/-- A written number is read back, when it is in range. -/
theorem readNumber_toDigits {maxDigits bound : Nat} {allowZeroPrefix : Bool} (h : Reads radix)
    (hbound : n < bound) (hdigits : n < radix ^ maxDigits) (hpos : 0 < maxDigits)
    (hrest : Ends radix rest) :
    readNumber radix maxDigits bound allowZeroPrefix (Nat.toDigits radix n ++ rest) =
      some (n, rest) := by
  have hlength : (Nat.toDigits radix n).length ≤ maxDigits :=
    (Nat.length_toDigits_le_iff h.1 hpos).mpr hdigits
  have hsome : 0 < (Nat.toDigits radix n).length := Nat.length_toDigits_pos
  rw [readNumber, readDigits_toDigits h, readDigits_ends hrest]
  dsimp only
  have hrange : (decide (maxDigits < (Nat.toDigits radix n).length) || decide (bound ≤ n) ||
      (Nat.toDigits radix n).length == 0) = false := by
    rw [decide_eq_false (by omega), decide_eq_false (by omega), beq_eq_false_iff_ne.mpr (by omega)]
    rfl
  rw [hrange, if_neg Bool.false_ne_true]
  refine if_neg ?_
  rw [Bool.and_eq_true, Bool.and_eq_true, beq_iff_eq, decide_eq_true_eq]
  rintro ⟨⟨_, hhead⟩, hlong⟩
  -- A leading zero would be the only digit.
  rw [List.head?_append_of_ne_nil _ Nat.toDigits_ne_nil] at hhead
  rcases Nat.eq_zero_or_pos n with rfl | hn
  · rw [Nat.toDigits_zero] at hlong
    exact absurd hlong (by decide)
  · exact head?_toDigits h hn hhead

/-- The digits of a number, as the text of it has them. -/
theorem toList_toString (n : Nat) : (toString n).toList = Nat.toDigits 10 n := by
  rw [Nat.toString_eq_ofList_toDigits, String.toList_ofList]

/-- The text of an IPv4 address, octet by octet. -/
theorem toList_display_v4 (ip : Ipv4Addr) : ip.display.toList =
    Nat.toDigits 10 (ip.toNat / 2 ^ 24) ++ '.' ::
      (Nat.toDigits 10 (ip.toNat / 2 ^ 16 % 256) ++ '.' ::
        (Nat.toDigits 10 (ip.toNat / 2 ^ 8 % 256) ++ '.' :: Nat.toDigits 10 (ip.toNat % 256))) := by
  rw [Ipv4Addr.display, String.toList_intercalate, Ipv4Addr.octets]
  simp only [List.map_cons, List.map_nil, toList_toString, List.intercalate_cons_cons,
    List.intercalate_singleton]
  simp only [List.append_assoc]
  rfl

/-- A written octet is read back. -/
theorem readOctet (hn : n < 256) (hrest : Ends 10 rest) :
    readNumber 10 3 256 false (Nat.toDigits 10 n ++ rest) = some (n, rest) :=
  readNumber_toDigits reads_ten hn (by omega) (by omega) hrest

theorem readSeparator_zero {α : Type} {sep : Char} {inner : Reader α} :
    readSeparator sep 0 inner rest = inner rest := by
  rw [readSeparator, if_pos rfl]

theorem readSeparator_succ {α : Type} {sep : Char} {index : Nat} {inner : Reader α} :
    readSeparator sep (index + 1) inner (sep :: rest) = inner rest := by
  rw [readSeparator, if_neg (Nat.succ_ne_zero index), readGivenChar, if_pos rfl, Option.bind_some]

/-- A written IPv4 address is read back. -/
theorem readIpv4Addr_display (ip : Ipv4Addr) (hrest : Ends 10 rest) :
    readIpv4Addr (ip.display.toList ++ rest) = some (ip, rest) := by
  have hlt : ip.toNat < 2 ^ 32 := ip.isLt
  have hdot : ∀ tail, Ends 10 ('.' :: tail) := fun tail => ends_cons tail rfl
  have hvalue : BitVec.ofNat 32 (((ip.toNat / 2 ^ 24 * 256 + ip.toNat / 2 ^ 16 % 256) * 256 +
      ip.toNat / 2 ^ 8 % 256) * 256 + ip.toNat % 256) = ip := by
    refine BitVec.eq_of_toNat_eq ?_
    rw [BitVec.toNat_ofNat]
    omega
  rw [toList_display_v4, readIpv4Addr]
  simp only [List.append_assoc, List.cons_append, readSeparator_zero]
  rw [readOctet (by omega) (hdot _)]
  simp only [Option.bind_eq_bind, Option.bind_some]
  rw [readSeparator_succ, readOctet (by omega) (hdot _), Option.bind_some]
  rw [readSeparator_succ, readOctet (by omega) (hdot _), Option.bind_some]
  rw [readSeparator_succ, readOctet (by omega) hrest, Option.bind_some, hvalue]

/-- A number takes characters from the front. -/
theorem readDigits_suffix (value count : Nat) (cs : List Char) :
    (readDigits radix value count cs).2.2 <:+ cs := by
  induction cs generalizing value count with
  | nil => exact List.suffix_refl []
  | cons c cs ih =>
      rw [readDigits]
      split
      · exact (ih _ _).trans (List.suffix_cons c cs)
      · exact List.suffix_refl _

theorem readNumber_suffix {maxDigits bound : Nat} {allowZeroPrefix : Bool} {cs : List Char}
    (h : readNumber radix maxDigits bound allowZeroPrefix cs = some (n, rest)) : rest <:+ cs := by
  have hsuffix : (readDigits radix 0 0 cs).2.2 <:+ cs := readDigits_suffix 0 0 cs
  rw [readNumber] at h
  split at h
  next value count left hread =>
    rw [hread] at hsuffix
    split at h
    · exact absurd h (by simp only [reduceCtorEq, not_false_eq_true])
    · split at h
      · exact absurd h (by simp only [reduceCtorEq, not_false_eq_true])
      · rw [Option.some.injEq, Prod.mk.injEq] at h
        rw [← h.2]
        exact hsuffix

/-- An IPv4 address has dots. -/
theorem readIpv4Addr_eq_none {cs : List Char} (h : '.' ∉ cs) : readIpv4Addr cs = none := by
  rw [readIpv4Addr, Option.eq_none_iff_forall_ne_some]
  intro out hout
  rcases Option.bind_eq_some_iff.mp hout with ⟨⟨a, left⟩, hfirst, hout⟩
  rcases Option.bind_eq_some_iff.mp hout with ⟨second, hsecond, _⟩
  rcases Option.bind_eq_some_iff.mp hsecond with ⟨_, hgiven, _⟩
  have hsuffix : left <:+ cs := readNumber_suffix hfirst
  cases left with
  | nil => exact absurd hgiven (by simp only [readGivenChar, reduceCtorEq, not_false_eq_true])
  | cons c left =>
      rw [readGivenChar] at hgiven
      split at hgiven
      · next hc =>
          rw [hc] at hsuffix
          exact h (hsuffix.subset List.mem_cons_self)
      · exact absurd hgiven (by simp only [reduceCtorEq, not_false_eq_true])

/-- The digits of a number are digits. -/
theorem mem_toDigits (h : Reads radix) {c : Char} (hc : c ∈ Nat.toDigits radix n) :
    (toDigit radix c).isSome = true := by
  induction n using Nat.strongRecOn with
  | ind n ih =>
      have hlast : ∀ d < radix, c ∈ [d.digitChar] → (toDigit radix c).isSome = true := by
        intro d hd hmem
        rw [List.mem_singleton.mp hmem, (h.2 d hd).1, Option.isSome_some]
      by_cases hn : n < radix
      · rw [Nat.toDigits_of_lt_base hn] at hc
        exact hlast n hn hc
      · have hdiv : n / radix < n := Nat.div_lt_self (by have := h.1; omega) h.1
        rw [Nat.toDigits_of_base_le h.1 (Nat.le_of_not_lt hn), List.mem_append] at hc
        rcases hc with hleading | hmem
        · exact ih _ hdiv hleading
        · exact hlast _ (Nat.mod_lt n (by have := h.1; omega)) hmem

/-- Groups, each behind a colon. -/
def colons (groups : List Nat) : List Char :=
  groups.flatMap fun g => ':' :: Nat.toDigits 16 g

/-- Groups, with colons between them. -/
def joined : List Nat → List Char
  | [] => []
  | g :: groups => Nat.toDigits 16 g ++ colons groups

theorem toList_join (groups : List Nat) :
    (":".intercalate (groups.map hex)).toList = joined groups := by
  rw [String.toList_intercalate]
  cases groups with
  | nil => rfl
  | cons g groups =>
      rw [joined]
      induction groups generalizing g with
      | nil => simp only [List.map_cons, List.map_nil, List.intercalate_singleton, hex,
          String.toList_ofList, colons, List.flatMap_nil, List.append_nil]
      | cons g' groups ih =>
          have htail := ih g'
          rw [List.map_cons, List.map_cons] at htail ⊢
          rw [List.map_cons, List.map_cons, List.intercalate_cons_cons, htail, hex,
            String.toList_ofList, colons, colons, List.flatMap_cons]
          simp only [List.append_assoc, List.cons_append]
          rfl

/-- What ends a list of groups: the end of the text, or an elision. -/
def Closes (rest : List Char) : Prop := rest = [] ∨ ∃ tail, rest = ':' :: ':' :: tail

theorem Closes.ends (h : Closes rest) : Ends 16 rest := by
  rcases h with rfl | ⟨tail, rfl⟩
  · exact ends_nil 16
  · exact ends_cons _ rfl

/-- No group begins where a list of groups ends. -/
theorem Closes.readSeparator (h : Closes rest) (index : Nat) :
    readSeparator ':' index (readNumber 16 4 65536 true) rest = none := by
  rw [IpText.readSeparator]
  rcases h with rfl | ⟨tail, rfl⟩
  · split
    · rfl
    · rfl
  · split
    · rfl
    · rfl

theorem not_mem_toDigits (h : Reads radix) {c : Char} (hc : toDigit radix c = none) :
    c ∉ Nat.toDigits radix n := by
  intro hmem
  have hsome := mem_toDigits h hmem
  rw [hc] at hsome
  exact Bool.false_ne_true hsome

/-- Groups are written with digits and colons. -/
theorem not_mem_colons {c : Char} (hc : toDigit 16 c = none) (hcolon : c ≠ ':')
    {groups : List Nat} : c ∉ colons groups := by
  intro hmem
  rcases List.mem_flatMap.mp hmem with ⟨g, _, hg⟩
  rcases List.mem_cons.mp hg with heq | hdigit
  · exact hcolon heq
  · exact not_mem_toDigits reads_sixteen hc hdigit

theorem not_mem_joined {c : Char} (hc : toDigit 16 c = none) (hcolon : c ≠ ':')
    {groups : List Nat} : c ∉ joined groups := by
  cases groups with
  | nil => exact List.not_mem_nil
  | cons g groups =>
      rw [joined, List.mem_append, not_or]
      exact ⟨not_mem_toDigits reads_sixteen hc, not_mem_colons hc hcolon⟩

theorem not_dot_mem_colons {groups : List Nat} : '.' ∉ colons groups :=
  not_mem_colons rfl (by decide)

theorem not_dot_mem_joined {groups : List Nat} : '.' ∉ joined groups :=
  not_mem_joined rfl (by decide)

/-- Without dots no group is taken for an IPv4 address. -/
theorem readSeparator_v4_eq_none {cs : List Char} (h : '.' ∉ cs) (index : Nat) :
    readSeparator ':' index readIpv4Addr cs = none := by
  rw [readSeparator]
  split
  · exact readIpv4Addr_eq_none h
  · cases cs with
    | nil => rfl
    | cons c cs =>
        rw [List.mem_cons, not_or] at h
        rw [readGivenChar]
        split
        · exact readIpv4Addr_eq_none h.2
        · rfl

/-- Nothing is read where a list of groups ends. -/
theorem readGroups_closes (h : Closes rest) (hdot : '.' ∉ rest) (left index : Nat) :
    readGroups left index rest = (([], false), rest) := by
  cases left with
  | zero => rfl
  | succ left =>
      rw [readGroups, readSeparator_v4_eq_none hdot, ite_self, h.readSeparator]

/-- One group is read, and then the others. -/
theorem readGroups_cons {cs : List Char} {g left index : Nat} (hdot : '.' ∉ cs)
    (hread : readSeparator ':' index (readNumber 16 4 65536 true) cs = some (g, rest))
    {groups : List Nat} {rest' : List Char}
    (hothers : readGroups left (index + 1) rest = ((groups, false), rest')) :
    readGroups (left + 1) index cs = ((g :: groups, false), rest') := by
  rw [readGroups, readSeparator_v4_eq_none hdot, ite_self, hread]
  dsimp only
  rw [hothers]

theorem readGroup {g : Nat} (hg : g < 65536) (hrest : Ends 16 rest) :
    readNumber 16 4 65536 true (Nat.toDigits 16 g ++ rest) = some (g, rest) :=
  readNumber_toDigits reads_sixteen hg (by omega) (by omega) hrest

theorem Closes.ends_colons (h : Closes rest) (groups : List Nat) :
    Ends 16 (colons groups ++ rest) := by
  cases groups with
  | nil => exact h.ends
  | cons g groups => exact ends_cons _ rfl

/-- Groups behind colons are read back. -/
theorem readGroups_colons {groups : List Nat} (hgroups : ∀ g ∈ groups, g < 65536)
    (h : Closes rest) (hdot : '.' ∉ rest) {left : Nat} (hleft : groups.length ≤ left)
    (index : Nat) :
    readGroups left (index + 1) (colons groups ++ rest) = ((groups, false), rest) := by
  induction groups generalizing left index with
  | nil => exact readGroups_closes h hdot left (index + 1)
  | cons g groups ih =>
      rw [List.forall_mem_cons] at hgroups
      cases left with
      | zero => exact absurd hleft (Nat.not_succ_le_zero _)
      | succ left =>
          have hothers := ih hgroups.2 (Nat.le_of_succ_le_succ hleft) (index + 1)
          refine readGroups_cons ?_ ?_ hothers
          · rw [List.mem_append, not_or]
            exact ⟨not_dot_mem_colons, hdot⟩
          · have htext : colons (g :: groups) ++ rest =
                ':' :: (Nat.toDigits 16 g ++ (colons groups ++ rest)) := by
              simp only [colons, List.flatMap_cons, List.append_assoc, List.cons_append]
            rw [htext, readSeparator_succ]
            exact readGroup hgroups.1 (h.ends_colons groups)

/-- Groups with colons between them are read back. -/
theorem readGroups_joined {groups : List Nat} (hgroups : ∀ g ∈ groups, g < 65536)
    (h : Closes rest) (hdot : '.' ∉ rest) {left : Nat} (hleft : groups.length ≤ left) :
    readGroups left 0 (joined groups ++ rest) = ((groups, false), rest) := by
  cases groups with
  | nil => exact readGroups_closes h hdot left 0
  | cons g groups =>
      rw [List.forall_mem_cons] at hgroups
      cases left with
      | zero => exact absurd hleft (Nat.not_succ_le_zero _)
      | succ left =>
          have hothers := readGroups_colons hgroups.2 h hdot (Nat.le_of_succ_le_succ hleft) 0
          refine readGroups_cons ?_ ?_ hothers
          · rw [List.mem_append, not_or]
            exact ⟨not_dot_mem_joined, hdot⟩
          · rw [joined, List.append_assoc]
            exact readGroup hgroups.1 (h.ends_colons groups)

/-- The groups of an address make it up again. -/
theorem ofGroups_segments (ip : Ipv6Addr) : ofGroups ip.segments = ip := by
  have hlt : ip.toNat < 2 ^ 128 := ip.isLt
  -- What has been put together so far is a quotient of the address.
  have hnext : ∀ e, ip.toNat / 65536 ^ (e + 1) * 65536 + ip.toNat / 65536 ^ e % 65536 =
      ip.toNat / 65536 ^ e := by
    intro e
    rw [Nat.pow_succ, ← Nat.div_div_eq_div_mul, Nat.div_add_mod']
  have hfirst : 0 * 65536 + ip.toNat / 65536 ^ 7 % 65536 = ip.toNat / 65536 ^ 7 := by omega
  have hfold : ip.segments.foldl (fun acc g => acc * 65536 + g) 0 = ip.toNat / 65536 ^ 0 := by
    rw [← hnext 0, ← hnext 1, ← hnext 2, ← hnext 3, ← hnext 4, ← hnext 5, ← hnext 6, ← hfirst]
    rfl
  refine BitVec.eq_of_toNat_eq ?_
  rw [ofGroups, BitVec.toNat_ofNat, hfold, Nat.pow_zero, Nat.div_one]
  exact Nat.mod_eq_of_lt hlt

/-- A run of zeros, by start and length. -/
def ZeroRun (groups : List Nat) (run : Nat × Nat) : Prop :=
  run.1 + run.2 ≤ groups.length ∧ ∀ i, run.1 ≤ i → i < run.1 + run.2 → groups[i]? = some 0

theorem ZeroRun.append {groups : List Nat} {run : Nat × Nat} (h : ZeroRun groups run)
    (more : List Nat) : ZeroRun (groups ++ more) run := by
  have hend := h.1
  refine ⟨by rw [List.length_append]; omega, ?_⟩
  intro i hstart hstop
  rw [List.getElem?_append_left (by omega)]
  exact h.2 i hstart hstop

/-- What is kept while zeros are counted: the longest run, and the current one,
    which reaches to where the count is. -/
def Counted (groups : List Nat) (runs : (Nat × Nat) × (Nat × Nat)) : Prop :=
  ZeroRun groups runs.1 ∧ ZeroRun groups runs.2 ∧
    (runs.2.2 ≠ 0 → runs.2.1 + runs.2.2 = groups.length)

/-- A fold over numbered elements keeps what each step keeps. -/
theorem foldl_zipIdx_inv {α β : Type} {f : β → α × Nat → β} {P : List α → β → Prop}
    (hstep : ∀ before a b, P before b → P (before ++ [a]) (f b (a, before.length)))
    (as before : List α) (b : β) (h : P before b) :
    P (before ++ as) ((as.zipIdx before.length).foldl f b) := by
  induction as generalizing before b with
  | nil => rwa [List.append_nil]
  | cons a as ih =>
      have hnext := ih (before ++ [a]) (f b (a, before.length)) (hstep before a b h)
      rw [List.append_assoc, List.singleton_append, List.length_append,
        List.length_singleton] at hnext
      rw [List.zipIdx_cons, List.foldl_cons]
      exact hnext

/-- The longest run of zeros is a run of zeros. -/
theorem zeroRun_longest (groups : List Nat) : ZeroRun groups (longestZeroRun groups) := by
  have hinit : Counted [] ((0, 0), (0, 0)) := by
    have hrun : ZeroRun [] (0, 0) := ⟨Nat.le_refl 0, fun i _ hi => absurd hi (Nat.not_lt_zero i)⟩
    exact ⟨hrun, hrun, fun hne => absurd rfl hne⟩
  refine (foldl_zipIdx_inv (P := Counted) ?_ groups [] _ hinit).1
  rintro before g ⟨⟨start, len⟩, ⟨start', len'⟩⟩ ⟨hlongest, hcurrent, hreach⟩
  dsimp only at hlongest hcurrent hreach ⊢
  by_cases hg : g = 0
  · rw [if_pos hg]
    -- The current run goes on, or begins here.
    have hnext : ZeroRun (before ++ [g]) (if len' = 0 then before.length else start', len' + 1) ∧
        (if len' = 0 then before.length else start') + (len' + 1) = before.length + 1 := by
      have hend : (if len' = 0 then before.length else start') + len' = before.length := by
        split
        · next hlen => rw [hlen, Nat.add_zero]
        · next hlen => exact hreach hlen
      refine ⟨⟨?_, ?_⟩, by omega⟩
      · rw [List.length_append, List.length_singleton]
        dsimp only
        omega
      · intro i hstart hstop
        dsimp only at hstart hstop
        by_cases hi : i < before.length
        · rw [List.getElem?_append_left hi]
          split at hstart
          · omega
          · exact hcurrent.2 i hstart (by have := hreach ‹_›; omega)
        · have hlast : i = before.length := by omega
          rw [hlast, List.getElem?_concat_length, hg]
    refine ⟨?_, hnext.1, ?_⟩
    · split
      · exact hnext.1
      · exact hlongest.append [g]
    · intro _
      rw [List.length_append, List.length_singleton]
      exact hnext.2
  · rw [if_neg hg]
    refine ⟨hlongest.append [g], ⟨Nat.zero_le _, ?_⟩, fun hne => absurd rfl hne⟩
    intro i _ hi
    exact absurd hi (Nat.not_lt_zero i)

/-- The groups around a run of zeros, and the run. -/
theorem ZeroRun.split {groups : List Nat} {run : Nat × Nat} (h : ZeroRun groups run) :
    groups.take run.1 ++ List.replicate run.2 0 ++ groups.drop (run.1 + run.2) = groups := by
  have hzeros : List.replicate run.2 0 = (groups.drop run.1).take run.2 := by
    refine List.ext_getElem? fun i => ?_
    by_cases hi : i < run.2
    · rw [List.getElem?_replicate, if_pos hi, List.getElem?_take, if_pos hi, List.getElem?_drop]
      exact (h.2 (run.1 + i) (by omega) (by omega)).symm
    · rw [List.getElem?_replicate, if_neg hi, List.getElem?_take, if_neg hi]
  rw [hzeros, List.append_assoc, ← List.drop_drop, List.take_append_drop, List.take_append_drop]

theorem segments_length (ip : Ipv6Addr) : ip.segments.length = 8 := by
  rw [Ipv6Addr.segments, List.length_map, List.length_range]

theorem segments_lt (ip : Ipv6Addr) : ∀ g ∈ ip.segments, g < 65536 := by
  intro g hg
  rcases List.mem_map.mp hg with ⟨i, _, rfl⟩
  exact Nat.mod_lt _ (by omega)

/-- The end of a text closes a list of groups. -/
theorem closes_nil : Closes [] := Or.inl rfl

/-- All eight groups, written out, are read back. -/
theorem readIpv6Addr_full (ip : Ipv6Addr) : readIpv6Addr (joined ip.segments) = some (ip, []) := by
  have hgroups := readGroups_joined (segments_lt ip) closes_nil List.not_mem_nil
    (Nat.le_of_eq (segments_length ip))
  rw [List.append_nil] at hgroups
  rw [readIpv6Addr, hgroups]
  dsimp only
  rw [if_pos (segments_length ip), ofGroups_segments]

/-- Groups around an elided run of zeros are read back. -/
theorem readIpv6Addr_elided {ip : Ipv6Addr} {run : Nat × Nat} (h : ZeroRun ip.segments run)
    (hlong : 1 < run.2) :
    readIpv6Addr (joined (ip.segments.take run.1) ++
      ':' :: ':' :: joined (ip.segments.drop (run.1 + run.2))) = some (ip, []) := by
  have hend := h.1
  rw [segments_length] at hend
  have hhead : (ip.segments.take run.1).length = run.1 := by
    rw [List.length_take, segments_length]
    omega
  have htail : (ip.segments.drop (run.1 + run.2)).length = 8 - (run.1 + run.2) := by
    rw [List.length_drop, segments_length]
  have hdots : '.' ∉ ':' :: ':' :: joined (ip.segments.drop (run.1 + run.2)) := by
    rw [List.mem_cons, List.mem_cons, not_or, not_or]
    exact ⟨by decide, by decide, not_dot_mem_joined⟩
  have hfit : (ip.segments.take run.1).length ≤ 8 := by omega
  have hfit' : (ip.segments.drop (run.1 + run.2)).length ≤ 8 - (run.1 + 1) := by omega
  have hfirst := readGroups_joined
    (fun g hg => segments_lt ip g (List.mem_of_mem_take hg)) (Or.inr ⟨_, rfl⟩) hdots hfit
  have hsecond := readGroups_joined
    (fun g hg => segments_lt ip g (List.mem_of_mem_drop hg)) closes_nil List.not_mem_nil hfit'
  rw [List.append_nil] at hsecond
  rw [readIpv6Addr, hfirst]
  dsimp only
  rw [if_neg (by rw [hhead]; omega), if_neg Bool.false_ne_true]
  simp only [readGivenChar, if_true, Option.bind_eq_bind, Option.bind_some, hhead]
  rw [hsecond]
  dsimp only
  have hzeros : 8 - run.1 - (ip.segments.drop (run.1 + run.2)).length = run.2 := by
    rw [htail]
    omega
  rw [hzeros, h.split, ofGroups_segments]

/-- A number begins with a digit. -/
theorem readNumber_eq_none {maxDigits bound : Nat} {allowZeroPrefix : Bool} {c : Char}
    (h : toDigit radix c = none) (cs : List Char) :
    readNumber radix maxDigits bound allowZeroPrefix (c :: cs) = none := by
  rw [readNumber, readDigits, h]
  dsimp only
  rw [beq_self_eq_true, Bool.or_true, if_pos rfl]

theorem readIpv4Addr_cons_eq_none {c : Char} (h : toDigit 10 c = none) (cs : List Char) :
    readIpv4Addr (c :: cs) = none := by
  have hfirst : readSeparator '.' 0 (readNumber 10 3 256 false) (c :: cs) = none :=
    readNumber_eq_none h cs
  rw [readIpv4Addr, hfirst]
  rfl

/-- No groups are read before an elision. -/
theorem readGroups_colon (left : Nat) (cs : List Char) :
    readGroups left 0 (':' :: cs) = (([], false), ':' :: cs) := by
  cases left with
  | zero => rfl
  | succ left =>
      rw [readGroups, readSeparator_zero, readSeparator_zero, readIpv4Addr_cons_eq_none rfl,
        ite_self, readNumber_eq_none rfl]

/-- The groups of a mapped address behind its elision. -/
theorem readGroups_mapped (v4 : Ipv4Addr) :
    readGroups 7 0 ("ffff:".toList ++ v4.display.toList) =
      (([65535, v4.toNat / 2 ^ 16, v4.toNat % 2 ^ 16], true), []) := by
  have hv4 := readIpv4Addr_display v4 (ends_nil 10)
  rw [List.append_nil] at hv4
  have hlast : readGroups 6 1 (':' :: v4.display.toList) =
      (([v4.toNat / 2 ^ 16, v4.toNat % 2 ^ 16], true), []) := by
    rw [readGroups, if_pos (by omega), readSeparator_succ, hv4]
  have htext : "ffff:".toList ++ v4.display.toList =
      Nat.toDigits 16 65535 ++ ':' :: v4.display.toList := by
    rw [show Nat.toDigits 16 65535 = ['f', 'f', 'f', 'f'] from by decide]
    rfl
  have hnone : readIpv4Addr ("ffff:".toList ++ v4.display.toList) = none :=
    readIpv4Addr_cons_eq_none rfl _
  have hends : Ends 16 (':' :: v4.display.toList) := ends_cons _ rfl
  have hgroup : readNumber 16 4 65536 true ("ffff:".toList ++ v4.display.toList) =
      some (65535, ':' :: v4.display.toList) := by
    rw [htext]
    exact readGroup (by omega) hends
  rw [readGroups, readSeparator_zero, readSeparator_zero, hnone, ite_self, hgroup]
  dsimp only
  rw [hlast]

/-- A mapped address, whose last two groups are written as an IPv4 address, is
    read back. -/
theorem readIpv6Addr_mapped {ip : Ipv6Addr}
    (h : ip.segments.take 6 = [0, 0, 0, 0, 0, 65535]) :
    readIpv6Addr (':' :: ':' :: ("ffff:".toList ++
      (Ipv4Addr.display (BitVec.ofNat 32 ip.toNat)).toList)) = some (ip, []) := by
  have hhigh : ip.toNat % 2 ^ 32 / 2 ^ 16 = ip.toNat / 65536 ^ 1 % 65536 := by omega
  have hlow : ip.toNat % 2 ^ 32 % 2 ^ 16 = ip.toNat / 65536 ^ 0 % 65536 := by omega
  have hall : [0, 0, 0, 0, 0, 65535, ip.toNat % 2 ^ 32 / 2 ^ 16, ip.toNat % 2 ^ 32 % 2 ^ 16] =
      ip.segments := by
    rw [← List.take_append_drop 6 ip.segments, h, hhigh, hlow]
    rfl
  rw [readIpv6Addr, readGroups_colon]
  dsimp only [List.length_nil]
  rw [if_neg (by omega), if_neg Bool.false_ne_true]
  simp only [readGivenChar, if_true, Option.bind_eq_bind, Option.bind_some]
  rw [readGroups_mapped, BitVec.toNat_ofNat]
  dsimp only
  have hgroups : [] ++ List.replicate (8 - 0 - 3) 0 ++
      [65535, ip.toNat % 2 ^ 32 / 2 ^ 16, ip.toNat % 2 ^ 32 % 2 ^ 16] = ip.segments := hall
  have hvalue : ofGroups ([] ++ List.replicate (8 - 0 - 3) 0 ++
      [65535, ip.toNat % 2 ^ 32 / 2 ^ 16, ip.toNat % 2 ^ 32 % 2 ^ 16]) = ip := by
    rw [hgroups, ofGroups_segments]
  exact congrArg (fun addr => some (addr, [])) hvalue

/-- The three forms of an IPv6 address. -/
theorem toList_display_v6 (ip : Ipv6Addr) :
    (ip.segments.take 6 = [0, 0, 0, 0, 0, 65535] ∧ ip.display.toList = ':' :: ':' ::
      ("ffff:".toList ++ (Ipv4Addr.display (BitVec.ofNat 32 ip.toNat)).toList)) ∨
    (∃ run, ZeroRun ip.segments run ∧ 1 < run.2 ∧ ip.display.toList =
      joined (ip.segments.take run.1) ++
        ':' :: ':' :: joined (ip.segments.drop (run.1 + run.2))) ∨
    ip.display.toList = joined ip.segments := by
  rw [Ipv6Addr.display]
  dsimp only
  split
  · next hmapped =>
      refine Or.inl ⟨hmapped, ?_⟩
      rw [String.toList_append]
      rfl
  · split
    · next hlong =>
        refine Or.inr (Or.inl ⟨_, zeroRun_longest ip.segments, hlong, ?_⟩)
        rw [String.toList_append, String.toList_append, toList_join, toList_join,
          List.append_assoc]
        rfl
    · exact Or.inr (Or.inr (toList_join ip.segments))

/-- A written IPv6 address is read back, and not as an IPv4 address. -/
theorem readIpv6Addr_display (ip : Ipv6Addr) :
    readIpv4Addr ip.display.toList = none ∧ readIpv6Addr ip.display.toList = some (ip, []) := by
  rcases toList_display_v6 ip with ⟨hmapped, htext⟩ | ⟨run, hrun, hlong, htext⟩ | htext
  · rw [htext]
    exact ⟨readIpv4Addr_cons_eq_none rfl _, readIpv6Addr_mapped hmapped⟩
  · rw [htext]
    refine ⟨readIpv4Addr_eq_none ?_, readIpv6Addr_elided hrun hlong⟩
    rw [List.mem_append, List.mem_cons, List.mem_cons, not_or, not_or, not_or]
    exact ⟨not_dot_mem_joined, by decide, by decide, not_dot_mem_joined⟩
  · rw [htext]
    exact ⟨readIpv4Addr_eq_none not_dot_mem_joined, readIpv6Addr_full ip⟩

/-- Text without slashes. -/
theorem not_slash_mem_display_v4 (ip : Ipv4Addr) : '/' ∉ ip.display.toList := by
  have hdigits : ∀ {n}, '/' ∉ Nat.toDigits 10 n := not_mem_toDigits reads_ten rfl
  rw [toList_display_v4]
  simp only [List.mem_append, List.mem_cons, hdigits, or_false, Char.reduceEq, not_false_eq_true]

theorem not_slash_mem_display_v6 (ip : Ipv6Addr) : '/' ∉ ip.display.toList := by
  have hjoined : ∀ {groups}, '/' ∉ joined groups := not_mem_joined rfl (by decide)
  rcases toList_display_v6 ip with ⟨_, htext⟩ | ⟨run, _, _, htext⟩ | htext
  · have hffff : '/' ∉ "ffff:".toList := by decide
    rw [htext]
    simp only [List.mem_cons, List.mem_append, hffff, not_slash_mem_display_v4, Char.reduceEq,
      or_self, not_false_eq_true]
  · rw [htext]
    simp only [List.mem_append, List.mem_cons, hjoined, Char.reduceEq, or_self, not_false_eq_true]
  · rw [htext]
    exact hjoined

end IpText

/-- Any written address is read back. -/
theorem IpAddr.parse_display (addr : IpAddr) : IpAddr.parse addr.display = some addr := by
  cases addr with
  | v4 ip =>
      have hread := IpText.readIpv4Addr_display ip (IpText.ends_nil 10)
      rw [List.append_nil] at hread
      rw [display, parse, hread]
      rfl
  | v6 ip =>
      rcases IpText.readIpv6Addr_display ip with ⟨hv4, hv6⟩
      rw [display, parse, hv4, hv6]
      rfl

theorem IpAddr.not_slash_mem_display (addr : IpAddr) : '/' ∉ addr.display.toList := by
  cases addr with
  | v4 ip => exact IpText.not_slash_mem_display_v4 ip
  | v6 ip => exact IpText.not_slash_mem_display_v6 ip

/-- Splitting at a character that was put between two texts. -/
theorem splitOnce_append {before after : String} {sep : Char} (h : sep ∉ before.toList) :
    splitOnce (before ++ String.singleton sep ++ after) sep = some (before, after) := by
  have hspan : (before.toList ++ sep :: after.toList).span (· ≠ sep) =
      (before.toList, sep :: after.toList) := by
    have hall : ∀ c ∈ before.toList, decide (c ≠ sep) = true := by
      intro c hc
      rw [decide_eq_true_eq]
      rintro rfl
      exact h hc
    rw [List.span_eq_takeWhile_dropWhile, List.takeWhile_append_of_pos hall,
      List.dropWhile_append_of_pos hall, List.takeWhile_cons_of_neg (by simp),
      List.dropWhile_cons_of_neg (by simp), List.append_nil]
  have htext : (before ++ String.singleton sep ++ after).toList =
      before.toList ++ sep :: after.toList := by
    rw [String.toList_append, String.toList_append, String.toList_singleton, List.append_assoc,
      List.singleton_append]
  rw [splitOnce, htext, hspan]
  simp only [String.ofList_toList]

/-- There is nothing to split at a character that does not occur. -/
theorem splitOnce_eq_none {text : String} {sep : Char} (h : sep ∉ text.toList) :
    splitOnce text sep = none := by
  have hall : ∀ c ∈ text.toList, decide (c ≠ sep) = true := by
    intro c hc
    rw [decide_eq_true_eq]
    rintro rfl
    exact h hc
  rw [splitOnce, List.span_eq_takeWhile_dropWhile, List.dropWhile_eq_nil_iff.mpr hall]

/-- A written prefix length is read back. -/
theorem parseU8_toString (len : UInt8) : parseU8 (toString len.toNat) = some len := by
  have hplus : '+' ∉ Nat.toDigits 10 len.toNat :=
    IpText.not_mem_toDigits IpText.reads_ten rfl
  have hread := IpText.readDigits_toDigits (n := len.toNat) IpText.reads_ten []
  rw [List.append_nil, IpText.readDigits_ends (IpText.ends_nil 10)] at hread
  have hlt : len.toNat < 256 := len.toNat_lt
  have hpos : 0 < (Nat.toDigits 10 len.toNat).length := Nat.length_toDigits_pos
  rw [parseU8, IpText.toList_toString]
  dsimp only
  split
  · next cs heq =>
      rw [heq] at hplus
      exact absurd List.mem_cons_self hplus
  · rw [hread]
    dsimp only
    rw [if_neg (by simp only [ne_eq, not_true, false_or, not_or]; omega), UInt8.ofNat_toNat]

/-- The text of an address is what stands before the slash of a network. -/
theorem splitOnce_display (addr : IpAddr) (len : String) :
    splitOnce (addr.display ++ "/" ++ len) '/' = some (addr.display, len) := by
  have hslash : "/" = String.singleton '/' := rfl
  rw [hslash]
  exact splitOnce_append addr.not_slash_mem_display

/-- A network that was read is read again from its text. -/
theorem parseIpNetwork_display {text : String} {addr : IpAddr} {len : UInt8}
    (h : parseIpNetwork text = some (addr, len)) :
    parseIpNetwork (addr.display ++ "/" ++ toString len.toNat) = some (addr, len) := by
  rcases Option.bind_eq_some_iff.mp h with ⟨⟨before, after⟩, _, h⟩
  rcases Option.bind_eq_some_iff.mp h with ⟨addr', _, h⟩
  rcases Option.bind_eq_some_iff.mp h with ⟨len', _, h⟩
  have hguard : ∀ maxPrefix : UInt8,
      (if len' ≤ maxPrefix then some (addr', len') else none) = some (addr, len) →
        addr' = addr ∧ len' = len ∧ len ≤ maxPrefix := by
    intro maxPrefix hsome
    by_cases hfits : len' ≤ maxPrefix
    · rw [if_pos hfits, Option.some.injEq, Prod.mk.injEq] at hsome
      exact ⟨hsome.1, hsome.2, hsome.2 ▸ hfits⟩
    · rw [if_neg hfits] at hsome
      exact absurd hsome (by simp only [reduceCtorEq, not_false_eq_true])
  rcases hguard _ h with ⟨rfl, rfl, hfits⟩
  simp only [parseIpNetwork, splitOnce_display, addr'.parse_display, parseU8_toString,
    Option.bind_eq_bind, Option.bind_some]
  exact if_pos hfits

/-- An address without a prefix length is no network. -/
theorem parseIpNetwork_addr (addr : IpAddr) : parseIpNetwork addr.display = none := by
  rw [parseIpNetwork, splitOnce_eq_none addr.not_slash_mem_display]
  rfl

/-- Text of an address and a prefix length is read as no other network. -/
theorem parseIpNetwork_text {addr addr' : IpAddr} {len len' : UInt8}
    (h : parseIpNetwork (addr.display ++ "/" ++ toString len.toNat) = some (addr', len')) :
    addr' = addr ∧ len' = len := by
  simp only [parseIpNetwork, splitOnce_display, addr.parse_display, parseU8_toString,
    Option.bind_eq_bind, Option.bind_some, Option.ite_none_right_eq_some, Option.some.injEq,
    Prod.mk.injEq] at h
  exact ⟨h.2.1.symm, h.2.2.symm⟩

end Netfyr
