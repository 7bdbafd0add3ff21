import Mathlib.Data.BitVec

/-!
# Leading Bits

Words compared by their first bits, the most significant ones. `mask w n` keeps
the first `n` bits of a word of width `w`, and masking is how a program compares
them; `Agree n` says bit by bit what it compares. `masked_eq_iff` says the two
are the same, and everything else about masks is a fact about single bits.

The mask is built by a shift of `w - n`, so its two ends are shifts by the whole
width and by nothing. A shift of a word by its width leaves zero here, as it does
in arithmetic; a language that refuses such a shift has to say zero itself.

## Main definitions

* `mask`: The word that keeps the first bits.
* `Agree`: Two words have the same first bits.

## Theorems

* `getMsbD_mask`: The bits of a mask.
* `toNat_mask`: The value of a mask.
* `masked_eq_iff`: Masked words are equal exactly when the words agree.
* `agree_width`: Words that agree on every bit are equal.
-/

namespace Netfyr

namespace Leading

variable {w n : Nat} {x y : BitVec w}

/-- The word whose first `n` bits are ones. -/
def mask (w n : Nat) : BitVec w := BitVec.allOnes w <<< (w - n)

/-- Two words have the same first `n` bits. -/
def Agree (n : Nat) (x y : BitVec w) : Prop :=
  ∀ i < n, x.getMsbD i = y.getMsbD i

instance (n : Nat) (x y : BitVec w) : Decidable (Agree n x y) :=
  inferInstanceAs (Decidable (∀ i < n, x.getMsbD i = y.getMsbD i))

theorem Agree.symm (h : Agree n x y) : Agree n y x := fun i hi => (h i hi).symm

/-- Any two words agree on their first no bits. -/
theorem agree_zero : Agree 0 x y := fun i hi => absurd hi (Nat.not_lt_zero i)

/-- Words that agree on every bit are equal. -/
theorem agree_width : Agree w x y ↔ x = y := by
  constructor
  · intro h
    exact BitVec.eq_of_getMsbD_eq fun i hi => h i hi
  · rintro rfl i _
    rfl

/-- A mask's first bits are ones, and the others are not. -/
theorem getMsbD_mask (h : n ≤ w) (i : Nat) : (mask w n).getMsbD i = decide (i < n) := by
  have hbound : i + (w - n) < w ↔ i < n := by omega
  rw [mask, BitVec.getMsbD_shiftLeft, BitVec.getMsbD_allOnes, decide_eq_decide, hbound]

/-- A mask is the largest multiple of its lowest bit. -/
theorem toNat_mask : (mask w n).toNat = 2 ^ w - 2 ^ (w - n) := by
  have hle : 2 ^ (w - n) ≤ 2 ^ w := Nat.pow_le_pow_right Nat.two_pos (Nat.sub_le w n)
  have hpos : 0 < 2 ^ (w - n) := Nat.two_pow_pos (w - n)
  -- What is shifted out is a multiple of the word's size.
  have hsplit : (2 ^ w - 1) * 2 ^ (w - n) =
      2 ^ w - 2 ^ (w - n) + (2 ^ (w - n) - 1) * 2 ^ w := by
    rw [Nat.sub_mul, Nat.sub_mul, Nat.one_mul, Nat.one_mul, Nat.mul_comm (2 ^ (w - n))]
    have hword : 2 ^ w ≤ 2 ^ w * 2 ^ (w - n) := Nat.le_mul_of_pos_right _ hpos
    omega
  rw [mask, BitVec.toNat_shiftLeft, BitVec.toNat_allOnes, Nat.shiftLeft_eq, hsplit,
    Nat.add_mul_mod_self_right]
  exact Nat.mod_eq_of_lt (Nat.sub_lt (Nat.two_pow_pos w) hpos)

/-- Masked words are equal exactly when the words agree on the bits kept. -/
theorem masked_eq_iff (h : n ≤ w) : x &&& mask w n = y &&& mask w n ↔ Agree n x y := by
  constructor
  · intro heq i hi
    have hbit : (x &&& mask w n).getMsbD i = (y &&& mask w n).getMsbD i := by rw [heq]
    rwa [BitVec.getMsbD_and, BitVec.getMsbD_and, getMsbD_mask h, decide_eq_true hi,
      Bool.and_true, Bool.and_true] at hbit
  · intro hagree
    refine BitVec.eq_of_getMsbD_eq fun i _ => ?_
    rw [BitVec.getMsbD_and, BitVec.getMsbD_and, getMsbD_mask h]
    by_cases hi : i < n
    · rw [hagree i hi]
    · rw [decide_eq_false hi, Bool.and_false, Bool.and_false]

end Leading

end Netfyr
