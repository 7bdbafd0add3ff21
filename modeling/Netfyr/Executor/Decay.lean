import Netfyr.Executor.Lifetimes

/-!
# Natural Decay

A finite lifetime runs down in whole seconds from the instant at which it was
set. Two reports of it are truncated each on its own, the instants at which they
were taken are known to a second only, and what is left never falls below zero.
The comparison of two reports allows for exactly this: it accepts every pair
that decay explains, and what it accepts lies within two seconds of decay.

The source compares in `i64`. `lifetimeMatchesChecked` is the same comparison
with every step checked for overflow.

## Main definitions

* `reported`: What is reported of a lifetime at an instant.
* `lifetimeMatchesChecked`: The comparison, absent where a step overflows.

## Theorems

* `reported_eq_decay`: A report is the lifetime, decayed.
* `lifetimeMatches_reported`: Two reports of one lifetime match.
* `lifetimeMatches_near`: What matches is within two seconds of decay.
* `lifetimeMatchesChecked_eq`: No step overflows.
* `lifetimeMatches_decay`: The three together.
-/

namespace Netfyr

/-- What is reported at an instant of a lifetime that was set at `start`. -/
def reported (seconds : UInt32) (start instant : Instant) : UInt32 :=
  UInt32.ofNat (seconds.toNat - (instant - start) / nanosPerSecond)

/-- An integer of the source's `i64`, absent outside of its range. -/
def checkedI64 (n : Int) : Option Int :=
  if -9223372036854775808 ≤ n ∧ n ≤ 9223372036854775807 then some n else none

/-- `lifetimeMatches` with the arithmetic of the source. -/
def lifetimeMatchesChecked (expected actual : UInt32) (elapsed : Duration) : Option Bool :=
  if expected = u32Max ∨ actual = u32Max then some (expected == actual)
  else do
    let floor : Int := (wholeSeconds elapsed).toNat
    let ceil ← checkedI64 (floor + if 0 < elapsed % nanosPerSecond then 1 else 0)
    let consumed ← checkedI64 ((expected.toNat : Int) - actual.toNat)
    let low ← checkedI64 (floor - 1)
    let high ← checkedI64 (ceil + 1)
    some (decide ((low ≤ consumed ∧ consumed ≤ high) ∨
      (actual = 0 ∧ (expected.toNat : Int) ≤ high)))

theorem toNat_ne_u32Max {seconds : UInt32} (h : seconds ≠ u32Max) :
    seconds.toNat < 4294967295 := by
  have hlt := seconds.toNat_lt
  have hne : seconds.toNat ≠ 4294967295 := fun heq => h (UInt32.toNat_inj.mp heq)
  omega

theorem reported_toNat (seconds : UInt32) (start instant : Instant) :
    (reported seconds start instant).toNat =
      seconds.toNat - (instant - start) / nanosPerSecond := by
  rw [reported, UInt32.toNat_ofNat']
  exact Nat.mod_eq_of_lt (Nat.lt_of_le_of_lt (Nat.sub_le _ _) seconds.toNat_lt)

/-- A report never exceeds the lifetime, so a finite one is reported finite. -/
theorem reported_ne_u32Max {seconds : UInt32} (h : seconds < u32Max) (start instant : Instant) :
    reported seconds start instant ≠ u32Max := by
  intro heq
  have hlt := UInt32.lt_iff_toNat_lt.mp h
  rw [← heq, reported_toNat] at hlt
  exact absurd hlt (Nat.not_lt.mpr (Nat.sub_le _ _))

/-- A report is what the source's own decay makes of the lifetime. -/
theorem reported_eq_decay {seconds : UInt32} (h : seconds < u32Max) (start instant : Instant) :
    reported seconds start instant = decay seconds (wholeSeconds (instant - start)) := by
  have hbound := UInt32.lt_iff_toNat_lt.mp h
  have hmax : u32Max.toNat = 4294967295 := rfl
  have helapsed := wholeSeconds_toNat (instant - start)
  rw [← UInt32.toNat_inj, reported_toNat, decay, if_neg (UInt32.ne_of_lt h)]
  generalize (instant - start) / nanosPerSecond = whole at *
  -- The subtraction saturates, in the source by a comparison and here by itself.
  split
  · next hle =>
      rw [UInt32.toNat_sub_of_le _ _ hle, helapsed]
      omega
  · next hlt =>
      have hover := UInt32.lt_iff_toNat_lt.mp (UInt32.not_le.mp hlt)
      rw [UInt32.toNat_zero]
      omega

/-- Whether finite lifetimes match, in numbers. -/
theorem lifetimeMatches_iff {expected actual : UInt32} {elapsed : Duration}
    (hexpected : expected ≠ u32Max) (hactual : actual ≠ u32Max) :
    lifetimeMatches expected actual elapsed = true ↔
      (((min (elapsed / nanosPerSecond) 4294967295 : Nat) : Int) - 1 ≤
          (expected.toNat : Int) - actual.toNat ∧
        (expected.toNat : Int) - actual.toNat ≤
          ((min (elapsed / nanosPerSecond) 4294967295 : Nat) : Int) +
            (if 0 < elapsed % nanosPerSecond then 1 else 0) + 1) ∨
      (actual.toNat = 0 ∧ (expected.toNat : Int) ≤
        ((min (elapsed / nanosPerSecond) 4294967295 : Nat) : Int) +
          (if 0 < elapsed % nanosPerSecond then 1 else 0) + 1) := by
  have hzero : actual = 0 ↔ actual.toNat = 0 := UInt32.toNat_inj.symm
  rw [lifetimeMatches, if_neg (not_or.mpr ⟨hexpected, hactual⟩), decide_eq_true_eq,
    wholeSeconds_toNat, hzero]

/-- The consumption between two reports, in numbers: `early` is the age of the
    first one, `passed` the time to the second and `elapsed` what it seems to be. -/
theorem consumed_between {seconds early passed elapsed : Nat} (hfinite : seconds < 4294967295)
    (hslow : elapsed ≤ passed + 1000000000) (hfast : passed ≤ elapsed + 1000000000) :
    (((min (elapsed / 1000000000) 4294967295 : Nat) : Int) - 1 ≤
        ((seconds - early / 1000000000 : Nat) : Int) -
          (seconds - (early + passed) / 1000000000 : Nat) ∧
      ((seconds - early / 1000000000 : Nat) : Int) -
          (seconds - (early + passed) / 1000000000 : Nat) ≤
        ((min (elapsed / 1000000000) 4294967295 : Nat) : Int) +
          (if 0 < elapsed % 1000000000 then 1 else 0) + 1) ∨
    (seconds - (early + passed) / 1000000000 = 0 ∧
      ((seconds - early / 1000000000 : Nat) : Int) ≤
        ((min (elapsed / 1000000000) 4294967295 : Nat) : Int) +
          (if 0 < elapsed % 1000000000 then 1 else 0) + 1) := by
  by_cases hover : seconds - (early + passed) / 1000000000 = 0
  · -- What ran out has consumed no more than it had, and at the cap it had less.
    right
    refine ⟨hover, ?_⟩
    split <;> omega
  · -- Where something is left, the time that passed is far below the cap.
    left
    split <;> omega

/-- Two reports of one lifetime match, however late each was taken and although
    the time between them is known to a second only. -/
theorem lifetimeMatches_reported {seconds : UInt32}
    {start sampled sampledLater observed observedLater : Instant} (hfinite : seconds < u32Max)
    (hstart : start ≤ sampled) (hsampled : sampled ≤ sampledLater)
    (hslow : observedLater - observed ≤ sampledLater - sampled + nanosPerSecond)
    (hfast : sampledLater - sampled ≤ observedLater - observed + nanosPerSecond) :
    lifetimeMatches (reported seconds start sampled) (reported seconds start sampledLater)
      (observedLater - observed) = true := by
  have hage : sampledLater - start = (sampled - start) + (sampledLater - sampled) := by
    rw [Nat.add_comm]
    exact (Nat.sub_add_sub_cancel hsampled hstart).symm
  rw [lifetimeMatches_iff (reported_ne_u32Max hfinite start sampled)
    (reported_ne_u32Max hfinite start sampledLater), reported_toNat, reported_toNat, hage]
  exact consumed_between (UInt32.lt_iff_toNat_lt.mp hfinite) hslow hfast

/-- The range that is accepted, in numbers: while something is left, it is the
    time that passed, give or take less than two seconds. -/
theorem consumed_near {expected actual elapsed : Nat} (hfinite : expected < 4294967295)
    (hleft : 0 < actual)
    (h : (((min (elapsed / 1000000000) 4294967295 : Nat) : Int) - 1 ≤ (expected : Int) - actual ∧
        (expected : Int) - actual ≤ ((min (elapsed / 1000000000) 4294967295 : Nat) : Int) +
          (if 0 < elapsed % 1000000000 then 1 else 0) + 1) ∨
      (actual = 0 ∧ (expected : Int) ≤ ((min (elapsed / 1000000000) 4294967295 : Nat) : Int) +
        (if 0 < elapsed % 1000000000 then 1 else 0) + 1)) :
    (elapsed : Int) < ((expected : Int) - actual + 2) * (1000000000 : Nat) ∧
      ((expected : Int) - actual - 2) * (1000000000 : Nat) < elapsed := by
  rcases h with hrange | hover
  · -- At the cap more than any finite lifetime would have to be consumed.
    split at hrange <;> omega
  · omega

/-- What matches has consumed the time that passed, give or take less than two
    seconds, as long as something is left. -/
theorem lifetimeMatches_near {expected actual : UInt32} {elapsed : Duration}
    (h : lifetimeMatches expected actual elapsed = true) (hexpected : expected ≠ u32Max)
    (hactual : actual ≠ u32Max) (hleft : 0 < actual) :
    (elapsed : Int) < ((expected.toNat : Int) - actual.toNat + 2) * nanosPerSecond ∧
      ((expected.toNat : Int) - actual.toNat - 2) * nanosPerSecond < elapsed := by
  rw [lifetimeMatches_iff hexpected hactual] at h
  exact consumed_near (toNat_ne_u32Max hexpected) (UInt32.lt_iff_toNat_lt.mp hleft) h

/-- A lifetime without end matches only one without end. -/
theorem lifetimeMatches_endless {expected actual : UInt32}
    (h : expected = u32Max ∨ actual = u32Max) (elapsed : Duration) :
    lifetimeMatches expected actual elapsed = true ↔ expected = actual := by
  rw [lifetimeMatches, if_pos h, beq_iff_eq]

theorem checkedI64_of_small {n : Int} (hlow : -4294967297 ≤ n) (hhigh : n ≤ 4294967297) :
    checkedI64 n = some n := by
  rw [checkedI64, if_pos (by omega)]

/-- No step overflows: every quantity has 33 bits at most. -/
theorem lifetimeMatchesChecked_eq (expected actual : UInt32) (elapsed : Duration) :
    lifetimeMatchesChecked expected actual elapsed =
      some (lifetimeMatches expected actual elapsed) := by
  unfold lifetimeMatchesChecked lifetimeMatches
  by_cases hendless : expected = u32Max ∨ actual = u32Max
  · rw [if_pos hendless, if_pos hendless]
  · rw [if_neg hendless, if_neg hendless]
    have hfloor := (wholeSeconds elapsed).toNat_lt
    have hexpected := expected.toNat_lt
    have hactual := actual.toNat_lt
    have hceil : 0 ≤ (if 0 < elapsed % nanosPerSecond then 1 else 0 : Int) ∧
        (if 0 < elapsed % nanosPerSecond then 1 else 0 : Int) ≤ 1 := by
      split <;> decide
    simp only [Option.bind_eq_bind]
    rw [checkedI64_of_small (by omega) (by omega), Option.bind_some,
      checkedI64_of_small (by omega) (by omega), Option.bind_some,
      checkedI64_of_small (by omega) (by omega), Option.bind_some,
      checkedI64_of_small (by omega) (by omega), Option.bind_some]

/-- The comparison accepts natural decay, nothing that is far from it, and an
    endless lifetime for an endless one alone; and it never overflows. -/
theorem lifetimeMatches_decay :
    (∀ (seconds : UInt32) (start sampled sampledLater observed observedLater : Instant),
      seconds < u32Max → start ≤ sampled → sampled ≤ sampledLater → observed ≤ observedLater →
      observedLater - observed ≤ sampledLater - sampled + nanosPerSecond →
      sampledLater - sampled ≤ observedLater - observed + nanosPerSecond →
        lifetimeMatches (reported seconds start sampled) (reported seconds start sampledLater)
          (observedLater - observed) = true) ∧
    (∀ (expected actual : UInt32) (elapsed : Duration),
      lifetimeMatches expected actual elapsed = true → expected ≠ u32Max → actual ≠ u32Max →
      0 < actual →
        (elapsed : Int) < ((expected.toNat : Int) - actual.toNat + 2) * nanosPerSecond ∧
          ((expected.toNat : Int) - actual.toNat - 2) * nanosPerSecond < elapsed) ∧
    (∀ (expected actual : UInt32) (elapsed : Duration), expected = u32Max ∨ actual = u32Max →
      (lifetimeMatches expected actual elapsed = true ↔ expected = u32Max ∧ actual = u32Max)) ∧
    ∀ (expected actual : UInt32) (elapsed : Duration),
      lifetimeMatchesChecked expected actual elapsed =
        some (lifetimeMatches expected actual elapsed) := by
  refine ⟨?reports, ?near, ?endless, lifetimeMatchesChecked_eq⟩
  case reports =>
    intro seconds start sampled sampledLater observed observedLater hfinite hstart hsampled _
      hslow hfast
    exact lifetimeMatches_reported hfinite hstart hsampled hslow hfast
  case near =>
    intro expected actual elapsed h hexpected hactual hleft
    exact lifetimeMatches_near h hexpected hactual hleft
  case endless =>
    intro expected actual elapsed hendless
    rw [lifetimeMatches_endless hendless]
    constructor
    · rintro rfl
      exact ⟨hendless.elim id id, hendless.elim id id⟩
    · rintro ⟨hexpected, hactual⟩
      rw [hexpected, hactual]

end Netfyr
