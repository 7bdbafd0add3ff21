import Netfyr.State.Plan

/-!
# Lifetimes and Addresses

When two observations of an address show the same address. Lifetimes run down
in whole seconds between the two, so they are compared with the time that
passed; everything else is compared as it is, but for the deprecation flag,
which the kernel sets by itself when the preferred lifetime ends.

## Main definitions

* `lifetimeMatches`: A lifetime is the other one, run down.
* `addressMatches`: An observed address is the other one, later.

## Theorems

* `lifetimeMatches_self`: A lifetime matches itself at once.
* `addressMatches_self`: An address matches itself at once.
* `addressMatches_sameIdentity`: Matching addresses have one identity.
-/

namespace Netfyr

/-- `IFA_F_SECONDARY`. -/
def ifaFSecondary : BitVec 32 := 0x01#32

/-- `IFA_F_DEPRECATED`. -/
def ifaFDeprecated : BitVec 32 := 0x20#32

/-- `IFA_F_PERMANENT`. -/
def ifaFPermanent : BitVec 32 := 0x80#32

/-- `RT_SCOPE_HOST`. -/
def rtScopeHost : UInt8 := 254

/-- Nanoseconds in a second. -/
def nanosPerSecond : Nat := 1000000000

/-- The whole seconds of a duration, capped at the largest `u32`. -/
def wholeSeconds (duration : Duration) : UInt32 :=
  UInt32.ofNat (min (duration / nanosPerSecond) u32Max.toNat)

/-- The cast to 32 bits loses nothing of the capped seconds. -/
theorem wholeSeconds_toNat (duration : Duration) :
    (wholeSeconds duration).toNat = min (duration / nanosPerSecond) 4294967295 := by
  have hmax : u32Max.toNat = 4294967295 := rfl
  rw [wholeSeconds, hmax, UInt32.toNat_ofNat']
  exact Nat.mod_eq_of_lt (by omega)

/-- What is left of a lifetime, an endless one staying endless. -/
def decay (seconds elapsed : UInt32) : UInt32 :=
  if seconds = u32Max then seconds
  else if elapsed ≤ seconds then seconds - elapsed else 0

/-- Whether `actual` is what `expected` has become after `elapsed`, give or take
    the second lost to truncation and sampling. -/
def lifetimeMatches (expected actual : UInt32) (elapsed : Duration) : Bool :=
  if expected = u32Max ∨ actual = u32Max then expected == actual
  else
    -- The elapsed time is between these two numbers of seconds.
    let floor : Int := (wholeSeconds elapsed).toNat
    let ceil : Int := floor + if 0 < elapsed % nanosPerSecond then 1 else 0
    let consumed : Int := (expected.toNat : Int) - actual.toNat
    -- One second either way; a lifetime that has run out stops at zero.
    decide ((floor - 1 ≤ consumed ∧ consumed ≤ ceil + 1) ∨
      (actual = 0 ∧ (expected.toNat : Int) ≤ ceil + 1))

/-- Whether `actual` is the address `expected` describes, after `elapsed`. -/
def addressMatches (expected actual : AddressObservation) (elapsed : Duration) : Bool :=
  let (valid, preferred) := expected.address.lifetimes
  let (actualValid, actualPreferred) := actual.address.lifetimes
  let deprecationMatches :=
    expected.flags &&& ifaFDeprecated == actual.flags &&& ifaFDeprecated ||
      -- The kernel sets the flag when the preferred lifetime is over.
      (actualPreferred == 0 && lifetimeMatches preferred 0 elapsed)
  expected.address.sameIdentity actual.address &&
    expected.scope == actual.scope &&
    expected.peer == actual.peer &&
    expected.flags &&& ~~~ifaFDeprecated == actual.flags &&& ~~~ifaFDeprecated &&
    deprecationMatches &&
    lifetimeMatches valid actualValid elapsed &&
    lifetimeMatches preferred actualPreferred elapsed

/-- A lifetime matches itself when no time has passed. -/
theorem lifetimeMatches_self (seconds : UInt32) : lifetimeMatches seconds seconds 0 = true := by
  unfold lifetimeMatches
  by_cases hmax : seconds = u32Max
  · rw [if_pos (Or.inl hmax), beq_self_eq_true]
  · rw [if_neg (by rw [or_self]; exact hmax), decide_eq_true_eq]
    left
    have hfloor : ((wholeSeconds 0).toNat : Int) = 0 := rfl
    simp only [hfloor]
    omega

/-- An address matches itself when no time has passed. -/
theorem addressMatches_self (entry : AddressObservation) :
    addressMatches entry entry 0 = true := by
  unfold addressMatches
  simp only [Ipv4Address.sameIdentity_refl, beq_self_eq_true, Bool.true_or, Bool.and_true,
    lifetimeMatches_self]

/-- What a match says, part by part. -/
theorem addressMatches_iff {expected actual : AddressObservation} {elapsed : Duration} :
    addressMatches expected actual elapsed = true ↔
      expected.address.sameIdentity actual.address = true ∧
      expected.scope = actual.scope ∧ expected.peer = actual.peer ∧
      expected.flags &&& ~~~ifaFDeprecated = actual.flags &&& ~~~ifaFDeprecated ∧
      (expected.flags &&& ifaFDeprecated = actual.flags &&& ifaFDeprecated ∨
        (actual.address.lifetimes.2 = 0 ∧
          lifetimeMatches expected.address.lifetimes.2 0 elapsed = true)) ∧
      lifetimeMatches expected.address.lifetimes.1 actual.address.lifetimes.1 elapsed = true ∧
      lifetimeMatches expected.address.lifetimes.2 actual.address.lifetimes.2 elapsed = true := by
  unfold addressMatches
  simp only [Bool.and_eq_true, Bool.or_eq_true, beq_iff_eq, and_assoc]

/-- Matching addresses have one identity. -/
theorem addressMatches_sameIdentity {expected actual : AddressObservation} {elapsed : Duration}
    (h : addressMatches expected actual elapsed = true) :
    expected.address.sameIdentity actual.address = true :=
  (addressMatches_iff.mp h).1

end Netfyr
