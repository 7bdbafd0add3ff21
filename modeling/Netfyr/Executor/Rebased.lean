import Netfyr.Executor.Ideal
import Netfyr.Executor.Project
import Netfyr.Executor.Steps

/-!
# Rebasing in Steps

A preview moves a device in time at every write it projects. Each move takes the
whole seconds since the one before from every lifetime, and takes the clock
forward by all of the time, so what is less than a second is lost at each. The
comparison of groups forgives one second in all.

So a lifetime keeps pace with the clock when it is endless, when it has run out
on the way, or when the moves together lost at most a second. The device as a
whole does when all its lifetimes do, and so does a group that the writes of a
preview leave alone.

## Main definitions

* `stepSeconds`: The seconds taken at the moves.
* `KeepsPace`: A lifetime that still matches.
* `rebaseEntries`: An address, moved in steps.

## Theorems

* `stepSeconds_le`: No move takes more than has passed.
* `lifetimeMatches_agedBy_iff`: When a lifetime still matches.
* `addressMatches_rebaseEntries_iff`: When an address still matches.
* `rebase_matches_iff`: When a device, and a group of it, still matches.
-/

namespace Netfyr

/-- The whole seconds between consecutive instants, added up. -/
def stepSeconds : Instant → List Instant → Nat
  | _, [] => 0
  | start, now :: instants => (wholeSeconds (now - start)).toNat + stepSeconds now instants

/-- A lifetime after some seconds, an endless one staying endless. -/
def agedBy (seconds : Nat) (lifetime : UInt32) : UInt32 :=
  if lifetime = u32Max then lifetime else UInt32.ofNat (lifetime.toNat - seconds)

/-- A lifetime aged by some seconds in a span of time is endless, has run out,
    or is behind by a second at most. -/
def KeepsPace (seconds : Nat) (elapsed : Duration) (lifetime : UInt32) : Prop :=
  lifetime = u32Max ∨ lifetime.toNat ≤ seconds ∨ (wholeSeconds elapsed).toNat ≤ seconds + 1

/-- Both lifetimes of an address keep pace when it is moved from instant to
    instant. -/
def AddressObservation.KeepsPace (self : AddressObservation) (start : Instant)
    (instants : List Instant) : Prop :=
  Netfyr.KeepsPace (stepSeconds start instants) (instants.getLastD start - start)
      self.address.lifetimes.1 ∧
    Netfyr.KeepsPace (stepSeconds start instants) (instants.getLastD start - start)
      self.address.lifetimes.2

/-- An address moved from instant to instant. -/
def rebaseEntries : Instant → List Instant → AddressObservation → AddressObservation
  | _, [], entry => entry
  | start, now :: instants, entry =>
      rebaseEntries now instants (rebaseEntry (wholeSeconds (now - start)) entry)

/-- A device after the writes of a preview, each at its instant. -/
def previewWrites (device : DeviceObservation) (writes : List (OperationKind × Instant)) :
    DeviceObservation :=
  writes.foldl (fun device write => predict device write.1 write.2) device

section Seconds

theorem le_getLastD {start : Instant} {instants : List Instant}
    (hsorted : (start :: instants).Pairwise (· ≤ ·)) : start ≤ instants.getLastD start := by
  rw [List.getLastD_eq_getLast?]
  cases hlast : instants.getLast? with
  | none => exact Nat.le_refl start
  | some last => exact (List.pairwise_cons.mp hsorted).1 last (List.mem_of_getLast? hlast)

/-- The moves take no more than has passed. -/
theorem stepSeconds_le {start : Instant} {instants : List Instant}
    (hsorted : (start :: instants).Pairwise (· ≤ ·)) :
    stepSeconds start instants * nanosPerSecond ≤ instants.getLastD start - start := by
  induction instants generalizing start with
  | nil =>
      rw [stepSeconds, Nat.zero_mul]
      exact Nat.zero_le _
  | cons now instants ih =>
      rw [List.pairwise_cons] at hsorted
      have hrest := ih hsorted.2
      -- The time of this move and that of the rest make up the whole.
      have hspan : instants.getLastD now - now + (now - start) = instants.getLastD now - start :=
        Nat.sub_add_sub_cancel (le_getLastD hsorted.2) (hsorted.1 now List.mem_cons_self)
      -- A move takes whole seconds, so no more than it lasts.
      have hown : (wholeSeconds (now - start)).toNat * nanosPerSecond ≤ now - start := by
        rw [wholeSeconds_toNat]
        have hdiv := Nat.div_mul_le_self (now - start) nanosPerSecond
        have hmin : min ((now - start) / nanosPerSecond) 4294967295 ≤
            (now - start) / nanosPerSecond := Nat.min_le_left _ _
        exact (Nat.mul_le_mul_right nanosPerSecond hmin).trans hdiv
      rw [stepSeconds, Nat.add_mul, List.getLastD_cons, ← hspan, Nat.add_comm]
      exact Nat.add_le_add hrest hown

theorem u32Max_toNat : u32Max.toNat = 4294967295 := rfl

theorem lt_of_ne_u32Max {lifetime : UInt32} (h : lifetime ≠ u32Max) :
    lifetime.toNat < 4294967295 := by
  have hlt := lifetime.toNat_lt
  have hne : lifetime.toNat ≠ u32Max.toNat := fun heq => h (UInt32.toNat_inj.mp heq)
  rw [u32Max_toNat] at hne
  omega

theorem agedBy_toNat {seconds : Nat} {lifetime : UInt32} (h : lifetime ≠ u32Max) :
    (agedBy seconds lifetime).toNat = lifetime.toNat - seconds := by
  have hlt := lt_of_ne_u32Max h
  rw [agedBy, if_neg h, UInt32.toNat_ofNat_of_lt' (by rw [UInt32.size]; omega)]

/-- Only an endless lifetime stays or becomes endless. -/
theorem agedBy_eq_u32Max {seconds : Nat} {lifetime : UInt32} :
    agedBy seconds lifetime = u32Max ↔ lifetime = u32Max := by
  constructor
  · intro h
    by_contra hne
    have hlt := lt_of_ne_u32Max hne
    -- A finite lifetime only gets shorter.
    have haged : (agedBy seconds lifetime).toNat = lifetime.toNat - seconds := agedBy_toNat hne
    rw [h, u32Max_toNat] at haged
    omega
  · rintro rfl
    exact if_pos rfl

theorem decay_eq_agedBy (lifetime elapsed : UInt32) :
    decay lifetime elapsed = agedBy elapsed.toNat lifetime := by
  by_cases hmax : lifetime = u32Max
  · rw [decay, agedBy, if_pos hmax, if_pos hmax]
  · rw [← UInt32.toNat_inj, agedBy_toNat hmax, decay, if_neg hmax]
    split
    · -- More than has passed: the subtraction does not wrap.
      next hle => exact UInt32.toNat_sub_of_le _ _ hle
    · next hle =>
        rw [UInt32.not_le, UInt32.lt_iff_toNat_lt] at hle
        rw [UInt32.toNat_zero]
        omega

/-- Aging twice is aging by the sum. -/
theorem agedBy_agedBy (first second : Nat) (lifetime : UInt32) :
    agedBy second (agedBy first lifetime) = agedBy (first + second) lifetime := by
  by_cases hmax : lifetime = u32Max
  · have hfirst : agedBy first lifetime = lifetime := if_pos hmax
    rw [hfirst, agedBy, agedBy, if_pos hmax, if_pos hmax]
  · have hfirst : agedBy first lifetime ≠ u32Max := mt agedBy_eq_u32Max.mp hmax
    rw [← UInt32.toNat_inj, agedBy_toNat hfirst, agedBy_toNat hmax, agedBy_toNat hmax]
    omega

/-- A lifetime that was aged no faster than time passed still matches exactly
    when it keeps pace. -/
theorem lifetimeMatches_agedBy_iff {seconds : Nat} {elapsed : Duration} {lifetime : UInt32}
    (hseconds : seconds * nanosPerSecond ≤ elapsed) :
    lifetimeMatches lifetime (agedBy seconds lifetime) elapsed = true ↔
      KeepsPace seconds elapsed lifetime := by
  unfold KeepsPace lifetimeMatches
  by_cases hmax : lifetime = u32Max
  · have haged : agedBy seconds lifetime = lifetime := if_pos hmax
    rw [if_pos (Or.inl hmax), haged, beq_self_eq_true]
    exact iff_of_true rfl (Or.inl hmax)
  · -- Both are finite, so they are compared with a second of tolerance.
    have haged : ¬ (lifetime = u32Max ∨ agedBy seconds lifetime = u32Max) := by
      rw [agedBy_eq_u32Max, or_self]
      exact hmax
    have hlt := lt_of_ne_u32Max hmax
    have hnat : (agedBy seconds lifetime).toNat = lifetime.toNat - seconds := agedBy_toNat hmax
    have hfloor := wholeSeconds_toNat elapsed
    -- The moves took no more seconds than passed, so the lifetime can only be too long.
    have hdiv : seconds ≤ elapsed / nanosPerSecond :=
      (Nat.le_div_iff_mul_le (by decide)).mpr hseconds
    have hzero : agedBy seconds lifetime = 0 ↔ lifetime.toNat ≤ seconds := by
      rw [← UInt32.toNat_inj, hnat, UInt32.toNat_zero]
      omega
    rw [if_neg haged]
    simp only [decide_eq_true_eq, hzero, hnat, hmax, false_or]
    -- What was taken is no more than the seconds that passed, or all there was.
    by_cases hout : lifetime.toNat ≤ seconds
    · refine iff_of_true (Or.inr ⟨hout, ?_⟩) (Or.inl hout)
      split <;> omega
    · constructor
      · rintro (⟨hbehind, _⟩ | ⟨habs, _⟩)
        · exact Or.inr (by omega)
        · exact absurd habs hout
      · rintro (habs | hpace)
        · exact absurd habs hout
        · refine Or.inl ⟨by omega, ?_⟩
          split <;> omega

end Seconds

section Entries

variable {start : Instant} {instants : List Instant} {entry : AddressObservation}

@[simp] theorem rebaseEntry_lifetimes (elapsed : UInt32) (entry : AddressObservation) :
    (rebaseEntry elapsed entry).address.lifetimes =
      (agedBy elapsed.toNat entry.address.lifetimes.1,
        agedBy elapsed.toNat entry.address.lifetimes.2) := by
  rw [← decay_eq_agedBy, ← decay_eq_agedBy]
  rfl

/-- An address that is moved ages by the seconds of the moves. -/
theorem rebaseEntries_lifetimes (start : Instant) (instants : List Instant)
    (entry : AddressObservation) :
    (rebaseEntries start instants entry).address.lifetimes =
      (agedBy (stepSeconds start instants) entry.address.lifetimes.1,
        agedBy (stepSeconds start instants) entry.address.lifetimes.2) := by
  induction instants generalizing start entry with
  | nil =>
      -- No move, no seconds.
      have hnone : ∀ lifetime, agedBy 0 lifetime = lifetime := by
        intro lifetime
        by_cases hmax : lifetime = u32Max
        · exact if_pos hmax
        · rw [← UInt32.toNat_inj, agedBy_toNat hmax, Nat.sub_zero]
      rw [rebaseEntries, stepSeconds, hnone, hnone]
  | cons now instants ih =>
      rw [rebaseEntries, ih, rebaseEntry_lifetimes, agedBy_agedBy, agedBy_agedBy, stepSeconds]

/-- Moving an address changes its lifetimes and the deprecation flag alone. -/
theorem rebaseEntries_frame (start : Instant) (instants : List Instant)
    (entry : AddressObservation) :
    entry.address.sameIdentity (rebaseEntries start instants entry).address = true ∧
      (rebaseEntries start instants entry).scope = entry.scope ∧
      (rebaseEntries start instants entry).peer = entry.peer ∧
      (rebaseEntries start instants entry).flags &&& ~~~ifaFDeprecated =
        entry.flags &&& ~~~ifaFDeprecated := by
  induction instants generalizing start entry with
  | nil => exact ⟨Ipv4Address.sameIdentity_refl _, rfl, rfl, rfl⟩
  | cons now instants ih =>
      rcases ih now (rebaseEntry (wholeSeconds (now - start)) entry) with
        ⟨hidentity, hscope, hpeer, hflags⟩
      refine ⟨hidentity, hscope, hpeer, hflags.trans ?_⟩
      exact rebaseEntry_flags _ entry (~~~ifaFDeprecated) (by decide)

/-- The deprecation flag is as it was, unless the preferred lifetime has ended. -/
theorem rebaseEntries_deprecated (start : Instant) (instants : List Instant)
    (entry : AddressObservation) :
    entry.flags &&& ifaFDeprecated =
        (rebaseEntries start instants entry).flags &&& ifaFDeprecated ∨
      (rebaseEntries start instants entry).address.lifetimes.2 = 0 := by
  induction instants generalizing start entry with
  | nil => exact Or.inl rfl
  | cons now instants ih =>
      have hrest := ih now (rebaseEntry (wholeSeconds (now - start)) entry)
      have hown := rebaseEntry_lifetimes (wholeSeconds (now - start)) entry
      by_cases hended : decay entry.address.lifetimes.2 (wholeSeconds (now - start)) = 0
      · -- A lifetime that has ended stays so.
        right
        have hnow : (rebaseEntry (wholeSeconds (now - start)) entry).address.lifetimes.2 = 0 :=
          hended
        rw [rebaseEntries, rebaseEntries_lifetimes, hnow]
        have hne : (0 : UInt32) ≠ u32Max := by decide
        rw [← UInt32.toNat_inj, agedBy_toNat hne, UInt32.toNat_zero, Nat.zero_sub]
      · -- Still preferred, so this move leaves the flags.
        have hflags : (rebaseEntry (wholeSeconds (now - start)) entry).flags = entry.flags :=
          if_neg hended
        rw [hflags] at hrest
        exact hrest

/-- A moved address still matches exactly when its lifetimes keep pace. -/
theorem addressMatches_rebaseEntries_iff (hsorted : (start :: instants).Pairwise (· ≤ ·)) :
    addressMatches entry (rebaseEntries start instants entry) (instants.getLastD start - start) =
      true ↔ entry.KeepsPace start instants := by
  have hseconds := stepSeconds_le hsorted
  have hlifetimes := rebaseEntries_lifetimes start instants entry
  rcases rebaseEntries_frame start instants entry with ⟨hidentity, hscope, hpeer, hflags⟩
  have hdeprecated := rebaseEntries_deprecated start instants entry
  rw [addressMatches_iff, AddressObservation.KeepsPace, ← lifetimeMatches_agedBy_iff hseconds,
    ← lifetimeMatches_agedBy_iff hseconds]
  rw [hlifetimes] at hdeprecated ⊢
  constructor
  · -- Of the seven things compared only the lifetimes can differ.
    rintro ⟨_, _, _, _, _, hvalid, hpreferred⟩
    exact ⟨hvalid, hpreferred⟩
  · rintro ⟨hvalid, hpreferred⟩
    refine ⟨hidentity, hscope.symm, hpeer.symm, hflags.symm, hdeprecated.imp_right fun hended => ?_,
      hvalid, hpreferred⟩
    dsimp only at hended hpreferred ⊢
    rw [hended] at hpreferred
    exact ⟨hended, hpreferred⟩

/-- Members that were each moved match when each does. -/
theorem groupMatches_map_iff {entries : List AddressObservation} {start now : Instant}
    {move : AddressObservation → AddressObservation} :
    groupMatches { addresses := entries, observedAt := start } (entries.map move) now = true ↔
      ∀ entry ∈ entries, addressMatches entry (move entry) (now - start) = true := by
  unfold groupMatches
  simp only [List.length_map, beq_self_eq_true, Bool.true_and]
  induction entries with
  | nil => exact iff_of_true rfl fun entry hmem => absurd hmem List.not_mem_nil
  | cons entry entries ih =>
      rw [List.map_cons, List.zip_cons_cons, List.all_cons, Bool.and_eq_true, ih,
        List.forall_mem_cons]

end Entries

section Devices

variable {device : DeviceObservation}

/-- A device moved from instant to instant. -/
theorem foldl_rebaseLifetimes (device : DeviceObservation) (instants : List Instant) :
    (instants.foldl rebaseLifetimes device).addresses =
      device.addresses.map (rebaseEntries device.observedAt instants) := by
  induction instants generalizing device with
  | nil => exact (List.map_id _).symm
  | cons now instants ih =>
      rw [List.foldl_cons, ih, rebaseLifetimes_observedAt, rebaseLifetimes, List.map_map]
      rfl

/-- A group that the writes of a preview leave alone is moved with the device. -/
theorem groupAddresses_previewWrites (device : DeviceObservation) (key : GroupKey)
    (writes : List (OperationKind × Instant))
    (huntouched : ∀ write ∈ writes, ∀ addr, write.1.ipv4Address = some addr →
      key.contains addr = false) :
    groupAddresses (previewWrites device writes) key =
      (groupAddresses device key).map
        (rebaseEntries device.observedAt (writes.map Prod.snd)) := by
  induction writes generalizing device with
  | nil => exact (List.map_id _).symm
  | cons write writes ih =>
      rw [List.forall_mem_cons] at huntouched
      have hrest := ih (predict device write.1 write.2) huntouched.2
      -- Of a prediction only the move concerns the group.
      have hproject : groupAddresses (predict device write.1 write.2) key =
          groupAddresses (rebaseLifetimes device write.2) key := by
        unfold predict
        cases haddr : write.1.ipv4Address with
        | some addr => exact groupAddresses_project_of_not_contains haddr (huntouched.1 addr haddr)
        | none =>
            -- A write that is not about an address leaves all of them.
            rw [groupAddresses, project_addresses]
            cases hkind : write.1 <;> first
              | rfl
              | (rw [hkind] at haddr; exact absurd haddr (by simp [OperationKind.ipv4Address]))
      have hinstant : (predict device write.1 write.2).observedAt = write.2 := by
        rw [predict, project_observedAt, rebaseLifetimes_observedAt]
      rw [hproject, groupAddresses_rebase, hinstant, List.map_map] at hrest
      exact hrest

/-- A device rebased at each of some instants in turn, the first being when it
    was observed, still shows the addresses observed exactly when each of them
    keeps pace; and so does a group that a preview's writes leave alone. -/
theorem rebase_matches_iff {device : DeviceObservation} {instants : List Instant}
    (hsorted : (device.observedAt :: instants).Pairwise (· ≤ ·)) :
    (groupMatches { addresses := device.addresses, observedAt := device.observedAt }
        ((device.observedAt :: instants).foldl rebaseLifetimes device).addresses
        (instants.getLastD device.observedAt) = true ↔
      ∀ entry ∈ device.addresses, entry.KeepsPace device.observedAt instants) ∧
    ∀ (key : GroupKey) (writes : List (OperationKind × Instant)),
      writes.map Prod.snd = instants →
      (∀ write ∈ writes, ∀ addr, write.1.ipv4Address = some addr → key.contains addr = false) →
      (groupMatches
          { addresses := groupAddresses device key, observedAt := device.observedAt }
          (groupAddresses (previewWrites device writes) key)
          (instants.getLastD device.observedAt) = true ↔
        ∀ entry ∈ groupAddresses device key, entry.KeepsPace device.observedAt instants) := by
  refine ⟨?_, fun key writes hinstants huntouched => ?_⟩
  · -- The first instant moves nothing.
    have hfirst : (device.observedAt :: device.observedAt :: instants).Pairwise (· ≤ ·) := by
      refine List.pairwise_cons.mpr ⟨fun now hmem => ?_, hsorted⟩
      rcases List.mem_cons.mp hmem with rfl | hmem
      · exact Nat.le_refl _
      · exact (List.pairwise_cons.mp hsorted).1 now hmem
    have hseconds : stepSeconds device.observedAt (device.observedAt :: instants) =
        stepSeconds device.observedAt instants := by
      rw [stepSeconds, Nat.sub_self]
      exact Nat.zero_add _
    rw [foldl_rebaseLifetimes, groupMatches_map_iff]
    refine forall₂_congr fun entry _ => ?_
    have hentry : addressMatches entry
        (rebaseEntries device.observedAt (device.observedAt :: instants) entry)
        ((device.observedAt :: instants).getLastD device.observedAt - device.observedAt) = true ↔
        entry.KeepsPace device.observedAt (device.observedAt :: instants) :=
      addressMatches_rebaseEntries_iff hfirst
    rw [AddressObservation.KeepsPace, hseconds, List.getLastD_cons] at hentry
    exact hentry
  · subst hinstants
    rw [groupAddresses_previewWrites device key writes huntouched, groupMatches_map_iff]
    exact forall₂_congr fun entry _ => addressMatches_rebaseEntries_iff hsorted

/-- An address valid for an hour, and preferred for half of one. -/
def finiteEntry : AddressObservation :=
  { primary with
    address := ⟨Ipv4Addr.new 192 0 2 1, 24, some 3600, some 1800⟩
    flags := 0 }

/-- Three instants, nine tenths of a second apart. -/
def quickInstants : List Instant := [900000000, 1800000000, 2700000000]

theorem rebase_matches_quick :
    (groupMatches { addresses := [finiteEntry], observedAt := 0 }
        ((0 :: quickInstants).foldl rebaseLifetimes (eth0Device [finiteEntry])).addresses
        2700000000 = true ↔
      ∀ entry ∈ [finiteEntry], entry.KeepsPace 0 quickInstants) ∧
    ∀ (key : GroupKey) (writes : List (OperationKind × Instant)),
      writes.map Prod.snd = quickInstants →
      (∀ write ∈ writes, ∀ addr, write.1.ipv4Address = some addr → key.contains addr = false) →
      (groupMatches { addresses := groupAddresses (eth0Device [finiteEntry]) key, observedAt := 0 }
          (groupAddresses (previewWrites (eth0Device [finiteEntry]) writes) key) 2700000000 = true ↔
        ∀ entry ∈ groupAddresses (eth0Device [finiteEntry]) key, entry.KeepsPace 0 quickInstants) :=
  @rebase_matches_iff (eth0Device [finiteEntry]) quickInstants (by decide)

/-- After 2.7 seconds in three steps no second has been taken from the address,
    and its group looks stale; at once two seconds are taken, and it matches. -/
theorem rebase_mismatches :
    groupMatches { addresses := [finiteEntry], observedAt := 0 }
        ((0 :: quickInstants).foldl rebaseLifetimes (eth0Device [finiteEntry])).addresses
        2700000000 = false ∧
    groupMatches { addresses := [finiteEntry], observedAt := 0 }
        (rebaseLifetimes (eth0Device [finiteEntry]) 2700000000).addresses 2700000000 = true := by
  decide +kernel

end Devices

end Netfyr
