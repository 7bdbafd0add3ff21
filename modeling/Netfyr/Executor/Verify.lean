import Netfyr.Executor.Ideal
import Netfyr.Executor.Project
import Netfyr.Executor.Reported
import Netfyr.Executor.View

/-!
# What a Verified Write Shows

An address write is reported as succeeded only after the device was observed
again and compared with a prediction. The comparison is by group: the prediction
moves the device seen before to the time of the write, applies `project`, and is
matched member by member with what is there now. For a removal two deviations are
tolerated, since the kernel may delete or promote secondaries.

Nothing is assumed of the transport. What the theorem says of the addresses now
present follows from the comparison alone, so it says how much the comparison is
worth.

## Main definitions

* `VerifiedWrite`: What is known of the device after the write.

## Theorems

* `groupMatches_iff`: Groups match when their members do.
* `expectedMembers_some`: Which members a removal may leave out or change.
* `verifyObservation_ok`: What a successful comparison shows.
* `apply_verified`: What a reported address write shows, in every run.
-/

namespace Netfyr

open Interact

/-- Groups match when their members do, in order. -/
theorem groupMatches_iff {expected : ExpectedGroup} {actual : List AddressObservation}
    {now : Instant} : groupMatches expected actual now = true ↔
      List.Forall₂ (fun old new => addressMatches old new (now - expected.observedAt) = true)
        expected.addresses actual := by
  unfold groupMatches
  simp only [Bool.and_eq_true, beq_iff_eq, List.all_eq_true, List.forall₂_iff_zip, Prod.forall]

/-- The first member may be the one the kernel promoted. -/
inductive PromotedFirst (actual : List AddressObservation) :
    List AddressObservation → List AddressObservation → Prop where
  | kept (members : List AddressObservation) : PromotedFirst actual members members
  | promoted {first actualFirst : AddressObservation} {rest actualRest : List AddressObservation} :
      actual = actualFirst :: actualRest →
      first.address.sameIdentity actualFirst.address = true → actualFirst.isSecondary = false →
      PromotedFirst actual (first :: rest)
        ({ first with flags := first.flags &&& ~~~ifaFSecondary } :: rest)

variable {diff : StateDiff} {namespaceId : NamespaceId} {index : Nat} {op : Operation}
  {kind : OperationKind} {addr : Ipv4Address} {eligible : List Bool}

/-- Of the members a removal is expected to leave, only covered secondaries may
    be missing, and only the first may be promoted. -/
theorem expectedMembers_some {expected actual members : List AddressObservation}
    (h : expectedMembers diff index op (.removeIpv4 addr) expected actual eligible =
      some members) :
    ∃ keep : AddressObservation → Bool,
      (∀ entry ∈ expected, keep entry = false → entry.isSecondary = true ∧
        absentFrom actual entry = true ∧
        removalIsCovered diff index op.target entry.address eligible = some true) ∧
      PromotedFirst actual (expected.filter keep) members := by
  unfold expectedMembers at h
  rcases Option.map_eq_some_iff.mp h with ⟨kept, hkept, rfl⟩
  rcases Checked.filterChecked_some hkept with ⟨keep, hkeep, rfl⟩
  refine ⟨keep, fun entry hmem hdropped => ?_, ?_⟩
  · have htest := hkeep entry hmem
    rw [hdropped] at htest
    -- Only an entry that passes this test is left to the coverage check.
    by_cases hcond : (absentFrom actual entry && entry.isSecondary) = true
    · rw [if_pos hcond] at htest
      rw [Bool.and_eq_true] at hcond
      rcases Option.map_eq_some_iff.mp htest with ⟨covered, hcovered, hnot⟩
      rw [Bool.not_eq_false'] at hnot
      rw [hnot] at hcovered
      exact ⟨hcond.2, hcond.1, hcovered⟩
    · rw [if_neg hcond] at htest
      exact absurd (Option.some.inj htest) (by decide)
  · unfold promoteFirst
    split
    · next first rest actualFirst actualRest hfilter =>
        by_cases hcond : (first.address.sameIdentity actualFirst.address &&
            !actualFirst.isSecondary) = true
        · rw [if_pos hcond]
          rw [Bool.and_eq_true, Bool.not_eq_true'] at hcond
          rw [hfilter]
          exact .promoted rfl hcond.1 hcond.2
        · rw [if_neg hcond]
          exact .kept _
    · exact .kept _

/-- What is known of the device after a verified write: `device` is what the
    write was decided on, `now` the time of the write, `actual` the device now. -/
structure VerifiedWrite (diff : StateDiff) (index : Nat) (op : Operation) (kind : OperationKind)
    (addr : Ipv4Address) (eligible : List Bool) (key : GroupKey) (device : DeviceObservation)
    (now : Instant) (actual : DeviceObservation) : Prop where
  complete : actual.addressesComplete = true
  /-- A removed address is gone. -/
  gone : kind = .removeIpv4 addr → hasAddress actual addr = false
  /-- An added or replaced address is there, as projected and requested. -/
  there : kind = .addIpv4 addr ∨ kind = .replaceIpv4 addr →
    ∃ projected entry, (predict device kind now).addresses.find? (fun entry =>
        entry.address.sameIdentity addr) = some projected ∧ projected.address = addr ∧
      entry ∈ actual.addresses ∧ entry.address.sameIdentity addr = true ∧
      entry.scope = projected.scope ∧ entry.peer = projected.peer ∧
      entry.flags &&& ~~~ifaFDeprecated = projected.flags &&& ~~~ifaFDeprecated ∧
      lifetimeMatches addr.lifetimes.1 entry.address.lifetimes.1 (actual.observedAt - now) =
        true ∧
      lifetimeMatches addr.lifetimes.2 entry.address.lifetimes.2 (actual.observedAt - now) = true
  /-- After an addition or a replacement the rest of the group is what it was. -/
  rest : kind ≠ .removeIpv4 addr →
    List.Forall₂ (fun old new => addressMatches old new (actual.observedAt - now) = true)
      (restOf addr (groupAddresses (rebaseLifetimes device now) key))
      (restOf addr (groupAddresses actual key))
  /-- After a removal it is what it was, less covered secondaries that are
      missing; the first may have been promoted. -/
  restRemoved : kind = .removeIpv4 addr → ∃ keep expected,
    (∀ entry ∈ restOf addr (groupAddresses (rebaseLifetimes device now) key), keep entry = false →
      entry.isSecondary = true ∧ hasAddress actual entry.address = false ∧
      removalIsCovered diff index op.target entry.address eligible = some true) ∧
    PromotedFirst (groupAddresses actual key)
      ((restOf addr (groupAddresses (rebaseLifetimes device now) key)).filter keep) expected ∧
    List.Forall₂ (fun old new => addressMatches old new (actual.observedAt - now) = true)
      expected (restOf addr (groupAddresses actual key))
  /-- An address outside the group is still there. -/
  outside : ∀ entry ∈ device.addresses, key.contains entry.address = false →
    hasAddress actual entry.address = true

/-- A member is missing from a group when its identity is missing from the
    device. -/
theorem absentFrom_group {device : DeviceObservation} {key : GroupKey}
    {entry : AddressObservation} (hkey : key.contains entry.address = true) :
    absentFrom (groupAddresses device key) entry = !hasAddress device entry.address := by
  unfold absentFrom groupAddresses hasAddress
  rw [List.any_filter]
  congr 1
  refine List.any_congr rfl fun other => ?_
  rw [Ipv4Address.sameIdentity_comm]
  cases hid : other.address.sameIdentity entry.address with
  | true => rw [GroupKey.contains_congr hid, hkey, Bool.true_and]
  | false => rw [Bool.and_false]

/-- Where an address is missing, every address is another one. -/
theorem restOf_eq_self {addr : Ipv4Address} {entries : List AddressObservation}
    (h : ∀ entry ∈ entries, entry.address.sameIdentity addr = false) :
    restOf addr entries = entries := by
  unfold restOf
  rw [List.filter_eq_self]
  intro entry hmem
  rw [h entry hmem, Bool.not_false]

/-- When a comparison succeeds. -/
theorem verifyObservation_eq_ok {predicted actual : DeviceObservation} {after : Observation} :
    verifyObservation diff namespaceId index op kind addr predicted after eligible =
        some (.ok actual) ↔
      ∃ position key members, Located after op.target namespaceId position actual ∧
        actual.addressesComplete = true ∧ GroupKey.new op addr = .ok key ∧
        expectedMembers diff index op kind (groupAddresses predicted key)
          (groupAddresses actual key) eligible = some members ∧
        groupMatches { addresses := members, observedAt := predicted.observedAt }
          (groupAddresses actual key) actual.observedAt = true ∧
        outsideSurvives predicted actual key = true := by
  unfold verifyObservation
  constructor
  · intro h
    -- The early returns of the source, one by one.
    split at h
    · exact absurd h (by simp)
    next position hloc =>
    rcases locate_eq_ok.mp hloc with ⟨found, hlocated⟩
    simp only [hlocated.atPosition] at h
    split at h
    · exact absurd h (by simp)
    next hcomplete =>
    split at h
    · exact absurd h (by simp)
    next key hkey =>
    split at h
    · exact absurd h (by simp)
    next members hmembers =>
    split at h
    · next hmatch =>
        rw [Bool.and_eq_true] at hmatch
        simp only [Option.some.injEq, Except.ok.injEq] at h
        subst h
        exact ⟨position, key, members, hlocated, by simpa using hcomplete, hkey, hmembers, hmatch⟩
    · exact absurd h (by simp)
  · rintro ⟨position, key, members, hlocated, hcomplete, hkey, hmembers, hgroup, houtside⟩
    have hloc := locate_eq_ok.mpr ⟨actual, hlocated⟩
    simp only [hloc, hlocated.atPosition, hcomplete, hkey, hmembers, hgroup, houtside,
      Bool.true_eq_false, if_false, Bool.and_self, if_true]

/-- Promotion changes no address. -/
theorem PromotedFirst.address {actual members members' : List AddressObservation}
    (h : PromotedFirst actual members members') {entry : AddressObservation}
    (hmem : entry ∈ members') : ∃ entry' ∈ members, entry'.address = entry.address := by
  cases h with
  | kept => exact ⟨entry, hmem, rfl⟩
  | @promoted first _ rest _ _ _ _ =>
      rcases List.mem_cons.mp hmem with rfl | hmem
      · exact ⟨first, List.mem_cons_self, rfl⟩
      · exact ⟨entry, List.mem_cons_of_mem _ hmem, rfl⟩

section Comparison

variable {device actual : DeviceObservation} {now : Instant} {key : GroupKey}

/-- Nothing present has the identity of an address that no expected member has. -/
theorem not_hasAddress_of_match {members : List AddressObservation} {elapsed : Duration}
    (hcontains : key.contains addr = true)
    (hgroup : List.Forall₂ (fun old new => addressMatches old new elapsed = true) members
      (groupAddresses actual key))
    (hmembers : ∀ entry ∈ members, entry.address.sameIdentity addr = false) :
    hasAddress actual addr = false := by
  rw [hasAddress, List.any_eq_false]
  intro entry hmem hid
  -- A group is closed under identity, so the comparison covers the entry.
  have hin : entry ∈ groupAddresses actual key := by
    rw [groupAddresses, List.mem_filter, GroupKey.contains_congr hid, hcontains]
    exact ⟨hmem, rfl⟩
  rcases exists_of_forall₂ hgroup.flip hin with ⟨expected, hexpected, hmatch⟩
  have hsame := Ipv4Address.sameIdentity_trans (addressMatches_sameIdentity hmatch) hid
  rw [hmembers expected hexpected] at hsame
  exact absurd hsame Bool.false_ne_true

/-- The address an addition or a replacement is about, as predicted. -/
theorem find?_predict (now : Instant) (hkind : kind = .addIpv4 addr ∨ kind = .replaceIpv4 addr)
    (hunsat : satisfied kind device op = .ok false) :
    ∃ projected, (predict device kind now).addresses.find? (fun entry =>
      entry.address.sameIdentity addr) = some projected ∧ projected.address = addr := by
  -- Moving lifetimes to `now` changes no identity, so it finds the same entry.
  have hrebase : (rebaseLifetimes device now).addresses.find? (fun entry =>
      entry.address.sameIdentity addr) = (device.addresses.find? fun entry =>
        entry.address.sameIdentity addr).map
          (rebaseEntry (wholeSeconds (now - device.observedAt))) := List.find?_map
  unfold predict
  rcases hkind with rfl | rfl
  · -- An addition is decided on only where the address was missing.
    cases hfind : device.addresses.find? fun entry => entry.address.sameIdentity addr with
    | none =>
        rw [hfind] at hrebase
        exact ⟨_, find?_project_add hrebase, rfl⟩
    | some existing =>
        simp only [satisfied, hfind] at hunsat
        split at hunsat <;> exact absurd hunsat (by simp)
  · cases hfind : device.addresses.find? fun entry => entry.address.sameIdentity addr with
    | none => simp only [satisfied, hfind, reduceCtorEq] at hunsat
    | some existing =>
        rw [hfind] at hrebase
        exact ⟨_, find?_project_replace hrebase, rfl⟩

/-- An address outside the group is still there. -/
theorem outside_survives (haddr : kind.ipv4Address = some addr)
    (hcontains : key.contains addr = true)
    (h : outsideSurvives (predict device kind now) actual key = true)
    {entry : AddressObservation} (hmem : entry ∈ device.addresses)
    (hout : key.contains entry.address = false) : hasAddress actual entry.address = true := by
  have hin : rebaseEntry (wholeSeconds (now - device.observedAt)) entry ∈
      (predict device kind now).addresses :=
    mem_project_of_not_contains haddr hcontains (List.mem_map_of_mem hmem) hout
  unfold outsideSurvives at h
  rw [List.all_eq_true] at h
  have hany := h _ (List.mem_filter.mpr ⟨hin, by rw [contains_rebaseEntry, hout]; rfl⟩)
  rw [List.any_eq_true] at hany
  rcases hany with ⟨other, hother, hid⟩
  rw [hasAddress, List.any_eq_true]
  exact ⟨other, hother, Ipv4Address.sameIdentity_symm hid⟩

/-- No address predicted after a removal has the identity removed. -/
theorem predict_ne_removed {entry : AddressObservation}
    (hmem : entry ∈ (predict device (.removeIpv4 addr) now).addresses) :
    entry.address.sameIdentity addr = false := by
  have hgone : hasAddress (predict device (.removeIpv4 addr) now) addr = false :=
    hasAddress_project_remove
  rw [hasAddress, List.any_eq_false] at hgone
  rw [← Bool.not_eq_true]
  exact hgone entry hmem

/-- Nor does any expected member. -/
theorem members_ne_removed {members : List AddressObservation} {entry : AddressObservation}
    (hmembers : expectedMembers diff index op (.removeIpv4 addr)
      (groupAddresses (predict device (.removeIpv4 addr) now) key) (groupAddresses actual key)
      eligible = some members) (hmem : entry ∈ members) :
    entry.address.sameIdentity addr = false := by
  rcases expectedMembers_some hmembers with ⟨keep, _, hpromoted⟩
  rcases hpromoted.address hmem with ⟨entry', hmem', heq⟩
  rw [← heq]
  exact predict_ne_removed (List.mem_filter.mp (List.mem_filter.mp hmem').1).1

end Comparison

/-- What a successful comparison shows of the device observed after a write. -/
theorem verifyObservation_ok {observation after : Observation} {groups groups' : Groups}
    {position : Nat} {device actual : DeviceObservation} {now : Instant}
    {decoded : Option OperationKind}
    (hdecided : DecidedWrite diff namespaceId index op decoded observation groups groups' eligible
      position device kind) (haddr : kind.ipv4Address = some addr)
    (h : verifyObservation diff namespaceId index op kind addr (predict device kind now) after
      eligible = some (.ok actual)) :
    ∃ key position', GroupKey.new op addr = .ok key ∧
      Located after op.target namespaceId position' actual ∧
      VerifiedWrite diff index op kind addr eligible key device now actual := by
  rcases verifyObservation_eq_ok.mp h with
    ⟨position', key, members, hlocated, hcomplete, hkey, hmembers, hgroup, houtside⟩
  have hcontains := (GroupKey.contains_new hkey).1
  -- The prediction is as of `now`, so lifetimes are compared over the time since.
  have hobserved : (predict device kind now).observedAt = now := by
    rw [predict, project_observedAt, rebaseLifetimes_observedAt]
  rw [groupMatches_iff, hobserved] at hgroup
  have hgone : kind = .removeIpv4 addr → hasAddress actual addr = false := by
    rintro rfl
    exact not_hasAddress_of_match hcontains hgroup fun entry hmem =>
      members_ne_removed hmembers hmem
  refine ⟨key, position', hkey, hlocated, hcomplete, hgone, ?_, ?_, ?_, fun entry hmem hout =>
    outside_survives haddr hcontains houtside hmem hout⟩
  · -- The address written: predicted, hence expected, hence matched by an entry.
    intro hwritten
    rcases find?_predict now hwritten hdecided.unsatisfied with ⟨projected, hfind, hself⟩
    have hexpected : members = groupAddresses (predict device kind now) key := by
      rcases hwritten with rfl | rfl <;> exact (Option.some.inj hmembers).symm
    have hin : projected ∈ members := by
      rw [hexpected, groupAddresses, List.mem_filter, hself]
      exact ⟨List.mem_of_find?_eq_some hfind, hcontains⟩
    rcases exists_of_forall₂ hgroup hin with ⟨entry, hentry, hmatch⟩
    rw [addressMatches_iff, hself] at hmatch
    rcases hmatch with ⟨hid, hscope, hpeer, hflags, _, hvalid, hpreferred⟩
    exact ⟨projected, entry, hfind, hself, (List.mem_filter.mp hentry).1,
      Ipv4Address.sameIdentity_symm hid, hscope.symm, hpeer.symm, hflags.symm, hvalid, hpreferred⟩
  · -- The rest of the group: only a removal edits what is expected.
    intro hne
    have hexpected : members = groupAddresses (predict device kind now) key := by
      cases kind with
      | removeIpv4 a => exact absurd (congrArg OperationKind.removeIpv4 (Option.some.inj haddr)) hne
      | addIpv4 _ => exact (Option.some.inj hmembers).symm
      | replaceIpv4 _ => exact (Option.some.inj hmembers).symm
      | setMtu _ => exact (Option.some.inj hmembers).symm
      | setEnabled _ => exact (Option.some.inj hmembers).symm
      | setField _ _ => exact (Option.some.inj hmembers).symm
      | addEntity => exact (Option.some.inj hmembers).symm
      | removeEntity => exact (Option.some.inj hmembers).symm
    rw [hexpected] at hgroup
    have hrest : List.Forall₂ (fun old new =>
        addressMatches old new (actual.observedAt - now) = true)
        (restOf addr (groupAddresses (predict device kind now) key))
        (restOf addr (groupAddresses actual key)) :=
      filter_forall₂ hgroup fun old new hmatch => by
        rw [Ipv4Address.sameIdentity_congr (addressMatches_sameIdentity hmatch)]
    rwa [predict, restOf_project haddr] at hrest
  · rintro rfl
    rcases expectedMembers_some hmembers with ⟨keep, hdropped, hpromoted⟩
    -- The removed address is in neither group, so `restOf` leaves both as they are.
    have hseen : groupAddresses (predict device (.removeIpv4 addr) now) key =
        restOf addr (groupAddresses (rebaseLifetimes device now) key) := by
      have hself : restOf addr (groupAddresses (predict device (.removeIpv4 addr) now) key) =
          groupAddresses (predict device (.removeIpv4 addr) now) key :=
        restOf_eq_self fun entry hmem => predict_ne_removed (List.mem_filter.mp hmem).1
      rw [← hself, predict, restOf_project haddr]
    have hnow : restOf addr (groupAddresses actual key) = groupAddresses actual key := by
      refine restOf_eq_self fun entry hmem => ?_
      have hnone := List.any_eq_false.mp (hgone rfl) entry (List.mem_filter.mp hmem).1
      rwa [Bool.not_eq_true] at hnone
    rw [hseen] at hdropped hpromoted
    refine ⟨keep, members, fun entry hmem hkeep => ?_, hpromoted, by rwa [hnow]⟩
    rcases hdropped entry hmem hkeep with ⟨hsecondary, habsent, hcovered⟩
    have hin : key.contains entry.address = true :=
      (List.mem_filter.mp (List.mem_filter.mp hmem).1).2
    rw [absentFrom_group hin, Bool.not_eq_true'] at habsent
    exact ⟨hsecondary, habsent, hcovered⟩

/-- A round whose operation is reported succeeded and is about an address ended
    in a verified write. -/
theorem RoundAt.verified {h : List ExecRound} {r : ExecRound}
    (hat : RoundAt diff false namespaceId h index op r) (hout : r.outcome = .succeeded)
    (hkind : decode op.kind .new = .ok (some kind)) (haddr : kind.ipv4Address = some addr) :
    ∃ own observation position device now after actual groups groups',
      r.calls = own ++ [⟨.execute op.target kind, .ok ()⟩, ⟨.now, now⟩,
        ⟨.inventory, .ok after⟩] ∧
      view (callsOf (h.take index) ++ own) = some observation ∧
      DecidedWrite diff namespaceId index op (some kind) observation groups groups'
        r.before.eligible position device kind ∧
      verifyObservation diff namespaceId index op kind addr (predict device kind now) after
        r.before.eligible = some (.ok actual) := by
  have hran := hat.ran
  have hcurrent := hat.history.current
  rcases r with ⟨s, calls, outcome, s'⟩
  simp only at hout
  subst hout
  generalize hsucc : Outcome.succeeded = outcome at hran
  cases hran with
  -- Only a step that wrote and compared reports success.
  | malformed _ => exact absurd hsucc (by simp)
  | blocked _ _ _ => exact absurd hsucc (by simp)
  | @stepped _ result s₁ _ _ hstep =>
      have hstepped := step_cases hstep
      rcases result with e | _ | reason
      · exact absurd hsucc (by simp)
      swap
      · exact absurd hsucc (by simp)
      cases hstepped with
      | projected hmode _ => exact absurd hmode Bool.false_ne_true
      | @written tr tw decoded observation position device predicted kind' groups s₁ s₂ _ hd hw =>
          have hdecided := check_write hd.checked
          obtain rfl : some kind = decoded := by
            have hsame := hkind.symm.trans hd.decode
            exact Except.ok.inj hsame
          obtain rfl : kind = kind' := Option.some.inj hdecided.decoded
          rw [hd.observed.eligible] at hdecided
          -- An operation on an address is never written without the comparison.
          cases hw with
          | scalar hnone => exact absurd (hnone.symm.trans haddr) (by simp)
          | @verified now addr' after actual haddr' hverified =>
              obtain rfl : addr = addr' := Option.some.inj (haddr.symm.trans haddr')
              rw [hd.observed.eligible] at hverified
              refine ⟨⟨.cancelled, false⟩ :: (tr ++ [⟨.cancelled, false⟩]), observation, position,
                device, now, after, predicted, _, _, ?_, ?_, hdecided, hverified⟩
              · rw [List.cons_append, List.append_assoc]
                rfl
              · have hview := (hd.observed.view hcurrent).1
                rw [← List.cons_append, ← List.append_assoc, view_concat, hview]
                rfl

/-- What a reported address write shows, in every run against any transport: the
    inventory right after it shows the target with a complete address list, the
    address written or gone, the rest of its group as it was seen before, and
    every address outside the group. -/
theorem apply_verified {tr : List IoEvent} {report : ApplyReport}
    (hrun : (applyPlan diff namespaceId).Runs tr report) :
    ∃ h, RunHistory diff false namespaceId tr report h ∧
      ∀ i op kind addr, diff.operations[i]? = some op → report.ReportsAt diff i .succeeded →
        decode op.kind .new = .ok (some kind) → kind.ipv4Address = some addr →
        ∃ r own observation position device now after position' actual key,
          RoundAt diff false namespaceId h i op r ∧
          r.calls = own ++ [⟨.execute op.target kind, .ok ()⟩, ⟨.now, now⟩,
            ⟨.inventory, .ok after⟩] ∧
          view (callsOf (h.take i) ++ own) = some observation ∧
          Located observation op.target namespaceId position device ∧
          Located after op.target namespaceId position' actual ∧
          GroupKey.new op addr = .ok key ∧
          VerifiedWrite diff i op kind addr r.before.eligible key device now actual := by
  rcases run_history hrun with ⟨h, hr⟩
  refine ⟨h, hr, fun i op kind addr hop hsucc hkind haddr => ?_⟩
  rcases hr.roundAt hop with ⟨r, hat⟩
  have hout := (hr.reportsAt_iff hat).mp hsucc
  rcases hat.verified hout hkind haddr with ⟨own, observation, position, device, now, after,
    actual, groups, groups', hcalls, hview, hdecided, hverified⟩
  rcases verifyObservation_ok hdecided haddr hverified with ⟨key, position', hkey, hlocated, hw⟩
  exact ⟨r, own, observation, position, device, now, after, position', actual, key, hat, hcalls,
    hview, hdecided.located, hlocated, hkey, hw⟩

/-- Adding 192.0.2.7/24 to an interface with 192.0.2.1/24, for ten minutes. -/
def addition : Operation :=
  { target := eth0
    kind := .addIpv4 ⟨Ipv4Addr.new 192 0 2 7, 24, some 600, none⟩
    dependsOn := []
    addressGroup := some { addresses := [primary], observedAt := 0 } }

/-- The plan of one addition. -/
def additionPlan : StateDiff := { changes := [], operations := [addition], diagnostics := [] }

/-- The new address is a secondary, and the primary stays as it was. -/
theorem apply_verified_addition : ∃ tr report final eligible key device now actual,
    (applyPlan additionPlan eth0.namespaceId).Runs tr report ∧
      Admits (idealTransport 0).environment ⟨[eth0Device [primary, bystander]], []⟩ tr final ∧
      report.ReportsAt additionPlan 0 .succeeded ∧
      VerifiedWrite additionPlan 0 addition addition.kind
        ⟨Ipv4Addr.new 192 0 2 7, 24, some 600, none⟩ eligible key device now actual := by
  rcases run_executes additionPlan false eth0.namespaceId (idealTransport 0)
      ⟨[eth0Device [primary, bystander]], []⟩ with
    ⟨report, final, tr, hx, hrun, htransport⟩
  have hreport : ((run additionPlan false eth0.namespaceId).exec (idealTransport 0)
      ⟨[eth0Device [primary, bystander]], []⟩).map (fun out => out.1.succeeded) =
        some [.new 0 addition] := by
    decide
  rw [hx, Option.map_some, Option.some.injEq] at hreport
  have hsucc : report.ReportsAt additionPlan 0 .succeeded := by
    refine ⟨addition, rfl, ?_⟩
    rw [ApplyReport.Reports, hreport]
    exact List.mem_singleton.mpr rfl
  rcases apply_verified hrun with ⟨h, _, hall⟩
  rcases hall 0 addition addition.kind _ rfl hsucc rfl rfl with
    ⟨r, _, _, _, device, now, _, _, actual, key, _, _, _, _, _, _, hverified⟩
  exact ⟨tr, report, final, _, key, device, now, actual, hrun, htransport, hsucc, hverified⟩

end Netfyr
