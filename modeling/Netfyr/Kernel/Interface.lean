import Mathlib.Data.List.TakeWhile
import Netfyr.Kernel.Messages

/-!
# A Kernel as Documented

What is relied on of the kernel is a list of facts, and one kernel for which they
are facts is written down here: one interface, with its addresses in the order
in which they are linked. A new primary goes behind the last one of its scope or
a wider one, a secondary to the end, and of the secondaries of a removed primary
the first is promoted and moved to the primaries.

## Main definitions

* `linkBehind`, `survivors`: Where addresses go.
* `LinuxInterface`: The interface.
* `LinuxInterface.request`: A message, taken or refused.
* `LinuxInterface.kernel`: The kernel.

## Theorems

* `linkBehind_perm`, `survivors_survived`: What becomes of a list.
* `LinuxInterface.documented`: The kernel does what is documented.
-/

namespace Netfyr

/-- An address linked behind the last that passes a test, or in front of all. -/
def linkBehind (p : KernelAddress → Bool) (new : KernelAddress) :
    List KernelAddress → List KernelAddress
  | [] => [new]
  | entry :: entries =>
      if entries.any p then entry :: linkBehind p new entries
      else if p entry then entry :: new :: entries
      else new :: entry :: entries

/-- Whether an address is a primary behind which one of a scope is linked. -/
def KernelAddress.isAhead (self : KernelAddress) (scope : UInt8) : Bool :=
  !self.isSecondary && scope ≤ self.scope

/-- An address with other lifetimes. -/
def KernelAddress.renewed (self : KernelAddress) (cache : CacheInfo)
    (ordered : cache.ifaPreferred ≤ cache.ifaValid) : KernelAddress :=
  { self with
    flags := KernelAddress.lifetimeFlags self.flags cache
    valid := cache.ifaValid
    preferred := cache.ifaPreferred
    ordered }

/-- The list with a new address. -/
def linked (new : KernelAddress) (entries : List KernelAddress) : List KernelAddress :=
  if entries.any fun entry => entry.network == new.network then entries ++ [new.placed true]
  else linkBehind (·.isAhead new.scope) (new.placed false) entries

/-- The list without an address. -/
def survivors (promoteSecondaries : Bool) (gone : KernelAddress) (others : List KernelAddress) :
    List KernelAddress :=
  if gone.isSecondary then others
  else if promoteSecondaries then
    -- The first secondary leaves its place, and those behind it keep theirs.
    match others.dropWhile fun entry => !entry.goesWith gone with
    | [] => others
    | next :: behind =>
        linkBehind (·.isAhead gone.scope) next.promoted
          (others.takeWhile fun entry => !entry.goesWith gone) ++ behind
  else others.filter fun entry => !entry.goesWith gone

/-- The address that a message asks for, on an interface of a name. -/
def requested (name : String) (message : AddressMessage) : Option KernelAddress :=
  match message.last AddressAttribute.local? with
  | none => none
  | some ip =>
      let cache := (message.last AddressAttribute.cache?).getD
        { ifaPreferred := u32Max, ifaValid := u32Max }
      if h : message.prefixLen ≤ 32 ∧ cache.ifaValid ≠ 0 ∧ cache.ifaPreferred ≤ cache.ifaValid then
        some
          { local' := ip
            address := (message.last AddressAttribute.address?).getD ip
            prefixLen := message.prefixLen
            scope := message.scope
            flags := KernelAddress.lifetimeFlags
              ((message.last AddressAttribute.bits?).getD (message.flags.setWidth 32)) cache
            label := (message.last AddressAttribute.label?).getD name
            broadcast := message.attributes.contains .other
            protocol := false
            metric := false
            valid := cache.ifaValid
            preferred := cache.ifaPreferred
            bounded := h.1
            ordered := h.2.2 }
      else none

section Lists

variable {p : KernelAddress → Bool} {new gone : KernelAddress} {entries : List KernelAddress}

theorem linkBehind_perm : (linkBehind p new entries).Perm (new :: entries) := by
  induction entries with
  | nil => exact List.Perm.refl _
  | cons entry entries ih =>
      unfold linkBehind
      split
      · exact (ih.cons entry).trans (List.Perm.swap new entry entries)
      · split
        · exact List.Perm.swap new entry entries
        · exact List.Perm.refl _

theorem linked_perm : (linked new entries).Perm
    (new.placed (entries.any fun entry => entry.network == new.network) :: entries) := by
  unfold linked
  cases hsecondary : entries.any fun entry => entry.network == new.network with
  | false =>
      rw [if_neg Bool.false_ne_true]
      exact linkBehind_perm
  | true =>
      rw [if_pos rfl]
      exact List.perm_append_singleton _ _

/-- The first address that a new one would be gets its lifetimes. -/
theorem updateFirst_renewed (h : entries.any (·.isSame new) = true) :
    Renewed entries new (updateFirst (·.isSame new)
      (·.renewed { ifaPreferred := new.preferred, ifaValid := new.valid } new.ordered)
      entries) := by
  induction entries with
  | nil => exact absurd h Bool.false_ne_true
  | cons entry entries ih =>
      rw [updateFirst]
      cases hsame : entry.isSame new with
      | true =>
          rw [if_pos rfl]
          exact ⟨entry, entry.renewed _ new.ordered, entries, hsame, List.Perm.refl _,
            ⟨rfl, rfl, rfl, rfl, rfl, rfl, rfl⟩, List.Perm.refl _⟩
      | false =>
          rw [List.any_cons, hsame, Bool.false_or] at h
          rcases ih h with ⟨own, renewed, others, hown, hentries, hrenews, hleft⟩
          rw [if_neg Bool.false_ne_true]
          exact ⟨own, renewed, entry :: others, hown,
            (hentries.cons entry).trans (List.Perm.swap own entry others), hrenews,
            (hleft.cons entry).trans (List.Perm.swap _ entry others)⟩

/-- What is left without an address is what survives it. -/
theorem survivors_survived (promoteSecondaries : Bool) :
    Survived gone entries promoteSecondaries (survivors promoteSecondaries gone entries) := by
  unfold survivors
  cases hsecondary : gone.isSecondary with
  | true =>
      rw [if_pos rfl]
      exact .secondary hsecondary (List.Perm.refl _)
  | false =>
      rw [if_neg Bool.false_ne_true]
      cases promoteSecondaries with
      | false =>
          rw [if_neg Bool.false_ne_true]
          exact .deleted hsecondary (List.Perm.refl _)
      | true =>
          rw [if_pos rfl]
          -- The list is cut in front of the secondary that is promoted.
          have hsplit := List.takeWhile_append_dropWhile (p := fun entry : KernelAddress =>
            !entry.goesWith gone) (l := entries)
          cases hdropped : entries.dropWhile fun entry => !entry.goesWith gone with
          | nil =>
              refine .alone hsecondary (fun entry hmem => ?_) (List.Perm.refl _)
              have hnot := List.dropWhile_eq_nil_iff.mp hdropped entry hmem
              rwa [Bool.not_eq_true'] at hnot
          | cons next behind =>
              have hnext : next.goesWith gone = true := by
                have hhead := List.head?_dropWhile_not (fun entry : KernelAddress =>
                  !entry.goesWith gone) entries
                rw [hdropped, List.head?_cons] at hhead
                simpa only [Bool.not_eq_false'] using hhead
              rw [hdropped] at hsplit
              have hentries : entries.Perm
                  (next :: ((entries.takeWhile fun entry => !entry.goesWith gone) ++ behind)) := by
                conv_lhs => rw [← hsplit]
                exact List.perm_middle
              exact .promoted hsecondary hnext hentries (linkBehind_perm.append_right behind)

/-- What survives has the networks and the scopes that there were. -/
theorem Survived.kept {promoteSecondaries : Bool} {left : List KernelAddress}
    (h : Survived gone entries promoteSecondaries left) :
    ∀ a ∈ left, ∃ b ∈ entries, a.network = b.network ∧ a.scope = b.scope := by
  intro a ha
  cases h with
  | secondary _ hleft | alone _ _ hleft => exact ⟨a, hleft.mem_iff.mp ha, rfl, rfl⟩
  | deleted _ hleft => exact ⟨a, List.mem_of_mem_filter (hleft.mem_iff.mp ha), rfl, rfl⟩
  | @promoted next rest _ _ _ hentries hleft =>
      rcases List.mem_cons.mp (hleft.mem_iff.mp ha) with rfl | hmem
      · exact ⟨next, hentries.mem_iff.mpr List.mem_cons_self, rfl, rfl⟩
      · exact ⟨a, hentries.mem_iff.mpr (List.mem_cons_of_mem _ hmem), rfl, rfl⟩

end Lists

/-- An interface: addresses of one network have one scope. -/
structure LinuxInterface where
  index : UInt32
  name : String
  promoteSecondaries : Bool
  addresses : List KernelAddress
  scopes : ∀ a ∈ addresses, ∀ b ∈ addresses, a.network = b.network → a.scope = b.scope

/-- The errors of a request that cannot be carried out. -/
def enodev : Int := 19
def einval : Int := 22
def eopnotsupp : Int := 95

namespace LinuxInterface

/-- Other addresses, in the networks of those there are. -/
def keeping (self : LinuxInterface) (addresses : List KernelAddress)
    (h : ∀ a ∈ addresses, ∃ b ∈ self.addresses, a.network = b.network ∧ a.scope = b.scope) :
    LinuxInterface :=
  { self with
    addresses
    scopes := by
      intro a ha b hb hab
      rcases h a ha with ⟨a', ha', hnetwork, hscope⟩
      rcases h b hb with ⟨b', hb', hnetwork', hscope'⟩
      rw [hscope, hscope']
      exact self.scopes a' ha' b' hb' (hnetwork ▸ hnetwork' ▸ hab) }

/-- A new address, which has the scope of its network. -/
def inserted (self : LinuxInterface) (new : KernelAddress)
    (h : ∀ entry ∈ self.addresses, entry.network = new.network → entry.scope = new.scope) :
    LinuxInterface :=
  { self with
    addresses := linked new self.addresses
    scopes := by
      -- Each of them is the new one, or was there.
      have hmem : ∀ a ∈ linked new self.addresses,
          (a.network = new.network ∧ a.scope = new.scope) ∨ a ∈ self.addresses := by
        intro a ha
        rcases List.mem_cons.mp (linked_perm.mem_iff.mp ha) with rfl | hold
        · exact Or.inl ⟨rfl, rfl⟩
        · exact Or.inr hold
      intro a ha b hb hab
      rcases hmem a ha with ⟨hnetwork, hscope⟩ | hold
      · rcases hmem b hb with ⟨_, hscope'⟩ | hold'
        · rw [hscope, hscope']
        · rw [hscope, h b hold' (hab.symm.trans hnetwork)]
      · rcases hmem b hb with ⟨hnetwork', hscope'⟩ | hold'
        · rw [hscope', h a hold (hab.trans hnetwork')]
        · exact self.scopes a hold b hold' hab }

/-- The address that is there gets the lifetimes of the one asked for. -/
def replaced (self : LinuxInterface) (new : KernelAddress) : LinuxInterface :=
  self.keeping
    (updateFirst (·.isSame new)
      (·.renewed { ifaPreferred := new.preferred, ifaValid := new.valid } new.ordered)
      self.addresses)
    (by
      intro a ha
      rcases mem_of_mem_updateFirst ha with hmem | ⟨b, hmem, _, rfl⟩
      · exact ⟨a, hmem, rfl, rfl⟩
      · exact ⟨b, hmem, rfl, rfl⟩)

/-- The first address that a message names is deleted. -/
def deleted (self : LinuxInterface) (message : AddressMessage) (gone : KernelAddress) :
    LinuxInterface :=
  self.keeping
    (survivors self.promoteSecondaries gone (self.addresses.eraseP (·.isNamed message)))
    (by
      intro a ha
      rcases (survivors_survived _).kept a ha with ⟨b, hb, hkept⟩
      exact ⟨b, List.mem_of_mem_eraseP hb, hkept⟩)

/-- A request about the addresses of the interface, or the error it is refused with. -/
def request (self : LinuxInterface) (message : RouteNetlinkMessage) (flags : BitVec 16) :
    Except Int LinuxInterface :=
  match message with
  | .newAddress message =>
      if message.index ≠ self.index then .error enodev
      else
        match requested self.name message with
        | none => .error einval
        | some new =>
            if self.addresses.any (·.isSame new) then
              if flags &&& nlmFExcl ≠ 0 ∨ flags &&& nlmFReplace = 0 then .error eexist
              else .ok (self.replaced new)
            -- No address at all is taken, and nothing is linked.
            else if new.local' = 0 then .ok self
            else if h : ∀ entry ∈ self.addresses, entry.network = new.network →
                entry.scope = new.scope then
              .ok (self.inserted new h)
            else .error einval
  | .delAddress message =>
      if message.index ≠ self.index then .error enodev
      else
        match self.addresses.find? (·.isNamed message) with
        | none => .error eaddrnotavail
        | some gone => .ok (self.deleted message gone)
  | .getLink _ | .getAddress _ | .setLink _ => .error eopnotsupp

/-- The addresses of the interface of an index. -/
def addressesOf (self : LinuxInterface) (index : UInt32) : List KernelAddress :=
  if index = self.index then self.addresses else []

/-- The kernel of the interface. -/
def kernel : AddressKernel where
  State := LinuxInterface
  addresses := addressesOf
  promoteSecondaries self _ := self.promoteSecondaries
  dump self index := (self.addressesOf index).map fun entry => entry.record index
  request := request

section Documented

variable {self : LinuxInterface} {message : AddressMessage} {new : KernelAddress}

theorem requested_asksFor {name : String} (h : requested name message = some new) :
    message.AsksFor new := by
  unfold requested at h
  cases hlocal : message.last AddressAttribute.local? with
  | none =>
      rw [hlocal] at h
      exact absurd h (by simp only [reduceCtorEq, not_false_eq_true])
  | some ip =>
      rw [hlocal] at h
      dsimp only at h
      split at h
      · obtain rfl := Option.some.inj h
        refine ⟨hlocal, rfl, rfl, rfl, rfl, fun hflags hbits => ?_⟩
        rw [hflags, hbits]
        rfl
      · exact absurd h (by simp only [reduceCtorEq, not_false_eq_true])

theorem addressesOf_index (self : LinuxInterface) {index : UInt32} (h : index = self.index) :
    self.addressesOf index = self.addresses :=
  if_pos h

/-- All that can become of an address that is asked for. -/
theorem request_newAddress (flags : BitVec 16) {outcome : Except Int LinuxInterface}
    (h : self.request (.newAddress message) flags = outcome) :
    outcome = .error enodev ∨ outcome = .error einval ∨
      message.index = self.index ∧ ∃ new, message.AsksFor new ∧
        ((self.addresses.any (·.isSame new) = true ∧
            ((outcome = .error eexist ∧ (flags &&& nlmFExcl ≠ 0 ∨ flags &&& nlmFReplace = 0)) ∨
              outcome = .ok (self.replaced new))) ∨
          ((∀ entry ∈ self.addresses, entry.isSame new = false) ∧
            ((outcome = .ok self ∧ new.local' = 0) ∨
              ∃ scopes, outcome = .ok (self.inserted new scopes)))) := by
  unfold request at h
  dsimp only at h
  by_cases hindex : message.index ≠ self.index
  · rw [if_pos hindex] at h
    exact Or.inl h.symm
  · rw [if_neg hindex] at h
    rw [not_not] at hindex
    cases hnew : requested self.name message with
    | none =>
        rw [hnew] at h
        exact Or.inr (Or.inl h.symm)
    | some new =>
        rw [hnew] at h
        dsimp only at h
        have hasks := requested_asksFor hnew
        cases hthere : self.addresses.any (·.isSame new) with
        | true =>
            rw [hthere, if_pos rfl] at h
            refine Or.inr (Or.inr ⟨hindex, new, hasks, Or.inl ⟨hthere, ?_⟩⟩)
            by_cases hrefused : flags &&& nlmFExcl ≠ 0 ∨ flags &&& nlmFReplace = 0
            · rw [if_pos hrefused] at h
              exact Or.inl ⟨h.symm, hrefused⟩
            · rw [if_neg hrefused] at h
              exact Or.inr h.symm
        | false =>
            rw [hthere, if_neg Bool.false_ne_true] at h
            have hnone : ∀ entry ∈ self.addresses, entry.isSame new = false := fun entry hmem =>
              Bool.eq_false_iff.mpr (List.any_eq_false.mp hthere entry hmem)
            by_cases hzero : new.local' = 0
            · rw [if_pos hzero] at h
              exact Or.inr (Or.inr ⟨hindex, new, hasks, Or.inr ⟨hnone, Or.inl ⟨h.symm, hzero⟩⟩⟩)
            · rw [if_neg hzero] at h
              split at h
              · next hscopes =>
                  exact Or.inr (Or.inr
                    ⟨hindex, new, hasks, Or.inr ⟨hnone, Or.inr ⟨hscopes, h.symm⟩⟩⟩)
              · exact Or.inr (Or.inl h.symm)

/-- All that can become of an address that is to be removed. -/
theorem request_delAddress (flags : BitVec 16) {outcome : Except Int LinuxInterface}
    (h : self.request (.delAddress message) flags = outcome) :
    outcome = .error enodev ∨ message.index = self.index ∧
      ((outcome = .error eaddrnotavail ∧
          ∀ entry ∈ self.addresses, entry.isNamed message = false) ∨
        ∃ gone, gone.isNamed message = true ∧
          self.addresses.Perm (gone :: self.addresses.eraseP (·.isNamed message)) ∧
          outcome = .ok (self.deleted message gone)) := by
  unfold request at h
  dsimp only at h
  by_cases hindex : message.index ≠ self.index
  · rw [if_pos hindex] at h
    exact Or.inl h.symm
  · rw [if_neg hindex] at h
    rw [not_not] at hindex
    refine Or.inr ⟨hindex, ?_⟩
    cases hfind : self.addresses.find? (·.isNamed message) with
    | none =>
        rw [hfind] at h
        refine Or.inl ⟨h.symm, fun entry hmem => ?_⟩
        exact Bool.eq_false_iff.mpr (List.find?_eq_none.mp hfind entry hmem)
    | some gone =>
        rw [hfind] at h
        rcases List.find?_eq_some_iff_append.mp hfind with ⟨hnamed, before, behind, hsplit, hnot⟩
        refine Or.inr ⟨gone, hnamed, ?_, h.symm⟩
        -- The first that is named is the one erased.
        have hrest : (before ++ gone :: behind).eraseP (·.isNamed message) = before ++ behind := by
          have hskipped : ∀ entry ∈ before, ¬ entry.isNamed message = true := fun entry hmem =>
            Bool.eq_false_iff.mp ((Bool.not_eq_true' _).mp (hnot entry hmem))
          rw [List.eraseP_append_right _ hskipped, List.eraseP_cons, hnamed, cond_true]
        rw [hsplit, hrest]
        exact List.perm_middle

/-- The kernel does what is documented. -/
theorem documented : kernel.Documented where
  dumps _ _ := rfl
  scopes state index a ha b hb hab := by
    change a ∈ state.addressesOf index at ha
    change b ∈ state.addressesOf index at hb
    unfold addressesOf at ha hb
    by_cases hindex : index = state.index
    · rw [if_pos hindex] at ha hb
      exact state.scopes a ha b hb hab
    · rw [if_neg hindex] at ha
      exact absurd ha List.not_mem_nil
  adds state message flags left _ hassigned h := by
    rcases request_newAddress flags h with habs | habs | ⟨hindex, new, hasks, hthere | hnone⟩
    · exact absurd habs (by simp only [reduceCtorEq, not_false_eq_true])
    · exact absurd habs (by simp only [reduceCtorEq, not_false_eq_true])
    · rcases hthere with ⟨hany, ⟨habs, _⟩ | hleft⟩
      · exact absurd habs (by simp only [reduceCtorEq, not_false_eq_true])
      · obtain rfl := Except.ok.inj hleft
        refine ⟨new, hasks, Or.inr ?_⟩
        change Renewed (state.addressesOf _) new ((state.replaced new).addressesOf _)
        rw [addressesOf_index state hindex, addressesOf_index (state.replaced new) hindex]
        exact updateFirst_renewed hany
    · rcases hnone with ⟨hnone, ⟨_, hzero⟩ | ⟨scopes, hleft⟩⟩
      · -- The interface is as it was only when no address was asked for.
        rw [hasks.local', hzero] at hassigned
        exact absurd rfl hassigned
      · obtain rfl := Except.ok.inj hleft
        refine ⟨new, hasks, Or.inl ?_⟩
        change Joined (state.addressesOf _) new ((state.inserted new scopes).addressesOf _)
        rw [addressesOf_index state hindex, addressesOf_index (state.inserted new scopes) hindex]
        exact ⟨hnone, linked_perm⟩
  existing state message flags _ h := by
    rcases request_newAddress flags h with habs | habs | ⟨hindex, new, hasks, hthere | hnone⟩
    · exact absurd (Except.error.inj habs) (by decide)
    · exact absurd (Except.error.inj habs) (by decide)
    · rcases hthere with ⟨hany, ⟨_, hflags⟩ | habs⟩
      · rcases List.any_eq_true.mp hany with ⟨entry, hmem, hsame⟩
        refine ⟨hflags, new, hasks, entry, ?_, hsame⟩
        change entry ∈ state.addressesOf _
        rwa [addressesOf_index state hindex]
      · exact absurd habs (by simp only [reduceCtorEq, not_false_eq_true])
    · rcases hnone with ⟨_, ⟨habs, _⟩ | ⟨_, habs⟩⟩
      · exact absurd habs (by simp only [reduceCtorEq, not_false_eq_true])
      · exact absurd habs (by simp only [reduceCtorEq, not_false_eq_true])
  deletes state message flags left _ h := by
    rcases request_delAddress flags h with habs | ⟨hindex, ⟨habs, _⟩ | ⟨gone, hnamed, hperm, hleft⟩⟩
    · exact absurd habs (by simp only [reduceCtorEq, not_false_eq_true])
    · exact absurd habs (by simp only [reduceCtorEq, not_false_eq_true])
    · obtain rfl := Except.ok.inj hleft
      refine ⟨gone, state.addresses.eraseP (·.isNamed message), hnamed, ?_, ?_⟩
      · change (state.addressesOf _).Perm _
        rw [addressesOf_index state hindex]
        exact hperm
      · change Survived _ _ _ ((state.deleted message gone).addressesOf _)
        rw [addressesOf_index (state.deleted message gone) hindex]
        exact survivors_survived _
  missing state message flags _ h := by
    rcases request_delAddress flags h with habs | ⟨hindex, ⟨_, hnone⟩ | ⟨_, _, _, habs⟩⟩
    · exact absurd (Except.error.inj habs) (by decide)
    · intro entry hmem
      change entry ∈ state.addressesOf _ at hmem
      rw [addressesOf_index state hindex] at hmem
      exact hnone entry hmem
    · exact absurd habs (by simp only [reduceCtorEq, not_false_eq_true])

end Documented

end LinuxInterface

end Netfyr
