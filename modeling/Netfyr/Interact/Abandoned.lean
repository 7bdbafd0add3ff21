import Netfyr.Interact.Callers

/-!
# Callers that Go Away

A caller need not wait to the end. What it asked for is served all the same, but
from the moment it is gone whatever is called for it can hear of that, and
nothing that was called before could.

## Theorems

* `Service.Reaches.abandoned_iff`: Who has gone away stays away.
* `Service.Reaches.heard`: What a call hears of its caller.
* `Service.Reaches.hears`: What is called for a caller hears when it goes away.
-/

namespace Netfyr

namespace Interact

variable {E S I O : Type} {R : E → Type}

namespace Service

variable {serving : Serving E R S I O} {start : S} {labels : List (Happening E R I O)}
  {sys sys' : Service E R S I O} {label : Happening E R I O} {caller : Nat}

section Abandoning

/-- A happening, with what came before it. -/
theorem Reaches.split {before after : List (Happening E R I O)}
    (hreaches : Reaches serving start labels sys) (heq : labels = before ++ label :: after) :
    ∃ sys₁ sys₂, Reaches serving start before sys₁ ∧ Step serving sys₁ label sys₂ ∧
      Reaches serving start (before ++ [label]) sys₂ := by
  induction hreaches generalizing after with
  | opened => exact absurd heq (by simp)
  | @step labels sys sys' last hbefore hstep ih =>
      rcases List.eq_nil_or_concat after with rfl | ⟨middle, last', rfl⟩
      · rcases List.append_inj' heq rfl with ⟨rfl, hlast⟩
        obtain rfl := List.singleton_inj.mp hlast
        exact ⟨sys, sys', hbefore, hstep, .step hbefore hstep⟩
      · rw [List.concat_eq_append, ← List.cons_append, ← List.append_assoc] at heq
        exact ih (List.append_inj' heq rfl).1

/-- A caller that has gone away stays away. -/
theorem Step.stays_abandoned (hstep : Step serving sys label sys')
    (h : sys.callers caller = .abandoned) : sys'.callers caller = .abandoned := by
  have hmove : ∀ {other : Nat} {place : Caller I O}, sys.callers other ≠ .abandoned →
      (sys.move other place).callers caller = .abandoned := by
    intro other place hother
    rw [move_callers, if_neg, h]
    rintro rfl
    exact hother h
  cases hstep with
  | submit _ hplace | refuse hplace _ | lose hplace _ => exact hmove (by rw [hplace]; simp)
  | send hplace _ _ => exact hmove (by rw [hplace]; simp)
  | abandon hplace =>
      rcases hplace with hplace | hplace
      · exact hmove (by rw [hplace]; simp)
      · exact hmove (by rw [hplace]; simp)
  | @finish job outcome _ _ =>
      rcases reply_cases sys job outcome with ⟨hsame, _⟩ | ⟨other, input, _, hplace, hmoved⟩
      · dsimp only
        rw [hsame, h]
      · dsimp only
        rw [hmoved]
        exact hmove (by rw [hplace]; simp)
  | take _ _ | wake _ | call _ _ | close _ | stop _ _ _ | crash _ => exact h

/-- The callers that have gone away are those that went. -/
theorem Reaches.abandoned_iff (hreaches : Reaches serving start labels sys) :
    sys.callers caller = .abandoned ↔ .abandoned caller ∈ labels := by
  constructor
  · intro h
    induction hreaches with
    | opened => exact absurd h (by simp [Service.opened])
    | @step labels sys sys' label _ hstep ih =>
        rw [List.mem_append, List.mem_singleton]
        have hmove : ∀ {other : Nat} {place : Caller I O}, place ≠ .abandoned →
            (sys.move other place).callers caller = .abandoned →
              .abandoned caller ∈ labels := by
          intro other place hplace habs
          rw [move_callers] at habs
          by_cases hsame : caller = other
          · rw [if_pos hsame] at habs
            exact absurd habs hplace
          · rw [if_neg hsame] at habs
            exact ih habs
        cases hstep with
        | submit _ _ | refuse _ _ | lose _ _ => exact Or.inl (hmove (by simp) h)
        | send _ _ _ => exact Or.inl (hmove (by simp) h)
        | @abandon other input _ =>
            rw [move_callers] at h
            by_cases hsame : caller = other
            · exact Or.inr (by rw [hsame])
            · rw [if_neg hsame] at h
              exact Or.inl (ih h)
        | @finish job outcome _ _ =>
            dsimp only at h
            rcases reply_cases sys job outcome with ⟨hsame, _⟩ | ⟨other, input, _, _, hmoved⟩
            · rw [hsame] at h
              exact Or.inl (ih h)
            · rw [hmoved] at h
              exact Or.inl (hmove (by simp) h)
        | take _ _ | wake _ | call _ _ | close _ | stop _ _ _ | crash _ => exact Or.inl (ih h)
  · intro h
    induction hreaches with
    | opened => exact absurd h List.not_mem_nil
    | step _ hstep ih =>
        rcases List.mem_append.mp h with h | h
        · exact hstep.stays_abandoned (ih h)
        · obtain rfl := List.mem_singleton.mp h
          cases hstep with
          | abandon _ => rw [move_callers, if_pos rfl]

/-- A call hears whether its caller has gone away by then. -/
theorem Reaches.heard {before after : List (Happening E R I O)} {job : Job I} {event : Event E R}
    (hreaches : Reaches serving start labels sys)
    (heq : labels = before ++ .called job event :: after) :
    ∃ gone : Bool, serving.hears gone event ∧
      (gone = true ↔ ∃ caller, job.caller = some caller ∧ .abandoned caller ∈ before) := by
  rcases hreaches.split heq with ⟨sys₁, sys₂, hbefore, hstep, _⟩
  cases hstep with
  | call _ hhears =>
      refine ⟨_, hhears, ?_⟩
      unfold gone
      cases hcaller : job.caller with
      | none => simp
      | some caller =>
          have hiff : sys₁.callers caller = .abandoned ↔ .abandoned caller ∈ before :=
            hbefore.abandoned_iff
          rw [Option.any_some]
          constructor
          · intro habandoned
            refine ⟨caller, rfl, hiff.mp ?_⟩
            cases hplace : sys₁.callers caller with
            | abandoned => rfl
            | _ =>
                rw [hplace] at habandoned
                exact absurd habandoned Bool.false_ne_true
          · rintro ⟨other, hother, hmem⟩
            rw [← Option.some.inj hother] at hmem
            rw [hiff.mpr hmem]
            rfl

/-- A call for a caller, where it was made. -/
theorem callsFor_split {own rest : List (Event E R)} {event : Event E R}
    (h : callsFor caller labels = own ++ event :: rest) :
    ∃ before job after, labels = before ++ .called job event :: after ∧
      job.caller = some caller ∧ callsFor caller before = own ∧ callsFor caller after = rest := by
  rcases List.filterMap_eq_append_iff.mp h with ⟨first, others, rfl, hfirst, hothers⟩
  rcases List.filterMap_eq_cons_iff.mp hothers with
    ⟨quiet, label, after, rfl, hquiet, hcall, hafter⟩
  cases label with
  | called job event' =>
      dsimp only at hcall
      by_cases hcaller : job.caller = some caller
      · rw [if_pos hcaller] at hcall
        obtain rfl := Option.some.inj hcall
        refine ⟨first ++ quiet, job, after, (List.append_assoc _ _ _).symm, hcaller, ?_, hafter⟩
        rw [callsFor_append, callsFor, callsFor, hfirst, List.filterMap_eq_nil_iff.mpr hquiet,
          List.append_nil]
      · rw [if_neg hcaller] at hcall
        exact absurd hcall (by simp)
  | _ => exact absurd hcall (by simp)

/-- What is called for a caller hears of it from the moment it goes away, and
    not before. -/
theorem Reaches.hears {before after : List (Happening E R I O)}
    (hreaches : Reaches serving start labels sys)
    (heq : labels = before ++ .abandoned caller :: after) :
    (∀ event ∈ callsFor caller before, serving.hears false event) ∧
      ∀ event ∈ callsFor caller after, serving.hears true event := by
  constructor
  · intro event hmem
    rcases List.append_of_mem hmem with ⟨own, later, hown⟩
    rcases callsFor_split hown with ⟨first, job, rest, rfl, hcaller, _⟩
    have hlater : labels = first ++ .called job event :: (rest ++ .abandoned caller :: after) := by
      rw [heq]
      simp
    rcases hreaches.heard hlater with ⟨gone, hhears, hiff⟩
    cases gone with
    | false => exact hhears
    | true =>
        -- A caller that has gone away cannot go again.
        rcases hiff.mp rfl with ⟨other, hother, hearlier⟩
        obtain rfl := Option.some.inj (hcaller.symm.trans hother)
        rcases hreaches.split heq with ⟨sys₁, _, hbefore, hstep, _⟩
        have hgone : sys₁.callers caller = .abandoned := by
          rw [hbefore.abandoned_iff]
          simp [hearlier]
        cases hstep with
        | abandon hplace =>
            rw [hgone] at hplace
            rcases hplace with habs | habs
            · exact absurd habs (by simp)
            · exact absurd habs (by simp)
  · intro event hmem
    rcases List.append_of_mem hmem with ⟨own, later, hown⟩
    rcases callsFor_split hown with ⟨first, job, rest, rfl, hcaller, _⟩
    have hlater :
        labels = (before ++ .abandoned caller :: first) ++ .called job event :: rest := by
      rw [heq]
      simp
    rcases hreaches.heard hlater with ⟨gone, hhears, hiff⟩
    rw [hiff.mpr ⟨caller, hcaller, by simp⟩] at hhears
    exact hhears

end Abandoning

end Service

end Interact

end Netfyr
