import Netfyr.Interact.Program

/-!
# Loops and Their Rounds

A loop over a list of jobs, where each round runs the same body on the next job
and the state the last round left. A run of the loop is one flat trace; what is
usually claimed of it speaks of rounds: what round `i` did, what state it found,
which earlier round did something first. `Rounds` is the cut of a run into
rounds, each with the state before, its own calls, its outcome and the state
after, and `loop_runs_iff` says the runs of the loop are exactly the cuts that
cover every job.

`Rounds` grows at the end, so an induction over it assumes everything about the
rounds so far and has one more round to account for. Every invariant of a loop
is proved that way. `Rounds.take` and `Rounds.nth` go back to an earlier round,
with the history that led to it.

## Main definitions

* `loop`: Running a body over a list of jobs.
* `Round`: What one round found, did and left.
* `Rounds`: A history of rounds, from the start of the loop.
* `callsOf`: The calls made by a history, in order.

## Theorems

* `callsOf_split`: An event of a history belongs to one of its rounds.
* `Rounds.take`: A prefix of a history is a history.
* `Rounds.nth`: Round `i` is a run of the body on job `i`.
* `Rounds.next`: One more job is one more round.
* `Rounds.admitted`: What every round preserves holds after any history, against
  an environment.
* `Rounds.simulates`: Two loops whose rounds agree have the same outcomes.
* `loop_runs_rounds`: A run of the loop is a history covering every job.
* `loop_safe`: A loop is safe when its rounds are.
-/

namespace Netfyr

namespace Interact

variable {E : Type} {R : E → Type} {ι S O : Type}

/-- Run the body on each job in turn, numbering the jobs from `i` and
    collecting the outcomes. -/
def loop (body : Nat → ι → S → Program E R (O × S)) :
    Nat → List ι → S → Program E R (List O × S)
  | _, [], s => pure ([], s)
  | i, job :: jobs, s => do
      let (o, s') ← body i job s
      let (os, t) ← loop body (i + 1) jobs s'
      pure (o :: os, t)

/-- A loop over jobs that were changed first is a loop whose body changes them. -/
theorem loop_map {κ : Type} (body : Nat → κ → S → Program E R (O × S)) (f : ι → κ) (i : Nat)
    (jobs : List ι) (s : S) :
    loop body i (jobs.map f) s = loop (fun i job => body i (f job)) i jobs s := by
  induction jobs generalizing i s with
  | nil => rfl
  | cons job jobs ih =>
      rw [List.map_cons, loop, loop]
      simp only [ih]

/-- One round of a loop: the state it found, the calls it made, its outcome and
    the state it left. -/
structure Round (E : Type) (R : E → Type) (S O : Type) where
  before : S
  calls : List (Event E R)
  outcome : O
  after : S

/-- The calls of a history, in order. -/
def callsOf (h : List (Round E R S O)) : List (Event E R) :=
  h.flatMap Round.calls

/-- A history of rounds of `body` over `jobs` from the state `s₀`, ending in the
    given state. -/
inductive Rounds (body : Nat → ι → S → Program E R (O × S)) (jobs : List ι) (s₀ : S) :
    List (Round E R S O) → S → Prop where
  | start : Rounds body jobs s₀ [] s₀
  | round {h : List (Round E R S O)} {s s' : S} {job : ι} {tr : List (Event E R)} {o : O} :
      Rounds body jobs s₀ h s → jobs[h.length]? = some job →
      (body h.length job s).Runs tr (o, s') →
      Rounds body jobs s₀ (h ++ [⟨s, tr, o, s'⟩]) s'

variable {body : Nat → ι → S → Program E R (O × S)} {jobs : List ι} {s₀ : S}

@[simp] theorem callsOf_nil : callsOf ([] : List (Round E R S O)) = [] := rfl

@[simp] theorem callsOf_append (h₁ h₂ : List (Round E R S O)) :
    callsOf (h₁ ++ h₂) = callsOf h₁ ++ callsOf h₂ :=
  List.flatMap_append

@[simp] theorem callsOf_singleton (r : Round E R S O) : callsOf [r] = r.calls := by
  simp only [callsOf, List.flatMap_cons, List.flatMap_nil, List.append_nil]

/-- An event of a history belongs to one of its rounds. -/
theorem callsOf_split {h : List (Round E R S O)} {event : Event E R}
    {before after : List (Event E R)} (heq : callsOf h = before ++ event :: after) :
    ∃ i r own rest, h[i]? = some r ∧ r.calls = own ++ event :: rest ∧
      before = callsOf (h.take i) ++ own ∧ after = rest ++ callsOf (h.drop (i + 1)) := by
  induction h generalizing before with
  | nil => exact absurd heq.symm (List.append_ne_nil_of_right_ne_nil before (List.cons_ne_nil _ _))
  | cons r h ih =>
      have hcons : r.calls ++ callsOf h = before ++ event :: after := heq
      rcases List.append_eq_append_iff.mp hcons with ⟨own, rfl, hrest⟩ | ⟨rest, hcalls, hafter⟩
      · -- The event comes after this round.
        rcases ih hrest with ⟨i, r', own', rest', hi, hr', rfl, rfl⟩
        exact ⟨i + 1, r', own', rest', hi, hr', (List.append_assoc _ _ _).symm, rfl⟩
      · cases rest with
        | nil =>
            -- This round ends just before the event, which opens a later one.
            rw [List.append_nil] at hcalls
            rw [List.nil_append] at hafter
            have hnil' : callsOf h = [] ++ event :: after := hafter.symm
            rcases ih hnil' with ⟨i, r', own', rest', hi, hr', hnil, rfl⟩
            refine ⟨i + 1, r', own', rest', hi, hr', ?_, rfl⟩
            have hown : callsOf ((r :: h).take (i + 1)) ++ own' =
                r.calls ++ (callsOf (h.take i) ++ own') := List.append_assoc _ _ _
            rw [hown, ← hnil, List.append_nil, hcalls]
        | cons event' rest =>
            rcases List.cons_eq_cons.mp hafter with ⟨rfl, rfl⟩
            -- The event is this round's own.
            exact ⟨0, r, before, rest, rfl, hcalls, rfl, rfl⟩

namespace Rounds

theorem length_le {h : List (Round E R S O)} {s : S} (hr : Rounds body jobs s₀ h s) :
    h.length ≤ jobs.length := by
  induction hr with
  | start => exact Nat.zero_le _
  | round _ hjob _ _ =>
      rw [List.length_append, List.length_singleton]
      exact (List.getElem?_eq_some_iff.mp hjob).choose

/-- A history cut short is a history, ending where its last round left off. -/
theorem take {h : List (Round E R S O)} {s : S} (hr : Rounds body jobs s₀ h s) (i : Nat) :
    ∃ t, Rounds body jobs s₀ (h.take i) t := by
  induction hr with
  | start => exact ⟨s₀, by rw [List.take_nil]; exact .start⟩
  | @round h s s' job tr o hr hjob hrun ih =>
      -- Either the last round is cut off, or nothing is.
      by_cases hi : i ≤ h.length
      · rw [List.take_append_of_le_length hi]
        exact ih
      · refine ⟨s', ?_⟩
        rw [List.take_of_length_le (by rw [List.length_append, List.length_singleton]; omega)]
        exact .round hr hjob hrun

/-- Round `i` ran the body on job `i`, from the state the rounds before it
    left. -/
theorem nth {h : List (Round E R S O)} {s : S} (hr : Rounds body jobs s₀ h s) {i : Nat}
    {r : Round E R S O} (hi : h[i]? = some r) :
    ∃ job, jobs[i]? = some job ∧ Rounds body jobs s₀ (h.take i) r.before ∧
      (body i job r.before).Runs r.calls (r.outcome, r.after) := by
  induction hr with
  | start => exact absurd hi (by simp only [List.getElem?_nil, reduceCtorEq, not_false_eq_true])
  | @round h s s' job tr o hr hjob hrun ih =>
      by_cases hlt : i < h.length
      · rw [List.getElem?_append_left hlt] at hi
        rw [List.take_append_of_le_length (Nat.le_of_lt hlt)]
        exact ih hi
      · rw [List.getElem?_append_right (Nat.le_of_not_lt hlt)] at hi
        have hz : i = h.length := by
          have := (List.getElem?_eq_some_iff.mp hi).choose
          rw [List.length_singleton] at this
          omega
        subst hz
        rw [Nat.sub_self, List.getElem?_cons_zero, Option.some.injEq] at hi
        subst hi
        rw [List.take_left]
        exact ⟨job, hjob, hr, hrun⟩

/-- More jobs to come do not change the rounds so far. -/
theorem more {h : List (Round E R S O)} {s : S} (hr : Rounds body jobs s₀ h s) (later : List ι) :
    Rounds body (jobs ++ later) s₀ h s := by
  induction hr with
  | start => exact .start
  | round _ hjob hrun ih =>
      have hlt := (List.getElem?_eq_some_iff.mp hjob).choose
      exact .round ih (by rwa [List.getElem?_append_left hlt]) hrun

/-- One more job, done. -/
theorem next {h : List (Round E R S O)} {s s' : S} (hr : Rounds body jobs s₀ h s)
    (hall : h.length = jobs.length) {job : ι} {tr : List (Event E R)} {o : O}
    (hrun : (body h.length job s).Runs tr (o, s')) :
    Rounds body (jobs ++ [job]) s₀ (h ++ [⟨s, tr, o, s'⟩]) s' := by
  refine .round (hr.more [job]) ?_ hrun
  rw [hall, List.getElem?_append_right (Nat.le_refl _), Nat.sub_self]
  rfl

/-- What holds at the start and is preserved by every round that an environment
    admits holds after any history it admits. -/
theorem admitted {K : Type} {env : Environment K E R} {k₀ : K}
    {P : List (Round E R S O) → S → K → Prop} (h₀ : P [] s₀ k₀)
    (hstep : ∀ h s s' job tr o k k', Rounds body jobs s₀ h s → P h s k →
      jobs[h.length]? = some job → (body h.length job s).Runs tr (o, s') → Admits env k tr k' →
      P (h ++ [⟨s, tr, o, s'⟩]) s' k')
    {h : List (Round E R S O)} {s : S} {k : K} (hr : Rounds body jobs s₀ h s)
    (hadmits : Admits env k₀ (callsOf h) k) : P h s k := by
  induction hr generalizing k with
  | start =>
      obtain rfl : k = k₀ := hadmits
      exact h₀
  | round hr hjob hrun ih =>
      rw [callsOf_append, callsOf_singleton] at hadmits
      rcases admits_append.mp hadmits with ⟨u, hbefore, hround⟩
      exact hstep _ _ _ _ _ _ _ _ hr (ih hbefore) hjob hrun hround

/-- Two loops over the same jobs, each in its environment, have the same outcomes
    when rounds from related states do, and leave related states. -/
theorem simulates {S₁ S₂ K₁ K₂ : Type} {body₁ : Nat → ι → S₁ → Program E R (O × S₁)}
    {body₂ : Nat → ι → S₂ → Program E R (O × S₂)} {start₁ : S₁} {start₂ : S₂}
    {env₁ : Environment K₁ E R} {env₂ : Environment K₂ E R} {from₁ : K₁} {from₂ : K₂}
    {Rel : S₁ → K₁ → S₂ → K₂ → Prop} (h₀ : Rel start₁ from₁ start₂ from₂)
    (hstep : ∀ i job s₁ k₁ s₂ k₂ tr₁ o₁ s₁' k₁' tr₂ o₂ s₂' k₂', Rel s₁ k₁ s₂ k₂ →
      jobs[i]? = some job → (body₁ i job s₁).Runs tr₁ (o₁, s₁') → Admits env₁ k₁ tr₁ k₁' →
      (body₂ i job s₂).Runs tr₂ (o₂, s₂') → Admits env₂ k₂ tr₂ k₂' →
      o₁ = o₂ ∧ Rel s₁' k₁' s₂' k₂')
    {h₁ : List (Round E R S₁ O)} {h₂ : List (Round E R S₂ O)} {s₁ : S₁} {s₂ : S₂} {k₁ : K₁}
    {k₂ : K₂} (hr₁ : Rounds body₁ jobs start₁ h₁ s₁) (hr₂ : Rounds body₂ jobs start₂ h₂ s₂)
    (hlen : h₁.length = h₂.length) (hadmits₁ : Admits env₁ from₁ (callsOf h₁) k₁)
    (hadmits₂ : Admits env₂ from₂ (callsOf h₂) k₂) :
    h₁.map Round.outcome = h₂.map Round.outcome ∧ Rel s₁ k₁ s₂ k₂ := by
  induction hr₁ generalizing h₂ s₂ k₁ k₂ with
  | start =>
      cases hr₂ with
      | start =>
          obtain rfl : k₁ = from₁ := hadmits₁
          obtain rfl : k₂ = from₂ := hadmits₂
          exact ⟨rfl, h₀⟩
      | round _ _ _ => exact absurd hlen (by simp)
  | @round h₁ s₁ s₁' job tr₁ o₁ hr₁ hjob₁ hrun₁ ih =>
      cases hr₂ with
      | start => exact absurd hlen (by simp)
      | @round h₂ t₂ _ job₂ tr₂ o₂ hr₂ hjob₂ hrun₂ =>
          have hlen' : h₁.length = h₂.length := by
            simpa only [List.length_append, List.length_singleton, Nat.add_right_cancel_iff]
              using hlen
          rw [callsOf_append, callsOf_singleton] at hadmits₁ hadmits₂
          rcases admits_append.mp hadmits₁ with ⟨u₁, hbefore₁, hround₁⟩
          rcases admits_append.mp hadmits₂ with ⟨u₂, hbefore₂, hround₂⟩
          rcases ih hr₂ hlen' hbefore₁ hbefore₂ with ⟨hsame, hrel⟩
          rw [← hlen'] at hjob₂ hrun₂
          obtain rfl := Option.some.inj (hjob₁.symm.trans hjob₂)
          rcases hstep _ _ _ _ _ _ _ _ _ _ _ _ _ _ hrel hjob₁ hrun₁ hround₁ hrun₂ hround₂ with
            ⟨rfl, hrel'⟩
          exact ⟨by rw [List.map_append, List.map_append, hsame]; rfl, hrel'⟩

end Rounds

/-- A run of the rest of the loop extends a history of the jobs done to one of
    all jobs. -/
theorem rounds_of_loop_runs {done rest : List ι} {h : List (Round E R S O)} {s t : S}
    {tr : List (Event E R)} {os : List O} (hr : Rounds body (done ++ rest) s₀ h s)
    (hlen : h.length = done.length) (hrun : (loop body done.length rest s).Runs tr (os, t)) :
    ∃ h', Rounds body (done ++ rest) s₀ (h ++ h') t ∧ tr = callsOf h' ∧
      os = h'.map Round.outcome ∧ h'.length = rest.length := by
  induction rest generalizing done h s tr os with
  | nil =>
      rcases hrun with ⟨rfl, heq⟩
      rw [Prod.mk.injEq] at heq
      rcases heq with ⟨rfl, rfl⟩
      exact ⟨[], by rwa [List.append_nil h], rfl, rfl, rfl⟩
  | cons job rest ih =>
      rcases Program.runs_bind.mp hrun with ⟨t₁, t₂, ⟨o, s'⟩, rfl, hbody, hrest⟩
      rcases Program.runs_bind.mp hrest with ⟨t₃, t₄, ⟨os', u⟩, rfl, hloop, rfl, heq⟩
      rw [Prod.mk.injEq] at heq
      rcases heq with ⟨rfl, rfl⟩
      -- The history has a round for each job done, so the next one is `job`.
      have hjob : (done ++ job :: rest)[h.length]? = some job := by
        rw [hlen, List.getElem?_append_right (Nat.le_refl _), Nat.sub_self,
          List.getElem?_cons_zero]
      have hround := Rounds.round hr hjob (by rwa [hlen])
      rw [List.append_cons] at hround ⊢
      rcases ih hround (by rw [List.length_append, List.length_append, hlen]; rfl)
          (by rw [List.length_append]; exact hloop) with ⟨h', hr', rfl, rfl, hlen'⟩
      refine ⟨⟨s, t₁, o, s'⟩ :: h', ?_, ?_, rfl, by rw [List.length_cons, List.length_cons, hlen']⟩
      · rw [List.append_cons h]
        exact hr'
      · rw [List.append_nil]
        rfl

/-- A run of the loop is a history covering every job. -/
theorem loop_runs_rounds {t : S} {tr : List (Event E R)} {os : List O}
    (hrun : (loop body 0 jobs s₀).Runs tr (os, t)) :
    ∃ h, Rounds body jobs s₀ h t ∧ tr = callsOf h ∧ os = h.map Round.outcome ∧
      h.length = jobs.length := by
  have hstart : Rounds body ([] ++ jobs) s₀ [] s₀ := .start
  have h := rounds_of_loop_runs hstart rfl hrun
  simpa only [List.nil_append] using h

/-- A loop is safe when its body is, from every state a history can leave. -/
theorem loop_safe (hbody : ∀ h s job, Rounds body jobs s₀ h s → jobs[h.length]? = some job →
    (body h.length job s).Safe) : (loop body 0 jobs s₀).Safe := by
  -- By induction on the jobs left, each round extending the history.
  have key : ∀ (rest done : List ι) (h : List (Round E R S O)) (s : S), done ++ rest = jobs →
      h.length = done.length → Rounds body jobs s₀ h s →
      (loop body done.length rest s).Safe := by
    intro rest
    induction rest with
    | nil => intro _ _ _ _ _ _; trivial
    | cons job rest ih =>
        intro done h s hjobs hlen hr
        have hjob : jobs[h.length]? = some job := by
          rw [← hjobs, hlen, List.getElem?_append_right (Nat.le_refl _), Nat.sub_self,
            List.getElem?_cons_zero]
        have hb := hbody h s job hr hjob
        rw [hlen] at hb
        refine Program.safe_bind hb (fun tr out hrun => ?_)
        have hround := Rounds.round hr hjob (by rw [hlen]; exact hrun)
        refine Program.safe_bind ?_ (fun _ _ _ => trivial)
        have hnext := ih (done ++ [job]) _ _ ((List.append_cons done job rest).symm.trans hjobs)
          (by rw [List.length_append, List.length_append, hlen]; rfl) hround
        rwa [List.length_append] at hnext
  exact key jobs [] [] s₀ rfl rfl .start

end Interact

end Netfyr
