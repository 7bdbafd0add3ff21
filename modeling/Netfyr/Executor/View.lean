import Mathlib.Data.List.Induction
import Netfyr.Executor.History

/-!
# The View Behind a Write

The trace of a run shows, at every point, what is known of the devices: the
answer of the last inventory, unless a write or a failed inventory came after
it. This is the view, read off the trace alone. The executor keeps a copy of it,
taken in one place, dropped in another and refilled by the verification; the
invariant of this module is that the copy, where there is one, is the view. What
a write is decided on is therefore never older than the last write.

## Main definitions

* `isExecute`, `isObservation`, `isIo`: Kinds of events.
* `view`: The view a trace shows.
* `Execution.Current`: The cached observation is the view.
* `Executed`: A step that sends a write, cut at the write.

## Theorems

* `view_eq_some`: A view is the answer of the last inventory.
* `Stepped.executed`: A step sends a write at one point.
* `Stepped.current`, `History.current`: The cache is the view in every run.
* `Executed.view`: A write is decided on the view.
* `RunHistory.executed`: A write of a run is sent in one of its rounds.
-/

namespace Netfyr

open Interact

/-- Whether an event is a write. -/
def isExecute : IoEvent → Bool
  | ⟨.execute _ _, _⟩ => true
  | _ => false

theorem isExecute_iff {event : IoEvent} : isExecute event = true ↔
    ∃ target kind answer, event = ⟨.execute target kind, answer⟩ := by
  constructor
  · intro h
    rcases event with ⟨_ | ⟨target, kind⟩ | _ | _, answer⟩
    · exact absurd h Bool.false_ne_true
    · exact ⟨target, kind, answer, rfl⟩
    · exact absurd h Bool.false_ne_true
    · exact absurd h Bool.false_ne_true
  · rintro ⟨target, kind, answer, rfl⟩
    rfl

/-- Whether an event is an inventory that succeeded. -/
def isObservation : IoEvent → Bool
  | ⟨.inventory, .ok _⟩ => true
  | _ => false

/-- Whether an event is an inventory or a write. -/
def isIo : IoEvent → Bool
  | ⟨.inventory, _⟩ => true
  | ⟨.execute _ _, _⟩ => true
  | _ => false

/-- What an event makes of a view. -/
def viewStep : Option Observation → IoEvent → Option Observation
  | _, ⟨.inventory, .ok observation⟩ => some observation
  | _, ⟨.inventory, .error _⟩ => none
  | _, ⟨.execute _ _, _⟩ => none
  | known, ⟨.now, _⟩ => known
  | known, ⟨.cancelled, _⟩ => known

/-- The view a trace shows: the last inventory, if it succeeded and no write
    followed it. -/
def view (tr : List IoEvent) : Option Observation := tr.foldl viewStep none

@[simp] theorem view_nil : view [] = none := rfl

theorem view_append (t₁ t₂ : List IoEvent) : view (t₁ ++ t₂) = t₂.foldl viewStep (view t₁) :=
  List.foldl_append

theorem view_concat (tr : List IoEvent) (event : IoEvent) :
    view (tr ++ [event]) = viewStep (view tr) event :=
  view_append tr [event]

/-- A view is the answer of the last inventory, with no write since. -/
theorem view_eq_some {tr : List IoEvent} {observation : Observation} :
    view tr = some observation ↔
      ∃ before since, tr = before ++ ⟨.inventory, .ok observation⟩ :: since ∧
        ∀ event ∈ since, isIo event = false := by
  constructor
  · intro h
    induction tr using List.reverseRecOn with
    | nil => exact absurd h (by simp only [view_nil, reduceCtorEq, not_false_eq_true])
    | append_singleton tr event ih =>
        rw [view_concat] at h
        -- Only a clock reading or a cancellation check keeps an older view.
        have hquiet : isIo event = false → ∃ before since,
            tr ++ [event] = before ++ ⟨.inventory, .ok observation⟩ :: since ∧
              ∀ event ∈ since, isIo event = false := by
          intro hevent
          have hview : view tr = some observation := by
            rcases event with ⟨_ | _ | _ | _, answer⟩
            · exact absurd hevent (by simp only [isIo, Bool.true_eq_false, not_false_eq_true])
            · exact absurd hevent (by simp only [isIo, Bool.true_eq_false, not_false_eq_true])
            · exact h
            · exact h
          rcases ih hview with ⟨before, since, rfl, hsince⟩
          refine ⟨before, since ++ [event], by rw [List.append_assoc, List.cons_append], ?_⟩
          intro ev hmem
          rcases List.mem_append.mp hmem with hmem | hmem
          · exact hsince ev hmem
          · rw [List.mem_singleton.mp hmem, hevent]
        rcases event with ⟨_ | _ | _ | _, answer⟩
        · rcases answer with e | found
          · exact absurd h (by simp only [viewStep, reduceCtorEq, not_false_eq_true])
          · obtain rfl := Option.some.inj h
            exact ⟨tr, [], rfl, fun _ hmem => absurd hmem List.not_mem_nil⟩
        · exact absurd h (by simp only [viewStep, reduceCtorEq, not_false_eq_true])
        · exact hquiet rfl
        · exact hquiet rfl
  · rintro ⟨before, since, rfl, hsince⟩
    rw [view_append, List.foldl_cons]
    change since.foldl viewStep (some observation) = some observation
    induction since with
    | nil => rfl
    | cons event since ih =>
        rw [List.forall_mem_cons] at hsince
        rw [List.foldl_cons]
        rcases event with ⟨_ | _ | _ | _, answer⟩
        · exact absurd hsince.1 (by simp only [isIo, Bool.true_eq_false, not_false_eq_true])
        · exact absurd hsince.1 (by simp only [isIo, Bool.true_eq_false, not_false_eq_true])
        · exact ih hsince.2
        · exact ih hsince.2

/-- The cached observation is the view of the calls made so far. -/
def Execution.Current (self : Execution) (tr : List IoEvent) : Prop :=
  ∀ observation, self.current = some observation → view tr = some observation

variable {diff : StateDiff} {preview : Bool} {namespaceId : NamespaceId} {index : Nat}
  {op : Operation}

/-- What was observed is the view, and is cached. -/
theorem Observed.view {s s' : Execution} {tr t₀ : List IoEvent} {observation : Observation}
    (h : Observed s tr observation s') (hs : s.Current t₀) :
    Netfyr.view (t₀ ++ ⟨.cancelled, false⟩ :: tr) = some observation ∧
      s'.current = some observation := by
  cases h with
  | cached hc => exact ⟨(view_append t₀ _).trans (hs observation hc), hc⟩
  | fetched hc => exact ⟨by rw [view_append]; rfl, rfl⟩

/-- A write leaves no cached observation, or the one that verified it; one that
    is not sent leaves the cache alone. -/
theorem Wrote.current {s s' : Execution} {tr t₀ : List IoEvent} {device : DeviceObservation}
    {kind : OperationKind} {r : Except BackendError DeviceObservation}
    (h : Wrote diff namespaceId index op device kind s tr r s') (hs : s.Current t₀) :
    s'.Current (t₀ ++ tr) := by
  intro observation hc
  cases h with
  | stopped => exact (view_append t₀ _).trans (hs observation hc)
  | rejected => exact absurd hc (by simp only [reduceCtorEq, not_false_eq_true])
  | scalar _ => exact absurd hc (by simp only [reduceCtorEq, not_false_eq_true])
  | unobserved _ => exact absurd hc (by simp only [reduceCtorEq, not_false_eq_true])
  | misverified _ _ =>
      exact absurd hc (by simp only [Execution.absorb, reduceCtorEq, not_false_eq_true])
  | verified _ _ =>
      rw [view_append]
      exact hc

/-- When plans are applied, the cache stays the view. -/
theorem Stepped.current {s s' : Execution} {tr t₀ : List IoEvent}
    {r : Except BackendError (Option SkipReason)}
    (h : Stepped diff false namespaceId index op s tr r s') (hs : s.Current t₀) :
    s'.Current (t₀ ++ tr) := by
  have hdecided : ∀ {tr decoded observation verdict groups s₁},
      Decided diff namespaceId index op s tr decoded observation verdict groups s₁ →
      ({ s₁ with groups } : Execution).Current (t₀ ++ ⟨.cancelled, false⟩ :: tr) := by
    intro tr decoded observation verdict groups s₁ hd found hc
    have hview := hd.observed.view hs
    rw [hview.1]
    exact hview.2.symm.trans hc
  cases h with
  | cancelled => exact fun found hc => (view_append t₀ _).trans (hs found hc)
  | undecoded _ => exact fun found hc => (view_append t₀ _).trans (hs found hc)
  | unobserved _ hnone =>
      intro found hc
      rw [hnone] at hc
      exact absurd hc (by simp only [reduceCtorEq, not_false_eq_true])
  | refused hd => exact hdecided hd
  | skipped hd => exact hdecided hd
  | projected hmode _ => exact absurd hmode Bool.false_ne_true
  | unwritten _ hd hw =>
      have hcurrent := hw.current (hdecided hd)
      rwa [List.append_assoc, List.cons_append] at hcurrent
  | written _ hd hw =>
      have hcurrent := hw.current (hdecided hd)
      rw [List.append_assoc, List.cons_append] at hcurrent
      exact hcurrent

/-- When plans are applied, the cache is the view after any history. -/
theorem History.current {h : List ExecRound} {s : Execution}
    (hr : History diff false namespaceId h s) : s.Current (callsOf h) := by
  induction hr with
  | start => exact fun observation hc => absurd hc (by simp [Execution.start])
  | @round h s s' op tr outcome hr hop hrun ih =>
      rw [callsOf_append, callsOf_singleton]
      have hcases := runOperation_cases hrun
      cases hcases with
      | malformed _ => rwa [List.append_nil]
      | blocked _ _ _ => rwa [List.append_nil]
      | @stepped _ result s₁ _ _ hstep =>
          have hcurrent := (step_cases hstep).current ih
          cases result <;> exact hcurrent

/-- Observing sends no write. -/
theorem Observed.quiet {s s' : Execution} {tr : List IoEvent} {observation : Observation}
    (h : Observed s tr observation s') : ∀ event ∈ tr, isExecute event = false := by
  cases h with
  | cached _ => exact fun event hmem => absurd hmem List.not_mem_nil
  | fetched _ =>
      intro event hmem
      rw [List.mem_singleton.mp hmem]
      rfl

/-- Nor does observing and making one more call that is none. -/
theorem Observed.quiet_concat {s s' : Execution} {tr : List IoEvent} {observation : Observation}
    {event : IoEvent} (h : Observed s tr observation s') (hevent : isExecute event = false) :
    ∀ event' ∈ tr ++ [event], isExecute event' = false := by
  rw [List.forall_mem_append, List.forall_mem_singleton]
  exact ⟨h.quiet, hevent⟩

/-- A write is stopped before it is sent, or sent once. -/
theorem Wrote.sent {s s' : Execution} {tr : List IoEvent} {device : DeviceObservation}
    {kind : OperationKind} {r : Except BackendError DeviceObservation}
    (h : Wrote diff namespaceId index op device kind s tr r s') :
    tr = [⟨.cancelled, true⟩] ∨
      ∃ answer after, tr = ⟨.cancelled, false⟩ :: ⟨.execute op.target kind, answer⟩ :: after ∧
        ∀ event ∈ after, isExecute event = false := by
  cases h with
  | stopped => exact Or.inl rfl
  | rejected => exact Or.inr ⟨_, [], rfl, fun event hmem => absurd hmem List.not_mem_nil⟩
  | scalar _ => exact Or.inr ⟨_, _, rfl, by simp [isExecute]⟩
  | unobserved _ => exact Or.inr ⟨_, _, rfl, by simp [isExecute]⟩
  | misverified _ _ => exact Or.inr ⟨_, _, rfl, by simp [isExecute]⟩
  | verified _ _ => exact Or.inr ⟨_, _, rfl, by simp [isExecute]⟩

/-- How a step ends once its write has. -/
def Concluded (op : Operation) (device : DeviceObservation) (kind : OperationKind)
    (s : Execution) (r : Except BackendError (Option SkipReason)) (s' : Execution) :
    Except BackendError DeviceObservation → Prop
  | .error e => r = .error e ∧ s' = s
  | .ok predicted => r = .ok none ∧ s' = s.committed op device kind predicted

/-- A step that sends a write, cut at the write: what it was decided on before,
    and how it went on. -/
structure Executed (diff : StateDiff) (namespaceId : NamespaceId) (index : Nat) (op : Operation)
    (s : Execution) (before : List IoEvent) (kind : OperationKind)
    (answer : Except BackendError Unit) (after : List IoEvent)
    (r : Except BackendError (Option SkipReason)) (s' : Execution) (observed : List IoEvent)
    (observation : Observation) (position : Nat) (device : DeviceObservation) (groups : Groups)
    (s₁ s₂ : Execution) (result : Except BackendError DeviceObservation) : Prop where
  cut : before = ⟨.cancelled, false⟩ :: (observed ++ [⟨.cancelled, false⟩])
  quiet : ∀ event ∈ after, isExecute event = false
  decided : Decided diff namespaceId index op s observed (some kind) observation
    (.ok (.write position device kind)) groups s₁
  wrote : Wrote diff namespaceId index op device kind { s₁ with groups }
    (⟨.cancelled, false⟩ :: ⟨.execute op.target kind, answer⟩ :: after) result s₂
  concluded : Concluded op device kind s₂ r s' result

/-- A step sends a write to its target at one point, when plans are applied. -/
theorem Stepped.executed {s s' : Execution} {tr before after : List IoEvent}
    {r : Except BackendError (Option SkipReason)} {target : InterfaceId} {kind : OperationKind}
    {answer : Except BackendError Unit}
    (h : Stepped diff preview namespaceId index op s tr r s')
    (hsplit : tr = before ++ ⟨.execute target kind, answer⟩ :: after) :
    preview = false ∧ target = op.target ∧
      ∃ observed observation position device groups s₁ s₂ result,
        Executed diff namespaceId index op s before kind answer after r s' observed observation
          position device groups s₁ s₂ result := by
  have hmem : (⟨.execute target kind, answer⟩ : IoEvent) ∈ tr := by
    rw [hsplit]
    exact List.mem_append_right before List.mem_cons_self
  -- A step whose calls are all quiet sends nothing.
  have hquiet : ∀ {observed : List IoEvent}, (∀ event ∈ observed, isExecute event = false) →
      (⟨.execute target kind, answer⟩ : IoEvent) ∈ (⟨.cancelled, false⟩ :: observed : List _) →
      False := by
    intro observed hall hin
    rcases List.mem_cons.mp hin with heq | hin
    · exact absurd heq (by simp)
    · exact absurd (hall _ hin) (by simp [isExecute])
  -- A write decided on and carried out is cut where it was sent.
  have hcut : ∀ {observed tw decoded observation position device kind' groups s₁ s₂ result},
      Decided diff namespaceId index op s observed decoded observation
        (.ok (.write position device kind')) groups s₁ →
      Wrote diff namespaceId index op device kind' { s₁ with groups } tw result s₂ →
      Concluded op device kind' s₂ r s' result → tr = ⟨.cancelled, false⟩ :: (observed ++ tw) →
      target = op.target ∧ ∃ observed observation position device groups s₁ s₂ result,
        Executed diff namespaceId index op s before kind answer after r s' observed observation
          position device groups s₁ s₂ result := by
    intro observed tw decoded observation position device kind' groups s₁ s₂ result hd hw hc htr
    rcases hw.sent with rfl | ⟨answer', after', rfl, hafter⟩
    · rw [htr] at hmem
      exact (hquiet (hd.observed.quiet_concat rfl) hmem).elim
    · have hsame : (⟨.cancelled, false⟩ :: (observed ++ [⟨.cancelled, false⟩])) ++
          (⟨.execute op.target kind', answer'⟩ : IoEvent) :: after' =
          before ++ ⟨.execute target kind, answer⟩ :: after := by
        rw [← hsplit, htr, List.cons_append, List.append_assoc, List.singleton_append]
      have hbefore : ∀ event ∈
          (⟨.cancelled, false⟩ :: (observed ++ [⟨.cancelled, false⟩]) : List IoEvent),
          isExecute event = false := by
        rw [List.forall_mem_cons]
        exact ⟨rfl, hd.observed.quiet_concat rfl⟩
      rcases append_cons_unique hsame rfl rfl hbefore hafter with ⟨rfl, hevent, rfl⟩
      simp only [Sigma.mk.injEq, IoCall.execute.injEq] at hevent
      rcases hevent with ⟨⟨rfl, rfl⟩, hanswer⟩
      obtain rfl := eq_of_heq hanswer
      have hdecoded := (check_write hd.checked).decoded
      subst hdecoded
      exact ⟨rfl, observed, observation, position, device, groups, s₁, s₂, result, rfl, hafter,
        hd, hw, hc⟩
  cases h with
  | cancelled => exact absurd hmem (by simp)
  | undecoded _ => exact absurd hmem (by simp)
  | unobserved _ _ => exact absurd hmem (by simp)
  | refused hd => exact (hquiet hd.observed.quiet hmem).elim
  | skipped hd => exact (hquiet hd.observed.quiet hmem).elim
  | projected _ hd =>
      exact (hquiet (hd.observed.quiet_concat rfl) hmem).elim
  | unwritten hmode hd hw => exact ⟨hmode, hcut hd hw ⟨rfl, rfl⟩ rfl⟩
  | written hmode hd hw => exact ⟨hmode, hcut hd hw ⟨rfl, rfl⟩ rfl⟩

namespace Executed

variable {s s' s₁ s₂ : Execution} {before after observed : List IoEvent} {kind : OperationKind}
  {answer : Except BackendError Unit} {r : Except BackendError (Option SkipReason)}
  {observation : Observation} {position : Nat} {device : DeviceObservation} {groups : Groups}
  {result : Except BackendError DeviceObservation}

/-- What a write was decided on. -/
theorem decision (h : Executed diff namespaceId index op s before kind answer after r s' observed
    observation position device groups s₁ s₂ result) :
    DecidedWrite diff namespaceId index op (some kind) observation s₁.groups groups s₁.eligible
      position device kind :=
  check_write h.decided.checked

/-- Nothing is written before the write. -/
theorem quietBefore (h : Executed diff namespaceId index op s before kind answer after r s' observed
    observation position device groups s₁ s₂ result) :
    ∀ event ∈ before, isExecute event = false := by
  rw [h.cut, List.forall_mem_cons, List.forall_mem_append]
  exact ⟨rfl, h.decided.observed.quiet, fun event hin => by rw [List.mem_singleton.mp hin]; rfl⟩

/-- A write is decided on the view. -/
theorem view (h : Executed diff namespaceId index op s before kind answer after r s' observed
    observation position device groups s₁ s₂ result) {t₀ : List IoEvent} (hs : s.Current t₀) :
    Netfyr.view (t₀ ++ before) = some observation := by
  have hview := (h.decided.observed.view hs).1
  rw [h.cut, ← List.cons_append, ← List.append_assoc, view_concat, hview]
  rfl

end Executed

/-- A write of a run is sent in one of its rounds, when plans are applied. -/
theorem RunHistory.executed {tr before after : List IoEvent} {report : ApplyReport}
    {h : List ExecRound} {target : InterfaceId} {kind : OperationKind}
    {answer : Except BackendError Unit} (hr : RunHistory diff preview namespaceId tr report h)
    (hsplit : tr = before ++ ⟨.execute target kind, answer⟩ :: after) :
    preview = false ∧ ∃ i op r own rest, RoundAt diff preview namespaceId h i op r ∧
      before = callsOf (h.take i) ++ own ∧ after = rest ++ callsOf (h.drop (i + 1)) ∧
      r.calls = own ++ ⟨.execute target kind, answer⟩ :: rest ∧ target = op.target ∧
      ∃ result s', r.outcome = outcomeOf result ∧ r.after = s'.settle i result ∧
        ∃ observed observation position device groups s₁ s₂ written,
          Executed diff namespaceId i op r.before own kind answer rest result s' observed
            observation position device groups s₁ s₂ written := by
  rcases hr.history with ⟨s, hs, _⟩
  rcases callsOf_split (hr.trace.symm.trans hsplit) with ⟨i, r, own, rest, hi, hcalls, rfl, rfl⟩
  rcases hs.roundAt hi with ⟨op, hat⟩
  have hran := hat.ran
  rcases r with ⟨s₀, calls, outcome, s'⟩
  cases hran with
  | malformed _ => exact absurd hcalls.symm (List.append_ne_nil_of_right_ne_nil _ (by simp))
  | blocked _ _ _ => exact absurd hcalls.symm (List.append_ne_nil_of_right_ne_nil _ (by simp))
  | stepped hearlier hblocked hstep =>
      rcases (step_cases hstep).executed hcalls with ⟨hmode, rfl, hexecuted⟩
      exact ⟨hmode, i, op, _, own, rest, hat, rfl, rfl, hcalls, rfl, _, _, rfl, rfl, hexecuted⟩

end Netfyr
