import Netfyr.Executor.History

/-!
# What a Step Does to the World

A step seen from outside, against any environment that only writes change and
whose inventories show its state. The cached observation shows the state before
and after the step, and the step has left the world alone, or sent the one write
it decided on from what it was shown.

## Main definitions

* `Faithful`: Inventories show the state, and nothing but a write changes it.
* `Acted`: What a step did to the world.

## Theorems

* `Stepped.acted`: A step does one of these things.
* `RanOperation.acted`: So does a round.
* `History.acted`: What the rounds keep holds after any history.
-/

namespace Netfyr

open Interact

variable {K : Type}

/-- Inventories that succeed show the state, and only writes change it. -/
structure Faithful (env : Environment K IoCall IoAnswer) (Shows : Observation → K → Prop) :
    Prop where
  inventory : ∀ {k answer k'}, env k .inventory answer k' →
    k' = k ∧ ∀ observation, answer = .ok observation → Shows observation k
  now : ∀ {k answer k'}, env k .now answer k' → k' = k
  cancelled : ∀ {k answer k'}, env k .cancelled answer k' → k' = k

/-- What a step did to the world: nothing, or a write decided on from what it was
    shown. -/
inductive Acted (env : Environment K IoCall IoAnswer) (Shows : Observation → K → Prop)
    (diff : StateDiff) (namespaceId : NamespaceId) (index : Nat) (op : Operation) (s : Execution)
    (k : K) : Except BackendError (Option SkipReason) → K → Prop where
  | failed (e : BackendError) : Acted env Shows diff namespaceId index op s k (.error e) k
  | skipped {decoded : Option OperationKind} {observation : Observation} {reason : SkipReason}
      {groups : Groups} : Shows observation k → decode op.kind .new = .ok decoded →
      check diff namespaceId index op decoded observation s.groups s.eligible =
        some (.ok (.skip reason), groups) →
      Acted env Shows diff namespaceId index op s k (.ok (some reason)) k
  | executed {observation : Observation} {groups : Groups} {position : Nat}
      {device : DeviceObservation} {kind : OperationKind} {answer : Except BackendError Unit}
      {r : Except BackendError (Option SkipReason)} {k' : K} : Shows observation k →
      decode op.kind .new = .ok (some kind) →
      DecidedWrite diff namespaceId index op (some kind) observation s.groups groups s.eligible
        position device kind →
      env k (.execute op.target kind) answer k' → (∀ skip, r = .ok skip → answer = .ok ()) →
      (∀ reason, r ≠ .ok (some reason)) →
      Acted env Shows diff namespaceId index op s k r k'

variable {env : Environment K IoCall IoAnswer} {Shows : Observation → K → Prop} {diff : StateDiff}
  {namespaceId : NamespaceId} {index : Nat} {op : Operation} {s s' : Execution} {k k' : K}
  {tr : List IoEvent}

/-- Observing changes nothing, and shows the state. -/
theorem Observed.faithful (hf : Faithful env Shows) {observation : Observation}
    (h : Observed s tr observation s') (hadmits : Admits env k tr k')
    (hshows : ∀ observation, s.current = some observation → Shows observation k) :
    k' = k ∧ Shows observation k ∧ s'.current = some observation ∧ s'.groups = s.groups := by
  cases h with
  | cached hc => exact ⟨hadmits, hshows observation hc, hc, rfl⟩
  | fetched hc =>
      rcases hadmits with ⟨_, hanswer, rfl⟩
      rcases hf.inventory hanswer with ⟨rfl, hreport⟩
      exact ⟨rfl, hreport observation rfl, rfl, rfl⟩

/-- The decision of a step is made on an observation that shows the state. -/
theorem Decided.faithful (hf : Faithful env Shows) {decoded : Option OperationKind}
    {observation : Observation} {verdict : Except BackendError Verdict} {groups : Groups}
    (h : Decided diff namespaceId index op s tr decoded observation verdict groups s')
    (hadmits : Admits env k tr k')
    (hshows : ∀ observation, s.current = some observation → Shows observation k) :
    k' = k ∧ Shows observation k ∧ s'.current = some observation ∧
      check diff namespaceId index op decoded observation s.groups s.eligible =
        some (verdict, groups) := by
  rcases h.observed.faithful hf hadmits hshows with ⟨hsame, hshown, hcurrent, hgroups⟩
  have hchecked := h.checked
  rw [hgroups, h.observed.eligible] at hchecked
  exact ⟨hsame, hshown, hcurrent, hchecked⟩

/-- A write is stopped before it is sent, or sent once, and what is cached after it
    shows the state. -/
theorem Wrote.faithful (hf : Faithful env Shows) {device : DeviceObservation}
    {kind : OperationKind} {result : Except BackendError DeviceObservation}
    (h : Wrote diff namespaceId index op device kind s tr result s')
    (hadmits : Admits env k tr k')
    (hshows : ∀ observation, s.current = some observation → Shows observation k) :
    (∀ observation, s'.current = some observation → Shows observation k') ∧
      ((k' = k ∧ ∃ e, result = .error e) ∨
        ∃ answer, env k (.execute op.target kind) answer k' ∧
          ∀ predicted, result = .ok predicted → answer = .ok ()) := by
  have hnone : ∀ {t : Execution}, t.current = none → ∀ observation,
      t.current = some observation → Shows observation k' := by
    intro t hnone observation hc
    exact absurd (hnone.symm.trans hc) (by simp)
  cases h with
  | stopped =>
      rcases hadmits with ⟨_, hcancelled, rfl⟩
      obtain rfl := hf.cancelled hcancelled
      exact ⟨hshows, Or.inl ⟨rfl, _, rfl⟩⟩
  | rejected =>
      rcases hadmits with ⟨_, hcancelled, _, hwrite, rfl⟩
      obtain rfl := hf.cancelled hcancelled
      exact ⟨hnone rfl, Or.inr ⟨_, hwrite, fun _ habs => absurd habs (by simp)⟩⟩
  | scalar _ =>
      rcases hadmits with ⟨_, hcancelled, _, hwrite, _, hclock, rfl⟩
      obtain rfl := hf.cancelled hcancelled
      obtain rfl := hf.now hclock
      exact ⟨hnone rfl, Or.inr ⟨_, hwrite, fun _ _ => rfl⟩⟩
  | unobserved _ =>
      rcases hadmits with ⟨_, hcancelled, _, hwrite, _, hclock, _, hshown, rfl⟩
      obtain rfl := hf.cancelled hcancelled
      obtain rfl := hf.now hclock
      obtain rfl := (hf.inventory hshown).1
      exact ⟨hnone rfl, Or.inr ⟨_, hwrite, fun _ _ => rfl⟩⟩
  | misverified _ _ =>
      rcases hadmits with ⟨_, hcancelled, _, hwrite, _, hclock, _, hshown, rfl⟩
      obtain rfl := hf.cancelled hcancelled
      obtain rfl := hf.now hclock
      obtain rfl := (hf.inventory hshown).1
      exact ⟨hnone rfl, Or.inr ⟨_, hwrite, fun _ _ => rfl⟩⟩
  | verified _ _ =>
      rcases hadmits with ⟨_, hcancelled, _, hwrite, _, hclock, _, hshown, rfl⟩
      obtain rfl := hf.cancelled hcancelled
      obtain rfl := hf.now hclock
      rcases hf.inventory hshown with ⟨rfl, hreport⟩
      refine ⟨fun observation hc => ?_, Or.inr ⟨_, hwrite, fun _ _ => rfl⟩⟩
      obtain rfl := Option.some.inj hc
      exact hreport _ rfl

/-- What a step does to the world, and that what is cached after it shows the
    state. -/
theorem Stepped.acted (hf : Faithful env Shows) {r : Except BackendError (Option SkipReason)}
    (h : Stepped diff false namespaceId index op s tr r s') (hadmits : Admits env k tr k')
    (hshows : ∀ observation, s.current = some observation → Shows observation k) :
    (∀ observation, s'.current = some observation → Shows observation k') ∧
      Acted env Shows diff namespaceId index op s k r k' := by
  have hopened : ∀ {answer : Bool} {rest : List IoEvent},
      Admits env k (⟨.cancelled, answer⟩ :: rest) k' → Admits env k rest k' := by
    rintro answer rest ⟨_, hcancelled, hrest⟩
    obtain rfl := hf.cancelled hcancelled
    exact hrest
  have hseen : ∀ {t : Execution} {observation : Observation} {k' : K},
      t.current = some observation → Shows observation k' →
      ∀ observation, t.current = some observation → Shows observation k' := by
    intro t observation k' hcurrent hshown found hc
    exact Option.some.inj (hcurrent.symm.trans hc) ▸ hshown
  cases h with
  | cancelled =>
      obtain rfl : k' = k := hopened hadmits
      exact ⟨hshows, .failed _⟩
  | undecoded _ =>
      obtain rfl : k' = k := hopened hadmits
      exact ⟨hshows, .failed _⟩
  | unobserved _ _ =>
      rcases hopened hadmits with ⟨_, hanswer, rfl⟩
      obtain rfl := (hf.inventory hanswer).1
      exact ⟨hshows, .failed _⟩
  | refused hd =>
      rcases hd.faithful hf (hopened hadmits) hshows with ⟨rfl, hshown, hcurrent, _⟩
      exact ⟨hseen hcurrent hshown, .failed _⟩
  | skipped hd =>
      rcases hd.faithful hf (hopened hadmits) hshows with ⟨rfl, hshown, hcurrent, hchecked⟩
      exact ⟨hseen hcurrent hshown, .skipped hshown hd.decode hchecked⟩
  | projected hmode _ => exact absurd hmode Bool.false_ne_true
  | unwritten _ hd hw =>
      rcases admits_append.mp (hopened hadmits) with ⟨_, hobserved, hwrite⟩
      rcases hd.faithful hf hobserved hshows with ⟨rfl, hshown, hcurrent, hchecked⟩
      have hdecided := check_write hchecked
      obtain rfl := hdecided.decoded
      rcases hw.faithful hf hwrite (hseen hcurrent hshown) with
        ⟨hafter, ⟨rfl, _⟩ | ⟨answer, hsent, _⟩⟩
      · exact ⟨hafter, .failed _⟩
      · exact ⟨hafter, .executed hshown hd.decode hdecided hsent
          (fun _ habs => absurd habs (by simp)) fun _ => by simp⟩
  | written _ hd hw =>
      rcases admits_append.mp (hopened hadmits) with ⟨_, hobserved, hwrite⟩
      rcases hd.faithful hf hobserved hshows with ⟨rfl, hshown, hcurrent, hchecked⟩
      have hdecided := check_write hchecked
      obtain rfl := hdecided.decoded
      rcases hw.faithful hf hwrite (hseen hcurrent hshown) with
        ⟨hafter, ⟨_, _, habs⟩ | ⟨answer, hsent, hacknowledged⟩⟩
      · exact absurd habs (by simp)
      · exact ⟨hafter, .executed hshown hd.decode hdecided hsent
          (fun _ _ => hacknowledged _ rfl) fun _ => by simp⟩

/-- What a round does to the world: nothing when its operation was malformed or
    blocked, else what its step does. -/
theorem RanOperation.acted (hf : Faithful env Shows) {outcome : Outcome}
    (h : RanOperation diff false namespaceId index op s tr outcome s')
    (hadmits : Admits env k tr k')
    (hshows : ∀ observation, s.current = some observation → Shows observation k) :
    (∀ observation, s'.current = some observation → Shows observation k') ∧
      ((k' = k ∧ outcome.isEligible = false) ∨ ∃ r, outcome = outcomeOf r ∧
        Acted env Shows diff namespaceId index op s k r k') := by
  cases h with
  | malformed _ =>
      obtain rfl : k' = k := hadmits
      exact ⟨hshows, Or.inl ⟨rfl, rfl⟩⟩
  | blocked _ _ _ =>
      obtain rfl : k' = k := hadmits
      exact ⟨hshows, Or.inl ⟨rfl, rfl⟩⟩
  | @stepped _ result s₁ _ _ hstep =>
      rcases (step_cases hstep).acted hf hadmits hshows with ⟨hafter, hacted⟩
      refine ⟨?_, Or.inr ⟨result, rfl, hacted⟩⟩
      cases result <;> exact hafter

/-- What holds at the start of a run and is kept by what its rounds do to the world
    holds after any history, when what is cached shows the state. -/
theorem History.acted (hf : Faithful env Shows) {P : List ExecRound → K → Prop} {start : K}
    (hstart : P [] start)
    (hround : ∀ h s s' op tr outcome k k', History diff false namespaceId h s →
      (∀ observation, s.current = some observation → Shows observation k) → P h k →
      diff.operations[h.length]? = some op →
      ((k' = k ∧ outcome.isEligible = false) ∨ ∃ r, outcome = outcomeOf r ∧
        Acted env Shows diff namespaceId h.length op s k r k') →
      P (h ++ [⟨s, tr, outcome, s'⟩]) k')
    {h : List ExecRound} (hr : History diff false namespaceId h s)
    (hadmits : Admits env start (callsOf h) k) :
    P h k ∧ ∀ observation, s.current = some observation → Shows observation k := by
  refine Rounds.admitted (P := fun h s k => P h k ∧
    ∀ observation, s.current = some observation → Shows observation k) ?_ ?_ hr hadmits
  · exact ⟨hstart, fun observation hc => absurd hc (by simp [Execution.start])⟩
  · intro h s s' op tr outcome k k' hr ⟨hinv, hshows⟩ hop hrun hcalls
    rcases (runOperation_cases hrun).acted hf hcalls hshows with ⟨hafter, hacted⟩
    exact ⟨hround h s s' op tr outcome k k' hr hshows hinv hop hacted, hafter⟩

end Netfyr
