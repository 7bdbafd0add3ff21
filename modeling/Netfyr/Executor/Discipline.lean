import Netfyr.Executor.Ideal
import Netfyr.Executor.Reported
import Netfyr.Executor.View

/-!
# Write Discipline

When the executor writes, read off the trace of a whole run. A preview never
writes and needs one inventory. An application writes once per operation and in
plan order, each time right after reading the state it decided on, and not after
it has seen a cancellation.

The cancellation clause assumes that a cancelled run stays cancelled, which is a
fact about the predicate and not about the executor; on the trace it is
`Sticky`.

## Main definitions

* `Sticky`: Once cancelled, cancelled at every later check.
* `WriteDiscipline`: What holds of every trace.

## Theorems

* `Stepped.preview_calls`: A preview does not write, and observes once.
* `Stepped.opens`: A step starts by checking for cancellation.
* `History.preview_calls`: The same of a preview's whole history.
* `RunHistory.stays_cancelled`: No operation after a cancellation is eligible.
* `run_writeDiscipline`: Every run keeps to the discipline.
-/

namespace Netfyr

open Interact

/-- Once a cancellation check has returned true, every later one does. -/
def Sticky (tr : List IoEvent) : Prop :=
  tr.Pairwise fun earlier later => earlier = ⟨.cancelled, true⟩ →
    ∀ answer, later = ⟨.cancelled, answer⟩ → answer = true

variable {diff : StateDiff} {preview : Bool} {namespaceId : NamespaceId} {index : Nat}
  {op : Operation}

/-- Observing sends no write, and takes an inventory when nothing is cached. -/
theorem Observed.calls {s s' : Execution} {tr : List IoEvent} {observation : Observation}
    (h : Observed s tr observation s') :
    tr.countP isExecute = 0 ∧
      tr.countP isObservation + s.current.toList.length = s'.current.toList.length := by
  cases h with
  | cached hc => exact ⟨rfl, by rw [List.countP_nil, Nat.zero_add]⟩
  | fetched hc =>
      rw [hc]
      exact ⟨rfl, rfl⟩

/-- A previewed step sends no write, and counts an inventory exactly when it
    fills the cache. -/
theorem Stepped.preview_calls {s s' : Execution} {tr : List IoEvent}
    {r : Except BackendError (Option SkipReason)}
    (h : Stepped diff true namespaceId index op s tr r s') :
    tr.countP isExecute = 0 ∧
      tr.countP isObservation + s.current.toList.length = s'.current.toList.length := by
  cases h with
  | cancelled => exact ⟨rfl, Nat.zero_add _⟩
  | undecoded _ => exact ⟨rfl, Nat.zero_add _⟩
  | unobserved _ _ => exact ⟨rfl, Nat.zero_add _⟩
  | refused hd => exact hd.observed.calls
  | skipped hd => exact hd.observed.calls
  | projected _ hd =>
      have hcalls := hd.observed.calls
      simp only [List.countP_cons, List.countP_append, isExecute, isObservation,
        Bool.false_eq_true, if_false, List.countP_nil, Nat.add_zero, Execution.committed,
        Execution.projected, Option.toList_map, List.length_map]
      exact hcalls
  -- A preview never gets this far.
  | unwritten hmode _ _ => exact absurd hmode Bool.false_ne_true.symm
  | written hmode _ _ => exact absurd hmode Bool.false_ne_true.symm

/-- A preview sends no write, and has taken an inventory exactly when one is
    cached. -/
theorem History.preview_calls {h : List ExecRound} {s : Execution}
    (hr : History diff true namespaceId h s) :
    (callsOf h).countP isExecute = 0 ∧
      (callsOf h).countP isObservation = s.current.toList.length := by
  induction hr with
  | start => exact ⟨rfl, rfl⟩
  | @round h s s' op tr outcome hr hop hrun ih =>
      simp only [callsOf_append, callsOf_singleton, List.countP_append]
      have hcases := runOperation_cases hrun
      cases hcases with
      | malformed _ => exact ih
      | blocked _ _ _ => exact ih
      | @stepped _ result s₁ _ _ hstep =>
          have hcalls := (step_cases hstep).preview_calls
          have hkeep : (s₁.settle h.length result).current = s₁.current := by
            cases result <;> rfl
          rw [hkeep]
          omega

/-- A step starts by checking for cancellation, and a check that says so ends
    it in an error, without a write. -/
theorem Stepped.opens {s s' : Execution} {tr : List IoEvent}
    {r : Except BackendError (Option SkipReason)}
    (h : Stepped diff preview namespaceId index op s tr r s') :
    (∃ answer rest, tr = ⟨.cancelled, answer⟩ :: rest) ∧
      ((⟨.cancelled, true⟩ : IoEvent) ∈ tr →
        (∃ e, r = .error e) ∧ ∀ event ∈ tr, isExecute event = false) := by
  have hobserved : ∀ {s s' tr observation}, Observed s tr observation s' →
      (⟨.cancelled, true⟩ : IoEvent) ∉ tr := by
    intro s s' tr observation h hmem
    cases h with
    | cached _ => exact List.not_mem_nil hmem
    | fetched _ => exact absurd hmem (by simp)
  refine ⟨by cases h <;> exact ⟨_, _, rfl⟩, fun hmem => ?_⟩
  cases h with
  | cancelled => exact ⟨⟨_, rfl⟩, by simp [isExecute]⟩
  | undecoded _ => exact absurd hmem (by simp)
  | unobserved _ _ => exact absurd hmem (by simp)
  | refused hd =>
      rw [List.mem_cons] at hmem
      exact absurd (hmem.resolve_left (by simp)) (hobserved hd.observed)
  | skipped hd =>
      rw [List.mem_cons] at hmem
      exact absurd (hmem.resolve_left (by simp)) (hobserved hd.observed)
  | projected _ hd =>
      rw [List.mem_cons, List.mem_append] at hmem
      have hlast := (hmem.resolve_left (by simp)).resolve_left (hobserved hd.observed)
      exact absurd hlast (by simp)
  | unwritten _ hd hw =>
      rw [List.mem_cons, List.mem_append] at hmem
      have hwrite := (hmem.resolve_left (by simp)).resolve_left (hobserved hd.observed)
      refine ⟨⟨_, rfl⟩, ?_⟩
      -- The only write that sees a cancellation is the one stopped by it.
      cases hw with
      | stopped =>
          intro event hin
          rw [List.mem_cons, List.mem_append, List.mem_singleton] at hin
          rcases hin with rfl | hin | rfl
          · rfl
          · exact hd.observed.quiet event hin
          · rfl
      | rejected => exact absurd hwrite (by simp)
      | unobserved _ => exact absurd hwrite (by simp)
      | misverified _ _ => exact absurd hwrite (by simp)
  | written _ hd hw =>
      rw [List.mem_cons, List.mem_append] at hmem
      have hwrite := (hmem.resolve_left (by simp)).resolve_left (hobserved hd.observed)
      cases hw with
      | scalar _ => exact absurd hwrite (by simp)
      | verified _ _ => exact absurd hwrite (by simp)

/-- A round makes no calls, or is that of a step. -/
theorem RoundAt.stepped {h : List ExecRound} {r : ExecRound}
    (hat : RoundAt diff preview namespaceId h index op r) :
    (r.calls = [] ∧ r.outcome.isEligible = false) ∨
      ∃ result s', r.outcome = outcomeOf result ∧
        Stepped diff preview namespaceId index op r.before r.calls result s' := by
  have hran := hat.ran
  rcases r with ⟨s, calls, outcome, s'⟩
  cases hran with
  | malformed _ => exact Or.inl ⟨rfl, rfl⟩
  | blocked _ _ _ => exact Or.inl ⟨rfl, rfl⟩
  | stepped _ _ hstep => exact Or.inr ⟨_, _, rfl, step_cases hstep⟩

/-- A round writes for its own operation. -/
theorem RoundAt.writes_own {h : List ExecRound} {r : ExecRound} {target : InterfaceId}
    {kind : OperationKind} {answer : Except BackendError Unit}
    (hat : RoundAt diff preview namespaceId h index op r)
    (hmem : (⟨.execute target kind, answer⟩ : IoEvent) ∈ r.calls) :
    target = op.target ∧ decode op.kind .new = .ok (some kind) := by
  rcases hat.stepped with ⟨hnil, _⟩ | ⟨result, s', _, hstepped⟩
  · rw [hnil] at hmem
    exact absurd hmem List.not_mem_nil
  · rcases List.append_of_mem hmem with ⟨before, after, hsplit⟩
    rcases hstepped.executed hsplit with ⟨_, rfl, _, _, _, _, _, _, _, _, hexecuted⟩
    exact ⟨rfl, hexecuted.decided.decode⟩

/-- A round writes once at most. -/
theorem RoundAt.writes_once {h : List ExecRound} {r : ExecRound}
    (hat : RoundAt diff preview namespaceId h index op r) : r.calls.countP isExecute ≤ 1 := by
  rcases hat.stepped with ⟨hnil, _⟩ | ⟨result, s', _, hstepped⟩
  · rw [hnil]
    exact Nat.zero_le 1
  · by_cases hany : ∃ event ∈ r.calls, isExecute event = true
    · -- If there is a write, the calls on either side of it are none.
      rcases hany with ⟨event, hin, hevent⟩
      rcases List.append_of_mem hin with ⟨before, after, hsplit⟩
      rcases isExecute_iff.mp hevent with ⟨target, kind, answer, rfl⟩
      rcases hstepped.executed hsplit with ⟨_, rfl, _, _, _, _, _, _, _, _, hexecuted⟩
      have hbefore : before.countP isExecute = 0 := List.countP_eq_zero.mpr fun event hmem =>
        Bool.eq_false_iff.mp (hexecuted.quietBefore event hmem)
      have hafter : after.countP isExecute = 0 := List.countP_eq_zero.mpr fun event hmem =>
        Bool.eq_false_iff.mp (hexecuted.quiet event hmem)
      rw [hsplit, List.countP_append, List.countP_cons, hbefore, hafter]
      exact Nat.le_refl 1
    · rw [List.countP_eq_zero.mpr fun event hmem hevent => hany ⟨event, hmem, hevent⟩]
      exact Nat.zero_le 1

/-- A round that has seen a cancellation sends no write and ends in an error. -/
theorem RoundAt.cancelled {h : List ExecRound} {r : ExecRound}
    (hat : RoundAt diff preview namespaceId h index op r)
    (hmem : (⟨.cancelled, true⟩ : IoEvent) ∈ r.calls) :
    r.outcome.isEligible = false ∧ ∀ event ∈ r.calls, isExecute event = false := by
  rcases hat.stepped with ⟨hnil, _⟩ | ⟨result, s', hout, hstepped⟩
  · rw [hnil] at hmem
    exact absurd hmem List.not_mem_nil
  · rcases hstepped.opens.2 hmem with ⟨⟨e, rfl⟩, hquiet⟩
    rw [hout]
    exact ⟨rfl, hquiet⟩

namespace RunHistory

variable {tr : List IoEvent} {report : ApplyReport} {h : List ExecRound}

/-- Once a round has seen a cancellation, no later operation writes or is
    eligible. -/
theorem stays_cancelled (hr : RunHistory diff preview namespaceId tr report h)
    (hsticky : Sticky tr) {i j : Nat} {op op' : Operation} {r r' : ExecRound}
    (hat : RoundAt diff preview namespaceId h i op r)
    (hat' : RoundAt diff preview namespaceId h j op' r') (hle : i ≤ j)
    (hmem : (⟨.cancelled, true⟩ : IoEvent) ∈ r.calls) :
    r'.outcome.isEligible = false ∧ ∀ event ∈ r'.calls, isExecute event = false := by
  -- A later round, or the round that saw the cancellation.
  rcases Nat.lt_or_eq_of_le hle with hlt | rfl
  · rcases hat'.stepped with ⟨hnil, hinel⟩ | ⟨result, s', _, hstepped⟩
    · refine ⟨hinel, fun event hin => ?_⟩
      rw [hnil] at hin
      exact absurd hin List.not_mem_nil
    · -- The step's first check comes after the one that said so.
      rcases hstepped.opens.1 with ⟨answer, rest, hcalls⟩
      have hcheck : (⟨.cancelled, answer⟩ : IoEvent) ∈ r'.calls := by
        rw [hcalls]
        exact List.mem_cons_self
      rw [Sticky, hr.trace, callsOf, List.pairwise_flatMap] at hsticky
      rcases List.getElem?_eq_some_iff.mp hat.round with ⟨hi, hri⟩
      rcases List.getElem?_eq_some_iff.mp hat'.round with ⟨hj, hrj⟩
      have hpair := List.pairwise_iff_getElem.mp hsticky.2 i j hi hj hlt
      rw [hri, hrj] at hpair
      have htrue := hpair _ hmem _ hcheck rfl answer rfl
      rw [htrue] at hcheck
      exact hat'.cancelled hcheck
  · have hsame : some r = some r' := hat.round.symm.trans hat'.round
    rw [← Option.some.inj hsame]
    exact hat.cancelled hmem

/-- No write follows a cancellation, in one round or across rounds. -/
theorem uncancelled (hr : RunHistory diff preview namespaceId tr report h)
    (hsticky : Sticky tr) : tr.Pairwise fun earlier later => earlier = ⟨.cancelled, true⟩ →
      isExecute later = false := by
  rcases hr.history with ⟨s, hs, _⟩
  rw [hr.trace, callsOf, List.pairwise_flatMap]
  constructor
  · intro r hin
    refine List.pairwise_of_forall_mem_list fun earlier hx later hy heq => ?_
    rcases List.getElem?_of_mem hin with ⟨i, hi⟩
    rcases hs.roundAt hi with ⟨op, hat⟩
    exact (hat.cancelled (heq ▸ hx)).2 later hy
  · rw [List.pairwise_iff_getElem]
    intro i j hi hj hlt earlier hx later hy heq
    rcases hs.roundAt (List.getElem?_eq_getElem hi) with ⟨op, hat⟩
    rcases hs.roundAt (List.getElem?_eq_getElem hj) with ⟨op', hat'⟩
    exact (hr.stays_cancelled hsticky hat hat' (Nat.le_of_lt hlt) (heq ▸ hx)).2 later hy

/-- No operation is reported eligible from the cancellation on. -/
theorem stays_ineligible (hr : RunHistory diff preview namespaceId tr report h)
    (hsticky : Sticky tr) {i j : Nat} {op : Operation} {r : ExecRound}
    (hat : RoundAt diff preview namespaceId h i op r)
    (hmem : (⟨.cancelled, true⟩ : IoEvent) ∈ r.calls) (hle : i ≤ j) :
    report.eligible j = false := by
  rw [← Bool.not_eq_true]
  intro helig
  rcases ApplyReport.eligible_iff.mp helig with ⟨context, _, hrep, hj, _⟩
  rcases hr.reports_iff.mp hrep with ⟨k, op', r', hat', _, rfl⟩
  obtain rfl : k = j := hj
  have hinel := (hr.stays_cancelled hsticky hat hat' hle hmem).1
  rw [hr.eligible_eq hat', hinel] at helig
  exact absurd helig Bool.false_ne_true

end RunHistory

/-- What holds of the trace of every run, the history `h` saying which calls are
    whose. -/
structure WriteDiscipline (diff : StateDiff) (preview : Bool) (namespaceId : NamespaceId)
    (tr : List IoEvent) (report : ApplyReport) (h : List ExecRound) : Prop where
  /-- A preview sends no write and takes one inventory that succeeds, at most. -/
  dryRun : preview = true → tr.countP isExecute = 0 ∧ tr.countP isObservation ≤ 1
  /-- Each operation sends one write at most, for itself. -/
  once : ∀ i op r, RoundAt diff preview namespaceId h i op r →
    r.calls.countP isExecute ≤ 1 ∧
      ∀ target kind answer, ⟨.execute target kind, answer⟩ ∈ r.calls →
        target = op.target ∧ decode op.kind .new = .ok (some kind)
  /-- Between any two writes an inventory succeeds. -/
  between : ∀ before event mid event' after, tr = before ++ event :: (mid ++ event' :: after) →
    isExecute event = true → isExecute event' = true →
    ∃ observation, ⟨.inventory, .ok observation⟩ ∈ mid
  /-- The last inventory before a write succeeded, no write came after it, and it
      shows the target where it is looked for. -/
  fresh : ∀ before target kind answer after,
    tr = before ++ ⟨.execute target kind, answer⟩ :: after →
    ∃ earlier observation since position device,
      before = earlier ++ ⟨.inventory, .ok observation⟩ :: since ∧
      (∀ event ∈ since, isIo event = false) ∧
      Located observation target namespaceId position device
  /-- No write follows a cancellation. -/
  uncancelled : tr.Pairwise fun earlier later => earlier = ⟨.cancelled, true⟩ →
    isExecute later = false
  /-- No operation is reported succeeded, satisfied or read-only from the
      cancellation on. -/
  stopped : ∀ i op r, RoundAt diff preview namespaceId h i op r →
    ⟨.cancelled, true⟩ ∈ r.calls → ∀ j, i ≤ j → report.eligible j = false

/-- A write is decided on the view, where its target is found. -/
theorem RunHistory.writes_fresh {tr before after : List IoEvent} {report : ApplyReport}
    {h : List ExecRound} {target : InterfaceId} {kind : OperationKind}
    {answer : Except BackendError Unit} (hr : RunHistory diff preview namespaceId tr report h)
    (hsplit : tr = before ++ ⟨.execute target kind, answer⟩ :: after) :
    ∃ observation position device, view before = some observation ∧
      Located observation target namespaceId position device := by
  rcases hr.executed hsplit with ⟨rfl, i, op, r, own, rest, hat, rfl, rfl, _, rfl, _, _, _, _,
    _, observation, position, device, _, _, _, _, hexecuted⟩
  have hview := hexecuted.view hat.history.current
  exact ⟨observation, position, device, hview, hexecuted.decision.located⟩

/-- Two writes are separated by an inventory that succeeds, when each is decided
    on the view. -/
theorem observed_between {before mid : List IoEvent} {event : IoEvent} {observation : Observation}
    (hevent : isExecute event = true) (hview : view (before ++ event :: mid) = some observation) :
    (⟨.inventory, .ok observation⟩ : IoEvent) ∈ mid := by
  rcases view_eq_some.mp hview with ⟨earlier, since, heq, hsince⟩
  rcases isExecute_iff.mp hevent with ⟨target, kind, answer, rfl⟩
  have hio : isIo ⟨.execute target kind, answer⟩ = true := rfl
  -- The view ends with an inventory and nothing after it writes, so the
  -- write comes before that inventory.
  have hne : (⟨.execute target kind, answer⟩ : IoEvent) ≠ ⟨.inventory, .ok observation⟩ := by
    simp only [ne_eq, Sigma.mk.injEq, reduceCtorEq, false_and, not_false_eq_true]
  rcases List.append_eq_append_iff.mp heq with ⟨c, _, hc⟩ | ⟨c, _, hc⟩
  · cases c with
    | nil => exact absurd (List.cons_eq_cons.mp hc).1 hne
    | cons x c =>
        rcases List.cons_eq_cons.mp hc with ⟨_, rfl⟩
        exact List.mem_append_right c List.mem_cons_self
  · cases c with
    | nil => exact absurd (List.cons_eq_cons.mp hc).1.symm hne
    | cons x c =>
        rcases List.cons_eq_cons.mp hc with ⟨_, rfl⟩
        have hquiet := hsince _ (List.mem_append_right c List.mem_cons_self)
        exact absurd (hio.symm.trans hquiet) (by decide)

/-- Every run keeps to the write discipline, when its cancellation predicate
    stays true once true. -/
theorem run_writeDiscipline {tr : List IoEvent} {report : ApplyReport}
    (hrun : (run diff preview namespaceId).Runs tr report) (hsticky : Sticky tr) :
    ∃ h, RunHistory diff preview namespaceId tr report h ∧
      WriteDiscipline diff preview namespaceId tr report h := by
  rcases run_history hrun with ⟨h, hr⟩
  rcases hr.history with ⟨s, hs, _⟩
  refine ⟨h, hr, ⟨?_, ?_, ?_, ?_, hr.uncancelled hsticky, ?_⟩⟩
  · rintro rfl
    have hcalls := History.preview_calls hs
    rw [hr.trace]
    refine ⟨hcalls.1, ?_⟩
    rw [hcalls.2]
    cases s.current with
    | none => exact Nat.zero_le 1
    | some _ => exact Nat.le_refl 1
  · intro i op r hat
    exact ⟨hat.writes_once, fun target kind answer hin => hat.writes_own hin⟩
  · intro before event mid event' after hsplit hevent hevent'
    rcases isExecute_iff.mp hevent' with ⟨target, kind, answer, rfl⟩
    have hcut : tr = (before ++ event :: mid) ++ ⟨.execute target kind, answer⟩ :: after := by
      rw [hsplit, List.append_assoc, List.cons_append]
    rcases hr.writes_fresh hcut with ⟨observation, _, _, hview, _⟩
    exact ⟨observation, observed_between hevent hview⟩
  · intro before target kind answer after hsplit
    rcases hr.writes_fresh hsplit with ⟨observation, position, device, hview, hlocated⟩
    rcases view_eq_some.mp hview with ⟨earlier, since, heq, hsince⟩
    exact ⟨earlier, observation, since, position, device, heq, hsince, hlocated⟩
  · intro i op r hat hmem j hle
    exact hr.stays_ineligible hsticky hat hmem hle

/-- Changing the MTU of an interface and then its state. -/
def mtuPlan : StateDiff :=
  { changes := []
    operations := [
      { target := eth0, kind := .setMtu 1400, dependsOn := [], addressGroup := none },
      { target := eth0, kind := .setEnabled true, dependsOn := [0], addressGroup := none }]
    diagnostics := [] }

theorem run_writeDiscipline_mtu : ∃ tr report h,
    (run mtuPlan false eth0.namespaceId).Runs tr report ∧
      WriteDiscipline mtuPlan false eth0.namespaceId tr report h := by
  rcases run_executes mtuPlan false eth0.namespaceId (idealTransport 0)
      ⟨[eth0Device []], []⟩ with
    ⟨report, _, tr, _, hrun, hadmits⟩
  have hsticky : Sticky tr := by
    refine List.pairwise_of_forall_mem_list fun earlier hx later _ heq => ?_
    exact absurd (heq ▸ hx) (ideal_uncancelled hadmits)
  rcases run_writeDiscipline hrun hsticky with ⟨h, _, hdiscipline⟩
  exact ⟨tr, report, h, hrun, hdiscipline⟩

end Netfyr
