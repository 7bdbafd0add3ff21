import Mathlib.Data.List.Nodup
import Netfyr.Interact.Service

/-!
# The Callers of a Service

What callers may count on. Nothing is lost between a caller and the server:
requests are taken in the order in which they were sent, each of them once, and
while the server is there a caller that waits is in the queue or being served.
What a caller is handed is the outcome of its own request.

All of it is said of every order of steps: what one happening preserves, and by
induction what is so after any number of them.

Whether a caller is ever served depends on when the server takes its steps. What
can be said is that nothing else is needed: from wherever the system is, steps of
the server alone lead to the reply.

## Main definitions

* `Service.Known`: What is known of the jobs that were sent.
* `Service.Placed`: Where the callers are.
* `Service.Orderly`: How the server stopped.
* `Service.Total`: A server that nothing makes get stuck.

## Theorems

* `Service.Reaches.known`: Requests are taken in the order in which they were sent.
* `Service.Reaches.placed`: A caller that waits is not forgotten.
* `Service.Reaches.answered`: A reply is the outcome of the caller's own request.
* `Service.Reaches.orderly`: A server that does not break down stops for nobody.
* `Service.Reaches.served`: The server alone can bring a caller its reply.
-/

namespace Netfyr

namespace Interact

variable {E S I O : Type} {R : E → Type}

namespace Service

variable {serving : Serving E R S I O} {start : S} {labels : List (Happening E R I O)}
  {sys sys' : Service E R S I O} {label : Happening E R I O} {caller : Nat}

section Queue

/-- What is known of the jobs that were sent, and of where their callers are. -/
structure Known (labels : List (Happening E R I O)) (sys : Service E R S I O) : Prop where
  /-- Every job that was sent has a caller, which does not send it again. -/
  sent : ∀ job ∈ sentJobs labels, ∃ caller, job.caller = some caller ∧
    (sys.callers caller).isUnsent = false
  distinct : ((sentJobs labels).map Job.caller).Nodup
  /-- Jobs are taken in the order in which they were sent, and none is dropped
      while the server is there. -/
  fifo : ∃ dropped, sentJobs labels =
      (takenJobs labels).filter (fun job => job.caller.isSome) ++ sys.queue ++ dropped ∧
    (sys.phase ≠ .stopped → dropped = [])

/-- Where a caller sends or goes, what it sent before stays known. -/
theorem Known.move (h : Known labels sys) {place : Caller I O}
    (hunsent : place.isUnsent = true → (sys.callers caller).isUnsent = true)
    (hsent : sentJobs [label] = []) (htaken : takenJobs [label] = []) :
    Known (labels ++ [label]) (sys.move caller place) := by
  refine ⟨fun job hmem => ?_, ?_, ?_⟩
  · rw [sentJobs_append, hsent, List.append_nil] at hmem
    rcases h.sent job hmem with ⟨other, hother, hthere⟩
    refine ⟨other, hother, ?_⟩
    rw [move_callers]
    by_cases hsame : other = caller
    · rw [if_pos hsame, ← Bool.not_eq_true]
      rw [hsame] at hthere
      -- A caller that has sent nothing now had not before.
      intro habs
      exact absurd ((hunsent habs).symm.trans hthere) (by simp)
    · rwa [if_neg hsame]
  · rw [sentJobs_append, hsent, List.append_nil]
    exact h.distinct
  · rcases h.fifo with ⟨dropped, heq, hnone⟩
    refine ⟨dropped, ?_, hnone⟩
    rw [sentJobs_append, hsent, List.append_nil, takenJobs_append, htaken, List.append_nil]
    exact heq

/-- Every job in the queue has a caller. -/
theorem Known.queued (h : Known labels sys) {job : Job I} (hmem : job ∈ sys.queue) :
    job.caller.isSome = true := by
  rcases h.fifo with ⟨dropped, heq, _⟩
  rcases h.sent job (by rw [heq]; simp [hmem]) with ⟨caller, hcaller, _⟩
  rw [hcaller, Option.isSome_some]

/-- One happening keeps what is known. -/
theorem Step.known (hstep : Step serving sys label sys') (h : Known labels sys) :
    Known (labels ++ [label]) sys' := by
  -- What leaves callers and queue alone changes only what was taken.
  have hrest : ∀ {phase : Phase E R S I O} {queue : List (Job I)} {handles : Bool},
      sentJobs [label] = [] → (∃ dropped, sentJobs labels =
        (takenJobs (labels ++ [label])).filter (fun job => job.caller.isSome) ++ queue ++ dropped ∧
          (phase ≠ .stopped → dropped = [])) →
      Known (labels ++ [label]) { sys with phase, queue, handles } := by
    intro phase queue handles hsent hfifo
    refine ⟨fun job hmem => ?_, ?_, ?_⟩
    · rw [sentJobs_append, hsent, List.append_nil] at hmem
      exact h.sent job hmem
    · rw [sentJobs_append, hsent, List.append_nil]
      exact h.distinct
    · rw [sentJobs_append, hsent, List.append_nil]
      exact hfifo
  rcases h.fifo with ⟨dropped, heq, hnone⟩
  cases hstep with
  | submit _ hplace => exact h.move (fun _ => by rw [hplace]; rfl) rfl rfl
  | refuse hplace _ => exact h.move (fun _ => by rw [hplace]; rfl) rfl rfl
  | abandon _ => exact h.move (fun habs => absurd habs Bool.false_ne_true) rfl rfl
  | lose _ _ => exact h.move (fun habs => absurd habs Bool.false_ne_true) rfl rfl
  | @send caller input hplace hphase _ =>
      have hnew : ∀ job ∈ sentJobs labels, job.caller ≠ some caller := by
        intro job hmem hcaller
        rcases h.sent job hmem with ⟨other, hother, hthere⟩
        obtain rfl := Option.some.inj (hother.symm.trans hcaller)
        rw [hplace] at hthere
        exact absurd hthere.symm Bool.false_ne_true
      refine ⟨fun job hmem => ?_, ?_, [], ?_, fun _ => rfl⟩
      · dsimp only
        rw [sentJobs_append] at hmem
        rcases List.mem_append.mp hmem with hmem | hmem
        · rcases h.sent job hmem with ⟨other, hother, hthere⟩
          have hne : other ≠ caller := by
            intro hsame
            exact hnew job hmem (hsame ▸ hother)
          refine ⟨other, hother, ?_⟩
          rwa [move_callers, if_neg hne]
        · obtain rfl := List.mem_singleton.mp hmem
          refine ⟨caller, rfl, ?_⟩
          rw [move_callers, if_pos rfl]
          rfl
      · rw [sentJobs_append, List.map_append, List.nodup_append]
        refine ⟨h.distinct, by simp [sentJobs], fun a ha b hb => ?_⟩
        rcases List.mem_map.mp ha with ⟨job, hmem, rfl⟩
        rw [List.mem_singleton.mp hb]
        exact hnew job hmem
      · rw [hnone hphase, List.append_nil] at heq
        rw [sentJobs_append, takenJobs_append, heq]
        simp [sentJobs, takenJobs]
  | close _ =>
      refine hrest rfl ⟨dropped, ?_, hnone⟩
      rw [takenJobs_append]
      simpa [takenJobs] using heq
  | call hphase _ =>
      refine hrest rfl ⟨[], ?_, fun _ => rfl⟩
      rw [hnone (by rw [hphase]; simp)] at heq
      rw [takenJobs_append]
      simpa [takenJobs] using heq
  | @take s job rest hphase hqueue =>
      refine hrest rfl ⟨[], ?_, fun _ => rfl⟩
      have hfirst : job ∈ sys.queue := by
        rw [hqueue]
        exact List.mem_cons_self
      have hcaller := h.queued hfirst
      rw [hnone (by rw [hphase]; simp), hqueue] at heq
      have hone : takenJobs [(.taken job : Happening E R I O)] = [job] := rfl
      rw [takenJobs_append, hone, heq]
      simp [hcaller]
  | wake hphase =>
      refine hrest rfl ⟨[], ?_, fun _ => rfl⟩
      rw [hnone (by rw [hphase]; simp)] at heq
      rw [takenJobs_append, List.filter_append, heq]
      simp [takenJobs]
  | stop hphase hqueue _ =>
      refine hrest rfl ⟨[], ?_, fun _ => rfl⟩
      rw [hnone (by rw [hphase]; simp)] at heq
      rw [takenJobs_append]
      simpa [takenJobs] using heq
  | crash _ =>
      refine hrest rfl ⟨sys.queue ++ dropped, ?_, fun habs => absurd rfl habs⟩
      rw [takenJobs_append, heq]
      simp [takenJobs]
  | @finish job outcome s hphase =>
      have hkept : Known (labels ++ [.finished job outcome]) (sys.reply job outcome) := by
        rcases reply_cases sys job outcome with ⟨hsame, _⟩ | ⟨caller, input, _, _, hmoved⟩
        · rw [hsame]
          exact hrest rfl ⟨dropped, by rw [takenJobs_append]; simpa [takenJobs] using heq, hnone⟩
        · rw [hmoved]
          exact h.move (fun habs => absurd habs Bool.false_ne_true) rfl rfl
      rcases hkept.fifo with ⟨dropped', heq', hnone'⟩
      refine ⟨hkept.sent, hkept.distinct, dropped', heq', fun _ => hnone' ?_⟩
      rcases reply_cases sys job outcome with ⟨hsame, _⟩ | ⟨caller, input, _, _, hmoved⟩
      · rw [hsame, hphase]
        simp
      · rw [hmoved, move_phase, hphase]
        simp

/-- A caller has one job taken at most. -/
theorem Known.same (h : Known labels sys) {job job' : Job I} (hmem : job ∈ takenJobs labels)
    (hmem' : job' ∈ takenJobs labels) (hcaller : job.caller = some caller)
    (hcaller' : job'.caller = some caller) : job = job' := by
  rcases h.fifo with ⟨dropped, heq, _⟩
  have hdistinct := h.distinct
  rw [heq, List.append_assoc, List.map_append] at hdistinct
  have hkept : ∀ {job : Job I}, job ∈ takenJobs labels → job.caller = some caller →
      job ∈ (takenJobs labels).filter fun job => job.caller.isSome := by
    intro job hmem hcaller
    rw [List.mem_filter, hcaller]
    exact ⟨hmem, rfl⟩
  exact List.inj_on_of_nodup_map (List.nodup_append.mp hdistinct).1 (hkept hmem hcaller)
    (hkept hmem' hcaller') (hcaller.trans hcaller'.symm)

theorem Reaches.known (hreaches : Reaches serving start labels sys) : Known labels sys := by
  induction hreaches with
  | opened =>
      exact ⟨fun _ hmem => absurd hmem List.not_mem_nil, List.nodup_nil, [], rfl, fun _ => rfl⟩
  | step _ hstep ih => exact hstep.known ih

/-- A job without a caller is the server's own. -/
theorem Reaches.taken_background (hreaches : Reaches serving start labels sys) {job : Job I}
    (hmem : job ∈ takenJobs labels) (hcaller : job.caller = none) :
    job.input = serving.background := by
  induction hreaches with
  | opened => exact absurd hmem List.not_mem_nil
  | step hreaches hstep ih =>
      rw [takenJobs_append] at hmem
      rcases List.mem_append.mp hmem with hmem | hmem
      · exact ih hmem
      · cases hstep with
        | wake _ =>
            rw [List.mem_singleton.mp hmem]
        | take _ hqueue =>
            -- What is taken from the queue was sent by a caller.
            rw [List.mem_singleton.mp hmem] at hcaller
            have hsome := hreaches.known.queued (hqueue ▸ List.mem_cons_self)
            rw [hcaller] at hsome
            exact absurd hsome Bool.false_ne_true
        | _ => exact absurd hmem List.not_mem_nil

end Queue

section Replies

/-- Where the callers are: who waits is in the queue or being served, and who
    has a reply has the outcome of the job it sent. -/
structure Placed (labels : List (Happening E R I O)) (sys : Service E R S I O) : Prop where
  waiting : ∀ caller input, sys.callers caller = .waiting input →
    ⟨some caller, input⟩ ∈ sentJobs labels ∧ (sys.phase ≠ .stopped →
      ⟨some caller, input⟩ ∈ sys.queue ∨ ∃ rest, sys.phase = .serving ⟨some caller, input⟩ rest)
  replied : ∀ caller input outcome, sys.callers caller = .replied input outcome →
    (⟨some caller, input⟩, outcome) ∈ finishedJobs labels
  lost : ∀ caller input, sys.callers caller = .lost input →
    ⟨some caller, input⟩ ∈ sentJobs labels

/-- A job in the queue is not the one that is served. -/
theorem Known.apart {job job' : Job I} {rest : Program E R (O × S)} (h : Known labels sys)
    {done : List (Job I)} {hist : List (Round E R S O)} {s : S}
    (hprogress : Progress serving start labels sys done hist s)
    (hphase : sys.phase = .serving job rest) (hmem : job' ∈ sys.queue) :
    job'.caller ≠ job.caller := by
  rcases h.fifo with ⟨dropped, heq, _⟩
  have hstanding := hprogress.2.2.2
  rw [hphase] at hstanding
  cases hstanding with
  | serving hjobs _ _ =>
      intro hsame
      have hsome := h.queued hmem
      rw [hsame] at hsome
      -- The same caller would have sent two jobs.
      have hdistinct := h.distinct
      rw [heq, hjobs, List.filter_append] at hdistinct
      rcases List.append_of_mem hmem with ⟨before, after, hqueue⟩
      rw [hqueue] at hdistinct
      simp [hsome, hsame, List.nodup_append] at hdistinct

/-- Who waits and is served, is served with what it sent. -/
theorem Placed.serves (h : Placed labels sys) (hreaches : Reaches serving start labels sys)
    {job : Job I} {rest : Program E R (O × S)} {input : I} (hphase : sys.phase = .serving job rest)
    (hcaller : job.caller = some caller) (hplace : sys.callers caller = .waiting input) :
    job = ⟨some caller, input⟩ := by
  rcases hreaches.progress with ⟨done, hist, s, hprogress⟩
  rcases (h.waiting caller input hplace).2 (by rw [hphase]; simp) with hmem | ⟨rest', hserving⟩
  · exact absurd hcaller.symm (hreaches.known.apart hprogress hphase hmem)
  · rw [hphase] at hserving
    exact (Phase.serving.inj hserving).1

/-- Moving a caller to where it neither waits nor has a reply keeps the others
    where they are. -/
theorem Placed.move (h : Placed labels sys) {place : Caller I O}
    (hwaiting : ∀ input, place ≠ .waiting input)
    (hreplied : ∀ input outcome, place = .replied input outcome →
      (⟨some caller, input⟩, outcome) ∈ finishedJobs [label])
    (hlost : ∀ input, place = .lost input → ⟨some caller, input⟩ ∈ sentJobs labels) :
    Placed (labels ++ [label]) (sys.move caller place) := by
  refine ⟨?_, ?_, ?_⟩
  · intro other input hplace
    rw [move_callers] at hplace
    by_cases hsame : other = caller
    · rw [if_pos hsame] at hplace
      exact absurd hplace (hwaiting input)
    · rw [if_neg hsame] at hplace
      rcases h.waiting other input hplace with ⟨hsent, hplaced⟩
      rw [sentJobs_append]
      exact ⟨List.mem_append_left _ hsent, hplaced⟩
  · intro other input outcome hplace
    rw [move_callers] at hplace
    rw [finishedJobs_append, List.mem_append]
    by_cases hsame : other = caller
    · rw [if_pos hsame] at hplace
      rw [hsame]
      exact Or.inr (hreplied input outcome hplace)
    · rw [if_neg hsame] at hplace
      exact Or.inl (h.replied other input outcome hplace)
  · intro other input hplace
    rw [move_callers] at hplace
    rw [sentJobs_append]
    by_cases hsame : other = caller
    · rw [if_pos hsame] at hplace
      rw [hsame]
      exact List.mem_append_left _ (hlost input hplace)
    · rw [if_neg hsame] at hplace
      exact List.mem_append_left _ (h.lost other input hplace)

/-- One happening keeps the callers in their places. -/
theorem Step.placed (hstep : Step serving sys label sys')
    (hreaches : Reaches serving start labels sys) (h : Placed labels sys) :
    Placed (labels ++ [label]) sys' := by
  -- Where no caller moves, only server and queue do.
  have hrest : ∀ {phase : Phase E R S I O} {queue : List (Job I)} {handles : Bool},
      (∀ caller input, sys.callers caller = .waiting input → sys.phase ≠ .stopped →
        phase ≠ .stopped → (⟨some caller, input⟩ ∈ sys.queue ∨
          ∃ rest, sys.phase = .serving ⟨some caller, input⟩ rest) →
        ⟨some caller, input⟩ ∈ queue ∨ ∃ rest, phase = .serving ⟨some caller, input⟩ rest) →
      (sys.phase = .stopped → phase = .stopped) →
      Placed (labels ++ [label]) { sys with phase, queue, handles } := by
    intro phase queue handles hkeep hstop
    refine ⟨?_, ?_, ?_⟩
    · intro caller input hplace
      rcases h.waiting caller input hplace with ⟨hsent, hplaced⟩
      rw [sentJobs_append]
      refine ⟨List.mem_append_left _ hsent, fun hphase => ?_⟩
      have hbefore : sys.phase ≠ .stopped := fun habs => hphase (hstop habs)
      exact hkeep caller input hplace hbefore hphase (hplaced hbefore)
    · intro caller input outcome hplace
      rw [finishedJobs_append]
      exact List.mem_append_left _ (h.replied caller input outcome hplace)
    · intro caller input hplace
      rw [sentJobs_append]
      exact List.mem_append_left _ (h.lost caller input hplace)
  cases hstep with
  | submit _ _ => exact h.move (by simp) (by simp) (by simp)
  | refuse _ _ => exact h.move (by simp) (by simp) (by simp)
  | abandon _ => exact h.move (by simp) (by simp) (by simp)
  | lose hplace _ =>
      refine h.move (by simp) (by simp) fun input heq => ?_
      obtain rfl := Caller.lost.inj heq
      exact (h.waiting _ _ hplace).1
  | @send caller input hplace hphase _ =>
      refine ⟨?_, ?_, ?_⟩
      · intro other input' hplace'
        dsimp only at hplace' ⊢
        rw [move_callers] at hplace'
        rw [sentJobs_append]
        by_cases hsame : other = caller
        · rw [if_pos hsame] at hplace'
          obtain rfl := Caller.waiting.inj hplace'
          subst hsame
          exact ⟨List.mem_append_right _ List.mem_cons_self,
            fun _ => Or.inl (List.mem_append_right _ List.mem_cons_self)⟩
        · rw [if_neg hsame] at hplace'
          rcases h.waiting other input' hplace' with ⟨hsent, hplaced⟩
          exact ⟨List.mem_append_left _ hsent,
            fun hphase' => (hplaced hphase').imp_left (List.mem_append_left _)⟩
      · intro other input' outcome hplace'
        dsimp only at hplace'
        rw [move_callers] at hplace'
        rw [finishedJobs_append]
        by_cases hsame : other = caller
        · rw [if_pos hsame] at hplace'
          exact absurd hplace' (by simp)
        · rw [if_neg hsame] at hplace'
          exact List.mem_append_left _ (h.replied other input' outcome hplace')
      · intro other input' hplace'
        dsimp only at hplace'
        rw [move_callers] at hplace'
        rw [sentJobs_append]
        by_cases hsame : other = caller
        · rw [if_pos hsame] at hplace'
          exact absurd hplace' (by simp)
        · rw [if_neg hsame] at hplace'
          exact List.mem_append_left _ (h.lost other input' hplace')
  | close _ => exact hrest (fun _ _ _ _ _ hplaced => hplaced) id
  | @call job e k r hphase _ =>
      refine hrest (fun caller input _ _ _ hplaced => ?_) fun habs => ?_
      · rcases hplaced with hplaced | ⟨rest, hplaced⟩
        · exact Or.inl hplaced
        · rw [hphase] at hplaced
          obtain rfl := (Phase.serving.inj hplaced).1
          exact Or.inr ⟨_, rfl⟩
      · rw [hphase] at habs
        exact absurd habs (by simp)
  | @take s job rest hphase hqueue =>
      refine hrest (fun caller input _ _ _ hplaced => ?_) fun habs => ?_
      · rcases hplaced with hplaced | ⟨rest, hplaced⟩
        · rw [hqueue] at hplaced
          rcases List.mem_cons.mp hplaced with rfl | hplaced
          · exact Or.inr ⟨_, rfl⟩
          · exact Or.inl hplaced
        · rw [hphase] at hplaced
          exact absurd hplaced (by simp)
      · rw [hphase] at habs
        exact absurd habs (by simp)
  | wake hphase =>
      refine hrest (fun caller input _ _ _ hplaced => ?_) fun habs => ?_
      · rcases hplaced with hplaced | ⟨rest, hplaced⟩
        · exact Or.inl hplaced
        · rw [hphase] at hplaced
          exact absurd hplaced (by simp)
      · rw [hphase] at habs
        exact absurd habs (by simp)
  | stop _ _ _ => exact hrest (fun _ _ _ _ habs _ => absurd rfl habs) fun _ => rfl
  | crash _ => exact hrest (fun _ _ _ _ habs _ => absurd rfl habs) fun _ => rfl
  | @finish job outcome w hphase =>
      have hthere : sys.phase ≠ .stopped := by
        rw [hphase]
        simp
      -- A caller that waits and is not replied to is in the queue.
      have hqueued : ∀ caller input, sys.callers caller = .waiting input →
          job.caller ≠ some caller → ⟨some caller, input⟩ ∈ sys.queue := by
        intro caller input hplace hne
        rcases (h.waiting caller input hplace).2 hthere with hplaced | ⟨rest, hplaced⟩
        · exact hplaced
        · rw [hphase] at hplaced
          obtain rfl := (Phase.serving.inj hplaced).1
          exact absurd rfl hne
      rcases reply_cases sys job outcome with
        ⟨hsame, hnone⟩ | ⟨caller, input, hcaller, hplace, hmoved⟩
      · rw [hsame]
        refine hrest (fun caller input hplace _ _ _ => Or.inl ?_) fun habs => ?_
        · exact hqueued caller input hplace fun hcaller => hnone caller hcaller input hplace
        · rw [hphase] at habs
          exact absurd habs (by simp)
      · rw [hmoved]
        -- The reply goes to the caller whose job this was.
        have hjob := h.serves hreaches hphase hcaller hplace
        have hkept : Placed (labels ++ [.finished job outcome])
            (sys.move caller (.replied input outcome)) := by
          refine h.move (by simp) (fun input' outcome' heq => ?_) (by simp)
          rcases Caller.replied.inj heq with ⟨rfl, rfl⟩
          rw [hjob]
          exact List.mem_cons_self
        refine ⟨fun other input' hplace' => ?_, hkept.replied, hkept.lost⟩
        refine ⟨(hkept.waiting other input' hplace').1, fun _ => Or.inl ?_⟩
        dsimp only at hplace'
        rw [move_callers] at hplace'
        by_cases hsame : other = caller
        · rw [if_pos hsame] at hplace'
          exact absurd hplace' (by simp)
        · rw [if_neg hsame] at hplace'
          refine hqueued other input' hplace' fun heq => hsame ?_
          exact (Option.some.inj (hcaller.symm.trans heq)).symm

theorem Reaches.placed (hreaches : Reaches serving start labels sys) : Placed labels sys := by
  induction hreaches with
  | opened =>
      exact ⟨fun _ _ habs => absurd habs (by simp [Service.opened]),
        fun _ _ _ habs => absurd habs (by simp [Service.opened]),
        fun _ _ habs => absurd habs (by simp [Service.opened])⟩
  | step hreaches hstep ih => exact hstep.placed hreaches ih

/-- A reply is the outcome of the round that served the caller's own request. -/
theorem Reaches.answered (hreaches : Reaches serving start labels sys) {done : List (Job I)}
    {h : List (Round E R S O)} {s : S} (hprogress : Progress serving start labels sys done h s)
    {input : I} {outcome : O} (hplace : sys.callers caller = .replied input outcome) :
    ∃ (i : Nat) (r : Round E R S O), done[i]? = some ⟨some caller, input⟩ ∧ h[i]? = some r ∧
      r.outcome = outcome := by
  have hmem := hreaches.placed.replied caller input outcome hplace
  rw [hprogress.2.2.1] at hmem
  rcases List.mem_iff_getElem?.mp hmem with ⟨i, hi⟩
  rcases List.getElem?_zip_eq_some.mp hi with ⟨hjob, hround⟩
  rw [List.getElem?_map] at hround
  rcases Option.map_eq_some_iff.mp hround with ⟨r, hr, hsame⟩
  exact ⟨i, r, hjob, hr, hsame⟩

end Replies

section Orderly

/-- How the server stopped: with nobody left to call, or because it broke down. -/
structure Orderly (labels : List (Happening E R I O)) (sys : Service E R S I O) : Prop where
  /-- Who sends or waits can still call. -/
  handles : ∀ caller input, sys.callers caller = .sending input ∨
    sys.callers caller = .waiting input → sys.handles = true
  stopped : sys.phase = .stopped → sys.handles = false ∨ .crashed ∈ labels
  served : ∀ caller input, sys.callers caller = .refused input ∨
    sys.callers caller = .lost input → .crashed ∈ labels

/-- Where a caller goes, the server stays as it was. -/
theorem Orderly.move (h : Orderly labels sys) {place : Caller I O}
    (hcalls : ∀ input, place = .sending input ∨ place = .waiting input → sys.handles = true)
    (hserved : ∀ input, place = .refused input ∨ place = .lost input → .crashed ∈ labels) :
    Orderly (labels ++ [label]) (sys.move caller place) := by
  refine ⟨fun other input hother => ?_, fun hphase => ?_, fun other input hother => ?_⟩
  · rw [move_callers] at hother
    by_cases hsame : other = caller
    · rw [if_pos hsame] at hother
      exact hcalls input hother
    · rw [if_neg hsame] at hother
      exact h.handles other input hother
  · exact (h.stopped hphase).imp_right (List.mem_append_left _)
  · rw [move_callers] at hother
    by_cases hsame : other = caller
    · rw [if_pos hsame] at hother
      exact List.mem_append_left _ (hserved input hother)
    · rw [if_neg hsame] at hother
      exact List.mem_append_left _ (h.served other input hother)

/-- One happening keeps it known how the server stopped. -/
theorem Step.orderly (hstep : Step serving sys label sys') (h : Orderly labels sys) :
    Orderly (labels ++ [label]) sys' := by
  -- A caller that sends or waits is not left by a server that nobody broke.
  have hcrashed : ∀ {caller : Nat} {input : I}, sys.callers caller = .sending input ∨
      sys.callers caller = .waiting input → sys.phase = .stopped → .crashed ∈ labels := by
    intro caller input hplace hphase
    rcases h.stopped hphase with hhandles | hcrash
    · rw [h.handles caller input hplace] at hhandles
      exact absurd hhandles Bool.true_eq_false.mp
    · exact hcrash
  have hrest : ∀ {phase : Phase E R S I O} {queue : List (Job I)},
      (phase = .stopped → sys.handles = false ∨ .crashed ∈ labels ++ [label]) →
      Orderly (labels ++ [label]) { sys with phase, queue } := by
    intro phase queue hstopped
    exact ⟨h.handles, hstopped,
      fun caller input hplace => List.mem_append_left _ (h.served caller input hplace)⟩
  cases hstep with
  | submit hhandles _ => exact h.move (fun _ _ => hhandles) (by simp)
  | @send caller input hplace _ _ =>
      have hmoved : Orderly (labels ++ [.sent ⟨some caller, input⟩])
          (sys.move caller (.waiting input)) :=
        h.move (fun _ _ => h.handles caller input (Or.inl hplace)) (by simp)
      exact ⟨hmoved.handles, hmoved.stopped, hmoved.served⟩
  | refuse hplace hphase =>
      exact h.move (by simp) fun _ _ => hcrashed (Or.inl hplace) hphase
  | abandon _ => exact h.move (by simp) (by simp)
  | lose hplace hphase => exact h.move (by simp) fun _ _ => hcrashed (Or.inr hplace) hphase
  | take _ _ | wake _ | call _ _ => exact hrest fun habs => absurd habs (by simp)
  | stop _ _ hhandles => exact hrest fun _ => Or.inl hhandles
  | crash _ => exact hrest fun _ => Or.inr (List.mem_append_right _ List.mem_cons_self)
  | close hnobody =>
      refine ⟨fun caller input hplace => ?_, fun _ => Or.inl rfl,
        fun caller input hplace => List.mem_append_left _ (h.served caller input hplace)⟩
      rcases hplace with hplace | hplace
      · exact absurd hplace (hnobody caller input).1
      · exact absurd hplace (hnobody caller input).2
  | @finish job outcome _ _ =>
      have hkept : Orderly (labels ++ [.finished job outcome]) (sys.reply job outcome) := by
        rcases reply_cases sys job outcome with ⟨hsame, _⟩ | ⟨caller, input, _, _, hmoved⟩
        · rw [hsame]
          exact hrest fun hphase => (h.stopped hphase).imp_right (List.mem_append_left _)
        · rw [hmoved]
          exact h.move (by simp) (by simp)
      exact ⟨hkept.handles, fun habs => absurd habs (by simp), hkept.served⟩

theorem Reaches.orderly (hreaches : Reaches serving start labels sys) : Orderly labels sys := by
  induction hreaches with
  | opened =>
      refine ⟨fun caller input habs => ?_, fun habs => ?_, fun caller input habs => ?_⟩
      · exact absurd habs (by simp [Service.opened])
      · exact absurd habs (by simp [Service.opened])
      · exact absurd habs (by simp [Service.opened])
  | step _ hstep ih => exact hstep.orderly ih

end Orderly

section Liveness

/-- Whatever is served comes to an end, and whatever is asked can be answered. -/
structure Total (serving : Serving E R S I O) : Prop where
  safe : ∀ input s, (serving.serve input s).Safe
  hears : ∀ gone e, ∃ r, serving.hears gone ⟨e, r⟩

/-- What is being served can be brought to its end. -/
theorem Reaches.finishes {job : Job I} {rest : Program E R (O × S)} (htotal : Total serving)
    (hreaches : Reaches serving start labels sys) (hphase : sys.phase = .serving job rest)
    (hrest : rest.Safe) :
    ∃ own outcome s sys', Reaches serving start (labels ++ own) sys' ∧
      sys'.phase = .idle s ∧ sys'.queue = sys.queue ∧
      sys'.callers = (sys.reply job outcome).callers ∧ ∀ label ∈ own, label.isServers = true := by
  rcases hrest.exists_runs (htotal.hears (sys.gone job)) with ⟨tr, ⟨outcome, s⟩, hrun, hhears⟩
  rcases hreaches.plays hphase hrun hhears with ⟨sys', hend, hidle, hqueue, _, hcallers⟩
  rw [List.append_assoc] at hend
  refine ⟨_, outcome, s, sys', hend, hidle, hqueue, hcallers, ?_⟩
  rw [List.forall_mem_append]
  refine ⟨fun label hmem => ?_, fun label hmem => ?_⟩
  · rcases List.mem_map.mp hmem with ⟨event, _, rfl⟩
    rfl
  · rw [List.mem_singleton.mp hmem]
    rfl

/-- What is in the queue of an idle server can be brought to its end. -/
theorem Reaches.drains {queue : List (Job I)} {s : S} {input : I} (htotal : Total serving)
    (hreaches : Reaches serving start labels sys) (hphase : sys.phase = .idle s)
    (hqueue : sys.queue = queue) (hplace : sys.callers caller = .waiting input)
    (hmem : ⟨some caller, input⟩ ∈ queue) :
    ∃ own outcome sys', Reaches serving start (labels ++ own) sys' ∧
      sys'.callers caller = .replied input outcome ∧ ∀ label ∈ own, label.isServers = true := by
  induction queue generalizing labels sys s with
  | nil => exact absurd hmem List.not_mem_nil
  | cons job queue ih =>
      have htaken := hreaches.step (.take hphase hqueue)
      rcases htaken.finishes htotal rfl (htotal.safe job.input s) with
        ⟨own, outcome, s', sys', hend, hidle, hrest, hcallers, hown⟩
      have hfirst : ∀ label ∈ Happening.taken job :: own, label.isServers = true :=
        List.forall_mem_cons.mpr ⟨rfl, hown⟩
      rw [List.append_assoc, List.singleton_append] at hend
      by_cases hcaller : job.caller = some caller
      · refine ⟨_, outcome, sys', hend, ?_, hfirst⟩
        rw [hcallers]
        exact reply_own hcaller hplace
      · -- The caller waits on, one place further.
        have hlater : (⟨some caller, input⟩ : Job I) ∈ queue := by
          rcases List.mem_cons.mp hmem with hsame | hlater
          · exact absurd (congrArg Job.caller hsame).symm hcaller
          · exact hlater
        have hwaits : sys'.callers caller = .waiting input := by
          rw [hcallers]
          exact (reply_other hcaller).trans hplace
        rcases ih hend hidle hrest hwaits hlater with
          ⟨own', outcome', sys'', hend', hreplied, hown'⟩
        refine ⟨_ ++ own', outcome', sys'', ?_, hreplied,
          List.forall_mem_append.mpr ⟨hfirst, hown'⟩⟩
        rwa [← List.append_assoc]

/-- While the server is there, its own steps can bring a caller that waits its
    reply. -/
theorem Reaches.served {input : I} (htotal : Total serving)
    (hreaches : Reaches serving start labels sys)
    (hplace : sys.callers caller = .waiting input) (hthere : sys.phase ≠ .stopped) :
    ∃ own outcome sys', Reaches serving start (labels ++ own) sys' ∧
      sys'.callers caller = .replied input outcome ∧ ∀ label ∈ own, label.isServers = true := by
  have hplaced := (hreaches.placed.waiting caller input hplace).2 hthere
  cases hphase : sys.phase with
  | stopped => exact absurd hphase hthere
  | idle s =>
      rcases hplaced with hmem | ⟨rest, hserving⟩
      · exact hreaches.drains htotal hphase rfl hplace hmem
      · rw [hphase] at hserving
        exact absurd hserving (by simp)
  | serving job rest =>
      rcases hreaches.progress with ⟨done, hist, s, _, _, _, hstanding⟩
      rw [hphase] at hstanding
      cases hstanding with
      | serving _ _ hleads =>
          rcases hreaches.finishes htotal hphase (hleads.safe (htotal.safe job.input s)) with
            ⟨own, outcome, s', sys', hend, hidle, hqueue, hcallers, hown⟩
          by_cases hcaller : job.caller = some caller
          · refine ⟨own, outcome, sys', hend, ?_, hown⟩
            rw [hcallers]
            exact reply_own hcaller hplace
          · have hmem : (⟨some caller, input⟩ : Job I) ∈ sys'.queue := by
              rcases hplaced with hmem | ⟨rest', hserving⟩
              · rwa [hqueue]
              · rw [hphase] at hserving
                exact absurd (congrArg Job.caller (Phase.serving.inj hserving).1) hcaller
            have hwaits : sys'.callers caller = .waiting input := by
              rw [hcallers, reply_other hcaller, hplace]
            rcases hend.drains htotal hidle rfl hwaits hmem with
              ⟨own', outcome', sys'', hend', hreplied, hown'⟩
            refine ⟨own ++ own', outcome', sys'', ?_, hreplied,
              List.forall_mem_append.mpr ⟨hown, hown'⟩⟩
            rwa [← List.append_assoc]

end Liveness

end Service

end Interact

end Netfyr
