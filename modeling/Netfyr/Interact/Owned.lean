import Netfyr.Interact.Abandoned

/-!
# The Calls for a Caller

Calls are made for one caller after the other, and those for one of them are
told apart from the rest. A caller asks once, so they are the calls of one run:
that of its own request, as far as it has come, from a state in which the server
is between two rounds. When the caller has its reply, the run has come to its end
and the reply is its outcome.

So what is known of every run of a request is known of what was called for its
caller, whatever else was served before. And what was served before is known: the
run starts where the calls until then have left the server.

## Main definitions

* `Service.Between`: The states between two rounds.
* `Service.TakenIn`: The state a job was taken in.
* `Service.Owned`: The calls for one caller.

## Theorems

* `Service.Reaches.owned`: The calls for a caller are those of its request.
* `Service.Reaches.leads`: At a call, the request has come as far as that.
* `Service.Reaches.replied`: A reply is the outcome of a run of the request.
-/

namespace Netfyr

namespace Interact

variable {E S I O : Type} {R : E → Type}

namespace Service

variable {serving : Serving E R S I O} {start : S} {labels : List (Happening E R I O)}
  {sys sys' : Service E R S I O} {label : Happening E R I O} {caller : Nat}

section Ownership

/-- A state in which the server is between two rounds. -/
def Between (serving : Serving E R S I O) (start s : S) : Prop :=
  ∃ jobs h, Rounds (fun _ => serving.serve) jobs start h s

/-- The state a job was taken in: what the rounds have left that made the calls
    until then. -/
def TakenIn (serving : Serving E R S I O) (start : S) (labels : List (Happening E R I O))
    (job : Job I) (s : S) : Prop :=
  ∃ earlier since jobs h, labels = earlier ++ .taken job :: since ∧
    Rounds (fun _ => serving.serve) jobs start h s ∧ madeCalls earlier = callsOf h

theorem TakenIn.more {job : Job I} {s : S} (h : TakenIn serving start labels job s) :
    TakenIn serving start (labels ++ [label]) job s := by
  rcases h with ⟨earlier, since, jobs, hist, rfl, hr, hmade⟩
  exact ⟨earlier, since ++ [label], jobs, hist, by simp, hr, hmade⟩

theorem TakenIn.between {job : Job I} {s : S} (h : TakenIn serving start labels job s) :
    Between serving start s := by
  rcases h with ⟨_, _, jobs, hist, _, hr, _⟩
  exact ⟨jobs, hist, hr⟩

/-- The calls for a caller: none before its job is taken, and then those of that
    job. -/
inductive Owned (serving : Serving E R S I O) (start : S) (caller : Nat)
    (labels : List (Happening E R I O)) (sys : Service E R S I O) : Prop where
  | none : callsFor caller labels = [] → (∀ job ∈ takenJobs labels, job.caller ≠ some caller) →
      Owned serving start caller labels sys
  | job {job : Job I} {s : S} {rest : Program E R (O × S)} : job ∈ takenJobs labels →
      job.caller = some caller → TakenIn serving start labels job s →
      (serving.serve job.input s).Leads (callsFor caller labels) rest →
      (∀ job' rest', sys.phase = .serving job' rest' → job'.caller = some caller → rest' = rest) →
      Owned serving start caller labels sys

/-- What neither takes a job nor makes a call keeps whose calls are whose. -/
theorem Owned.more (h : Owned serving start caller labels sys) (htaken : takenJobs [label] = [])
    (hcalls : callsFor caller [label] = [])
    (hphase : ∀ job rest, sys'.phase = .serving job rest → sys.phase = .serving job rest) :
    Owned serving start caller (labels ++ [label]) sys' := by
  cases h with
  | none hnone hjobs =>
      refine .none ?_ ?_
      · rw [callsFor_append, hcalls, List.append_nil, hnone]
      · rwa [takenJobs_append, htaken, List.append_nil]
  | @job job s rest hmem hcaller hstate hleads hserving =>
      have hmem' : job ∈ takenJobs (labels ++ [label]) := by
        rw [takenJobs_append]
        exact List.mem_append_left _ hmem
      have hleads' :
          (serving.serve job.input s).Leads (callsFor caller (labels ++ [label])) rest := by
        rwa [callsFor_append, hcalls, List.append_nil]
      exact .job hmem' hcaller hstate.more hleads' fun job' rest' hphase' =>
        hserving job' rest' (hphase _ _ hphase')

/-- A job that is served was taken. -/
theorem Progress.taken {done : List (Job I)} {h : List (Round E R S O)} {s : S} {job : Job I}
    {rest : Program E R (O × S)} (hprogress : Progress serving start labels sys done h s)
    (hphase : sys.phase = .serving job rest) : job ∈ takenJobs labels := by
  have hstanding := hprogress.2.2.2
  rw [hphase] at hstanding
  cases hstanding with
  | serving hjobs _ _ =>
      rw [hjobs]
      exact List.mem_append_right _ List.mem_cons_self

/-- A caller whose job is in the queue has had none taken. -/
theorem Known.untaken (h : Known labels sys) {job job' : Job I} (hmem : job ∈ sys.queue)
    (htaken : job' ∈ takenJobs labels) : job'.caller ≠ job.caller := by
  intro hsame
  rcases h.fifo with ⟨dropped, heq, _⟩
  have hsome : job'.caller.isSome = true := by
    rw [hsame]
    exact h.queued hmem
  have hdistinct := h.distinct
  rw [heq, List.append_assoc, List.map_append] at hdistinct
  have hkept : job' ∈ (takenJobs labels).filter fun job => job.caller.isSome :=
    List.mem_filter.mpr ⟨htaken, hsome⟩
  have hfirst := List.mem_map_of_mem (f := Job.caller) hkept
  have hlast := List.mem_map_of_mem (f := Job.caller) (List.mem_append_left dropped hmem)
  exact (List.nodup_append.mp hdistinct).2.2 _ hfirst _ hlast hsame

/-- One happening keeps whose calls are whose. -/
theorem Step.owned (hstep : Step serving sys label sys')
    (hreaches : Reaches serving start labels sys) (h : Owned serving start caller labels sys) :
    Owned serving start caller (labels ++ [label]) sys' := by
  rcases hreaches.progress with ⟨done, hist, w, hprogress⟩
  -- A job that is begun is the caller's first, or not the caller's.
  have hbegin : ∀ {s : S} {job : Job I} {queue : List (Job I)}, sys.phase = .idle s →
      label = .taken job →
      (job.caller = some caller → ∀ job' ∈ takenJobs labels, job'.caller ≠ some caller) →
      Owned serving start caller (labels ++ [label])
        { sys with phase := .serving job (serving.serve job.input s), queue } := by
    intro s job queue hidle hlabel hfirst
    subst hlabel
    have hstate : TakenIn serving start (labels ++ [.taken job]) job s := by
      rcases hprogress with ⟨hr, _, _, hstanding⟩
      rw [hidle] at hstanding
      cases hstanding with
      | idle _ hmade => exact ⟨labels, [], _, _, rfl, hr, hmade⟩
    have hnone : callsFor caller (labels ++ [.taken job]) = callsFor caller labels := by
      rw [callsFor_append]
      exact List.append_nil _
    have htaken : takenJobs (labels ++ [.taken job]) = takenJobs labels ++ [job] := by
      rw [takenJobs_append]
      rfl
    by_cases hcaller : job.caller = some caller
    · cases h with
      | none hcalls _ =>
          have hmem : job ∈ takenJobs (labels ++ [.taken job]) := by
            rw [htaken]
            exact List.mem_append_right _ List.mem_cons_self
          have hleads : (serving.serve job.input s).Leads
              (callsFor caller (labels ++ [.taken job])) (serving.serve job.input s) := by
            rw [hnone, hcalls]
            rfl
          exact .job hmem hcaller hstate hleads fun job' rest' hphase _ =>
            (Phase.serving.inj hphase).2.symm
      | job hmem hother _ _ _ => exact absurd hother (hfirst hcaller _ hmem)
    · cases h with
      | none hcalls hjobs =>
          refine .none (by rw [hnone, hcalls]) ?_
          rw [htaken, List.forall_mem_append]
          exact ⟨hjobs, fun job' hmem => by rwa [List.mem_singleton.mp hmem]⟩
      | @job other t rest hmem hother hbefore hleads _ =>
          have hmem' : other ∈ takenJobs (labels ++ [.taken job]) := by
            rw [htaken]
            exact List.mem_append_left _ hmem
          have hleads' : (serving.serve other.input t).Leads
              (callsFor caller (labels ++ [.taken job])) rest := by rwa [hnone]
          refine .job hmem' hother hbefore.more hleads' fun job' rest' hphase hcaller' => ?_
          rw [← (Phase.serving.inj hphase).1] at hcaller'
          exact absurd hcaller' hcaller
  cases hstep with
  | submit _ _ | refuse _ _ | abandon _ | lose _ _ | close _ => exact h.more rfl rfl fun _ _ => id
  | send _ _ _ => exact h.more rfl rfl fun _ _ => id
  | stop _ _ _ | crash _ => exact h.more rfl rfl fun _ _ habs => absurd habs (by simp)
  | finish _ => exact h.more rfl rfl fun _ _ habs => absurd habs (by simp)
  | wake hphase => exact hbegin hphase rfl fun habs => absurd habs (by simp)
  | take hphase hqueue =>
      refine hbegin hphase rfl fun hcaller job' hmem => ?_
      rw [← hcaller]
      exact hreaches.known.untaken (by rw [hqueue]; exact List.mem_cons_self) hmem
  | @call job e k r hphase _ =>
      by_cases hcaller : job.caller = some caller
      · have hone : callsFor caller [(.called job ⟨e, r⟩ : Happening E R I O)] = [⟨e, r⟩] := by
          simp [callsFor, hcaller]
        cases h with
        | none _ hjobs => exact absurd hcaller (hjobs job (hprogress.taken hphase))
        | @job other t rest hmem hother hbefore hleads hserving =>
            rw [← hserving _ _ hphase hcaller] at hleads
            have hmem' : other ∈ takenJobs (labels ++ [.called job ⟨e, r⟩]) := by
              rw [takenJobs_append]
              exact List.mem_append_left _ hmem
            have hleads' : (serving.serve other.input t).Leads
                (callsFor caller (labels ++ [.called job ⟨e, r⟩])) (k r) := by
              rw [callsFor_append, hone]
              exact hleads.call r
            exact .job hmem' hother hbefore.more hleads' fun job' rest' hphase' _ =>
              (Phase.serving.inj hphase').2.symm
      · have hnone : callsFor caller [(.called job ⟨e, r⟩ : Happening E R I O)] = [] := by
          simp [callsFor, hcaller]
        cases h with
        | none hcalls hjobs =>
            refine .none ?_ ?_
            · rw [callsFor_append, hnone, List.append_nil, hcalls]
            · rw [takenJobs_append]
              simpa [takenJobs] using hjobs
        | @job other t rest hmem hother hbefore hleads hserving =>
            have hmem' : other ∈ takenJobs (labels ++ [.called job ⟨e, r⟩]) := by
              rw [takenJobs_append]
              exact List.mem_append_left _ hmem
            have hleads' : (serving.serve other.input t).Leads
                (callsFor caller (labels ++ [.called job ⟨e, r⟩])) rest := by
              rwa [callsFor_append, hnone, List.append_nil]
            refine .job hmem' hother hbefore.more hleads' fun job' rest' hphase' hcaller' => ?_
            rw [← (Phase.serving.inj hphase').1] at hcaller'
            exact absurd hcaller' hcaller

/-- The calls for a caller are those of its job, as far as it has come. -/
theorem Reaches.owned (hreaches : Reaches serving start labels sys) (caller : Nat) :
    Owned serving start caller labels sys := by
  induction hreaches with
  | opened => exact .none rfl fun _ hmem => absurd hmem List.not_mem_nil
  | step hreaches hstep ih => exact hstep.owned hreaches ih

/-- Nothing is called for a caller that has sent nothing. -/
theorem Reaches.uncalled (hreaches : Reaches serving start labels sys)
    (hplace : (sys.callers caller).isUnsent = true) : callsFor caller labels = [] := by
  cases hreaches.owned caller with
  | none hcalls _ => exact hcalls
  | @job job _ _ hmem hcaller _ _ _ =>
      -- A job of the caller was sent before it was taken.
      rcases hreaches.known.fifo with ⟨dropped, heq, _⟩
      have hsent : job ∈ sentJobs labels := by
        rw [heq, List.append_assoc]
        refine List.mem_append_left _ (List.mem_filter.mpr ⟨hmem, ?_⟩)
        rw [hcaller]
        rfl
      rcases hreaches.known.sent job hsent with ⟨other, hother, hthere⟩
      obtain rfl := Option.some.inj (hother.symm.trans hcaller)
      exact absurd (hplace.symm.trans hthere) (by simp)

/-- At a call, the request it is made for has come as far as that: for a caller,
    by the calls that were made for it since it was taken. -/
theorem Reaches.leads {before after : List (Happening E R I O)} {job : Job I} {event : Event E R}
    (hreaches : Reaches serving start labels sys)
    (heq : labels = before ++ .called job event :: after) :
    ∃ own s k, Between serving start s ∧
      (serving.serve job.input s).Leads own (.call event.1 k) ∧ job ∈ takenJobs before ∧
        ∀ caller, job.caller = some caller →
          own = callsFor caller before ∧ TakenIn serving start before job s := by
  rcases hreaches.split heq with ⟨sys₁, sys₂, hbefore, hstep, _⟩
  cases hstep with
  | @call _ e k r hphase _ =>
      rcases hbefore.progress with ⟨done, hist, w, hprogress⟩
      have htaken := hprogress.taken hphase
      cases hcaller : job.caller with
      | none =>
          rcases hprogress with ⟨hr, _, _, hstanding⟩
          rw [hphase] at hstanding
          cases hstanding with
          | @serving _ _ own _ _ hleads =>
              exact ⟨own, w, k, ⟨_, _, hr⟩, hleads, htaken,
                fun caller habs => absurd habs (by simp)⟩
      | some caller =>
          cases hbefore.owned caller with
          | none _ hjobs => exact absurd hcaller (hjobs _ htaken)
          | @job other s rest hmem hother hstate hleads hserving =>
              -- The job that is served is the one of the caller.
              obtain rfl := hbefore.known.same hmem htaken hother hcaller
              rw [← hserving _ _ hphase hcaller] at hleads
              refine ⟨_, s, k, hstate.between, hleads, htaken, fun caller' hsame => ⟨?_, hstate⟩⟩
              rw [Option.some.inj hsame]

/-- Nothing is served for a caller that has its reply. -/
theorem Reaches.replied_done (hreaches : Reaches serving start labels sys) {input : I} {outcome : O}
    {job : Job I} {rest : Program E R (O × S)}
    (hplace : sys.callers caller = .replied input outcome)
    (hphase : sys.phase = .serving job rest) : job.caller ≠ some caller := by
  intro hcaller
  rcases hreaches.progress with ⟨done, hist, s, _, _, hfinished, hstanding⟩
  have hmem := hreaches.placed.replied caller input outcome hplace
  rw [hfinished] at hmem
  rw [hphase] at hstanding
  cases hstanding with
  | serving hjobs _ _ =>
      -- Its job would have been taken twice.
      rcases List.append_of_mem (List.of_mem_zip hmem).1 with ⟨before, after, hdone⟩
      rcases hreaches.known.fifo with ⟨dropped, heq, _⟩
      have hdistinct := hreaches.known.distinct
      rw [heq, hjobs, hdone] at hdistinct
      simp [hcaller, List.nodup_append] at hdistinct

/-- What a caller was replied is the outcome of a run of its request, the calls of
    which are those that were made for it. -/
theorem Reaches.replied (hreaches : Reaches serving start labels sys) {input : I} {outcome : O}
    (hplace : sys.callers caller = .replied input outcome) :
    ∃ s s', Between serving start s ∧
      (serving.serve input s).Runs (callsFor caller labels) (outcome, s') := by
  induction hreaches with
  | opened => exact absurd hplace (by simp [Service.opened])
  | @step labels sys sys' label hreaches hstep ih =>
      have hquiet : callsFor caller [label] = [] → sys.callers caller = .replied input outcome →
          ∃ s s', Between serving start s ∧
            (serving.serve input s).Runs (callsFor caller (labels ++ [label])) (outcome, s') := by
        intro hnone hsame
        rw [callsFor_append, hnone, List.append_nil]
        exact ih hsame
      have hmove : ∀ {other : Nat} {place : Caller I O}, place ≠ .replied input outcome →
          (sys.move other place).callers caller = .replied input outcome →
            sys.callers caller = .replied input outcome := by
        intro other place hne hmoved
        rw [move_callers] at hmoved
        by_cases hsame : caller = other
        · rw [if_pos hsame] at hmoved
          exact absurd hmoved hne
        · rwa [if_neg hsame] at hmoved
      cases hstep with
      | submit _ _ | refuse _ _ | abandon _ | lose _ _ => exact hquiet rfl (hmove (by simp) hplace)
      | send _ _ _ => exact hquiet rfl (hmove (by simp) hplace)
      | take _ _ | wake _ | close _ | stop _ _ _ | crash _ => exact hquiet rfl hplace
      | @call job e k r hphase _ =>
          refine hquiet ?_ hplace
          simp [callsFor, hreaches.replied_done hplace hphase]
      | @finish job outcome' s' hphase =>
          rcases reply_cases sys job outcome' with
            ⟨hsame, _⟩ | ⟨other, input', hcaller, hwaiting, hmoved⟩
          · dsimp only at hplace
            rw [hsame] at hplace
            exact hquiet rfl hplace
          · dsimp only at hplace
            by_cases hother : caller = other
            · -- The run of the caller's job is at its end.
              subst hother
              rw [hmoved, move_callers, if_pos rfl] at hplace
              rcases Caller.replied.inj hplace with ⟨rfl, rfl⟩
              obtain rfl := hreaches.placed.serves hreaches hphase hcaller hwaiting
              rcases hreaches.progress with ⟨done, hist, w, hprogress⟩
              have htaken := hprogress.taken hphase
              cases hreaches.owned caller with
              | none _ hjobs => exact absurd hcaller (hjobs _ htaken)
              | @job own s rest hmem hown hstate hleads hserving =>
                  obtain rfl := hreaches.known.same hmem htaken hown hcaller
                  rw [← hserving _ _ hphase hcaller] at hleads
                  have hend : (Program.done (outcome', s') : Program E R (O × S)).Runs []
                      (outcome', s') := ⟨rfl, rfl⟩
                  have hrun := hleads.runs hend
                  refine ⟨s, s', hstate.between, ?_⟩
                  rwa [callsFor_append]
            · rw [hmoved] at hplace
              refine hquiet rfl ?_
              rwa [move_callers, if_neg hother] at hplace

end Ownership

end Service

end Interact

end Netfyr
