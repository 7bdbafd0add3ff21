import Mathlib.Logic.Function.Basic
import Netfyr.Interact.Rounds

/-!
# A Service behind a Queue

One server takes requests from a bounded queue, and any number of callers put
them there and wait for a reply. A caller may go away at any time, and the server
may break down at any time. Callers and server take their steps in any order, so
what holds of the whole is stated over sequences of happenings.

The server serves one request after the other, so whatever the order of the
steps, its calls are those of a history of rounds and of the request that is
being served. `Progress` says this, and what is known of histories of rounds is known of
the server.

The server has an input of its own as well, for when it has nothing to do.

## Main definitions

* `Program.Leads`: A program run up to some point.
* `Service`: Where the server, the queue and the callers are.
* `Service.Step`: What can happen.
* `Service.Reaches`: What can happen one thing after the other.
* `Service.Progress`: What the server has done.

## Theorems

* `Program.Leads.completes`: What was begun can be brought to an end.
* `Service.Step.progress`, `Service.Reaches.progress`: The server serves in rounds.
-/

namespace Netfyr

namespace Interact

section Leads

variable {E α : Type} {R : E → Type}

/-- Answered as in a trace, a program comes to where another begins. -/
def Program.Leads : Program E R α → List (Event E R) → Program E R α → Prop
  | p, [], q => q = p
  | p, event :: tr, q => ∃ k, p = .call event.1 k ∧ Program.Leads (k event.2) tr q

variable {p q : Program E R α} {tr : List (Event E R)}

/-- One more call. -/
theorem Program.Leads.call {e : E} {k : R e → Program E R α} (h : p.Leads tr (.call e k))
    (r : R e) : p.Leads (tr ++ [⟨e, r⟩]) (k r) := by
  induction tr generalizing p with
  | nil =>
      obtain rfl : .call e k = p := h
      exact ⟨k, rfl, rfl⟩
  | cons event tr ih =>
      rcases h with ⟨k', rfl, hrest⟩
      exact ⟨k', rfl, ih hrest⟩

/-- What is run from there is run from the beginning. -/
theorem Program.Leads.runs {rest : List (Event E R)} {a : α} (h : p.Leads tr q)
    (hq : q.Runs rest a) : p.Runs (tr ++ rest) a := by
  induction tr generalizing p with
  | nil =>
      obtain rfl : q = p := h
      exact hq
  | cons event tr ih =>
      rcases h with ⟨k, rfl, hrest⟩
      exact ⟨event.2, tr ++ rest, rfl, ih hrest⟩

/-- A run comes to its end, and on the way to every part of the trace. -/
theorem Program.leads_of_runs {a : α} (h : p.Runs tr a) : p.Leads tr (.done a) := by
  induction tr generalizing p with
  | nil =>
      cases p with
      | done b => rw [h.2]; rfl
      | fault => exact h.elim
      | call e k =>
          rcases h with ⟨r, rest, habs, _⟩
          exact absurd habs.symm (List.cons_ne_nil _ _)
  | cons event tr ih =>
      cases p with
      | done b => exact absurd h.1 (List.cons_ne_nil _ _)
      | fault => exact h.elim
      | call e k =>
          rcases h with ⟨r, rest, heq, hrest⟩
          rcases List.cons_eq_cons.mp heq with ⟨rfl, rfl⟩
          exact ⟨k, rfl, ih hrest⟩

/-- What is reached in two parts passes through a program between. -/
theorem Program.leads_append {rest : List (Event E R)} :
    p.Leads (tr ++ rest) q ↔ ∃ middle : Program E R α, p.Leads tr middle ∧ middle.Leads rest q := by
  induction tr generalizing p with
  | nil =>
      constructor
      · intro h
        exact ⟨p, rfl, h⟩
      · rintro ⟨middle, rfl, h⟩
        exact h
  | cons event tr ih =>
      constructor
      · rintro ⟨k, rfl, h⟩
        rcases ih.mp h with ⟨middle, hfirst, hlast⟩
        exact ⟨middle, ⟨k, rfl, hfirst⟩, hlast⟩
      · rintro ⟨middle, ⟨k, rfl, hfirst⟩, hlast⟩
        exact ⟨k, rfl, ih.mpr ⟨middle, hfirst, hlast⟩⟩

theorem Program.Leads.safe (h : p.Leads tr q) (hp : p.Safe) : q.Safe := by
  induction tr generalizing p with
  | nil =>
      obtain rfl : q = p := h
      exact hp
  | cons event tr ih =>
      rcases h with ⟨k, rfl, hrest⟩
      exact ih hrest (hp event.2)

/-- A program that does not fault has a run with answers of any kind that every
    call has. -/
theorem Program.Safe.exists_runs {P : Event E R → Prop} (hP : ∀ e, ∃ r, P ⟨e, r⟩) (h : p.Safe) :
    ∃ tr a, p.Runs tr a ∧ ∀ event ∈ tr, P event := by
  induction p with
  | done a => exact ⟨[], a, ⟨rfl, rfl⟩, fun event hmem => absurd hmem List.not_mem_nil⟩
  | fault => exact h.elim
  | call e k ih =>
      rcases hP e with ⟨r, hr⟩
      rcases ih r (h r) with ⟨tr, a, hrun, hanswers⟩
      exact ⟨⟨e, r⟩ :: tr, a, ⟨r, tr, rfl, hrun⟩, List.forall_mem_cons.mpr ⟨hr, hanswers⟩⟩

/-- What was begun without a fault to come can be brought to an end. -/
theorem Program.Leads.completes {P : Event E R → Prop} (hP : ∀ e, ∃ r, P ⟨e, r⟩)
    (h : p.Leads tr q) (hp : p.Safe) :
    ∃ rest a, p.Runs (tr ++ rest) a ∧ ∀ event ∈ rest, P event := by
  rcases (h.safe hp).exists_runs hP with ⟨rest, a, hrun, hanswers⟩
  exact ⟨rest, a, h.runs hrun, hanswers⟩

end Leads

/-- Something to be served, for a caller or for the server itself. -/
structure Job (I : Type) where
  caller : Option Nat
  input : I

/-- Where a caller is. -/
inductive Caller (I O : Type) where
  | absent
  | sending (input : I)
  | waiting (input : I)
  | abandoned
  | refused (input : I)
  | replied (input : I) (outcome : O)
  | lost (input : I)

/-- Whether a caller has gone away. -/
def Caller.isAbandoned {I O : Type} : Caller I O → Bool
  | .abandoned => true
  | _ => false

/-- Whether a caller has sent nothing. -/
def Caller.isUnsent {I O : Type} : Caller I O → Bool
  | .absent | .sending _ | .refused _ => true
  | _ => false

/-- What came of a request: it was not sent, its reply was lost, or it has one. -/
inductive Delivery (O : Type) where
  | refused
  | lost
  | replied (outcome : O)

/-- A delivery of something else. -/
def Delivery.map {O P : Type} (f : O → P) : Delivery O → Delivery P
  | .refused => .refused
  | .lost => .lost
  | .replied outcome => .replied (f outcome)

/-- The request of a caller that has its answer, and what came of it. -/
def Caller.delivery {I O : Type} : Caller I O → Option (I × Delivery O)
  | .refused input => some (input, .refused)
  | .lost input => some (input, .lost)
  | .replied input outcome => some (input, .replied outcome)
  | .absent | .sending _ | .waiting _ | .abandoned => none

/-- Where the server is. -/
inductive Phase (E : Type) (R : E → Type) (S I O : Type) where
  | idle (s : S)
  | serving (job : Job I) (rest : Program E R (O × S))
  | stopped

/-- The server, its queue and its callers; `handles` is whether anybody can still
    call. -/
structure Service (E : Type) (R : E → Type) (S I O : Type) where
  phase : Phase E R S I O
  queue : List (Job I)
  callers : Nat → Caller I O
  handles : Bool

/-- What can happen. -/
inductive Happening (E : Type) (R : E → Type) (I O : Type) where
  | submitted (caller : Nat) (input : I)
  | sent (job : Job I)
  | refused (caller : Nat)
  | abandoned (caller : Nat)
  | taken (job : Job I)
  | called (job : Job I) (event : Event E R)
  | finished (job : Job I) (outcome : O)
  | lost (caller : Nat)
  | closed
  | stopped
  | crashed

/-- What the server does by itself. -/
def Happening.isServers {E I O : Type} {R : E → Type} : Happening E R I O → Bool
  | .taken _ | .called _ _ | .finished _ _ => true
  | _ => false

/-- What a service is made of: how an input is served, the server's own input,
    the room in the queue, and what a call hears of a caller that has gone away
    or has not. -/
structure Serving (E : Type) (R : E → Type) (S I O : Type) where
  serve : I → S → Program E R (O × S)
  background : I
  capacity : Nat
  hears : Bool → Event E R → Prop

variable {E S I O : Type} {R : E → Type}

namespace Service

/-- A service that has just been opened. -/
def opened (start : S) : Service E R S I O where
  phase := .idle start
  queue := []
  callers := fun _ => .absent
  handles := true

/-- Move a caller. -/
def move (self : Service E R S I O) (caller : Nat) (place : Caller I O) : Service E R S I O :=
  { self with callers := Function.update self.callers caller place }

/-- Whether the caller of a job has gone away. -/
def gone (self : Service E R S I O) (job : Job I) : Bool :=
  job.caller.any fun caller => (self.callers caller).isAbandoned

/-- Hand an outcome to the caller of a job, if it still waits. -/
def reply (self : Service E R S I O) (job : Job I) (outcome : O) : Service E R S I O :=
  match job.caller with
  | none => self
  | some caller =>
      match self.callers caller with
      | .waiting input => self.move caller (.replied input outcome)
      | _ => self

/-- What can happen, and where it leads. -/
inductive Step (serving : Serving E R S I O) (sys : Service E R S I O) :
    Happening E R I O → Service E R S I O → Prop where
  | submit {caller : Nat} {input : I} : sys.handles = true → sys.callers caller = .absent →
      Step serving sys (.submitted caller input) (sys.move caller (.sending input))
  /-- A full queue makes callers wait. -/
  | send {caller : Nat} {input : I} : sys.callers caller = .sending input → sys.phase ≠ .stopped →
      sys.queue.length < serving.capacity →
      Step serving sys (.sent ⟨some caller, input⟩)
        { sys.move caller (.waiting input) with queue := sys.queue ++ [⟨some caller, input⟩] }
  | refuse {caller : Nat} {input : I} : sys.callers caller = .sending input →
      sys.phase = .stopped → Step serving sys (.refused caller) (sys.move caller (.refused input))
  | abandon {caller : Nat} {input : I} :
      sys.callers caller = .sending input ∨ sys.callers caller = .waiting input →
      Step serving sys (.abandoned caller) (sys.move caller .abandoned)
  | take {s : S} {job : Job I} {rest : List (Job I)} : sys.phase = .idle s →
      sys.queue = job :: rest → Step serving sys (.taken job)
        { sys with phase := .serving job (serving.serve job.input s), queue := rest }
  | wake {s : S} : sys.phase = .idle s → Step serving sys (.taken ⟨none, serving.background⟩)
      { sys with phase := .serving ⟨none, serving.background⟩ (serving.serve serving.background s) }
  | call {job : Job I} {e : E} {k : R e → Program E R (O × S)} {r : R e} :
      sys.phase = .serving job (.call e k) → serving.hears (sys.gone job) ⟨e, r⟩ →
      Step serving sys (.called job ⟨e, r⟩) { sys with phase := .serving job (k r) }
  | finish {job : Job I} {outcome : O} {s : S} : sys.phase = .serving job (.done (outcome, s)) →
      Step serving sys (.finished job outcome) { sys.reply job outcome with phase := .idle s }
  | lose {caller : Nat} {input : I} : sys.callers caller = .waiting input →
      sys.phase = .stopped → Step serving sys (.lost caller) (sys.move caller (.lost input))
  /-- Nobody can call any more; a caller that sends or waits still could. -/
  | close : (∀ caller input, sys.callers caller ≠ .sending input ∧
      sys.callers caller ≠ .waiting input) → Step serving sys .closed { sys with handles := false }
  | stop {s : S} : sys.phase = .idle s → sys.queue = [] → sys.handles = false →
      Step serving sys .stopped { sys with phase := .stopped }
  /-- What is in the queue goes down with the server. -/
  | crash : sys.phase ≠ .stopped →
      Step serving sys .crashed { sys with phase := .stopped, queue := [] }

/-- What can happen one thing after the other. -/
inductive Reaches (serving : Serving E R S I O) (start : S) :
    List (Happening E R I O) → Service E R S I O → Prop where
  | opened : Reaches serving start [] (.opened start)
  | step {labels : List (Happening E R I O)} {sys sys' : Service E R S I O}
      {label : Happening E R I O} : Reaches serving start labels sys →
      Step serving sys label sys' → Reaches serving start (labels ++ [label]) sys'

end Service

/-- The jobs that were sent. -/
def sentJobs (labels : List (Happening E R I O)) : List (Job I) :=
  labels.filterMap fun
    | .sent job => some job
    | _ => none

/-- The jobs that were taken. -/
def takenJobs (labels : List (Happening E R I O)) : List (Job I) :=
  labels.filterMap fun
    | .taken job => some job
    | _ => none

/-- The calls that were made. -/
def madeCalls (labels : List (Happening E R I O)) : List (Event E R) :=
  labels.filterMap fun
    | .called _ event => some event
    | _ => none

/-- The jobs that were finished, with their outcomes. -/
def finishedJobs (labels : List (Happening E R I O)) : List (Job I × O) :=
  labels.filterMap fun
    | .finished job outcome => some (job, outcome)
    | _ => none

/-- The calls that were made for a caller. -/
def callsFor (caller : Nat) (labels : List (Happening E R I O)) : List (Event E R) :=
  labels.filterMap fun
    | .called job event => if job.caller = some caller then some event else none
    | _ => none

/-- A call for a caller was made in serving a request of its. -/
theorem mem_callsFor {caller : Nat} {labels : List (Happening E R I O)} {event : Event E R} :
    event ∈ callsFor caller labels ↔
      ∃ job, job.caller = some caller ∧ .called job event ∈ labels := by
  unfold callsFor
  rw [List.mem_filterMap]
  constructor
  · rintro ⟨label, hlabel, hcall⟩
    cases label with
    | called job own =>
        dsimp only at hcall
        by_cases hjob : job.caller = some caller
        · rw [if_pos hjob] at hcall
          rw [← Option.some.inj hcall]
          exact ⟨job, hjob, hlabel⟩
        · rw [if_neg hjob] at hcall
          exact absurd hcall (by simp only [reduceCtorEq, not_false_eq_true])
    | _ => exact absurd hcall (by simp only [reduceCtorEq, not_false_eq_true])
  · rintro ⟨job, hjob, hlabel⟩
    exact ⟨_, hlabel, if_pos hjob⟩

section Labels

variable (labels labels' : List (Happening E R I O))

@[simp] theorem sentJobs_append :
    sentJobs (labels ++ labels') = sentJobs labels ++ sentJobs labels' :=
  List.filterMap_append

@[simp] theorem takenJobs_append :
    takenJobs (labels ++ labels') = takenJobs labels ++ takenJobs labels' :=
  List.filterMap_append

@[simp] theorem madeCalls_append :
    madeCalls (labels ++ labels') = madeCalls labels ++ madeCalls labels' :=
  List.filterMap_append

@[simp] theorem finishedJobs_append :
    finishedJobs (labels ++ labels') = finishedJobs labels ++ finishedJobs labels' :=
  List.filterMap_append

@[simp] theorem callsFor_append (caller : Nat) :
    callsFor caller (labels ++ labels') = callsFor caller labels ++ callsFor caller labels' :=
  List.filterMap_append

end Labels

namespace Service

variable {serving : Serving E R S I O} {start : S} {labels : List (Happening E R I O)}
  {sys sys' : Service E R S I O} {label : Happening E R I O} {caller : Nat}

@[simp] theorem move_phase (place : Caller I O) : (sys.move caller place).phase = sys.phase := rfl

@[simp] theorem move_queue (place : Caller I O) : (sys.move caller place).queue = sys.queue := rfl

@[simp] theorem move_callers (place : Caller I O) (other : Nat) :
    (sys.move caller place).callers other =
      if other = caller then place else sys.callers other :=
  Function.update_apply _ _ _ _

/-- A reply changes at most where the caller is, and only if it waits. -/
theorem reply_cases (sys : Service E R S I O) (job : Job I) (outcome : O) :
    sys.reply job outcome = sys ∧ (∀ caller, job.caller = some caller →
        ∀ input, sys.callers caller ≠ .waiting input) ∨
      ∃ caller input, job.caller = some caller ∧ sys.callers caller = .waiting input ∧
        sys.reply job outcome = sys.move caller (.replied input outcome) := by
  unfold reply
  cases hcaller : job.caller with
  | none => exact Or.inl ⟨rfl, fun _ habs => absurd habs (by simp)⟩
  | some caller =>
      dsimp only
      cases hplace : sys.callers caller with
      | waiting input => exact Or.inr ⟨caller, input, rfl, hplace, rfl⟩
      | _ =>
          refine Or.inl ⟨rfl, fun other hother input => ?_⟩
          rw [← Option.some.inj hother, hplace]
          simp

/-- A caller that waits gets the outcome of its own job. -/
theorem reply_own {job : Job I} {outcome : O} {input : I} (hcaller : job.caller = some caller)
    (hplace : sys.callers caller = .waiting input) :
    (sys.reply job outcome).callers caller = .replied input outcome := by
  rcases reply_cases sys job outcome with
    ⟨_, hnone⟩ | ⟨other, input', hother, hplace', hmoved⟩
  · exact absurd hplace (hnone caller hcaller input)
  · obtain rfl := Option.some.inj (hcaller.symm.trans hother)
    obtain rfl := Caller.waiting.inj (hplace.symm.trans hplace')
    rw [hmoved, move_callers, if_pos rfl]

/-- The others stay where they are. -/
theorem reply_other {job : Job I} {outcome : O} (hcaller : job.caller ≠ some caller) :
    (sys.reply job outcome).callers caller = sys.callers caller := by
  rcases reply_cases sys job outcome with ⟨hsame, _⟩ | ⟨other, input, hother, _, hmoved⟩
  · rw [hsame]
  · rw [hmoved, move_callers, if_neg]
    rintro rfl
    exact hcaller hother

theorem reply_queue {job : Job I} {outcome : O} : (sys.reply job outcome).queue = sys.queue := by
  rcases reply_cases sys job outcome with ⟨hsame, _⟩ | ⟨_, _, _, _, hmoved⟩
  · rw [hsame]
  · rw [hmoved, move_queue]

theorem reply_handles {job : Job I} {outcome : O} :
    (sys.reply job outcome).handles = sys.handles := by
  rcases reply_cases sys job outcome with ⟨hsame, _⟩ | ⟨_, _, _, _, hmoved⟩
  · rw [hsame]
  · rw [hmoved]
    rfl

/-- What is being served can go on as any run of it does. -/
theorem Reaches.goes {job : Job I} {p q : Program E R (O × S)} {tr : List (Event E R)}
    (hreaches : Reaches serving start labels sys) (hphase : sys.phase = .serving job p)
    (hleads : p.Leads tr q) (hhears : ∀ event ∈ tr, serving.hears (sys.gone job) event) :
    Reaches serving start (labels ++ tr.map (.called job))
      { sys with phase := .serving job q } := by
  induction tr generalizing p labels sys with
  | nil =>
      obtain rfl : q = p := hleads
      rw [← hphase, List.map_nil, List.append_nil]
      exact hreaches
  | cons event tr ih =>
      rcases hleads with ⟨k, rfl, hrest⟩
      rw [List.forall_mem_cons] at hhears
      have hend := ih (hreaches.step (.call hphase hhears.1)) rfl hrest hhears.2
      rwa [← List.append_cons] at hend

/-- And be finished. -/
theorem Reaches.plays {job : Job I} {p : Program E R (O × S)} {tr : List (Event E R)}
    {outcome : O} {s : S} (hreaches : Reaches serving start labels sys)
    (hphase : sys.phase = .serving job p) (hrun : p.Runs tr (outcome, s))
    (hhears : ∀ event ∈ tr, serving.hears (sys.gone job) event) :
    ∃ sys', Reaches serving start
        (labels ++ tr.map (.called job) ++ [.finished job outcome]) sys' ∧
      sys'.phase = .idle s ∧ sys'.queue = sys.queue ∧ sys'.handles = sys.handles ∧
      sys'.callers = (sys.reply job outcome).callers := by
  have hgoes := hreaches.goes hphase (Program.leads_of_runs hrun) hhears
  -- Who is replied to does not depend on where the server is.
  have hreply : ({ sys with phase := .serving job (.done (outcome, s)) } :
      Service E R S I O).reply job outcome =
        { sys.reply job outcome with phase := .serving job (.done (outcome, s)) } := by
    unfold reply
    cases job.caller with
    | none => rfl
    | some caller =>
        dsimp only
        cases sys.callers caller <;> rfl
  refine ⟨_, hgoes.step (.finish rfl), rfl, ?_, ?_, ?_⟩
  · rw [reply_queue]
  · rw [hreply]
    exact reply_handles
  · rw [hreply]

section Progress

/-- What the server has done, from where it is: it is done with some jobs and
    made their calls, and is on the way with one at most. -/
inductive Standing (serving : Serving E R S I O) (labels : List (Happening E R I O))
    (done : List (Job I)) (h : List (Round E R S O)) (s : S) : Phase E R S I O → Prop where
  | idle : takenJobs labels = done → madeCalls labels = callsOf h →
      Standing serving labels done h s (.idle s)
  | serving {job : Job I} {rest : Program E R (O × S)} {own : List (Event E R)} :
      takenJobs labels = done ++ [job] → madeCalls labels = callsOf h ++ own →
      (serving.serve job.input s).Leads own rest →
      Standing serving labels done h s (.serving job rest)
  | stopped {phase : Phase E R S I O} : Standing serving labels done h s phase →
      Standing serving labels done h s .stopped

/-- What the server has done: rounds of the jobs that are finished. -/
def Progress (serving : Serving E R S I O) (start : S) (labels : List (Happening E R I O))
    (sys : Service E R S I O) (done : List (Job I)) (h : List (Round E R S O)) (s : S) : Prop :=
  Rounds (fun _ => serving.serve) (done.map Job.input) start h s ∧ h.length = done.length ∧
    finishedJobs labels = done.zip (h.map Round.outcome) ∧
      Standing serving labels done h s sys.phase

/-- What does not take a job or make a call leaves the server where it stands. -/
theorem Standing.more {done : List (Job I)} {h : List (Round E R S O)} {s : S}
    {phase : Phase E R S I O} (hstanding : Standing serving labels done h s phase)
    (htaken : takenJobs [label] = []) (hmade : madeCalls [label] = []) :
    Standing serving (labels ++ [label]) done h s phase := by
  induction hstanding with
  | idle hjobs hcalls =>
      exact .idle (by rw [takenJobs_append, htaken, List.append_nil, hjobs])
        (by rw [madeCalls_append, hmade, List.append_nil, hcalls])
  | serving hjobs hcalls hleads =>
      exact .serving (by rw [takenJobs_append, htaken, List.append_nil, hjobs])
        (by rw [madeCalls_append, hmade, List.append_nil, hcalls]) hleads
  | stopped _ ih => exact .stopped ih

/-- One happening keeps the account of what the server has done. -/
theorem Step.progress (hstep : Step serving sys label sys') {done : List (Job I)}
    {h : List (Round E R S O)} {s : S} (hprogress : Progress serving start labels sys done h s) :
    ∃ done' h' s', Progress serving start (labels ++ [label]) sys' done' h' s' := by
  rcases hprogress with ⟨hr, hall, hfinished, hstanding⟩
  have hsame : takenJobs [label] = [] → madeCalls [label] = [] → finishedJobs [label] = [] →
      sys'.phase = sys.phase → Progress serving start (labels ++ [label]) sys' done h s := by
    intro htaken hmade hquiet hphase
    refine ⟨hr, hall, ?_, ?_⟩
    · rw [finishedJobs_append, hquiet, List.append_nil, hfinished]
    · rw [hphase]
      exact hstanding.more htaken hmade
  have hunfinished : finishedJobs [label] = [] →
      finishedJobs (labels ++ [label]) = done.zip (h.map Round.outcome) := by
    intro hquiet
    rw [finishedJobs_append, hquiet, List.append_nil, hfinished]
  -- A job that is begun has made no calls.
  have hbegin : ∀ {w : S} {job : Job I}, sys.phase = .idle w → label = .taken job →
      Standing serving (labels ++ [label]) done h s
        (.serving job (serving.serve job.input w)) := by
    intro w job hphase hlabel
    subst hlabel
    rw [hphase] at hstanding
    cases hstanding with
    | idle hjobs hcalls =>
        have hnone : (serving.serve job.input s).Leads [] (serving.serve job.input s) := rfl
        refine .serving ?_ ?_ hnone
        · rw [takenJobs_append, hjobs]
          rfl
        · rw [madeCalls_append, hcalls]
          rfl
  cases hstep with
  | submit _ _ => exact ⟨done, h, s, hsame rfl rfl rfl rfl⟩
  | send _ _ _ => exact ⟨done, h, s, hsame rfl rfl rfl rfl⟩
  | refuse _ _ => exact ⟨done, h, s, hsame rfl rfl rfl rfl⟩
  | abandon _ => exact ⟨done, h, s, hsame rfl rfl rfl rfl⟩
  | lose _ _ => exact ⟨done, h, s, hsame rfl rfl rfl rfl⟩
  | close _ => exact ⟨done, h, s, hsame rfl rfl rfl rfl⟩
  | take hphase _ => exact ⟨done, h, s, hr, hall, hunfinished rfl, hbegin hphase rfl⟩
  | wake hphase => exact ⟨done, h, s, hr, hall, hunfinished rfl, hbegin hphase rfl⟩
  | stop _ _ _ => exact ⟨done, h, s, hr, hall, hunfinished rfl, (hstanding.more rfl rfl).stopped⟩
  | crash _ => exact ⟨done, h, s, hr, hall, hunfinished rfl, (hstanding.more rfl rfl).stopped⟩
  | @call job e k r hphase _ =>
      refine ⟨done, h, s, hr, hall, hunfinished rfl, ?_⟩
      rw [hphase] at hstanding
      cases hstanding with
      | @serving _ _ own hjobs hcalls hleads =>
          refine .serving ?_ ?_ (hleads.call r)
          · rw [takenJobs_append, hjobs]
            exact List.append_nil _
          · rw [madeCalls_append, hcalls, List.append_assoc]
            rfl
  | @finish job outcome w hphase =>
      rw [hphase] at hstanding
      cases hstanding with
      | @serving _ _ own hjobs hcalls hleads =>
          -- The program of the job has come to its end.
          have hend : (Program.done (outcome, w) : Program E R (O × S)).Runs [] (outcome, w) :=
            ⟨rfl, rfl⟩
          have hrun := hleads.runs hend
          rw [List.append_nil] at hrun
          have hlength : h.length = (done.map Job.input).length := by rw [List.length_map, hall]
          refine ⟨done ++ [job], h ++ [⟨s, own, outcome, w⟩], w, ?_, ?_, ?_, ?_⟩
          · rw [List.map_append]
            exact hr.next hlength hrun
          · rw [List.length_append, List.length_append, hall]
            rfl
          · rw [finishedJobs_append, hfinished, List.map_append,
              List.zip_append (by rw [List.length_map, hall])]
            rfl
          · refine .idle ?_ ?_
            · rw [takenJobs_append, hjobs]
              exact List.append_nil _
            · rw [madeCalls_append, hcalls, callsOf_append, callsOf_singleton]
              exact List.append_nil _

/-- The server serves one job after the other. -/
theorem Reaches.progress (hreaches : Reaches serving start labels sys) :
    ∃ done h s, Progress serving start labels sys done h s := by
  induction hreaches with
  | opened => exact ⟨[], [], start, .start, rfl, rfl, .idle rfl rfl⟩
  | step _ hstep ih =>
      rcases ih with ⟨done, h, s, hprogress⟩
      exact hstep.progress hprogress

end Progress

end Service

end Interact

end Netfyr
