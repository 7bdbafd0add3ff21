import Mathlib.Logic.Function.Basic
import Mathlib.Logic.Relation
import Netfyr.Interact.Action
import Netfyr.Interact.Service

/-!
# Threads that Share a State

Threads run programs over one state, in any order of their calls, and a call may
start a thread. Things happen to the state by themselves as well. So between two
calls of a thread the state may have become another, and what the thread found
before need not be so any more.

What it may count on is what the others undertake. Every thread says where it
makes a call and what its calls change, and `Assures` is that a program keeps to
this, if the others do. The rule is circular, and it is sound because a step is
one thread's: every call is then made where it may be, in every order of steps.

## Main definitions

* `Sharing`: How threads share a state.
* `Threads`: The state, and what is left of each thread.
* `Undertaking`: What each thread keeps to.
* `Program.Assures`: A program keeps to it, and ends as it should.

## Theorems

* `Program.Assures.call`, `Program.Assures.done`: From an assertion that the others
  leave alone.
* `Program.Assures.bind`, `Action.assures_ask_bind`: Putting programs together.
* `Threads.Reaches.assures`: Every thread keeps to what it undertakes.
* `Threads.Reaches.keeps`: What every step keeps.
* `Threads.Reaches.goes`: One thread can go on by itself.
-/

namespace Netfyr

namespace Interact

/-- How threads share a state: what a call of a thread may be answered and where
    that leads, what happens by itself, and which thread a call starts. -/
structure Sharing (T S E : Type) (R : E → Type) (A : T → Type) where
  acts : T → Environment S E R
  happens : S → S → Prop
  starts : Event E R → Option (Σ t, Program E R (A t))

/-- A shared state, with what is left of each thread. -/
structure Threads (T S E : Type) (R : E → Type) (A : T → Type) where
  shared : S
  left : (t : T) → Option (Program E R (A t))

/-- What each thread keeps to: where it may make a call, and what its calls do. -/
structure Undertaking (T S E : Type) where
  may : T → E → S → Prop
  does : T → S → S → Prop

variable {T S E α β : Type} {R : E → Type} {A : T → Type}

section Assures

variable {sharing : Sharing T S E R A} {undertaking : Undertaking T S E} {t : T}

/-- What may happen between two calls of a thread. -/
def Interferes (sharing : Sharing T S E R A) (undertaking : Undertaking T S E) (t : T)
    (s s' : S) : Prop :=
  sharing.happens s s' ∨ ∃ other, other ≠ t ∧ undertaking.does other s s'

/-- What the others leave alone. -/
def Steady (sharing : Sharing T S E R A) (undertaking : Undertaking T S E) (t : T)
    (P : S → Prop) : Prop :=
  ∀ s s', Interferes sharing undertaking t s s' → P s → P s'

/-- Wherever the others have led before a call, the thread may make it, and does
    what it undertakes; and so it ends. -/
def Program.Assures (sharing : Sharing T S E R A) (undertaking : Undertaking T S E) (t : T) :
    Program E R α → (α → S → Prop) → S → Prop
  | .done a, post, s =>
      ∀ s', Relation.ReflTransGen (Interferes sharing undertaking t) s s' → post a s'
  | .fault, _, _ => False
  | .call e k, post, s =>
      ∀ s', Relation.ReflTransGen (Interferes sharing undertaking t) s s' →
        undertaking.may t e s' ∧ ∀ r s'', sharing.acts t s' e r s'' →
          undertaking.does t s' s'' ∧ (k r).Assures sharing undertaking t post s''

variable {P : S → Prop} {s s' : S} {post : α → S → Prop}

theorem Steady.many (hP : Steady sharing undertaking t P)
    (h : Relation.ReflTransGen (Interferes sharing undertaking t) s s') (hs : P s) : P s' := by
  induction h with
  | refl => exact hs
  | tail _ hstep ih => exact hP _ _ hstep ih

namespace Program

namespace Assures

variable {p : Program E R α}

/-- The others take nothing away. -/
theorem interfered (h : p.Assures sharing undertaking t post s)
    (hsteps : Relation.ReflTransGen (Interferes sharing undertaking t) s s') :
    p.Assures sharing undertaking t post s' := by
  cases p with
  | done a => exact fun u hlater => h u (hsteps.trans hlater)
  | fault => exact h
  | call e k => exact fun u hlater => h u (hsteps.trans hlater)

/-- A call is made from an assertion that the others leave alone. -/
theorem call {e : E} {k : R e → Program E R α} (hP : Steady sharing undertaking t P)
    (hmay : ∀ s, P s → undertaking.may t e s)
    (hdoes : ∀ s r s', P s → sharing.acts t s e r s' →
      undertaking.does t s s' ∧ (k r).Assures sharing undertaking t post s')
    (hs : P s) : (Program.call e k).Assures sharing undertaking t post s := by
  intro u hsteps
  have hu := hP.many hsteps hs
  exact ⟨hmay u hu, fun r u' hact => hdoes u r u' hu hact⟩

theorem done {a : α} (hP : Steady sharing undertaking t P) (hpost : ∀ s, P s → post a s)
    (hs : P s) : (Program.done a : Program E R α).Assures sharing undertaking t post s :=
  fun u hsteps => hpost u (hP.many hsteps hs)

theorem bind {f : α → Program E R β} {post : β → S → Prop}
    (h : p.Assures sharing undertaking t
      (fun a s => (f a).Assures sharing undertaking t post s) s) :
    (p.bind f).Assures sharing undertaking t post s := by
  induction p generalizing s with
  | done a => exact h s .refl
  | fault => exact h
  | call e k ih =>
      intro u hsteps
      rcases h u hsteps with ⟨hmay, hdoes⟩
      exact ⟨hmay, fun r u' hact => ⟨(hdoes r u' hact).1, ih r (hdoes r u' hact).2⟩⟩

theorem mono {post' : α → S → Prop} (hpost : ∀ a s, post a s → post' a s)
    (h : p.Assures sharing undertaking t post s) : p.Assures sharing undertaking t post' s := by
  induction p generalizing s with
  | done a => exact fun u hsteps => hpost a u (h u hsteps)
  | fault => exact h
  | call e k ih =>
      intro u hsteps
      rcases h u hsteps with ⟨hmay, hdoes⟩
      exact ⟨hmay, fun r u' hact => ⟨(hdoes r u' hact).1, ih r (hdoes r u' hact).2⟩⟩

end Assures

end Program

end Assures

namespace Action

variable {L ε : Type}

/-- Make a call and read its answer. -/
def ask (e : E) (read : R e → Except ε α) : Action E R L ε α :=
  fun l => .call e fun r => .done (read r, l)

variable {sharing : Sharing T S E R A} {undertaking : Undertaking T S E} {t : T} {P : S → Prop}
  {post : Except ε β × L → S → Prop} {s : S} {l : L}

theorem assures_ask {e : E} {read : R e → Except ε β} (hP : Steady sharing undertaking t P)
    (hmay : ∀ s, P s → undertaking.may t e s)
    (hdoes : ∀ s r s', P s → sharing.acts t s e r s' → undertaking.does t s s' ∧
      (Program.done (read r, l) : Program E R _).Assures sharing undertaking t post s')
    (hs : P s) : (ask e read l).Assures sharing undertaking t post s :=
  Program.Assures.call hP hmay hdoes hs

/-- A call is made and its answer read, and an error that is read is the end. -/
theorem assures_ask_bind {e : E} {read : R e → Except ε α} {f : α → Action E R L ε β}
    (hP : Steady sharing undertaking t P) (hmay : ∀ s, P s → undertaking.may t e s)
    (hdoes : ∀ s r s', P s → sharing.acts t s e r s' → undertaking.does t s s' ∧
      (∀ a, read r = .ok a → (f a l).Assures sharing undertaking t post s') ∧
      ∀ error, read r = .error error →
        (Program.done (.error error, l) : Program E R _).Assures sharing undertaking t post s')
    (hs : P s) : ((ask e read >>= f) l).Assures sharing undertaking t post s := by
  refine Program.Assures.call hP hmay (fun s r s' h hact => ?_) hs
  rcases hdoes s r s' h hact with ⟨hown, hok, herror⟩
  refine ⟨hown, ?_⟩
  dsimp only [Program.bind]
  cases hread : read r with
  | ok a => exact hok a hread
  | error error => exact herror error hread

/-- The first part ends as the second one needs, or in an error that is the end. -/
theorem assures_bind {m : Action E R L ε α} {f : α → Action E R L ε β}
    {mid : Except ε α × L → S → Prop} (hm : (m l).Assures sharing undertaking t mid s)
    (hok : ∀ a l s, mid (.ok a, l) s → (f a l).Assures sharing undertaking t post s)
    (herror : ∀ error l s, mid (.error error, l) s →
      (Program.done (.error error, l) : Program E R _).Assures sharing undertaking t post s) :
    ((m >>= f) l).Assures sharing undertaking t post s := by
  refine Program.Assures.bind (hm.mono fun out s hout => ?_)
  rcases out with ⟨_ | a, l'⟩
  · exact herror _ _ _ hout
  · exact hok _ _ _ hout

end Action

namespace Threads

section Assured

variable {sharing : Sharing T S E R A} {undertaking : Undertaking T S E}
  {sys : Threads T S E R A} {post : (t : T) → A t → S → Prop}

/-- Every thread keeps to what it undertakes, and ends as it should. -/
def Assured (sharing : Sharing T S E R A) (undertaking : Undertaking T S E)
    (post : (t : T) → A t → S → Prop) (sys : Threads T S E R A) : Prop :=
  ∀ t p, sys.left t = some p → p.Assures sharing undertaking t (post t) sys.shared

/-- What is done by a call that a thread may make is what it undertakes. -/
theorem Assured.does {t : T} {e : E} {k : R e → Program E R (A t)} {r : R e} {s' : S}
    (h : Assured sharing undertaking post sys) (hleft : sys.left t = some (.call e k))
    (hact : sharing.acts t sys.shared e r s') :
    undertaking.may t e sys.shared ∧ undertaking.does t sys.shared s' ∧
      (k r).Assures sharing undertaking t (post t) s' := by
  rcases h t _ hleft sys.shared .refl with ⟨hmay, hdoes⟩
  exact ⟨hmay, hdoes r s' hact⟩

end Assured

variable [DecidableEq T]

/-- What can happen: a thread makes its next call, which may start another one, or
    something happens by itself. -/
inductive Step (sharing : Sharing T S E R A) (sys : Threads T S E R A) :
    Option (T × Event E R) → Threads T S E R A → Prop where
  | call {t : T} {e : E} {k : R e → Program E R (A t)} {r : R e} {s' : S} :
      sys.left t = some (.call e k) → sharing.acts t sys.shared e r s' →
      sharing.starts ⟨e, r⟩ = none → Step sharing sys (some (t, ⟨e, r⟩))
        { shared := s', left := Function.update sys.left t (some (k r)) }
  | start {t other : T} {e : E} {k : R e → Program E R (A t)} {r : R e} {s' : S}
      {p : Program E R (A other)} :
      sys.left t = some (.call e k) → sharing.acts t sys.shared e r s' →
      sharing.starts ⟨e, r⟩ = some ⟨other, p⟩ → Step sharing sys (some (t, ⟨e, r⟩))
        { shared := s'
          left := Function.update (Function.update sys.left t (some (k r))) other (some p) }
  | happen {s' : S} : sharing.happens sys.shared s' →
      Step sharing sys none { sys with shared := s' }

/-- What can happen one thing after the other. -/
inductive Reaches (sharing : Sharing T S E R A) (start : Threads T S E R A) :
    List (Option (T × Event E R)) → Threads T S E R A → Prop where
  | start : Reaches sharing start [] start
  | step {labels : List (Option (T × Event E R))} {sys sys' : Threads T S E R A}
      {label : Option (T × Event E R)} : Reaches sharing start labels sys →
      Step sharing sys label sys' → Reaches sharing start (labels ++ [label]) sys'

variable {sharing : Sharing T S E R A} {undertaking : Undertaking T S E}
  {start sys sys' : Threads T S E R A} {labels : List (Option (T × Event E R))}
  {label : Option (T × Event E R)} {post : (t : T) → A t → S → Prop}

/-- One call leaves every thread where it keeps to what it undertakes. -/
theorem Assured.call {t : T} {e : E} {k : R e → Program E R (A t)} {r : R e} {s' : S}
    (h : Assured sharing undertaking post sys) (hleft : sys.left t = some (.call e k))
    (hact : sharing.acts t sys.shared e r s') :
    Assured sharing undertaking post
      { shared := s', left := Function.update sys.left t (some (k r)) } := by
  rcases h.does hleft hact with ⟨_, hdoes, hrest⟩
  intro u p hp
  by_cases hu : u = t
  · subst hu
    dsimp only at hp
    rw [Function.update_self] at hp
    rw [← Option.some.inj hp]
    exact hrest
  · dsimp only at hp
    rw [Function.update_of_ne hu] at hp
    exact (h u p hp).interfered (.single (Or.inr ⟨t, Ne.symm hu, hdoes⟩))

/-- One step leaves every thread where it keeps to what it undertakes, if a thread
    that is started does. -/
theorem Step.assured (hstep : Step sharing sys label sys')
    (hstarts : ∀ t s e r s' other p, undertaking.may t e s → sharing.acts t s e r s' →
      sharing.starts ⟨e, r⟩ = some ⟨other, p⟩ →
        p.Assures sharing undertaking other (post other) s')
    (h : Assured sharing undertaking post sys) : Assured sharing undertaking post sys' := by
  cases hstep with
  | call hleft hact _ => exact h.call hleft hact
  | @start t other e k r s' p hleft hact hp =>
      have hmay := (h.does hleft hact).1
      intro u q hq
      by_cases hu : u = other
      · subst hu
        dsimp only at hq
        rw [Function.update_self] at hq
        rw [← Option.some.inj hq]
        exact hstarts t _ e r s' _ p hmay hact hp
      · dsimp only at hq
        rw [Function.update_of_ne hu] at hq
        exact h.call hleft hact u q hq
  | happen hhappens => exact fun u p hp => (h u p hp).interfered (.single (Or.inl hhappens))

/-- Every thread keeps to what it undertakes, whatever the order of the steps. -/
theorem Reaches.assures (hreaches : Reaches sharing start labels sys)
    (hstarts : ∀ t s e r s' other p, undertaking.may t e s → sharing.acts t s e r s' →
      sharing.starts ⟨e, r⟩ = some ⟨other, p⟩ →
        p.Assures sharing undertaking other (post other) s')
    (h : Assured sharing undertaking post start) : Assured sharing undertaking post sys := by
  induction hreaches with
  | start => exact h
  | step _ hstep ih => exact hstep.assured hstarts ih

/-- What every call keeps that is done as undertaken, and whatever happens by
    itself, is kept. -/
theorem Reaches.keeps {P : S → Prop} (hreaches : Reaches sharing start labels sys)
    (hstarts : ∀ t s e r s' other p, undertaking.may t e s → sharing.acts t s e r s' →
      sharing.starts ⟨e, r⟩ = some ⟨other, p⟩ →
        p.Assures sharing undertaking other (post other) s')
    (hassured : Assured sharing undertaking post start)
    (hdoes : ∀ t s s', undertaking.does t s s' → P s → P s')
    (hhappens : ∀ s s', sharing.happens s s' → P s → P s') (h : P start.shared) :
    P sys.shared := by
  induction hreaches with
  | start => exact h
  | step hbefore hstep ih =>
      have hnow := hbefore.assures hstarts hassured
      cases hstep with
      | call hleft hact _ => exact hdoes _ _ _ (hnow.does hleft hact).2.1 ih
      | start hleft hact _ => exact hdoes _ _ _ (hnow.does hleft hact).2.1 ih
      | happen hstep => exact hhappens _ _ hstep ih

/-- One thread goes on by itself, as far as its program leads. -/
theorem Reaches.goes {t : T} {p q : Program E R (A t)} {tr : List (Event E R)} {s' : S}
    (hreaches : Reaches sharing start labels sys) (hleft : sys.left t = some p)
    (hleads : p.Leads tr q) (hadmits : Admits (sharing.acts t) sys.shared tr s')
    (hstarts : ∀ event ∈ tr, sharing.starts event = none) :
    ∃ labels', Reaches sharing start labels'
      { shared := s', left := Function.update sys.left t (some q) } := by
  induction tr generalizing p labels sys with
  | nil =>
      obtain rfl : q = p := hleads
      obtain rfl : s' = sys.shared := hadmits
      rw [← hleft, Function.update_eq_self]
      exact ⟨labels, hreaches⟩
  | cons event tr ih =>
      rcases hleads with ⟨k, rfl, hrest⟩
      rcases hadmits with ⟨u, hact, hlater⟩
      rw [List.forall_mem_cons] at hstarts
      have hnext := hreaches.step (.call hleft hact hstarts.1)
      rcases ih hnext (Function.update_self _ _ _) hrest hlater hstarts.2 with ⟨labels', hend⟩
      rw [Function.update_idem] at hend
      exact ⟨labels', hend⟩

end Threads

end Interact

end Netfyr
