import Netfyr.Interact.Rounds

/-!
# Layers

What one program takes for a call another layer makes a program of, with calls
of its own and a state that it keeps from one call to the next. `implement` puts
the two together: every call of the upper program is replaced by what the lower
layer does for it.

Nothing of the upper program is lost by this. A run of the whole is a run of the
upper program, each event of which was carried out by a run of the lower layer,
and the calls below are the calls of these runs, one after the other. So what is
known of every run above is known of the whole, and what is known of each call
below can be added to it. `Carried` keeps both sides of a call.

A layer may use the calls of a smaller one next to its own. `embed` reads a
program over some of the calls as one over all of them.

## Main definitions

* `Implementation`: How a layer carries out the calls of the layer above.
* `Program.implement`: A program with its calls carried out.
* `Carried`, `CarriesOut`: The calls of a run with what carried them out.
* `Program.embed`: A program over some of the calls.

## Theorems

* `Program.implement_runs`: What the runs of an implemented program are.
* `Program.implement_safe`: It is safe when both layers are.
* `CarriesOut.split`: A call of the layer above, where it was carried out.
* `callsBelow_split`: A call below belongs to one call above.
* `Program.embed_runs`: What the runs of an embedded program are.
* `Program.resolve_runs`: The same of one with some calls answered in advance.
-/

namespace Netfyr

namespace Interact

variable {E F : Type} {R : E → Type} {Q : F → Type} {T α β : Type}

/-- How a layer with a state carries out the calls of the layer above. -/
abbrev Implementation (T E : Type) (R : E → Type) (F : Type) (Q : F → Type) : Type :=
  (e : E) → T → Program F Q (R e × T)

/-- A program, each of its calls carried out by the layer below. -/
def Program.implement (impl : Implementation T E R F Q) :
    Program E R α → T → Program F Q (α × T)
  | .done a, t => .done (a, t)
  | .fault, _ => .fault
  | .call e k, t => (impl e t).bind fun out => (k out.1).implement impl out.2

/-- A call with its answer, and what the layer below did for it. -/
structure Carried (T E : Type) (R : E → Type) (F : Type) (Q : F → Type) where
  before : T
  event : Event E R
  calls : List (Event F Q)
  after : T

/-- The calls of the layer below, in order. -/
def callsBelow (carried : List (Carried T E R F Q)) : List (Event F Q) :=
  carried.flatMap Carried.calls

/-- Calls carried out one after the other, from one state to another. -/
inductive CarriesOut (impl : Implementation T E R F Q) :
    T → List (Carried T E R F Q) → T → Prop where
  | nil (t : T) : CarriesOut impl t [] t
  | cons {carried : Carried T E R F Q} {rest : List (Carried T E R F Q)} {t : T} :
      (impl carried.event.1 carried.before).Runs carried.calls (carried.event.2, carried.after) →
      CarriesOut impl carried.after rest t →
      CarriesOut impl carried.before (carried :: rest) t

variable {impl : Implementation T E R F Q} {carried carried' : List (Carried T E R F Q)} {t t' : T}

@[simp] theorem callsBelow_nil : callsBelow ([] : List (Carried T E R F Q)) = [] := rfl

@[simp] theorem callsBelow_cons (c : Carried T E R F Q) :
    callsBelow (c :: carried) = c.calls ++ callsBelow carried :=
  List.flatMap_cons

@[simp] theorem callsBelow_append :
    callsBelow (carried ++ carried') = callsBelow carried ++ callsBelow carried' :=
  List.flatMap_append

/-- Calls carried out in two parts pass through a state between. -/
theorem carriesOut_append : CarriesOut impl t (carried ++ carried') t' ↔
    ∃ u, CarriesOut impl t carried u ∧ CarriesOut impl u carried' t' := by
  induction carried generalizing t with
  | nil =>
      constructor
      · intro h
        exact ⟨t, .nil t, h⟩
      · rintro ⟨u, h, h'⟩
        cases h
        exact h'
  | cons c carried ih =>
      constructor
      · intro h
        cases h with
        | cons hrun hrest =>
            rcases ih.mp hrest with ⟨u, h, h'⟩
            exact ⟨u, .cons hrun h, h'⟩
      · rintro ⟨u, h, h'⟩
        cases h with
        | cons hrun hrest => exact .cons hrun (ih.mpr ⟨u, hrest, h'⟩)

/-- The runs of an implemented program are the runs of the program whose calls
    are carried out, and the calls below are what carries them out. -/
theorem Program.implement_runs {p : Program E R α} {below : List (Event F Q)} {a : α} :
    (p.implement impl t).Runs below (a, t') ↔
      ∃ carried, CarriesOut impl t carried t' ∧ p.Runs (carried.map Carried.event) a ∧
        below = callsBelow carried := by
  induction p generalizing t below with
  | done b =>
      constructor
      · rintro ⟨rfl, heq⟩
        rcases Prod.mk.inj heq with ⟨rfl, rfl⟩
        exact ⟨[], .nil _, ⟨rfl, rfl⟩, rfl⟩
      · rintro ⟨carried, hcarries, ⟨hnil, rfl⟩, rfl⟩
        rw [List.map_eq_nil_iff] at hnil
        subst hnil
        cases hcarries
        exact ⟨rfl, rfl⟩
  | fault =>
      constructor
      · intro h
        exact h.elim
      · rintro ⟨_, _, h, _⟩
        exact h.elim
  | call e k ih =>
      constructor
      · intro h
        rcases Program.runs_bind.mp h with ⟨t₁, t₂, ⟨r, u⟩, rfl, hcall, hrest⟩
        rcases (ih r).mp hrest with ⟨carried, hcarries, hrun, rfl⟩
        let first : Carried T E R F Q := ⟨t, ⟨e, r⟩, t₁, u⟩
        have hfirst : CarriesOut impl first.before (first :: carried) t' := .cons hcall hcarries
        exact ⟨first :: carried, hfirst, ⟨r, _, rfl, hrun⟩, rfl⟩
      · rintro ⟨carried, hcarries, ⟨r, rest, heq, hrun⟩, rfl⟩
        cases hcarries with
        | nil => exact absurd heq (by simp only [List.map_nil, reduceCtorEq, not_false_eq_true])
        | @cons first others _ hcall hothers =>
            rcases List.cons_eq_cons.mp heq with ⟨hevent, rfl⟩
            rcases first with ⟨before, event, calls, after⟩
            obtain rfl : event = ⟨e, r⟩ := hevent
            exact Program.runs_bind.mpr ⟨calls, callsBelow others, (r, after), rfl, hcall,
              (ih r).mpr ⟨others, hothers, hrun, rfl⟩⟩

/-- An implemented program is safe when the program and the layer below are. -/
theorem Program.implement_safe {p : Program E R α} (hp : p.Safe)
    (himpl : ∀ e t, (impl e t).Safe) (t : T) : (p.implement impl t).Safe := by
  induction p generalizing t with
  | done a => trivial
  | fault => exact hp
  | call e k ih => exact Program.safe_bind (himpl e t) fun tr out _ => ih out.1 (hp out.1) out.2

/-- A call of the layer above, with what came before it, where it was carried
    out. -/
theorem CarriesOut.split {before after : List (Event E R)} {event : Event E R}
    (h : CarriesOut impl t carried t')
    (heq : carried.map Carried.event = before ++ event :: after) :
    ∃ earlier c later, carried = earlier ++ c :: later ∧ earlier.map Carried.event = before ∧
      c.event = event ∧ later.map Carried.event = after ∧ CarriesOut impl t earlier c.before ∧
      (impl c.event.1 c.before).Runs c.calls (c.event.2, c.after) ∧
      CarriesOut impl c.after later t' := by
  rcases List.map_eq_append_iff.mp heq with ⟨earlier, others, rfl, hearlier, hothers⟩
  rcases List.map_eq_cons_iff.mp hothers with ⟨c, later, rfl, hc, hlater⟩
  rcases carriesOut_append.mp h with ⟨u, hbefore, hrest⟩
  cases hrest with
  | cons hrun hafter => exact ⟨earlier, c, later, rfl, hearlier, hc, hlater, hbefore, hrun, hafter⟩

/-- What carries out one of the calls. -/
theorem CarriesOut.run_of_mem {c : Carried T E R F Q} (h : CarriesOut impl t carried t')
    (hmem : c ∈ carried) : (impl c.event.1 c.before).Runs c.calls (c.event.2, c.after) := by
  induction h with
  | nil t => exact absurd hmem List.not_mem_nil
  | cons hrun _ ih =>
      rcases List.mem_cons.mp hmem with rfl | hmem
      · exact hrun
      · exact ih hmem

/-- Calls that come in parts are carried out in parts. -/
theorem CarriesOut.parts {parts : List (List (Event E R))} (h : CarriesOut impl t carried t')
    (heq : carried.map Carried.event = parts.flatten) :
    ∃ pieces : List (List (Carried T E R F Q)), carried = pieces.flatten ∧
      List.Forall₂ (fun part piece => piece.map Carried.event = part ∧
        ∃ u u', CarriesOut impl u piece u') parts pieces := by
  induction parts generalizing t carried with
  | nil =>
      rw [List.flatten_nil, List.map_eq_nil_iff] at heq
      exact ⟨[], heq, .nil⟩
  | cons part parts ih =>
      rw [List.flatten_cons] at heq
      rcases List.map_eq_append_iff.mp heq with ⟨piece, others, rfl, hpiece, hothers⟩
      rcases carriesOut_append.mp h with ⟨u, hfirst, hrest⟩
      rcases ih hrest hothers with ⟨pieces, rfl, hpieces⟩
      exact ⟨piece :: pieces, List.flatten_cons.symm, .cons ⟨hpiece, _, _, hfirst⟩ hpieces⟩

/-- A call below belongs to one call above. -/
theorem callsBelow_split {event : Event F Q} {before after : List (Event F Q)}
    (heq : callsBelow carried = before ++ event :: after) :
    ∃ earlier c later own rest, carried = earlier ++ c :: later ∧
      c.calls = own ++ event :: rest ∧ before = callsBelow earlier ++ own ∧
      after = rest ++ callsBelow later := by
  induction carried generalizing before with
  | nil => exact absurd heq.symm (List.append_ne_nil_of_right_ne_nil before (List.cons_ne_nil _ _))
  | cons c carried ih =>
      rw [callsBelow_cons] at heq
      rcases List.append_eq_append_iff.mp heq with ⟨own, rfl, hrest⟩ | ⟨rest, hcalls, hafter⟩
      · -- The event comes after this call.
        rcases ih hrest with ⟨earlier, c', later, own', rest', rfl, hc', rfl, rfl⟩
        exact ⟨c :: earlier, c', later, own', rest', rfl, hc', (List.append_assoc _ _ _).symm, rfl⟩
      · cases rest with
        | nil =>
            -- This call ends just before the event, which a later one opens with.
            rw [List.append_nil] at hcalls
            rw [List.nil_append] at hafter
            have hrest : callsBelow carried = [] ++ event :: after := hafter.symm
            rcases ih hrest with ⟨earlier, c', later, own', rest', rfl, hc', hnil, rfl⟩
            refine ⟨c :: earlier, c', later, own', rest', rfl, hc', ?_, rfl⟩
            rw [callsBelow_cons, List.append_assoc, ← hnil, List.append_nil, hcalls]
        | cons event' rest =>
            rcases List.cons_eq_cons.mp hafter with ⟨rfl, rfl⟩
            exact ⟨[], c, carried, before, rest, rfl, hcalls, rfl, rfl⟩

section Embed

variable {f : E → F}

/-- A program over some of the calls, read as one over all of them. -/
def Program.embed (f : E → F) : Program E (fun e => Q (f e)) α → Program F Q α
  | .done a => .done a
  | .fault => .fault
  | .call e k => .call (f e) fun r => (k r).embed f

/-- An event of some of the calls. -/
def Event.embed (f : E → F) (event : Event E fun e => Q (f e)) : Event F Q :=
  ⟨f event.1, event.2⟩

theorem Program.embed_runs {p : Program E (fun e => Q (f e)) α} {tr : List (Event F Q)} {a : α} :
    (p.embed f).Runs tr a ↔ ∃ own, tr = own.map (Event.embed f) ∧ p.Runs own a := by
  induction p generalizing tr with
  | done b =>
      constructor
      · rintro ⟨rfl, rfl⟩
        exact ⟨[], rfl, rfl, rfl⟩
      · rintro ⟨own, rfl, rfl, rfl⟩
        exact ⟨rfl, rfl⟩
  | fault =>
      constructor
      · intro h
        exact h.elim
      · rintro ⟨_, _, h⟩
        exact h.elim
  | call e k ih =>
      constructor
      · rintro ⟨r, rest, rfl, hrest⟩
        rcases (ih r).mp hrest with ⟨own, rfl, hrun⟩
        exact ⟨⟨e, r⟩ :: own, rfl, r, own, rfl, hrun⟩
      · rintro ⟨own, rfl, r, rest, rfl, hrun⟩
        exact ⟨r, _, rfl, (ih r).mpr ⟨rest, rfl, hrun⟩⟩

theorem Program.embed_safe {p : Program E (fun e => Q (f e)) α} (hp : p.Safe) :
    (p.embed f).Safe := by
  induction p with
  | done a => trivial
  | fault => exact hp
  | call e k ih => exact fun r => ih r (hp r)

end Embed

section Resolve

variable {f : (e : E) → Option (R e)}

/-- A run with some calls answered in advance is a run of the whole, of which
    the calls that were left can be seen. -/
theorem Program.resolve_runs {p : Program E R α} {tr : List (Event E R)} {a : α}
    (h : (p.resolve f).Runs tr a) :
    ∃ full, p.Runs full a ∧ tr = full.filter fun event => (f event.1).isNone := by
  induction p generalizing tr with
  | done b =>
      rcases h with ⟨rfl, rfl⟩
      exact ⟨[], ⟨rfl, rfl⟩, rfl⟩
  | fault => exact h.elim
  | call e k ih =>
      unfold resolve at h
      cases hfe : f e with
      | some r =>
          rw [hfe] at h
          rcases ih r h with ⟨full, hrun, rfl⟩
          refine ⟨⟨e, r⟩ :: full, ⟨r, full, rfl, hrun⟩, ?_⟩
          rw [List.filter_cons_of_neg (by simp [hfe])]
      | none =>
          rw [hfe] at h
          rcases h with ⟨r, rest, rfl, hrest⟩
          rcases ih r hrest with ⟨full, hrun, rfl⟩
          refine ⟨⟨e, r⟩ :: full, ⟨r, full, rfl, hrun⟩, ?_⟩
          rw [List.filter_cons_of_pos (by simp [hfe])]

theorem Program.resolve_safe {p : Program E R α} (hp : p.Safe) : (p.resolve f).Safe := by
  induction p with
  | done a => trivial
  | fault => exact hp
  | call e k ih =>
      unfold resolve
      cases hfe : f e with
      | some r => exact ih r (hp r)
      | none => exact fun r => ih r (hp r)

end Resolve

end Interact

end Netfyr
