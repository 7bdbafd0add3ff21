/-!
# Draining a Decoder

A decoder takes one item off a source at a time: an item, the end of the source,
or an error, and `none` where it faults. Draining calls it until it gives no
item, so what comes of draining is the items in order and how it ended. A
decoder that never faults, and whose every item makes the source smaller, drains
every source.

## Main definitions

* `Decoder`: One call.
* `drain`: Repeated calls, as many as there is fuel for.
* `Drains`: What comes of repeated calls.

## Theorems

* `Drains.drain`: Enough fuel drains.
* `Drains.unique`: A source drains in one way.
* `exists_drains`: Every source drains when items make sources smaller.
-/

namespace Netfyr

/-- One call of a decoder, `none` being a fault. -/
abbrev Decoder (σ ε α : Type) : Type := σ → Option (Except ε (Option α) × σ)

variable {σ ε α : Type}

/-- Call a decoder until it gives no item; `none` when it faults, or when the
    fuel does not last. -/
def drain (decode : Decoder σ ε α) : Nat → σ → Option (List α × Except ε Unit)
  | 0, _ => none
  | fuel + 1, source =>
      match decode source with
      | none => none
      | some (.error e, _) => some ([], .error e)
      | some (.ok none, _) => some ([], .ok ())
      | some (.ok (some a), rest) =>
          match drain decode fuel rest with
          | none => none
          | some (items, ending) => some (a :: items, ending)

/-- The items that a source drains to, and how its draining ends. -/
inductive Drains (decode : Decoder σ ε α) : σ → List α → Except ε Unit → Prop where
  | ended {source rest : σ} : decode source = some (.ok none, rest) →
      Drains decode source [] (.ok ())
  | failed {source rest : σ} {e : ε} : decode source = some (.error e, rest) →
      Drains decode source [] (.error e)
  | item {source rest : σ} {a : α} {items : List α} {ending : Except ε Unit} :
      decode source = some (.ok (some a), rest) → Drains decode rest items ending →
        Drains decode source (a :: items) ending

section

variable {decode : Decoder σ ε α} {source : σ} {items items' : List α}
  {ending ending' : Except ε Unit}

/-- Fuel for one call more than there are items is enough. -/
theorem Drains.drain (h : Drains decode source items ending) {fuel : Nat}
    (hfuel : items.length < fuel) : Netfyr.drain decode fuel source = some (items, ending) := by
  induction h generalizing fuel with
  | ended hdecode =>
      cases fuel with
      | zero => exact absurd hfuel (Nat.not_lt_zero _)
      | succ fuel => simp only [Netfyr.drain, hdecode]
  | failed hdecode =>
      cases fuel with
      | zero => exact absurd hfuel (Nat.not_lt_zero _)
      | succ fuel => simp only [Netfyr.drain, hdecode]
  | item hdecode _ ih =>
      cases fuel with
      | zero => exact absurd hfuel (Nat.not_lt_zero _)
      | succ fuel =>
          rw [List.length_cons] at hfuel
          simp only [Netfyr.drain, hdecode, ih (Nat.lt_of_succ_lt_succ hfuel)]

/-- A source drains in one way. -/
theorem Drains.unique (h : Drains decode source items ending)
    (h' : Drains decode source items' ending') : items = items' ∧ ending = ending' := by
  -- Both are what enough fuel for both computes.
  let fuel := items.length + items'.length + 1
  have hdrain := h.drain (show items.length < fuel by omega)
  have hdrain' := h'.drain (show items'.length < fuel by omega)
  rw [hdrain, Option.some.injEq, Prod.mk.injEq] at hdrain'
  exact hdrain'

/-- A decoder that does not fault, and whose items make sources smaller, drains
    every source. -/
theorem exists_drains (decode : Decoder σ ε α) (size : σ → Nat)
    (hsafe : ∀ source, (decode source).isSome = true)
    (hitem : ∀ source a rest, decode source = some (.ok (some a), rest) →
      size rest < size source) (source : σ) :
    ∃ items ending, Drains decode source items ending ∧ items.length ≤ size source := by
  induction hsize : size source using Nat.strongRecOn generalizing source with
  | ind n ih =>
      rcases Option.isSome_iff_exists.mp (hsafe source) with ⟨⟨outcome, rest⟩, hdecode⟩
      cases outcome with
      | error e => exact ⟨[], .error e, .failed hdecode, Nat.zero_le _⟩
      | ok found =>
          cases found with
          | none => exact ⟨[], .ok (), .ended hdecode, Nat.zero_le _⟩
          | some a =>
              have hsmaller := hitem source a rest hdecode
              rcases ih (size rest) (hsize ▸ hsmaller) rest rfl with ⟨items, ending, hrest, hlength⟩
              refine ⟨a :: items, ending, .item hdecode hrest, ?_⟩
              rw [List.length_cons]
              omega

end

end Netfyr
