import Netfyr.Schema.Validate

/-!
# Field by Field

Validation asks something of each field of a state on its own, of the keys that
are there, and of the device type. Which fragment a field belongs to is a matter
of its key: its own, when the key triggers one, and the base otherwise. A walk
that adds, drops or replaces fields is then checked one field at a time.

## Main definitions

* `SchemaRegistry.FieldConforms`: What a registry asks of one field.
* `SchemaRegistry.TypeConforms`: What it asks of the device type.

## Theorems

* `stateConforms_iff`: A state conforms when its fields do, one by one.
-/

namespace Netfyr

namespace SchemaRegistry

/-- What a registry asks of a field: an object of the fragment its key triggers,
    or a value of the base property of that name. -/
def FieldConforms (self : SchemaRegistry) (writableOnly : Bool) (key : String) (value : Value) :
    Prop :=
  match self.triggered key with
  | some fragment => ∃ inner, value = .map inner ∧
      ConformsEntries writableOnly fragment.root [] inner ∧
        HasRequired fragment.root (Assoc.keys inner) []
  | none =>
      (∀ prop, self.base.root.property key = some prop →
        (writableOnly = true → prop.node.writable = true) ∧ Conforms writableOnly prop value) ∧
      (self.base.root.property key = none → self.base.root.isOpen = true)

/-- What a registry asks of a device type, if there is one. -/
def TypeConforms (self : SchemaRegistry) (deviceType : String) : Prop :=
  deviceType ≠ "" → ∀ typeNode, self.base.root.property "type" = some typeNode →
    Conforms false typeNode (.string deviceType)

variable {self : SchemaRegistry} {state : State} {writableOnly : Bool}

/-- A state conforms when its fields do, one by one. -/
theorem stateConforms_iff : self.StateConforms state writableOnly ↔
    (∀ key value, state.fields.get? key = some value →
      self.FieldConforms writableOnly key value) ∧
      HasRequired self.base.root state.fields.keys self.triggerKeys ∧
        self.TypeConforms state.deviceType := by
  constructor
  · intro h
    rcases (h _ self.base_mem).1 self.base_triggerKey with ⟨hentries, hrequired, htype⟩
    refine ⟨?_, hrequired, htype⟩
    intro key value hget
    unfold FieldConforms
    split
    · next fragment ht =>
        have hfragment := triggered_eq_some.mp ht
        exact (h fragment hfragment.1).2 key hfragment.2 value hget
    · next ht =>
        exact conformsEntries_iff.mp hentries (key, value) (Assoc.mem_of_lookup hget)
          (not_mem_triggerKeys.mpr ht)
  · rintro ⟨hfields, hrequired, htype⟩ fragment hmem
    constructor
    · intro hnone
      obtain rfl := self.eq_of_triggerKey_eq hmem self.base_mem
        (hnone.trans self.base_triggerKey.symm)
      refine ⟨conformsEntries_iff.mpr ?_, hrequired, htype⟩
      intro entry hentry hkey
      have hfield := hfields entry.1 entry.2
        (Assoc.lookup_of_mem state.fields.wellKeyed.1 hentry)
      rw [FieldConforms, not_mem_triggerKeys.mp hkey] at hfield
      exact hfield
    · intro key hkey value hget
      have hfield := hfields key value hget
      rw [FieldConforms, triggered_eq_some.mpr ⟨hmem, hkey⟩] at hfield
      exact hfield

end SchemaRegistry

end Netfyr
