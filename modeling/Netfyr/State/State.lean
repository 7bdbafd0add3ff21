import Netfyr.State.Value

/-!
# Selectors and States

A `State` is one source's contribution to one device: its technology type, the
selector saying which device is meant, and the fields. The runtime handle and
creation time of the source's record are left out, since nothing reads them.

## Main definitions

* `Match`: A device selector; every field set must agree.
* `Match.matches'`: Whether a selector selects.
* `Source`: What produced a state.
* `State`: One contribution.
* `State.contentEq`: Equality of everything but the bookkeeping.

## Theorems

* `Match.matches'_refl`: Every selector selects itself.
* `Match.matches'_trans`: Selection is transitive.
-/

namespace Netfyr

/-- The device type the backend manages: its addresses and link modes are read. -/
def ethernet : String := "ethernet"

/-- A device selector. Unset fields select anything. -/
structure Match where
  name : Option String := none
  type : Option String := none
  driver : Option String := none
  pciPath : Option String := none
  mac : Option String := none
  deriving DecidableEq

namespace Match

/-- A set field must be present and equal in the other selector. -/
def fieldMatches : Option String → Option String → Bool
  | some a, some b => a == b
  | some _, none => false
  | none, _ => true

/-- Equality of strings up to the case of ASCII letters. -/
def eqIgnoreAsciiCase (a b : String) : Bool :=
  a.toList.map Char.toLower == b.toList.map Char.toLower

/-- Whether the first selector selects what the second describes. -/
def matches' (self other : Match) : Bool :=
  fieldMatches self.name other.name && fieldMatches self.type other.type &&
    fieldMatches self.driver other.driver && fieldMatches self.pciPath other.pciPath &&
    match self.mac, other.mac with
    | some a, some b => eqIgnoreAsciiCase a b
    | some _, none => false
    | none, _ => true

/-- Whether no field is set. -/
def isEmpty (self : Match) : Bool :=
  self.name.isNone && self.type.isNone && self.driver.isNone && self.pciPath.isNone &&
    self.mac.isNone

theorem fieldMatches_self (a : Option String) : fieldMatches a a = true := by
  cases a with
  | none => rfl
  | some a => exact beq_self_eq_true a

theorem eqIgnoreAsciiCase_self (a : String) : eqIgnoreAsciiCase a a = true :=
  beq_self_eq_true _

theorem isEmpty_iff {self : Match} : self.isEmpty = true ↔ self = {} := by
  rcases self with ⟨name, type, driver, pciPath, mac⟩
  simp only [isEmpty, Bool.and_eq_true, Option.isNone_iff_eq_none, mk.injEq, and_assoc]

/-- Every selector selects itself. -/
theorem matches'_refl (self : Match) : self.matches' self = true := by
  simp only [matches', fieldMatches_self, Bool.true_and]
  cases self.mac with
  | none => rfl
  | some a => exact eqIgnoreAsciiCase_self a

/-- A field that is set asks for its own text. -/
theorem fieldMatches_iff {a b : Option String} :
    fieldMatches a b = true ↔ ∀ text, a = some text → b = some text := by
  cases a with
  | none => simp only [fieldMatches, reduceCtorEq, false_imp_iff, implies_true]
  | some a =>
      cases b with
      | none => simp only [fieldMatches, Bool.false_eq_true, Option.some.injEq, forall_eq',
          reduceCtorEq]
      | some b =>
          simp only [fieldMatches, beq_iff_eq, Option.some.injEq, forall_eq']
          exact eq_comm

/-- What a selector asks of each field; the hardware address is asked for up to
    case. -/
theorem matches'_iff {self other : Match} : self.matches' other = true ↔
    fieldMatches self.name other.name = true ∧ fieldMatches self.type other.type = true ∧
      fieldMatches self.driver other.driver = true ∧
      fieldMatches self.pciPath other.pciPath = true ∧
      ∀ mac, self.mac = some mac →
        ∃ mac', other.mac = some mac' ∧ eqIgnoreAsciiCase mac mac' = true := by
  simp only [matches', Bool.and_eq_true, and_assoc]
  refine and_congr_right' (and_congr_right' (and_congr_right' (and_congr_right' ?_)))
  cases self.mac with
  | none => simp only [reduceCtorEq, false_imp_iff, implies_true]
  | some mac =>
      cases other.mac with
      | none => simp only [Bool.false_eq_true, Option.some.injEq, forall_eq', reduceCtorEq,
          false_and, exists_false]
      | some mac' => simp only [Option.some.injEq, forall_eq', exists_eq_left']

theorem fieldMatches_trans {a b c : Option String} (hab : fieldMatches a b = true)
    (hbc : fieldMatches b c = true) : fieldMatches a c = true := by
  rw [fieldMatches_iff] at *
  intro text h
  exact hbc text (hab text h)

theorem eqIgnoreAsciiCase_trans {a b c : String} (hab : eqIgnoreAsciiCase a b = true)
    (hbc : eqIgnoreAsciiCase b c = true) : eqIgnoreAsciiCase a c = true := by
  unfold eqIgnoreAsciiCase at *
  rw [beq_iff_eq] at *
  exact hab.trans hbc

/-- A selector selects whatever is selected by what it selects. -/
theorem matches'_trans {a b c : Match} (hab : a.matches' b = true) (hbc : b.matches' c = true) :
    a.matches' c = true := by
  rw [matches'_iff] at *
  rcases hab with ⟨hname, htype, hdriver, hpci, hmac⟩
  rcases hbc with ⟨hname', htype', hdriver', hpci', hmac'⟩
  refine ⟨fieldMatches_trans hname hname', fieldMatches_trans htype htype',
    fieldMatches_trans hdriver hdriver', fieldMatches_trans hpci hpci', ?_⟩
  intro mac h
  rcases hmac mac h with ⟨between, hbetween, heq⟩
  rcases hmac' between hbetween with ⟨last, hlast, heq'⟩
  exact ⟨last, hlast, eqIgnoreAsciiCase_trans heq heq'⟩

end Match

/-- What produced a state. -/
inductive Source where
  | static (policy : String)
  | vpn (policy : String)
  | dhcp (policy : String)
  | ra (policy : String)
  | kernel
  deriving DecidableEq

/-- The default conflict-resolution priority of a source. -/
def Source.defaultPriority : Source → Int
  | .static _ => 100
  | .vpn _ => 75
  | .dhcp _ => 50
  | .ra _ => 25
  | .kernel => 0

/-- One source's contribution to one device. -/
structure State where
  deviceType : String
  matchSpec : Match
  fields : FieldMap
  source : Source
  priority : Int
  deriving DecidableEq

namespace State

/-- A state without type, selector or fields, at its source's priority. -/
def new (source : Source) : State :=
  { deviceType := "", matchSpec := {}, fields := .empty, source,
    priority := source.defaultPriority }

/-- Whether two states carry the same type, selector and ordered fields. -/
def contentEq (self other : State) : Bool :=
  self.deviceType == other.deviceType && self.matchSpec == other.matchSpec &&
    self.fields == other.fields

theorem contentEq_iff {self other : State} : self.contentEq other = true ↔
    self.deviceType = other.deviceType ∧ self.matchSpec = other.matchSpec ∧
      self.fields = other.fields := by
  rw [contentEq, Bool.and_eq_true, Bool.and_eq_true, beq_iff_eq, beq_iff_eq, beq_iff_eq, and_assoc]

/-- Set a scalar field of a state. -/
def setField (self : State) (key : String) (value : Value) (h : value.WellKeyed) : State :=
  { self with fields := self.fields.insert key value h }

@[simp] theorem setField_fields (self : State) (key : String) (value : Value)
    (h : value.WellKeyed) : (self.setField key value h).fields = self.fields.insert key value h :=
  rfl

/-- A set field is found with its new value, and other fields as before. -/
theorem get?_setField (self : State) (key key' : String) (value : Value) (h : value.WellKeyed) :
    (self.setField key value h).fields.get? key' =
      if key' = key then some value else self.fields.get? key' :=
  FieldMap.get?_insert _ _ _ _ h

end State

end Netfyr
