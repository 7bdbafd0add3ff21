import Netfyr.Data.Account
import Netfyr.Schema.Node
import Netfyr.State.Value

/-!
# Addresses of Entries

Where the entries of a field map are, at any depth. An address is a list of
steps, by key through a map and by index through a list, and the addresses of a
map are listed in field order. A path is an address as text; different addresses
may have one path, since keys may contain dots.

What a walk that drops entries leaves of a map is `Thinned`: every entry that is
still there stands where it stood, under its key and with its value, except that
entries may be missing from that value in turn.

## Main definitions

* `Step`, `Address`: The way to an entry.
* `addresses`: The addresses in a value, in field order.
* `renderFrom`, `render`: An address as a path.
* `Thinned`: Nothing but missing entries changed.

## Theorems

* `addresses_nodup`: No address is listed twice.
* `entryAddresses_nodup`: Nor is one of the entries of a map.
-/

namespace Netfyr

/-- A step from a value to a part of it. -/
inductive Step where
  | key (key : String)
  | index (index : Nat)
  deriving DecidableEq

/-- The way to an entry. -/
abbrev Address : Type := List Step

mutual
/-- The addresses of the entries in a value, in field order. -/
def addresses : Value → List Address
  | .map entries => entryAddresses entries
  | .list items => itemAddresses items 0
  | .string _ | .u64 _ | .i64 _ | .bool _ | .ipAddr _ | .ipNetwork _ _ => []
termination_by structural value => value
/-- The addresses of the entries of a map, and of what is in them. -/
def entryAddresses : List (String × Value) → List Address
  | [] => []
  | (key, value) :: entries =>
      ([.key key] :: (addresses value).map (.key key :: ·)) ++ entryAddresses entries
termination_by structural entries => entries
/-- The addresses in the elements of a list, from number `index` on. -/
def itemAddresses : List Value → Nat → List Address
  | [], _ => []
  | item :: items, index =>
      (addresses item).map (.index index :: ·) ++ itemAddresses items (index + 1)
termination_by structural items => items
end

/-- The path of an address, continued from a path. -/
def renderFrom : String → Address → String
  | path, [] => path
  | path, .key key :: address => renderFrom (joinPath path key) address
  | path, .index index :: address => renderFrom s!"{path}[{index}]" address

/-- The path of an address. -/
def render (address : Address) : String := renderFrom "" address

mutual
/-- The second value is the first without some of its entries, at any depth. -/
inductive Thinned : Value → Value → Prop where
  | same {value : Value} : Thinned value value
  | list {items items' : List Value} : ThinnedItems items items' →
      Thinned (.list items) (.list items')
  | map {entries entries' : List (String × Value)} : ThinnedEntries entries entries' →
      Thinned (.map entries) (.map entries')
/-- The same for entries: those that are left keep their keys and their order. -/
inductive ThinnedEntries : List (String × Value) → List (String × Value) → Prop where
  | nil : ThinnedEntries [] []
  | keep {key : String} {value value' : Value} {entries entries' : List (String × Value)} :
      Thinned value value' → ThinnedEntries entries entries' →
      ThinnedEntries ((key, value) :: entries) ((key, value') :: entries')
  | drop {entry : String × Value} {entries entries' : List (String × Value)} :
      ThinnedEntries entries entries' → ThinnedEntries (entry :: entries) entries'
/-- The same for the elements of a list, none of which is missing. -/
inductive ThinnedItems : List Value → List Value → Prop where
  | nil : ThinnedItems [] []
  | cons {item item' : Value} {items items' : List Value} :
      Thinned item item' → ThinnedItems items items' →
      ThinnedItems (item :: items) (item' :: items')
end

section Heads

/-- The addresses of a map begin with its keys. -/
theorem head_entryAddresses {entries : List (String × Value)} {address : Address}
    (h : address ∈ entryAddresses entries) :
    ∃ key ∈ Assoc.keys entries, ∃ rest, address = .key key :: rest := by
  induction entries with
  | nil => exact absurd h List.not_mem_nil
  | cons entry entries ih =>
      rcases entry with ⟨key, value⟩
      rw [entryAddresses, List.mem_append] at h
      rcases h with hhead | htail
      · refine ⟨key, List.mem_cons_self, ?_⟩
        rcases List.mem_cons.mp hhead with rfl | hbelow
        · exact ⟨[], rfl⟩
        · rcases List.mem_map.mp hbelow with ⟨rest, _, rfl⟩
          exact ⟨rest, rfl⟩
      · rcases ih htail with ⟨key', hkey', hrest⟩
        exact ⟨key', List.mem_cons_of_mem _ hkey', hrest⟩

/-- The addresses in the elements of a list begin with their numbers. -/
theorem head_itemAddresses {items : List Value} {start : Nat} {address : Address}
    (h : address ∈ itemAddresses items start) :
    ∃ index rest, start ≤ index ∧ address = .index index :: rest := by
  induction items generalizing start with
  | nil => exact absurd h List.not_mem_nil
  | cons item items ih =>
      rw [itemAddresses, List.mem_append] at h
      rcases h with hhead | htail
      · rcases List.mem_map.mp hhead with ⟨rest, _, rfl⟩
        exact ⟨start, rest, Nat.le_refl _, rfl⟩
      · rcases ih htail with ⟨index, rest, hle, hrest⟩
        exact ⟨index, rest, by omega, hrest⟩

theorem nil_not_mem_addresses (value : Value) : [] ∉ addresses value := by
  intro h
  cases value with
  | map entries =>
      rcases head_entryAddresses h with ⟨key, _, rest, heq⟩
      exact absurd heq (List.cons_ne_nil _ _).symm
  | list items =>
      rcases head_itemAddresses h with ⟨index, rest, _, heq⟩
      exact absurd heq (List.cons_ne_nil _ _).symm
  | _ => exact absurd h List.not_mem_nil

/-- Addresses with different first steps are apart. -/
theorem apart_of_heads {left right : List Address}
    (h : ∀ address ∈ left, ∀ address' ∈ right, ∃ step step' rest rest',
      address = step :: rest ∧ address' = step' :: rest' ∧ step ≠ step') : Apart left right := by
  intro address hleft address' hright
  rcases h address hleft address' hright with ⟨step, step', rest, rest', rfl, rfl, hne⟩
  constructor
  · intro hbelow
    exact hne (List.cons_prefix_cons.mp hbelow).1
  · intro hbelow
    exact hne (List.cons_prefix_cons.mp hbelow).1.symm

/-- The addresses of an entry are apart from those of entries of other keys. -/
theorem apart_entry {key : String} {value : Value} {entries : List (String × Value)}
    (hkey : key ∉ Assoc.keys entries) :
    Apart ([.key key] :: (addresses value).map (.key key :: ·)) (entryAddresses entries) := by
  refine apart_of_heads fun address haddress address' haddress' => ?_
  rcases head_entryAddresses haddress' with ⟨key', hkey', rest', rfl⟩
  have hne : Step.key key ≠ Step.key key' := by
    rw [Ne, Step.key.injEq]
    rintro rfl
    exact hkey hkey'
  rcases List.mem_cons.mp haddress with rfl | hbelow
  · exact ⟨_, _, _, _, rfl, rfl, hne⟩
  · rcases List.mem_map.mp hbelow with ⟨rest, _, rfl⟩
    exact ⟨_, _, _, _, rfl, rfl, hne⟩

/-- The addresses in an element are apart from those in later ones. -/
theorem apart_item {item : Value} {items : List Value} {index : Nat} :
    Apart ((addresses item).map (.index index :: ·)) (itemAddresses items (index + 1)) := by
  refine apart_of_heads fun address haddress address' haddress' => ?_
  rcases List.mem_map.mp haddress with ⟨rest, _, rfl⟩
  rcases head_itemAddresses haddress' with ⟨index', rest', hle, rfl⟩
  refine ⟨_, _, _, _, rfl, rfl, ?_⟩
  rw [Ne, Step.index.injEq]
  omega

end Heads

section Nodup

/-- Paths that are apart are different. -/
theorem Apart.disjoint {left right : List Address} (h : Apart left right) :
    left.Disjoint right := by
  intro address hleft hright
  exact (h address hleft address hright).1 (List.prefix_refl address)

mutual
/-- No entry in a value is listed twice. -/
theorem addresses_nodup : (value : Value) → value.WellKeyed → (addresses value).Nodup
  | .map entries, h => entryAddresses_nodup entries h
  | .list items, h => itemAddresses_nodup items 0 h
  | .string _, _ | .u64 _, _ | .i64 _, _ | .bool _, _ | .ipAddr _, _ | .ipNetwork _ _, _ =>
      List.nodup_nil
termination_by structural value => value
/-- The same for the entries of a map. -/
theorem entryAddresses_nodup : (entries : List (String × Value)) →
    (Value.map entries).WellKeyed → (entryAddresses entries).Nodup
  | [], _ => List.nodup_nil
  | (key, value) :: entries, h => by
      have hkeys := List.nodup_cons.mp h.1
      have hbelow : ((addresses value).map (Step.key key :: ·)).Nodup :=
        (addresses_nodup value h.2.1).map fun _ _ heq => (List.cons.inj heq).2
      rw [entryAddresses, List.nodup_append']
      refine ⟨List.nodup_cons.mpr ⟨?_, hbelow⟩, entryAddresses_nodup entries ⟨hkeys.2, h.2.2⟩,
        (apart_entry hkeys.1).disjoint⟩
      intro hmem
      rcases List.mem_map.mp hmem with ⟨rest, hrest, heq⟩
      rw [List.cons.injEq] at heq
      exact nil_not_mem_addresses value (heq.2 ▸ hrest)
termination_by structural entries => entries
/-- The same for the elements of a list. -/
theorem itemAddresses_nodup : (items : List Value) → (index : Nat) →
    Value.WellKeyedList items → (itemAddresses items index).Nodup
  | [], _, _ => List.nodup_nil
  | item :: items, index, h => by
      rw [itemAddresses, List.nodup_append']
      exact ⟨(addresses_nodup item h.1).map fun _ _ heq => (List.cons.inj heq).2,
        itemAddresses_nodup items (index + 1) h.2, apart_item.disjoint⟩
termination_by structural items => items
end

end Nodup

end Netfyr
