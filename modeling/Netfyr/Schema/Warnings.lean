import Netfyr.Schema.Addresses
import Netfyr.Schema.Prune

/-!
# Accounting for Pruned Entries

The warnings of a preparation account for what it removes. Each of the three
walks drops entries and names them in field order; below a dropped entry
everything goes, and beside it everything stays. What the walks over a map do to
one entry is `EntryPruned`, and `EntryPruned.keepEntry` puts the entry before
the rest.

## Main definitions

* `EntryPruned`: What pruning leaves of one entry, and what it names.

## Theorems

* `pruneEntries_account`: The names account for what is missing from a map.
-/

namespace Netfyr

/-- The paths name dropped addresses, which account for what is missing. -/
def NamesDropped (path : String) (before after : List Address) (gone : List String) : Prop :=
  ∃ dropped, gone = dropped.map (renderFrom path) ∧ Account before after dropped

/-- What is left of an entry, with the paths removed: the entry is dropped and
    named, or kept with what is missing from its value accounted for, or it
    vanishes with the last of what is in it. -/
def EntryPruned (path key : String) (value : Value) (pruned : Option Value × List String) :
    Prop :=
  pruned = (none, [joinPath path key]) ∨
    (∃ left gone, pruned = (some left, gone) ∧
      NamesDropped (joinPath path key) (addresses value) (addresses left) gone ∧
        Thinned value left) ∨
    ∃ gone, pruned = (none, gone) ∧ NamesDropped (joinPath path key) (addresses value) [] gone ∧
      addresses value ≠ []

/-- What is named is below the path. -/
theorem NamesDropped.exists_address {path : String} {value : Value} {after : List Address}
    {gone : List String} (h : NamesDropped path (addresses value) after gone) {name : String}
    (hname : name ∈ gone) : ∃ address ≠ [], name = renderFrom path address := by
  rcases h with ⟨dropped, rfl, haccount⟩
  rcases List.mem_map.mp hname with ⟨address, haddress, rfl⟩
  refine ⟨address, ?_, rfl⟩
  rintro rfl
  exact nil_not_mem_addresses value (haccount.sublist.subset haddress)

variable {node : TypedNode} {path key : String} {value : Value}

/-- Nothing is missing from a value that is kept as it is. -/
theorem entryPruned_same : EntryPruned path key value (some value, []) :=
  Or.inr (Or.inl ⟨value, [], rfl, ⟨[], rfl, Account.refl _⟩, .same⟩)

/-- The account of a map, from those of its first entry and of the others. -/
theorem EntryPruned.keepEntry {entries : List (String × Value)}
    {pruned : Option Value × List String} {rest : List (String × Value) × List String}
    (h : EntryPruned path key value pruned) (hkey : key ∉ Assoc.keys entries)
    (hrest : NamesDropped path (entryAddresses entries) (entryAddresses rest.1) rest.2)
    (hthin : ThinnedEntries entries rest.1) :
    NamesDropped path (entryAddresses ((key, value) :: entries))
        (entryAddresses (keepEntry key pruned rest).1) (keepEntry key pruned rest).2 ∧
      ThinnedEntries ((key, value) :: entries) (keepEntry key pruned rest).1 := by
  rcases hrest with ⟨droppedRest, hgone, haccount⟩
  rcases h with rfl | ⟨left, gone, rfl, ⟨dropped, rfl, hvalue⟩, hleft⟩ |
    ⟨gone, rfl, ⟨dropped, rfl, hvalue⟩, hne⟩
  · -- Dropped: named alone, for everything below it.
    refine ⟨⟨[.key key] :: droppedRest, ?_, ?_⟩, .drop hthin⟩
    · rw [Netfyr.keepEntry, hgone]
      rfl
    · exact (Account.drop (.key key) (addresses value)).append haccount (apart_entry hkey)
  · -- Kept: what is missing lies below its key.
    refine ⟨⟨dropped.map (.key key :: ·) ++ droppedRest, ?_, ?_⟩, .keep hleft hthin⟩
    · rw [Netfyr.keepEntry, hgone, List.map_append, List.map_map]
      rfl
    · exact (hvalue.keep (nil_not_mem_addresses value)).append haccount (apart_entry hkey)
  · refine ⟨⟨dropped.map (.key key :: ·) ++ droppedRest, ?_, ?_⟩, .drop hthin⟩
    · rw [Netfyr.keepEntry, hgone, List.map_append, List.map_map]
      rfl
    · -- Vanished: nothing of it is left, so the key itself needs no name.
      exact (hvalue.vanish hne).append haccount (apart_entry hkey)

mutual
/-- Pruning a property drops it, or accounts for what it drops from its value. -/
theorem pruneProperty_entryPruned {node : TypedNode} : (value : Value) → value.WellKeyed →
    (path key : String) →
      EntryPruned path key value (pruneProperty node value (joinPath path key))
  | value, h, path, key => by
      cases hw : node.node.writable with
      | false =>
          rw [pruneProperty_readOnly hw]
          -- Read-only: the property goes whole, and is named.
          exact Or.inl rfl
      | true =>
          cases value with
          | map entries =>
              rw [pruneProperty_map hw]
              rcases pruneEntries_account entries h (joinPath path key) with ⟨hnamed, hthin⟩
              exact Or.inr (Or.inl ⟨_, _, rfl, hnamed, .map hthin⟩)
          | list items =>
              rw [pruneProperty_list hw]
              cases node.items with
              | none => exact entryPruned_same
              | some itemSchema =>
                  rcases pruneItems_account items h (joinPath path key) 0 with ⟨hnamed, hthin⟩
                  exact Or.inr (Or.inl ⟨_, _, rfl, hnamed, .list hthin⟩)
          | _ =>
              rw [pruneProperty_scalar hw (by trivial)]
              exact entryPruned_same
termination_by structural value => value
/-- Pruning a map names what accounts for the missing entries. -/
theorem pruneEntries_account {node : TypedNode} : (entries : List (String × Value)) →
    (Value.map entries).WellKeyed → (path : String) →
      NamesDropped path (entryAddresses entries) (entryAddresses (pruneEntries node entries path).1)
          (pruneEntries node entries path).2 ∧
        ThinnedEntries entries (pruneEntries node entries path).1
  | [], _, path => ⟨⟨[], rfl, Account.refl _⟩, .nil⟩
  | (key, value) :: entries, h, path => by
      have hkeys := List.nodup_cons.mp h.1
      rcases pruneEntries_account entries ⟨hkeys.2, h.2.2⟩ path with ⟨hnamed, hthin⟩
      refine EntryPruned.keepEntry ?_ hkeys.1 hnamed hthin
      cases node.property key with
      | some prop => exact pruneProperty_entryPruned value h.2.1 path key
      | none => exact entryPruned_same
termination_by structural entries => entries
/-- The same for the elements of a list, none of which goes. -/
theorem pruneItems_account {node : TypedNode} : (items : List Value) →
    Value.WellKeyedList items → (path : String) → (index : Nat) →
      NamesDropped path (itemAddresses items index)
          (itemAddresses (pruneItems node items path index).1 index)
          (pruneItems node items path index).2 ∧
        ThinnedItems items (pruneItems node items path index).1
  | [], _, path, index => ⟨⟨[], rfl, Account.refl _⟩, .nil⟩
  | item :: items, h, path, index => by
      have hitems : NamesDropped path _ _ (pruneItems node items path (index + 1)).2 ∧ _ :=
        pruneItems_account items h.2 path (index + 1)
      rcases hitems with ⟨⟨rest, hgone, hrest⟩, hthin⟩
      cases item with
      | map entries =>
          have hitem : NamesDropped _ _ _ (pruneEntries node entries s!"{path}[{index}]").2 ∧ _ :=
            pruneEntries_account entries h.1 _
          rcases hitem with ⟨⟨dropped, hdropped, haccount⟩, hentries⟩
          have hapart : Apart ((addresses (.map entries)).map (Step.index index :: ·))
              (itemAddresses items (index + 1)) := apart_item
          refine ⟨⟨dropped.map (.index index :: ·) ++ rest, ?_, ?_⟩, .cons (.map hentries) hthin⟩
          · rw [pruneItems, hgone, List.map_append, List.map_map]
            exact congrArg (· ++ _) hdropped
          · exact (haccount.below (.index index)).append hrest hapart
      | _ =>
          -- Only the objects of a list are entered.
          refine ⟨⟨rest, hgone, ?_⟩, .cons .same hthin⟩
          exact (Account.refl _).append hrest apart_item
termination_by structural items => items
end

section Paths

/-- A path keeps its characters when it is continued. -/
theorem mem_renderFrom {c : Char} (address : Address) {path : String} (h : c ∈ path.toList) :
    c ∈ (renderFrom path address).toList := by
  induction address generalizing path with
  | nil => exact h
  | cons step address ih =>
      cases step with
      | key key =>
          refine ih ?_
          unfold joinPath
          split
          · next hempty =>
              rw [hempty] at h
              exact absurd h (by simp)
          · simp only [String.toList_append, List.mem_append]
            exact Or.inl (Or.inl h)
      | index index =>
          refine ih ?_
          simp only [String.toList_append, List.mem_append]
          exact Or.inl (Or.inl (Or.inl h))

/-- The path of a part has a dot or a bracket. -/
theorem special_mem_renderFrom {path : String} (hpath : path ≠ "") {address : Address}
    (haddress : address ≠ []) :
    '.' ∈ (renderFrom path address).toList ∨ '[' ∈ (renderFrom path address).toList := by
  cases address with
  | nil => exact absurd rfl haddress
  | cons step address =>
      cases step with
      | key key =>
          refine Or.inl (mem_renderFrom address ?_)
          rw [joinPath, if_neg hpath]
          simp
      | index index =>
          refine Or.inr (mem_renderFrom address ?_)
          simp only [String.toList_append, List.mem_append]
          exact Or.inl (Or.inl (Or.inr (by decide)))

end Paths

namespace SchemaRegistry

variable {self : SchemaRegistry}

/-- A field vanishes silently when it is an empty object of a fragment. -/
def Silent (self : SchemaRegistry) (fields : List (String × Value)) : Prop :=
  ∃ key, (self.triggered key).isSome = true ∧ (key, Value.map []) ∈ fields

/-- Pruning a field accounts for what goes, unless it goes silently. -/
theorem pruneField_entryPruned {key : String} {value : Value} (h : value.WellKeyed)
    (hsilent : (self.triggered key).isSome = true → value ≠ .map []) :
    EntryPruned "" key value (self.pruneField key value) := by
  have hjoin : joinPath "" key = key := rfl
  rw [pruneField]
  cases ht : self.triggered key with
  | none =>
      dsimp only
      cases self.base.root.property key with
      | none => exact entryPruned_same
      | some prop => exact pruneProperty_entryPruned value h "" key
  | some fragment =>
      rw [ht] at hsilent
      cases value with
      | map entries =>
          have haccount : NamesDropped key (entryAddresses entries) _
              (pruneEntries fragment.root entries key).2 ∧ _ := pruneEntries_account entries h key
          rcases haccount with ⟨hnamed, hthin⟩
          dsimp only
          split
          · next hempty =>
              rw [hempty] at hnamed
              -- A fragment's object goes when nothing is left of it; if it had no
              -- entry to begin with, it would go unnamed.
              refine Or.inr (Or.inr ⟨_, rfl, hnamed, ?_⟩)
              have hne : entries ≠ [] := by
                rintro rfl
                exact hsilent rfl rfl
              rcases entries with _ | ⟨⟨key', value'⟩, entries⟩
              · exact absurd rfl hne
              · exact List.cons_ne_nil _ _
          · exact Or.inr (Or.inl ⟨_, _, rfl, hnamed, .map hthin⟩)
      | _ => exact entryPruned_same

/-- Pruning the fields of a state accounts for what goes, unless one goes
    silently. -/
theorem pruneFields_account : (entries : List (String × Value)) →
    (Value.map entries).WellKeyed → ¬ self.Silent entries →
      NamesDropped "" (entryAddresses entries) (entryAddresses (self.pruneFields entries).1)
          (self.pruneFields entries).2 ∧
        ThinnedEntries entries (self.pruneFields entries).1
  | [], _, _ => ⟨⟨[], rfl, Account.refl _⟩, .nil⟩
  | (key, value) :: entries, h, hsilent => by
      have hkeys := List.nodup_cons.mp h.1
      have hrest : ¬ self.Silent entries := by
        rintro ⟨key', ht, hmem⟩
        exact hsilent ⟨key', ht, List.mem_cons_of_mem _ hmem⟩
      rcases pruneFields_account entries ⟨hkeys.2, h.2.2⟩ hrest with ⟨hnamed, hthin⟩
      refine EntryPruned.keepEntry (pruneField_entryPruned h.2.1 ?_) hkeys.1 hnamed hthin
      rintro ht rfl
      exact hsilent ⟨key, ht, List.mem_cons_self⟩

/-- What pruning names is a base property, or lies inside a field. -/
theorem mem_pruneFields_gone {entries : List (String × Value)} (h : (Value.map entries).WellKeyed)
    {gone : String} (hgone : gone ∈ (self.pruneFields entries).2) :
    ∃ key, (self.triggered key = none ∧ self.base.root.property key ≠ none ∧ gone = key) ∨
      (((self.triggered key).isSome = true ∨ self.base.root.property key ≠ none) ∧
        ∃ address ≠ [], gone = renderFrom key address) := by
  induction entries with
  | nil => exact absurd hgone List.not_mem_nil
  | cons entry entries ih =>
      rcases entry with ⟨key, value⟩
      rw [pruneFields, keepEntry, List.mem_append] at hgone
      rcases hgone with hhead | htail
      · refine ⟨key, ?_⟩
        rw [pruneField] at hhead
        cases ht : self.triggered key with
        | none =>
            rw [ht] at hhead
            cases hp : self.base.root.property key with
            | none =>
                rw [hp] at hhead
                exact absurd hhead List.not_mem_nil
            | some prop =>
                rw [hp] at hhead
                dsimp only at hhead
                have hbase : some prop ≠ none := Option.some_ne_none prop
                have hpruned : EntryPruned "" key value
                    (pruneProperty prop value (joinPath "" key)) :=
                  pruneProperty_entryPruned value h.2.1 "" key
                rcases hpruned with heq | ⟨left, names, heq, hnamed, _⟩ |
                  ⟨names, heq, hnamed, _⟩
                · rw [heq] at hhead
                  exact Or.inl ⟨rfl, hbase, List.mem_singleton.mp hhead⟩
                · rw [heq] at hhead
                  exact Or.inr ⟨Or.inr hbase, hnamed.exists_address hhead⟩
                · rw [heq] at hhead
                  exact Or.inr ⟨Or.inr hbase, hnamed.exists_address hhead⟩
        | some fragment =>
            rw [ht] at hhead
            cases value with
            | map inner =>
                have haccount : NamesDropped key (addresses (.map inner)) _
                    (pruneEntries fragment.root inner key).2 ∧ _ :=
                  pruneEntries_account inner h.2.1 key
                exact Or.inr ⟨Or.inl rfl, haccount.1.exists_address hhead⟩
            | _ => exact absurd hhead List.not_mem_nil
      · exact ih ⟨(List.nodup_cons.mp h.1).2, h.2.2⟩ htail

end SchemaRegistry

end Netfyr
