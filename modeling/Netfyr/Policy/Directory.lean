import Netfyr.Policy.Load

/-!
# Policy Directories

A directory of policies is walked down, and every policy file that is found on
the way is loaded, in the order of the paths. What is hidden is not looked at,
and links are not followed. The file system lists a directory in whatever order
it likes, and any step of it may fail.

A name is its bytes, and a path its names. The walk notes the files and reads
none, so a file that cannot be read fails the loading in its turn, behind those
before it.

## Main definitions

* `FileNode`, `DirEntry`, `Listing`: A directory as the file system tells it.
* `fileStem`, `extension`: The two parts of a file name.
* `collectPolicyFiles`: The walk.
* `loadPolicyFile`, `loadPolicyDir`: One file, and a directory.
* `Listing.Shows`: The policy files of a directory.
* `Listing.Fails`: Something on the way to them fails.
* `Collected`: What the walk is to find.

## Theorems

* `collectPolicyFiles_walks`: The walk fails where something on the way does, and
  finds each policy file once otherwise.
-/

namespace Netfyr

/-- The bytes of a file name. -/
abbrev FileName : Type := List UInt8

/-- The names on the way to a file. -/
abbrev RelativePath : Type := List FileName

mutual
/-- What an entry is. The text of a file may be unreadable. -/
inductive FileNode where
  | file (content : Except String String)
  | directory (listing : Listing)
  | symlink
  | other
/-- An entry, unless its reading or that of its type fails. -/
inductive DirEntry where
  | failed (message : String)
  | untyped (name : FileName) (message : String)
  | typed (name : FileName) (node : FileNode)
/-- The entries of a directory, in the order of the file system. A directory
    that cannot be read is one whose first entry cannot. -/
inductive Listing where
  | nil
  | cons (entry : DirEntry) (rest : Listing)
end

/-- The byte of a full stop. -/
def dot : UInt8 := 0x2E

/-- The parts of a file name before and behind its last full stop. A full stop
    in front does not count. -/
def splitFileAtDot (name : FileName) : FileName × Option FileName :=
  if name = [dot, dot] then (name, none)
  else
    let (after, before) := name.reverse.span fun byte => byte != dot
    match before with
    | [] | [_] => (name, none)
    | _ :: before => (before.reverse, some after.reverse)

def fileStem (name : FileName) : FileName := (splitFileAtDot name).1

def extension (name : FileName) : Option FileName := (splitFileAtDot name).2

/-- A name as text, if it is valid UTF-8. -/
def nameText (name : FileName) : Option String := String.fromUTF8? ⟨name.toArray⟩

/-- Whether a name is that of a hidden entry. -/
def isHidden (name : FileName) : Bool := name.head? == some dot

/-- Whether a name is that of a policy file. -/
def isPolicyName (name : FileName) : Bool :=
  -- `yaml` and `yml`.
  extension name == some [0x79, 0x61, 0x6D, 0x6C] || extension name == some [0x79, 0x6D, 0x6C]

/-- A policy file that was found. -/
structure PolicyFile where
  path : RelativePath
  content : Except String String

/-- Collect the policy files below a directory, behind those found before. -/
def collectPolicyFiles (path : RelativePath) :
    Listing → List PolicyFile → Except String (List PolicyFile)
  | .nil, files => .ok files
  | .cons (.failed message) _, _ => .error message
  | .cons (.untyped name message) rest, files =>
      -- The type of a hidden entry is not asked for.
      if isHidden name then collectPolicyFiles path rest files else .error message
  | .cons (.typed name node) rest, files =>
      if isHidden name then collectPolicyFiles path rest files
      else
        match node with
        | .symlink | .other => collectPolicyFiles path rest files
        | .directory listing => do
            let files ← collectPolicyFiles (path ++ [name]) listing files
            collectPolicyFiles path rest files
        | .file content =>
            if isPolicyName name then
              collectPolicyFiles path rest (files ++ [{ path := path ++ [name], content }])
            else collectPolicyFiles path rest files
termination_by structural listing => listing

/-- An error of loading from files: those of reading, and those of policies. -/
inductive LoadError where
  | io (message : String)
  | policy (error : PolicyError)
  deriving DecidableEq

/-- A computation that may fail so, and is absent where the source panics. -/
abbrev Reading (α : Type) := ExceptT LoadError Option α

section

variable (parse : String → Except String YamlValue) (print : YamlValue → Except String String)

/-- Load one file. Its policies are named after it. -/
def loadPolicyFile (file : PolicyFile) (matchBy : MatchBy) : Reading LoadOutcome := do
  let input ← file.content.mapError LoadError.io
  match (file.path.getLast?.map fileStem).bind nameText with
  | none => throw (.policy .emptyName)
  | some stem =>
      if stem = "" then throw (.policy .emptyName)
      else (loadDocument parse print input stem matchBy).adapt LoadError.policy

/-- Add policies to those loaded before, whose names are taken. -/
def addPolicies : List Policy → List Policy → Except PolicyError (List Policy)
  | [], policies => .ok policies
  | policy :: rest, policies =>
      if policy.name ∈ policies.map Policy.name then .error (.duplicateName policy.name)
      else addPolicies rest (policies ++ [policy])

/-- Load files one by one. -/
def loadPolicyFiles (matchBy : MatchBy) : List PolicyFile → LoadOutcome → Reading LoadOutcome
  | [], outcome => pure outcome
  | file :: files, outcome => do
      let loaded ← loadPolicyFile parse print file matchBy
      let policies ← (addPolicies loaded.policies outcome.policies).mapError LoadError.policy
      loadPolicyFiles matchBy files
        { policies, warnings := outcome.warnings ++ loaded.warnings }

/-- Load the policy files of a directory in the order of their paths. -/
def loadPolicyDir (listing : Listing) (matchBy : MatchBy) : Reading LoadOutcome := do
  let files ← (collectPolicyFiles [] listing []).mapError LoadError.io
  loadPolicyFiles parse print matchBy (files.insertionSort fun a b => a.path ≤ b.path)
    { policies := [], warnings := [] }

end

/-- The entries of a listing. -/
def Listing.entries : Listing → List DirEntry
  | .nil => []
  | .cons entry rest => entry :: rest.entries
termination_by structural listing => listing

/-- The name of an entry, if it could be read. -/
def DirEntry.name? : DirEntry → Option FileName
  | .failed _ => none
  | .untyped name _ | .typed name _ => some name

/-- The names in a listing. -/
def Listing.names (self : Listing) : List FileName := self.entries.filterMap DirEntry.name?

/-- The policy files of a directory: those with the name of one that are not hidden
    and in no directory that is. -/
inductive Listing.Shows : Listing → RelativePath → Except String String → Prop where
  | file {listing : Listing} {name : FileName} {content : Except String String}
      (hmem : .typed name (.file content) ∈ listing.entries) (hvisible : isHidden name = false)
      (hpolicy : isPolicyName name = true) : listing.Shows [name] content
  | under {listing below : Listing} {name : FileName} {path : RelativePath}
      {content : Except String String} (hmem : .typed name (.directory below) ∈ listing.entries)
      (hvisible : isHidden name = false) (hshows : below.Shows path content) :
      listing.Shows (name :: path) content

/-- Something fails on the way to them. -/
inductive Listing.Fails : Listing → Prop where
  | entry {listing : Listing} {message : String} (hmem : .failed message ∈ listing.entries) :
      listing.Fails
  | type {listing : Listing} {name : FileName} {message : String}
      (hmem : .untyped name message ∈ listing.entries) (hvisible : isHidden name = false) :
      listing.Fails
  | under {listing below : Listing} {name : FileName}
      (hmem : .typed name (.directory below) ∈ listing.entries) (hvisible : isHidden name = false)
      (hfails : below.Fails) : listing.Fails

/-- No directory has two entries of one name. -/
inductive Listing.Distinct : Listing → Prop where
  | intro {listing : Listing} (hnames : listing.names.Nodup)
      (hbelow : ∀ name below, .typed name (.directory below) ∈ listing.entries → below.Distinct) :
      listing.Distinct

section Entries

variable {entry : DirEntry} {rest listing : Listing} {path : RelativePath}
  {content : Except String String}

/-- What a directory shows, one of its entries does. -/
theorem Listing.shows_iff : listing.Shows path content ↔
    ∃ entry ∈ listing.entries, (Listing.cons entry .nil).Shows path content := by
  constructor
  · intro h
    cases h with
    | file hmem hvisible hpolicy => exact ⟨_, hmem, .file List.mem_cons_self hvisible hpolicy⟩
    | under hmem hvisible hshows => exact ⟨_, hmem, .under List.mem_cons_self hvisible hshows⟩
  · rintro ⟨entry, hmem, h⟩
    cases h with
    | file hone hvisible hpolicy =>
        rw [← List.mem_singleton.mp hone] at hmem
        exact .file hmem hvisible hpolicy
    | under hone hvisible hshows =>
        rw [← List.mem_singleton.mp hone] at hmem
        exact .under hmem hvisible hshows

/-- What fails in a directory, fails with one of its entries. -/
theorem Listing.fails_iff : listing.Fails ↔
    ∃ entry ∈ listing.entries, (Listing.cons entry .nil).Fails := by
  constructor
  · intro h
    cases h with
    | entry hmem => exact ⟨_, hmem, .entry List.mem_cons_self⟩
    | type hmem hvisible => exact ⟨_, hmem, .type List.mem_cons_self hvisible⟩
    | under hmem hvisible hfails => exact ⟨_, hmem, .under List.mem_cons_self hvisible hfails⟩
  · rintro ⟨entry, hmem, h⟩
    cases h with
    | entry hone =>
        rw [← List.mem_singleton.mp hone] at hmem
        exact .entry hmem
    | type hone hvisible =>
        rw [← List.mem_singleton.mp hone] at hmem
        exact .type hmem hvisible
    | under hone hvisible hfails =>
        rw [← List.mem_singleton.mp hone] at hmem
        exact .under hmem hvisible hfails

theorem Listing.shows_cons : (Listing.cons entry rest).Shows path content ↔
    (Listing.cons entry .nil).Shows path content ∨ rest.Shows path content := by
  rw [shows_iff, Listing.entries, List.exists_mem_cons_iff, ← shows_iff]

theorem Listing.fails_cons :
    (Listing.cons entry rest).Fails ↔ (Listing.cons entry .nil).Fails ∨ rest.Fails := by
  rw [fails_iff, Listing.entries, List.exists_mem_cons_iff, ← fails_iff]

/-- What is shown is shown under a name of the directory. -/
theorem Listing.Shows.named (h : listing.Shows path content) :
    ∃ name below, path = name :: below ∧ name ∈ listing.names := by
  cases h with
  | file hmem _ _ => exact ⟨_, [], rfl, List.mem_filterMap.mpr ⟨_, hmem, rfl⟩⟩
  | under hmem _ _ => exact ⟨_, _, rfl, List.mem_filterMap.mpr ⟨_, hmem, rfl⟩⟩

theorem Listing.distinct_cons : (Listing.cons entry rest).Distinct ↔
    (Listing.cons entry .nil).Distinct ∧ rest.Distinct ∧
      ∀ name, entry.name? = some name → name ∉ rest.names := by
  constructor
  · rintro ⟨hnames, hbelow⟩
    rw [Listing.names, Listing.entries, List.filterMap_cons] at hnames
    refine ⟨⟨?_, fun name below hmem => ?_⟩, ⟨?_, fun name below hmem => ?_⟩, ?_⟩
    · cases hname : entry.name? with
      | none => simp [Listing.names, Listing.entries, hname]
      | some name => simp [Listing.names, Listing.entries, hname]
    · rw [← List.mem_singleton.mp hmem] at hbelow
      exact hbelow name below List.mem_cons_self
    · cases hname : entry.name? with
      | none => rwa [hname] at hnames
      | some name =>
          rw [hname] at hnames
          exact (List.nodup_cons.mp hnames).2
    · exact hbelow name below (List.mem_cons_of_mem _ hmem)
    · intro name hname
      rw [hname] at hnames
      exact (List.nodup_cons.mp hnames).1
  · rintro ⟨⟨_, hentry⟩, ⟨hnames, hbelow⟩, hnew⟩
    refine ⟨?_, fun name below hmem => ?_⟩
    · rw [Listing.names, Listing.entries, List.filterMap_cons]
      cases hname : entry.name? with
      | none => exact hnames
      | some name => exact List.nodup_cons.mpr ⟨hnew name hname, hnames⟩
    · rcases List.mem_cons.mp hmem with heq | hmem
      · exact hentry name below (List.mem_singleton.mpr heq)
      · exact hbelow name below hmem

end Entries

/-- What the walk of a directory finds. -/
structure Collected (path : RelativePath) (listing : Listing) (found : List PolicyFile) :
    Prop where
  reads : ¬ listing.Fails
  finds : ∀ file, file ∈ found ↔
    ∃ below, file.path = path ++ below ∧ listing.Shows below file.content
  once : listing.Distinct → (found.map PolicyFile.path).Nodup

section Walk

variable {path : RelativePath} {entry : DirEntry} {rest listing : Listing} {name : FileName}
  {found found' : List PolicyFile} {content : Except String String}

/-- An entry that shows nothing adds nothing. -/
theorem Collected.empty (hreads : ¬ listing.Fails)
    (hnone : ∀ below content, ¬ listing.Shows below content) : Collected path listing [] := by
  refine ⟨hreads, fun file => ⟨fun habs => absurd habs List.not_mem_nil, ?_⟩,
    fun _ => List.nodup_nil⟩
  rintro ⟨below, _, hshows⟩
  exact absurd hshows (hnone below _)

/-- A policy file is found. -/
theorem Collected.file (hvisible : isHidden name = false) (hpolicy : isPolicyName name = true) :
    Collected path (.cons (.typed name (.file content)) .nil)
      [{ path := path ++ [name], content }] := by
  refine ⟨fun hfails => ?_, fun file => ⟨fun hmem => ?_, ?_⟩, fun _ => List.nodup_singleton _⟩
  · rcases Listing.fails_iff.mp hfails with ⟨entry, hmem, hfails⟩
    cases hfails with
    | entry hone | type hone _ | under hone _ _ =>
        have habs := (List.mem_singleton.mp hone).trans (List.mem_singleton.mp hmem)
        exact absurd habs (by simp)
  · rw [List.mem_singleton.mp hmem]
    exact ⟨[name], rfl, .file List.mem_cons_self hvisible hpolicy⟩
  · rintro ⟨below, hpath, hshows⟩
    cases hshows with
    | file hmem _ _ =>
        have hsame := List.mem_singleton.mp hmem
        simp only [DirEntry.typed.injEq, FileNode.file.injEq] at hsame
        rcases hsame with ⟨rfl, hcontent⟩
        rcases file with ⟨where', content'⟩
        rw [List.mem_singleton, PolicyFile.mk.injEq]
        exact ⟨hpath, hcontent⟩
    | under hmem _ _ =>
        exact absurd (List.mem_singleton.mp hmem) (by simp)

/-- What a directory shows is found under its name. -/
theorem Collected.under (hvisible : isHidden name = false)
    (h : Collected (path ++ [name]) listing found) :
    Collected path (.cons (.typed name (.directory listing)) .nil) found := by
  refine ⟨fun hfails => ?_, fun file => ?_, fun hdistinct => ?_⟩
  · cases hfails with
    | entry hmem | type hmem _ => exact absurd (List.mem_singleton.mp hmem) (by simp)
    | under hmem _ hfails =>
        have hsame := List.mem_singleton.mp hmem
        simp only [DirEntry.typed.injEq, FileNode.directory.injEq] at hsame
        rw [hsame.2] at hfails
        exact h.reads hfails
  · rw [h.finds]
    constructor
    · rintro ⟨below, hpath, hshows⟩
      refine ⟨name :: below, ?_, .under List.mem_cons_self hvisible hshows⟩
      rw [hpath, List.append_assoc, List.singleton_append]
    · rintro ⟨below, hpath, hshows⟩
      cases hshows with
      | file hmem _ _ => exact absurd (List.mem_singleton.mp hmem) (by simp)
      | under hmem _ hshows =>
          have hsame := List.mem_singleton.mp hmem
          simp only [DirEntry.typed.injEq, FileNode.directory.injEq] at hsame
          rcases hsame with ⟨rfl, rfl⟩
          exact ⟨_, by rw [hpath, List.append_assoc, List.singleton_append], hshows⟩
  · rcases hdistinct with ⟨_, hbelow⟩
    exact h.once (hbelow name listing List.mem_cons_self)

/-- What the first entry shows, and then the others. -/
theorem Collected.cons (h : Collected path (.cons entry .nil) found)
    (hrest : Collected path rest found') : Collected path (.cons entry rest) (found ++ found') := by
  refine ⟨fun hfails => ?_, fun file => ?_, fun hdistinct => ?_⟩
  · rcases Listing.fails_cons.mp hfails with hfails | hfails
    · exact h.reads hfails
    · exact hrest.reads hfails
  · rw [List.mem_append, h.finds, hrest.finds, ← exists_or]
    refine exists_congr fun below => ?_
    rw [← and_or_left]
    exact and_congr_right fun _ => Listing.shows_cons.symm
  · rcases Listing.distinct_cons.mp hdistinct with ⟨hentry, hothers, hnew⟩
    rw [List.map_append]
    refine List.Nodup.append (h.once hentry) (hrest.once hothers) ?_
    -- The entry has a name of its own, and every path of it begins with that.
    intro shared hmem hmem'
    rcases List.mem_map.mp hmem with ⟨file, hfile, rfl⟩
    rcases List.mem_map.mp hmem' with ⟨file', hfile', hsame⟩
    rcases (h.finds file).mp hfile with ⟨below, hpath, hshows⟩
    rcases (hrest.finds file').mp hfile' with ⟨below', hpath', hshows'⟩
    obtain rfl : below' = below := by
      rw [hpath, hpath', List.append_cancel_left_eq] at hsame
      exact hsame
    rcases hshows.named with ⟨name, below, rfl, hname⟩
    rcases hshows'.named with ⟨name', below', heq, hname'⟩
    obtain rfl : name' = name := (List.cons.inj heq).1.symm
    refine hnew name' ?_ hname'
    rcases List.mem_filterMap.mp hname with ⟨other, hone, hother⟩
    rwa [List.mem_singleton.mp hone] at hother

/-- An entry that is passed over adds nothing. -/
theorem Collected.skip (hfailed : ∀ message, entry ≠ .failed message)
    (huntyped : ∀ name message, entry = .untyped name message → isHidden name = true)
    (hdirectory : ∀ name below, entry = .typed name (.directory below) → isHidden name = true)
    (hfile : ∀ name content, entry = .typed name (.file content) → isHidden name = true ∨
      isPolicyName name = false) : Collected path (.cons entry .nil) [] := by
  refine .empty (fun hfails => ?_) fun below content hshows => ?_
  · cases hfails with
    | entry hmem => exact hfailed _ (List.mem_singleton.mp hmem).symm
    | type hmem hvisible =>
        have hhidden := huntyped _ _ (List.mem_singleton.mp hmem).symm
        exact absurd (hhidden.symm.trans hvisible) (by decide)
    | under hmem hvisible _ =>
        have hhidden := hdirectory _ _ (List.mem_singleton.mp hmem).symm
        exact absurd (hhidden.symm.trans hvisible) (by decide)
  · cases hshows with
    | file hmem hvisible hpolicy =>
        rcases hfile _ _ (List.mem_singleton.mp hmem).symm with hhidden | hother
        · exact absurd (hhidden.symm.trans hvisible) (by decide)
        · exact absurd (hpolicy.symm.trans hother) (by decide)
    | under hmem hvisible _ =>
        have hhidden := hdirectory _ _ (List.mem_singleton.mp hmem).symm
        exact absurd (hhidden.symm.trans hvisible) (by decide)

/-- What a walk makes of a directory: it fails where something on the way does, and
    otherwise adds what the directory shows. -/
def Walks (path : RelativePath) (listing : Listing) (files : List PolicyFile)
    (result : Except String (List PolicyFile)) : Prop :=
  (listing.Fails ∧ ∃ message, result = .error message) ∨
    ∃ found, Collected path listing found ∧ result = .ok (files ++ found)

/-- Behind an entry that adds nothing the walk goes on. -/
theorem Walks.skip {files : List PolicyFile} {result : Except String (List PolicyFile)}
    (hentry : Collected path (.cons entry .nil) []) (h : Walks path rest files result) :
    Walks path (.cons entry rest) files result := by
  rcases h with ⟨hfails, herror⟩ | ⟨found, hfound, hok⟩
  · exact Or.inl ⟨Listing.fails_cons.mpr (Or.inr hfails), herror⟩
  · exact Or.inr ⟨[] ++ found, hentry.cons hfound, hok⟩

/-- Behind an entry that adds files the walk goes on with them. -/
theorem Walks.add {files : List PolicyFile} {result : Except String (List PolicyFile)}
    (hentry : Collected path (.cons entry .nil) found)
    (h : Walks path rest (files ++ found) result) :
    Walks path (.cons entry rest) files result := by
  rcases h with ⟨hfails, herror⟩ | ⟨found', hfound, hok⟩
  · exact Or.inl ⟨Listing.fails_cons.mpr (Or.inr hfails), herror⟩
  · exact Or.inr ⟨found ++ found', hentry.cons hfound, by rw [hok, List.append_assoc]⟩

theorem collectPolicyFiles_walks (path : RelativePath) (listing : Listing)
    (files : List PolicyFile) :
    Walks path listing files (collectPolicyFiles path listing files) := by
  fun_induction collectPolicyFiles path listing files with
  | case1 path files =>
      refine Or.inr ⟨[], .empty (fun hfails => ?_) fun below content hshows => ?_, by simp⟩
      · rcases Listing.fails_iff.mp hfails with ⟨entry, hmem, _⟩
        exact absurd hmem List.not_mem_nil
      · rcases Listing.shows_iff.mp hshows with ⟨entry, hmem, _⟩
        exact absurd hmem List.not_mem_nil
  | case2 => exact Or.inl ⟨.entry List.mem_cons_self, _, rfl⟩
  | case3 path name message rest files hhidden ih =>
      refine .skip (.skip ?_ ?_ ?_ ?_) ih
      · simp
      · rintro _ _ heq
        obtain ⟨rfl, _⟩ := DirEntry.untyped.inj heq
        exact hhidden
      · simp
      · simp
  | case4 path name message rest files hvisible =>
      rw [Bool.not_eq_true] at hvisible
      exact Or.inl ⟨.type List.mem_cons_self hvisible, _, rfl⟩
  | case5 path name node rest files hhidden ih =>
      refine .skip (.skip ?_ ?_ ?_ ?_) ih
      · simp
      · simp
      · rintro _ _ heq
        obtain ⟨rfl, _⟩ := DirEntry.typed.inj heq
        exact hhidden
      · rintro _ _ heq
        obtain ⟨rfl, _⟩ := DirEntry.typed.inj heq
        exact Or.inl hhidden
  | case6 path name rest files hvisible ih =>
      exact .skip (.skip (by simp) (by simp) (by simp) (by simp)) ih
  | case7 path name rest files hvisible ih =>
      exact .skip (.skip (by simp) (by simp) (by simp) (by simp)) ih
  | case8 path name rest files hvisible listing ihbelow ih =>
      rw [Bool.not_eq_true] at hvisible
      rcases ihbelow with ⟨hfails, message, herror⟩ | ⟨found, hfound, hok⟩
      · rw [herror]
        exact Or.inl ⟨.under List.mem_cons_self hvisible hfails, message, rfl⟩
      · rw [hok]
        exact .add (.under hvisible hfound) (ih _)
  | case9 path name rest files hvisible content hpolicy ih =>
      rw [Bool.not_eq_true] at hvisible
      exact .add (.file hvisible hpolicy) ih
  | case10 path name rest files hvisible content hother ih =>
      rw [Bool.not_eq_true] at hother
      refine .skip (.skip (by simp) (by simp) (by simp) ?_) ih
      rintro _ _ heq
      obtain ⟨rfl, _⟩ := DirEntry.typed.inj heq
      exact Or.inr hother

end Walk

end Netfyr
