import Netfyr.Data.Sorted
import Netfyr.Policy.Directory

/-!
# What a Directory Loads

A directory loads when nothing on the way to its policy files fails, every file
loads on its own, and no two policies of all of them have one name. What is loaded
is then the files in the order of their paths, one behind the other.

The file system may list a directory in any order. The paths of the files are all
different, so they have one order, and the loading does not depend on the listing.
If it goes wrong on the way, it goes wrong in every order, if not at the same place.

## Main definitions

* `Listing.Same`: The same directory, listed in another order.

## Theorems

* `loadPolicyFiles_ok_iff`: When files load.
* `loadPolicyDir_ok_iff`: When a directory loads, and what.
* `loadPolicyDir_reordered`: The order of the listing does not matter.
-/

namespace Netfyr

section Reading

variable {α β : Type}

/-- A sequence succeeds when both parts do. -/
theorem reading_bind_eq_ok {x : Reading α} {f : α → Reading β} {b : β} :
    (x >>= f).run = some (.ok b) ↔ ∃ a, x.run = some (.ok a) ∧ (f a).run = some (.ok b) := by
  change Option.bind x.run (ExceptT.bindCont f) = some (.ok b) ↔ _
  rcases hx : x.run with _ | e | a
  · simp only [Option.bind_none, reduceCtorEq, false_and, exists_false]
  · simp only [Option.bind_some, ExceptT.bindCont, Option.pure_def, Option.some.injEq,
      reduceCtorEq, false_and, exists_false]
  · simp only [Option.bind_some, ExceptT.bindCont, Option.some.injEq, Except.ok.injEq,
      exists_eq_left']
    rfl

/-- A part that can only fail succeeds, however its failures are named. -/
theorem reading_lift_eq_ok {ε : Type} {f : ε → LoadError} {x : Except ε α} {a : α} :
    (liftM (x.mapError f) : Reading α).run = some (.ok a) ↔ x = .ok a := by
  change some (x.mapError f) = some (.ok a) ↔ _
  cases x with
  | ok b => simp [Except.mapError]
  | error e => simp [Except.mapError]

end Reading

section Loading

variable {parse : String → Except String YamlValue} {print : YamlValue → Except String String}
  {matchBy : MatchBy} {listing listing' : Listing}

/-- Policies are added when no name is taken. -/
theorem addPolicies_ok_iff {policies others result : List Policy}
    (hdistinct : (others.map Policy.name).Nodup) : addPolicies policies others = .ok result ↔
      ((others ++ policies).map Policy.name).Nodup ∧ result = others ++ policies := by
  induction policies generalizing others with
  | nil =>
      rw [addPolicies, List.append_nil, Except.ok.injEq, eq_comm]
      exact ⟨fun h => ⟨hdistinct, h⟩, fun h => h.2⟩
  | cons policy policies ih =>
      rw [addPolicies]
      by_cases htaken : policy.name ∈ others.map Policy.name
      · rw [if_pos htaken]
        refine iff_of_false (by simp) fun h => ?_
        rw [List.map_append, List.nodup_append] at h
        exact h.1.2.2 _ htaken _ List.mem_cons_self rfl
      · have hnext : ((others ++ [policy]).map Policy.name).Nodup := by
          rw [List.map_append, List.map_singleton]
          exact List.nodup_append_comm.mp (List.nodup_cons.mpr ⟨htaken, hdistinct⟩)
        rw [if_neg htaken, ih hnext, List.append_assoc, List.singleton_append]

/-- Files load when each does, and no two policies have one name. -/
theorem loadPolicyFiles_ok_iff {files : List PolicyFile} {outcome result : LoadOutcome}
    (hdistinct : (outcome.policies.map Policy.name).Nodup) :
    (loadPolicyFiles parse print matchBy files outcome).run = some (.ok result) ↔
      ∃ loads : List LoadOutcome,
        List.Forall₂ (fun file loaded =>
          (loadPolicyFile parse print file matchBy).run = some (.ok loaded)) files loads ∧
        ((outcome.policies ++ loads.flatMap LoadOutcome.policies).map Policy.name).Nodup ∧
        result =
          { policies := outcome.policies ++ loads.flatMap LoadOutcome.policies
            warnings := outcome.warnings ++ loads.flatMap LoadOutcome.warnings } := by
  induction files generalizing outcome with
  | nil =>
      have hpure : (loadPolicyFiles parse print matchBy [] outcome).run = some (.ok outcome) := rfl
      rw [hpure, Option.some.injEq, Except.ok.injEq]
      constructor
      · rintro rfl
        exact ⟨[], .nil, by simpa using hdistinct, by simp⟩
      · rintro ⟨loads, hloads, _, rfl⟩
        rw [List.forall₂_nil_left_iff.mp hloads]
        simp
  | cons file files ih =>
      rw [loadPolicyFiles, reading_bind_eq_ok]
      constructor
      · rintro ⟨loaded, hloaded, h⟩
        rcases reading_bind_eq_ok.mp h with ⟨policies, hadd, h⟩
        rcases (addPolicies_ok_iff hdistinct).mp (reading_lift_eq_ok.mp hadd) with ⟨hnext, rfl⟩
        rcases (ih hnext).mp h with ⟨loads, hloads, hnames, rfl⟩
        exact ⟨loaded :: loads, .cons hloaded hloads, by simpa using hnames, by simp⟩
      · rintro ⟨loads, hloads, hnames, rfl⟩
        rcases List.forall₂_cons_left_iff.mp hloads with ⟨loaded, loads, hloaded, hrest, rfl⟩
        rw [List.flatMap_cons, ← List.append_assoc] at hnames
        have hnext : ((outcome.policies ++ loaded.policies).map Policy.name).Nodup := by
          rw [List.map_append] at hnames
          exact (List.nodup_append.mp hnames).1
        refine ⟨loaded, hloaded, reading_bind_eq_ok.mpr ⟨outcome.policies ++ loaded.policies,
          reading_lift_eq_ok.mpr ((addPolicies_ok_iff hdistinct).mpr ⟨hnext, rfl⟩), ?_⟩⟩
        exact (ih hnext).mpr ⟨loads, hrest, hnames, by simp⟩

/-- The policy files of a directory in the order of their paths. -/
theorem Collected.sorted {found : List PolicyFile} (h : Collected [] listing found)
    (hdistinct : listing.Distinct) :
    Ascending PolicyFile.path (found.insertionSort fun a b => a.path ≤ b.path) ∧
      ∀ file, file ∈ found.insertionSort (fun a b => a.path ≤ b.path) ↔
        listing.Shows file.path file.content := by
  refine ⟨insertionSort_ascending (h.once hdistinct), fun file => ?_⟩
  rw [List.mem_insertionSort, h.finds]
  constructor
  · rintro ⟨below, hpath, hshows⟩
    rwa [hpath]
  · exact fun hshows => ⟨file.path, rfl, hshows⟩

/-- A directory loads exactly when nothing on the way fails, every policy file in it
    loads, and their policies have different names; it loads them in the order of
    their paths. -/
theorem loadPolicyDir_ok_iff {outcome : LoadOutcome} (hdistinct : listing.Distinct) :
    (loadPolicyDir parse print listing matchBy).run = some (.ok outcome) ↔
      ¬ listing.Fails ∧ ∃ (files : List PolicyFile) (loads : List LoadOutcome),
        Ascending PolicyFile.path files ∧
        (∀ file, file ∈ files ↔ listing.Shows file.path file.content) ∧
        List.Forall₂ (fun file loaded =>
          (loadPolicyFile parse print file matchBy).run = some (.ok loaded)) files loads ∧
        ((loads.flatMap LoadOutcome.policies).map Policy.name).Nodup ∧
        outcome =
          { policies := loads.flatMap LoadOutcome.policies
            warnings := loads.flatMap LoadOutcome.warnings } := by
  rw [loadPolicyDir, reading_bind_eq_ok]
  rcases collectPolicyFiles_walks [] listing [] with ⟨hfails, message, herror⟩ |
    ⟨found, hfound, hok⟩
  · rw [herror]
    refine iff_of_false ?_ fun h => h.1 hfails
    rintro ⟨files, habs, _⟩
    exact absurd (reading_lift_eq_ok.mp habs) (by simp)
  rw [List.nil_append] at hok
  rcases hfound.sorted hdistinct with ⟨hascending, hmem⟩
  have hempty : (({ policies := [], warnings := [] } : LoadOutcome).policies.map
      Policy.name).Nodup := List.nodup_nil
  rw [hok]
  constructor
  · rintro ⟨files, hfiles, h⟩
    obtain rfl := Except.ok.inj (reading_lift_eq_ok.mp hfiles)
    rcases (loadPolicyFiles_ok_iff hempty).mp h with ⟨loads, hloads, hnames, rfl⟩
    exact ⟨hfound.reads, _, loads, hascending, hmem, hloads, hnames, rfl⟩
  · rintro ⟨_, files, loads, hfiles, hshown, hloads, hnames, rfl⟩
    refine ⟨found, reading_lift_eq_ok.mpr rfl, (loadPolicyFiles_ok_iff hempty).mpr
      ⟨loads, ?_, hnames, rfl⟩⟩
    -- Files with increasing paths are known by what the directory shows.
    rwa [hascending.eq_of_mem hfiles fun file => (hmem file).trans (hshown file).symm]

/-- A name as its bytes. -/
def fileName (name : String) : FileName := name.toUTF8.data.toList

/-- A directory below another one. -/
def subListing : Listing := .cons (.typed (fileName "lan.yml") (.file (.ok lanText))) .nil

/-- A directory that cannot be read. -/
def deniedListing : Listing := .cons (.failed "permission denied") .nil

/-- A directory with two policy files, and one that is hidden. -/
def lanListing : Listing :=
  .cons (.typed (fileName "wan.yaml") (.file (.ok lanText)))
    (.cons (.typed (fileName ".hidden") (.directory deniedListing))
      (.cons (.typed (fileName "sub") (.directory subListing)) .nil))

theorem lanListing_distinct : lanListing.Distinct := by
  refine ⟨by decide, fun name below hmem => ?_⟩
  simp only [lanListing, Listing.entries, List.mem_cons, List.not_mem_nil, or_false,
    DirEntry.typed.injEq, FileNode.directory.injEq, reduceCtorEq, and_false, false_or] at hmem
  rcases hmem with ⟨_, rfl⟩ | ⟨_, rfl⟩
  · refine ⟨by decide, fun _ _ habs => ?_⟩
    exact absurd (List.mem_singleton.mp habs) (by simp)
  · refine ⟨by decide, fun _ _ habs => ?_⟩
    exact absurd (List.mem_singleton.mp habs) (by simp)

/-- The file in the directory comes first. -/
theorem loadPolicyDir_ok_iff_lan :
    ∃ (files : List PolicyFile) (loads : List LoadOutcome),
      Ascending PolicyFile.path files ∧
      (∀ file, file ∈ files ↔ lanListing.Shows file.path file.content) ∧
      loads.flatMap LoadOutcome.policies = [lanPolicy, { lanPolicy with name := "wan" }] := by
  have hload : (loadPolicyDir parseLan printLan lanListing .name).run =
      some (.ok { policies := [lanPolicy, { lanPolicy with name := "wan" }], warnings := [] }) :=
    rfl
  rcases (loadPolicyDir_ok_iff lanListing_distinct).mp hload with
    ⟨_, files, loads, hascending, hmem, _, _, houtcome⟩
  exact ⟨files, loads, hascending, hmem, (congrArg LoadOutcome.policies houtcome).symm⟩

end Loading

/-- The same directory, listed in another order; so may be those below it. -/
inductive Listing.Same : Listing → Listing → Prop where
  | nil : Same .nil .nil
  | cons (entry : DirEntry) {rest rest' : Listing} (hrest : Same rest rest') :
      Same (.cons entry rest) (.cons entry rest')
  | directory (name : FileName) {below below' rest rest' : Listing} (hbelow : Same below below')
      (hrest : Same rest rest') :
      Same (.cons (.typed name (.directory below)) rest)
        (.cons (.typed name (.directory below')) rest')
  | swap (entry entry' : DirEntry) (rest : Listing) :
      Same (.cons entry (.cons entry' rest)) (.cons entry' (.cons entry rest))
  | trans {listing listing' listing'' : Listing} (h : Same listing listing')
      (h' : Same listing' listing'') : Same listing listing''

section Order

variable {listing listing' : Listing}

theorem shows_directory {name : FileName} {below : Listing} {path : RelativePath}
    {content : Except String String} :
    (Listing.cons (.typed name (.directory below)) .nil).Shows path content ↔
      isHidden name = false ∧ ∃ inner, path = name :: inner ∧ below.Shows inner content := by
  constructor
  · intro h
    cases h with
    | file hmem _ _ => exact absurd (List.mem_singleton.mp hmem) (by simp)
    | under hmem hvisible hshows =>
        have hsame := List.mem_singleton.mp hmem
        simp only [DirEntry.typed.injEq, FileNode.directory.injEq] at hsame
        rcases hsame with ⟨rfl, rfl⟩
        exact ⟨hvisible, _, rfl, hshows⟩
  · rintro ⟨hvisible, inner, rfl, hshows⟩
    exact .under List.mem_cons_self hvisible hshows

theorem fails_directory {name : FileName} {below : Listing} :
    (Listing.cons (.typed name (.directory below)) .nil).Fails ↔
      isHidden name = false ∧ below.Fails := by
  constructor
  · intro h
    cases h with
    | entry hmem | type hmem _ => exact absurd (List.mem_singleton.mp hmem) (by simp)
    | under hmem hvisible hfails =>
        have hsame := List.mem_singleton.mp hmem
        simp only [DirEntry.typed.injEq, FileNode.directory.injEq] at hsame
        rcases hsame with ⟨rfl, rfl⟩
        exact ⟨hvisible, hfails⟩
  · rintro ⟨hvisible, hfails⟩
    exact .under List.mem_cons_self hvisible hfails

/-- A directory shows the same in every order. -/
theorem Listing.Same.shows (h : listing.Same listing') (path : RelativePath)
    (content : Except String String) :
    listing.Shows path content ↔ listing'.Shows path content := by
  induction h generalizing path with
  | nil => exact Iff.rfl
  | cons entry _ ih => exact shows_cons.trans ((or_congr_right (ih path)).trans shows_cons.symm)
  | directory name _ _ ihbelow ih =>
      refine shows_cons.trans ((or_congr ?_ (ih path)).trans shows_cons.symm)
      rw [shows_directory, shows_directory]
      exact and_congr_right fun _ => exists_congr fun inner => and_congr_right fun _ =>
        ihbelow inner
  | swap entry entry' rest =>
      refine shows_cons.trans ((or_congr_right shows_cons).trans (or_left_comm.trans ?_))
      exact ((or_congr_right shows_cons).symm).trans shows_cons.symm
  | trans _ _ ih ih' => exact (ih path).trans (ih' path)

/-- What fails in one order fails in every order. -/
theorem Listing.Same.fails (h : listing.Same listing') : listing.Fails ↔ listing'.Fails := by
  induction h with
  | nil => exact Iff.rfl
  | cons entry _ ih => exact fails_cons.trans ((or_congr_right ih).trans fails_cons.symm)
  | directory name _ _ ihbelow ih =>
      refine fails_cons.trans ((or_congr ?_ ih).trans fails_cons.symm)
      rw [fails_directory, fails_directory, ihbelow]
  | swap entry entry' rest =>
      refine fails_cons.trans ((or_congr_right fails_cons).trans (or_left_comm.trans ?_))
      exact ((or_congr_right fails_cons).symm).trans fails_cons.symm
  | trans _ _ ih ih' => exact ih.trans ih'

theorem Listing.Same.names (h : listing.Same listing') : listing.names.Perm listing'.names := by
  induction h with
  | nil => exact .refl _
  | cons entry _ ih =>
      rw [Listing.names, Listing.names, Listing.entries, Listing.entries, List.filterMap_cons,
        List.filterMap_cons]
      cases entry.name? with
      | none => exact ih
      | some name => exact ih.cons name
  | directory name _ _ _ ih => exact ih.cons name
  | swap entry entry' rest =>
      exact (List.Perm.swap entry' entry rest.entries).filterMap DirEntry.name?
  | trans _ _ ih ih' => exact ih.trans ih'

/-- No order gives two entries one name, if one does not. -/
theorem Listing.Same.distinct (h : listing.Same listing') (hdistinct : listing.Distinct) :
    listing'.Distinct := by
  induction h with
  | nil => exact hdistinct
  | cons entry hrest ih =>
      rcases distinct_cons.mp hdistinct with ⟨hentry, hothers, hnew⟩
      refine distinct_cons.mpr ⟨hentry, ih hothers, fun name hname hmem => ?_⟩
      exact hnew name hname (hrest.names.mem_iff.mpr hmem)
  | directory name hbelow hrest ihbelow ih =>
      rcases distinct_cons.mp hdistinct with ⟨⟨hone, hunder⟩, hothers, hnew⟩
      refine distinct_cons.mpr ⟨⟨hone, fun other below hmem => ?_⟩, ih hothers,
        fun name hname hmem => ?_⟩
      · have hsame := List.mem_singleton.mp hmem
        simp only [DirEntry.typed.injEq, FileNode.directory.injEq] at hsame
        rw [hsame.2]
        exact ihbelow (hunder name _ List.mem_cons_self)
      · exact hnew name hname (hrest.names.mem_iff.mpr hmem)
  | swap entry entry' rest =>
      rcases distinct_cons.mp hdistinct with ⟨hentry, hothers, hnew⟩
      rcases distinct_cons.mp hothers with ⟨hentry', hrest, hnew'⟩
      refine distinct_cons.mpr ⟨hentry',
        distinct_cons.mpr ⟨hentry, hrest, fun name hname hmem => ?_⟩, fun name hname hmem => ?_⟩
      · refine hnew name hname (List.mem_filterMap.mpr ?_)
        rcases List.mem_filterMap.mp hmem with ⟨other, hother, hsame⟩
        exact ⟨other, List.mem_cons_of_mem _ hother, hsame⟩
      · rcases List.mem_filterMap.mp hmem with ⟨other, hother, hsame⟩
        rcases List.mem_cons.mp hother with rfl | hother
        · exact hnew name hsame (List.mem_filterMap.mpr ⟨entry', List.mem_cons_self, hname⟩)
        · exact hnew' name hname (List.mem_filterMap.mpr ⟨other, hother, hsame⟩)
  | trans _ _ ih ih' => exact ih' (ih hdistinct)

end Order

/-- The order in which the file system lists a directory, and those below it, does not
    matter: the loading fails on the way in every order, or it comes to the same. -/
theorem loadPolicyDir_reordered (parse : String → Except String YamlValue)
    (print : YamlValue → Except String String) (matchBy : MatchBy) (listing listing' : Listing)
    (hdistinct : listing.Distinct) (hsame : listing.Same listing') :
    (listing.Fails ∧ listing'.Fails ∧ ∃ message message' : String,
      (loadPolicyDir parse print listing matchBy).run = some (.error (.io message)) ∧
      (loadPolicyDir parse print listing' matchBy).run = some (.error (.io message'))) ∨
    (¬ listing.Fails ∧ ¬ listing'.Fails ∧
      (loadPolicyDir parse print listing matchBy).run =
        (loadPolicyDir parse print listing' matchBy).run) := by
  have hfailed : ∀ {listing : Listing} {message : String},
      collectPolicyFiles [] listing [] = .error message →
      (loadPolicyDir parse print listing matchBy).run = some (.error (.io message)) := by
    intro listing message herror
    rw [loadPolicyDir, herror]
    rfl
  have hwalked : ∀ {listing : Listing} {found : List PolicyFile},
      collectPolicyFiles [] listing [] = .ok ([] ++ found) →
      (loadPolicyDir parse print listing matchBy).run =
        (loadPolicyFiles parse print matchBy (found.insertionSort fun a b => a.path ≤ b.path)
          { policies := [], warnings := [] }).run := by
    intro listing found hok
    rw [loadPolicyDir, hok]
    rfl
  rcases collectPolicyFiles_walks [] listing [] with ⟨hfails, message, herror⟩ |
    ⟨found, hfound, hok⟩
  · rcases collectPolicyFiles_walks [] listing' [] with ⟨hfails', message', herror'⟩ |
      ⟨found', hfound', _⟩
    · exact Or.inl ⟨hfails, hfails', message, message', hfailed herror, hfailed herror'⟩
    · exact absurd (hsame.fails.mp hfails) hfound'.reads
  · rcases collectPolicyFiles_walks [] listing' [] with ⟨hfails', _⟩ | ⟨found', hfound', hok'⟩
    · exact absurd (hsame.fails.mpr hfails') hfound.reads
    · -- The same files are shown, and their paths have one order.
      rcases hfound.sorted hdistinct with ⟨hascending, hmem⟩
      rcases hfound'.sorted (hsame.distinct hdistinct) with ⟨hascending', hmem'⟩
      refine Or.inr ⟨hfound.reads, hfound'.reads, ?_⟩
      rw [hwalked hok, hwalked hok', hascending.eq_of_mem hascending' fun file =>
        (hmem file).trans ((hsame.shows file.path file.content).trans (hmem' file).symm)]

/-- The directory of before is listed the other way. -/
theorem loadPolicyDir_reordered_lan : ∃ listing', lanListing.Same listing' ∧
    (loadPolicyDir parseLan printLan lanListing .name).run =
      (loadPolicyDir parseLan printLan listing' .name).run := by
  have hsame : lanListing.Same _ := (Listing.Same.swap _ _ _).trans
    (.cons _ (.swap _ _ .nil))
  refine ⟨_, hsame, ?_⟩
  rcases loadPolicyDir_reordered parseLan printLan .name _ _ lanListing_distinct hsame with
    ⟨hfails, _, message, _, herror, _⟩ | ⟨_, _, hload⟩
  · have hload : (loadPolicyDir parseLan printLan lanListing .name).run = some (.ok
        { policies := [lanPolicy, { lanPolicy with name := "wan" }], warnings := [] }) := rfl
    exact absurd (herror.symm.trans hload) (by simp)
  · exact hload

end Netfyr
