import Mathlib.Data.List.Basic
import Mathlib.Tactic.SplitIfs
import Deadwood.Project.Discover
import Deadwood.Proofs.Order
import Deadwood.Proofs.Path
import Deadwood.Proofs.Table

/-!
# Which sources are found

The sources of a project depend on what its paths lead to, on the patterns and on the order of the
paths, and on nothing else: neither the order in which directories list their entries nor paths that
overlap matter.

* `FileTree.Lies entries names`: `names` leads to a file. `FileTree.Reordered`: the same entries in
  another order, at every depth.
* `mem_walk_iff`: what the walk through a directory lists, by the directories above a file.
* `Found`: a file is given itself, or lies below a directory that is given and is wanted there.
* `FirstNamed`: the name of a file, seen from the first path that is the file or contains it.
* `sources_exact`: the sources are these files with these names, each once and in the order of their
  units.
-/

namespace Deadwood

namespace FileTree

/-! ## Files in a tree -/

/-- `names` leads from some entries to a file. -/
inductive Lies : List (String × FileTree) → List String → Prop
  | here {entries : List (String × FileTree)} {name : String} (h : (name, .file) ∈ entries) :
    Lies entries [name]
  | inside {entries inner : List (String × FileTree)} {name : String} {names : List String}
    (h : (name, .directory inner) ∈ entries) (hinner : Lies inner names) :
      Lies entries (name :: names)

/-- The same entries, listed in another order in the directory itself or below. -/
inductive Reordered : List (String × FileTree) → List (String × FileTree) → Prop
  | nil : Reordered [] []
  | file {es es' : List (String × FileTree)} (name : String) (h : Reordered es es') :
    Reordered ((name, .file) :: es) ((name, .file) :: es')
  | directory {inner inner' es es' : List (String × FileTree)} (name : String)
    (hinner : Reordered inner inner')
    (h : Reordered es es') : Reordered ((name, .directory inner) :: es)
      ((name, .directory inner') :: es')
  | swap (e e' : String × FileTree) (es : List (String × FileTree)) :
    Reordered (e :: e' :: es) (e' :: e :: es)
  | trans {es₁ es₂ es₃ : List (String × FileTree)} (h₁ : Reordered es₁ es₂)
    (h₂ : Reordered es₂ es₃) :
    Reordered es₁ es₃

variable {entries entries' inner : List (String × FileTree)} {name : String} {names : List String}

theorem Reordered.symm (h : Reordered entries entries') : Reordered entries' entries := by
  induction h with
  | nil => exact .nil
  | file name _ ih => exact .file name ih
  | directory name _ _ ihinner ih => exact .directory name ihinner ih
  | swap e e' es => exact .swap e' e es
  | trans _ _ ih₁ ih₂ => exact ih₂.trans ih₁

theorem Lies.ne_nil (h : Lies entries names) : names ≠ [] := by
  cases h <;> exact List.cons_ne_nil _ _

theorem lies_singleton_iff : Lies entries [name] ↔ (name, .file) ∈ entries := by
  constructor
  · rintro (h | ⟨h, hinner⟩)
    · exact h
    · exact absurd rfl hinner.ne_nil
  · exact .here

theorem lies_cons_iff (hne : names ≠ []) :
    Lies entries (name :: names) ↔
      ∃ inner, (name, .directory inner) ∈ entries ∧ Lies inner names := by
  constructor
  · rintro (h | ⟨h, hinner⟩)
    · exact absurd rfl hne
    · exact ⟨_, h, hinner⟩
  · rintro ⟨inner, h, hinner⟩
    exact .inside h hinner

theorem not_lies_nil : ¬ Lies [] names := by
  rintro (h | ⟨h, -⟩) <;> cases h

theorem lies_append_iff : Lies (entries ++ entries') names ↔ Lies entries names ∨
      Lies entries' names := by
  constructor
  · rintro (h | ⟨h, hinner⟩) <;> rcases List.mem_append.1 h with h | h
    · exact .inl (.here h)
    · exact .inr (.here h)
    · exact .inl (.inside h hinner)
    · exact .inr (.inside h hinner)
  · rintro ((h | ⟨h, hinner⟩) | (h | ⟨h, hinner⟩))
    · exact .here (List.mem_append_left _ h)
    · exact .inside (List.mem_append_left _ h) hinner
    · exact .here (List.mem_append_right _ h)
    · exact .inside (List.mem_append_right _ h) hinner

/-- Every entry leads to files of its own. -/
theorem lies_entry_iff {entry : String × FileTree} :
    Lies (entry :: entries) names ↔ Lies [entry] names ∨ Lies entries names :=
  @lies_append_iff [entry] entries names

theorem lies_file_iff : Lies [(name, .file)] names ↔ names = [name] := by
  constructor
  · rintro (h | ⟨h, -⟩)
    · cases List.mem_singleton.1 h
      rfl
    · cases List.mem_singleton.1 h
  · rintro rfl
    exact .here (List.mem_singleton_self _)

theorem lies_directory_iff :
    Lies [(name, .directory inner)] names ↔ ∃ rest, names = name :: rest ∧ Lies inner rest := by
  constructor
  · rintro (h | ⟨h, hinner⟩)
    · cases List.mem_singleton.1 h
    · cases List.mem_singleton.1 h
      exact ⟨_, rfl, hinner⟩
  · rintro ⟨rest, rfl, hinner⟩
    exact .inside (List.mem_singleton_self _) hinner

/-- The order in which entries are listed does not matter to the files. -/
theorem Reordered.lies_iff (h : Reordered entries entries') :
    Lies entries names ↔ Lies entries' names := by
  induction h generalizing names with
  | nil => rfl
  | file name _ ih => rw [lies_entry_iff, ih, ← lies_entry_iff]
  | directory name _ _ ihinner ih =>
    rw [lies_entry_iff, lies_directory_iff, lies_entry_iff, lies_directory_iff, ih]
    simp only [ihinner]
  | swap e e' es =>
    rw [lies_entry_iff, @lies_entry_iff es, or_left_comm, ← @lies_entry_iff es, ← lies_entry_iff]
  | trans _ _ ih₁ ih₂ => exact ih₁.trans ih₂

/-- What holds of the entries of a directory whenever it holds of those of its subdirectories holds
of all. -/
theorem entries_induction {motive : List (String × FileTree) → Prop}
    (step : ∀ entries, (∀ name inner, (name, .directory inner) ∈ entries → motive inner) →
      motive entries)
    (entries : List (String × FileTree)) : motive entries :=
  step entries fun name inner hmem =>
    have hlt : sizeOf inner < sizeOf entries := by
      have hentry := List.sizeOf_lt_of_mem hmem
      simp only [Prod.mk.sizeOf_spec, FileTree.directory.sizeOf_spec] at hentry
      omega
    entries_induction step inner
termination_by sizeOf entries
decreasing_by exact hlt

/-! ## Trees of given files -/

/-- Changing a directory so that one more file lies in it adds this file to the entries around
it. -/
theorem lies_within_iff {change : List (String × FileTree) → List (String × FileTree)}
    {file : List String} (hchange : ∀ es ns, Lies (change es) ns ↔ Lies es ns ∨ ns = file) :
    Lies (within name change entries) names ↔ Lies entries names ∨ names = name :: file := by
  have hchanged : ∀ inner, (∃ rest, names = name :: rest ∧ Lies (change inner) rest) ↔
      (∃ rest, names = name :: rest ∧ Lies inner rest) ∨ names = name :: file := by
    intro inner
    simp only [hchange, and_or_left, exists_or, exists_eq_right]
  induction entries with
  | nil => simp only [within, lies_directory_iff, hchanged, not_lies_nil, and_false, exists_false]
  | cons entry rest ih =>
    obtain ⟨other, t⟩ := entry
    cases t with
    | file =>
      rw [within, lies_entry_iff, @lies_entry_iff rest, or_assoc]
      exact or_congr_right ih
    | directory inner =>
      rw [within]
      split_ifs with hname
      · subst hname
        rw [lies_entry_iff, lies_directory_iff, hchanged, or_right_comm, ← lies_directory_iff,
          ← lies_entry_iff]
      · rw [lies_entry_iff, @lies_entry_iff rest, or_assoc]
        exact or_congr_right ih

theorem lies_addFile_iff {file : List String} (hne : file ≠ []) :
    Lies (addFile file entries) names ↔ Lies entries names ∨ names = file := by
  induction file generalizing entries names with
  | nil => exact absurd rfl hne
  | cons name rest ih =>
    cases rest with
    | nil => rw [addFile, lies_append_iff, lies_file_iff]
    | cons next rest =>
      rw [addFile]
      exact lies_within_iff fun es ns => ih (List.cons_ne_nil _ _)

/-- The tree of some files has these files. -/
theorem lies_ofFiles_iff {files : List (List String)} (hne : [] ∉ files) :
    Lies (ofFiles files) names ↔ names ∈ files := by
  have hstep : ∀ entries,
    Lies (files.foldl (fun entries file => addFile file entries) entries) names ↔
      Lies entries names ∨ names ∈ files := by
    induction files with
    | nil => simp
    | cons file rest ih =>
      intro entries
      obtain ⟨hfile, hrest⟩ := not_or.1 (List.mem_cons.not.1 hne)
      rw [List.foldl_cons, ih hrest, lies_addFile_iff (Ne.symm hfile), List.mem_cons, or_assoc]
  rw [ofFiles, hstep, or_iff_right not_lies_nil]

end FileTree

namespace Project

open FileTree

variable {wanted unwanted directory : List String} {entries : List (String × FileTree)}
    {file : List String}

/-! ## The walk -/

theorem mem_filesHere_iff : file ∈ filesHere wanted unwanted directory entries ↔
    ∃ name, (name, .file) ∈ entries ∧ isWanted wanted unwanted directory name = true ∧
      file = directory ++ [name] := by
  simp only [filesHere, List.mem_map, List.mem_filter, List.mem_mergeSort]
  constructor
  · rintro ⟨name, ⟨⟨⟨_, t⟩, ⟨hmem, hfile⟩, rfl⟩, hwanted⟩, rfl⟩
    cases t with
    | file => exact ⟨_, hmem, hwanted, rfl⟩
    | directory inner => cases hfile
  · rintro ⟨name, hmem, hwanted, rfl⟩
    exact ⟨name, ⟨⟨_, ⟨hmem, rfl⟩, rfl⟩, hwanted⟩, rfl⟩

theorem mem_walkBelow_iff {name : String} {files : List (List String)} :
    (name, files) ∈ walkBelow wanted unwanted directory entries ↔
      ∃ inner, (name, .directory inner) ∈ entries ∧ isPruned unwanted directory name = false ∧
        files = walk wanted unwanted (directory ++ [name]) (.directory inner) := by
  induction entries with
  | nil => simp [walkBelow]
  | cons entry rest ih =>
    obtain ⟨name', t⟩ := entry
    rw [walkBelow]
    cases t with
    | file => simp [isFile, ih]
    | directory inner =>
      by_cases hpruned : isPruned unwanted directory name' = true
      · simp only [isFile, hpruned, Bool.or_true, if_true, ih, List.mem_cons, Prod.mk.injEq]
        constructor
        · rintro ⟨inner', hmem, hrest⟩
          exact ⟨inner', .inr hmem, hrest⟩
        · rintro ⟨inner', ⟨rfl, -⟩ | hmem, hopen, hfiles⟩
          · rw [hpruned] at hopen
            cases hopen
          · exact ⟨inner', hmem, hopen, hfiles⟩
      · have hopen : isPruned unwanted directory name' = false := by simpa using hpruned
        simp only [isFile, hopen, Bool.or_false, Bool.false_eq_true, if_false, List.mem_cons, ih,
          Prod.mk.injEq,
          FileTree.directory.injEq]
        constructor
        · rintro (⟨rfl, rfl⟩ | ⟨inner', hmem, hrest⟩)
          · exact ⟨inner, .inl ⟨rfl, rfl⟩, hopen, rfl⟩
          · exact ⟨inner', .inr hmem, hrest⟩
        · rintro ⟨inner', ⟨rfl, rfl⟩ | hmem, hrest⟩
          · exact .inl ⟨rfl, hrest.2⟩
          · exact .inr ⟨inner', hmem, hrest⟩

/-- One step of the walk: a file of the directory that is wanted, or one of a subdirectory that is
not pruned. -/
theorem mem_walk_step : file ∈ walk wanted unwanted directory (.directory entries) ↔
    (∃ name, (name, .file) ∈ entries ∧ isWanted wanted unwanted directory name = true ∧
      file = directory ++ [name]) ∨
    ∃ name inner, (name, .directory inner) ∈ entries ∧ isPruned unwanted directory name = false ∧
      file ∈ walk wanted unwanted (directory ++ [name]) (.directory inner) := by
  rw [walk, arranged, List.mem_append, mem_filesHere_iff]
  simp only [List.mem_flatMap, List.mem_mergeSort]
  refine or_congr_right ⟨?_, ?_⟩
  · rintro ⟨⟨name, files⟩, hmem, hfile⟩
    obtain ⟨inner, hinner, hopen, rfl⟩ := mem_walkBelow_iff.1 hmem
    exact ⟨name, inner, hinner, hopen, hfile⟩
  · rintro ⟨name, inner, hinner, hopen, hfile⟩
    exact ⟨(name, _), mem_walkBelow_iff.2 ⟨inner, hinner, hopen, rfl⟩, hfile⟩

/-- **The walk lists the wanted files** that no pruned directory lies above. -/
theorem mem_walk_iff : file ∈ walk wanted unwanted directory (.directory entries) ↔
    ∃ above name, Lies entries (above ++ [name]) ∧
      (∀ outer inside inner, above = outer ++ inside :: inner →
        isPruned unwanted (directory ++ outer) inside = false) ∧
      isWanted wanted unwanted (directory ++ above) name = true ∧
        file = directory ++ (above ++ [name]) := by
  induction entries using entries_induction generalizing directory with
  | step entries ih =>
    rw [mem_walk_step]
    constructor
    · rintro (⟨name, hmem, hwanted, rfl⟩ | ⟨name, inner, hmem, hopen, hfile⟩)
      · refine ⟨[], name, .here hmem, ?_, by simpa using hwanted, rfl⟩
        intro outer inside inner hsplit
        simp at hsplit
      · obtain ⟨above, last, hlies, habove, hwanted, rfl⟩ := (ih name inner hmem).1 hfile
        refine ⟨name :: above, last, .inside hmem hlies, ?_, by simpa using hwanted, by simp⟩
        intro outer inside inner' hsplit
        rcases List.cons_eq_append_iff.1 hsplit with ⟨rfl, hcons⟩ | ⟨outer', rfl, habove'⟩
        · cases hcons
          simpa using hopen
        · simpa using habove outer' inside inner' habove'
    · rintro ⟨above, last, hlies, habove, hwanted, rfl⟩
      cases above with
      | nil => exact .inl ⟨last, lies_singleton_iff.1 hlies, by simpa using hwanted, rfl⟩
      | cons name above =>
        obtain ⟨inner, hmem, hinner⟩ := (lies_cons_iff (by simp)).1 hlies
        refine .inr ⟨name, inner, hmem, by simpa using habove [] name above rfl, ?_⟩
        refine (ih name inner hmem).2 ⟨above, last, hinner, ?_, by simpa using hwanted, by simp⟩
        intro outer inside inner' hsplit
        simpa using habove (name :: outer) inside inner' (by rw [hsplit]; rfl)

/-! ## Files that are found -/

/-- One of the patterns fits a path, with a slash in front or not, or its last name. -/
def Fits (patterns : List String) (path name : String) : Prop :=
  ∃ pattern ∈ patterns, (Glob.ofText pattern).fits path = true ∨
    (Glob.ofText pattern).fits name = true ∨
    (Glob.ofText pattern).fits ("/" ++ path) = true

theorem fitsAny_iff {patterns : List String} {path name : String} :
    fitsAny path name patterns = true ↔ Fits patterns path name := by
  simp only [fitsAny, Fits, List.any_eq_true, Bool.or_eq_true, or_assoc]

theorem fitsAny_eq_false_iff {patterns : List String} {path name : String} :
    fitsAny path name patterns = false ↔ ¬ Fits patterns path name := by
  rw [← fitsAny_iff, Bool.not_eq_true]

/-- What the patterns ask of the file `name` below the directories `above`. -/
structure Wanted (wanted unwanted above : List String) (name : String) : Prop where
  source : Text.endsWith name ".py" = true
  /-- No directory above is unwanted, written with a slash at its end or not. -/
  unpruned : ∀ outer inside inner, above = outer ++ inside :: inner →
    ¬ Fits unwanted ("/".intercalate (outer ++ [inside]) ++ "/") inside ∧
    ¬ Fits unwanted ("/".intercalate (outer ++ [inside])) inside
  allowed : ¬ Fits unwanted ("/".intercalate (above ++ [name])) name
  chosen : wanted = [] ∨ Fits wanted ("/".intercalate (above ++ [name])) name

/-- The file is given as a path, or lies below a directory that is given and is wanted there. -/
inductive Found (roots : List (Path × Listing)) (wanted unwanted : List String) : Path → Prop
  | given {p : Path} (h : (p, .file) ∈ roots) (hsource : p.suffix = ".py") :
    Found roots wanted unwanted p
  | inside {p : Path} {entries : List (String × FileTree)} {above : List String} {name : String}
    (h : (p, .directory entries) ∈ roots) (hlies : Lies entries (above ++ [name]))
    (hwanted : Wanted wanted unwanted above name) :
      Found roots wanted unwanted (p.descend (above ++ [name]))

variable {roots : List (Path × Listing)} {f : Path} {m : String}

theorem wanted_iff {above : List String} {name : String} : Wanted wanted unwanted above name ↔
    (∀ outer inside inner, above = outer ++ inside :: inner →
      isPruned unwanted outer inside = false) ∧
      isWanted wanted unwanted above name = true := by
  simp only [isPruned, isWanted, Bool.or_eq_false_iff, fitsAny_eq_false_iff, Bool.and_eq_true,
    Bool.not_eq_true',
    Bool.or_eq_true, fitsAny_iff, List.isEmpty_iff]
  constructor
  · rintro ⟨hsource, hunpruned, hallowed, hchosen⟩
    exact ⟨hunpruned, ⟨hsource, hallowed⟩, hchosen⟩
  · rintro ⟨hunpruned, ⟨hsource, hallowed⟩, hchosen⟩
    exact ⟨hsource, hunpruned, hallowed, hchosen⟩

theorem mem_found_iff : f ∈ found roots wanted unwanted ↔ Found roots wanted unwanted f := by
  rw [found, List.mem_flatMap]
  constructor
  · rintro ⟨⟨p, l⟩, hroot, hf⟩
    cases l with
    | missing => cases hf
    | file =>
      simp only [filesIn] at hf
      split_ifs at hf with hsource
      · obtain rfl := List.mem_singleton.1 hf
        exact .given hroot hsource
      · cases hf
    | directory entries =>
      obtain ⟨file, hfile, rfl⟩ := List.mem_map.1 hf
      obtain ⟨above, name, hlies, hunpruned, hwanted, rfl⟩ := mem_walk_iff.1 hfile
      exact .inside hroot hlies (wanted_iff.2 ⟨hunpruned, hwanted⟩)
  · rintro (⟨hroot, hsource⟩ | @⟨p, entries, above, name, hroot, hlies, hwanted⟩)
    · exact ⟨_, hroot, by simp [filesIn, hsource]⟩
    · obtain ⟨hunpruned, hwanted⟩ := wanted_iff.1 hwanted
      exact ⟨_, hroot, List.mem_map.2
        ⟨_, mem_walk_iff.2 ⟨above, name, hlies, hunpruned, hwanted, rfl⟩, rfl⟩⟩

/-! ## Names of modules -/

/-- The path is the file itself, or it is no file and contains the file. -/
def Holds (root : Path × Listing) (f : Path) : Prop :=
  (root.2 = .file ∧ root.1 = f) ∨ (root.2 ≠ .file ∧ ∃ parts, f = root.1.descend parts)

/-- `m` is the name of the module that a file is, seen from a path that is the file or contains
it. -/
inductive NamedFrom : Path × Listing → Path → String → Prop
  | itself (p : Path) : NamedFrom (p, .file) p p.stem
  | package {p : Path} {l : Listing} {above : List String} (hl : l ≠ .file) (hne : above ≠ []) :
    NamedFrom (p, l) (p.descend (above ++ ["__init__.py"])) (Dotted.join above)
  | module {p : Path} {l : Listing} {above : List String} {name : String} (hl : l ≠ .file)
    (hname : name ≠ "__init__.py") :
    NamedFrom (p, l) (p.descend (above ++ [name]))
      (Dotted.join (above ++ [(Path.cutSuffix name).1]))

/-- `m` is the name of the module that a file is, seen from the first path that is the file or
contains it. -/
def FirstNamed (roots : List (Path × Listing)) (f : Path) (m : String) : Prop :=
  ∃ before root behind, roots = before ++ root :: behind ∧ (∀ r ∈ before, ¬ Holds r f) ∧
    NamedFrom root f m

theorem join_ne_empty {parts : List String} (hne : parts ≠ []) (h : ∀ part ∈ parts, part ≠ "") :
    Dotted.join parts ≠ "" := by
  obtain ⟨part, rest, rfl⟩ := List.exists_cons_of_ne_nil hne
  have hpart := h part List.mem_cons_self
  cases rest with
  | nil => simpa [Dotted.join] using hpart
  | cons next rest =>
    have hjoin :=
      @Dotted.join_append [part] (next :: rest) (List.cons_ne_nil _ _) (List.cons_ne_nil _ _)
    rw [List.singleton_append] at hjoin
    simp [hjoin, Dotted.below]

theorem moduleAt?_concat {above : List String} {name : String}
    (h : ∀ part ∈ above ++ [name], part ≠ "") :
    moduleAt? (above ++ [name]) =
      if name = "__init__.py" then if above = [] then none else some (Dotted.join above)
      else some (Dotted.join (above ++ [(Path.cutSuffix name).1])) := by
  obtain ⟨habove, hname⟩ := List.forall_mem_append.1 h
  have hstem : ∀ part ∈ above ++ [(Path.cutSuffix name).1], part ≠ "" :=
    List.forall_mem_append.2
      ⟨habove, by simpa using Path.cutSuffix_ne_empty (hname name (List.mem_singleton_self _))⟩
  have hfilter : ∀ parts : List String, (∀ part ∈ parts, part ≠ "") →
      parts.filter (· ≠ "") = parts :=
    fun parts h => List.filter_eq_self.2 fun part hpart => by simpa using h part hpart
  simp only [moduleAt?, List.getLast?_concat, List.dropLast_concat]
  by_cases hinit : name = "__init__.py"
  · simp only [if_pos hinit, hfilter above habove]
    by_cases hnil : above = []
    · subst hnil
      rfl
    · rw [if_neg (join_ne_empty hnil habove), if_neg hnil]
  · rw [if_neg hinit, if_neg hinit, hfilter _ hstem, if_neg (join_ne_empty (by simp) hstem)]

theorem below?_eq_some_iff {p base : Path} {parts : List String} :
    p.below? base = some parts ↔ p = base.descend parts := by
  obtain ⟨root, ps⟩ := p
  obtain ⟨root', qs⟩ := base
  simp only [Path.below?, Path.descend, Bool.and_eq_true, decide_eq_true_eq,
    Option.ite_none_right_eq_some,
    Option.some.injEq, Path.mk.injEq, List.isPrefixOf_iff_prefix]
  constructor
  · rintro ⟨⟨rfl, rest, rfl⟩, rfl⟩
    exact ⟨rfl, by rw [List.drop_left]⟩
  · rintro ⟨rfl, rfl⟩
    exact ⟨⟨rfl, List.prefix_append _ _⟩, List.drop_left⟩

theorem moduleBelow?_eq_none_iff {root : Path × Listing} :
    moduleBelow? f root = none ↔ ¬ Holds root f := by
  obtain ⟨p, l⟩ := root
  have hbelow : (f.below? p).map moduleAt? = none ↔ ¬ ∃ parts, f = p.descend parts := by
    rw [Option.map_eq_none_iff, Option.eq_none_iff_forall_not_mem, not_exists]
    exact forall_congr' fun parts => not_congr below?_eq_some_iff
  cases l with
  | file => simp [moduleBelow?, Holds]
  | missing => simpa [moduleBelow?, Holds] using hbelow
  | directory entries => simpa [moduleBelow?, Holds] using hbelow

theorem moduleBelow?_eq_some_iff (hf : f.Proper) {root : Path × Listing} :
    moduleBelow? f root = some (some m) ↔ NamedFrom root f m := by
  obtain ⟨p, l⟩ := root
  have hnames : ∀ parts, f = p.descend parts → ∀ part ∈ parts, part ≠ "" := by
    rintro parts rfl part hpart
    exact (hf.parts part (List.mem_append_right _ hpart)).ne_empty
  have hbelow (hl : l ≠ .file) : (f.below? p).map moduleAt? = some (some m) ↔
      NamedFrom (p, l) f m := by
    rw [Option.map_eq_some_iff]
    constructor
    · rintro ⟨parts, hparts, hm⟩
      rw [below?_eq_some_iff] at hparts
      rcases List.eq_nil_or_concat' parts with rfl | ⟨above, name, rfl⟩
      · cases hm
      · rw [moduleAt?_concat (hnames _ hparts)] at hm
        subst hparts
        split_ifs at hm with hinit hnil
        · cases hm
          subst hinit
          exact .package hl hnil
        · cases hm
          exact .module hl hinit
    · intro hnamed
      cases hnamed with
      | itself => exact absurd rfl hl
      | package _ hne =>
        refine ⟨_, below?_eq_some_iff.2 rfl, ?_⟩
        rw [moduleAt?_concat (hnames _ rfl), if_pos rfl, if_neg hne]
      | module _ hinit =>
        refine ⟨_, below?_eq_some_iff.2 rfl, ?_⟩
        rw [moduleAt?_concat (hnames _ rfl), if_neg hinit]
  cases l with
  | file =>
    simp only [moduleBelow?, Option.ite_none_right_eq_some, Option.some.injEq]
    constructor
    · rintro ⟨rfl, rfl⟩
      exact .itself p
    · intro hnamed
      cases hnamed with
      | itself => exact ⟨rfl, rfl⟩
      | package hl => exact absurd rfl hl
      | module hl => exact absurd rfl hl
  | missing => exact hbelow nofun
  | directory entries => exact hbelow nofun

theorem moduleName?_eq_some_iff (hf : f.Proper) :
    moduleName? f roots = some m ↔ FirstNamed roots f m := by
  rw [moduleName?, Option.join_eq_some_iff, List.findSome?_eq_some_iff]
  simp only [moduleBelow?_eq_none_iff, moduleBelow?_eq_some_iff hf, FirstNamed]
  constructor
  · rintro ⟨before, root, behind, rfl, hnamed, hbefore⟩
    exact ⟨before, root, behind, rfl, hbefore, hnamed⟩
  · rintro ⟨before, root, behind, rfl, hbefore, hnamed⟩
    exact ⟨before, root, behind, rfl, hnamed, hbefore⟩

/-! ## Sources -/

/-- The files that are found, with the modules that they are. -/
def namedFiles (roots : List (Path × Listing)) (wanted unwanted : List String) :
    List (String × String) :=
  (found roots wanted unwanted).filterMap fun f => (moduleName? f roots).map fun m => (f.text, m)

theorem mem_namedFiles_iff (hproper : ∀ f, Found roots wanted unwanted f → f.Proper)
    {unit : String} :
    (unit, m) ∈ namedFiles roots wanted unwanted ↔
      ∃ f, f.text = unit ∧ Found roots wanted unwanted f ∧ FirstNamed roots f m := by
  simp only [namedFiles, List.mem_filterMap, Option.map_eq_some_iff, Prod.mk.injEq, mem_found_iff]
  constructor
  · rintro ⟨f, hfound, m', hm, rfl, rfl⟩
    exact ⟨f, rfl, hfound, (moduleName?_eq_some_iff (hproper f hfound)).1 hm⟩
  · rintro ⟨f, rfl, hfound, hm⟩
    exact ⟨f, hfound, m, (moduleName?_eq_some_iff (hproper f hfound)).2 hm, rfl, rfl⟩

/-- A unit is one file, and so it is one module. -/
theorem eq_of_mem_namedFiles (hproper : ∀ f, Found roots wanted unwanted f → f.Proper)
    {unit m' : String} (h : (unit, m) ∈ namedFiles roots wanted unwanted)
    (h' : (unit, m') ∈ namedFiles roots wanted unwanted) :
    m = m' := by
  simp only [namedFiles, List.mem_filterMap, Option.map_eq_some_iff, Prod.mk.injEq, mem_found_iff]
    at h h'
  obtain ⟨f, hfound, _, hm, rfl, rfl⟩ := h
  obtain ⟨f', hfound', _, hm', htext, rfl⟩ := h'
  obtain rfl := (hproper f' hfound').eq_of_text_eq (hproper f hfound) htext
  exact Option.some_inj.1 (hm.symm.trans hm')

theorem mem_sources_iff {s : SourceFile} : s ∈ sources roots wanted unwanted ↔
    (namedFiles roots wanted unwanted).find? (·.1 = s.unit) = some (s.unit, s.module) := by
  obtain ⟨unit, module⟩ := s
  have hnodup := Table.nodup_keys_foldl_insertNew (namedFiles roots wanted unwanted) (t := ∅)
    List.nodup_nil
  have hmem : ⟨unit, module⟩ ∈ sources roots wanted unwanted ↔
      (unit, module) ∈ ((namedFiles roots wanted unwanted).foldl (fun t f => t.insertNew f.1 f.2)
        (∅ : Table String String)).entries := by
    simp only [sources, List.mem_map, List.mem_mergeSort, SourceFile.mk.injEq]
    constructor
    · rintro ⟨⟨_, _⟩, hmem, rfl, rfl⟩
      exact hmem
    · exact fun hmem => ⟨_, hmem, rfl, rfl⟩
  rw [hmem, ← Table.find?_eq_some_iff hnodup, Table.find?_foldl_insertNew]
  change (none.or _ = _) ↔ _
  rw [Option.none_or, Option.map_eq_some_iff]
  constructor
  · rintro ⟨⟨unit', _⟩, hfind, rfl⟩
    obtain rfl : unit' = unit := by simpa using List.find?_some hfind
    exact hfind
  · exact fun hfind => ⟨_, hfind, rfl⟩

/-- **The sources are the files that are found** and have a name. -/
theorem mem_sources_iff_found (hproper : ∀ f, Found roots wanted unwanted f → f.Proper)
    {s : SourceFile} :
    s ∈ sources roots wanted unwanted ↔
      ∃ f, f.text = s.unit ∧ Found roots wanted unwanted f ∧ FirstNamed roots f s.module := by
  rw [mem_sources_iff, ← mem_namedFiles_iff hproper]
  refine ⟨List.mem_of_find?_eq_some, fun hmem => ?_⟩
  -- the first module that is found for the unit is the only one
  cases hfind : (namedFiles roots wanted unwanted).find? (·.1 = s.unit) with
  | none => exact absurd (decide_eq_true rfl) (List.find?_eq_none.1 hfind _ hmem)
  | some first =>
    obtain ⟨unit, m⟩ := first
    obtain rfl : unit = s.unit := by simpa using List.find?_some hfind
    rw [eq_of_mem_namedFiles hproper (List.mem_of_find?_eq_some hfind) hmem]

theorem pairwise_sources : (sources roots wanted unwanted).Pairwise fun a b => a.unit < b.unit := by
  rw [sources, List.pairwise_map]
  exact pairwise_lt_sortBy Prod.fst (Table.nodup_keys_foldl_insertNew _ List.nodup_nil)

/-- Sources in the order of their units are told by their members. -/
theorem eq_of_mem_iff {xs ys : List SourceFile} (hx : xs.Pairwise fun a b => a.unit < b.unit)
    (hy : ys.Pairwise fun a b => a.unit < b.unit) (h : ∀ s, s ∈ xs ↔ s ∈ ys) : xs = ys := by
  have hnodup {zs : List SourceFile} (hz : zs.Pairwise fun a b => a.unit < b.unit) : zs.Nodup := by
    refine hz.imp ?_
    rintro a _ hlt rfl
    exact Std.lt_irrefl hlt
  refine List.Perm.eq_of_pairwise (fun a b _ _ hab hba => ?_) hx hy
    ((List.perm_ext_iff_of_nodup (hnodup hx) (hnodup hy)).2 h)
  exact absurd (Std.lt_trans hab hba) Std.lt_irrefl

/-! ## The order of listing -/

/-- The names of the entries of a directory, and below, are names. -/
def Listing.Proper (l : Listing) : Prop :=
  ∀ entries, l = .directory entries → ∀ names, Lies entries names → ∀ name ∈ names, Path.IsName name

/-- The path leads to the same, listed in another order. -/
inductive Listing.Reordered : Listing → Listing → Prop
  | missing : Listing.Reordered .missing .missing
  | file : Listing.Reordered .file .file
  | directory {entries entries' : List (String × FileTree)}
    (h : FileTree.Reordered entries entries') :
    Listing.Reordered (.directory entries) (.directory entries')

/-- What some paths lead to. -/
def rootsOf (lead : Path → Listing) (paths : List String) : List (Path × Listing) :=
  paths.map fun p => (Path.ofText p, lead (.ofText p))

section Listings

variable {lead lead' : Path → Listing} {paths : List String}

theorem mem_rootsOf_iff {p : Path} {l : Listing} :
    (p, l) ∈ rootsOf lead paths ↔ l = lead p ∧ ∃ text ∈ paths, p = .ofText text := by
  simp only [rootsOf, List.mem_map, Prod.mk.injEq]
  constructor
  · rintro ⟨text, htext, rfl, rfl⟩
    exact ⟨rfl, text, htext, rfl⟩
  · rintro ⟨rfl, text, htext, rfl⟩
    exact ⟨text, htext, rfl, rfl⟩

theorem Found.proper (hlead : ∀ p, (lead p).Proper)
    (h : Found (rootsOf lead paths) wanted unwanted f) : f.Proper := by
  cases h with
  | given hroot =>
    obtain ⟨-, text, -, rfl⟩ := mem_rootsOf_iff.1 hroot
    exact Path.proper_ofText text
  | inside hroot hlies =>
    obtain ⟨hl, text, -, rfl⟩ := mem_rootsOf_iff.1 hroot
    exact (Path.proper_ofText text).descend (hlead _ _ hl.symm _ hlies)

theorem Found.of_reordered (hlead : ∀ p, (lead p).Reordered (lead' p))
    (h : Found (rootsOf lead paths) wanted unwanted f) :
    Found (rootsOf lead' paths) wanted unwanted f := by
  cases h with
  | given hroot hsource =>
    obtain ⟨hl, htext⟩ := mem_rootsOf_iff.1 hroot
    have hsame := hlead f
    rw [← hl] at hsame
    generalize hl' : lead' f = l' at hsame
    cases hsame
    exact .given (mem_rootsOf_iff.2 ⟨hl'.symm, htext⟩) hsource
  | @inside p entries above name hroot hlies hwanted =>
    obtain ⟨hl, htext⟩ := mem_rootsOf_iff.1 hroot
    have hsame := hlead p
    rw [← hl] at hsame
    generalize hl' : lead' p = l' at hsame
    cases hsame with
    | directory hentries =>
      exact .inside (mem_rootsOf_iff.2 ⟨hl'.symm, htext⟩) (hentries.lies_iff.1 hlies) hwanted

theorem Listing.Reordered.symm {l l' : Listing} (h : l.Reordered l') : l'.Reordered l := by
  cases h with
  | missing => exact .missing
  | file => exact .file
  | directory hentries => exact .directory hentries.symm

theorem found_iff_of_reordered (hlead : ∀ p, (lead p).Reordered (lead' p)) :
    Found (rootsOf lead' paths) wanted unwanted f ↔ Found (rootsOf lead paths) wanted unwanted f :=
  ⟨.of_reordered fun p => (hlead p).symm, .of_reordered hlead⟩

theorem moduleName?_of_reordered (hlead : ∀ p, (lead p).Reordered (lead' p)) :
    moduleName? f (rootsOf lead' paths) = moduleName? f (rootsOf lead paths) := by
  have hbelow : ∀ p, moduleBelow? f (p, lead' p) = moduleBelow? f (p, lead p) := by
    intro p
    have hsame := hlead p
    generalize lead p = l, lead' p = l' at hsame ⊢
    cases hsame <;> rfl
  simp only [moduleName?, rootsOf, List.findSome?_map, Function.comp_def, hbelow]

theorem sources_of_reordered (hproper : ∀ p, (lead p).Proper)
    (hlead : ∀ p, (lead p).Reordered (lead' p)) :
    sources (rootsOf lead' paths) wanted unwanted =
      sources (rootsOf lead paths) wanted unwanted := by
  refine eq_of_mem_iff pairwise_sources pairwise_sources fun s => ?_
  have hfound : ∀ f, Found (rootsOf lead paths) wanted unwanted f → f.Proper :=
    fun f => Found.proper hproper
  have hfound' : ∀ f, Found (rootsOf lead' paths) wanted unwanted f → f.Proper :=
    fun f hf => hfound f ((found_iff_of_reordered hlead).1 hf)
  rw [mem_sources_iff_found hfound, mem_sources_iff_found hfound']
  refine exists_congr fun f => and_congr_right fun _ => ?_
  rw [found_iff_of_reordered hlead]
  refine and_congr_right fun hf => ?_
  rw [← moduleName?_eq_some_iff (hfound f hf), ← moduleName?_eq_some_iff (hfound f hf),
    moduleName?_of_reordered hlead]

/-- **The sources of a project**: each unit once, in increasing order, whatever the order in which
directories are listed; and they are the files that are found and have a name, seen from the first
path that is or contains the file. -/
theorem sources_exact (hproper : ∀ p, (lead p).Proper) (paths wanted unwanted : List String) :
    ((sources (rootsOf lead paths) wanted unwanted).Pairwise fun a b => a.unit < b.unit) ∧
    (∀ lead', (∀ p, (lead p).Reordered (lead' p)) →
      sources (rootsOf lead' paths) wanted unwanted =
        sources (rootsOf lead paths) wanted unwanted) ∧
    ∀ s, s ∈ sources (rootsOf lead paths) wanted unwanted ↔
      ∃ f, f.text = s.unit ∧ Found (rootsOf lead paths) wanted unwanted f ∧
        FirstNamed (rootsOf lead paths) f s.module :=
  ⟨pairwise_sources, fun _ => sources_of_reordered hproper,
    fun _ => mem_sources_iff_found fun _ => Found.proper hproper⟩

end Listings

/-- A project whose directory lists its entries as the files are given. -/
def shop (files : List (List String)) (p : Path) : Listing :=
  if p = .ofText "src" then .directory (ofFiles files) else if p = .ofText "src/run.py" then .file
    else .missing

/-- The files of a project with tests. -/
def shopFiles : List (List String) :=
  [["run.py"], ["pkg", "sub", "mod.py"], ["pkg", "tests", "test_mod.py"]]

theorem shop_proper (files : List (List String)) (hne : [] ∉ files)
    (hnames : ∀ file ∈ files, ∀ name ∈ file, Path.IsName name) (p : Path) :
    (shop files p).Proper := by
  intro entries hl names hlies
  unfold shop at hl
  split_ifs at hl
  cases hl
  exact hnames names ((lies_ofFiles_iff hne).1 hlies)

theorem shop_reordered (p : Path) : (shop shopFiles p).Reordered (shop shopFiles.reverse p) := by
  unfold shop
  split_ifs
  · exact .directory (.trans (.swap ..) (.directory "pkg" (.swap ..) (.file "run.py" .nil)))
  · exact .file
  · exact .missing

theorem shop_sources :
    sources (rootsOf (shop shopFiles.reverse) ["src/run.py", "src"]) ["*.py"] ["tests"] =
      sources (rootsOf (shop shopFiles) ["src/run.py", "src"]) ["*.py"] ["tests"] ∧
    ⟨"src/pkg/sub/mod.py", "pkg.sub.mod"⟩ ∈
      sources (rootsOf (shop shopFiles) ["src/run.py", "src"]) ["*.py"] ["tests"] ∧
    ⟨"src/run.py", "run"⟩ ∈ sources (rootsOf (shop shopFiles) ["src/run.py", "src"])
      ["*.py"] ["tests"] := by
  have hroots : rootsOf (shop shopFiles) ["src/run.py", "src"] =
      [(.ofText "src/run.py", .file), (.ofText "src", .directory (ofFiles shopFiles))] := rfl
  obtain ⟨-, horder, hmem⟩ := sources_exact (shop_proper shopFiles (by decide) (by decide +kernel))
    ["src/run.py", "src"] ["*.py"] ["tests"]
  refine ⟨horder _ shop_reordered, (hmem _).2 ?_, (hmem _).2 ?_⟩
  · refine ⟨(Path.ofText "src").descend (["pkg", "sub"] ++ ["mod.py"]), by decide +kernel, ?_, ?_⟩
    · have hroot : (.ofText "src", .directory (ofFiles shopFiles)) ∈
          rootsOf (shop shopFiles) ["src/run.py", "src"] := by simp [hroots]
      refine .inside hroot
        ((lies_ofFiles_iff (by decide)).2 (by decide)) (wanted_iff.2 ⟨?_, by decide +kernel⟩)
      -- the directories above are `pkg` and `pkg/sub`
      intro outer inside inner hsplit
      rcases outer with _ | ⟨_, _ | ⟨_, _⟩⟩
      · cases hsplit
        decide +kernel
      · cases hsplit
        decide +kernel
      · simp at hsplit
    · refine ⟨_, _, [], hroots.trans (List.append_cons [] _ _), ?_, .module nofun (by decide)⟩
      intro root hroot
      obtain rfl := List.mem_singleton.1 hroot
      rw [← moduleBelow?_eq_none_iff]
      decide +kernel
  · exact ⟨.ofText "src/run.py", by decide +kernel, .given (by simp [hroots]) (by decide +kernel),
      [], _, _, hroots,
      by simp, .itself _⟩

end Project

end Deadwood
