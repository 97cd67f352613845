import Deadwood.Report.Tree
import Deadwood.Proofs.Sections

/-!
# The tree of folders keeps account of the findings

The tree of a report is built by carrying one file after the other down to its folder, and every
folder on the way counts the findings of the file. In the end every folder counts what its entries
count, provided that no file stands where another one needs a folder.

* `Tree.files`, `Forest.files`: the files of a tree with the names that lead to them.
* `Folder.Sums`: the counts of a folder are those of the files below it; `Folder.Sound` says so of
  all its folders.
* `Folder.exists_add`: a file whose names are no beginning of those of another file, nor the other
  way round, can be added, and the tree stays sound. `exists_foldlM_add` is the same for many files.
* `BalancedNode`, `BalancedNodes`: objects of a tree whose counts are the sums of the counts of
  their children.
* `tree_conserves`: the tree of any findings whose paths leave room for each other.
-/

namespace Deadwood.Report

/-! ## The files of a tree -/

/-- Files with the names that lead to them, seen from outside of a folder with a name. -/
def inside {α : Type} (name : String) (files : List (List String × α)) : List (List String × α) :=
  files.map fun l => (name :: l.1, l.2)

mutual

/-- The files of a tree, each with the names that lead to it. -/
def Tree.files : Tree → List (List String × Leaf)
  | .file leaf => [([], leaf)]
  | .folder _ _ entries => entries.files

/-- The files below the entries of a folder, each with the names that lead to it. -/
def Forest.files : Forest → List (List String × Leaf)
  | .nil => []
  | .cons name node rest => inside name node.files ++ rest.files

end

namespace Forest

/-- Induction over the entries of a folder, one after the other. -/
@[elab_as_elim]
theorem entriesInduction {P : Forest → Prop} (nil : P .nil)
    (cons : ∀ name node rest, P rest → P (.cons name node rest)) (es : Forest) : P es :=
  @Forest.rec (fun _ => True) P (fun _ => trivial) (fun _ _ _ _ => trivial) nil
    (fun name node rest _ h => cons name node rest h) es

/-- The names of the entries. -/
def names : Forest → List String
  | .nil => []
  | .cons name _ rest => name :: rest.names

/-- The files below the entry with a name. -/
def filesAt (name : String) (es : Forest) : List (List String × Leaf) :=
  (es.find? name).elim [] Tree.files

theorem names_insert (name : String) (node : Tree) (es : Forest) :
    (es.insert name node).names = if name ∈ es.names then es.names else es.names ++ [name] := by
  induction es using Forest.entriesInduction with
  | nil => rfl
  | cons n old rest ih =>
    by_cases h : n = name
    · simp [insert, names, h]
    · simp only [insert, names, if_neg h, ih, List.mem_cons, Ne.symm h, false_or]
      split_ifs <;> rfl

theorem nodup_names_insert {es : Forest} (h : es.names.Nodup) (name : String) (node : Tree) :
    (es.insert name node).names.Nodup := by
  rw [names_insert]
  split_ifs with hname
  · exact h
  · exact List.nodup_append_comm.1 (List.nodup_cons.2 ⟨hname, h⟩)

/-- Putting an entry in leaves alone what is below the others. -/
theorem exists_others (name : String) (es : Forest) : ∃ others,
    es.files.Perm (inside name (es.filesAt name) ++ others) ∧
    ∀ node, (es.insert name node).files.Perm (inside name node.files ++ others) := by
  induction es using Forest.entriesInduction with
  | nil => exact ⟨[], .refl _, fun node => .refl _⟩
  | cons n old rest ih =>
    by_cases h : n = name
    · refine ⟨rest.files, ?_, fun node => ?_⟩
      · simp [filesAt, find?, files, h]
      · simp [insert, files, h]
    · obtain ⟨others, hfiles, hinsert⟩ := ih
      have hswap : ∀ xs,
          (inside n old.files ++ (xs ++ others)).Perm (xs ++ (inside n old.files ++ others)) := by
        intro xs
        rw [← List.append_assoc, ← List.append_assoc]
        exact List.perm_append_comm.append_right others
      refine ⟨inside n old.files ++ others, ?_, fun node => ?_⟩
      · simp only [filesAt, find?, files, if_neg h]
        exact (hfiles.append_left _).trans (hswap _)
      · simp only [insert, files, if_neg h]
        exact ((hinsert node).append_left _).trans (hswap _)

end Forest

/-! ## Sound trees -/

/-- The number of findings in files. -/
def countIn (files : List (List String × Leaf)) : Nat := (files.map (·.2.findings.length)).sum

/-- The number of findings of a severity in files. -/
def severityIn (files : List (List String × Leaf)) (k : String) : Nat :=
  (files.map (·.2.findings.countP (·.severity = k))).sum

/-- The counts of a folder are those of the files below it. -/
structure Folder.Sums (f : Folder) : Prop where
  names : f.entries.names.Nodup
  count : f.count = countIn f.entries.files
  nodup : f.bySeverity.keys.Nodup
  amount : ∀ k, f.bySeverity.amount k = severityIn f.entries.files k
  mem_keys : ∀ k, k ∈ f.bySeverity.keys ↔ f.bySeverity.amount k ≠ 0

mutual

/-- Every folder of the tree has its sums, and every file its own name. -/
def Tree.Sound (name : String) : Tree → Prop
  | .file leaf => leaf.name = name
  | .folder count bySeverity entries => Folder.Sums ⟨count, bySeverity, entries⟩ ∧ entries.Sound

/-- Every folder below the entries has its sums, and every file its own name. -/
def Forest.Sound : Forest → Prop
  | .nil => True
  | .cons name node rest => node.Sound name ∧ rest.Sound

end

theorem Forest.Sound.insert {es : Forest} (h : es.Sound) {name : String} {node : Tree}
    (hnode : node.Sound name) :
    (es.insert name node).Sound := by
  induction es using Forest.entriesInduction with
  | nil => exact ⟨hnode, trivial⟩
  | cons n old rest ih =>
    by_cases hn : n = name
    · rw [Forest.insert, if_pos hn]
      exact ⟨hn ▸ hnode, h.2⟩
    · rw [Forest.insert, if_neg hn]
      exact ⟨h.1, ih h.2⟩

theorem Forest.Sound.of_find? {es : Forest} (h : es.Sound) {name : String} {node : Tree}
    (hfind : es.find? name = some node) : node.Sound name := by
  induction es using Forest.entriesInduction with
  | nil => cases hfind
  | cons n old rest ih =>
    by_cases hn : n = name
    · rw [Forest.find?, if_pos hn] at hfind
      exact Option.some_inj.1 hfind ▸ hn ▸ h.1
    · rw [Forest.find?, if_neg hn] at hfind
      exact ih h.2 hfind

namespace Folder

/-- The folder and all folders below it have their sums. -/
def Sound (f : Folder) : Prop := f.Sums ∧ f.entries.Sound

theorem sound_empty : Sound {} :=
  ⟨⟨List.nodup_nil, rfl, List.nodup_nil, fun _ => rfl,
    fun _ => iff_of_false List.not_mem_nil fun h => h rfl⟩, trivial⟩

/-- Crediting a folder with a file keeps the sums if the file is added below. -/
theorem Sums.credit {f : Folder} (h : f.Sums) {leaf : Leaf} {trail : List String} {entries : Forest}
    (hnames : entries.names.Nodup)
    (hfiles : entries.files.Perm ((trail, leaf) :: f.entries.files)) :
    Sums { f.credit leaf with entries } where
  names := hnames
  count := by
    have hsum := (hfiles.map (·.2.findings.length)).sum_eq
    rw [List.map_cons, List.sum_cons] at hsum
    change f.count + leaf.findings.length = (entries.files.map (·.2.findings.length)).sum
    rw [hsum, h.count, countIn, Nat.add_comm]
  nodup := Table.nodup_keys_addAll h.nodup _
  amount k := by
    have hsum := (hfiles.map (·.2.findings.countP (·.severity = k))).sum_eq
    rw [List.map_cons, List.sum_cons] at hsum
    have hadd : (f.bySeverity.addAll (Report.bySeverity leaf.findings)).amount k =
        f.bySeverity.amount k + leaf.findings.countP (·.severity = k) := by
      rw [Table.amount_addAll _ (nodup_keys_bySeverity _), amount_bySeverity]
    refine hadd.trans ?_
    rw [severityIn, hsum, h.amount, severityIn, Nat.add_comm]
  mem_keys k := by
    have hadd := Table.amount_addAll f.bySeverity (nodup_keys_bySeverity leaf.findings) k
    change k ∈ (f.bySeverity.addAll (Report.bySeverity leaf.findings)).keys ↔
      (f.bySeverity.addAll (Report.bySeverity leaf.findings)).amount k ≠ 0
    rw [Table.mem_keys_addAll, h.mem_keys, mem_keys_bySeverity]
    omega

/-- No names of a file lead through the end of the trail, and the trail leads through no file. -/
def Apart (trail : List String) (files : List (List String × Leaf)) : Prop :=
  ∀ l ∈ files, ¬ l.1 <+: trail ∧ ¬ trail <+: l.1

theorem Apart.of_perm {trail : List String} {files files' : List (List String × Leaf)}
    (h : Apart trail files) (hperm : files.Perm files') : Apart trail files' :=
  fun l hl => h l (hperm.mem_iff.2 hl)

/-- What leads on from a name is apart from the files below the entry with this name. -/
theorem Apart.filesAt {name : String} {trail : List String} {es : Forest}
    (h : Apart (name :: trail) es.files) :
    Apart trail (es.filesAt name) := by
  obtain ⟨others, hfiles, -⟩ := es.exists_others name
  intro l hl
  have hmem : (name :: l.1, l.2) ∈ inside name (es.filesAt name) := List.mem_map.2 ⟨l, hl, rfl⟩
  simpa [List.cons_prefix_cons] using h.of_perm hfiles _ (List.mem_append_left others hmem)

/-- The folder that a name leads to, or a new one: there is no file in its place. -/
theorem exists_inner {f : Folder} (h : f.Sound) {name : String} {trail : List String}
    (hapart : Apart trail (f.entries.filesAt name)) : ∃ inner : Folder, inner.Sound ∧
      inner.entries.files = f.entries.filesAt name ∧
      ∀ names leaf, f.add (name :: names) leaf = (inner.add names leaf).map fun inner' =>
        { f.credit leaf with entries := f.entries.insert name inner'.toTree } := by
  have hentries : ∀ leaf, (f.credit leaf).entries = f.entries := fun _ => rfl
  unfold Forest.filesAt at *
  cases hfind : f.entries.find? name with
  | none =>
    refine ⟨{}, sound_empty, rfl, fun names leaf => ?_⟩
    simp only [add, hentries, hfind, Option.bind_eq_bind, Option.bind_some]
    cases add names leaf {} <;> rfl
  | some node =>
    rw [hfind] at hapart
    cases node with
    | file leaf => exact absurd List.nil_prefix (hapart ([], leaf) List.mem_cons_self).1
    | folder count bySeverity entries =>
      refine ⟨⟨count, bySeverity, entries⟩, h.2.of_find? hfind, rfl, fun names leaf => ?_⟩
      simp only [add, hentries, hfind, Option.bind_eq_bind, Option.bind_some]
      cases add names leaf ⟨count, bySeverity, entries⟩ <;> rfl

/-- **A file that is apart from all others can be added**, and every folder on its way counts it. -/
theorem exists_add (names : List String) (leaf : Leaf) {f : Folder} (h : f.Sound)
    (hapart : Apart (names ++ [leaf.name]) f.entries.files) :
    ∃ f', f.add names leaf = some f' ∧ f'.Sound ∧
      f'.entries.files.Perm ((names ++ [leaf.name], leaf) :: f.entries.files) := by
  -- The induction follows the names down; the files beside the way stay the same at every step.
  induction names generalizing f with
  | nil =>
    obtain ⟨others, hfiles, hinsert⟩ := f.entries.exists_others leaf.name
    have hfree : f.entries.filesAt leaf.name = [] := by
      refine List.eq_nil_iff_forall_not_mem.2 fun l hl => ?_
      exact (Apart.filesAt hapart l hl).2 List.nil_prefix
    rw [hfree] at hfiles
    have hperm := (hinsert (.file leaf)).trans (hfiles.symm.cons ([leaf.name], leaf))
    refine ⟨_, rfl, ⟨h.1.credit (Forest.nodup_names_insert h.1.names _ _) hperm, ?_⟩, hperm⟩
    exact h.2.insert (show Tree.Sound leaf.name (.file leaf) from rfl)
  | cons name names ih =>
    obtain ⟨others, hfiles, hinsert⟩ := f.entries.exists_others name
    obtain ⟨inner, hinner, hat, hadd⟩ := exists_inner h (Apart.filesAt hapart)
    obtain ⟨inner', hinner', hsound, hperm'⟩ := ih hinner (hat ▸ Apart.filesAt hapart)
    have hperm : (f.entries.insert name inner'.toTree).files.Perm
        ((name :: names ++ [leaf.name], leaf) :: f.entries.files) := by
      have hbelow := hperm'.map fun l => (name :: l.1, l.2)
      rw [hat] at hbelow
      exact ((hinsert inner'.toTree).trans (hbelow.append_right others)).trans (hfiles.symm.cons _)
    refine ⟨_, by rw [hadd, hinner']; rfl,
      ⟨h.1.credit (Forest.nodup_names_insert h.1.names _ _) hperm, ?_⟩, hperm⟩
    exact h.2.insert (show inner'.toTree.Sound name from hsound)

end Folder

/-! ## The way to a file -/

/-- The parts of a path; the empty path is a single part. -/
def pathParts (path : String) : List String :=
  if path = "" then [""] else (Path.ofText path).components

/-- Different paths have different parts, and those of one do not begin those of another. -/
def PrefixFree (paths : List String) : Prop :=
  ∀ p ∈ paths, ∀ q ∈ paths, pathParts p <+: pathParts q → p = q

instance (paths : List String) : Decidable (PrefixFree paths) :=
  inferInstanceAs (Decidable (∀ p ∈ paths, _))

/-- The names that lead to the file of a path: its parts, or the path itself if it has none. -/
def trail (path : String) : List String :=
  if (Path.ofText path).components = [] then [path] else (Path.ofText path).components

theorem place_append_name (path : String) (fs : List Finding) :
    (place path fs).1 ++ [(place path fs).2.name] = trail path := by
  unfold place trail
  dsimp only
  split_ifs with h
  · simp [h]
  · rw [List.getLast?_eq_some_getLast h, Option.getD_some, List.dropLast_append_getLast h]

theorem pathParts_cases (path : String) : pathParts path = trail path ∨ pathParts path = [] := by
  unfold pathParts trail
  by_cases hpath : path = ""
  · subst hpath
    exact .inl (by decide)
  · rw [if_neg hpath]
    split_ifs with h
    · exact .inr h
    · exact .inl rfl

/-- Where the parts of paths do not begin each other, neither do the names that lead to their
files. -/
theorem PrefixFree.eq_of_trail {paths : List String} (h : PrefixFree paths) {p q : String}
    (hp : p ∈ paths) (hq : q ∈ paths) (htrail : trail p <+: trail q) : p = q := by
  -- A path without parts is the only one, since no parts begin all others.
  rcases pathParts_cases p with hpartsp | hpartsp
  · rcases pathParts_cases q with hpartsq | hpartsq
    · exact h p hp q hq (by rwa [hpartsp, hpartsq])
    · exact (h q hq p hp (hpartsq ▸ List.nil_prefix)).symm
  · exact h p hp q hq (hpartsp ▸ List.nil_prefix)

/-! ## The whole tree -/

variable (directory : String)

/-- Adds the file of a section to the tree. -/
def addSection (f : Folder) (s : String × List Finding) : Option Folder :=
  f.add (place s.1 s.2).1 (place s.1 s.2).2

theorem tree_eq_foldlM (findings : List Finding) :
    tree directory findings = ((byPath directory findings).entries.mergeSort fun a b => a.1 ≤
      b.1).foldlM addSection {} := rfl

/-- Files whose trails do not begin each other can be added one after the other. -/
theorem exists_foldlM_add (ss : List (String × List Finding)) {f : Folder} (h : f.Sound)
    (hss : ss.Pairwise fun a b => ¬ trail a.1 <+: trail b.1 ∧ ¬ trail b.1 <+: trail a.1)
    (hapart : ∀ s ∈ ss, Folder.Apart (trail s.1) f.entries.files) :
    ∃ f', ss.foldlM addSection f = some f' ∧ f'.Sound ∧
      f'.entries.files.Perm
        ((ss.map fun s => (trail s.1, (place s.1 s.2).2)) ++ f.entries.files) := by
  induction ss generalizing f with
  | nil => exact ⟨f, rfl, h, .refl _⟩
  | cons s rest ih =>
    obtain ⟨hs, hrest⟩ := List.pairwise_cons.1 hss
    obtain ⟨hsapart, hrestapart⟩ := List.forall_mem_cons.1 hapart
    rw [← place_append_name s.1 s.2] at hsapart
    obtain ⟨f₁, hf₁, hsound, hfiles⟩ := Folder.exists_add _ _ h hsapart
    rw [place_append_name] at hfiles
    have happart' : ∀ s' ∈ rest, Folder.Apart (trail s'.1) f₁.entries.files := by
      intro s' hs' l hl
      rcases List.mem_cons.1 (hfiles.mem_iff.1 hl) with rfl | hl
      · exact hs s' hs'
      · exact hrestapart s' hs' l hl
    obtain ⟨f', hf', hsound', hfiles'⟩ := ih hsound hrest happart'
    refine ⟨f', ?_, hsound', hfiles'.trans ((hfiles.append_left _).trans ?_)⟩
    · rw [List.foldlM_cons, addSection, hf₁]
      exact hf'
    · exact List.perm_middle

/-! ## The tree as an object -/

/-- The object shows a count and counts by severity: no severity twice, and none without a
finding. -/
structure Shows (n : Nat) (sev : String → Nat) (v : Value) : Prop where
  count : v.get? "count" = some (.int n)
  bySeverity : ∃ t : Table String Nat, v.get? "by_severity" = some (countsValue t) ∧ t.keys.Nodup ∧
    ∀ k, t.amount k = sev k ∧ (k ∈ t.keys ↔ sev k ≠ 0)

/-- The object is a file with a name, a path and issues. -/
structure FileObject (name path : String) (issues : List Value) (v : Value) : Prop where
  type : v.get? "type" = some (.str "file")
  name : v.get? "name" = some (.str name)
  path : v.get? "path" = some (.str path)
  issues : v.get? "issues" = some (.list issues)

/-- The object is a folder, or the root, with a name and children of different names. -/
structure FolderObject (type name : String) (children : List (String × Value)) (v : Value) :
    Prop where
  nodup : (children.map (·.1)).Nodup
  type : v.get? "type" = some (.str type)
  name : v.get? "name" = some (.str name)
  children : v.get? "children" = some (.dict children)

mutual

/-- The object with a name counts `n` findings, `sev k` of them of the severity `k`, and has the
given files at or below it: a file counts its own issues, and a folder shows the sums of what its
children show. -/
inductive BalancedNode : String → Value → Nat → (String → Nat) →
    List (List String × String × List Value) → Prop where
  | file {name path issues v} (object : FileObject name path issues v)
      (counts : Shows issues.length (fun k => issues.countP (textAt "severity" · = some k)) v) :
      BalancedNode name v issues.length (fun k => issues.countP (textAt "severity" · = some k))
        [([], path, issues)]
  | folder {name children v n sev files} (object : FolderObject "folder" name children v)
    (counts : Shows n sev v)
      (below : BalancedNodes children n sev files) : BalancedNode name v n sev files

/-- The objects count `n` findings together, `sev k` of them of the severity `k`, and have the given
files. -/
inductive BalancedNodes : List (String × Value) → Nat → (String → Nat) →
    List (List String × String × List Value) → Prop where
  | nil : BalancedNodes [] 0 (fun _ => 0) []
  | cons {name v rest n n' sev sev' files files'} (first : BalancedNode name v n sev files)
      (others : BalancedNodes rest n' sev' files') :
      BalancedNodes ((name, v) :: rest) (n + n') (fun k => sev k + sev' k)
        (inside name files ++ files')

end

/-- A file of the tree as its object shows it. -/
def shownFile (l : List String × Leaf) : List String × String × List Value :=
  (l.1, l.2.path, l.2.findings.map fun f => (f.shown directory).toValue)

theorem shownFile_inside (name : String) (files : List (List String × Leaf)) :
    (inside name files).map (shownFile directory) =
      inside name (files.map (shownFile directory)) := by
  simp [inside, shownFile]

theorem countIn_append (files files' : List (List String × Leaf)) :
    countIn (files ++ files') = countIn files + countIn files' := by
  simp [countIn]

theorem countIn_inside (name : String) (files : List (List String × Leaf)) :
    countIn (inside name files) = countIn files := by
  simp [countIn, inside, Function.comp_def]

theorem severityIn_append (files files' : List (List String × Leaf)) (k : String) :
    severityIn (files ++ files') k = severityIn files k + severityIn files' k := by
  simp [severityIn]

theorem severityIn_inside (name : String) (files : List (List String × Leaf)) :
    severityIn (inside name files) = severityIn files := by
  funext k
  simp [severityIn, inside, Function.comp_def]

theorem Folder.Sums.shows {f : Folder} (h : f.Sums) (directory type name : String) :
    Shows (countIn f.entries.files) (severityIn f.entries.files)
      (folderValue type name f.count f.bySeverity (f.entries.toFields directory)) where
  count := by
    rw [← h.count]
    rfl
  bySeverity := by
    refine ⟨f.bySeverity, rfl, h.nodup, fun k => ⟨h.amount k, ?_⟩⟩
    rw [h.mem_keys, h.amount]

theorem keys_toFields (es : Forest) : (es.toFields directory).map (·.1) = es.names := by
  induction es using Forest.entriesInduction with
  | nil => rfl
  | cons name node rest ih => simp [Forest.toFields, Forest.names, ih]

theorem Folder.Sums.folderObject {f : Folder} (h : f.Sums) (directory type name : String) :
    FolderObject type name (f.entries.toFields directory)
      (folderValue type name f.count f.bySeverity (f.entries.toFields directory)) :=
  ⟨by rw [keys_toFields]; exact h.names, rfl, rfl, rfl⟩

theorem Leaf.balanced (leaf : Leaf) :
    BalancedNode leaf.name (leaf.toValue directory) (countIn [([], leaf)])
    (severityIn [([], leaf)]) ([([], leaf)].map (shownFile directory)) := by
  have hcount : countIn [([], leaf)] =
    (leaf.findings.map fun f => (f.shown directory).toValue).length := by simp [countIn]
  have hsev : severityIn [([], leaf)] =
      fun k => (leaf.findings.map fun f => (f.shown directory).toValue).countP
        (textAt "severity" · = some k) := by
    funext k
    rw [countP_issues directory (textAt_severity directory)]
    simp [severityIn]
  rw [hcount, hsev]
  refine .file ⟨rfl, rfl, rfl, rfl⟩
    ⟨?_, bySeverity leaf.findings, rfl, nodup_keys_bySeverity _, fun k => ?_⟩
  · rw [List.length_map]
    rfl
  · rw [countP_issues directory (textAt_severity directory), ← amount_bySeverity]
    exact ⟨rfl, mem_keys_bySeverity⟩

mutual

/-- The object of a sound tree is balanced. -/
theorem Tree.Sound.balanced {t : Tree} {name : String} (h : t.Sound name) :
    BalancedNode name (t.toValue directory name) (countIn t.files) (severityIn t.files)
      (t.files.map (shownFile directory)) := by
  cases t with
  | file leaf =>
    obtain rfl : leaf.name = name := h
    exact leaf.balanced directory
  | folder count bySeverity entries =>
    exact .folder (h.1.folderObject directory "folder" name) (h.1.shows directory "folder" name)
      (Forest.Sound.balanced h.2)

theorem Forest.Sound.balanced {es : Forest} (h : es.Sound) :
    BalancedNodes (es.toFields directory) (countIn es.files) (severityIn es.files)
      (es.files.map (shownFile directory)) := by
  cases es with
  | nil => exact .nil
  | cons name node rest =>
    have hcons := BalancedNodes.cons (Tree.Sound.balanced h.1) (Forest.Sound.balanced h.2)
    have hsev : severityIn (inside name node.files ++ rest.files) =
        fun k => severityIn node.files k + severityIn rest.files k := by
      funext k
      rw [severityIn_append, severityIn_inside]
    rw [Forest.files, Forest.toFields, countIn_append, countIn_inside, hsev, List.map_append,
      shownFile_inside]
    exact hcons

end

/-- The names that lead to the files of a report do not begin each other if the parts of their paths
do not. -/
theorem pairwise_trails {findings : List Finding}
    (h : PrefixFree (findings.map (displayPath directory ·.location.file)))
    {ss : List (String × List Finding)} (hperm : ss.Perm (byPath directory findings).entries) :
    ss.Pairwise fun a b => ¬ trail a.1 <+: trail b.1 ∧ ¬ trail b.1 <+: trail a.1 := by
  have hpath : ∀ s ∈ ss, s.1 ∈ findings.map (displayPath directory ·.location.file) :=
    fun s hs => (mem_byPath_iff.1 (hperm.mem_iff.1 hs)).1
  have hne :=
    List.pairwise_map.1 ((hperm.map (·.1)).nodup_iff.2 (nodup_paths_byPath directory findings))
  refine hne.imp_of_mem fun {a b} ha hb hab => ⟨fun hp => hab ?_, fun hp => hab ?_⟩
  · exact h.eq_of_trail (hpath a ha) (hpath b hb) hp
  · exact (h.eq_of_trail (hpath b hb) (hpath a ha) hp).symm

/-- The tree of a report is sound, and its files are those of the findings. -/
theorem exists_tree {findings : List Finding}
    (h : PrefixFree (findings.map (displayPath directory ·.location.file))) :
    ∃ root, tree directory findings = some root ∧ root.Sound ∧
      (root.entries.files.map (shownFile directory)).Perm
      ((byPath directory findings).entries.map fun s =>
        (trail s.1, s.1, s.2.map fun f => (f.shown directory).toValue)) := by
  have hperm := List.mergeSort_perm (byPath directory findings).entries fun a b => a.1 ≤ b.1
  obtain ⟨root, hroot, hsound, hfiles⟩ :=
    exists_foldlM_add _ Folder.sound_empty (pairwise_trails directory h hperm)
    fun s _ l hl => absurd hl List.not_mem_nil
  refine ⟨root, (tree_eq_foldlM directory findings).trans hroot, hsound, ?_⟩
  have hplaced := hfiles.map (shownFile directory)
  rw [show ({} : Folder).entries.files = [] from rfl, List.append_nil, List.map_map] at hplaced
  exact hplaced.trans (hperm.map _)

/-- **The tree conserves counts at every node.** If the parts of the paths that are shown do not
begin each other, then there is a tree. Its files are the paths that are shown, each at the end of
its parts, with the findings of the path in their order and their number. Every folder and the root
count what their children count, in all and by severity. -/
theorem tree_conserves (findings : List Finding)
    (h : PrefixFree (findings.map (displayPath directory ·.location.file))) :
    ∃ root children n sev files, tree directory findings = some root ∧
      FolderObject "root" "Project Root" children (root.toValue directory) ∧
        Shows n sev (root.toValue directory) ∧
      BalancedNodes children n sev files ∧ (files.map (·.2.1)).Nodup ∧
      ∀ names path issues, (names, path, issues) ∈ files ↔
        path ∈ findings.map (displayPath directory ·.location.file) ∧ names = trail path ∧
        issues = (findings.filter (displayPath directory ·.location.file = path)).map fun f =>
          (f.shown directory).toValue := by
  obtain ⟨root, hroot, hsound, hshown⟩ := exists_tree directory h
  refine ⟨root, (root.entries.toFields directory), _, _,
    root.entries.files.map (shownFile directory), hroot,
    hsound.1.folderObject directory "root" "Project Root",
      hsound.1.shows directory "root" "Project Root", hsound.2.balanced directory, ?_, ?_⟩
  · refine (hshown.map (·.2.1)).nodup_iff.2 ?_
    rw [List.map_map]
    exact nodup_paths_byPath directory findings
  · intro names path issues
    rw [hshown.mem_iff, List.mem_map]
    constructor
    · rintro ⟨⟨p, fs⟩, hs, heq⟩
      obtain ⟨rfl, rfl, rfl⟩ : trail p = names ∧ p = path ∧
          (fs.map fun f => (f.shown directory).toValue) = issues := by
        simpa using heq
      obtain ⟨hp, rfl⟩ := mem_byPath_iff.1 hs
      exact ⟨hp, rfl, rfl⟩
    · rintro ⟨hp, rfl, rfl⟩
      exact ⟨(path, _), mem_byPath_iff.2 ⟨hp, rfl⟩, rfl⟩

/-- Findings in nested folders, outside of the working directory, and without a file. -/
def nestedFindings : List Finding :=
  [⟨⟨"pkg.a", "f", 0⟩, .unused, ⟨"pkg/a.py", 3⟩, "pkg.a.f/0 is unused", "hint"⟩,
    ⟨⟨"pkg.sub.b", "g", 0⟩, .unused, ⟨"pkg/sub/b.py", 1⟩, "pkg.sub.b.g/0 is unused", "hint"⟩,
    ⟨⟨"pkg.sub.b", "h", 0⟩, .narrowable, ⟨"pkg/./sub/b.py", 7⟩,
      "pkg.sub.b.h/0 could be private", "warning"⟩,
    ⟨⟨"x", "k", 0⟩, .unused, ⟨"../x.py", 1⟩, "x.k/0 is unused", "hint"⟩,
    ⟨⟨"lost", "m", 0⟩, .unused, ⟨"", 0⟩, "lost.m/0 is unused", "hint"⟩]

/-- The file two folders below the root has its two findings. -/
theorem nestedFindings_conserved :
    ∃ root children n sev files, tree "/home" nestedFindings = some root ∧
    FolderObject "root" "Project Root" children (root.toValue "/home") ∧
      Shows n sev (root.toValue "/home") ∧
    BalancedNodes children n sev files ∧
    ∃ issues, (["pkg", "sub", "b.py"], "pkg/sub/b.py", issues) ∈ files ∧ issues.length = 2 := by
  obtain ⟨root, children, n, sev, files, htree, hobject, hshows, hbalanced, -, hfiles⟩ :=
    tree_conserves "/home" nestedFindings (by decide +kernel)
  refine ⟨root, children, n, sev, files, htree, hobject, hshows, hbalanced, _,
    (hfiles _ _ _).2 ⟨?_, ?_, rfl⟩, ?_⟩
  · decide +kernel
  · decide +kernel
  · decide +kernel

end Deadwood.Report
