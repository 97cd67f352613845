import Deadwood.File.Host
import Deadwood.Proofs.Table

/-!
# What operations do to a disk

Every operation is described by what it does to the places of a disk. Writing changes one place, the
place that the parts of the path lead to. Making directories fails if a file stands where the path
leads through, and else puts directories where nothing stands.

* `Path.place`: the place that a path leads to, if it leads anywhere, and `Path.trail` the places up
  to it.
* `Disk.fileAt?`: the content of the file at a place.
* `Query x`: the action looks at the disk and changes nothing.
* `Touches paths x`: the action changes files at these paths only.
-/

namespace Deadwood

/-! ## Places -/

namespace Path

/-- Where a path starts, given the working directory. -/
def start (home : List String) (p : Path) : List String := if p.isAbsolute then [] else home

/-- The place that a path leads to, given the working directory. -/
def place (home : List String) (p : Path) : List String := p.parts.foldl step (p.start home)

/-- The places that parts lead to from a place, one after the other. -/
def steps : List String → List String → List (List String)
  | _, [] => []
  | place, part :: rest => step place part :: steps (step place part) rest

/-- The places that a path leads through, its start left out, up to the place that it leads to. -/
def trail (home : List String) (p : Path) : List (List String) := steps (p.start home) p.parts

theorem steps_append (place front rest : List String) :
    steps place (front ++ rest) = steps place front ++ steps (front.foldl step place) rest := by
  induction front generalizing place with
  | nil => rfl
  | cons part front ih => simp [steps, ih]

theorem trail_child (home : List String) (p : Path) (entry : String) :
    (p.child entry).trail home = p.trail home ++ [step (p.place home) entry] := by
  change steps (p.start home) (p.parts ++ [entry]) = _
  rw [steps_append]
  rfl

theorem place_child (home : List String) (p : Path) (entry : String) :
    (p.child entry).place home = step (p.place home) entry := by
  change (p.parts ++ [entry]).foldl step (p.start home) = _
  rw [List.foldl_append]
  rfl

theorem parent_child (p : Path) (entry : String) : (p.child entry).parent = p := by
  simp [child, parent]

/-- A path is an entry of another one, unless it has no parts. -/
theorem exists_child {p : Path} (h : p.parts ≠ []) : ∃ front entry, p = child front entry := by
  obtain ⟨root, parts⟩ := p
  obtain rfl | ⟨front, last, rfl⟩ := List.eq_nil_or_concat parts
  · exact absurd rfl h
  · exact ⟨⟨root, front⟩, last, by simp [child]⟩

end Path

namespace Disk

variable {d d' : Disk} {p : Path} {content : List UInt8}

theorem at?_of_isPrefixOf {place : List String} (h : place.isPrefixOf d.home = true) :
    d.at? place = some .directory := by rw [at?, if_pos h]

/-- A path starts at a directory. -/
theorem at?_start (d : Disk) (p : Path) : d.at? (p.start d.home) = some .directory := by
  refine at?_of_isPrefixOf ?_
  unfold Path.start
  split
  · rfl
  · exact List.isPrefixOf_iff_prefix.2 List.prefix_rfl

theorem at?_insert {place : List String} (hp : d.at? place ≠ some .directory) (node : DiskNode)
    (q : List String) : Disk.at? { d with nodes := d.nodes.insert place node } q =
      if q = place then some node else d.at? q := by
  have houtside : place.isPrefixOf d.home = false :=
    Bool.eq_false_iff.2 fun h => hp (at?_of_isPrefixOf h)
  unfold at?
  rw [Table.find?_insert]
  by_cases hq : q = place
  · subst hq
    simp [houtside]
  · simp [hq]

/-! ## Following paths -/

theorem follow_eq {parts place q : List String} (h : d.follow place parts = .ok q) :
    q = parts.foldl Path.step place := by
  induction parts generalizing place with
  | nil =>
    cases h
    rfl
  | cons part rest ih =>
    rw [follow] at h
    split at h
    · cases h
    · cases h
    · exact ih h

theorem locate_eq {q : List String} (h : d.locate p = .ok q) : q = p.place d.home := follow_eq h

theorem follow_concat_cases {place : List String} (hstart : d.at? place = some .directory)
    (parts : List String) (entry : String) :
    (d.follow place (parts ++ [entry]) = .ok ((parts ++ [entry]).foldl Path.step place) ∧
      ∀ q ∈ Path.steps place parts, d.at? q = some .directory) ∨
    (d.follow place (parts ++ [entry]) = .error .missing ∧
      ∃ q ∈ Path.steps place parts, d.at? q = none) ∨
    (d.follow place (parts ++ [entry]) = .error .notADirectory ∧
      ∃ q ∈ Path.steps place parts, ∃ content, d.at? q = some (.file content)) := by
  induction parts generalizing place with
  | nil =>
    refine .inl ⟨?_, fun q hq => by cases hq⟩
    rw [List.nil_append, follow, hstart]
    rfl
  | cons part rest ih =>
    have hstep : d.follow place (part :: rest ++ [entry]) =
        d.follow (Path.step place part) (rest ++ [entry]) := by
      rw [List.cons_append, follow, hstart]
    have hne : rest ++ [entry] ≠ [] := by simp
    obtain ⟨first, others, hfirst⟩ := List.exists_cons_of_ne_nil hne
    rw [hstep]
    cases hnode : d.at? (Path.step place part) with
    | none =>
      refine .inr (.inl ⟨?_, _, List.mem_cons_self, hnode⟩)
      rw [hfirst, follow, hnode]
    | some node =>
      cases node with
      | file content =>
        refine .inr (.inr ⟨?_, _, List.mem_cons_self, content, hnode⟩)
        rw [hfirst, follow, hnode]
      | directory =>
        rcases ih hnode with ⟨hok, hdirs⟩ | ⟨herr, q, hq, hnone⟩ | ⟨herr, q, hq, hfile⟩
        · exact .inl ⟨hok, List.forall_mem_cons.2 ⟨hnode, hdirs⟩⟩
        · exact .inr (.inl ⟨herr, q, List.mem_cons_of_mem _ hq, hnone⟩)
        · exact .inr (.inr ⟨herr, q, List.mem_cons_of_mem _ hq, hfile⟩)

/-- An entry of a directory is found if the trail of the directory consists of directories; else the
first place that is none decides. -/
theorem locate_child_cases (d : Disk) (p : Path) (entry : String) :
    (d.locate (p.child entry) = .ok ((p.child entry).place d.home) ∧
      ∀ q ∈ p.trail d.home, d.at? q = some .directory) ∨
    (d.locate (p.child entry) = .error .missing ∧ ∃ q ∈ p.trail d.home, d.at? q = none) ∨
    (d.locate (p.child entry) = .error .notADirectory ∧
      ∃ q ∈ p.trail d.home, ∃ content, d.at? q = some (.file content)) :=
  follow_concat_cases (d.at?_start p) p.parts entry

theorem locate_child (h : ∀ q ∈ p.trail d.home, d.at? q = some .directory) (entry : String) :
    d.locate (p.child entry) = .ok ((p.child entry).place d.home) := by
  rcases d.locate_child_cases p entry with ⟨hok, -⟩ | ⟨-, q, hq, hnone⟩ | ⟨-, q, hq, content, hfile⟩
  · exact hok
  · rw [h q hq] at hnone
    cases hnone
  · rw [h q hq] at hfile
    cases hfile

theorem locate_root (h : p.parts = []) : d.locate p = .ok (p.place d.home) := by
  rw [locate, h, Path.place, h]
  rfl

/-- A path is found if the directory around it is, and so is a path without parts. -/
theorem locate_of_parent
    (h : p.parts = [] ∨ ∀ q ∈ p.parent.trail d.home, d.at? q = some .directory) :
    d.locate p = .ok (p.place d.home) := by
  by_cases hnil : p.parts = []
  · exact locate_root hnil
  · have hdirs := h.resolve_left hnil
    obtain ⟨front, entry, rfl⟩ := Path.exists_child hnil
    rw [Path.parent_child] at hdirs
    exact locate_child hdirs entry

/-! ## Directories -/

/-- No file stands where a path leads. -/
def Open (d : Disk) (p : Path) : Prop :=
  ∀ q ∈ p.trail d.home, ∀ content, d.at? q ≠ some (.file content)

/-- `d'` is `d` with directories at those of the places where nothing stands. -/
structure Extended (d : Disk) (places : List (List String)) (d' : Disk) : Prop where
  home : d'.home = d.home
  at? : ∀ q, d'.at? q = if q ∈ places ∧ d.at? q = none then some .directory else d.at? q

namespace Extended

variable {places : List (List String)}

theorem refl (h : ∀ q ∈ places, d.at? q = some .directory) : Extended d places d := by
  refine ⟨rfl, fun q => (if_neg ?_).symm⟩
  rintro ⟨hq, hnone⟩
  rw [h q hq] at hnone
  cases hnone

theorem of_none {q : List String} (h : Extended d places d') (hq : q ∈ places)
    (hd : d.at? q = none) :
    d'.at? q = some .directory := by rw [h.at?, if_pos ⟨hq, hd⟩]

theorem of_some {q : List String} {node : DiskNode} (h : Extended d places d')
    (hd : d.at? q = some node) : d'.at? q = some node := by
  rw [h.at?, if_neg (by simp [hd]), hd]

end Extended

theorem makeDirectory_child (h : ∀ q ∈ p.trail d.home, d.at? q = some .directory) (entry : String)
    (hfile : ∀ content, d.at? ((p.child entry).place d.home) ≠ some (.file content)) :
    ∃ d', d.makeDirectory (p.child entry) = .ok d' ∧
      Extended d [(p.child entry).place d.home] d' := by
  rw [makeDirectory, locate_child h]
  dsimp only
  cases hnode : d.at? ((p.child entry).place d.home) with
  | none =>
    refine ⟨_, rfl, rfl, fun q => ?_⟩
    have hne : d.at? ((p.child entry).place d.home) ≠ some .directory := by simp [hnode]
    rw [at?_insert hne]
    by_cases hq : q = (p.child entry).place d.home
    · rw [if_pos hq, if_pos ⟨List.mem_singleton.2 hq, hq ▸ hnode⟩]
    · rw [if_neg hq, if_neg fun hmem => hq (List.mem_singleton.1 hmem.1)]
  | some node =>
    cases node with
    | file content => exact absurd hnode (hfile content)
    | directory => exact ⟨d, rfl, .refl fun q hq => List.mem_singleton.1 hq ▸ hnode⟩

/-- Where no file was in the way, a path leads through directories. -/
theorem Extended.directories (h : Extended d (p.trail d.home) d') (hopen : d.Open p) :
    ∀ q ∈ p.trail d'.home, d'.at? q = some .directory := by
  intro q hq
  rw [h.home] at hq
  cases hnode : d.at? q with
  | none => exact h.of_none hq hnode
  | some node =>
    cases node with
    | file content => exact absurd hnode (hopen q hq content)
    | directory => exact h.of_some hnode

theorem Extended.append {d'' : Disk} {places others : List (List String)} (h : Extended d places d')
    (h' : Extended d' others d'') :
    Extended d (places ++ others) d'' where
  home := h'.home.trans h.home
  at? q := by
    rw [h'.at?, h.at?]
    by_cases hp : q ∈ places <;> by_cases ho : q ∈ others <;> by_cases hn : d.at? q = none <;>
      simp [hp, ho, hn]

/-- Making one directory succeeds, lacks a directory around it, or meets a file. -/
theorem makeDirectory_cases (d : Disk) (p : Path) (entry : String) :
    ((∀ q ∈ p.trail d.home, d.at? q = some .directory) ∧
      (∀ content, d.at? ((p.child entry).place d.home) ≠ some (.file content)) ∧
      ∃ d', d.makeDirectory (p.child entry) = .ok d' ∧
        Extended d [(p.child entry).place d.home] d') ∨
    (∃ q, d.makeDirectory (p.child entry) = .error ⟨.missing, q⟩) ∨
    (¬ d.Open (p.child entry) ∧ ∃ fault q, fault ≠ .missing ∧
      d.makeDirectory (p.child entry) = .error ⟨fault, q⟩) := by
  rcases d.locate_child_cases p entry with ⟨hok, hdirs⟩ | ⟨herr, -⟩ | ⟨herr, q, hq, content, hfile⟩
  · by_cases h : ∃ content, d.at? ((p.child entry).place d.home) = some (.file content)
    · obtain ⟨content, hnode⟩ := h
      refine .inr (.inr ⟨fun hopen => hopen _ ?_ content hnode, .alreadyThere, p.child entry,
        by simp, ?_⟩)
      · rw [Path.trail_child, Path.place_child]
        exact List.mem_append_right _ List.mem_cons_self
      · simp only [makeDirectory, hok, hnode]
    · have hfile : ∀ content, d.at? ((p.child entry).place d.home) ≠ some (.file content) :=
        fun content hnode => h ⟨content, hnode⟩
      exact .inl ⟨hdirs, hfile, makeDirectory_child hdirs entry hfile⟩
  · exact .inr (.inl ⟨_, by rw [makeDirectory, herr]⟩)
  · refine .inr (.inr ⟨fun hopen => hopen q ?_ content hfile, .notADirectory, p.child entry,
      by simp, ?_⟩)
    · rw [Path.trail_child]
      exact List.mem_append_left _ hq
    · rw [makeDirectory, herr]

theorem open_child {entry : String} : d.Open (p.child entry) ↔ d.Open p ∧
    ∀ content, d.at? ((p.child entry).place d.home) ≠ some (.file content) := by
  simp only [Open, Path.trail_child, Path.place_child, List.forall_mem_append,
    List.forall_mem_singleton]

/-- Directories were made where a path leads and nothing stands, or a file was in the way. -/
def MadeFor (d : Disk) (p : Path) (made : Except FileError Disk) : Prop :=
  (d.Open p → ∃ d', made = .ok d' ∧ Extended d (p.trail d.home) d') ∧
    (¬ d.Open p → ∃ e, made = .error e)

theorem madeFor_root (hnil : p.parts = []) : d.MadeFor p (d.makeDirectory p) := by
  have htrail : p.trail d.home = [] := by rw [Path.trail, hnil]; rfl
  have hplace : d.at? (p.place d.home) = some .directory := by
    rw [Path.place, hnil]
    exact d.at?_start p
  refine ⟨fun _ => ⟨d, ?_, .refl ?_⟩, fun hclosed => absurd ?_ hclosed⟩
  · rw [makeDirectory, locate_root hnil]
    simp only [hplace]
  · simp [htrail]
  · simp [Open, htrail]

/-- After the directories around it, a directory is made, unless it is a file. -/
theorem MadeFor.child {made : Except FileError Disk} (h : d.MadeFor p made) (entry : String) :
    d.MadeFor (p.child entry) (made >>= fun d₁ => d₁.makeDirectory (p.child entry)) := by
  rw [MadeFor, open_child]
  by_cases hopen : d.Open p
  · obtain ⟨d₁, rfl, hext₁⟩ := h.1 hopen
    constructor
    · rintro ⟨-, hfile⟩
      have hfile₁ : ∀ content, d₁.at? ((p.child entry).place d₁.home) ≠ some (.file content) := by
        intro content hnode
        rw [hext₁.home, hext₁.at?] at hnode
        split_ifs at hnode
        · cases hnode
        · exact hfile content hnode
      obtain ⟨d₂, hd₂, hext₂⟩ := makeDirectory_child (hext₁.directories hopen) entry hfile₁
      rw [hext₁.home, Path.place_child] at hext₂
      rw [Path.trail_child]
      exact ⟨d₂, hd₂, hext₁.append hext₂⟩
    · intro hclosed
      obtain ⟨content, hnode⟩ : ∃ content,
          d.at? ((p.child entry).place d.home) = some (.file content) := by
        by_contra hnot
        exact hclosed ⟨hopen, fun content hnode => hnot ⟨content, hnode⟩⟩
      rcases d₁.makeDirectory_cases p entry with
        ⟨-, hfile₁, -⟩ | ⟨q, herr⟩ | ⟨-, fault, q, -, herr⟩
      · refine absurd ?_ (hfile₁ content)
        rw [hext₁.home]
        exact hext₁.of_some hnode
      · exact ⟨_, herr⟩
      · exact ⟨_, herr⟩
  · obtain ⟨e, rfl⟩ := h.2 hopen
    exact ⟨fun h => absurd h.1 hopen, fun _ => ⟨e, rfl⟩⟩

/-- Only a file in the way can prevent that directories are made. -/
theorem madeFor_makeDirectoriesFrom {n : Nat} (hn : p.parts.length = n) :
    d.MadeFor p (makeDirectoriesFrom n d p) := by
  induction n generalizing p with
  | zero => exact madeFor_root (List.length_eq_zero_iff.1 hn)
  | succ n ih =>
    have hne : p.parts ≠ [] := by
      intro hnil
      rw [hnil] at hn
      cases hn
    obtain ⟨front, entry, rfl⟩ := Path.exists_child hne
    rw [makeDirectoriesFrom, Path.parent_child]
    -- the directory itself decides, unless one around it is missing
    rcases d.makeDirectory_cases front entry with
      ⟨hdirs, hfile, d', hok, hext⟩ | ⟨q, hmissing⟩ | ⟨hclosed, fault, q, hfault, herr⟩
    · have hopen : d.Open (front.child entry) :=
        open_child.2 ⟨fun q hq content => by rw [hdirs q hq]; simp, hfile⟩
      refine ⟨fun _ => ⟨d', by rw [hok], ?_⟩, fun hclosed => absurd hopen hclosed⟩
      rw [Path.place_child] at hext
      rw [Path.trail_child]
      exact (Extended.refl hdirs).append hext
    · simpa [hmissing, hne] using (ih (by simpa [Path.child] using hn)).child entry
    · refine ⟨fun h => absurd h hclosed, fun _ => ⟨⟨fault, q⟩, ?_⟩⟩
      rw [herr]
      cases fault with
      | missing => exact absurd rfl hfault
      | _ => rfl

theorem makeDirectories_of_open (h : d.Open p) :
    ∃ d', d.makeDirectories p = .ok d' ∧ Extended d (p.trail d.home) d' :=
  (madeFor_makeDirectoriesFrom rfl).1 h

theorem makeDirectories_of_not_open (h : ¬ d.Open p) : ∃ e, d.makeDirectories p = .error e :=
  (madeFor_makeDirectoriesFrom rfl).2 h

theorem extended_of_makeDirectories (h : d.makeDirectories p = .ok d') :
    d.Open p ∧ Extended d (p.trail d.home) d' := by
  by_cases hopen : d.Open p
  · obtain ⟨d₁, hd₁, hext⟩ := makeDirectories_of_open hopen
    rw [hd₁] at h
    cases h
    exact ⟨hopen, hext⟩
  · obtain ⟨e, he⟩ := makeDirectories_of_not_open hopen
    rw [he] at h
    cases h

/-! ## Files -/

/-- `d'` is `d` with something else, or nothing, at a place. -/
structure Replaced (d : Disk) (place : List String) (node : Option DiskNode) (d' : Disk) :
    Prop where
  home : d'.home = d.home
  at? : ∀ q, d'.at? q = if q = place then node else d.at? q

theorem Replaced.of_ne {place q : List String} {node : Option DiskNode}
    (h : Replaced d place node d') (hq : q ≠ place) : d'.at? q = d.at? q := by
  rw [h.at?, if_neg hq]

/-- Where a file stands, one stands after another file was put somewhere. -/
theorem Replaced.exists_file {place q : List String}
    (h : Replaced d place (some (.file content)) d') (hq : ∃ c, d.at? q = some (.file c)) :
    ∃ c, d'.at? q = some (.file c) := by
  rw [h.at?]
  split_ifs
  · exact ⟨content, rfl⟩
  · exact hq

theorem replaced_insert {place : List String} (hdir : d.at? place ≠ some .directory)
    (node : DiskNode) :
    Replaced d place (some node) { d with nodes := d.nodes.insert place node } :=
  ⟨rfl, at?_insert hdir node⟩

theorem write_of_directory (hloc : d.locate p = .ok (p.place d.home))
    (hdir : d.at? (p.place d.home) = some .directory) (content : List UInt8) :
    d.write p content = .error ⟨.isADirectory, p⟩ := by simp only [write, hloc, hdir]

theorem write_of_not_directory (hloc : d.locate p = .ok (p.place d.home))
    (hdir : d.at? (p.place d.home) ≠ some .directory) (content : List UInt8) :
    ∃ d', d.write p content = .ok d' ∧
      Replaced d (p.place d.home) (some (.file content)) d' := by
  refine ⟨_, ?_, replaced_insert hdir (.file content)⟩
  simp only [write, hloc]

/-- Writing a file changes what stands at its place and nothing else. -/
theorem replaced_of_write (h : d.write p content = .ok d') :
    d.locate p = .ok (p.place d.home) ∧ d.at? (p.place d.home) ≠ some .directory ∧
      Replaced d (p.place d.home) (some (.file content)) d' := by
  cases hloc : d.locate p with
  | error e =>
    rw [write, hloc] at h
    cases h
  | ok place =>
    obtain rfl := locate_eq hloc
    by_cases hdir : d.at? (p.place d.home) = some .directory
    · rw [write_of_directory hloc hdir] at h
      cases h
    · obtain ⟨d₁, hd₁, hreplaced⟩ := write_of_not_directory hloc hdir content
      rw [hd₁] at h
      cases h
      exact ⟨rfl, hdir, hreplaced⟩

theorem remove_of_file (hloc : d.locate p = .ok (p.place d.home))
    (hfile : d.at? (p.place d.home) = some (.file content)) : ∃ d', d.remove p = .ok d' := by
  simp only [remove, hloc, hfile]
  exact ⟨_, rfl⟩

/-- Removing a file leaves nothing at its place and changes nothing else. -/
theorem replaced_of_remove (h : d.remove p = .ok d') :
    Replaced d (p.place d.home) none d' := by
  unfold remove at h
  split at h
  · cases h
  · rename_i place hloc
    split at h
    · rename_i content hfile
      cases h
      rw [← locate_eq hloc]
      refine ⟨rfl, fun q => ?_⟩
      have houtside : place.isPrefixOf d.home = false := by
        refine Bool.eq_false_iff.2 fun hp => ?_
        rw [at?_of_isPrefixOf hp] at hfile
        cases hfile
      unfold at?
      rw [Table.find?_erase]
      by_cases hq : q = place
      · subst hq
        simp [houtside]
      · simp [hq]
    · cases h
    · cases h

theorem replaced_of_picture {paint : String → List UInt8 → Option (List UInt8)} {format : String}
    (h : d.picture paint p format = some d') :
    ∃ content, Replaced d ((p.withEnding format).place d.home) (some (.file content)) d' := by
  unfold picture at h
  simp only [Option.bind_eq_bind, Option.bind_eq_some_iff] at h
  obtain ⟨drawing, -, content, -, hwrite⟩ := h
  cases hw : d.write (p.withEnding format) content with
  | error e =>
    rw [hw] at hwrite
    cases hwrite
  | ok disk =>
    rw [hw] at hwrite
    cases hwrite
    exact ⟨content, (replaced_of_write hw).2.2⟩

/-- What was written is read. -/
theorem read_of_write (h : d.write p content = .ok d') : d'.read p = .ok content := by
  obtain ⟨hloc, hdir, hreplaced⟩ := replaced_of_write h
  have hne : p.parts ≠ [] := by
    intro hnil
    rw [Path.place, hnil] at hdir
    exact hdir (d.at?_start p)
  obtain ⟨front, entry, rfl⟩ := Path.exists_child hne
  have hdirs : ∀ q ∈ front.trail d.home, d.at? q = some .directory := by
    rcases d.locate_child_cases front entry with ⟨-, h⟩ | ⟨h, -⟩ | ⟨h, -⟩
    · exact h
    · rw [hloc] at h
      cases h
    · rw [hloc] at h
      cases h
  have hloc' : d'.locate (front.child entry) = .ok ((front.child entry).place d.home) := by
    rw [← hreplaced.home]
    refine locate_child (fun q hq => ?_) entry
    rw [hreplaced.home] at hq
    rw [hreplaced.of_ne, hdirs q hq]
    rintro rfl
    exact hdir (hdirs _ hq)
  have hplace : d'.at? ((front.child entry).place d.home) = some (.file content) := by
    rw [hreplaced.at?, if_pos rfl]
  simp only [read, hloc', hplace]

/-- The content of the file at a place. -/
def fileAt? (d : Disk) (place : List String) : Option (List UInt8) :=
  match d.at? place with
  | some (.file content) => some content
  | _ => none

theorem fileAt?_eq_some_iff {q : List String} :
    d.fileAt? q = some content ↔ d.at? q = some (.file content) := by
  unfold fileAt?
  cases d.at? q with
  | none => simp
  | some node => cases node <;> simp

theorem fileAt?_congr {q : List String} (h : d'.at? q = d.at? q) : d'.fileAt? q = d.fileAt? q := by
  rw [fileAt?, h]
  rfl

theorem Extended.fileAt? {places : List (List String)} (h : Extended d places d')
    (q : List String) : d'.fileAt? q = d.fileAt? q := by
  by_cases hnew : q ∈ places ∧ d.at? q = none
  · simp only [Disk.fileAt?, h.of_none hnew.1 hnew.2, hnew.2]
  · exact fileAt?_congr (by rw [h.at?, if_neg hnew])

theorem fileAt?_of_read (h : d.read p = .ok content) :
    d.fileAt? (p.place d.home) = some content := by
  unfold read at h
  split at h
  · cases h
  · rename_i place hloc
    split at h
    · rename_i hnode
      cases h
      rw [← locate_eq hloc, fileAt?, hnode]
    · cases h
    · cases h

end Disk

namespace Machine

variable {α β : Type} {paths : List Path}

/-! ## Looking at the disk -/

/-- The action looks at the disk and changes nothing. -/
def Query (x : StateM Machine α) : Prop := ∃ f : Disk → α, ∀ m : Machine, x.run m = (f m.disk, m)

theorem Query.pure (a : α) : Query (pure a : StateM Machine α) := ⟨fun _ => a, fun _ => rfl⟩

theorem Query.bind {x : StateM Machine α} {f : α → StateM Machine β} (hx : Query x)
    (hf : ∀ a, Query (f a)) : Query (x >>= f) := by
  obtain ⟨g, hg⟩ := hx
  choose h hh using hf
  refine ⟨fun d => h (g d) d, fun m => ?_⟩
  rw [StateT.run_bind, hg]
  exact hh _ m

theorem query_kind? (p : Path) : Query (host.kind? p) :=
  ⟨fun d => (host.kind? p { disk := d }).1, fun _ => rfl⟩

theorem query_filesBelow (p : Path) : Query (host.filesBelow p) :=
  ⟨fun d => d.filesBelow p, fun _ => rfl⟩

theorem query_read (p : Path) : Query (host.read p) := ⟨fun d => d.read p, fun _ => rfl⟩

theorem query_directory : Query host.directory := ⟨fun d => d.directory, fun _ => rfl⟩

/-! ## Printing -/

theorem run_andThen (x : StateM Machine α) (f : α → StateM Machine β) (m : Machine) :
    (x >>= f).run m = (f (x.run m).1).run (x.run m).2 := rfl

theorem run_sayAll (lines : List String) (m : Machine) : (host.sayAll lines).run m =
    ((), { m with printed := m.printed ++ String.join (lines.map (· ++ "\n")) }) := by
  induction lines generalizing m with
  | nil =>
    have hnil : m.printed ++ String.join [] = m.printed := String.append_empty
    rw [List.map_nil, hnil]
    rfl
  | cons line rest ih =>
    have hsay : (host.say line).run m = ((), { m with printed := m.printed ++ (line ++ "\n") }) :=
      rfl
    rw [Host.sayAll, run_andThen, hsay, ih, List.map_cons, String.join_cons, String.append_assoc]

/-! ## Changing files -/

/-- The action changes no files but those at these paths. -/
structure Touches (paths : List Path) (x : StateM Machine α) : Prop where
  home : ∀ m, (x.run m).2.disk.home = m.disk.home
  files : ∀ m q, (∀ p ∈ paths, q ≠ p.place m.disk.home) →
    (x.run m).2.disk.fileAt? q = m.disk.fileAt? q

theorem Touches.of_disk {x : StateM Machine α} (h : ∀ m, (x.run m).2.disk = m.disk) :
    Touches paths x where
  home m := by rw [h]
  files m q _ := by rw [h]

theorem Query.touches {x : StateM Machine α} (h : Query x) : Touches paths x := by
  obtain ⟨f, hf⟩ := h
  exact .of_disk fun m => by rw [hf]

theorem Touches.pure (a : α) : Touches paths (pure a : StateM Machine α) := .of_disk fun _ => rfl

theorem Touches.bind {x : StateM Machine α} {f : α → StateM Machine β} (hx : Touches paths x)
    (hf : ∀ a, Touches paths (f a)) : Touches paths (x >>= f) where
  home m := by
    rw [StateT.run_bind]
    exact ((hf _).home _).trans (hx.home m)
  files m q hq := by
    rw [StateT.run_bind]
    refine ((hf _).files _ q fun p hp => ?_).trans (hx.files m q hq)
    rw [hx.home]
    exact hq p hp

theorem touches_say (line : String) : Touches paths (host.say line) := .of_disk fun _ => rfl

theorem run_change_ok {f : Disk → Except FileError Disk} {m : Machine} {disk : Disk}
    (h : f m.disk = .ok disk) : (change f).run m = (.ok (), { m with disk }) := by
  simp only [change, StateT.run_bind, StateT.run_get, pure_bind, h]
  rfl

theorem run_change_error {f : Disk → Except FileError Disk} {m : Machine} {e : FileError}
    (h : f m.disk = .error e) : (change f).run m = (.error e, m) := by
  simp only [change, StateT.run_bind, StateT.run_get, pure_bind, h]
  rfl

/-- A change of the disk touches what its success touches. -/
theorem touches_change {f : Disk → Except FileError Disk}
    (h : ∀ d d', f d = .ok d' → d'.home = d.home ∧
      ∀ q, (∀ p ∈ paths, q ≠ p.place d.home) → d'.fileAt? q = d.fileAt? q) :
    Touches paths (change f) := by
  constructor
  · intro m
    cases hf : f m.disk with
    | error e => rw [run_change_error hf]
    | ok disk =>
      rw [run_change_ok hf]
      exact (h _ _ hf).1
  · intro m q hq
    cases hf : f m.disk with
    | error e => rw [run_change_error hf]
    | ok disk =>
      rw [run_change_ok hf]
      exact (h _ _ hf).2 q hq

theorem touches_write {p : Path} {content : List UInt8} (h : p ∈ paths) :
    Touches paths (host.write p content) := by
  refine touches_change (f := (·.write p content)) fun d d' hd => ?_
  obtain ⟨-, -, hreplaced⟩ := Disk.replaced_of_write hd
  exact ⟨hreplaced.home, fun q hq => Disk.fileAt?_congr (hreplaced.of_ne (hq p h))⟩

theorem touches_makeDirectories (p : Path) : Touches paths (host.makeDirectories p) := by
  refine touches_change (f := (·.makeDirectories p)) fun d d' hd => ?_
  obtain ⟨-, hext⟩ := Disk.extended_of_makeDirectories hd
  exact ⟨hext.home, fun q _ => hext.fileAt? q⟩

theorem touches_remove {p : Path} (h : p ∈ paths) : Touches paths (host.remove p) := by
  refine touches_change (f := (·.remove p)) fun d d' hd => ?_
  have hreplaced := Disk.replaced_of_remove hd
  exact ⟨hreplaced.home, fun q hq => Disk.fileAt?_congr (hreplaced.of_ne (hq p h))⟩

/-- Removing a file puts no file anywhere. -/
theorem fileAt?_of_remove {p : Path} {m : Machine} {q : List String} {content : List UInt8}
    (h : ((host.remove p).run m).2.disk.fileAt? q = some content) :
    m.disk.fileAt? q = some content := by
  have hremove : (host.remove p).run m = (change (·.remove p)).run m := rfl
  rw [hremove] at h
  cases hd : m.disk.remove p with
  | error e => rwa [run_change_error hd] at h
  | ok disk =>
    have hreplaced := Disk.replaced_of_remove hd
    rw [run_change_ok hd, Disk.fileAt?_eq_some_iff, hreplaced.at?] at h
    split_ifs at h
    exact Disk.fileAt?_eq_some_iff.2 h

/-! ## Pictures -/

theorem run_draw (p : Path) (format : String) (m : Machine) :
    (host.draw p format).run m = match m.painter with
      | none => (.noProgram, m)
      | some paint =>
        match m.disk.picture paint p format with
        | none => (.failed, m)
        | some disk => (.made, { m with disk }) := by
  change (draw p format).run m = _
  unfold draw
  simp only [StateT.run_bind, StateT.run_get, pure_bind]
  cases hpainter : m.painter with
  | none => rfl
  | some paint =>
    simp only [StateT.run_bind, StateT.run_get, pure_bind]
    cases m.disk.picture paint p format with
    | none => rfl
    | some disk =>
      rw [← hpainter]
      rfl

theorem run_draw_none {m : Machine} (h : m.painter = none) (p : Path) (format : String) :
    (host.draw p format).run m = (.noProgram, m) := by
  rw [run_draw]
  split
  · rfl
  · rename_i paint hpaint
    rw [h] at hpaint
    cases hpaint

theorem run_draw_some {m : Machine} {paint : String → List UInt8 → Option (List UInt8)}
    (h : m.painter = some paint) (p : Path) (format : String) :
    (host.draw p format).run m = match m.disk.picture paint p format with
      | none => (.failed, m)
      | some disk => (.made, { m with disk }) := by
  rw [run_draw]
  split
  · rename_i hpaint
    rw [h] at hpaint
    cases hpaint
  · rename_i paint' hpaint
    obtain rfl : paint = paint' := Option.some_inj.1 (h.symm.trans hpaint)
    rfl

theorem touches_draw {p : Path} {format : String} (h : p.withEnding format ∈ paths) :
    Touches paths (host.draw p format) := by
  have hcases : ∀ m : Machine, ((host.draw p format).run m).2.disk = m.disk ∨ ∃ content,
      m.disk.Replaced ((p.withEnding format).place m.disk.home) (some (.file content))
        ((host.draw p format).run m).2.disk := by
    intro m
    rw [run_draw]
    cases m.painter with
    | none => exact .inl rfl
    | some paint =>
      simp only
      cases hd : m.disk.picture paint p format with
      | none => exact .inl rfl
      | some disk => exact .inr (Disk.replaced_of_picture hd)
  constructor
  · intro m
    rcases hcases m with hsame | ⟨content, hreplaced⟩
    · rw [hsame]
    · exact hreplaced.home
  · intro m q hq
    rcases hcases m with hsame | ⟨content, hreplaced⟩
    · rw [hsame]
    · exact Disk.fileAt?_congr (hreplaced.of_ne (hq _ h))

/-! ## Texts -/

theorem run_writeText (p : Path) (text : String) (m : Machine) :
    (host.writeText p text).run m =
      match m.disk.write p ((Text.toBytes? text).getD []) with
      | .error e => (.error (.file e), m)
      | .ok disk =>
        (if (Text.toBytes? text).isSome then .ok () else .error .unencodable, { m with disk }) := by
  have hwrite : (host.write p ((Text.toBytes? text).getD [])).run m =
      (change (·.write p ((Text.toBytes? text).getD []))).run m := rfl
  rw [Host.writeText, StateT.run_bind, hwrite]
  cases hw : m.disk.write p ((Text.toBytes? text).getD []) with
  | error e =>
    rw [run_change_error hw]
    rfl
  | ok disk =>
    rw [run_change_ok hw]
    rfl

theorem run_save (p : Path) (text : String) (m : Machine) :
    (host.save p text).run m =
      match m.disk.makeDirectories p.parent with
      | .error e => (.error (.file e), m)
      | .ok disk => (host.writeText p text).run { m with disk } := by
  have hmake : (host.makeDirectories p.parent).run m =
      (change (·.makeDirectories p.parent)).run m := rfl
  rw [Host.save, StateT.run_bind, hmake]
  cases hd : m.disk.makeDirectories p.parent with
  | error e =>
    rw [run_change_error hd]
    rfl
  | ok disk =>
    rw [run_change_ok hd]
    rfl

theorem touches_writeText {p : Path} {text : String} (h : p ∈ paths) :
    Touches paths (host.writeText p text) := by
  refine (touches_write h).bind fun wrote => ?_
  cases wrote with
  | error e => exact .pure _
  | ok _ => exact .pure _

theorem touches_save {p : Path} {text : String} (h : p ∈ paths) :
    Touches paths (host.save p text) := by
  refine (touches_makeDirectories _).bind fun made => ?_
  cases made with
  | error e => exact .pure _
  | ok _ => exact touches_writeText h

theorem exists_writeText (p : Path) (text : String) (m : Machine) :
    ∃ outcome disk, (host.writeText p text).run m = (outcome, { m with disk }) := by
  rw [run_writeText]
  split
  · exact ⟨_, m.disk, rfl⟩
  · exact ⟨_, _, rfl⟩

/-- Saving changes nothing but the disk. -/
theorem exists_save (p : Path) (text : String) (m : Machine) :
    ∃ outcome disk, (host.save p text).run m = (outcome, { m with disk }) := by
  rw [run_save]
  split
  · exact ⟨_, m.disk, rfl⟩
  · exact exists_writeText p text _

/-- A text that was saved is read. -/
theorem read_of_save {p : Path} {text : String} {m : Machine}
    (h : ((host.save p text).run m).1 = .ok ()) :
    ∃ content, Text.toBytes? text = some content ∧
      ((host.save p text).run m).2.disk.read p = .ok content := by
  rw [run_save] at h ⊢
  cases hd : m.disk.makeDirectories p.parent with
  | error e =>
    rw [hd] at h
    cases h
  | ok disk =>
    simp only [hd, run_writeText] at h ⊢
    cases hw : disk.write p ((Text.toBytes? text).getD []) with
    | error e =>
      rw [hw] at h
      cases h
    | ok disk' =>
      simp only [hw] at h ⊢
      cases hb : Text.toBytes? text with
      | none =>
        rw [hb] at h
        cases h
      | some content =>
        rw [hb] at hw
        exact ⟨content, rfl, Disk.read_of_write hw⟩

/-- After a text was saved or not, its place holds what it held, or the text, or nothing at all if
the text has no encoding. -/
theorem fileAt?_save (p : Path) (text : String) (m : Machine) :
    ((host.save p text).run m).2.disk.fileAt? (p.place m.disk.home) =
        m.disk.fileAt? (p.place m.disk.home) ∨
      ((host.save p text).run m).2.disk.fileAt? (p.place m.disk.home) =
        some ((Text.toBytes? text).getD []) := by
  rw [run_save]
  cases hd : m.disk.makeDirectories p.parent with
  | error e => exact .inl rfl
  | ok disk =>
    obtain ⟨-, hext⟩ := Disk.extended_of_makeDirectories hd
    simp only [run_writeText]
    cases hw : disk.write p ((Text.toBytes? text).getD []) with
    | error e => exact .inl (hext.fileAt? _)
    | ok disk' =>
      obtain ⟨-, -, hreplaced⟩ := Disk.replaced_of_write hw
      right
      simp only [Disk.fileAt?, hreplaced.at?, hext.home, if_true]

end Machine

end Deadwood
