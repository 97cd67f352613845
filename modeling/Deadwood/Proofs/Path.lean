import Mathlib.Data.List.TakeDrop
import Deadwood.File.Path
import Deadwood.Proofs.Dotted

/-!
# Paths and their texts

The text of a path is its parts with slashes between them, and reading it gives the path back, so
that a file can be told by its text alone.

* `Path.IsName s`: `s` can be the name of an entry of a directory.
* `Path.Proper p`: the parts of the path are such names. What is read from a text is proper
  (`proper_ofText`).
* `ofText_text`: a proper path is read back from its text; `Proper.eq_of_text_eq` is what follows
  for two paths.
-/

namespace Deadwood.Path

variable {p q : Path}

/-- A text that can be the name of an entry of a directory. -/
structure IsName (s : String) : Prop where
  ne_empty : s ≠ ""
  ne_dot : s ≠ "."
  no_slash : '/' ∉ s.toList

instance (s : String) : Decidable (IsName s) :=
  decidable_of_iff (s ≠ "" ∧ s ≠ "." ∧ '/' ∉ s.toList)
    ⟨fun ⟨h₁, h₂, h₃⟩ => ⟨h₁, h₂, h₃⟩, fun ⟨h₁, h₂, h₃⟩ => ⟨h₁, h₂, h₃⟩⟩

/-- What a path can start with. -/
def IsRoot (s : String) : Prop := s = "" ∨ s = "/" ∨ s = "//"

/-- A path whose parts are names, and that starts as paths do. -/
structure Proper (p : Path) : Prop where
  root : IsRoot p.root
  parts : ∀ part ∈ p.parts, IsName part

theorem Proper.descend (h : p.Proper) {names : List String} (hnames : ∀ name ∈ names, IsName name) :
    (p.descend names).Proper where
  root := h.root
  parts part hpart := (List.mem_append.1 hpart).elim (h.parts part) (hnames part)

/-- What is read from a text is proper. -/
theorem proper_ofText (s : String) : (ofText s).Proper where
  root := by
    unfold ofText rootOf
    split
    · exact .inl rfl
    · exact .inr (.inr rfl)
    · exact .inr (.inl rfl)
  parts part hpart := by
    simp only [ofText, List.mem_filter, Bool.and_eq_true, decide_eq_true_eq, Text.splitOn,
      List.mem_map] at hpart
    obtain ⟨⟨piece, hpiece, rfl⟩, hne, hdot⟩ := hpart
    refine ⟨hne, hdot, ?_⟩
    rw [String.toList_ofList]
    exact Text.not_mem_of_mem_splitChars piece hpiece

/-- Cutting the ending off a name leaves something. -/
theorem cutSuffix_ne_empty {s : String} (h : s ≠ "") : (cutSuffix s).1 ≠ "" := by
  unfold cutSuffix
  split
  · rename_i before after _
    split_ifs with hboth
    · simp only [Bool.and_eq_true, decide_eq_true_eq] at hboth
      exact hboth.1
    · exact h
  · exact h

/-! ## Reading a path back -/

/-- The characters of the text of a path behind its root. -/
theorem toList_intercalate_slash (parts : List String) :
    ("/".intercalate parts).toList = ['/'].intercalate (parts.map String.toList) := by
  rw [String.toList_intercalate]
  rfl

theorem filter_names {parts : List String} (h : ∀ part ∈ parts, IsName part) :
    (parts.filter fun part => part ≠ "" && part ≠ ".") = parts := by
  refine List.filter_eq_self.2 fun part hpart => ?_
  have hname := h part hpart
  simp [hname.ne_empty, hname.ne_dot]

theorem splitOn_intercalate_slash {parts : List String} (h : ∀ part ∈ parts, IsName part)
    (hne : parts ≠ []) :
    Text.splitOn '/' ("/".intercalate parts) = parts := by
  have hslash : ∀ cs ∈ parts.map String.toList, '/' ∉ cs := by
    intro cs hcs
    obtain ⟨part, hpart, rfl⟩ := List.mem_map.1 hcs
    exact (h part hpart).no_slash
  rw [Text.splitOn, Text.splitChars_eq_splitOn, toList_intercalate_slash,
    List.splitOn_intercalate '/' hslash (by simpa using hne), List.map_map]
  exact List.map_id'' (fun part => String.ofList_toList) parts

/-- The slashes at the front of a text make no parts. -/
theorem parts_ofText_append {root : String} (h : IsRoot root) (s : String) :
    (ofText (root ++ s)).parts = (ofText s).parts := by
  rcases h with h | h | h <;> simp [h, ofText, Text.splitOn, Text.splitChars, String.toList_append]

theorem rootOf_append {root s : String} (h : IsRoot root) (hs : ∀ c ∈ s.toList.head?, c ≠ '/') :
    rootOf (root ++ s) = root := by
  have hfront : s.toList.takeWhile (· = '/') = [] := by
    cases hcs : s.toList with
    | nil => rfl
    | cons c rest =>
      have hc := hs c (by rw [hcs]; rfl)
      simp [hc]
  rcases h with h | h | h <;> simp [h, rootOf, String.toList_append, hfront]

/-- A text of names does not begin with a slash. -/
theorem head?_intercalate_slash {parts : List String} (h : ∀ part ∈ parts, IsName part) :
    ∀ c ∈ ("/".intercalate parts).toList.head?, c ≠ '/' := by
  intro c hc
  rw [toList_intercalate_slash] at hc
  cases parts with
  | nil => cases hc
  | cons part rest =>
    have hname := h part List.mem_cons_self
    obtain ⟨d, ds, hds⟩ :=
      List.exists_cons_of_ne_nil (fun h => hname.ne_empty (String.toList_eq_nil_iff.1 h))
    have hhead : c = d := by
      cases rest with
      | nil => simpa [hds, eq_comm] using hc
      | cons next rest => simpa [hds, List.intercalate, List.intersperse, eq_comm] using hc
    rw [hhead]
    rintro rfl
    exact hname.no_slash (hds ▸ List.mem_cons_self)

/-- **A proper path is read back from its text.** -/
theorem ofText_text (h : p.Proper) : ofText p.text = p := by
  obtain ⟨root, parts⟩ := p
  by_cases hparts : parts = []
  · subst hparts
    rcases h.root with hroot | hroot | hroot <;> obtain rfl : root = _ := hroot <;> decide
  · have htext : text ⟨root, parts⟩ = root ++ "/".intercalate parts := by
      simp [text, hparts]
    have hroot : rootOf (root ++ "/".intercalate parts) = root :=
      rootOf_append h.root (head?_intercalate_slash h.parts)
    have hread : (ofText (root ++ "/".intercalate parts)).parts = parts := by
      rw [parts_ofText_append h.root, ofText, splitOn_intercalate_slash h.parts hparts]
      exact filter_names h.parts
    rw [htext]
    exact congrArg₂ Path.mk hroot hread

/-- Proper paths with the same text are the same. -/
theorem Proper.eq_of_text_eq (hp : p.Proper) (hq : q.Proper) (h : p.text = q.text) : p = q := by
  rw [← ofText_text hp, h, ofText_text hq]

end Deadwood.Path
