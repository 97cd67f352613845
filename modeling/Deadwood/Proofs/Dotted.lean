import Mathlib.Data.List.TakeDrop
import Deadwood.Dotted

/-!
# Dotted names and their segments

A dotted name is its segments joined by dots. `segments` turns `below` into concatenation
(`segments_below`), which gives the other laws: `join` undoes `segments`, the beginnings that
`enclosing` lists are the names that `Encloses` describes, and `cut` separates the last segment from
the rest.
-/

namespace Deadwood.Text

theorem splitChars_eq_splitOn (c : Char) (cs : List Char) : splitChars c cs = cs.splitOn c := by
  induction cs with
  | nil => rfl
  | cons x rest ih =>
    rw [splitChars, ih, List.splitOn_cons_eq_if_modifyHead]
    by_cases h : x = c
    · simp [h]
    · have hne := List.splitOn_ne_nil c rest
      rw [if_neg h, if_neg (by simpa using h)]
      cases hs : rest.splitOn c with
      | nil => exact absurd hs hne
      | cons piece pieces => rfl

theorem not_mem_of_mem_splitChars {c : Char} {cs : List Char} :
    ∀ piece ∈ splitChars c cs, c ∉ piece := by
  induction cs with
  | nil => simp [splitChars]
  | cons x rest ih =>
    rw [splitChars]
    split_ifs with h
    · exact List.forall_mem_cons.2 ⟨List.not_mem_nil, ih⟩
    · have hx : c ≠ x := fun e => h e.symm
      cases hs : splitChars c rest with
      | nil => simpa using hx
      | cons piece pieces =>
        rw [hs, List.forall_mem_cons] at ih
        exact List.forall_mem_cons.2 ⟨List.not_mem_cons_of_ne_of_not_mem hx ih.1, ih.2⟩

end Deadwood.Text

namespace Deadwood.Dotted

/-! ## Segments -/

/-- A name of one segment: it has no dot. -/
def Simple (s : String) : Prop := '.' ∉ s.toList

instance (s : String) : Decidable (Simple s) := inferInstanceAs (Decidable (_ ∉ _))

theorem segments_eq (s : String) : segments s = (s.toList.splitOn '.').map .ofList := by
  rw [segments, Text.splitOn, Text.splitChars_eq_splitOn]

theorem segments_ne_nil (s : String) : segments s ≠ [] := by
  rw [segments_eq]
  simp [List.splitOn_ne_nil]

theorem segments_of_simple {s : String} (h : Simple s) : segments s = [s] := by
  rw [segments_eq, List.splitOn_eq_singleton h]
  simp

theorem join_segments (s : String) : join (segments s) = s := by
  apply String.toList_injective
  rw [join, String.toList_intercalate, segments_eq, List.map_map, String.toList_comp_ofList,
    List.map_id]
  exact List.intercalate_splitOn '.'

theorem toList_below (p n : String) : (below p n).toList = p.toList ++ '.' :: n.toList := by
  simp [below, String.toList_append]

theorem segments_below (p n : String) : segments (below p n) = segments p ++ segments n := by
  simp only [segments_eq, toList_below, List.splitOn_append_cons_self, List.map_append]

theorem join_append {xs ys : List String} (hx : xs ≠ []) (hy : ys ≠ []) :
    join (xs ++ ys) = below (join xs) (join ys) :=
  String.intercalate_append_of_ne_nil hx hy

theorem simple_of_mem_segments {s part : String} (h : part ∈ segments s) : Simple part := by
  obtain ⟨piece, hpiece, rfl⟩ := List.mem_map.1 h
  rw [Simple, String.toList_ofList]
  exact Text.not_mem_of_mem_splitChars piece hpiece

theorem first_mem_segments (s : String) : first s ∈ segments s := by
  unfold first
  cases h : segments s with
  | nil => exact absurd h (segments_ne_nil s)
  | cons part rest => exact List.mem_cons_self

/-- What stands behind the first dot. -/
theorem eq_below_of_cutFirst {s head rest : String} (h : Text.cutFirst '.' s = some (head, rest)) :
    s = below head rest := by
  have hspan := List.takeWhile_append_dropWhile (p := (· ≠ '.')) (l := s.toList)
  rw [Text.cutFirst, List.span_eq_takeWhile_dropWhile] at h
  cases hdrop : s.toList.dropWhile (· ≠ '.') with
  | nil =>
    rw [hdrop] at h
    cases h
  | cons c after =>
    rw [hdrop] at h hspan
    cases h
    obtain rfl : c = '.' := by
      have hhead := List.head?_dropWhile_not (fun x => decide (x ≠ '.')) s.toList
      rw [hdrop] at hhead
      simpa using hhead
    apply String.toList_injective
    rw [toList_below, String.toList_ofList, String.toList_ofList, hspan]

/-! ## The last segment -/

theorem ne_dot_of_simple {s : String} (h : Simple s) :
    ∀ x ∈ s.toList.reverse, decide (x ≠ '.') = true := by
  intro x hx
  have hne : x ≠ '.' := fun e => h (e ▸ List.mem_reverse.1 hx)
  simp [hne]

theorem cutLast_of_simple {s : String} (h : Simple s) : Text.cutLast '.' s = none := by
  have hd : s.toList.reverse.dropWhile (· ≠ '.') = [] := by
    rw [← List.append_nil s.toList.reverse, List.dropWhile_append_of_pos (ne_dot_of_simple h)]
    rfl
  rw [Text.cutLast, List.span_eq_takeWhile_dropWhile, hd]

theorem cut_of_simple {s : String} (h : Simple s) : cut s = ("", s) := by
  rw [cut, cutLast_of_simple h]
  rfl

/-- Cutting takes off the last segment. -/
theorem cut_below {p n : String} (h : Simple n) : cut (below p n) = (p, n) := by
  have hn := ne_dot_of_simple h
  have hrev : (below p n).toList.reverse = n.toList.reverse ++ '.' :: p.toList.reverse := by
    simp [toList_below]
  rw [cut, Text.cutLast, hrev, List.span_eq_takeWhile_dropWhile, List.takeWhile_append_of_pos hn,
    List.dropWhile_append_of_pos hn]
  simp

/-- A name is simple, or it has a last segment and something before it. -/
theorem simple_or_below (s : String) : Simple s ∨ ∃ p n, Simple n ∧ s = below p n := by
  by_cases h : Simple s
  · exact .inl h
  · have hmem : '.' ∈ s.toList.reverse := by simpa [Simple] using h
    obtain ⟨after, before, hs, hn⟩ := List.eq_append_cons_of_mem hmem
    refine .inr ⟨.ofList before.reverse, .ofList after.reverse, by simpa [Simple] using hn, ?_⟩
    apply String.toList_injective
    rw [toList_below, ← List.reverse_reverse s.toList, hs]
    simp

theorem last_below_of_simple {p n : String} (h : Simple n) : last (below p n) = n := by
  rw [last, cut_below h]

theorem last_of_simple {s : String} (h : Simple s) : last s = s := by
  rw [last, cut_of_simple h]

theorem last_mem_segments (s : String) : last s ∈ segments s := by
  rcases simple_or_below s with h | ⟨p, n, h, rfl⟩
  · rw [last_of_simple h, segments_of_simple h]
    exact List.mem_singleton_self s
  · rw [last_below_of_simple h, segments_below, segments_of_simple h]
    simp

theorem simple_last (s : String) : Simple (last s) := simple_of_mem_segments (last_mem_segments s)

/-- What stands in front of a name does not change its last segment. -/
theorem last_below (p s : String) : last (below p s) = last s := by
  rcases simple_or_below s with h | ⟨q, n, h, rfl⟩
  · rw [last_below_of_simple h, last_of_simple h]
  · have hassoc : below p (below q n) = below (below p q) n := by
      simp [below, String.append_assoc]
    rw [hassoc, last_below_of_simple h, last_below_of_simple h]

/-! ## Beginnings -/

/-- `p` is the name `s` or one of its dotted beginnings. -/
def Encloses (p s : String) : Prop := s = p ∨ ∃ rest, s = below p rest

theorem mem_enclosing_iff {p s : String} : p ∈ enclosing s ↔ Encloses p s := by
  simp only [enclosing, List.mem_map, List.mem_range]
  constructor
  · rintro ⟨k, hk, rfl⟩
    cases k with
    | zero => exact .inl (by simp [join_segments])
    | succ k =>
      refine .inr ⟨join ((segments s).drop ((segments s).length - (k + 1))), ?_⟩
      have ht : (segments s).take ((segments s).length - (k + 1)) ≠ [] := by
        intro h
        have := congrArg List.length h
        simp at this
        omega
      have hd : (segments s).drop ((segments s).length - (k + 1)) ≠ [] := by
        intro h
        have := congrArg List.length h
        simp at this
        omega
      rw [← join_append ht hd, List.take_append_drop, join_segments]
  · rintro (rfl | ⟨rest, rfl⟩)
    · exact ⟨0, List.length_pos_iff.2 (segments_ne_nil _), by simp [join_segments]⟩
    · have hp := List.length_pos_iff.2 (segments_ne_nil p)
      refine ⟨(segments rest).length, ?_, ?_⟩
      · rw [segments_below, List.length_append]
        omega
      · rw [segments_below, List.length_append, Nat.add_sub_cancel, List.take_left, join_segments]

end Deadwood.Dotted
