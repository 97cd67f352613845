import Mathlib.Data.List.Basic
import Deadwood.Report.Escape

/-!
# Escaping loses nothing

The characters that mean something in HTML are replaced one after the other, and all entities begin
with one of these characters. It is replaced first, so that no entity is taken apart later: the
result is the one of replacing all characters at once, and it can be read back.

* `toList_replaceInTurn`: what replacements one after the other make of a text is made up of what
  they make of its characters.
* `entity c`: what stands for a character. `toList_escape` says that escaping puts the entities side
  by side.
* `unescape`: reads a text from the left and decodes the entities in it. It takes back what was
  escaped (`unescape_escape`).
* `escape_lossless` adds that an escaped text has no marks, and no ampersand but those of its
  entities.
-/

namespace Deadwood

/-! ## Replacing a character -/

namespace Text

theorem replaceFrom_singleton (c : Char) (r cs : List Char) :
    replaceFrom [c] r 0 cs = cs.flatMap fun x => if x = c then r else [x] := by
  induction cs with
  | nil => rfl
  | cons x rest ih =>
    rw [replaceFrom, List.flatMap_cons]
    by_cases h : x = c
    · simp [h, ih]
    · simp [h, Ne.symm h, ih]

/-- Every occurrence of a character is replaced, and the others stay. -/
theorem toList_replaceAll_singleton (s r : String) (c : Char) :
    (replaceAll s (String.singleton c) r).toList = s.toList.flatMap fun x => if x = c then r.toList
      else [x] := by
  rw [replaceAll, String.toList_ofList, String.toList_singleton, replaceFrom_singleton]

theorem replaceAll_singleton_of_ne {x c : Char} (h : x ≠ c) (r : String) :
    replaceAll (String.singleton x) (String.singleton c) r = String.singleton x := by
  apply String.toList_injective
  simp [toList_replaceAll_singleton, h]

@[simp] theorem replaceInTurn_cons (e : Char × String) (es : List (Char × String)) (s : String) :
    replaceInTurn (e :: es) s = replaceInTurn es (replaceAll s (String.singleton e.1) e.2) := rfl

/-- What becomes of a text is made up of what becomes of its characters, whatever the later
replacements do to the texts that the earlier ones put in. -/
theorem toList_replaceInTurn (es : List (Char × String)) (s : String) :
    (replaceInTurn es s).toList = s.toList.flatMap fun c =>
      (replaceInTurn es (String.singleton c)).toList := by
  induction es generalizing s with
  | nil => simp [replaceInTurn]
  | cons e es ih =>
    simp only [replaceInTurn_cons]
    rw [ih, toList_replaceAll_singleton, List.flatMap_assoc]
    refine List.flatMap_congr fun c _ => ?_
    rw [ih (replaceAll _ _ _), toList_replaceAll_singleton, String.toList_singleton,
      List.flatMap_singleton]

/-- A character that is not replaced stays. -/
theorem replaceInTurn_singleton {es : List (Char × String)} {c : Char} (h : ∀ e ∈ es, c ≠ e.1) :
    replaceInTurn es (String.singleton c) = String.singleton c := by
  induction es with
  | nil => rfl
  | cons e es ih =>
    obtain ⟨he, hes⟩ := List.forall_mem_cons.1 h
    rw [replaceInTurn_cons, replaceAll_singleton_of_ne he, ih hes]

end Text

namespace Report

/-! ## Entities -/

/-- A character as it is written in HTML. -/
def entity : Char → String
  | '&' => "&amp;"
  | '<' => "&lt;"
  | '>' => "&gt;"
  | '"' => "&quot;"
  | '\'' => "&#39;"
  | c => String.singleton c

/-- What stands for a character: its entity, or else the character. -/
theorem entity_cases (c : Char) :
    (c, entity c) ∈ entities ∨ (∀ e ∈ entities, c ≠ e.1) ∧ entity c = String.singleton c := by
  unfold entity
  split
  case h_6 hamp hlt hgt hquot hapos =>
    exact .inr ⟨by simpa [entities] using ⟨hamp, hlt, hgt, hquot, hapos⟩, rfl⟩
  all_goals exact .inl (by decide)

/-- The later replacements leave the entities alone that the earlier ones put in. -/
theorem replaceInTurn_entities (c : Char) :
    Text.replaceInTurn entities (String.singleton c) = entity c := by
  rcases entity_cases c with h | ⟨hne, heq⟩
  · have hall : ∀ e ∈ entities, Text.replaceInTurn entities (String.singleton e.1) = e.2 := by
      decide +kernel
    exact hall (c, entity c) h
  · rw [Text.replaceInTurn_singleton hne, heq]

/-- **Escaping replaces all characters at once**: the entities stand side by side. -/
theorem toList_escape (s : String) :
    (escape s).toList = s.toList.flatMap fun c => (entity c).toList := by
  rw [escape, Text.toList_replaceInTurn]
  simp only [replaceInTurn_entities]

/-- What stands for a character is none of the marks of HTML and has none in it. -/
theorem not_mark_of_mem_entity {c x : Char} (h : x ∈ (entity c).toList) :
    x ≠ '<' ∧ x ≠ '>' ∧ x ≠ '"' ∧ x ≠ '\'' := by
  rcases entity_cases c with hmem | ⟨hne, heq⟩
  · have hall : ∀ e ∈ entities, '<' ∉ e.2.toList ∧ '>' ∉ e.2.toList ∧ '"' ∉ e.2.toList ∧
        '\'' ∉ e.2.toList := by
      decide
    obtain ⟨hlt, hgt, hquot, hapos⟩ := hall (c, entity c) hmem
    exact ⟨ne_of_mem_of_not_mem h hlt, ne_of_mem_of_not_mem h hgt, ne_of_mem_of_not_mem h hquot,
      ne_of_mem_of_not_mem h hapos⟩
  · obtain rfl : x = c := by simpa [heq] using h
    exact ⟨hne ('<', "&lt;") (by decide), hne ('>', "&gt;") (by decide),
      hne ('"', "&quot;") (by decide),
      hne ('\'', "&#39;") (by decide)⟩

/-- An escaped text has none of the marks of HTML. -/
theorem not_mark_of_mem_escape {s : String} {x : Char} (h : x ∈ (escape s).toList) :
    x ≠ '<' ∧ x ≠ '>' ∧ x ≠ '"' ∧ x ≠ '\'' := by
  rw [toList_escape] at h
  obtain ⟨c, -, hc⟩ := List.mem_flatMap.1 h
  exact not_mark_of_mem_entity hc

/-- An entity is an ampersand and characters that are none. -/
theorem exists_of_mem_entities {e : Char × String} (h : e ∈ entities) :
    ∃ tail, e.2.toList = '&' :: tail ∧ '&' ∉ tail := by
  have hall : ∀ e ∈ entities, e.2.toList = '&' :: e.2.toList.tail ∧ '&' ∉ e.2.toList.tail := by
    decide
  exact ⟨_, hall e h⟩

/-- An ampersand in what stands for a character begins the entity. -/
theorem eq_nil_of_ampersand {c : Char} {front back : List Char}
    (h : (entity c).toList = front ++ '&' :: back) :
    front = [] ∧ (c, entity c) ∈ entities := by
  rcases entity_cases c with hmem | ⟨hne, heq⟩
  · obtain ⟨tail, htail, hnot⟩ := exists_of_mem_entities hmem
    refine ⟨?_, hmem⟩
    cases front with
    | nil => rfl
    | cons x front =>
      have hrest : tail = front ++ '&' :: back := by
        rw [htail, List.cons_append] at h
        exact (List.cons.inj h).2
      exact absurd (by simp [hrest]) hnot
  · have hc : '&' = c := by
      have hmem : '&' ∈ (entity c).toList := by simp [h]
      simpa [heq] using hmem
    exact absurd hc.symm (hne ('&', "&amp;") (by decide))

/-- Every ampersand among entities that stand side by side begins one of them. -/
theorem exists_entity_of_ampersand {cs front back : List Char}
    (h : (cs.flatMap fun c => (entity c).toList) = front ++ '&' :: back) :
    ∃ e ∈ entities, e.2.toList <+: '&' :: back := by
  induction cs generalizing front with
  | nil => simp at h
  | cons c cs ih =>
    rw [List.flatMap_cons] at h
    -- the ampersand stands behind the first entity or in it
    rcases List.append_eq_append_iff.1 h with ⟨behind, hfront, hrest⟩ | ⟨inside, hentity, hback⟩
    · exact ih hrest
    · cases inside with
      | nil => exact @ih [] hback.symm
      | cons x inside =>
        obtain ⟨rfl, hback⟩ := List.cons.inj hback
        obtain ⟨rfl, hmem⟩ := eq_nil_of_ampersand hentity
        exact ⟨_, hmem, by rw [hentity, hback]; exact List.prefix_append _ _⟩

/-! ## Reading back -/

/-- The characters that a text stands for, read from the left: an entity stands for its character,
all else for itself. `skip` characters of an entity remain to be passed over. -/
def unescapeFrom : Nat → List Char → List Char
  | _, [] => []
  | skip + 1, _ :: rest => unescapeFrom skip rest
  | 0, c :: rest =>
    match entities.find? fun e => e.2.toList.isPrefixOf (c :: rest) with
    | some e => e.1 :: unescapeFrom (e.2.length - 1) rest
    | none => c :: unescapeFrom 0 rest

/-- The text that a text in HTML stands for. -/
def unescape (s : String) : String := .ofList (unescapeFrom 0 s.toList)

theorem unescapeFrom_append (front rest : List Char) :
    unescapeFrom front.length (front ++ rest) = unescapeFrom 0 rest := by
  induction front with
  | nil => rfl
  | cons c front ih => exact ih

/-- No entity is the begin of another one, so that only one of them can stand at the front of a
text. -/
theorem eq_of_prefix {d e : Char × String} (hd : d ∈ entities) (he : e ∈ entities) {cs : List Char}
    (hdcs : d.2.toList <+: cs) (hecs : e.2.toList <+: cs) : d = e := by
  have hall : ∀ d ∈ entities, ∀ e ∈ entities, d.2.toList <+: e.2.toList → d = e := by decide
  rcases List.prefix_or_prefix_of_prefix hdcs hecs with h | h
  · exact hall d hd e he h
  · exact (hall e he d hd h).symm

/-- The entity at the front of a text is the one that is found there. -/
theorem find?_entity {e : Char × String} {cs : List Char} (he : e ∈ entities)
    (h : e.2.toList <+: cs) :
    (entities.find? fun d => d.2.toList.isPrefixOf cs) = some e := by
  have hsome : (entities.find? fun d => d.2.toList.isPrefixOf cs).isSome = true :=
    List.find?_isSome.2 ⟨e, he, List.isPrefixOf_iff_prefix.2 h⟩
  obtain ⟨d, hd⟩ := Option.isSome_iff_exists.1 hsome
  have hfound : d.2.toList.isPrefixOf cs = true := by simpa using List.find?_some hd
  rw [hd, eq_of_prefix (List.mem_of_find?_eq_some hd) he (List.isPrefixOf_iff_prefix.1 hfound) h]

/-- What stands for a character is read as this character, whatever follows. -/
theorem unescapeFrom_entity (c : Char) (rest : List Char) :
    unescapeFrom 0 ((entity c).toList ++ rest) = c :: unescapeFrom 0 rest := by
  rcases entity_cases c with hmem | ⟨hne, heq⟩
  · obtain ⟨tail, htail, -⟩ := exists_of_mem_entities hmem
    have hfront : (entity c).toList <+: '&' :: (tail ++ rest) := by
      rw [htail]
      exact List.prefix_append _ rest
    rw [htail, List.cons_append, unescapeFrom, find?_entity hmem hfront]
    have hlength : (entity c).length - 1 = tail.length := by
      rw [← String.length_toList, htail, List.length_cons, Nat.add_sub_cancel]
    simp only [hlength, unescapeFrom_append]
  · have hc : '&' ≠ c := (hne ('&', "&amp;") (by decide)).symm
    have hnone : (entities.find? fun e => e.2.toList.isPrefixOf (c :: rest)) = none := by
      refine List.find?_eq_none.2 fun e he => ?_
      obtain ⟨tail, htail, -⟩ := exists_of_mem_entities he
      simp [htail, hc]
    rw [heq, String.toList_singleton, List.singleton_append, unescapeFrom, hnone]

theorem unescapeFrom_flatMap (cs : List Char) :
    unescapeFrom 0 (cs.flatMap fun c => (entity c).toList) = cs := by
  induction cs with
  | nil => rfl
  | cons c cs ih => rw [List.flatMap_cons, unescapeFrom_entity, ih]

/-- Reading an escaped text gives the text. -/
theorem unescape_escape (s : String) : unescape (escape s) = s := by
  rw [unescape, toList_escape, unescapeFrom_flatMap, String.ofList_toList]

/-- **Escaping loses nothing.** An escaped text is made up of what stands for the characters of the
text, so that none of the marks of HTML is in it and every ampersand in it begins an entity;
decoding the entities from the left gives the text back, and no other text is escaped in the same
way. -/
theorem escape_lossless (s : String) :
    (escape s).toList = s.toList.flatMap (fun c => (entity c).toList) ∧
    (∀ c ∈ (escape s).toList, c ≠ '<' ∧ c ≠ '>' ∧ c ≠ '"' ∧ c ≠ '\'') ∧
    (∀ front back, (escape s).toList = front ++ '&' :: back →
      ∃ e ∈ entities, e.2.toList <+: '&' :: back) ∧
    unescape (escape s) = s ∧
    ∀ t, escape t = escape s → t = s := by
  refine ⟨toList_escape s, fun c => not_mark_of_mem_escape, ?_, unescape_escape s, ?_⟩
  · intro front back h
    rw [toList_escape] at h
    exact exists_entity_of_ampersand h
  · intro t h
    rw [← unescape_escape t, h, unescape_escape]

end Report

end Deadwood
