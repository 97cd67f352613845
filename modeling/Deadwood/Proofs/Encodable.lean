import Deadwood.Digest
import Deadwood.Manifest
import Deadwood.Proofs.Json

/-!
# Texts that have an encoding

A text has no encoding if half of a surrogate pair stands in it. Whether a document has one can be
told from the texts in it.

* `Text.Settled s b`: whatever stands around the text, `b` says whether it leaves an encoding.
* `Value.encodable v`: every text in the value has an encoding. `Value.isSome_toBytes?_toJsonLines`:
  this tells whether the document has one.
* `Manifest.isSome_toBytes?_toText` is what follows for manifests.
-/

namespace Deadwood

namespace Text

/-! ## Texts -/

/-- A character that is no mark separates what stands before it from what stands behind it. -/
theorem isSome_characters?_append {c : Char} (hc : c ≠ mark) (before after : List Char) :
    (characters? (before ++ c :: after)).isSome =
      ((characters? before).isSome && (characters? after).isSome) := by
  have hcons (c : Char) (hc : c ≠ mark) :
      (characters? (c :: after)).isSome = (characters? after).isSome := by
    cases after <;> simp [characters?, hc]
  induction before using characters?.induct with
  | case1 => simp [characters?, hcons c hc]
  | case2 => simp [characters?, hc]
  | case3 d hd =>
    have hstep := hcons c hc
    simp [characters?, hd, hstep]
  | case4 rest ih => simpa [characters?] using ih
  | case5 d rest hd => simp [characters?, hd]
  | case6 d e rest hd ih => simpa [characters?, hd] using ih

/-- Characters that are no marks have no part in whether there is an encoding. -/
theorem isSome_characters?_plain {cs : List Char} (h : mark ∉ cs) (after : List Char) :
    (characters? (cs ++ after)).isSome = (characters? after).isSome := by
  induction cs with
  | nil => rfl
  | cons c rest ih =>
    obtain ⟨hc, hrest⟩ := not_or.1 (List.mem_cons.not.1 h)
    have hfirst := isSome_characters?_append (Ne.symm hc) [] (rest ++ after)
    rw [List.nil_append] at hfirst
    rw [List.cons_append, hfirst, ih hrest]
    rfl

theorem isSome_characters?_of_plain {cs : List Char} (h : mark ∉ cs) :
    (characters? cs).isSome = true := by
  have hplain := isSome_characters?_plain h []
  rwa [List.append_nil] at hplain

theorem isSome_toBytes? (s : String) : (toBytes? s).isSome = (characters? s.toList).isSome := by
  rw [toBytes?, Option.isSome_map]

/-- Whatever stands around the text, `b` says whether it leaves an encoding. -/
def Settled (s : String) (b : Bool) : Prop := ∀ before after : List Char,
  (characters? (before ++ s.toList ++ after)).isSome =
    ((characters? before).isSome && (b && (characters? after).isSome))

theorem Settled.append {s t : String} {b c : Bool} (hs : Settled s b) (ht : Settled t c) :
    Settled (s ++ t) (b && c) := by
  intro before after
  have hbehind := ht [] after
  rw [List.nil_append] at hbehind
  rw [String.toList_append, ← List.append_assoc, List.append_assoc, hs, hbehind, Bool.and_assoc]
  rfl

/-- A text without marks leaves an encoding, and it settles this unless it is empty. -/
theorem settled_of_plain {s : String} (hne : s.toList ≠ []) (h : mark ∉ s.toList) :
    Settled s true := by
  obtain ⟨c, rest, hs⟩ := List.exists_cons_of_ne_nil hne
  rw [hs] at h
  obtain ⟨hc, hrest⟩ := not_or.1 (List.mem_cons.not.1 h)
  intro before after
  rw [hs, List.append_assoc, List.cons_append, isSome_characters?_append (Ne.symm hc),
    isSome_characters?_plain hrest, Bool.true_and]

theorem Settled.intercalate {α : Type} {separator : String} (hseparator : Settled separator true)
    {text : α → String} {good : α → Bool} (a : α) (rest : List α)
    (h : ∀ x ∈ a :: rest, Settled (text x) (good x)) :
    Settled (separator.intercalate ((a :: rest).map text)) ((a :: rest).all good) := by
  induction rest generalizing a with
  | nil => simpa using h a List.mem_cons_self
  | cons b rest ih =>
    have hfirst := (h a List.mem_cons_self).append hseparator
    have hbehind := ih b fun x hx => h x (List.mem_cons_of_mem _ hx)
    rw [Bool.and_true] at hfirst
    rw [List.map_cons, List.map_cons, String.intercalate_cons_cons, List.all_cons]
    exact hfirst.append hbehind

theorem Settled.isSome_toBytes? {s : String} {b : Bool} (h : Settled s b) :
    (toBytes? s).isSome = b := by
  have hwhole := h [] []
  rw [List.nil_append, List.append_nil] at hwhole
  rw [Text.isSome_toBytes?, hwhole]
  simp [characters?]

end Text

/-! ## Numbers -/

/-- The text of a decimal is digits, a point, an `e` and signs. -/
theorem Binary64.settled_decimalText (d : Nat) (k : Int) :
    Text.Settled (decimalText d k) true := by
  have hdigits (n : Nat) : Text.mark ∉ Nat.toDigits 10 n := Value.not_mem_toDigits (by decide) n
  have hds : Text.mark ∉ ((Nat.toDigits 10 d).reverse.dropWhile (· = '0')).reverse := by
    intro h
    refine hdigits d (List.mem_reverse.1 ?_)
    exact (List.dropWhile_sublist _).subset (List.mem_reverse.1 h)
  generalize hdef : ((Nat.toDigits 10 d).reverse.dropWhile (· = '0')).reverse = ds at hds
  have htake (n : Nat) : Text.mark ∉ ds.take n := fun h => hds (List.mem_of_mem_take h)
  have hdrop (n : Nat) : Text.mark ∉ ds.drop n := fun h => hds (List.mem_of_mem_drop h)
  have hzero : Text.mark ≠ '0' := by decide
  have hpoint : Text.mark ≠ '.' := by decide
  have hletter : Text.mark ≠ 'e' := by decide
  have hminus : Text.mark ≠ '-' := by decide
  have hplus : Text.mark ≠ '+' := by decide
  have hpower (n : Nat) : Text.mark ∉ if (Nat.toDigits 10 n).length < 2
    then '0' :: Nat.toDigits 10 n
      else Nat.toDigits 10 n := by
    split_ifs <;> simp [hdigits, hzero]
  simp only [decimalText, hdef]
  split
  · split
    · refine Text.settled_of_plain (by simp) ?_
      simp [hzero, hpoint, hds]
    · refine Text.settled_of_plain (by simp) ?_
      split_ifs <;> simp [hzero, hpoint, htake, hdrop]
  · refine Text.settled_of_plain (by simp) ?_
    rw [String.toList_ofList, List.mem_append, List.mem_cons, List.mem_cons]
    rintro (h | h | h | h)
    · split at h
      · exact hds h
      · simp_all
      · simp_all
    · exact hletter h
    · split at h
      · exact hminus h
      · exact hplus h
    · exact hpower _ h

theorem Value.settled_jsonFloat (x : Binary64) : Text.Settled (Value.jsonFloat x) true := by
  have hword {s : String} (h : s.toList ≠ [] ∧ Text.mark ∉ s.toList) : Text.Settled s true :=
    Text.settled_of_plain h.1 h.2
  cases x with
  | nan => exact hword (by decide)
  | infinite negative => cases negative <;> exact hword (by decide)
  | finite negative m q =>
    have hsigned {s : String} (h : Text.Settled s true) :
        Text.Settled ((if negative then "-" else "") ++ s) true := by
      cases negative with
      | true => exact (hword (by decide)).append h
      | false => simpa using h
    simp only [jsonFloat, Binary64.text]
    split
    · exact hsigned (hword (by decide))
    · exact hsigned (Binary64.settled_decimalText _ _)

/-- A digest has an encoding. -/
theorem isSome_characters?_digest (message : List UInt8) :
    (Text.characters? (digest message).toList).isSome = true := by
  have hdigit : ∀ n < 16, Text.mark ≠ Nat.digitChar n := by decide
  have hword (w : UInt32) : Text.mark ∉ (Digest.hexWord w).toList := by
    rw [Digest.hexWord, String.toList_ofList, List.mem_map]
    rintro ⟨i, -, hi⟩
    exact hdigit _ (Nat.mod_lt _ (by decide)) hi.symm
  refine Text.isSome_characters?_of_plain ?_
  simp [digest, hword]

/-! ## Documents -/

namespace Value

open Text (Settled)

mutual

/-- Every text in the value has an encoding. -/
def encodable : Value → Bool
  | .str s => (Text.characters? s.toList).isSome
  | .list items => encodableItems items
  | .dict fields => encodableFields fields
  | .null | .bool _ | .int _ | .float _ => true

/-- Every text in the items has an encoding. -/
def encodableItems : List Value → Bool
  | [] => true
  | v :: rest => v.encodable && encodableItems rest

/-- Every name and every text in the fields has an encoding. -/
def encodableFields : List (String × Value) → Bool
  | [] => true
  | (k, v) :: rest => (Text.characters? k.toList).isSome && v.encodable && encodableFields rest

end

theorem encodable_int (n : Int) : (Value.int n).encodable = true := by rw [encodable]

theorem encodable_str (s : String) :
    (Value.str s).encodable = (Text.characters? s.toList).isSome := by
  rw [encodable]

theorem encodable_list (items : List Value) :
    (Value.list items).encodable = items.all encodable := by
  rw [encodable]
  induction items with
  | nil => rfl
  | cons v rest ih => rw [encodableItems, ih, List.all_cons]

theorem encodable_dict (fields : List (String × Value)) : (Value.dict fields).encodable =
    fields.all fun f => (Text.characters? f.1.toList).isSome && f.2.encodable := by
  rw [encodable]
  induction fields with
  | nil => rfl
  | cons f rest ih => rw [encodableFields, ih, List.all_cons]

/-- Only the mark itself is shown with a mark. -/
theorem mark_notMem_jsonChar {c : Char} (hc : c ≠ Text.mark) : Text.mark ∉ jsonChar c := by
  have hhex : ∀ n < 32, Text.mark ∉ '\\' :: 'u' :: Text.hex 4 n := by decide
  unfold jsonChar
  split_ifs with _ _ _ _ _ _ _ hcontrol
  all_goals try decide
  · exact hhex _ hcontrol
  · exact fun h => hc (List.mem_singleton.1 h).symm

theorem jsonChar_mark : jsonChar Text.mark = [Text.mark] := by decide

/-- In quotes a text leaves an encoding exactly if it has one. -/
theorem isSome_characters?_quoted (cs after : List Char) :
    (Text.characters? (cs.flatMap jsonChar ++ '"' :: after)).isSome =
      ((Text.characters? cs).isSome && (Text.characters? after).isSome) := by
  have hquote (before : List Char) :=
    Text.isSome_characters?_append (c := '"') (by decide) before after
  induction cs using Text.characters?.induct with
  | case1 => exact hquote []
  | case2 => simp [jsonChar_mark, Text.characters?, show '"' ≠ Text.mark by decide]
  | case3 c hc =>
    have hchar := Text.isSome_characters?_of_plain (mark_notMem_jsonChar hc)
    simp [hquote, hchar, Text.characters?, hc]
  | case4 rest ih => simpa [jsonChar_mark, Text.characters?] using ih
  | case5 d rest hd =>
    obtain ⟨e, es, he⟩ : ∃ e es, jsonChar d = e :: es :=
      List.exists_cons_of_length_pos (length_jsonChar_pos d)
    have hne : e ≠ Text.mark := by
      rintro rfl
      exact mark_notMem_jsonChar hd (he ▸ List.mem_cons_self)
    simp [jsonChar_mark, he, Text.characters?, hne, hd]
  | case6 c d rest hc ih =>
    have hplain := Text.isSome_characters?_plain (mark_notMem_jsonChar hc)
      ((d :: rest).flatMap jsonChar ++ '"' :: after)
    rw [List.flatMap_cons, List.append_assoc, hplain, ih, Text.characters?, if_neg hc,
      Option.isSome_map]

theorem settled_jsonText (s : String) :
    Settled (jsonText s) (Text.characters? s.toList).isSome := by
  intro before after
  rw [toList_jsonText, List.append_assoc, List.cons_append, List.append_assoc,
    List.singleton_append, Text.isSome_characters?_append (by decide), isSome_characters?_quoted]

theorem settled_newline (level : Nat) : Settled (newline level) true := by
  refine Text.settled_of_plain ?_ ?_
  · simp [newline]
  · simp [newline, Text.mark]

theorem settled_int (n : Int) : Settled (toString n) true := by
  have hdigits : Text.mark ∉ Nat.toDigits 10 n.natAbs := not_mem_toDigits (by decide) _
  have hminus : Text.mark ≠ '-' := by decide
  refine Text.settled_of_plain ?_ ?_
  all_goals rw [toList_toString]; split_ifs <;> simp [hdigits, hminus, Nat.toDigits_ne_nil]

theorem settled_fieldLines {level : Nat} {f : String × Value}
    (h : Settled (f.2.toJsonLines level) f.2.encodable) :
    Settled (fieldLines level f) ((Text.characters? f.1.toList).isSome && f.2.encodable) := by
  have hname := (settled_jsonText f.1).append
    (Text.settled_of_plain (s := ": ") (by decide) (by decide))
  rw [Bool.and_true] at hname
  exact hname.append h

/-- Some pieces over several lines in brackets are settled by the pieces. -/
theorem settled_lines {s : String} {b : Bool} (level : Nat) (h : Settled s b)
    {opening closing : String} (hopening : Settled opening true) (hclosing : Settled closing true) :
    Settled (opening ++ newline (level + 1) ++ s ++ newline level ++ closing) b := by
  have hwhole := (((hopening.append (settled_newline (level + 1))).append h).append
    (settled_newline level)).append hclosing
  simpa using hwhole

theorem settled_comma (level : Nat) : Settled ("," ++ newline level) true :=
  (Text.settled_of_plain (by decide) (by decide)).append (settled_newline level)

/-- A value is an atom, or it consists of values. -/
@[elab_as_elim]
theorem partsInduction {P : Value → Prop} (v : Value) (null : P .null) (bool : ∀ b, P (.bool b))
    (int : ∀ n, P (.int n)) (float : ∀ x, P (.float x)) (str : ∀ s, P (.str s))
    (list : ∀ items, (∀ w ∈ items, P w) → P (.list items))
    (dict : ∀ fields, (∀ f ∈ fields, P f.2) → P (.dict fields)) : P v :=
  @Value.rec P (fun items => ∀ w ∈ items, P w) (fun fields => ∀ f ∈ fields, P f.2) (fun f => P f.2)
    null bool int float str list dict (List.forall_mem_nil _)
    (fun _ _ hv hrest => List.forall_mem_cons.2 ⟨hv, hrest⟩) (List.forall_mem_nil _)
    (fun _ _ hf hrest => List.forall_mem_cons.2 ⟨hf, hrest⟩) (fun _ _ hv => hv) v

/-- **The document of a value leaves an encoding exactly if all its texts have one.** -/
theorem settled_toJsonLines (v : Value) (level : Nat) :
    Settled (v.toJsonLines level) v.encodable := by
  have hword {s : String} (h : s.toList ≠ [] ∧ Text.mark ∉ s.toList) : Text.Settled s true :=
    Text.settled_of_plain h.1 h.2
  induction v using partsInduction generalizing level with
  | null => exact hword (s := "null") (by decide)
  | bool b =>
    cases b with
    | true => exact hword (s := "true") (by decide)
    | false => exact hword (s := "false") (by decide)
  | int n => exact settled_int n
  | float x => exact settled_jsonFloat x
  | str s => exact settled_jsonText s
  | list items ih =>
    cases items with
    | nil => exact hword (s := "[]") (by decide)
    | cons v rest =>
      rw [encodable_list]
      simp only [toJsonLines, toJsonLinesItems_eq]
      refine settled_lines level ?_ (hword (by decide)) (hword (by decide))
      exact (settled_comma _).intercalate v rest fun x hx => ih x hx (level + 1)
  | dict fields ih =>
    cases fields with
    | nil => exact hword (s := "\x7b\x7d") (by decide)
    | cons f rest =>
      rw [encodable_dict]
      simp only [toJsonLines, toJsonLinesFields_eq]
      refine settled_lines level ?_ (hword (by decide)) (hword (by decide))
      exact (settled_comma _).intercalate f rest fun x hx =>
        settled_fieldLines (ih x hx (level + 1))

theorem isSome_toBytes?_toJsonLines (v : Value) (level : Nat) :
    (Text.toBytes? (v.toJsonLines level)).isSome = v.encodable :=
  (settled_toJsonLines v level).isSome_toBytes?

end Value

/-! ## Manifests -/

namespace Manifest

theorem Entry.encodable_toValue (e : Entry) : e.toValue.encodable =
    ((Text.characters? e.digest.toList).isSome && ((Text.characters? e.module.toList).isSome &&
      e.facts.all fun f => f.toValue.encodable)) := by
  have hdigest : (Text.characters? "digest".toList).isSome = true := by decide
  have hmodule : (Text.characters? "module".toList).isSome = true := by decide
  have hfacts : (Text.characters? "facts".toList).isSome = true := by decide
  rw [toValue, Value.encodable_dict]
  simp only [List.all_cons, List.all_nil, hdigest, hmodule, hfacts, Value.encodable_str,
    Value.encodable_list, List.all_map, Bool.true_and, Bool.and_true]
  rfl

/-- The text of a manifest has an encoding exactly if all texts in its entries have one. -/
theorem isSome_toBytes?_toText (m : Manifest) : (Text.toBytes? (toText m)).isSome =
    m.entries.all fun e => (Text.characters? e.1.toList).isSome && e.2.toValue.encodable := by
  have hversion : (Text.characters? "version".toList).isSome = true := by decide
  have hunits : (Text.characters? "units".toList).isSome = true := by decide
  have hsorted := (List.mergeSort_perm m.entries fun a b => decide (a.1 ≤ b.1)).all_eq
    (f := fun e => (Text.characters? e.1.toList).isSome && e.2.toValue.encodable)
  rw [toText, Value.isSome_toBytes?_toJsonLines, toValue, Value.encodable_dict]
  simp only [List.all_cons, List.all_nil, hversion, hunits, Value.encodable_int,
    Value.encodable_dict, List.all_map, Bool.true_and, Bool.and_true]
  exact hsorted

/-- A manifest with a fact that has no encoding has none itself. -/
theorem toBytes?_toText_of_fact {m : Manifest} {e : String × Entry} (he : e ∈ m.entries) {f : Fact}
    (hf : f ∈ e.2.facts) (h : f.toValue.encodable = false) : Text.toBytes? (toText m) = none := by
  rw [← Option.not_isSome_iff_eq_none, isSome_toBytes?_toText, List.all_eq_true]
  intro hall
  have hfacts := hall e he
  simp only [Entry.encodable_toValue, Bool.and_eq_true, List.all_eq_true] at hfacts
  rw [hfacts.2.2.2 f hf] at h
  cases h

end Manifest

end Deadwood
