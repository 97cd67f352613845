import Deadwood.Proofs.Codec
import Deadwood.Proofs.Encodable
import Deadwood.Proofs.Run
import Deadwood.Proofs.Traversal

/-!
# What is read from the file of a manifest

A manifest that cannot be used counts as empty, and this is decided as a whole: one strange fact is
enough. Only a few parts that cannot be decoded at all are not passed over: they end the run.

* `Fact.Broken fields`: a fact of a known kind has such a part, and all parts before it can be
  decoded. `ofValue_eq_error_iff` says that no other fact fails in this way.
* `Manifest.Describes content m`: the content of a file describes a manifest, entry by entry and
  fact by fact. `Manifest.Broken content`: the first entry that is not described is broken.
* `load_cases`: the manifest that is loaded is the one described or is empty, unless the content is
  broken. Documents are read by any library whose objects have different names.
* `load_save`: what was saved is loaded again.
-/

namespace Deadwood

/-! ## Failures that are not passed over -/

/-- The decoding fails, and its error is not taken as a sign of an unknown fact. -/
def Escapes {α : Type} (x : Except DecodeError α) : Prop := ∃ e, x = .error e ∧ e.isUnknown = false

section Escapes

variable {α β : Type}

@[simp] theorem not_escapes_ok (a : α) : ¬ Escapes (.ok a : Except DecodeError α) := by
  rintro ⟨e, h, -⟩
  cases h

@[simp] theorem not_escapes_pure (a : α) : ¬ Escapes (pure a : Except DecodeError α) :=
  not_escapes_ok a

@[simp] theorem escapes_error_iff {e : DecodeError} :
    Escapes (.error e : Except DecodeError α) ↔ e.isUnknown = false := by
  simp [Escapes]

/-- Of two steps the first escapes, or it gives something with which the second does. -/
theorem escapes_bind_iff {x : Except DecodeError α} {f : α → Except DecodeError β} :
    Escapes (x >>= f) ↔ Escapes x ∨ ∃ a, x = .ok a ∧ Escapes (f a) := by
  cases x with
  | error e =>
    change Escapes (.error e) ↔ _
    simp
  | ok a =>
    change Escapes (f a) ↔ _
    simp

theorem escapes_map_iff {x : Except DecodeError α} {f : α → β} : Escapes (x.map f) ↔ Escapes x := by
  cases x <;> simp [Except.map]

end Escapes

/-! ## Parts of facts -/

namespace Value

/-- The number is infinite. -/
def Endless (v : Value) : Prop := ∃ negative, v = .float (.infinite negative)

theorem not_endless_str (s : String) : ¬ (Value.str s).Endless := by
  rintro ⟨negative, h⟩
  cases h

theorem escapes_toInt_iff {v : Value} : Escapes v.toInt ↔ v.Endless := by
  cases v with
  | float x => cases x <;> simp [toInt, Endless, DecodeError.isUnknown]
  | str s => cases h : Text.readInt? s <;> simp [toInt, h, not_endless_str, DecodeError.isUnknown]
  | null | bool b | int n | list items | dict fields => simp [toInt, Endless, DecodeError.isUnknown]

theorem escapes_toIntOrZero_iff {v : Value} : Escapes v.toIntOrZero ↔ v.Endless := by
  rw [toIntOrZero]
  split_ifs with h
  · exact escapes_toInt_iff
  · refine iff_of_false (not_escapes_ok 0) ?_
    rintro ⟨negative, rfl⟩
    exact h rfl

theorem not_escapes_elements (v : Value) : ¬ Escapes v.elements := by
  cases v <;> simp [elements, DecodeError.isUnknown]

/-- Only a list has an item that is infinite: what a text and an object consist of are texts. -/
theorem eq_list_of_endless {v x : Value} {items : List Value} (h : v.elements = .ok items)
    (hx : x ∈ items) (hend : x.Endless) : v = .list items := by
  cases v with
  | list _ =>
    cases h
    rfl
  | str s =>
    cases h
    obtain ⟨c, -, rfl⟩ := List.mem_map.1 hx
    exact absurd hend (not_endless_str _)
  | dict fields =>
    cases h
    obtain ⟨f, -, rfl⟩ := List.mem_map.1 hx
    exact absurd hend (not_endless_str _)
  | null | bool b | int n | float x => cases h

theorem not_escapes_toTexts (v : Value) : ¬ Escapes v.toTexts := by
  rw [toTexts]
  split_ifs
  · rw [escapes_map_iff]
    exact not_escapes_elements v
  · exact not_escapes_ok []

end Value

/-- Three items, of which the last is infinite. -/
def Symbol.Endless (v : Value) : Prop :=
  ∃ scope name arity, v = .list [scope, name, arity] ∧ arity.Endless

theorem Symbol.escapes_ofValue_iff {v : Value} : Escapes (Symbol.ofValue v) ↔ Symbol.Endless v := by
  rw [ofValue, escapes_bind_iff, or_iff_right v.not_escapes_elements]
  constructor
  · rintro ⟨items, hitems, h⟩
    split at h
    · rename_i scope name arity
      rw [escapes_bind_iff, Value.escapes_toInt_iff, or_iff_left (by simp)] at h
      exact ⟨scope, name, arity, Value.eq_list_of_endless hitems (by simp) h, h⟩
    · exact absurd h (by simp [DecodeError.isUnknown])
  · rintro ⟨scope, name, arity, rfl, h⟩
    exact ⟨_, rfl, escapes_bind_iff.2 (.inl (Value.escapes_toInt_iff.2 h))⟩

theorem Meta.not_escapes_aliasesOf (v : Value) : ¬ Escapes (Meta.aliasesOf v) := by
  unfold aliasesOf
  split_ifs
  · cases v <;> simp [DecodeError.isUnknown]
  · exact not_escapes_ok _

theorem Meta.escapes_ofFields_iff {fields : List (String × Value)} :
    Escapes (Meta.ofFields fields) ↔
    ∃ line, Value.field? fields "line" = some line ∧ line.Endless := by
  simp only [ofFields, escapes_bind_iff, Value.escapes_toIntOrZero_iff, Value.not_escapes_toTexts,
    not_escapes_aliasesOf, not_escapes_pure, and_false, exists_false, or_false]
  cases Value.field? fields "line" with
  | none => simp [Value.Endless]
  | some line => simp

theorem Meta.escapes_ofValue_iff {v : Value} : Escapes (Meta.ofValue v) ↔
    ∃ fields line, v = .dict fields ∧ Value.field? fields "line" = some line ∧ line.Endless := by
  cases v with
  | dict fields => simp [ofValue, escapes_ofFields_iff]
  | null | bool b | int n | float x | str s | list items => simp [ofValue, DecodeError.isUnknown]

/-- A place without a line, or with an infinite one. -/
inductive Location.Broken : Value → Prop
  | item (file : Value) : Broken (.list [file])
  | point {s : String} {c : List Char} (h : Text.points s.toList = [c]) : Broken (.str s)
  | line (file line : Value) (more : List Value) (h : line.Endless) :
    Broken (.list (file :: line :: more))

theorem Location.escapes_ofValue_iff {v : Value} (hv : v.truthy = true) :
    Escapes (Location.ofValue v) ↔ Location.Broken v := by
  cases v with
  | list items =>
    rcases items with _ | ⟨file, _ | ⟨line, more⟩⟩
    · cases hv
    · simp [ofValue, DecodeError.isUnknown, Broken.item]
    · rw [ofValue, escapes_map_iff, Value.escapes_toIntOrZero_iff]
      refine ⟨.line file line more, fun h => ?_⟩
      cases h with
      | line _ _ _ h => exact h
  | str s =>
    simp only [ofValue]
    split
    · rename_i file line more hpoints
      rw [escapes_map_iff, Value.escapes_toIntOrZero_iff]
      refine iff_of_false (Value.not_endless_str _) fun h => ?_
      cases h with
      | point h => simp [h] at hpoints
    · rename_i hshort
      refine iff_of_true (by simp [DecodeError.isUnknown]) ?_
      cases hs : s.toList with
      | nil =>
        rw [String.toList_eq_nil_iff] at hs
        rw [hs] at hv
        cases hv
      | cons c rest =>
        obtain ⟨p, ps, hpoints⟩ := Text.exists_points c rest
        rw [← hs] at hpoints
        cases ps with
        | nil => exact .point hpoints
        | cons q ps => exact absurd hpoints (hshort p q ps)
  | null | bool b | int n | float x | dict fields =>
    refine iff_of_false (by simp [ofValue, DecodeError.isUnknown]) fun h => ?_
    cases h

namespace Fact

/-! ## Facts -/

/-- A fact of a known kind with a part that cannot be decoded at all, the parts before it being
decoded: a symbol or a description with an infinite number, or a place that is broken. -/
inductive Broken (fields : List (String × Value)) : Prop
  | symbol {v : Value} (kind : Value.field? fields "t" = some (.str "def"))
      (sym : Value.field? fields "sym" = some v) (h : Symbol.Endless v)
  | line {v line : Value} {s : Symbol} {info : List (String × Value)}
      (kind : Value.field? fields "t" = some (.str "def"))
      (sym : Value.field? fields "sym" = some v) (hsym : Symbol.ofValue v = .ok s)
      (description : Value.field? fields "meta" = some (.dict info))
      (hline : Value.field? info "line" = some line) (h : line.Endless)
  | caller {v : Value} (kind : Value.field? fields "t" = some (.str "call"))
      (caller : Value.field? fields "caller" = some v) (h : Symbol.Endless v)
  | callee {v w : Value} {s : Symbol} (kind : Value.field? fields "t" = some (.str "call"))
      (caller : Value.field? fields "caller" = some v) (hcaller : Symbol.ofValue v = .ok s)
      (callee : Value.field? fields "callee" = some w) (h : Symbol.Endless w)
  | site {u v w : Value} {s t : Symbol} (kind : Value.field? fields "t" = some (.str "call"))
      (caller : Value.field? fields "caller" = some v) (hcaller : Symbol.ofValue v = .ok s)
      (callee : Value.field? fields "callee" = some w) (hcallee : Symbol.ofValue w = .ok t)
      (site : Value.field? fields "site" = some u) (h : Location.Broken u)

theorem not_escapes_required (fields : List (String × Value)) (name : String) :
    ¬ Escapes (required fields name) := by
  rw [required]
  cases Value.field? fields name <;> simp [DecodeError.isUnknown]

theorem required_eq_ok_iff {fields : List (String × Value)} {name : String} {v : Value} :
    required fields name = .ok v ↔ Value.field? fields name = some v := by
  rw [required]
  cases Value.field? fields name <;> simp

theorem escapes_description_iff {o : Option Value} :
    Escapes (Meta.ofValue (orDefault o (.dict []))) ↔
    ∃ info line, o = some (.dict info) ∧ Value.field? info "line" = some line ∧ line.Endless := by
  rw [Meta.escapes_ofValue_iff]
  cases o with
  | none => simp [orDefault, Value.field?]
  | some v =>
    simp only [orDefault, Option.some.injEq]
    split_ifs with hv
    · rfl
    · refine iff_of_false (by simp [Value.field?]) ?_
      rintro ⟨info, line, rfl, hline, -⟩
      cases info with
      | nil => cases hline
      | cons f rest => exact hv rfl

theorem escapes_site_iff {o : Option Value} :
    Escapes (Location.ofValue (orDefault o (.list [.str "", .int 0]))) ↔
      ∃ v, o = some v ∧ Location.Broken v := by
  have hdefault : ¬ Escapes (Location.ofValue (.list [.str "", .int 0])) := by
    rw [Location.escapes_ofValue_iff rfl]
    rintro (_ | _ | ⟨_, _, _, negative, h⟩)
    cases h
  cases o with
  | none => simpa [orDefault] using hdefault
  | some v =>
    simp only [orDefault, Option.some.injEq, exists_eq_left']
    split_ifs with hv
    · exact Location.escapes_ofValue_iff hv
    · refine iff_of_false hdefault fun h => hv ?_
      cases h with
      | item file => rfl
      | line file line more h => rfl
      | @point s c h =>
        have hs : s ≠ "" := by
          rintro rfl
          cases h
        simpa [Value.truthy] using hs

theorem escapes_ofFields_iff {fields : List (String × Value)} :
    Escapes (Fact.ofFields fields) ↔ Broken fields := by
  rw [ofFields]
  split
  · rename_i kind
    simp only [escapes_bind_iff, not_escapes_required, required_eq_ok_iff,
      Symbol.escapes_ofValue_iff,
      escapes_description_iff, not_escapes_pure, and_false, exists_false, or_false, false_or]
    constructor
    · rintro ⟨v, sym, h | ⟨s, hsym, info, line, description, hline, h⟩⟩
      · exact .symbol kind sym h
      · exact .line kind sym hsym description hline h
    · rintro (⟨_, sym, h⟩ | ⟨_, sym, hsym, description, hline, h⟩ | kind' | kind' | kind')
      · exact ⟨_, sym, .inl h⟩
      · exact ⟨_, sym, .inr ⟨_, hsym, _, _, description, hline, h⟩⟩
      all_goals simp [kind] at kind'
  · rename_i kind
    simp only [escapes_bind_iff, not_escapes_required, required_eq_ok_iff,
      Symbol.escapes_ofValue_iff,
      escapes_site_iff, not_escapes_pure, and_false, exists_false, or_false, false_or]
    constructor
    · rintro ⟨v, caller, h | ⟨s, hcaller, w, callee, h | ⟨t, hcallee, u, site, h⟩⟩⟩
      · exact .caller kind caller h
      · exact .callee kind caller hcaller callee h
      · exact .site kind caller hcaller callee hcallee site h
    · rintro (kind' | kind' | ⟨_, caller, h⟩ | ⟨_, caller, hcaller, callee, h⟩ |
        ⟨_, caller, hcaller, callee, hcallee, site, h⟩)
      · simp [kind] at kind'
      · simp [kind] at kind'
      · exact ⟨_, caller, .inl h⟩
      · exact ⟨_, caller, .inr ⟨_, hcaller, _, callee, .inl h⟩⟩
      · exact ⟨_, caller, .inr ⟨_, hcaller, _, callee, .inr ⟨_, hcallee, _, site, h⟩⟩⟩
  · rename_i hdef hcall
    refine iff_of_false (not_escapes_pure _) ?_
    rintro (kind | kind | kind | kind | kind)
    · exact hdef kind
    · exact hdef kind
    · exact hcall kind
    · exact hcall kind
    · exact hcall kind

/-- **Decoding a fact fails exactly if the fact is broken**; all other values are facts or are not
understood. -/
theorem ofValue_eq_error_iff {v : Value} :
    (∃ e, Fact.ofValue v = .error e) ↔ ∃ fields, v = .dict fields ∧ Broken fields := by
  cases v with
  | dict fields =>
    simp only [Value.dict.injEq, exists_eq_left', ← escapes_ofFields_iff, Escapes, Fact.ofValue]
    cases Fact.ofFields fields with
    | ok found => simp
    | error e => cases h : e.isUnknown <;> simp [h]
  | null | bool b | int n | float x | str s | list items => simp [Fact.ofValue]

end Fact

namespace Manifest

/-! ## Entries -/

/-- The fact that an item stands for. -/
def factOf (v : Value) : Except Fault Fact :=
  match Fact.ofValue v with
  | .ok (some f) => .ok f
  | .ok none => .error (.bad (.strangeFact v))
  | .error e => .error (.broken (.fact e))

theorem factsOf_eq_mapM (items : List Value) : factsOf items = items.mapM factOf := by
  induction items with
  | nil => rfl
  | cons v rest ih =>
    cases v with
    | dict fields =>
      simp only [factsOf, List.mapM_cons, factOf, ih]
      rcases Fact.ofValue (.dict fields) with e | _ | f <;> rfl
    | null | bool b | int n | float x | str s | list items => rfl

theorem factOf_eq_ok_iff {v : Value} {f : Fact} :
    factOf v = .ok f ↔ Fact.ofValue v = .ok (some f) := by
  rw [factOf]
  rcases Fact.ofValue v with e | _ | g <;> simp

theorem factOf_eq_broken_iff {v : Value} :
    (∃ b, factOf v = .error (.broken b)) ↔ ∃ fields, v = .dict fields ∧ Fact.Broken fields := by
  rw [← Fact.ofValue_eq_error_iff, factOf]
  rcases Fact.ofValue v with e | _ | g <;> simp

/-- The items that give the facts of an entry; a field that is missing or empty has none. -/
def rawFacts? (v : Value) : Option (List Value) :=
  match given? v "facts" with
  | none => some []
  | some (.list items) => some items
  | some _ => none

/-- An object describes an entry, fact by fact. -/
structure Entry.Described (v : Value) (e : Entry) : Prop where
  digest : v.get? "digest" = some (.str e.digest)
  module : ((given? v "module").map Value.text).getD "" = e.module
  facts : ∃ raw, rawFacts? v = some raw ∧
    List.Forall₂ (fun r f => Fact.ofValue r = .ok (some f)) raw e.facts

/-- The first item of an object that is no fact is broken. -/
structure Entry.Broken (v : Value) : Prop where
  digest : ∃ s, v.get? "digest" = some (.str s)
  facts : ∃ before fields behind, rawFacts? v = some (before ++ .dict fields :: behind) ∧
    (∀ r ∈ before, ∃ f, Fact.ofValue r = .ok (some f)) ∧ Fact.Broken fields

/-- The facts of an entry, from its items. -/
def decodeFacts (v : Value) : Except Fault (List Fact) :=
  match rawFacts? v with
  | none => .error (.bad .factsNotAList)
  | some raw => raw.mapM factOf

theorem Entry.ofValue_eq_map {v : Value} {digest : String}
    (h : v.get? "digest" = some (.str digest)) :
    Entry.ofValue v = (decodeFacts v).map fun facts =>
      { digest, facts, module := ((given? v "module").map Value.text).getD "" } := by
  simp only [Entry.ofValue, h, decodeFacts, rawFacts?]
  cases given? v "facts" with
  | none => rfl
  | some w =>
    cases w with
    | list items =>
      simp only [factsOf_eq_mapM]
      cases items.mapM factOf <;> rfl
    | null | bool b | int n | float x | str s | dict fields => rfl

theorem Entry.ofValue_of_no_digest {v : Value}
    (h : ∀ digest, v.get? "digest" ≠ some (.str digest)) :
    Entry.ofValue v = .error (.bad .noDigest) := by
  unfold Entry.ofValue
  split
  · rename_i digest hdigest
    exact absurd hdigest (h digest)
  · rfl

theorem decodeFacts_eq_ok_iff {v : Value} {facts : List Fact} : decodeFacts v = .ok facts ↔
    ∃ raw, rawFacts? v = some raw ∧
      List.Forall₂ (fun r f => Fact.ofValue r = .ok (some f)) raw facts := by
  rw [decodeFacts]
  cases rawFacts? v with
  | none => simp
  | some raw => simp [mapM_eq_ok_iff, factOf_eq_ok_iff]

theorem decodeFacts_eq_broken_iff {v : Value} : (∃ b, decodeFacts v = .error (.broken b)) ↔
    ∃ before fields behind, rawFacts? v = some (before ++ .dict fields :: behind) ∧
      (∀ r ∈ before, ∃ f, Fact.ofValue r = .ok (some f)) ∧ Fact.Broken fields := by
  rw [decodeFacts]
  cases rawFacts? v with
  | none => simp
  | some raw =>
    simp only [mapM_eq_error_iff, factOf_eq_ok_iff, Option.some.injEq]
    constructor
    · rintro ⟨e, before, r, behind, hraw, hbefore, hr⟩
      obtain ⟨fields, rfl, h⟩ := factOf_eq_broken_iff.1 ⟨e, hr⟩
      exact ⟨before, fields, behind, hraw, hbefore, h⟩
    · rintro ⟨before, fields, behind, hraw, hbefore, h⟩
      obtain ⟨e, he⟩ := factOf_eq_broken_iff.2 ⟨fields, rfl, h⟩
      exact ⟨e, before, _, behind, hraw, hbefore, he⟩

theorem Entry.ofValue_eq_ok_iff {v : Value} {e : Entry} :
    Entry.ofValue v = .ok e ↔ Entry.Described v e := by
  constructor
  · intro h
    by_cases hdigest : ∃ digest, v.get? "digest" = some (.str digest)
    · obtain ⟨digest, hdigest⟩ := hdigest
      rw [ofValue_eq_map hdigest] at h
      obtain ⟨facts, hfacts, rfl⟩ := Value.map_eq_ok h
      exact ⟨hdigest, rfl, decodeFacts_eq_ok_iff.1 hfacts⟩
    · rw [ofValue_of_no_digest (not_exists.1 hdigest)] at h
      cases h
  · rintro ⟨hdigest, hmodule, hfacts⟩
    rw [ofValue_eq_map hdigest, decodeFacts_eq_ok_iff.2 hfacts, Except.map, hmodule]

theorem Entry.ofValue_eq_broken_iff {v : Value} :
    (∃ b, Entry.ofValue v = .error (.broken b)) ↔ Entry.Broken v := by
  by_cases hdigest : ∃ digest, v.get? "digest" = some (.str digest)
  · obtain ⟨digest, hd⟩ := hdigest
    have hmap : (∃ b, Entry.ofValue v = .error (.broken b)) ↔ ∃ b, decodeFacts v =
        .error (.broken b) := by
      rw [ofValue_eq_map hd]
      cases decodeFacts v <;> simp [Except.map]
    rw [hmap, decodeFacts_eq_broken_iff]
    exact ⟨fun h => ⟨⟨digest, hd⟩, h⟩, Broken.facts⟩
  · rw [ofValue_of_no_digest (not_exists.1 hdigest)]
    exact iff_of_false (by simp) fun h => hdigest h.digest

/-! ## Contents -/

/-- The units of a manifest with their objects; a field that is missing or empty has none. -/
def rawUnits? (v : Value) : Option (List (String × Value)) :=
  match given? v "units" with
  | none => some []
  | some (.dict units) => some units
  | some _ => none

variable (json : String → Library.Answer String Value)

/-- The content of a file is a document of the right version with these units. -/
def HasUnits (content : List UInt8) (units : List (String × Value)) : Prop :=
  ∃ text v n, Text.ofBytes? content = some text ∧ json text = .ok v ∧
    v.get? "version" = some n ∧ n.same (.int version) = true ∧ rawUnits? v = some units

/-- The content of a file describes a manifest, entry by entry. -/
def Describes (content : List UInt8) (m : Manifest) : Prop :=
  ∃ units, HasUnits json content units ∧
    List.Forall₂ (fun u e => u.1 = e.1 ∧ Entry.Described u.2 e.2) units m.entries

/-- The library breaks down on the content of a file, or the first entry that is not described is
broken. -/
inductive Broken (content : List UInt8) : Prop
  | document {text what : String} (htext : Text.ofBytes? content = some text)
      (h : json text = .error (.broken what))
  | entry {before behind : List (String × Value)} {unit : String} {v : Value}
      (hunits : HasUnits json content (before ++ (unit, v) :: behind))
      (hbefore : ∀ u ∈ before, ∃ e, Entry.Described u.2 e) (h : Entry.Broken v)

/-- The entry of a unit. -/
def entryOf (u : String × Value) : Except Fault (String × Entry) := (Entry.ofValue u.2).map (u.1, ·)

theorem entriesOf_eq_mapM (units : List (String × Value)) :
    entriesOf units = units.mapM entryOf := by
  induction units with
  | nil => rfl
  | cons u rest ih =>
    rw [entriesOf, List.mapM_cons, ih, entryOf]
    cases Entry.ofValue u.2 <;> rfl

theorem entryOf_eq_ok_iff {u : String × Value} {e : String × Entry} :
    entryOf u = .ok e ↔ u.1 = e.1 ∧ Entry.Described u.2 e.2 := by
  rw [← Entry.ofValue_eq_ok_iff, entryOf]
  constructor
  · intro h
    obtain ⟨entry, hentry, rfl⟩ := Value.map_eq_ok h
    exact ⟨rfl, hentry⟩
  · rintro ⟨hunit, hentry⟩
    rw [hentry, Except.map, hunit]

theorem entryOf_eq_broken_iff {u : String × Value} :
    (∃ b, entryOf u = .error (.broken b)) ↔ Entry.Broken u.2 := by
  rw [← Entry.ofValue_eq_broken_iff, entryOf]
  cases Entry.ofValue u.2 <;> simp [Except.map]

variable {json} {content : List UInt8}

/-- The units of a document are different. -/
theorem nodup_of_hasUnits (hjson : ∀ text v, json text = .ok v → v.Distinct)
    {units : List (String × Value)} (h : HasUnits json content units) :
    (units.map (·.1)).Nodup := by
  obtain ⟨text, v, n, -, hread, -, -, hunits⟩ := h
  unfold rawUnits? at hunits
  split at hunits
  · cases hunits
    exact .nil
  · rename_i found hgiven
    cases hunits
    -- the units are the names of an object inside the document
    have hget : v.get? "units" = some (.dict units) := (Option.filter_eq_some_iff.1 hgiven).1
    cases hjson text v hread with
    | dict _ hfields =>
      obtain ⟨f, hf, hdict⟩ := Option.map_eq_some_iff.1 hget
      have hdistinct := hfields f (List.mem_of_find?_eq_some hf)
      rw [hdict] at hdistinct
      cases hdistinct with
      | dict hkeys _ => exact hkeys
    | null | bool b | int n | float x | str s | list _ => cases hget
  · cases hunits

theorem ofValue_eq_units {v n : Value} (hversion : v.get? "version" = some n)
    (hsame : n.same (.int version) = true) (path : Path) :
    ofValue path v = match rawUnits? v with
      | none => .error (.bad (.unitsNotAnObject path))
      | some units => (units.mapM entryOf).map .ofList := by
  rw [ofValue, hversion]
  simp only [if_pos hsame]
  rw [rawUnits?]
  cases given? v "units" with
  | none => rfl
  | some w =>
    cases w with
    | dict units => exact congrArg (Except.map Table.ofList) (entriesOf_eq_mapM units)
    | null | bool b | int n | float x | str s | list items => rfl

theorem ofBytes_of_hasUnits {units : List (String × Value)} (h : HasUnits json content units)
    (path : Path) : ofBytes json path content = (units.mapM entryOf).map .ofList := by
  obtain ⟨text, v, n, htext, hjson, hversion, hsame, hunits⟩ := h
  simp only [ofBytes, htext, hjson]
  rw [ofValue_eq_units hversion hsame, hunits]

theorem ofBytes_of_broken {text what : String} (htext : Text.ofBytes? content = some text)
    (h : json text = .error (.broken what)) (path : Path) :
    ofBytes json path content = .error (.broken (.document what)) := by
  simp only [ofBytes, htext, h]

/-- A content without units is no manifest, or the library breaks down on it. -/
theorem ofBytes_of_not_hasUnits (h : ∀ units, ¬ HasUnits json content units) (path : Path) :
    (∃ e, ofBytes json path content = .error (.bad e)) ∨
      ∃ text what, Text.ofBytes? content = some text ∧ json text = .error (.broken what) := by
  unfold ofBytes
  split
  · exact .inl ⟨_, rfl⟩
  · rename_i text htext
    split
    · exact .inl ⟨_, rfl⟩
    · rename_i what hjson
      exact .inr ⟨text, what, htext, hjson⟩
    · rename_i v hjson
      cases hversion : v.get? "version" with
      | none =>
        rw [ofValue, hversion]
        exact .inl ⟨_, rfl⟩
      | some n =>
        by_cases hsame : n.same (.int version) = true
        · rw [ofValue_eq_units hversion hsame]
          cases hunits : rawUnits? v with
          | none => exact .inl ⟨_, rfl⟩
          | some units => exact absurd ⟨text, v, n, htext, hjson, hversion, hsame, hunits⟩ (h units)
        · rw [ofValue, hversion]
          simp only [if_neg hsame]
          exact .inl ⟨_, rfl⟩

theorem map_unit_eq {units : List (String × Value)} {es : List (String × Entry)}
    (h : List.Forall₂ (fun u e => u.1 = e.1 ∧ Entry.Described u.2 e.2) units es) :
    units.map (·.1) = es.map (·.1) := by
  induction h with
  | nil => rfl
  | cons he _ ih => rw [List.map_cons, List.map_cons, he.1, ih]

/-- **All or nothing**: a content is read as a manifest exactly if it describes it. -/
theorem ofBytes_eq_ok_iff (hjson : ∀ text v, json text = .ok v → v.Distinct) (path : Path)
    {m : Manifest} : ofBytes json path content = .ok m ↔ Describes json content m := by
  have htable {units : List (String × Value)} (hunits : HasUnits json content units)
      {es : List (String × Entry)}
      (h : List.Forall₂ (fun u e => u.1 = e.1 ∧ Entry.Described u.2 e.2) units es) :
      Table.ofList es = ⟨es⟩ :=
    Table.ofList_of_nodup (map_unit_eq h ▸ nodup_of_hasUnits hjson hunits)
  constructor
  · intro hok
    by_cases hunits : ∃ units, HasUnits json content units
    · obtain ⟨units, hunits⟩ := hunits
      rw [ofBytes_of_hasUnits hunits] at hok
      obtain ⟨es, hes, rfl⟩ := Value.map_eq_ok hok
      simp only [mapM_eq_ok_iff, entryOf_eq_ok_iff] at hes
      rw [htable hunits hes]
      exact ⟨units, hunits, hes⟩
    · rcases ofBytes_of_not_hasUnits (not_exists.1 hunits) path
        with ⟨e, he⟩ | ⟨text, what, htext, hbroken⟩
      · rw [he] at hok
        cases hok
      · rw [ofBytes_of_broken htext hbroken] at hok
        cases hok
  · rintro ⟨units, hunits, hes⟩
    have hread : units.mapM entryOf = .ok m.entries := by
      simp only [mapM_eq_ok_iff, entryOf_eq_ok_iff]
      exact hes
    rw [ofBytes_of_hasUnits hunits, hread, Except.map, htable hunits hes]

theorem ofBytes_eq_broken_iff (path : Path) :
    (∃ b, ofBytes json path content = .error (.broken b)) ↔ Broken json content := by
  constructor
  · rintro ⟨x, hx⟩
    -- without units only the library can be at fault, with them only an entry
    by_cases hunits : ∃ units, HasUnits json content units
    · obtain ⟨units, hunits⟩ := hunits
      have hfail : units.mapM entryOf = .error (.broken x) := by
        rw [ofBytes_of_hasUnits hunits] at hx
        revert hx
        cases units.mapM entryOf <;> simp [Except.map]
      obtain ⟨before, u, behind, rfl, hbefore, hu⟩ := mapM_eq_error_iff.1 hfail
      refine .entry hunits (fun b hb => ?_) (entryOf_eq_broken_iff.1 ⟨x, hu⟩)
      obtain ⟨e, he⟩ := hbefore b hb
      exact ⟨e.2, (entryOf_eq_ok_iff.1 he).2⟩
    · rcases ofBytes_of_not_hasUnits (not_exists.1 hunits) path
        with ⟨e, he⟩ | ⟨text, what, htext, hbroken⟩
      · rw [he] at hx
        cases hx
      · exact .document htext hbroken
  · intro h
    cases h with
    | document htext hbroken => exact ⟨_, ofBytes_of_broken htext hbroken path⟩
    | @entry before behind unit v hunits hbefore h =>
      obtain ⟨x, hx⟩ := (entryOf_eq_broken_iff (u := (unit, v))).2 h
      refine ⟨x, ?_⟩
      have hfail : (before ++ (unit, v) :: behind).mapM entryOf = .error (.broken x) := by
        refine mapM_eq_error_iff.2 ⟨before, _, behind, rfl, fun b hb => ?_, hx⟩
        obtain ⟨e, he⟩ := hbefore b hb
        exact ⟨(b.1, e), entryOf_eq_ok_iff.2 ⟨rfl, he⟩⟩
      rw [ofBytes_of_hasUnits hunits, hfail]
      rfl

/-! ## Loading -/

open Machine (host)

/-- **Loading is all or nothing, and fails only on what is broken.** For every content of the file,
loading fails exactly if the content is broken. Otherwise it gives the manifest that the content
describes, or an empty one if it describes none. A fact cannot be decoded exactly if it is broken.
Of the library it is assumed that the names in an object are different. -/
theorem load_cases (lib : Library) (hjson : ∀ text v, lib.json text = .ok v → v.Distinct)
    (path : Path) (machine : Machine) (content : List UInt8)
    (h : machine.disk.read path = .ok content) :
    ((∃ e, ((load host lib.json path).run.run machine).1 = .error e) ↔ Broken lib.json content) ∧
    (∀ m, ((load host lib.json path).run.run machine).1 = .ok m ↔
      Describes lib.json content m ∨
        m = ∅ ∧ ¬ Broken lib.json content ∧ ∀ m', ¬ Describes lib.json content m') ∧
    ∀ v, (∃ e, Fact.ofValue v = .error e) ↔ ∃ fields, v = .dict fields ∧ Fact.Broken fields := by
  obtain ⟨machine', -, -, -, hrun⟩ := Project.run_load lib path machine
  have hok (m : Manifest) : ofBytes lib.json path content = .ok m ↔ Describes lib.json content m :=
    ofBytes_eq_ok_iff hjson path
  have hbroken : (∃ b, ofBytes lib.json path content = .error (.broken b)) ↔
      Broken lib.json content := ofBytes_eq_broken_iff path
  rw [hrun]
  simp only [Project.heldAt, h, ← hok, ← hbroken]
  refine ⟨?_, fun m => ?_, fun v => Fact.ofValue_eq_error_iff⟩
  all_goals rcases ofBytes lib.json path content with (e | e) | found
  all_goals simp [eq_comm]

/-- A call whose place has no line. -/
def brokenCall : List (String × Value) :=
  [("t", .str "call"), ("caller", (Symbol.body "a").toValue), ("callee", (Symbol.body "b").toValue),
    ("site", .list [.str "a.py"])]

/-- A manifest with one unit, which has the given fact. -/
def oneFact (fact : Value) : Value :=
  .dict [("version", .int version),
    ("units", .dict [("a.py", .dict [("digest", .str ""), ("facts", .list [fact])])])]

/-- The bytes of the text of a value. -/
def bytesOf (v : Value) : List UInt8 := (Text.toBytes? (v.toJsonLines 0)).getD []

/-- A machine with the text of a value as its only file. -/
def holding (v : Value) : Machine := { disk := { nodes := ⟨[(["facts"], .file (bytesOf v))]⟩ } }

theorem read_holding (v : Value) : (holding v).disk.read (.ofText "facts") = .ok (bytesOf v) := rfl

theorem storable_oneFact {fact : Value} (h : Value.Storable fact) :
    Value.Storable (oneFact fact) := by
  refine .dict (by simp) ?_
  have hentry : Value.Storable (.dict [("digest", .str ""), ("facts", .list [fact])]) := by
    refine .dict (by simp) ?_
    simp only [List.forall_mem_cons, List.not_mem_nil, false_imp_iff, implies_true, and_true]
    exact ⟨.str "", .list (by simpa using h)⟩
  simp only [List.forall_mem_cons, List.not_mem_nil, false_imp_iff, implies_true, and_true]
  exact ⟨.int (Nat.one_lt_pow (by decide) (by decide)), .dict (by simp) (by simpa using hentry)⟩

theorem hasUnits_oneFact {fact : Value} (h : Value.Storable fact)
    (hencodable : (oneFact fact).encodable = true) :
    HasUnits Library.readJson (bytesOf (oneFact fact))
      [("a.py", .dict [("digest", .str ""), ("facts", .list [fact])])] := by
  rw [← Value.isSome_toBytes?_toJsonLines _ 0] at hencodable
  obtain ⟨content, hcontent⟩ := Option.isSome_iff_exists.1 hencodable
  have htext : Text.ofBytes? (bytesOf (oneFact fact)) = some ((oneFact fact).toJsonLines 0) := by
    rw [bytesOf, hcontent]
    exact Text.ofBytes?_of_toBytes? hcontent
  have hread : Library.readJson ((oneFact fact).toJsonLines 0) = .ok (oneFact fact) := by
    rw [Library.readJson, Value.ofJson_toJsonLines (storable_oneFact h)]
  exact ⟨_, oneFact fact, .int version, htext, hread, rfl, by decide, rfl⟩

theorem storable_brokenCall : Value.Storable (.dict brokenCall) := by
  refine .dict (by simp [brokenCall]) ?_
  simp only [brokenCall, List.forall_mem_cons, List.not_mem_nil, false_imp_iff,
    implies_true, and_true]
  have hzero : Short 0 := Nat.pow_pos (by decide)
  exact ⟨.str _, Symbol.storable hzero, Symbol.storable hzero, .list (by simpa using .str _)⟩

/-- The broken call ends the run, and an item that is no object resets the manifest. -/
theorem load_brokenCall :
    (∃ e, ((load host Library.standard.json (.ofText "facts")).run.run
      (holding (oneFact (.dict brokenCall)))).1 = .error e) ∧
    ((load host Library.standard.json (.ofText "facts")).run.run (holding (oneFact .null))).1 =
      .ok ∅ := by
  have hjson : Library.standard.json = Library.readJson := rfl
  have hdistinct : ∀ text v, Library.readJson text = .ok v → v.Distinct :=
    fun _ _ => distinct_of_readJson
  have hbroken := load_cases .standard hdistinct _ _ _ (read_holding (oneFact (.dict brokenCall)))
  have hstrange := load_cases .standard hdistinct _ _ _ (read_holding (oneFact .null))
  rw [hjson] at hbroken hstrange ⊢
  have hbad : ofBytes Library.readJson (.ofText "facts") (bytesOf (oneFact .null)) =
      .error (.bad (.strangeFact .null)) := by
    rw [ofBytes_of_hasUnits (hasUnits_oneFact .null (by decide +kernel))]
    rfl
  refine ⟨hbroken.1.2 ?_, (hstrange.2.1 ∅).2 (.inr ⟨rfl, ?_, fun m' => ?_⟩)⟩
  · refine .entry (hasUnits_oneFact storable_brokenCall (by decide +kernel)) (List.forall_mem_nil _)
      ⟨⟨"", rfl⟩, ?_⟩
    exact ⟨[], brokenCall, [], rfl, List.forall_mem_nil _, .site rfl rfl rfl rfl rfl rfl (.item _)⟩
  · rw [← ofBytes_eq_broken_iff (.ofText "facts")]
    rintro ⟨b, hb⟩
    cases hbad.symm.trans hb
  · rw [← ofBytes_eq_ok_iff hdistinct (.ofText "facts")]
    intro hm
    cases hbad.symm.trans hm

/-! ## Saving -/

theorem read_of_save {path : Path} {m : Manifest} {machine : Machine}
    (h : ((save host path m).run.run machine).1 = .ok true) :
    ∃ content, Text.toBytes? (toText m) = some content ∧
      ((save host path m).run.run machine).2.disk.read path = .ok content := by
  rw [Project.run_save] at h ⊢
  have hread := @Machine.read_of_save path (toText m) machine
  revert h hread
  generalize (host.save path (toText m)).run machine = saved
  obtain ⟨(_ | e) | _, machine'⟩ := saved
  · intro h
    cases h
  · intro h
    cases h
  · exact fun _ hread => hread rfl

/-- **What was saved is loaded again**: if saving says that it worked, loading gives the same
entries in the order of their units. Documents are assumed to be read as they were written, which
`readJson_toText` proves of integers that are short enough. -/
theorem load_save (lib : Library) (path : Path) (m : Manifest) (machine : Machine) (hm : m.Keyed)
    (hjson : lib.json (toText m) = .ok m.toValue)
    (hsaved : ((save host path m).run.run machine).1 = .ok true) :
    ∃ r, ((load host lib.json path).run.run ((save host path m).run.run machine).2).1 = .ok r ∧
      r.entries.Perm m.entries ∧ r.keys.Pairwise (· ≤ ·) := by
  obtain ⟨content, hcontent, hread⟩ := read_of_save hsaved
  obtain ⟨machine', -, -, -, hrun⟩ :=
    Project.run_load lib path ((save host path m).run.run machine).2
  refine ⟨sorted m, ?_, List.mergeSort_perm m.entries _, ?_⟩
  · rw [hrun, Project.heldAt, hread]
    simp only [ofBytes_of_json path hm hjson hcontent]
  · rw [Table.keys, List.pairwise_map]
    exact (pairwise_sorted m).imp of_decide_eq_true

/-- Two units, with a definition whose description has no default and a call of it. -/
def twoUnits : Manifest := ⟨[
  ("b.py", ⟨"2", "b", [.call (.body "b") ⟨"a", "f", -3⟩ ⟨"b.py", 7⟩]⟩),
  ("a.py", ⟨"1", "", [.definition ⟨"a", "f", 2⟩
    ⟨"private", "a.py", -1, .bool false, true, true, "method", ["d"], ["B"], ["x.y"],
      ⟨[("k", "v")]⟩⟩]⟩)]⟩

theorem writable_twoUnits : twoUnits.Writable where
  units := by decide
  facts := by decide +kernel

theorem saved_twoUnits :
    ((save host (.ofText "d/facts") twoUnits).run.run {}).1 = .ok true := by
  have hencodable : (Text.toBytes? (toText twoUnits)).isSome = true := by
    rw [isSome_toBytes?_toText]
    decide +kernel
  rw [Project.run_save, Machine.run_save]
  simp only [Machine.run_writeText, hencodable]
  rfl

/-- The two units are loaded from a file whose directory had to be made. -/
theorem load_twoUnits :
    ∃ r, ((load host Library.standard.json (.ofText "d/facts")).run.run
        ((save host (.ofText "d/facts") twoUnits).run.run {}).2).1 = .ok r ∧
      r.entries.Perm twoUnits.entries ∧ r.keys.Pairwise (· ≤ ·) :=
  load_save .standard (.ofText "d/facts") twoUnits {} writable_twoUnits.keyed
    (readJson_toText writable_twoUnits) saved_twoUnits

end Manifest

end Deadwood
