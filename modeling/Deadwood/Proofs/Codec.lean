import Deadwood.Library
import Deadwood.Manifest
import Deadwood.Proofs.Json
import Deadwood.Proofs.Order

/-!
# Facts and manifests are kept as they are

What a collector knows passes through values, texts and bytes before another run reads it.

* `Fact.Keyed f`: no alias comes twice. `Fact.ofValue_toValue`: such a fact is read back from its
  value.
* `Fact.WellTyped f`: the parts of the fact have the kinds that a description can have, and so they
  can be written.
* `Manifest.Writable m`: units are different and facts well typed. `Manifest.readJson_toText`: the
  text of such a manifest is read as its value. `Manifest.ofBytes_of_json`: then its bytes are read
  as the manifest, in the order of its units.
* `Manifest.Recovers json`: what this needs of a reader of documents.
-/

namespace Deadwood

/-- An integer that is short enough to be read. -/
def Short (n : Int) : Prop := n.natAbs < 10 ^ Text.maxDigits

instance (n : Int) : Decidable (Short n) := inferInstanceAs (Decidable (_ < _))

/-! ## Symbols and places -/

theorem Symbol.ofValue_toValue (s : Symbol) : Symbol.ofValue s.toValue = .ok s := rfl

theorem Value.toIntOrZero_int (n : Int) : (Value.int n).toIntOrZero = .ok n := by
  unfold toIntOrZero truthy
  by_cases h : n = 0
  · simp [h]
  · simp [h, toInt]

theorem Location.ofValue_toValue (l : Location) : Location.ofValue l.toValue = .ok l := by
  simp only [toValue, ofValue, Value.toIntOrZero_int]
  rfl

theorem Value.storable_texts (xs : List String) : Storable (.list (xs.map .str)) := by
  refine .list fun v hv => ?_
  obtain ⟨s, -, rfl⟩ := List.mem_map.1 hv
  exact .str s

theorem Symbol.storable {s : Symbol} (h : Short s.arity) : Value.Storable s.toValue := by
  refine .list fun v hv => ?_
  simp only [List.mem_cons, List.not_mem_nil, or_false] at hv
  rcases hv with rfl | rfl | rfl
  · exact .str _
  · exact .str _
  · exact .int h

theorem Location.storable {l : Location} (h : Short l.line) : Value.Storable l.toValue := by
  refine .list fun v hv => ?_
  simp only [List.mem_cons, List.not_mem_nil, or_false] at hv
  rcases hv with rfl | rfl
  · exact .str _
  · exact .int h

/-! ## Descriptions -/

/-- A value that can stand for documentation: a text, or a mark for its absence. -/
def Value.isDocumentation : Value → Bool
  | .null | .bool _ | .str _ => true
  | _ => false

namespace Meta

/-- A description whose parts have the kinds they are meant to have. -/
structure WellTyped (m : Meta) : Prop where
  line : Short m.line
  doc : m.doc.isDocumentation = true
  aliases : m.aliases.keys.Nodup

instance (m : Meta) : Decidable m.WellTyped :=
  decidable_of_iff (Short m.line ∧ m.doc.isDocumentation = true ∧ m.aliases.keys.Nodup)
    ⟨fun ⟨hl, hd, ha⟩ => ⟨hl, hd, ha⟩, fun ⟨hl, hd, ha⟩ => ⟨hl, hd, ha⟩⟩

theorem toTexts_list (xs : List String) : (Value.list (xs.map .str)).toTexts = .ok xs := by
  cases xs with
  | nil => rfl
  | cons x rest =>
    simp [Value.toTexts, Value.truthy, Value.elements, Except.map, Function.comp_def, Value.text]

theorem aliasesOf_dict {t : Table String String} (h : t.keys.Nodup) :
    aliasesOf (.dict (t.entries.map fun e => (e.1, .str e.2))) = .ok t := by
  obtain ⟨es⟩ := t
  cases es with
  | nil => rfl
  | cons e rest =>
    simp only [aliasesOf, Value.truthy, List.map_cons, List.isEmpty_cons, Bool.not_false, if_true,
      List.map_map]
    have hpairs : (rest.map ((fun f => (f.1, f.2.text)) ∘ fun e => (e.1, Value.str e.2))) =
        rest := by
      simp [Function.comp_def, Value.text]
    rw [hpairs]
    exact congrArg Except.ok (Table.ofList_of_nodup h)

theorem ofValue_toValue {m : Meta} (h : m.aliases.keys.Nodup) : Meta.ofValue m.toValue = .ok m := by
  have hfields : Meta.ofValue m.toValue = (do
      let line ← (Value.int m.line).toIntOrZero
      let decorators ← (Value.list (m.decorators.map .str)).toTexts
      let implements ← (Value.list (m.implements.map .str)).toTexts
      let reexports ← (Value.list (m.reexports.map .str)).toTexts
      let aliases ← aliasesOf (.dict (m.aliases.entries.map fun e => (e.1, .str e.2)))
      pure { m with line, decorators, implements, reexports, aliases }) := rfl
  rw [hfields, Value.toIntOrZero_int, toTexts_list, toTexts_list, toTexts_list, aliasesOf_dict h]
  rfl

theorem storable {m : Meta} (h : m.WellTyped) : Value.Storable m.toValue := by
  refine .dict (by simp [toFields]) fun f hf => ?_
  simp only [toFields, List.mem_cons, List.not_mem_nil, or_false] at hf
  rcases hf with rfl | rfl | rfl | rfl | rfl | rfl | rfl | rfl | rfl | rfl | rfl
  · exact .str _
  · exact .str _
  · exact .int h.line
  · have hdoc := h.doc
    revert hdoc
    cases m.doc <;> intro hdoc
    case null => exact .null
    case bool b => exact .bool b
    case str s => exact .str s
    all_goals cases hdoc
  · exact .bool _
  · exact .bool _
  · exact .str _
  · exact Value.storable_texts _
  · exact Value.storable_texts _
  · exact Value.storable_texts _
  · refine .dict ?_ fun f hf => ?_
    · rw [List.map_map]
      exact h.aliases
    · obtain ⟨e, -, rfl⟩ := List.mem_map.1 hf
      exact .str _

end Meta

/-! ## Facts -/

namespace Fact

/-- A fact whose parts have the kinds they are meant to have. -/
def WellTyped : Fact → Prop
  | .definition s info => Short s.arity ∧ info.WellTyped
  | .call caller callee site => Short caller.arity ∧ Short callee.arity ∧ Short site.line

instance : DecidablePred WellTyped
  | .definition s info => inferInstanceAs (Decidable (Short s.arity ∧ info.WellTyped))
  | .call caller callee site =>
    inferInstanceAs (Decidable (Short caller.arity ∧ Short callee.arity ∧ Short site.line))

/-- No alias in the description of a definition has two meanings. -/
def Keyed : Fact → Prop
  | .definition _ info => info.aliases.keys.Nodup
  | .call .. => True

instance : DecidablePred Keyed
  | .definition _ info => inferInstanceAs (Decidable info.aliases.keys.Nodup)
  | .call .. => inferInstanceAs (Decidable True)

theorem WellTyped.keyed {f : Fact} (h : f.WellTyped) : f.Keyed := by
  cases f with
  | definition s info => exact h.2.aliases
  | call caller callee site => trivial

theorem ofValue_toValue {f : Fact} (h : f.Keyed) : Fact.ofValue f.toValue = .ok (some f) := by
  cases f with
  | definition s info =>
    have hfields : Fact.ofFields [("t", .str "def"), ("sym", s.toValue), ("meta", info.toValue)] =
      (do
        let s ← Symbol.ofValue s.toValue
        let m ← Meta.ofValue info.toValue
        pure (some (.definition s m))) := rfl
    rw [Symbol.ofValue_toValue, Meta.ofValue_toValue h] at hfields
    simp only [toValue, ofValue, hfields]
    rfl
  | call caller callee site =>
    have hfields : Fact.ofFields [("t", .str "call"), ("caller", caller.toValue),
        ("callee", callee.toValue), ("site", site.toValue)] = (do
        let caller ← Symbol.ofValue caller.toValue
        let callee ← Symbol.ofValue callee.toValue
        let site ← Location.ofValue site.toValue
        pure (some (.call caller callee site))) := rfl
    rw [Symbol.ofValue_toValue, Symbol.ofValue_toValue, Location.ofValue_toValue] at hfields
    simp only [toValue, ofValue, hfields]
    rfl

theorem storable {f : Fact} (h : f.WellTyped) : Value.Storable f.toValue := by
  cases f with
  | definition s info =>
    refine .dict (by simp) fun f hf => ?_
    simp only [List.mem_cons, List.not_mem_nil, or_false] at hf
    rcases hf with rfl | rfl | rfl
    · exact .str _
    · exact Symbol.storable h.1
    · exact Meta.storable h.2
  | call caller callee site =>
    refine .dict (by simp) fun f hf => ?_
    simp only [List.mem_cons, List.not_mem_nil, or_false] at hf
    rcases hf with rfl | rfl | rfl | rfl
    · exact .str _
    · exact Symbol.storable h.1
    · exact Symbol.storable h.2.1
    · exact Location.storable h.2.2

end Fact

/-! ## Manifests -/

namespace Manifest

theorem factsOf_toValue {facts : List Fact} (h : ∀ f ∈ facts, f.Keyed) :
    factsOf (facts.map Fact.toValue) = .ok facts := by
  induction facts with
  | nil => rfl
  | cons f rest ih =>
    have hf := Fact.ofValue_toValue (h f List.mem_cons_self)
    have hrest := ih fun g hg => h g (List.mem_cons_of_mem _ hg)
    obtain ⟨fields, hdict⟩ : ∃ fields, f.toValue = .dict fields := by
      cases f <;> exact ⟨_, rfl⟩
    rw [hdict] at hf
    simp only [List.map_cons, factsOf, hdict, hf, hrest]
    rfl

theorem Entry.ofValue_toValue {e : Entry} (h : ∀ f ∈ e.facts, f.Keyed) :
    Entry.ofValue e.toValue = .ok e := by
  obtain ⟨digest, module, facts⟩ := e
  have hdigest : (Entry.toValue ⟨digest, module, facts⟩).get? "digest" = some (.str digest) := rfl
  have hmodule : ((given? (Entry.toValue ⟨digest, module, facts⟩) "module").map Value.text).getD
    "" =
      module := by
    change (((some (Value.str module)).filter Value.truthy).map Value.text).getD "" = module
    by_cases hm : module = ""
    · subst hm
      rfl
    · have htruthy : (Value.str module).truthy = true := by simp [Value.truthy, hm]
      rw [Option.filter_some, if_pos htruthy]
      rfl
  have hfacts : given? (Entry.toValue ⟨digest, module, facts⟩) "facts" =
      (some (Value.list (facts.map Fact.toValue))).filter Value.truthy := rfl
  have hread := factsOf_toValue h
  rw [Entry.ofValue, hdigest]
  simp only [hmodule, hfacts]
  cases facts with
  | nil => rfl
  | cons f rest =>
    simp only [Option.filter_some, Value.truthy, List.map_cons, List.isEmpty_cons,
      Bool.not_false, if_true]
    rw [← List.map_cons, hread]
    rfl

theorem Entry.storable {e : Entry} (h : ∀ f ∈ e.facts, f.WellTyped) : Value.Storable e.toValue := by
  refine .dict (by simp) fun f hf => ?_
  simp only [List.mem_cons, List.not_mem_nil, or_false] at hf
  rcases hf with rfl | rfl | rfl
  · exact .str _
  · exact .str _
  · refine .list fun v hv => ?_
    obtain ⟨f, hf, rfl⟩ := List.mem_map.1 hv
    exact Fact.storable (h f hf)

/-- Neither a unit nor an alias of a description comes twice. -/
structure Keyed (m : Manifest) : Prop where
  units : m.keys.Nodup
  facts : ∀ e ∈ m.entries, ∀ f ∈ e.2.facts, f.Keyed

theorem Keyed.sorted {m : Manifest} (h : m.Keyed) : (sorted m).Keyed where
  units := ((List.mergeSort_perm m.entries _).map _).nodup_iff.2 h.units
  facts e he := h.facts e (List.mem_mergeSort.1 he)

/-- A manifest that can be kept: its units are different and its facts well typed. -/
structure Writable (m : Manifest) : Prop where
  units : m.keys.Nodup
  facts : ∀ e ∈ m.entries, ∀ f ∈ e.2.facts, f.WellTyped

theorem Writable.keyed {m : Manifest} (h : m.Writable) : m.Keyed where
  units := h.units
  facts e he f hf := (h.facts e he f hf).keyed

theorem Writable.sorted {m : Manifest} (h : m.Writable) : (sorted m).Writable where
  units := ((List.mergeSort_perm m.entries _).map _).nodup_iff.2 h.units
  facts e he := h.facts e (List.mem_mergeSort.1 he)

theorem entriesOf_toValue {es : List (String × Entry)} (h : ∀ e ∈ es, ∀ f ∈ e.2.facts, f.Keyed) :
    entriesOf (es.map fun e => (e.1, e.2.toValue)) = .ok es := by
  induction es with
  | nil => rfl
  | cons e rest ih =>
    have he := Entry.ofValue_toValue (h e List.mem_cons_self)
    have hrest := ih fun g hg => h g (List.mem_cons_of_mem _ hg)
    simp only [List.map_cons, entriesOf, he, hrest]
    rfl

theorem ofValue_toValue (path : Path) {m : Manifest} (h : m.Keyed) :
    Manifest.ofValue path m.toValue = .ok (sorted m) := by
  have hversion : (toValue m).get? "version" = some (.int version) := rfl
  have hunits : given? (toValue m) "units" =
      (some (Value.dict ((sorted m).entries.map fun e => (e.1, e.2.toValue)))).filter
        Value.truthy := rfl
  have hsame : Value.same (.int version) (.int version) = true := by decide
  have hread := entriesOf_toValue h.sorted.facts
  have htable := Table.ofList_of_nodup h.sorted.units
  simp only [Manifest.ofValue, hversion, hsame, if_true, hunits]
  generalize sorted m = s at *
  obtain ⟨es⟩ := s
  cases es with
  | nil => rfl
  | cons e rest =>
    simp only [Option.filter_some, Value.truthy, List.map_cons, List.isEmpty_cons,
      Bool.not_false, if_true]
    simp only [List.map_cons] at hread
    rw [hread]
    exact congrArg Except.ok htable

theorem storable {m : Manifest} (h : m.Writable) : Value.Storable m.toValue := by
  refine .dict (by simp) fun f hf => ?_
  simp only [List.mem_cons, List.not_mem_nil, or_false] at hf
  rcases hf with rfl | rfl
  · exact .int (Nat.one_lt_pow (by decide) (by decide))
  · refine .dict ?_ fun f hf => ?_
    · rw [List.map_map]
      exact h.sorted.units
    · obtain ⟨e, he, rfl⟩ := List.mem_map.1 hf
      exact Entry.storable (h.sorted.facts e he)

/-- **A manifest is kept**: its text is read as its value. -/
theorem readJson_toText {m : Manifest} (h : m.Writable) :
    Library.readJson (toText m) = .ok m.toValue := by
  rw [Library.readJson, toText, Value.ofJson_toJsonLines (storable h)]

theorem distinct_of_readJson {text : String} {v : Value} (h : Library.readJson text = .ok v) :
    v.Distinct := by
  unfold Library.readJson at h
  split at h
  · rename_i w hjson
    obtain rfl := Except.ok.inj h
    exact Value.distinct_of_ofJson hjson
  · cases h
  · cases h

/-- The bytes of a text that is read as the value of a manifest are read as the manifest. -/
theorem ofBytes_of_json {json : String → Library.Answer String Value} (path : Path) {m : Manifest}
    (h : m.Keyed) (hjson : json (toText m) = .ok m.toValue) {content : List UInt8}
    (hcontent : Text.toBytes? (toText m) = some content) :
    Manifest.ofBytes json path content = .ok (sorted m) := by
  unfold ofBytes
  simp only [Text.ofBytes?_of_toBytes? hcontent, hjson]
  exact ofValue_toValue path h

/-- The content of an empty file is no manifest, if the reader refuses the empty text. -/
theorem ofBytes_nil {json : String → Library.Answer String Value} {reason : String}
    (h : json "" = .error (.refused reason)) (path : Path) :
    Manifest.ofBytes json path [] = .error (.bad (.corrupt path reason)) := by
  have hempty : Text.ofBytes? [] = some "" := Text.ofBytes?_of_toBytes? (by decide +kernel)
  simp only [ofBytes, hempty, h]

/-- What is assumed of a reader of documents: the texts of manifests are read as they were written,
and the empty text is refused. -/
structure Recovers (json : String → Library.Answer String Value) : Prop where
  written : ∀ m : Manifest, m.Writable → json (toText m) = .ok m.toValue
  empty : ∃ reason, json "" = .error (.refused reason)

theorem recovers_readJson : Recovers Library.readJson where
  written _ := readJson_toText
  empty := ⟨_, rfl⟩

theorem pairwise_sorted (m : Manifest) :
    (sorted m).entries.Pairwise fun a b => decide (a.1 ≤ b.1) = true :=
  (pairwise_sortBy Prod.fst m.entries).imp decide_eq_true

theorem sorted_sorted (m : Manifest) : sorted (sorted m) = sorted m :=
  congrArg Table.mk (List.mergeSort_of_pairwise (pairwise_sorted m))

/-- What is written of a manifest does not depend on the order of its entries in the table. -/
theorem toValue_sorted (m : Manifest) : toValue (sorted m) = toValue m := by
  rw [toValue, toValue, sorted_sorted]

theorem toText_sorted (m : Manifest) : toText (sorted m) = toText m := by
  rw [toText, toText, toValue_sorted]

end Manifest

end Deadwood
