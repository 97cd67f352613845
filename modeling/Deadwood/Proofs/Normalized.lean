import Deadwood.Proofs.ManifestFile

/-!
# Reading settles what is written

Reading a fact is lenient: texts, numbers and conditions are made from whatever stands there, and
parts that are missing or empty have defaults. What results does not change any more: written and
read again it is the same.

* `Fact.keyed_of_ofValue`: no alias of a fact that was read has two meanings;
  `Fact.exists_ofValue_iff` says that these are all facts that can be read.
* `Manifest.keyed_of_ofValue`: the same of a manifest, whose units are different as well.
* `reading_settles`: facts are settled when they have been read, manifests when they have been read
  and written once.
-/

namespace Deadwood

open Project (bind_eq_ok)

/-! ## Facts -/

theorem Meta.nodup_of_aliasesOf {v : Value} {t : Table String String} (h : aliasesOf v = .ok t) :
    t.keys.Nodup := by
  unfold aliasesOf at h
  split at h
  · split at h
    · cases h
      exact Table.nodup_keys_ofList _
    · cases h
  · cases h
    exact List.nodup_nil

theorem Meta.nodup_of_ofValue {v : Value} {m : Meta} (h : Meta.ofValue v = .ok m) :
    m.aliases.keys.Nodup := by
  cases v with
  | dict fields =>
    -- the aliases are read last
    obtain ⟨line, -, h⟩ := bind_eq_ok h
    obtain ⟨decorators, -, h⟩ := bind_eq_ok h
    obtain ⟨implements, -, h⟩ := bind_eq_ok h
    obtain ⟨reexports, -, h⟩ := bind_eq_ok h
    obtain ⟨aliases, haliases, h⟩ := bind_eq_ok h
    cases h
    exact nodup_of_aliasesOf haliases
  | null | bool b | int n | float x | str s | list items => cases h

namespace Fact

theorem keyed_of_ofFields {fields : List (String × Value)} {f : Fact}
    (h : ofFields fields = .ok (some f)) :
    f.Keyed := by
  unfold ofFields at h
  split at h
  · obtain ⟨sym, -, h⟩ := bind_eq_ok h
    obtain ⟨s, -, h⟩ := bind_eq_ok h
    obtain ⟨m, hm, h⟩ := bind_eq_ok h
    cases h
    exact Meta.nodup_of_ofValue hm
  · obtain ⟨caller, -, h⟩ := bind_eq_ok h
    obtain ⟨caller', -, h⟩ := bind_eq_ok h
    obtain ⟨callee, -, h⟩ := bind_eq_ok h
    obtain ⟨callee', -, h⟩ := bind_eq_ok h
    obtain ⟨site, -, h⟩ := bind_eq_ok h
    cases h
    trivial
  · cases h

theorem keyed_of_ofValue {v : Value} {f : Fact} (h : Fact.ofValue v = .ok (some f)) : f.Keyed := by
  cases v with
  | dict fields =>
    cases hfields : ofFields fields with
    | error e =>
      simp only [ofValue, hfields] at h
      split at h <;> cases h
    | ok found =>
      simp only [ofValue, hfields, Except.ok.injEq] at h
      exact keyed_of_ofFields (h ▸ hfields)
  | null | bool b | int n | float x | str s | list items => cases h

/-- The facts that can be read are those in which no alias has two meanings. -/
theorem exists_ofValue_iff {f : Fact} : (∃ v, Fact.ofValue v = .ok (some f)) ↔ f.Keyed := by
  constructor
  · rintro ⟨v, h⟩
    exact keyed_of_ofValue h
  · exact fun h => ⟨f.toValue, ofValue_toValue h⟩

end Fact

/-! ## Manifests -/

namespace Manifest

theorem Entry.Described.keyed {v : Value} {e : Entry} (h : Entry.Described v e) :
    ∀ f ∈ e.facts, f.Keyed := by
  obtain ⟨raw, -, hfacts⟩ := h.facts
  intro f hf
  obtain ⟨r, -, hr⟩ := exists_of_mem_right hfacts hf
  exact Fact.keyed_of_ofValue hr

theorem keyed_of_entries {units : List (String × Value)} {es : List (String × Entry)}
    (h : units.mapM entryOf = .ok es) : Keyed (Table.ofList es) where
  units := Table.nodup_keys_ofList es
  facts e he := by
    obtain ⟨u, -, hu⟩ := exists_of_mem_right (mapM_eq_ok_iff.1 h) (Table.mem_of_mem_ofList he)
    exact (entryOf_eq_ok_iff.1 hu).2.keyed

theorem keyed_of_ofValue {path : Path} {v : Value} {m : Manifest}
    (h : Manifest.ofValue path v = .ok m) : m.Keyed := by
  cases hversion : v.get? "version" with
  | none =>
    rw [Manifest.ofValue, hversion] at h
    cases h
  | some n =>
    by_cases hsame : n.same (.int version) = true
    · rw [ofValue_eq_units hversion hsame] at h
      cases hunits : rawUnits? v with
      | none =>
        rw [hunits] at h
        cases h
      | some units =>
        rw [hunits] at h
        obtain ⟨es, hes, rfl⟩ := Value.map_eq_ok h
        exact keyed_of_entries hes
    · simp [Manifest.ofValue, hversion, hsame] at h

/-- **Reading settles what is written.** A fact that was read, whatever it was read from, is written
so that it is read as the same fact; every fact in which no alias has two meanings can be read. A
manifest that was read is settled, too, except for the order of its units, in which it is written
and read the next time. -/
theorem reading_settles (path : Path) :
    (∀ v f, Fact.ofValue v = .ok (some f) → Fact.ofValue f.toValue = .ok (some f)) ∧
    (∀ f, (∃ v, Fact.ofValue v = .ok (some f)) ↔ f.Keyed) ∧
    ∀ v m, Manifest.ofValue path v = .ok m → Manifest.ofValue path m.toValue = .ok (sorted m) ∧
      Manifest.ofValue path (sorted m).toValue = .ok (sorted m) ∧ (sorted m).toValue =
        m.toValue := by
  refine ⟨fun v f h => Fact.ofValue_toValue (Fact.keyed_of_ofValue h),
    fun f => Fact.exists_ofValue_iff, ?_⟩
  intro v m h
  have hread := ofValue_toValue path (keyed_of_ofValue h)
  exact ⟨hread, by rw [toValue_sorted, hread], toValue_sorted m⟩

/-- A definition that was written by hand, with parts of other kinds than are written. -/
def handwritten : Value :=
  .dict [("t", .str "def"), ("sym", .list [.int 1, .bool true, .str " 2 "]), ("note", .null),
    ("meta", .dict [("line", .str "٧"), ("doc", .list [.null]), ("export", .str "no"),
      ("decorators", .str "ab"),
      ("reexports", .dict [("x", .null)]), ("aliases", .dict [("k", .bool false), ("l", .int 3)])])]

/-- The definition that is read. -/
def handwrittenFact : Fact :=
  .definition ⟨"1", "True", 2⟩ {
    line := 7, doc := .list [.null], «export» := true, decorators := ["a", "b"], reexports := ["x"]
    aliases := ⟨[("k", "False"), ("l", "3")]⟩ }

theorem handwritten_settled : Fact.ofValue handwritten = .ok (some handwrittenFact) ∧
    Fact.ofValue handwrittenFact.toValue = .ok (some handwrittenFact) := by
  have hread : Fact.ofValue handwritten = .ok (some handwrittenFact) := by rfl
  exact ⟨hread, (reading_settles ⟨"", []⟩).1 _ _ hread⟩

end Manifest

end Deadwood
