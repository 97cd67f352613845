import Deadwood.Proofs.Run

/-!
# Entries of manifests that are what collecting yields

A run may take the facts of a source from a manifest when its digest and its module are the same.
That is right as long as every entry of the manifest is what collecting some content with that
digest yields.

* `Genuine statements seen unit e`: the entry is what collecting one of the readings in `seen`
  yields.
* `Faithful statements seen`: no two contents that were read have the same digest, and what they
  yield is well typed.
* `Alike related x y`: two computations give related values or end for the same reason.
  `collectAll_empty`: with genuine entries, reusing facts only marks them as reused. `result_anew`:
  the mark plays no part in the result.
* `genuine_of_sublist`: the entries that a run keeps are genuine.
* `Held statements seen content`: a file with this content holds genuine entries or nothing;
  `Held.read`: they are read as such.
-/

namespace Deadwood.Project

open Machine Collect

/-- A source and the content that a run read of it. -/
abbrev Reading := SourceFile × List UInt8

variable (statements : List UInt8 → Except Source.Fault (List Source.Stmt))

/-! ## Genuine entries -/

/-- The entry is what collecting one of the readings of its unit yields. -/
def Genuine (seen : List Reading) (unit : String) (e : Manifest.Entry) : Prop :=
  ∃ s content, (s, content) ∈ seen ∧ s.unit = unit ∧ s.module = e.module ∧
    digest content = e.digest ∧
    collect statements e.module unit content = .ok ⟨unit, e.module, e.digest, e.facts⟩

/-- What is assumed of the contents that runs read: their digests tell them apart, and the facts
that they yield are well typed. -/
structure Faithful (seen : List Reading) : Prop where
  injective : ∀ x ∈ seen, ∀ y ∈ seen, digest x.2 = digest y.2 → x.2 = y.2
  typed : ∀ x ∈ seen, ∀ u, collect statements x.1.module x.1.unit x.2 = .ok u →
    ∀ f ∈ u.facts, f.WellTyped

instance (seen : List Reading) : Decidable (Faithful statements seen) :=
  decidable_of_iff ((∀ x ∈ seen, ∀ y ∈ seen, digest x.2 = digest y.2 → x.2 = y.2) ∧
      ∀ x ∈ seen, ∀ u ∈ (collect statements x.1.module x.1.unit x.2).toOption,
        ∀ f ∈ u.facts, f.WellTyped)
    ⟨fun ⟨hi, ht⟩ => ⟨hi, fun x hx u hu => ht x hx u (by rw [hu]; rfl)⟩,
      fun ⟨hi, ht⟩ => ⟨hi, fun x hx u hu => ht x hx u (by
        cases hc : collect statements x.1.module x.1.unit x.2 with
        | error e =>
          rw [hc] at hu
          cases hu
        | ok v =>
          rw [hc] at hu
          cases hu
          rfl)⟩⟩

/-- The readings among some sources. -/
def readingsOf (texts : List SourceText) : List Reading :=
  texts.filterMap fun s => s.content.toOption.map (s.source, ·)

variable {statements} in
theorem collect_eq_ok {module unit : String} {content : List UInt8} {u : UnitFacts}
    (h : collect statements module unit content = .ok u) :
    u = ⟨unit, module, digest content, u.facts⟩ := by
  unfold collect at h
  split at h
  · cases h
  · split at h
    · cases h
    · cases h
      rfl

/-! ## Computations that are alike -/

/-- Two computations give values that are so related, or end for the same reason. -/
def Alike {ε α β : Type} (related : α → β → Prop) : Except ε α → Except ε β → Prop
  | .ok a, .ok b => related a b
  | .error e, .error e' => e = e'
  | _, _ => False

section Alike

variable {ε ζ α β α' β' : Type} {related : α → β → Prop} {related' : α' → β' → Prop}

theorem Alike.refl (x : Except ε α) : Alike Eq x x := by cases x <;> rfl

theorem Alike.mapError {x : Except ε α} {y : Except ε β} (h : Alike related x y) (wrap : ε → ζ) :
    Alike related (x.mapError wrap) (y.mapError wrap) := by
  cases x <;> cases y
  case error.error => exact congrArg wrap h
  case ok.ok => exact h
  all_goals exact h.elim

theorem Alike.bind {x : Except ε α} {y : Except ε β} (h : Alike related x y) {f : α → Except ε α'}
    {g : β → Except ε β'} (hfg : ∀ a b, related a b → Alike related' (f a) (g b)) :
    Alike related' (x >>= f) (y >>= g) := by
  cases x <;> cases y
  case ok.ok a b => exact hfg a b h
  case error.error => exact h
  all_goals exact h.elim

end Alike

/-! ## Collecting -/

/-- What becomes of a source when nothing is reused. -/
def Collected.anew : Collected → Collected
  | .reused u => .fresh u
  | c => c

theorem Collected.facts?_anew (c : Collected) : c.anew.facts? = c.facts? := by cases c <;> rfl

theorem Collected.failed?_anew (c : Collected) : c.anew.failed? = c.failed? := by cases c <;> rfl

theorem Collected.isBlank_anew (c : Collected) : c.anew.isBlank = c.isBlank := by cases c <;> rfl

section Collect

variable {statements} {seen : List Reading} {previous : Manifest}

theorem genuine_of_reusable? (hprevious : ∀ e ∈ previous.entries, Genuine statements seen e.1 e.2)
    {s : SourceFile} {content : List UInt8} {e : Manifest.Entry}
    (h : reusable? previous s content = some e) :
    Genuine statements seen s.unit e ∧ e.digest = digest content ∧ e.module = s.module := by
  obtain ⟨hfind, hsame⟩ := Option.filter_eq_some_iff.1 h
  simp only [Bool.and_eq_true, decide_eq_true_eq] at hsame
  exact ⟨hprevious _ (Table.mem_of_find? hfind), hsame.1, hsame.2⟩

/-- An entry that is reused for a content is what collecting that content yields. -/
theorem collect_of_reusable? (hseen : Faithful statements seen)
    (hprevious : ∀ e ∈ previous.entries, Genuine statements seen e.1 e.2) {s : SourceFile}
    {content : List UInt8} (hs : (s, content) ∈ seen) {e : Manifest.Entry}
    (h : reusable? previous s content = some e) :
    collect statements s.module s.unit content = .ok ⟨s.unit, s.module, e.digest, e.facts⟩ := by
  obtain ⟨⟨t, old, ht, -, -, hdigest, hcollect⟩, he, hmodule⟩ := genuine_of_reusable? hprevious h
  have hcontent : old = content := hseen.injective _ ht _ hs (hdigest.trans he)
  rw [← hmodule, ← hcontent]
  exact hcollect

/-- Reusing facts changes nothing but the mark that they were reused. -/
theorem anew_collectOne (hseen : Faithful statements seen)
    (hprevious : ∀ e ∈ previous.entries, Genuine statements seen e.1 e.2) {s : SourceText}
    (hs : ∀ content, s.content = .ok content → (s.source, content) ∈ seen) :
    (collectOne statements previous s).anew = collectOne statements ∅ s := by
  unfold collectOne
  cases hc : s.content with
  | error e => rfl
  | ok content =>
    have hempty : reusable? ∅ s.source content = none := rfl
    simp only [hempty]
    cases hr : reusable? previous s.source content with
    | none =>
      simp only
      cases collect statements s.source.module s.source.unit content <;> rfl
    | some e =>
      rw [collect_of_reusable? hseen hprevious (hs content hc) hr]
      rfl

theorem mem_seen_of_readingsOf {texts : List SourceText} (h : ∀ x ∈ readingsOf texts, x ∈ seen)
    {s : SourceText} (hs : s ∈ texts) (content : List UInt8) (hc : s.content = .ok content) :
    (s.source, content) ∈ seen :=
  h _ (List.mem_filterMap.2 ⟨s, hs, by rw [hc]; rfl⟩)

/-- Collecting without a manifest is collecting with one, the mark of reuse left out. -/
theorem collectAll_empty (hseen : Faithful statements seen)
    (hprevious : ∀ e ∈ previous.entries, Genuine statements seen e.1 e.2) {texts : List SourceText}
    (htexts : ∀ x ∈ readingsOf texts, x ∈ seen) :
    Alike (fun c c' => c' = c.map Collected.anew) (collectAll statements previous texts)
      (collectAll statements ∅ texts) := by
  have hmap : texts.map (collectOne statements ∅) =
      (texts.map (collectOne statements previous)).map Collected.anew := by
    rw [List.map_map]
    refine List.map_congr_left fun s hs => ?_
    exact (anew_collectOne hseen hprevious (mem_seen_of_readingsOf htexts hs)).symm
  have hblank : ((texts.map (collectOne statements previous)).map Collected.anew).any
    Collected.isBlank =
      (texts.map (collectOne statements previous)).any Collected.isBlank := by
    simp [List.any_map, Function.comp_def, Collected.isBlank_anew]
  unfold collectAll
  rw [hmap]
  simp only [hblank]
  split
  · exact rfl
  · exact rfl

/-- Everything that a run collects is genuine, the facts that it reuses too. -/
theorem genuine_of_mem_facts (hprevious : ∀ e ∈ previous.entries, Genuine statements seen e.1 e.2)
    {texts : List SourceText} (htexts : ∀ x ∈ readingsOf texts, x ∈ seen) {u : UnitFacts}
    (hu : u ∈ Collection.facts (texts.map (collectOne statements previous))) :
    Genuine statements seen u.unit ⟨u.digest, u.module, u.facts⟩ := by
  obtain ⟨c, hc, hfacts⟩ := List.mem_filterMap.1 hu
  obtain ⟨s, hs, rfl⟩ := List.mem_map.1 hc
  unfold collectOne at hfacts
  cases hcontent : s.content with
  | error e =>
    simp only [hcontent] at hfacts
    cases hfacts
  | ok content =>
    simp only [hcontent] at hfacts
    cases hr : reusable? previous s.source content with
    | some e =>
      simp only [hr] at hfacts
      cases hfacts
      obtain ⟨hgenuine, -, hmodule⟩ := genuine_of_reusable? hprevious hr
      rw [← hmodule]
      exact hgenuine
    | none =>
      simp only [hr] at hfacts
      cases hcollect : collect statements s.source.module s.source.unit content with
      | error reason =>
        simp only [hcollect] at hfacts
        cases hfacts
      | ok u' =>
        simp only [hcollect] at hfacts
        cases hfacts
        have hu := collect_eq_ok hcollect
        rw [hu] at hcollect ⊢
        exact ⟨s.source, content, mem_seen_of_readingsOf htexts hs content hcontent, rfl, rfl, rfl,
          hcollect⟩

end Collect

/-! ## The result -/

/-- The results agree in all but how many sources were collected anew and how many reused. -/
def Result.Agrees (r r' : Result) : Prop :=
  r = { r' with summary := { r'.summary with
    collected := r.summary.collected, reused := r.summary.reused } }

theorem facts_anew (c : Collection) : Collection.facts (c.map Collected.anew) = c.facts := by
  simp only [Collection.facts, List.filterMap_map, Function.comp_def, Collected.facts?_anew]

theorem failed_anew (c : Collection) : Collection.failed (c.map Collected.anew) = c.failed := by
  simp only [Collection.failed, List.filterMap_map, Function.comp_def, Collected.failed?_anew]

/-- The mark of reuse plays no part in the result. -/
theorem result_anew (config : Config) (specs : List Ignore.Spec) (c : Collection) :
    Alike Result.Agrees (result config specs c) (result config specs (c.map Collected.anew)) := by
  have hgraph : graphOf (c.map Collected.anew) = graphOf c := by
    simp only [graphOf, allFacts, Collection.units, facts_anew, failed_anew]
  have hwarnings : Collection.warnings (c.map Collected.anew) = c.warnings := by
    simp only [Collection.warnings, failed_anew]
  unfold result
  simp only [hgraph, hwarnings, failed_anew, List.length_map]
  refine (Alike.refl (analyze (graphOf c) (optionsOf config specs))).bind ?_
  rintro analysis _ rfl
  refine (Alike.refl (Ignore.reject analysis.findings specs (graphOf c).nodes)).bind ?_
  rintro findings _ rfl
  exact rfl

/-! ## The file of a manifest -/

/-- The content of a file is the text of a manifest whose entries are genuine, or there is none: a
text that has no encoding leaves an empty file. -/
def Held (seen : List Reading) (content : List UInt8) : Prop :=
  content = [] ∨ ∃ manifest : Manifest, manifest.keys.Nodup ∧
    (∀ e ∈ manifest.entries, Genuine statements seen e.1 e.2) ∧
    Text.toBytes? (Manifest.toText manifest) = some content

section Held

variable {lib : Library} {seen : List Reading} {d : Disk}

variable {statements} in
theorem Genuine.typed (hseen : Faithful statements seen) {unit : String} {e : Manifest.Entry}
    (h : Genuine statements seen unit e) : ∀ f ∈ e.facts, f.WellTyped := by
  obtain ⟨s, content, hs, rfl, hmodule, -, hcollect⟩ := h
  rw [← hmodule] at hcollect
  exact hseen.typed _ hs _ hcollect

/-- A file that holds genuine entries is read as such. -/
theorem Held.read (hjson : Manifest.Recovers lib.json) (hseen : Faithful lib.statements seen)
    {content : List UInt8} (h : Held lib.statements seen content) (path : Path) :
    (content = [] ∧ ∃ e, Manifest.ofBytes lib.json path content = .error (.bad e)) ∨
    ∃ manifest, Text.toBytes? (Manifest.toText manifest) = some content ∧
      Manifest.ofBytes lib.json path content = .ok manifest ∧ manifest.keys.Nodup ∧
      ∀ e ∈ manifest.entries, Genuine lib.statements seen e.1 e.2 := by
  rcases h with rfl | ⟨manifest, hkeys, hgenuine, hcontent⟩
  · obtain ⟨reason, hempty⟩ := hjson.empty
    exact .inl ⟨rfl, _, Manifest.ofBytes_nil hempty path⟩
  · have hwritable : manifest.Writable := ⟨hkeys, fun e he => (hgenuine e he).typed hseen⟩
    have hread := Manifest.ofBytes_of_json path hwritable.keyed (hjson.written _ hwritable) hcontent
    refine .inr ⟨manifest.sorted, ?_, hread, hwritable.sorted.units, fun e he => ?_⟩
    · rw [Manifest.toText_sorted, hcontent]
    · exact hgenuine e (List.mem_mergeSort.1 he)

/-- What a run takes from the file of a manifest is genuine, if the file holds genuine entries. -/
theorem genuine_heldAt (hjson : Manifest.Recovers lib.json) (hseen : Faithful lib.statements seen)
    {path : Option Path} (h : ∀ p ∈ path, ∀ content, d.fileAt? (p.place d.home) = some content →
      Held lib.statements seen content) :
    ∃ manifest, heldAt lib d path = .ok manifest ∧ manifest.keys.Nodup ∧
      ∀ e ∈ manifest.entries, Genuine lib.statements seen e.1 e.2 := by
  have hempty : (∅ : Manifest).keys.Nodup ∧
      ∀ e ∈ (∅ : Manifest).entries, Genuine lib.statements seen e.1 e.2 :=
    ⟨List.nodup_nil, fun e he => by cases he⟩
  cases path with
  | none => exact ⟨∅, rfl, hempty⟩
  | some p =>
    rw [heldAt]
    cases hread : d.read p with
    | error e => exact ⟨∅, rfl, hempty⟩
    | ok content =>
      rcases (h p rfl content (Disk.fileAt?_of_read hread)).read hjson hseen p with
        ⟨-, e, he⟩ | ⟨manifest, -, hm, hkeys, hgenuine⟩
      · exact ⟨∅, by simp only [he], hempty⟩
      · exact ⟨manifest, by simp only [hm], hkeys, hgenuine⟩

variable {statements} in
/-- The entries that a run may keep are genuine. -/
theorem genuine_of_sublist {previous : Manifest} (hkeys : previous.keys.Nodup)
    (hprevious : ∀ e ∈ previous.entries, Genuine statements seen e.1 e.2)
    {texts : List SourceText} (htexts : ∀ x ∈ readingsOf texts, x ∈ seen)
    {kept : List (String × Manifest.Entry)} (hkept : kept.Sublist
      (previous.merge (Collection.manifest (texts.map (collectOne statements previous)))).entries) :
    (kept.map (·.1)).Nodup ∧ ∀ e ∈ kept, Genuine statements seen e.1 e.2 := by
  let fresh := Collection.manifest (texts.map (collectOne statements previous))
  have hfresh : ∀ e ∈ fresh.entries, Genuine statements seen e.1 e.2 := by
    intro e he
    rcases (Table.entries_foldl_insert _ (∅ : Manifest) List.nodup_nil).2 e he with h | h
    · cases h
    · obtain ⟨u, hu, rfl⟩ := List.mem_map.1 h
      exact genuine_of_mem_facts hprevious htexts hu
  obtain ⟨hnodup, hmem⟩ := Table.entries_foldl_insert fresh.entries previous hkeys
  have hperm := List.mergeSort_perm
    (fresh.entries.foldl (fun t e => t.insert e.1 e.2) previous).entries fun a b => a.1 ≤ b.1
  refine ⟨((hperm.map _).nodup_iff.2 hnodup).sublist (hkept.map _), fun e he => ?_⟩
  rcases hmem e (hperm.mem_iff.1 (hkept.subset he)) with h | h
  · exact hprevious e h
  · exact hfresh e h

variable {statements} in
/-- What is written of genuine entries is held by a file, though nothing if they have no
encoding. -/
theorem held_of_genuine {kept : List (String × Manifest.Entry)} (hkeys : (kept.map (·.1)).Nodup)
    (h : ∀ e ∈ kept, Genuine statements seen e.1 e.2) :
    Held statements seen ((Text.toBytes? (Manifest.toText ⟨kept⟩)).getD []) := by
  cases hcontent : Text.toBytes? (Manifest.toText ⟨kept⟩) with
  | none => exact .inl rfl
  | some content => exact .inr ⟨⟨kept⟩, hkeys, h, hcontent⟩

end Held

end Deadwood.Project
