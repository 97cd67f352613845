import Mathlib.Algebra.BigOperators.Group.List.Basic
import Mathlib.Data.String.Basic
import Deadwood.Report.Data
import Deadwood.Proofs.Grouping

/-!
# Reports keep account of the findings

A report shows every finding twice, in the list of all issues and in the section of its file, and it
counts them over and over: for each section, for all sections together and for the ten longest ones.
All this is one account of the same issues.

* `Tallies name items counts`: the object `counts` counts the items by the text in their field
  `name`.
* `Partition issues sections`: the sections share the issues out by the path that is shown, in their
  order, and stand in the order of a report.
* `Describes s v`: the object `v` is what a report has for the section `s`.
* `data_conserves`: the report of any findings.
-/

namespace Deadwood.Report

variable {findings : List Finding}

/-! ## What a report says -/

/-- The text that an object has in a field. -/
def textAt (name : String) (v : Value) : Option String :=
  match v.get? name with
  | some (.str s) => some s
  | _ => none

/-- The object counts the items by the text in their field `name`. -/
def Tallies (name : String) (items : List Value) (counts : Value) : Prop :=
  ∃ t : Table String Nat, counts = countsValue t ∧ t.keys.Nodup ∧
    (∀ k, t.amount k = items.countP (textAt name · = some k)) ∧ t.values.sum = items.length

/-- The sections, each a path with issues, share the issues out by the path that is shown. -/
structure Partition (issues : List Value) (sections : List (String × List Value)) : Prop where
  nodup : (sections.map (·.1)).Nodup
  /-- A section has issues, and they are those of its path in the order in which they come. -/
  own : ∀ s ∈ sections, s.2 ≠ [] ∧ s.2 = issues.filter (textAt "file" · = some s.1)
  unique : ∀ i ∈ issues, ∃! s, s ∈ sections ∧ i ∈ s.2
  perm : (sections.flatMap (·.2)).Perm issues
  sum : (sections.map (·.2.length)).sum = issues.length
  /-- Those with more issues stand first, those with as many in the order of their paths. -/
  sorted : sections.Pairwise fun a b => b.2.length < a.2.length ∨
    b.2.length = a.2.length ∧ a.1 < b.1

/-- The object is the one of a section, with its own counts. -/
structure Describes (s : String × List Value) (v : Value) : Prop where
  path : v.get? "path" = some (.str s.1)
  issues : v.get? "issues" = some (.list s.2)
  count : v.get? "total_count" = some (.int s.2.length)
  bySeverity : ∃ counts, v.get? "by_severity" = some counts ∧ Tallies "severity" s.2 counts
  byAnalyzer : ∃ counts, v.get? "by_analyzer" = some counts ∧ Tallies "analyzer" s.2 counts

/-- An object among the longest sections says the same as the object of the section. -/
structure SameCounts (v top : Value) : Prop where
  path : top.get? "file" = v.get? "path"
  count : top.get? "count" = v.get? "total_count"
  bySeverity : top.get? "by_severity" = v.get? "by_severity"
  byAnalyzer : top.get? "by_analyzer" = v.get? "by_analyzer"

/-- The counts over all issues. -/
structure Totals (issues : List Value) (sections : List (String × List Value)) (stats : Value) :
    Prop where
  issueCount : stats.get? "total_issues" = some (.int issues.length)
  fileCount : stats.get? "total_files" = some (.int sections.length)
  bySeverity : ∃ counts, stats.get? "by_severity" = some counts ∧ Tallies "severity" issues counts
  byAnalyzer : ∃ counts, stats.get? "by_analyzer" = some counts ∧ Tallies "analyzer" issues counts

/-! ## Findings as issues -/

variable (directory : String)

theorem textAt_file (f : Finding) :
    textAt "file" (f.shown directory).toValue = some (displayPath directory f.location.file) := rfl

theorem textAt_severity (f : Finding) :
    textAt "severity" (f.shown directory).toValue = some f.severity := rfl

theorem textAt_analyzer (f : Finding) :
    textAt "analyzer" (f.shown directory).toValue = some f.kind.analyzer := rfl

/-- Findings with a key are counted like the issues whose field shows the key. -/
theorem countP_issues {name : String} {key : Finding → String}
    (hkey : ∀ f : Finding, textAt name (f.shown directory).toValue = some (key f))
    (fs : List Finding) (k : String) :
    (fs.map fun f => (f.shown directory).toValue).countP (textAt name · = some k) =
      fs.countP (key · = k) := by
  rw [List.countP_map]
  congr 1
  funext f
  simp [hkey]

theorem tallies_issues {name : String} {key : Finding → String}
    (hkey : ∀ f : Finding, textAt name (f.shown directory).toValue = some (key f))
    {t : Table String Nat} (hn : t.keys.Nodup)
    (hamount : ∀ k, t.amount k = findings.countP (key · = k))
    (hsum : t.values.sum = findings.length) :
    Tallies name (findings.map fun f => (f.shown directory).toValue) (countsValue t) := by
  refine ⟨t, rfl, hn, fun k => ?_, ?_⟩
  · rw [hamount, countP_issues directory hkey]
  · rw [hsum, List.length_map]

/-! ## Counts -/

theorem nodup_keys_bySeverity (fs : List Finding) : (bySeverity fs).keys.Nodup :=
  Table.nodup_keys_counted _ fs

theorem amount_bySeverity (fs : List Finding) (k : String) :
    (bySeverity fs).amount k = fs.countP (·.severity = k) :=
  Table.amount_counted _ fs k

theorem mem_keys_bySeverity {fs : List Finding} {k : String} :
    k ∈ (bySeverity fs).keys ↔ (bySeverity fs).amount k ≠ 0 :=
  Table.mem_keys_counted

theorem sum_bySeverity (fs : List Finding) : (bySeverity fs).values.sum = fs.length :=
  Table.sum_counted _ fs

theorem tallies_bySeverity (fs : List Finding) :
    Tallies "severity" (fs.map fun f => (f.shown directory).toValue)
      (countsValue (bySeverity fs)) :=
  tallies_issues directory (textAt_severity directory) (nodup_keys_bySeverity fs)
    (amount_bySeverity fs) (sum_bySeverity fs)

theorem tallies_byAnalyzer (fs : List Finding) :
    Tallies "analyzer" (fs.map fun f => (f.shown directory).toValue)
      (countsValue (byAnalyzer fs)) := by
  have hcounted := Table.nodup_keys_counted (·.kind.analyzer) fs
  have hperm : (byAnalyzer fs).entries.Perm (Table.counted (·.kind.analyzer) fs).entries :=
    List.mergeSort_perm _ _
  have hn : (byAnalyzer fs).keys.Nodup := (hperm.map _).nodup_iff.2 hcounted
  refine tallies_issues directory (textAt_analyzer directory) hn (fun k => ?_) ?_
  · rw [Table.amount, Table.findD, Table.find?_of_perm hperm hn]
    exact Table.amount_counted _ fs k
  · exact (hperm.map Prod.snd).sum_eq.trans (Table.sum_counted _ fs)

/-- A level that has no count gets the count zero, which adds nothing. -/
theorem insertNew_zero (t : Table String Nat) (k : String) : t.insertNew k 0 = t.add k 0 := rfl

theorem tallies_allSeverities (fs : List Finding) :
    Tallies "severity" (fs.map fun f => (f.shown directory).toValue)
      (countsValue (allSeverities fs)) := by
  have hzero : ∀ (levels : List String) (t : Table String Nat), t.keys.Nodup →
      (levels.foldl (fun t s => t.insertNew s 0) t).keys.Nodup ∧
      (∀ k, (levels.foldl (fun t s => t.insertNew s 0) t).amount k = t.amount k) ∧
      (levels.foldl (fun t s => t.insertNew s 0) t).values.sum = t.values.sum := by
    intro levels
    induction levels with
    | nil => exact fun t hn => ⟨hn, fun k => rfl, rfl⟩
    | cons level rest ih =>
      intro t hn
      obtain ⟨hkeys, hamount, hsum⟩ := ih (t.insertNew level 0) (Table.nodup_keys_update hn _ _)
      refine ⟨hkeys, fun k => ?_, ?_⟩
      · rw [List.foldl_cons, hamount, insertNew_zero, Table.amount_add]
        simp
      · rw [List.foldl_cons, hsum, insertNew_zero, Table.sum_values_add, Nat.add_zero]
  obtain ⟨hkeys, hamount, hsum⟩ := hzero severityOrder (bySeverity fs) (nodup_keys_bySeverity fs)
  refine tallies_issues directory (textAt_severity directory) hkeys (fun k => ?_)
    (hsum.trans (sum_bySeverity fs))
  exact (hamount k).trans (amount_bySeverity fs k)

/-! ## Sections -/

theorem byPath_eq (findings : List Finding) :
    byPath directory findings =
      .grouped (fun f => displayPath directory f.location.file) id findings := rfl

variable {directory} in
theorem mem_byPath_iff {p : String} {fs : List Finding} :
    (p, fs) ∈ (byPath directory findings).entries ↔
      p ∈ findings.map (displayPath directory ·.location.file) ∧
      fs = findings.filter (displayPath directory ·.location.file = p) := by
  rw [byPath_eq, Table.mem_grouped_iff, List.map_id]

theorem nodup_paths_byPath (findings : List Finding) :
    ((byPath directory findings).entries.map (·.1)).Nodup :=
  Table.nodup_keys_grouped _ id findings

theorem sections_perm (findings : List Finding) :
    (sections directory findings).Perm (byPath directory findings).entries :=
  List.mergeSort_perm _ _

variable {directory} in
theorem mem_sections_iff {p : String} {fs : List Finding} :
    (p, fs) ∈ sections directory findings ↔
      p ∈ findings.map (displayPath directory ·.location.file) ∧
      fs = findings.filter (displayPath directory ·.location.file = p) :=
  (sections_perm directory findings).mem_iff.trans mem_byPath_iff

theorem nodup_paths_sections (findings : List Finding) :
    ((sections directory findings).map (·.1)).Nodup :=
  ((sections_perm directory findings).map _).nodup_iff.2 (nodup_paths_byPath directory findings)

theorem flatMap_sections_perm (findings : List Finding) :
    ((sections directory findings).flatMap (·.2)).Perm findings := by
  have hgrouped := Table.flatten_grouped_perm (displayPath directory ·.location.file) id findings
  rw [List.map_id] at hgrouped
  exact ((sections_perm directory findings).flatMap_right _).trans hgrouped

theorem sectionLe_iff {a b : String × List Finding} : sectionLe a b = true ↔
    b.2.length < a.2.length ∨ b.2.length = a.2.length ∧ a.1 ≤ b.1 := by
  unfold sectionLe
  split_ifs with h
  · simp [h]
  · simp [Ne.symm h]

theorem sectionLe_trans (a b c : String × List Finding) (hab : sectionLe a b = true)
    (hbc : sectionLe b c = true) :
    sectionLe a c = true := by
  rw [sectionLe_iff] at *
  rcases hab with hab | ⟨hab, hle⟩ <;> rcases hbc with hbc | ⟨hbc, hle'⟩
  · exact .inl (hbc.trans hab)
  · exact .inl (hbc ▸ hab)
  · exact .inl (hab ▸ hbc)
  · exact .inr ⟨hbc.trans hab, String.le_trans hle hle'⟩

theorem sectionLe_total (a b : String × List Finding) :
    (sectionLe a b || sectionLe b a) = true := by
  rw [Bool.or_eq_true, sectionLe_iff, sectionLe_iff]
  rcases Nat.lt_trichotomy a.2.length b.2.length with h | h | h
  · exact .inr (.inl h)
  · rcases String.le_total a.1 b.1 with hle | hle
    · exact .inl (.inr ⟨h.symm, hle⟩)
    · exact .inr (.inr ⟨h, hle⟩)
  · exact .inl (.inl h)

/-- The sections stand strictly in order, as no path comes twice. -/
theorem sections_sorted (findings : List Finding) :
    (sections directory findings).Pairwise fun a b =>
    b.2.length < a.2.length ∨ b.2.length = a.2.length ∧ a.1 < b.1 := by
  have hle : (sections directory findings).Pairwise fun a b => sectionLe a b = true :=
    List.pairwise_mergeSort sectionLe_trans sectionLe_total _
  have hne : (sections directory findings).Pairwise fun a b => a.1 ≠ b.1 :=
    List.pairwise_map.1 (nodup_paths_sections directory findings)
  refine (hle.and hne).imp fun {a b} h => ?_
  rcases sectionLe_iff.1 h.1 with hlt | ⟨heq, hpath⟩
  · exact .inl hlt
  · exact .inr ⟨heq, Std.lt_of_le_of_ne hpath h.2⟩

/-- The sections with their issues. -/
def issueSections (findings : List Finding) : List (String × List Value) :=
  (sections directory findings).map fun s => (s.1, s.2.map fun f => (f.shown directory).toValue)

theorem filter_issues (findings : List Finding) (p : String) :
    (findings.map fun f => (f.shown directory).toValue).filter (textAt "file" · = some p) =
      (findings.filter (displayPath directory ·.location.file = p)).map fun f =>
        (f.shown directory).toValue := by
  rw [List.filter_map]
  congr 2
  funext f
  simp [textAt_file directory]

theorem partition_issueSections (findings : List Finding) :
    Partition (findings.map fun f => (f.shown directory).toValue)
      (issueSections directory findings) := by
  have hown : ∀ s ∈ issueSections directory findings, s.2 ≠ [] ∧
      s.2 = (findings.map fun f => (f.shown directory).toValue).filter
        (textAt "file" · = some s.1) := by
    rintro s hs
    obtain ⟨⟨p, fs⟩, hmem, rfl⟩ := List.mem_map.1 hs
    obtain ⟨hp, rfl⟩ := mem_sections_iff.1 hmem
    obtain ⟨f, hf, rfl⟩ := List.mem_map.1 hp
    refine ⟨?_, (filter_issues directory findings _).symm⟩
    have hkept : f ∈ findings.filter (displayPath directory ·.location.file =
      displayPath directory f.location.file) := by simp [hf]
    exact List.ne_nil_of_mem (List.mem_map_of_mem hkept)
  have hnodup : ((issueSections directory findings).map (·.1)).Nodup := by
    rw [issueSections, List.map_map]
    exact nodup_paths_sections directory findings
  have hperm : ((issueSections directory findings).flatMap (·.2)).Perm
      (findings.map fun f => (f.shown directory).toValue) := by
    have hflat : (issueSections directory findings).flatMap (·.2) =
        ((sections directory findings).flatMap (·.2)).map fun f => (f.shown directory).toValue := by
      rw [issueSections, List.flatMap_map, List.map_flatMap]
    rw [hflat]
    exact (flatMap_sections_perm directory findings).map _
  refine ⟨hnodup, hown, fun i hi => ?_, hperm, ?_, ?_⟩
  · obtain ⟨s, hs, his⟩ := List.mem_flatMap.1 (hperm.mem_iff.2 hi)
    -- The path that an issue shows tells its section.
    have hpath : ∀ s ∈ issueSections directory findings, i ∈ s.2 → textAt "file" i = some s.1 := by
      intro s hs his
      rw [(hown s hs).2] at his
      simpa using (List.mem_filter.1 his).2
    refine ⟨s, ⟨hs, his⟩, ?_⟩
    rintro s' ⟨hs', his'⟩
    have hsame : s'.1 = s.1 := Option.some_inj.1 ((hpath s' hs' his').symm.trans (hpath s hs his))
    exact List.inj_on_of_nodup_map hnodup hs' hs hsame
  · rw [← List.length_flatMap, hperm.length_eq]
  · rw [issueSections, List.pairwise_map]
    simpa using sections_sorted directory findings

/-! ## The report -/

/-- A field that the further fields do not name keeps its value. -/
theorem field?_withFields {fields extra : List (String × Value)} {name : String}
    (h : name ∉ extra.map (·.1)) :
    Value.field? (withFields fields extra) name = Value.field? fields name := by
  have hfold : ∀ (es : List (String × Value)) (t : Table String Value), name ∉ es.map (·.1) →
      (es.foldl (fun t e => t.insert e.1 e.2) t).find? name = t.find? name := by
    intro es
    induction es with
    | nil => exact fun t _ => rfl
    | cons e rest ih =>
      intro t hname
      obtain ⟨hne, hrest⟩ := not_or.1 (List.mem_cons.not.1 hname)
      rw [List.foldl_cons, ih _ hrest, Table.find?_insert_of_ne _ hne]
  exact hfold extra ⟨fields⟩ h

theorem describes_sectionValue (s : String × List Finding) :
    Describes (s.1, s.2.map fun f => (f.shown directory).toValue) (sectionValue directory s) where
  path := rfl
  issues := rfl
  count := by
    rw [List.length_map]
    rfl
  bySeverity := ⟨_, rfl, tallies_bySeverity directory s.2⟩
  byAnalyzer := ⟨_, rfl, tallies_byAnalyzer directory s.2⟩

theorem sameCounts_fileStats (s : String × List Finding) :
    SameCounts (sectionValue directory s) (fileStats s).toValue :=
  ⟨rfl, rfl, rfl, rfl⟩

theorem totals_stats (findings : List Finding) :
    Totals (findings.map fun f => (f.shown directory).toValue) (issueSections directory findings)
      (stats directory findings).toValue where
  issueCount := by
    rw [List.length_map]
    rfl
  fileCount := by
    rw [issueSections, List.length_map]
    rfl
  bySeverity := ⟨_, rfl, tallies_allSeverities directory findings⟩
  byAnalyzer := ⟨_, rfl, tallies_byAnalyzer directory findings⟩

/-- **Reports conserve findings.** The report of any findings, with any further fields that do not
overwrite its own, lists all of them as issues. Its sections share the issues out by the path that
is shown: every issue is in one section and in the order of the list, no path comes twice, and the
sections with most issues stand first. The number of issues is the total of the report, the sum over
the sections, and the sum of the counts by severity and by analyzer; the same holds inside each
section. The longest files are the first ten sections. -/
theorem data_conserves (time directory : String) (findings : List Finding)
    {extra : List (String × Value)}
    (hextra : ∀ name ∈ ["total_count", "stats", "issues", "files"], name ∉ extra.map (·.1)) :
    ∃ (issues files tops : List Value) (sections : List (String × List Value)) (stats : Value),
      issues = findings.map (fun f => (f.shown directory).toValue) ∧
      Value.field? (data time directory findings extra) "issues" = some (.list issues) ∧
      Value.field? (data time directory findings extra) "total_count" = some (.int issues.length) ∧
      Value.field? (data time directory findings extra) "files" = some (.list files) ∧
      Value.field? (data time directory findings extra) "stats" = some stats ∧
      Partition issues sections ∧ List.Forall₂ Describes sections files ∧
        Totals issues sections stats ∧
      stats.get? "top_files" = some (.list tops) ∧
        List.Forall₂ SameCounts (files.take 10) tops := by
  refine ⟨findings.map fun f => (f.shown directory).toValue,
    (sections directory findings).map (sectionValue directory),
    ((sections directory findings).take 10).map fun s =>
      (fileStats s).toValue, issueSections directory findings, (stats directory findings).toValue,
    rfl, ?_, ?_, ?_, ?_, partition_issueSections directory findings, ?_,
      totals_stats directory findings, ?_, ?_⟩
  · exact field?_withFields (hextra "issues" (by simp))
  · rw [List.length_map]
    exact field?_withFields (hextra "total_count" (by simp))
  · exact field?_withFields (hextra "files" (by simp))
  · exact field?_withFields (hextra "stats" (by simp))
  · rw [issueSections, List.forall₂_map_left_iff, List.forall₂_map_right_iff, List.forall₂_same]
    exact fun s _ => describes_sectionValue directory s
  · have htops : (stats directory findings).topFiles.map FileStats.toValue =
        ((sections directory findings).take 10).map fun s => (fileStats s).toValue := List.map_map
    rw [← htops]
    rfl
  · rw [← List.map_take, List.forall₂_map_left_iff, List.forall₂_map_right_iff, List.forall₂_same]
    exact fun s _ => sameCounts_fileStats directory s

/-- Findings in two files, one of which is written in two ways, with a severity that is no level. -/
def spreadFindings : List Finding :=
  [⟨⟨"pkg.a", "f", 0⟩, .unused, ⟨"pkg/a.py", 3⟩, "pkg.a.f/0 is unused", "hint"⟩,
    ⟨⟨"lib.b", "g", 1⟩, .recursiveOnly, ⟨"lib/b.py", 1⟩, "lib.b.g/1 is unused", "fatal"⟩,
    ⟨⟨"pkg.a", "h", 0⟩, .narrowable, ⟨"./pkg/../pkg/a.py", 9⟩,
      "pkg.a.h/0 could be private", "warning"⟩]

/-- Both ways of writing the path lead to one section with two issues. -/
theorem spreadFindings_conserved :
    ∃ (issues : List Value) (sections : List (String × List Value)) (stats : Value),
    Value.field? (data "now" "/home" spreadFindings [("warnings", .list [])]) "total_count" =
      some (.int 3) ∧
    Value.field? (data "now" "/home" spreadFindings [("warnings", .list [])]) "stats" = some stats ∧
    Partition issues sections ∧ Totals issues sections stats ∧
    ∃ s ∈ sections, s.1 = "pkg/a.py" ∧ s.2.length = 2 := by
  obtain ⟨issues, files, tops, sections, stats, rfl, -, htotal, -, hstats, hpartition, -,
      htotals, -⟩ :=
    data_conserves "now" "/home" spreadFindings
      (by decide : ∀ name ∈ ["total_count", "stats", "issues", "files"],
      name ∉ [("warnings", Value.list [])].map (·.1))
  refine ⟨_, sections, stats, htotal, hstats, hpartition, htotals, ?_⟩
  obtain ⟨s, ⟨hs, hmem⟩, -⟩ := hpartition.unique _ List.mem_cons_self
  have hown := (hpartition.own s hs).2
  have hpath : s.1 = "pkg/a.py" := by
    rw [hown] at hmem
    have hshown : some (displayPath "/home" "pkg/a.py") = some s.1 :=
      of_decide_eq_true (List.mem_filter.1 hmem).2
    have hfirst : displayPath "/home" "pkg/a.py" = "pkg/a.py" := by decide +kernel
    exact (Option.some_inj.1 hshown).symm.trans hfirst
  refine ⟨s, hs, hpath, ?_⟩
  rw [hown, hpath]
  decide +kernel

end Deadwood.Report
