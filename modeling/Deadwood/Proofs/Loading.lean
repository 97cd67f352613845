import Deadwood.Proofs.Json
import Deadwood.Proofs.Run

/-!
# How loading a configuration fails

Loading a file should give a configuration or say what is wrong with it. `Breakdown` lists the
contents for which it does neither, and `load_regular_iff` says that there are no others, whether
the file is named or found. Nothing is assumed of the libraries that read documents and check
options.

* `Unshowable v`: no configuration, and no message can show it.
* `Gives lib file p content v`: what is loaded from the content is `v`.
* `BadTools v`: not the table of tools, and yet the table of this tool is looked for in it.
* `ofContent`: what the content of a file gives, `run_loadFile`: which is what loading the file
  gives.
* `Chosen d p file`: on this disk the file to load is `p`.
-/

namespace Deadwood

namespace Text

theorem occursIn_iff {p cs : List Char} : occursIn p cs = true ↔ p <:+: cs := by
  induction cs with
  | nil => simp [occursIn]
  | cons c rest ih => simp [occursIn, ih, List.infix_cons_iff]

theorem contains_iff {s p : String} :
    contains s p = true ↔ ∃ before after, s = before ++ p ++ after := by
  rw [contains, occursIn_iff]
  constructor
  · rintro ⟨before, after, h⟩
    refine ⟨.ofList before, .ofList after, String.toList_injective ?_⟩
    simp [← h]
  · rintro ⟨before, after, rfl⟩
    exact ⟨before.toList, after.toList, by simp⟩

end Text

namespace Config

open Machine Project

/-- Loading gives a configuration, with one of the four severities, or says what is wrong with
it. -/
def Regular (x : Except LoadError Config) : Prop :=
  (∃ c, x = .ok c ∧ c.severity.text ∈ ["hint", "information", "warning", "error"]) ∨
    ∃ e, x = .error (.invalid e)

theorem regular_ok (c : Config) : Regular (.ok c) := by
  refine .inl ⟨c, rfl, ?_⟩
  cases c.severity <;> simp [Severity.text]

theorem regular_invalid (e : Error) : Regular (.error (.invalid e)) := .inr ⟨e, rfl⟩

/-! ## Values -/

/-- A value that is no object and cannot be shown, as if there is a number with too many digits in
it. -/
def Unshowable (v : Setting) : Prop := (∀ fields, v ≠ .dict fields) ∧ v.isShown = false

theorem fieldsOf_of_unshowable {v : Setting} (h : Unshowable v) :
    fieldsOf v = .error (.notAnObject v) := by
  unfold fieldsOf
  split
  · simp [Unshowable, Setting.isShown] at h
  · exact absurd rfl (h.1 _)
  · rfl

/-- If a value is no object, this can be said unless the value is unshowable. -/
theorem isShown_of_fieldsOf {v : Setting} (hv : ¬ Unshowable v) {e : Error}
    (h : fieldsOf v = .error e) :
    e.isShown = true := by
  unfold fieldsOf at h
  split at h
  · cases h
  · cases h
  · rename_i hdict
    cases h
    by_contra hshown
    exact hv ⟨hdict, by simpa [Error.isShown] using hshown⟩

theorem isShown_of_severityOf {s : String} {e : Error} (h : severityOf (.str s) = .error e) :
    e.isShown = true := by
  unfold severityOf at h
  split at h
  · cases h
  · cases h
    rfl

/-- Options that were checked have a severity that can be shown. -/
theorem isShown_of_override {c : Config} (o : Options) {e : Error}
    (h : c.override o.given = .error e) :
    e.isShown = true := by
  obtain ⟨s, hs⟩ := o.severity_text
  unfold override at h
  rw [hs] at h
  cases s with
  | none => cases h
  | some s =>
    cases hseverity : severityOf (.str s) with
    | error e' =>
      simp only [Option.map_some, hseverity] at h
      cases h
      exact isShown_of_severityOf hseverity
    | ok severity =>
      simp only [Option.map_some, hseverity] at h
      cases h

section

variable {options : List (Setting × Setting) → Library.Answer (List Problem) Options} {v : Setting}
  (sources : Bool)

theorem ofSetting_of_unshowable (hv : Unshowable v) :
    ofSetting options sources v = .error .notShown := by
  have hshown : (Error.notAnObject v).isShown = false := hv.2
  rw [ofSetting, fieldsOf_of_unshowable hv, LoadError.lift, hshown]
  rfl

theorem ofSetting_of_broken {fields : List (Setting × Setting)} (hfields : fieldsOf v = .ok fields)
    {what : String} (h : options fields = .error (.broken what)) :
    ofSetting options sources v = .error (.broken what) := by
  rw [ofSetting, hfields, LoadError.lift, ok_bind, h]
  rfl

theorem regular_ofSetting (hv : ¬ Unshowable v) (h : ∀ fields what, fieldsOf v = .ok fields →
    options fields ≠ .error (.broken what)) : Regular (ofSetting options sources v) := by
  unfold ofSetting
  cases hfields : fieldsOf v with
  | error e =>
    rw [LoadError.lift, if_pos (isShown_of_fieldsOf hv hfields)]
    exact regular_invalid e
  | ok fields =>
    rw [LoadError.lift, ok_bind]
    rcases hoptions : options fields with (ps | what) | o
    · exact regular_invalid (.problems ps)
    · exact absurd hoptions (h fields what hfields)
    · rw [LoadError.answer, ok_bind]
      cases hoverride : (initial sources).override o.given with
      | ok c => exact regular_ok c
      | error e =>
        rw [LoadError.lift, if_pos (isShown_of_override o hoverride)]
        exact regular_invalid e

end

/-! ## The table of tools -/

/-- What stands for the table of tools is none, and yet the table of this tool is looked for in it:
a text or a list has the name of the tool in it, and a value of another kind is not looked into at
all. -/
inductive BadTools : Setting → Prop
  | text (before after : String) : BadTools (.str (before ++ toolName ++ after))
  | list {items : List Setting} (h : .str toolName ∈ items) : BadTools (.list items)
  | other {v : Setting} (hdict : ∀ fields, v ≠ .dict fields) (hlist : ∀ items, v ≠ .list items)
      (hstr : ∀ s, v ≠ .str s) : BadTools v

theorem isToolName_iff {v : Setting} : isToolName v = true ↔ v = .str toolName := by
  unfold isToolName
  split
  · simp
  · rename_i hstr
    simpa using hstr toolName

theorem not_badTools_dict (fields : List (Setting × Setting)) : ¬ BadTools (.dict fields) := by
  intro h
  cases h with
  | other hdict => exact hdict fields rfl

theorem namesTool_of_badTools {v : Setting} (h : BadTools v) :
    namesTool v = .error .toolsNotATable ∨ namesTool v = .ok true := by
  cases h with
  | text before after =>
    right
    rw [namesTool, Text.contains_iff.2 ⟨before, after, rfl⟩]
  | list hitem =>
    right
    rw [namesTool, List.any_eq_true.2 ⟨_, hitem, isToolName_iff.2 rfl⟩]
  | other hdict hlist hstr =>
    left
    unfold namesTool
    split
    · exact absurd rfl (hdict _)
    · exact absurd rfl (hlist _)
    · exact absurd rfl (hstr _)
    · rfl

/-- Where the table of tools is a table or says nothing of this tool, all goes well. -/
theorem namesTool_of_not_badTools {v : Setting} (h : ¬ BadTools v) :
    (∃ fields, v = .dict fields) ∨ namesTool v = .ok false := by
  unfold namesTool
  split
  · exact .inl ⟨_, rfl⟩
  · rename_i items
    right
    by_contra hany
    obtain ⟨item, hitem, hname⟩ : ∃ item ∈ items, isToolName item = true := by simpa using hany
    exact h (.list (isToolName_iff.1 hname ▸ hitem))
  · rename_i s
    right
    by_contra hin
    obtain ⟨before, after, rfl⟩ := Text.contains_iff.1 (by simpa using hin)
    exact h (.text before after)
  · rename_i hdict hlist hstr
    exact absurd (.other hdict hlist hstr) h

/-! ## Texts -/

/-- The ending of a YAML file. -/
def IsYaml (p : Path) : Prop := Text.lower p.suffix = ".yaml" ∨ Text.lower p.suffix = ".yml"

/-- The ending of a TOML file. -/
def IsToml (p : Path) : Prop := Text.lower p.suffix = ".toml"

theorem IsToml.not_isYaml {p : Path} (h : IsToml p) : ¬ IsYaml p := by
  unfold IsToml at h
  simp [IsYaml, h]

/-- What is loaded from the content of a file: all that a YAML text says, if this is anything; the
table for this tool in a TOML text, or the whole table if there is none for this tool. The file for
all tools is not loaded without a table for this one, unless it is named. -/
inductive Gives (lib : Library) (file : Option Path) (p : Path) (content : List UInt8) :
    Setting → Prop
  | yaml (hp : IsYaml p) {text : String} (htext : Text.ofBytes? content = some text) {v : Setting}
      (h : lib.yaml (Source.lineFeeds text.toList) = .ok v) (hv : isNothing v = false) :
      Gives lib file p content v
  | tool (hp : IsToml p) {text : String} (htext : Text.ofBytes? content = some text)
      {table tools : Toml.Fields} (h : lib.toml text.toList = .ok table)
      (htools : Setting.field? table "tool" = some (.dict tools)) {v : Setting}
      (htool : Setting.field? tools toolName = some v) : Gives lib file p content v
  | whole (hp : IsToml p) {text : String} (htext : Text.ofBytes? content = some text)
      {table : Toml.Fields} (h : lib.toml text.toList = .ok table)
      (hnone : hasToolSection table = .ok false) (hfile : p.name = projectFile → file ≠ none) :
      Gives lib file p content (.dict (if p.name = projectFile then [] else table))

/-- The content of a file breaks loading, and how it does. -/
inductive Breakdown (lib : Library) (file : Option Path) (p : Path) (content : List UInt8) :
    LoadError → Prop
  /-- The content is no text. -/
  | notText (hp : IsYaml p ∨ IsToml p) (h : Text.ofBytes? content = none) :
      Breakdown lib file p content .notText
  /-- The reader of YAML breaks down. -/
  | yaml (hp : IsYaml p) {text what : String} (htext : Text.ofBytes? content = some text)
      (h : lib.yaml (Source.lineFeeds text.toList) = .error (.broken what)) :
      Breakdown lib file p content (.broken what)
  /-- The reader of TOML breaks down. -/
  | toml (hp : IsToml p) {text what : String} (htext : Text.ofBytes? content = some text)
      (h : lib.toml text.toList = .error (.broken what)) :
        Breakdown lib file p content (.broken what)
  /-- What a TOML text has for the table of tools is none. -/
  | tools (hp : IsToml p) {text : String} (htext : Text.ofBytes? content = some text)
      {table : Toml.Fields} (h : lib.toml text.toList = .ok table) {v : Setting}
      (htools : Setting.field? table "tool" = some v) (hv : BadTools v) :
      Breakdown lib file p content .toolsNotATable
  /-- What is loaded is no object, and no message can show what it is. -/
  | shown {v : Setting} (hgives : Gives lib file p content v) (hv : Unshowable v) :
      Breakdown lib file p content .notShown
  /-- The check of options breaks down. -/
  | options {v : Setting} (hgives : Gives lib file p content v) {fields : List (Setting × Setting)}
      (hfields : fieldsOf v = .ok fields) {what : String}
      (h : lib.options fields = .error (.broken what)) : Breakdown lib file p content (.broken what)

section

variable {lib : Library} {file : Option Path} {p : Path} {content : List UInt8} {text : String}
  {table : Toml.Fields} (sources : Bool)

theorem not_regular_of_breakdown {e : LoadError} (h : Breakdown lib file p content e) :
    ¬ Regular (.error e) := by
  rintro (⟨c, hc, -⟩ | ⟨e', he'⟩)
  · cases hc
  · cases h <;> cases he'

/-- What is loaded is checked, unless loading breaks before. -/
theorem Gives.regular {v : Setting} (hgives : Gives lib file p content v)
    (h : ∀ e, ¬ Breakdown lib file p content e) : Regular (ofSetting lib.options sources v) :=
  regular_ofSetting sources (fun hv => h _ (.shown hgives hv)) fun _ _ hfields hbroken =>
    h _ (.options hgives hfields hbroken)

/-! ### YAML -/

theorem textOfFile_of_text (htext : Text.ofBytes? content = some text) :
    textOfFile content = .ok text.toList := by
  rw [textOfFile, htext]

theorem textOfFile_of_no_text (h : Text.ofBytes? content = none) :
    textOfFile content = .error .notText := by
  rw [textOfFile, h]

theorem ofYaml_of_ok (htext : Text.ofBytes? content = some text) {v : Setting}
    (h : lib.yaml (Source.lineFeeds text.toList) = .ok v) : ofYaml lib sources p content =
      if isNothing v then .ok (initial sources) else ofSetting lib.options sources v := by
  rw [ofYaml, textOfFile_of_text htext, ok_bind, h, LoadError.answer, ok_bind]

theorem regular_ofYaml (hp : IsYaml p) (h : ∀ e, ¬ Breakdown lib file p content e) :
    Regular (ofYaml lib sources p content) := by
  cases htext : Text.ofBytes? content with
  | none => exact absurd (.notText (.inl hp) htext) (h _)
  | some text =>
    rcases hread : lib.yaml (Source.lineFeeds text.toList) with (reason | what) | v
    · rw [ofYaml, textOfFile_of_text htext, ok_bind, hread]
      exact regular_invalid _
    · exact absurd (.yaml hp htext hread) (h _)
    · rw [ofYaml_of_ok sources htext hread]
      split_ifs with hv
      · exact regular_ok _
      · exact (Gives.yaml hp htext hread (by simpa using hv)).regular sources h

/-! ### TOML -/

/-- Where the table of tools has something for this tool, that is what is loaded. -/
theorem hasToolSection_of_tool {tools : Toml.Fields} {v : Setting}
    (htools : Setting.field? table "tool" = some (.dict tools))
    (htool : Setting.field? tools toolName = some v) :
    hasToolSection table = .ok true ∧ toolSection table = .ok v := by
  constructor
  · simp [hasToolSection, htools, namesTool, Toml.hasField, htool]
  · simp [toolSection, htools, htool]

/-- What stands for the table of tools has nothing for this tool, or is a table that has. -/
theorem hasToolSection_cases (h : ∀ v, Setting.field? table "tool" = some v → ¬ BadTools v) :
    hasToolSection table = .ok false ∨ ∃ tools v, Setting.field? table "tool" = some (.dict tools) ∧
      Setting.field? tools toolName = some v := by
  cases htools : Setting.field? table "tool" with
  | none => exact .inl (by simp [hasToolSection, htools])
  | some v =>
    rcases namesTool_of_not_badTools (h v htools) with ⟨tools, rfl⟩ | hnames
    · cases htool : Setting.field? tools toolName with
      | none => exact .inl (by simp [hasToolSection, htools, namesTool, Toml.hasField, htool])
      | some v => exact .inr ⟨tools, v, rfl, htool⟩
    · exact .inl (by simpa [hasToolSection, htools] using hnames)

theorem hasToolSection_of_badTools {v : Setting} (h : Setting.field? table "tool" = some v)
    (hv : BadTools v) :
    (hasToolSection table = .error .toolsNotATable ∨ hasToolSection table = .ok true) ∧
      toolSection table = .error .toolsNotATable := by
  unfold hasToolSection toolSection
  rw [h]
  refine ⟨namesTool_of_badTools hv, ?_⟩
  split
  · rename_i heq
    cases heq
    exact absurd hv (not_badTools_dict _)
  · rfl

/-- What a TOML file gives is found in its table. -/
theorem ofToml_of_ok (htext : Text.ofBytes? content = some text)
    (hread : lib.toml text.toList = .ok table) :
    ofToml lib sources p content = hasToolSection table >>= fun has =>
      (if has then toolSection table
        else pure (.dict (if p.name = projectFile then [] else table))) >>=
      ofSetting lib.options sources := by
  rw [ofToml, textOfFile_of_text htext, ok_bind, hread, LoadError.answer, ok_bind]
  cases hasToolSection table with
  | error e => rfl
  | ok has => cases has <;> rfl

theorem ofToml_of_badTools {v : Setting} (htext : Text.ofBytes? content = some text)
    (hread : lib.toml text.toList = .ok table) (h : Setting.field? table "tool" = some v)
    (hv : BadTools v) : ofToml lib sources p content = .error .toolsNotATable := by
  rw [ofToml_of_ok sources htext hread]
  obtain ⟨hhas | hhas, hsection⟩ := hasToolSection_of_badTools h hv
  · rw [hhas]
    rfl
  · rw [hhas, ok_bind, if_pos rfl, hsection]
    rfl

theorem regular_ofToml (hp : IsToml p) (hfile : ∀ text table, Text.ofBytes? content = some text →
      lib.toml text.toList = .ok table → hasToolSection table = .ok false →
      p.name = projectFile → file ≠ none)
    (h : ∀ e, ¬ Breakdown lib file p content e) : Regular (ofToml lib sources p content) := by
  cases htext : Text.ofBytes? content with
  | none => exact absurd (.notText (.inr hp) htext) (h _)
  | some text =>
    rcases hread : lib.toml text.toList with (reason | what) | table
    · rw [ofToml, textOfFile_of_text htext, ok_bind, hread]
      exact regular_invalid _
    · exact absurd (.toml hp htext hread) (h _)
    · rw [ofToml_of_ok sources htext hread]
      rcases hasToolSection_cases fun v hv hbad => h _ (.tools hp htext hread hv hbad) with
        hnone | ⟨tools, v, htools, htool⟩
      · rw [hnone, ok_bind, if_neg (by decide)]
        exact (Gives.whole hp htext hread hnone (hfile text table htext hread hnone)).regular
          sources h
      · obtain ⟨hhas, hsection⟩ := hasToolSection_of_tool htools htool
        rw [hhas, ok_bind, if_pos rfl, hsection, ok_bind]
        exact (Gives.tool hp htext hread htools htool).regular sources h

/-! ### Either -/

variable (lib) in
/-- The configuration in the content of a file, whose ending says how it is written. -/
def ofContent (p : Path) (content : List UInt8) : Except LoadError Config :=
  if Text.lower p.suffix = ".yaml" || Text.lower p.suffix = ".yml" then ofYaml lib sources p content
  else if Text.lower p.suffix = ".toml" then ofToml lib sources p content
  else .error (.invalid (.unknownFormat (Text.lower p.suffix)))

theorem ofContent_of_isYaml (h : IsYaml p) (content : List UInt8) :
    ofContent lib sources p content = ofYaml lib sources p content :=
  if_pos (by simpa [IsYaml] using h)

theorem ofContent_of_isToml (h : IsToml p) (content : List UInt8) :
    ofContent lib sources p content = ofToml lib sources p content := by
  rw [ofContent, if_neg (by simpa [IsYaml] using h.not_isYaml)]
  exact if_pos h

/-- What is to be loaded is checked. -/
theorem Gives.ofContent_eq {v : Setting} (h : Gives lib file p content v) :
    ofContent lib sources p content = ofSetting lib.options sources v := by
  cases h with
  | yaml hp htext hread hv =>
    rw [ofContent_of_isYaml sources hp, ofYaml_of_ok sources htext hread, hv]
    rfl
  | tool hp htext hread htools htool =>
    obtain ⟨hhas, hsection⟩ := hasToolSection_of_tool htools htool
    rw [ofContent_of_isToml sources hp, ofToml_of_ok sources htext hread, hhas, ok_bind, if_pos rfl,
      hsection, ok_bind]
  | whole hp htext hread hnone =>
    rw [ofContent_of_isToml sources hp, ofToml_of_ok sources htext hread, hnone, ok_bind]
    rfl

/-- A content that breaks loading breaks it in the way it is said to. -/
theorem ofContent_of_breakdown {e : LoadError} (h : Breakdown lib file p content e) :
    ofContent lib sources p content = .error e := by
  cases h with
  | notText hp hnone =>
    rcases hp with hp | hp
    · rw [ofContent_of_isYaml sources hp, ofYaml, textOfFile_of_no_text hnone]
      rfl
    · rw [ofContent_of_isToml sources hp, ofToml, textOfFile_of_no_text hnone]
      rfl
  | yaml hp htext hread =>
    rw [ofContent_of_isYaml sources hp, ofYaml, textOfFile_of_text htext, ok_bind, hread]
    rfl
  | toml hp htext hread =>
    rw [ofContent_of_isToml sources hp, ofToml, textOfFile_of_text htext, ok_bind, hread]
    rfl
  | tools hp htext hread htools hv =>
    rw [ofContent_of_isToml sources hp]
    exact ofToml_of_badTools sources htext hread htools hv
  | shown hgives hv =>
    rw [hgives.ofContent_eq]
    exact ofSetting_of_unshowable sources hv
  | options hgives hfields hbroken =>
    rw [hgives.ofContent_eq]
    exact ofSetting_of_broken sources hfields hbroken

/-! ## Which files count -/

variable (lib) in
/-- Whether a file counts as a configuration file: the one for all tools has to have a table for
this one. -/
def counts (p : Path) (content : List UInt8) : Except LoadError Bool :=
  if p.name = projectFile then hasSection lib content else .ok true

theorem isToml_of_name (h : p.name = projectFile) : IsToml p := by
  unfold IsToml Path.suffix
  rw [h]
  decide +kernel

theorem hasSection_of_ok (htext : Text.ofBytes? content = some text)
    (hread : lib.toml text.toList = .ok table) : hasSection lib content = hasToolSection table := by
  rw [hasSection, textOfFile_of_text htext, ok_bind, hread]

theorem regular_ofContent (hcounts : counts lib p content = .ok false → file ≠ none)
    (h : ∀ e, ¬ Breakdown lib file p content e) : Regular (ofContent lib sources p content) := by
  by_cases hyaml : IsYaml p
  · rw [ofContent_of_isYaml sources hyaml]
    exact regular_ofYaml sources hyaml h
  · by_cases htoml : IsToml p
    · rw [ofContent_of_isToml sources htoml]
      refine regular_ofToml sources htoml (fun text table htext hread hnone hname => hcounts ?_) h
      rw [counts, if_pos hname, hasSection_of_ok htext hread, hnone]
    · unfold IsToml at htoml
      rw [ofContent, if_neg (by simpa [IsYaml] using hyaml), if_neg htoml]
      exact regular_invalid _

/-- Where loading a file that is not named breaks, the file is loaded, or else looking into it
breaks in the same way. -/
theorem counts_of_breakdown {e : LoadError} (h : Breakdown lib none p content e) :
    counts lib p content = .error e ∨ counts lib p content = .ok true := by
  unfold counts
  split_ifs with hname
  · have htoml := isToml_of_name hname
    have hgiven {v : Setting} (hgives : Gives lib none p content v) :
        hasSection lib content = .ok true := by
      cases hgives with
      | yaml hyaml => exact absurd hyaml htoml.not_isYaml
      | tool _ htext hread htools htool =>
        rw [hasSection_of_ok htext hread]
        exact (hasToolSection_of_tool htools htool).1
      | whole _ _ _ _ hfile => exact absurd rfl (hfile hname)
    cases h with
    | notText _ hnone =>
      rw [hasSection, textOfFile_of_no_text hnone]
      exact .inl rfl
    | yaml hyaml => exact absurd hyaml htoml.not_isYaml
    | toml _ htext hread =>
      rw [hasSection, textOfFile_of_text htext, ok_bind, hread]
      exact .inl rfl
    | tools _ htext hread htools hv =>
      rw [hasSection_of_ok htext hread]
      exact (hasToolSection_of_badTools htools hv).1
    | shown hgives => exact .inr (hgiven hgives)
    | options hgives => exact .inr (hgiven hgives)
  · exact .inr rfl

/-- Looking into a file breaks only where loading it does. -/
theorem exists_counts (h : ∀ e, ¬ Breakdown lib file p content e) :
    ∃ b, counts lib p content = .ok b := by
  unfold counts
  split_ifs with hname
  · have htoml := isToml_of_name hname
    cases htext : Text.ofBytes? content with
    | none => exact absurd (.notText (.inr htoml) htext) (h _)
    | some text =>
      rcases hread : lib.toml text.toList with (reason | what) | table
      · rw [hasSection, textOfFile_of_text htext, ok_bind, hread]
        exact ⟨false, rfl⟩
      · exact absurd (.toml htoml htext hread) (h _)
      · rw [hasSection_of_ok htext hread]
        rcases hasToolSection_cases fun v hv hbad => h _ (.tools htoml htext hread hv hbad) with
          hnone | ⟨tools, v, htools, htool⟩
        · exact ⟨false, hnone⟩
        · exact ⟨true, (hasToolSection_of_tool htools htool).1⟩
  · exact ⟨true, rfl⟩

end

/-! ## On a machine -/

section

variable (lib : Library) {m : Machine} {p : Path} {content : List UInt8}

theorem isSome_node?_of_read {d : Disk} (h : d.read p = .ok content) :
    (d.node? p).isSome = true := by
  unfold Disk.read at h
  unfold Disk.node?
  split at h
  · cases h
  · rename_i place hplace
    rw [hplace]
    split at h
    · rename_i hfile
      simp [hfile]
    · cases h
    · cases h

theorem run_isThere (p : Path) (m : Machine) :
    (host.isThere p).run m = ((m.disk.node? p).isSome, m) := by
  have hkind : (host.isThere p).run m = (((m.disk.node? p).map _).isSome, m) := rfl
  rw [hkind, Option.isSome_map]

theorem run_liftExcept {ε α : Type} (x : Except ε α) (m : Machine) :
    (liftM x : ExceptT ε (StateM Machine) α).run.run m = (x, m) := rfl

/-- Loading a file that is there gives what its content gives, and changes nothing. -/
theorem run_loadFile (h : m.disk.read p = .ok content) :
    ∃ sources, (loadFile host lib p).run.run m = (ofContent lib sources p content, m) := by
  have hread : (readFile host p).run.run m = (.ok content, m) := by
    have hhost : (host.read p).run m = (.ok content, m) := by rw [← h]; rfl
    rw [readFile, run_bind, run_lift, hhost]
    rfl
  obtain ⟨sources, hsources⟩ : ∃ sources, (hasSources host).run m = (sources, m) := ⟨_, rfl⟩
  refine ⟨sources, ?_⟩
  rw [loadFile, run_bind, run_lift, run_isThere, isSome_node?_of_read h]
  simp only [Bool.not_true, Bool.false_eq_true, if_false]
  rw [run_bind, run_lift, hsources, ofContent]
  dsimp only
  split_ifs
  · rw [run_bind, hread]
    exact run_liftExcept _ m
  · rw [run_bind, hread]
    exact run_liftExcept _ m
  · rfl

theorem run_isConfigFile (h : m.disk.read p = .ok content) :
    (isConfigFile host lib p).run.run m = (counts lib p content, m) := by
  unfold isConfigFile counts
  split_ifs
  · have hhost : (host.read p).run m = (.ok content, m) := by rw [← h]; rfl
    rw [run_bind, run_lift, hhost]
    exact run_liftExcept _ m
  · rfl

/-- Files that are missing are passed over. -/
theorem run_findFirst_append {before rest : List Path} (h : ∀ q ∈ before, m.disk.node? q = none) :
    (findFirst host lib (before ++ rest)).run.run m = (findFirst host lib rest).run.run m := by
  induction before with
  | nil => rfl
  | cons q before ih =>
    have hq : (host.isThere q).run m = (false, m) := by
      rw [run_isThere, h q List.mem_cons_self]; rfl
    rw [List.cons_append, findFirst, run_bind, run_lift, hq]
    exact ih fun q' hq' => h q' (List.mem_cons_of_mem _ hq')

/-- A file that is there is found if it counts; if it does not, it has to be the last one here. -/
theorem run_findFirst {rest : List Path} (h : m.disk.read p = .ok content)
    (hrest : counts lib p content = .ok false → rest = []) :
    (findFirst host lib (p :: rest)).run.run m =
      ((counts lib p content).map fun b => if b then some p else none, m) := by
  rw [findFirst, run_bind, run_lift, run_isThere, isSome_node?_of_read h]
  simp only [if_true]
  rw [run_bind, run_isConfigFile lib h]
  cases hcounts : counts lib p content with
  | error e => rfl
  | ok b =>
    cases b with
    | true => rfl
    | false =>
      rw [hrest hcounts]
      rfl

end

/-! ## The file to load -/

/-- On a disk the file to load is `p`: it is the one that is named, or the first of the usual files
that is there. -/
inductive Chosen (d : Disk) (p : Path) : Option Path → Prop
  | named : Chosen d p (some p)
  | found {before after : List String} {name : String}
    (hnames : fileNames = before ++ name :: after)
      (hp : p = Path.child {} name)
        (hfirst : ∀ other ∈ before, d.node? (Path.child {} other) = none) :
      Chosen d p none

theorem after_projectFile {before after : List String}
    (h : fileNames = before ++ projectFile :: after) :
    after = [] := by
  rcases before with _ | ⟨_, _ | ⟨_, _ | ⟨_, _ | ⟨_, _ | ⟨_, before⟩⟩⟩⟩⟩ <;>
    simp_all [fileNames, projectFile]

section

variable (lib : Library) {m : Machine} {p : Path} {content : List UInt8}

theorem run_find (hp : Chosen m.disk p none) (h : m.disk.read p = .ok content) :
    (find host lib {}).run.run m =
    ((counts lib p content).map fun b => if b then some p else none, m) := by
  cases hp with
  | @found before after name hnames hchild hfirst =>
    subst hchild
    rw [find, hnames, List.map_append, run_findFirst_append lib (by simpa using hfirst),
      List.map_cons]
    refine run_findFirst lib h fun hcounts => ?_
    -- only the file for all tools can fail to count, and it is tried last
    have hname : name = projectFile := by
      by_contra hne
      rw [counts, if_neg (by simpa [Path.name, Path.child] using hne)] at hcounts
      cases hcounts
    rw [hname] at hnames
    rw [after_projectFile hnames, List.map_nil]

/-- A file that was found is loaded. -/
theorem run_load_of_found (hfind : (find host lib {}).run.run m = (.ok (some p), m))
    (h : m.disk.read p = .ok content) (quiet : Bool) :
    ∃ sources, ((load host lib none quiet).run.run m).1 =
      ofContent lib sources p content := by
  rw [load, run_bind, hfind]
  cases quiet with
  | true =>
    obtain ⟨sources, hload⟩ := run_loadFile lib h
    refine ⟨sources, ?_⟩
    simp only [Bool.not_true, Bool.false_eq_true, if_false, hload]
  | false =>
    obtain ⟨m', hsay, hdisk⟩ : ∃ m' : Machine, (host.say ("找到配置文件: " ++ p.text)).run m = ((), m') ∧
        m'.disk = m.disk := ⟨_, rfl, rfl⟩
    obtain ⟨sources, hload⟩ := run_loadFile lib (hdisk ▸ h)
    refine ⟨sources, ?_⟩
    simp only [Bool.not_false, if_true]
    rw [run_bind, run_lift, hsay]
    simp only [hload]

/-- Without a file there is the initial configuration. -/
theorem run_load_of_none (hfind : (find host lib {}).run.run m = (.ok none, m)) (quiet : Bool) :
    ∃ sources, ((load host lib none quiet).run.run m).1 = .ok (initial sources) := by
  rw [load, run_bind, hfind]
  cases quiet with
  | true =>
    simp only [Bool.not_true, Bool.false_eq_true, if_false]
    rw [run_bind, run_lift]
    exact ⟨((hasSources host).run m).1, rfl⟩
  | false =>
    simp only [Bool.not_false, if_true]
    rw [run_bind, run_lift, run_sayAll]
    dsimp only
    rw [run_bind, run_lift]
    exact ⟨((hasSources host).run _).1, rfl⟩

variable {lib} {file : Option Path}

theorem load_of_breakdown (hp : Chosen m.disk p file) (hcontent : m.disk.read p = .ok content)
    (quiet : Bool) {e : LoadError} (h : Breakdown lib file p content e) :
    ((load host lib file quiet).run.run m).1 = .error e := by
  cases file with
  | some q =>
    cases hp
    obtain ⟨sources, hload⟩ := run_loadFile lib hcontent
    rw [load, hload, ofContent_of_breakdown sources h]
  | none =>
    have hfind := run_find lib hp hcontent
    rcases counts_of_breakdown h with hcounts | hcounts
    · rw [hcounts] at hfind
      rw [load, run_bind, hfind]
      rfl
    · rw [hcounts] at hfind
      obtain ⟨sources, hload⟩ := run_load_of_found lib hfind hcontent quiet
      rw [hload, ofContent_of_breakdown sources h]

theorem regular_load (hp : Chosen m.disk p file) (hcontent : m.disk.read p = .ok content)
    (quiet : Bool) (h : ∀ e, ¬ Breakdown lib file p content e) :
    Regular ((load host lib file quiet).run.run m).1 := by
  cases file with
  | some q =>
    cases hp
    obtain ⟨sources, hload⟩ := run_loadFile lib hcontent
    rw [load, hload]
    dsimp only
    exact regular_ofContent sources (fun _ => Option.some_ne_none _) h
  | none =>
    have hfind := run_find lib hp hcontent
    obtain ⟨b, hcounts⟩ := exists_counts h
    rw [hcounts] at hfind
    cases b with
    | true =>
      obtain ⟨sources, hload⟩ := run_load_of_found lib hfind hcontent quiet
      rw [hload]
      refine regular_ofContent sources (fun hnone => ?_) h
      cases hcounts.symm.trans hnone
    | false =>
      obtain ⟨sources, hload⟩ := run_load_of_none lib hfind quiet
      rw [hload]
      exact regular_ok _

end

/-- **How loading a file breaks.** Whatever the libraries answer and whatever is in the file, there
is a configuration, with one of the four severities, or an error that says what is wrong, unless the
content breaks loading: it is no text, a library breaks down, what stands for the table of tools is
no table, or what is loaded is no object and cannot be shown. Then loading ends as `Breakdown` says.
It is the same whether the file is named or found. -/
theorem load_regular_iff (lib : Library) (m : Machine) (file : Option Path) (quiet : Bool)
    (p : Path) (content : List UInt8) (hp : Chosen m.disk p file)
    (hcontent : m.disk.read p = .ok content) :
    (Regular ((load host lib file quiet).run.run m).1 ↔ ∀ e, ¬ Breakdown lib file p content e) ∧
      ∀ e, Breakdown lib file p content e →
        ((load host lib file quiet).run.run m).1 = .error e := by
  refine ⟨⟨fun hregular e h => ?_, regular_load hp hcontent quiet⟩,
    fun e => load_of_breakdown hp hcontent quiet⟩
  rw [load_of_breakdown hp hcontent quiet h] at hregular
  exact not_regular_of_breakdown h hregular

/-- The text `tool = 1`. -/
def toolText : List UInt8 := [116, 111, 111, 108, 32, 61, 32, 49, 10]

/-- A working directory with a file for all tools, in which a number stands for the table of
tools. -/
def numberForTools : Machine :=
  { disk := { nodes := (∅ : Table (List String) DiskNode).insert [projectFile] (.file toolText) } }

theorem chosen_numberForTools : Chosen numberForTools.disk (Path.child {} projectFile) none :=
  @Chosen.found _ _ (fileNames.take 4) [] projectFile rfl rfl (by decide +kernel)

theorem read_numberForTools :
    numberForTools.disk.read (Path.child {} projectFile) = .ok toolText := rfl

theorem breakdown_numberForTools (file : Option Path) :
    Breakdown .standard file (Path.child {} projectFile) toolText .toolsNotATable := by
  have hchars : "tool = 1\n".toList = ['t', 'o', 'o', 'l', ' ', '=', ' ', '1', '\n'] := by decide
  have htext : Text.ofBytes? toolText = some "tool = 1\n" := by
    exact Text.ofBytes?_of_toBytes? (by decide +kernel)
  have hread : Toml.read "tool = 1\n".toList = .ok [(.str "tool", .int 1)] := by
    rw [hchars]
    rfl
  have htable : Library.standard.toml "tool = 1\n".toList = .ok [(.str "tool", .int 1)] := by
    have hstandard : Library.standard.toml = Library.readToml := rfl
    rw [hstandard, Library.readToml, hread]
  exact .tools (isToml_of_name rfl) htext htable rfl (.other (by simp) (by simp) (by simp))

/-- A number for the table of tools breaks loading, whether the file is found or named. -/
theorem numberForTools_breaks :
    Chosen numberForTools.disk (Path.child {} projectFile) none ∧
      numberForTools.disk.read (Path.child {} projectFile) = .ok toolText ∧
      ¬ Regular ((load host .standard none true).run.run numberForTools).1 ∧
      ((load host .standard none true).run.run numberForTools).1 = .error .toolsNotATable ∧
      ((load host .standard (some (Path.child {} projectFile)) true).run.run numberForTools).1 =
        .error .toolsNotATable := by
  have hfound := load_regular_iff .standard numberForTools none true _ _ chosen_numberForTools
    read_numberForTools
  have hnamed := load_regular_iff .standard numberForTools (some _) true _ _ .named
    read_numberForTools
  refine ⟨chosen_numberForTools, read_numberForTools, ?_,
    hfound.2 _ (breakdown_numberForTools _), hnamed.2 _ (breakdown_numberForTools _)⟩
  rw [hfound.1]
  exact fun h => h _ (breakdown_numberForTools _)

end Config

end Deadwood
