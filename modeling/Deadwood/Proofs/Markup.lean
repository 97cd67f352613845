import Deadwood.Report.Html
import Deadwood.Proofs.Escaping
import Deadwood.Proofs.Traversal

/-!
# The page of a report has the tags of its shape

Angle brackets and quotes make the tags and attributes of a page. All texts and numbers of the data
are escaped where they are written, so that these marks are those of the page's own text: two
reports with the same numbers of rows and the same folders have the same marks, whatever their texts
are.

* `marks s`: the marks of a text, in their order. What is escaped has none (`marks_escape`).
* `TreeShape`, `PageShape`: the shape of the data of a report. `shape?` is the shape of some data,
  if it has one: lists hold objects, and a severity is no list and no object.
* `PageShape.blank`, `TreeShape.blank`, `blankSection`: a page and its parts with nothing filled in.
  What is written from data of a shape has the marks of the blank (`exists_page`, `exists_treeItem`,
  `exists_fileSection`).
* Data without a shape has no page (`exists_shape`).
-/

namespace Deadwood.Report

/-! ## Marks -/

/-- Whether a character can begin or end a tag or the value of an attribute. -/
def isMark (c : Char) : Bool := c = '<' || c = '>' || c = '\'' || c = '"'

/-- The marks of a text. -/
def marks (s : String) : List Char := s.toList.filter isMark

@[simp] theorem marks_empty : marks "" = [] := rfl

@[simp] theorem marks_append (s t : String) : marks (s ++ t) = marks s ++ marks t := by
  rw [marks, String.toList_append, List.filter_append, marks, marks]

theorem marks_join (xs : List String) : marks (String.join xs) = (xs.map marks).flatten := by
  induction xs with
  | nil => rfl
  | cons x rest ih =>
    rw [String.join_cons, marks_append, ih, List.map_cons, List.flatten_cons]

@[simp] theorem marks_escape (s : String) : marks (escape s) = [] := by
  refine List.filter_eq_nil_iff.2 fun c hc => ?_
  obtain ⟨hlt, hgt, hquot, hapos⟩ := not_mark_of_mem_escape hc
  simp [isMark, hlt, hgt, hquot, hapos]

@[simp] theorem marks_shownValue (v : Value) : marks (shownValue v) = [] := marks_escape v.text

theorem marks_severityColor (s : String) : marks (severityColor s) = [] := by
  unfold severityColor
  split <;> rfl

/-- Rows with the same marks have the marks of as many copies of one of them. -/
theorem marks_join_of_forall {rows : List String} {blank : String}
    (h : ∀ row ∈ rows, marks row = marks blank) :
    marks (String.join rows) = marks (Text.times rows.length blank) := by
  rw [marks_join, Text.times, marks_join, List.map_replicate, List.map_eq_replicate_iff.2 h]

/-! ## Shapes -/

/-- The shape of a tree: a file, or a folder with the shapes of its children in the order of their
names. -/
inductive TreeShape where
  | file
  | folder (children : List TreeShape)

/-- The shape of the data of a report. -/
structure PageShape where
  severities : Nat
  analyzers : Nat
  tops : Nat
  /-- The numbers of issues of the sections. -/
  sections : List Nat
  /-- The shapes of the children of the root, if there is a tree. -/
  tree : Option (List TreeShape)

/-- The shapes of children in the order of their names. -/
def sortedShapes (children : List (String × TreeShape)) : List TreeShape :=
  (children.mergeSort fun a b => a.1 ≤ b.1).map (·.2)

mutual

/-- The shape of an entry of the tree; a file has a path. -/
def nodeShape? : Value → Option TreeShape
  | .dict fields =>
    if isFileEntry fields then (Value.field? fields "path").map fun _ => .file
    else (childShapes? fields).map fun children => .folder (sortedShapes children)
  | _ => none

/-- The shapes of the children that the fields of a folder hold, each with its name. -/
def childShapes? : List (String × Value) → Option (List (String × TreeShape))
  | [] => some []
  | (name, v) :: rest => if name = "children" then entriesShape? v else childShapes? rest

/-- The shapes of the entries of a folder, each with its name. -/
def entriesShape? : Value → Option (List (String × TreeShape))
  | .dict entries => entryShapes? entries
  | v => if v.truthy then none else some []

/-- The shapes of entries, each with its name. -/
def entryShapes? : List (String × Value) → Option (List (String × TreeShape))
  | [] => some []
  | (name, v) :: rest =>
    (nodeShape? v).bind fun shape => (entryShapes? rest).map fun shapes => (name, shape) :: shapes

end

/-- The fields of an object. -/
def object? : Value → Option (List (String × Value))
  | .dict fields => some fields
  | _ => none

/-- The fields of an object that may be left out. -/
def fields? : Value → Option (List (String × Value))
  | .dict fields => some fields
  | v => if v.truthy then none else some []

/-- The items of a list that may be left out. -/
def items? : Value → Option (List Value)
  | .list items => some items
  | v => if v.truthy then none else some []

/-- Whether a value can be looked up in a table: it is no list and no object. -/
def isKey : Value → Bool
  | .list _ => false
  | .dict _ => false
  | _ => true

/-- Whether a value is an object. -/
def isObject (v : Value) : Bool := (object? v).isSome

/-- Whether a value is an object with a severity. -/
def isIssue (v : Value) : Bool := (object? v).any fun fields => isKey (fieldOf fields "severity")

/-- The number of issues of a section. -/
def sectionShape? (v : Value) : Option Nat := do
  let issues ← items? (fieldOf (← object? v) "issues")
  if issues.all isIssue then some issues.length else none

/-- The shapes of the children of the root, if there is a tree. -/
def rootShape? (v : Value) : Option (Option (List TreeShape)) :=
  if v.truthy then do return some (sortedShapes (← childShapes? (← object? v))) else some none

/-- The shape of the data of a report. -/
def shape? (fields : List (String × Value)) : Option PageShape := do
  let stats ← object? ((Value.field? fields "stats").getD (.dict []))
  let severities ← fields? (fieldOf stats "by_severity")
  let analyzers ← fields? (fieldOf stats "by_analyzer")
  let tops ← items? (fieldOf stats "top_files")
  let sections ← (← items? (fieldOf fields "files")).mapM sectionShape?
  let tree ← rootShape? (fieldOf fields "tree")
  if tops.all isObject then some ⟨severities.length, analyzers.length, tops.length, sections, tree⟩
    else none

/-! ## Reading data of a shape -/

theorem asObject_eq_ok_iff {v : Value} {fields : List (String × Value)} :
    asObject v = .ok fields ↔ object? v = some fields := by
  cases v <;> simp [asObject, object?]

theorem optionalObject_eq_ok_iff {v : Value} {fields : List (String × Value)} :
    optionalObject v = .ok fields ↔ fields? v = some fields := by
  unfold optionalObject
  cases v with
  | dict fs => cases fs <;> simp [asObject, fields?, Value.truthy]
  | _ =>
    simp only [fields?, asObject]
    split_ifs <;> simp

theorem optionalList_of_items? {v : Value} {items : List Value} (h : items? v = some items) :
    optionalList v = .ok items := by
  cases v with
  | list xs => rw [optionalList, Option.some_inj.1 h]
  | dict fs =>
    cases fs with
    | nil => rw [optionalList, ← Option.some_inj.1 h, List.map_nil]
    | cons f rest => cases h
  | str s =>
    simp only [items?] at h
    split_ifs at h with htruthy
    have hempty : s = "" := by simpa [Value.truthy] using htruthy
    rw [optionalList, ← Option.some_inj.1 h, hempty]
    rfl
  | _ =>
    simp only [items?] at h
    split_ifs at h with htruthy
    simp only [optionalList]
    rw [if_neg htruthy, Option.some_inj.1 h]

theorem exists_object_of_isObject {v : Value} (h : isObject v = true) :
    ∃ fields, asObject v = .ok fields := by
  obtain ⟨fields, hfields⟩ := Option.isSome_iff_exists.1 h
  exact ⟨fields, asObject_eq_ok_iff.2 hfields⟩

theorem exists_valueColor {v : Value} (h : isKey v = true) :
    ∃ color, valueColor v = .ok color ∧ marks color = [] := by
  cases v with
  | str s => exact ⟨_, rfl, marks_severityColor s⟩
  | list items => cases h
  | dict fields => cases h
  | _ => exact ⟨"#000", rfl, rfl⟩

/-! ## Rows -/

/-- Rows that are written one by one, each with the marks of the blank row. -/
theorem exists_rows {f : Value → Page String} {blank : String} {vs : List Value}
    (h : ∀ v ∈ vs, ∃ row, f v = .ok row ∧ marks row = marks blank) :
    ∃ rows, vs.mapM f = .ok rows ∧ marks (String.join rows) =
      marks (Text.times vs.length blank) := by
  induction vs with
  | nil => exact ⟨[], rfl, rfl⟩
  | cons v rest ih =>
    obtain ⟨⟨row, hrow, hmarks⟩, hrest⟩ := List.forall_mem_cons.1 h
    obtain ⟨rows, hrows, hjoin⟩ := ih hrest
    refine ⟨row :: rows, mapM_cons_eq_ok_iff.2 ⟨row, rows, hrow, hrows, rfl⟩, ?_⟩
    rw [String.join_cons, marks_append, hmarks, hjoin, Text.times, Text.times, List.length_cons,
      List.replicate_succ,
      String.join_cons, marks_append]

/-- The row of a severity with nothing filled in. -/
def blankSeverity : String := "<tr><td style=''></td><td></td></tr>"

/-- The row of an analyzer with nothing filled in. -/
def blankAnalyzer : String := "<tr><td></td><td></td></tr>"

theorem marks_severityRows (fields : List (String × Value)) :
    marks (String.join (fields.map severityRow)) =
      marks (Text.times fields.length blankSeverity) := by
  rw [← List.length_map severityRow]
  refine marks_join_of_forall fun row hrow => ?_
  obtain ⟨f, -, rfl⟩ := List.mem_map.1 hrow
  unfold severityRow
  simp only [marks_append, marks_escape, marks_shownValue]
  rw [marks_severityColor]
  decide +kernel

theorem marks_analyzerRows (fields : List (String × Value)) :
    marks (String.join (fields.map analyzerRow)) =
      marks (Text.times fields.length blankAnalyzer) := by
  rw [← List.length_map analyzerRow]
  refine marks_join_of_forall fun row hrow => ?_
  obtain ⟨f, -, rfl⟩ := List.mem_map.1 hrow
  simp only [analyzerRow, marks_append, marks_escape, marks_shownValue]
  decide +kernel

/-- The rows of the longest files with nothing filled in; without files there is a row that says
so. -/
def blankTops (n : Nat) : String :=
  if n = 0 then "<tr><td colspan='2'>No issues found</td></tr>"
  else Text.times n "<tr><td><code></code></td><td></td></tr>"

theorem exists_topRow {v : Value} (h : isObject v = true) : ∃ row, topRow v = .ok row ∧
    marks row = marks "<tr><td><code></code></td><td></td></tr>" := by
  obtain ⟨fields, hfields⟩ := exists_object_of_isObject h
  refine ⟨_, by rw [topRow, hfields]; rfl, ?_⟩
  simp only [marks_append, marks_shownValue]
  decide +kernel

theorem exists_topRows {vs : List Value} (h : vs.all isObject = true) :
    ∃ rows, topRows vs = .ok rows ∧
    marks rows = marks (blankTops vs.length) := by
  obtain ⟨rows, hrows, hmarks⟩ := exists_rows fun v hv => exists_topRow (List.all_eq_true.1 h v hv)
  refine ⟨_, by rw [topRows, hrows]; rfl, ?_⟩
  cases vs with
  | nil =>
    cases hrows
    rfl
  | cons v rest =>
    -- A row has tags, so that the rows are not empty.
    have hne : String.join rows ≠ "" := by
      intro hempty
      rw [hempty, List.length_cons, Text.times, List.replicate_succ, String.join_cons, marks_append]
        at hmarks
      exact List.cons_ne_nil _ _ hmarks.symm
    rw [if_neg hne, hmarks, blankTops, if_neg (by simp)]

/-! ## Sections -/

/-- The row of an issue with nothing filled in. -/
def blankIssue : String :=
  "<tr><td></td><td style=''></td><td></td><td><code></code></td><td></td></tr>"

/-- A section with `n` issues and nothing filled in. -/
def blankSection (n : Nat) : String :=
  "<h3 id=''><code></code></h3><table><thead><tr><th></th><th></th><th></th><th></th><th></th></tr></thead><tbody>" ++
    Text.times n blankIssue ++ "</tbody></table>"

theorem exists_issueRow {v : Value} (h : isIssue v = true) : ∃ row, issueRow v = .ok row ∧
    marks row = marks blankIssue := by
  obtain ⟨fields, hfields, hkey⟩ := (Option.any_eq_true _ _).1 h
  obtain ⟨color, hcolor, hmarks⟩ := exists_valueColor hkey
  refine ⟨_, by simp only [issueRow, asObject_eq_ok_iff.2 hfields, bind, Except.bind, hcolor]; rfl,
    ?_⟩
  simp only [marks_append, marks_shownValue, hmarks]
  decide +kernel

theorem exists_fileSection {v : Value} {n : Nat} (h : sectionShape? v = some n) :
    ∃ text, fileSection v = .ok text ∧
    marks text = marks (blankSection n) := by
  simp only [sectionShape?, Option.bind_eq_bind, Option.bind_eq_some_iff] at h
  obtain ⟨fields, hfields, issues, hissues, hn⟩ := h
  split_ifs at hn with hall
  obtain rfl : issues.length = n := Option.some_inj.1 hn
  obtain ⟨rows, hrows, hmarks⟩ :=
    exists_rows fun v hv => exists_issueRow (List.all_eq_true.1 hall v hv)
  refine ⟨_, by simp only [fileSection, asObject_eq_ok_iff.2 hfields, bind, Except.bind,
    optionalList_of_items? hissues, hrows]; rfl, ?_⟩
  have hend : marks "</tbody>\n  </table>" = marks "</tbody></table>" := by decide +kernel
  unfold blankSection
  simp only [marks_append, marks_shownValue, hmarks, hend, List.append_left_inj]
  decide +kernel

theorem exists_fileSections {vs : List Value} {ns : List Nat}
    (h : vs.mapM sectionShape? = some ns) :
    ∃ texts, vs.mapM fileSection = .ok texts ∧
      marks (String.join texts) = marks (String.join (ns.map blankSection)) := by
  induction vs generalizing ns with
  | nil =>
    obtain rfl : [] = ns := Option.some_inj.1 h
    exact ⟨[], rfl, rfl⟩
  | cons v rest ih =>
    simp only [List.mapM_cons, Option.bind_eq_bind, Option.bind_eq_some_iff, Option.pure_def,
      Option.some_inj] at h
    obtain ⟨n, hn, ns', hns', rfl⟩ := h
    obtain ⟨text, htext, hmarks⟩ := exists_fileSection hn
    obtain ⟨texts, htexts, hjoin⟩ := ih hns'
    refine ⟨text :: texts, mapM_cons_eq_ok_iff.2 ⟨text, texts, htext, htexts, rfl⟩, ?_⟩
    rw [String.join_cons, marks_append, hmarks, hjoin, List.map_cons, String.join_cons,
      marks_append]

/-! ## The tree -/

mutual

/-- The item of a tree with nothing filled in. -/
def TreeShape.blank : TreeShape → String
  | .file => "<li>📄 <a href='#'></a> <span class='count'></span></li>"
  | .folder children =>
    folderItem "" "" ("<ul class='tree'>" ++ TreeShape.blankAll children ++ "</ul>")

/-- The items of trees with nothing filled in. -/
def TreeShape.blankAll : List TreeShape → String
  | [] => ""
  | shape :: rest => shape.blank ++ TreeShape.blankAll rest

end

theorem marks_blankAll (shapes : List TreeShape) :
    marks (TreeShape.blankAll shapes) = (shapes.map fun shape => marks shape.blank).flatten := by
  induction shapes with
  | nil => rw [TreeShape.blankAll, marks_empty, List.map_nil, List.flatten_nil]
  | cons shape rest ih =>
    rw [TreeShape.blankAll, marks_append, ih, List.map_cons, List.flatten_cons]

/-- The items of the entries of a folder belong to their shapes, one to one: same name, same
marks. -/
def Matching (items : List (String × String)) (shapes : List (String × TreeShape)) : Prop :=
  items.map (fun i => (i.1, marks i.2)) = shapes.map fun c => (c.1, marks c.2.blank)

/-- Sorting by name keeps items and shapes together. -/
theorem marks_joinByName {items : List (String × String)} {shapes : List (String × TreeShape)}
    (h : Matching items shapes) :
    marks (joinByName items) = marks (TreeShape.blankAll (sortedShapes shapes)) := by
  have hitems : (items.mergeSort fun a b => a.1 ≤ b.1).map (fun i => (i.1, marks i.2)) =
      (items.map fun i => (i.1, marks i.2)).mergeSort fun a b => a.1 ≤ b.1 :=
    List.map_mergeSort fun a _ b _ => rfl
  have hshapes : (shapes.mergeSort fun a b => a.1 ≤ b.1).map (fun c => (c.1, marks c.2.blank)) =
      (shapes.map fun c => (c.1, marks c.2.blank)).mergeSort fun a b => a.1 ≤ b.1 :=
    List.map_mergeSort fun a _ b _ => rfl
  rw [h, ← hshapes] at hitems
  have hsorted := congrArg (fun pairs => (pairs.map Prod.snd).flatten) hitems
  rw [joinByName, marks_join, marks_blankAll, sortedShapes]
  simpa [Function.comp_def] using hsorted

mutual

/-- An entry of the tree is written with the marks of its shape. -/
theorem exists_treeItem {v : Value} {shape : TreeShape} (h : nodeShape? v = some shape)
    (name : String) :
    ∃ item, treeItem name v = .ok item ∧ marks item = marks shape.blank := by
  cases v with
  | dict fields =>
    rw [nodeShape?] at h
    by_cases hfile : isFileEntry fields = true
    · rw [if_pos hfile] at h
      obtain ⟨path, hpath, rfl⟩ := Option.map_eq_some_iff.1 h
      refine ⟨_, by rw [treeItem, if_pos hfile, fileItem, hpath]; rfl, ?_⟩
      unfold TreeShape.blank shownCount
      simp only [marks_append, marks_escape, marks_shownValue]
      decide +kernel
    · rw [if_neg hfile] at h
      obtain ⟨children, hchildren, rfl⟩ := Option.map_eq_some_iff.1 h
      obtain ⟨items, hitems, hmatching⟩ := exists_treeChildren hchildren
      refine ⟨_, by rw [treeItem, if_neg hfile, hitems]; rfl, ?_⟩
      unfold TreeShape.blank folderItem shownCount
      simp only [marks_append, marks_escape, marks_shownValue, marks_empty,
        marks_joinByName hmatching]
  | _ => cases h

theorem exists_treeChildren {fields : List (String × Value)} {children : List (String × TreeShape)}
    (h : childShapes? fields = some children) :
    ∃ items, treeChildren fields = .ok items ∧ Matching items children := by
  cases fields with
  | nil =>
    obtain rfl : [] = children := Option.some_inj.1 h
    exact ⟨[], by rw [treeChildren], rfl⟩
  | cons f rest =>
    obtain ⟨name, v⟩ := f
    rw [childShapes?] at h
    rw [treeChildren]
    by_cases hname : name = "children"
    · rw [if_pos hname] at h ⊢
      exact exists_treeEntriesOf h
    · rw [if_neg hname] at h ⊢
      exact exists_treeChildren h

theorem exists_treeEntriesOf {v : Value} {children : List (String × TreeShape)}
    (h : entriesShape? v = some children) :
    ∃ items, treeEntriesOf v = .ok items ∧ Matching items children := by
  cases v with
  | dict entries =>
    rw [entriesShape?] at h
    rw [treeEntriesOf]
    exact exists_treeEntries h
  | _ =>
    simp only [entriesShape?] at h
    split_ifs at h with htruthy
    obtain rfl : [] = children := Option.some_inj.1 h
    refine ⟨[], ?_, rfl⟩
    simp only [treeEntriesOf]
    rw [if_neg htruthy]

theorem exists_treeEntries {entries : List (String × Value)} {children : List (String × TreeShape)}
    (h : entryShapes? entries = some children) :
    ∃ items, treeEntries entries = .ok items ∧ Matching items children := by
  cases entries with
  | nil =>
    obtain rfl : [] = children := Option.some_inj.1 h
    exact ⟨[], by rw [treeEntries], rfl⟩
  | cons e rest =>
    obtain ⟨name, v⟩ := e
    rw [entryShapes?, Option.bind_eq_some_iff] at h
    obtain ⟨shape, hshape, h⟩ := h
    obtain ⟨shapes, hshapes, rfl⟩ := Option.map_eq_some_iff.1 h
    obtain ⟨item, hitem, hmarks⟩ := exists_treeItem hshape name
    obtain ⟨items, hitems, hmatching⟩ := exists_treeEntries hshapes
    refine ⟨(name, item) :: items, by rw [treeEntries, hitem, hitems]; rfl, ?_⟩
    rw [Matching, List.map_cons, List.map_cons, hmarks, hmatching]

end

/-- The tree of a page with nothing filled in. -/
def blankRoot : Option (List TreeShape) → String
  | none => ""
  | some children =>
    "<h2>Files</h2>" ++ ("<ul class='tree'>" ++ TreeShape.blankAll children ++ "</ul>")

theorem exists_treeHtml {v : Value} {tree : Option (List TreeShape)}
    (h : rootShape? v = some tree) :
    ∃ text, treeHtml v = .ok text ∧ marks text = marks (blankRoot tree) := by
  unfold rootShape? at h
  unfold treeHtml
  split_ifs at h ⊢ with htruthy
  · simp only [Option.bind_eq_bind, Option.bind_eq_some_iff, Option.pure_def, Option.some_inj] at h
    obtain ⟨fields, hfields, children, hchildren, rfl⟩ := h
    obtain ⟨items, hitems, hmatching⟩ := exists_treeChildren hchildren
    have hlist : treeList v = .ok ("<ul class='tree'>" ++ joinByName items ++ "</ul>") := by
      cases v with
      | dict fs =>
        obtain rfl : fs = fields := Option.some_inj.1 hfields
        rw [treeList, hitems]
        rfl
      | _ => cases hfields
    refine ⟨_, by rw [hlist]; rfl, ?_⟩
    unfold blankRoot
    simp only [marks_append, marks_joinByName hmatching]
  · obtain rfl : none = tree := Option.some_inj.1 h
    exact ⟨"", rfl, rfl⟩

/-! ## The page -/

/-- A table of the page has the marks of its rows between those of the table itself. -/
theorem marks_pageTable (title left right : String) {rows blank : String}
    (htitles : marks title = [] ∧ marks left = [] ∧ marks right = [])
    (hrows : marks rows = marks blank) :
    marks (pageTable title left right rows) = marks (pageTable "" "" "" blank) := by
  obtain ⟨htitle, hleft, hright⟩ := htitles
  unfold pageTable
  simp only [marks_append, htitle, hleft, hright, hrows, marks_empty]

/-- The page of a shape with nothing filled in. -/
def PageShape.blank (s : PageShape) : String :=
  pageHead ++ "<p><code></code></p><ul><li></li><li></li><li></li></ul>" ++
    pageTable "" "" "" (Text.times s.severities blankSeverity) ++
    pageTable "" "" "" (Text.times s.analyzers blankAnalyzer) ++
    pageTable "" "" "" (blankTops s.tops) ++
    blankRoot s.tree ++ "<h2></h2>" ++ String.join (s.sections.map blankSection) ++ "</body></html>"

/-- Data of a shape has a page, and its marks are those of the blank page. -/
theorem exists_page {fields : List (String × Value)} {s : PageShape} (h : shape? fields = some s) :
    ∃ text, page fields = .ok text ∧ marks text = marks s.blank := by
  simp only [shape?, Option.bind_eq_bind, Option.bind_eq_some_iff] at h
  obtain ⟨stats, hstats, severities, hseverities, analyzers, hanalyzers, tops, htops, files,
    hfiles, sections,
    hsections, tree, htree, hs⟩ := h
  split_ifs at hs with hall
  obtain rfl := Option.some_inj.1 hs
  obtain ⟨topText, htopText, htopMarks⟩ := exists_topRows hall
  obtain ⟨texts, htexts, hsectionMarks⟩ := exists_fileSections hsections
  obtain ⟨treeText, htreeText, htreeMarks⟩ := exists_treeHtml htree
  refine ⟨_, by simp only [page, asObject_eq_ok_iff.2 hstats,
    optionalObject_eq_ok_iff.2 hseverities,
    optionalObject_eq_ok_iff.2 hanalyzers, optionalList_of_items? htops,
      optionalList_of_items? hfiles, htopText,
    htexts, htreeText, bind, Except.bind]; rfl, ?_⟩
  have hseverityTable := marks_pageTable "By Severity" "Severity" "Count" (by decide +kernel)
    (marks_severityRows severities)
  have hanalyzerTable := marks_pageTable "By Analyzer" "Analyzer" "Count" (by decide +kernel)
    (marks_analyzerRows analyzers)
  have htopTable := marks_pageTable "Top Files" "File" "Issues" (by decide +kernel) htopMarks
  have hblank : marks "  " = [] ∧ marks "\n" = [] := by decide +kernel
  have hheading : marks "  <h2>Issues</h2>\n" = marks "<h2></h2>" := by decide +kernel
  have hend : marks "</body></html>\n" = marks "</body></html>" := by decide +kernel
  unfold PageShape.blank
  simp only [marks_append, marks_shownValue, hseverityTable, hanalyzerTable, htopTable, htreeMarks,
    hsectionMarks,
    hblank, hheading, hend, List.append_nil, List.append_left_inj]
  -- What is left stands between the head of the page and its first table.
  simp only [List.append_assoc, List.append_right_inj]
  decide +kernel

/-! ## Only data of a shape has a page -/

theorem all_of_mapM {β : Type} {f : Value → Page β} {p : Value → Bool}
    (hf : ∀ v row, f v = .ok row → p v = true) {vs : List Value} {rows : List β}
    (h : vs.mapM f = .ok rows) : vs.all p = true := by
  refine List.all_eq_true.2 fun v hv => ?_
  obtain ⟨row, hrow⟩ := exists_ok_of_mapM h v hv
  exact hf v row hrow

theorem exists_mapM_eq_some {α β : Type} {f : α → Option β} {xs : List α}
    (h : ∀ x ∈ xs, ∃ y, f x = some y) :
    ∃ ys, xs.mapM f = some ys := by
  induction xs with
  | nil => exact ⟨[], rfl⟩
  | cons x rest ih =>
    obtain ⟨⟨y, hy⟩, hrest⟩ := List.forall_mem_cons.1 h
    obtain ⟨ys, hys⟩ := ih hrest
    exact ⟨y :: ys, by simp only [List.mapM_cons, hy, hys]; rfl⟩

/-- What is read item by item as objects is a list or left out: the items of a text or an object are
texts. -/
theorem items?_of_mapM {β : Type} {f : Value → Page β}
    (hf : ∀ v row, f v = .ok row → isObject v = true) {v : Value} {items : List Value}
    {rows : List β} (h : optionalList v = .ok items) (hrows : items.mapM f = .ok rows) :
    items? v = some items := by
  have hobject : ∀ s, Value.str s ∉ items := by
    intro s hs
    obtain ⟨row, hrow⟩ := exists_ok_of_mapM hrows _ hs
    cases hf _ row hrow
  cases v with
  | list xs => exact congrArg some (Except.ok.inj h)
  | dict fs =>
    cases fs with
    | nil => exact congrArg some (Except.ok.inj h)
    | cons f rest =>
      obtain rfl := Except.ok.inj h
      exact absurd List.mem_cons_self (hobject f.1)
  | str s =>
    obtain rfl := Except.ok.inj h
    cases hs : s.toList with
    | nil =>
      obtain rfl : s = "" := String.toList_eq_nil_iff.1 hs
      rfl
    | cons c rest =>
      obtain ⟨p, ps, hp⟩ := Text.exists_points c rest
      rw [hs, hp] at hobject
      exact absurd List.mem_cons_self (hobject (String.ofList p))
  | _ =>
    simp only [optionalList] at h
    split_ifs at h with htruthy
    simp only [items?]
    rw [if_neg htruthy, Except.ok.inj h]

theorem isObject_of_asObject {v : Value} {fields : List (String × Value)}
    (h : asObject v = .ok fields) :
    isObject v = true := by
  rw [isObject, asObject_eq_ok_iff.1 h, Option.isSome_some]

theorem isObject_of_topRow (v : Value) (row : String) (h : topRow v = .ok row) :
    isObject v = true := by
  obtain ⟨fields, hfields, -⟩ := exists_bind_eq_ok_iff.1 ⟨row, h⟩
  exact isObject_of_asObject hfields

theorem isIssue_of_issueRow (v : Value) (row : String) (h : issueRow v = .ok row) :
    isIssue v = true := by
  obtain ⟨fields, hfields, hrow⟩ := exists_bind_eq_ok_iff.1 ⟨row, h⟩
  obtain ⟨color, hcolor, -⟩ := exists_bind_eq_ok_iff.1 hrow
  rw [isIssue, asObject_eq_ok_iff.1 hfields, Option.any_some]
  cases hseverity : fieldOf fields "severity" with
  | list items =>
    rw [hseverity] at hcolor
    cases hcolor
  | dict fs =>
    rw [hseverity] at hcolor
    cases hcolor
  | _ => rfl

theorem isObject_of_isIssue {v : Value} (h : isIssue v = true) : isObject v = true := by
  obtain ⟨fields, hfields, -⟩ := (Option.any_eq_true _ _).1 h
  rw [isObject, hfields, Option.isSome_some]

theorem exists_sectionShape {v : Value} {text : String} (h : fileSection v = .ok text) :
    isObject v = true ∧ ∃ n, sectionShape? v = some n := by
  obtain ⟨fields, hfields, htext⟩ := exists_bind_eq_ok_iff.1 ⟨text, h⟩
  obtain ⟨issues, hissues, htext⟩ := exists_bind_eq_ok_iff.1 htext
  obtain ⟨rows, hrows, -⟩ := exists_bind_eq_ok_iff.1 htext
  have hitems := items?_of_mapM
    (fun v row hrow => isObject_of_isIssue (isIssue_of_issueRow v row hrow)) hissues hrows
  have hall := all_of_mapM isIssue_of_issueRow hrows
  refine ⟨isObject_of_asObject hfields, issues.length, ?_⟩
  simp only [sectionShape?, asObject_eq_ok_iff.1 hfields, Option.bind_eq_bind, Option.bind_some,
    hitems, if_pos hall]

mutual

theorem exists_nodeShape {name : String} {v : Value} {item : String}
    (h : treeItem name v = .ok item) :
    ∃ shape, nodeShape? v = some shape := by
  cases v with
  | dict fields =>
    rw [treeItem] at h
    rw [nodeShape?]
    split_ifs at h ⊢ with hfile
    · cases hpath : Value.field? fields "path" with
      | none =>
        rw [fileItem, hpath] at h
        cases h
      | some path => exact ⟨.file, rfl⟩
    · obtain ⟨items, hitems, -⟩ := exists_bind_eq_ok_iff.1 ⟨item, h⟩
      obtain ⟨children, hchildren⟩ := exists_childShapes hitems
      exact ⟨_, by rw [hchildren, Option.map_some]⟩
  | _ => cases h

theorem exists_childShapes {fields : List (String × Value)} {items : List (String × String)}
    (h : treeChildren fields = .ok items) : ∃ children, childShapes? fields = some children := by
  cases fields with
  | nil => exact ⟨[], by rw [childShapes?]⟩
  | cons f rest =>
    obtain ⟨name, v⟩ := f
    rw [treeChildren] at h
    rw [childShapes?]
    split_ifs at h ⊢ with hname
    · exact exists_entriesShape h
    · exact exists_childShapes h

theorem exists_entriesShape {v : Value} {items : List (String × String)}
    (h : treeEntriesOf v = .ok items) :
    ∃ children, entriesShape? v = some children := by
  cases v with
  | dict entries =>
    rw [treeEntriesOf] at h
    rw [entriesShape?]
    exact exists_entryShapes h
  | _ =>
    simp only [treeEntriesOf] at h
    split_ifs at h with htruthy
    simp only [entriesShape?]
    exact ⟨[], if_neg htruthy⟩

theorem exists_entryShapes {entries : List (String × Value)} {items : List (String × String)}
    (h : treeEntries entries = .ok items) : ∃ children, entryShapes? entries = some children := by
  cases entries with
  | nil => exact ⟨[], by rw [entryShapes?]⟩
  | cons e rest =>
    obtain ⟨name, v⟩ := e
    rw [treeEntries] at h
    obtain ⟨item, hitem, h⟩ := exists_bind_eq_ok_iff.1 ⟨items, h⟩
    obtain ⟨items', hitems', -⟩ := exists_bind_eq_ok_iff.1 h
    obtain ⟨shape, hshape⟩ := exists_nodeShape hitem
    obtain ⟨shapes, hshapes⟩ := exists_entryShapes hitems'
    exact ⟨(name, shape) :: shapes, by rw [entryShapes?, hshape, hshapes]; rfl⟩

end

theorem exists_rootShape {v : Value} {text : String} (h : treeHtml v = .ok text) :
    ∃ tree, rootShape? v = some tree := by
  unfold treeHtml at h
  unfold rootShape?
  split_ifs at h ⊢ with htruthy
  · obtain ⟨list, hlist, -⟩ := exists_bind_eq_ok_iff.1 ⟨text, h⟩
    cases v with
    | dict fields =>
      rw [treeList] at hlist
      obtain ⟨items, hitems, -⟩ := exists_bind_eq_ok_iff.1 ⟨list, hlist⟩
      obtain ⟨children, hchildren⟩ := exists_childShapes hitems
      refine ⟨some (sortedShapes children), ?_⟩
      rw [object?, Option.bind_eq_bind, Option.bind_some, hchildren]
      rfl
    | _ => cases hlist
  · exact ⟨none, rfl⟩

theorem exists_shape {fields : List (String × Value)} {text : String} (h : page fields = .ok text) :
    ∃ s, shape? fields = some s := by
  obtain ⟨stats, hstats, h⟩ := exists_bind_eq_ok_iff.1 ⟨text, h⟩
  obtain ⟨severities, hseverities, h⟩ := exists_bind_eq_ok_iff.1 h
  obtain ⟨analyzers, hanalyzers, h⟩ := exists_bind_eq_ok_iff.1 h
  obtain ⟨tops, htops, h⟩ := exists_bind_eq_ok_iff.1 h
  obtain ⟨topText, htopText, h⟩ := exists_bind_eq_ok_iff.1 h
  obtain ⟨files, hfiles, h⟩ := exists_bind_eq_ok_iff.1 h
  obtain ⟨sections, hsections, h⟩ := exists_bind_eq_ok_iff.1 h
  obtain ⟨tree, htree, -⟩ := exists_bind_eq_ok_iff.1 h
  obtain ⟨rows, hrows, -⟩ := exists_bind_eq_ok_iff.1 ⟨topText, htopText⟩
  obtain ⟨root, hroot⟩ := exists_rootShape htree
  have htopItems := items?_of_mapM isObject_of_topRow htops hrows
  have hall := all_of_mapM isObject_of_topRow hrows
  have hfileItems :=
    items?_of_mapM (fun v text htext => (exists_sectionShape htext).1) hfiles hsections
  obtain ⟨ns, hns⟩ := exists_mapM_eq_some fun v hv => by
    obtain ⟨text, htext⟩ := exists_ok_of_mapM hsections v hv
    exact (exists_sectionShape htext).2
  refine ⟨⟨severities.length, analyzers.length, tops.length, ns, root⟩, ?_⟩
  simp only [shape?, asObject_eq_ok_iff.1 hstats, optionalObject_eq_ok_iff.1 hseverities,
    optionalObject_eq_ok_iff.1 hanalyzers, htopItems, hfileItems, hns, hroot, Option.bind_eq_bind,
      Option.bind_some,
    if_pos hall]

/-- Data has a page if and only if it has a shape, and all data of its shape have a page with the
same marks: a text or a number of the data can neither add nor remove nor close a tag or an
attribute. -/
theorem page_same_marks {d₁ d₂ : List (String × Value)} (h : shape? d₁ = shape? d₂) :
    ((∃ p, page d₁ = .ok p) ↔ (shape? d₁).isSome = true) ∧
      ∀ p₁, page d₁ = .ok p₁ → ∃ p₂, page d₂ = .ok p₂ ∧ marks p₂ = marks p₁ := by
  refine ⟨⟨?_, ?_⟩, ?_⟩
  · rintro ⟨p, hp⟩
    exact Option.isSome_iff_exists.2 (exists_shape hp)
  · intro hshape
    obtain ⟨s, hs⟩ := Option.isSome_iff_exists.1 hshape
    obtain ⟨p, hp, -⟩ := exists_page hs
    exact ⟨p, hp⟩
  · intro p₁ hp₁
    obtain ⟨s, hs⟩ := exists_shape hp₁
    obtain ⟨p, hp, hmarks⟩ := exists_page hs
    obtain ⟨p₂, hp₂, hmarks₂⟩ := exists_page (h ▸ hs)
    obtain rfl : p₁ = p := Except.ok.inj (hp₁.symm.trans hp)
    exact ⟨p₂, hp₂, hmarks₂.trans hmarks.symm⟩

/-- A report with one finding in one file of one folder, where all that can be a text is the given
one. -/
def reportSaying (text : String) : List (String × Value) :=
  [("timestamp", .str text), ("project_root", .str text),
   ("stats", .dict [("total_issues", .int 1), ("by_severity", .dict [(text, .int 1)]),
     ("by_analyzer", .dict [(text, .int 1)]),
       ("top_files", .list [.dict [("file", .str text), ("count", .int 1)]])]),
   ("files", .list [.dict [("path", .str text), ("total_count", .int 1),
     ("issues", .list [.dict [("line", .int 1),
     ("severity", .str text), ("analyzer", .str text), ("scope", .str text),
       ("signature", .str text),
     ("message", .str text)]])]]),
   ("tree", .dict [("children", .dict [(text, .dict [("type", .str "folder"), ("children", .dict [
     (text, .dict [("type", .str "file"), ("path", .str text)])])])])])]

theorem shape?_reportSaying (text : String) :
    shape? (reportSaying text) = some ⟨1, 1, 1, [1], some [.folder [.file]]⟩ := by
  simp [shape?, reportSaying, Value.field?, object?, fields?, items?, fieldOf, sectionShape?,
    isIssue, isObject, isKey,
    rootShape?, Value.truthy, childShapes?, entriesShape?, entryShapes?, nodeShape?, isFileEntry,
      sortedShapes]

/-- A script in every text of a report leaves the tags of its page as they are. -/
theorem scriptReport_same_marks :
    marks "'><script>\"</td>" ≠ [] ∧ ∃ p₁ p₂, page (reportSaying "dead.py") = .ok p₁ ∧
    page (reportSaying "'><script>\"</td>") = .ok p₂ ∧ marks p₂ = marks p₁ := by
  refine ⟨by decide +kernel, ?_⟩
  obtain ⟨hpage, hsame⟩ := page_same_marks
    ((shape?_reportSaying "dead.py").trans (shape?_reportSaying "'><script>\"</td>").symm)
  obtain ⟨p₁, hp₁⟩ := hpage.2 (by rw [shape?_reportSaying, Option.isSome_some])
  obtain ⟨p₂, hp₂, hmarks⟩ := hsame p₁ hp₁
  exact ⟨p₁, p₂, hp₁, hp₂, hmarks⟩

end Deadwood.Report
