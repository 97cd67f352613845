import Deadwood.Project.Run
import Deadwood.Proofs.Codec
import Deadwood.Proofs.Disk
import Deadwood.Proofs.Ignored

/-!
# What a run does

A run on a machine looks at the disk, computes, and then changes files. Its computation is a
function of the disk, `analysedOn`, and what it does afterwards is `conclude`. `run_eq` puts a run
together from the two, so that later proofs open neither the run nor the monads it is written in.

* `textsOn`, `heldAt`: the sources and the manifest that a run finds on a disk.
* `keptOn`: the entries of a manifest that a run keeps; `run_updatesOf` saves them.
* `reportPaths`: the files of the reports, `touches_reportsOf`: nothing else is changed by reports.
-/

namespace Deadwood.Project

open Machine

variable {α β ε : Type} (lib : Library)

/-! ## Steps -/

theorem run_bind (x : ExceptT ε (StateM Machine) α) (f : α → ExceptT ε (StateM Machine) β)
    (m : Machine) : (x >>= f).run.run m = match x.run.run m with
      | (.ok a, m') => (f a).run.run m'
      | (.error e, m') => (.error e, m') := by
  rw [ExceptT.run_bind, StateT.run_bind]
  cases h : x.run.run m with
  | mk outcome m' =>
    cases outcome with
    | ok a => rfl
    | error e => rfl

theorem run_orEnd (wrap : ε → RunError) (x : Except ε α) (m : Machine) :
    (orEnd wrap x : Step (StateM Machine) α).run.run m = (x.mapError wrap, m) := by
  cases x <;> rfl

theorem run_lift (x : StateM Machine α) (m : Machine) :
    (liftM x : ExceptT ε (StateM Machine) α).run.run m = (.ok (x.run m).1, (x.run m).2) := rfl

theorem ok_bind (a : α) (f : α → Except ε β) : (Except.ok a >>= f) = f a := rfl

theorem bind_eq_ok {x : Except ε α} {f : α → Except ε β} {b : β} (h : (x >>= f) = .ok b) :
    ∃ a, x = .ok a ∧ f a = .ok b := by
  cases x with
  | error e => cases h
  | ok a => exact ⟨a, rfl, h⟩

theorem mapError_eq_ok {ζ : Type} {x : Except ε α} {wrap : ε → ζ} {a : α}
    (h : x.mapError wrap = .ok a) : x = .ok a := by
  cases x with
  | error e => cases h
  | ok b =>
    cases h
    rfl

/-! ## What a run finds -/

theorem query_listing (p : Path) : Query (listing host p) := by
  refine (query_kind? p).bind fun kind => ?_
  cases kind with
  | none => exact .pure _
  | some kind =>
    cases kind with
    | file => exact .pure _
    | directory => exact (query_filesBelow p).bind fun _ => .pure _

theorem query_listings (ps : List Path) : Query (listings host ps) := by
  induction ps with
  | nil => exact .pure _
  | cons p rest ih => exact (query_listing p).bind fun _ => ih.bind fun _ => .pure _

theorem query_readAll (files : List SourceFile) : Query (readAll host files) := by
  induction files with
  | nil => exact .pure _
  | cons s rest ih => exact (query_read _).bind fun _ => ih.bind fun _ => .pure _

theorem query_sourceTexts (config : Config) : Query (sourceTexts host config) :=
  (query_listings _).bind fun _ => query_readAll _

/-- The sources that a run finds on a disk. -/
def textsOn (d : Disk) (config : Config) : List SourceText :=
  ((sourceTexts host config).run { disk := d }).1

theorem run_sourceTexts (config : Config) (m : Machine) :
    (sourceTexts host config).run m = (textsOn m.disk config, m) := by
  obtain ⟨f, hf⟩ := query_sourceTexts config
  rw [textsOn, hf, hf]

theorem textsOn_eq (d : Disk) (config : Config) :
    textsOn d config = (sources ((listings host (config.paths.map .ofText)).run { disk := d }).1
      config.wanted config.unwanted).map fun s => ⟨s, d.read (.ofText s.unit)⟩ := by
  have hread (files : List SourceFile) : ((readAll host files).run { disk := d }).1 =
      files.map fun s => ⟨s, d.read (.ofText s.unit)⟩ := by
    induction files with
    | nil => rfl
    | cons s rest ih =>
      obtain ⟨f, hf⟩ := query_readAll rest
      rw [List.map_cons, ← ih, hf, readAll]
      simp only [StateT.run_bind, hf]
      rfl
  obtain ⟨f, hf⟩ := query_listings (config.paths.map .ofText)
  rw [textsOn, sourceTexts, StateT.run_bind, hf]
  exact hread _

/-- If the configuration names one file, and that of a source, this is what a run finds. -/
theorem textsOn_file {d : Disk} {config : Config} {file : Path}
    (hroots : ((listings host (config.paths.map .ofText)).run { disk := d }).1 = [(file, .file)])
    (hsuffix : file.suffix = ".py") :
    textsOn d config = [⟨⟨file.text, file.stem⟩, d.read (.ofText file.text)⟩] := by
  have hsources : sources [(file, .file)] config.wanted config.unwanted =
      [⟨file.text, file.stem⟩] := by
    have hname : moduleName? file [(file, .file)] = some file.stem := by
      simp [moduleName?, moduleBelow?]
    simp only [sources, found, filesIn, List.flatMap_singleton, hsuffix, if_true,
      List.filterMap_cons, hname, Option.map_some, List.filterMap_nil, List.foldl_cons,
      List.foldl_nil]
    exact congrArg (List.map _) (List.mergeSort_singleton (file.text, file.stem))
  rw [textsOn_eq, hroots, hsources]
  rfl

/-- The manifest that a run takes from a disk: none counts as an empty one, and so does one that
cannot be used. -/
def heldAt (d : Disk) : Option Path → Except Manifest.Breakdown Manifest
  | none => .ok ∅
  | some p =>
    match d.read p with
    | .error _ => .ok ∅
    | .ok content =>
      match Manifest.ofBytes lib.json p content with
      | .ok manifest => .ok manifest
      | .error (.broken b) => .error b
      | .error (.bad _) => .ok ∅

theorem run_load (p : Path) (m : Machine) : ∃ m' : Machine, m'.disk = m.disk ∧
    m'.clock = m.clock ∧ m'.painter = m.painter ∧
    (Manifest.load host lib.json p).run.run m = (heldAt lib m.disk (some p), m') := by
  have hhost : (host.read p).run m = (m.disk.read p, m) := rfl
  rw [Manifest.load, run_bind, run_lift, heldAt]
  cases hd : m.disk.read p with
  | error e =>
    rw [Manifest.read, StateT.run_bind, hhost, hd]
    obtain ⟨fault, q⟩ := e
    cases fault <;> refine ⟨_, ?_, ?_, ?_, rfl⟩ <;> rfl
  | ok content =>
    have hread : (Manifest.read host lib.json p).run m =
        (Manifest.ofBytes lib.json p content, m) := by
      rw [Manifest.read, StateT.run_bind, hhost, hd]
      rfl
    rw [hread]
    simp only
    generalize Manifest.ofBytes lib.json p content = found
    rcases found with (e | e) | manifest <;> refine ⟨_, ?_, ?_, ?_, rfl⟩ <;> rfl

theorem run_previousManifest (path : Option Path) (m : Machine) :
    ∃ m' : Machine, m'.disk = m.disk ∧ m'.clock = m.clock ∧ m'.painter = m.painter ∧
      (previousManifest host lib path).run.run m =
        ((heldAt lib m.disk path).mapError .manifest, m') := by
  cases path with
  | none => exact ⟨m, rfl, rfl, rfl, rfl⟩
  | some p =>
    obtain ⟨m', hdisk, hclock, hpainter, hload⟩ := run_load lib p m
    refine ⟨m', hdisk, hclock, hpainter, ?_⟩
    rw [previousManifest, run_bind, run_lift, hload]
    exact run_orEnd _ _ _

/-! ## The computation -/

/-- The file of the manifest that a run is asked to use. -/
def manifestPath (r : Request) : Option Path := (r.manifest.place? r.config.manifest).map .ofText

/-- What a run computes from a disk: the manifest it takes, what it collects and the result. -/
def analysedOn (d : Disk) (r : Request) : Except RunError (Manifest × Collection × Result) := do
  let specs ← (Ignore.compileAll lib.pattern r.config.ignore).mapError .ignore
  let previous ← (heldAt lib d (manifestPath r)).mapError .manifest
  let c ← (collectAll lib.statements previous (textsOn d r.config)).mapError
    fun _ => .blankDocumentation
  let res ← (result r.config specs c).mapError .predicate
  return (previous, c, res)

variable {lib} in
theorem analysedOn_eq_ok {d : Disk} {r : Request} {a : Manifest × Collection × Result}
    (h : analysedOn lib d r = .ok a) : heldAt lib d (manifestPath r) = .ok a.1 ∧
      collectAll lib.statements a.1 (textsOn d r.config) = .ok a.2.1 := by
  obtain ⟨specs, -, h⟩ := bind_eq_ok h
  obtain ⟨previous, hprevious, h⟩ := bind_eq_ok h
  obtain ⟨c, hc, h⟩ := bind_eq_ok h
  obtain ⟨res, -, h⟩ := bind_eq_ok h
  cases h
  exact ⟨mapError_eq_ok hprevious, mapError_eq_ok hc⟩

/-- Without ignored symbols an analysis cannot fail. -/
theorem exists_result (config : Config) (c : Collection) :
    ∃ res, result config [] c = .ok res := by
  obtain ⟨kept, hkept⟩ :
      ∃ kept, Analysis.remaining (graphOf c) (optionsOf config []) [] = .ok kept :=
    Analysis.exists_remaining (fun _ h => nomatch h) fun _ h => nomatch h
  obtain ⟨analysis, hanalysis, hkept⟩ := bind_eq_ok hkept
  simp only [result, hanalysis, ok_bind, hkept]
  exact ⟨_, rfl⟩

theorem collectAll_singleton {statements : List UInt8 → Except Source.Fault (List Source.Stmt)}
    {previous : Manifest} {s : SourceText} {u : Collect.UnitFacts}
    (h : collectOne statements previous s = .fresh u) :
    collectAll statements previous [s] = .ok [.fresh u] := by
  rw [collectAll, List.map_singleton, h]
  rfl

/-- Brings the manifest of a run up to date, if there is one. -/
def updatesOf (r : Request) (a : Manifest × Collection × Result) : Step (StateM Machine) Unit :=
  match manifestPath r with
  | some path => updateManifest host path a.1 a.2.1
  | none => pure ()

/-- Writes the reports that a run is asked for. -/
def reportsOf (r : Request) (res : Result) : Step (StateM Machine) Written :=
  match r.output.place? r.config.output with
  | some place => writeReports host r.config (.ofText place) res
  | none => pure {}

/-- What a run does after its computation. -/
def conclude (r : Request) (a : Manifest × Collection × Result) :
    Step (StateM Machine) Outcome := do
  updatesOf r a
  let written ← reportsOf r a.2.2
  return ⟨a.2.2, written⟩

theorem run_unfold (r : Request) : Project.run host lib r = (do
    let specs ← orEnd .ignore (Ignore.compileAll lib.pattern r.config.ignore)
    let previous ← previousManifest host lib (manifestPath r)
    let texts ← (sourceTexts host r.config : StateM Machine (List SourceText))
    let c ← orEnd (fun _ => .blankDocumentation) (collectAll lib.statements previous texts)
    let res ← orEnd .predicate (result r.config specs c)
    conclude r (previous, c, res)) := by
  unfold Project.run conclude reportsOf updatesOf
  cases h : manifestPath r with
  | none =>
    unfold manifestPath at h
    simp only [h]
    cases r.output.place? r.config.output <;> rfl
  | some p =>
    unfold manifestPath at h
    simp only [h]
    cases r.output.place? r.config.output <;> rfl

/-- **A run is its computation and what it does afterwards**; up to then it changes no file. -/
theorem run_eq (r : Request) (m : Machine) : ∃ m' : Machine, m'.disk = m.disk ∧
    m'.clock = m.clock ∧ m'.painter = m.painter ∧
    (Project.run host lib r).run.run m = match analysedOn lib m.disk r with
      | .error e => (.error e, m')
      | .ok a => (conclude r a).run.run m' := by
  rw [run_unfold, analysedOn, run_bind, run_orEnd]
  cases Ignore.compileAll lib.pattern r.config.ignore with
  | error e => exact ⟨m, rfl, rfl, rfl, rfl⟩
  | ok specs =>
    obtain ⟨m', hdisk, hclock, hpainter, hprevious⟩ := run_previousManifest lib (manifestPath r) m
    refine ⟨m', hdisk, hclock, hpainter, ?_⟩
    simp only [Except.mapError, ok_bind]
    rw [run_bind, hprevious]
    cases heldAt lib m.disk (manifestPath r) with
    | error e => rfl
    | ok previous =>
      simp only [Except.mapError, ok_bind]
      rw [run_bind, run_lift, run_sourceTexts, hdisk]
      simp only
      rw [run_bind, run_orEnd]
      cases collectAll lib.statements previous (textsOn m.disk r.config) with
      | error e => rfl
      | ok c =>
        simp only [Except.mapError, ok_bind]
        rw [run_bind, run_orEnd]
        cases result r.config specs c with
        | error e => rfl
        | ok res => rfl

theorem run_conclude (r : Request) (a : Manifest × Collection × Result) (m : Machine) :
    (conclude r a).run.run m = match (updatesOf r a).run.run m with
      | (.error e, m') => (.error e, m')
      | (.ok _, m') =>
        match (reportsOf r a.2.2).run.run m' with
        | (.error e, m'') => (.error e, m'')
        | (.ok written, m'') => (.ok ⟨a.2.2, written⟩, m'') := by
  rw [conclude, run_bind]
  rcases (updatesOf r a).run.run m with ⟨_ | _, m'⟩
  · rfl
  · simp only
    rw [run_bind]
    rcases (reportsOf r a.2.2).run.run m' with ⟨_ | _, _⟩ <;> rfl

/-- What a run gives after its computation is the result that it has computed. -/
theorem result_of_conclude {r : Request} {a : Manifest × Collection × Result} {m : Machine}
    {o : Outcome} (h : ((conclude r a).run.run m).1 = .ok o) : o.result = a.2.2 := by
  rw [run_conclude] at h
  generalize (updatesOf r a).run.run m = updated at h
  obtain ⟨outcome, m'⟩ := updated
  cases outcome with
  | error e => cases h
  | ok _ =>
    simp only at h
    generalize (reportsOf r a.2.2).run.run m' = reported at h
    obtain ⟨outcome, m''⟩ := reported
    cases outcome with
    | error e => cases h
    | ok written =>
      cases h
      rfl

/-! ## The manifest -/

/-- The entries that a run keeps: those of units that were collected, failed, or exist. -/
def keptOn (d : Disk) (c : Collection) (es : List (String × Manifest.Entry)) :
    List (String × Manifest.Entry) :=
  es.filter fun e =>
    c.manifest.contains e.1 || (c.failed.map (·.1)).contains e.1 || (d.node? (.ofText e.1)).isSome

theorem run_keptEntries (c : Collection) (es : List (String × Manifest.Entry)) (m : Machine) :
    (keptEntries host c es).run m = (keptOn m.disk c es, m) := by
  induction es with
  | nil => rfl
  | cons e rest ih =>
    have hrest : ∀ keep : Bool, ((do
        let kept ← keptEntries host c rest
        return if keep then e :: kept else kept) : StateM Machine _).run m =
        (if keep then e :: keptOn m.disk c rest else keptOn m.disk c rest, m) := by
      intro keep
      rw [StateT.run_bind, ih]
      rfl
    have hthere : (host.isThere (.ofText e.1)).run m =
        ((m.disk.node? (.ofText e.1)).isSome, m) := by
      change (((m.disk.node? (.ofText e.1)).map _).isSome, m) = _
      rw [Option.isSome_map]
    rw [keptEntries, keptOn, List.filter_cons]
    by_cases hc : (c.manifest.contains e.1 || (c.failed.map (·.1)).contains e.1) = true
    · rw [if_pos hc, hc, Bool.true_or, if_pos rfl, StateT.run_bind]
      exact hrest true
    · rw [if_neg hc, Bool.eq_false_iff.2 hc, Bool.false_or, StateT.run_bind, hthere]
      exact hrest _

/-- The text that a run saves as the manifest. -/
def manifestText (d : Disk) (a : Manifest × Collection × Result) : String :=
  Manifest.toText ⟨keptOn d a.2.1 (a.1.merge a.2.1.manifest).entries⟩

theorem run_save (path : Path) (manifest : Manifest) (m : Machine) :
    (Manifest.save host path manifest).run.run m =
      match (host.save path (Manifest.toText manifest)).run m with
      | (.ok _, m') => (.ok true, m')
      | (.error .unencodable, m') => (.error {}, m')
      | (.error (.file e), m') => (.ok false,
        ((host.say ("⚠️  无法写入 manifest " ++ path.text ++ ": " ++ e.message)).run m').2) := by
  rw [Manifest.save, run_bind, run_lift]
  rcases (host.save path (Manifest.toText manifest)).run m with ⟨(e | _) | _, m'⟩ <;> rfl

/-- To bring a manifest up to date is to save the entries that are kept. Of the failures to do so
only one ends the run. -/
theorem run_updatesOf {r : Request} {path : Path} (hpath : manifestPath r = some path)
    (a : Manifest × Collection × Result) (m : Machine) :
    ∃ m' : Machine, m'.disk = ((host.save path (manifestText m.disk a)).run m).2.disk ∧
      m'.clock = m.clock ∧ m'.painter = m.painter ∧
      (updatesOf r a).run.run m =
        (if ((host.save path (manifestText m.disk a)).run m).1 = .error .unencodable then
          .error .unencodable else .ok (), m') := by
  obtain ⟨outcome, disk, hsave⟩ := exists_save path (manifestText m.disk a) m
  have hupdate : (updatesOf r a).run.run m =
      match (Manifest.save host path
        ⟨keptOn m.disk a.2.1 (a.1.merge a.2.1.manifest).entries⟩).run.run
        m with
      | (.ok _, m') => (.ok (), m')
      | (.error _, m') => (.error .unencodable, m') := by
    rw [updatesOf, hpath]
    simp only [updateManifest]
    rw [run_bind, run_lift, run_keptEntries]
    simp only
    rw [run_bind, run_lift]
    rcases (Manifest.save host path _).run.run m with ⟨_ | _, m'⟩ <;> rfl
  rw [hupdate, run_save]
  rw [manifestText] at hsave ⊢
  rw [hsave]
  rcases outcome with (e | _) | _
  · refine ⟨_, ?_, ?_, ?_, Prod.ext ?_ rfl⟩
    · rfl
    · rfl
    · rfl
    · simp
  · exact ⟨_, rfl, rfl, rfl, rfl⟩
  · exact ⟨_, rfl, rfl, rfl, rfl⟩

/-! ## Reports -/

/-- A step touches what its parts touch. -/
theorem touches_bind {paths : List Path} {x : Step (StateM Machine) α}
    {f : α → Step (StateM Machine) β} (hx : Touches paths x.run)
    (hf : ∀ a, Touches paths (f a).run) : Touches paths (x >>= f).run := by
  rw [ExceptT.run_bind]
  refine hx.bind fun outcome => ?_
  cases outcome with
  | ok a => exact hf a
  | error e => exact .pure _

theorem touches_lift {paths : List Path} {x : StateM Machine α} (h : Touches paths x) :
    Touches paths (liftM x : Step (StateM Machine) α).run :=
  h.bind fun _ => .pure _

theorem touches_orEnd {paths : List Path} (wrap : ε → RunError) (x : Except ε α) :
    Touches paths (orEnd wrap x : Step (StateM Machine) α).run := by
  cases x <;> exact .pure _

/-- The files of the reports that a configuration asks for. -/
def reportPaths (config : Config) (directory : Path) : List Path :=
  [directory.child "unused.json"] ++
    (if config.htmlReport then [htmlPath config directory] else []) ++
    if config.graph then [directory.child "call_graph.dot", directory.child "call_graph",
      (directory.child "call_graph").withEnding config.format] else []

section Touches

variable {paths : List Path}

theorem touches_writeFile {p : Path} (h : p ∈ paths) (text : String) :
    Touches paths (writeFile host p text).run :=
  touches_bind (touches_lift (touches_writeText h)) fun _ => touches_orEnd _ _

theorem touches_writeHtml {config : Config} {directory : Path}
    (h : htmlPath config directory ∈ paths) (home : String) (findings : List Finding)
    (data : List (String × Value)) :
    Touches paths (writeHtml host config directory home findings data).run := by
  have hcomplain : ∀ e, Touches paths (writeHtml.complain host e).run := fun e =>
    touches_bind (touches_lift (touches_say _)) fun _ => .pure _
  unfold writeHtml
  cases Report.tree home findings with
  | none => exact .pure _
  | some tree =>
    refine touches_bind (.pure _) fun tree => ?_
    refine touches_bind (touches_lift (touches_makeDirectories _)) fun made => ?_
    cases made with
    | error e => exact hcomplain e
    | ok _ =>
      refine touches_bind (touches_orEnd _ _) fun page => ?_
      refine touches_bind (touches_lift (touches_writeText h)) fun wrote => ?_
      rcases wrote with (e | _) | _
      · exact hcomplain e
      · exact .pure _
      · exact .pure _

theorem touches_writeDrawing {config : Config} {directory : Path}
    (hdot : directory.child "call_graph.dot" ∈ paths)
    (hsource : directory.child "call_graph" ∈ paths)
    (hpicture : (directory.child "call_graph").withEnding config.format ∈ paths) (res : Result) :
    Touches paths (writeDrawing host config directory res).run := by
  unfold writeDrawing
  refine touches_bind (touches_writeFile hdot _) fun _ => ?_
  split
  · exact .pure _
  · refine touches_bind (touches_writeFile hsource _) fun _ => ?_
    refine touches_bind (touches_lift (touches_draw hpicture)) fun drawn => ?_
    cases drawn with
    | noProgram => exact .pure _
    | failed => exact .pure _
    | made =>
      refine touches_bind (touches_lift (touches_remove hsource)) fun _ => ?_
      exact touches_bind (touches_orEnd _ _) fun _ => .pure _

/-- Reports change no files but their own. -/
theorem touches_writeReports (config : Config) (directory : Path) (res : Result) :
    Touches (reportPaths config directory) (writeReports host config directory res).run := by
  have hjson : directory.child "unused.json" ∈ reportPaths config directory := by simp [reportPaths]
  have hdrawing : ∀ html : Option Path, Touches (reportPaths config directory) (ExceptT.run (do
      let drawn ← if config.graph then some <$> writeDrawing host config directory res
        else pure none
      return (⟨some (directory.child "unused.json"), html, drawn.map (·.1), drawn.bind (·.2)⟩ :
        Written))) := by
    intro html
    split_ifs with hgraph
    · rw [map_eq_pure_bind, bind_assoc]
      exact touches_bind (touches_writeDrawing (by simp [reportPaths, hgraph])
        (by simp [reportPaths, hgraph]) (by simp [reportPaths, hgraph]) res) fun _ =>
          touches_bind (.pure _) fun _ => .pure _
    · exact touches_bind (.pure _) fun _ => .pure _
  unfold writeReports
  refine touches_bind (touches_lift query_directory.touches) fun home => ?_
  refine touches_bind (touches_lift (.of_disk fun _ => rfl)) fun now => ?_
  refine touches_bind (touches_lift (touches_makeDirectories directory)) fun made => ?_
  refine touches_bind (touches_orEnd _ made) fun _ => ?_
  refine touches_bind (touches_writeFile hjson _) fun _ => ?_
  cases hhtml : config.htmlReport with
  | true => exact touches_bind (touches_writeHtml (by simp [reportPaths, hhtml]) _ _ _) hdrawing
  | false => exact touches_bind (.pure _) hdrawing

end Touches

/-- The files of the reports that a run is asked for. -/
def pathsOf (r : Request) : List Path :=
  match r.output.place? r.config.output with
  | some place => reportPaths r.config (.ofText place)
  | none => []

theorem touches_reportsOf (r : Request) (res : Result) :
    Touches (pathsOf r) (reportsOf r res).run := by
  unfold pathsOf reportsOf
  cases r.output.place? r.config.output with
  | some place => exact touches_writeReports _ _ _
  | none => exact .pure _

theorem touches_updatesOf {r : Request} {path : Path} (hpath : manifestPath r = some path)
    (a : Manifest × Collection × Result) : Touches [path] (updatesOf r a).run := by
  have hsave : ∀ text, Touches [path] (host.save path text) :=
    fun _ => touches_save List.mem_cons_self
  constructor
  · intro m
    obtain ⟨m', hdisk, -, -, hrun⟩ := run_updatesOf hpath a m
    rw [hrun, hdisk]
    exact (hsave _).home m
  · intro m q hq
    obtain ⟨m', hdisk, -, -, hrun⟩ := run_updatesOf hpath a m
    rw [hrun, hdisk]
    exact (hsave _).files m q hq

theorem home_updatesOf (r : Request) (a : Manifest × Collection × Result) (m : Machine) :
    ((updatesOf r a).run.run m).2.disk.home = m.disk.home := by
  cases hpath : manifestPath r with
  | none =>
    rw [updatesOf, hpath]
    rfl
  | some path => exact (touches_updatesOf hpath a).home m

/-- After its computation a run changes its manifest, if at all, and then its reports. -/
theorem disk_conclude (r : Request) (a : Manifest × Collection × Result) (m : Machine) :
    ((conclude r a).run.run m).2.disk.home = m.disk.home ∧
      ∀ q, (∀ p ∈ pathsOf r, q ≠ p.place m.disk.home) →
        ((conclude r a).run.run m).2.disk.fileAt? q =
          ((updatesOf r a).run.run m).2.disk.fileAt? q := by
  have hhome := home_updatesOf r a m
  rw [run_conclude]
  generalize (updatesOf r a).run.run m = updated at hhome ⊢
  obtain ⟨outcome, m'⟩ := updated
  cases outcome with
  | error e => exact ⟨hhome, fun _ _ => rfl⟩
  | ok _ =>
    have htouches := touches_reportsOf r a.2.2
    have hreports := htouches.home m'
    have hfiles := htouches.files m'
    simp only
    generalize (reportsOf r a.2.2).run.run m' = reported at hreports hfiles ⊢
    obtain ⟨outcome, m''⟩ := reported
    have hafter : m''.disk.home = m.disk.home := hreports.trans hhome
    cases outcome with
    | error e => exact ⟨hafter, fun q hq => hfiles q (hhome ▸ hq)⟩
    | ok written => exact ⟨hafter, fun q hq => hfiles q (hhome ▸ hq)⟩

/-- The files after a run: outside its reports only that of the manifest may have changed. -/
theorem fileAt?_conclude (r : Request) (a : Manifest × Collection × Result) (m : Machine)
    {q : List String} (hq : ∀ p ∈ pathsOf r, q ≠ p.place m.disk.home) :
    ((conclude r a).run.run m).2.disk.fileAt? q = m.disk.fileAt? q ∨
      ((conclude r a).run.run m).2.disk.fileAt? q =
        some ((Text.toBytes? (manifestText m.disk a)).getD []) := by
  rw [(disk_conclude r a m).2 q hq]
  cases hpath : manifestPath r with
  | none =>
    rw [updatesOf, hpath]
    exact .inl rfl
  | some path =>
    by_cases hplace : q = path.place m.disk.home
    · obtain ⟨m', hdisk, -, -, hrun⟩ := run_updatesOf hpath a m
      rw [hrun, hdisk, hplace]
      exact fileAt?_save path _ m
    · refine .inl ((touches_updatesOf hpath a).files m q fun p hp => ?_)
      rwa [List.mem_singleton.1 hp]

end Deadwood.Project
