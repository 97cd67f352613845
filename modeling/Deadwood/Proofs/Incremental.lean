import Deadwood.Proofs.Documentation
import Deadwood.Proofs.Parallel

/-!
# Runs that reuse facts

A run that takes facts from a manifest computes what a run without one computes, whatever happened
before. The reason is an invariant of the manifest's file: its entries are genuine. Every event
keeps it, and so does every history.

Keeping the manifest can still end the run. A manifest whose text has no encoding cannot be saved,
and that is no failure of the file system, which a run would report and survive.

* `Agree o o'`: two runs have the same result, or ended for the same reason.
* `Unkept lib d r`: the manifest of the run has no encoding, though its file can be opened.
* `Event`, `after`, `readings`: what happens to a machine, and all that its runs read.
* `Sound lib seen paths m`: the invariant. `Sound.event` is its step and `Sound.after` its history.
* `run_agree_scratch`: the comparison after any history.
-/

namespace Deadwood.Project

open Machine Collect

/-! ## With and without a manifest -/

section Compare

variable {lib : Library} {seen : List Reading} {d : Disk} {r : Request} {m : Machine}

/-- The request for a run that uses no manifest. -/
def Request.scratch (r : Request) : Request := { r with manifest := .nowhere }

/-- The computation of a run does not depend on a manifest that is genuine. -/
theorem analysedOn_scratch (hjson : Manifest.Recovers lib.json)
    (hseen : Faithful lib.statements seen)
    (hheld : ∀ p ∈ manifestPath r, ∀ content, d.fileAt? (p.place d.home) = some content →
      Held lib.statements seen content)
    (htexts : ∀ x ∈ readingsOf (textsOn d r.config), x ∈ seen) :
    Alike (fun a a' => a.2.2.Agrees a'.2.2) (analysedOn lib d r) (analysedOn lib d r.scratch) := by
  obtain ⟨previous, hprevious, -, hgenuine⟩ := genuine_heldAt hjson hseen hheld
  have hscratch : heldAt lib d (manifestPath r.scratch) = .ok ∅ := rfl
  have hconfig : r.scratch.config = r.config := rfl
  unfold analysedOn
  rw [hprevious, hscratch, hconfig]
  refine ((Alike.refl (Ignore.compileAll lib.pattern r.config.ignore)).mapError
    RunError.ignore).bind ?_
  rintro specs _ rfl
  refine ((collectAll_empty hseen hgenuine htexts).mapError
    fun _ => RunError.blankDocumentation).bind ?_
  rintro c _ rfl
  refine ((result_anew r.config specs c).mapError RunError.predicate).bind ?_
  exact fun _ _ h => h

/-- The outcomes agree: in the result, or in what ended the run. -/
def Agree : Except RunError Outcome → Except RunError Outcome → Prop
  | .ok o, .ok o' => o.result.Agrees o'.result
  | .error e, .error e' => e.Matches e'
  | _, _ => False

/-- A file can be written at a path, directories around it being made. -/
def Receives (d : Disk) (p : Path) : Prop :=
  ∃ d₁ d₂, d.makeDirectories p.parent = .ok d₁ ∧ d₁.write p [] = .ok d₂

/-- The text that a run would save as its manifest has no encoding, though the file can be
written. -/
def Unkept (lib : Library) (d : Disk) (r : Request) : Prop :=
  ∃ path a, manifestPath r = some path ∧ analysedOn lib d r = .ok a ∧
    Text.toBytes? (manifestText d a) = none ∧ Receives d path

/-- The reports that a run is asked for stand apart from its manifest. -/
def Apart (home : List String) (r : Request) : Prop :=
  ∀ path ∈ manifestPath r, ∀ place ∈ r.output.place? r.config.output,
    ReportsApart r.config (.ofText place) path home

theorem save_eq_unencodable_iff (p : Path) (text : String) (m : Machine) :
    ((host.save p text).run m).1 = .error .unencodable ↔
      Text.toBytes? text = none ∧ Receives m.disk p := by
  unfold Receives
  rw [Machine.run_save]
  cases hd : m.disk.makeDirectories p.parent with
  | error e => simp
  | ok disk =>
    simp only [run_writeText, Except.ok.injEq, exists_and_left, exists_eq_left']
    cases hb : Text.toBytes? text with
    | none =>
      cases hw : disk.write p [] with
      | error e => simp [hw]
      | ok disk' => simp [hw]
    | some content =>
      cases hw : disk.write p content with
      | error e => simp [hw]
      | ok disk' => simp [hw]

/-- A run ends before its reports if its manifest has no encoding, and for no other reason. -/
theorem outcome_updatesOf {path : Path} (hpath : manifestPath r = some path)
    {a : Manifest × Collection × Result} (ha : analysedOn lib m.disk r = .ok a) :
    ((updatesOf r a).run.run m).1 = .error .unencodable ∧ Unkept lib m.disk r ∨
      ((updatesOf r a).run.run m).1 = .ok () ∧ ¬ Unkept lib m.disk r := by
  have hunkept : Unkept lib m.disk r ↔
      ((host.save path (manifestText m.disk a)).run m).1 = .error .unencodable := by
    rw [save_eq_unencodable_iff]
    constructor
    · rintro ⟨path', a', hpath', ha', hnone⟩
      obtain rfl : path = path' := Option.some_inj.1 (hpath.symm.trans hpath')
      obtain rfl : a = a' := Except.ok.inj (ha.symm.trans ha')
      exact hnone
    · exact fun h => ⟨path, a, hpath, ha, h⟩
  obtain ⟨m', -, -, -, hrun⟩ := run_updatesOf hpath a m
  rw [hrun, hunkept]
  by_cases h : ((host.save path (manifestText m.disk a)).run m).1 = .error .unencodable
  · exact .inl ⟨if_pos h, h⟩
  · exact .inr ⟨if_neg h, h⟩

/-- The reports of both runs are written alike, if they stand apart from the manifest. -/
theorem agree_conclude {a a' : Manifest × Collection × Result} (h : a.2.2.Agrees a'.2.2)
    {path : Path} (hpath : manifestPath r = some path) (hapart : Apart m.disk.home r)
    (hkept : ((updatesOf r a).run.run m).1 = .ok ()) {m' : Machine} (hdisk : m'.disk = m.disk)
    (hclock : m'.clock = m.clock) (hpainter : m'.painter = m.painter) :
    Agree ((conclude r a).run.run m).1 ((conclude r.scratch a').run.run m').1 := by
  obtain ⟨n, hn, hnclock, hnpainter, hrun⟩ := run_updatesOf hpath a m
  have hsaved := beside_save path (manifestText m.disk a) m
  have hbeside : Machine.Beside path m.disk.home [] n m' := by
    refine ⟨by rw [hdisk], ?_, by rw [hnclock, hclock], by rw [hnpainter, hpainter], ?_⟩
    · rw [hdisk, hn]
      exact hsaved
    · exact fun p hp => by cases hp
  have hends : ∃ post, Ends post ((reportsOf r a.2.2).run.run n)
      ((reportsOf r.scratch a'.2.2).run.run m') := by
    have houtput : r.scratch.output.place? r.scratch.config.output =
        r.output.place? r.config.output := rfl
    unfold reportsOf
    rw [houtput]
    cases hplace : r.output.place? r.config.output with
    | none => exact ⟨fun _ _ _ _ => True, trivial⟩
    | some place => exact ⟨_, parallel_writeReports (hapart path hpath place hplace) h n m' hbeside⟩
  have hscratch : (updatesOf r.scratch a').run.run m' = (.ok (), m') := rfl
  rw [hrun] at hkept
  dsimp only at hkept
  rw [run_conclude, run_conclude, hrun, hscratch, hkept]
  dsimp only
  obtain ⟨post, hends⟩ := hends
  generalize (reportsOf r a.2.2).run.run n = ran at hends ⊢
  generalize (reportsOf r.scratch a'.2.2).run.run m' = ran' at hends ⊢
  obtain ⟨outcome, n₁⟩ := ran
  obtain ⟨outcome', n₂⟩ := ran'
  cases outcome <;> cases outcome'
  case ok.ok => exact h
  case error.error => exact hends
  all_goals exact hends.elim

theorem unencodable_of_unkept {a : Manifest × Collection × Result}
    (ha : analysedOn lib m.disk r = .ok a) (h : Unkept lib m.disk r) :
    ((conclude r a).run.run m).1 = .error .unencodable := by
  obtain ⟨path, -, hpath, -⟩ := id h
  rcases outcome_updatesOf hpath ha with ⟨hended, -⟩ | ⟨-, hkept⟩
  · rw [run_conclude]
    generalize (updatesOf r a).run.run m = updated at hended ⊢
    obtain ⟨outcome, m'⟩ := updated
    cases outcome with
    | ok _ => cases hended
    | error e =>
      cases hended
      rfl
  · exact absurd h hkept

theorem exists_conclude_scratch (hplace : r.output.place? r.config.output = none)
    (a : Manifest × Collection × Result) (m : Machine) :
    ∃ o, ((conclude r.scratch a).run.run m).1 = .ok o := by
  have hreports : reportsOf r.scratch a.2.2 = pure {} := by
    unfold reportsOf
    rw [show r.scratch.output.place? r.scratch.config.output = none from hplace]
  rw [run_conclude, hreports]
  exact ⟨_, rfl⟩

/-- A run that is asked for no manifest is a run without one. -/
theorem run_scratch (h : manifestPath r = none) :
    Project.run host lib r.scratch = Project.run host lib r := by
  have hscratch : manifestPath r.scratch = none := rfl
  rw [run_unfold, run_unfold]
  simp only [conclude, updatesOf, h, hscratch]
  rfl

theorem Agree.refl (x : Except RunError Outcome) : Agree x x := by
  cases x with
  | ok o => exact rfl
  | error e => exact .inl rfl

section Both

variable (hjson : Manifest.Recovers lib.json) (hseen : Faithful lib.statements seen)
  (hheld : ∀ p ∈ manifestPath r, ∀ content,
    m.disk.fileAt? (p.place m.disk.home) = some content → Held lib.statements seen content)
  (htexts : ∀ x ∈ readingsOf (textsOn m.disk r.config), x ∈ seen)

include hjson hseen hheld htexts

/-- Both runs end in their computation and for the same reason, or they come to the same result and
go on from the same disk. -/
theorem run_both :
    (∃ e, ((Project.run host lib r).run.run m).1 = .error e ∧
      ((Project.run host lib r.scratch).run.run m).1 = .error e ∧
        analysedOn lib m.disk r = .error e) ∨
    ∃ a a' m₁ m₂, a.2.2.Agrees a'.2.2 ∧ analysedOn lib m₁.disk r = .ok a ∧
      m₁.disk = m.disk ∧ m₂.disk = m₁.disk ∧ m₂.clock = m₁.clock ∧ m₂.painter = m₁.painter ∧
      (Project.run host lib r).run.run m = (conclude r a).run.run m₁ ∧
      (Project.run host lib r.scratch).run.run m = (conclude r.scratch a').run.run m₂ := by
  have halike := analysedOn_scratch hjson hseen hheld htexts
  obtain ⟨m₁, hdisk₁, hclock₁, hpainter₁, hrun⟩ := run_eq lib r m
  obtain ⟨m₂, hdisk₂, hclock₂, hpainter₂, hrun'⟩ := run_eq lib r.scratch m
  rw [hrun, hrun']
  cases hx : analysedOn lib m.disk r <;> cases hy : analysedOn lib m.disk r.scratch
  case error.error e e' =>
    rw [hx, hy] at halike
    obtain rfl : e = e' := halike
    exact .inl ⟨e, rfl, rfl, rfl⟩
  case ok.ok a a' =>
    rw [hx, hy] at halike
    exact .inr ⟨a, a', m₁, m₂, halike, by rw [hdisk₁, hx], hdisk₁, by rw [hdisk₂, hdisk₁],
      by rw [hclock₂, hclock₁], by rw [hpainter₂, hpainter₁], rfl, rfl⟩
  all_goals
    rw [hx, hy] at halike
    exact halike.elim

theorem results_agree {o o' : Outcome} (ho : ((Project.run host lib r).run.run m).1 = .ok o)
    (ho' : ((Project.run host lib r.scratch).run.run m).1 = .ok o') :
    o.result.Agrees o'.result := by
  rcases run_both hjson hseen hheld htexts with
    ⟨e, he, -⟩ | ⟨a, a', m₁, m₂, hagrees, -, -, -, -, -, hrun, hrun'⟩
  · rw [he] at ho
    cases ho
  · rw [hrun] at ho
    rw [hrun'] at ho'
    rw [result_of_conclude ho, result_of_conclude ho']
    exact hagrees

/-- A manifest that has no encoding ends the run, and not the run without one. -/
theorem run_of_unkept (h : Unkept lib m.disk r) :
    ((Project.run host lib r).run.run m).1 = .error .unencodable ∧
      (r.output.place? r.config.output = none →
        ∃ o, ((Project.run host lib r.scratch).run.run m).1 = .ok o) := by
  rcases run_both hjson hseen hheld htexts with
    ⟨e, -, -, herror⟩ | ⟨a, a', m₁, m₂, -, ha, hdisk, -, -, -, hrun, hrun'⟩
  · obtain ⟨path, a, -, ha, -⟩ := h
    rw [ha] at herror
    cases herror
  · rw [hrun, hrun']
    rw [← hdisk] at h
    exact ⟨unencodable_of_unkept ha h, fun hplace => exists_conclude_scratch hplace a' m₂⟩

theorem agree_of_kept (h : ¬ Unkept lib m.disk r) (hapart : Apart m.disk.home r) :
    Agree ((Project.run host lib r).run.run m).1
      ((Project.run host lib r.scratch).run.run m).1 := by
  cases hpath : manifestPath r with
  | none =>
    rw [run_scratch hpath]
    exact .refl _
  | some path =>
    rcases run_both hjson hseen hheld htexts with
      ⟨e, he, he', -⟩ | ⟨a, a', m₁, m₂, hagrees, ha, hdisk, hdisk', hclock, hpainter, hrun, hrun'⟩
    · rw [he, he']
      exact .inl rfl
    · rw [hrun, hrun']
      rw [← hdisk] at h hapart
      rcases outcome_updatesOf hpath ha with ⟨-, hunkept⟩ | ⟨hok, -⟩
      · exact absurd hunkept h
      · exact agree_conclude hagrees hpath hapart hok hdisk' hclock hpainter

end Both

end Compare

/-! ## Histories -/

/-- What happens to a machine: a file is written, with its directory, or deleted, or a run is
made. -/
inductive Event where
  | write (path : Path) (content : List UInt8)
  | delete (path : Path)
  | run (request : Request)

variable (lib : Library)

namespace Event

/-- The machine after an event, be it a success or not. -/
def after (m : Machine) : Event → Machine
  | write path content =>
    ((host.makeDirectories path.parent >>= fun _ => host.write path content).run m).2
  | delete path => ((host.remove path).run m).2
  | run request => ((Project.run host lib request).run.run m).2

/-- What an event reads of sources. -/
def readings (m : Machine) : Event → List Reading
  | run request => readingsOf (textsOn m.disk request.config)
  | _ => []

/-- The file of the manifest that an event uses. -/
def manifestPath? : Event → Option Path
  | run request => manifestPath request
  | _ => none

/-- The files that an event writes, that of a manifest left out. -/
def paths : Event → List Path
  | write path _ => [path]
  | delete _ => []
  | run request => pathsOf request

end Event

/-- The machine after some events. -/
def after (m : Machine) (events : List Event) : Machine := events.foldl (Event.after lib) m

/-- All that the runs among some events read. -/
def readings : Machine → List Event → List Reading
  | _, [] => []
  | m, e :: rest => e.readings m ++ readings (e.after lib m) rest

/-- The files of all manifests that some events use. -/
def manifestPaths (events : List Event) : List Path := events.filterMap Event.manifestPath?

/-- At first there is no manifest, and only the runs that use it write to its file. -/
structure Undisturbed (m : Machine) (events : List Event) : Prop where
  fresh : ∀ p ∈ manifestPaths events, m.disk.fileAt? (p.place m.disk.home) = none
  apart : ∀ p ∈ manifestPaths events, ∀ e ∈ events, ∀ q ∈ e.paths,
    p.place m.disk.home ≠ q.place m.disk.home

section History

variable {lib} {seen : List Reading} {paths : List Path} {m : Machine}

/-- The files at these paths hold genuine entries, where there are such files. -/
def Sound (lib : Library) (seen : List Reading) (paths : List Path) (m : Machine) : Prop :=
  ∀ p ∈ paths, ∀ content, m.disk.fileAt? (p.place m.disk.home) = some content →
    Held lib.statements seen content

theorem touches_event (path : Path) (content : List UInt8) : Touches [path]
    (host.makeDirectories path.parent >>= fun _ => host.write path content) :=
  (touches_makeDirectories _).bind fun _ => touches_write (List.mem_singleton.2 rfl)

/-- No event moves the working directory. -/
theorem home_event (m : Machine) (e : Event) : (e.after lib m).disk.home = m.disk.home := by
  cases e with
  | write path content => exact (touches_event path content).home m
  | delete path => exact (touches_remove (List.mem_singleton.2 rfl)).home m
  | run r =>
    obtain ⟨m', hdisk, -, -, hrun⟩ := run_eq lib r m
    rw [Event.after, hrun]
    cases analysedOn lib m.disk r with
    | error e => exact congrArg Disk.home hdisk
    | ok a => exact (disk_conclude r a m').1.trans (congrArg Disk.home hdisk)

theorem home_after (m : Machine) (events : List Event) :
    (after lib m events).disk.home = m.disk.home := by
  induction events generalizing m with
  | nil => rfl
  | cons e rest ih => exact (ih (e.after lib m)).trans (home_event m e)

/-- The entries that a run keeps are genuine. -/
theorem Sound.genuine_kept (hsound : Sound lib seen paths m) (hjson : Manifest.Recovers lib.json)
    (hseen : Faithful lib.statements seen) {r : Request} (hpath : ∀ p ∈ manifestPath r, p ∈ paths)
    (htexts : ∀ x ∈ readingsOf (textsOn m.disk r.config), x ∈ seen)
    {a : Manifest × Collection × Result} (ha : analysedOn lib m.disk r = .ok a) (d : Disk) :
    ((keptOn d a.2.1 (a.1.merge a.2.1.manifest).entries).map (·.1)).Nodup ∧
      ∀ e ∈ keptOn d a.2.1 (a.1.merge a.2.1.manifest).entries,
        Genuine lib.statements seen e.1 e.2 := by
  obtain ⟨hheld, hcollect⟩ := analysedOn_eq_ok ha
  obtain ⟨previous, hprevious, hkeys, hgenuine⟩ :=
    genuine_heldAt hjson hseen fun q hq => hsound q (hpath q hq)
  obtain rfl : previous = a.1 := Except.ok.inj (hprevious.symm.trans hheld)
  obtain ⟨hc, -⟩ := collectAll_eq_ok_iff.1 hcollect
  refine genuine_of_sublist hkeys hgenuine htexts ?_
  rw [← hc]
  exact List.filter_sublist

/-- The sources have names with encodings and yield facts with encodings. -/
def Encodable (lib : Library) (seen : List Reading) : Prop :=
  ∀ x ∈ seen, (Text.characters? x.1.unit.toList).isSome = true ∧
    (Text.characters? x.1.module.toList).isSome = true ∧
    ∀ u ∈ (collect lib.statements x.1.module x.1.unit x.2).toOption,
      ∀ f ∈ u.facts, f.toValue.encodable = true

/-- If all that was read has an encoding, the text of the manifest has one. -/
theorem Sound.not_unkept (hsound : Sound lib seen paths m) (hjson : Manifest.Recovers lib.json)
    (hseen : Faithful lib.statements seen) (hencodable : Encodable lib seen) {r : Request}
    (hpath : ∀ p ∈ manifestPath r, p ∈ paths)
    (htexts : ∀ x ∈ readingsOf (textsOn m.disk r.config), x ∈ seen) : ¬ Unkept lib m.disk r := by
  rintro ⟨path, a, -, ha, hnone, -⟩
  obtain ⟨-, hgenuine⟩ := hsound.genuine_kept hjson hseen hpath htexts ha m.disk
  rw [← Option.not_isSome_iff_eq_none, manifestText, Manifest.isSome_toBytes?_toText] at hnone
  refine hnone (List.all_eq_true.2 fun e he => ?_)
  obtain ⟨s, content, hmem, hunit, hmodule, hdigest, hcollect⟩ := hgenuine e he
  obtain ⟨hname, hdotted, hfacts⟩ := hencodable _ hmem
  rw [hunit] at hname hfacts
  rw [hmodule] at hdotted hfacts
  rw [Manifest.Entry.encodable_toValue, ← hdigest, isSome_characters?_digest, hname, hdotted]
  refine List.all_eq_true.2 (hfacts ⟨e.1, e.2.module, e.2.digest, e.2.facts⟩ ?_)
  rw [hcollect]
  rfl

/-- A run keeps the files of manifests sound. -/
theorem Sound.run (hsound : Sound lib seen paths m) (hjson : Manifest.Recovers lib.json)
    (hseen : Faithful lib.statements seen) {r : Request} (hpath : ∀ p ∈ manifestPath r, p ∈ paths)
    (hapart : ∀ p ∈ paths, ∀ q ∈ pathsOf r, p.place m.disk.home ≠ q.place m.disk.home)
    (htexts : ∀ x ∈ readingsOf (textsOn m.disk r.config), x ∈ seen) :
    Sound lib seen paths (Event.after lib m (.run r)) := by
  obtain ⟨m', hdisk, -, -, hrun⟩ := run_eq lib r m
  intro p hp content hfile
  rw [home_event, Event.after, hrun] at hfile
  cases ha : analysedOn lib m.disk r with
  | error e =>
    simp only [ha, hdisk] at hfile
    exact hsound p hp content hfile
  | ok a =>
    simp only [ha] at hfile
    rcases fileAt?_conclude r a m' (q := p.place m.disk.home) (by rw [hdisk]; exact hapart p hp)
      with h | h
    · rw [h, hdisk] at hfile
      exact hsound p hp content hfile
    · rw [h] at hfile
      cases hfile
      obtain ⟨hkeys, hgenuine⟩ := hsound.genuine_kept hjson hseen hpath htexts ha m'.disk
      exact held_of_genuine hkeys hgenuine

/-- Every event keeps the files of manifests sound. -/
theorem Sound.event (hsound : Sound lib seen paths m) (hjson : Manifest.Recovers lib.json)
    (hseen : Faithful lib.statements seen) {e : Event} (hpath : ∀ p ∈ e.manifestPath?, p ∈ paths)
    (hapart : ∀ p ∈ paths, ∀ q ∈ e.paths, p.place m.disk.home ≠ q.place m.disk.home)
    (hreadings : ∀ x ∈ e.readings m, x ∈ seen) : Sound lib seen paths (e.after lib m) := by
  cases e with
  | write path content =>
    intro p hp held hfile
    rw [home_event] at hfile
    refine hsound p hp held ?_
    rw [← hfile]
    exact ((touches_event path content).files m _ (hapart p hp)).symm
  | delete path =>
    intro p hp held hfile
    rw [home_event] at hfile
    exact hsound p hp held (fileAt?_of_remove hfile)
  | run r => exact hsound.run hjson hseen hpath hapart hreadings

/-- A whole history keeps the files of manifests sound. -/
theorem Sound.after (hsound : Sound lib seen paths m) (hjson : Manifest.Recovers lib.json)
    (hseen : Faithful lib.statements seen) {events : List Event}
    (hpath : ∀ p ∈ manifestPaths events, p ∈ paths)
    (hapart : ∀ p ∈ paths, ∀ e ∈ events, ∀ q ∈ e.paths,
      p.place m.disk.home ≠ q.place m.disk.home)
    (hreadings : ∀ x ∈ readings lib m events, x ∈ seen) :
    Sound lib seen paths (after lib m events) := by
  induction events generalizing m with
  | nil => exact hsound
  | cons e rest ih =>
    refine ih (hsound.event hjson hseen ?_ ?_ ?_) ?_ ?_ ?_
    · exact fun p hp => hpath p (List.mem_filterMap.2 ⟨e, List.mem_cons_self, hp⟩)
    · exact fun p hp => hapart p hp e List.mem_cons_self
    · exact fun x hx => hreadings x (List.mem_append_left _ hx)
    · intro p hp
      obtain ⟨e', he', hp⟩ := List.mem_filterMap.1 hp
      exact hpath p (List.mem_filterMap.2 ⟨e', List.mem_cons_of_mem _ he', hp⟩)
    · intro p hp e' he'
      rw [home_event]
      exact hapart p hp e' (List.mem_cons_of_mem _ he')
    · exact fun x hx => hreadings x (List.mem_append_right _ hx)

theorem readings_append (m : Machine) (before rest : List Event) :
    readings lib m (before ++ rest) =
      readings lib m before ++ readings lib (after lib m before) rest := by
  induction before generalizing m with
  | nil => rfl
  | cons e before ih =>
    rw [List.cons_append, readings, ih, readings, List.append_assoc]
    rfl

theorem Undisturbed.sound {events : List Event} (h : Undisturbed m events) (seen : List Reading) :
    Sound lib seen (manifestPaths events) m := by
  intro p hp content hfile
  rw [h.fresh p hp] at hfile
  cases hfile

/-- Up to the last run of a history the files of manifests are sound. -/
theorem Undisturbed.sound_before (hjson : Manifest.Recovers lib.json) {before : List Event}
    {r : Request} (hm : Undisturbed m (before ++ [Event.run r]))
    (hseen : Faithful lib.statements (readings lib m (before ++ [Event.run r]))) :
    Sound lib (readings lib m (before ++ [Event.run r])) (manifestPaths (before ++ [Event.run r]))
      (after lib m before) := by
  refine (hm.sound _).after hjson hseen ?_ ?_ ?_
  · intro p hp
    rw [manifestPaths, List.filterMap_append]
    exact List.mem_append_left _ hp
  · exact fun p hp e he => hm.apart p hp e (List.mem_append_left _ he)
  · intro x hx
    rw [readings_append]
    exact List.mem_append_left _ hx

/-- **After any history, a run that reuses facts agrees with a run from scratch**, and every
manifest holds only what collecting contents that were read yields, or nothing. If both runs return,
their results agree. The run that keeps a manifest ends where the other need not if the text of the
manifest has no encoding, which needs a source whose facts have none. Otherwise both return or both
end for the same reason, provided that their reports stand apart from the manifest. -/
theorem run_agree_scratch (m : Machine) (before : List Event) (r : Request)
    (hjson : Manifest.Recovers lib.json) (hm : Undisturbed m (before ++ [Event.run r]))
    (hseen : Faithful lib.statements (readings lib m (before ++ [Event.run r]))) :
    (∀ p ∈ manifestPaths (before ++ [Event.run r]), ∀ content,
      (after lib m (before ++ [Event.run r])).disk.read p = .ok content →
        content = [] ∨ ∃ manifest : Manifest,
          Text.toBytes? (Manifest.toText manifest) = some content ∧
          Manifest.ofBytes lib.json p content = .ok manifest ∧ ∀ e ∈ manifest.entries,
            Genuine lib.statements (readings lib m (before ++ [Event.run r])) e.1 e.2) ∧
    (∀ o o', ((Project.run host lib r).run.run (after lib m before)).1 = .ok o →
      ((Project.run host lib r.scratch).run.run (after lib m before)).1 = .ok o' →
        o.result.Agrees o'.result) ∧
    (Unkept lib (after lib m before).disk r →
      ((Project.run host lib r).run.run (after lib m before)).1 = .error .unencodable ∧
      (r.output.place? r.config.output = none →
        ∃ o, ((Project.run host lib r.scratch).run.run (after lib m before)).1 = .ok o)) ∧
    (Encodable lib (readings lib m (before ++ [Event.run r])) →
      ¬ Unkept lib (after lib m before).disk r) ∧
    (¬ Unkept lib (after lib m before).disk r → Apart m.disk.home r →
      Agree ((Project.run host lib r).run.run (after lib m before)).1
        ((Project.run host lib r.scratch).run.run (after lib m before)).1) := by
  have hheld : ∀ p ∈ manifestPath r, ∀ content,
      (after lib m before).disk.fileAt? (p.place (after lib m before).disk.home) = some content →
        Held lib.statements (readings lib m (before ++ [Event.run r])) content := by
    intro p hp
    refine hm.sound_before hjson hseen p (List.mem_filterMap.2 ⟨.run r, ?_, hp⟩)
    exact List.mem_append_right _ List.mem_cons_self
  have htexts : ∀ x ∈ readingsOf (textsOn (after lib m before).disk r.config),
      x ∈ readings lib m (before ++ [Event.run r]) := by
    intro x hx
    rw [readings_append]
    exact List.mem_append_right _ (List.mem_append_left _ hx)
  refine ⟨?_, ?_, ?_, ?_, ?_⟩
  · intro p hp content hread
    have hafter := (hm.sound _).after hjson hseen (fun _ hp => hp) hm.apart fun _ hx => hx
    rcases (hafter p hp content (Disk.fileAt?_of_read hread)).read hjson hseen p with
      ⟨hnil, -⟩ | ⟨manifest, htext, hbytes, -, hgenuine⟩
    · exact .inl hnil
    · exact .inr ⟨manifest, htext, hbytes, hgenuine⟩
  · exact fun o o' => results_agree hjson hseen hheld htexts
  · exact run_of_unkept hjson hseen hheld htexts
  · intro hencodable
    refine (hm.sound_before hjson hseen).not_unkept hjson hseen hencodable (fun p hp => ?_) htexts
    exact List.mem_filterMap.2 ⟨.run r, List.mem_append_right _ List.mem_cons_self, hp⟩
  · intro hkept hapart
    rw [← home_after m before] at hapart
    exact agree_of_kept hjson hseen hheld htexts hkept hapart

end History

/-! ## Two histories -/

/-- A run over two sources that keeps their facts and writes no reports. -/
def twoSources : Request where
  config := { paths := ["a.py", "b.py"] }
  manifest := .at "facts"
  output := .nowhere

/-- The text `def f(): pass`. -/
def oldText : List UInt8 := [100, 101, 102, 32, 102, 40, 41, 58, 32, 112, 97, 115, 115, 10]

/-- The text `f()`. -/
def callText : List UInt8 := [102, 40, 41, 10]

/-- The text `def g(): f()`. -/
def newText : List UInt8 := [100, 101, 102, 32, 103, 40, 41, 58, 32, 102, 40, 41, 10]

/-- Two sources are written. -/
def written : List Event := [.write (.ofText "a.py") oldText, .write (.ofText "b.py") callText]

/-- Two sources are written and analysed, then one of them is rewritten. -/
def rewritten : List Event := written ++ [.run twoSources, .write (.ofText "a.py") newText]

/-- A disk with the two sources and other files. -/
def withSources (text : List UInt8) (others : List (List String × DiskNode)) : Disk :=
  { nodes := ⟨(["a.py"], .file text) :: (["b.py"], .file callText) :: others⟩ }

theorem readingsOf_withSources (text : List UInt8) (others : List (List String × DiskNode)) :
    readingsOf (textsOn (withSources text others) twoSources.config) =
      [(⟨"a.py", "a"⟩, text), (⟨"b.py", "b"⟩, callText)] := by
  have hroots : ((listings host (twoSources.config.paths.map .ofText)).run
      { disk := withSources text others }).1 =
        [(.ofText "a.py", .file), (.ofText "b.py", .file)] := rfl
  have hsources : sources [(.ofText "a.py", .file), (.ofText "b.py", .file)]
      twoSources.config.wanted twoSources.config.unwanted = [⟨"a.py", "a"⟩, ⟨"b.py", "b"⟩] := by
    simp only [sources]
    rw [List.mergeSort_of_pairwise (by decide +kernel)]
    decide +kernel
  rw [textsOn_eq, hroots, hsources]
  rfl

theorem disk_written : (after .standard {} written).disk = withSources oldText [] := by
  decide +kernel

theorem disk_rewrite {others : List (List String × DiskNode)} {m : Machine}
    (h : m.disk = withSources oldText others) :
    (Event.after .standard m (.write (.ofText "a.py") newText)).disk =
      withSources newText others := by
  obtain ⟨disk, printed, pages, clock, painter⟩ := m
  subst h
  rfl

/-- A run that writes no reports leaves the disk as it is, but for a text that it saves as the
manifest. -/
theorem disk_run {r : Request} {path : Path} (hpath : manifestPath r = some path)
    (hsilent : r.output.place? r.config.output = none) (m : Machine) :
    ((Project.run host lib r).run.run m).2.disk = m.disk ∨ ∃ m' text, m'.disk = m.disk ∧
      ((Project.run host lib r).run.run m).2.disk = ((host.save path text).run m').2.disk := by
  obtain ⟨m', hdisk, -, -, hrun⟩ := run_eq lib r m
  rw [hrun]
  cases analysedOn lib m.disk r with
  | error e => exact .inl hdisk
  | ok a =>
    obtain ⟨n, hn, -, -, hupdate⟩ := run_updatesOf hpath a m'
    have hreports : reportsOf r a.2.2 = pure {} := by rw [reportsOf, hsilent]
    refine .inr ⟨m', manifestText m'.disk a, hdisk, ?_⟩
    rw [← hn]
    simp only [run_conclude, hreports, hupdate]
    split_ifs <;> rfl

theorem disk_run_twoSources {m : Machine} (h : m.disk = withSources oldText []) :
    ∃ others, (Event.after .standard m (.run twoSources)).disk = withSources oldText others := by
  have hpath : manifestPath twoSources = some (.ofText "facts") := rfl
  rcases disk_run .standard hpath rfl m with hsame | ⟨m', text, hdisk, hsaved⟩
  · exact ⟨[], hsame.trans h⟩
  · refine ⟨[(["facts"], .file ((Text.toBytes? text).getD []))], hsaved.trans ?_⟩
    rw [h] at hdisk
    obtain ⟨disk, printed, pages, clock, painter⟩ := m'
    subst hdisk
    rfl

theorem readings_rewritten : readings .standard {} (rewritten ++ [Event.run twoSources]) =
    [(⟨"a.py", "a"⟩, oldText), (⟨"b.py", "b"⟩, callText),
      (⟨"a.py", "a"⟩, newText), (⟨"b.py", "b"⟩, callText)] := by
  obtain ⟨others, hrun⟩ := disk_run_twoSources disk_written
  rw [rewritten, List.append_assoc, readings_append]
  simp only [List.cons_append, List.nil_append, readings, Event.readings, List.append_nil]
  rw [disk_written, readingsOf_withSources, disk_rewrite hrun, readingsOf_withSources]
  rfl

/-- The text `"\ud800"`, a documentation that is half of a surrogate pair. -/
def halfText : List UInt8 := [34, 92, 117, 100, 56, 48, 48, 34]

/-- A run over one source that keeps its facts and writes no reports. -/
def oneSource : Request where
  config := { paths := ["a.py"] }
  manifest := .at "facts"
  output := .nowhere

/-- A disk with the one source. -/
def halfDisk : Disk := { nodes := ⟨[(["a.py"], .file halfText)]⟩ }

/-- Collecting the text gives well-typed facts, one of them without an encoding. -/
theorem collect_halfText :
    ∃ u, collect Source.read "a" "a.py" halfText = .ok u ∧ u.unit = "a.py" ∧
      (∀ f ∈ u.facts, f.WellTyped) ∧ ∃ f ∈ u.facts, f.toValue.encodable = false := by
  have h : ∃ u ∈ (collect Source.read "a" "a.py" halfText).toOption, u.unit = "a.py" ∧
      (∀ f ∈ u.facts, f.WellTyped) ∧ ∃ f ∈ u.facts, f.toValue.encodable = false := by
    decide +kernel
  cases hu : collect Source.read "a" "a.py" halfText with
  | error e => simp [hu, Except.toOption] at h
  | ok u =>
    rw [hu] at h
    obtain ⟨v, hv, h⟩ := h
    obtain rfl : u = v := Option.some_inj.1 hv
    exact ⟨u, rfl, h⟩

theorem disk_half : (after .standard {} [.write (.ofText "a.py") halfText]).disk = halfDisk := by
  decide +kernel

theorem textsOn_halfDisk :
    textsOn halfDisk oneSource.config = [⟨⟨"a.py", "a"⟩, .ok halfText⟩] :=
  @textsOn_file halfDisk oneSource.config (.ofText "a.py") rfl rfl

theorem unkept_half : Unkept .standard halfDisk oneSource := by
  obtain ⟨⟨unit, module, digest, facts⟩, hu, hunit, -, f, hf, hnone⟩ := collect_halfText
  obtain rfl : unit = "a.py" := hunit
  have hcompile : Ignore.compileAll Library.standard.pattern oneSource.config.ignore = .ok [] := rfl
  have hheld : heldAt .standard halfDisk (manifestPath oneSource) = .ok ∅ := rfl
  have hcollect : collectAll Library.standard.statements ∅ (textsOn halfDisk oneSource.config) =
      .ok [.fresh ⟨"a.py", module, digest, facts⟩] := by
    have hnone : reusable? ∅ ⟨"a.py", "a"⟩ halfText = none := rfl
    rw [textsOn_halfDisk]
    refine collectAll_singleton ?_
    simp only [collectOne, hnone, Library.standard, hu]
  obtain ⟨res, hres⟩ := exists_result oneSource.config [.fresh ⟨"a.py", module, digest, facts⟩]
  refine ⟨.ofText "facts", (∅, [.fresh ⟨"a.py", module, digest, facts⟩], res), rfl, ?_, ?_, _, _,
    rfl, rfl⟩
  · unfold analysedOn
    simp only [hcompile, hheld, hcollect, hres, Except.mapError, ok_bind]
    rfl
  · refine Manifest.toBytes?_toText_of_fact (e := ("a.py", ⟨digest, module, facts⟩)) ?_ hf hnone
    exact List.mem_filter.2 ⟨List.mem_mergeSort.2 List.mem_cons_self, rfl⟩

/-- The history of two runs has what is assumed, and so their results agree; the second run reuses
the facts of one source and collects those of the other. A run over one source whose documentation
is half of a surrogate pair ends because of its manifest, and without a manifest it returns. -/
theorem half_ends_run :
    (∀ content, (after .standard {} (rewritten ++ [Event.run twoSources])).disk.read
      (.ofText "facts") =
      .ok content → content = [] ∨ ∃ manifest : Manifest,
        Text.toBytes? (Manifest.toText manifest) = some content ∧
        Manifest.ofBytes Library.standard.json (.ofText "facts") content = .ok manifest ∧
        ∀ e ∈ manifest.entries, Genuine Library.standard.statements
          (readings .standard {} (rewritten ++ [Event.run twoSources])) e.1 e.2) ∧
    Agree ((Project.run host .standard twoSources).run.run (after .standard {} rewritten)).1
      ((Project.run host .standard twoSources.scratch).run.run (after .standard {} rewritten)).1 ∧
    ((Project.run host .standard oneSource).run.run
      (after .standard {} [.write (.ofText "a.py") halfText])).1 = .error .unencodable ∧
    ∃ o, ((Project.run host .standard oneSource.scratch).run.run
      (after .standard {} [.write (.ofText "a.py") halfText])).1 = .ok o := by
  have hjson : Manifest.Recovers Library.standard.json := Manifest.recovers_readJson
  have hm : Undisturbed {} (rewritten ++ [Event.run twoSources]) :=
    ⟨by decide +kernel, by decide +kernel⟩
  have hseen : Faithful Library.standard.statements
      (readings .standard {} (rewritten ++ [Event.run twoSources])) := by
    rw [readings_rewritten]
    decide +kernel
  have hencodable : Encodable .standard
      (readings .standard {} (rewritten ++ [Event.run twoSources])) := by
    rw [readings_rewritten, Encodable]
    decide +kernel
  obtain ⟨hkept, -, -, hunkept, hagree⟩ := run_agree_scratch {} rewritten twoSources hjson hm hseen
  refine ⟨hkept (.ofText "facts") (by decide +kernel), hagree (hunkept hencodable) ?_, ?_⟩
  · intro path _ place hplace
    cases hplace
  have hm' : Undisturbed {} ([.write (.ofText "a.py") halfText] ++ [Event.run oneSource]) :=
    ⟨by decide +kernel, by decide +kernel⟩
  have hreadings : readings .standard {}
      ([.write (.ofText "a.py") halfText] ++ [Event.run oneSource]) =
        [(⟨"a.py", "a"⟩, halfText)] := by
    rw [readings_append]
    simp only [readings, Event.readings, List.nil_append, List.append_nil, disk_half,
      textsOn_halfDisk]
    rfl
  have hseen' : Faithful Library.standard.statements (readings .standard {}
      ([.write (.ofText "a.py") halfText] ++ [Event.run oneSource])) := by
    rw [hreadings]
    refine ⟨by simp, fun x hx u hu => ?_⟩
    obtain rfl := List.mem_singleton.1 hx
    obtain ⟨v, hv, -, htyped, -⟩ := collect_halfText
    obtain rfl : v = u := Except.ok.inj (hv.symm.trans hu)
    exact htyped
  obtain ⟨-, -, hended, -, -⟩ := run_agree_scratch {} _ oneSource hjson hm' hseen'
  rw [disk_half] at hended
  obtain ⟨hended, hscratch⟩ := hended unkept_half
  exact ⟨hended, hscratch rfl⟩

end Deadwood.Project
