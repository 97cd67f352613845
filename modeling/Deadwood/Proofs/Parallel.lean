import Deadwood.Proofs.Encodable
import Deadwood.Proofs.Genuine

/-!
# Reports on two machines

A run that keeps a manifest writes its reports to a disk that differs from the one of a run without
a manifest: in the file of the manifest and in directories around it. The texts differ as well, as a
report says how many sources were collected and how many reused. Both runs still write the reports
alike, or fail alike, if the reports stand apart from the manifest.

* `Disk.Beside trail place d d'`: the disks differ only in directories on a trail, in a file at a
  place and in the contents of files. Each operation on both disks keeps that.
* `Parallel R S related x y`: two steps on machines in the relation `R` end alike, in the relation
  `S`.
* `parallel_writeReports`: writing the reports is such a step.
-/

namespace Deadwood

/-! ## Disks -/

namespace Disk

variable {trail : List (List String)} {place : List String} {d d' e e' : Disk} {p : Path}

/-- `d` differs from `d'` in directories on a trail and in a file at a place, which `d'` lacks, and
in what stands in files. -/
structure Beside (trail : List (List String)) (place : List String) (d d' : Disk) : Prop where
  home : d.home = d'.home
  at? : ∀ q, d.at? q = d'.at? q ∨
    (∃ c c', d.at? q = some (.file c) ∧ d'.at? q = some (.file c')) ∨
    (q ∈ trail ∧ d.at? q = some .directory ∧ d'.at? q = none) ∨
    (q = place ∧ (∃ c, d.at? q = some (.file c)) ∧ d'.at? q = none)

theorem Beside.refl (d : Disk) : Beside trail place d d := ⟨rfl, fun _ => .inl rfl⟩

namespace Beside

theorem directory_of (h : Beside trail place d d') {q : List String}
    (hq : d'.at? q = some .directory) : d.at? q = some .directory := by
  rcases h.at? q with hsame | ⟨c, c', -, hfile⟩ | ⟨-, hdir, -⟩ | ⟨-, -, hnone⟩
  · exact hsame.trans hq
  · rw [hq] at hfile
    cases hfile
  · exact hdir
  · rw [hq] at hnone
    cases hnone

theorem directory_iff (h : Beside trail place d d') {q : List String} (htrail : q ∉ trail) :
    d.at? q = some .directory ↔ d'.at? q = some .directory := by
  refine ⟨fun hq => ?_, h.directory_of⟩
  rcases h.at? q with hsame | ⟨c, c', hfile, -⟩ | ⟨hmem, -⟩ | ⟨-, ⟨c, hfile⟩, -⟩
  · exact hsame.symm.trans hq
  · rw [hq] at hfile
    cases hfile
  · exact absurd hmem htrail
  · rw [hq] at hfile
    cases hfile

/-- No file is in the way on one disk if none is on the other. -/
theorem open_iff (h : Beside trail place d d') (hplace : place ∉ p.trail d'.home) :
    d.Open p ↔ d'.Open p := by
  unfold Open
  rw [h.home]
  refine forall₂_congr fun q hq => ?_
  rcases h.at? q with hsame | ⟨c, c', hfile, hfile'⟩ | ⟨-, hdir, hnone⟩ | ⟨rfl, -⟩
  · rw [hsame]
  · exact iff_of_false (fun h => h c hfile) fun h => h c' hfile'
  · simp [hdir, hnone]
  · exact absurd hq hplace

theorem extended (h : Beside trail place d d') (hplace : place ∉ p.trail d'.home)
    (he : Extended d (p.trail d.home) e) (he' : Extended d' (p.trail d'.home) e') :
    Beside trail place e e' where
  home := by rw [he.home, he'.home, h.home]
  at? q := by
    rw [he.at?, he'.at?, h.home]
    rcases h.at? q with hsame | ⟨c, c', hfile, hfile'⟩ | ⟨hmem, hdir, hnone⟩ | ⟨rfl,
      ⟨c, hfile⟩, hnone⟩
    · exact .inl (by rw [hsame])
    · exact .inr (.inl ⟨c, c', by simp [hfile], by simp [hfile']⟩)
    · by_cases hq : q ∈ p.trail d'.home
      · exact .inl (by simp [hdir, hnone, hq])
      · exact .inr (.inr (.inl ⟨hmem, by simp [hdir], by simp [hnone, hq]⟩))
    · exact .inr (.inr (.inr ⟨rfl, ⟨c, by simp [hfile]⟩, by simp [hnone, hplace]⟩))

theorem replaced {q : List String} {node node' : Option DiskNode} (h : Beside trail place d d')
    (he : Replaced d q node e) (he' : Replaced d' q node' e')
    (hnode : node = node' ∨ ∃ c c', node = some (.file c) ∧ node' = some (.file c')) :
    Beside trail place e e' where
  home := by rw [he.home, he'.home, h.home]
  at? r := by
    rw [he.at?, he'.at?]
    by_cases hr : r = q
    · rw [if_pos hr, if_pos hr]
      rcases hnode with rfl | hfiles
      · exact .inl rfl
      · exact .inr (.inl hfiles)
    · rw [if_neg hr, if_neg hr]
      exact h.at? r

/-- What the file of a manifest and the directories around it add to a disk. -/
theorem of_extended (h : Extended d trail e) : Beside trail place e d where
  home := h.home
  at? q := by
    rw [h.at?]
    by_cases hnew : q ∈ trail ∧ d.at? q = none
    · exact .inr (.inr (.inl ⟨hnew.1, by simp [hnew], hnew.2⟩))
    · exact .inl (if_neg hnew)

theorem of_replaced {content : List UInt8} (h : Beside trail place d d')
    (hdir : d.at? place ≠ some .directory) (he : Replaced d place (some (.file content)) e) :
    Beside trail place e d' where
  home := he.home.trans h.home
  at? q := by
    rw [he.at?]
    by_cases hq : q = place
    · rw [if_pos hq]
      cases hnode : d'.at? q with
      | none => exact .inr (.inr (.inr ⟨hq, ⟨content, rfl⟩, rfl⟩))
      | some node =>
        cases node with
        | file c => exact .inr (.inl ⟨content, c, rfl, rfl⟩)
        | directory => exact absurd (h.directory_of hnode) (hq ▸ hdir)
    · rw [if_neg hq]
      exact h.at? q

end Beside

end Disk

namespace Machine

variable {manifest : Path} {home : List String} {dirs : List Path} {m m' : Machine} {p : Path}

/-- Saving a text leads to a disk beside the one from before. -/
theorem beside_save (p : Path) (text : String) (m : Machine) :
    Disk.Beside (p.parent.trail m.disk.home) (p.place m.disk.home)
      ((host.save p text).run m).2.disk m.disk := by
  rw [run_save]
  cases hd : m.disk.makeDirectories p.parent with
  | error e => exact .refl _
  | ok disk =>
    obtain ⟨-, hext⟩ := Disk.extended_of_makeDirectories hd
    have hbeside : Disk.Beside (p.parent.trail m.disk.home) (p.place m.disk.home) disk m.disk :=
      .of_extended hext
    simp only [run_writeText]
    cases hw : disk.write p ((Text.toBytes? text).getD []) with
    | error e => exact hbeside
    | ok disk' =>
      obtain ⟨-, hdir, hreplaced⟩ := Disk.replaced_of_write hw
      rw [hext.home] at hdir hreplaced
      exact hbeside.of_replaced hdir hreplaced

/-- On the first machine a manifest was saved, on the second one not. The machines differ in their
disks, and in what was printed and shown. The given paths lead through directories. -/
structure Beside (manifest : Path) (home : List String) (dirs : List Path) (m m' : Machine) :
    Prop where
  atHome : m'.disk.home = home
  disk : m.disk.Beside (manifest.parent.trail home) (manifest.place home) m'.disk
  clock : m.clock = m'.clock
  painter : m.painter = m'.painter
  made : ∀ p ∈ dirs, ∀ q ∈ p.trail home, m'.disk.at? q = some .directory

/-- A path without parts, or one that leads to an entry of one of the directories. -/
def Within (dirs : List Path) (p : Path) : Prop := p.parts = [] ∨ p.parent ∈ dirs

namespace Beside

theorem locate (h : Beside manifest home dirs m m') (hp : Within dirs p) :
    m.disk.locate p = .ok (p.place m.disk.home) := by
  refine Disk.locate_of_parent (hp.imp_right fun hp q hq => ?_)
  rw [h.disk.home, h.atHome] at hq
  exact h.disk.directory_of (h.made p.parent hp q hq)

theorem locate' (h : Beside manifest home dirs m m') (hp : Within dirs p) :
    m'.disk.locate p = .ok (p.place m'.disk.home) := by
  refine Disk.locate_of_parent (hp.imp_right fun hp q hq => ?_)
  rw [h.atHome] at hq
  exact h.made p.parent hp q hq

theorem printed (h : Beside manifest home dirs m m') (s s' : String) :
    Beside manifest home dirs { m with printed := s } { m' with printed := s' } :=
  ⟨h.atHome, h.disk, h.clock, h.painter, h.made⟩

theorem mono (h : Beside manifest home dirs m m') {dirs' : List Path}
    (hdirs : ∀ p ∈ dirs', p ∈ dirs) : Beside manifest home dirs' m m' :=
  ⟨h.atHome, h.disk, h.clock, h.painter, fun p hp => h.made p (hdirs p hp)⟩

/-- Directories are made on both machines, or a file is in the way on both. -/
theorem makeDirectories (h : Beside manifest home dirs m m')
    (hp : manifest.place home ∉ p.trail home) :
    (∃ e e', (host.makeDirectories p).run m = (.error e, m) ∧
      (host.makeDirectories p).run m' = (.error e', m')) ∨
    ∃ n n', (host.makeDirectories p).run m = (.ok (), n) ∧
      (host.makeDirectories p).run m' = (.ok (), n') ∧ Beside manifest home (p :: dirs) n n' := by
  have hplace : manifest.place home ∉ p.trail m'.disk.home := by rwa [h.atHome]
  have hiff := h.disk.open_iff hplace
  by_cases hopen : m'.disk.Open p
  · obtain ⟨e, he, hext⟩ := Disk.makeDirectories_of_open (hiff.2 hopen)
    obtain ⟨e', he', hext'⟩ := Disk.makeDirectories_of_open hopen
    refine .inr ⟨{ m with disk := e }, { m' with disk := e' },
      run_change_ok (f := (·.makeDirectories p)) he, run_change_ok (f := (·.makeDirectories p)) he',
      hext'.home.trans h.atHome, h.disk.extended hplace hext hext', h.clock, h.painter, ?_⟩
    refine List.forall_mem_cons.2 ⟨fun q hq => ?_, fun f hf q hq => ?_⟩
    · refine hext'.directories hopen q ?_
      rwa [hext'.home, h.atHome]
    · exact hext'.of_some (h.made f hf q hq)
  · obtain ⟨e, he⟩ := Disk.makeDirectories_of_not_open fun ho => hopen (hiff.1 ho)
    obtain ⟨e', he'⟩ := Disk.makeDirectories_of_not_open hopen
    exact .inl ⟨e, e', run_change_error (f := (·.makeDirectories p)) he,
      run_change_error (f := (·.makeDirectories p)) he'⟩

/-- Putting a file at a place, or removing it, on both machines. -/
theorem replaced (h : Beside manifest home dirs m m') {q : List String}
    {node node' : Option DiskNode} {e e' : Disk} (he : m.disk.Replaced q node e)
    (he' : m'.disk.Replaced q node' e') (hdir : m'.disk.at? q ≠ some .directory)
    (hnode : node = node' ∨ ∃ c c', node = some (.file c) ∧ node' = some (.file c')) :
    Beside manifest home dirs { m with disk := e } { m' with disk := e' } := by
  refine ⟨he'.home.trans h.atHome, h.disk.replaced he he' hnode, h.clock, h.painter, ?_⟩
  intro f hf r hr
  have hmade := h.made f hf r hr
  rw [he'.of_ne, hmade]
  rintro rfl
  exact hdir hmade

/-- A file in one of the directories is written on both machines, or on none. -/
theorem write (h : Beside manifest home dirs m m') (hp : Within dirs p)
    (htrail : p.place home ∉ manifest.parent.trail home) (content content' : List UInt8) :
    (∃ e e', m.disk.write p content = .error e ∧ m'.disk.write p content' = .error e') ∨
    ∃ e e', m.disk.write p content = .ok e ∧ m'.disk.write p content' = .ok e' ∧
      Beside manifest home dirs { m with disk := e } { m' with disk := e' } := by
  have hhome := h.disk.home.trans h.atHome
  have hiff : m.disk.at? (p.place m.disk.home) = some .directory ↔
      m'.disk.at? (p.place m'.disk.home) = some .directory := by
    rw [hhome, h.atHome]
    exact h.disk.directory_iff htrail
  by_cases hdir : m'.disk.at? (p.place m'.disk.home) = some .directory
  · exact .inl ⟨_, _, Disk.write_of_directory (h.locate hp) (hiff.2 hdir) content,
      Disk.write_of_directory (h.locate' hp) hdir content'⟩
  · obtain ⟨e, he, hreplaced⟩ := Disk.write_of_not_directory (h.locate hp)
      (fun hd => hdir (hiff.1 hd)) content
    obtain ⟨e', he', hreplaced'⟩ := Disk.write_of_not_directory (h.locate' hp) hdir content'
    rw [hhome] at hreplaced
    rw [h.atHome] at hreplaced' hdir
    exact .inr ⟨e, e', he, he', h.replaced hreplaced hreplaced' hdir (.inr ⟨_, _, rfl, rfl⟩)⟩

/-- A file that stands in one of the directories is removed on both machines. -/
theorem remove (h : Beside manifest home dirs m m') (hp : Within dirs p) {c c' : List UInt8}
    (hc : m.disk.at? (p.place home) = some (.file c))
    (hc' : m'.disk.at? (p.place home) = some (.file c')) :
    ∃ n n', (host.remove p).run m = (.ok (), n) ∧ (host.remove p).run m' = (.ok (), n') ∧
      Beside manifest home dirs n n' := by
  have hhome := h.disk.home.trans h.atHome
  obtain ⟨e, he⟩ := Disk.remove_of_file (h.locate hp) (hhome ▸ hc)
  obtain ⟨e', he'⟩ := Disk.remove_of_file (h.locate' hp) (h.atHome.symm ▸ hc')
  have hreplaced := Disk.replaced_of_remove he
  have hreplaced' := Disk.replaced_of_remove he'
  rw [hhome] at hreplaced
  rw [h.atHome] at hreplaced'
  exact ⟨_, _, run_change_ok (f := (·.remove p)) he, run_change_ok (f := (·.remove p)) he',
    h.replaced hreplaced hreplaced' (by simp [hc']) (.inl rfl)⟩

end Beside

end Machine

namespace Project

open Machine

/-! ## Steps on two machines -/

/-- The same reason to end a run, or a failure of the file system in both cases. -/
def RunError.Matches (e e' : RunError) : Prop := e = e' ∨ ∃ f f', e = .file f ∧ e' = .file f'

section Parallel

variable {α β γ δ ε : Type} {pre mid : Machine → Machine → Prop}
  {post : α → β → Machine → Machine → Prop} {post' : γ → δ → Machine → Machine → Prop}

/-- Two steps end with values and machines that are so related, or with errors that match. -/
def Ends (post : α → β → Machine → Machine → Prop) :
    Except RunError α × Machine → Except RunError β × Machine → Prop
  | (.ok a, m), (.ok b, m') => post a b m m'
  | (.error e, _), (.error e', _) => e.Matches e'
  | _, _ => False

/-- From machines in the relation `pre` two steps end in the relation `post`. -/
def Parallel (pre : Machine → Machine → Prop) (post : α → β → Machine → Machine → Prop)
    (x : Step (StateM Machine) α) (y : Step (StateM Machine) β) : Prop :=
  ∀ m m', pre m m' → Ends post (x.run.run m) (y.run.run m')

/-- The values are the same and the machines so related. -/
def Same (pre : Machine → Machine → Prop) (a b : α) (m m' : Machine) : Prop := a = b ∧ pre m m'

theorem Parallel.bind {x : Step (StateM Machine) α} {y : Step (StateM Machine) β}
    {f : α → Step (StateM Machine) γ} {g : β → Step (StateM Machine) δ}
    (h : Parallel pre post x y) (hfg : ∀ a b, Parallel (post a b) post' (f a) (g b)) :
    Parallel pre post' (x >>= f) (y >>= g) := by
  intro m m' hm
  have hends := h m m' hm
  rw [run_bind, run_bind]
  generalize x.run.run m = ran at hends ⊢
  generalize y.run.run m' = ran' at hends ⊢
  obtain ⟨outcome, n⟩ := ran
  obtain ⟨outcome', n'⟩ := ran'
  cases outcome <;> cases outcome'
  case ok.ok a b => exact hfg a b n n' hends
  case error.error => exact hends
  all_goals exact hends.elim

theorem Parallel.bindSame {x y : Step (StateM Machine) α} {f : α → Step (StateM Machine) γ}
    {g : α → Step (StateM Machine) δ} (h : Parallel pre (Same mid) x y)
    (hfg : ∀ a, Parallel mid post' (f a) (g a)) : Parallel pre post' (x >>= f) (y >>= g) := by
  refine h.bind fun a b => ?_
  rintro m m' ⟨rfl, hm⟩
  exact hfg a m m' hm

theorem Parallel.weaken {x : Step (StateM Machine) α} {y : Step (StateM Machine) β}
    (h : Parallel mid post x y) (hpre : ∀ m m', pre m m' → mid m m') : Parallel pre post x y :=
  fun m m' hm => h m m' (hpre m m' hm)

theorem Parallel.pure (a : α) (h : ∀ m m', pre m m' → mid m m') :
    Parallel pre (Same mid) (pure a) (pure a) := fun m m' hm => ⟨rfl, h m m' hm⟩

theorem Parallel.throw (e : RunError) :
    Parallel pre post (MonadExcept.throw e) (MonadExcept.throw e) := fun _ _ _ => .inl rfl

theorem Parallel.throw_bind (e : RunError) (f : γ → Step (StateM Machine) α)
    (g : δ → Step (StateM Machine) β) :
    Parallel pre post (MonadExcept.throw e >>= f) (MonadExcept.throw e >>= g) :=
  fun _ _ _ => .inl rfl

theorem Parallel.orEnd (wrap : ε → RunError) (x : Except ε α) :
    Parallel pre (Same pre) (orEnd wrap x) (orEnd wrap x) := by
  cases x with
  | ok a => exact .pure a fun _ _ h => h
  | error e => exact .throw _

theorem Parallel.lift {x : StateM Machine α} {y : StateM Machine β}
    (h : ∀ m m', pre m m' → post (x.run m).1 (y.run m').1 (x.run m).2 (y.run m').2) :
    Parallel pre post (liftM x) (liftM y) := h

end Parallel

/-! ## Reports on two machines -/

section Reports

variable {manifest : Path} {home : List String} {dirs : List Path} {p : Path}

/-- Directories were made on both machines or on none. -/
def Made (manifest : Path) (home : List String) (dirs : List Path) (p : Path) :
    Except FileError Unit → Except FileError Unit → Machine → Machine → Prop
  | .ok _, .ok _ => Beside manifest home (p :: dirs)
  | .error _, .error _ => Beside manifest home dirs
  | _, _ => fun _ _ => False

theorem parallel_makeDirectories (hp : manifest.place home ∉ p.trail home) :
    Parallel (Beside manifest home dirs) (Made manifest home dirs p)
      (liftM (host.makeDirectories p)) (liftM (host.makeDirectories p)) := by
  refine .lift fun m m' h => ?_
  rcases h.makeDirectories hp with ⟨e, e', he, he'⟩ | ⟨n, n', hn, hn', hbeside⟩
  · rw [he, he']
    exact h
  · rw [hn, hn']
    exact hbeside

/-- A text was written on both machines or on none. -/
def Wrote (pre post : Machine → Machine → Prop) :
    Except WriteError Unit → Except WriteError Unit → Machine → Machine → Prop
  | .ok _, .ok _ => post
  | .error .unencodable, .error .unencodable => fun _ _ => True
  | .error (.file _), .error (.file _) => pre
  | _, _ => fun _ _ => False

/-- The machines are beside each other, and the texts stand in the file. -/
def Holding (manifest : Path) (home : List String) (dirs : List Path) (p : Path) (s t : String)
    (m m' : Machine) : Prop :=
  Beside manifest home dirs m m' ∧ m.disk.read p = .ok ((Text.toBytes? s).getD []) ∧
    m'.disk.read p = .ok ((Text.toBytes? t).getD [])

theorem parallel_writeText (hp : Within dirs p)
    (htrail : p.place home ∉ manifest.parent.trail home) {s t : String}
    (h : (Text.toBytes? s).isSome = (Text.toBytes? t).isSome) :
    Parallel (Beside manifest home dirs)
      (Wrote (Beside manifest home dirs) (Holding manifest home dirs p s t))
      (liftM (host.writeText p s)) (liftM (host.writeText p t)) := by
  refine .lift fun m m' hm => ?_
  rw [run_writeText, run_writeText]
  rcases hm.write hp htrail ((Text.toBytes? s).getD []) ((Text.toBytes? t).getD []) with
    ⟨e, e', he, he'⟩ | ⟨e, e', he, he', hbeside⟩
  · rw [he, he']
    exact hm
  · rw [he, he', h]
    cases (Text.toBytes? t).isSome with
    | true => exact ⟨hbeside, Disk.read_of_write he, Disk.read_of_write he'⟩
    | false => trivial

theorem parallel_writeFile (hp : Within dirs p)
    (htrail : p.place home ∉ manifest.parent.trail home) {s t : String}
    (h : (Text.toBytes? s).isSome = (Text.toBytes? t).isSome) :
    Parallel (Beside manifest home dirs) (Same (Holding manifest home dirs p s t))
      (writeFile host p s) (writeFile host p t) := by
  refine (parallel_writeText hp htrail h).bind fun r r' => ?_
  rcases r with (e | _) | _ <;> rcases r' with (e' | _) | _
  case ok.ok => exact fun m m' hm => ⟨rfl, hm⟩
  case error.unencodable.error.unencodable => exact fun _ _ _ => .inl rfl
  case error.file.error.file => exact fun _ _ _ => .inr ⟨e, e', rfl, rfl⟩
  all_goals exact fun m m' hm => hm.elim

theorem parallel_complain (e e' : FileError) :
    Parallel (Beside manifest home dirs) (Same (Beside manifest home dirs))
      (writeHtml.complain host e) (writeHtml.complain host e') := by
  refine Parallel.bindSame (Parallel.lift fun m m' hm => ?_) fun _ => .pure none fun _ _ h => h
  exact ⟨rfl, hm.printed _ _⟩

/-- The HTML report does not depend on what a report tells besides the findings. -/
theorem parallel_writeHtml {config : Config} {directory : Path} {working : String}
    {findings : List Finding} {data data' : List (String × Value)}
    (hparent : manifest.place home ∉ (htmlPath config directory).parent.trail home)
    (htrail : (htmlPath config directory).place home ∉ manifest.parent.trail home)
    (hpage : ∀ tree, Report.page (Report.withFields data [("tree", tree)]) =
      Report.page (Report.withFields data' [("tree", tree)])) :
    Parallel (Beside manifest home dirs) (Same (Beside manifest home dirs))
      (writeHtml host config directory working findings data)
      (writeHtml host config directory working findings data') := by
  have hfewer : ∀ m m', Beside manifest home ((htmlPath config directory).parent :: dirs) m m' →
      Beside manifest home dirs m m' := fun m m' h => h.mono fun p hp => List.mem_cons_of_mem _ hp
  unfold writeHtml
  cases Report.tree working findings with
  | none => exact .throw_bind .noTree _ _
  | some tree =>
    refine Parallel.bindSame (Parallel.pure tree fun _ _ h => h) fun tree => ?_
    refine (parallel_makeDirectories hparent).bind fun made made' => ?_
    cases made <;> cases made'
    case error.error e e' => exact parallel_complain e e'
    case ok.ok =>
      dsimp only
      rw [hpage]
      refine Parallel.bindSame (Parallel.orEnd .page _) fun page => ?_
      refine (parallel_writeText (.inr List.mem_cons_self) htrail rfl).bind fun r r' => ?_
      rcases r with (e | _) | _ <;> rcases r' with (e' | _) | _
      case ok.ok => exact .pure _ fun m m' hm => hfewer m m' hm.1
      case error.unencodable.error.unencodable => exact .throw _
      case error.file.error.file => exact (parallel_complain e e').weaken hfewer
      all_goals exact fun m m' hm => hm.elim
    all_goals exact fun m m' hm => hm.elim

/-- The machines are beside each other, and something stands in the file on both. -/
def Standing (manifest : Path) (home : List String) (dirs : List Path) (p : Path)
    (m m' : Machine) : Prop :=
  Beside manifest home dirs m m' ∧ (∃ c, m.disk.at? (p.place home) = some (.file c)) ∧
    ∃ c, m'.disk.at? (p.place home) = some (.file c)

theorem Holding.standing {s t : String} {m m' : Machine}
    (h : Holding manifest home dirs p s t m m') : Standing manifest home dirs p m m' := by
  obtain ⟨hbeside, hread, hread'⟩ := h
  have hfile := Disk.fileAt?_eq_some_iff.1 (Disk.fileAt?_of_read hread)
  have hfile' := Disk.fileAt?_eq_some_iff.1 (Disk.fileAt?_of_read hread')
  rw [hbeside.disk.home, hbeside.atHome] at hfile
  rw [hbeside.atHome] at hfile'
  exact ⟨hbeside, ⟨_, hfile⟩, ⟨_, hfile'⟩⟩

theorem parallel_draw {s format : String} (hp : Within dirs (p.withEnding format))
    (htrail : (p.withEnding format).place home ∉ manifest.parent.trail home) :
    Parallel (Holding manifest home dirs p s s) (Same (Standing manifest home dirs p))
      (liftM (host.draw p format)) (liftM (host.draw p format)) := by
  refine .lift fun m m' hm => ?_
  have hstanding := hm.standing
  obtain ⟨hbeside, hread, hread'⟩ := hm
  cases hpainter : m'.painter with
  | none =>
    rw [run_draw_none (hbeside.painter.trans hpainter), run_draw_none hpainter]
    exact ⟨rfl, hstanding⟩
  | some paint =>
    have hpicture (d : Disk) (h : d.read p = .ok ((Text.toBytes? s).getD [])) :
        d.picture paint p format = (paint format ((Text.toBytes? s).getD [])).bind fun content =>
          (d.write (p.withEnding format) content).toOption := by
      rw [Disk.picture, h]
      rfl
    rw [run_draw_some (hbeside.painter.trans hpainter), run_draw_some hpainter,
      hpicture _ hread, hpicture _ hread']
    cases paint format ((Text.toBytes? s).getD []) with
    | none => exact ⟨rfl, hstanding⟩
    | some content =>
      rcases hbeside.write hp htrail content content
        with ⟨e, e', he, he'⟩ | ⟨e, e', he, he', hafter⟩
      · simp only [Option.bind_some, he, he', Except.toOption]
        exact ⟨rfl, hstanding⟩
      · simp only [Option.bind_some, he, he', Except.toOption]
        exact ⟨rfl, hafter, (Disk.replaced_of_write he).2.2.exists_file hstanding.2.1,
          (Disk.replaced_of_write he').2.2.exists_file hstanding.2.2⟩

theorem parallel_directory : Parallel (Beside manifest home dirs) (Same (Beside manifest home dirs))
    (liftM host.directory) (liftM host.directory) := by
  refine .lift fun m m' hm => ⟨?_, hm⟩
  change m.disk.directory = m'.disk.directory
  rw [Disk.directory, Disk.directory, hm.disk.home]

theorem parallel_now : Parallel (Beside manifest home dirs) (Same (Beside manifest home dirs))
    (liftM host.now) (liftM host.now) :=
  .lift fun _ _ hm => ⟨hm.clock, hm⟩

theorem parallel_remove (hp : Within dirs p) :
    Parallel (Standing manifest home dirs p) (Same (Beside manifest home dirs))
      (liftM (host.remove p)) (liftM (host.remove p)) := by
  refine .lift ?_
  rintro m m' ⟨hbeside, ⟨c, hc⟩, ⟨c', hc'⟩⟩
  obtain ⟨n, n', hn, hn', hafter⟩ := hbeside.remove hp hc hc'
  rw [hn, hn']
  exact ⟨rfl, hafter⟩

theorem parallel_writeDrawing {config : Config} {directory : Path} (hdir : directory ∈ dirs)
    (htrail : ∀ p ∈ [directory.child "call_graph.dot", directory.child "call_graph",
      (directory.child "call_graph").withEnding config.format],
        p.place home ∉ manifest.parent.trail home) {r r' : Result} (hr : r.Agrees r') :
    Parallel (Beside manifest home dirs) (Same (Beside manifest home dirs))
      (writeDrawing host config directory r) (writeDrawing host config directory r') := by
  have hwithin (entry : String) : Within dirs (directory.child entry) :=
    .inr (by rwa [Path.parent_child])
  have hpicture : Within dirs ((directory.child "call_graph").withEnding config.format) := by
    rw [Path.withEnding, Path.parent_child]
    exact hwithin _
  have htext : drawing r.graph r.findings r.live "" = drawing r'.graph r'.findings r'.live "" := by
    rw [hr]
  simp only [List.forall_mem_cons, List.not_mem_nil, false_imp_iff, implies_true, and_true]
    at htrail
  obtain ⟨hdot, hsource, hmade⟩ := htrail
  unfold writeDrawing
  rw [htext]
  refine Parallel.bindSame (parallel_writeFile (hwithin _) hdot (.refl _)) fun _ => ?_
  refine Parallel.weaken ?_ fun m m' hm => hm.1
  split
  · exact .throw_bind .unknownDrawingFormat _ _
  · refine Parallel.bindSame (parallel_writeFile (hwithin _) hsource rfl) fun _ => ?_
    refine Parallel.bindSame (parallel_draw hpicture hmade) fun drawn => ?_
    cases drawn with
    | noProgram => exact .pure _ fun m m' hm => hm.1
    | failed => exact .throw _
    | made =>
      refine Parallel.bindSame (parallel_remove (hwithin _)) fun removed => ?_
      exact Parallel.bindSame (.orEnd .file removed) fun _ => .pure _ fun _ _ h => h

/-- The documents of reports differ in how many sources were collected and how many reused, and a
count has always an encoding. -/
theorem isSome_toBytes?_data {r r' : Result} (hr : r.Agrees r') (time working : String) :
    (Text.toBytes?
      ((Value.dict (Report.data time working r.findings r.extra)).toJsonLines 0)).isSome =
    (Text.toBytes?
      ((Value.dict (Report.data time working r'.findings r'.extra)).toJsonLines 0)).isSome := by
  have hdata (r : Result) : Report.data time working r.findings r.extra =
      Report.data time working r.findings [] ++ r.extra := rfl
  have hextra : (Value.dict r.extra).encodable = (Value.dict r'.extra).encodable := by
    rw [hr]
    simp only [Result.extra, Summary.toFields, Value.encodable_dict, List.all_cons,
      Value.encodable_int]
  have hfindings : r.findings = r'.findings := by rw [hr]
  rw [Value.encodable_dict, Value.encodable_dict] at hextra
  rw [Value.isSome_toBytes?_toJsonLines, Value.isSome_toBytes?_toJsonLines, hdata, hdata,
    Value.encodable_dict, Value.encodable_dict, List.all_append, List.all_append, hextra, hfindings]

/-- A page shows the counts, the files, the tree, the time and the directory. -/
theorem page_congr {fields fields' : List (String × Value)}
    (h : ∀ name ∈ ["stats", "files", "tree", "timestamp", "project_root"],
      Value.field? fields name = Value.field? fields' name) :
    Report.page fields = Report.page fields' := by
  simp only [List.forall_mem_cons, List.not_mem_nil, false_imp_iff, implies_true, and_true] at h
  obtain ⟨hstats, hfiles, htree, htime, hroot⟩ := h
  simp only [Report.page, Report.fieldOf, hstats, hfiles, htree, htime, hroot]

theorem page_data {r r' : Result} (hr : r.Agrees r') (time working : String) (tree : Value) :
    Report.page (Report.withFields (Report.data time working r.findings r.extra) [("tree", tree)]) =
      Report.page
        (Report.withFields (Report.data time working r'.findings r'.extra) [("tree", tree)]) := by
  refine page_congr ?_
  rw [hr]
  simp only [List.forall_mem_cons, List.not_mem_nil, false_imp_iff, implies_true, and_true]
  exact ⟨rfl, rfl, rfl, rfl, rfl⟩

/-- The reports of a run stand apart from a file: it does not lie where a directory of a report is
needed, and no report lies where a directory around it is needed. -/
structure ReportsApart (config : Config) (directory manifest : Path) (home : List String) :
    Prop where
  folder : manifest.place home ∉ directory.trail home
  html : config.htmlReport = true →
    manifest.place home ∉ (htmlPath config directory).parent.trail home
  reports : ∀ p ∈ reportPaths config directory, p.place home ∉ manifest.parent.trail home

/-- **Reports are written alike** on machines beside each other. -/
theorem parallel_writeReports {config : Config} {directory : Path}
    (h : ReportsApart config directory manifest home) {r r' : Result} (hr : r.Agrees r') :
    Parallel (Beside manifest home []) (Same (Beside manifest home [directory]))
      (writeReports host config directory r) (writeReports host config directory r') := by
  have hfindings : r.findings = r'.findings := by rw [hr]
  have hdrawing : ∀ html : Option Path, Parallel (Beside manifest home [directory])
      (Same (Beside manifest home [directory]))
      (do
        let drawn ← if config.graph then some <$> writeDrawing host config directory r
          else pure none
        return (⟨some (directory.child "unused.json"), html, drawn.map (·.1), drawn.bind (·.2)⟩ :
          Written))
      (do
        let drawn ← if config.graph then some <$> writeDrawing host config directory r'
          else pure none
        return (⟨some (directory.child "unused.json"), html, drawn.map (·.1), drawn.bind (·.2)⟩ :
          Written)) := by
    intro html
    split_ifs with hgraph
    · rw [map_eq_pure_bind, bind_assoc, map_eq_pure_bind, bind_assoc]
      refine Parallel.bindSame (parallel_writeDrawing List.mem_cons_self ?_ hr) fun _ => ?_
      · exact fun p hp => h.reports p (List.mem_append_right _ (by rwa [if_pos hgraph]))
      · exact Parallel.bindSame (.pure _ fun _ _ h => h) fun _ => .pure _ fun _ _ h => h
    · exact Parallel.bindSame (.pure _ fun _ _ h => h) fun _ => .pure _ fun _ _ h => h
  unfold writeReports
  refine Parallel.bindSame parallel_directory fun working => ?_
  refine Parallel.bindSame parallel_now fun now => ?_
  refine (parallel_makeDirectories h.folder).bind fun made made' => ?_
  cases made <;> cases made'
  case error.error e e' => exact fun m m' _ => .inr ⟨e, e', rfl, rfl⟩
  case ok.ok =>
    refine Parallel.bindSame (.orEnd .file _) fun _ => ?_
    refine Parallel.bindSame (parallel_writeFile (.inr ?_) ?_ (isSome_toBytes?_data hr now working))
      fun _ => ?_
    · rw [Path.parent_child]
      exact List.mem_cons_self
    · exact h.reports _ (by simp [reportPaths])
    refine Parallel.weaken ?_ fun m m' hm => hm.1
    cases hhtml : config.htmlReport with
    | true =>
      rw [hfindings]
      refine Parallel.bindSame (parallel_writeHtml (h.html hhtml) ?_ ?_) hdrawing
      · exact h.reports _ (by simp [reportPaths, hhtml])
      · intro tree
        have hpage := page_data hr now working tree
        rwa [hfindings] at hpage
    | false => exact Parallel.bindSame (.pure none fun _ _ h => h) hdrawing
  all_goals exact fun m m' hm => hm.elim

end Reports

end Project

end Deadwood
