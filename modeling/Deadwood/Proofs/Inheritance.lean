import Mathlib.Data.List.Find
import Mathlib.Data.List.Permutation
import Deadwood.Proofs.OwnName

/-!
# Methods of classes that are built on one another

A call of a method on an object of class `c` may reach the method that `c` has or inherits, and the
methods with that name in the classes built on `c`. Which method an object of such a class has is
decided by the order of its own ancestors, which may take in classes that `c` knows nothing about.

* `Extends ix d c`: the class `d` names `c` as a base. `mem_ancestors_iff` and `mem_descendants_iff`
  say that the two walks over the classes follow its paths.
* `mem_resolve_method_iff`: what a call of a method of `c` is resolved to.
* `mem_resolve_of_findMethod_iff`: of the methods that the classes built on `c` have under a name,
  such a call reaches those of classes built on `c` and those that `c` has itself, and no others.
  None is missed if `c` lies on no cycle and the classes built on it have no bases from elsewhere.
* `mixin_missed`: a method that is mixed in from elsewhere.
-/

namespace Deadwood.Project.Index

variable {ix : Index} {c d name : String}

/-! ## Paths of bases -/

/-- The class `d` names `c`, a class of the project, as a base. -/
def Extends (ix : Index) (d c : String) : Prop := c ∈ ix.innerBases d

theorem mem_keys_of_extends (h : ix.Extends d c) : c ∈ ix.classes.keys :=
  Table.contains_iff_mem_keys.1 (List.mem_filter.1 h).2

/-- A class that names a base is a class of the project itself. -/
theorem mem_keys_of_extends_left (h : ix.Extends d c) : d ∈ ix.classes.keys := by
  have hbase : c ∈ ix.bases d := (List.mem_filter.1 h).1
  rw [← Table.contains_iff_mem_keys, Table.contains_iff_find?]
  cases hd : ix.classes.find? d with
  | some found => exact ⟨found, rfl⟩
  | none =>
    rw [bases, Table.findD, hd] at hbase
    cases hbase

theorem edge_innerBases_iff : Search.Edge ix.classes.keys ix.innerBases d c ↔ ix.Extends d c :=
  ⟨And.left, fun h => ⟨h, mem_keys_of_extends h⟩⟩

theorem edge_children_iff : Search.Edge ix.classes.keys ix.children c d ↔ ix.Extends d c := by
  have hmem : d ∈ ix.children c ↔ d ∈ ix.classes.keys ∧ ix.Extends d c := by
    simp [children, Extends]
  constructor
  · exact fun h => (hmem.1 h.1).2
  · exact fun h => ⟨hmem.2 ⟨mem_keys_of_extends_left h, h⟩, mem_keys_of_extends_left h⟩

/-- The ancestors of a class are what paths of bases lead to, the class itself included. -/
theorem mem_ancestors_iff {a : String} :
    a ∈ ix.ancestors d ↔ Relation.ReflTransGen ix.Extends d a := by
  have hedge : Search.Edge ix.classes.keys ix.innerBases = ix.Extends := by
    funext x y
    exact propext edge_innerBases_iff
  have hpending : Search.Pending ix.classes.keys ix.innerBases (ix.innerBases d) [d] := by
    intro x hx y hy
    rw [List.mem_singleton.1 hx] at hy
    exact .inr hy.1
  rw [ancestors, List.mem_reverse, Search.mem_visit_iff _ _ hpending, hedge]
  constructor
  · rintro ⟨r, hr | ⟨hr, -⟩, hpath⟩
    · rwa [List.mem_singleton.1 hr] at hpath
    · exact hpath.head hr
  · exact fun hpath => ⟨d, .inl List.mem_cons_self, hpath⟩

/-- The classes built on `c` are those from which a path of bases leads to `c`. -/
theorem mem_descendants_iff : d ∈ ix.descendants c ↔ Relation.TransGen ix.Extends d c := by
  have hedge : Search.Edge ix.classes.keys ix.children = Function.swap ix.Extends := by
    funext x y
    exact propext edge_children_iff
  rw [descendants, List.mem_mergeSort, (Search.run_sweep _ _ _ _).mem_iff (.nil _ _ _), hedge,
    Relation.TransGen.tail'_iff]
  constructor
  · rintro ⟨r, hr | ⟨hr, hkey⟩, hpath⟩
    · cases hr
    · exact ⟨r, Relation.reflTransGen_swap.1 hpath, edge_children_iff.1 ⟨hr, hkey⟩⟩
  · rintro ⟨r, hpath, hr⟩
    exact ⟨r, .inr (edge_children_iff.2 hr), Relation.reflTransGen_swap.2 hpath⟩

/-! ## Methods -/

theorem findMethod_of_own (h : ix.membersOf c name ≠ []) :
    ix.findMethod c name = ix.membersOf c name := by
  obtain ⟨rest, hrest⟩ := ancestors_eq_cons ix c
  simp [findMethod, firstMembers, hrest, h]

theorem cut_calleeName {k : Int} (h : Dotted.Simple name) :
    Dotted.cut (calleeName ⟨c, name, k⟩) = (c, name) := by
  unfold calleeName
  split_ifs with hc
  · have hempty : c = "" := hc
    rw [Dotted.cut_of_simple h, hempty]
  · exact Dotted.cut_below h

/-- A call of a method of a class is resolved to the method that the class has, its own or one that
it inherits, and to those of the classes built on it. -/
theorem mem_resolve_method_iff {k : Int} (hk : k < 0) (hclass : ix.classes.contains c = true)
    (hname : Dotted.Simple name) (hsuper : Text.startsWith c Collect.superMark = false)
    (hany : c ≠ Collect.anyScope)
    (halias : ix.resolveAlias (calleeName ⟨c, name, k⟩) = calleeName ⟨c, name, k⟩)
    (hdotted : ¬ ix.classes.contains (calleeName ⟨c, name, k⟩) = true) {x : Symbol} :
    x ∈ ix.resolve ⟨c, name, k⟩ ↔ x ∈ ix.findMethod c name ∨ x ∈ ix.overriders c name := by
  rw [resolve_of_neg hk, if_neg (by simp [hsuper]), if_neg hany, halias, resolveDotted_eq,
    cut_calleeName hname]
  simp only [if_pos hclass, if_neg hdotted]
  split_ifs with hfound
  · rw [findMethod_of_own (by simpa using hfound), List.mem_append]
  · rw [List.mem_append]

/-! ## Classes from elsewhere -/

/-- Whether a class is neither `c` nor built on `c`. -/
def isElsewhere (ix : Index) (c x : String) : Bool := !(x = c || (ix.descendants c).contains x)

theorem isElsewhere_eq_false_iff {x : String} :
    ix.isElsewhere c x = false ↔ x = c ∨ x ∈ ix.descendants c := by
  simp [isElsewhere, or_iff_not_imp_left]

/-- The class lies on no cycle of bases, and the classes built on it have no bases from
elsewhere. -/
structure SelfContained (ix : Index) (c : String) : Prop where
  acyclic : c ∉ ix.descendants c
  bases : ∀ d ∈ ix.descendants c, ∀ b ∈ ix.innerBases d, b = c ∨ b ∈ ix.descendants c

instance (ix : Index) (c : String) : Decidable (ix.SelfContained c) :=
  decidable_of_iff (c ∉ ix.descendants c ∧
      ∀ d ∈ ix.descendants c, ∀ b ∈ ix.innerBases d, b = c ∨ b ∈ ix.descendants c)
    ⟨fun h => ⟨h.1, h.2⟩, fun h => ⟨h.1, h.2⟩⟩

theorem SelfContained.leads (h : ix.SelfContained c) {x : String} (hx : ix.isElsewhere c x = false)
    (hne : x ≠ c) : ∀ y ∈ ix.innerBases x, ix.isElsewhere c y = false := by
  intro y hy
  rcases isElsewhere_eq_false_iff.1 hx with rfl | hx
  · exact absurd rfl hne
  · exact isElsewhere_eq_false_iff.2 (h.bases x hx y hy)

/-- Behind `c`, the order of a class built on `c` lists the classes from elsewhere as the order of
`c` does; no class from elsewhere stands before `c`. -/
theorem SelfContained.order (h : ix.SelfContained c) (hd : d ∈ ix.descendants c) :
    ∃ before behind own, ix.ancestors d = before ++ c :: behind ∧ ix.ancestors c = c :: own ∧
      (∀ x ∈ before, ix.isElsewhere c x = false) ∧
      behind.filter (ix.isElsewhere c) = own.filter (ix.isElsewhere c) := by
  have hc : ix.isElsewhere c c = false := isElsewhere_eq_false_iff.2 (.inl rfl)
  have hne : c ≠ d := fun e => h.acyclic (e ▸ hd)
  have hmem : c ∈ ix.ancestors d := mem_ancestors_iff.2 (mem_descendants_iff.1 hd).to_reflTransGen
  obtain ⟨newer, older, hvisit, holder, hnewer⟩ :=
    Search.visit_through ix.classes.keys ix.innerBases hc
    (fun x hx hxc => h.leads hx hxc) (ix.innerBases d) [d]
    (h.leads (isElsewhere_eq_false_iff.2 (.inr hd)) hne.symm)
    (fun x hx => List.mem_singleton.1 hx ▸ isElsewhere_eq_false_iff.2 (.inr hd))
    (fun hcd => hne (List.mem_singleton.1 hcd)) (List.mem_reverse.1 hmem)
  obtain ⟨own, hown⟩ := Search.suffix_visit ix.classes.keys ix.innerBases (ix.innerBases c) [c]
  have hfilter := Search.filter_visit ix.classes.keys ix.innerBases (ix.innerBases c) [c]
    fun x hx hs => h.leads hx fun e => hs (e ▸ List.mem_cons_self)
  rw [← hown, List.filter_append, List.filter_cons_of_neg (by simp [hc]), List.filter_nil,
    List.append_nil] at hfilter
  refine ⟨older.reverse, newer.reverse, own.reverse, ?_, ?_, ?_, ?_⟩
  · rw [ancestors, hvisit]
    simp
  · rw [ancestors, ← hown]
    simp
  · exact fun x hx => holder x (List.mem_reverse.1 hx)
  · rw [List.filter_reverse, List.filter_reverse, hnewer, hfilter]

/-- The ancestors of `c` behind it are all from elsewhere, `c` itself apart. -/
theorem SelfContained.eq_of_mem (h : ix.SelfContained c) {x : String} (hx : x ∈ ix.ancestors c)
    (hin : ix.isElsewhere c x = false) : x = c := by
  rcases isElsewhere_eq_false_iff.1 hin with rfl | hdesc
  · rfl
  · have hcycle :=
      Relation.TransGen.trans_right (mem_ancestors_iff.1 hx) (mem_descendants_iff.1 hdesc)
    exact absurd (mem_descendants_iff.2 hcycle) h.acyclic

theorem find?_filter_of_find? {α : Type} {keep q : α → Bool} {xs : List α} {a : α}
    (h : xs.find? q = some a) (ha : keep a = true) : (xs.filter keep).find? q = some a := by
  obtain ⟨hq, before, behind, rfl, hbefore⟩ := List.find?_eq_some_iff_append.1 h
  rw [List.find?_filter, List.find?_eq_some_iff_append]
  refine ⟨by simp [ha, hq], before, behind, rfl, fun x hx => ?_⟩
  have hx : q x = false := by simpa using hbefore x hx
  simp [hx]

/-- The first class of the order of `d` with some property is `c`, or built on `c`, or the first
such class of the order of `c`. -/
theorem SelfContained.find?_ancestors (h : ix.SelfContained c) (hd : d ∈ ix.descendants c)
    {q : String → Bool} {a : String} (ha : (ix.ancestors d).find? q = some a) :
    (a = c ∨ a ∈ ix.descendants c) ∨ (ix.ancestors c).find? q = some a := by
  obtain ⟨before, behind, own, hdorder, hcorder, hbefore, hsame⟩ := h.order hd
  rw [← isElsewhere_eq_false_iff]
  rw [hdorder, List.find?_append] at ha
  cases hfirst : before.find? q with
  | some b =>
    rw [hfirst, Option.some_or, Option.some_inj] at ha
    exact .inl (ha ▸ hbefore b (List.mem_of_find?_eq_some hfirst))
  | none =>
    rw [hfirst, Option.none_or] at ha
    cases hqc : q c with
    | true =>
      rw [List.find?_cons_of_pos hqc, Option.some_inj] at ha
      exact .inl (ha ▸ isElsewhere_eq_false_iff.2 (.inl rfl))
    | false =>
      rw [List.find?_cons_of_neg (by simp [hqc])] at ha
      cases hout : ix.isElsewhere c a with
      | false => exact .inl rfl
      | true =>
        right
        -- among the ancestors of `c` only `c` itself is not from elsewhere, and it does not have
        -- the property
        have hown : ∀ x ∈ own, decide (ix.isElsewhere c x = true ∧ q x = true) = q x := by
          intro x hx
          cases hin : ix.isElsewhere c x with
          | true => simp
          | false =>
            have hxc : x = c := h.eq_of_mem (by rw [hcorder]; exact List.mem_cons_of_mem _ hx) hin
            simp [hxc, hqc]
        rw [hcorder, List.find?_cons_of_neg (by simp [hqc]), ← List.find?_congr hown,
          ← List.find?_filter,
          ← hsame]
        exact find?_filter_of_find? ha hout

/-! ## What a call of a method reaches -/

variable {units : Units} {m : String} {x : Symbol}

/-- A method that some class has is among the methods of the classes built on `c` exactly if its
class is one of them. -/
theorem mem_overriders_iff_scope (h : x ∈ (ofUnits units).findMethod d m) :
    x ∈ (ofUnits units).overriders c m ↔ x.scope ∈ (ofUnits units).descendants c := by
  obtain ⟨a, -, ha⟩ := mem_firstMembers_iff.1 h
  obtain ⟨-, hscope, -, -⟩ := mem_membersOf_iff.1 ha
  rw [mem_overriders_iff]
  constructor
  · rintro ⟨e, he, hx⟩
    obtain ⟨-, rfl, -, -⟩ := mem_membersOf_iff.1 hx
    exact he
  · exact fun he => ⟨x.scope, he, hscope ▸ ha⟩

/-- With no bases from elsewhere, a class built on `c` has the method of a class built on `c` or
that of `c`. -/
theorem SelfContained.findMethod (h : (ofUnits units).SelfContained c)
    (hd : d = c ∨ d ∈ (ofUnits units).descendants c) (hx : x ∈ (ofUnits units).findMethod d m) :
    x.scope ∈ (ofUnits units).descendants c ∨ x ∈ (ofUnits units).findMethod c m := by
  rcases hd with rfl | hd
  · exact .inr hx
  · obtain ⟨a, hfirst, ha⟩ := mem_firstMembers_iff.1 hx
    obtain ⟨-, hscope, -, -⟩ := mem_membersOf_iff.1 ha
    rcases h.find?_ancestors hd hfirst with (rfl | hdesc) | hsame
    · rw [findMethod_of_own (List.ne_nil_of_mem ha)]
      exact .inr ha
    · exact .inl (hscope ▸ hdesc)
    · exact .inr (mem_firstMembers_iff.2 ⟨a, hsame, ha⟩)

/-- **What a call of a method of `c` reaches in the classes built on `c`**: of the methods that an
object of such a class may have under the name, exactly those of the classes built on `c` and those
that `c` has itself. None is missed if `c` is self-contained. -/
theorem mem_resolve_of_findMethod_iff (units : Units) (c m : String) (k : Int) (hk : k < 0)
    (hclass : (ofUnits units).classes.contains c = true) (hm : Dotted.Simple m)
    (hsuper : Text.startsWith c Collect.superMark = false) (hany : c ≠ Collect.anyScope)
    (halias : (ofUnits units).resolveAlias (calleeName ⟨c, m, k⟩) = calleeName ⟨c, m, k⟩)
    (hdotted : ¬ (ofUnits units).classes.contains (calleeName ⟨c, m, k⟩) = true) :
    ∀ d, (d = c ∨ d ∈ (ofUnits units).descendants c) → ∀ x ∈ (ofUnits units).findMethod d m,
      (x ∈ (ofUnits units).resolve ⟨c, m, k⟩ ↔
        x.scope ∈ (ofUnits units).descendants c ∨ x ∈ (ofUnits units).findMethod c m) ∧
      ((ofUnits units).SelfContained c → x ∈ (ofUnits units).resolve ⟨c, m, k⟩) := by
  intro d hd x hx
  have hreach : x ∈ (ofUnits units).resolve ⟨c, m, k⟩ ↔
      x.scope ∈ (ofUnits units).descendants c ∨ x ∈ (ofUnits units).findMethod c m := by
    rw [mem_resolve_method_iff hk hclass hm hsuper hany halias hdotted,
      mem_overriders_iff_scope hx, or_comm]
  exact ⟨hreach, fun hself => hreach.2 (hself.findMethod hd hx)⟩

/-! ## A class that mixes a method in -/

theorem resolveAlias_of_no_aliases {ix : Index} (h : ix.aliases = ∅) (dotted : String) :
    ix.resolveAlias dotted = dotted := by
  have hstep : replaceHead ix.aliases dotted = dotted := by
    refine replaceHead_of_idle fun p target _ halias => ?_
    rw [h] at halias
    cases halias
  refine followAliases_induct (· = dotted) (fun e he => ?_) _ rfl
  rw [he, hstep]

/-- The method `run` of a class. -/
def runOf (c : String) : Symbol := ⟨c, "run", 0⟩

/-- The facts of a class that has a method `run`. -/
def runner (c : String) (bases : List String) : List Fact :=
  [.definition (.classOf c) { kind := "class", implements := bases },
    .definition (runOf c) { kind := "method" }]

/-- A class `S` that takes the method of `Mixin` before that of `C`, and a class `T` that replaces
the method of `C`. Two more classes have names that mark other calls, and `C` has a method whose
name has a dot. -/
def mixedIn : Units := ⟨[
  ("m.py", .definition (.body "m") { kind := "module" } ::
    (runner "<attr>" [] ++ runner "<super>.m.C" [] ++ runner "m.C" [] ++ runner "m.Mixin" [] ++
      runner "m.T" ["m.C"] ++
      [.definition (.classOf "m.S") { kind := "class", implements := ["m.Mixin", "m.C"] },
        .definition (.classOf "m.U") { kind := "class", implements := ["m.T"] },
        .definition ⟨"m.C", "a.b", 0⟩ { kind := "method" }]))]⟩

/-- The index of `mixedIn`. -/
def mixedInIndex : Index where
  members :=
    ⟨["<attr>", "<super>.m.C", "m.C", "m.Mixin", "m.T"].map (fun c => ((c, "run"), [runOf c])) ++
    [(("m.C", "a.b"), [⟨"m.C", "a.b", 0⟩])]⟩
  methods := ⟨[("run", ["<attr>", "<super>.m.C", "m.C", "m.Mixin", "m.T"].map runOf),
    ("a.b", [⟨"m.C", "a.b", 0⟩])]⟩
  classes := ⟨[("<attr>", []), ("<super>.m.C", []), ("m.C", []), ("m.Mixin", []), ("m.T", ["m.C"]),
    ("m.S", ["m.Mixin", "m.C"]), ("m.U", ["m.T"])]⟩
  modules := ["m"]

theorem mapValues_sort_of_sorted {κ : Type} {t : Table κ (List Symbol)}
    (h : ∀ e ∈ t.entries, e.2.Pairwise fun a b => Symbol.le a b = true) :
    t.mapValues Symbol.sort = t := by
  obtain ⟨es⟩ := t
  refine congrArg Table.mk ((List.map_congr_left fun e he => ?_).trans (List.map_id es))
  rw [Symbol.sort, List.mergeSort_of_pairwise (h e he)]
  rfl

theorem ofUnits_mixedIn : ofUnits mixedIn = mixedInIndex := by
  have hunits : sortedUnits mixedIn = mixedIn.entries := List.mergeSort_of_pairwise (by decide)
  have hraw : (definitionsOf mixedIn []).foldl add {} = mixedInIndex := by
    rw [definitionsOf, hunits]
    decide +kernel
  have hmembers : mixedInIndex.members.mapValues Symbol.sort = mixedInIndex.members :=
    mapValues_sort_of_sorted (by decide +kernel)
  have hmethods : mixedInIndex.methods.mapValues Symbol.sort = mixedInIndex.methods :=
    mapValues_sort_of_sorted (by decide +kernel)
  have halias : mixedInIndex.resolveAlias = id := funext (resolveAlias_of_no_aliases rfl)
  have hclasses : mixedInIndex.classes.mapValues
    (fun bases => bases.map mixedInIndex.resolveAlias) =
      mixedInIndex.classes := by
    rw [halias]
    decide +kernel
  rw [ofUnits, hraw, finish, hmembers, hmethods, hclasses]

/-- A call of the method `m` of the class `c` misses `x`, the method of a class `d` that is `c` or
built on it. -/
structure Misses (ix : Index) (c m : String) (k : Int) (d : String) (x : Symbol) : Prop where
  isClass : ix.classes.contains c = true
  unchanged : ix.resolveAlias (calleeName ⟨c, m, k⟩) = calleeName ⟨c, m, k⟩
  isMethod : ¬ ix.classes.contains (calleeName ⟨c, m, k⟩) = true
  built : d = c ∨ d ∈ ix.descendants c
  has : x ∈ ix.findMethod d m
  missed : x ∉ ix.resolve ⟨c, m, k⟩

theorem descendants_mixedIn : mixedInIndex.descendants "m.C" = ["m.S", "m.T", "m.U"] := by cbv

theorem findMethod_mixedIn : mixedInIndex.findMethod "m.S" "run" = [runOf "m.Mixin"] := by cbv

theorem unchanged_mixedIn (dotted : String) : mixedInIndex.resolveAlias dotted = dotted :=
  resolveAlias_of_no_aliases rfl dotted

theorem misses_own {c m : String} {k : Int} {x : Symbol}
    (hclass : mixedInIndex.classes.contains c = true)
    (hmethod : ¬ mixedInIndex.classes.contains (calleeName ⟨c, m, k⟩) = true)
    (hown : mixedInIndex.membersOf c m = [x]) (hmissed : mixedInIndex.resolve ⟨c, m, k⟩ = []) :
    mixedInIndex.Misses c m k c x where
  isClass := hclass
  unchanged := unchanged_mixedIn _
  isMethod := hmethod
  built := .inl rfl
  has := by rw [findMethod_of_own (by simp [hown]), hown]; exact List.mem_cons_self
  missed := by rw [hmissed]; exact List.not_mem_nil

theorem misses_any : mixedInIndex.Misses "<attr>" "run" (-1) "<attr>" (runOf "<attr>") := by
  refine misses_own (by decide +kernel) (by decide +kernel) (by decide +kernel) ?_
  rw [resolve_of_neg (by decide), if_neg (by decide), if_pos (by decide), if_neg (by decide)]

theorem misses_super :
    mixedInIndex.Misses "<super>.m.C" "run" (-2) "<super>.m.C" (runOf "<super>.m.C") := by
  refine misses_own (by decide +kernel) (by decide +kernel) (by decide +kernel) ?_
  cbv

theorem misses_dotted : mixedInIndex.Misses "m.C" "a.b" (-1) "m.C" ⟨"m.C", "a.b", 0⟩ := by
  refine misses_own (by decide +kernel) (by decide +kernel) (by decide +kernel) ?_
  have hcut : Dotted.cut (Dotted.below "m.C" "a.b") = ("m.C.a", "b") :=
    Dotted.cut_below (p := "m.C.a") (n := "b") (by decide)
  rw [resolve_of_neg (by decide), if_neg (by decide), if_neg (by decide), unchanged_mixedIn]
  change mixedInIndex.resolveDotted (Dotted.below "m.C" "a.b") (-1) = []
  rw [resolveDotted_eq, hcut, if_neg (by decide +kernel), if_neg (by decide +kernel),
    if_neg (by decide +kernel),
    if_pos (by simp)]

theorem misses_mixin : mixedInIndex.Misses "m.C" "run" (-2) "m.S" (runOf "m.Mixin") where
  isClass := by decide +kernel
  unchanged := unchanged_mixedIn _
  isMethod := by decide +kernel
  built := .inr (by rw [descendants_mixedIn]; exact List.mem_cons_self)
  has := by rw [findMethod_mixedIn]; exact List.mem_cons_self
  missed := by
    rw [mem_resolve_method_iff (by decide) (by decide +kernel) (by decide) (by decide) (by decide)
      (unchanged_mixedIn _) (by decide +kernel), overriders, descendants_mixedIn,
      findMethod_of_own (by decide +kernel)]
    decide +kernel

/-- **A method that is mixed in is missed**: the call of `run` in `C` does not reach the method of
`Mixin`, which objects of `S` have. Calls of methods are also missed in classes whose names mark
other calls, and if the name of the method has a dot. -/
theorem mixin_missed :
    (ofUnits mixedIn).Misses "m.C" "run" (-2) "m.S" (runOf "m.Mixin") ∧
    (ofUnits mixedIn).Misses "<attr>" "run" (-1) "<attr>" (runOf "<attr>") ∧
    (ofUnits mixedIn).Misses "<super>.m.C" "run" (-2) "<super>.m.C" (runOf "<super>.m.C") ∧
    (ofUnits mixedIn).Misses "m.C" "a.b" (-1) "m.C" ⟨"m.C", "a.b", 0⟩ := by
  rw [ofUnits_mixedIn]
  exact ⟨misses_mixin, misses_any, misses_super, misses_dotted⟩

/-- From `C` the method of `T` is reached, which objects of `U` have, and that of `Mixin` is not.
From `T` none is missed. -/
theorem override_reached :
    runOf "m.T" ∈ (ofUnits mixedIn).resolve ⟨"m.C", "run", -2⟩ ∧
    runOf "m.Mixin" ∉ (ofUnits mixedIn).resolve ⟨"m.C", "run", -2⟩ ∧
    runOf "m.T" ∈ (ofUnits mixedIn).resolve ⟨"m.T", "run", -2⟩ := by
  have hix := ofUnits_mixedIn
  have hunchanged : ∀ dotted, (ofUnits mixedIn).resolveAlias dotted = dotted :=
    hix ▸ unchanged_mixedIn
  have hC := mem_resolve_of_findMethod_iff mixedIn "m.C" "run" (-2)
    (by decide) (by rw [hix]; decide +kernel)
    (by decide) (by decide) (by decide) (hunchanged _) (by rw [hix]; decide +kernel)
  have hT := mem_resolve_of_findMethod_iff mixedIn "m.T" "run" (-2)
    (by decide) (by rw [hix]; decide +kernel)
    (by decide) (by decide) (by decide) (hunchanged _) (by rw [hix]; decide +kernel)
  rw [hix] at hC hT ⊢
  have hU : mixedInIndex.descendants "m.T" = ["m.U"] := by cbv
  have hclosed : mixedInIndex.SelfContained "m.T" := by
    constructor <;> rw [hU] <;> decide +kernel
  have hown : mixedInIndex.findMethod "m.C" "run" = [runOf "m.C"] := by
    rw [findMethod_of_own (by decide +kernel)]
    decide +kernel
  have hinherited : mixedInIndex.findMethod "m.U" "run" = [runOf "m.T"] := by cbv
  have hmem : runOf "m.T" ∈ mixedInIndex.findMethod "m.U" "run" := hinherited ▸ List.mem_cons_self
  refine ⟨(hC "m.U" (.inr ?_) _ hmem).1.2 (.inl ?_), fun h => ?_,
    (hT "m.U" (.inr ?_) _ hmem).2 hclosed⟩
  · simp [descendants_mixedIn]
  · simp [descendants_mixedIn, runOf]
  · have hmixed :=
      (hC "m.S" (.inr (by simp [descendants_mixedIn])) _ (by simp [findMethod_mixedIn])).1.1 h
    rw [descendants_mixedIn, hown] at hmixed
    exact absurd hmixed (by decide +kernel)
  · simp [hU]

end Deadwood.Project.Index
