/-!
# Tables in order of first insertion

A `Table` is a finite map that remembers the order in which its keys first came. Writing to a key
that is already present keeps its place and replaces its value; a new key goes to the end.

* `find?`, `contains`, `keys`, `entries` are the views.
* `insert`, `update`, `erase` are the writes; `ofList` replays a list of writes.
-/

namespace Deadwood

/-- A finite map whose entries stand in the order in which their keys were first written. -/
structure Table (κ ν : Type) where
  /-- The entries, oldest key first. -/
  entries : List (κ × ν)
deriving Repr, DecidableEq

namespace Table

variable {κ ν : Type} [DecidableEq κ]

/-- The table without entries. -/
def empty : Table κ ν := ⟨[]⟩

instance : EmptyCollection (Table κ ν) := ⟨⟨[]⟩⟩

instance : Inhabited (Table κ ν) := ⟨⟨[]⟩⟩

/-- The value stored at `k`. -/
def find? (t : Table κ ν) (k : κ) : Option ν := (t.entries.find? (·.1 = k)).map (·.2)

/-- The value stored at `k`, or `d` where there is none. -/
def findD (t : Table κ ν) (k : κ) (d : ν) : ν := (t.find? k).getD d

/-- Whether `k` is a key. -/
def contains (t : Table κ ν) (k : κ) : Bool := t.entries.any (·.1 = k)

omit [DecidableEq κ] in
/-- The keys, oldest first. -/
def keys (t : Table κ ν) : List κ := t.entries.map (·.1)

omit [DecidableEq κ] in
/-- The values in the order of their keys. -/
def values (t : Table κ ν) : List ν := t.entries.map (·.2)

omit [DecidableEq κ] in
/-- Whether the table has no entry. -/
def isEmpty (t : Table κ ν) : Bool := t.entries.isEmpty

/-- Writes `f` of the stored value (if any) at `k` into a list of entries. -/
def updateEntries (k : κ) (f : Option ν → ν) : List (κ × ν) → List (κ × ν)
  | [] => [(k, f none)]
  | (k', v) :: rest =>
    if k' = k then (k', f (some v)) :: rest else (k', v) :: updateEntries k f rest

/-- Replaces the value at `k` by `f` of it; a missing key is appended with `f none`. -/
def update (t : Table κ ν) (k : κ) (f : Option ν → ν) : Table κ ν := ⟨updateEntries k f t.entries⟩

/-- Stores `v` at `k`. -/
def insert (t : Table κ ν) (k : κ) (v : ν) : Table κ ν := t.update k fun _ => v

/-- Stores `v` at `k` unless `k` is present. -/
def insertNew (t : Table κ ν) (k : κ) (v : ν) : Table κ ν := t.update k fun old => old.getD v

/-- Removes `k`. -/
def erase (t : Table κ ν) (k : κ) : Table κ ν := ⟨t.entries.filter (·.1 ≠ k)⟩

/-- The table that results from writing the pairs from left to right. -/
def ofList (pairs : List (κ × ν)) : Table κ ν := pairs.foldl (fun t p => t.insert p.1 p.2) ∅

omit [DecidableEq κ] in
/-- Applies `f` to every value. -/
def mapValues {μ : Type} (f : ν → μ) (t : Table κ ν) : Table κ μ :=
  ⟨t.entries.map fun e => (e.1, f e.2)⟩

/-! ## What a write does to the views -/

theorem find?_updateEntries_self (k : κ) (f : Option ν → ν) (es : List (κ × ν)) :
    ((updateEntries k f es).find? (·.1 = k)).map (·.2) =
      some (f ((es.find? (·.1 = k)).map (·.2))) := by
  induction es with
  | nil => simp [updateEntries]
  | cons e rest ih =>
    by_cases h : e.1 = k
    · simp [updateEntries, h]
    · simp [updateEntries, h, ih]

theorem find?_updateEntries_of_ne {k k' : κ} (hk : k' ≠ k) (f : Option ν → ν)
    (es : List (κ × ν)) :
    (updateEntries k f es).find? (·.1 = k') = es.find? (·.1 = k') := by
  induction es with
  | nil => simp [updateEntries, Ne.symm hk]
  | cons e rest ih =>
    obtain ⟨k₀, v⟩ := e
    by_cases h : k₀ = k
    · subst h
      simp [updateEntries, Ne.symm hk]
    · rw [updateEntries, if_neg h, List.find?_cons, List.find?_cons, ih]

@[simp] theorem find?_update_self (t : Table κ ν) (k : κ) (f : Option ν → ν) :
    (t.update k f).find? k = some (f (t.find? k)) :=
  find?_updateEntries_self k f t.entries

theorem find?_update_of_ne (t : Table κ ν) {k k' : κ} (hk : k' ≠ k) (f : Option ν → ν) :
    (t.update k f).find? k' = t.find? k' := by
  simp [find?, update, find?_updateEntries_of_ne hk]

@[simp] theorem find?_insert_self (t : Table κ ν) (k : κ) (v : ν) :
    (t.insert k v).find? k = some v := by
  simp [insert]

theorem find?_insert_of_ne (t : Table κ ν) {k k' : κ} (hk : k' ≠ k) (v : ν) :
    (t.insert k v).find? k' = t.find? k' :=
  t.find?_update_of_ne hk _

theorem keys_updateEntries (k : κ) (f : Option ν → ν) (es : List (κ × ν)) :
    (updateEntries k f es).map (·.1) =
      if k ∈ es.map (·.1) then es.map (·.1) else es.map (·.1) ++ [k] := by
  induction es with
  | nil => simp [updateEntries]
  | cons e rest ih =>
    by_cases h : e.1 = k
    · simp [updateEntries, h]
    · by_cases h' : k ∈ rest.map (·.1)
      · simp only [updateEntries, if_neg h, List.map_cons, ih, List.mem_cons, h', or_true, if_true]
      · simp only [updateEntries, if_neg h, List.map_cons, ih, List.mem_cons, h', or_false,
          Ne.symm h, if_false, List.cons_append]

/-- A write keeps the keys, except that a new key is appended. -/
theorem keys_update (t : Table κ ν) (k : κ) (f : Option ν → ν) :
    (t.update k f).keys = if k ∈ t.keys then t.keys else t.keys ++ [k] :=
  keys_updateEntries k f t.entries

end Table

end Deadwood
