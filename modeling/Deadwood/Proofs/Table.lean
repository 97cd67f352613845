import Mathlib.Data.List.Forall2
import Mathlib.Data.List.Nodup
import Deadwood.Table

/-!
# The views of a table

Membership in a table can be read off its keys, off `contains` and off `find?`. These are the lemmas
that connect the three views and say what the writes do to them, so that later proofs never open a
table.
-/

namespace Deadwood.Table

variable {κ ν μ : Type} [DecidableEq κ]

theorem contains_iff_mem_keys {t : Table κ ν} {k : κ} : t.contains k = true ↔ k ∈ t.keys := by
  simp only [contains, keys, List.any_eq_true, decide_eq_true_eq, List.mem_map]

theorem contains_iff_find? {t : Table κ ν} {k : κ} :
    t.contains k = true ↔ ∃ v, t.find? k = some v := by
  simp only [contains, find?, List.any_eq_true, decide_eq_true_eq, Option.map_eq_some_iff]
  constructor
  · rintro ⟨e, he, rfl⟩
    obtain ⟨e', he'⟩ := Option.isSome_iff_exists.1
      (List.find?_isSome.2 ⟨e, he, by simp⟩ : (t.entries.find? (·.1 = e.1)).isSome)
    exact ⟨e'.2, e', he', rfl⟩
  · rintro ⟨v, e, he, -⟩
    exact ⟨e, List.mem_of_find?_eq_some he, by simpa using List.find?_some he⟩

theorem mem_of_find? {t : Table κ ν} {k : κ} {v : ν} (h : t.find? k = some v) :
    (k, v) ∈ t.entries := by
  obtain ⟨e, he, rfl⟩ := Option.map_eq_some_iff.1 h
  have hk : e.1 = k := by simpa using List.find?_some he
  exact hk ▸ List.mem_of_find?_eq_some he

theorem mem_keys_iff_find? {t : Table κ ν} {k : κ} : k ∈ t.keys ↔ ∃ v, t.find? k = some v :=
  contains_iff_mem_keys.symm.trans contains_iff_find?

/-- Where no key comes twice, what is stored at a key is what stands in its entry. -/
theorem find?_eq_some_iff {t : Table κ ν} (hn : t.keys.Nodup) {k : κ} {v : ν} :
    t.find? k = some v ↔ (k, v) ∈ t.entries := by
  refine ⟨mem_of_find?, fun hmem => ?_⟩
  obtain ⟨w, hw⟩ := mem_keys_iff_find?.1 (List.mem_map_of_mem hmem : k ∈ t.keys)
  obtain rfl : w = v := by
    have := List.inj_on_of_nodup_map hn (mem_of_find? hw) hmem rfl
    exact (Prod.mk.inj this).2
  exact hw

/-- The order of entries with different keys does not matter to what is stored. -/
theorem find?_of_perm {t t' : Table κ ν} (h : t.entries.Perm t'.entries)
    (hn : t.keys.Nodup) (k : κ) :
    t.find? k = t'.find? k := by
  have hn' : t'.keys.Nodup := (h.map _).nodup_iff.1 hn
  ext v
  rw [find?_eq_some_iff hn, find?_eq_some_iff hn', h.mem_iff]

/-- Tables that store the same have the same entries, up to their order. -/
theorem perm_of_find? {t t' : Table κ ν} (hn : t.keys.Nodup) (hn' : t'.keys.Nodup)
    (h : ∀ k v, t.find? k = some v ↔ t'.find? k = some v) : t.entries.Perm t'.entries := by
  refine (List.perm_ext_iff_of_nodup (.of_map _ hn) (.of_map _ hn')).2 fun e => ?_
  rw [← find?_eq_some_iff hn, ← find?_eq_some_iff hn', h]

omit [DecidableEq κ] in
/-- Entries with the same keys in the same order correspond one to one. -/
theorem forall₂_of_keys_eq {same : ν → μ → Prop} {es : List (κ × ν)} {fs : List (κ × μ)}
    (hkeys : es.map (·.1) = fs.map (·.1))
    (h : ∀ k v w, (k, v) ∈ es → (k, w) ∈ fs → same v w) :
    List.Forall₂ (fun e f => e.1 = f.1 ∧ same e.2 f.2) es fs := by
  induction es generalizing fs with
  | nil =>
    obtain rfl : fs = [] := by simpa using hkeys.symm
    exact .nil
  | cons e rest ih =>
    cases fs with
    | nil => cases hkeys
    | cons f others =>
      obtain ⟨hk, hrest⟩ := List.cons.inj hkeys
      have hf : (e.1, f.2) ∈ f :: others := List.mem_cons.2 (.inl (Prod.ext hk rfl))
      refine .cons ⟨hk, h e.1 e.2 f.2 List.mem_cons_self hf⟩ (ih hrest ?_)
      exact fun k v w hv hw => h k v w (List.mem_cons_of_mem _ hv) (List.mem_cons_of_mem _ hw)

/-! ## Writes -/

theorem find?_insert (t : Table κ ν) (k k' : κ) (v : ν) :
    (t.insert k v).find? k' = if k' = k then some v else t.find? k' := by
  by_cases h : k' = k
  · subst h
    simp
  · rw [if_neg h, find?_insert_of_ne _ h]

@[simp] theorem contains_insert {t : Table κ ν} {k k' : κ} {v : ν} :
    (t.insert k v).contains k' = true ↔ k' = k ∨ t.contains k' = true := by
  simp only [contains_iff_find?, find?_insert]
  by_cases h : k' = k <;> simp [h]

theorem find?_erase (t : Table κ ν) (k k' : κ) :
    (t.erase k).find? k' = if k' = k then none else t.find? k' := by
  obtain ⟨es⟩ := t
  simp only [find?, erase, List.find?_filter]
  by_cases h : k' = k
  · subst h
    simp
  · rw [if_neg h]
    congr 2
    funext e
    by_cases he : e.1 = k'
    · simp [he, h]
    · simp [he]

/-- What a table holds after some writes was there before or is one of them. -/
theorem find?_foldl_insert {α : Type} (key : α → κ) (value : α → ν) (xs : List α) (t : Table κ ν)
    {k : κ} {v : ν} (h : (xs.foldl (fun t a => t.insert (key a) (value a)) t).find? k = some v) :
    t.find? k = some v ∨ ∃ a ∈ xs, k = key a ∧ v = value a := by
  induction xs generalizing t with
  | nil => exact .inl h
  | cons a rest ih =>
    rcases ih _ h with h | ⟨b, hb, hk⟩
    · rw [find?_insert] at h
      split at h
      · rename_i hk
        exact .inr ⟨a, List.mem_cons_self, hk, (Option.some_inj.1 h).symm⟩
      · exact .inl h
    · exact .inr ⟨b, List.mem_cons_of_mem _ hb, hk⟩

theorem mem_of_mem_insert {t : Table κ ν} {k : κ} {v : ν} {e : κ × ν}
    (h : e ∈ (t.insert k v).entries) :
    e = (k, v) ∨ e ∈ t.entries := by
  obtain ⟨es⟩ := t
  change e ∈ updateEntries k (fun _ => v) es at h
  induction es with
  | nil => exact .inl (List.mem_singleton.1 h)
  | cons e' rest ih =>
    rw [updateEntries] at h
    split at h
    · rename_i hk
      rcases List.mem_cons.1 h with rfl | h
      · exact .inl (by rw [hk])
      · exact .inr (List.mem_cons_of_mem _ h)
    · rcases List.mem_cons.1 h with rfl | h
      · exact .inr List.mem_cons_self
      · rcases ih h with h | h
        · exact .inl h
        · exact .inr (List.mem_cons_of_mem _ h)

theorem find?_update (t : Table κ ν) (k k' : κ) (f : Option ν → ν) :
    (t.update k f).find? k' = if k' = k then some (f (t.find? k)) else t.find? k' := by
  by_cases h : k' = k
  · subst h
    simp
  · rw [if_neg h, find?_update_of_ne _ h]

theorem nodup_keys_update {t : Table κ ν} (h : t.keys.Nodup) (k : κ) (f : Option ν → ν) :
    (t.update k f).keys.Nodup := by
  rw [keys_update]
  split
  · exact h
  · rename_i hk
    refine List.nodup_append.2 ⟨h, by simp, fun a ha b hb => ?_⟩
    rw [List.mem_singleton.1 hb]
    rintro rfl
    exact hk ha

theorem nodup_keys_insert {t : Table κ ν} (h : t.keys.Nodup) (k : κ) (v : ν) :
    (t.insert k v).keys.Nodup :=
  nodup_keys_update h k _

/-- The entries after some writes were there or are written, and different keys stay different. -/
theorem entries_foldl_insert (pairs : List (κ × ν)) (t : Table κ ν) (h : t.keys.Nodup) :
    (pairs.foldl (fun t p => t.insert p.1 p.2) t).keys.Nodup ∧
      ∀ e ∈ (pairs.foldl (fun t p => t.insert p.1 p.2) t).entries, e ∈ t.entries ∨ e ∈ pairs := by
  induction pairs generalizing t with
  | nil => exact ⟨h, fun e he => .inl he⟩
  | cons p rest ih =>
    obtain ⟨hkeys, hmem⟩ := ih _ (nodup_keys_insert h p.1 p.2)
    refine ⟨hkeys, fun e he => ?_⟩
    rcases hmem e he with he | he
    · rcases mem_of_mem_insert he with rfl | he
      · exact .inr List.mem_cons_self
      · exact .inl he
    · exact .inr (List.mem_cons_of_mem _ he)

/-- A new key is stored behind the others. -/
theorem update_of_not_mem {t : Table κ ν} {k : κ} (h : k ∉ t.keys) (f : Option ν → ν) :
    t.update k f = ⟨t.entries ++ [(k, f none)]⟩ := by
  obtain ⟨es⟩ := t
  unfold update
  congr 1
  induction es with
  | nil => rfl
  | cons e rest ih =>
    obtain ⟨hne, hrest⟩ := not_or.1 (List.mem_cons.not.1 h)
    rw [updateEntries, if_neg (Ne.symm hne), ih hrest]
    rfl

theorem insert_of_not_mem {t : Table κ ν} {k : κ} (h : k ∉ t.keys) (v : ν) :
    t.insert k v = ⟨t.entries ++ [(k, v)]⟩ :=
  update_of_not_mem h _

theorem insertNew_of_not_mem {t : Table κ ν} {k : κ} (h : k ∉ t.keys) (v : ν) :
    t.insertNew k v = ⟨t.entries ++ [(k, v)]⟩ :=
  update_of_not_mem h _

/-- A key that is present keeps its value. -/
theorem insertNew_of_mem {t : Table κ ν} {k : κ} (h : k ∈ t.keys) (v : ν) :
    t.insertNew k v = t := by
  obtain ⟨es⟩ := t
  unfold insertNew update
  congr 1
  induction es with
  | nil => cases h
  | cons e rest ih =>
    obtain ⟨k', v'⟩ := e
    by_cases hk : k' = k
    · rw [updateEntries, if_pos hk]
      rfl
    · rw [updateEntries, if_neg hk, ih ((List.mem_cons.1 h).resolve_left (Ne.symm hk))]

/-- Of several values that are stored only at new keys the first counts. -/
theorem find?_foldl_insertNew (pairs : List (κ × ν)) (t : Table κ ν) (k : κ) :
    (pairs.foldl (fun t p => t.insertNew p.1 p.2) t).find? k =
      (t.find? k).or ((pairs.find? (·.1 = k)).map Prod.snd) := by
  induction pairs generalizing t with
  | nil => simp
  | cons p rest ih =>
    rw [List.foldl_cons, ih, insertNew, find?_update]
    by_cases hp : k = p.1
    · subst hp
      cases t.find? p.1 <;> simp
    · simp [hp, Ne.symm hp]

theorem nodup_keys_foldl_insertNew (pairs : List (κ × ν)) {t : Table κ ν} (h : t.keys.Nodup) :
    (pairs.foldl (fun t p => t.insertNew p.1 p.2) t).keys.Nodup := by
  induction pairs generalizing t with
  | nil => exact h
  | cons p rest ih => exact ih (nodup_keys_update h p.1 _)

/-- Writing pairs with different new keys appends them. -/
theorem foldl_insert_of_nodup (pairs : List (κ × ν)) (t : Table κ ν)
    (h : ((t.entries ++ pairs).map (·.1)).Nodup) :
    pairs.foldl (fun t p => t.insert p.1 p.2) t = ⟨t.entries ++ pairs⟩ := by
  induction pairs generalizing t with
  | nil => simp
  | cons p rest ih =>
    have hnew : p.1 ∉ t.keys := by
      rw [List.map_append, List.nodup_append] at h
      exact fun hk => h.2.2 _ hk _ List.mem_cons_self rfl
    rw [List.foldl_cons, insert_of_not_mem hnew, ih _ (by simpa using h)]
    simp

/-- A list of pairs with different keys is the table that it gives. -/
theorem ofList_of_nodup {pairs : List (κ × ν)} (h : (pairs.map (·.1)).Nodup) :
    ofList pairs = ⟨pairs⟩ :=
  foldl_insert_of_nodup pairs ∅ h

theorem nodup_keys_ofList (pairs : List (κ × ν)) : (ofList pairs).keys.Nodup :=
  (entries_foldl_insert pairs ∅ List.nodup_nil).1

theorem mem_of_mem_ofList {pairs : List (κ × ν)} {e : κ × ν} (h : e ∈ (ofList pairs).entries) :
    e ∈ pairs :=
  ((entries_foldl_insert pairs ∅ List.nodup_nil).2 e h).resolve_left nofun

/-! ## Changing all values -/

theorem find?_mapValues (f : ν → μ) (t : Table κ ν) (k : κ) :
    (t.mapValues f).find? k = (t.find? k).map f := by
  simp only [find?, mapValues, List.find?_map, Option.map_map]
  rfl

theorem contains_mapValues (f : ν → μ) (t : Table κ ν) (k : κ) :
    (t.mapValues f).contains k = t.contains k := by
  simp [contains, mapValues, Function.comp_def]

end Deadwood.Table
