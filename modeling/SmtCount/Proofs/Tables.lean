import Mathlib
import SmtCount.Table

/-!
# The rows of a table

A table is read by its keys and kept as rows.  What a change does to the rows matters where rows are
counted or listed, and for tables that are made from rows.

## Main results

* `Table.mem_of_get?` — the value of a key stands in a row.
* `Table.insert_eq`, `Table.rows_insert_perm`, `Table.exists_rows_insert_perm`, `Table.rows_perm_erase` — the rows after a change.
* `Table.get?_of_perm` — the order of the rows says nothing.
* `Table.isSome_get?_ofRows` — a table of rows has their keys.
* `Table.get?_ofRows_eq_some_iff` — **a table of rows with different keys holds exactly these rows**.
-/

namespace SmtCount.Table

variable {κ ν : Type} [DecidableEq κ]

/-! ### Keys and values -/

/-- A key that has a value has a row with it. -/
theorem mem_of_get? {t : Table κ ν} {k : κ} {v : ν} (h : t.get? k = some v) : (k, v) ∈ t.rows := by
  obtain ⟨rows⟩ := t
  rw [get?] at h
  induction rows with
  | nil => cases h
  | cons r rows ih =>
    rw [lookup] at h
    split at h
    · rename_i hk
      obtain rfl := Option.some.inj h
      exact hk ▸ List.mem_cons_self
    · exact List.mem_cons_of_mem _ (ih h)

theorem mem_keys_of_get? {t : Table κ ν} {k : κ} {v : ν} (h : t.get? k = some v) : k ∈ t.keys :=
  List.mem_map_of_mem (mem_of_get? h)

theorem mem_values_of_get? {t : Table κ ν} {k : κ} {v : ν} (h : t.get? k = some v) : v ∈ t.values :=
  List.mem_map_of_mem (mem_of_get? h)

theorem get?_eq_none {t : Table κ ν} {k : κ} (h : k ∉ t.keys) : t.get? k = none :=
  Option.eq_none_iff_forall_not_mem.mpr fun _ hv => h (mem_keys_of_get? hv)

/-- With different keys, a row is what its key has. -/
theorem get?_of_mem_rows {t : Table κ ν} (hkeys : t.keys.Nodup) {k : κ} {v : ν} (h : (k, v) ∈ t.rows) :
    t.get? k = some v := by
  obtain ⟨rows⟩ := t
  rw [get?]
  induction rows with
  | nil => exact absurd h List.not_mem_nil
  | cons r rows ih =>
    obtain ⟨hr, hrows⟩ := List.nodup_cons.mp hkeys
    rw [lookup]
    rcases List.mem_cons.mp h with rfl | h
    · exact if_pos rfl
    · have hne : r.1 ≠ k := fun hk => hr (hk ▸ List.mem_map_of_mem h)
      rw [if_neg hne]
      exact ih hrows h

/-! ### Rows after a change -/

/-- A new key gets a new row behind the others. -/
theorem insert_eq {t : Table κ ν} {k : κ} (h : t.get? k = none) (v : ν) :
    t.insert k v = ⟨t.rows ++ [(k, v)]⟩ := by
  obtain ⟨rows⟩ := t
  rw [get?] at h
  have hwrite : write k v rows = rows ++ [(k, v)] := by
    induction rows with
    | nil => rfl
    | cons r rows ih =>
      rw [lookup] at h
      split at h
      · cases h
      · rename_i hne
        rw [write, if_neg hne, ih h, List.cons_append]
  rw [insert, hwrite]

theorem rows_insert_perm {t : Table κ ν} {k : κ} (h : t.get? k = none) (v : ν) :
    (t.insert k v).rows.Perm ((k, v) :: t.rows) := by
  rw [insert_eq h]
  exact List.perm_append_singleton (k, v) t.rows

/-- Writing the value that a key has changes nothing. -/
theorem insert_of_get? {t : Table κ ν} {k : κ} {v : ν} (h : t.get? k = some v) : t.insert k v = t := by
  obtain ⟨rows⟩ := t
  rw [get?] at h
  have hwrite : write k v rows = rows := by
    induction rows with
    | nil => cases h
    | cons r rows ih =>
      rw [lookup] at h
      rw [write]
      split at h
      · rename_i hk
        rw [if_pos hk, ← hk, ← Option.some.inj h]
      · rename_i hne
        rw [if_neg hne, ih h]
  rw [insert, hwrite]

/-- A key that has a row keeps it, with the new value. -/
theorem exists_rows_insert_perm {t : Table κ ν} {k : κ} {v : ν} (h : t.get? k = some v) (v' : ν) :
    ∃ rest, t.rows.Perm ((k, v) :: rest) ∧ (t.insert k v').rows.Perm ((k, v') :: rest) := by
  obtain ⟨rows⟩ := t
  simp only [get?, insert] at h ⊢
  induction rows with
  | nil => cases h
  | cons r rows ih =>
    rw [lookup] at h
    rw [write]
    split at h
    · rename_i hk
      obtain rfl := Option.some.inj h
      rw [if_pos hk]
      exact ⟨rows, hk ▸ .refl _, .refl _⟩
    · rename_i hne
      rw [if_neg hne]
      obtain ⟨rest, hold, hnew⟩ := ih h
      exact ⟨r :: rest, (hold.cons r).trans (.swap _ _ _), (hnew.cons r).trans (.swap _ _ _)⟩

/-- Removing a key removes its row, when the keys are different. -/
theorem rows_perm_erase {t : Table κ ν} (hkeys : t.keys.Nodup) {k : κ} {v : ν} (h : t.get? k = some v) :
    t.rows.Perm ((k, v) :: (t.erase k).rows) := by
  obtain ⟨rows⟩ := t
  simp only [get?, erase, keys] at h hkeys ⊢
  induction rows with
  | nil => cases h
  | cons r rows ih =>
    rw [List.map_cons, List.nodup_cons] at hkeys
    obtain ⟨hr, hrows⟩ := hkeys
    rw [lookup] at h
    split at h
    · rename_i hk
      obtain rfl := Option.some.inj h
      have hrest : (rows.filter fun r => r.1 ≠ k) = rows := by
        refine List.filter_eq_self.mpr fun q hq => ?_
        have hne : q.1 ≠ k := fun hqk => hr (hk ▸ hqk ▸ List.mem_map_of_mem hq)
        simpa using hne
      rw [List.filter_cons_of_neg (by simpa using hk), hrest, ← hk]
    · rename_i hne
      rw [List.filter_cons_of_pos (by simpa using hne)]
      exact ((ih hrows h).cons r).trans (.swap _ _ _)

/-- The order of the rows says nothing, when the keys are different. -/
theorem get?_of_perm {t t' : Table κ ν} (hkeys : t.keys.Nodup) (h : t'.rows.Perm t.rows) (k : κ) :
    t'.get? k = t.get? k := by
  have hkeys' : t'.keys.Nodup := ((h.map Prod.fst).nodup_iff).mpr hkeys
  refine Option.ext fun v => ⟨fun hv => ?_, fun hv => ?_⟩
  · exact get?_of_mem_rows hkeys (h.mem_iff.mp (mem_of_get? hv))
  · exact get?_of_mem_rows hkeys' (h.mem_iff.mpr (mem_of_get? hv))

theorem nodup_keys_insert {t : Table κ ν} (hkeys : t.keys.Nodup) (k : κ) (v : ν) :
    (t.insert k v).keys.Nodup := by
  cases hk : t.get? k with
  | none =>
    refine (((rows_insert_perm hk v).map Prod.fst).nodup_iff).mpr ?_
    refine List.nodup_cons.mpr ⟨?_, hkeys⟩
    intro hmem
    obtain ⟨⟨k', w⟩, hrow, hfst⟩ := List.mem_map.mp hmem
    obtain rfl : k' = k := hfst
    rw [get?_of_mem_rows hkeys hrow] at hk
    cases hk
  | some w =>
    obtain ⟨rest, hold, hnew⟩ := exists_rows_insert_perm hk v
    exact ((hnew.map Prod.fst).nodup_iff).mpr (((hold.map Prod.fst).nodup_iff).mp hkeys)

theorem nodup_keys_erase {t : Table κ ν} (hkeys : t.keys.Nodup) (k : κ) : (t.erase k).keys.Nodup :=
  hkeys.sublist ((List.filter_sublist).map Prod.fst)

/-! ### Tables of rows -/

theorem ofRows_append (rows : List (κ × ν)) (r : κ × ν) :
    ofRows (rows ++ [r]) = (ofRows rows).insert r.1 r.2 := by
  rw [ofRows, List.foldl_append, List.foldl_cons, List.foldl_nil]
  rfl

/-- What a table of some rows has for a key is one of the rows. -/
theorem mem_of_get?_ofRows {rows : List (κ × ν)} {k : κ} {v : ν}
    (h : (ofRows rows).get? k = some v) : (k, v) ∈ rows := by
  induction rows using List.reverseRecOn with
  | nil => cases h
  | append_singleton rows r ih =>
    rw [ofRows_append, get?_insert] at h
    split at h
    · rename_i hk
      obtain rfl := Option.some.inj h
      exact List.mem_append_right _ (hk ▸ List.mem_singleton_self r)
    · exact List.mem_append_left _ (ih h)

/-- A table of some rows has a value for exactly their keys. -/
theorem isSome_get?_ofRows {rows : List (κ × ν)} {k : κ} :
    ((ofRows rows).get? k).isSome ↔ k ∈ rows.map Prod.fst := by
  induction rows using List.reverseRecOn with
  | nil => simp [ofRows]
  | append_singleton rows r ih =>
    rw [ofRows_append, get?_insert, List.map_append, List.map_singleton, List.mem_append, List.mem_singleton,
      ← ih]
    by_cases hk : r.1 = k
    · simp [hk]
    · simp [hk, Ne.symm hk]

/-- **A table of rows with different keys holds exactly these rows.** -/
theorem get?_ofRows_eq_some_iff {rows : List (κ × ν)} (hkeys : (rows.map Prod.fst).Nodup) {k : κ} {v : ν} :
    (ofRows rows).get? k = some v ↔ (k, v) ∈ rows := by
  refine ⟨mem_of_get?_ofRows, ?_⟩
  intro hmem
  induction rows using List.reverseRecOn with
  | nil => exact absurd hmem List.not_mem_nil
  | append_singleton rows r ih =>
    rw [List.map_append, List.map_singleton, List.nodup_append] at hkeys
    obtain ⟨hrows, -, hnew⟩ := hkeys
    rw [ofRows_append, get?_insert]
    rcases List.mem_append.mp hmem with hold | hlast
    · -- the key of an earlier row is not the key of the last one
      have hne : r.1 ≠ k := by
        intro heq
        exact hnew k (List.mem_map_of_mem hold) r.1 (List.mem_singleton_self _) heq.symm
      rw [if_neg hne]
      exact ih hrows hold
    · rw [← List.mem_singleton.mp hlast, if_pos rfl]

end SmtCount.Table
