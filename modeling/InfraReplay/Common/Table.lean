import Mathlib.Data.List.Nodup

/-!
# Tables with a primary key

A `Table key` is a list of rows, in insertion order, of which no two share a key. Rows come in
with `addAll`, all of them or none, and change with `modify`, which keeps every key.
-/

/-- Rows with distinct keys. -/
@[ext]
structure Table {κ ρ : Type} (key : ρ → κ) where
  rows : List ρ
  nodup : (rows.map key).Nodup

namespace Table

variable {κ ρ : Type} {key : ρ → κ} {t t' : Table key} {k : κ} {r : ρ}

/-- The table without rows. -/
def empty (key : ρ → κ) : Table key := ⟨[], by simp⟩

/-- Change the rows in place, keeping their keys. -/
def modify (t : Table key) (f : ρ → ρ) (hf : ∀ r, key (f r) = key r) : Table key where
  rows := t.rows.map f
  nodup := by
    have hmap : key ∘ f = key := funext hf
    rw [List.map_map, hmap]
    exact t.nodup

@[simp]
theorem rows_modify (f : ρ → ρ) (hf : ∀ r, key (f r) = key r) :
    (t.modify f hf).rows = t.rows.map f := rfl

theorem eq_of_key_eq (t : Table key) {r r' : ρ} (hr : r ∈ t.rows) (hr' : r' ∈ t.rows)
    (h : key r = key r') : r = r' :=
  List.inj_on_of_nodup_map t.nodup hr hr' h

variable [DecidableEq κ]

/-- Of rows with distinct keys, one has the key of a row that is there. -/
theorem filter_key_eq {rows : List ρ} (hnd : (rows.map key).Nodup) (hr : r ∈ rows) :
    (rows.filter fun r' => key r' = key r) = [r] := by
  obtain ⟨pre, rest, rfl⟩ := List.append_of_mem hr
  rw [List.map_append, List.map_cons, List.nodup_append] at hnd
  obtain ⟨-, hrest, hdisjoint⟩ := hnd
  have hpre : (pre.filter fun r' => key r' = key r) = [] :=
    List.filter_eq_nil_iff.mpr fun r' hr' h =>
      hdisjoint (key r') (List.mem_map_of_mem hr') (key r) (by simp) (of_decide_eq_true h)
  have hrest : (rest.filter fun r' => key r' = key r) = [] :=
    List.filter_eq_nil_iff.mpr fun r' hr' h =>
      (List.nodup_cons.mp hrest).1 (of_decide_eq_true h ▸ List.mem_map_of_mem hr')
  rw [List.filter_append, hpre, List.filter_cons, hrest]
  simp

/-- Rewriting the rows under distinct keys, one key after the other, rewrites each row once. -/
theorem foldl_rewrite {ι : Type} {name : ι → κ} {f : ι → ρ → ρ}
    (hf : ∀ i r, key (f i r) = key r) {is : List ι} (hnd : (is.map name).Nodup) (rows : List ρ) :
    is.foldl (fun rows i => rows.map fun r => if key r = name i then f i r else r) rows =
      rows.map fun r => ((is.find? fun i => name i = key r).map fun i => f i r).getD r := by
  induction is generalizing rows with
  | nil => simp
  | cons i is ih =>
    rw [List.map_cons, List.nodup_cons] at hnd
    rw [List.foldl_cons, ih hnd.2, List.map_map]
    refine List.map_congr_left fun r _ => ?_
    simp only [Function.comp_apply]
    by_cases hr : key r = name i
    · -- no later key is this one, so the row is rewritten once
      have hnone : (is.find? fun i' => name i' = key r) = none := by
        rw [List.find?_eq_none]
        intro i' hi' heq
        refine hnd.1 (List.mem_map.mpr ⟨i', hi', ?_⟩)
        rw [← hr]
        exact of_decide_eq_true heq
      rw [if_pos hr, hf, hnone, List.find?_cons_of_pos (by simp [hr])]
      rfl
    · rw [if_neg hr, List.find?_cons_of_neg (by simpa using fun h => hr h.symm)]

/-- The row under a key. -/
def find? (t : Table key) (k : κ) : Option ρ := t.rows.find? fun r => key r = k

/-- Append rows; `none` when a key is taken or given twice. -/
def addAll (t : Table key) (rs : List ρ) : Option (Table key) :=
  if h : ((t.rows ++ rs).map key).Nodup then some ⟨t.rows ++ rs, h⟩ else none

theorem find?_eq_some_iff : t.find? k = some r ↔ r ∈ t.rows ∧ key r = k := by
  constructor
  · intro h
    exact ⟨List.mem_of_find?_eq_some h, by simpa using List.find?_some h⟩
  · rintro ⟨hr, rfl⟩
    cases h : t.find? (key r) with
    | none => simpa using List.find?_eq_none.mp h r hr
    | some r' =>
      have hkey : key r' = key r := by simpa using List.find?_some h
      rw [t.eq_of_key_eq (List.mem_of_find?_eq_some h) hr hkey]

theorem find?_eq_none_iff : t.find? k = none ↔ k ∉ t.rows.map key := by
  simp [find?]

/-- Appending rows that goes through appends exactly them. -/
theorem addAll_eq_some_iff {rs : List ρ} : t.addAll rs = some t' ↔ t'.rows = t.rows ++ rs := by
  rw [addAll]
  split_ifs with h
  · rw [Option.some_inj, Table.ext_iff]
    exact eq_comm
  · refine iff_of_false (by simp) fun hrows => h ?_
    rw [← hrows]
    exact t'.nodup

theorem addAll_eq_none_iff {rs : List ρ} :
    t.addAll rs = none ↔ ¬((t.rows ++ rs).map key).Nodup := by
  rw [addAll]
  split_ifs with h
  · exact iff_of_false (by simp) (not_not_intro h)
  · exact iff_of_true rfl h

/-- Appending rows at once is appending them in two goes. -/
theorem addAll_append (t : Table key) (rs rs' : List ρ) :
    t.addAll (rs ++ rs') = (t.addAll rs).bind fun t' => t'.addAll rs' := by
  cases h : t.addAll rs with
  | none =>
    -- a key that is taken or repeated among `rs` is so among `rs ++ rs'`
    rw [addAll_eq_none_iff] at h
    rw [Option.bind_none, addAll_eq_none_iff]
    refine fun hnd => h (hnd.sublist (List.Sublist.map _ ?_))
    rw [← List.append_assoc]
    exact List.sublist_append_left _ _
  | some t' =>
    rw [Option.bind_some, addAll, addAll]
    have hrows : t'.rows ++ rs' = t.rows ++ (rs ++ rs') := by
      rw [addAll_eq_some_iff.mp h, List.append_assoc]
    simp only [hrows]

/-- The table after new rows under new keys. -/
theorem exists_addAll_eq_some {rs : List ρ} (hrs : (rs.map key).Nodup)
    (hnew : ∀ r ∈ rs, key r ∉ t.rows.map key) :
    ∃ t', t.addAll rs = some t' ∧ t'.rows = t.rows ++ rs := by
  have hnd : ((t.rows ++ rs).map key).Nodup := by
    rw [List.map_append, List.nodup_append']
    refine ⟨t.nodup, hrs, fun k hk hk' => ?_⟩
    obtain ⟨r, hr, rfl⟩ := List.mem_map.mp hk'
    exact hnew r hr hk
  exact ⟨⟨t.rows ++ rs, hnd⟩, dif_pos hnd, rfl⟩

/-- A row is found under its key after a change. -/
theorem find?_modify (f : ρ → ρ) (hf : ∀ r, key (f r) = key r) :
    (t.modify f hf).find? k = (t.find? k).map f := by
  rw [find?, find?, rows_modify, List.find?_map]
  have hpred : ((fun r => decide (key r = k)) ∘ f) = fun r => decide (key r = k) := by
    funext r
    simp [hf]
  rw [hpred]

end Table
