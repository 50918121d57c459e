import Mathlib.Data.List.Find
import Mathlib.Data.List.Nodup

/-!
# Rows of a table

A table is the list of its rows, and a primary key is a column `key` under which no two
rows agree: `(rows.map key).Nodup`. Programs read and change tables in three ways.

* An *insert* adds a row at the end. Under a fresh key it keeps the primary key
  (`Table.nodup_insert`).
* A row is *looked up* by its key (`Table.find_eq_some`).
* An *update* rewrites the rows that a guard selects and leaves the others. What is in the
  table afterwards is `Table.mem_update`, and no row is lost (`Table.exists_update`). An
  update that does not touch the key column keeps it as it stands (`Table.keys_update`), and
  a lookup finds the row that it found (`Table.find_update`).

`Table.Unique` is a table with two unique columns, which inserts and updates keep.
-/

namespace Framework
namespace Table

variable {Row Key : Type*} {key : Row → Key} {rows : List Row}

/-- **A fresh key keeps the primary key.** -/
theorem nodup_insert {row : Row} (h : (rows.map key).Nodup)
    (hfresh : ∀ r ∈ rows, key r ≠ key row) : ((rows ++ [row]).map key).Nodup := by
  rw [List.map_append, List.nodup_append]
  refine ⟨h, List.nodup_singleton _, fun k hk k' hk' => ?_⟩
  obtain ⟨r, hr, rfl⟩ := List.mem_map.mp hk
  obtain rfl := List.mem_singleton.mp hk'
  exact hfresh r hr

/-- **Looking a key up** finds the row of that key, of which there is one at most. -/
theorem find_eq_some [DecidableEq Key] (h : (rows.map key).Nodup) {k : Key} {row : Row} :
    rows.find? (fun r => key r = k) = some row ↔ row ∈ rows ∧ key row = k := by
  constructor
  · intro hfind
    exact ⟨List.mem_of_find?_eq_some hfind, by simpa using List.find?_some hfind⟩
  · rintro ⟨hrow, rfl⟩
    cases hfind : rows.find? fun r => key r = key row with
    | none => exact absurd (List.find?_eq_none.mp hfind row hrow) (by simp)
    | some r =>
      have hkey : key r = key row := by simpa using List.find?_some hfind
      rw [List.inj_on_of_nodup_map h (List.mem_of_find?_eq_some hfind) hrow hkey]

section Update

variable {p : Row → Prop} [DecidablePred p] {f : Row → Row}

/-- **After an update.** A row is there if it is the rewrite of a row the guard selects, or
a row the guard does not select. -/
theorem mem_update {r : Row} :
    r ∈ rows.map (fun r => if p r then f r else r) ↔
      (∃ r₀ ∈ rows, p r₀ ∧ r = f r₀) ∨ r ∈ rows ∧ ¬ p r := by
  rw [List.mem_map]
  constructor
  · rintro ⟨r₀, hr₀, rfl⟩
    by_cases hp : p r₀
    · rw [if_pos hp]
      exact .inl ⟨r₀, hr₀, hp, rfl⟩
    · rw [if_neg hp]
      exact .inr ⟨hr₀, hp⟩
  · rintro (⟨r₀, hr₀, hp, rfl⟩ | ⟨hr, hp⟩)
    · exact ⟨r₀, hr₀, if_pos hp⟩
    · exact ⟨r, hr, if_neg hp⟩

/-- No row is lost: it is there after an update, rewritten if the guard selects it. -/
theorem exists_update {r : Row} (hr : r ∈ rows) :
    ∃ r' ∈ rows.map (fun r => if p r then f r else r), (p r ∧ r' = f r) ∨ (¬ p r ∧ r' = r) := by
  refine ⟨_, List.mem_map_of_mem hr, ?_⟩
  by_cases hp : p r
  · exact .inl ⟨hp, if_pos hp⟩
  · exact .inr ⟨hp, if_neg hp⟩

/-- **An update that keeps the key of each row keeps the key column.** -/
theorem keys_update (hf : ∀ r, key (f r) = key r) :
    (rows.map fun r => if p r then f r else r).map key = rows.map key := by
  rw [List.map_map]
  refine List.map_congr_left fun r _ => ?_
  change key (if p r then f r else r) = key r
  by_cases hp : p r
  · rw [if_pos hp, hf]
  · rw [if_neg hp]

/-- **Looking a key up after an update** finds the row of before, rewritten if the guard
selects it. -/
theorem find_update [DecidableEq Key] (hf : ∀ r, p r → key (f r) = key r) (k : Key) :
    (rows.map fun r => if p r then f r else r).find? (fun r => key r = k) =
      (rows.find? fun r => key r = k).map fun r => if p r then f r else r := by
  rw [List.find?_map]
  congr 1
  refine List.find?_congr fun r _ => ?_
  change decide (key (if p r then f r else r) = k) = decide (key r = k)
  by_cases hp : p r
  · rw [if_pos hp, hf r hp]
  · rw [if_neg hp]

/-- Where the guard selects one row, the update puts another one in its place. -/
theorem update_eq_replace [DecidableEq Key] (h : (rows.map key).Nodup) {row : Row}
    (hrow : row ∈ rows) (hp : p row) (honly : ∀ r ∈ rows, p r → key r = key row) :
    (rows.map fun r => if p r then f r else r) =
      rows.map fun r => if key r = key row then f row else r := by
  refine List.map_congr_left fun r hr => ?_
  by_cases hkey : key r = key row
  · obtain rfl := List.inj_on_of_nodup_map h hr hrow hkey
    rw [if_pos hp, if_pos rfl]
  · rw [if_neg fun hpr => hkey (honly r hr hpr), if_neg hkey]

end Update

/-- A table with two unique columns: a primary key, and another one. -/
structure Unique {Row Key₁ Key₂ : Type*} (key₁ : Row → Key₁) (key₂ : Row → Key₂) where
  rows : List Row
  keys₁ : (rows.map key₁).Nodup
  keys₂ : (rows.map key₂).Nodup

namespace Unique

/-- The table without rows. -/
def empty {Row Key₁ Key₂ : Type*} {key₁ : Row → Key₁} {key₂ : Row → Key₂} : Unique key₁ key₂ :=
  ⟨[], List.nodup_nil, List.nodup_nil⟩

variable {Row Key₁ Key₂ : Type*} {key₁ : Row → Key₁} {key₂ : Row → Key₂}
  (table : Unique key₁ key₂) {row r r' : Row}

variable {table} in
theorem eq_of_key₁ (hr : r ∈ table.rows) (hr' : r' ∈ table.rows) (h : key₁ r = key₁ r') : r = r' :=
  List.inj_on_of_nodup_map table.keys₁ hr hr' h

variable {table} in
theorem eq_of_key₂ (hr : r ∈ table.rows) (hr' : r' ∈ table.rows) (h : key₂ r = key₂ r') : r = r' :=
  List.inj_on_of_nodup_map table.keys₂ hr hr' h

/-- Rewrite each row, in its other columns. -/
def rewrite (f : Row → Row) (hf₁ : ∀ r, key₁ (f r) = key₁ r) (hf₂ : ∀ r, key₂ (f r) = key₂ r) :
    Unique key₁ key₂ where
  rows := table.rows.map f
  keys₁ := by
    have hkeys : key₁ ∘ f = key₁ := funext hf₁
    rw [List.map_map, hkeys]
    exact table.keys₁
  keys₂ := by
    have hkeys : key₂ ∘ f = key₂ := funext hf₂
    rw [List.map_map, hkeys]
    exact table.keys₂

/-- Take out the rows that a condition selects. -/
def delete (p : Row → Bool) : Unique key₁ key₂ where
  rows := table.rows.filter (!p ·)
  keys₁ := table.keys₁.sublist (List.filter_sublist.map _)
  keys₂ := table.keys₂.sublist (List.filter_sublist.map _)

variable [DecidableEq Key₁]

/-- Rewrite the row of a primary key, in its other columns. -/
def update (k : Key₁) (f : Row → Row) (hf₁ : ∀ r, key₁ (f r) = key₁ r)
    (hf₂ : ∀ r, key₂ (f r) = key₂ r) : Unique key₁ key₂ where
  rows := table.rows.map fun r => if key₁ r = k then f r else r
  keys₁ := by
    rw [keys_update hf₁]
    exact table.keys₁
  keys₂ := by
    rw [keys_update hf₂]
    exact table.keys₂

variable {table} in
theorem mem_update {k : Key₁} {f : Row → Row} {hf₁ : ∀ r, key₁ (f r) = key₁ r}
    {hf₂ : ∀ r, key₂ (f r) = key₂ r} :
    r ∈ (table.update k f hf₁ hf₂).rows ↔
      (∃ r₀ ∈ table.rows, key₁ r₀ = k ∧ r = f r₀) ∨ r ∈ table.rows ∧ key₁ r ≠ k :=
  Table.mem_update

variable {table} in
/-- A row after an update was there before, under the same keys. -/
theorem of_mem_update {k : Key₁} {f : Row → Row} (hf₁ : ∀ r, key₁ (f r) = key₁ r)
    (hf₂ : ∀ r, key₂ (f r) = key₂ r) (h : r' ∈ (table.update k f hf₁ hf₂).rows) :
    ∃ r ∈ table.rows, key₁ r' = key₁ r ∧ key₂ r' = key₂ r ∧
      (key₁ r = k ∧ r' = f r ∨ key₁ r ≠ k ∧ r' = r) := by
  rcases mem_update.mp h with ⟨r, hr, hk, rfl⟩ | ⟨hr', hk⟩
  · exact ⟨r, hr, hf₁ r, hf₂ r, .inl ⟨hk, rfl⟩⟩
  · exact ⟨r', hr', rfl, rfl, .inr ⟨hk, rfl⟩⟩

variable {table} in
/-- A row stays under an update, with its keys. -/
theorem exists_update {k : Key₁} {f : Row → Row} (hf₁ : ∀ r, key₁ (f r) = key₁ r)
    (hf₂ : ∀ r, key₂ (f r) = key₂ r) (hr : r ∈ table.rows) :
    ∃ r' ∈ (table.update k f hf₁ hf₂).rows, key₁ r' = key₁ r ∧ key₂ r' = key₂ r := by
  by_cases hk : key₁ r = k
  · exact ⟨f r, mem_update.mpr (.inl ⟨r, hr, hk, rfl⟩), hf₁ r, hf₂ r⟩
  · exact ⟨r, mem_update.mpr (.inr ⟨hr, hk⟩), rfl, rfl⟩

variable [DecidableEq Key₂]

/-- Do two rows agree under a unique column? -/
def clash (key₁ : Row → Key₁) (key₂ : Row → Key₂) (r r' : Row) : Bool :=
  key₁ r = key₁ r' || key₂ r = key₂ r'

/-- Is there a row that a new one would clash with? -/
def refuses (row : Row) : Bool :=
  table.rows.any (clash key₁ key₂ row)

theorem clash_eq_false :
    clash key₁ key₂ r r' = false ↔ key₁ r ≠ key₁ r' ∧ key₂ r ≠ key₂ r' := by
  simp [clash]

/-- A new row. Where the table refuses it, it stays as it is. -/
def insert (row : Row) : Unique key₁ key₂ :=
  if h : ∀ r ∈ table.rows, clash key₁ key₂ row r = false then
    ⟨table.rows ++ [row],
      nodup_insert table.keys₁ fun r hr => (clash_eq_false.mp (h r hr)).1.symm,
      nodup_insert table.keys₂ fun r hr => (clash_eq_false.mp (h r hr)).2.symm⟩
  else table

variable {table}

theorem refuses_eq_false :
    table.refuses row = false ↔ ∀ r ∈ table.rows, clash key₁ key₂ row r = false := by
  simp [refuses]

/-- There is no other new row after an insert, whether the table refuses it or not. -/
theorem mem_of_mem_insert (h : r ∈ (table.insert row).rows) : r ∈ table.rows ∨ r = row := by
  unfold insert at h
  split at h
  · rwa [List.mem_append, List.mem_singleton] at h
  · exact .inl h

theorem mem_insert_of_mem (h : r ∈ table.rows) : r ∈ (table.insert row).rows := by
  unfold insert
  split
  · exact List.mem_append_left _ h
  · exact h

/-- Where the table does not refuse the row, it has it then, and no other new one. -/
theorem mem_insert (h : table.refuses row = false) :
    r ∈ (table.insert row).rows ↔ r ∈ table.rows ∨ r = row := by
  unfold insert
  rw [dif_pos (refuses_eq_false.mp h), List.mem_append, List.mem_singleton]

end Unique

end Table
end Framework
