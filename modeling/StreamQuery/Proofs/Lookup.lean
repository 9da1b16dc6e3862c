import Mathlib.Data.List.Basic
import StreamQuery.Expr.Typing

/-!
# Reading by name

Entries with names are read by name, the first of a name. Where all names are different, reading by
name is reading by place: a column has its own type and its own value under its name.
-/

namespace StreamQuery

theorem lookup_entry {β : Type} (entry : String × β) (rest : List (String × β)) (key : String) :
    (entry :: rest).lookup key = if key = entry.1 then some entry.2 else rest.lookup key := by
  rw [List.lookup_cons]
  by_cases same : key = entry.1
  · simp [same]
  · have skipped : (key == entry.1) = false := by simpa using same
    simp [same, skipped]

/-- Where names are different, each of them has the type of its own column. -/
theorem columnType_of_mem {header : List Column} (distinct : (header.map Column.name).Nodup) {c : Column}
    (member : c ∈ header) : columnType header c.name = c.datatype := by
  induction header with
  | nil => cases member
  | cons first rest ih =>
    rw [List.map_cons, List.nodup_cons] at distinct
    rcases List.mem_cons.mp member with rfl | later
    · simp [columnType]
    · have other : first.name ≠ c.name := fun same => distinct.1 (same ▸ List.mem_map_of_mem later)
      rw [← ih distinct.2 later]
      simp [columnType, other]

theorem lookup_of_mem {β : Type} {entries : List (String × β)} (distinct : (entries.map Prod.fst).Nodup)
    {key : String} {v : β} (member : (key, v) ∈ entries) : entries.lookup key = some v := by
  induction entries with
  | nil => cases member
  | cons entry rest ih =>
    rw [List.map_cons, List.nodup_cons] at distinct
    rw [lookup_entry]
    rcases List.mem_cons.mp member with rfl | later
    · exact if_pos rfl
    · have other : key ≠ entry.1 := fun same => distinct.1 (same ▸ List.mem_map_of_mem later)
      rw [if_neg other, ih distinct.2 later]

/-- Where names are different, each of them is bound to the value at its own place. -/
theorem lookup_ofRecord {header : List Column} (distinct : (header.map Column.name).Nodup) {record : Record}
    {c : Column} {v : Value} (place : (c, v) ∈ header.zip record) :
    (Scope.ofRecord header record).lookup c.name = .ok v := by
  have unique : (((header.map Column.name).zip record).map Prod.fst).Nodup := by
    rw [List.zip_eq_zip_take_min, List.map_fst_zip (by simp)]
    exact distinct.sublist (List.take_sublist _ _)
  have member : (c.name, v) ∈ (header.map Column.name).zip record := by
    rw [List.zip_map_left]
    exact List.mem_map.mpr ⟨(c, v), place, rfl⟩
  have bound : (Scope.ofRecord header record).get? c.name = some v :=
    lookup_of_mem unique member
  unfold Scope.lookup
  rw [bound]

end StreamQuery
