import Mathlib.Data.List.Basic
import Mathlib.Logic.Function.Basic

/-! A database table with an integer primary key. The listed keys ascend, so
no two rows share one and a query ordered by key reads them as they stand. The
columns of a key that is not listed mean nothing. -/
namespace FcamGateway

structure Table (Columns : Type) where
  ids : List Nat
  ascending : ids.Pairwise (· < ·)
  row : Nat → Columns

namespace Table

variable {Columns : Type} {table next : Table Columns} {id other : Nat} {columns : Columns}
  {change : Columns → Columns} {condition : Nat → Columns → Bool}

def empty (filler : Columns) : Table Columns := ⟨[], List.Pairwise.nil, fun _ => filler⟩

/-- One row. -/
def single (id : Nat) (columns : Columns) : Table Columns :=
  ⟨[id], List.pairwise_singleton _ _, fun _ => columns⟩

/-- The row a query by primary key finds. -/
def get? (table : Table Columns) (id : Nat) : Option Columns :=
  if id ∈ table.ids then some (table.row id) else none

/-- All rows, ordered by primary key. -/
def entries (table : Table Columns) : List (Nat × Columns) :=
  table.ids.map fun id => (id, table.row id)

/-- Rewrite the columns of one row; other rows and the set of keys stay. -/
def modify (table : Table Columns) (id : Nat) (change : Columns → Columns) : Table Columns :=
  { table with row := Function.update table.row id (change (table.row id)) }

/-- A new row takes a key above every key present. A key that was deleted may
be given out again. -/
def insert? (table : Table Columns) (id : Nat) (columns : Columns) : Option (Table Columns) :=
  if above : ∀ listed ∈ table.ids, listed < id then
    some { ids := table.ids ++ [id]
           ascending := List.pairwise_append.mpr
             ⟨table.ascending, List.pairwise_singleton _ _, by simpa using above⟩
           row := Function.update table.row id columns }
  else none

/-- The next key of a table without `AUTOINCREMENT`. -/
def nextId (table : Table Columns) : Nat := table.ids.foldr max 0 + 1

/-- Delete every row that satisfies the condition. -/
def delete (table : Table Columns) (condition : Nat → Columns → Bool) : Table Columns :=
  { table with
    ids := table.ids.filter fun id => !condition id (table.row id)
    ascending := table.ascending.filter _ }

/-- Rewrite the columns of every row. -/
def map (table : Table Columns) (change : Columns → Columns) : Table Columns :=
  { table with row := fun id => change (table.row id) }

theorem nodup (table : Table Columns) : table.ids.Nodup :=
  table.ascending.imp fun less => Nat.ne_of_lt less

theorem get_some : table.get? id = some columns ↔ id ∈ table.ids ∧ table.row id = columns := by
  simp only [get?]
  split <;> simp_all

theorem get_none : table.get? id = none ↔ id ∉ table.ids := by
  simp [get?]

theorem mem_entries : (id, columns) ∈ table.entries ↔ table.get? id = some columns := by
  simp only [entries, List.mem_map, Prod.mk.injEq, get_some]
  constructor
  · rintro ⟨listed, member, rfl, rfl⟩
    exact ⟨member, rfl⟩
  · rintro ⟨member, rfl⟩
    exact ⟨id, member, rfl, rfl⟩

@[simp] theorem ids_modify : (table.modify id change).ids = table.ids := rfl

@[simp] theorem ids_delete :
    (table.delete condition).ids = table.ids.filter fun id => !condition id (table.row id) := rfl

@[simp] theorem row_delete : (table.delete condition).row = table.row := rfl

theorem row_modify_self : (table.modify id change).row id = change (table.row id) := by
  simp [modify]

theorem row_modify_other (different : other ≠ id) :
    (table.modify id change).row other = table.row other := by
  simp [modify, different]

theorem get_modify_self : (table.modify id change).get? id = (table.get? id).map change := by
  simp only [get?, ids_modify, row_modify_self]
  split <;> rfl

theorem get_modify_other (different : other ≠ id) :
    (table.modify id change).get? other = table.get? other := by
  simp only [get?, ids_modify, row_modify_other different]

theorem get_modify (table : Table Columns) (id : Nat) (change : Columns → Columns) (other : Nat) :
    (table.modify id change).get? other =
      if other = id then (table.get? other).map change else table.get? other := by
  by_cases same : other = id
  · subst same
    simp [get_modify_self]
  · simp [get_modify_other same, same]

theorem get_map : (table.map change).get? id = (table.get? id).map change := by
  by_cases listed : id ∈ table.ids <;> simp [get?, map, listed]

theorem get_delete : (table.delete condition).get? id =
    (table.get? id).filter fun columns => !condition id columns := by
  simp only [get?, ids_delete, row_delete, List.mem_filter]
  by_cases listed : id ∈ table.ids <;> cases chosen : condition id (table.row id) <;>
    simp [listed, chosen, Option.filter]

theorem insert_some (added : table.insert? id columns = some next) :
    (∀ listed ∈ table.ids, listed < id) ∧ next.ids = table.ids ++ [id] ∧
      next.row = Function.update table.row id columns := by
  simp only [insert?] at added
  split at added
  · rename_i above
    cases added
    exact ⟨above, rfl, rfl⟩
  · cases added

theorem get_insert (added : table.insert? id columns = some next) (other : Nat) :
    next.get? other = if other = id then some columns else table.get? other := by
  obtain ⟨above, ids, row⟩ := insert_some added
  simp only [get?, ids, row, List.mem_append, List.mem_singleton]
  by_cases same : other = id
  · simp [same]
  · simp [same]

theorem le_foldr_max (ids : List Nat) (member : id ∈ ids) : id ≤ ids.foldr max 0 := by
  induction ids with
  | nil => cases member
  | cons first rest ih =>
    simp only [List.foldr_cons]
    rcases List.mem_cons.mp member with rfl | later
    · exact Nat.le_max_left ..
    · exact Nat.le_trans (ih later) (Nat.le_max_right ..)

/-- The key after the greatest one can always be inserted. -/
theorem insert_nextId (table : Table Columns) (columns : Columns) :
    ∃ next, table.insert? table.nextId columns = some next := by
  have above : ∀ listed ∈ table.ids, listed < table.nextId :=
    fun listed member => Nat.lt_succ_of_le (le_foldr_max table.ids member)
  exact ⟨_, dif_pos above⟩

end Table

end FcamGateway
