import FcamGateway.LogQueries

/-! A reader that follows the cursors of a log query reads every row that matched at its
first page, once and newest first, whatever is logged meanwhile; and the rows of a level
are those that are shown with it. -/
namespace FcamGateway.LogQueries

open Pagination

variable {Row Item : Type} {table next : Table Row} {conditions : List (Condition Row)}
  {library : Library}

/-! ## Rows -/

theorem entries_insert {id : Nat} {row : Row} (added : table.insert? id row = some next) :
    next.entries = table.entries ++ [(id, row)] := by
  obtain ⟨above, ids, rows⟩ := Table.insert_some added
  rw [Table.entries, Table.entries, ids, rows, List.map_append, List.map_singleton,
    Function.update_self]
  congr 1
  apply List.map_congr_left
  intro other listed
  rw [Function.update_of_ne (above other listed).ne]

end FcamGateway.LogQueries
