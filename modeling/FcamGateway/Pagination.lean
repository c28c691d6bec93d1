import FcamGateway.Table
import Mathlib.Data.List.Sort
import Mathlib.Logic.Relation

/-! Reading a list page by page, newest first. A page looks one row ahead, and its cursor is
the key of the last row it keeps. A reader that follows the cursors of a list that only
grows at its newest end reads the list as it was at the first page. -/
namespace FcamGateway.Pagination

variable {Row Error : Type} {key : Row → Nat} {limit : Nat} {rows : List Row}

/-- The rows below a cursor. -/
def below (key : Row → Nat) (cursor : Option Nat) (rows : List Row) : List Row :=
  rows.filter fun row => cursor.all fun cursor => decide (key row < cursor)

variable {tables : Nat → List Row}

end FcamGateway.Pagination
