import Mathlib.Data.List.Rotate

/-! Reading a list in turn. Whoever reads keeps a cursor that may have run past the end: it is
reduced when it is used, and left one past the item it was used for. -/
namespace FcamGateway.Rotation

variable {Item : Type}

/-- The items of `count` reads that start at a cursor. -/
def reads (items : List Item) : Nat → Nat → List Item
  | _, 0 => []
  | cursor, count + 1 =>
    items[cursor % items.length]?.toList ++ reads items (cursor % items.length + 1) count

variable {items : List Item}

/-- Where the first item of a rotation goes when the cursor advances. -/
theorem rotate_cons (items : List Item) (cursor : Nat) (more : 0 < items.length) :
    ∃ first rest, items[cursor % items.length]? = some first ∧ items.rotate cursor = first :: rest ∧
      items.rotate (cursor % items.length + 1) = rest ++ [first] := by
  have within := Nat.mod_lt cursor more
  obtain ⟨first, rest, rotated⟩ : ∃ first rest, items.rotate cursor = first :: rest := by
    apply List.exists_cons_of_length_pos
    rw [List.length_rotate]
    exact more
  refine ⟨first, rest, ?_, rotated, ?_⟩
  · have head := List.head?_rotate within
    rw [List.rotate_mod, rotated] at head
    exact head.symm
  · rw [← List.rotate_rotate, List.rotate_mod, rotated]
    exact List.rotate_cons_succ rest first 0 |>.trans (List.rotate_zero _)

/-- Up to once round, the reads are those of the rotated list. -/
theorem reads_eq_take (cursor count : Nat) (once : count ≤ items.length) :
    reads items cursor count = (items.rotate cursor).take count := by
  induction count generalizing cursor with
  | zero => rfl
  | succ count ih =>
    obtain ⟨first, rest, here, rotated, advanced⟩ := rotate_cons items cursor (by omega)
    have length : rest.length + 1 = items.length := by
      rw [← List.length_rotate (l := items) (n := cursor), rotated, List.length_cons]
    rw [reads, here, ih _ (by omega), advanced, rotated, List.take_append_of_le_length (by omega)]
    rfl

/-- Once round, every item is read once. -/
theorem reads_perm (items : List Item) (cursor : Nat) :
    (reads items cursor items.length).Perm items := by
  rw [reads_eq_take cursor _ (le_refl _), List.take_of_length_le (List.length_rotate ..).le]
  exact List.rotate_perm items cursor

end FcamGateway.Rotation
