import FcamGateway.PyText
import Mathlib.Data.List.DropRight

/-! Lines, words and fields of a text. The fields between separators that hold more than
white space do not depend on white space around the text, even where a separator is white
space itself. -/
namespace FcamGateway.PyText

/-- The line boundaries of `str.splitlines`. -/
def isLineBreak (c : Char) : Bool :=
  let n := c.toNat
  (10 ≤ n && n ≤ 13) || (28 ≤ n && n ≤ 30) || n == 0x85 || n == 0x2028 || n == 0x2029

/-- `str.splitlines`: a carriage return and the line feed after it end one line, and the
end of the text starts none. -/
def splitLines : List Char → List (List Char)
  | [] => []
  | '\r' :: '\n' :: rest => [] :: splitLines rest
  | c :: rest =>
    if isLineBreak c then [] :: splitLines rest
    else
      match splitLines rest with
      | [] => [[c]]
      | line :: others => (c :: line) :: others

/-- `str.split` without a separator. -/
def words (text : List Char) : List (List Char) := (text.splitOnP isSpace).filter (· ≠ [])

/-- The stripped parts that are not empty. -/
def filled (parts : List (List Char)) : List (List Char) := (parts.map stripChars).filter (· ≠ [])

def Blank (text : List Char) : Prop := ∀ c ∈ text, isSpace c

theorem stripChars_eq (text : List Char) :
    stripChars text = (text.dropWhile isSpace).rdropWhile isSpace := rfl

@[simp] theorem stripChars_nil : stripChars [] = [] := rfl

theorem stripChars_cons_space (space : isSpace c) (text : List Char) :
    stripChars (c :: text) = stripChars text := by
  rw [stripChars_eq, stripChars_eq, List.dropWhile_cons_of_pos space]

theorem stripChars_blank (blank : Blank text) : stripChars text = [] := by
  rw [stripChars_eq, List.dropWhile_eq_nil_iff.mpr blank]
  rfl

theorem stripChars_append_blank (blank : Blank back) (text : List Char) :
    stripChars (text ++ back) = stripChars text := by
  rw [stripChars_eq, stripChars_eq, List.dropWhile_append]
  split
  · next gone =>
    rw [List.isEmpty_iff.mp gone, List.dropWhile_eq_nil_iff.mpr blank]
  · rw [List.rdropWhile, List.reverse_append, List.dropWhile_append_of_pos]
    · rfl
    · intro c member
      exact blank c (List.mem_reverse.mp member)

theorem blank_of_stripChars (empty : stripChars text = []) : Blank text := by
  rw [stripChars_eq, List.rdropWhile_eq_nil_iff] at empty
  have none : text.dropWhile isSpace = [] := by
    by_contra some
    have head := List.head_dropWhile_not isSpace some
    rw [empty _ (List.head_mem some)] at head
    cases head
  exact List.dropWhile_eq_nil_iff.mp none

theorem stripChars_eq_nil : stripChars text = [] ↔ Blank text :=
  ⟨blank_of_stripChars, stripChars_blank⟩

/-- What stripping takes away at either end is white space. -/
theorem stripChars_spec (text : List Char) :
    ∃ front back, text = front ++ stripChars text ++ back ∧ Blank front ∧ Blank back := by
  let inner := text.dropWhile isSpace
  exists text.takeWhile isSpace, (inner.reverse.takeWhile isSpace).reverse
  have whole : inner = stripChars text ++ (inner.reverse.takeWhile isSpace).reverse := by
    have reversed := congrArg List.reverse (List.takeWhile_append_dropWhile (p := isSpace)
      (l := inner.reverse))
    rw [List.reverse_append, List.reverse_reverse] at reversed
    exact reversed.symm
  constructor
  · rw [List.append_assoc, ← whole, List.takeWhile_append_dropWhile]
  · constructor
    · intro c member
      exact List.mem_takeWhile_imp member
    · intro c member
      exact List.mem_takeWhile_imp (List.mem_reverse.mp member)

theorem stripChars_append_front (blank : Blank front) (text : List Char) :
    stripChars (front ++ text) = stripChars text := by
  rw [stripChars_eq, stripChars_eq, List.dropWhile_append_of_pos blank]

/-- The first and the last character that stripping leaves are no white space. -/
theorem stripChars_of_ends (first : ∀ c, text.head? = some c → ¬isSpace c)
    (last : ∀ c, text.getLast? = some c → ¬isSpace c) : stripChars text = text := by
  have left : text.dropWhile isSpace = text := by
    cases text with
    | nil => rfl
    | cons c rest => exact List.dropWhile_cons_of_neg (first c rfl)
  rw [stripChars_eq, left]
  apply List.rdropWhile_eq_self_iff.mpr
  intro some
  exact last _ (List.getLast?_eq_some_getLast some)

theorem stripChars_first (text : List Char) (found : (stripChars text).head? = some c) :
    ¬isSpace c := by
  have start : (text.dropWhile isSpace).head? = some c := by
    obtain ⟨back, whole⟩ := List.rdropWhile_prefix isSpace (l := text.dropWhile isSpace)
    rw [stripChars_eq] at found
    rw [← whole, List.head?_append, found]
    rfl
  have some : text.dropWhile isSpace ≠ [] := by
    intro empty
    rw [empty] at start
    cases start
  have head := List.head_dropWhile_not isSpace some
  rw [List.head?_eq_some_head some] at start
  rw [Option.some.inj start] at head
  simp [head]

theorem stripChars_last (text : List Char) (found : (stripChars text).getLast? = some c) :
    ¬isSpace c := by
  have some : stripChars text ≠ [] := by
    intro empty
    rw [empty] at found
    cases found
  have last := List.rdropWhile_last_not isSpace (text.dropWhile isSpace) some
  rw [List.getLast?_eq_some_getLast some] at found
  rw [← Option.some.inj found]
  exact last

@[simp] theorem stripChars_stripChars (text : List Char) :
    stripChars (stripChars text) = stripChars text :=
  stripChars_of_ends (fun _ => stripChars_first text) (fun _ => stripChars_last text)

theorem stripChars_mem (member : c ∈ stripChars text) : c ∈ text := by
  obtain ⟨front, back, whole, -, -⟩ := stripChars_spec text
  rw [whole]
  simp [member]

/-- A character that is no white space survives stripping. -/
theorem mem_stripChars (member : c ∈ text) (solid : ¬isSpace c) : c ∈ stripChars text := by
  obtain ⟨front, back, whole, before, after⟩ := stripChars_spec text
  rw [whole] at member
  simp only [List.mem_append] at member
  rcases member with (front | inside) | back
  · exact absurd (before c front) solid
  · exact inside
  · exact absurd (after c back) solid

@[simp] theorem filled_nil : filled [] = [] := rfl

theorem filled_cons (part : List Char) (others : List (List Char)) :
    filled (part :: others) =
      if stripChars part = [] then filled others else stripChars part :: filled others := by
  by_cases empty : stripChars part = [] <;> simp [filled, empty]

theorem filled_blank (blank : ∀ part ∈ parts, Blank part) : filled parts = [] := by
  induction parts with
  | nil => rfl
  | cons part others ih =>
    rw [filled_cons, if_pos (stripChars_blank (blank part List.mem_cons_self))]
    exact ih fun other member => blank other (List.mem_cons_of_mem _ member)

theorem blank_splitOnP (separator : Char → Bool) (blank : Blank text) :
    ∀ part ∈ text.splitOnP separator, Blank part := by
  induction text with
  | nil => simp [List.splitOnP_nil, Blank]
  | cons c rest ih =>
    have others := ih fun d member => blank d (List.mem_cons_of_mem _ member)
    rw [List.splitOnP_cons_eq_if_modifyHead]
    split
    · simpa [Blank] using others
    · cases parts : rest.splitOnP separator with
      | nil => exact absurd parts (List.splitOnP_ne_nil separator rest)
      | cons first more =>
        rw [parts] at others
        simp only [List.modifyHead_cons, List.forall_mem_cons] at others ⊢
        exact ⟨List.forall_mem_cons.mpr ⟨blank c List.mem_cons_self, others.1⟩, others.2⟩

theorem filled_front (separator : Char → Bool) (blank : Blank front) (text : List Char) :
    filled ((front ++ text).splitOnP separator) = filled (text.splitOnP separator) := by
  induction front with
  | nil => rfl
  | cons c front ih =>
    have inner := ih fun d member => blank d (List.mem_cons_of_mem _ member)
    rw [List.cons_append, List.splitOnP_cons_eq_if_modifyHead, ← inner]
    split
    · rw [filled_cons, if_pos stripChars_nil]
    · cases parts : (front ++ text).splitOnP separator with
      | nil => rfl
      | cons first others =>
        rw [List.modifyHead_cons, filled_cons, filled_cons,
          stripChars_cons_space (blank c List.mem_cons_self)]

/-- White space behind a text lengthens one part and adds blank ones. -/
theorem splitOnP_back (separator : Char → Bool) (blank : Blank back) (text : List Char) :
    ∃ first spaces others padded, text.splitOnP separator = first :: others ∧
      (text ++ back).splitOnP separator = (first ++ spaces) :: padded ∧ Blank spaces ∧
      filled padded = filled others := by
  induction text with
  | nil =>
    have parts := blank_splitOnP separator blank
    cases split : back.splitOnP separator with
    | nil => exact absurd split (List.splitOnP_ne_nil separator back)
    | cons first others =>
      rw [split, List.forall_mem_cons] at parts
      exact ⟨[], first, [], others, List.splitOnP_nil, split, parts.1, filled_blank parts.2⟩
  | cons c text ih =>
    obtain ⟨first, spaces, others, padded, short, long, spaced, same⟩ := ih
    rw [List.cons_append, List.splitOnP_cons_eq_if_modifyHead,
      List.splitOnP_cons_eq_if_modifyHead, short, long]
    by_cases separates : separator c
    · rw [if_pos separates, if_pos separates]
      refine ⟨[], [], _, _, rfl, rfl, fun _ member => absurd member List.not_mem_nil, ?_⟩
      rw [filled_cons, filled_cons, stripChars_append_blank spaced, same]
    · rw [if_neg separates, if_neg separates]
      exact ⟨c :: first, spaces, others, padded, rfl, rfl, spaced, same⟩

theorem filled_back (separator : Char → Bool) (blank : Blank back) (text : List Char) :
    filled ((text ++ back).splitOnP separator) = filled (text.splitOnP separator) := by
  obtain ⟨first, spaces, others, padded, short, long, spaced, same⟩ :=
    splitOnP_back separator blank text
  rw [short, long, filled_cons, filled_cons, stripChars_append_blank spaced, same]

/-- Stripping a text changes none of its fields that hold something. -/
theorem filled_stripChars (separator : Char → Bool) (text : List Char) :
    filled ((stripChars text).splitOnP separator) = filled (text.splitOnP separator) := by
  obtain ⟨front, back, whole, before, after⟩ := stripChars_spec text
  conv_rhs => rw [whole]
  rw [filled_back separator after, filled_front separator before]

theorem filled_splitOn (separator : Char) (text : List Char) :
    filled ((stripChars text).splitOn separator) = filled (text.splitOn separator) :=
  filled_stripChars _ text

theorem not_separator_of_mem_splitOnP (separator : Char → Bool) (text : List Char) :
    ∀ part ∈ text.splitOnP separator, ∀ c ∈ part, ¬separator c := by
  induction text with
  | nil => simp [List.splitOnP_nil]
  | cons c rest ih =>
    rw [List.splitOnP_cons_eq_if_modifyHead]
    split
    · simpa using ih
    · next kept =>
      cases parts : rest.splitOnP separator with
      | nil => exact absurd parts (List.splitOnP_ne_nil separator rest)
      | cons first others =>
        rw [parts, List.forall_mem_cons] at ih
        rw [List.modifyHead_cons, List.forall_mem_cons, List.forall_mem_cons]
        exact ⟨⟨kept, ih.1⟩, ih.2⟩

/-- A part that holds something is part of a field. -/
theorem mem_filled (member : part ∈ filled parts) : ∃ field ∈ parts, part = stripChars field := by
  obtain ⟨field, inside, rfl⟩ := List.mem_map.mp (List.mem_filter.mp member).1
  exact ⟨field, inside, rfl⟩

end FcamGateway.PyText
