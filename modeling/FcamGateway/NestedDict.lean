import Mathlib.Data.List.Pairwise
import Mathlib.Data.List.Perm.Basic
import Mathlib.Logic.Function.Basic

/-! Dictionaries of dictionaries: what stands at a path of keys, and what it
changes to put a value there. A sequence of such writes has one outcome in
every order exactly when no two of them compete for one place. -/
namespace FcamGateway

/-- A value of a nested dictionary: a dictionary again, or anything else. -/
inductive Nested (Key Scalar : Type) where
  | scalar (value : Scalar)
  | dict (entries : Key → Option (Nested Key Scalar))

namespace Nested

variable {Key Scalar : Type}

/-- The entries of a dictionary; whatever else stands there, or nothing, has none. -/
def entriesOf : Option (Nested Key Scalar) → Key → Option (Nested Key Scalar)
  | some (dict entries) => entries
  | _ => fun _ => none

@[simp] theorem entriesOf_none : entriesOf (none : Option (Nested Key Scalar)) = fun _ => none := rfl

@[simp] theorem entriesOf_dict (entries : Key → Option (Nested Key Scalar)) :
    entriesOf (some (dict entries)) = entries := rfl

/-- What stands at a path. -/
def find : List Key → Option (Nested Key Scalar) → Option (Nested Key Scalar)
  | [], node => node
  | key :: rest, node => find rest (entriesOf node key)

@[simp] theorem find_none (path : List Key) : find path (none : Option (Nested Key Scalar)) = none := by
  induction path with
  | nil => rfl
  | cons key rest ih => exact ih

theorem find_append (front back : List Key) (node : Option (Nested Key Scalar)) :
    find (front ++ back) node = find back (find front node) := by
  induction front generalizing node with
  | nil => rfl
  | cons key rest ih => exact ih _

variable [DecidableEq Key]

/-- The value put at a path; what stands in the way of the path becomes a
dictionary. -/
def put (value : Nested Key Scalar) : List Key → Option (Nested Key Scalar) → Nested Key Scalar
  | [], _ => value
  | key :: rest, node =>
    dict (Function.update (entriesOf node) key (some (put value rest (entriesOf node key))))

variable {value inner : Nested Key Scalar}

theorem find_put (path : List Key) (node : Option (Nested Key Scalar)) :
    find path (some (put value path node)) = some value := by
  induction path generalizing node with
  | nil => rfl
  | cons key rest ih =>
    rw [put, find, entriesOf_dict, Function.update_self]
    exact ih _

/-- A value that stands at its path already is put there to no effect. -/
theorem put_held {path : List Key} {node : Option (Nested Key Scalar)}
    (held : find path node = some value) : some (put value path node) = node := by
  induction path generalizing node with
  | nil => exact held.symm
  | cons key rest ih =>
    cases node with
    | none => simp [find] at held
    | some node =>
      cases node with
      | scalar => simp [find, entriesOf] at held
      | dict entries =>
        have inner : some (put value rest (entries key)) = entries key := ih held
        simp only [put, entriesOf_dict, inner, Function.update_eq_self]

/-- A value put over a place hides what was put below it. -/
theorem put_over (path rest : List Key) (node : Option (Nested Key Scalar)) :
    put value path (some (put inner (path ++ rest) node)) = put value path node := by
  induction path generalizing node with
  | nil => rfl
  | cons key path ih => simp [put, ih]

/-- A value that holds another at the rest of the path is not changed by it. -/
theorem put_within {rest : List Key} (holds : find rest (some value) = some inner) (path : List Key)
    (node : Option (Nested Key Scalar)) :
    put inner (path ++ rest) (some (put value path node)) = put value path node := by
  induction path generalizing node with
  | nil => exact Option.some.inj (put_held holds)
  | cons key path ih => simp [put, ih]

/-- Paths that part ways do not reach each other. -/
theorem put_apart {one other : List Key} (apart : ¬one <+: other) (apart' : ¬other <+: one)
    (node : Option (Nested Key Scalar)) :
    put value one (some (put inner other node)) = put inner other (some (put value one node)) := by
  induction one generalizing other node with
  | nil => exact absurd List.nil_prefix apart
  | cons key one ih =>
    cases other with
    | nil => exact absurd List.nil_prefix apart'
    | cons key' other =>
      by_cases same : key = key'
      · subst same
        have below := ih (fun within => apart ((List.prefix_cons_inj key).mpr within))
          fun within => apart' ((List.prefix_cons_inj key).mpr within)
        simp [put, below]
      · have turned : key' ≠ key := Ne.symm same
        simp only [put, entriesOf_dict, Function.update_of_ne same, Function.update_of_ne turned]
        rw [Function.update_comm same]

/-! ## Sequences of writes -/

/-- A value and the path it is put at. -/
abbrev Write (Key Scalar : Type) : Type := List Key × Nested Key Scalar

def putAll (writes : List (Write Key Scalar)) (node : Option (Nested Key Scalar)) :
    Option (Nested Key Scalar) :=
  writes.foldl (fun node write => some (put write.2 write.1 node)) node

/-- Where the second write goes into the value of the first, that value has it
already. -/
def Holds (first second : Write Key Scalar) : Prop :=
  ∀ rest, second.1 = first.1 ++ rest → find rest (some first.2) = some second.2

/-- Neither write competes with the other. -/
def Agree (one other : Write Key Scalar) : Prop := Holds one other ∧ Holds other one

omit [DecidableEq Key] in
theorem agree_refl (write : Write Key Scalar) : Agree write write := by
  have holds : Holds write write := by
    intro rest same
    obtain rfl := List.self_eq_append_right.mp same
    rfl
  exact ⟨holds, holds⟩

theorem holds_put {first second : Write Key Scalar} (holds : Holds first second)
    (within : first.1 <+: second.1) (node : Option (Nested Key Scalar)) :
    put second.2 second.1 (some (put first.2 first.1 node)) = put first.2 first.1 node ∧
      put first.2 first.1 (some (put second.2 second.1 node)) = put first.2 first.1 node := by
  obtain ⟨rest, same⟩ := within
  rw [← same]
  exact ⟨put_within (holds rest same.symm) first.1 node, put_over first.1 rest node⟩

theorem agree_comm {one other : Write Key Scalar} (agree : Agree one other)
    (node : Option (Nested Key Scalar)) :
    put other.2 other.1 (some (put one.2 one.1 node)) =
      put one.2 one.1 (some (put other.2 other.1 node)) := by
  by_cases within : one.1 <+: other.1
  · have both := holds_put agree.1 within node
    rw [both.1, both.2]
  · by_cases around : other.1 <+: one.1
    · have both := holds_put agree.2 around node
      rw [both.1, both.2]
    · exact put_apart around within node

/-- The last write stands. -/
theorem find_putAll_last (writes : List (Write Key Scalar)) (last : Write Key Scalar)
    (node : Option (Nested Key Scalar)) :
    find last.1 (putAll (writes ++ [last]) node) = some last.2 := by
  rw [putAll, List.foldl_append]
  exact find_put last.1 _

/-- A write that comes last but one shows up below the last. -/
theorem holds_of_swap {others : List (Write Key Scalar)} {first second : Write Key Scalar}
    {node : Option (Nested Key Scalar)}
    (same : putAll (others ++ [second] ++ [first]) node = putAll (others ++ [first] ++ [second]) node) :
    Holds first second := by
  intro rest longer
  have last := find_putAll_last (others ++ [first]) second node
  rwa [← same, longer, find_append, find_putAll_last] at last

/-- The writes that a list of items asks for have one outcome in every order of
the items exactly when each two of them agree. -/
theorem putAll_orderless {Item : Type} (reads : Item → Option (Write Key Scalar)) (items : List Item)
    (node : Option (Nested Key Scalar)) :
    (∀ order : List Item, order.Perm items →
        putAll (order.filterMap reads) node = putAll (items.filterMap reads) node) ↔
      (items.filterMap reads).Pairwise Agree := by
  constructor
  · intro orderless
    apply List.pairwise_filterMap.mpr
    apply List.pairwise_iff_forall_sublist.mpr
    intro one other sublist first readFirst second readSecond
    obtain ⟨rest, perm⟩ := sublist.exists_perm_append
    have orders : ∀ tail, tail.Perm [one, other] →
        putAll ((rest ++ tail).filterMap reads) node = putAll (items.filterMap reads) node := by
      intro tail pair
      apply orderless
      exact ((pair.append_left rest).trans List.perm_append_comm).trans perm.symm
    have straight := orders [one, other] (.refl _)
    have swapped := orders [other, one] (.swap ..)
    rw [← swapped] at straight
    simp only [List.filterMap_append, List.filterMap_cons, readFirst, readSecond,
      List.filterMap_nil] at straight
    have same : putAll (rest.filterMap reads ++ [second] ++ [first]) node =
        putAll (rest.filterMap reads ++ [first] ++ [second]) node := by
      simpa using straight.symm
    exact ⟨holds_of_swap same, holds_of_swap same.symm⟩
  · intro agree order perm
    have symmetric : Std.Symm (@Agree Key Scalar) := ⟨fun _ _ both => both.symm⟩
    have each := agree.forall_of_forall fun write _ => agree_refl write
    have writes := perm.filterMap reads
    apply writes.foldl_eq'
    intro one member other member' node
    exact congrArg some
      (agree_comm (each (writes.mem_iff.mp member) (writes.mem_iff.mp member')) node)

end Nested

end FcamGateway
