import Mathlib.Algebra.Order.BigOperators.Group.List
import Mathlib.Algebra.Order.Ring.Nat
import Mathlib.Data.List.Count

/-! Paths as text, on POSIX and on Windows: where a path begins, what its
segments do, and which place it denotes from a working directory. Two paths
denote one place from every working directory exactly when they have one normal
form. -/
namespace FcamGateway.PathText

abbrev Segment := List Char

/-! ## Segments -/

/-- Names from the root, after one more segment. -/
def enter (names : List Segment) (segment : Segment) : List Segment :=
  if segment = [] ∨ segment = ['.'] then names
  else if segment = ['.', '.'] then names.dropLast
  else names ++ [segment]

/-- A way from somewhere: so many directories up, then down by names. -/
structure Course where
  ups : Nat
  names : List Segment
deriving DecidableEq

def Course.enter (course : Course) (segment : Segment) : Course :=
  if segment = [] ∨ segment = ['.'] then course
  else if segment = ['.', '.'] then
    if course.names = [] then { course with ups := course.ups + 1 }
    else { course with names := course.names.dropLast }
  else { course with names := course.names ++ [segment] }

def Course.here : Course := ⟨0, []⟩

/-- The course that a text takes. -/
def courseOf (text : List Char) : Course := (text.splitOn '/').foldl Course.enter .here

/-- Where a course leads to; above the root there is nothing more. -/
def Course.lead (course : Course) (start : List Segment) : List Segment :=
  start.take (start.length - course.ups) ++ course.names

theorem enter_lead (start : List Segment) (course : Course) (segment : Segment) :
    enter (course.lead start) segment = (course.enter segment).lead start := by
  obtain ⟨ups, names⟩ := course
  unfold enter Course.enter
  by_cases idle : segment = [] ∨ segment = ['.']
  · rw [if_pos idle, if_pos idle]
  · rw [if_neg idle, if_neg idle]
    by_cases up : segment = ['.', '.']
    · rw [if_pos up, if_pos up]
      by_cases bare : names = []
      · subst bare
        simp only [Course.lead, List.append_nil, ↓reduceIte]
        rw [List.dropLast_eq_take, List.take_take, List.length_take]
        congr 1
        omega
      · rw [if_neg bare]
        exact List.dropLast_append_of_ne_nil bare
    · rw [if_neg up, if_neg up]
      exact List.append_assoc ..

theorem foldl_enter (segments : List Segment) (start : List Segment) (course : Course) :
    segments.foldl enter (course.lead start) = (segments.foldl Course.enter course).lead start := by
  induction segments generalizing course with
  | nil => rfl
  | cons segment segments ih =>
    rw [List.foldl_cons, List.foldl_cons, enter_lead]
    exact ih _

theorem here_lead (start : List Segment) : Course.here.lead start = start := by
  simp [Course.lead, Course.here]

/-! ## Where a path begins -/

inductive Platform where
  | posix
  | windows
deriving DecidableEq

/-- What the first segment of a path is looked up from. -/
inductive Anchor where
  | here
  | root
  | drive (letter : Char)
  | driveHere (letter : Char)
  | share
deriving DecidableEq

def slashes (path : List Char) : List Char := path.map fun c => if c = '\\' then '/' else c

/-- The anchor of a path with forward slashes on Windows, and the text after it. -/
def anchoredSlashes : List Char → Anchor × List Char
  | '/' :: '/' :: rest => (.share, rest)
  | '/' :: rest => (.root, rest)
  | letter :: ':' :: '/' :: rest => (.drive letter, rest)
  | letter :: ':' :: rest => (.driveHere letter, rest)
  | path => (.here, path)

def anchored : Platform → List Char → Anchor × List Char
  | .posix, '/' :: rest => (.root, rest)
  | .posix, path => (.here, path)
  | .windows, path => anchoredSlashes (slashes path)

/-! ## Places -/

inductive Volume where
  | unnamed
  | letter (letter : Char)
  | share
deriving DecidableEq

/-- A name that a directory can have. -/
def Proper (name : Segment) : Prop := name ≠ [] ∧ name ≠ ['.'] ∧ name ≠ ['.', '.'] ∧ '/' ∉ name

/-- The volume a process is on, and its working directory on each volume. -/
structure WorkingDirectory where
  volume : Volume
  names : Volume → List Segment
  proper : ∀ volume, ∀ name ∈ names volume, Proper name

structure Place where
  volume : Volume
  names : List Segment
deriving DecidableEq

def WorkingDirectory.start (cwd : WorkingDirectory) : Anchor → Place
  | .here => ⟨cwd.volume, cwd.names cwd.volume⟩
  | .root => ⟨cwd.volume, []⟩
  | .drive letter => ⟨.letter letter, []⟩
  | .driveHere letter => ⟨.letter letter, cwd.names (.letter letter)⟩
  | .share => ⟨.share, []⟩

/-- `os.path.abspath`. -/
def abspath (platform : Platform) (cwd : WorkingDirectory) (path : List Char) : Place :=
  let (anchor, rest) := anchored platform path
  let start := cwd.start anchor
  ⟨start.volume, (rest.splitOn '/').foldl enter start.names⟩

/-- The place does not depend on the working directory. -/
def Anchor.fixed : Anchor → Bool
  | .here | .driveHere _ => false
  | .root | .drive _ | .share => true

/-- The normal form of a path: its anchor, and its course without the steps
that end at the root. -/
def normal (platform : Platform) (path : List Char) : Anchor × Course :=
  let (anchor, rest) := anchored platform path
  let course := courseOf rest
  (anchor, if anchor.fixed then { course with ups := 0 } else course)

theorem abspath_eq (platform : Platform) (cwd : WorkingDirectory) (path : List Char) :
    abspath platform cwd path =
      let form := normal platform path
      ⟨(cwd.start form.1).volume, form.2.lead (cwd.start form.1).names⟩ := by
  have led := foldl_enter ((anchored platform path).2.splitOn '/')
    (cwd.start (anchored platform path).1).names .here
  rw [here_lead] at led
  simp only [abspath, normal, led]
  congr 1
  cases anchor : (anchored platform path).1 <;>
    simp [Anchor.fixed, WorkingDirectory.start, Course.lead, courseOf]

/-! ## Places that tell normal forms apart -/

theorem exists_proper (taken : List Segment) : ∃ name, Proper name ∧ name ∉ taken := by
  let size := (taken.map List.length).sum
  refine ⟨List.replicate (size + 1) 'x', ⟨by simp, ?_, ?_, ?_⟩, ?_⟩
  · intro same
    have := congrArg List.head? same
    simp [List.replicate_succ] at this
  · intro same
    have := congrArg List.head? same
    simp [List.replicate_succ] at this
  · intro member
    have := List.eq_of_mem_replicate member
    contradiction
  · intro member
    have bounded := List.single_le_sum (fun _ _ => Nat.zero_le _) _
      (List.mem_map_of_mem (f := List.length) member)
    rw [List.length_replicate] at bounded
    exact absurd bounded (by omega)

theorem lead_replicate (course : Course) (count : Nat) (name : Segment) :
    course.lead (List.replicate count name) =
      List.replicate (count - course.ups) name ++ course.names := by
  simp [Course.lead, List.take_replicate]

/-- Deep enough below a name that neither course has, the courses part. -/
theorem lead_inj {one other : Course} {name : Segment} {count : Nat}
    (fresh : name ∉ one.names) (fresh' : name ∉ other.names)
    (deep : one.ups < count) (deep' : other.ups < count)
    (same : one.lead (List.replicate count name) = other.lead (List.replicate count name)) :
    one = other := by
  rw [lead_replicate, lead_replicate] at same
  have counts := congrArg (List.count name) same
  rw [List.count_append, List.count_append, List.count_replicate_self, List.count_replicate_self,
    List.count_eq_zero.mpr fresh, List.count_eq_zero.mpr fresh'] at counts
  have ups : one.ups = other.ups := by omega
  rw [ups] at same
  have names := List.append_cancel_left same
  cases one
  cases other
  cases ups
  cases names
  rfl

/-- A process deep below a name, on a volume without a letter. -/
def deepBelow (count : Nat) (name : Segment) (proper : Proper name) : WorkingDirectory where
  volume := .unnamed
  names := fun _ => List.replicate count name
  proper := fun _ _ member => List.eq_of_mem_replicate member ▸ proper

theorem start_names (count : Nat) (name : Segment) (proper : Proper name) (anchor : Anchor) :
    ((deepBelow count name proper).start anchor).names =
      if anchor.fixed then [] else List.replicate count name := by
  cases anchor <;> rfl

theorem anchor_ext {count : Nat} {name : Segment} {proper : Proper name} {one other : Anchor}
    (volume : ((deepBelow count name proper).start one).volume =
      ((deepBelow count name proper).start other).volume)
    (fixed : one.fixed = other.fixed) : one = other := by
  cases one <;> cases other <;>
    simp_all [deepBelow, WorkingDirectory.start, Anchor.fixed]

theorem mem_lead {course : Course} {count : Nat} (deep : course.ups < count) (name : Segment) :
    name ∈ course.lead (List.replicate count name) := by
  rw [lead_replicate]
  apply List.mem_append_left
  exact List.mem_replicate.mpr ⟨by omega, rfl⟩

theorem lead_nil (course : Course) : course.lead [] = course.names := by simp [Course.lead]

theorem normal_ups {platform : Platform} {path : List Char}
    (fixed : (normal platform path).1.fixed = true) : (normal platform path).2.ups = 0 := by
  simp only [normal] at fixed ⊢
  rw [if_pos fixed]

theorem abspath_eq_iff {platform : Platform} {one other : List Char} :
    (∀ cwd, abspath platform cwd one = abspath platform cwd other) ↔
      normal platform one = normal platform other := by
  constructor
  · intro same
    obtain ⟨name, proper, fresh⟩ :=
      exists_proper ((normal platform one).2.names ++ (normal platform other).2.names)
    rw [List.mem_append, not_or] at fresh
    let count := (normal platform one).2.ups + (normal platform other).2.ups + 1
    have places := same (deepBelow count name proper)
    rw [abspath_eq, abspath_eq] at places
    obtain ⟨volumes, leads⟩ := Place.mk.inj places
    rw [start_names, start_names] at leads
    have fixed : (normal platform one).1.fixed = (normal platform other).1.fixed := by
      by_contra apart
      cases fixed : (normal platform one).1.fixed <;> cases fixed' : (normal platform other).1.fixed
      case false.false => exact apart (fixed.trans fixed'.symm)
      case true.true => exact apart (fixed.trans fixed'.symm)
      case false.true =>
        rw [fixed, fixed', if_pos rfl, lead_nil] at leads
        exact fresh.2 (leads ▸ mem_lead (by omega) name)
      case true.false =>
        rw [fixed, fixed', if_pos rfl, lead_nil] at leads
        exact fresh.1 (leads ▸ mem_lead (by omega) name)
    apply Prod.ext (anchor_ext volumes fixed)
    rw [← fixed] at leads
    cases held : (normal platform one).1.fixed with
    | false =>
      rw [held] at leads
      exact lead_inj fresh.1 fresh.2 (by omega) (by omega) leads
    | true =>
      rw [held, if_pos rfl, lead_nil, lead_nil] at leads
      have ups := normal_ups held
      have ups' := normal_ups (fixed ▸ held)
      cases one' : (normal platform one).2
      cases other' : (normal platform other).2
      rw [one', other'] at leads
      rw [one'] at ups
      rw [other'] at ups'
      cases ups
      cases ups'
      cases leads
      rfl
  · intro same cwd
    rw [abspath_eq, abspath_eq, same]

end FcamGateway.PathText
