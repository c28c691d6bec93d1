import FcamGateway.Prog
import Mathlib.Algebra.BigOperators.Group.Finset.Basic
import Mathlib.Data.List.Induction
import Mathlib.Logic.Function.Basic

/-! Programs side by side against shared surroundings. A trace interleaves their
exchanges: each thread's own part is an exchange of its program, and the
surroundings can have had the whole. A thread is known by what it asks after its
own exchange so far; an invariant of all is carried from event to event. -/
namespace FcamGateway
namespace Prog

variable {Op : Type} {Reply : Op → Type} {Err Value World Thread : Type} [DecidableEq Thread]

/-- An event with the thread that had it. -/
abbrev Trace (Thread Op : Type) (Reply : Op → Type) := List (Thread × Event Op Reply)

/-- The exchange of one thread. -/
def own (thread : Thread) (trace : Trace Thread Op Reply) : List (Event Op Reply) :=
  (trace.filter fun entry => entry.1 = thread).map Prod.snd

structure Interleaved (program : Thread → Prog Op Reply Err Value)
    (moves : World → Event Op Reply → World → Prop) (start : World)
    (trace : Trace Thread Op Reply) (last : World) : Prop where
  each : ∀ thread, ∃ left, Reaches (program thread) (own thread trace) left
  shared : Follows moves start (trace.map Prod.snd) last

variable {program : Thread → Prog Op Reply Err Value}
  {moves : World → Event Op Reply → World → Prop} {start middle last : World}
  {front back trace : Trace Thread Op Reply} {thread other : Thread} {event : Event Op Reply}

@[simp] theorem own_nil : own thread ([] : Trace Thread Op Reply) = [] := rfl

@[simp] theorem own_append : own thread (front ++ back) = own thread front ++ own thread back := by
  simp [own]

@[simp] theorem own_self : own thread ((thread, event) :: back) = event :: own thread back := by
  simp [own]

theorem own_other (different : other ≠ thread) :
    own thread ((other, event) :: back) = own thread back := by
  simp [own, different]

theorem mem_own {event : Event Op Reply} : event ∈ own thread trace ↔ (thread, event) ∈ trace := by
  simp [own]

/-- Where two entries of one list stand to each other. -/
theorem split_cases {Entry : Type} {one other rest tail : List Entry} {a b : Entry}
    (same : one ++ a :: rest = other ++ b :: tail) :
    (one = other ∧ a = b ∧ rest = tail) ∨
      (∃ middle, other = one ++ a :: middle ∧ rest = middle ++ b :: tail) ∨
      ∃ middle, one = other ++ b :: middle ∧ tail = middle ++ a :: rest := by
  induction one generalizing other with
  | nil =>
    cases other with
    | nil =>
      cases same
      exact .inl ⟨rfl, rfl, rfl⟩
    | cons first other =>
      cases same
      exact .inr (.inl ⟨other, rfl, rfl⟩)
  | cons first one ih =>
    cases other with
    | nil =>
      cases same
      exact .inr (.inr ⟨one, rfl, rfl⟩)
    | cons second other =>
      obtain ⟨rfl, later⟩ := List.cons.inj same
      rcases ih later with ⟨rfl, rfl, rfl⟩ | ⟨middle, rfl, rfl⟩ | ⟨middle, rfl, rfl⟩
      · exact .inl ⟨rfl, rfl, rfl⟩
      · exact .inr (.inl ⟨middle, rfl, rfl⟩)
      · exact .inr (.inr ⟨middle, rfl, rfl⟩)

/-- The last event of a thread's exchange, with what the others did since. -/
theorem own_last {events : List (Event Op Reply)} (ended : own thread trace = events ++ [event]) :
    ∃ front back, trace = front ++ (thread, event) :: back ∧ own thread front = events ∧
      own thread back = [] := by
  induction trace using List.reverseRecOn with
  | nil => simp at ended
  | append_singleton front entry ih =>
    obtain ⟨other, last⟩ := entry
    by_cases same : other = thread
    · subst same
      rw [own_append, own_self, own_nil] at ended
      obtain ⟨rfl, only⟩ := List.append_inj' ended rfl
      cases only
      exact ⟨front, [], rfl, rfl, rfl⟩
    · rw [own_append, own_other same, own_nil, List.append_nil] at ended
      obtain ⟨earlier, back, rfl, before, since⟩ := ih ended
      refine ⟨earlier, back ++ [(other, last)], by simp, before, ?_⟩
      rw [own_append, since, own_other same]
      rfl

theorem reaches_append {program left : Prog Op Reply Err Value} {front back : List (Event Op Reply)}
    (reached : Reaches program (front ++ back) left) :
    ∃ middle, Reaches program front middle ∧ Reaches middle back left := by
  induction front generalizing program with
  | nil => exact ⟨program, .here, reached⟩
  | cons event front ih =>
    cases reached with
    | ask reached =>
      obtain ⟨middle, first, second⟩ := ih reached
      exact ⟨middle, .ask first, second⟩

/-- An exchange leads to one place. -/
theorem reaches_unique {program one other : Prog Op Reply Err Value} {events : List (Event Op Reply)}
    (first : Reaches program events one) (second : Reaches program events other) : one = other := by
  induction first with
  | here =>
    cases second
    rfl
  | ask _ ih =>
    cases second with
    | ask second => exact ih second

theorem reaches_leaf {outcome : Except Err Value} {left : Prog Op Reply Err Value}
    {events : List (Event Op Reply)} (reached : Reaches (leaf outcome) events left) : events = [] := by
  cases outcome <;> cases reached <;> rfl

theorem reaches_trans {program left stop : Prog Op Reply Err Value}
    {front back : List (Event Op Reply)} (first : Reaches program front left)
    (second : Reaches left back stop) : Reaches program (front ++ back) stop := by
  induction first with
  | here => exact second
  | ask _ ih => exact .ask (ih second)

theorem Interleaved.before (run : Interleaved program moves start (front ++ back) last) :
    ∃ middle, Interleaved program moves start front middle ∧
      Follows moves middle (back.map Prod.snd) last := by
  have shared := run.shared
  rw [List.map_append] at shared
  obtain ⟨middle, first, second⟩ := (follows_append _ _).mp shared
  refine ⟨middle, ⟨fun thread => ?_, first⟩, second⟩
  obtain ⟨left, reached⟩ := run.each thread
  rw [own_append] at reached
  obtain ⟨stop, reached, _⟩ := reaches_append reached
  exact ⟨stop, reached⟩

/-- The thread's next question after its exchange in `front`. -/
def Asking (program : Thread → Prog Op Reply Err Value) (front : Trace Thread Op Reply)
    (thread : Thread) (op : Op) : Prop :=
  ∃ next, Reaches (program thread) (own thread front) (.ask op next)

/-- A run up to one of its events and the move of the surroundings there. -/
theorem Interleaved.at
    (run : Interleaved program moves start (front ++ (thread, event) :: back) last) :
    ∃ before after, Interleaved program moves start front before ∧ moves before event after ∧
      Interleaved program moves start (front ++ [(thread, event)]) after ∧
      Follows moves after (back.map Prod.snd) last ∧ Asking program front thread event.op := by
  rw [List.append_cons] at run
  obtain ⟨after, upto, later⟩ := run.before
  obtain ⟨before, earlier, followed⟩ := upto.before
  obtain _ | ⟨moved, rest⟩ := followed
  cases rest
  refine ⟨before, after, earlier, moved, upto, later, ?_⟩
  obtain ⟨left, reached⟩ := upto.each thread
  rw [own_append, own_self, own_nil] at reached
  obtain ⟨stop, first, second⟩ := reaches_append reached
  cases second with
  | ask _ => exact ⟨_, first⟩

/-- One more event of a thread that asks for it. -/
theorem Interleaved.snoc (run : Interleaved program moves start trace middle)
    (asking : Asking program trace thread event.op) (moved : moves middle event last) :
    Interleaved program moves start (trace ++ [(thread, event)]) last := by
  refine ⟨fun other => ?_, ?_⟩
  · rw [own_append]
    by_cases same : thread = other
    · subst same
      obtain ⟨next, reached⟩ := asking
      rw [own_self, own_nil]
      exact ⟨_, reaches_trans reached (.ask .here)⟩
    · obtain ⟨left, reached⟩ := run.each other
      rw [own_other same, own_nil, List.append_nil]
      exact ⟨left, reached⟩
  · rw [List.map_append]
    exact (follows_append _ _).mpr ⟨middle, run.shared, .cons moved .nil⟩

/-- Where a thread's program is checked against its own exchange, its questions in
a run are. -/
theorem Asking.checked {demands : List (Event Op Reply) → Op → Prop}
    {post : Except Err Value → List (Event Op Reply) → Prop} {op : Op}
    (asking : Asking program front thread op)
    (met : (program thread).wp (.checking demands) post []) : demands (own thread front) op := by
  obtain ⟨next, reached⟩ := asking
  exact wp_checked reached met

/-- What holds at the start and is kept by each event of a run holds at its end. -/
theorem Interleaved.induct {motive : Trace Thread Op Reply → World → Prop}
    (initial : motive [] start)
    (step : ∀ front thread event before after, Interleaved program moves start front before →
      motive front before → Asking program front thread event.op → moves before event after →
      motive (front ++ [(thread, event)]) after)
    (run : Interleaved program moves start trace last) : motive trace last := by
  induction trace using List.reverseRecOn generalizing last with
  | nil =>
    have followed := run.shared
    cases followed
    exact initial
  | append_singleton front entry ih =>
    obtain ⟨before, after, earlier, moved, _, ended, asking⟩ := run.at
    cases ended
    exact step front entry.1 entry.2 before last earlier (ih earlier) asking moved

/-- As above, with what motive of every earlier part of the run at hand. -/
theorem Interleaved.induct_upto {motive : Trace Thread Op Reply → World → Prop}
    (initial : motive [] start)
    (step : ∀ front thread event before after, Interleaved program moves start front before →
      (∀ upto middle, upto <+: front → Interleaved program moves start upto middle →
        motive upto middle) → Asking program front thread event.op → moves before event after →
      motive (front ++ [(thread, event)]) after)
    (run : Interleaved program moves start trace last) : motive trace last := by
  suffices all : ∀ upto middle, upto <+: trace → Interleaved program moves start upto middle →
      motive upto middle from all trace last (List.prefix_refl trace) run
  refine Interleaved.induct (motive := fun trace _ => ∀ upto middle, upto <+: trace →
    Interleaved program moves start upto middle → motive upto middle) ?_ ?_ run
  · intro upto middle early reached
    obtain rfl := List.prefix_nil.mp early
    have followed := reached.shared
    cases followed
    exact initial
  · intro front thread event before after earlier held asking moved upto middle early reached
    rcases List.prefix_concat_iff.mp early with rfl | early
    · obtain ⟨before, _, earlier, moved, _, ended, asking⟩ := reached.at
      cases ended
      exact step front thread event before middle earlier held asking moved
    · exact held upto middle early reached

/-- Another thread has had such an event since the thread's last reading. -/
def Overtaken (reads writes : Event Op Reply → Prop) (thread : Thread)
    (trace : Trace Thread Op Reply) : Prop :=
  ∃ front entry back, trace = front ++ entry :: back ∧ entry.1 ≠ thread ∧ writes entry.2 ∧
    ∀ later ∈ back, later.1 = thread → ¬ reads later.2

omit [DecidableEq Thread] in
theorem overtaken_nil (reads writes : Event Op Reply → Prop) (thread : Thread) :
    ¬ Overtaken reads writes thread [] := by
  rintro ⟨front, entry, back, same, _⟩
  simp at same

omit [DecidableEq Thread] in
theorem overtaken_concat {reads writes : Event Op Reply → Prop} :
    Overtaken reads writes thread (trace ++ [(other, event)]) ↔
      (other ≠ thread ∧ writes event) ∨
        (Overtaken reads writes thread trace ∧ (other = thread → ¬ reads event)) := by
  constructor
  · rintro ⟨front, entry, back, whole, different, wrote, unread⟩
    rcases List.eq_nil_or_concat back with rfl | ⟨back, last, rfl⟩
    · obtain ⟨rfl, same⟩ := List.append_inj' whole rfl
      cases same
      exact .inl ⟨different, wrote⟩
    · rw [List.concat_eq_append, ← List.cons_append, ← List.append_assoc] at whole
      obtain ⟨rfl, same⟩ := List.append_inj' whole rfl
      cases same
      rw [List.concat_eq_append] at unread
      exact .inr ⟨⟨front, entry, back, rfl, different, wrote, fun later member =>
        unread later (List.mem_append_left _ member)⟩,
        unread (other, event) (List.mem_append_right _ (List.mem_singleton_self _))⟩
  · rintro (⟨different, wrote⟩ | ⟨⟨front, entry, back, rfl, different, wrote, unread⟩, quiet⟩)
    · exact ⟨trace, (other, event), [], rfl, different, wrote, fun _ => nofun⟩
    · refine ⟨front, entry, back ++ [(other, event)], by simp, different, wrote, ?_⟩
      refine List.forall_mem_append.mpr ⟨unread, fun later member => ?_⟩
      rw [List.mem_singleton.mp member]
      exact quiet

/-- Whether a thread is overtaken, read along the trace. -/
def overtaking (reads writes : Event Op Reply → Bool) (thread : Thread) (late : Bool)
    (entry : Thread × Event Op Reply) : Bool :=
  if entry.1 = thread then late && !reads entry.2 else late || writes entry.2

theorem overtaken_iff {reads writes : Event Op Reply → Bool} :
    Overtaken (fun event => reads event = true) (fun event => writes event = true) thread trace ↔
      trace.foldl (overtaking reads writes thread) false = true := by
  induction trace using List.reverseRecOn with
  | nil => exact ⟨fun late => absurd late (overtaken_nil _ _ thread), nofun⟩
  | append_singleton trace entry ih =>
    obtain ⟨other, event⟩ := entry
    rw [overtaken_concat, ih, List.foldl_append]
    by_cases same : other = thread
    · simp [overtaking, same]
    · simp [overtaking, same, or_comm]

instance {reads writes : Event Op Reply → Bool} : Decidable
    (Overtaken (fun event => reads event = true) (fun event => writes event = true) thread trace) :=
  decidable_of_iff _ overtaken_iff.symm

/-- What holds at every entry of a trace, by the part before it. -/
def Along (holds : Trace Thread Op Reply → Thread × Event Op Reply → Prop) :
    Trace Thread Op Reply → Trace Thread Op Reply → Prop
  | _, [] => True
  | front, entry :: back => holds front entry ∧ Along holds (front ++ [entry]) back

instance decidableAlong (holds : Trace Thread Op Reply → Thread × Event Op Reply → Prop)
    [∀ front entry, Decidable (holds front entry)] :
    ∀ front back, Decidable (Along holds front back)
  | _, [] => isTrue trivial
  | front, entry :: back =>
    have := decidableAlong holds (front ++ [entry]) back
    inferInstanceAs (Decidable (_ ∧ _))

omit [DecidableEq Thread] in
theorem along_split {holds : Trace Thread Op Reply → Thread × Event Op Reply → Prop}
    {front early late : Trace Thread Op Reply} {entry : Thread × Event Op Reply}
    (along : Along holds front (early ++ entry :: late)) : holds (front ++ early) entry := by
  induction early generalizing front with
  | nil =>
    rw [List.append_nil]
    exact along.1
  | cons first early ih =>
    rw [List.append_cons]
    exact ih along.2

/-- The trace without the events of a thread. -/
def without (thread : Thread) (trace : Trace Thread Op Reply) : Trace Thread Op Reply :=
  trace.filter fun entry => !decide (entry.1 = thread)

theorem own_without_self (trace : Trace Thread Op Reply) :
    own thread (without thread trace) = [] := by
  simp [own, without]

theorem own_without (trace : Trace Thread Op Reply) (different : other ≠ thread) :
    own thread (without other trace) = own thread trace := by
  simp only [own, without, List.filter_filter]
  congr 1
  refine List.filter_congr fun entry _ => ?_
  by_cases same : entry.1 = thread
  · simp [same, Ne.symm different]
  · simp [same]

/-- The events of a trace that count are those of one thread and those of the others. -/
theorem countP_split (count : Thread → Event Op Reply → Bool) (thread : Thread)
    (trace : Trace Thread Op Reply) :
    (trace.countP fun entry => count entry.1 entry.2) = (own thread trace).countP (count thread) +
      (without thread trace).countP fun entry => count entry.1 entry.2 := by
  have part : (own thread trace).countP (count thread) =
      (trace.filter fun entry => decide (entry.1 = thread)).countP
        fun entry => count entry.1 entry.2 := by
    rw [own, List.countP_map]
    refine List.countP_congr fun entry member => ?_
    have same : entry.1 = thread := by simpa using (List.mem_filter.mp member).2
    rw [Function.comp, same]
  rw [part]
  exact List.countP_eq_countP_filter_add trace _ fun entry => decide (entry.1 = thread)

/-- A count is no more than another on a trace where it is no more on each thread's exchange. -/
theorem countP_own_le (one two : Thread → Event Op Reply → Bool)
    (each : ∀ thread,
      (own thread trace).countP (one thread) ≤ (own thread trace).countP (two thread)) :
    (trace.countP fun entry => one entry.1 entry.2) ≤
      trace.countP fun entry => two entry.1 entry.2 := by
  -- the threads are taken out of the trace one after the other
  induction size : trace.length using Nat.strongRecOn generalizing trace with
  | ind size ih =>
    cases trace with
    | nil => exact Nat.le_refl 0
    | cons entry rest =>
      rw [countP_split one entry.1, countP_split two entry.1]
      refine Nat.add_le_add (each entry.1) ?_
      refine ih (without entry.1 (entry :: rest)).length ?_ (fun thread => ?_) rfl
      · rw [← size]
        exact List.length_filter_lt_length_iff_exists.mpr ⟨entry, List.mem_cons_self, by simp⟩
      · by_cases same : entry.1 = thread
        · subst same
          rw [own_without_self]
          exact Nat.le_refl 0
        · rw [own_without _ same]
          exact each thread

/-- Two counts agree on a trace where they agree on each thread's exchange. -/
theorem countP_own_congr (one two : Thread → Event Op Reply → Bool)
    (each : ∀ thread,
      (own thread trace).countP (one thread) = (own thread trace).countP (two thread)) :
    (trace.countP fun entry => one entry.1 entry.2) =
      trace.countP fun entry => two entry.1 entry.2 :=
  Nat.le_antisymm (countP_own_le one two fun thread => (each thread).le)
    (countP_own_le two one fun thread => (each thread).ge)

/-- A sum over threads after an event, with what its thread adds. -/
theorem sum_own_concat (measure : List (Event Op Reply) → Nat) {threads : Finset Thread}
    (member : thread ∈ threads) :
    ∑ other ∈ threads, measure (own other (trace ++ [(thread, event)])) =
      measure (own thread trace ++ [event]) +
        ∑ other ∈ threads.erase thread, measure (own other trace) := by
  rw [← Finset.add_sum_erase threads _ member]
  congr 1
  · rw [own_append, own_self, own_nil]
  · refine Finset.sum_congr rfl fun other listed => ?_
    rw [own_append, own_other (Finset.ne_of_mem_erase listed).symm, own_nil, List.append_nil]

/-- Let the threads take their next steps in the order given, against surroundings
that are a function of their own state: the trace, where each thread stands
afterwards, and the surroundings. A thread that has ended is passed over. -/
def schedule (answer : World → (op : Op) → Reply op × World) :
    (Thread → Prog Op Reply Err Value) → World → List Thread →
    Trace Thread Op Reply × (Thread → Prog Op Reply Err Value) × World
  | program, world, [] => ([], program, world)
  | program, world, thread :: rest =>
    match program thread with
    | .ask op next =>
      let replied := answer world op
      let later := schedule answer (Function.update program thread (next replied.1)) replied.2 rest
      ((thread, ⟨op, replied.1⟩) :: later.1, later.2)
    | _ => schedule answer program world rest

theorem schedule_append (answer : World → (op : Op) → Reply op × World) (one two : List Thread)
    (program : Thread → Prog Op Reply Err Value) (world : World) :
    (schedule answer program world (one ++ two)).1 = (schedule answer program world one).1 ++
      (schedule answer (schedule answer program world one).2.1
        (schedule answer program world one).2.2 two).1 := by
  induction one generalizing program world with
  | nil => rfl
  | cons thread one ih =>
    simp only [List.cons_append, schedule]
    split
    · simp only [ih, List.cons_append]
    · exact ih program world

theorem schedule_reaches (answer : World → (op : Op) → Reply op × World) (order : List Thread)
    (program : Thread → Prog Op Reply Err Value) (world : World) (other : Thread) :
    Reaches (program other) (own other (schedule answer program world order).1)
      ((schedule answer program world order).2.1 other) := by
  induction order generalizing program world with
  | nil => exact .here
  | cons thread order ih =>
    simp only [schedule]
    split
    · rename_i op next asks
      have later := ih (Function.update program thread (next (answer world op).1))
        (answer world op).2
      by_cases same : thread = other
      · subst same
        rw [Function.update_self] at later
        rw [own_self, asks]
        exact .ask later
      · rw [Function.update_of_ne (Ne.symm same)] at later
        rw [own_other same]
        exact later
    · exact ih program world

theorem schedule_interleaved {answer : World → (op : Op) → Reply op × World}
    (honest : ∀ world op, moves world ⟨op, (answer world op).1⟩ (answer world op).2)
    (order : List Thread) (program : Thread → Prog Op Reply Err Value) (world : World) :
    Interleaved program moves world (schedule answer program world order).1
      (schedule answer program world order).2.2 := by
  refine ⟨fun thread => ⟨_, schedule_reaches answer order program world thread⟩, ?_⟩
  induction order generalizing program world with
  | nil => exact .nil
  | cons thread order ih =>
    simp only [schedule]
    split
    · exact .cons (honest world _) (ih _ _)
    · exact ih program world

end Prog

end FcamGateway
