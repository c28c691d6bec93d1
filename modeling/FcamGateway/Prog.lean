import Mathlib.Data.List.Basic

/-! Programs that put questions to their surroundings: a database, a clock, a
peer. A program is the tree of what it does after each possible reply, so every
way of answering leads it to an outcome. `Reaches` and `Ran` say which exchanges
a program can have; a `Monitor` watches an exchange and says what may be asked
and how the surroundings move, and `wp` is the weakest precondition under it.
Nothing here knows what is asked. -/
namespace FcamGateway

inductive Prog (Op : Type) (Reply : Op → Type) (Err Value : Type) where
  | done (value : Value)
  | raise (error : Err)
  | ask (op : Op) (next : Reply op → Prog Op Reply Err Value)

/-- A question with the reply it got. -/
structure Event (Op : Type) (Reply : Op → Type) where
  op : Op
  reply : Reply op

namespace Prog

variable {Op : Type} {Reply : Op → Type} {Err Value Other : Type}

protected def bind : Prog Op Reply Err Value → (Value → Prog Op Reply Err Other) →
    Prog Op Reply Err Other
  | done value, rest => rest value
  | raise error, _ => .raise error
  | ask op next, rest => .ask op fun reply => (next reply).bind rest

instance : Monad (Prog Op Reply Err) where
  pure := done
  bind := Prog.bind

/-- Put one question and return its reply. -/
def query (op : Op) : Prog Op Reply Err (Reply op) := ask op done

/-- `try` and `except`: an error continues with the handler. -/
def attempt : Prog Op Reply Err Value → (Err → Prog Op Reply Err Value) → Prog Op Reply Err Value
  | done value, _ => done value
  | raise error, handler => handler error
  | ask op next, handler => ask op fun reply => (next reply).attempt handler

/-- `try` and `finally`: the last part runs whether or not the body raises. -/
def ensuring : Prog Op Reply Err Value → Prog Op Reply Err Unit → Prog Op Reply Err Value
  | done value, final => final.bind fun _ => done value
  | raise error, final => final.bind fun _ => raise error
  | ask op next, final => ask op fun reply => (next reply).ensuring final

/-- The program that ends at once with an outcome. -/
def leaf : Except Err Value → Prog Op Reply Err Value
  | .ok value => done value
  | .error error => raise error

/-- What a program that has ended returns. -/
def returned : Prog Op Reply Err Value → Option Value
  | done value => some value
  | _ => none

theorem returned_some {program : Prog Op Reply Err Value} {value : Value}
    (ended : program.returned = some value) : program = done value := by
  cases program with
  | done other => exact congrArg done (Option.some.inj ended)
  | raise error => cases ended
  | ask op next => cases ended

/-- After an exchange the program stands at `left`. -/
inductive Reaches : Prog Op Reply Err Value → List (Event Op Reply) →
    Prog Op Reply Err Value → Prop where
  | here : Reaches program [] program
  | ask {op : Op} {next : Reply op → Prog Op Reply Err Value} {reply : Reply op} :
      Reaches (next reply) events left → Reaches (.ask op next) (⟨op, reply⟩ :: events) left

/-- The program has the whole exchange and ends with the outcome. -/
def Ran (program : Prog Op Reply Err Value) (events : List (Event Op Reply))
    (outcome : Except Err Value) : Prop :=
  Reaches program events (leaf outcome)

theorem ran_done {value : Value} {outcome : Except Err Value}
    (ran : Ran (done value : Prog Op Reply Err Value) events outcome) :
    events = [] ∧ outcome = .ok value := by
  cases outcome <;> cases ran
  exact ⟨rfl, rfl⟩

theorem ran_raise {error : Err} {outcome : Except Err Value}
    (ran : Ran (raise error : Prog Op Reply Err Value) events outcome) :
    events = [] ∧ outcome = .error error := by
  cases outcome <;> cases ran
  exact ⟨rfl, rfl⟩

/-- A run of a question is its reply and a run of what follows. -/
theorem ran_ask {op : Op} {next : Reply op → Prog Op Reply Err Value} {outcome : Except Err Value}
    (ran : Ran (ask op next) events outcome) :
    ∃ reply rest, events = ⟨op, reply⟩ :: rest ∧ Ran (next reply) rest outcome := by
  cases outcome <;>
  · obtain _ | ran := ran
    exact ⟨_, _, rfl, ran⟩

/-- A run of the first part, and what its value leads to. -/
theorem reaches_bind {program : Prog Op Reply Err Value} {rest : Value → Prog Op Reply Err Other}
    {value : Value} {left : Prog Op Reply Err Other} (ran : Ran program front (.ok value))
    (more : Reaches (rest value) back left) :
    Reaches (program.bind rest) (front ++ back) left := by
  induction program generalizing front with
  | done other =>
    cases ran
    exact more
  | raise error => cases ran
  | ask op next ih =>
    obtain _ | ran := ran
    exact .ask (ih _ ran)

/-- A run of a sequence ends in its first part, or goes on with the value of that part. -/
theorem ran_bind {program : Prog Op Reply Err Value} {rest : Value → Prog Op Reply Err Other}
    {outcome : Except Err Other} (ran : Ran (program.bind rest) events outcome) :
    (∃ error, outcome = .error error ∧ Ran program events (.error error)) ∨
      ∃ value front back, events = front ++ back ∧ Ran program front (.ok value) ∧
        Ran (rest value) back outcome := by
  induction program generalizing events with
  | done value => exact .inr ⟨value, [], events, rfl, .here, ran⟩
  | raise error =>
    obtain ⟨rfl, rfl⟩ := ran_raise ran
    exact .inl ⟨error, rfl, .here⟩
  | ask op next ih =>
    obtain ⟨reply, later, rfl, onward⟩ := ran_ask ran
    rcases ih reply onward with ⟨error, same, first⟩ | ⟨value, front, back, rfl, first, second⟩
    · exact .inl ⟨error, same, .ask first⟩
    · exact .inr ⟨value, _ :: front, back, rfl, .ask first, second⟩

/-- A run of the body, and the last part that follows it. -/
theorem reaches_ensuring {program left : Prog Op Reply Err Value} {final : Prog Op Reply Err Unit}
    {outcome : Except Err Value} (ran : Ran program front outcome)
    (more : Reaches (final.bind fun _ => leaf outcome) back left) :
    Reaches (program.ensuring final) (front ++ back) left := by
  induction program generalizing front with
  | done other =>
    obtain ⟨rfl, rfl⟩ := ran_done ran
    exact more
  | raise error =>
    obtain ⟨rfl, rfl⟩ := ran_raise ran
    exact more
  | ask op next ih =>
    obtain ⟨reply, later, rfl, onward⟩ := ran_ask ran
    exact .ask (ih reply onward)

/-- Run a program against surroundings that are a function of their own state. -/
def execute {World : Type} (answer : World → (op : Op) → Reply op × World) :
    Prog Op Reply Err Value → World → List (Event Op Reply) × Except Err Value × World
  | done value, world => ([], .ok value, world)
  | raise error, world => ([], .error error, world)
  | ask op next, world =>
    let replied := answer world op
    let rest := (next replied.1).execute answer replied.2
    (⟨op, replied.1⟩ :: rest.1, rest.2)

/-- However the surroundings answer, a program comes to an outcome. -/
theorem execute_ran {World : Type} (answer : World → (op : Op) → Reply op × World)
    (program : Prog Op Reply Err Value) (world : World) :
    Ran program (program.execute answer world).1 (program.execute answer world).2.1 := by
  induction program generalizing world with
  | done value => exact .here
  | raise error => exact .here
  | ask op next ih => exact .ask (ih _ _)

/-- What watches an exchange. `demands` says which questions may be put in a
state, `moves` which replies the surroundings may give and where they stand
afterwards. -/
structure Monitor (State Op : Type) (Reply : Op → Type) where
  demands : State → Op → Prop
  moves : State → Event Op Reply → State → Prop

variable {State : Type}

/-- The surroundings can have had this exchange. -/
inductive Follows (moves : State → Event Op Reply → State → Prop) :
    State → List (Event Op Reply) → State → Prop where
  | nil : Follows moves state [] state
  | cons : moves state event middle → Follows moves middle events last →
      Follows moves state (event :: events) last

theorem follows_append {moves : State → Event Op Reply → State → Prop}
    (front back : List (Event Op Reply)) :
    Follows moves start (front ++ back) last ↔
      ∃ middle, Follows moves start front middle ∧ Follows moves middle back last := by
  induction front generalizing start with
  | nil =>
    constructor
    · exact fun followed => ⟨start, .nil, followed⟩
    · rintro ⟨_, ⟨⟩, followed⟩
      exact followed
  | cons event front ih =>
    constructor
    · rintro (_ | ⟨moved, followed⟩)
      obtain ⟨middle, first, second⟩ := ih.mp followed
      exact ⟨middle, .cons moved first, second⟩
    · rintro ⟨middle, _ | ⟨moved, first⟩, second⟩
      exact .cons moved (ih.mpr ⟨middle, first, second⟩)

variable {monitor : Monitor State Op Reply}
  {post after : Except Err Value → State → Prop} {state : State}

/-- Every question is one the monitor allows, and every outcome meets `post`. -/
def wp (monitor : Monitor State Op Reply) : Prog Op Reply Err Value →
    (Except Err Value → State → Prop) → State → Prop
  | done value, post, state => post (.ok value) state
  | raise error, post, state => post (.error error) state
  | ask op next, post, state => monitor.demands state op ∧
    ∀ reply last, monitor.moves state ⟨op, reply⟩ last → (next reply).wp monitor post last

/-- Continue with a result, or pass an error on. -/
def thenPost (next : Value → State → Prop) (post : Except Err Other → State → Prop) :
    Except Err Value → State → Prop
  | .ok value, state => next value state
  | .error error, state => post (.error error) state

@[simp] theorem pure_eq (value : Value) :
    (pure value : Prog Op Reply Err Value) = done value := rfl

@[simp] theorem bind_eq (program : Prog Op Reply Err Value)
    (rest : Value → Prog Op Reply Err Other) : (program >>= rest) = program.bind rest := rfl

@[simp] theorem wp_done (value : Value) :
    (done value : Prog Op Reply Err Value).wp monitor post state = post (.ok value) state := rfl

@[simp] theorem wp_raise (error : Err) :
    (raise error : Prog Op Reply Err Value).wp monitor post state = post (.error error) state := rfl

theorem wp_ask (op : Op) (next : Reply op → Prog Op Reply Err Value) :
    (ask op next).wp monitor post state ↔ monitor.demands state op ∧
      ∀ reply last, monitor.moves state ⟨op, reply⟩ last → (next reply).wp monitor post last :=
  Iff.rfl

theorem wp_query (op : Op) {post : Except Err (Reply op) → State → Prop} :
    (query op : Prog Op Reply Err (Reply op)).wp monitor post state ↔ monitor.demands state op ∧
      ∀ reply last, monitor.moves state ⟨op, reply⟩ last → post (.ok reply) last :=
  Iff.rfl

theorem wp_bind {rest : Value → Prog Op Reply Err Other} {post : Except Err Other → State → Prop}
    (program : Prog Op Reply Err Value) :
    (program.bind rest).wp monitor post state ↔
      program.wp monitor (thenPost (fun value => (rest value).wp monitor post) post) state := by
  induction program generalizing state with
  | done value => exact Iff.rfl
  | raise error => exact Iff.rfl
  | ask op next ih =>
    simp only [Prog.bind, wp_ask]
    exact and_congr_right fun _ => forall_congr' fun reply => forall_congr' fun last =>
      imp_congr_right fun _ => ih reply

theorem wp_attempt {handler : Err → Prog Op Reply Err Value} (program : Prog Op Reply Err Value) :
    (program.attempt handler).wp monitor post state ↔
      program.wp monitor (fun outcome state => match outcome with
        | .ok value => post (.ok value) state
        | .error error => (handler error).wp monitor post state) state := by
  induction program generalizing state with
  | done value => exact Iff.rfl
  | raise error => exact Iff.rfl
  | ask op next ih =>
    simp only [attempt, wp_ask]
    exact and_congr_right fun _ => forall_congr' fun reply => forall_congr' fun last =>
      imp_congr_right fun _ => ih reply

theorem wp_ensuring {final : Prog Op Reply Err Unit} (program : Prog Op Reply Err Value) :
    (program.ensuring final).wp monitor post state ↔
      program.wp monitor (fun outcome state =>
        (final.bind fun _ => leaf outcome).wp monitor post state) state := by
  induction program generalizing state with
  | done value => exact Iff.rfl
  | raise error => exact Iff.rfl
  | ask op next ih =>
    simp only [ensuring, wp_ask]
    exact and_congr_right fun _ => forall_congr' fun reply => forall_congr' fun last =>
      imp_congr_right fun _ => ih reply

theorem wp_mono {program : Prog Op Reply Err Value}
    (weaker : ∀ outcome state, post outcome state → after outcome state)
    (met : program.wp monitor post state) : program.wp monitor after state := by
  induction program generalizing state with
  | done value => exact weaker _ _ met
  | raise error => exact weaker _ _ met
  | ask op next ih => exact ⟨met.1, fun reply last moved => ih reply (met.2 reply last moved)⟩

/-- The precondition holds on along an exchange. -/
theorem wp_reaches {program left : Prog Op Reply Err Value}
    (reached : Reaches program events left) (followed : Follows monitor.moves state events last)
    (met : program.wp monitor post state) : left.wp monitor post last := by
  induction reached generalizing state with
  | here =>
    cases followed
    exact met
  | ask _ ih =>
    obtain _ | ⟨moved, followed⟩ := followed
    exact ih followed (met.2 _ _ moved)

/-- Soundness for whole runs: the outcome meets the postcondition. -/
theorem wp_ran {program : Prog Op Reply Err Value} (ran : Ran program events outcome)
    (followed : Follows monitor.moves state events last) (met : program.wp monitor post state) :
    post outcome last := by
  have ended := wp_reaches ran followed met
  cases outcome <;> exact ended

/-- Soundness for unfinished runs: each question put so far was allowed where
it was put. -/
theorem wp_demands {program left : Prog Op Reply Err Value}
    {front back : List (Event Op Reply)} {event : Event Op Reply}
    (reached : Reaches program (front ++ event :: back) left)
    (followed : Follows monitor.moves state front middle) (met : program.wp monitor post state) :
    monitor.demands middle event.op := by
  induction front generalizing program state with
  | nil =>
    cases followed
    cases reached
    exact met.1
  | cons first front ih =>
    obtain _ | ⟨moved, followed⟩ := followed
    cases reached with
    | ask reached => exact ih reached followed (met.2 _ _ moved)

/-- Where the demands do not depend on the state, every question put meets them. -/
theorem wp_every {allowed : Op → Prop} {program left : Prog Op Reply Err Value}
    (fixed : ∀ state op, monitor.demands state op → allowed op)
    (reached : Reaches program events left) (followed : Follows monitor.moves state events last)
    (met : program.wp monitor post state) : ∀ event ∈ events, allowed event.op := by
  intro event member
  obtain ⟨front, back, rfl⟩ := List.append_of_mem member
  obtain ⟨middle, first, _⟩ := (follows_append front _).mp followed
  exact fixed _ _ (wp_demands reached first met)

/-- A property of the surroundings that survives a question. -/
def Monitor.Keeps (monitor : Monitor State Op Reply) (holds : State → Prop) (op : Op) : Prop :=
  ∀ state, holds state → monitor.demands state op ∧
    ∀ reply last, monitor.moves state ⟨op, reply⟩ last → holds last

theorem wp_keeps {holds : State → Prop} {op : Op} {next : Reply op → Prog Op Reply Err Value}
    (keeps : monitor.Keeps holds op) (held : holds state)
    (rest : ∀ reply last, holds last → (next reply).wp monitor post last) :
    (ask op next).wp monitor post state :=
  ⟨(keeps state held).1, fun reply last moved => rest reply last ((keeps state held).2 reply last moved)⟩

/-- Every question the program can come to put is allowed, and so is every error
it can end with and every value it can return. -/
def Asks (allowed : Op → Prop) (fails : Err → Prop) (returns : Value → Prop) :
    Prog Op Reply Err Value → Prop
  | done value => returns value
  | raise error => fails error
  | ask op next => allowed op ∧ ∀ reply, (next reply).Asks allowed fails returns

variable {allowed : Op → Prop} {fails caught : Err → Prop} {returns between : Value → Prop}

theorem asks_bind {program : Prog Op Reply Err Value} {rest : Value → Prog Op Reply Err Other}
    {returns : Other → Prop} (first : program.Asks allowed fails between)
    (second : ∀ value, between value → (rest value).Asks allowed fails returns) :
    (program.bind rest).Asks allowed fails returns := by
  induction program with
  | done value => exact second value first
  | raise error => exact first
  | ask op next ih => exact ⟨first.1, fun reply => ih reply (first.2 reply)⟩

theorem asks_attempt {program : Prog Op Reply Err Value} {handler : Err → Prog Op Reply Err Value}
    (first : program.Asks allowed caught returns)
    (second : ∀ error, caught error → (handler error).Asks allowed fails returns) :
    (program.attempt handler).Asks allowed fails returns := by
  induction program with
  | done value => exact first
  | raise error => exact second error first
  | ask op next ih => exact ⟨first.1, fun reply => ih reply (first.2 reply)⟩

/-- A program asks no more than what is allowed more widely. -/
theorem asks_mono {wider : Op → Prop} {program : Prog Op Reply Err Value}
    (widens : ∀ op, allowed op → wider op) (asks : program.Asks allowed fails returns) :
    program.Asks wider fails returns := by
  induction program with
  | done value => exact asks
  | raise error => exact asks
  | ask op next ih => exact ⟨widens op asks.1, fun reply => ih reply (asks.2 reply)⟩

theorem asks_any (program : Prog Op Reply Err Value) :
    program.Asks (fun _ => True) (fun _ => True) fun _ => True := by
  induction program with
  | done value => trivial
  | raise error => trivial
  | ask op next ih => exact ⟨trivial, ih⟩

theorem asks_reaches {program left : Prog Op Reply Err Value} (reached : Reaches program events left)
    (asks : program.Asks allowed fails returns) : left.Asks allowed fails returns := by
  induction reached with
  | here => exact asks
  | ask _ ih => exact ih (asks.2 _)

/-- A loop keeps what each of its turns keeps. -/
theorem wp_mapM {Input : Type} {turn : Input → Prog Op Reply Err Value} {holds : State → Prop}
    (inputs : List Input) (each : ∀ input state, holds state →
      (turn input).wp monitor (fun _ last => holds last) state) (held : holds state) :
    (inputs.mapM turn).wp monitor (fun _ last => holds last) state := by
  suffices loop : ∀ (inputs : List Input) (done : List Value) (state : State), holds state →
      (List.mapM.loop turn inputs done).wp monitor (fun _ last => holds last) state from
    loop inputs [] state held
  intro inputs
  induction inputs with
  | nil => exact fun done state held => held
  | cons input inputs ih =>
    intro done state held
    refine (wp_bind _).mpr (wp_mono ?_ (each input state held))
    rintro (error | value) last held
    · exact held
    · exact ih (value :: done) last held

/-- What a program keeps and how it ends, once its questions are known. -/
def Ended (holds : State → Prop) (fails : Err → Prop) (returns : Value → Prop) :
    Except Err Value → State → Prop
  | .ok value, last => holds last ∧ returns value
  | .error error, last => holds last ∧ fails error

/-- The frame rule: a program keeps what each of its questions keeps. -/
theorem wp_asks {holds : State → Prop} {program : Prog Op Reply Err Value}
    (asks : program.Asks allowed fails returns) (keeps : ∀ op, allowed op → monitor.Keeps holds op)
    (held : holds state) : program.wp monitor (Ended holds fails returns) state := by
  induction program generalizing state with
  | done value => exact ⟨held, asks⟩
  | raise error => exact ⟨held, asks⟩
  | ask op next ih =>
    exact ⟨(keeps op asks.1 state held).1, fun reply last moved =>
      ih reply (asks.2 reply) ((keeps op asks.1 state held).2 reply last moved)⟩

/-- The monitor that checks each question against the exchange before it. -/
def Monitor.checking (demands : List (Event Op Reply) → Op → Prop) :
    Monitor (List (Event Op Reply)) Op Reply where
  demands := demands
  moves seen event last := last = seen ++ [event]

theorem wp_check {demands : List (Event Op Reply) → Op → Prop}
    {post : Except Err Value → List (Event Op Reply) → Prop} {seen : List (Event Op Reply)}
    (op : Op) (next : Reply op → Prog Op Reply Err Value) :
    (ask op next).wp (.checking demands) post seen ↔ demands seen op ∧
      ∀ reply, (next reply).wp (.checking demands) post (seen ++ [⟨op, reply⟩]) := by
  refine and_congr_right fun _ => forall_congr' fun reply => ⟨fun met => met _ rfl, ?_⟩
  rintro met _ ⟨⟩
  exact met

theorem follows_checking (demands : List (Event Op Reply) → Op → Prop)
    (events seen : List (Event Op Reply)) :
    Follows (Monitor.checking demands).moves seen events (seen ++ events) := by
  induction events generalizing seen with
  | nil =>
    rw [List.append_nil]
    exact .nil
  | cons event events ih =>
    rw [List.append_cons]
    exact .cons rfl (ih _)

/-- What meets narrow demands meets wider ones. -/
theorem wp_widen {narrow wide : List (Event Op Reply) → Op → Prop} {program : Prog Op Reply Err Value}
    {post : Except Err Value → List (Event Op Reply) → Prop} {seen : List (Event Op Reply)}
    (widens : ∀ seen op, narrow seen op → wide seen op)
    (met : program.wp (.checking narrow) post seen) : program.wp (.checking wide) post seen := by
  induction program generalizing seen with
  | done value => exact met
  | raise error => exact met
  | ask op next ih =>
    exact ⟨widens seen op met.1, fun reply last moved => ih reply (met.2 reply last moved)⟩

/-- What every question that a checked program may put preserves, its exchanges preserve. -/
theorem checked_run {demands : List (Event Op Reply) → Op → Prop}
    {moves : State → Event Op Reply → State → Prop} {holds : List (Event Op Reply) → State → Prop}
    {program left : Prog Op Reply Err Value} {start last : State}
    {post : Except Err Value → List (Event Op Reply) → Prop}
    (met : program.wp (.checking demands) post []) (reached : Reaches program events left)
    (followed : Follows moves start events last) (first : holds [] start)
    (step : ∀ front event before after, demands front event.op → moves before event after →
      holds front before → holds (front ++ [event]) after) : holds events last := by
  suffices part : ∀ (back front : List (Event Op Reply)) (middle : State), events = front ++ back →
      holds front middle → Follows moves middle back last → holds events last by
    exact part events [] start rfl first followed
  intro back
  induction back with
  | nil =>
    intro front middle split held followed
    cases followed
    rwa [split, List.append_nil]
  | cons event back ih =>
    rintro front middle rfl held (_ | ⟨moved, followed⟩)
    have allowed := wp_demands reached (follows_checking demands front []) met
    exact ih (front ++ [event]) _ (List.append_cons front event back)
      (step front event middle _ allowed moved held) followed

/-- Each question of a checked program meets its demand. -/
theorem wp_checked {demands : List (Event Op Reply) → Op → Prop}
    {program : Prog Op Reply Err Value} {next : Reply op → Prog Op Reply Err Value}
    {post : Except Err Value → List (Event Op Reply) → Prop}
    (reached : Reaches program events (.ask op next))
    (met : program.wp (.checking demands) post []) : demands events op :=
  (wp_reaches reached (follows_checking demands events []) met).1

/-- The monitor whose state is the exchange so far. -/
def Monitor.history (Op : Type) (Reply : Op → Type) : Monitor (List (Event Op Reply)) Op Reply :=
  .checking fun _ _ => True

theorem wp_asked {post : Except Err Value → List (Event Op Reply) → Prop}
    {seen : List (Event Op Reply)} (op : Op) (next : Reply op → Prog Op Reply Err Value) :
    (ask op next).wp (.history Op Reply) post seen ↔
      ∀ reply, (next reply).wp (.history Op Reply) post (seen ++ [⟨op, reply⟩]) :=
  (wp_check op next).trans (true_and _).to_iff

/-- An exchange only grows. -/
theorem wp_grown {program : Prog Op Reply Err Value}
    {post : Except Err Value → List (Event Op Reply) → Prop} {start seen : List (Event Op Reply)}
    (earlier : start <+: seen) (met : program.wp (.history Op Reply) post seen) :
    program.wp (.history Op Reply) (fun outcome last => start <+: last ∧ post outcome last) seen := by
  induction program generalizing seen with
  | done value => exact ⟨earlier, met⟩
  | raise error => exact ⟨earlier, met⟩
  | ask op next ih =>
    exact (wp_asked op next).mpr fun reply =>
      ih reply (earlier.trans (List.prefix_append seen _)) ((wp_asked op next).mp met reply)

/-- The outcome of a checked program meets the postcondition with its exchange. -/
theorem wp_history {demands : List (Event Op Reply) → Op → Prop}
    {program : Prog Op Reply Err Value}
    {post : Except Err Value → List (Event Op Reply) → Prop} (ran : Ran program events outcome)
    (met : program.wp (.checking demands) post []) : post outcome events :=
  wp_ran ran (follows_checking demands events []) met

/-- The monitor whose state each event moves on. -/
def Monitor.folding (step : State → Event Op Reply → State) (demands : State → Op → Prop) :
    Monitor State Op Reply where
  demands := demands
  moves state event last := last = step state event

/-- Each question of an exchange meets its demand where it was put. -/
def Meets (step : State → Event Op Reply → State) (demands : State → Op → Prop) :
    State → List (Event Op Reply) → Prop
  | _, [] => True
  | state, event :: events => demands state event.op ∧ Meets step demands (step state event) events

theorem meets_append {step : State → Event Op Reply → State} {demands : State → Op → Prop}
    (front back : List (Event Op Reply)) :
    Meets step demands state (front ++ back) ↔
      Meets step demands state front ∧ Meets step demands (front.foldl step state) back := by
  induction front generalizing state with
  | nil => exact (true_and _).to_iff.symm
  | cons event front ih => exact (and_congr_right fun _ => ih).trans and_assoc.symm

/-- What is proved under the events holds of a whole run. -/
theorem wp_folding {step : State → Event Op Reply → State} {demands : State → Op → Prop}
    {program : Prog Op Reply Err Value} (ran : Ran program events outcome)
    (met : program.wp (.folding step demands) post state) :
    Meets step demands state events ∧ post outcome (events.foldl step state) := by
  induction program generalizing events state with
  | done value =>
    obtain ⟨rfl, rfl⟩ := ran_done ran
    exact ⟨trivial, met⟩
  | raise error =>
    obtain ⟨rfl, rfl⟩ := ran_raise ran
    exact ⟨trivial, met⟩
  | ask op next ih =>
    obtain ⟨reply, later, rfl, onward⟩ := ran_ask ran
    obtain ⟨rest, ended⟩ := ih reply onward (met.2 _ _ rfl)
    exact ⟨⟨met.1, rest⟩, ended⟩

/-- The monitor that keeps the exchange so far beside the state of the surroundings. -/
def Monitor.logging (moves : State → Event Op Reply → State → Prop) :
    Monitor (State × List (Event Op Reply)) Op Reply where
  demands _ _ := True
  moves before event after := moves before.1 event after.1 ∧ after.2 = before.2 ++ [event]

theorem wp_logged {moves : State → Event Op Reply → State → Prop}
    {post : Except Err Value → State × List (Event Op Reply) → Prop}
    {seen : List (Event Op Reply)} (op : Op) (next : Reply op → Prog Op Reply Err Value) :
    (ask op next).wp (.logging moves) post (state, seen) ↔ ∀ reply last,
      moves state ⟨op, reply⟩ last →
        (next reply).wp (.logging moves) post (last, seen ++ [⟨op, reply⟩]) := by
  constructor
  · exact fun met reply last moved => met.2 reply (last, _) ⟨moved, rfl⟩
  · refine fun met => ⟨trivial, ?_⟩
    rintro reply ⟨last, _⟩ ⟨moved, rfl⟩
    exact met reply last moved

theorem follows_logging {moves : State → Event Op Reply → State → Prop} {last : State}
    (followed : Follows moves state events last) (seen : List (Event Op Reply)) :
    Follows (Monitor.logging moves).moves (state, seen) events (last, seen ++ events) := by
  induction followed generalizing seen with
  | nil =>
    rw [List.append_nil]
    exact .nil
  | cons moved followed ih =>
    rw [List.append_cons]
    exact .cons ⟨moved, rfl⟩ (ih _)

/-- What a run meets, with its exchange and the state it leaves. -/
theorem wp_logging {moves : State → Event Op Reply → State → Prop} {last : State}
    {program : Prog Op Reply Err Value}
    {post : Except Err Value → State × List (Event Op Reply) → Prop}
    (ran : Ran program events outcome) (followed : Follows moves state events last)
    (met : program.wp (.logging moves) post (state, [])) : post outcome (last, events) :=
  wp_ran ran (follows_logging followed []) met

/-- Surroundings that are a function of their state have every exchange that
their answers make. -/
theorem execute_follows {moves : State → Event Op Reply → State → Prop}
    {answer : State → (op : Op) → Reply op × State}
    (honest : ∀ state op, moves state ⟨op, (answer state op).1⟩ (answer state op).2)
    (program : Prog Op Reply Err Value) (state : State) :
    Follows moves state (program.execute answer state).1 (program.execute answer state).2.2 := by
  induction program generalizing state with
  | done value => exact .nil
  | raise error => exact .nil
  | ask op next ih => exact .cons (honest state op) (ih _ _)

/-- The monitor of surroundings that are a function of their state. -/
def Monitor.answering (answer : State → (op : Op) → Reply op × State) :
    Monitor State Op Reply where
  demands _ _ := True
  moves state event last := (event.reply, last) = answer state event.op

theorem wp_answering {answer : State → (op : Op) → Reply op × State} (op : Op)
    (next : Reply op → Prog Op Reply Err Value) :
    (ask op next).wp (.answering answer) post state ↔
      (next (answer state op).1).wp (.answering answer) post (answer state op).2 := by
  constructor
  · exact fun met => met.2 _ _ rfl
  · refine fun met => ⟨trivial, fun reply last moved => ?_⟩
    obtain ⟨rfl, rfl⟩ : reply = (answer state op).1 ∧ last = (answer state op).2 :=
      ⟨congrArg Prod.fst moved, congrArg Prod.snd moved⟩
    exact met

/-- What is proved under the answers holds where the program ends with them. -/
theorem wp_execute {answer : State → (op : Op) → Reply op × State}
    {program : Prog Op Reply Err Value} (met : program.wp (.answering answer) post state) :
    post (program.execute answer state).2.1 (program.execute answer state).2.2 :=
  wp_ran (execute_ran answer program state) (execute_follows (fun _ _ => rfl) program state) met

end Prog

end FcamGateway
