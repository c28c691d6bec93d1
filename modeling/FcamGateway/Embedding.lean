import FcamGateway.Interleaving

/-! Programs within larger ones. Where each question of one program is a question of another kind
of program with the same replies, the program can be a part of one of that kind: it has there the
exchanges that it has alone, and what is known of these is known of the part. -/
namespace FcamGateway
namespace Prog

variable {Op Wide : Type} {Reply : Wide → Type} {Err Value Other : Type}

/-- A program whose questions are put as questions of another kind. -/
def embed (wide : Op → Wide) : Prog Op (fun op => Reply (wide op)) Err Value →
    Prog Wide Reply Err Value
  | done value => done value
  | raise error => raise error
  | ask op next => ask (wide op) fun reply => (next reply).embed wide

/-- An event as one of the larger program. -/
def widen (wide : Op → Wide) (event : Event Op fun op => Reply (wide op)) : Event Wide Reply :=
  ⟨wide event.op, event.reply⟩

variable {wide : Op → Wide} {program : Prog Op (fun op => Reply (wide op)) Err Value}
  {demands : List (Event Wide Reply) → Wide → Prop}
  {post : Except Err Value → List (Event Wide Reply) → Prop} {history : List (Event Wide Reply)}

/-- A part is checked within the whole as it is alone, after what went before it. -/
theorem wp_embed (met : program.wp
      (.checking fun inner op => demands (history ++ inner.map (widen wide)) (wide op))
      (fun outcome inner => post outcome (history ++ inner.map (widen wide))) []) :
    (program.embed wide).wp (.checking demands) post history := by
  suffices from_ : ∀ inner, program.wp
      (.checking fun inner op => demands (history ++ inner.map (widen wide)) (wide op))
      (fun outcome inner => post outcome (history ++ inner.map (widen wide))) inner →
        (program.embed wide).wp (.checking demands) post (history ++ inner.map (widen wide)) by
    have whole := from_ [] met
    rwa [List.map_nil, List.append_nil] at whole
  clear met
  intro inner met
  induction program generalizing inner with
  | done value => exact met
  | raise error => exact met
  | ask op next ih =>
    refine (wp_check _ _).mpr ⟨met.1, fun reply => ?_⟩
    let event : Event Op fun op => Reply (wide op) := ⟨op, reply⟩
    have later := ih reply (inner ++ [event]) (met.2 reply (inner ++ [event]) rfl)
    rwa [List.map_append, ← List.append_assoc] at later

/-- An exchange of a part is one that it has alone. -/
theorem ran_embed {wide : Op → Wide} {program : Prog Op (fun op => Reply (wide op)) Err Value}
    {events : List (Event Wide Reply)} {outcome : Except Err Value}
    (ran : Ran (program.embed wide) events outcome) :
    ∃ inner, events = inner.map (widen wide) ∧ Ran program inner outcome := by
  induction program generalizing events with
  | done value =>
    obtain ⟨rfl, rfl⟩ := ran_done ran
    exact ⟨[], rfl, .here⟩
  | raise error =>
    obtain ⟨rfl, rfl⟩ := ran_raise ran
    exact ⟨[], rfl, .here⟩
  | ask op next ih =>
    obtain ⟨reply, rest, rfl, onward⟩ := ran_ask ran
    obtain ⟨inner, rfl, alone⟩ := ih reply onward
    exact ⟨⟨op, reply⟩ :: inner, rfl, .ask alone⟩

/-- A part asks of the whole what it asks alone. -/
theorem asks_embed {wide : Op → Wide} {allowed : Wide → Prop} {fails : Err → Prop}
    {returns : Value → Prop} {program : Prog Op (fun op => Reply (wide op)) Err Value}
    (asks : program.Asks (fun op => allowed (wide op)) fails returns) :
    (program.embed wide).Asks allowed fails returns := by
  induction program with
  | done value => exact asks
  | raise error => exact asks
  | ask op next ih => exact ⟨asks.1, fun reply => ih reply (asks.2 reply)⟩

/-- What a program asks shows in its exchanges. -/
theorem asks_every {Reply : Op → Type} {allowed : Op → Prop} {fails : Err → Prop}
    {returns : Value → Prop} {program left : Prog Op Reply Err Value}
    {events : List (Event Op Reply)} (asks : program.Asks allowed fails returns)
    (reached : Reaches program events left) : ∀ event ∈ events, allowed event.op := by
  induction reached with
  | here => exact fun _ => nofun
  | ask _ ih =>
    refine List.forall_mem_cons.mpr ⟨asks.1, ih (asks.2 _)⟩

/-- A sequence whose first part raises raises. -/
theorem raised_bind {Reply : Op → Type} {program : Prog Op Reply Err Value}
    {rest : Value → Prog Op Reply Err Other} {events : List (Event Op Reply)} {error : Err}
    (ran : Ran program events (.error error)) : Ran (program.bind rest) events (.error error) := by
  induction program generalizing events with
  | done value => cases ran
  | raise raised =>
    obtain ⟨rfl, same⟩ := ran_raise ran
    cases same
    exact .here
  | ask op next ih =>
    obtain ⟨reply, later, rfl, onward⟩ := ran_ask ran
    exact .ask (ih reply onward)

/-- A run of a body with a last part is a run of each. -/
theorem ran_ensuring {Reply : Op → Type} {program : Prog Op Reply Err Value}
    {final : Prog Op Reply Err Unit} {events : List (Event Op Reply)} {outcome : Except Err Value}
    (ran : Ran (program.ensuring final) events outcome) :
    ∃ inner front back, events = front ++ back ∧ Ran program front inner ∧
      Ran (final.bind fun _ => leaf inner) back outcome := by
  induction program generalizing events with
  | done value => exact ⟨.ok value, [], events, rfl, .here, ran⟩
  | raise error => exact ⟨.error error, [], events, rfl, .here, ran⟩
  | ask op next ih =>
    obtain ⟨reply, rest, rfl, onward⟩ := ran_ask ran
    obtain ⟨inner, front, back, rfl, first, second⟩ := ih reply onward
    exact ⟨inner, ⟨op, reply⟩ :: front, back, rfl, .ask first, second⟩

/-- What is known of the exchanges of a program is known of it under any check. -/
theorem wp_of_exchanges {Reply : Op → Type} {program : Prog Op Reply Err Value}
    {demands : List (Event Op Reply) → Op → Prop}
    {post : Except Err Value → List (Event Op Reply) → Prop}
    (asked : ∀ events op next, Reaches program events (.ask op next) → demands events op)
    (ended : ∀ events outcome, Ran program events outcome → post outcome events) :
    program.wp (.checking demands) post [] := by
  suffices from_ : ∀ (left : Prog Op Reply Err Value) (seen : List (Event Op Reply)),
      Reaches program seen left → left.wp (.checking demands) post seen from
    from_ program [] .here
  intro left
  induction left with
  | done value => exact fun seen reached => ended seen (.ok value) reached
  | raise error => exact fun seen reached => ended seen (.error error) reached
  | ask op next ih =>
    intro seen reached
    refine (wp_check op next).mpr ⟨asked seen op next reached, fun reply => ?_⟩
    exact ih reply _ (reaches_trans reached (.ask .here))

/-- A checked program ends with an exchange of its own. -/
theorem wp_exchanged {Reply : Op → Type} {program : Prog Op Reply Err Value}
    {demands : List (Event Op Reply) → Op → Prop}
    (met : program.wp (.checking demands) (fun _ _ => True) []) :
    program.wp (.checking demands) (fun outcome seen => Ran program seen outcome) [] :=
  wp_of_exchanges (fun _ _ _ reached => wp_checked reached met) fun _ _ ran => ran

/-- Where every question can get a reply, an exchange can go on to an end. -/
theorem reaches_ends {Reply : Op → Type} {program left : Prog Op Reply Err Value}
    {events : List (Event Op Reply)} (replied : ∀ op, Nonempty (Reply op))
    (reached : Reaches program events left) :
    ∃ more outcome, Ran program (events ++ more) outcome := by
  have ended := execute_ran (fun (_ : Unit) op => ((replied op).some, ())) left ()
  exact ⟨_, _, reaches_trans reached ended⟩

end Prog

end FcamGateway
