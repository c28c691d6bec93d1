import FcamGateway.IdempotencyLife

/-! Who owns a record. A handler writes its response by id alone and deletes by id
alone, so what it hits is its own, or what it read, only where ids are not given out
twice; and a response that was stored is served until the record's time has passed
only where no takeover deletes it. -/
namespace FcamGateway.Idempotency
open Prog

set_option linter.unusedSectionVars false

variable {Thread : Type} [DecidableEq Thread]

/-- The handler that inserted the row of an id last. -/
def owner (id : Nat) (trace : Log Thread) : Option Thread :=
  ((trace.filter fun entry => (insertedRow entry.2).any (·.2 = id)).getLast?).map Prod.fst

/-- Records belong to the handlers that inserted them. -/
structure Owned (config : IdempotencyConfig) (codec : Codec) (request : Thread → Incoming)
    (trace : Log Thread) : Prop where
  writes : ∀ front thread id statusCode body back,
    trace = front ++ (thread, ⟨.complete id statusCode body, true⟩) :: back →
    owner id front = some thread
  deletes : ∀ front thread id back, trace = front ++ (thread, ⟨.delete id, true⟩) :: back →
    ∃ upto clientId key record since,
      front = upto ++ (thread, ⟨.lookup clientId key, some (some (id, record))⟩) :: since ∧
        own thread since = [] ∧ id ∉ given since
  replays : ∀ front thread draft id statusCode body since reader event back,
    trace = front ++ (thread, ⟨.complete id statusCode body, true⟩) :: since ++
      (reader, event) :: back →
    (thread, ⟨.insert draft, .row id⟩) ∈ front →
    (request reader).clientId = draft.clientId →
    (request reader).claimedKey config = some draft.idempotencyKey →
    ¬Passed draft.expiresAt
      (front ++ (thread, ⟨.complete id statusCode body, true⟩) :: since) →
    ∀ other record statusCode' body',
      ReadRow config codec (request reader) (own reader
        (front ++ (thread, ⟨.complete id statusCode body, true⟩) :: since ++ [(reader, event)]))
        other record (.replay statusCode' body') →
      statusCode' = statusCode ∧ body' = body

/-- An id that is given out once belongs to the handler it was given to. -/
theorem FreshIds.owner {trace : Log Thread} (fresh : FreshIds trace) {thread : Thread}
    {draft : Draft} {id : Nat} (inserted : (thread, ⟨.insert draft, .row id⟩) ∈ trace) :
    owner id trace = some thread := by
  obtain ⟨front, back, rfl⟩ := List.append_of_mem inserted
  have quiet : back.filter (fun entry => (insertedRow entry.2).any (·.2 = id)) = [] := by
    refine List.filter_eq_nil_iff.mpr fun entry member chosen => ?_
    rw [List.append_cons] at fresh
    refine fresh.once (List.mem_append_right _ (List.mem_singleton_self _)) ?_
    obtain ⟨⟨draft', id'⟩, found, same⟩ := (Option.any_eq_true ..).mp chosen
    refine List.mem_filterMap.mpr ⟨entry, member, ?_⟩
    rw [found, ← of_decide_eq_true same]
    rfl
  rw [Idempotency.owner, List.filter_append, List.filter_cons_of_pos (by simp [insertedRow]), quiet,
    List.getLast?_concat]
  rfl

variable {config : IdempotencyConfig} {codec : Codec} {depth : Thread → Nat}
  {request : Thread → Incoming} {start last : Shelf} {trace : Log Thread}

/-- The row an event wrote a response to. -/
def storedRow : Event Op Reply → Option Nat
  | ⟨.complete id _ _, true⟩ => some id
  | _ => none

theorem storedRow_some {event : Event Op Reply} {id : Nat} (stored : storedRow event = some id) :
    ∃ statusCode body, event = ⟨.complete id statusCode body, true⟩ := by
  unfold storedRow at stored
  split at stored
  · cases stored
    exact ⟨_, _, rfl⟩
  · cases stored

end FcamGateway.Idempotency
