import FcamGateway.ForwardAttribution
import FcamGateway.SelectionRefusals
import Mathlib.Data.List.Perm.Subperm

/-! What a forward says when it gives up before its first upstream request. Keys that are
busy are excluded from the selections that follow, so a selection may find the pool
disabled that is only busy; and the selections of one call are bounded. -/
namespace FcamGateway.Forwarder
open Prog Credits Upstream

set_option linter.unusedSectionVars false

variable {R : Type} [Field R] [LinearOrder R] [ScoreMath R] {history : Exchange R}

/-- The database, the rate limiter and the concurrency manager give an answer. -/
def Served : Event (Op R) (Reply R) → Prop
  | ⟨.readPool _ _, reply⟩ => reply ≠ none
  | ⟨.findKey _, reply⟩ => reply ≠ none
  | ⟨.commit _, reply⟩ => reply = true
  | ⟨.allow _ _, reply⟩ => reply ≠ none
  | ⟨.acquire _ _, reply⟩ => reply ≠ none
  | _ => True

/-- The key that the limiter, the concurrency manager or its decryption refuses: a key that
does not decrypt is disabled by a commit of its own. -/
def refusedKey : Event (Op R) (Reply R) → Option Nat
  | ⟨.allow id _, some (false, _)⟩ => some id
  | ⟨.acquire id _, some false⟩ => some id
  | ⟨.commit { site := .decryptFailed, keys := [key], .. }, _⟩ => some key.id
  | _ => none

def refusals (events : Exchange R) : List Nat := events.filterMap refusedKey

/-- The keys that did not decrypt. -/
def undecrypted (events : Exchange R) : List Nat :=
  events.filterMap fun event => match event.op with
    | .commit { site := .decryptFailed, keys := [key], .. } => some key.id
    | _ => none

/-- The limiter had no room for the key when a selection asked it. -/
def Gated (events : Exchange R) (id : Nat) : Prop :=
  ∃ provider exclude, ∃ view : PoolView R, ∃ row,
    (⟨.readPool provider exclude, some view⟩ : Event (Op R) (Reply R)) ∈ events ∧
      view.keys.get? id = some row ∧ KeyPool.rpmAllows view id row = false

def readView : Event (Op R) (Reply R) → Option (PoolView R)
  | ⟨.readPool _ _, reply⟩ => reply
  | _ => none

/-- The reading of the first selection. -/
def opening (events : Exchange R) : Option (PoolView R) := events.findSome? readView

/-- A selection with this reading could return the key. -/
def Startable (view : PoolView R) (provider : String) (id : Nat) : Prop :=
  ∃ row, view.keys.get? id = some row ∧ row.provider = provider ∧
    KeyPool.Eligible view [] (.fresh id row)

/-- A row of the provider that is enabled, or is not. -/
def HasRow (keys : Table KeyColumns) (provider : String) (disabled : Bool) (id : Nat) : Prop :=
  ∃ row, keys.get? id = some row ∧ row.provider = provider ∧ KeyPool.isDisabled row = disabled

/-- The columns of a row that a call changes only when the key does not decrypt. -/
def face (row : KeyColumns) : String × Bool := (row.provider, KeyPool.isDisabled row)

/-- What the rows are like while no request has been sent. -/
structure Known (start : Store) (provider : String) (tried : List Nat) (events : Exchange R)
    (last : Store) : Prop where
  alike : undecrypted events = [] →
    ∀ id, (last.keys.get? id).map face = (start.keys.get? id).map face
  awake : undecrypted events = [] → ∀ id ∈ tried, HasRow last.keys provider false id
  idle : ∀ view, opening events = some view → ∀ id, Startable view provider id → id ∉ tried →
    ∃ row, last.keys.get? id = some row ∧ KeyPool.Idle provider row

/-- Nothing was sent so far, and every question was served. -/
def Hopeful (events : Exchange R) : Prop := sends events = [] ∧ ∀ event ∈ events, Served event

/-- The head of the pool loop, with `left` selections left and no request sent. -/
structure PoolHead (call : Call) (start : Store) (left : Nat) (progress : Progress R)
    (events : Exchange R) : Prop where
  attempts : progress.upstreamAttempts = 0
  response : progress.lastErrorResponse = none
  refused : refusals events = progress.triedKeyIds.reverse
  distinct : progress.triedKeyIds.Nodup
  counted : progress.triedKeyIds.length + left = maxSelectionTries call
  flagged : progress.decryptFailedSeen = true ↔ undecrypted events ≠ []
  opened : opening events = none → progress.triedKeyIds = []
  known : ∀ last, Follows Store.moves start events last →
    Known start call.provider progress.triedKeyIds events last

/-- Every row of the provider is disabled or was refused, and one is disabled. -/
def Exhausted (keys : Table KeyColumns) (provider : String) (refused : List Nat) : Prop :=
  (∃ id disabled, HasRow keys provider disabled id) ∧
    ((∀ id, ¬ HasRow keys provider false id) ∨
      (∀ id, HasRow keys provider false id → id ∈ refused) ∧
        ∃ id, HasRow keys provider true id ∧ id ∉ refused)

/-- How a call gives up without a request. -/
inductive GivesUp (setup : Setup R) (call : Call) (start : Store) (events : Exchange R)
    (last : Store) : FcamError → Prop where
  | busy (distinct : (refusals events).Nodup)
      (all : (refusals events).length = maxSelectionTries call) :
      GivesUp setup call start events last (allKeysBusy setup call)
  | unselected {error : FcamError} (distinct : (refusals events).Nodup)
      (fewer : (refusals events).length < maxSelectionTries call)
      (opened : ∃ view, opening events = some view ∧ ∀ id, Startable view call.provider id →
        id ∈ refusals events ∨ Gated events id)
      (code : error.code = "ALL_KEYS_DISABLED" ↔
        undecrypted events = [] ∧ Exhausted last.keys call.provider (refusals events))
      (alike : undecrypted events = [] →
        ∀ id, (last.keys.get? id).map face = (start.keys.get? id).map face)
      (awake : undecrypted events = [] →
        ∀ id ∈ refusals events, HasRow last.keys call.provider false id) :
      GivesUp setup call start events last error

/-- A reply that refuses no key and leaves the store and the pool alone. -/
def Aside : Event (Op R) (Reply R) → Prop
  | ⟨.keepFailures _, _⟩ => True
  | ⟨.keepCursor _ _, _⟩ => True
  | ⟨.release _, _⟩ => True
  | ⟨.allow _ _, some (true, _)⟩ => True
  | ⟨.acquire _ _, some true⟩ => True
  | _ => False

theorem aside_event {event : Event (Op R) (Reply R)} (aside : Aside event) :
    sends [event] = [] ∧ refusals [event] = [] ∧ undecrypted [event] = [] ∧
      readView event = none ∧ ∀ first last, Store.moves first event last → last = first := by
  unfold Aside at aside
  split at aside
  · exact ⟨rfl, rfl, rfl, rfl, fun _ _ moved => moved⟩
  · exact ⟨rfl, rfl, rfl, rfl, fun _ _ moved => moved⟩
  · exact ⟨rfl, rfl, rfl, rfl, fun _ _ moved => moved⟩
  · exact ⟨rfl, rfl, rfl, rfl, fun _ _ moved => moved⟩
  · exact ⟨rfl, rfl, rfl, rfl, fun _ _ moved => moved⟩
  · cases aside

theorem refusals_append (front back : Exchange R) :
    refusals (front ++ back) = refusals front ++ refusals back := List.filterMap_append

theorem undecrypted_append (front back : Exchange R) :
    undecrypted (front ++ back) = undecrypted front ++ undecrypted back := List.filterMap_append

theorem opening_append (front back : Exchange R) :
    opening (front ++ back) = (opening front).or (opening back) := List.findSome?_append

theorem hopeful_before {before after : Exchange R} (hopeful : Hopeful after)
    (grown : before <+: after) : Hopeful before := by
  obtain ⟨more, rfl⟩ := grown
  obtain ⟨unsent, served⟩ := hopeful
  rw [sends_append] at unsent
  exact ⟨(List.append_eq_nil_iff.mp unsent).1,
    fun event member => served event (List.mem_append_left _ member)⟩

/-- Nothing is claimed of a run that sends a request or is left without an answer. -/
def Lenient (post : Except Exn Value → Exchange R → Prop) : Prop :=
  ∀ outcome events, ¬ Hopeful events → post outcome events

theorem lenient_hopeful (post : Except Exn Value → Exchange R → Prop) :
    Lenient fun outcome events => Hopeful events → post outcome events :=
  fun _ _ hopeless hopeful => absurd hopeful hopeless

theorem wp_hopeless {post : Except Exn Value → Exchange R → Prop} (program : Gateway R Value)
    (lenient : Lenient post) (hopeless : ¬ Hopeful history) : program.wp seen post history := by
  induction program generalizing history with
  | done value => exact lenient _ _ hopeless
  | raise error => exact lenient _ _ hopeless
  | ask op next ih =>
    exact (wp_asked op next).mpr fun reply =>
      ih reply fun hopeful => hopeless (hopeful_before hopeful (List.prefix_append _ _))

theorem lenient_then {post : Except Exn Other → Exchange R → Prop}
    (rest : Value → Gateway R Other) (lenient : Lenient post) :
    Lenient (thenPost (fun value => (rest value).wp seen post) post) := by
  intro outcome events hopeless
  cases outcome with
  | ok value => exact wp_hopeless (rest value) lenient hopeless
  | error error => exact lenient _ _ hopeless

theorem unserved_hopeless {op : Op R} {reply : Reply R op} (event : ¬ Served ⟨op, reply⟩) :
    ¬ Hopeful (history ++ [⟨op, reply⟩]) :=
  fun hopeful => event (hopeful.2 _ (List.mem_append_right _ (List.mem_singleton_self _)))

theorem follows_single {start last : Store} {event : Event (Op R) (Reply R)} :
    Follows Store.moves start (history ++ [event]) last ↔
      ∃ middle, Follows Store.moves start history middle ∧ Store.moves middle event last := by
  rw [follows_append]
  constructor
  · rintro ⟨middle, first, _ | ⟨moved, ⟨⟩⟩⟩
    exact ⟨middle, first, moved⟩
  · rintro ⟨middle, first, moved⟩
    exact ⟨middle, first, .cons moved .nil⟩

variable {setup : Setup R} {call : Call} {start last middle : Store} {left : Nat}
  {progress : Progress R} {events : Exchange R}

/-- The loop's state does not change with a reply that is aside. -/
theorem PoolHead.aside {event : Event (Op R) (Reply R)}
    (head : PoolHead call start left progress history) (aside : Aside event) :
    PoolHead call start left progress (history ++ [event]) := by
  obtain ⟨_, refused, decrypted, unread, still⟩ := aside_event aside
  have same : opening (history ++ [event]) = opening history := by
    rw [opening_append, opening, opening, List.findSome?_singleton, unread, Option.or_none]
  have noted : undecrypted (history ++ [event]) = undecrypted history := by
    rw [undecrypted_append, decrypted, List.append_nil]
  refine ⟨head.attempts, head.response, ?_, head.distinct, head.counted, ?_, ?_, ?_⟩
  · rw [refusals_append, refused, List.append_nil]
    exact head.refused
  · rw [noted]
    exact head.flagged
  · rw [same]
    exact head.opened
  · intro last follows
    obtain ⟨middle, first, moved⟩ := follows_single.mp follows
    obtain rfl := still middle last moved
    have known := head.known _ first
    refine ⟨?_, ?_, ?_⟩
    · rw [noted]
      exact known.alike
    · rw [noted]
      exact known.awake
    · rw [same]
      exact known.idle

/-- The commit of a selection that goes on. -/
def selection (setup : Setup R) (call : Call) (view : PoolView R) (tried : List Nat) : Commit :=
  { site := .reactivate
    keys := (KeyPool.scanKeys view (KeyPool.weights setup.config setup.runtime) call.provider
      tried).reactivated }

theorem get_selection {view : PoolView R} {tried : List Nat} (read : view.keys = middle.keys)
    (id : Nat) : (middle.apply (selection setup call view tried)).keys.get? id =
      (middle.keys.get? id).map (KeyPool.resettled view call.provider tried id) := by
  rw [← read]
  change (List.foldl Store.flushKey middle.keys _).get? id = _
  rw [← read]
  exact KeyPool.get_reactivated id

/-- A selection keeps the rows as they are known, and makes those idle that it could have
returned when it is the first. -/
theorem Known.select {view : PoolView R} {tried : List Nat} {after : Exchange R}
    (known : Known start call.provider tried events middle) (read : view.keys = middle.keys)
    (opened : opening events = none → tried = [])
    (decrypted : undecrypted after = undecrypted events)
    (first : opening after = (opening events).or (some view)) :
    Known start call.provider tried after (middle.apply (selection setup call view tried)) := by
  refine ⟨?_, ?_, ?_⟩
  · intro none id
    rw [decrypted] at none
    rw [get_selection read, Option.map_map, ← known.alike none id]
    congr 1
    funext row
    obtain ⟨provider, disabled, _⟩ := KeyPool.resettled_frame view call.provider tried id row
    simp only [Function.comp, face, provider, disabled]
  · intro none id member
    rw [decrypted] at none
    obtain ⟨row, found, provided, enabled⟩ := known.awake none id member
    obtain ⟨provider, disabled, _⟩ := KeyPool.resettled_frame view call.provider tried id row
    refine ⟨KeyPool.resettled view call.provider tried id row, ?_, provider.trans provided,
      disabled.trans enabled⟩
    rw [get_selection read, found]
    rfl
  · intro other opens id startable fresh
    rw [first] at opens
    cases before : opening events with
    | none =>
      rw [before] at opens
      obtain rfl := Option.some.inj opens
      obtain ⟨row, found, provided, eligible⟩ := startable
      refine ⟨KeyPool.resettled view call.provider tried id row, ?_,
        KeyPool.eligible_idle provided ?_⟩
      · rw [get_selection read, ← read, found]
        rfl
      · rw [opened before]
        exact eligible
    | some earlier =>
      rw [before] at opens
      obtain rfl := Option.some.inj opens
      obtain ⟨row, found, idle⟩ := known.idle earlier before id startable fresh
      refine ⟨KeyPool.resettled view call.provider tried id row, ?_,
        KeyPool.idle_resettled idle view tried⟩
      rw [get_selection read, found]
      rfl

/-- The state of the loop with a key selected: it is enabled and was not refused yet. -/
structure PoolSelected (call : Call) (start : Store) (left : Nat) (progress : Progress R)
    (key : KeyObject) (events : Exchange R) : Prop where
  head : PoolHead call start left progress events
  fresh : key.id ∉ progress.triedKeyIds
  opened : opening events ≠ none
  enabled : undecrypted events = [] → ∀ last, Follows Store.moves start events last →
    HasRow last.keys call.provider false key.id

theorem PoolSelected.aside {key : KeyObject} {event : Event (Op R) (Reply R)}
    (selected : PoolSelected call start left progress key history) (aside : Aside event) :
    PoolSelected call start left progress key (history ++ [event]) := by
  obtain ⟨_, _, decrypted, unread, still⟩ := aside_event aside
  refine ⟨selected.head.aside aside, selected.fresh, ?_, ?_⟩
  · rw [opening_append, opening, opening, List.findSome?_singleton, unread, Option.or_none]
    exact selected.opened
  · intro none last follows
    rw [undecrypted_append, decrypted, List.append_nil] at none
    obtain ⟨middle, first, moved⟩ := follows_single.mp follows
    obtain rfl := still middle last moved
    exact selected.enabled none _ first

theorem readPool_effects (history : Exchange R) (provider : String) (exclude : List Nat)
    (view : PoolView R) :
    refusals (history ++ [⟨.readPool provider exclude, some view⟩]) = refusals history ∧
      undecrypted (history ++ [⟨.readPool provider exclude, some view⟩]) = undecrypted history ∧
      opening (history ++ [⟨.readPool provider exclude, some view⟩]) =
        (opening history).or (some view) := by
  rw [refusals_append, undecrypted_append, opening_append]
  exact ⟨List.append_nil _, List.append_nil _, rfl⟩

theorem selection_effects (history : Exchange R) (batch : Commit) (reply : Bool)
    (site : batch.site = .reactivate) :
    refusals (history ++ [⟨.commit batch, reply⟩]) = refusals history ∧
      undecrypted (history ++ [⟨.commit batch, reply⟩]) = undecrypted history ∧
      opening (history ++ [⟨.commit batch, reply⟩]) = opening history := by
  obtain ⟨_, keys, client⟩ := batch
  subst site
  rw [refusals_append, undecrypted_append, opening_append]
  refine ⟨List.append_nil _, List.append_nil _, ?_⟩
  exact Option.or_none

theorem asides_effects (history between : Exchange R) (asides : ∀ event ∈ between, Aside event) :
    refusals (history ++ between) = refusals history ∧
      undecrypted (history ++ between) = undecrypted history ∧
      opening (history ++ between) = opening history ∧
      ∀ start last, Follows Store.moves start (history ++ between) last →
        Follows Store.moves start history last := by
  induction between generalizing history with
  | nil =>
    rw [List.append_nil]
    exact ⟨rfl, rfl, rfl, fun _ _ follows => follows⟩
  | cons event between ih =>
    obtain ⟨_, refused, decrypted, unread, still⟩ := aside_event (asides event List.mem_cons_self)
    have rest := ih (history ++ [event])
      fun other member => asides other (List.mem_cons_of_mem _ member)
    rw [List.append_assoc, List.singleton_append] at rest
    obtain ⟨sameRefused, sameDecrypted, sameOpening, moves⟩ := rest
    refine ⟨?_, ?_, ?_, ?_⟩
    · rw [sameRefused, refusals_append, refused, List.append_nil]
    · rw [sameDecrypted, undecrypted_append, decrypted, List.append_nil]
    · rw [sameOpening, opening_append, opening, opening, List.findSome?_singleton, unread,
        Option.or_none]
    · intro start last follows
      obtain ⟨middle, first, moved⟩ := follows_single.mp (moves start last follows)
      rw [still middle last moved]
      exact first

/-- What a selection does to the state of the loop: it reads the pool, notes what it has
seen, and commits. -/
theorem PoolHead.select {view : PoolView R} {selected : KeyPool.SelectedKey R}
    {between : Exchange R} (head : PoolHead call start left progress history)
    (decided : KeyPool.decision view (KeyPool.weights setup.config setup.runtime) call.provider
      progress.triedKeyIds = .ok selected)
    (asides : ∀ event ∈ between, Aside event) :
    PoolSelected call start left progress selected.apiKey
      (history ++ [⟨.readPool call.provider progress.triedKeyIds, some view⟩] ++ between ++
        [⟨.commit (selection setup call view progress.triedKeyIds), true⟩]) := by
  obtain ⟨_, key, listed, chosen, eligible⟩ := KeyPool.decision_eligible decided
  obtain ⟨found, current, provided⟩ := KeyPool.mem_providerKeys.mp listed
  have id : selected.apiKey.id = key.id := by rw [chosen, KeyPool.id_settled]
  obtain ⟨readRefused, readDecrypted, readOpening⟩ :=
    readPool_effects history call.provider progress.triedKeyIds view
  obtain ⟨asideRefused, asideDecrypted, asideOpening, still⟩ := asides_effects
    (history ++ [⟨.readPool call.provider progress.triedKeyIds, some view⟩]) between asides
  obtain ⟨refused, decrypted, opens⟩ := selection_effects
    (history ++ [⟨.readPool call.provider progress.triedKeyIds, some view⟩] ++ between)
    (selection setup call view progress.triedKeyIds) true rfl
  rw [asideRefused, readRefused] at refused
  rw [asideDecrypted, readDecrypted] at decrypted
  rw [asideOpening, readOpening] at opens
  have opened : opening (history ++ [⟨.readPool call.provider progress.triedKeyIds, some view⟩] ++
      between ++ [⟨.commit (selection setup call view progress.triedKeyIds), true⟩]) ≠ none := by
    rw [opens]
    cases opening history <;> simp
  have ends : ∀ last, Follows Store.moves start (history ++
      [⟨.readPool call.provider progress.triedKeyIds, some view⟩] ++ between ++
        [⟨.commit (selection setup call view progress.triedKeyIds), true⟩]) last →
      ∃ middle, Follows Store.moves start history middle ∧ view.keys = middle.keys ∧
        last = middle.apply (selection setup call view progress.triedKeyIds) := by
    intro last whole
    obtain ⟨after, follows, ⟨_, _, rfl⟩ | ⟨failed, _⟩⟩ := follows_single.mp whole
    · obtain ⟨middle, first, rfl, read⟩ := follows_single.mp (still _ _ follows)
      exact ⟨after, first, read view rfl, rfl⟩
    · cases failed
  refine ⟨⟨head.attempts, head.response, ?_, head.distinct, head.counted, ?_, ?_, ?_⟩, ?_,
    opened, ?_⟩
  · rw [refused]
    exact head.refused
  · rw [decrypted]
    exact head.flagged
  · exact fun none => absurd none opened
  · intro last whole
    obtain ⟨middle, follows, read, rfl⟩ := ends last whole
    exact (head.known middle follows).select read head.opened decrypted opens
  · rw [id]
    exact eligible.kept
  · intro _ last whole
    obtain ⟨middle, follows, read, rfl⟩ := ends last whole
    obtain ⟨provider, disabled, _⟩ :=
      KeyPool.resettled_frame view call.provider progress.triedKeyIds key.id key.loaded
    refine ⟨KeyPool.resettled view call.provider progress.triedKeyIds key.id key.loaded, ?_,
      provider.trans provided, disabled.trans ?_⟩
    · rw [id, get_selection read, ← read, found]
      rfl
    · rw [← current]
      exact eligible.enabled

theorem hasRow_iff {keys : Table KeyColumns} {provider : String} {disabled : Bool} {id : Nat} :
    HasRow keys provider disabled id ↔ ∃ key ∈ KeyPool.providerKeys keys provider,
      key.id = id ∧ KeyPool.isDisabled key.current = disabled := by
  constructor
  · rintro ⟨row, found, provided, same⟩
    exact ⟨.fresh id row, KeyPool.mem_providerKeys.mpr ⟨found, rfl, provided⟩, rfl, same⟩
  · rintro ⟨key, listed, rfl, same⟩
    obtain ⟨found, current, provided⟩ := KeyPool.mem_providerKeys.mp listed
    exact ⟨key.loaded, found, provided, current ▸ same⟩

/-- A selection says that all keys are disabled when the provider's rows are exhausted. -/
theorem exhausted_iff {view : PoolView R} {weight : KeyPool.Weights R} {provider : String}
    {exclude refused : List Nat} {error : FcamError}
    (decided : KeyPool.decision view weight provider exclude = .error error)
    (same : ∀ id, id ∈ refused ↔ id ∈ exclude) :
    error.code = "ALL_KEYS_DISABLED" ↔ Exhausted view.keys provider refused := by
  rw [KeyPool.decision_disabled_iff decided, Exhausted]
  refine and_congr ?_ (or_congr ?_ (and_congr ?_ ?_))
  · constructor
    · intro some
      obtain ⟨key, listed⟩ := List.exists_mem_of_ne_nil _ some
      exact ⟨key.id, _, hasRow_iff.mpr ⟨key, listed, rfl, rfl⟩⟩
    · rintro ⟨id, disabled, has⟩
      obtain ⟨key, listed, _⟩ := hasRow_iff.mp has
      exact List.ne_nil_of_mem listed
  · constructor
    · intro all id has
      obtain ⟨key, listed, _, enabled⟩ := hasRow_iff.mp has
      rw [all key listed] at enabled
      cases enabled
    · intro none key listed
      by_contra enabled
      exact none key.id (hasRow_iff.mpr ⟨key, listed, rfl, Bool.eq_false_of_not_eq_true enabled⟩)
  · constructor
    · intro all id has
      obtain ⟨key, listed, rfl, enabled⟩ := hasRow_iff.mp has
      rcases all key listed with excluded | disabled
      · exact (same key.id).mpr excluded
      · rw [enabled] at disabled
        cases disabled
    · intro all key listed
      by_cases disabled : KeyPool.isDisabled key.current = true
      · exact .inr disabled
      · refine .inl ((same key.id).mp (all key.id (hasRow_iff.mpr ⟨key, listed, rfl, ?_⟩)))
        exact Bool.eq_false_of_not_eq_true disabled
  · constructor
    · rintro ⟨key, listed, kept, disabled⟩
      refine ⟨key.id, hasRow_iff.mpr ⟨key, listed, rfl, disabled⟩, ?_⟩
      exact fun refused => kept ((same key.id).mp refused)
    · rintro ⟨id, has, kept⟩
      obtain ⟨key, listed, rfl, disabled⟩ := hasRow_iff.mp has
      exact ⟨key, listed, fun excluded => kept ((same key.id).mpr excluded), disabled⟩

/-- What a selection does when its questions are served. -/
theorem wp_servedSelect {post : Except Exn (Except KeyPool.Unselected (KeyPool.SelectedKey R)) →
      Exchange R → Prop}
    (exclude : List Nat) (lenient : Lenient post)
    (failed : ∀ view failures unselected,
      KeyPool.decision view (KeyPool.weights setup.config setup.runtime) call.provider exclude =
        .error unselected.error →
      post (.ok (.error unselected)) (history ++ [⟨.readPool call.provider exclude, some view⟩,
        ⟨.keepFailures failures, ()⟩]))
    (chosen : ∀ view selected between,
      KeyPool.decision view (KeyPool.weights setup.config setup.runtime) call.provider exclude =
        .ok selected → (∀ event ∈ between, Aside event) →
      post (.ok (.ok { selected with apiKey := selected.apiKey.saved }))
        (history ++ [⟨.readPool call.provider exclude, some view⟩] ++ between ++
          [⟨.commit (selection setup call view exclude), true⟩])) :
    (KeyPool.select setup.config setup.runtime call.provider exclude).wp seen post history := by
  have commit (view : PoolView R) (selected : KeyPool.SelectedKey R) (events between : Exchange R)
      (whole : history ++ [⟨.readPool call.provider exclude, some view⟩] ++ between = events)
      (decided : KeyPool.decision view (KeyPool.weights setup.config setup.runtime) call.provider
        exclude = .ok selected) (asides : ∀ event ∈ between, Aside event) :
      ((query (.commit (selection setup call view exclude))).bind fun ok => if ok = true then
            (done (.ok { selected with apiKey := selected.apiKey.saved }) :
              Gateway R (Except KeyPool.Unselected (KeyPool.SelectedKey R)))
          else (rollback selected.apiKey).bind fun _ => done (.error { error := dbUnavailable })).wp
        seen post events := by
    refine (wp_query _ _).mpr fun ok => ?_
    rw [← whole]
    cases ok with
    | true => exact chosen view selected between decided asides
    | false =>
      apply wp_hopeless _ lenient
      apply unserved_hopeless
      intro served
      cases served
  refine (wp_query _ _).mpr fun reply => ?_
  cases reply with
  | none =>
    apply wp_hopeless _ lenient
    apply unserved_hopeless
    exact fun served => served rfl
  | some view =>
    refine (wp_query _ _).mpr fun kept => ?_
    rw [List.append_assoc]
    dsimp only
    split
    · rename_i decided
      exact failed view _ _ decided
    · rename_i selected decided
      split
      · refine (wp_query _ _).mpr fun moved => ?_
        refine commit view selected _
          [⟨.keepFailures _, kept⟩, ⟨.keepCursor call.provider _, moved⟩] ?_ decided ?_
        · simp only [List.append_assoc, List.cons_append, List.nil_append]
        · simp [Aside]
      · exact commit view selected _ [⟨.keepFailures _, kept⟩] (List.append_assoc _ _ _) decided
          (by simp [Aside])

/-- The selected key is refused: one key more is tried. -/
theorem PoolSelected.refuse {next : Progress R} {key : KeyObject} {event : Event (Op R) (Reply R)}
    (selected : PoolSelected call start (left + 1) progress key history)
    (attempts : next.upstreamAttempts = progress.upstreamAttempts)
    (response : next.lastErrorResponse = progress.lastErrorResponse)
    (tried : next.triedKeyIds = key.id :: progress.triedKeyIds)
    (refused : refusedKey event = some key.id) (unread : readView event = none)
    (flagged : next.decryptFailedSeen = true ↔ undecrypted (history ++ [event]) ≠ [])
    (known : ∀ middle last, Follows Store.moves start history middle →
      Store.moves middle event last →
      Known start call.provider next.triedKeyIds (history ++ [event]) last) :
    PoolHead call start left next (history ++ [event]) := by
  have opens : opening (history ++ [event]) = opening history := by
    rw [opening_append, opening, opening, List.findSome?_singleton, unread, Option.or_none]
  refine ⟨attempts.trans selected.head.attempts, response.trans selected.head.response, ?_, ?_, ?_,
    flagged, ?_, ?_⟩
  · rw [refusals_append, selected.head.refused, tried, List.reverse_cons, refusals,
      List.filterMap_cons_some refused, List.filterMap_nil]
  · rw [tried]
    exact List.nodup_cons.mpr ⟨selected.fresh, selected.head.distinct⟩
  · have counted := selected.head.counted
    rw [tried, List.length_cons]
    omega
  · rw [opens]
    exact fun none => absurd none selected.opened
  · intro last follows
    obtain ⟨middle, first, moved⟩ := follows_single.mp follows
    exact known middle last first moved

/-- A refusal of the limiter or the concurrency manager changes no row. -/
theorem PoolSelected.hold {next : Progress R} {key : KeyObject} {event : Event (Op R) (Reply R)}
    (selected : PoolSelected call start (left + 1) progress key history)
    (attempts : next.upstreamAttempts = progress.upstreamAttempts)
    (response : next.lastErrorResponse = progress.lastErrorResponse)
    (flagged : next.decryptFailedSeen = progress.decryptFailedSeen)
    (tried : next.triedKeyIds = key.id :: progress.triedKeyIds)
    (refused : refusedKey event = some key.id) (unread : readView event = none)
    (decrypted : undecrypted [event] = [])
    (still : ∀ first last, Store.moves first event last → last = first) :
    PoolHead call start left next (history ++ [event]) := by
  have noted : undecrypted (history ++ [event]) = undecrypted history := by
    rw [undecrypted_append, decrypted, List.append_nil]
  refine selected.refuse attempts response tried refused unread ?_ ?_
  · rw [noted, flagged]
    exact selected.head.flagged
  · intro middle last follows moved
    obtain rfl := still middle last moved
    have known := selected.head.known _ follows
    have opens : opening (history ++ [event]) = opening history := by
      rw [opening_append, opening, opening, List.findSome?_singleton, unread, Option.or_none]
    refine ⟨?_, ?_, ?_⟩
    · rw [noted]
      exact known.alike
    · intro none id member
      rw [noted] at none
      rw [tried] at member
      rcases List.mem_cons.mp member with rfl | earlier
      · exact selected.enabled none _ follows
      · exact known.awake none id earlier
    · intro view opened id startable fresh
      rw [opens] at opened
      rw [tried] at fresh
      exact known.idle view opened id startable fun earlier =>
        fresh (List.mem_cons_of_mem _ earlier)

/-- A key that does not decrypt is disabled, and no other row is changed. -/
theorem PoolSelected.undecryptable {next : Progress R} {key : KeyObject}
    {change : KeyColumns → KeyColumns}
    (selected : PoolSelected call start (left + 1) progress key history)
    (attempts : next.upstreamAttempts = progress.upstreamAttempts)
    (response : next.lastErrorResponse = progress.lastErrorResponse)
    (flagged : next.decryptFailedSeen = true)
    (tried : next.triedKeyIds = key.id :: progress.triedKeyIds) :
    PoolHead call start left next
      (history ++ [⟨.commit { site := .decryptFailed, keys := [key.assign change] }, true⟩]) := by
  have noted : undecrypted (history ++
      [⟨.commit { site := .decryptFailed, keys := [key.assign change] }, true⟩]) ≠ [] := by
    rw [undecrypted_append]
    exact List.append_ne_nil_of_right_ne_nil _ (List.cons_ne_nil _ _)
  refine selected.refuse attempts response tried rfl rfl (iff_of_true flagged noted) ?_
  rintro middle last follows (⟨_, _, rfl⟩ | ⟨failed, _⟩)
  · have known := selected.head.known _ follows
    refine ⟨fun none => absurd none noted, fun none => absurd none noted, ?_⟩
    intro view opened id startable fresh
    rw [tried] at fresh
    rw [opening_append] at opened
    replace opened : (opening history).or none = some view := opened
    rw [Option.or_none] at opened
    have other : id ≠ key.id := fun same => fresh (same ▸ List.mem_cons_self)
    obtain ⟨row, found, idle⟩ := known.idle view opened id startable fun earlier =>
      fresh (List.mem_cons_of_mem _ earlier)
    refine ⟨row, ?_, idle⟩
    rw [← found]
    exact Store.get_flushKey_other other
  · cases failed

/-- How a turn of the pool loop ends that sent no request. -/
def TurnGives (setup : Setup R) (call : Call) (start : Store) (left : Nat) :
    Except Exn (Turn (ForwardResult R) (Progress R)) → Exchange R → Prop
  | .error error, events => ∀ last, Follows Store.moves start events last →
      ∃ refusal, error = .fcam refusal ∧ GivesUp setup call start events last refusal
  | .ok (.leave _), _ => True
  | .ok (.again next), events => PoolHead call start left next events

theorem wp_hopefulRequest {post : Except Exn (Option UpstreamResponse) → Exchange R → Prop}
    (masterKey : Bytes) (key : KeyObject) (lenient : Lenient post)
    (undecryptable : ∀ change released, post (.ok none) (history ++
      [⟨.commit { site := .decryptFailed, keys := [key.assign change] }, true⟩] ++
        [⟨.release key.id, released⟩])) :
    (poolRequest setup call masterKey key).wp seen post history := by
  refine (wp_ensuring _).mpr ?_
  have later : Lenient fun (outcome : Except Exn (Option UpstreamResponse)) events =>
      ((query (R := R) (.release key.id)).bind fun _ => leaf outcome).wp seen post events :=
    fun outcome events hopeless => wp_hopeless _ lenient hopeless
  split
  · refine (wp_query _ _).mpr fun reply => ?_
    cases reply with
    | true => exact (wp_query _ _).mpr fun released => undecryptable _ released
    | false =>
      apply wp_hopeless _ later
      apply unserved_hopeless
      intro served
      cases served
  · refine (wp_bind _).mpr ((wp_query _ _).mpr fun reply => ?_)
    apply wp_hopeless _ (lenient_then _ later)
    intro hopeful
    have sent := hopeful.1
    rw [sends_requested] at sent
    exact List.append_ne_nil_of_right_ne_nil _ (List.cons_ne_nil _ _) sent

theorem wp_selectedRefusal (masterKey : Bytes) {key : KeyObject}
    (selected : PoolSelected call start (left + 1) progress key history) :
    (selectedTurn setup call masterKey progress key).wp seen
      (fun outcome events => Hopeful events → TurnGives setup call start left outcome events)
      history := by
  have lenient := lenient_hopeful (TurnGives setup call start left)
  refine (wp_query _ _).mpr fun allowed => ?_
  rcases allowed with _ | ⟨_ | _, wait⟩
  · intro hopeful
    exact absurd hopeful (unserved_hopeless fun served => served rfl)
  · exact fun _ => selected.hold rfl rfl rfl rfl rfl rfl rfl fun _ _ moved => moved
  replace selected := selected.aside
    (show Aside ⟨.allow key.id key.current.rateLimitPerMin, some (true, wait)⟩ from trivial)
  refine (wp_query _ _).mpr fun granted => ?_
  rcases granted with _ | _ | _
  · intro hopeful
    exact absurd hopeful (unserved_hopeless fun served => served rfl)
  · exact fun _ => selected.hold rfl rfl rfl rfl rfl rfl rfl fun _ _ moved => moved
  replace selected := selected.aside
    (show Aside ⟨.acquire key.id key.current.maxConcurrent, some true⟩ from trivial)
  refine (wp_bind _).mpr (wp_hopefulRequest masterKey key (lenient_then _ lenient) ?_)
  intro change released _
  refine PoolHead.aside (selected.undecryptable ?_ ?_ ?_ ?_) trivial
  · rfl
  · rfl
  · rfl
  · rfl

/-- A selection without a key leaves no row of the first reading that was not refused, or that
the limiter did not hold back in this reading. -/
theorem PoolHead.unselected {view : PoolView R} {failures : List (Nat × Option (R × R))}
    {error refusal : FcamError} (head : PoolHead call start (left + 1) progress history)
    (decided : KeyPool.decision view (KeyPool.weights setup.config setup.runtime) call.provider
      progress.triedKeyIds = .error error)
    (code : refusal.code = "ALL_KEYS_DISABLED" ↔
      progress.decryptFailedSeen = false ∧ error.code = "ALL_KEYS_DISABLED")
    (follows : Follows Store.moves start (history ++
      [⟨.readPool call.provider progress.triedKeyIds, some view⟩, ⟨.keepFailures failures, ()⟩])
      last) :
    GivesUp setup call start (history ++
      [⟨.readPool call.provider progress.triedKeyIds, some view⟩, ⟨.keepFailures failures, ()⟩])
      last refusal := by
  rw [List.append_cons] at follows ⊢
  obtain ⟨_, follows, rfl⟩ := follows_single.mp follows
  obtain ⟨_, follows, rfl, read⟩ := follows_single.mp follows
  have read : view.keys = last.keys := read view rfl
  have known := head.known _ follows
  obtain ⟨readRefused, readDecrypted, readOpening⟩ :=
    readPool_effects history call.provider progress.triedKeyIds view
  obtain ⟨refused, decrypted, opens, _⟩ := asides_effects
    (history ++ [⟨.readPool call.provider progress.triedKeyIds, some view⟩])
    [⟨.keepFailures failures, ()⟩] (by simp [Aside])
  rw [readRefused, head.refused] at refused
  rw [readDecrypted] at decrypted
  rw [readOpening] at opens
  have counted := head.counted
  refine .unselected ?_ ?_ ?_ ?_ ?_ ?_
  · rw [refused]
    exact List.nodup_reverse.mpr head.distinct
  · rw [refused, List.length_reverse]
    omega
  · rw [opens, refused]
    refine ⟨(opening history).getD view, Option.or_some, ?_⟩
    intro id startable
    rw [List.mem_reverse]
    by_cases tried : id ∈ progress.triedKeyIds
    · exact .inl tried
    refine .inr ?_
    cases before : opening history with
    | none =>
      rw [before] at startable
      obtain ⟨row, found, provided, eligible⟩ := startable
      rw [head.opened before] at decided
      have listed : .fresh id row ∈ KeyPool.providerKeys view.keys call.provider :=
        KeyPool.mem_providerKeys.mpr ⟨found, rfl, provided⟩
      exact absurd eligible (KeyPool.decision_error_candidates decided listed)
    | some earlier =>
      rw [before] at startable
      obtain ⟨row, found, idle⟩ := known.idle earlier before id startable tried
      rw [← read] at found
      have listed : .fresh id row ∈ KeyPool.providerKeys view.keys call.provider :=
        KeyPool.mem_providerKeys.mpr ⟨found, rfl, idle.provided⟩
      refine ⟨call.provider, progress.triedKeyIds, view, row, ?_, found, ?_⟩
      · exact List.mem_append_left _ (List.mem_append_right _ (List.mem_singleton_self _))
      · by_contra allowed
        have warm : ¬ KeyPool.isCooling row = true := by simp [idle.rested]
        exact KeyPool.decision_error_candidates decided listed
          ⟨tried, idle.enabled, fun cooling => absurd cooling warm, idle.funded,
            Bool.eq_true_of_not_eq_false allowed⟩
  · have exhausted := exhausted_iff decided
      (fun id => (List.mem_reverse : id ∈ progress.triedKeyIds.reverse ↔ _))
    rw [code, exhausted, refused, decrypted, read]
    refine and_congr_left fun _ => ?_
    have flagged := head.flagged
    constructor
    · intro unseen
      by_contra some
      rw [flagged.mpr some] at unseen
      cases unseen
    · intro none
      by_contra seen
      exact flagged.mp (Bool.eq_true_of_not_eq_false seen) none
  · rw [decrypted]
    exact known.alike
  · rw [decrypted, refused]
    exact fun none id member => known.awake none id (List.mem_reverse.mp member)

theorem wp_poolTurnRefusal (masterKey : Bytes)
    (head : PoolHead call start (left + 1) progress history) :
    (poolTurn setup call masterKey progress).wp seen
      (fun outcome events => Hopeful events → TurnGives setup call start left outcome events)
      history := by
  have lenient := lenient_hopeful (TurnGives (R := R) setup call start left)
  refine (wp_bind _).mpr (wp_servedSelect _ (lenient_then _ lenient) ?_ ?_)
  · intro view failures unselected decided
    have gives (refusal : FcamError) (code : refusal.code = "ALL_KEYS_DISABLED" ↔
        progress.decryptFailedSeen = false ∧ unselected.error.code = "ALL_KEYS_DISABLED") :
        TurnGives setup call start left (.error (.fcam refusal)) (history ++
          [⟨.readPool call.provider progress.triedKeyIds, some view⟩,
            ⟨.keepFailures failures, ()⟩]) :=
      fun last follows => ⟨refusal, rfl, head.unselected decided code follows⟩
    simp only [thenPost, head.response]
    split
    · rename_i flagged
      rw [Bool.and_eq_true] at flagged
      refine fun _ => gives keyDecryptFailed (iff_of_false (by decide) ?_)
      rintro ⟨unseen, _⟩
      rw [flagged.1] at unseen
      cases unseen
    · rename_i unflagged
      refine fun _ => gives unselected.error ⟨fun code => ⟨?_, code⟩, And.right⟩
      by_contra seen
      exact unflagged (by simp [Bool.eq_true_of_not_eq_false seen, code])
  · intro view selected between decided asides
    have going := head.select decided asides
    refine wp_selectedRefusal masterKey ⟨⟨going.head.attempts, going.head.response,
      going.head.refused, going.head.distinct, going.head.counted, going.head.flagged,
      going.head.opened, going.head.known⟩, going.fresh, going.opened, going.enabled⟩

/-- A pool loop that ends with an error and without a request tells how it gave up. -/
theorem wp_poolLoopRefusal (masterKey : Bytes) (head : PoolHead call start left progress history) :
    (poolLoop setup call masterKey left progress).wp seen (fun outcome events =>
      Hopeful events → ∀ error, outcome = .error error →
        ∀ last, Follows Store.moves start events last →
          ∃ refusal, error = .fcam refusal ∧ GivesUp setup call start events last refusal)
      history := by
  induction left generalizing history progress with
  | zero =>
    unfold poolLoop afterPool
    rw [if_pos head.attempts]
    rintro _ _ ⟨⟩ last _
    refine ⟨_, rfl, .busy ?_ ?_⟩
    · rw [head.refused]
      exact List.nodup_reverse.mpr head.distinct
    · rw [head.refused, List.length_reverse]
      exact head.counted
  | succ left ih =>
    unfold poolLoop
    rw [if_pos]
    · refine (wp_bind _).mpr (wp_mono ?_ (wp_poolTurnRefusal masterKey head))
      rintro (error | result | next) events gives
      · rintro hopeful _ ⟨⟩
        exact gives hopeful
      · intro _ _ same
        cases same
      · by_cases hopeful : Hopeful events
        · exact ih (gives hopeful)
        · exact wp_hopeless _ (lenient_hopeful _) hopeful
    · rw [head.attempts]
      exact clientRetryBudget_pos _

theorem hasRow_face {keys : Table KeyColumns} {provider : String} {disabled : Bool} {id : Nat} :
    HasRow keys provider disabled id ↔ (keys.get? id).map face = some (provider, disabled) := by
  rw [Option.map_eq_some_iff]
  constructor
  · rintro ⟨row, found, rfl, rfl⟩
    exact ⟨row, found, rfl⟩
  · rintro ⟨row, found, same⟩
    obtain ⟨provided, disabled⟩ := Prod.mk.inj same
    exact ⟨row, found, provided, disabled⟩

theorem Unpinned.head (unpinned : Unpinned call history) (start : Store) :
    PoolHead call start (maxSelectionTries call) ({} : Progress R) history := by
  have quiet : refusals history = [] ∧ undecrypted history = [] ∧ opening history = none ∧
      ∀ last, Follows Store.moves start history last → last = start := by
    rcases unpinned.early with rfl | ⟨id, reply, rfl⟩
    · refine ⟨rfl, rfl, rfl, ?_⟩
      rintro _ ⟨⟩
      rfl
    · refine ⟨rfl, rfl, rfl, ?_⟩
      rintro _ (_ | ⟨⟨rfl, _⟩, ⟨⟩⟩)
      rfl
  obtain ⟨refused, decrypted, opened, still⟩ := quiet
  refine ⟨rfl, rfl, refused, List.nodup_nil, Nat.zero_add _, ?_, fun _ => rfl, ?_⟩
  · rw [decrypted]
    exact iff_of_false Bool.false_ne_true (fun some => some rfl)
  · intro last follows
    obtain rfl := still last follows
    refine ⟨fun _ _ => rfl, fun _ _ => nofun, fun view opens => ?_⟩
    rw [opened] at opens
    cases opens

/-- How a forward that used no pinned key and sent nothing came to its error. -/
theorem forward_gave_up {error : Exn} (ran : (forward setup call).Ran events (.error error))
    (follows : Follows Store.moves start events last) (hopeful : Hopeful events)
    (free : ∀ id, ¬ PinnedTo call id events) :
    ∃ refusal, error = .fcam refusal ∧
      ((¬ Ready setup call ∧ events = [] ∧ refusal.code ≠ "ALL_KEYS_DISABLED") ∨
        (Ready setup call ∧ GivesUp setup call start events last refusal)) := by
  have met : (forward setup call).wp seen (fun outcome events =>
      (∀ id, ¬ PinnedTo call id events) → Hopeful events → ∀ error, outcome = .error error →
        ∀ last, Follows Store.moves start events last → ∃ refusal, error = .fcam refusal ∧
          ((¬ Ready setup call ∧ events = [] ∧ refusal.code ≠ "ALL_KEYS_DISABLED") ∨
            (Ready setup call ∧ GivesUp setup call start events last refusal))) [] := by
    refine wp_forward setup call ?_ ?_ ?_
    · rintro refusal events refused _ hopeful _ ⟨⟩ last _
      refine ⟨refusal, rfl, ?_⟩
      rcases refused.early with ⟨unready, none⟩ | ⟨id, rfl⟩
      · refine .inl ⟨unready, none, fun code => ?_⟩
        have among := refused.code
        rw [code] at among
        exact absurd among (by decide)
      · exact absurd rfl (hopeful.2 _ (List.mem_singleton_self _))
    · exact fun _ _ id pinned _ _ free => absurd pinned (free id)
    · intro masterKey begun ready unpinned
      refine wp_mono ?_ (wp_poolLoopRefusal masterKey (unpinned.head start))
      intro outcome events gives _ hopeful error same last follows
      obtain ⟨refusal, raised, gave⟩ := gives hopeful error same last follows
      exact ⟨refusal, raised, .inr ⟨ready, gave⟩⟩
  exact wp_history ran met free hopeful error rfl last follows

/-- The error says that all keys are disabled only when they are, and every key that a first
selection could have returned was refused. -/
def Truthful (call : Call) (view : PoolView R) (events : Exchange R) (last : Store)
    (error : Exn) : Prop :=
  (∀ refusal, error = .fcam refusal → refusal.code = "ALL_KEYS_DISABLED" →
    ∀ id, ¬ HasRow last.keys call.provider false id) ∧
  ∀ id, Startable view call.provider id → id ∈ refusals events ∨ Gated events id

/-- All enabled rows were refused though they decrypt, within the selections of one call, and
another row is disabled. -/
structure Mislabelled (call : Call) (keys : Table KeyColumns) (events : Exchange R) : Prop where
  enabled : ∃ id, HasRow keys call.provider false id
  refused : ∀ id, HasRow keys call.provider false id → id ∈ refusals events
  disabled : ∃ id, HasRow keys call.provider true id
  decrypted : undecrypted events = []
  fewer : (refusals events).length < maxSelectionTries call

/-- No more keys than a call may select were refused or could be returned. -/
def Within (call : Call) (view : PoolView R) (events : Exchange R) : Prop :=
  ∀ ids : List Nat, ids.Nodup → (∀ id ∈ ids, id ∈ refusals events ∨
    Startable view call.provider id ∧ ¬ Gated events id) → ids.length ≤ maxSelectionTries call

theorem within_iff {view : PoolView R} (distinct : (refusals events).Nodup)
    (most : (refusals events).length ≤ maxSelectionTries call)
    (none : (refusals events).length < maxSelectionTries call → ∀ id,
      Startable view call.provider id → id ∈ refusals events ∨ Gated events id) :
    Within call view events ↔
      ∀ id, Startable view call.provider id → id ∈ refusals events ∨ Gated events id := by
  constructor
  · intro within id startable
    by_contra left
    have fewer : ¬ (refusals events).length < maxSelectionTries call :=
      fun fewer => left (none fewer id startable)
    have longer := within (id :: refusals events)
      (List.nodup_cons.mpr ⟨fun refused => left (.inl refused), distinct⟩) (by
        intro other member
        rcases List.mem_cons.mp member with rfl | refused
        · exact .inr ⟨startable, fun gated => left (.inr gated)⟩
        · exact .inl refused)
    rw [List.length_cons] at longer
    omega
  · intro covered ids unique among
    have listed : ids ⊆ refusals events := by
      intro id member
      rcases among id member with refused | ⟨startable, open_⟩
      · exact refused
      · exact (covered id startable).resolve_right open_
    exact (unique.subperm listed).length_le.trans most

/-- A forward without a pinned key that fails before its first request tells the truth exactly
when no key is left to try by its settings or by the bound on its selections, and its rows are
not mislabelled. -/
theorem refusal_truthful_iff (setup : Setup R) (call : Call) (store last : Store)
    (events : Exchange R) (error : Exn) (view : PoolView R)
    (ran : (forward setup call).Ran events (.error error))
    (follows : Follows Store.moves store events last)
    (served : ∀ event ∈ events, Served event) (free : ∀ id, ¬ PinnedTo call id events)
    (unsent : sends events = []) (read : view.keys = store.keys)
    (first : ∀ other, opening events = some other → other = view) :
    Truthful call view events last error ↔
      (Ready setup call ∨ ∀ id, ¬ Startable view call.provider id) ∧
        Within call view events ∧ ¬ Mislabelled call store.keys events := by
  obtain ⟨refusal, rfl, gave⟩ := forward_gave_up ran follows ⟨unsent, served⟩ free
  rcases gave with ⟨unready, rfl, code⟩ | ⟨ready, gave⟩
  · have unrefused : ¬ Mislabelled call store.keys ([] : Exchange R) := by
      rintro ⟨⟨id, enabled⟩, refused, _⟩
      cases refused id enabled
    have ungated (id : Nat) : ¬ (id ∈ refusals ([] : Exchange R) ∨ Gated ([] : Exchange R) id) := by
      rintro (refused | ⟨_, _, _, _, read, _⟩)
      · cases refused
      · cases read
    constructor
    · rintro ⟨_, covered⟩
      have none : ∀ id, ¬ Startable view call.provider id :=
        fun id startable => ungated id (covered id startable)
      refine ⟨.inr none, fun ids _ among => ?_, unrefused⟩
      have empty : ids = [] := by
        apply List.eq_nil_iff_forall_not_mem.mpr
        intro id member
        rcases among id member with refused | ⟨startable, _⟩
        · cases refused
        · exact none id startable
      rw [empty]
      exact Nat.zero_le _
    · rintro ⟨ready | none, _⟩
      · exact absurd ready unready
      · refine ⟨?_, fun id startable => absurd startable (none id)⟩
        rintro _ ⟨⟩ same
        exact absurd same code
  · rw [and_iff_right (Or.inl ready)]
    cases gave with
    | busy distinct all =>
      have fewer : ¬ (refusals events).length < maxSelectionTries call := by omega
      rw [within_iff distinct all.le fun less => absurd less fewer]
      constructor
      · rintro ⟨_, covered⟩
        exact ⟨covered, fun mislabelled => fewer mislabelled.fewer⟩
      · rintro ⟨covered, _⟩
        refine ⟨?_, covered⟩
        rintro _ ⟨⟩ same
        exact absurd same (of_decide_eq_false rfl)
    | unselected distinct fewer opened code alike awake =>
      obtain ⟨other, opens, covered⟩ := opened
      obtain rfl := first other opens
      have within : Within call other events := (within_iff distinct fewer.le fun _ => covered).mpr
        covered
      rw [and_iff_right within, Truthful, and_iff_left covered]
      have rows (none : undecrypted events = []) (disabled : Bool) (id : Nat) :
          HasRow last.keys call.provider disabled id ↔
            HasRow store.keys call.provider disabled id := by
        rw [hasRow_face, hasRow_face, alike none id]
      constructor
      · rintro honest ⟨⟨id, enabled⟩, refused, ⟨off, disabled⟩, none, _⟩
        rw [← rows none] at enabled disabled
        have unrefused : off ∉ refusals events := by
          intro member
          have awake := awake none off member
          rw [hasRow_face] at awake disabled
          rw [awake] at disabled
          cases disabled
        refine honest refusal rfl (code.mpr ⟨none, ⟨id, _, enabled⟩, .inr ⟨?_, off, disabled,
          unrefused⟩⟩) id enabled
        exact fun other has => refused other ((rows none false other).mp has)
      · rintro labelled _ ⟨⟩ same id enabled
        obtain ⟨none, _, off | ⟨refused, off, disabled, _⟩⟩ := code.mp same
        · exact off id enabled
        · refine labelled ⟨⟨id, (rows none false id).mp enabled⟩, ?_, ⟨off, ?_⟩, none, fewer⟩
          · exact fun other has => refused other ((rows none false other).mpr has)
          · exact (rows none true off).mp disabled

theorem refusingUpstream_honest (full : List Nat) (store : Store) (op : Op ℚ) :
    store.moves ⟨op, (refusingUpstream full store op).1⟩ (refusingUpstream full store op).2 := by
  cases op with
  | request keyId sent => exact rfl
  | allow keyId ratePerMin => exact rfl
  | _ => exact Store.answer_honest 0 store _

/-- A forward over the rows given, with a limiter that has no room for some keys. -/
def refusalRun (config : AppConfig ℚ) (store : Store) (full : List Nat) :
    Exchange ℚ × Except Exn (ForwardResult ℚ) × Store :=
  (forward (plainSetup config) plainCall).execute (refusingUpstream full) store

/-- The code of the error that a run ends with. -/
def errorCode : Except Exn (ForwardResult R) → Option String
  | .error (.fcam refusal) => some refusal.code
  | _ => none

instance (event : Event (Op R) (Reply R)) : Decidable (Served event) := by
  unfold Served
  split <;> infer_instance

/-- The first reading of such a run. -/
def startView (store : Store) : PoolView ℚ :=
  { keys := store.keys, now := 0, storeRemaining := fun _ => none, peek := fun _ _ => none
    failures := fun _ => none, monotonic := fun _ => 0, cursor := 0, roll := 1, draw := 0 }

theorem refusal_ran {config : AppConfig ℚ} {store : Store} {full : List Nat} {code : String}
    (failed : errorCode (refusalRun config store full).2.1 = some code) :
    ∃ refusal, refusal.code = code ∧ (forward (plainSetup config) plainCall).Ran
      (refusalRun config store full).1 (.error (.fcam refusal)) := by
  have ran : (forward (plainSetup config) plainCall).Ran (refusalRun config store full).1
      (refusalRun config store full).2.1 := execute_ran (refusingUpstream full) _ store
  cases ended : (refusalRun config store full).2.1 with
  | ok result => simp [ended, errorCode] at failed
  | error error =>
    rw [ended] at ran failed
    cases error with
    | fcam refusal => exact ⟨refusal, Option.some.inj failed, ran⟩
    | other => cases failed

theorem refusal_follows (config : AppConfig ℚ) (store : Store) (full : List Nat) :
    Follows Store.moves store (refusalRun config store full).1 (refusalRun config store full).2.2 :=
  execute_follows (refusingUpstream_honest full) _ store

/-- The limiter holds back both keys, and the call says that no key is available. -/
theorem busy_keys_truthful : ∃ error,
    Truthful plainCall (startView twoKeys) (refusalRun {} twoKeys [1, 2]).1
      (refusalRun {} twoKeys [1, 2]).2.2 error := by
  have failed : errorCode (refusalRun {} twoKeys [1, 2]).2.1 = some "NO_KEY_AVAILABLE" := by
    decide +kernel
  obtain ⟨refusal, _, ran⟩ := refusal_ran failed
  have opens : opening (refusalRun {} twoKeys [1, 2]).1 = some (startView twoKeys) := rfl
  have row {id : Nat} {row : KeyColumns} (found : twoKeys.keys.get? id = some row) :
      id ∈ [1, 2] ∧ row = {} := by
    obtain ⟨member, same⟩ := Table.get_some.mp found
    exact ⟨member, same.symm⟩
  have refused : refusals (refusalRun {} twoKeys [1, 2]).1 = [1, 2] := by decide +kernel
  refine ⟨_, (refusal_truthful_iff (plainSetup {}) plainCall twoKeys _ _ _ (startView twoKeys) ran
    (refusal_follows {} twoKeys [1, 2]) (by decide +kernel) (fun _ pinned => nomatch pinned.1)
    (by decide +kernel) rfl ?_).mpr ⟨.inl ?_, ?_, ?_⟩⟩
  · intro other read
    exact (Option.some.inj (opens.symm.trans read)).symm
  · exact ⟨nofun, _, rfl⟩
  · intro ids distinct among
    have listed : ids ⊆ [1, 2] := by
      intro id member
      rcases among id member with known | ⟨⟨_, found, _⟩, _⟩
      · exact refused ▸ known
      · exact (row found).1
    have two := (distinct.subperm listed).length_le
    exact two.trans (by decide)
  · rintro ⟨_, _, ⟨id, columns, found, _, off⟩, _⟩
    rw [(row found).2] at off
    exact absurd off (by decide)

/-- One active key, and one that is disabled. -/
def halfDisabled : Store :=
  { twoKeys with keys := twoKeys.keys.modify 2 fun row => { row with isActive := false } }

/-- The limiter has no room for the active key, the other one is disabled, and the call says
that all keys are disabled. -/
theorem busy_key_said_disabled :
    ¬ ∀ store last events error view,
      (forward (plainSetup {}) plainCall).Ran events (.error error) →
      Follows Store.moves store events last → (∀ event ∈ events, Served event) →
      (∀ id, ¬ PinnedTo plainCall id events) → sends events = [] → view.keys = store.keys →
      (∀ other, opening events = some other → other = view) →
        Truthful plainCall view events last error := by
  intro truthful
  have failed : errorCode (refusalRun {} halfDisabled [1]).2.1 = some "ALL_KEYS_DISABLED" := by
    decide +kernel
  obtain ⟨refusal, code, ran⟩ := refusal_ran failed
  have opens : opening (refusalRun {} halfDisabled [1]).1 = some (startView halfDisabled) := rfl
  have honest := (truthful halfDisabled _ _ _ (startView halfDisabled) ran
    (refusal_follows {} halfDisabled [1]) (by decide +kernel) (fun _ pinned => nomatch pinned.1)
    (by decide +kernel) rfl fun other read => (Option.some.inj (opens.symm.trans read)).symm).1
  have enabled : ((refusalRun {} halfDisabled [1]).2.2.keys.get? 1).map face =
      some ("firecrawl", false) := by decide +kernel
  exact honest refusal rfl code 1 (hasRow_face.mpr enabled)

end FcamGateway.Forwarder
