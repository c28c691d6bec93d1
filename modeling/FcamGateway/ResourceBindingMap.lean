import FcamGateway.ResourceBinding

/-! The map that the table of bindings stands for: a resource has the key of the first bind since
none for it was unexpired. The table keeps the map as long as no two resources share their columns,
no bind meets its own row expired and no bind mixes an expiry with none. -/
namespace FcamGateway.ResourceBinding
open Prog Bindings

/-- The key of a resource, and how long it is. -/
structure Binding where
  apiKeyId : Nat
  expiresAt : Option Instant
deriving DecidableEq

/-- A binding lasts through the instant of its expiry. -/
def Binding.live (binding : Binding) (now : Instant) : Bool := binding.expiresAt.all (now ≤ ·)

abbrev BindingMap := Resource → Option Binding

namespace BindingMap

/-- The unexpired binding of a resource. -/
def live (map : BindingMap) (now : Instant) (resource : Resource) : Option Binding :=
  (map resource).filter (·.live now)

def lookup (map : BindingMap) (now : Instant) (resource : Resource) : Option Nat :=
  (map.live now resource).map Binding.apiKeyId

/-- The later of two expiries; a binding without one lasts for ever. -/
def later : Option Instant → Option Instant → Option Instant
  | some one, some two => some (max one two)
  | _, _ => none

/-- The first bind while none is unexpired makes the binding. Until that expires, a bind with its
key lengthens it and a bind with another key changes nothing. -/
def rebound (apiKeyId : Nat) (expiresAt : Option Instant) : Option Binding → Binding
  | none => { apiKeyId, expiresAt }
  | some binding =>
    if binding.apiKeyId = apiKeyId then
      { binding with expiresAt := later binding.expiresAt expiresAt }
    else binding

def bind (map : BindingMap) (now : Instant) (resource : Resource) (apiKeyId : Nat)
    (expiresAt : Option Instant) : BindingMap :=
  Function.update map resource (some (rebound apiKeyId expiresAt (map.live now resource)))

end BindingMap

inductive Call where
  | bind (call : BindCall)
  | lookup (query : Query)

def Call.query : Call → Query
  | .bind call => call.toQuery
  | .lookup query => query

def Call.program : Call → Access (Option Nat)
  | .bind call => do
    bindResource call
    return none
  | .lookup query => lookupBoundKeyId query

/-- A call at an instant, and how it ended. -/
structure Step where
  now : Instant
  call : Call
  outcome : Except Exn (Option Nat)

/-- The table, with the resource whose bind inserted each row, which no column holds. -/
structure Traced where
  bindings : Bindings
  origin : Resource → Resource

/-- The resources of the rows after a call. -/
def Traced.noted (before : Traced) : Call → Resource → Resource
  | .bind call =>
    if before.bindings.held call.resource.columns = none then
      Function.update before.origin call.resource.columns call.resource
    else before.origin
  | .lookup _ => before.origin

/-- One call takes the table on. -/
structure Took (before : Traced) (step : Step) (events : List (Event Op Reply)) (after : Traced) :
    Prop where
  ran : step.call.program.Ran events step.outcome
  followed : Follows (moves step.now) before.bindings events after.bindings
  noted : after.origin = before.noted step.call

/-- Calls one after the other, each allowed where it starts. -/
inductive Sequential (allowed : Traced → Step → Prop) : Traced → List Step → Traced → Prop where
  | nil : Sequential allowed state [] state
  | cons (allows : allowed before step) (took : Took before step events middle)
      (rest : Sequential allowed middle steps last) : Sequential allowed before (step :: steps) last

def start : Traced := ⟨.empty, id⟩

/-- Time does not go back. -/
def Ordered (steps : List Step) : Prop := (steps.map Step.now).Pairwise (· ≤ ·)

/-- A call on the map. A bind whose expiry overflows raises and binds nothing. -/
def BindingMap.step (map : BindingMap) (step : Step) : BindingMap :=
  match step.call with
  | .lookup _ => map
  | .bind call =>
    if call.rid = "" then map
    else
      match expiry step.now call.ttlSeconds with
      | none => map
      | some expiresAt => map.bind step.now call.resource call.apiKeyId expiresAt

/-- A lookup replies what the map says. -/
def Answered (map : BindingMap) (step : Step) : Prop :=
  ∀ query, step.call = .lookup query → step.outcome = .ok (map.lookup step.now query.resource)

/-- Every lookup replies what the map says after the calls before it. -/
def Faithful (steps : List Step) : Prop :=
  ∀ front step back, steps = front ++ step :: back →
    Answered (front.foldl BindingMap.step fun _ => none) step

/-- What a row says of its resource. -/
def BindingColumns.binding (row : BindingColumns) : Binding := ⟨row.apiKeyId, row.expiresAt⟩

/-- A lookup meets no unexpired row of another resource. -/
def LookupClear (state : Traced) (now : Instant) (query : Query) : Prop :=
  ∀ row, state.bindings.held query.resource.columns = some row → row.binding.live now = true →
    state.origin query.resource.columns = query.resource

/-- A bind meets no row of another resource, and no expired row unless it has the row's key and an
expiry; with the key of an unexpired row it has an expiry exactly if the row has one. -/
def BindClear (state : Traced) (now : Instant) (call : BindCall) : Prop :=
  ∀ row, state.bindings.held call.resource.columns = some row →
    ∀ expiresAt, expiry now call.ttlSeconds = some expiresAt →
      state.origin call.resource.columns = call.resource ∧
        if row.binding.live now then
          row.apiKeyId = call.apiKeyId → (row.expiresAt = none ↔ expiresAt = none)
        else row.apiKeyId = call.apiKeyId ∧ expiresAt ≠ none

def Clear (state : Traced) (step : Step) : Prop :=
  match step.call with
  | .lookup query => LookupClear state step.now query
  | .bind call => BindClear state step.now call

/-- The table stands for the map from the instant on. -/
structure Agrees (now : Instant) (state : Traced) (map : BindingMap) : Prop where
  kept : ∀ resource binding, map.live now resource = some binding →
    ∃ row, state.bindings.held resource.columns = some row ∧ row.binding = binding ∧
      state.origin resource.columns = resource
  backed : ∀ columns row, state.bindings.held columns = some row → row.binding.live now = true →
    (state.origin columns).columns = columns ∧ map (state.origin columns) = some row.binding
  named : ∀ resource, map resource ≠ none → resource.resourceId ≠ ""

variable {now later : Instant} {state after : Traced} {map : BindingMap} {resource : Resource}
  {binding : Binding} {step : Step} {query : Query} {call : BindCall} {row : BindingColumns}

theorem live_before (notLater : now ≤ later) (lives : binding.live later = true) :
    binding.live now = true := by
  unfold Binding.live at lives ⊢
  cases expires : binding.expiresAt with
  | none => rfl
  | some expiresAt =>
    rw [expires] at lives
    exact decide_eq_true (notLater.trans (of_decide_eq_true lives))

theorem live_some : map.live now resource = some binding ↔
    map resource = some binding ∧ binding.live now = true := Option.filter_eq_some_iff

/-- The map that the table stands for stays so as time goes on. -/
theorem Agrees.mono (agrees : Agrees now state map) (notLater : now ≤ later) :
    Agrees later state map where
  kept resource binding lives :=
    have ⟨bound, lasting⟩ := live_some.mp lives
    agrees.kept resource binding (live_some.mpr ⟨bound, live_before notLater lasting⟩)
  backed columns row there lives := agrees.backed columns row there (live_before notLater lives)
  named := agrees.named

theorem agrees_start (now : Instant) : Agrees now start fun _ => none where
  kept resource binding lives := nomatch lives
  backed columns row there := by
    obtain ⟨id, listed, -⟩ := held_some.mp there
    exact nomatch (Table.get_some.mp listed).1
  named resource some := absurd rfl some

/-- A resource whose row is gone or expired has no unexpired binding. -/
theorem Agrees.unbound (agrees : Agrees now state map)
    (gone : ∀ row, state.bindings.held resource.columns = some row → row.binding.live now = false) :
    map.live now resource = none := by
  cases lives : map.live now resource with
  | none => rfl
  | some binding =>
    obtain ⟨row, there, rfl, -⟩ := agrees.kept resource binding lives
    have lasting := (live_some.mp lives).2
    rw [gone row there] at lasting
    cases lasting

/-- An expired row that goes takes nothing from the map. -/
theorem Agrees.deleted (agrees : Agrees now state map) {columns : Resource}
    (gone : ∀ row, state.bindings.held columns = some row → row.binding.live now = false)
    (rows : ∀ other, after.bindings.held other =
      if other = columns then none else state.bindings.held other)
    (noted : after.origin = state.origin) : Agrees now after map where
  kept resource binding lives := by
    obtain ⟨row, there, rfl, origin⟩ := agrees.kept resource binding lives
    refine ⟨row, ?_, rfl, noted ▸ origin⟩
    rw [rows, if_neg]
    · exact there
    · rintro same
      rw [same] at there
      have lasting := (live_some.mp lives).2
      rw [gone row there] at lasting
      cases lasting
  backed other row there lives := by
    rw [rows] at there
    split at there
    · cases there
    · rw [noted]
      exact agrees.backed other row there lives
  named := agrees.named

/-- A call that changes no row, noted for a resource without one. -/
theorem Agrees.idle (agrees : Agrees now state map) (same : after.bindings = state.bindings)
    (noted : ∀ columns, state.bindings.held columns ≠ none →
      after.origin columns = state.origin columns) : Agrees now after map where
  kept resource binding lives := by
    obtain ⟨row, there, rfl, origin⟩ := agrees.kept resource binding lives
    refine ⟨row, same ▸ there, rfl, ?_⟩
    rw [noted _ (by simp [there]), origin]
  backed columns row there lives := by
    rw [same] at there
    rw [noted _ (by simp [there])]
    exact agrees.backed columns row there lives
  named := agrees.named

/-- A row and its binding written alike, or both expired. -/
theorem Agrees.rebound (agrees : Agrees now state map) {new : BindingColumns} {binding : Binding}
    (alone : ∀ row, state.bindings.held resource.columns = some row →
      state.origin resource.columns = resource)
    (rows : ∀ other, after.bindings.held other =
      if other = resource.columns then some new else state.bindings.held other)
    (noted : after.origin = Function.update state.origin resource.columns resource)
    (alike : new.binding = binding ∨ new.binding.live now = false ∧ binding.live now = false)
    (named : resource.resourceId ≠ "") :
    Agrees now after (Function.update map resource (some binding)) where
  kept other binding' lives := by
    obtain ⟨bound, lasting⟩ := live_some.mp lives
    by_cases same : other = resource
    · subst same
      cases (Function.update_self other (some binding) map).symm.trans bound
      rcases alike with rfl | ⟨-, overdue⟩
      · exact ⟨new, (rows _).trans (if_pos rfl), rfl, noted ▸ Function.update_self ..⟩
      · rw [overdue] at lasting
        cases lasting
    · rw [Function.update_of_ne same] at bound
      obtain ⟨row, there, rfl, origin⟩ := agrees.kept other binding' (live_some.mpr ⟨bound, lasting⟩)
      have apart : other.columns ≠ resource.columns := by
        intro shared
        rw [shared] at there origin
        exact same (origin.symm.trans (alone row there))
      refine ⟨row, (rows _).trans ((if_neg apart).trans there), rfl, ?_⟩
      rw [noted, Function.update_of_ne apart, origin]
  backed columns row there lives := by
    rw [rows] at there
    rw [noted]
    by_cases same : columns = resource.columns
    · rw [if_pos same] at there
      cases there
      rw [same, Function.update_self, Function.update_self]
      rcases alike with rfl | ⟨overdue, -⟩
      · exact ⟨rfl, rfl⟩
      · rw [overdue] at lives
        cases lives
    · rw [if_neg same] at there
      obtain ⟨origin, bound⟩ := agrees.backed columns row there lives
      rw [Function.update_of_ne same, Function.update_of_ne]
      · exact ⟨origin, bound⟩
      · intro this
        rw [this] at origin
        exact same origin.symm
  named other bound := by
    by_cases same : other = resource
    · exact same ▸ named
    · rw [Function.update_of_ne same] at bound
      exact agrees.named other bound

theorem settled_other {expiresAt : Option Instant} (other : row.apiKeyId ≠ call.apiKeyId) :
    settled call now expiresAt (some row) = row := if_pos other

theorem settled_same {expiresAt : Option Instant} (same : row.apiKeyId = call.apiKeyId) :
    (settled call now expiresAt (some row)).binding =
      ⟨call.apiKeyId, (extension row expiresAt).or row.expiresAt⟩ := by
  rw [settled, if_neg (not_not.mpr same), ← same]
  cases extension row expiresAt <;> rfl

theorem extended {expired : Instant} (standing : row.expiresAt = some expired) (new : Instant) :
    (extension row (some new)).or row.expiresAt = some (max expired new) := by
  simp only [extension, standing, Option.filter, Option.all_some, decide_eq_true_eq]
  split
  · rename_i longer
    exact congrArg some (max_eq_right longer.le).symm
  · rename_i short
    exact congrArg some (max_eq_left (not_lt.mp short)).symm

/-- A row that is unexpired is extended as its binding is. -/
theorem settled_live {expiresAt : Option Instant}
    (mixed : row.apiKeyId = call.apiKeyId → (row.expiresAt = none ↔ expiresAt = none)) :
    (settled call now expiresAt (some row)).binding =
      BindingMap.rebound call.apiKeyId expiresAt (some row.binding) := by
  by_cases same : row.apiKeyId = call.apiKeyId
  · rw [settled_same same, BindingMap.rebound, if_pos (by exact same)]
    have whole : (extension row expiresAt).or row.expiresAt =
        BindingMap.later row.expiresAt expiresAt := by
      cases standing : row.expiresAt with
      | none =>
        rw [(mixed same).mp standing]
        rfl
      | some expired =>
        cases expiresAt with
        | none => exact absurd ((mixed same).mpr rfl) (by simp [standing])
        | some new =>
          rw [← standing, extended standing, standing]
          rfl
    rw [whole]
    exact congrArg (Binding.mk · _) same.symm
  · rw [settled_other same, BindingMap.rebound, if_neg (by exact same)]

/-- An expired row is written again where its own key is bound with an expiry. -/
theorem settled_expired {expiresAt : Option Instant} (overdue : row.binding.live now = false)
    (same : row.apiKeyId = call.apiKeyId) (expires : expiresAt ≠ none) :
    (settled call now expiresAt (some row)).binding = ⟨call.apiKeyId, expiresAt⟩ ∨
      (settled call now expiresAt (some row)).binding.live now = false ∧
        (⟨call.apiKeyId, expiresAt⟩ : Binding).live now = false := by
  rw [settled_same same]
  obtain ⟨new, rfl⟩ := Option.ne_none_iff_exists'.mp expires
  cases standing : row.expiresAt with
  | none => simp [Binding.live, BindingColumns.binding, standing] at overdue
  | some expired =>
    have past : expired < now := by
      simpa [Binding.live, BindingColumns.binding, standing] using overdue
    rw [← standing, extended standing]
    rcases le_total expired new with longer | short
    · exact .inl (by rw [max_eq_right longer])
    · right
      have sooner : new < now := short.trans_lt past
      rw [max_eq_left short]
      simp [Binding.live, past, sooner]

/-- A lookup that finds no row of another resource unexpired. -/
theorem Agrees.looked {outcome : Except Exn (Option Nat)} (agrees : Agrees now state map)
    (looked : Looked query now state.bindings after.bindings outcome)
    (noted : after.origin = state.origin)
    (clear : LookupClear state now query) :
    outcome = .ok (map.lookup now query.resource) ∧ Agrees now after map := by
  have kept (same : after.bindings = state.bindings) : Agrees now after map :=
    agrees.idle same fun _ _ => congrFun noted _
  have unbound (gone : map.live now query.resource = none) :
      (.ok none : Except Exn (Option Nat)) = .ok (map.lookup now query.resource) := by
    rw [BindingMap.lookup, gone]
    rfl
  cases looked with
  | blank unnamed same =>
    have unbinds : map query.resource = none := by
      by_contra bound
      exact agrees.named _ bound unnamed
    refine ⟨unbound ?_, kept same⟩
    rw [BindingMap.live, unbinds]
    rfl
  | missing absent same =>
    refine ⟨unbound (agrees.unbound fun row there => ?_), kept same⟩
    rw [absent] at there
    cases there
  | live named there lasting same =>
    rename_i row
    obtain ⟨-, bound⟩ := agrees.backed _ row there lasting
    rw [clear row there lasting] at bound
    refine ⟨?_, kept same⟩
    rw [BindingMap.lookup, live_some.mpr ⟨bound, lasting⟩]
    rfl
  | expired there overdue rows =>
    rename_i row
    have gone (other : BindingColumns)
        (held : state.bindings.held query.resource.columns = some other) :
        other.binding.live now = false := by
      rw [there] at held
      cases held
      rw [Binding.live, BindingColumns.binding]
      cases expires : row.expiresAt with
      | none => simp [expires] at overdue
      | some expired => simpa [expires] using overdue
    exact ⟨unbound (agrees.unbound gone), agrees.deleted gone rows noted⟩

theorem Agrees.bound {outcome : Except Exn Unit} (agrees : Agrees now state map)
    (bound : Bound call now state.bindings after.bindings outcome)
    (noted : after.origin = state.noted (.bind call)) (clear : BindClear state now call) :
    Agrees now after (map.step ⟨now, .bind call, .ok none⟩) := by
  have idle (same : after.bindings = state.bindings) : Agrees now after map := by
    refine agrees.idle same fun columns there => ?_
    rw [noted, Traced.noted]
    split
    · rename_i free
      apply Function.update_of_ne
      rintro rfl
      exact there free
    · rfl
  simp only [BindingMap.step]
  cases bound with
  | blank unnamed same =>
    rw [if_pos unnamed]
    exact idle same
  | overflown overdue same =>
    simp only [overdue, ite_self]
    exact idle same
  | written named expires rows =>
    rename_i expiresAt
    simp only [if_neg named, expires]
    cases there : state.bindings.held call.resource.columns with
    | none =>
      have gone : map.live now call.resource = none := agrees.unbound fun row held => by
        rw [there] at held
        cases held
      refine agrees.rebound ?_ rows ?_ (.inl ?_) named
      · rintro row held
        rw [there] at held
        cases held
      · rw [noted, Traced.noted, if_pos there]
      · rw [there, gone]
        rfl
    | some row =>
      obtain ⟨origin, fits⟩ := clear row there expiresAt expires
      refine agrees.rebound (fun _ _ => origin) rows ?_ ?_ named
      · rw [noted, Traced.noted, if_neg (by simp [there])]
        exact (Function.update_eq_self_iff.mpr origin.symm).symm
      · rw [there]
        split at fits
        · rename_i lasting
          obtain ⟨-, bound⟩ := agrees.backed _ row there lasting
          rw [origin] at bound
          rw [live_some.mpr ⟨bound, lasting⟩]
          exact .inl (settled_live fits)
        · rename_i overdue
          have overdue := Bool.eq_false_of_not_eq_true overdue
          have gone : map.live now call.resource = none := agrees.unbound fun other held => by
            rw [there] at held
            cases held
            exact overdue
          rw [gone]
          exact settled_expired overdue fits.1 fits.2

theorem Took.looked {events : List (Event Op Reply)} (took : Took state ⟨now, .lookup query, outcome⟩
    events after) : Looked query now state.bindings after.bindings outcome := by
  have met := wp_lookupBoundKeyId query now state.bindings
  exact wp_ran took.ran took.followed met

theorem Took.bound {events : List (Event Op Reply)} (took : Took state ⟨now, .bind call, outcome⟩
    events after) : ∃ ended, Bound call now state.bindings after.bindings ended := by
  have met : ((bindResource call).bind fun _ => .done (none : Option Nat)).wp (served now)
      (fun _ last => ∃ ended, Bound call now state.bindings last ended) state.bindings := by
    have ended := wp_bindResource call now state.bindings
    refine (wp_bind (bindResource call)).mpr (wp_mono ?_ ended)
    rintro (error | value) last bound
    · exact ⟨.error error, bound⟩
    · exact ⟨.ok value, bound⟩
  exact wp_ran took.ran took.followed met

/-- One call keeps the table to the map. -/
theorem Agrees.took {events : List (Event Op Reply)} (agrees : Agrees now state map)
    (notBefore : now ≤ step.now) (clear : Clear state step) (took : Took state step events after) :
    Answered map step ∧ Agrees step.now after (map.step step) := by
  obtain ⟨at_, call, outcome⟩ := step
  have agrees := agrees.mono notBefore
  cases call with
  | bind call =>
    obtain ⟨ended, bound⟩ := took.bound
    exact ⟨nofun, agrees.bound bound took.noted clear⟩
  | lookup query =>
    obtain ⟨replied, kept⟩ := agrees.looked took.looked took.noted clear
    refine ⟨?_, kept⟩
    rintro _ ⟨⟩
    exact replied

/-- Along a run whose calls are clear the table stands for the map. -/
theorem Agrees.faithful {steps : List Step} {last : Traced} (agrees : Agrees now state map)
    (run : Sequential Clear state steps last) (notBefore : ∀ step ∈ steps, now ≤ step.now)
    (ordered : Ordered steps) {front back : List Step} (split : steps = front ++ step :: back) :
    Answered (front.foldl BindingMap.step map) step := by
  induction run generalizing now map front with
  | nil => exact absurd split (by simp)
  | cons clear took rest ih =>
    obtain ⟨later, ordered⟩ := List.pairwise_cons.mp ordered
    obtain ⟨answered, agrees⟩ := agrees.took (notBefore _ List.mem_cons_self) clear took
    cases front with
    | nil =>
      cases split
      exact answered
    | cons first front =>
      cases split
      refine ih agrees (fun step member => ?_) ordered rfl
      exact later _ (List.mem_map_of_mem member)

/-- In every run of binds and lookups that are clear where they start, each lookup replies with the
key of the first bind of its resource since none was unexpired. -/
theorem clear_faithful {steps : List Step} {last : Traced} (run : Sequential Clear start steps last)
    (ordered : Ordered steps) : Faithful steps := by
  intro front step back split
  cases steps with
  | nil => exact absurd split (by simp)
  | cons first rest =>
    refine (agrees_start first.now).faithful run (fun step member => ?_) ordered split
    rcases List.mem_cons.mp member with rfl | later
    · exact le_refl _
    · exact (List.pairwise_cons.mp ordered).1 _ (List.mem_map_of_mem later)

/-- A call that a working database serves at the instant given. -/
def Traced.serve (state : Traced) (now : Instant) (call : Call) : Step × Traced :=
  let ended := call.program.execute (answer now) state.bindings
  (⟨now, call, ended.2.1⟩, ⟨ended.2.2, state.noted call⟩)

theorem serve_took (state : Traced) (now : Instant) (call : Call) : ∃ events,
    Took state (state.serve now call).1 events (state.serve now call).2 :=
  ⟨_, execute_ran _ _ _, execute_follows (answer_honest now) _ _, rfl⟩

def crawlJob : Query := ⟨1, "crawl", " job "⟩

/-- Key 7 creates a job and is its key for a minute. -/
def jobBound : Step × Traced :=
  start.serve 0 (.bind { crawlJob with apiKeyId := 7, ttlSeconds := some 60 })

/-- The job is looked up after half of it. -/
def jobFound : Step × Traced := jobBound.2.serve (30 * Instant.second) (.lookup crawlJob)

theorem job_found : jobFound.1.outcome = .ok (some 7) ∧ Faithful [jobBound.1, jobFound.1] := by
  refine ⟨by decide +kernel, ?_⟩
  obtain ⟨_, first⟩ := serve_took start 0 (.bind { crawlJob with apiKeyId := 7, ttlSeconds := some 60 })
  obtain ⟨_, second⟩ := serve_took jobBound.2 (30 * Instant.second) (.lookup crawlJob)
  refine clear_faithful (.cons ?_ first (.cons ?_ second .nil)) ?_
  · intro row there
    cases there
  · intro row there lives
    exact Function.update_self ..
  · unfold Ordered
    decide +kernel

/-- Key 8 binds the job again after its minute, and the lookup finds nothing. -/
def jobRebound : Step × Traced :=
  jobBound.2.serve (90 * Instant.second) (.bind { crawlJob with apiKeyId := 8, ttlSeconds := some 60 })

def jobLost : Step × Traced := jobRebound.2.serve (91 * Instant.second) (.lookup crawlJob)

/-- An expired row keeps a new bind of its resource from taking effect. -/
theorem expired_row_blocks : ∃ (steps : List Step) (last : Traced),
    Sequential (fun _ _ => True) start steps last ∧ Ordered steps ∧ ¬ Faithful steps := by
  obtain ⟨_, first⟩ := serve_took start 0 (.bind { crawlJob with apiKeyId := 7, ttlSeconds := some 60 })
  obtain ⟨_, second⟩ := serve_took jobBound.2 (90 * Instant.second)
    (.bind { crawlJob with apiKeyId := 8, ttlSeconds := some 60 })
  obtain ⟨_, third⟩ := serve_took jobRebound.2 (91 * Instant.second) (.lookup crawlJob)
  refine ⟨[jobBound.1, jobRebound.1, jobLost.1], _,
    .cons trivial first (.cons trivial second (.cons trivial third .nil)), ?_, fun faithful => ?_⟩
  · unfold Ordered
    decide +kernel
  · have answered := faithful [jobBound.1, jobRebound.1] jobLost.1 [] rfl crawlJob rfl
    exact absurd answered (by decide +kernel)

end FcamGateway.ResourceBinding
