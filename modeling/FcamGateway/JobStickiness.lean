import FcamGateway.Interleaving
import FcamGateway.JobKeys

/-! Jobs stay with their keys. The requests of a gateway run side by side against one table of
bindings, which may also fail them. Once a request that created a job has been answered, each later
request for the job goes out with a key that the job was created with, as long as that key may be
used. -/
namespace FcamGateway.JobStickiness
open Prog Upstream Forwarder DataPlane ForwardEffects ResourceBinding Bindings Endpoints

set_option linter.unusedSectionVars false

variable {R : Type} [Field R] [LinearOrder R] [ScoreMath R]

/-- What the table of bindings does at a question. A query that fails leaves it as it was, and other
questions are not its business. -/
inductive BindingMove : Bindings → Event (HandlerOp R) (HandlerReply R) → Bindings → Prop where
  | answered {before after : Bindings} {op : ResourceBinding.Op} {reply : ResourceBinding.Reply op}
      (now : Instant) (moved : Bindings.moves now before ⟨op, reply⟩ after) :
      BindingMove before ⟨.binding op, reply⟩ after
  | uninserted {bindings : Bindings} (row : BindingColumns) :
      BindingMove bindings ⟨.binding (.insert row), .failed⟩ bindings
  | unread {bindings : Bindings} (resource : Resource) :
      BindingMove bindings ⟨.binding (.find resource), none⟩ bindings
  | unextended {bindings : Bindings} (id : Nat) (expiresAt : Instant) :
      BindingMove bindings ⟨.binding (.extend id expiresAt), false⟩ bindings
  | undeleted {bindings : Bindings} (id : Nat) :
      BindingMove bindings ⟨.binding (.delete id), false⟩ bindings
  | data {bindings : Bindings} (op : DataOp R) (reply : DataReply R op) :
      BindingMove bindings ⟨.data op, reply⟩ bindings
  | record {bindings : Bindings} (op : Idempotency.Op) (reply : Idempotency.Reply op) :
      BindingMove bindings ⟨.record op, reply⟩ bindings

variable {Thread : Type} [DecidableEq Thread]

/-- The requests that a gateway serves. -/
def requests (app : AppState R) (arrivals : Thread → Arrival) (thread : Thread) :
    Handling R (Answered R) := Endpoints.serve app (arrivals thread)

abbrev Requests (Thread : Type) (R : Type) := Trace Thread (HandlerOp R) (HandlerReply R)

/-- The request created the job with the key. -/
def Creator (app : AppState R) (arrivals : Thread → Arrival) (trace : Requests Thread R)
    (key : Nat) (job : Resource) (thread : Thread) : Prop :=
  ∃ endpoint, (arrivals thread).endpoint app = some endpoint ∧
    Created app endpoint (arrivals thread).client.id (own thread trace) key job

/-- The job was bound to the key at the start, or a request of the run created it with it. -/
def Origin (app : AppState R) (arrivals : Thread → Arrival) (start : Bindings)
    (trace : Requests Thread R) (key : Nat) (job : Resource) : Prop :=
  (∃ row, start.held job = some row ∧ row.apiKeyId = key) ∨
    ∃ thread, Creator app arrivals trace key job thread

/-- No binding of the table expires. -/
def Lasting (bindings : Bindings) : Prop :=
  ∀ id row, bindings.rows.get? id = some row → row.expiresAt = none

variable {app : AppState R} {arrivals : Thread → Arrival} {start before after last : Bindings}
  {front back trace : Requests Thread R} {thread : Thread} {key : Nat} {job : Resource}

theorem Creator.grown (creator : Creator app arrivals trace key job thread)
    (more : Requests Thread R) : Creator app arrivals (trace ++ more) key job thread := by
  obtain ⟨endpoint, routed, created⟩ := creator
  refine ⟨endpoint, routed, ?_⟩
  rw [own_append]
  exact created.grown _

theorem Origin.grown (origin : Origin app arrivals start trace key job) (more : Requests Thread R) :
    Origin app arrivals start (trace ++ more) key job :=
  origin.imp_right fun ⟨thread, creator⟩ => ⟨thread, creator.grown more⟩

/-- What a request asks in a run is due. -/
theorem asked_due {op : HandlerOp R} (asking : Asking (requests app arrivals) front thread op) :
    ∃ endpoint, (arrivals thread).endpoint app = some endpoint ∧
      Due app endpoint (arrivals thread).client.id (own thread front) op := by
  cases routed : (arrivals thread).endpoint app with
  | none =>
    obtain ⟨next, reached⟩ := asking
    exact (asks_reaches reached (asks_strayed routed)).1.elim
  | some endpoint =>
    exact ⟨endpoint, rfl, asking.checked (wp_serve routed)⟩

/-- What is known of the table along a run. -/
structure Rooted (app : AppState R) (arrivals : Thread → Arrival) (start : Bindings)
    (trace : Requests Thread R) (bindings : Bindings) : Prop where
  rows : ∀ id row, bindings.rows.get? id = some row →
    row.expiresAt = none ∧ Origin app arrivals start trace row.apiKeyId row.resource
  found : ∀ thread resource own row,
    (thread, ⟨.binding (.find resource), some (some (own, row))⟩) ∈ trace →
      row.expiresAt = none ∧ Origin app arrivals start trace row.apiKeyId resource
  stored : ∀ thread row reply, (thread, ⟨.binding (.insert row), reply⟩) ∈ trace →
    reply ≠ .failed → bindings.held row.resource ≠ none

variable {event : Event (HandlerOp R) (HandlerReply R)}

/-- An event that adds only rows with an origin, and takes none away. -/
theorem Rooted.add (rooted : Rooted app arrivals start front before)
    (rows : ∀ id row, after.rows.get? id = some row → before.rows.get? id = some row ∨
      (row.expiresAt = none ∧ Origin app arrivals start front row.apiKeyId row.resource))
    (held : ∀ resource, before.held resource ≠ none → after.held resource ≠ none)
    (found : ∀ resource own row, event = ⟨.binding (.find resource), some (some (own, row))⟩ →
      row.expiresAt = none ∧ Origin app arrivals start front row.apiKeyId resource)
    (stored : ∀ row reply, event = ⟨.binding (.insert row), reply⟩ → reply ≠ .failed →
      after.held row.resource ≠ none) :
    Rooted app arrivals start (front ++ [(thread, event)]) after where
  rows id row there := by
    rcases rows id row there with old | ⟨lasting, origin⟩
    · obtain ⟨lasting, origin⟩ := rooted.rows id row old
      exact ⟨lasting, origin.grown _⟩
    · exact ⟨lasting, origin.grown _⟩
  found other resource own row member := by
    rcases List.mem_append.mp member with earlier | now
    · obtain ⟨lasting, origin⟩ := rooted.found other resource own row earlier
      exact ⟨lasting, origin.grown _⟩
    · have same := congrArg Prod.snd (List.mem_singleton.mp now)
      obtain ⟨lasting, origin⟩ := found resource own row same.symm
      exact ⟨lasting, origin.grown _⟩
  stored other row reply member succeeded := by
    rcases List.mem_append.mp member with earlier | now
    · exact held _ (rooted.stored other row reply earlier succeeded)
    · have same := congrArg Prod.snd (List.mem_singleton.mp now)
      exact stored row reply same.symm succeeded

/-- Each event of a run keeps what is known of the table. -/
theorem Rooted.step (rooted : Rooted app arrivals start front before)
    (asking : Asking (requests app arrivals) front thread event.op)
    (moved : BindingMove before event after) :
    Rooted app arrivals start (front ++ [(thread, event)]) after := by
  obtain ⟨endpoint, routed, due⟩ := asked_due asking
  cases moved with
  | answered now moved =>
    rename_i op reply
    cases op with
    | now =>
      obtain ⟨-, rfl⟩ := moved
      exact rooted.add (fun _ _ => .inl) (fun _ => id) (fun _ _ _ => nofun) fun _ _ => nofun
    | insert row =>
      -- the row was made of a job that the request created
      have made : row.expiresAt = none ∧
          Origin app arrivals start front row.apiKeyId row.resource := by
        cases due with
        | harmless harmless => exact harmless.elim
        | insert created lasting => exact ⟨lasting, .inr ⟨thread, endpoint, routed, created⟩⟩
      cases reply with
      | row id =>
        obtain ⟨free, added⟩ := moved
        have absent : before.held row.resource = none := congrArg (Option.map _) free
        refine rooted.add (fun key other there => ?_) (fun resource held => ?_)
          (fun _ _ _ => nofun) ?_
        · rw [Table.get_insert added] at there
          split at there
          · cases there
            exact .inr made
          · exact .inl there
        · rw [held_insert absent added]
          split
          · exact nofun
          · exact held
        · rintro _ _ ⟨⟩ -
          rw [held_insert absent added, if_pos rfl]
          exact nofun
      | conflict =>
        obtain ⟨taken, rfl⟩ := moved
        refine rooted.add (fun _ _ => .inl) (fun _ => id) (fun _ _ _ => nofun) ?_
        rintro _ _ ⟨⟩ -
        exact fun absent => taken (Option.map_eq_none_iff.mp absent)
      | failed => exact moved.elim
    | find resource =>
      obtain ⟨read, rfl⟩ := moved
      refine rooted.add (fun _ _ => .inl) (fun _ => id) ?_ fun _ _ => nofun
      rintro _ own row ⟨⟩
      obtain ⟨listed, rfl⟩ := found_some (Option.some.inj read).symm
      exact rooted.rows own row listed
    | extend id expiresAt =>
      cases due with
      | harmless harmless => exact harmless.elim
    | delete id =>
      cases due with
      | harmless harmless => exact harmless.elim
      | delete found expires =>
        exact absurd (rooted.found thread _ id _ (mem_own.mp found)).1 expires
  | uninserted row =>
    refine rooted.add (fun _ _ => .inl) (fun _ => id) (fun _ _ _ => nofun) ?_
    rintro _ _ ⟨⟩ succeeded
    exact absurd rfl succeeded
  | _ => exact rooted.add (fun _ _ => .inl) (fun _ => id) (fun _ _ _ => nofun) fun _ _ => nofun

/-- Every row of a run that starts with lasting bindings has an origin. -/
theorem rooted_run (lasting : Lasting start)
    (run : Interleaved (requests app arrivals) BindingMove start trace last) :
    Rooted app arrivals start trace last := by
  refine Interleaved.induct ⟨fun id row there => ⟨lasting id row there, .inl ⟨row, ?_, rfl⟩⟩,
    fun _ _ _ _ => nofun, fun _ _ _ => nofun⟩ (fun _ _ _ _ _ _ rooted asking moved =>
      rooted.step asking moved) run
  exact held_some.mpr ⟨id, there, rfl⟩

/-- Whatever is bound stays bound. -/
theorem held_step {row : BindingColumns} (rooted : Rooted app arrivals start front before)
    (asking : Asking (requests app arrivals) front thread event.op)
    (moved : BindingMove before event after) (held : before.held job = some row) :
    after.held job = some row := by
  cases moved with
  | answered now moved =>
    rename_i op reply
    cases op with
    | now =>
      obtain ⟨-, rfl⟩ := moved
      exact held
    | insert new =>
      cases reply with
      | row id =>
        obtain ⟨free, added⟩ := moved
        have absent : before.held new.resource = none := congrArg (Option.map _) free
        rw [held_insert absent added, if_neg]
        · exact held
        · rintro rfl
          rw [absent] at held
          cases held
      | conflict =>
        obtain ⟨-, rfl⟩ := moved
        exact held
      | failed => exact moved.elim
    | find resource =>
      obtain ⟨-, rfl⟩ := moved
      exact held
    | extend id expiresAt =>
      obtain ⟨_, -, due⟩ := asked_due asking
      cases due with
      | harmless harmless => exact harmless.elim
    | delete id =>
      -- only a row that expires is deleted, and none does
      obtain ⟨_, -, due⟩ := asked_due asking
      cases due with
      | harmless harmless => exact harmless.elim
      | delete found expires =>
        exact absurd (rooted.found thread _ id _ (mem_own.mp found)).1 expires
  | _ => exact held

/-- Who reads the binding of the job finds the row that it is bound by. -/
theorem found_bound {row : BindingColumns} {resource : Resource}
    {reply : ResourceBinding.Reply (.find resource)} (held : before.held resource = some row)
    (moved : BindingMove before
      (⟨.binding (.find resource), reply⟩ : Event (HandlerOp R) _) after) :
    reply = none ∨ ∃ own, reply = some (some (own, row)) := by
  cases moved with
  | answered now moved =>
    obtain ⟨read, rfl⟩ := moved
    obtain ⟨⟨own, found⟩, there, rfl⟩ := Option.map_eq_some_iff.mp held
    exact .inr ⟨own, read.trans (congrArg some there)⟩
  | unread => exact .inl rfl

theorem found_run {middle : Bindings} {row : BindingColumns} (lasting : Lasting start)
    (upto : Interleaved (requests app arrivals) BindingMove start front middle)
    (held : middle.held job = some row)
    (run : Interleaved (requests app arrivals) BindingMove start (front ++ back) last)
    (later : Follows BindingMove middle (back.map Prod.snd) last) (thread : Thread)
    (reply : ResourceBinding.Reply (.find job))
    (read : (thread, ⟨.binding (.find job), reply⟩) ∈ back) :
    reply = none ∨ ∃ own, reply = some (some (own, row)) := by
  induction back generalizing front middle with
  | nil => cases read
  | cons entry back ih =>
    obtain _ | ⟨moved, later⟩ := later
    rcases List.mem_cons.mp read with same | read
    · rw [← same] at moved
      exact found_bound held moved
    · obtain ⟨-, -, -, -, -, -, asking⟩ := run.at
      have still := held_step (rooted_run lasting upto) asking moved held
      rw [List.append_cons] at run
      exact ih (upto.snoc asking moved) still run later read

/-- A request that follows the job from the end of `front` on, and can read its binding and use the
keys it finds. -/
structure Follower (app : AppState R) (arrivals : Thread → Arrival) (front back : Requests Thread R)
    (job : Resource) (thread : Thread) (endpoint : Endpoint) (query : Query) : Prop where
  routed : (arrivals thread).endpoint app = some endpoint
  follows : endpoint.followed (arrivals thread).client.id = some query
  named : query.rid ≠ ""
  same : query.resource.columns = job
  later : own thread front = []
  read : (thread, ⟨.binding (.find job), none⟩) ∉ back
  usable : ∀ id found, (thread, ⟨.data (.session (.findKey id)), found⟩) ∈ back →
    ∃ columns, found = some (some columns) ∧ usablePinned endpoint.provider columns = true

/-- Once a request that created a job has been answered and its row was not lost, the job has one
key, which a request created it with, and every request that follows the job sends only with it. -/
theorem job_sticky {creator : Thread} {response : Answered R} (lasting : Lasting start)
    (run : Interleaved (requests app arrivals) BindingMove start (front ++ back) last)
    (created : Creator app arrivals front key job creator)
    (answered : (requests app arrivals creator).Ran (own creator front) (.ok response))
    (kept : ∀ row, (creator, ⟨.binding (.insert row), .failed⟩) ∉ front) :
    ∃ bound, Origin app arrivals start front bound job ∧
      ∀ follower endpoint query, Follower app arrivals front back job follower endpoint query →
        ∀ id ∈ sends (forwarded (own follower back)), id = bound := by
  -- the row of the job is in the table at the end of `front`
  obtain ⟨middle, upto, later⟩ := run.before
  obtain ⟨creating, made, job⟩ := created
  have stored := wp_history answered (wp_serve made)
  obtain ⟨row, reply, member, -, rfl⟩ := stored response rfl key _ job
  have inserted := mem_own.mp member
  have rooted := rooted_run lasting upto
  have present := rooted.stored creator row reply inserted fun failed =>
    kept row (failed ▸ inserted)
  obtain ⟨binding, held⟩ := Option.ne_none_iff_exists'.mp present
  obtain ⟨own, listed, same⟩ := held_some.mp held
  refine ⟨binding.apiKeyId, same ▸ (rooted.rows own binding listed).2, ?_⟩
  intro follower endpoint query follows id sending
  obtain ⟨sent, given, asked⟩ := sent_asked sending
  have request := mem_own.mp asked
  obtain ⟨early, late, rfl⟩ := List.append_of_mem request
  have asking : Asking (requests app arrivals) (front ++ early) follower
      (.data (.session (.request id sent))) := by
    rw [← List.append_assoc] at run
    obtain ⟨-, -, -, -, -, -, asking⟩ := run.at
    exact asking
  obtain ⟨_, routed, due⟩ := asked_due asking
  obtain rfl := Option.some.inj (follows.routed.symm.trans routed)
  cases due with
  | harmless harmless => exact harmless.elim
  | request sent keeps =>
    obtain ⟨reply, asked, taken⟩ := keeps query follows.follows follows.named
    rw [own_append, follows.later, List.nil_append] at asked taken
    rw [follows.same] at asked
    have looked := List.mem_append_left
      (⟨follower, ⟨.data (.session (.request id sent)), given⟩⟩ :: late) (mem_own.mp asked)
    rcases found_run lasting upto held run later follower reply looked with rfl | ⟨own, rfl⟩
    · exact absurd looked follows.read
    · exact taken own binding rfl (rooted.rows _ binding listed).1 fun found member =>
        follows.usable _ found (List.mem_append_left _ (mem_own.mp member))

/-! ### A browser session and its end -/

theorem sessionAnswer_moves (bindings : Bindings) (op : HandlerOp ℚ) :
    BindingMove bindings ⟨op, (sessionAnswer bindings op).1⟩ (sessionAnswer bindings op).2 := by
  cases op with
  | binding op => exact .answered 0 (answer_honest 0 bindings op)
  | record op => exact .record op _
  | data op =>
    cases op with
    | session op => cases op <;> exact .data _ _
    | _ => exact .data _ _

def opened (config : AppConfig ℚ) :=
  schedule sessionAnswer (requests (sessionApp config) sessionArrivals) Bindings.empty
    (List.replicate 40 true)

def closed (config : AppConfig ℚ) :=
  schedule sessionAnswer (opened config).2.1 (opened config).2.2 (List.replicate 40 false)

/-- The response of a request that has ended. -/
def response? : Handling ℚ (Answered ℚ) → Option (Answered ℚ)
  | .done response => some response
  | _ => none

theorem response_some {program : Handling ℚ (Answered ℚ)} (ended : (response? program).isSome) :
    ∃ response, program = .done response := by
  unfold response? at ended
  split at ended
  · exact ⟨_, rfl⟩
  · cases ended

/-- An event that is no failed query of the bindings and finds no key that may not be used. -/
def sound : Bool × Event (HandlerOp ℚ) (HandlerReply ℚ) → Bool
  | (_, ⟨.binding (.insert _), reply⟩) => reply ≠ .failed
  | (_, ⟨.binding (.find _), reply⟩) => reply.isSome
  | (_, ⟨.data (.session (.findKey _)), reply⟩) =>
    reply.any fun found => found.any (usablePinned "firecrawl")
  | _ => true

theorem session_run (config : AppConfig ℚ) :
    ∃ last, Interleaved (requests (sessionApp config) sessionArrivals) BindingMove .empty
      ((opened config).1 ++ (closed config).1) last := by
  have run := schedule_interleaved sessionAnswer_moves
    (List.replicate 40 true ++ List.replicate 40 false)
    (requests (sessionApp config) sessionArrivals) Bindings.empty
  rw [schedule_append] at run
  exact ⟨_, run⟩

/-- The upstream's answer that names the session. -/
def sessionResponse : UpstreamResponse :=
  { statusCode := 200, headers := [("content-type", "application/json")], content := [1] }

def session : Query := ⟨1, "browser", "s"⟩

theorem session_followed (config : AppConfig ℚ)
    (all : ((opened config).1 ++ (closed config).1).all sound = true)
    (later : own false (opened config).1 = []) :
    Follower (sessionApp config) sessionArrivals (opened config).1 (closed config).1
      session.resource.columns false (V2.browserDelete (sessionArrivals false).toInbound "s")
      session where
  routed := rfl
  follows := rfl
  named := by
    rw [Query.rid_stripped (by decide +kernel)]
    decide
  same := rfl
  later := later
  read member := by
    have stands := List.all_eq_true.mp all _ (List.mem_append_right _ member)
    simp [sound] at stands
  usable id found member := by
    have stands := List.all_eq_true.mp all _ (List.mem_append_right _ member)
    simp only [sound] at stands
    rcases found with _ | _ | columns
    · cases stands
    · cases stands
    · exact ⟨columns, rfl, stands⟩

/-- The session is closed with the key that it was opened with. -/
theorem session_sticky : ∃ bound,
    Origin (sessionApp {}) sessionArrivals .empty (opened {}).1 bound session.resource.columns ∧
      sends (forwarded (own false (closed {}).1)) = [bound] := by
  have all : ((opened {}).1 ++ (closed {}).1).all sound = true := by decide +kernel
  have created : Creator (sessionApp {}) sessionArrivals (opened {}).1 1 session.resource.columns
      true := by
    refine ⟨_, rfl, "browser", "s", sessionResponse, rfl, ?_, ?_, rfl⟩
    · decide +kernel
    · decide +kernel
  have ended : (response? ((opened {}).2.1 true)).isSome := by decide +kernel
  obtain ⟨response, done⟩ := response_some ended
  have answered := schedule_reaches sessionAnswer (List.replicate 40 true)
    (requests (sessionApp {}) sessionArrivals) Bindings.empty true
  rw [show (schedule _ _ _ _).2.1 true = _ from done] at answered
  have lasting : Lasting .empty := fun _ _ there =>
    absurd (Table.get_some.mp there).1 List.not_mem_nil
  have kept (row : BindingColumns) : (true, ⟨.binding (.insert row), .failed⟩) ∉ (opened {}).1 := by
    intro member
    have stands := List.all_eq_true.mp all _ (List.mem_append_left _ member)
    simp [sound] at stands
  obtain ⟨last, run⟩ := session_run {}
  obtain ⟨bound, origin, sticks⟩ := job_sticky lasting run created answered kept
  refine ⟨bound, origin, ?_⟩
  have only : sends (forwarded (own false (closed {}).1)) = [1] := by decide +kernel
  have bound := sticks false _ session (session_followed {} all (by decide +kernel)) 1
  rw [only] at bound ⊢
  rw [bound List.mem_cons_self]

end FcamGateway.JobStickiness
