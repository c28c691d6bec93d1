import FcamGateway.IdempotencyLife

/-! At most one creation. Once a handler has stored its response within the grace of
its record, a request with the key that comes later is answered from the record or
refused, and nothing more is sent upstream, until the record's time has passed. -/
namespace FcamGateway.Idempotency
open Prog

set_option linter.unusedSectionVars false

variable {Thread : Type} [DecidableEq Thread]

/-- A statement of `complete` that failed. -/
def Unsaved : Event Op Reply → Prop
  | ⟨.find _, reply⟩ => reply = none
  | ⟨.complete _ _ _, reply⟩ => reply = false
  | _ => False

instance : DecidablePred Unsaved
  | ⟨.find _, reply⟩ => inferInstanceAs (Decidable (reply = none))
  | ⟨.complete _ _ _, reply⟩ => inferInstanceAs (Decidable (reply = false))
  | ⟨.now, _⟩ | ⟨.cleanup _ _, _⟩ | ⟨.insert _, _⟩ | ⟨.refresh _, _⟩ | ⟨.lookup _ _, _⟩
  | ⟨.delete _, _⟩ | ⟨.forward _ _ _, _⟩ => inferInstanceAs (Decidable False)

/-- A handler that inserted a record, got a response that is small enough to store and
came to its end within the grace of the record, with no failed statement. -/
structure InTime (config : IdempotencyConfig) (codec : Codec) (depth : Thread → Nat)
    (request : Thread → Incoming) (front : Log Thread) (maker : Thread) (draft : Draft) (id : Nat)
    (response : UpstreamResponse) : Prop where
  inserted : (maker, ⟨.insert draft, .row id⟩) ∈ front
  ended : Ran (handlers config codec depth request maker) (own maker front) (.ok response)
  saved : ∀ event ∈ own maker front, ¬Unsaved event
  small : (response.content.length : Int) ≤ max config.maxResponseBytes 1
  quick : ∃ opened, (maker, ⟨.now, opened⟩) ∈ front ∧
    ¬Passed (opened + staleAfter config * Instant.second) front

variable {config : IdempotencyConfig} {codec : Codec} {depth : Thread → Nat}
  {request : Thread → Incoming} {start last : Shelf} {trace front : Log Thread}
  {maker later : Thread} {draft : Draft} {id : Nat} {response : UpstreamResponse}

/-- A handler reads the clock before its insert only. -/
theorem Inserts.reading {made : Log Thread} {opened : Instant}
    (run : Served config codec depth request start trace last)
    (inserts : Inserts config codec request trace made maker draft id)
    (read : (maker, ⟨.now, opened⟩) ∈ trace) : (maker, ⟨.now, opened⟩) ∈ made := by
  obtain ⟨back, rfl⟩ := inserts.placed
  rcases List.mem_append.mp read with before | rest
  · exact before
  rcases List.mem_cons.mp rest with same | after
  · cases same
  obtain ⟨middle, beyond, rfl⟩ := List.append_of_mem after
  rw [← List.cons_append, ← List.append_assoc] at run
  obtain ⟨_, _, _, _, _, _, asking⟩ := run.at
  have fruitless := duly asking ⟨.insert draft, .row id⟩ (mem_own.mpr (by simp))
  cases fruitless.1

/-- A handler that ended asks nothing more. -/
theorem quiet_after {back : Log Thread} {outcome : Except Exn UpstreamResponse}
    (run : Served config codec depth request start (front ++ back) last)
    (ended : Ran (handlers config codec depth request maker) (own maker front) outcome) :
    own maker back = [] := by
  obtain ⟨left, reached⟩ := run.each maker
  rw [own_append] at reached
  obtain ⟨middle, first, second⟩ := reaches_append reached
  obtain rfl := reaches_unique first ended
  exact reaches_leaf second

/-- A handler stores one response. -/
theorem completes_once {one other back rest : Log Thread} {first second : Nat}
    {statusCode statusCode' : Int} {body body' : String} {reply reply' : Bool}
    (run : Served config codec depth request start
      (one ++ (maker, ⟨.complete first statusCode body, reply⟩) :: back) last)
    (same : one ++ (maker, ⟨.complete first statusCode body, reply⟩) :: back =
      other ++ (maker, ⟨.complete second statusCode' body', reply'⟩) :: rest) : one = other := by
  have again := same ▸ run
  rcases split_cases same with ⟨same, _, _⟩ | ⟨middle, rfl, _⟩ | ⟨middle, rfl, _⟩
  · exact same
  · exact absurd (List.mem_append_right _ List.mem_cons_self) ((completes again).2 _ _ _ _)
  · exact absurd (List.mem_append_right _ List.mem_cons_self) ((completes run).2 _ _ _ _)

/-- A handler in time has written its response to its record. -/
theorem InTime.written (run : Served config codec depth request start front last)
    (empty : start.records.ids = []) (fresh : FreshIds front)
    (done : InTime config codec depth request front maker draft id response)
    (alive : ¬Passed draft.expiresAt front) : ∃ statusCode body,
      serializeResponse codec response (max config.maxResponseBytes 1) = .ok (statusCode, body) ∧
        (maker, ⟨.complete id statusCode body, true⟩) ∈ front := by
  obtain ⟨opened, read, quick⟩ := done.quick
  obtain ⟨made, inserts⟩ := Inserts.of_mem run done.inserted
  have inside := inserts.reading run read
  have handled := wp_history done.ended (wp_handle (depth maker))
  have inserted := mem_own.mpr done.inserted
  generalize events : own maker front = exchange at handled inserted
  cases handled with
  | unclaimed none =>
    rw [inserts.claimed] at none
    cases none
  | replayed started =>
    cases started with
    | replayed again _ => exact absurd inserted (again.unmade _ _)
  | created started forwards finished =>
    obtain rfl := started.only forwards finished inserted
    have saved : ∀ event ∈ own maker front, ¬Unsaved event := done.saved
    rw [events] at saved
    cases finished with
    | unread => exact absurd rfl (saved ⟨.find id, none⟩ (by simp))
    | tooLarge large =>
      simp only [serializeResponse] at large
      split at large
      · exact absurd done.small (Int.not_le.mpr ‹_›)
      · cases large
    | @written statusCode body row reply stored =>
      cases reply with
      | false => exact absurd rfl (saved ⟨.complete id statusCode body, false⟩ (by simp))
      | true => exact ⟨statusCode, body, stored, mem_own.mp (by rw [events]; simp)⟩
    | gone =>
      -- the row is still there when the handler looks for it
      exfalso
      have looked : (maker, ⟨.find id, some none⟩) ∈ front := mem_own.mp (by rw [events]; simp)
      obtain ⟨seen, back, rfl⟩ := List.append_of_mem looked
      obtain ⟨before, _, prior, ⟨_, found⟩, _, _, asking⟩ := run.at
      have grown : seen <+: seen ++ (maker, ⟨.find id, some none⟩) :: back := List.prefix_append _ _
      obtain ⟨draft', present⟩ := duly asking
      have begun := inserts.trim fresh grown (mem_own.mp present)
      have unstored : Unstored id seen := by
        intro other statusCode body stored
        obtain ⟨draft'', whose⟩ := completes_mem prior stored
        obtain rfl := fresh.maker (grown.subset whose) done.inserted
        have written := mem_own.mpr (grown.subset stored)
        rw [events] at written
        rcases List.mem_append.mp written with opening | later
        · cases started.owned.2 _ opening
        rcases List.mem_append.mp later with sent | last
        · obtain ⟨_, _, _, _, same⟩ := forwards _ sent
          cases same
        · cases List.mem_singleton.mp last
      rcases waiting prior empty inside (fresh.upto grown) begun unstored with
        passed | passed | ⟨row, there, _⟩
      · exact alive (passed.mono grown)
      · exact quick (passed.mono grown)
      · rcases found with none | none
        · cases none
        · cases (Option.some.inj none).trans there

/-- A takeover of the record of a handler in time read it after the response was stored. -/
theorem InTime.spared (run : Served config codec depth request start trace last)
    (empty : start.records.ids = []) (fresh : FreshIds trace)
    (done : InTime config codec depth request front maker draft id response)
    (grown : front <+: trace) : Spared config codec request id trace := by
  obtain ⟨opened, read, quick⟩ := done.quick
  intro whole thread back record upto since split again placed quiet
  refine or_iff_not_imp_left.mpr fun unexpired other statusCode body stored => quick ?_
  obtain ⟨_, late⟩ := (verdict_takeOver again.verdict_eq).resolve_left unexpired
  have reading := mem_own.mpr again.reading
  clear unexpired
  generalize again.now = now at late reading
  generalize again.key = key at placed
  clear again
  subst placed
  obtain ⟨made, inserts⟩ := Inserts.of_mem run (grown.subset done.inserted)
  obtain ⟨rest, rfl⟩ := grown
  obtain ⟨first, second, rfl⟩ := List.append_of_mem stored
  have whose : (other, ⟨.complete id statusCode body, true⟩) ∈ front ++ rest := by
    rw [split]
    simp
  obtain ⟨draft', owned⟩ := completes_mem run whose
  obtain rfl := fresh.maker owned (List.mem_append_left _ done.inserted)
  -- the response was stored while the handler ran, so what came before it is in `front`
  have early : upto ++ (thread, ⟨.lookup (request thread).clientId key,
      some (some (id, record))⟩) :: first <+: front := by
    have cut : front ++ rest = (upto ++ (thread, ⟨.lookup (request thread).clientId key,
        some (some (id, record))⟩) :: first) ++ ((other, ⟨.complete id statusCode body, true⟩) ::
        (second ++ (thread, ⟨.delete id, true⟩) :: back)) := by
      rw [split]
      simp
    rcases List.append_eq_append_iff.mp cut with ⟨tail, _, beyond⟩ | ⟨tail, inside, _⟩
    · have still := quiet_after run done.ended
      have after : (other, ⟨.complete id statusCode body, true⟩) ∈ rest := by simp [beyond]
      rw [← mem_own, still] at after
      cases after
    · exact ⟨tail, inside.symm⟩
  have prior : upto <+: front := (List.prefix_append _ _).trans early
  obtain ⟨after, ran, _⟩ := (split ▸ run).before
  obtain ⟨shelf, seen, found, _⟩ := lookup_found ran
  have rowOf := inserts.rowOf seen empty fresh (prior.trans (List.prefix_append _ _)) found
  have since_insert : opened ≤ record.createdAt :=
    rowOf.created _ _ (inserts.reading run (List.mem_append_left _ read))
  have member : (thread, ⟨.now, now⟩) ∈ upto := by
    rw [own_append, own_self, quiet] at reading
    rcases List.mem_append.mp reading with before | at_lookup
    · exact mem_own.mp before
    · cases List.mem_singleton.mp at_lookup
  exact ⟨thread, now, prior.subset member,
    (Int.add_le_add_right since_insert _).trans_lt (lt_sub_iff_add_lt'.mp late)⟩

/-- After a handler in time, its record shows its response. -/
theorem InTime.shows (run : Served config codec depth request start trace last)
    (empty : start.records.ids = []) (fresh : FreshIds trace)
    (done : InTime config codec depth request front maker draft id response)
    (grown : front <+: trace) (alive : ¬Passed draft.expiresAt trace) {statusCode : Int}
    {body : String} (written : (maker, ⟨.complete id statusCode body, true⟩) ∈ front) :
    ∃ row, last.records.get? id = some row ∧ row.clientId = draft.clientId ∧
      row.idempotencyKey = draft.idempotencyKey ∧ row.requestHash = draft.requestHash ∧
      row.expiresAt = some draft.expiresAt ∧ Holds statusCode body row := by
  obtain ⟨made, inserts⟩ := Inserts.of_mem run (grown.subset done.inserted)
  obtain ⟨before, after, split⟩ := List.append_of_mem (grown.subset written)
  rcases stored run empty split fresh inserts (done.spared run empty fresh grown) with
    passed | ⟨row, found, rowOf, holds⟩
  · exact absurd passed alive
  · exact ⟨row, found, rowOf.client, rowOf.key, rowOf.hash, rowOf.expires, holds⟩

/-- An entry that is not in the front of a run comes after it. -/
theorem front_of_split {Entry : Type} {front back one rest : List Entry} {entry : Entry}
    (split : front ++ back = one ++ entry :: rest) (absent : entry ∉ front) : front <+: one := by
  rcases List.append_eq_append_iff.mp split with ⟨tail, rfl, _⟩ | ⟨tail, inside, cut⟩
  · exact List.prefix_append _ _
  · cases tail with
    | nil => exact ⟨[], by simpa using inside⟩
    | cons first tail =>
      obtain ⟨rfl, _⟩ := List.cons.inj cut
      exact absurd (by simp [inside]) absent

section

variable {back : Log Thread} {statusCode : Int} {body : String}

theorem absent_of_quiet {event : Event Op Reply} (quiet : own later front = []) :
    (later, event) ∉ front := by
  rw [← mem_own, quiet]
  exact List.not_mem_nil

/-- A later request with the key inserts no record. -/
theorem InTime.unmade (run : Served config codec depth request start (front ++ back) last)
    (empty : start.records.ids = []) (fresh : FreshIds (front ++ back))
    (done : InTime config codec depth request front maker draft id response)
    (alive : ¬Passed draft.expiresAt (front ++ back))
    (written : (maker, ⟨.complete id statusCode body, true⟩) ∈ front)
    (quiet : own later front = []) (client : (request later).clientId = draft.clientId)
    (key : (request later).claimedKey config = some draft.idempotencyKey) (draft' : Draft)
    (id' : Nat) : (later, ⟨.insert draft', .row id'⟩) ∉ front ++ back := by
  intro inserted
  obtain ⟨one, rest, split⟩ := List.append_of_mem inserted
  have grown := front_of_split split (absent_of_quiet quiet)
  have prior : one <+: front ++ back := ⟨_, split.symm⟩
  obtain ⟨_, inserts⟩ := Inserts.of_mem run inserted
  obtain ⟨shelf, _, earlier, ⟨free, _⟩, _⟩ := (split ▸ run).at
  obtain ⟨row, found, here, named, _⟩ := done.shows earlier empty (fresh.upto prior) grown
    (fun passed => alive (passed.mono prior)) written
  have claimed := Option.some.inj (key.symm.trans inserts.claimed)
  refine Shelf.taken_none free found ⟨?_, named.trans claimed⟩
  rw [here, ← client, inserts.drafted]
  rfl

/-- A later request with the key is answered from the record or refused. -/
theorem InTime.decided (run : Served config codec depth request start (front ++ back) last)
    (empty : start.records.ids = []) (fresh : FreshIds (front ++ back))
    (done : InTime config codec depth request front maker draft id response)
    (alive : ¬Passed draft.expiresAt (front ++ back))
    (written : (maker, ⟨.complete id statusCode body, true⟩) ∈ front) (nonempty : body ≠ "")
    (quiet : own later front = []) (client : (request later).clientId = draft.clientId)
    (key : (request later).claimedKey config = some draft.idempotencyKey) {seen rest : Log Thread}
    (split : front ++ back = seen ++ rest) {other : Nat} {record : RecordColumns}
    {decision : Verdict}
    (read : ReadRow config codec (request later) (own later seen) other record decision) :
    decision = if draft.requestHash = (request later).hash codec then .replay statusCode body
      else .conflict := by
  obtain ⟨upto, since, placed, _⟩ := read.back
  have whole : front ++ back = upto ++ (later, ⟨.lookup (request later).clientId read.key,
      some (some (other, record))⟩) :: (since ++ rest) := by
    rw [split, ← List.cons_append, ← List.append_assoc, ← placed]
  have grown := front_of_split whole (absent_of_quiet quiet)
  have prior : upto <+: front ++ back := ⟨_, whole.symm⟩
  obtain ⟨shelf, earlier, found, here, named⟩ := lookup_found (whole ▸ run)
  obtain ⟨row, there, ours, called, hash, expires, holds⟩ := done.shows earlier empty
    (fresh.upto prior) grown (fun passed => alive (passed.mono prior)) written
  have claimed := Option.some.inj (read.opened.claimed.symm.trans key)
  obtain rfl := (kept earlier empty).unique other id record row found there
    (by rw [here, ours, client]) (by rw [named, called, claimed])
  rw [there] at found
  cases found
  rw [← read.verdict_eq, verdict_holds holds nonempty, hash]
  intro expired
  rw [expires] at expired
  have reading : (later, ⟨.now, read.now⟩) ∈ front ++ back := by
    rw [split]
    exact List.mem_append_left _ read.reading
  exact alive ⟨later, read.now, reading, of_decide_eq_true expired⟩

/-- Once a handler that created a job has stored its response within the grace of its
record, no request of the client with the key that starts later sends anything upstream
before the record's time has passed: it is answered with the stored response, or refused
where its fingerprint is another. -/
theorem created_once (run : Served config codec depth request start (front ++ back) last)
    (empty : start.records.ids = []) (fresh : FreshIds (front ++ back))
    (done : InTime config codec depth request front maker draft id response)
    (alive : ¬Passed draft.expiresAt (front ++ back)) (quiet : own later front = [])
    (client : (request later).clientId = draft.clientId)
    (key : (request later).claimedKey config = some draft.idempotencyKey) :
    (∀ method path body reply, (later, ⟨.forward method path body, reply⟩) ∉ front ++ back) ∧
      ∀ outcome, Ran (handlers config codec depth request later) (own later (front ++ back)) outcome →
        codec.RoundTrips response → depth later ≠ 0 →
        (∀ event ∈ own later (front ++ back), ¬Broken event) →
        (∀ now, (later, ⟨.now, now⟩) ∈ front ++ back →
          now.addSeconds? (max config.ttlSeconds 1) ≠ none) →
        outcome = if draft.requestHash = (request later).hash codec
          then .ok { response with headers := dictOf response.headers }
          else .error (.fcam keyConflict) := by
  obtain ⟨before, upto, _⟩ := run.before
  have grown : front <+: front ++ back := List.prefix_append _ _
  obtain ⟨statusCode, body, stored, written⟩ := done.written upto empty (fresh.upto grown)
    fun passed => alive (passed.mono grown)
  have unmade := done.unmade run empty fresh alive written quiet client key
  refine ⟨fun method path payload reply sent => ?_, fun outcome ran trips deep intact dated => ?_⟩
  · obtain ⟨one, rest, split⟩ := List.append_of_mem sent
    obtain ⟨_, _, _, _, _, _, asking⟩ := (split ▸ run).at
    obtain ⟨draft', id', inserted⟩ := duly asking _ key
    exact unmade draft' id' (split ▸ List.mem_append_left _ (mem_own.mp inserted))
  obtain ⟨nonempty, rebuilt⟩ := deserialize_serialize trips stored
  have known {seen rest : Log Thread} (split : front ++ back = seen ++ rest) {other : Nat}
      {record : RecordColumns} {decision : Verdict}
      (read : ReadRow config codec (request later) (own later seen) other record decision) :=
    done.decided run empty fresh alive written nonempty quiet client key split read
  have handled := wp_history ran (wp_handle (depth later))
  suffices reads : ∃ other record decision, Nonempty
      (ReadRow config codec (request later) (own later (front ++ back)) other record decision) by
    obtain ⟨other, record, decision, ⟨read⟩⟩ := reads
    have ended := handled.read read
    rw [known (List.append_nil _).symm read] at ended
    split at ended <;> rename_i same
    · rw [if_pos same]
      simp only [ending, rebuilt] at ended
      exact (Option.some.inj ended).symm
    · rw [if_neg same]
      exact (Option.some.inj ended).symm
  have made_none {draft' : Draft} {id' : Nat}
      (inserted : ⟨.insert draft', .row id'⟩ ∈ own later (front ++ back)) : False :=
    unmade draft' id' (mem_own.mp inserted)
  have read_now {now : Instant} (read : ⟨.now, now⟩ ∈ own later (front ++ back)) :=
    dated now (mem_own.mp read)
  have taken_none {id' : Nat} (deleted : ⟨.delete id', true⟩ ∈ own later (front ++ back)) :
      False := by
    obtain ⟨one, rest, split⟩ := List.append_of_mem (mem_own.mp deleted)
    obtain ⟨_, _, _, _, _, _, asking⟩ := (split ▸ run).at
    obtain ⟨record, ⟨read⟩⟩ := duly asking
    have decision := known split read
    split at decision <;> cases decision
  generalize own later (front ++ back) = exchange at handled intact made_none read_now taken_none ⊢
  cases handled with
  | unclaimed none =>
    rw [key] at none
    cases none
  | stopped started =>
    cases started with
    | keyless none =>
      rw [key] at none
      cases none
    | unreadable read => exact ⟨_, _, _, ⟨read⟩⟩
    | conflict read => exact ⟨_, _, _, ⟨read⟩⟩
    | busy read => exact ⟨_, _, _, ⟨read⟩⟩
    | broken broken => exact absurd broken (intact _ (by simp))
    | overflown overflow => exact absurd overflow (read_now (by simp))
    | unused none => exact absurd none deep
    | exhausted => exact (taken_none (List.mem_append_right _ (List.mem_singleton_self _))).elim
  | replayed started =>
    cases started with
    | replayed read _ => exact ⟨_, _, _, ⟨read⟩⟩
  | failed started _ =>
    obtain ⟨⟨draft', made⟩, _⟩ := started.owned
    exact (made_none (List.mem_append_left _ made)).elim
  | created started _ _ =>
    obtain ⟨⟨draft', made⟩, _⟩ := started.owned
    exact (made_none (List.mem_append_left _ made)).elim

end

/-- A job is created, and asked for again with the same key. -/
def created : Log Bool × (Bool → Handler UpstreamResponse) × Shelf :=
  twoHandlers {} 0 (fun _ => jobRequest .v2Crawl) (List.replicate 7 false)

/-- What the second request does. -/
def repeated : Log Bool × (Bool → Handler UpstreamResponse) × Shelf :=
  schedule (Shelf.answer 0 (.ok jobResponse)) created.2.1 created.2.2 (List.replicate 4 true)

theorem created_in_time : InTime {} jobCodec (fun _ => 4) (fun _ => jobRequest .v2Crawl) created.1
    false ((jobRequest .v2Crawl).draft jobCodec "k" (86400 * Instant.second)) 1 jobResponse := by
  have third : (created.1[2]?.map fun entry => (entry.1, insertedRow entry.2)) = some (false,
      some ((jobRequest .v2Crawl).draft jobCodec "k" (86400 * Instant.second), 1)) := by
    decide +kernel
  have first : (created.1[0]?.map fun entry => (entry.1, reading entry.2)) =
      some (false, some 0) := by decide +kernel
  obtain ⟨⟨thread, event⟩, found, same⟩ := Option.map_eq_some_iff.mp third
  obtain ⟨rfl, inserted⟩ := Prod.mk.inj same
  obtain rfl := insertedRow_some inserted
  obtain ⟨⟨other, event⟩, found', same⟩ := Option.map_eq_some_iff.mp first
  obtain ⟨rfl, read⟩ := Prod.mk.inj same
  obtain rfl := reading_some read
  exact ⟨List.mem_of_getElem? found, twoHandlers_ran (returned_some (by decide +kernel)), by decide +kernel, by decide +kernel, 0,
    List.mem_of_getElem? found', by decide +kernel⟩

theorem jobCodec_trips : jobCodec.RoundTrips jobResponse :=
  ⟨rfl, by decide, rfl, fun _ _ => rfl⟩

/-- The second request sends nothing and is answered with the response to the first. -/
theorem repeated_once : (true, ⟨.forward "POST" "/v2/crawl" (jobRequest .v2Crawl).payload,
      .ok jobResponse⟩) ∉ created.1 ++ repeated.1 ∧
    ∃ outcome, Ran (handlers {} jobCodec (fun _ => 4) (fun _ => jobRequest .v2Crawl) true)
      (own true (created.1 ++ repeated.1)) outcome ∧
        outcome = .ok { jobResponse with headers := dictOf jobResponse.headers } := by
  have whole : (twoHandlers {} 0 (fun _ => jobRequest .v2Crawl)
      (List.replicate 7 false ++ List.replicate 4 true)).1 = created.1 ++ repeated.1 :=
    schedule_append ..
  have run := twoHandlers_served {} 0 (fun _ => jobRequest .v2Crawl)
    (List.replicate 7 false ++ List.replicate 4 true)
  have ran : Ran (handlers {} jobCodec (fun _ => 4) (fun _ => jobRequest .v2Crawl) true)
      (own true (twoHandlers {} 0 (fun _ => jobRequest .v2Crawl)
        (List.replicate 7 false ++ List.replicate 4 true)).1) (.ok jobResponse) :=
    twoHandlers_ran (returned_some (by decide +kernel))
  rw [whole] at run ran
  have quiet : own true created.1 = [] := List.isEmpty_iff.mp (by decide +kernel)
  obtain ⟨unsent, answered⟩ := created_once run rfl (by decide +kernel) created_in_time
    (by decide +kernel) quiet rfl rfl
  have intact : ∀ event ∈ own true (created.1 ++ repeated.1), ¬Broken event := by decide +kernel
  have dated : ∀ entry ∈ created.1 ++ repeated.1, ∀ now ∈ reading entry.2,
      now.addSeconds? (max ({} : IdempotencyConfig).ttlSeconds 1) ≠ none := by decide +kernel
  refine ⟨unsent _ _ _ _, _, ran, ?_⟩
  rw [answered _ ran jobCodec_trips (by decide) intact fun now read => dated _ read now rfl]
  exact if_pos rfl

/-- The response is too large for the limit, so its record stays unfinished. -/
def oversized : Log Bool × (Bool → Handler UpstreamResponse) × Shelf :=
  twoHandlers { maxResponseBytes := 4 } 200000000 (fun _ => jobRequest .v2Crawl)
    (List.replicate 6 false)

/-- The request comes again when the grace of the record is over. -/
def takenOver : Log Bool × (Bool → Handler UpstreamResponse) × Shelf :=
  schedule (Shelf.answer 200000000 (.ok jobResponse)) oversized.2.1 oversized.2.2
    (List.replicate 10 true)

def sent : Event Op Reply → Bool
  | ⟨.forward _ _ _, _⟩ => true
  | _ => false

theorem sent_true {event : Event Op Reply} (out : sent event = true) :
    ∃ method path body reply, event = ⟨.forward method path body, reply⟩ := by
  unfold sent at out
  split at out
  · exact ⟨_, _, _, _, rfl⟩
  · cases out

/-- The job is created again before its record expires, though the first handler got its
response and came to its end before the second request started. -/
theorem oversized_created_twice :
    (∃ last, Served { maxResponseBytes := 4 } jobCodec (fun _ => 4) (fun _ => jobRequest .v2Crawl)
      emptyShelf (oversized.1 ++ takenOver.1) last) ∧
    Ran (handlers { maxResponseBytes := 4 } jobCodec (fun _ => 4) (fun _ => jobRequest .v2Crawl) false)
      (own false oversized.1) (.ok jobResponse) ∧ own true oversized.1 = [] ∧
    (false, ⟨.insert ((jobRequest .v2Crawl).draft jobCodec "k" (86600 * Instant.second)),
      .row 1⟩) ∈ oversized.1 ∧
    ¬Passed (86600 * Instant.second) (oversized.1 ++ takenOver.1) ∧
    ∃ method path body reply, (true, ⟨.forward method path body, reply⟩) ∈ takenOver.1 := by
  have whole : (twoHandlers { maxResponseBytes := 4 } 200000000 (fun _ => jobRequest .v2Crawl)
      (List.replicate 6 false ++ List.replicate 10 true)).1 = oversized.1 ++ takenOver.1 :=
    schedule_append ..
  have run := twoHandlers_served { maxResponseBytes := 4 } 200000000
    (fun _ => jobRequest .v2Crawl) (List.replicate 6 false ++ List.replicate 10 true)
  rw [whole] at run
  have third : (oversized.1[2]?.map fun entry => (entry.1, insertedRow entry.2)) = some (false,
      some ((jobRequest .v2Crawl).draft jobCodec "k" (86600 * Instant.second), 1)) := by
    decide +kernel
  have tenth : (takenOver.1[9]?.map fun entry => (entry.1, sent entry.2)) = some (true, true) := by
    decide +kernel
  obtain ⟨⟨thread, event⟩, found, same⟩ := Option.map_eq_some_iff.mp third
  obtain ⟨rfl, inserted⟩ := Prod.mk.inj same
  obtain rfl := insertedRow_some inserted
  obtain ⟨⟨other, event⟩, found', same⟩ := Option.map_eq_some_iff.mp tenth
  obtain ⟨rfl, out⟩ := Prod.mk.inj same
  obtain ⟨method, path, body, reply, rfl⟩ := sent_true out
  exact ⟨⟨_, run⟩, twoHandlers_ran (returned_some (by decide +kernel)),
    List.isEmpty_iff.mp (by decide +kernel), List.mem_of_getElem? found, by decide +kernel,
    method, path, body, reply, List.mem_of_getElem? found'⟩

end FcamGateway.Idempotency
