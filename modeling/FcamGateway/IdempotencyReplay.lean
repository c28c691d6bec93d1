import FcamGateway.IdempotencyLife

/-! What a replay says about the request behind it. The fingerprint of a request is
its method, the logical name of its endpoint and its payload; the path, the version
and the query it is forwarded with are not part of it. -/
namespace FcamGateway.Idempotency
open Prog JsonText

set_option linter.unusedSectionVars false

/-- Requests of one fingerprint: the same logical endpoint, and payloads that agree up
to the order of members. -/
structure Alike (one other : Incoming) : Prop where
  label : one.endpoint.label = other.endpoint.label
  payload : canonical one.payload = canonical other.payload

theorem canonical_request (method endpoint : String) (payload : Json) :
    canonical (.obj [("method", .str method), ("endpoint", .str endpoint), ("payload", payload)]) =
      .obj [("endpoint", .str endpoint), ("method", .str method), ("payload", canonical payload)] := by
  have first : "endpoint" < "payload" := by decide
  have second : ¬"method" < "endpoint" := by decide
  have third : "method" < "payload" := by decide
  simp only [canonical, canonicalMembers, insertMember, if_pos first, if_pos third, if_neg second,
    String.reduceEq, if_false]

theorem Alike.hash {codec : Codec} {one other : Incoming} (alike : Alike one other) :
    one.hash codec = other.hash codec := by
  simp only [Incoming.hash, hashRequest]
  refine congrArg (fun text => codec.sha256 (String.ofList text)) (dumps_inj.mpr ?_)
  rw [canonical_request, canonical_request, alike.label, alike.payload]

theorem hash_eq {codec : Codec} (injective : Function.Injective codec.sha256) {one other : Incoming} :
    one.hash codec = other.hash codec ↔ Alike one other := by
  refine ⟨fun same => ?_, Alike.hash⟩
  simp only [Incoming.hash, hashRequest] at same
  rw [injective.eq_iff, String.ofList_inj, dumps_inj, canonical_request, canonical_request] at same
  simp only [Json.obj.injEq, List.cons.injEq, Prod.mk.injEq, Json.str.injEq, true_and,
    and_true] at same
  exact ⟨same.1, same.2⟩

variable {Thread : Type} [DecidableEq Thread] {config : IdempotencyConfig} {codec : Codec}
  {depth : Thread → Nat} {request : Thread → Incoming} {start last : Shelf} {trace : Log Thread}
  {thread : Thread} {id : Nat} {record : RecordColumns} {decided : Verdict}

/-- A request that is answered from a record was made by a request of the same client,
key and fingerprint; a request of another fingerprint that reads a record before its
time ends with a conflict. -/
theorem replay_alike (injective : Function.Injective codec.sha256)
    (run : Served config codec depth request start trace last) (empty : start.records.ids = [])
    (read : ReadRow config codec (request thread) (own thread trace) id record decided) :
    ∃ made maker draft, Inserts config codec request trace made maker draft id ∧
      (request maker).clientId = (request thread).clientId ∧
      (request maker).claimedKey config = (request thread).claimedKey config ∧
      (∀ response, Ran (handlers config codec depth request thread) (own thread trace)
        (.ok response) → Alike (request maker) (request thread)) ∧
      (¬record.expiresAt.any (· < read.now) → ¬Alike (request maker) (request thread) →
        ∀ outcome, Ran (handlers config codec depth request thread) (own thread trace) outcome →
          outcome = .error (.fcam keyConflict)) := by
  obtain ⟨upto, since, split, _⟩ := read.back
  obtain ⟨shelf, earlier, found, client, key⟩ := lookup_found (split ▸ run)
  obtain ⟨made, maker, draft, inserts, rowOf⟩ := (kept earlier empty).rows id record found
  have drafted := inserts.drafted
  have fingerprint : record.requestHash = (request maker).hash codec :=
    rowOf.hash.trans (congrArg Draft.requestHash drafted)
  have prior : upto <+: trace := ⟨_, split.symm⟩
  refine ⟨made, maker, draft, inserts.mono prior, ?_, ?_, fun response ran => ?_, ?_⟩
  · rw [← client, rowOf.client, drafted]
    rfl
  · rw [inserts.claimed, read.opened.claimed, ← key, rowOf.key]
  · have ended := (wp_history ran (wp_handle (depth thread))).read read
    refine (hash_eq injective).mp (fingerprint.symm.trans ?_)
    cases decided with
    | replay statusCode body => exact (verdict_replay read.verdict_eq).1
    | takeOver => cases ended
    | conflict => cases ended
    | busy => cases ended
  · intro alive unlike outcome ran
    have ended := (wp_history ran (wp_handle (depth thread))).read read
    have differ : record.requestHash ≠ (request thread).hash codec := fun same =>
      unlike ((hash_eq injective).mp (fingerprint.symm.trans same))
    obtain rfl := read.verdict_eq.symm.trans ((verdict_conflict alive).mpr differ)
    exact (Option.some.inj ended).symm

/-- The same job is asked for through `/api/crawl` and then through `/v2/crawl`. -/
def crawlTwice : Bool → Incoming
  | false => jobRequest .apiCrawl
  | true => jobRequest .v2Crawl

def crossing : Log Bool × (Bool → Handler UpstreamResponse) × Shelf :=
  twoHandlers {} 0 crawlTwice (List.replicate 7 false ++ List.replicate 4 true)

theorem crossing_ran : Ran (handlers {} jobCodec (fun _ => 4) crawlTwice true)
    (own true crossing.1) (.ok jobResponse) :=
  twoHandlers_ran (returned_some (by decide +kernel))

theorem crossing_unmade : ∀ draft id, ⟨.insert draft, .row id⟩ ∉ own true crossing.1 := by
  have none : ∀ event ∈ own true crossing.1, insertedRow event = none := by decide +kernel
  intro draft id inserted
  cases none _ inserted

theorem crossing_alike : ∃ made maker draft id,
    Inserts {} jobCodec crawlTwice crossing.1 made maker draft id ∧
      Alike (crawlTwice maker) (crawlTwice true) := by
  obtain ⟨id, record, statusCode, body, ⟨read⟩, _⟩ :=
    (wp_history crossing_ran (wp_handle 4)).answered (by decide) crossing_unmade
  obtain ⟨made, maker, draft, inserts, _, _, alike, _⟩ := replay_alike Function.injective_id
    (twoHandlers_served {} 0 crawlTwice _) rfl read
  exact ⟨made, maker, draft, id, inserts, alike jobResponse crossing_ran⟩

/-- The second request is answered from the record of the first, though it would have
been forwarded to another path. -/
theorem replay_crosses_versions :
    Served {} jobCodec (fun _ => 4) crawlTwice emptyShelf crossing.1 crossing.2.2 ∧
      Function.Injective jobCodec.sha256 ∧
      Ran (handlers {} jobCodec (fun _ => 4) crawlTwice true) (own true crossing.1)
        (.ok jobResponse) ∧
      (∀ draft id, ⟨.insert draft, .row id⟩ ∉ own true crossing.1) ∧
      (crawlTwice false).endpoint.primaryPath (crawlTwice false).query ≠
        (crawlTwice true).endpoint.primaryPath (crawlTwice true).query :=
  ⟨twoHandlers_served {} 0 crawlTwice _, Function.injective_id, crossing_ran, crossing_unmade,
    by decide⟩

end FcamGateway.Idempotency
