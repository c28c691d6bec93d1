import FcamGateway.ForwardVerdicts
import FcamGateway.RefreshVerdicts

/-! Key tests, quota resets and imports under the watch. A test asks for no active key, but
what it writes is mild or a verdict on the ciphertext that it read; a reset is mild. -/
namespace FcamGateway.KeyVerdicts
open Prog Credits Upstream Forwarder KeyAdmin

set_option linter.unusedSectionVars false

variable {R : Type} [Field R] [LinearOrder R] [ScoreMath R]
  {foreign : Foreign} {masterKey : Bytes} {offer : KeyColumns → Prop}
  {before after history last : Exchange R} {key : KeyObject}

/-- What a test's requests brought. -/
def Heard (foreign : Foreign) (masterKey : Bytes) (offer : KeyColumns → Prop)
    (history : Exchange R) (key : KeyObject) : Except Exn UpstreamReply → Exchange R → Prop
  | .ok (.response resp), last => Answered foreign masterKey offer history key (.ok resp) last
  | .ok _, last => Later Reads history last ∧ Hand Reads offer last key
  | .error _, last => Later Reads history last

/-- A request of a test with the secret of the object. -/
theorem heard {secret : String} {sent : UpstreamRequest} (reply : UpstreamReply)
    (hand : Hand Reads offer last key) (since : Later Reads history last)
    (opened : foreign.decryptApiKey masterKey key.current.apiKeyCiphertext = .ok secret)
    (carries : Carries secret sent) :
    Heard foreign masterKey offer history key (.ok reply)
      (last ++ [⟨.request key.id sent, reply⟩]) := by
  have later := since.then (.request key.id sent) reply False.elim
  have next := hand.later ((Later.refl last).then (.request key.id sent) reply False.elim)
  cases reply with
  | response resp =>
    refine ⟨later, next, fun invalid => ?_⟩
    exact hand.refused (.request key.id sent) (UpstreamReply.response resp) False.elim opened
      ⟨rfl, carries, invalid⟩
  | timeout => exact ⟨later, next⟩
  | httpError text => exact ⟨later, next⟩
  | other => exact ⟨later, next⟩

theorem wp_tryPaths {secret : String} (sent : String → UpstreamRequest) (path : String)
    (rest : List String) (hand : Hand Reads offer last key) (since : Later Reads history last)
    (opened : foreign.decryptApiKey masterKey key.current.apiKeyCiphertext = .ok secret)
    (carries : ∀ path, Carries secret (sent path)) :
    (tryPaths (R := R) key.id sent path rest).wp (watching foreign masterKey Reads offer)
      (Heard foreign masterKey offer history key) last := by
  induction rest generalizing path last with
  | nil => exact wp_put _ _ hand.offered fun reply => heard reply hand since opened (carries path)
  | cons next rest ih =>
    unfold tryPaths
    refine wp_put _ _ hand.offered fun reply => ?_
    have told := heard reply hand since opened (carries path)
    split
    · split
      · exact ih next told.2.1 told.1
      · exact told
    · exact told

/-- The row object that a test returns is in its hands. -/
def TestedKey (offer : KeyColumns → Prop) (history : Exchange R) (id : Nat) :
    Except Exn (KeyTestResult × KeyObject) → Exchange R → Prop
  | .ok (_, key), last => Returned offer history id (.ok key) last
  | .error _, last => Later Reads history last

/-- A test that ends with one function on its row object. -/
theorem wp_tested {program : Gateway R KeyObject} {id : Nat} (ok : Bool) (status : Option Int)
    (since : Later Reads history last)
    (handles : Handles foreign masterKey offer last id program) :
    (program.bind fun key => .done (tested key ok status)).wp
      (watching foreign masterKey Reads offer) (TestedKey offer history id) last := by
  refine (wp_bind _).mpr (wp_mono ?_ handles)
  rintro (error | key) stop returned
  · exact since.trans returned
  · exact ⟨since.trans returned.1, returned.2.1, returned.2.2⟩

theorem wp_testResponse (control : ControlPlane R) (resp : UpstreamResponse)
    (answered : Answered foreign masterKey offer history key (.ok resp) last) :
    (testResponse control key resp).wp (watching foreign masterKey Reads offer)
      (TestedKey offer history key.id) last := by
  obtain ⟨since, hand, evident⟩ := answered
  unfold testResponse
  split
  · exact wp_tested true _ since (wp_markActive hand)
  · split
    · exact wp_tested false _ since (wp_markCooling _ hand)
    · split
      · rename_i invalid
        exact wp_tested false _ since (wp_disableKey hand (evident invalid))
      · split
        · exact wp_tested false _ since (wp_recordFailure control.setup _ _ hand)
        · exact ⟨since, rfl, hand⟩

theorem wp_testResponseExa (control : ControlPlane R) (resp : UpstreamResponse)
    (answered : Answered foreign masterKey offer history key (.ok resp) last) :
    (testResponseExa control key resp).wp (watching foreign masterKey Reads offer)
      (TestedKey offer history key.id) last := by
  obtain ⟨told, hand, evident⟩ := answered
  -- the three tests one after the other, each on the object that the one before left
  have step {chosen : Prop} [Decidable chosen] {current : KeyObject} {middle : Exchange R}
      {program : Gateway R KeyObject} {rest : KeyObject → Gateway R (KeyTestResult × KeyObject)}
      (since : Later Reads last middle) (same : current.id = key.id)
      (hand : Hand Reads offer middle current)
      (handles : chosen → Handles foreign masterKey offer middle current.id program)
      (next : ∀ current stop, Later Reads last stop → current.id = key.id →
        Hand Reads offer stop current → (rest current).wp (watching foreign masterKey Reads offer)
          (TestedKey offer history key.id) stop) :
      (if chosen then program.bind rest else rest current).wp
        (watching foreign masterKey Reads offer) (TestedKey offer history key.id) middle := by
    split
    · rename_i taken
      refine (wp_bind _).mpr (wp_mono ?_ (handles taken))
      rintro (error | current) stop returned
      · exact told.trans (since.trans returned)
      · exact next current stop (since.trans returned.1) (returned.2.1.trans same) returned.2.2
    · exact next current middle since same hand
  unfold testResponseExa
  split
  · exact wp_tested true _ told (wp_markActive hand)
  · refine step (Later.refl last) rfl hand (fun _ => wp_markCooling _ hand) ?_
    intro current middle since same hand
    refine step since same hand (fun invalid => ?_) ?_
    · exact wp_disabled same hand ((evident invalid).later since)
    · intro current stop since same hand
      refine step since same hand (fun _ => wp_recordFailure control.setup _ _ hand) ?_
      exact fun current stop since same hand => ⟨told.trans since, same, hand⟩

theorem wp_testKey (control : ControlPlane R) (requestId mode testUrl : String)
    (known : ∀ other, control.setup.masterKey = some other → other = masterKey)
    (hand : Hand Reads offer history key) :
    (testKey control requestId key mode testUrl).wp
      (watching control.setup.foreign masterKey Reads offer) (TestedKey offer history key.id)
      history := by
  unfold testKey
  split
  · exact Later.refl history
  · rename_i given same
    obtain rfl := known given same
    dsimp only
    generalize (if key.current.provider = "" then "firecrawl" else key.current.provider) = provider
    split
    · exact Later.refl history
    split
    · rename_i error failed
      exact wp_tested false none (Later.refl history) (wp_disableKeyDecryptFailed hand failed)
    · rename_i secret opened
      split
      · exact Later.refl history
      have carries (url : String) (json : Json) :
          Carries secret (testRequest control requestId provider secret url json) :=
        carries_secret control.setup.config provider secret _ _ _ _
      have recorded (reason : String) {last : Exchange R}
          (told : Later Reads history last ∧ Hand Reads offer last key) :
          ((recordFailure control.setup key reason none).bind fun key =>
            .done (tested key false none)).wp (watching control.setup.foreign given Reads offer)
            (TestedKey offer history key.id) last :=
        wp_tested false none told.1 (wp_recordFailure control.setup reason none told.2)
      split
      · refine wp_put _ _ hand.offered fun reply => ?_
        have told := heard reply hand (Later.refl history) opened (carries "/search"
          (.obj [("query", .str "test"), ("numResults", .int 1)]))
        cases reply with
        | other => exact told.1
        | timeout => exact recorded "timeout" told
        | httpError text => exact recorded "http_error" told
        | response resp => exact wp_testResponseExa control resp told
      · refine (wp_bind _).mpr (wp_mono ?_ (wp_tryPaths _ _ _ hand (Later.refl history) opened
          fun path => carries path (.obj [("url", .str testUrl)])))
        rintro (error | _ | _ | _ | _) last told
        · exact told
        · exact wp_testResponse control _ told
        · exact recorded "timeout" told
        · exact recorded "http_error" told
        · exact told.1

/-- A commit of an object in hand that was assigned nothing. -/
theorem demand_unchanged {client : Option ClientObject} {site : Site}
    (hand : Hand Reads offer history key) :
    Demand foreign masterKey Reads offer history (.commit { site, keys := [key], client }) :=
  Allowed.demand hand.clean (.mild hand.clean rfl rfl (.inl rfl))

theorem wp_testAndCommit (control : ControlPlane R) (requestId mode testUrl : String)
    (known : ∀ other, control.setup.masterKey = some other → other = masterKey)
    (hand : Hand Reads offer history key) :
    (testAndCommit control requestId key mode testUrl).wp
      (watching control.setup.foreign masterKey Reads offer) (TestedKey offer history key.id)
      history := by
  unfold testAndCommit
  refine (wp_attempt _).mpr ((wp_bind _).mpr (wp_mono ?_
    (wp_testKey control requestId mode testUrl known hand)))
  rintro (error | ⟨result, next⟩) last told
  · cases error <;> exact told
  · obtain ⟨later, same, hand⟩ := told
    refine wp_put _ _ (demand_unchanged hand) fun written => ?_
    have later := later.then (.commit _) written False.elim
    cases written with
    | false => exact later
    | true =>
      refine wp_put _ _ trivial fun row => ?_
      have later := later.then (.reload next.id) row False.elim
      cases row with
      | none => exact later
      | some row =>
        have offered := hand.offered.later ((Later.refl last).then
          (.commit { site := .admin, keys := [next] }) true False.elim)
        exact ⟨later, same, hand_reloaded offered⟩

theorem wp_testKeyEndpoint (control : ControlPlane R) (requestId : String) (keyId : Nat)
    (mode testUrl : String)
    (known : ∀ other, control.setup.masterKey = some other → other = masterKey) :
    (testKeyEndpoint control requestId keyId mode testUrl).wp
      (watching control.setup.foreign masterKey Reads fun _ => True) (fun _ _ => True) history := by
  unfold testKeyEndpoint
  refine wp_loadKey keyId _ _ (fun _ _ => trivial) fun row => ?_
  refine (wp_bind _).mpr (wp_mono ?_ (wp_testAndCommit control requestId mode testUrl known
    (hand_found keyId trivial)))
  rintro (error | result) last _ <;> trivial

theorem wp_resetKeysQuota (today : Int) :
    (resetKeysQuota (R := R) today).wp (watching foreign masterKey Reads offer) (fun _ _ => True)
      history := by
  unfold resetKeysQuota
  refine wp_put _ _ trivial fun found => ?_
  cases found with
  | none => trivial
  | some keys =>
    refine wp_put _ _ (fun object member => ?_) fun written => ?_
    · obtain ⟨entry, _, rfl⟩ := List.mem_map.mp member
      have clean : (KeyObject.fresh entry.1 entry.2).current =
          (KeyObject.fresh entry.1 entry.2).loaded := rfl
      refine Allowed.meets clean (.mild clean rfl rfl ?_)
      by_cases exceeded : entry.2.status = "quota_exceeded" ∧ entry.2.isActive
      · exact .inr ⟨"active", by decide, if_pos exceeded⟩
      · exact .inl (if_neg exceeded)
    · cases written <;> trivial

end FcamGateway.KeyVerdicts
