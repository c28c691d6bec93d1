import FcamGateway.KeyVerdicts
import FcamGateway.Selection

/-! A forward under the watch: it uses a key only when its last reading found the key active,
and whatever it writes in a row is mild or a verdict on the ciphertext that it read. -/
namespace FcamGateway.KeyVerdicts
open Prog Credits Upstream Forwarder

set_option linter.unusedSectionVars false

variable {R : Type} [Field R] [LinearOrder R] [ScoreMath R]
  {foreign : Foreign} {masterKey : Bytes} {offer : KeyColumns → Prop}
  {before after history last : Exchange R} {key : KeyObject} {setup : Setup R}

theorem wp_zeroCredits (hand : Hand Reads offer history key) :
    Settles foreign masterKey offer history (zeroCredits (R := R) key) := by
  unfold zeroCredits
  refine wp_commit .zeroCredits none key _ hand (.mild hand.clean rfl rfl (.inl rfl)) ?_ ?_
  · exact fun last later _ => later
  · exact fun last later _ => later

/-- The usage counters are written with an object whose credits may have been estimated. -/
theorem wp_consumeQuotaOnSuccess (client : ClientObject) {columns : KeyColumns}
    (hand : Hand Reads offer history key) (active : columns.isActive = key.current.isActive)
    (sealed : columns.apiKeyCiphertext = key.current.apiKeyCiphertext)
    (status : columns.status = key.current.status) :
    Settles foreign masterKey offer history
      (consumeQuotaOnSuccess (R := R) client { key with current := columns }) := by
  unfold consumeQuotaOnSuccess
  refine wp_put _ _ trivial fun usedAt => wp_put _ _ trivial fun keyUsedAt => ?_
  have later : Later Reads history _ :=
    ((Later.refl history).then .now usedAt False.elim).then .now keyUsedAt False.elim
  have hand := hand.later later
  refine wp_commit .quota _ key _ hand (.mild hand.clean active sealed (.inl status)) ?_ ?_
  · exact fun last since _ => later.trans since
  · intro last since hand
    refine (wp_bind _).mpr (wp_mono ?_ (wp_rollback ?_))
    · rintro (error | reloaded) stop returned
      · exact later.trans (since.trans returned)
      · exact later.trans (since.trans returned.1)
    · exact hand.offered

theorem wp_countUsage (setup : Setup R) (client : ClientObject) (estimate : Option Int)
    (hand : Hand Reads offer history key) :
    Settles foreign masterKey offer history (countUsage setup client key estimate) := by
  unfold countUsage
  split
  · cases estimate with
    | none => exact wp_consumeQuotaOnSuccess client hand rfl rfl rfl
    | some remaining => exact wp_consumeQuotaOnSuccess client hand rfl rfl rfl
  · cases estimate with
    | none => exact Later.refl history
    | some remaining =>
      refine (wp_bind _).mpr (wp_mono ?_ (wp_commitKey .localCredits hand
        (.mild hand.clean rfl rfl (.inl rfl))))
      rintro (error | saved) last returned
      · exact returned
      · exact returned.1

theorem wp_settleResponse (setup : Setup R) (call : Call) (resp : UpstreamResponse)
    (hand : Hand Reads offer history key) :
    Settles foreign masterKey offer history (settleResponse setup call key resp) := by
  unfold settleResponse
  split
  · refine (wp_bind _).mpr (wp_mono ?_ (wp_countUsage setup call.client _ hand))
    rintro (error | _) last later
    · exact later
    · exact wp_put _ _ trivial fun reply => later.then _ reply False.elim
  · exact Later.refl history

theorem wp_refreshCreditsOn4xx (statusCode : Int)
    (known : ∀ other, setup.masterKey = some other → other = masterKey)
    (hand : Hand Reads offer history key) :
    Handles setup.foreign masterKey offer history key.id (refreshCreditsOn4xx setup key statusCode) := by
  unfold refreshCreditsOn4xx
  refine (wp_bind _).mpr (wp_mono ?_ (wp_poolRecordFailure key.id _ (some statusCode)))
  rintro (error | _) middle later
  · exact later
  · exact (wp_refreshCreditsAfter4xx setup.config known (hand.later later)).mono later

/-- The headers of a request hold the secret. -/
theorem carries_secret (config : AppConfig R) (provider secret : String)
    (safe : List (String × String)) (method url : String) (json : Option Json) :
    Carries secret
      { method, url, json, headers := upstreamHeaders safe (providerAuthHeader config provider secret) } := by
  have sent (name value : String) (named : PyText.lower name ∈ ["authorization", "x-api-key"])
      (auth : List (String × String)) (member : (name, value) ∈ auth) :
      (name, value) ∈ upstreamHeaders safe auth := by
    refine List.mem_filter.mpr ⟨List.mem_append_right _ member, ?_⟩
    rw [decide_eq_true named, Bool.not_true, Bool.and_false, Bool.not_false]
  have bearer : ("authorization", "Bearer " ++ secret) ∈
      upstreamHeaders safe [("authorization", "Bearer " ++ secret)] :=
    sent _ _ (by decide) _ (List.mem_singleton_self _)
  simp only [Carries, providerAuthHeader]
  split
  · exact .inl bearer
  · split
    · split
      · exact .inr (sent _ _ (by decide) _ (List.mem_singleton_self _))
      · exact .inl bearer
    · exact .inl bearer

/-- A response to a request with the secret of the object. -/
def Answered (foreign : Foreign) (masterKey : Bytes) (offer : KeyColumns → Prop)
    (history : Exchange R) (key : KeyObject) : Except Exn UpstreamResponse → Exchange R → Prop
  | .ok resp, last => Later Reads history last ∧ Hand Reads offer last key ∧
    (classifyUpstreamOutcome resp = .invalidKey →
      Evident foreign masterKey Reads last key.id "invalid" key.current.apiKeyCiphertext)
  | .error _, last => Later Reads history last

theorem Answered.later {outcome : Except Exn UpstreamResponse}
    (answered : Answered foreign masterKey offer history key outcome before)
    (later : Later Reads before after) :
    Answered foreign masterKey offer history key outcome after := by
  cases outcome with
  | error error => exact Later.trans answered later
  | ok resp =>
    obtain ⟨since, hand, evident⟩ := answered
    exact ⟨since.trans later, hand.later later, fun invalid => (evident invalid).later later⟩

/-- A request whose transport errors are recorded. -/
theorem wp_sendUpstream {secret : String} (setup : Setup R) (call : Call)
    (hand : Hand Reads offer history key)
    (opened : setup.foreign.decryptApiKey masterKey key.current.apiKeyCiphertext = .ok secret) :
    (sendUpstream setup call key secret).wp (watching setup.foreign masterKey Reads offer)
      (Answered setup.foreign masterKey offer history key) history := by
  unfold sendUpstream
  refine wp_put _ _ hand.offered fun reply => ?_
  have later : Later Reads history _ :=
    (Later.refl history).then (.request key.id (upstreamRequest setup call secret)) reply False.elim
  have recorded (reason : String) (error : FcamError) :
      ((recordFailure setup key reason none).bind fun _ => reject error).wp
        (watching setup.foreign masterKey Reads offer)
        (Answered setup.foreign masterKey offer history key)
        (history ++ [⟨.request key.id (upstreamRequest setup call secret), reply⟩]) := by
    refine (wp_bind _).mpr (wp_mono ?_ (wp_recordFailure setup reason none (hand.later later)))
    rintro (error | saved) last returned
    · exact later.trans returned
    · exact later.trans returned.1
  cases reply with
  | response resp =>
    refine ⟨later, hand.later later, fun invalid => ?_⟩
    refine hand.refused (.request key.id _) (UpstreamReply.response resp) False.elim opened
      ⟨rfl, ?_, invalid⟩
    exact carries_secret setup.config call.provider secret _ call.method call.upstreamPath call.jsonBody
  | timeout => exact recorded "timeout" _
  | httpError text => exact recorded "http_error" _
  | other => exact later

/-- The lease is released whatever the outcome is. -/
theorem wp_released {program : Gateway R Value} {post : Except Exn Value → Exchange R → Prop}
    (keyId : Nat) (met : program.wp (watching foreign masterKey Reads offer)
      (fun outcome last => ∀ reply, post outcome (last ++ [⟨.release keyId, reply⟩])) history) :
    (program.ensuring (query (.release keyId))).wp (watching foreign masterKey Reads offer) post
      history := by
  refine (wp_ensuring _).mpr (wp_mono ?_ met)
  intro outcome last holds
  refine wp_put _ _ trivial fun reply => ?_
  have ended := holds reply
  cases outcome <;> exact ended

theorem wp_pinnedRequest (setup : Setup R) (call : Call) (hand : Hand Reads offer history key) :
    (pinnedRequest setup call masterKey key).wp (watching setup.foreign masterKey Reads offer)
      (Answered setup.foreign masterKey offer history key) history := by
  unfold pinnedRequest
  refine wp_released key.id ?_
  split
  · rename_i error failed
    refine (wp_bind _).mpr (wp_mono ?_ (wp_disableKeyDecryptFailed hand failed))
    rintro (raised | disabled) last returned reply
    · exact Later.then returned _ reply False.elim
    · exact returned.1.then _ reply False.elim
  · rename_i secret opened
    refine wp_mono ?_ (wp_sendUpstream setup call hand opened)
    exact fun outcome last answered reply => answered.later (.asked reply False.elim)

/-- The response to the request of the pool, where there was one. -/
def Polled (foreign : Foreign) (masterKey : Bytes) (offer : KeyColumns → Prop)
    (history : Exchange R) (key : KeyObject) :
    Except Exn (Option UpstreamResponse) → Exchange R → Prop
  | .ok (some resp), last => Answered foreign masterKey offer history key (.ok resp) last
  | _, _ => True

theorem wp_poolRequest (setup : Setup R) (call : Call) (hand : Hand Reads offer history key) :
    (poolRequest setup call masterKey key).wp (watching setup.foreign masterKey Reads offer)
      (Polled setup.foreign masterKey offer history key) history := by
  unfold poolRequest
  refine wp_released key.id ?_
  split
  · rename_i error failed
    refine (wp_bind _).mpr (wp_mono ?_ (wp_disableKeyDecryptFailed hand failed))
    rintro (raised | disabled) last returned reply
    · trivial
    · trivial
  · rename_i secret opened
    refine (wp_bind _).mpr (wp_mono ?_ (wp_sendUpstream setup call hand opened))
    rintro (error | resp) last answered reply
    · trivial
    · exact Answered.later answered (.asked reply False.elim)

/-- The objects that a result leaves to its caller's commit are mild. -/
def Harmless (unsaved : List KeyObject) : Prop := ∀ key ∈ unsaved, Kept key ∧ ¬ Condemns key

/-- How a turn of the pool loop ends. -/
def Turned : Except Exn (Turn (ForwardResult R) (Progress R)) → Exchange R → Prop
  | .ok (.leave result), _ => Harmless result.unsaved
  | _, _ => True

theorem turned_failOver (call : Call) (progress : Progress R) (keyId : Nat)
    (resp : UpstreamResponse) (last : Exchange R) :
    Turned (.ok (failOver call progress keyId resp)) last := by
  unfold failOver
  dsimp only
  split
  · exact fun key member => absurd member List.not_mem_nil
  · trivial

/-- The object after a refresh is the key's own, and the verdict on its secret stands if its
ciphertext is still the one that was refused. -/
theorem wp_disabled {ciphertext : Bytes} {id : Nat} (same : key.id = id)
    (hand : Hand Reads offer history key)
    (refused : Evident foreign masterKey Reads history id "invalid" ciphertext) :
    Handles foreign masterKey offer history key.id (disableKey (R := R) key) := by
  subst same
  exact wp_disableKey hand refused

theorem wp_poolResponse (call : Call) (progress : Progress R) (resp : UpstreamResponse)
    (known : ∀ other, setup.masterKey = some other → other = masterKey)
    (answered : Answered setup.foreign masterKey offer history key (.ok resp) last) :
    (poolResponse setup call progress key resp).wp (watching setup.foreign masterKey Reads offer)
      Turned last := by
  obtain ⟨later, hand, evident⟩ := answered
  have left (retryCount : Int) : Turned (.ok (.leave (progress.result resp retryCount))) last :=
    fun key member => absurd member List.not_mem_nil
  unfold poolResponse
  split
  · refine (wp_bind _).mpr (wp_mono ?_ (wp_refreshCreditsOn4xx _ known hand))
    rintro (error | refreshed) middle returned
    · trivial
    refine (wp_bind _).mpr (wp_mono ?_ (wp_markCooling _ returned.2.2))
    rintro (error | cooled) stop _
    · trivial
    · exact turned_failOver call progress key.id resp stop
  · refine (wp_bind _).mpr (wp_mono ?_ (wp_refreshCreditsOn4xx _ known hand))
    rintro (error | refreshed) middle returned
    · trivial
    refine (wp_bind _).mpr (wp_mono ?_ (wp_zeroCredits returned.2.2))
    rintro (error | _) stop _
    · trivial
    · exact turned_failOver call progress key.id resp stop
  · rename_i invalid
    refine (wp_bind _).mpr (wp_mono ?_ (wp_refreshCreditsOn4xx _ known hand))
    rintro (error | refreshed) middle returned
    · trivial
    refine (wp_bind _).mpr (wp_mono ?_ (wp_disabled returned.2.1 returned.2.2
      ((evident invalid).later returned.1)))
    rintro (error | disabled) stop _
    · trivial
    · exact turned_failOver call progress key.id resp stop
  · refine (wp_bind _).mpr (wp_mono ?_ (wp_recordFailure setup _ _ hand))
    rintro (error | recorded) stop _
    · trivial
    · exact left _
  · refine (wp_bind _).mpr (wp_mono ?_ (wp_settleResponse setup call resp hand))
    rintro (error | _) stop _
    · trivial
    · exact left _

/-- How an attempt with the pinned key ends. -/
def Attempted (offer : KeyColumns → Prop) :
    Except Exn (Turn (ForwardResult R) (KeyObject × Progress R)) → Exchange R → Prop
  | .ok (.leave result), _ => Harmless result.unsaved
  | .ok (.again loop), last => Hand Reads offer last loop.1
  | .error _, _ => True

theorem wp_pinnedTurn (call : Call) (attempt : Nat) (progress : Progress R)
    (known : ∀ other, setup.masterKey = some other → other = masterKey)
    (hand : Hand Reads offer history key) :
    (pinnedTurn setup call masterKey attempt (key, progress)).wp
      (watching setup.foreign masterKey Reads offer) (Attempted offer) history := by
  have left (progress : Progress R) (resp : UpstreamResponse) (last : Exchange R) :
      Attempted offer (.ok (.leave (progress.result resp progress.retryCount))) last :=
    fun key member => absurd member List.not_mem_nil
  unfold pinnedTurn
  refine wp_put _ _ hand.offered fun limited => ?_
  have later : Later Reads history _ :=
    (Later.refl history).then (.allow key.id key.current.rateLimitPerMin) limited False.elim
  rcases limited with _ | ⟨_ | _, retryAfter⟩
  · trivial
  · trivial
  have allowed := hand.later later
  refine wp_put _ _ allowed.offered fun slot => ?_
  have later := later.then (.acquire key.id key.current.maxConcurrent) slot False.elim
  rcases slot with _ | _ | _
  · trivial
  · trivial
  have leased := hand.later later
  refine (wp_bind _).mpr (wp_mono ?_ (wp_pinnedRequest setup call leased))
  rintro (error | resp) middle answered
  · trivial
  obtain ⟨_, hand, evident⟩ := answered
  simp only [thenPost]
  split
  · refine (wp_bind _).mpr (wp_mono ?_ (wp_refreshCreditsOn4xx _ known hand))
    rintro (error | refreshed) last returned
    · trivial
    refine (wp_bind _).mpr (wp_mono ?_ (wp_markCooling _ returned.2.2))
    rintro (error | cooled) stop cooling
    · trivial
    simp only [thenPost]
    split
    · exact left _ resp stop
    · exact cooling.2.2
  · rename_i invalid
    refine (wp_bind _).mpr (wp_mono ?_ (wp_refreshCreditsOn4xx _ known hand))
    rintro (error | refreshed) last returned
    · trivial
    refine (wp_bind _).mpr (wp_mono ?_ (wp_disabled returned.2.1 returned.2.2
      ((evident invalid).later returned.1)))
    rintro (error | disabled) stop _
    · trivial
    · exact left _ resp stop
  · refine (wp_bind _).mpr (wp_mono ?_ (wp_recordFailure setup _ _ hand))
    rintro (error | recorded) stop _
    · trivial
    · exact left _ resp stop
  · have settled {last : Exchange R} (hand : Hand Reads offer last key) (progress : Progress R) :
        ((settleResponse setup call key resp).bind fun _ =>
          (.done (.leave (progress.result resp progress.retryCount)) :
            Gateway R (Turn (ForwardResult R) (KeyObject × Progress R)))).wp
          (watching setup.foreign masterKey Reads offer) (Attempted offer) last := by
      refine (wp_bind _).mpr (wp_mono ?_ (wp_settleResponse setup call resp hand))
      rintro (error | _) stop _
      · trivial
      · exact left _ resp stop
    split
    · refine (wp_bind _).mpr (wp_mono ?_ (wp_refreshCreditsOn4xx _ known hand))
      rintro (error | refreshed) last returned
      · trivial
      refine (wp_bind _).mpr (wp_mono ?_ (wp_zeroCredits returned.2.2))
      rintro (error | _) stop since
      · trivial
      · exact settled (hand.later (returned.1.trans since)) _
    · exact settled hand _

theorem wp_pinnedLoop (call : Call) (left : Nat) (progress : Progress R)
    (known : ∀ other, setup.masterKey = some other → other = masterKey)
    (hand : Hand Reads offer history key) :
    (pinnedLoop setup call masterKey left (key, progress)).wp
      (watching setup.foreign masterKey Reads offer) Turned history := by
  induction left generalizing key progress history with
  | zero => trivial
  | succ left ih =>
    unfold pinnedLoop
    refine (wp_bind _).mpr (wp_mono ?_ (wp_pinnedTurn call _ progress known hand))
    rintro (error | result | loop) last attempted
    · trivial
    · exact attempted
    · exact ih loop.2 attempted

/-- What a reactivation writes is mild. -/
theorem mild_reactivate (clean : key.current = key.loaded) :
    Kept (KeyPool.reactivate key) ∧ ¬ Condemns (KeyPool.reactivate key) := by
  have same : (KeyPool.reactivate key).current.isActive = key.loaded.isActive := by
    rw [← clean]
    rfl
  have sealed : (KeyPool.reactivate key).current.apiKeyCiphertext = key.loaded.apiKeyCiphertext := by
    rw [← clean]
    rfl
  refine ⟨⟨fun on => same.symm.trans on, sealed⟩, ?_⟩
  · rintro (⟨off, on⟩ | ⟨condemning, changed⟩)
    · rw [same] at off
      exact Bool.false_ne_true (off.symm.trans on)
    · by_cases cooling : PyText.lower key.current.status ∈ KeyPool.coolingStatuses
      · have active : (KeyPool.reactivate key).current.status = "active" := if_pos cooling
        rw [active] at condemning
        exact absurd condemning (by decide)
      · have unchanged : (KeyPool.reactivate key).current.status = key.current.status :=
          if_neg cooling
        refine changed ?_
        rw [unchanged, clean]
        rfl

theorem mild_reactivated {view : PoolView R} {weights : KeyPool.Weights R} {provider : String}
    {exclude : List Nat} : Harmless (KeyPool.scanKeys view weights provider exclude).reactivated := by
  intro key member
  obtain ⟨loaded, listed, rfl, _⟩ := KeyPool.reactivated_rested member
  exact mild_reactivate (KeyPool.mem_providerKeys.mp listed).2.1

/-- How a selection ends. -/
def Selected (offer : KeyColumns → Prop) :
    Except Exn (Except KeyPool.Unselected (KeyPool.SelectedKey R)) → Exchange R → Prop
  | .ok (.ok selected), last => Hand Reads offer last selected.apiKey
  | .ok (.error failed), _ => Harmless failed.unsaved
  | .error _, _ => True

/-- The object of a selection after the rows it reactivates were committed. -/
theorem hand_selected {view : PoolView R} {weights : KeyPool.Weights R} {provider : String}
    {exclude exclude' : List Nat} {selected : KeyPool.SelectedKey R}
    (active : ∀ row : KeyColumns, row.isActive = true → offer row)
    (decided : KeyPool.decision view weights provider exclude = .ok selected)
    (later : Later Reads (history ++ [⟨.readPool provider exclude', some view⟩]) last) :
    Hand Reads offer last selected.apiKey.saved := by
  obtain ⟨_, key, listed, chosen, eligible⟩ := KeyPool.decision_eligible decided
  obtain ⟨found, clean, _⟩ := KeyPool.mem_providerKeys.mp listed
  obtain ⟨late, rfl, quiet⟩ := later
  have on : key.loaded.isActive = true := by
    have enabled := eligible.enabled
    simp only [KeyPool.isDisabled, clean] at enabled
    split at enabled
    · cases enabled
    · rename_i on
      simpa using on
  have since : Since Reads (history ++ [⟨.readPool provider exclude', some view⟩] ++ late)
      ⟨.readPool provider exclude', some view⟩ late :=
    ⟨⟨history, List.append_assoc _ _ _⟩, quiet⟩
  have same : selected.apiKey.id = key.id := by rw [chosen, KeyPool.id_settled]
  have loaded : loadedRow selected.apiKey.saved.id
      (⟨.readPool provider exclude', some view⟩ : Event (Op R) (Reply R)) = some key.loaded := by
    rw [KeyObject.id_saved, same]
    exact found
  refine ⟨rfl, ⟨_, late, key.loaded, since, loaded, ?_⟩,
    ⟨_, late, key.loaded, since, trivial, loaded, active _ on⟩⟩
  rw [KeyObject.current_saved, chosen, ← clean]
  simp only [KeyPool.settled]
  split <;> rfl

theorem wp_select (config : AppConfig R) (runtime : Option (RuntimeScheduling R)) (provider : String)
    (exclude : List Nat) (active : ∀ row : KeyColumns, row.isActive = true → offer row) :
    (KeyPool.select config runtime provider exclude).wp (watching foreign masterKey Reads offer)
      (Selected offer) history := by
  unfold KeyPool.select
  refine wp_put _ _ trivial fun found => ?_
  cases found with
  | none => exact fun key member => absurd member List.not_mem_nil
  | some view =>
    refine wp_put _ _ trivial fun kept => ?_
    have later : Later Reads (history ++ [⟨.readPool provider exclude, some view⟩]) _ :=
      (Later.refl _).then (.keepFailures _) kept False.elim
    split
    · exact mild_reactivated
    · rename_i selected decided
      have committed {last : Exchange R}
          (later : Later Reads (history ++ [⟨.readPool provider exclude, some view⟩]) last) :
          ((query (.commit { site := .reactivate, keys := (KeyPool.scanKeys view
            (KeyPool.weights config runtime) provider exclude).reactivated })).bind fun written =>
            if written then (.done (.ok { selected with apiKey := selected.apiKey.saved }) :
                Gateway R (Except KeyPool.Unselected (KeyPool.SelectedKey R)))
            else (rollback selected.apiKey).bind fun _ => .done (.error { error := dbUnavailable })).wp
          (watching foreign masterKey Reads offer) (Selected offer) last := by
        refine wp_put _ _ (fun key member => ?_) fun written => ?_
        · obtain ⟨mild, harmless⟩ := mild_reactivated key member
          exact ⟨mild, fun condemns => absurd condemns harmless⟩
        · have later := later.then (.commit _) written False.elim
          cases written with
          | true => exact hand_selected active decided later
          | false =>
            refine wp_put _ _ trivial fun row => ?_
            cases row with
            | none => trivial
            | some row => exact fun key member => absurd member List.not_mem_nil
      split
      · refine wp_put _ _ trivial fun kept => ?_
        exact committed (later.then (.keepCursor _ _) kept False.elim)
      · exact committed later

theorem wp_selectedTurn (call : Call) (progress : Progress R)
    (known : ∀ other, setup.masterKey = some other → other = masterKey)
    (hand : Hand Reads offer history key) :
    (selectedTurn setup call masterKey progress key).wp
      (watching setup.foreign masterKey Reads offer) Turned history := by
  unfold selectedTurn
  refine wp_put _ _ hand.offered fun limited => ?_
  have later : Later Reads history _ :=
    (Later.refl history).then (.allow key.id key.current.rateLimitPerMin) limited False.elim
  rcases limited with _ | ⟨_ | _, retryAfter⟩
  · trivial
  · trivial
  have allowed := hand.later later
  refine wp_put _ _ allowed.offered fun slot => ?_
  have later := later.then (.acquire key.id key.current.maxConcurrent) slot False.elim
  rcases slot with _ | _ | _
  · trivial
  · trivial
  have leased := hand.later later
  refine (wp_bind _).mpr (wp_mono ?_ (wp_poolRequest setup call leased))
  rintro (error | _ | resp) last polled
  · trivial
  · trivial
  · exact wp_poolResponse call _ resp known polled

theorem wp_poolTurn (call : Call) (progress : Progress R)
    (known : ∀ other, setup.masterKey = some other → other = masterKey)
    (active : ∀ row : KeyColumns, row.isActive = true → offer row) :
    (poolTurn setup call masterKey progress).wp
      (watching setup.foreign masterKey Reads offer) Turned history := by
  unfold poolTurn
  refine (wp_bind _).mpr (wp_mono ?_ (wp_select setup.config setup.runtime call.provider _ active))
  rintro (error | failed | selected) last found
  · trivial
  · simp only [thenPost]
    split
    · trivial
    · split
      · split
        · exact found
        · trivial
      · trivial
  · exact wp_selectedTurn call _ known found

/-- What a forward leaves unsaved is mild. -/
def Returns : Except Exn (ForwardResult R) → Exchange R → Prop
  | .ok result, _ => Harmless result.unsaved
  | .error _, _ => True

theorem returns_afterPool (call : Call) (progress : Progress R) :
    (afterPool setup call progress).wp (watching foreign masterKey Reads offer) Returns history := by
  unfold afterPool
  split
  · trivial
  · split
    · exact fun key member => absurd member List.not_mem_nil
    · trivial

theorem wp_poolLoop (call : Call) (left : Nat) (progress : Progress R)
    (known : ∀ other, setup.masterKey = some other → other = masterKey)
    (active : ∀ row : KeyColumns, row.isActive = true → offer row) :
    (poolLoop setup call masterKey left progress).wp
      (watching setup.foreign masterKey Reads offer) Returns history := by
  induction left generalizing progress history with
  | zero => exact returns_afterPool call progress
  | succ left ih =>
    unfold poolLoop
    split
    · refine (wp_bind _).mpr (wp_mono ?_ (wp_poolTurn call progress known active))
      rintro (error | result | progress) last turned
      · trivial
      · exact turned
      · exact ih progress
    · exact returns_afterPool call progress

theorem wp_pinnedBranch (call : Call)
    (known : ∀ other, setup.masterKey = some other → other = masterKey)
    (active : ∀ row : KeyColumns, row.isActive = true → offer row) :
    (pinnedBranch setup call masterKey).wp (watching setup.foreign masterKey Reads offer) Turned
      history := by
  unfold pinnedBranch
  split
  · trivial
  · rename_i id _
    refine wp_put _ _ trivial fun found => ?_
    rcases found with _ | _ | row
    · trivial
    · trivial
    · dsimp only
      split
      · rename_i usable
        simp only [usablePinned, Bool.and_eq_true] at usable
        exact wp_pinnedLoop call _ _ known (hand_found id (active row usable.1.1))
      · trivial

/-- Every question of a forward meets the demand. -/
theorem wp_forward (setup : Setup R) (call : Call)
    (known : ∀ other, setup.masterKey = some other → other = masterKey)
    (active : ∀ row : KeyColumns, row.isActive = true → offer row) :
    (forward setup call).wp (watching setup.foreign masterKey Reads offer) Returns history := by
  unfold forward
  split
  · trivial
  · rename_i given same
    obtain rfl := known given same
    split
    · trivial
    · refine (wp_bind _).mpr (wp_mono ?_ (wp_pinnedBranch call known active))
      rintro (error | result | progress) last turned
      · trivial
      · exact turned
      · exact wp_poolLoop call _ progress known active

end FcamGateway.KeyVerdicts
