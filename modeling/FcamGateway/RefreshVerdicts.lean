import FcamGateway.CreditIsolation
import FcamGateway.KeyAdmin
import FcamGateway.KeyVerdicts

/-! The refreshes of credits under the watch: a manual refresh judges the ciphertext of the
object in hand, a round the ciphertexts that it listed, whatever the rows hold when its
results are applied. -/
namespace FcamGateway.KeyVerdicts
open Prog Credits CreditRefresh Forwarder KeyAdmin

set_option linter.unusedSectionVars false

variable {R : Type} [Field R] [LinearOrder R] [ScoreMath R]
  {foreign : Foreign} {masterKey : Bytes} {reads : Op R → Prop} {offer : KeyColumns → Prop}
  {before after history last : Exchange R} {key : KeyObject}

theorem wp_fetchCredit (config : AppConfig R) (hand : Hand Reads offer history key) :
    Handles foreign masterKey offer history key.id
      (fetchCreditFromFirecrawl foreign config masterKey key) := by
  have committed {result : CreditFetchResult} {columns : KeyColumns} {middle : Exchange R}
      (rest : Bool → Gateway R KeyObject)
      (later : Later Reads history middle)
      (grounded : Grounded foreign masterKey Reads middle key.id result)
      (applied : Applied result key.current columns)
      (written : ∀ last, Later Reads history last →
        Hand Reads offer last (KeyObject.saved { key with current := columns }) →
        (rest true).wp (watching foreign masterKey Reads offer) (Returned offer history key.id) last)
      (failed : ∀ last, Later Reads history last →
        (rest false).wp (watching foreign masterKey Reads offer) (Returned offer history key.id) last) :
      ((query (.commit { site := .creditResult, keys := [{ key with current := columns }] })).bind
        rest).wp (watching foreign masterKey Reads offer) (Returned offer history key.id) middle := by
    have hand := hand.later later
    refine wp_commit .creditResult none key _ hand (grounded.allowed hand.clean applied) ?_ ?_
    · exact fun last since hand => written last (later.trans since) hand
    · exact fun last since _ => failed last (later.trans since)
  unfold fetchCreditFromFirecrawl
  split
  · rename_i error failed
    refine wp_put _ _ trivial fun clock => ?_
    have later : Later Reads history _ := (Later.refl history).then .now clock False.elim
    refine (wp_bind _).mpr ?_
    refine wp_apply config key _ (keepsApply False.elim fun _ => False.elim) later ?_ fun _ => id
    intro columns last since applied
    refine committed _ since ((hand.decryptFailed failed).later since) applied ?_ ?_
    · exact fun last later _ => later
    · exact fun last later => later
  · rename_i secret opened
    refine wp_put _ _ trivial fun clock => ?_
    have early : Later Reads history _ := (Later.refl history).then .now clock False.elim
    have earlier := hand.later early
    refine wp_put _ _ earlier.offered fun reply => ?_
    have later := early.then (.probe key.id secret) reply False.elim
    split
    · exact later
    · rename_i result read
      simp only [bind_eq, pure_eq]
      refine (wp_bind _).mpr (wp_applied config key result ?_ ?_)
      · intro columns last since applied
        refine committed _ (later.trans since) ((earlier.probed opened read).later since) applied ?_ ?_
        · intro last later hand
          simp only [if_true]
          split
          · exact ⟨later, rfl, hand⟩
          · exact later
        · exact fun last later => later
      · exact fun last since => later.trans since

/-- The object that an endpoint loads. -/
theorem wp_loadKey {post : Except Exn Value → Exchange R → Prop} (id : Nat) (missing : FcamError)
    (rest : KeyObject → Gateway R Value)
    (failed : ∀ error last, post (.error error) last)
    (found : ∀ row, (rest (KeyObject.fresh id row)).wp (watching foreign masterKey reads offer) post
      (history ++ [⟨.findKey id, some (some row)⟩])) :
    ((loadKey id missing).bind rest).wp (watching foreign masterKey reads offer) post history := by
  unfold loadKey
  refine wp_put _ _ trivial fun reply => ?_
  rcases reply with _ | _ | row
  · exact failed _ _
  · exact failed _ _
  · exact found row

theorem wp_refreshKeyCredits (control : ControlPlane R) (keyId : Nat)
    (known : ∀ other, control.setup.masterKey = some other → other = masterKey) :
    (refreshKeyCredits control keyId).wp
      (watching control.setup.foreign masterKey Reads fun _ => True) (fun _ _ => True) history := by
  unfold refreshKeyCredits
  split
  · trivial
  · rename_i given same
    obtain rfl := known given same
    refine wp_loadKey keyId _ _ (fun _ _ => trivial) fun row => ?_
    split
    · trivial
    · refine wp_put _ _ trivial fun now => ?_
      split
      · trivial
      · have later : Later Reads (history ++ [⟨.findKey keyId, some (some row)⟩]) _ :=
          (Later.refl _).then .now now False.elim
        exact wp_mono (fun _ _ _ => trivial)
          (wp_fetchCredit control.setup.config ((hand_found keyId trivial).later later))

theorem wp_refreshKeys (control : ControlPlane R) (force : Bool) (now : Instant) (expired : Bool)
    (listed : List KeyObject)
    (hands : ∀ key ∈ listed, Hand Reads (fun _ => True) history key) :
    (refreshKeys control masterKey force now expired listed).wp
      (watching control.setup.foreign masterKey Reads fun _ => True) (fun _ _ => True) history := by
  induction listed generalizing expired history with
  | nil => trivial
  | cons first rest ih =>
    have own := hands first List.mem_cons_self
    have others {last : Exchange R} (later : Later Reads history last) :
        ∀ key ∈ rest, Hand Reads (fun _ => True) last key :=
      fun key member => (hands key (List.mem_cons_of_mem _ member)).later later
    have turn (key : KeyObject) {middle : Exchange R} (later : Later Reads history middle)
        (hand : Hand Reads (fun _ => True) middle key) :
        (if !force && (tooFrequent control key.current now).isSome then
          (refreshKeys control masterKey force now expired rest).bind fun others =>
            .done ((key.id, .tooFrequent) :: others)
        else
          (((fetchCreditFromFirecrawl control.setup.foreign control.setup.config masterKey key).bind
            fun _ => .done none).attempt fun error => .done (some error)).bind fun error =>
          (refreshKeys control masterKey force now
            (expired || error.any (rolledBack control.setup.foreign masterKey key)) rest).bind
            fun others => .done ((key.id, error.elim .refreshed .failed) :: others)).wp
          (watching control.setup.foreign masterKey Reads fun _ => True) (fun _ _ => True) middle := by
      split
      · refine (wp_bind _).mpr (wp_mono ?_ (ih expired (others later)))
        rintro (error | outcomes) last _ <;> trivial
      · refine (wp_bind _).mpr ((wp_attempt _).mpr ((wp_bind _).mpr (wp_mono ?_
          (wp_fetchCredit control.setup.config hand))))
        rintro (error | refreshed) last returned
        · refine (wp_bind _).mpr (wp_mono ?_ (ih _ (others (later.trans returned))))
          rintro (raised | outcomes) stop _ <;> trivial
        · refine (wp_bind _).mpr (wp_mono ?_ (ih _ (others (later.trans returned.1))))
          rintro (raised | outcomes) stop _ <;> trivial
    unfold refreshKeys
    cases expired with
    | false => exact turn first (Later.refl history) own
    | true =>
      refine (wp_bind _).mpr (wp_mono ?_ (wp_rollback own.offered))
      rintro (error | key) last returned
      · trivial
      · exact turn key returned.1 returned.2.2

theorem wp_refreshAllCredits (control : ControlPlane R) (keyIds : List Nat) (force : Bool)
    (known : ∀ other, control.setup.masterKey = some other → other = masterKey) :
    (refreshAllCredits control keyIds force).wp
      (watching control.setup.foreign masterKey Reads fun _ => True) (fun _ _ => True) history := by
  unfold refreshAllCredits
  split
  · trivial
  · rename_i given same
    obtain rfl := known given same
    refine wp_put _ _ trivial fun found => ?_
    cases found with
    | none => trivial
    | some keys =>
      refine wp_put _ _ trivial fun now => wp_refreshKeys control force now false _ ?_
      intro key member
      obtain ⟨entry, inside, rfl⟩ := List.mem_map.mp member
      have found := Table.mem_entries.mp (List.mem_of_mem_filter inside)
      have since : Since Reads (history ++ [(⟨.listKeys, some keys⟩ : Event (Op R) (Reply R))] ++
          [⟨.now, now⟩]) ⟨.listKeys, some keys⟩ [⟨.now, now⟩] := by
        refine ⟨⟨history, List.append_assoc _ _ _⟩, fun event member => ?_⟩
        rw [List.mem_singleton.mp member]
        exact False.elim
      exact ⟨rfl, ⟨_, _, entry.2, since, found, rfl⟩, ⟨_, _, entry.2, since, trivial, found, trivial⟩⟩

/-- The ciphertext was listed and rows have not been listed again. -/
def Listed (events : Exchange R) (due : Nat × Bytes) : Prop :=
  ∃ load late row, Since Lists events load late ∧ loadedRow due.1 load = some row ∧
    row.apiKeyCiphertext = due.2

theorem Listed.later {due : Nat × Bytes} (listed : Listed before due)
    (later : Later Lists before after) : Listed after due := by
  obtain ⟨load, late, row, since, loaded, same⟩ := listed
  obtain ⟨more, _, since⟩ := since.later later
  exact ⟨load, more, row, since, loaded, same⟩

/-- The result of a gathered probe is a verdict on the ciphertext that was listed. -/
theorem Listed.grounded {due : Nat × Bytes} {batch : List (Nat × Bytes)} {workers : Int}
    {now : Instant} (listed : Listed history due) (member : due ∈ batch)
    (replies : Nat → Instant × ProbeReply) :
    Grounded foreign masterKey Lists
      (history ++ [(⟨.probeAll workers (opened foreign masterKey batch), replies⟩ :
        Event (Op R) (Reply R))]) due.1
      (probeResult foreign masterKey now replies due) := by
  obtain ⟨load, late, row, ⟨⟨early, rfl⟩, still⟩, loaded, same⟩ := listed
  have since : Since Lists (early ++ load :: late ++
      [(⟨.probeAll workers (opened foreign masterKey batch), replies⟩ : Event (Op R) (Reply R))])
      load (late ++ [⟨.probeAll workers (opened foreign masterKey batch), replies⟩]) := by
    refine ⟨⟨early, by rw [List.append_assoc, List.cons_append]⟩, ?_⟩
    refine List.forall_mem_append.mpr ⟨still, fun event member => ?_⟩
    rw [List.mem_singleton.mp member]
    exact False.elim
  unfold probeResult
  split
  · rename_i error failed
    refine ⟨fun _ => ⟨due.2, load, _, row, since, loaded, same, .inl ⟨rfl, error, failed⟩⟩, nofun⟩
  · rename_i secret opens
    split
    · rename_i result read
      refine ⟨fun kind => absurd kind (readProbe_decrypted read), fun kind => ?_⟩
      refine ⟨due.2, load, _, row, since, loaded, same, .inr ⟨rfl, secret, opens, _,
        List.mem_append_right _ (List.mem_singleton_self _), ?_, readProbe_invalid read kind⟩⟩
      refine List.mem_filterMap.mpr ⟨due, member, ?_⟩
      rw [opens]
      rfl
    · exact ⟨nofun, nofun⟩

/-- A step of a round that lists no rows. -/
abbrev Rounds (foreign : Foreign) (masterKey : Bytes) (offer : KeyColumns → Prop)
    (history : Exchange R) (program : Gateway R Unit) : Prop :=
  program.wp (watching foreign masterKey Lists offer) (fun _ last => Later Lists history last) history

theorem wp_applyResult (config : AppConfig R) (now : Instant) (retry : Int)
    {result : CreditFetchResult}
    (grounded : Grounded foreign masterKey Lists history result.apiKeyId result) :
    Rounds foreign masterKey offer history (applyResult config now retry result) := by
  unfold applyResult
  refine wp_put _ _ trivial fun found => ?_
  have later : Later Lists history _ :=
    (Later.refl history).then (.findKey result.apiKeyId) found False.elim
  rcases found with _ | _ | row
  · exact later
  · exact later
  have committed (site : Site) {columns : KeyColumns} {middle : Exchange R}
      (later : Later Lists history middle)
      (allowed : Allowed foreign masterKey Lists middle (KeyObject.fresh result.apiKeyId row) columns) :
      ((query (.commit { site, keys := [{ KeyObject.fresh result.apiKeyId row with
        current := columns }] })).bind fun _ => (.done () : Gateway R Unit)).wp
        (watching foreign masterKey Lists offer) (fun _ last => Later Lists history last) middle :=
    wp_put _ _ (allowed.demand rfl) fun reply => later.then _ reply False.elim
  have apply {post : Except Exn KeyObject → Exchange R → Prop}
      (ok : ∀ columns middle, Later Lists history middle →
        Allowed foreign masterKey Lists middle (KeyObject.fresh result.apiKeyId row) columns →
        post (.ok { KeyObject.fresh result.apiKeyId row with current := columns }) middle)
      (failed : ∀ middle, Later Lists history middle → post (.error .other) middle) :
      (applyCreditFetchResult config (KeyObject.fresh result.apiKeyId row) result).wp
        (watching foreign masterKey Lists offer) post
        (history ++ [⟨.findKey result.apiKeyId, some (some row)⟩]) := by
    refine wp_apply config _ result (keepsApply False.elim fun _ => False.elim) (Later.refl _) ?_ ?_
    · intro columns middle since applied
      have grounded : Grounded foreign masterKey Lists middle
          (KeyObject.fresh result.apiKeyId row).id result := (grounded.later later).later since
      exact ok columns middle (later.trans since) (grounded.allowed rfl applied)
    · exact fun middle since => failed middle (later.trans since)
  simp only [bind_eq, pure_eq]
  split
  · refine (wp_bind _).mpr (apply ?_ fun _ => id)
    exact fun columns middle later allowed => committed .creditResult later allowed
  · split
    · split
      · exact committed .clearRefresh later (.mild rfl rfl rfl (.inl rfl))
      · exact later
    · refine (wp_bind _).mpr (apply ?_ fun _ => id)
      intro columns middle later allowed
      have rescheduled (next : Option Instant) : Allowed foreign masterKey Lists middle
          (KeyObject.fresh result.apiKeyId row) { columns with nextRefreshAt := next } :=
        ⟨allowed.dormant, allowed.sealed, allowed.evident⟩
      simp only [thenPost]
      split
      · exact committed .creditResult later (rescheduled none)
      · split
        · exact committed .creditResult later allowed
        · split
          · exact committed .creditResult later (rescheduled _)
          · exact later

theorem wp_applyResultsSerial (config : AppConfig R) (now : Instant) (retry : Int)
    (results : List CreditFetchResult)
    (grounded : ∀ result ∈ results,
      Grounded foreign masterKey Lists history result.apiKeyId result) :
    Rounds foreign masterKey offer history (applyResultsSerial config now retry results) := by
  induction results generalizing history with
  | nil => exact Later.refl history
  | cons result rest ih =>
    have own : Rounds foreign masterKey offer history (applyResult config now retry result) :=
      wp_applyResult config now retry (grounded result List.mem_cons_self)
    have others {last : Exchange R} (later : Later Lists history last) :
        (applyResultsSerial config now retry rest).wp (watching foreign masterKey Lists offer)
          (fun _ stop => Later Lists history stop) last := by
      refine wp_mono (fun _ stop since => later.trans since) (ih fun other member => ?_)
      exact (grounded other (List.mem_cons_of_mem _ member)).later later
    unfold applyResultsSerial
    refine (wp_bind _).mpr ((wp_attempt _).mpr (wp_mono ?_ own))
    rintro (error | _) last later
    · exact others later
    · exact others later

theorem wp_refreshBatches (config : AppConfig R) (pacing : Pacing) (now : Instant)
    (parts : List (List (Nat × Bytes)))
    (listed : ∀ part ∈ parts, ∀ due ∈ part, Listed history due) :
    Rounds foreign masterKey offer history
      (refreshBatches foreign config masterKey pacing now parts) := by
  induction parts generalizing history with
  | nil => exact Later.refl history
  | cons part rest ih =>
    unfold refreshBatches probeBatch
    refine wp_put _ _ trivial fun replies => ?_
    have later : Later Lists history _ := (Later.refl history).then
      (.probeAll pacing.workers (opened foreign masterKey part)) replies False.elim
    refine (wp_bind _).mpr (wp_mono ?_ (wp_applyResultsSerial config now _ _ ?_))
    · rintro (error | _) middle since
      · exact later.trans since
      · have since := later.trans since
        refine wp_mono (fun _ last more => since.trans more) (ih fun other member due inside => ?_)
        exact (listed other (List.mem_cons_of_mem _ member) due inside).later since
    · intro result member
      obtain ⟨due, inside, rfl⟩ := List.mem_map.mp member
      rw [probeResult_id]
      exact (listed part List.mem_cons_self due inside).grounded inside replies

theorem wp_refreshDue (config : AppConfig R) (runtime : Option (RuntimeScheduling R)) (now : Instant)
    (due : List (Nat × Bytes)) (listed : ∀ entry ∈ due, Listed history entry) :
    Rounds foreign masterKey offer history
      (refreshDue foreign config runtime masterKey now due) := by
  unfold refreshDue
  split
  · exact Later.refl history
  · refine (wp_bind _).mpr (wp_mono ?_ (wp_refreshBatches config _ now _ fun part member entry inside =>
      listed entry (mem_of_batches member inside)))
    rintro (error | _) last later
    · exact later
    · simp only [thenPost]
      unfold cleanupOldSnapshots
      dsimp only
      split
      · exact later
      · refine wp_put _ _ trivial fun clock => ?_
        have later := later.then .now clock False.elim
        split
        · exact wp_put _ _ trivial fun reply => later.then _ reply False.elim
        · exact later

/-- Every question of a round meets the demand. -/
theorem wp_refreshOnce (config : AppConfig R) (runtime : Option (RuntimeScheduling R)) :
    (refreshOnce foreign config runtime masterKey).wp (watching foreign masterKey Lists offer)
      (fun _ _ => True) history := by
  unfold refreshOnce refreshAt
  refine wp_put _ _ trivial fun now => wp_put _ _ trivial fun found => ?_
  cases found with
  | none => trivial
  | some keys =>
    have rest {last : Exchange R} (later : Later Lists
        (history ++ [⟨.now, now⟩] ++ [⟨.listKeys, some keys⟩]) last) :
        (refreshDue foreign config runtime masterKey now (dueKeys keys now)).wp
          (watching foreign masterKey Lists offer) (fun _ _ => True) last := by
      refine wp_mono (fun _ _ _ => trivial) (wp_refreshDue config runtime now _ fun entry member => ?_)
      obtain ⟨row, found, _, _, same⟩ := mem_dueKeys.mp member
      obtain ⟨late, rfl, quiet⟩ := later
      exact ⟨⟨.listKeys, some keys⟩, late, row, ⟨⟨_, List.append_assoc _ _ _⟩, quiet⟩, found, same⟩
    dsimp only
    split
    · refine wp_put _ _ trivial fun reply => ?_
      have later : Later Lists (history ++ [⟨.now, now⟩] ++ [⟨.listKeys, some keys⟩]) _ :=
        (Later.refl _).then (.clearRefresh _) reply False.elim
      cases reply with
      | none => trivial
      | some written => exact rest later
    · exact rest (Later.refl _)

end FcamGateway.KeyVerdicts
