import FcamGateway.CreditEffects
import FcamGateway.Forwarder

/-! The parts of a forward that neither select a key nor send a proxied request:
what they do to the database and the memory never counts against a budget. -/
namespace FcamGateway.Forwarder
open Prog Credits Upstream

set_option linter.unusedSectionVars false

variable {R : Type} [Field R] [LinearOrder R] [ScoreMath R]

/-- No part of a selection, of its limits or of a proxied request. -/
def Quiet : Op R → Prop
  | .request _ _ => False
  | .readPool _ _ => False
  | .allow _ _ => False
  | _ => True

/-- The errors of the database part: a failed accounting commit, or a row that
cannot be read again. -/
def Mild (error : Exn) : Prop := error = .other ∨ error = .fcam dbUnavailable

/-- A question about the key only, that commits nothing for a client and does not say that
the key does not decrypt. -/
def About (id : Nat) : Op R → Prop
  | .commit batch => batch.site ≠ .decryptFailed ∧ batch.client = none ∧
    ∀ key ∈ batch.keys, key.id = id
  | .flushSnapshot snapshot => snapshot.apiKeyId = id
  | .keepFailures updates => ∀ update ∈ updates, update.1 = id
  | .reload keyId => keyId = id
  | .probe keyId _ => keyId = id
  | .setCooldown keyId _ => keyId = id
  | .readWindow keyId => keyId = id
  | .keepWindow keyId _ _ => keyId = id
  | .readRefresh keyId => keyId = id
  | .keepRefresh keyId _ => keyId = id
  | .readFailure keyId => keyId = id
  | .now => True
  | .monotonic => True
  | _ => False

/-- A quiet program that returns a row object of the same row. -/
abbrev QuietKey (id : Nat) (program : Gateway R KeyObject) : Prop :=
  program.Asks Quiet Mild fun key => key.id = id

/-- A quiet program whose value says nothing. -/
abbrev QuietUnit (program : Gateway R Unit) : Prop := program.Asks Quiet Mild fun _ => True

/-- A program about one key that returns the key's row object. -/
abbrev AboutKey (id : Nat) (program : Gateway R KeyObject) : Prop :=
  program.Asks (About id) Mild fun key => key.id = id

/-- A program about one key whose value says nothing. -/
abbrev AboutUnit (id : Nat) (program : Gateway R Unit) : Prop :=
  program.Asks (About id) Mild fun _ => True

/-- What is about one key is quiet. -/
theorem quiet_of_about {id : Nat} {returns : Value → Prop} {program : Gateway R Value}
    (asks : program.Asks (About id) Mild returns) : program.Asks Quiet Mild returns := by
  refine asks_mono (fun op about => ?_) asks
  cases op <;> trivial

/-- The one object of a commit is of its own key. -/
theorem about_commit (site : Site) (key : KeyObject) (other : site ≠ .decryptFailed) :
    About (R := R) key.id (.commit { site, keys := [key] }) :=
  ⟨other, rfl, fun _ member => congrArg KeyObject.id (List.mem_singleton.mp member)⟩

theorem about_rollback (key : KeyObject) : AboutKey key.id (rollback (R := R) key) := by
  refine ⟨rfl, fun reply => ?_⟩
  cases reply
  · exact .inl rfl
  · rfl

theorem about_commitKey (site : Site) (key : KeyObject) (other : site ≠ .decryptFailed) :
    AboutKey key.id (commitKey (R := R) site key) := by
  refine ⟨about_commit site key other, fun reply => ?_⟩
  cases reply
  · exact about_rollback key
  · rfl

theorem about_poolRecordFailure (keyId : Nat) (reason : String) (statusCode : Option Int) :
    AboutUnit keyId (KeyPool.recordFailure (R := R) keyId reason statusCode) := by
  simp only [KeyPool.recordFailure]
  split
  · refine ⟨trivial, fun _ => ⟨rfl, fun _ => ⟨?_, fun _ => trivial⟩⟩⟩
    exact fun update member => congrArg Prod.fst (List.mem_singleton.mp member)
  · trivial

theorem about_apply (config : AppConfig R) (key : KeyObject) (result : CreditFetchResult) :
    AboutKey key.id (applyCreditFetchResult config key result) := by
  have flush (snapshot : CreditSnapshot) (own : snapshot.apiKeyId = key.id) :
      (flushSnapshot (R := R) snapshot).Asks (About key.id) Mild fun _ => True := by
    refine ⟨own, fun reply => ?_⟩
    cases reply
    · exact .inl rfl
    · trivial
  have fixed (now : Instant) : AboutKey key.id (applyFetchedAt config key result now) := by
    unfold applyFetchedAt
    split <;> refine asks_bind (flush _ rfl) fun _ _ => ?_
    all_goals first | rfl | exact ⟨trivial, fun _ => rfl⟩
  unfold applyCreditFetchResult
  split
  · exact fixed _
  · exact ⟨trivial, fun now => fixed now⟩

theorem about_applyAndCommit (config : AppConfig R) (key : KeyObject) (result : CreditFetchResult) :
    AboutKey key.id (applyAndCommit config key result) := by
  have applied : ((applyCreditFetchResult config key result).bind fun changed =>
      (done (some changed) : Gateway R (Option KeyObject))).Asks (About key.id) Mild
        fun changed => ∀ object ∈ changed, object.id = key.id := by
    refine asks_bind (about_apply config key result) fun changed same => ?_
    rintro _ ⟨⟩
    exact same
  refine asks_bind (asks_attempt applied fun _ _ => ?_) fun changed same => ?_
  · exact fun _ listed => nomatch listed
  · cases changed with
    | none => exact about_rollback key
    | some changed => exact same changed rfl ▸ about_commitKey .creditResult changed (by simp)

theorem about_refreshCreditsAfter4xx (foreign : Foreign) (config : AppConfig R)
    (masterKey : Option Bytes) (key : KeyObject) :
    AboutKey key.id (refreshCreditsAfter4xx foreign config masterKey key) := by
  unfold refreshCreditsAfter4xx
  split
  · rfl
  · split
    · rfl
    · split
      · rfl
      · refine ⟨trivial, fun now => ⟨rfl, fun last => ?_⟩⟩
        simp only [Prog.bind]
        split
        · rfl
        · refine ⟨rfl, fun _ => ?_⟩
          simp only [Prog.bind]
          split
          · exact ⟨trivial, fun clock => about_applyAndCommit config key _⟩
          · refine ⟨trivial, fun clock => ⟨rfl, fun reply => ?_⟩⟩
            simp only [Prog.bind]
            split
            · rfl
            · exact about_applyAndCommit config key _

theorem about_refreshCreditsOn4xx (setup : Setup R) (key : KeyObject) (statusCode : Int) :
    AboutKey key.id (refreshCreditsOn4xx setup key statusCode) :=
  asks_bind (about_poolRecordFailure _ _ _) fun _ _ => about_refreshCreditsAfter4xx _ _ _ key

theorem asks_disableKeyDecryptFailed (key : KeyObject) :
    QuietKey key.id (disableKeyDecryptFailed (R := R) key) := by
  refine ⟨trivial, fun reply => ?_⟩
  cases reply
  · exact quiet_of_about (about_rollback _)
  · rfl

theorem about_markCooling (key : KeyObject) (seconds : Int) :
    AboutKey key.id (markCooling (R := R) key seconds) := by
  unfold markCooling
  split
  · rfl
  · refine ⟨trivial, fun now => ?_⟩
    simp only [Prog.bind]
    split
    · exact about_rollback key
    · refine ⟨about_commit (.cooling seconds) (key.assign _) (by simp), fun ok => ?_⟩
      cases ok
      · exact about_rollback (key.assign _)
      · exact ⟨rfl, fun _ => rfl⟩

theorem about_disableKey (key : KeyObject) : AboutKey key.id (disableKey (R := R) key) :=
  about_commitKey .invalid _ (by simp)

theorem about_zeroCredits (key : KeyObject) : AboutUnit key.id (zeroCredits (R := R) key) :=
  ⟨about_commit .zeroCredits (key.assign _) (by simp), fun _ => trivial⟩

theorem about_recordFailure (setup : Setup R) (key : KeyObject) (reason : String)
    (statusCode : Option Int) : AboutKey key.id (recordFailure setup key reason statusCode) := by
  unfold recordFailure
  split
  · rfl
  · refine asks_bind (about_poolRecordFailure _ _ _) fun _ _ => ?_
    refine ⟨trivial, fun now => ⟨rfl, fun entry => ?_⟩⟩
    simp only [Prog.bind]
    refine ⟨rfl, fun _ => ?_⟩
    simp only [Prog.bind]
    split
    · rfl
    · split
      · exact about_rollback key
      · exact about_commitKey .failed _ (by simp)

theorem asks_consumeQuotaOnSuccess (client : ClientObject) (key : KeyObject) :
    QuietUnit (consumeQuotaOnSuccess (R := R) client key) := by
  refine ⟨trivial, fun usedAt => ⟨trivial, fun keyUsedAt => ⟨trivial, fun ok => ?_⟩⟩⟩
  simp only [Prog.bind]
  split
  · trivial
  · exact asks_bind (quiet_of_about (about_rollback _)) fun _ _ => .inr rfl

theorem asks_countUsage (setup : Setup R) (client : ClientObject) (key : KeyObject)
    (estimate : Option Int) : QuietUnit (countUsage setup client key estimate) := by
  unfold countUsage
  split
  · exact asks_consumeQuotaOnSuccess _ _
  · split
    · exact asks_bind (quiet_of_about (about_commitKey .localCredits _ (by simp))) fun _ _ => trivial
    · trivial

theorem asks_settleResponse (setup : Setup R) (call : Call) (key : KeyObject)
    (resp : UpstreamResponse) : QuietUnit (settleResponse setup call key resp) := by
  unfold settleResponse
  split
  · exact asks_bind (asks_countUsage _ _ _ _) fun _ _ => ⟨trivial, fun _ => trivial⟩
  · trivial

end FcamGateway.Forwarder
