import FcamGateway.AdminVerdicts

/-! Which upstream responses a key is disabled for. The classification reads three tables of
markers in a fixed order, and the wording about keys comes before both the status and the
wording about target sites. -/
namespace FcamGateway.KeyVerdicts
open Prog Credits Upstream Forwarder KeyAdmin

set_option linter.unusedSectionVars false

variable {R : Type} [Field R] [LinearOrder R] [ScoreMath R]

/-- The body says something about the key. -/
def blamesKey (resp : UpstreamResponse) : Bool := mentions (upstreamErrorBlob resp) invalidKeyMarkers

/-- The body says something about the target site or the request. -/
def blamesSite (resp : UpstreamResponse) : Bool :=
  mentions (upstreamErrorBlob resp) siteOrRequestMarkers

/-- A status of the request, of the target page or of the upstream itself. -/
def Blameless (statusCode : Int) : Prop :=
  statusCode ∈ ([400, 404, 408, 422] : List Int) ∨ (500 ≤ statusCode ∧ statusCode < 600)

/-- An event that says nothing against the key, unless it is the response: no credit check
refuses the key, and no other response to a request with it is a verdict. -/
def OnlyAgainst (resp : UpstreamResponse) (id : Nat) : Event (Op R) (Reply R) → Prop
  | ⟨.request keyId _, .response other⟩ =>
    keyId = id → other = resp ∨ classifyUpstreamOutcome other ≠ .invalidKey
  | ⟨.probe keyId _, reply⟩ => keyId = id → ¬ Unauthorized reply
  | ⟨.probeAll _ _, replies⟩ => ¬ Unauthorized (replies id).2
  | _ => True

/-- A run of the program disables a key that decrypts, with nothing but the response against it. -/
def Disables (program : Gateway R Value) (resp : UpstreamResponse) : Prop :=
  ∃ events batch next key, Reaches program events (.ask (.commit batch) next) ∧ key ∈ batch.keys ∧
    Condemns key ∧ key.current.status ≠ "decrypt_failed" ∧
    ∀ event ∈ events, OnlyAgainst resp key.id event

/-- Only authentication statuses condemn a key: the classification and the two functions that
act on it spare the key otherwise. -/
structure Spares (R : Type) [Field R] [LinearOrder R] [ScoreMath R] (resp : UpstreamResponse) :
    Prop where
  authOnly : classifyUpstreamOutcome resp = .invalidKey →
    resp.statusCode = 401 ∨ resp.statusCode = 403
  siteFirst : blamesSite resp = true → resp.statusCode ≠ 401 →
    classifyUpstreamOutcome resp ≠ .invalidKey
  forwarded : Blameless resp.statusCode → ∀ (setup : Setup R) (call : Call),
    ¬ Disables (forward setup call) resp
  tested : Blameless resp.statusCode → ∀ (control : ControlPlane R) (requestId : String) (id : Nat)
    (row : KeyColumns) (mode testUrl : String),
    ¬ Disables (testKey control requestId (KeyObject.fresh id row) mode testUrl) resp

/-- Wording about keys stands only in a response that is judged before it is read, or that has
an authentication status; a 403 with it does not mention a target site. -/
def Unmarked (resp : UpstreamResponse) : Prop :=
  blamesKey resp = true → isSuccess resp.statusCode = true ∨ looksLikeCreditError resp = true ∨
    resp.statusCode = 429 ∨ resp.statusCode = 401 ∨ (resp.statusCode = 403 ∧ blamesSite resp = false)

/-- The cascade, read for one of its outcomes. -/
theorem classify_invalidKey_iff (resp : UpstreamResponse) :
    classifyUpstreamOutcome resp = .invalidKey ↔ isSuccess resp.statusCode = false ∧
      looksLikeCreditError resp = false ∧ resp.statusCode ≠ 429 ∧
        (blamesKey resp = true ∨ resp.statusCode = 401) := by
  have reads : looksLikeInvalidKey resp = true ↔ blamesKey resp = true ∨ resp.statusCode = 401 := by
    unfold looksLikeInvalidKey blamesKey
    split <;> simp_all
  rw [← reads]
  unfold classifyUpstreamOutcome
  split
  · simp_all
  · split
    · simp_all
    · split
      · simp_all
      · split
        · simp_all
        · rename_i failed funded unlimited other
          simp only [other, Bool.false_eq_true, and_false, iff_false]
          split
          · nofun
          · split <;> nofun

/-- A verdict that names no failed decryption comes from a response or a credit check. -/
theorem refuted_of_evident {foreign : Foreign} {masterKey : Bytes} {events : Exchange R}
    {id : Nat} {status : String} {ciphertext : Bytes}
    (evident : Evident foreign masterKey Reads events id status ciphertext)
    (decrypts : status ≠ "decrypt_failed") :
    ∃ secret, ∃ event ∈ events, Refuses id secret event := by
  obtain ⟨load, late, row, ⟨⟨early, rfl⟩, _⟩, _, _, ground⟩ := evident
  obtain ⟨failed, _⟩ | ⟨_, secret, _, event, member, refuses⟩ := ground
  · exact absurd failed decrypts
  · exact ⟨secret, event, List.mem_append_right _ (List.mem_cons_of_mem _ member), refuses⟩

/-- With nothing but a response against it that is no verdict, nothing refuses the key. -/
theorem not_refuses {resp : UpstreamResponse} {id : Nat} {secret : String}
    {event : Event (Op R) (Reply R)} (spared : classifyUpstreamOutcome resp ≠ .invalidKey)
    (only : OnlyAgainst resp id event) : ¬ Refuses id secret event := by
  intro refuses
  obtain ⟨op, reply⟩ := event
  cases op with
  | request keyId sent =>
    cases reply with
    | response other =>
      obtain ⟨same, _, invalid⟩ := refuses
      rcases only same with rfl | fine
      · exact spared invalid
      · exact fine invalid
    | timeout => exact refuses
    | httpError text => exact refuses
    | other => exact refuses
  | probe keyId sent => exact only refuses.1 refuses.2.2
  | probeAll workers secrets => exact only refuses.2
  | _ => exact refuses

/-- A watched program disables no key for a response that is no verdict. -/
theorem not_disables {program : Gateway R Value} {resp : UpstreamResponse} {foreign : Foreign}
    {masterKey : Bytes} {offer : KeyColumns → Prop} {history : Exchange R}
    {post : Except Exn Value → Exchange R → Prop}
    (spared : classifyUpstreamOutcome resp ≠ .invalidKey)
    (mute : ∀ event ∈ history, ∀ id secret, ¬ Refuses id secret event)
    (met : program.wp (watching foreign masterKey Reads offer) post history) :
    ¬ Disables program resp := by
  rintro ⟨events, batch, next, key, reached, member, condemns, decrypts, only⟩
  have demand := (wp_reaches reached (follows_checking _ events history) met).1
  obtain ⟨ciphertext, evident⟩ := (demand key member).2 condemns
  obtain ⟨secret, event, listed, refuses⟩ := refuted_of_evident evident decrypts
  rcases List.mem_append.mp listed with before | within
  · exact mute event before _ _ refuses
  · exact not_refuses spared (only event within) refuses

theorem forward_spares {resp : UpstreamResponse}
    (spared : classifyUpstreamOutcome resp ≠ .invalidKey) (setup : Setup R) (call : Call) :
    ¬ Disables (forward setup call) resp := by
  have known : ∀ other, setup.masterKey = some other → other = setup.masterKey.getD [] := by
    intro other given
    rw [given, Option.getD_some]
  have watched : (forward setup call).wp (watching setup.foreign (setup.masterKey.getD []) Reads
      fun _ => True) Returns [] := wp_forward setup call known fun _ _ => trivial
  apply not_disables spared ?_ watched
  intro event listed
  cases listed

theorem testKey_spares {resp : UpstreamResponse}
    (spared : classifyUpstreamOutcome resp ≠ .invalidKey) (control : ControlPlane R)
    (requestId : String) (id : Nat) (row : KeyColumns) (mode testUrl : String) :
    ¬ Disables (testKey control requestId (KeyObject.fresh id row) mode testUrl) resp := by
  have known : ∀ other, control.setup.masterKey = some other →
      other = control.setup.masterKey.getD [] := by
    intro other given
    rw [given, Option.getD_some]
  -- the row object was found before the test
  have hand : Hand Reads (fun _ => True)
      ([] ++ [(⟨.findKey id, some (some row)⟩ : Event (Op R) (Reply R))]) (KeyObject.fresh id row) := hand_found id trivial
  refine not_disables spared ?_ (wp_testKey control requestId mode testUrl known hand)
  intro event member id secret refuses
  rw [List.mem_singleton.mp member] at refuses
  exact refuses

/-- The key is spared for exactly the responses without misplaced wording about keys. -/
theorem spares_iff_unmarked (resp : UpstreamResponse) : Spares R resp ↔ Unmarked resp := by
  have invalid := classify_invalidKey_iff resp
  constructor
  · intro spares blames
    by_contra misplaced
    obtain ⟨failed, funded, unlimited, refused, forbidden⟩ :
        isSuccess resp.statusCode = false ∧ looksLikeCreditError resp = false ∧
          resp.statusCode ≠ 429 ∧ resp.statusCode ≠ 401 ∧
            (resp.statusCode = 403 → blamesSite resp = true) := by
      simp only [not_or, not_and, Bool.not_eq_true, Bool.not_eq_false] at misplaced
      exact misplaced
    have verdict := invalid.mpr ⟨failed, funded, unlimited, .inl blames⟩
    have status := (spares.authOnly verdict).resolve_left refused
    exact spares.siteFirst (forbidden status) refused verdict
  · intro unmarked
    -- a verdict without the status 401 rests on the wording of a 403
    have verdict (condemned : classifyUpstreamOutcome resp = .invalidKey)
        (other : resp.statusCode ≠ 401) : resp.statusCode = 403 ∧ blamesSite resp = false := by
      obtain ⟨failed, funded, unlimited, blames⟩ := invalid.mp condemned
      rcases unmarked (blames.resolve_right other) with fine | credit | limited | refused | stands
      · rw [failed] at fine
        cases fine
      · rw [funded] at credit
        cases credit
      · exact absurd limited unlimited
      · exact absurd refused other
      · exact stands
    have spared (blameless : Blameless resp.statusCode) :
        classifyUpstreamOutcome resp ≠ .invalidKey := by
      intro condemned
      rcases blameless with listed | ⟨atLeast, _⟩
      · simp only [List.mem_cons, List.not_mem_nil, or_false] at listed
        have := (verdict condemned (by omega)).1
        omega
      · have := (verdict condemned (by omega)).1
        omega
    constructor
    · intro condemned
      by_cases refused : resp.statusCode = 401
      · exact .inl refused
      · exact .inr (verdict condemned refused).1
    · intro site other condemned
      rw [(verdict condemned other).2] at site
      cases site
    · exact fun blameless setup call => forward_spares (spared blameless) setup call
    · exact fun blameless control requestId id row mode testUrl =>
        testKey_spares (spared blameless) control requestId id row mode testUrl

/-- A page that was not found and speaks of an "invalid key" itself. -/
def echoedPage : UpstreamResponse :=
  { statusCode := 404, headers := [], content := "no page for: invalid key".toUTF8.toList }

/-- The text of the page makes its 404 a verdict on the gateway's key. -/
theorem echoed_page_condemns : ¬ ∀ resp, Spares ℚ resp := by
  intro spares
  have verdict : classifyUpstreamOutcome echoedPage = .invalidKey := by decide +kernel
  have status := (spares echoedPage).authOnly verdict
  simp [echoedPage] at status

end FcamGateway.KeyVerdicts
