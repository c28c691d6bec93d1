import FcamGateway.KeyPhases
import FcamGateway.KeyRevival
import FcamGateway.KeyTasks

/-! What the operations on keys commit. Every object that an operation commits was loaded from the
row as its session keeps it, and its two columns change in one of the ways of a phase. -/
namespace FcamGateway.KeyPhases
open Prog Credits CreditRefresh Upstream Forwarder KeyAdmin KeyWrites

set_option linter.unusedSectionVars false

variable {R : Type} [Field R] [LinearOrder R] [ScoreMath R]

/-- The key was looked up and its row found as it is loaded. -/
def Found (events : Exchange R) (key : KeyObject) : Prop :=
  (⟨.findKey key.id, some (some key.loaded)⟩ : Event (Op R) (Reply R)) ∈ events

/-- What an operation may commit after an exchange: one object for a row, as the session keeps the
row. Only an operation that enables keys may switch one on that it looked up. -/
structure Admitted (enables : Prop) (events : Exchange R) (batch : Commit) : Prop where
  single : ∀ one ∈ batch.keys, ∀ two ∈ batch.keys, one.id = two.id → one = two
  kept : ∀ key ∈ batch.keys, rows events key.id = some key.loaded
  steps : ∀ key ∈ batch.keys,
    Steps (Chilled events key) (enables ∧ Found events key) key.loaded key.current

def Demand (enables : Prop) (events : Exchange R) : Op R → Prop
  | .commit batch => Admitted enables events batch
  | _ => True

variable {enables : Prop} {history last : Exchange R} {key : KeyObject}

abbrev admitting (R : Type) (enables : Prop) : Monitor (Exchange R) (Op R) (Reply R) :=
  .checking (Demand enables)

theorem admitted_writable {batch : Commit} (writable : Writable history batch) :
    Admitted enables history batch :=
  ⟨writable.single, writable.kept, fun key member => steps_rewritten (writable.rewritten key member)⟩

/-- What is allowed to a forward is allowed to an operation. -/
theorem wp_writing {program : Gateway R Value} {post : Except Exn Value → Exchange R → Prop}
    (met : program.wp watching post history) : program.wp (admitting R enables) post history := by
  refine wp_widen (fun seen op met => ?_) met
  cases op with
  | commit batch => exact admitted_writable met
  | _ => trivial

theorem wp_pose {post : Except Exn Value → Exchange R → Prop} (op : Op R)
    (rest : Reply R op → Gateway R Value) (met : Demand enables history op)
    (next : ∀ reply, (rest reply).wp (admitting R enables) post (history ++ [⟨op, reply⟩])) :
    ((query op).bind rest).wp (admitting R enables) post history :=
  (wp_check op _).mpr ⟨met, next⟩

/-- The operation keeps to what it may commit. -/
abbrev Keeps (enables : Prop) (history : Exchange R) (program : Gateway R Value) : Prop :=
  program.wp (admitting R enables) (fun _ _ => True) history

/-- The function keeps to what it may commit and returns the object of the key. -/
abbrev Holds (enables : Prop) (history : Exchange R) (id : Nat) (program : Gateway R KeyObject) :
    Prop :=
  program.wp (admitting R enables) (Returned id) history

theorem Holds.bind {program : Gateway R KeyObject} {rest : KeyObject → Gateway R Value}
    {post : Except Exn Value → Exchange R → Prop} {id : Nat}
    (holds : Holds enables history id program)
    (next : ∀ key last, key.id = id → InHand last key → (rest key).wp (admitting R enables) post last)
    (raised : ∀ error last, post (.error error) last) :
    (program.bind rest).wp (admitting R enables) post history := by
  refine (wp_bind _).mpr (wp_mono ?_ holds)
  rintro (error | key) last returned
  · exact raised error last
  · exact next key last returned.1 returned.2

/-- One object in hand may be committed with a change of its columns. -/
theorem admitted_single {site : Site} {columns : KeyColumns} (hand : InHand history key)
    (steps : Steps (Chilled history key) (enables ∧ Found history key) key.loaded columns) :
    Admitted enables history { site, keys := [{ key with current := columns }] } := by
  refine ⟨fun one first two second _ => ?_, fun object member => ?_, fun object member => ?_⟩
  · rw [List.mem_singleton.mp first, List.mem_singleton.mp second]
  · rw [List.mem_singleton.mp member]
    exact hand.kept
  · rw [List.mem_singleton.mp member]
    exact steps

theorem holds_commitKey (site : Site) {columns : KeyColumns} (hand : InHand history key)
    (steps : Steps (Chilled history key) (enables ∧ Found history key) key.loaded columns) :
    Holds enables history key.id (commitKey site { key with current := columns }) := by
  refine wp_pose _ _ (admitted_single hand steps) fun reply => ?_
  cases reply with
  | true => exact ⟨rfl, hand_saved site none columns⟩
  | false => exact wp_writing wp_rollback

theorem holds_markActive (hand : InHand history key) :
    Holds enables history key.id (markActive (R := R) key) := by
  unfold markActive
  split
  · exact ⟨rfl, hand⟩
  · rename_i passed
    exact holds_commitKey .active hand (.settles .active ⟨(usable_of_passed passed).1, rfl⟩)

/-- The requests of a test leave the object in hand. -/
theorem wp_tryPaths (keyId : Nat) (sent : String → UpstreamRequest) (path : String)
    (others : List String) (hand : InHand history key) :
    (tryPaths (R := R) keyId sent path others).wp (admitting R enables) (fun _ last => InHand last key)
      history := by
  induction others generalizing path history with
  | nil => exact wp_pose _ _ trivial fun reply => hand.then (.request _ _) reply trivial
  | cons next others ih =>
    unfold tryPaths
    refine wp_pose _ _ trivial fun reply => ?_
    have hand := hand.then (.request keyId (sent path)) reply trivial
    split
    · split
      · exact ih next hand
      · exact hand
    · exact hand

/-- The row object that a test returns is in its hands. -/
def Tested (id : Nat) : Except Exn (KeyTestResult × KeyObject) → Exchange R → Prop
  | .ok (_, key), last => Returned id (.ok key) last
  | .error _, _ => True

/-- A test that ends with one function on its row object. -/
theorem wp_tested {program : Gateway R KeyObject} {id : Nat} (ok : Bool) (status : Option Int)
    (holds : Holds enables history id program) :
    (program.bind fun key => .done (tested key ok status)).wp (admitting R enables) (Tested id)
      history :=
  holds.bind (fun _ _ same hand => ⟨same, hand⟩) fun _ _ => trivial

theorem wp_testResponse (control : ControlPlane R) (resp : UpstreamResponse)
    (hand : InHand history key) :
    (testResponse control key resp).wp (admitting R enables) (Tested key.id) history := by
  unfold testResponse
  split
  · exact wp_tested true _ (holds_markActive hand)
  · split
    · exact wp_tested false _ (wp_writing (wp_markCooling _ hand))
    · split
      · exact wp_tested false _ (wp_writing (wp_disableKey hand))
      · split
        · exact wp_tested false _ (wp_writing (wp_recordFailure control.setup _ _ hand))
        · exact ⟨rfl, hand⟩

theorem wp_testResponseExa (control : ControlPlane R) (resp : UpstreamResponse)
    (hand : InHand history key) :
    (testResponseExa control key resp).wp (admitting R enables) (Tested key.id) history := by
  -- the three tests one after the other, each on the object that the one before left
  have step {chosen : Prop} [Decidable chosen] {current : KeyObject} {middle : Exchange R}
      {program : Gateway R KeyObject} {rest : KeyObject → Gateway R (KeyTestResult × KeyObject)}
      (same : current.id = key.id) (hand : InHand middle current)
      (holds : Holds enables middle current.id program)
      (next : ∀ current stop, current.id = key.id → InHand stop current →
        (rest current).wp (admitting R enables) (Tested key.id) stop) :
      (if chosen then program.bind rest else rest current).wp (admitting R enables) (Tested key.id)
        middle := by
    split
    · exact holds.bind (fun other stop equal hand => next other stop (equal.trans same) hand)
        fun _ _ => trivial
    · exact next current middle same hand
  unfold testResponseExa
  split
  · exact wp_tested true _ (holds_markActive hand)
  · refine step rfl hand (wp_writing (wp_markCooling _ hand)) ?_
    intro current middle same hand
    refine step same hand (wp_writing (wp_disableKey hand)) ?_
    intro current stop same hand
    refine step same hand (wp_writing (wp_recordFailure control.setup _ _ hand)) ?_
    exact fun current stop same hand => ⟨same, hand⟩

theorem wp_testKey (control : ControlPlane R) (requestId mode testUrl : String)
    (hand : InHand history key) :
    (testKey control requestId key mode testUrl).wp (admitting R enables) (Tested key.id)
      history := by
  unfold testKey
  split
  · trivial
  · dsimp only
    generalize (if key.current.provider = "" then "firecrawl" else key.current.provider) = provider
    split
    · trivial
    split
    · exact wp_tested false none (wp_writing (wp_disableKeyDecryptFailed hand))
    · split
      · trivial
      have recorded (reason : String) {last : Exchange R} (hand : InHand last key) :
          ((recordFailure control.setup key reason none).bind fun key =>
            .done (tested key false none)).wp (admitting R enables) (Tested key.id) last :=
        wp_tested false none (wp_writing (wp_recordFailure control.setup reason none hand))
      split
      · refine wp_pose _ _ trivial fun reply => ?_
        have hand := hand.then (.request key.id _) reply trivial
        cases reply with
        | other => trivial
        | timeout => exact recorded "timeout" hand
        | httpError text => exact recorded "http_error" hand
        | response resp => exact wp_testResponseExa control resp hand
      · refine (wp_bind _).mpr (wp_mono ?_ (wp_tryPaths _ _ _ _ hand))
        rintro (error | _ | _ | _ | _) last hand
        · trivial
        · exact wp_testResponse control _ hand
        · exact recorded "timeout" hand
        · exact recorded "http_error" hand
        · trivial

/-- An object in hand may be committed as it is. -/
theorem admitted_unchanged {site : Site} (hand : InHand history key) :
    Admitted enables history { site, keys := [key] } :=
  admitted_single hand (.stays (hand.clean ▸ .refl key.current))

theorem wp_testAndCommit (control : ControlPlane R) (requestId mode testUrl : String)
    (hand : InHand history key) :
    (testAndCommit control requestId key mode testUrl).wp (admitting R enables) (Tested key.id)
      history := by
  unfold testAndCommit
  refine (wp_attempt _).mpr ((wp_bind _).mpr (wp_mono ?_
    (wp_testKey control requestId mode testUrl hand)))
  rintro (error | ⟨result, next⟩) last told
  · cases error <;> trivial
  · obtain ⟨same, hand⟩ := told
    refine wp_pose _ _ (admitted_unchanged hand) fun written => ?_
    cases written with
    | false => trivial
    | true =>
      refine wp_pose _ _ trivial fun row => ?_
      cases row with
      | none => trivial
      | some row => exact ⟨same, hand_reloaded next.id row⟩

/-- The lookup of a key at the start of an operation. -/
theorem wp_loadKey {post : Except Exn Value → Exchange R → Prop} (id : Nat) (missing : FcamError)
    (rest : KeyObject → Gateway R Value) (failed : ∀ error last, post (.error error) last)
    (found : ∀ row last, InHand last (KeyObject.fresh id row) →
      Found last (KeyObject.fresh id row) →
      (rest (KeyObject.fresh id row)).wp (admitting R enables) post last) :
    ((loadKey id missing).bind rest).wp (admitting R enables) post history := by
  unfold loadKey
  refine wp_pose _ _ trivial fun reply => ?_
  rcases reply with _ | _ | row
  · exact failed _ _
  · exact failed _ _
  · exact found row _ (hand_found id row) (List.mem_append_right _ (List.mem_singleton_self _))

theorem keeps_testKeyEndpoint (control : ControlPlane R) (requestId : String) (keyId : Nat)
    (mode testUrl : String) :
    Keeps enables history (testKeyEndpoint control requestId keyId mode testUrl) := by
  unfold testKeyEndpoint
  refine wp_loadKey keyId _ _ (fun _ _ => trivial) fun row last hand _ => ?_
  refine (wp_bind _).mpr (wp_mono ?_ (wp_testAndCommit control requestId mode testUrl hand))
  rintro (error | result) last _ <;> trivial

theorem keeps_commitRevived (control : ControlPlane R) (requestId : String)
    (payload : ReviveKeyRequest) (key : KeyObject) (columns : KeyColumns)
    (hand : InHand history key) (into : InPhase .active columns) :
    Keeps enables history
      (commitRevived control requestId payload { key with current := columns }) := by
  have ended {post : KeyObject} {test : Option KeyTestResult} {last : Exchange R}
      (hand : InHand last post) :
      Keeps enables last ((query (.commit { site := .admin, keys := [post] })).bind fun _ =>
        .done (post, test)) :=
    wp_pose _ _ (admitted_unchanged hand) fun _ => trivial
  unfold commitRevived
  refine wp_pose _ _ (admitted_single hand (.settles .active into)) fun written => ?_
  cases written with
  | false => trivial
  | true =>
    refine wp_pose _ _ trivial fun reply => ?_
    cases reply with
    | none => trivial
    | some row =>
      have hand : InHand (history ++ [⟨.commit
          { site := .admin, keys := [{ key with current := columns }] }, true⟩] ++
          [(⟨.reload key.id, some row⟩ : Event (Op R) (Reply R))]) (KeyObject.fresh key.id row) :=
        hand_reloaded key.id row
      dsimp only
      split
      · refine (wp_bind _).mpr (wp_mono ?_ (wp_testAndCommit control requestId _ _ hand))
        rintro (error | ⟨result, tested⟩) last told
        · trivial
        · exact ended told.2
      · exact ended hand

theorem keeps_reviveKey (control : ControlPlane R) (requestId : String) (keyId : Nat)
    (payload : ReviveKeyRequest) :
    Keeps enables history (reviveKey control requestId keyId payload) := by
  rw [reviveKey_eq]
  refine wp_loadKey keyId _ _ (fun _ _ => trivial) fun row last hand _ => ?_
  dsimp only
  split
  · refine wp_pose _ _ trivial fun now => ?_
    exact keeps_commitRevived control requestId payload (KeyObject.fresh keyId row) _
      (hand.then .now now trivial) ⟨rfl, rfl⟩
  · exact keeps_commitRevived control requestId payload (KeyObject.fresh keyId row) _ hand ⟨rfl, rfl⟩

theorem keeps_updateKey (control : ControlPlane R) (vault : KeyVault) (nonce : Bytes)
    (duplicate : Bool) (keyId : Nat) (payload : UpdateKeyRequest)
    (given : payload.isActive = some true → enables) :
    Keeps enables history (updateKey control vault nonce duplicate keyId payload) := by
  unfold updateKey
  refine wp_loadKey keyId _ _ (fun _ _ => trivial) fun row last hand found => ?_
  have commits (rotated : KeyColumns) (same : SamePhase rotated row)
      (rest : Bool → Gateway R KeyObject) (next : ∀ written stop, Keeps enables stop (rest written)) :
      Keeps enables last ((query (.commit
        { site := .admin
          keys := [{ KeyObject.fresh keyId row with current := payload.assign rotated }] })).bind
        rest) :=
    wp_pose _ _ (admitted_single hand (steps_update (fun on => ⟨given on, found⟩) same))
      fun written => next written _
  split
  · refine commits row (.refl row) _ fun written stop => ?_
    cases written with
    | false => trivial
    | true => exact wp_pose _ _ trivial fun reply => by cases reply <;> trivial
  · trivial
  · rename_i apiKey masterKey _ _
    refine commits (rotate vault masterKey nonce apiKey row) ⟨rfl, rfl⟩ _ fun written stop => ?_
    cases written with
    | false => trivial
    | true => exact wp_pose _ _ trivial fun reply => by cases reply <;> trivial

theorem keeps_deleteKey (keyId : Nat) : Keeps enables history (deleteKey (R := R) keyId) := by
  unfold deleteKey
  refine wp_loadKey keyId _ _ (fun _ _ => trivial) fun row last hand _ => ?_
  refine wp_pose _ _ (admitted_single hand (.settles .disabled ⟨rfl, rfl⟩)) fun written => ?_
  cases written <;> trivial

/-- The session keeps the other rows as before. -/
def Elsewhere (id : Nat) (before after : Exchange R) : Prop :=
  ∀ other, other ≠ id → rows after other = rows before other

theorem Elsewhere.hand {id : Nat} {before after : Exchange R} (elsewhere : Elsewhere id before after)
    (hand : InHand before key) (different : key.id ≠ id) : InHand after key :=
  ⟨(elsewhere key.id different).trans hand.kept, hand.clean⟩

theorem Elsewhere.trans {id : Nat} {before middle after : Exchange R}
    (first : Elsewhere id before middle) (second : Elsewhere id middle after) :
    Elsewhere id before after :=
  fun other different => (second other different).trans (first other different)

theorem Elsewhere.still {before after : Exchange R} (still : Still before after) (id : Nat) :
    Elsewhere id before after :=
  fun other _ => congrFun still.rows other

theorem elsewhere_commit {site : Site} {columns : KeyColumns} (written : Bool) :
    Elsewhere key.id history (history ++ [(⟨.commit
      { site, keys := [{ key with current := columns }] }, written⟩ : Event (Op R) (Reply R))]) := by
  intro other different
  rw [rows_concat]
  cases written with
  | false => rfl
  | true => simp [keep, Ne.symm different]

theorem elsewhere_reload (id : Nat) (reply : Option KeyColumns) :
    Elsewhere id history (history ++ [(⟨.reload id, reply⟩ : Event (Op R) (Reply R))]) := by
  intro other different
  rw [rows_concat]
  cases reply with
  | none => rfl
  | some row => exact if_neg (Ne.symm different)

/-- Applying a result keeps the exchange as it was but for a clock and a snapshot. -/
theorem keepsStill (enables : Prop) (before : Exchange R) :
    KeepsApply (admitting R enables) (Still before) := by
  constructor
  · rintro events still
    refine ⟨trivial, fun reply last moved => ?_⟩
    rw [show last = _ from moved]
    exact still.then .now reply trivial
  · rintro snapshot events still
    refine ⟨trivial, fun reply last moved => ?_⟩
    rw [show last = _ from moved]
    exact still.then (.flushSnapshot snapshot) reply trivial

/-- The commit of a result that was applied to the object in hand. -/
theorem admitted_applied {result : CreditFetchResult} {columns : KeyColumns}
    {before after : Exchange R} (still : Still before after) (hand : InHand before key)
    (applied : Applied result key.current columns)
    (cold : result.kind = .cooling → key.current.isActive = true ∨ Chilled before key) :
    Admitted enables after { site := .creditResult, keys := [{ key with current := columns }] } := by
  refine admitted_single (still.hand hand) ?_
  rw [← hand.clean]
  exact steps_applied applied fun kind => (cold kind).imp_right still.chilled

theorem wp_fetchCredit (foreign : Foreign) (config : AppConfig R) (masterKey : Bytes)
    (hand : InHand history key) :
    (fetchCreditFromFirecrawl foreign config masterKey key).wp (admitting R enables)
      (fun _ last => Elsewhere key.id history last) history := by
  have applied {result : CreditFetchResult} {columns : KeyColumns} {before after : Exchange R}
      (rest : Bool → Gateway R KeyObject) (early : Still history before) (still : Still before after)
      (applied : Applied result key.current columns)
      (cold : result.kind = .cooling → Chilled before key)
      (ended : ∀ written last, Elsewhere key.id history last → (rest written).wp (admitting R enables)
        (fun _ last => Elsewhere key.id history last) last) :
      ((query (.commit { site := .creditResult, keys := [{ key with current := columns }] })).bind
        rest).wp (admitting R enables) (fun _ last => Elsewhere key.id history last) after := by
    refine wp_pose _ _ (admitted_applied still (early.hand hand) applied fun kind => .inr (cold kind))
      fun written => ended written _ ?_
    exact ((Elsewhere.still early key.id).trans (.still still key.id)).trans
      (elsewhere_commit written)
  unfold fetchCreditFromFirecrawl
  split
  · refine wp_pose _ _ trivial fun clock => ?_
    have early := (Still.refl history).then .now clock trivial
    refine (wp_bind _).mpr (wp_apply config key _ (keepsStill enables _) (Still.refl _) ?_ ?_)
    · intro columns after still done
      refine applied _ early still done nofun fun written last elsewhere => ?_
      cases written <;> exact elsewhere
    · exact fun last still => (Elsewhere.still early key.id).trans (.still still key.id)
  · refine wp_pose _ _ trivial fun clock => wp_pose _ _ trivial fun reply => ?_
    have asked := (Still.refl history).then .now clock trivial
    have early := asked.then (.probe key.id _) reply trivial
    split
    · exact Elsewhere.still early key.id
    · rename_i result read
      simp only [bind_eq, pure_eq]
      rw [wp_bind, wp_attempt, wp_bind]
      refine wp_apply config key result (keepsStill enables _) (Still.refl _) ?_ ?_
      · intro columns after still done
        refine applied _ early still done ((asked.hand hand).chilled read)
          fun written last elsewhere => ?_
        cases written with
        | false => exact elsewhere
        | true =>
          simp only [if_true]
          split <;> exact elsewhere
      · exact fun last still => (Elsewhere.still early key.id).trans (.still still key.id)

theorem keeps_refreshKeyCredits (control : ControlPlane R) (keyId : Nat) :
    Keeps enables history (refreshKeyCredits control keyId) := by
  unfold refreshKeyCredits
  split
  · trivial
  · refine wp_loadKey keyId _ _ (fun _ _ => trivial) fun row last hand _ => ?_
    split
    · trivial
    · refine wp_pose _ _ trivial fun now => ?_
      split
      · trivial
      · exact wp_mono (fun _ _ _ => trivial) (wp_fetchCredit _ _ _ (hand.then .now now trivial))

theorem keeps_refreshKeys (control : ControlPlane R) (masterKey : Bytes) (force : Bool)
    (now : Instant) (expired : Bool) (listed : List KeyObject)
    (hands : ∀ key ∈ listed, InHand history key) (distinct : (listed.map KeyObject.id).Nodup) :
    Keeps enables history (refreshKeys control masterKey force now expired listed) := by
  induction listed generalizing expired history with
  | nil => trivial
  | cons first rest ih =>
    rw [List.map_cons, List.nodup_cons] at distinct
    obtain ⟨absent, distinct⟩ := distinct
    have others {last : Exchange R} (elsewhere : Elsewhere first.id history last) :
        ∀ key ∈ rest, InHand last key := fun key member =>
      elsewhere.hand (hands key (List.mem_cons_of_mem _ member)) fun same =>
        absent (same ▸ List.mem_map_of_mem member)
    have turn (key : KeyObject) {middle : Exchange R} (same : key.id = first.id)
        (elsewhere : Elsewhere first.id history middle) (hand : InHand middle key) :
        Keeps enables middle
          (if !force && (tooFrequent control key.current now).isSome then
            (refreshKeys control masterKey force now expired rest).bind fun others =>
              .done ((key.id, .tooFrequent) :: others)
          else
            (((fetchCreditFromFirecrawl control.setup.foreign control.setup.config masterKey
              key).bind fun _ => .done none).attempt fun error => .done (some error)).bind fun error =>
            (refreshKeys control masterKey force now
              (expired || error.any (rolledBack control.setup.foreign masterKey key)) rest).bind
              fun others => .done ((key.id, error.elim .refreshed .failed) :: others)) := by
      split
      · refine (wp_bind _).mpr (wp_mono ?_ (ih expired (others elsewhere) distinct))
        rintro (error | outcomes) last _ <;> trivial
      · refine (wp_bind _).mpr ((wp_attempt _).mpr ((wp_bind _).mpr (wp_mono ?_
          (wp_fetchCredit control.setup.foreign control.setup.config masterKey hand))))
        rintro (error | refreshed) last onward <;>
        · have elsewhere := elsewhere.trans (same ▸ onward)
          refine (wp_bind _).mpr (wp_mono ?_ (ih _ (others elsewhere) distinct))
          rintro (raised | outcomes) stop _ <;> trivial
    unfold refreshKeys
    cases expired with
    | false =>
      exact turn first rfl (fun _ _ => rfl) (hands first List.mem_cons_self)
    | true =>
      refine wp_pose _ _ trivial fun reply => ?_
      cases reply with
      | none => trivial
      | some row =>
        exact turn (KeyObject.fresh first.id row) rfl (elsewhere_reload first.id (some row))
          (hand_reloaded first.id row)

/-- The listed rows as objects, without a repeated id. -/
theorem nodup_entries (keys : Table KeyColumns) (chosen : Nat × KeyColumns → Bool)
    (change : KeyColumns → KeyColumns) :
    (((keys.entries.filter chosen).map fun entry =>
      (KeyObject.fresh entry.1 entry.2).assign change).map KeyObject.id).Nodup := by
  have ids : ((keys.entries.filter chosen).map Prod.fst).Nodup := by
    refine List.Nodup.sublist (List.filter_sublist.map Prod.fst) ?_
    unfold Table.entries
    rw [List.map_map]
    simpa [Function.comp_def] using keys.nodup
  simpa [List.map_map, Function.comp_def, KeyObject.fresh] using ids

theorem keeps_refreshAllCredits (control : ControlPlane R) (keyIds : List Nat) (force : Bool) :
    Keeps enables history (refreshAllCredits control keyIds force) := by
  unfold refreshAllCredits
  split
  · trivial
  · refine wp_pose _ _ trivial fun found => ?_
    cases found with
    | none => trivial
    | some keys =>
      refine wp_pose _ _ trivial fun now => ?_
      refine keeps_refreshKeys control _ force now false _ (fun key member => ?_)
        (nodup_entries keys _ id)
      obtain ⟨entry, inside, rfl⟩ := List.mem_map.mp member
      have listed := Table.mem_entries.mp (List.mem_of_mem_filter inside)
      refine InHand.then ⟨?_, rfl⟩ .now now trivial
      rw [rows_concat]
      exact listed

theorem keeps_resetKeysQuota (today : Int) :
    Keeps enables history (resetKeysQuota (R := R) today) := by
  unfold resetKeysQuota
  refine wp_pose _ _ trivial fun found => ?_
  cases found with
  | none => trivial
  | some keys =>
    refine wp_pose _ _ ⟨fun one first two second same => ?_, fun key member => ?_,
      fun key member => ?_⟩ fun written => by cases written <;> trivial
    · obtain ⟨entry, inside, rfl⟩ := List.mem_map.mp first
      obtain ⟨other, among, rfl⟩ := List.mem_map.mp second
      have equal : entry.1 = other.1 := same
      have columns : entry.2 = other.2 := by
        have found := Table.mem_entries.mp inside
        rw [equal, Table.mem_entries.mp among] at found
        exact (Option.some.inj found).symm
      rw [Prod.ext equal columns]
    · obtain ⟨entry, inside, rfl⟩ := List.mem_map.mp member
      rw [rows_concat]
      exact Table.mem_entries.mp inside
    · obtain ⟨entry, _, rfl⟩ := List.mem_map.mp member
      by_cases exceeded : entry.2.status = "quota_exceeded" ∧ entry.2.isActive
      · exact .settles .active ⟨exceeded.2, if_pos exceeded⟩
      · exact .stays ⟨rfl, if_neg exceeded⟩

/-- A round applies a result to a row that it looked up. A cooling result is applied only to an
active key. -/
theorem keeps_applyResult (config : AppConfig R) (now : Instant) (retry : Int)
    (result : CreditFetchResult) :
    Keeps enables history (applyResult config now retry result) := by
  unfold applyResult
  refine wp_pose _ _ trivial fun found => ?_
  rcases found with _ | _ | row
  · trivial
  · trivial
  have hand : InHand (history ++ [(⟨.findKey result.apiKeyId, some (some row)⟩ :
      Event (Op R) (Reply R))]) (KeyObject.fresh result.apiKeyId row) :=
    hand_found result.apiKeyId row
  generalize history ++ [⟨.findKey result.apiKeyId, some (some row)⟩] = middle at hand
  have committed {site : Site} {columns : KeyColumns} {last : Exchange R} (still : Still middle last)
      (steps : ∀ chilled found, Steps chilled found row columns) :
      Keeps enables last ((query (.commit { site, keys := [{ KeyObject.fresh result.apiKeyId row with
        current := columns }] })).bind fun _ => .done ()) :=
    wp_pose _ _ (admitted_single (still.hand hand) (steps _ _)) fun _ => trivial
  have applied {post : Except Exn KeyObject → Exchange R → Prop}
      (cold : result.kind = .cooling → row.isActive = true)
      (ok : ∀ columns last, Still middle last →
        (∀ chilled found, Steps chilled found row columns) →
        post (.ok { KeyObject.fresh result.apiKeyId row with current := columns }) last)
      (failed : ∀ last, post (.error .other) last) :
      (applyCreditFetchResult config (KeyObject.fresh result.apiKeyId row) result).wp
        (admitting R enables) post middle :=
    wp_apply config _ result (keepsStill enables middle) (Still.refl middle)
      (fun columns last still done => ok columns last still fun _ _ =>
        steps_applied done fun kind => .inl (cold kind)) fun last _ => failed last
  simp only [bind_eq, pure_eq]
  split
  · rename_i verdict
    refine (wp_bind _).mpr (applied (fun cooling => ?_) ?_ fun _ => trivial)
    · rcases verdict with other | other <;> cases cooling.symm.trans other
    · exact fun columns last still steps => committed still steps
  · split
    · split
      · exact committed (Still.refl middle) fun _ _ => .stays ⟨rfl, rfl⟩
      · trivial
    · rename_i open_
      have awake : row.isActive = true := by
        simp only [terminal, Bool.or_eq_true, not_or] at open_
        simpa using open_.1
      refine (wp_bind _).mpr (applied (fun _ => awake) ?_ fun _ => trivial)
      intro columns last still steps
      simp only [thenPost]
      split
      · exact committed still fun chilled found => (steps chilled found).rescheduled none
      · split
        · exact committed still steps
        · split
          · exact committed still fun chilled found => (steps chilled found).rescheduled _
          · trivial

theorem keeps_applyResultsSerial (config : AppConfig R) (now : Instant) (retry : Int)
    (results : List CreditFetchResult) :
    Keeps enables history (applyResultsSerial config now retry results) := by
  induction results generalizing history with
  | nil => trivial
  | cons result rest ih =>
    unfold applyResultsSerial
    refine (wp_bind _).mpr ((wp_attempt _).mpr (wp_mono ?_
      (keeps_applyResult config now retry result)))
    rintro (error | _) last _
    · exact ih
    · exact ih

theorem keeps_refreshBatches (foreign : Foreign) (config : AppConfig R) (masterKey : Bytes)
    (pacing : Pacing) (now : Instant) (parts : List (List (Nat × Bytes))) :
    Keeps enables history (refreshBatches foreign config masterKey pacing now parts) := by
  induction parts generalizing history with
  | nil => trivial
  | cons part rest ih =>
    unfold refreshBatches probeBatch
    refine wp_pose _ _ trivial fun replies => ?_
    refine (wp_bind _).mpr (wp_mono ?_ (keeps_applyResultsSerial config now _ _))
    rintro (error | _) last _
    · trivial
    · exact ih

theorem keeps_cleanupOldSnapshots (config : AppConfig R) :
    Keeps enables history (cleanupOldSnapshots config) := by
  unfold cleanupOldSnapshots
  dsimp only
  split
  · trivial
  · refine wp_pose _ _ trivial fun clock => ?_
    split
    · exact wp_pose _ _ trivial fun _ => trivial
    · trivial

theorem keeps_refreshRound (setup : Setup R) :
    Keeps enables history (KeyTasks.refreshRound setup) := by
  have due (masterKey : Bytes) (now : Instant) (due : List (Nat × Bytes)) {last : Exchange R} :
      Keeps enables last
        (refreshDue setup.foreign setup.config setup.runtime masterKey now due) := by
    unfold refreshDue
    split
    · trivial
    · refine (wp_bind _).mpr (wp_mono ?_ (keeps_refreshBatches _ _ masterKey _ now _))
      rintro (error | _) last _
      · trivial
      · exact keeps_cleanupOldSnapshots setup.config
  unfold KeyTasks.refreshRound
  split
  · trivial
  · unfold refreshOnce refreshAt
    refine wp_pose _ _ trivial fun now => wp_pose _ _ trivial fun found => ?_
    cases found with
    | none => trivial
    | some keys =>
      dsimp only
      split
      · refine wp_pose _ _ trivial fun reply => ?_
        cases reply with
        | none => trivial
        | some written => exact due _ _ _
      · exact due _ _ _

theorem keeps_forward (setup : Setup R) (call : Call) :
    Keeps enables history (KeyTasks.forwardAndCommit setup call) := by
  unfold KeyTasks.forwardAndCommit
  refine (wp_bind _).mpr (wp_mono ?_ (wp_writing (wp_forward setup call)))
  rintro (error | result) last forwarded
  · trivial
  · have writable : Writable last { site := .reactivate, keys := result.unsaved } := forwarded
    have admitted : Admitted enables last { site := .reactivate, keys := result.unsaved } :=
      admitted_writable writable
    exact wp_pose _ _ ⟨admitted.single, admitted.kept, admitted.steps⟩ fun _ => trivial

/-- What an import commits: new rows in a phase, and rows that keep theirs. -/
structure Imported (inserted changed : List KeyObject) : Prop where
  fresh : ∀ key ∈ inserted, Phased key.current
  kept : ∀ key ∈ changed, SamePhase key.current key.loaded

/-- What an endpoint may ask. An import commits before it puts any of the gateway's questions. -/
def Allowed (enables : Prop) (events : List (KeyTasks.Happening R)) : Question R → Prop
  | .inl op => Demand enables (KeyTasks.inner events) op
  | .inr (.commitImport inserted changed) =>
    KeyTasks.inner events = [] ∧ Imported inserted changed
  | .inr _ => True

abbrev Minds (enables : Prop) (events : List (KeyTasks.Happening R)) (program : Endpoint R Value) :
    Prop :=
  program.wp (.checking (Allowed enables)) (fun _ _ => True) events

theorem wp_endpoint {events : List (KeyTasks.Happening R)} {program : Gateway R Value}
    {post : Except Exn Value → Exchange R → Prop}
    (met : program.wp (admitting R enables) post (KeyTasks.inner events)) :
    (gateway program).wp (.checking (Allowed enables))
      (fun outcome last => post outcome (KeyTasks.inner last)) events :=
  KeyTasks.wp_gateway (fun _ _ allowed => allowed) met

theorem minds_gateway {events : List (KeyTasks.Happening R)} {program : Gateway R Value}
    (keeps : Keeps enables (KeyTasks.inner events) program) :
    Minds enables events (gateway program) :=
  wp_endpoint keeps

theorem minds_ended {events : List (KeyTasks.Happening R)} {program : Endpoint R Value}
    (minds : Minds enables events program) : Minds enables events (KeyTasks.ended program) :=
  KeyTasks.wp_ended minds

/-- One key of a batch. A patch that switches keys on does so unless they are put away as well. -/
theorem minds_batchKey {events : List (KeyTasks.Happening R)} (payload : BatchKeysRequest)
    (keyId : Nat) (given : payload.patch.bind (·.isActive) = some true →
      payload.softDelete = false → payload.purge = false → enables) :
    Minds enables events (batchKey payload keyId) := by
  have loaded : (loadKey (R := R) keyId notFound).wp (admitting R enables)
      (fun outcome last => ∀ key, outcome = .ok key → InHand last key ∧ Found last key)
      (KeyTasks.inner events) := by
    unfold loadKey
    refine wp_pose _ _ trivial fun reply => ?_
    rcases reply with _ | _ | row
    · exact fun _ => nofun
    · exact fun _ => nofun
    · rintro key ⟨⟩
      exact ⟨hand_found keyId row, List.mem_append_right _ (List.mem_singleton_self _)⟩
  unfold batchKey
  refine (wp_bind _).mpr (wp_mono ?_ (wp_endpoint loaded))
  rintro (error | key) last inside
  · trivial
  obtain ⟨hand, found⟩ := inside key rfl
  simp only [thenPost]
  split
  · exact (wp_check _ _).mpr ⟨trivial, fun written => by cases written <;> trivial⟩
  · rename_i kept
    split
    · refine minds_gateway (wp_pose _ _ (admitted_single hand ?_) fun written => ?_)
      · rw [← hand.clean]
        have kept : payload.purge = false := by simpa using kept
        exact steps_batch (fun on put => ⟨given on put kept, found⟩) kept
      · cases written with
        | false => trivial
        | true => exact wp_pose _ _ trivial fun reply => by cases reply <;> trivial
    · trivial

theorem minds_batchKeys {events : List (KeyTasks.Happening R)} (payload : BatchKeysRequest)
    (given : payload.patch.bind (·.isActive) = some true →
      payload.softDelete = false → payload.purge = false → enables) :
    Minds enables events (batchKeys payload) := by
  have turns {events : List (KeyTasks.Happening R)} (failed : Exn → Endpoint R BatchOutcome)
      (caught : ∀ error, ∃ outcome, failed error = .done outcome) :
      Minds enables events (payload.ids.mapM fun keyId => do
        let outcome ← (batchKey payload keyId).attempt failed
        return (keyId, outcome)) := by
    refine wp_mapM _ (fun keyId last _ => ?_) trivial
    refine (wp_bind _).mpr ((wp_attempt _).mpr (wp_mono ?_ (minds_batchKey payload keyId given)))
    rintro (error | outcome) last _
    · obtain ⟨outcome, same⟩ := caught error
      simp only [same]
      trivial
    · trivial
  unfold batchKeys
  split
  · trivial
  · split
    · refine (wp_check _ _).mpr ⟨trivial, fun reply => ?_⟩
      cases reply with
      | none => trivial
      | some keys =>
        simp only [gateway, Prog.bind]
        split
        · trivial
        · exact turns _ fun error => by cases error <;> exact ⟨_, rfl⟩
    · exact turns _ fun error => by cases error <;> exact ⟨_, rfl⟩

/-- The session of an import holds what may be committed. -/
abbrev Gathered (session : ImportSession) : Prop := Imported session.inserted session.changed

/-- What an import may ask. -/
def Brings : Question R → Prop
  | .inr (.commitImport inserted changed) => Imported inserted changed
  | .inr _ => True
  | .inl _ => False

abbrev Gathers (program : Endpoint R ImportSession) : Prop :=
  program.Asks Brings (fun _ => True) Gathered

/-- An object of the session whose account fields were filled may take the place of the old one. -/
theorem gathered_keep {session : ImportSession} (gathered : Gathered session) (id : Nat)
    (stored row : KeyColumns) :
    Gathered (session.keep ((session.object id stored).assign (fillAccount row))) := by
  have same : (session.object id stored).id = id := by
    unfold ImportSession.object
    cases found : (session.inserted ++ session.changed).find? (·.id = id) with
    | none => rfl
    | some key => simpa using List.find?_some found
  have filled : SamePhase ((session.object id stored).assign (fillAccount row)).current
      (session.object id stored).current := ⟨rfl, rfl⟩
  unfold ImportSession.keep
  split
  · -- the object is the first one with its id, so it is the inserted one
    rename_i inserted
    obtain ⟨first, member, own⟩ := List.any_eq_true.mp inserted
    have fresh : Phased (session.object id stored).current := by
      have present : (session.inserted.find? (·.id = id)).isSome := by
        rw [List.find?_isSome]
        exact ⟨first, member, by simpa [KeyObject.assign, same] using own⟩
      obtain ⟨key, found⟩ := Option.isSome_iff_exists.mp present
      have chosen : session.object id stored = key := by
        unfold ImportSession.object
        rw [List.find?_append, found]
        rfl
      rw [chosen]
      exact gathered.fresh key (List.mem_of_find?_eq_some found)
    refine ⟨fun key member => ?_, gathered.kept⟩
    obtain ⟨old, inside, rfl⟩ := List.mem_map.mp member
    split
    · exact filled.phased fresh
    · exact gathered.fresh old inside
  · rename_i absent
    refine ⟨gathered.fresh, List.forall_mem_append.mpr ⟨fun key member => ?_, fun key member => ?_⟩⟩
    · exact gathered.kept key (List.mem_of_mem_filter member)
    · rw [List.mem_singleton.mp member]
      refine filled.trans ?_
      unfold ImportSession.object
      cases found : (session.inserted ++ session.changed).find? (·.id = id) with
      | none => exact .refl stored
      | some key =>
        rcases List.mem_append.mp (List.mem_of_find?_eq_some found) with inside | inside
        · refine absurd (List.any_eq_true.mpr ⟨key, inside, ?_⟩) absent
          simpa [KeyObject.assign, same] using List.find?_some found
        · exact gathered.kept key inside

theorem gathers_closeMerge {session : ImportSession} (gathered : Gathered session)
    (item : ParsedKeyLine) : Gathers (R := R) (closeMerge session item) := by
  refine ⟨trivial, fun closed => ?_⟩
  cases closed <;> exact gathered

theorem gathers_mergeItem {session : ImportSession} (gathered : Gathered session)
    (item : ParsedKeyLine) (row : KeyColumns) : Gathers (R := R) (mergeItem session item row) := by
  unfold mergeItem
  refine ⟨trivial, fun found => ?_⟩
  rcases found with message | _ | ⟨id, stored⟩
  · exact gathered
  · apply gathers_closeMerge (R := R)
    exact gathered
  · have counted : Gathered { session with updated := session.updated + 1 } := gathered
    have filled := gathered_keep counted id stored row
    simp only [Prog.bind]
    split
    · apply gathers_closeMerge (R := R)
      exact gathered
    · refine ⟨trivial, fun failed => ?_⟩
      cases failed with
      | some message => exact gathered
      | none => exact filled

theorem gathers_importItem {session : ImportSession} (gathered : Gathered session)
    (item : ParsedKeyLine) {row : KeyColumns} (phased : Phased row) :
    Gathers (R := R) (importItem session item row) := by
  unfold importItem
  refine ⟨trivial, fun reply => ?_⟩
  cases reply with
  | added id =>
    refine ⟨trivial, fun closed => ?_⟩
    rcases closed with _ | ⟨_ | _, message⟩
    · refine ⟨List.forall_mem_append.mpr ⟨gathered.fresh, fun key member => ?_⟩, gathered.kept⟩
      rw [List.mem_singleton.mp member]
      exact phased
    · exact gathered
    · apply gathers_mergeItem (R := R)
      exact gathered
  | duplicate => exact gathers_mergeItem gathered item row
  | failed message => exact gathered

theorem gathers_importItems (vault : KeyVault) (masterKey : Bytes) (nonce : Nat → Bytes) (today : Int)
    (payload : ImportKeysTextRequest) (items : List ParsedKeyLine) {session : ImportSession}
    (gathered : Gathered session) :
    Gathers (R := R) (importItems vault masterKey nonce today payload session items) := by
  induction items generalizing session with
  | nil => exact gathered
  | cons item rest ih =>
    exact asks_bind (gathers_importItem gathered item (phased_created payload.isActive rfl rfl))
      fun session gathered => ih gathered

theorem minds_importKeysText (control : ControlPlane R) (vault : KeyVault) (nonce : Nat → Bytes)
    (today : Int) (payload : ImportKeysTextRequest) :
    Minds enables [] (importKeysText control vault nonce today payload) := by
  have asks : (importKeysText control vault nonce today payload).Asks Brings (fun _ => True)
      fun _ => True := by
    unfold importKeysText
    split
    · trivial
    · split
      · trivial
      · split
        · trivial
        · refine asks_bind (gathers_importItems vault _ nonce today payload payload.items
            ⟨fun _ => nofun, fun _ => nofun⟩) fun session gathered => ?_
          refine ⟨gathered, fun written => ?_⟩
          cases written <;> trivial
  have keeps (op : Question R) (asked : Brings op) :
      (Monitor.checking (Allowed enables)).Keeps (fun events => KeyTasks.inner events = []) op := by
    intro events silent
    cases op with
    | inl op => exact absurd asked id
    | inr op =>
      refine ⟨?_, fun reply last moved => ?_⟩
      · cases op with
        | commitImport inserted changed => exact ⟨silent, asked⟩
        | _ => trivial
      · rw [show last = _ from moved]
        change KeyTasks.inner (events ++ [_]) = []
        rw [KeyTasks.inner_append, silent, KeyTasks.inner_admin]
        rfl
  exact wp_mono (fun _ _ _ => trivial) (wp_asks asks keeps rfl)

end FcamGateway.KeyPhases
