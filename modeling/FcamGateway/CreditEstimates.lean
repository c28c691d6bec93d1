import Mathlib.Algebra.Order.Field.Rat
import Mathlib.Data.List.TakeWhile
import FcamGateway.Forwarder
import FcamGateway.KeyStore

/-! The local credit estimate: which responses its cost can be read from, what a
success takes from the key that served it, and which requests are charged. -/
namespace FcamGateway.Upstream

/-- The endpoints whose cost is read from the response. -/
def metered (endpoint : String) : Bool :=
  PyText.contains endpoint.toList "/crawl" || PyText.contains endpoint.toList "/batch/"

/-- The responses that `.get("data", {}).get(…)` goes through: an object whose
`data`, where it has one, is an object too. -/
def NestedData (response : Json) : Prop :=
  ∃ members, response = .obj members ∧
    ∀ data, Json.get? members "data" = some data → ∃ inner, data = .obj inner

/-- An empty or absent response is not looked into, nor is any response of an
endpoint with a fixed cost. -/
def Readable (endpoint : String) (response : Option Json) : Prop :=
  metered endpoint = true → ∀ value, response = some value → value.truthy = true → NestedData value

theorem readAmount_isSome_iff : (readAmount response name).isSome = true ↔ NestedData response := by
  constructor
  · intro read
    cases response with
    | obj members =>
      refine ⟨members, rfl, fun data found => ?_⟩
      simp only [readAmount, found, Option.getD_some] at read
      cases data with
      | obj inner => exact ⟨inner, rfl⟩
      | _ => simp at read
    | _ => simp [readAmount] at read
  · rintro ⟨members, rfl, nested⟩
    cases found : Json.get? members "data" with
    | none => simp [readAmount, found]
    | some data =>
      obtain ⟨inner, rfl⟩ := nested data found
      simp [readAmount, found]

private theorem given_iff :
    (response.bind fun value : Json => if value.truthy then some value else none) = some given ↔
      response = some given ∧ given.truthy = true := by
  cases response with
  | none => simp
  | some value =>
    by_cases holds : value.truthy = true
    · simp only [Option.bind_some, holds, ↓reduceIte, Option.some.injEq]
      exact ⟨fun same => ⟨same, same ▸ holds⟩, And.left⟩
    · simp only [Option.bind_some, holds, ↓reduceIte, Option.some.injEq, reduceCtorEq, false_iff]
      rintro ⟨rfl, given⟩
      exact holds given

theorem estimateCreditCost_isSome_iff :
    (estimateCreditCost endpoint response).isSome = true ↔ Readable endpoint response := by
  unfold estimateCreditCost Readable metered
  cases carried : response.bind fun value => if value.truthy then some value else none with
  | none =>
    simp only [Option.isSome_some, true_iff]
    intro _ value same holds
    rw [given_iff.mpr ⟨same, holds⟩] at carried
    cases carried
  | some value =>
    have ⟨same, holds⟩ := given_iff.mp carried
    subst same
    by_cases crawl : PyText.contains endpoint.toList "/crawl" = true
    · simp [crawl, readAmount_isSome_iff, holds]
    · by_cases batch : PyText.contains endpoint.toList "/batch/" = true
      · simp [crawl, batch, readAmount_isSome_iff, holds]
      · simp [crawl, batch]

theorem cost_positive (billable : creditCostMap.lookup endpoint = some base) : 0 < base := by
  have all : ∀ entry ∈ creditCostMap, 0 < entry.2 := by decide
  obtain ⟨before, after, split, _⟩ := List.lookup_eq_some_iff.mp billable
  exact all (endpoint, base) (by simp [split])

/-- Whatever the amounts in the response are, the estimate covers the start. -/
theorem estimateCreditCost_covers (billable : creditCostMap.lookup endpoint = some base)
    (estimated : estimateCreditCost endpoint response = some cost) : base ≤ cost := by
  have positive := cost_positive billable
  simp only [estimateCreditCost, billable, Option.getD_some] at estimated
  split at estimated
  · cases estimated
    exact le_refl _
  · split at estimated
    · obtain ⟨pages, _, rfl⟩ := Option.map_eq_some_iff.mp estimated
      exact le_max_left _ _
    · split at estimated
      · obtain ⟨count, _, rfl⟩ := Option.map_eq_some_iff.mp estimated
        have many : base * 1 ≤ base * max count 1 :=
          mul_le_mul_of_nonneg_left (le_max_right _ _) positive.le
        exact le_max_of_le_left (by omega)
      · cases estimated
        exact le_refl _

/-- The data an estimate is given: the parsed body, where it is declared as
JSON. -/
def responseData (foreign : Foreign) (resp : UpstreamResponse) : Option Json :=
  let contentType := PyText.lower ((header resp.headers "content-type").getD "")
  if "application/json".toList <+: contentType.toList then foreign.parseJson resp.content else none

/-- The switches and the method test before an estimate. -/
def Estimating (config : CreditMonitoringConfig) (method : String) : Prop :=
  config.enabled = true ∧ config.localEstimationEnabled = true ∧
    config.localEstimationSyncOnRequest = true ∧ method.toUpper ≠ "GET"

instance (config : CreditMonitoringConfig) (method : String) :
    Decidable (Estimating config method) := by unfold Estimating; infer_instance

theorem estimating_iff :
    (config.enabled && config.localEstimationEnabled && config.localEstimationSyncOnRequest &&
      method.toUpper != "GET") = true ↔ Estimating config method := by
  simp [Estimating, and_assoc]

theorem estimatedRemaining_eq :
    estimatedRemaining foreign config method path key resp =
      if config.enabled && config.localEstimationEnabled && config.localEstimationSyncOnRequest &&
          method.toUpper != "GET" then
        match creditCostMap.lookup (normalizeEndpoint path), key.cachedRemainingCredits with
        | some _, some old =>
          match estimateCreditCost (normalizeEndpoint path) (responseData foreign resp) with
          | some cost => if max 0 (old - cost) = old then none else some (max 0 (old - cost))
          | none => none
        | _, _ => none
      else none := by
  simp only [estimatedRemaining, responseData]
  all_goals
    generalize creditCostMap.lookup (normalizeEndpoint path) = base
    generalize estimateCreditCost (normalizeEndpoint path) _ = estimate
    rfl

/-- An estimate is made when it is switched on, the endpoint has a cost, the
key's credits are known and the response can be read. -/
theorem estimatedRemaining_some_iff :
    estimatedRemaining foreign config method path key resp = some left ↔
      Estimating config method ∧ ∃ base old cost,
        creditCostMap.lookup (normalizeEndpoint path) = some base ∧
        key.cachedRemainingCredits = some old ∧
        estimateCreditCost (normalizeEndpoint path) (responseData foreign resp) = some cost ∧
        max 0 (old - cost) ≠ old ∧ left = max 0 (old - cost) := by
  rw [estimatedRemaining_eq]
  generalize normalizeEndpoint path = endpoint
  generalize responseData foreign resp = response
  by_cases on : Estimating config method
  · rw [if_pos (estimating_iff.mpr on)]
    cases costed : creditCostMap.lookup endpoint with
    | none => simp
    | some base =>
      cases known : key.cachedRemainingCredits with
      | none => simp
      | some old =>
        cases read : estimateCreditCost endpoint response with
        | none => simp
        | some cost =>
          by_cases same : max 0 (old - cost) = old
          · simp [same]
          · simp [on, same, eq_comm (a := left)]
  · rw [if_neg (fun all => on (estimating_iff.mp all))]
    simp [on]

end FcamGateway.Upstream

namespace FcamGateway.Forwarder
open Upstream

variable {R : Type} [Field R]

/-- The row object after the local estimation of a response. -/
def localEstimation (setup : Setup R) (call : Call) (key : KeyObject) (resp : UpstreamResponse) :
    KeyObject :=
  if isSuccess resp.statusCode then
    withEstimate key (estimatedRemaining setup.foreign setup.config.creditMonitoring call.method
      call.upstreamPath key.current resp)
  else key

/-- What the accounting of a success commits is the row object after its local
estimation. -/
theorem settleResponse_success [LinearOrder R] [ScoreMath R] {setup : Setup R}
    (success : isSuccess resp.statusCode = true) :
    settleResponse setup call key resp =
      (if setup.config.quota.countMode = "success" then
        consumeQuotaOnSuccess call.client (localEstimation setup call key resp)
      else if (estimatedRemaining setup.foreign setup.config.creditMonitoring call.method
          call.upstreamPath key.current resp).isSome then
        (commitKey .localCredits (localEstimation setup call key resp)).bind fun _ => pure ()
      else pure () : Gateway R Unit).bind fun _ => KeyPool.recordSuccess key.id := by
  simp only [settleResponse, localEstimation, success, ↓reduceIte]
  rfl

/-- Every success that carries this response takes at least the base cost from
the key that served it, or all that the key has left. -/
def Deducts (R : Type) [Field R] (endpoint : String) (base : Int) (response : Option Json) : Prop :=
  ∀ (setup : Setup R) call key resp old,
    Estimating setup.config.creditMonitoring call.method → isSuccess resp.statusCode = true →
    normalizeEndpoint call.upstreamPath = endpoint →
    responseData setup.foreign resp = response →
    key.current.cachedRemainingCredits = some old →
    ∃ left, (localEstimation setup call key resp).current.cachedRemainingCredits = some left ∧
      min base old ≤ old - left

theorem localEstimation_remaining {setup : Setup R}
    (on : Estimating setup.config.creditMonitoring call.method)
    (success : isSuccess resp.statusCode = true)
    (billable : creditCostMap.lookup (normalizeEndpoint call.upstreamPath) = some base)
    (known : key.current.cachedRemainingCredits = some old)
    (estimated : estimateCreditCost (normalizeEndpoint call.upstreamPath)
      (responseData setup.foreign resp) = some cost) :
    (localEstimation setup call key resp).current.cachedRemainingCredits =
      some (max 0 (old - cost)) := by
  by_cases same : max 0 (old - cost) = old
  · have kept : estimatedRemaining setup.foreign setup.config.creditMonitoring call.method
        call.upstreamPath key.current resp = none := by
      rw [estimatedRemaining_eq, if_pos (estimating_iff.mpr on), billable, known]
      simp [estimated, same]
    simp [localEstimation, success, kept, withEstimate, known, same]
  · have taken := estimatedRemaining_some_iff.mpr
      ⟨on, base, old, cost, billable, known, estimated, same, rfl⟩
    simp [localEstimation, success, taken, withEstimate, KeyObject.assign]

theorem deducts_of_readable (billable : creditCostMap.lookup endpoint = some base)
    (readable : Readable endpoint response) : Deducts R endpoint base response := by
  rintro setup call key resp old on success rfl rfl known
  obtain ⟨cost, estimated⟩ := Option.isSome_iff_exists.mp (estimateCreditCost_isSome_iff.mpr readable)
  refine ⟨_, localEstimation_remaining on success billable known estimated, ?_⟩
  have covers := estimateCreditCost_covers billable estimated
  omega

/-- Of a billable endpoint, the estimate returns a cost that covers the start,
and its step deducts that start, exactly for the responses it can read. -/
theorem estimate_covers_iff (endpoint : String) (base : Int)
    (billable : creditCostMap.lookup endpoint = some base) (response : Option Json) :
    ((∃ cost, estimateCreditCost endpoint response = some cost ∧ base ≤ cost) ∧
      Deducts R endpoint base response) ↔ Readable endpoint response := by
  constructor
  · rintro ⟨⟨cost, estimated, _⟩, _⟩
    exact estimateCreditCost_isSome_iff.mp (Option.isSome_iff_exists.mpr ⟨cost, estimated⟩)
  · intro readable
    obtain ⟨cost, estimated⟩ :=
      Option.isSome_iff_exists.mp (estimateCreditCost_isSome_iff.mpr readable)
    exact ⟨⟨cost, estimated, estimateCreditCost_covers billable estimated⟩,
      deducts_of_readable billable readable⟩

/-- A page count in the response of a crawl. -/
theorem crawl_estimate_covers :
    ((∃ cost, estimateCreditCost "/v1/crawl"
        (some (.obj [("data", .obj [("total", .int 9)])])) = some cost ∧ 5 ≤ cost) ∧
      Deducts ℚ "/v1/crawl" 5 (some (.obj [("data", .obj [("total", .int 9)])]))) :=
  (estimate_covers_iff "/v1/crawl" 5 (by decide) _).mpr fun _ value same _ => by
    cases same
    exact ⟨_, rfl, fun data found => ⟨[("total", .int 9)], by
      simpa [Json.get?, eq_comm] using found⟩⟩

/-- A crawl answered with `{"data": null}` has no cost at all. -/
theorem null_data_raises :
    creditCostMap.lookup "/v1/crawl" = some 5 ∧
      ¬ ∃ cost, estimateCreditCost "/v1/crawl" (some (.obj [("data", .null)])) = some cost ∧
        5 ≤ cost := by
  have raised : estimateCreditCost "/v1/crawl" (some (.obj [("data", .null)])) = none := by decide
  exact ⟨by decide, by simp [raised]⟩

/-! ## Which requests are charged -/

def Lowered (before after : KeyObject) : Prop :=
  ∃ old left, before.current.cachedRemainingCredits = some old ∧
    after.current.cachedRemainingCredits = some left ∧ left < old

/-- What a request and its response need for a charge: besides the switches and
the success, an endpoint with a cost once its path is normalized, credits to
take and a response the cost can be read from. -/
structure Chargeable (setup : Setup R) (call : Call) (key : KeyObject) (resp : UpstreamResponse) :
    Prop where
  on : Estimating setup.config.creditMonitoring call.method
  success : isSuccess resp.statusCode = true
  billable : ∃ base, creditCostMap.lookup (normalizeEndpoint call.upstreamPath) = some base
  credit : ∃ old, key.current.cachedRemainingCredits = some old ∧ 0 < old
  readable : Readable (normalizeEndpoint call.upstreamPath) (responseData setup.foreign resp)

theorem lowered_iff {setup : Setup R} :
    Lowered key (localEstimation setup call key resp) ↔ Chargeable setup call key resp := by
  constructor
  · rintro ⟨old, left, known, after, less⟩
    by_cases success : isSuccess resp.statusCode = true
    · cases estimate : estimatedRemaining setup.foreign setup.config.creditMonitoring call.method
          call.upstreamPath key.current resp with
      | none =>
        simp only [localEstimation, success, ↓reduceIte, estimate, withEstimate, known,
          Option.some.injEq] at after
        omega
      | some taken =>
        obtain ⟨on, base, held, cost, billable, own, estimated, _, rfl⟩ :=
          estimatedRemaining_some_iff.mp estimate
        simp only [localEstimation, success, ↓reduceIte, estimate, withEstimate, KeyObject.assign,
          Option.some.injEq] at after
        exact ⟨on, success, ⟨base, billable⟩, ⟨old, known, by omega⟩,
          estimateCreditCost_isSome_iff.mp (by simp [estimated])⟩
    · simp only [localEstimation, success, Bool.false_eq_true, ↓reduceIte, known,
        Option.some.injEq] at after
      omega
  · rintro ⟨on, success, ⟨base, billable⟩, ⟨old, known, positive⟩, readable⟩
    obtain ⟨cost, estimated⟩ :=
      Option.isSome_iff_exists.mp (estimateCreditCost_isSome_iff.mpr readable)
    have covers := estimateCreditCost_covers billable estimated
    have start := cost_positive billable
    exact ⟨old, max 0 (old - cost), known,
      localEstimation_remaining on success billable known estimated, by omega⟩

/-- A charge never leaves less than nothing. -/
theorem changed_nonneg {setup : Setup R}
    (changed : (localEstimation setup call key resp).current.cachedRemainingCredits ≠
      key.current.cachedRemainingCredits) :
    ∃ left, (localEstimation setup call key resp).current.cachedRemainingCredits = some left ∧
      0 ≤ left := by
  unfold localEstimation at changed ⊢
  split at changed
  case isFalse => exact absurd rfl changed
  case isTrue success =>
    rw [if_pos success]
    cases estimate : estimatedRemaining setup.foreign setup.config.creditMonitoring call.method
        call.upstreamPath key.current resp with
    | none =>
      rw [estimate] at changed
      exact absurd rfl changed
    | some left =>
      obtain ⟨_, _, old, cost, _, _, _, _, rfl⟩ := estimatedRemaining_some_iff.mp estimate
      exact ⟨_, rfl, le_max_left _ _⟩

/-- `path.split("?", 1)[0]`. -/
def withoutQuery (path : String) : String := String.ofList (path.toList.takeWhile (· ≠ '?'))

theorem normalizeEndpoint_withoutQuery (path : String) :
    normalizeEndpoint (withoutQuery path) = normalizeEndpoint path := by
  simp [normalizeEndpoint, withoutQuery, List.takeWhile_idem]

/-- The endpoints with a cost are not folded into others. -/
theorem normalizeEndpoint_billable
    (billable : withoutQuery path ∈ creditCostMap.map Prod.fst) :
    normalizeEndpoint path = withoutQuery path := by
  have fixed : ∀ endpoint ∈ creditCostMap.map Prod.fst, normalizeEndpoint endpoint = endpoint := by
    decide
  rw [← normalizeEndpoint_withoutQuery, fixed _ billable]

/-- Only starts are charged, and no charge goes below zero, exactly when a
request that can be charged is a `POST` to a path that is not folded. -/
theorem starts_charged_iff (setup : Setup R) (call : Call) (key : KeyObject)
    (resp : UpstreamResponse) :
    ((Lowered key (localEstimation setup call key resp) →
        isSuccess resp.statusCode = true ∧ call.method = "POST" ∧
          withoutQuery call.upstreamPath ∈ creditCostMap.map Prod.fst) ∧
      ((localEstimation setup call key resp).current.cachedRemainingCredits ≠
          key.current.cachedRemainingCredits →
        ∃ left, (localEstimation setup call key resp).current.cachedRemainingCredits = some left ∧
          0 ≤ left)) ↔
    (Chargeable setup call key resp →
      call.method = "POST" ∧ normalizeEndpoint call.upstreamPath = withoutQuery call.upstreamPath) := by
  constructor
  · rintro ⟨starts, _⟩ chargeable
    obtain ⟨_, posted, billable⟩ := starts (lowered_iff.mpr chargeable)
    exact ⟨posted, normalizeEndpoint_billable billable⟩
  · intro holds
    refine ⟨fun lowered => ?_, changed_nonneg⟩
    have chargeable := lowered_iff.mp lowered
    obtain ⟨posted, unfolded⟩ := holds chargeable
    obtain ⟨base, billable⟩ := chargeable.billable
    obtain ⟨before, after, split, _⟩ := List.lookup_eq_some_iff.mp billable
    refine ⟨chargeable.success, posted, ?_⟩
    rw [← unfolded, split]
    simp

def cancelCall : Call :=
  { requestId := "r", client := ClientObject.fresh 1 {}, method := "DELETE"
    upstreamPath := "/v1/crawl/job", jsonBody := none, inboundHeaders := [] }

def creditedKey : KeyObject := KeyObject.fresh 1 { cachedRemainingCredits := some 10 }

theorem responseData_openCipher : responseData openCipher resp = none := by
  unfold responseData
  exact ite_self none

theorem cancel_estimating : cancelCall.method.toUpper ≠ "GET" := by
  intro same
  have spelled := congrArg String.toList same
  simp [cancelCall, String.toUpper, String.toList_map] at spelled

/-- Cancelling a crawl takes the start cost of a new one. -/
theorem cancel_charged :
    cancelCall.method ≠ "POST" ∧
      withoutQuery cancelCall.upstreamPath ∉ creditCostMap.map Prod.fst ∧
      Lowered creditedKey (localEstimation
        (⟨openCipher, { creditMonitoring := { enabled := true } }, none, none⟩ : Setup ℚ)
        cancelCall creditedKey { statusCode := 200, headers := [], content := [] }) := by
  refine ⟨by decide, by decide, lowered_iff.mpr ?_⟩
  exact ⟨⟨rfl, rfl, rfl, cancel_estimating⟩, rfl, ⟨5, by decide⟩, ⟨10, rfl, by decide⟩,
    fun _ value same => absurd (responseData_openCipher.symm.trans same) (by simp)⟩

end FcamGateway.Forwarder
