import FcamGateway.Idempotency
import FcamGateway.JsonEqual
import FcamGateway.IdempotencyReplay

/-! What the fingerprint of a request tells apart. It is a digest of the sorted text, so numbers
count as they are printed: an integer is no float, and a zero keeps its sign. -/
namespace FcamGateway.Idempotency
open JsonText

/-- A parsed body. A `dict` has no name twice. -/
structure Payload where
  value : Json
  distinct : Distinct value

/-- With a digest that has no collisions, requests of one method have one fingerprint exactly where
their labels are the same and their payloads are, up to the order of members. -/
theorem hash_exact {codec : Codec} (injective : Function.Injective codec.sha256)
    (method endpoint label : String) (one other : Payload) :
    hashRequest codec method endpoint one.value = hashRequest codec method label other.value ↔
      endpoint = label ∧ SameValue (· = ·) one.value other.value := by
  rw [hashRequest, hashRequest, injective.eq_iff, String.ofList_inj, dumps_inj, canonical_request,
    canonical_request]
  simp only [Json.obj.injEq, List.cons.injEq, Prod.mk.injEq, Json.str.injEq, true_and, and_true]
  refine and_congr_right fun _ => ⟨?_, ?_⟩
  · exact sameValue_of_canonical _ _ one.distinct other.distinct
  · exact fun same => same.canonical_eq one.distinct other.distinct

/-- A body with a nested object, its members in two orders at both depths. -/
def ordered : Payload where
  value := .obj [("url", .str "a"), ("options", .obj [("depth", .int 2), ("sitemap", .null)])]
  distinct := .obj (by decide) (by simp [Distinct.str, Distinct.obj, Distinct.int, Distinct.null])

def reordered : Payload where
  value := .obj [("options", .obj [("sitemap", .null), ("depth", .int 2)]), ("url", .str "a")]
  distinct := .obj (by decide) (by simp [Distinct.str, Distinct.obj, Distinct.int, Distinct.null])

theorem ordered_same : SameValue (· = ·) ordered.value reordered.value := by
  refine .obj (.swap ..) fun name value given listed found => ?_
  simp only [List.mem_cons, List.not_mem_nil, or_false, Prod.mk.injEq] at listed found
  obtain ⟨rfl, rfl⟩ | ⟨rfl, rfl⟩ := listed
  · obtain ⟨named, -⟩ | ⟨-, rfl⟩ := found
    · simp at named
    · exact .str "a"
  · obtain ⟨-, rfl⟩ | ⟨named, -⟩ := found
    · refine .obj (.swap ..) fun name value given listed found => ?_
      simp only [List.mem_cons, List.not_mem_nil, or_false, Prod.mk.injEq] at listed found
      obtain ⟨rfl, rfl⟩ | ⟨rfl, rfl⟩ := listed
      · obtain ⟨named, -⟩ | ⟨-, rfl⟩ := found
        · simp at named
        · exact .number rfl rfl rfl
      · obtain ⟨-, rfl⟩ | ⟨named, -⟩ := found
        · exact .null
        · simp at named
    · simp at named

theorem reordered_hash : hashRequest jobCodec "POST" "crawl" ordered.value =
    hashRequest jobCodec "POST" "crawl" reordered.value :=
  (hash_exact Function.injective_id "POST" "crawl" "crawl" ordered reordered).mpr
    ⟨rfl, ordered_same⟩

/-- A body with one number. -/
def limited (number : Json) (leaf : Distinct number) : Payload where
  value := .obj [("limit", number)]
  distinct := .obj (by simp) (by simpa using leaf)

theorem limited_same {one other : Json} {leaf : Distinct one} {last : Distinct other}
    (first : isNumber one = true) (second : isNumber other = true) (same : SameNumber one other) :
    SameValue SameNumber (limited one leaf).value (limited other last).value := by
  refine .obj (.refl _) fun name value given listed found => ?_
  cases List.mem_singleton.mp listed
  cases List.mem_singleton.mp found
  exact .number first second same

def intOne : Payload := limited (.int 1) (.int 1)

def floatOne : Payload := limited (.float ⟨['1', '.', '0'], by decide, by decide⟩) (.float _)

def zero : Payload := limited (.float ⟨['0', '.', '0'], by decide, by decide⟩) (.float _)

def negativeZero : Payload := limited (.float ⟨['-', '0', '.', '0'], by decide, by decide⟩) (.float _)

/-- One number that is written in two ways makes two fingerprints. -/
theorem hash_splits_numbers : Function.Injective jobCodec.sha256 ∧
    (SameValue SameNumber intOne.value floatOne.value ∧
      hashRequest jobCodec "POST" "crawl" intOne.value ≠
        hashRequest jobCodec "POST" "crawl" floatOne.value) ∧
    SameValue SameNumber zero.value negativeZero.value ∧
      hashRequest jobCodec "POST" "crawl" zero.value ≠
        hashRequest jobCodec "POST" "crawl" negativeZero.value := by
  refine ⟨Function.injective_id, ⟨limited_same rfl rfl ⟨1, ?_, ?_⟩, ?_⟩,
    limited_same rfl rfl ⟨0, ?_, ?_⟩, ?_⟩
  all_goals decide +kernel

end FcamGateway.Idempotency
