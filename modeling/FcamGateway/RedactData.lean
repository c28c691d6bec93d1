import FcamGateway.RedactTwice

/-! Redaction of whole values: it is idempotent on every value, and the values
that it leaves without secrets are those made of redactable texts and of keys
that need no redaction. -/
namespace FcamGateway.Redact
open Pattern

variable {letters : Letters} {sensitiveKeys : List String}

theorem redactItems_map (items : List Json) :
    redactItems letters sensitiveKeys items = items.map (redactData letters sensitiveKeys) := by
  induction items with
  | nil => rfl
  | cons item items ih => rw [redactItems, ih, List.map_cons]

/-- One member of a mapping after redaction. -/
def redactMember (letters : Letters) (sensitiveKeys : List String) (member : String × Json) :
    String × Json :=
  (member.1,
    if letters.lower member.1 ∈ sensitiveKeys then .str (String.ofList redactedMark)
    else redactData letters sensitiveKeys member.2)

theorem redactMembers_map (members : List (String × Json)) :
    redactMembers letters sensitiveKeys members =
      members.map (redactMember letters sensitiveKeys) := by
  induction members with
  | nil => rfl
  | cons member members ih =>
    obtain ⟨key, value⟩ := member
    rw [redactMembers, ih, List.map_cons]
    rfl

section
variable {key : String} {value : Json}

theorem redactMember_hit (hit : letters.lower key ∈ sensitiveKeys) :
    redactMember letters sensitiveKeys (key, value) = (key, .str (String.ofList redactedMark)) := by
  rw [redactMember, if_pos hit]

theorem redactMember_miss (miss : letters.lower key ∉ sensitiveKeys) :
    redactMember letters sensitiveKeys (key, value) = (key, redactData letters sensitiveKeys value) := by
  rw [redactMember, if_neg miss]

end

/-! ## Twice -/

/-- A redacted value is redacted to itself. -/
theorem redactData_idem (value : Json) :
    redactData letters sensitiveKeys (redactData letters sensitiveKeys value) =
      redactData letters sensitiveKeys value := by
  induction value using Json.induction with
  | null => rfl
  | bool => rfl
  | int => rfl
  | float => rfl
  | str text =>
    simp only [redactData, String.toList_ofList, redactText_idem]
  | arr items each =>
    simp only [redactData, redactItems_map, List.map_map, Json.arr.injEq]
    exact List.map_congr_left each
  | obj members each =>
    simp only [redactData, redactMembers_map, List.map_map, Json.obj.injEq]
    apply List.map_congr_left
    rintro ⟨key, value⟩ present
    rw [Function.comp_apply]
    by_cases hit : letters.lower key ∈ sensitiveKeys
    · rw [redactMember_hit hit, redactMember_hit hit]
    · rw [redactMember_miss hit, redactMember_miss hit, each _ present]

/-! ## Completeness -/

/-- A value that redaction makes safe. Its texts are redactable; a key of a
mapping holds no secret, and where the set names it, it names its lower case
too, unless the marker already stands under it. -/
inductive Covered (letters : Letters) (sensitiveKeys : List String) : Json → Prop where
  | null : Covered letters sensitiveKeys .null
  | bool (value : Bool) : Covered letters sensitiveKeys (.bool value)
  | int (value : Int) : Covered letters sensitiveKeys (.int value)
  | float (value : FloatText) : Covered letters sensitiveKeys (.float value)
  | str (text : String) (redactable : Redactable letters none text.toList) :
    Covered letters sensitiveKeys (.str text)
  | arr (items : List Json) (each : ∀ item ∈ items, Covered letters sensitiveKeys item) :
    Covered letters sensitiveKeys (.arr items)
  | obj (members : List (String × Json))
      (keys : ∀ member ∈ members, Clean letters member.1.toList)
      (named : ∀ member ∈ members, member.1 ∈ sensitiveKeys →
        letters.lower member.1 ∈ sensitiveKeys ∨ member.2 = .str (String.ofList redactedMark))
      (each : ∀ member ∈ members, letters.lower member.1 ∉ sensitiveKeys →
        Covered letters sensitiveKeys member.2) : Covered letters sensitiveKeys (.obj members)

theorem mark_clean : Clean letters redactedMark := by
  have noWord : ∀ c ∈ redactedMark, c.toLower ≠ 'b' := by decide
  have noKey : ∀ c ∈ redactedMark, c ≠ 'f' := by decide
  rw [clean_iff, ← List.append_nil redactedMark]
  constructor
  · rw [occurs_append fun c member place rest => not_exposed_at (noWord c member), occurs_nil]
    intro there
    cases exposed_first _ _ there
  · rw [occurs_append fun c member place rest => not_holdsKey_at (noKey c member), occurs_nil]
    intro there
    cases @holdsKey_first letters _ _ there

/-- Only the marker is redacted to the marker. -/
theorem redactText_mark {text : List Char} :
    redactText letters text = redactedMark ↔ text = redactedMark := by
  have nil_of_sub {pattern : List Piece} {replacement : List Char} {starts : Char → Bool}
      (sharp : Sharp letters.isWord pattern replacement starts) {place : Option Char}
      {rest : List Char} (gone : [] = subFrom letters.isWord pattern replacement 0 place rest) :
      rest = [] := by
    have head := sub_head sharp place rest
    rw [← gone] at head
    rcases head with same | ⟨-, d, -, -, first, -⟩
    · exact List.head?_eq_none_iff.mp same.symm
    · cases first
  have of_sub {pattern : List Piece} {replacement : List Char} {starts : Char → Bool}
      (gentle : Gentle letters pattern replacement starts) {text : List Char} :
      subFrom letters.isWord pattern replacement 0 none text = redactedMark ↔ text = redactedMark := by
    constructor
    · intro left
      obtain ⟨rest, rfl, gone⟩ :=
        quiet_of_sub gentle.sharp gentle.mark (left.trans (List.append_nil _).symm)
      rw [nil_of_sub gentle.sharp gone, List.append_nil]
    · rintro rfl
      have kept := sub_quiet gentle.sharp gentle.mark none []
      rwa [List.append_nil, subFrom, List.append_nil] at kept
  exact (of_sub firecrawlKey_gentle).trans (of_sub bearer_gentle)

theorem redactData_mark {value : Json} :
    redactData letters sensitiveKeys value = .str (String.ofList redactedMark) ↔
      value = .str (String.ofList redactedMark) := by
  cases value with
  | str text =>
    rw [redactData, Json.str.injEq, Json.str.injEq, String.ofList_inj, redactText_mark,
      ← String.ofList_inj, String.ofList_toList]
  | _ => simp [redactData]

theorem safe_str {text : String} : Safe letters sensitiveKeys (.str text) ↔ Clean letters text.toList :=
  ⟨fun (.str _ clean) => clean, .str text⟩

theorem safe_arr {items : List Json} :
    Safe letters sensitiveKeys (.arr items) ↔ ∀ item ∈ items, Safe letters sensitiveKeys item :=
  ⟨fun (.arr _ each) => each, .arr items⟩

theorem safe_obj {members : List (String × Json)} :
    Safe letters sensitiveKeys (.obj members) ↔ ∀ member ∈ members,
      Clean letters member.1.toList ∧
        (Sensitive letters sensitiveKeys member.1 → member.2 = .str (String.ofList redactedMark)) ∧
        Safe letters sensitiveKeys member.2 := by
  constructor
  · rintro (_ | _ | _ | _ | _ | _ | ⟨_, keys, marked, each⟩) member present
    exact ⟨keys member present, marked member present, each member present⟩
  · intro all
    exact .obj members (fun member present => (all member present).1)
      (fun member present => (all member present).2.1) fun member present => (all member present).2.2

theorem covered_obj {members : List (String × Json)} :
    Covered letters sensitiveKeys (.obj members) ↔ ∀ member ∈ members,
      Clean letters member.1.toList ∧
        (member.1 ∈ sensitiveKeys → letters.lower member.1 ∈ sensitiveKeys ∨
          member.2 = .str (String.ofList redactedMark)) ∧
        (letters.lower member.1 ∉ sensitiveKeys → Covered letters sensitiveKeys member.2) := by
  constructor
  · rintro (_ | _ | _ | _ | _ | _ | ⟨_, keys, named, each⟩) member present
    exact ⟨keys member present, named member present, each member present⟩
  · intro all
    exact .obj members (fun member present => (all member present).1)
      (fun member present => (all member present).2.1) fun member present => (all member present).2.2

/-- What redaction leaves of a value is safe exactly when the value is covered. -/
theorem redactData_safe (value : Json) :
    Safe letters sensitiveKeys (redactData letters sensitiveKeys value) ↔
      Covered letters sensitiveKeys value := by
  induction value using Json.induction with
  | null => exact iff_of_true .null .null
  | bool value => exact iff_of_true (.bool value) (.bool value)
  | int value => exact iff_of_true (.int value) (.int value)
  | float value => exact iff_of_true (.float value) (.float value)
  | str text =>
    rw [redactData, safe_str, String.toList_ofList, redactText_clean]
    exact ⟨.str text, fun (.str _ redactable) => redactable⟩
  | arr items each =>
    rw [redactData, redactItems_map, safe_arr, List.forall_mem_map]
    constructor
    · exact fun safe => .arr items fun item present => (each item present).mp (safe item present)
    · rintro (_ | _ | _ | _ | _ | ⟨_, covered⟩) item present
      exact (each item present).mpr (covered item present)
  | obj members each =>
    rw [redactData, redactMembers_map, safe_obj, List.forall_mem_map, covered_obj]
    apply forall₂_congr
    rintro ⟨key, value⟩ present
    by_cases hit : letters.lower key ∈ sensitiveKeys
    · rw [redactMember_hit hit]
      simp [hit, safe_str, mark_clean]
    · rw [redactMember_miss hit]
      simp only [Sensitive, hit, or_false, false_or, not_false_eq_true, true_imp_iff,
        redactData_mark, each _ present]

theorem redacts_iff (letters : Letters) (sensitiveKeys : List String) (value : Json) :
    Redacts letters sensitiveKeys value ↔ Covered letters sensitiveKeys value :=
  (and_iff_left (redactData_idem value)).trans (redactData_safe value)

/-- The letters of ASCII, and those that the pattern folds to them. -/
def asciiLetters : Letters where
  isAlnum c := c.isAlphanum || foldedLetters.contains c
  lower := PyText.lower
  ascii c low := by
    have outside : foldedLetters.contains c = false := by
      rw [← Bool.not_eq_true, List.contains_iff_mem]
      intro member
      have high : ∀ d ∈ foldedLetters, 128 ≤ d.toNat := by decide
      exact absurd low (Nat.not_lt.mpr (high c member))
    rw [outside, Bool.or_false]
  folded c member := by
    rw [List.contains_iff_mem.mpr member, Bool.or_true]
  space c space := by
    have noSpace : ∀ d ∈ foldedLetters, PyText.isSpace d = false := by decide
    have low : ∀ n < 128, (Char.ofNat n).isAlphanum = true → PyText.isSpace (Char.ofNat n) = false := by
      decide
    rw [Bool.or_eq_false_iff, ← Bool.not_eq_true, ← Bool.not_eq_true, List.contains_iff_mem]
    constructor
    · intro letter
      have bare := low c.toNat (isAlphanum_ascii letter)
      rw [Char.ofNat_toNat] at bare
      exact absurd space (ne_true_of_eq_false (bare letter))
    · exact fun member => absurd space (ne_true_of_eq_false (noSpace c member))

/-- A key that an underscore follows is left, and so is the name of a member. -/
theorem secrets_left : ¬Redacts asciiLetters [] (.str "fc-abcdefgh_") ∧
    ¬Redacts asciiLetters [] (.obj [("fc-abcdefgh", .null)]) := by
  constructor
  · rintro ⟨safe, -⟩
    rw [redactData, safe_str, String.toList_ofList] at safe
    have left : redactText asciiLetters "fc-abcdefgh_".toList = "fc-abcdefgh_".toList := by decide
    have stops : ∀ c, ['_'].head? = some c → c.isAlphanum = false := by
      intro c first
      cases first
      decide
    apply (safe [] "fc-abcdefgh_".toList left).2
    exact ⟨rfl, "abcdefgh".toList, ['_'], rfl, by decide, by decide, stops⟩
  · rintro ⟨safe, -⟩
    rw [redactData, redactMembers_map, safe_obj] at safe
    apply ((safe _ List.mem_cons_self).1 [] "fc-abcdefgh".toList rfl).2
    exact ⟨rfl, "abcdefgh".toList, [], rfl, by decide, by decide, nofun⟩

/-- The padding of a token stays behind the marker. -/
example : redactText asciiLetters "Bearer abc.def_123 fc-12345678".toList =
      "Bearer [REDACTED] fc-[REDACTED]".toList ∧
    redactText asciiLetters "bearer abc==".toList = "Bearer [REDACTED]==".toList := by
  decide

end FcamGateway.Redact
