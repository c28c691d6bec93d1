import FcamGateway.RedactText
import Mathlib.Tactic.Tauto

/-! The two substitutions, one after the other, over a whole text: which texts
they clean, and why a second redaction changes nothing. -/
namespace FcamGateway.Redact
open Pattern

variable {letters : Letters} {before : Option Char} {text front rest back out : List Char}

/-! ## Where a secret can begin -/

theorem bearerWord_head {c : Char} (word : BearerWord letters before (c :: rest) text) :
    c ∈ bearerLetters ∧ c.toLower = 'b' := by
  obtain ⟨-, word, gap, split, same, -⟩ := word
  obtain ⟨members, b, tail, rfl, first, -⟩ := bearerWord_letters same
  obtain ⟨rfl, -⟩ := List.cons.inj split
  exact ⟨members c List.mem_cons_self, first⟩

theorem bearerWord_first (word : BearerWord letters before text rest) :
    wordAt letters.isWord text.head? = true := by
  cases text with
  | nil =>
    obtain ⟨-, word, gap, split, same, -⟩ := word
    obtain ⟨-, b, tail, rfl, -⟩ := bearerWord_letters same
    cases split
  | cons c text => exact bearerLetter_word (bearerWord_head word).1

theorem keyToken_head {run : List Char} (key : KeyToken text run rest) : text.head? = some 'f' := by
  obtain ⟨rfl, -⟩ := key
  rfl

theorem exposed_first : WordFirst letters.isWord (Exposed letters) :=
  fun _ _ ⟨_, word, _⟩ => bearerWord_first word

theorem wordAt_f (head : text.head? = some 'f') : wordAt letters.isWord text.head? = true := by
  rw [head]
  exact isAlphanum_word (by decide)

theorem holdsKey_first : WordFirst letters.isWord HoldsKey :=
  fun _ _ ⟨_, _, _, key⟩ => wordAt_f (keyToken_head key)

theorem glued_first : WordFirst letters.isWord (Glued letters) :=
  fun _ _ ⟨_, _, _, key, _⟩ => wordAt_f (keyToken_head key)

/-- No `bearer` begins in a text without its first letter. -/
theorem not_exposed_at {c : Char} (other : c.toLower ≠ 'b') : ¬Exposed letters before (c :: rest) :=
  fun ⟨_, word, _⟩ => other (bearerWord_head word).2

theorem not_glued_at {c : Char} (other : c ≠ 'f') : ¬Glued letters before (c :: rest) :=
  fun ⟨_, _, _, key, _⟩ => other (Option.some.inj (keyToken_head key))

theorem not_holdsKey_at {c : Char} (other : c ≠ 'f') : ¬HoldsKey before (c :: rest) :=
  fun ⟨_, _, _, key⟩ => other (Option.some.inj (keyToken_head key))

/-! ## The marker in place of a token -/

theorem bearerWord_replaced {out text : List Char} :
    BearerWord letters before ("Bearer ".toList ++ redactedMark ++ out) text ↔
      wordAt letters.isWord before = false ∧ text = redactedMark ++ out := by
  constructor
  · rintro ⟨outside, word, gap, split, same, wide, spaces⟩
    refine ⟨outside, ?_⟩
    have six : word.length = "Bearer".toList.length := by simpa using congrArg List.length same
    have spelled : "Bearer".toList ++ (' ' :: (redactedMark ++ out)) = word ++ (gap ++ text) := by
      rw [← List.append_assoc word, ← split]
      rfl
    obtain ⟨rfl, later⟩ := List.append_inj spelled six.symm
    obtain ⟨g, gap, rfl⟩ := List.exists_cons_of_ne_nil wide
    obtain ⟨rfl, marker⟩ := List.cons.inj later
    cases gap with
    | nil => exact marker.symm
    | cons d gap =>
      have first : '[' = d := (List.cons.inj marker).1
      have space : PyText.isSpace '[' = true := first ▸ spaces d (by simp)
      exact absurd space (by decide)
  · rintro ⟨outside, rfl⟩
    exact ⟨outside, "Bearer".toList, [' '], rfl, rfl, List.cons_ne_nil _ _, by decide⟩

theorem exposed_replaced (outside : wordAt letters.isWord before = false) :
    Exposed letters before ("Bearer ".toList ++ redactedMark ++ out) ↔ ¬Ends letters out := by
  constructor
  · rintro ⟨text, word, -, unmarked⟩ ends
    obtain ⟨-, rfl⟩ := bearerWord_replaced.mp word
    exact unmarked ⟨out, rfl, ends⟩
  · intro goesOn
    refine ⟨_, bearerWord_replaced.mpr ⟨outside, rfl⟩, ⟨'[', rfl, by decide⟩, ?_⟩
    rintro ⟨rest, same, ends⟩
    obtain rfl := List.append_cancel_left same
    exact goesOn ends

/-! ## Texts that redaction can clean -/

/-- A bearer token that the pattern takes whole: letters of a token, the last
one a letter, a digit or an underscore, and nothing of a token after it. -/
def WholeToken (letters : Letters) (token rest : List Char) : Prop :=
  token ≠ [] ∧ (∀ c ∈ token, isTokenLetter c = true) ∧
    wordAt letters.isWord (after none token) = true ∧ Ends letters rest

/-- A text, read from the left, that is made of bearer tokens the pattern takes
whole and of other characters: at none of these begins another bearer token or
a key next to an underscore or to a letter outside ASCII. -/
inductive Redactable (letters : Letters) : Option Char → List Char → Prop where
  | nil (before : Option Char) : Redactable letters before []
  | plain (before : Option Char) (c : Char) (rest : List Char)
      (hidden : ¬Exposed letters before (c :: rest)) (apart : ¬Glued letters before (c :: rest))
      (later : Redactable letters (some c) rest) : Redactable letters before (c :: rest)
  | bearer (before : Option Char) (word gap token rest : List Char)
      (outside : wordAt letters.isWord before = false)
      (same : word.map Char.toLower = "bearer".toList) (wide : gap ≠ [])
      (spaces : ∀ c ∈ gap, PyText.isSpace c = true) (whole : WholeToken letters token rest)
      (later : Redactable letters (after none token) rest) :
    Redactable letters before (word ++ (gap ++ (token ++ rest)))

theorem tokenLetter_classes (letters : Letters) {c : Char} (letter : isTokenLetter c = true) :
    PyText.isSpace c = false ∧ c ≠ '[' ∧ c ≠ '=' := by
  simp only [isTokenLetter, Bool.or_eq_true, List.contains_iff_mem] at letter
  rcases letter with (alphanum | mark) | folded
  · have other {d : Char} (no : d.isAlphanum = false) : c ≠ d := fun same =>
      absurd (same ▸ alphanum) (ne_true_of_eq_false no)
    refine ⟨?_, other (by decide), other (by decide)⟩
    cases space : PyText.isSpace c with
    | false => rfl
    | true => exact absurd alphanum (ne_true_of_eq_false (isSpace_not_alphanum space letters))
  · revert mark
    revert c
    decide
  · revert folded
    revert c
    decide

theorem tokenLetter_tokenChar {c : Char} (letter : isTokenLetter c = true) :
    tokenChar letters c = true := by
  simp only [isTokenLetter, Bool.or_eq_true, List.contains_iff_mem] at letter
  rcases letter with (alphanum | mark) | folded
  · exact isWord_tokenChar (isAlphanum_word alphanum)
  · have wider : c ∈ "._-~+/=".toList := by
      revert mark
      revert c
      decide
    simp only [tokenChar, Bool.or_eq_true, List.contains_iff_mem]
    exact .inr wider
  · exact isWord_tokenChar (by simp [Letters.isWord, letters.folded c folded])

section
variable {word gap token : List Char} (whole : WholeToken letters token rest)
include whole

theorem whole_edge {place : Option Char} (inside : wordAt letters.isWord place = true) :
    matchLength letters.isWord [.many (· == '=') 0, .boundary] place rest = some 0 := by
  have edge : matchLength letters.isWord [.boundary] place rest = some 0 := by
    rw [matchLength, if_pos (by rw [inside, ends_bare whole.2.2.2]; decide)]
    rfl
  have stops : ∀ c, rest.head? = some c → (c == '=') = false := by
    rintro c first
    apply beq_false_of_ne
    rintro rfl
    have padding : tokenChar letters '=' = true := by simp [tokenChar]
    exact absurd padding (ne_true_of_eq_false (whole.2.2.2 '=' first))
  exact greedy_whole (List.forall_mem_nil _) stops (Nat.zero_le _) edge

theorem whole_token (place : Option Char) :
    matchLength letters.isWord [.many isTokenLetter 1, .many (· == '=') 0, .boundary] place
      (token ++ rest) = some token.length := by
  have stops : ∀ c, rest.head? = some c → isTokenLetter c = false := by
    intro c first
    cases letter : isTokenLetter c with
    | false => rfl
    | true =>
      exact absurd (tokenLetter_tokenChar letter) (ne_true_of_eq_false (whole.2.2.2 c first))
  show matchLength letters.isWord [.many isTokenLetter 1, .many (· == '=') 0, .boundary] place
    (token ++ rest) = some (token.length + 0)
  apply greedy_whole whole.2.1 stops (List.length_pos_of_ne_nil whole.1)
  exact whole_edge whole ((after_filled whole.1 place none).symm ▸ whole.2.2.1)

theorem whole_gap (wide : gap ≠ []) (spaces : ∀ c ∈ gap, PyText.isSpace c = true)
    (place : Option Char) :
    matchLength letters.isWord
      [.many PyText.isSpace 1, .many isTokenLetter 1, .many (· == '=') 0, .boundary] place
      (gap ++ (token ++ rest)) = some (gap.length + token.length) := by
  have stops : ∀ c, (token ++ rest).head? = some c → PyText.isSpace c = false := by
    intro c first
    obtain ⟨d, tail, rfl⟩ := List.exists_cons_of_ne_nil whole.1
    obtain rfl : d = c := Option.some.inj first
    exact (tokenLetter_classes letters (whole.2.1 d List.mem_cons_self)).1
  exact greedy_whole spaces stops (List.length_pos_of_ne_nil wide) (whole_token whole _)

/-- The pattern takes a whole token, and no more. -/
theorem bearer_whole (outside : wordAt letters.isWord before = false)
    (same : word.map Char.toLower = "bearer".toList) (wide : gap ≠ [])
    (spaces : ∀ c ∈ gap, PyText.isSpace c = true) :
    matchLength letters.isWord bearerRe before (word ++ (gap ++ (token ++ rest))) =
      some (word ++ (gap ++ token)).length := by
  have members := (bearerWord_letters same).1
  simp only [String.reduceToList, List.map_eq_cons_iff, List.map_eq_nil_iff] at same
  obtain ⟨b, _, rfl, first, e, _, rfl, second, a, _, rfl, third, r, _, rfl, fourth, e', _, rfl,
    fifth, r', _, rfl, sixth, rfl⟩ := same
  have edge : wordAt letters.isWord before ≠ wordAt letters.isWord (some b) := by
    rw [outside]
    exact fun same => absurd (same.trans (bearerLetter_word (members b List.mem_cons_self))) (by decide)
  simp only [bearerRe, List.cons_append, List.nil_append, matchLength, List.head?_cons, ignoringCase,
    first, second, third, fourth, fifth, sixth, edge, ne_eq, not_false_eq_true, ↓reduceIte, beq_self_eq_true]
  have later := whole_gap whole wide spaces (some r')
  simp only [matchLength] at later
  rw [later]
  simp

end

/-! ## Bearer tokens -/

/-- What is left of a text after the bearer tokens, from a place on. -/
abbrev withoutBearers (letters : Letters) (before : Option Char) (text : List Char) : List Char :=
  subFrom letters.isWord bearerRe ("Bearer ".toList ++ redactedMark) 0 before text

/-- Before a bearer token the secret is exposed. -/
theorem exposed_of_fits (fits : Fits letters.isWord bearerRe before front rest) :
    Exposed letters before (front ++ rest) := by
  obtain ⟨outside, word, gap, token, pad, rfl, same, wide, spaces, filled, all, -⟩ := bearer_fits.mp fits
  obtain ⟨c, tail, rfl⟩ := List.exists_cons_of_ne_nil filled
  have classes := tokenLetter_classes letters (all c List.mem_cons_self)
  refine ⟨c :: tail ++ pad ++ rest, ⟨outside, word, gap, by simp, same, wide, spaces⟩,
    ⟨c, rfl, classes.1⟩, ?_⟩
  rintro ⟨after_, marker, -⟩
  exact classes.2.1 (List.cons.inj marker).1

theorem whole_of_fits {token pad : List Char} (at_ : TokenAt letters token pad rest)
    (ends : Ends letters rest) : pad = [] ∧ WholeToken letters token rest := by
  obtain ⟨filled, all, pads, edge⟩ := at_
  rw [ends_bare ends] at edge
  have bare : pad = [] := by
    by_contra padded
    exact edge (wordAt_pad pads padded)
  subst bare
  rw [List.append_nil] at edge
  exact ⟨rfl, filled, all, by simpa using edge, ends⟩

theorem exposed_in_replaced (outside : wordAt letters.isWord before = false) :
    Occurs (Exposed letters) before ("Bearer ".toList ++ redactedMark ++ out) ↔
      ¬Ends letters out ∨ Occurs (Exposed letters) (some ']') out := by
  have quiet : ∀ c ∈ "earer [REDACTED]".toList, c.toLower ≠ 'b' := by decide
  rw [← exposed_replaced outside]
  have tail : Occurs (Exposed letters) (some 'B') ("earer [REDACTED]".toList ++ out) ↔
      Occurs (Exposed letters) (some ']') out :=
    occurs_append fun c member place rest => not_exposed_at (quiet c member)
  exact occurs_cons.trans (or_congr Iff.rfl tail)

theorem glued_in_replaced :
    Occurs (Glued letters) before ("Bearer ".toList ++ redactedMark ++ out) ↔
      Occurs (Glued letters) (some ']') out := by
  have quiet : ∀ c ∈ "Bearer [REDACTED]".toList, c ≠ 'f' := by decide
  have whole : Occurs (Glued letters) before ("Bearer [REDACTED]".toList ++ out) ↔
      Occurs (Glued letters) (some ']') out :=
    occurs_append fun c member place rest => not_glued_at (quiet c member)
  exact whole

/-- Where there is no match, no token is taken whole. -/
theorem redactable_plain {c : Char}
    (unmatched : matchLength letters.isWord bearerRe before (c :: rest) = none) :
    Redactable letters before (c :: rest) ↔
      ¬Exposed letters before (c :: rest) ∧ ¬Glued letters before (c :: rest) ∧
        Redactable letters (some c) rest := by
  constructor
  · generalize shape : c :: rest = text at unmatched
    rintro (_ | ⟨_, _, _, hidden, apart, later⟩ | ⟨_, word, gap, token, tail, outside, same, wide, spaces,
      whole, later⟩)
    · cases shape
    · cases shape
      exact ⟨hidden, apart, later⟩
    · rw [bearer_whole whole outside same wide spaces] at unmatched
      cases unmatched
  · rintro ⟨hidden, apart, later⟩
    exact .plain before c rest hidden apart later

theorem redactable_match (filled : front ≠ []) (fits : Fits letters.isWord bearerRe before front back)
    (found : matchLength letters.isWord bearerRe before (front ++ back) = some front.length) :
    Redactable letters before (front ++ back) ↔
      Ends letters back ∧ Redactable letters (after before front) back := by
  constructor
  · generalize shape : front ++ back = text at found
    rintro (_ | ⟨_, _, _, hidden, -, -⟩ | ⟨_, word, gap, token, tail, outside, same, wide, spaces, whole,
      later⟩)
    · exact absurd (List.append_eq_nil_iff.mp shape).1 filled
    · exact absurd (shape ▸ exposed_of_fits fits) hidden
    · rw [bearer_whole whole outside same wide spaces] at found
      have split : front ++ back = (word ++ (gap ++ token)) ++ tail := by rw [shape]; simp
      obtain ⟨rfl, rfl⟩ := List.append_inj split (Option.some.inj found).symm
      rw [after_append, after_append, after_filled whole.1 _ none]
      exact ⟨whole.2.2.2, later⟩
  · rintro ⟨ends, later⟩
    obtain ⟨outside, word, gap, token, pad, rfl, same, wide, spaces, at_⟩ := bearer_fits.mp fits
    obtain ⟨rfl, whole⟩ := whole_of_fits at_ ends
    rw [List.append_nil] at later ⊢
    rw [after_append, after_append, after_filled whole.1 _ none] at later
    have made := Redactable.bearer before word gap token back outside same wide spaces whole later
    simpa using made

/-- The first substitution leaves no bearer token and no glued key exactly of a
redactable text. -/
theorem redactable_iff (before : Option Char) (text : List Char) :
    ∀ place, SamePlace letters.isWord before place text →
      (¬Occurs (Exposed letters) place (withoutBearers letters before text) ∧
        ¬Occurs (Glued letters) place (withoutBearers letters before text) ↔
      Redactable letters before text) := by
  induction before, text using sub_induction (@bearer_sharp letters) with
  | nil before =>
    intro place _
    apply iff_of_true _ (.nil before)
    constructor
    · intro exposed
      cases exposed_first _ _ (occurs_nil.mp exposed)
    · intro glued
      cases glued_first _ _ (occurs_nil.mp glued)
  | keep before c rest unmatched ih =>
    intro place same
    rw [withoutBearers, subFrom_keep unmatched, occurs_cons, occurs_cons,
      redactable_plain unmatched, ← ih (some c) (.inl rfl)]
    have there : SamePlace letters.isWord before place
        (c :: subFrom letters.isWord bearerRe ("Bearer ".toList ++ redactedMark) 0 (some c) rest) := same
    rw [← at_samePlace exposed_first there, ← at_samePlace glued_first there,
      exposed_keep bearer_gentle, glued_keep bearer_gentle]
    tauto
  | swap before front back filled fits found ih =>
    intro place same
    obtain ⟨outside, c, tail, shape, start⟩ := bearer_sharp.first fits
    have bare : wordAt letters.isWord place = false := by
      rcases same with rfl | bare
      · exact outside
      · rw [shape] at bare
        exact absurd ((@bearer_sharp letters).word c start) (ne_true_of_eq_false bare)
    rw [withoutBearers, subFrom_match filled found, exposed_in_replaced bare, glued_in_replaced,
      redactable_match filled fits found, not_or, not_not, ends_sub bearer_sharp, and_assoc]
    apply and_congr_right
    intro ends
    exact ih (some ']') (.inr (ends_bare ends))

/-! ## Keys -/

/-- What is left of a text after the keys, from a place on. -/
abbrev withoutKeys (letters : Letters) (before : Option Char) (text : List Char) : List Char :=
  subFrom letters.isWord firecrawlKeyRe ("fc-".toList ++ redactedMark) 0 before text

theorem run_unique {accepts : Char → Bool} {one other back rest : List Char}
    (same : one ++ back = other ++ rest) (all : ∀ c ∈ one, accepts c = true)
    (all' : ∀ c ∈ other, accepts c = true) (stop : ∀ c, back.head? = some c → accepts c = false)
    (stop' : ∀ c, rest.head? = some c → accepts c = false) : one = other ∧ back = rest := by
  induction one generalizing other with
  | nil =>
    cases other with
    | nil => exact ⟨rfl, same⟩
    | cons d other =>
      have first : back.head? = some d := by
        rw [show back = d :: (other ++ rest) from same]
        rfl
      exact absurd (all' d List.mem_cons_self) (ne_true_of_eq_false (stop d first))
  | cons c one ih =>
    cases other with
    | nil =>
      have first : rest.head? = some c := by
        rw [show rest = c :: (one ++ back) from same.symm]
        rfl
      exact absurd (all c List.mem_cons_self) (ne_true_of_eq_false (stop' c first))
    | cons d other =>
      obtain ⟨rfl, later⟩ := List.cons.inj same
      obtain ⟨rfl, rfl⟩ := ih later (fun e member => all e (List.mem_cons_of_mem _ member))
        fun e member => all' e (List.mem_cons_of_mem _ member)
      exact ⟨rfl, rfl⟩

theorem bare_alphanum {c : Option Char} (bare : wordAt letters.isWord c = false) :
    ∀ d, c = some d → d.isAlphanum = false := by
  rintro d rfl
  cases letter : d.isAlphanum with
  | false => rfl
  | true => exact absurd (isAlphanum_word letter) (ne_true_of_eq_false bare)

theorem bare_any {c : Option Char} (bare : wordAt letters.isWord c = false) :
    c.any Char.isAlphanum = false := by
  cases c with
  | none => rfl
  | some d => exact bare_alphanum bare d rfl

/-- A key without neighbours of a word is one that the pattern takes. -/
theorem key_fits {run : List Char} (key : KeyToken text run rest)
    (outside : wordAt letters.isWord before = false) (ends : wordAt letters.isWord rest.head? = false) :
    MatchAt letters.isWord firecrawlKeyRe before text := by
  obtain ⟨rfl, enough, all, -⟩ := key
  exact ⟨_, rest, rfl, firecrawlKey_fits.mpr ⟨outside, ends, run, rfl, enough, all⟩⟩

theorem holdsKey_keep {c : Char}
    (unmatched : matchLength letters.isWord firecrawlKeyRe before (c :: rest) = none) :
    HoldsKey before (c :: withoutKeys letters (some c) rest) ↔ Glued letters before (c :: rest) := by
  constructor
  · rintro ⟨outside, run, out, key⟩
    obtain ⟨tail, key, head⟩ := keyToken_kept firecrawlKey_gentle key
    refine ⟨outside, run, tail, key, ?_⟩
    by_contra apart
    rw [not_or, Bool.not_eq_true, Bool.not_eq_true] at apart
    exact matchAt_iff.mp (key_fits key apart.1 apart.2) unmatched
  · rintro ⟨outside, run, tail, key, -⟩
    obtain ⟨out, kept, -⟩ := keyToken_keep firecrawlKey_gentle key
    exact ⟨outside, run, out, kept⟩

section
variable {run : List Char} (enough : 8 ≤ run.length) (all : ∀ c ∈ run, c.isAlphanum = true)
include enough all

/-- What cannot begin with a long run of letters and digits, nor behind one of
them, begins behind the run. -/
theorem occurs_run {at_ : Option Char → List Char → Prop}
    (broken : ∀ place rest, at_ place rest → ∃ front tail, rest = front ++ tail ∧ Broken front)
    (outside : ∀ place rest, at_ place rest → place.any Char.isAlphanum = false)
    (place : Option Char) :
    Occurs at_ place (run ++ back) ↔ Occurs at_ (after place run) back := by
  have inside {c : Char} (letter : c.isAlphanum = true) (rest : List Char) : ¬at_ (some c) rest :=
    fun there => absurd letter (ne_true_of_eq_false (outside _ _ there))
  cases run with
  | nil => cases enough
  | cons r run =>
    have first : ¬at_ place (r :: (run ++ back)) := by
      intro there
      obtain ⟨front, tail, split, broken⟩ := broken _ _ there
      exact not_broken split.symm enough all broken
    rw [List.cons_append, occurs_cons, or_iff_right first,
      occurs_append_inside (fun c member => inside (all c (List.mem_cons_of_mem _ member)))
        (inside (all r List.mem_cons_self))]
    rfl

end

theorem exposed_broken (exposed : Exposed letters before text) :
    ∃ front tail, text = front ++ tail ∧ Broken front := by
  obtain ⟨rest, ⟨-, word, gap, rfl, same, wide, spaces⟩, -⟩ := exposed
  exact ⟨word ++ gap, rest, rfl, broken_word letters same wide spaces⟩

theorem exposed_outside (exposed : Exposed letters before text) :
    before.any Char.isAlphanum = false := by
  obtain ⟨rest, word, -⟩ := exposed
  exact bare_any word.1

theorem glued_broken (glued : Glued letters before text) :
    ∃ front tail, text = front ++ tail ∧ Broken front := by
  obtain ⟨-, run, rest, ⟨rfl, -⟩, -⟩ := glued
  exact ⟨"fc-".toList, run ++ rest, by simp, '-', by decide, by decide⟩

theorem exposed_in_key :
    Occurs (Exposed letters) before ("fc-".toList ++ redactedMark ++ out) ↔
      Occurs (Exposed letters) (some ']') out := by
  have quiet : ∀ c ∈ "fc-[REDACTED]".toList, c.toLower ≠ 'b' := by decide
  have whole : Occurs (Exposed letters) before ("fc-[REDACTED]".toList ++ out) ↔
      Occurs (Exposed letters) (some ']') out :=
    occurs_append fun c member place rest => not_exposed_at (quiet c member)
  exact whole

theorem not_keyToken_mark {run : List Char} :
    ¬KeyToken ("fc-".toList ++ redactedMark ++ out) run rest := by
  rintro ⟨split, enough, all, -⟩
  rw [List.append_assoc, List.append_assoc] at split
  have later := List.append_cancel_left split
  cases run with
  | nil => cases enough
  | cons c run =>
    have first : '[' = c := (List.cons.inj later).1
    have letter : '['.isAlphanum = true := first ▸ all c List.mem_cons_self
    exact absurd letter (by decide)

theorem holdsKey_in_key :
    Occurs HoldsKey before ("fc-".toList ++ redactedMark ++ out) ↔ Occurs HoldsKey (some ']') out := by
  have quiet : ∀ c ∈ "c-[REDACTED]".toList, c ≠ 'f' := by decide
  have tail : Occurs HoldsKey (some 'f') ("c-[REDACTED]".toList ++ out) ↔
      Occurs HoldsKey (some ']') out :=
    occurs_append fun c member place rest => not_holdsKey_at (quiet c member)
  have first : ¬HoldsKey before ("fc-".toList ++ redactedMark ++ out) :=
    fun ⟨_, _, _, key⟩ => not_keyToken_mark key
  exact occurs_cons.trans ((or_iff_right first).trans tail)

/-- In a key that the pattern takes there is neither a bearer token nor another
key. -/
theorem exposed_over_key {run : List Char} (enough : 8 ≤ run.length)
    (all : ∀ c ∈ run, c.isAlphanum = true) :
    Occurs (Exposed letters) before ("fc-".toList ++ run ++ back) ↔
      Occurs (Exposed letters) (after before ("fc-".toList ++ run)) back := by
  have quiet : ∀ c ∈ "fc-".toList, c.toLower ≠ 'b' := by decide
  rw [List.append_assoc, occurs_append fun c member place rest => not_exposed_at (quiet c member),
    occurs_run enough all (fun _ _ => exposed_broken) (fun _ _ => exposed_outside), after_append]

theorem glued_over_key {run : List Char} (enough : 8 ≤ run.length)
    (all : ∀ c ∈ run, c.isAlphanum = true) (outside : wordAt letters.isWord before = false)
    (ends : wordAt letters.isWord back.head? = false) :
    Occurs (Glued letters) before ("fc-".toList ++ run ++ back) ↔
      Occurs (Glued letters) (after before ("fc-".toList ++ run)) back := by
  have quiet : ∀ c ∈ "c-".toList, c ≠ 'f' := by decide
  have first : ¬Glued letters before ("fc-".toList ++ (run ++ back)) := by
    rintro ⟨-, other, rest, ⟨split, -, all', stop⟩, edge⟩
    rw [List.append_assoc] at split
    obtain ⟨-, rfl⟩ := run_unique (List.append_cancel_left split) all all' (bare_alphanum ends) stop
    rw [outside, ends] at edge
    rcases edge with edge | edge <;> cases edge
  have later : Occurs (Glued letters) (some '-') (run ++ back) ↔
      Occurs (Glued letters) (after (some '-') run) back :=
    occurs_run enough all (fun _ _ => glued_broken) (fun _ _ glued => glued.1) (some '-')
  have dash : Occurs (Glued letters) (some 'f') ("c-".toList ++ (run ++ back)) ↔
      Occurs (Glued letters) (some '-') (run ++ back) :=
    occurs_append fun c member place rest => not_glued_at (quiet c member)
  rw [List.append_assoc, after_append]
  exact occurs_cons.trans ((or_iff_right first).trans (dash.trans later))

/-- The second substitution leaves the exposed bearer tokens that there are, and
the glued keys. -/
theorem withoutKeys_occurs (before : Option Char) (text : List Char) :
    ∀ place, SamePlace letters.isWord before place text →
      (Occurs (Exposed letters) place (withoutKeys letters before text) ↔
        Occurs (Exposed letters) before text) ∧
      (Occurs HoldsKey place (withoutKeys letters before text) ↔ Occurs (Glued letters) before text) := by
  induction before, text using sub_induction (@firecrawlKey_sharp letters) with
  | nil before =>
    intro place _
    constructor
    · exact occurs_nil.trans ((at_samePlace exposed_first (.inr rfl)).trans occurs_nil.symm)
    · rw [withoutKeys, subFrom, occurs_nil, occurs_nil]
      apply iff_of_false
      · rintro ⟨_, _, _, key⟩
        cases keyToken_head key
      · rintro ⟨_, _, _, key, _⟩
        cases keyToken_head key
  | keep before c rest unmatched ih =>
    intro place same
    have there : SamePlace letters.isWord before place (c :: withoutKeys letters (some c) rest) := same
    obtain ⟨exposed, glued⟩ := ih (some c) (.inl rfl)
    rw [withoutKeys, subFrom_keep unmatched, occurs_cons, occurs_cons, occurs_cons, occurs_cons,
      exposed, glued, ← at_samePlace exposed_first there,
      ← at_samePlace (@holdsKey_first letters) there,
      exposed_keep firecrawlKey_gentle, holdsKey_keep unmatched]
    exact ⟨Iff.rfl, Iff.rfl⟩
  | swap before front back filled fits found ih =>
    intro place _
    obtain ⟨outside, ends, run, rfl, enough, all⟩ := firecrawlKey_fits.mp fits
    obtain ⟨exposed, glued⟩ := ih (some ']') (.inr ends)
    rw [withoutKeys, subFrom_match filled found, exposed_in_key, holdsKey_in_key, exposed, glued,
      exposed_over_key enough all, glued_over_key enough all outside ends]
    exact ⟨Iff.rfl, Iff.rfl⟩

theorem clean_iff : Clean letters text ↔
    ¬Occurs (Exposed letters) none text ∧ ¬Occurs HoldsKey none text := by
  constructor
  · intro clean
    constructor
    · rintro ⟨front, back, split, exposed⟩
      exact (clean front back split).1 exposed
    · rintro ⟨front, back, split, key⟩
      exact (clean front back split).2 key
  · rintro ⟨hidden, keyless⟩ front back split
    exact ⟨fun exposed => hidden ⟨front, back, split, exposed⟩,
      fun key => keyless ⟨front, back, split, key⟩⟩

/-- A text is clean after redaction exactly when it is redactable. -/
theorem redactText_clean (text : List Char) :
    Clean letters (redactText letters text) ↔ Redactable letters none text := by
  obtain ⟨exposed, held⟩ :=
    withoutKeys_occurs none (withoutBearers letters none text) none (.inl rfl)
  rw [clean_iff, ← redactable_iff none text none (.inl rfl), ← exposed, ← held]
  rfl

end FcamGateway.Redact
