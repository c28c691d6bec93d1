import FcamGateway.Redact
import Mathlib.Tactic.Tauto

/-! What redaction leaves of one text. -/
namespace FcamGateway.Redact
open Pattern

/-! ## Characters -/

theorem toLower_toNat {c letter : Char} (same : c.toLower = letter) :
    c = letter ∨ c.toNat + 32 = letter.toNat := by
  unfold Char.toLower at same
  split at same
  · right
    rename_i upper
    subst same
    have low : 65 ≤ c.val.toNat := UInt32.le_iff_toNat_le.mp upper.1
    have high : c.val.toNat ≤ 90 := UInt32.le_iff_toNat_le.mp upper.2
    have gap : ('a'.val - 'A'.val).toNat = 32 := rfl
    simp only [Char.toNat]
    rw [UInt32.toNat_add, gap, Nat.mod_eq_of_lt (by omega)]
  · exact .inl same

/-- The letters of the word `bearer`, in either case. -/
def bearerLetters : List Char := ['b', 'B', 'e', 'E', 'a', 'A', 'r', 'R']

theorem mem_bearerLetters {c letter : Char} (member : letter ∈ "bearer".toList)
    (same : c.toLower = letter) : c ∈ bearerLetters := by
  have ofNat {n : Nat} (equal : c.toNat = n) : c = Char.ofNat n := by
    rw [← equal, Char.ofNat_toNat]
  have cases : letter = 'b' ∨ letter = 'e' ∨ letter = 'a' ∨ letter = 'r' := by
    simp only [String.reduceToList, List.mem_cons, List.not_mem_nil, or_false] at member
    tauto
  rcases toLower_toNat same with rfl | shifted
  · rcases cases with rfl | rfl | rfl | rfl <;> decide
  · rcases cases with rfl | rfl | rfl | rfl
    · rw [ofNat (n := 66) (Nat.add_right_cancel shifted)]
      decide
    · rw [ofNat (n := 69) (Nat.add_right_cancel shifted)]
      decide
    · rw [ofNat (n := 65) (Nat.add_right_cancel shifted)]
      decide
    · rw [ofNat (n := 82) (Nat.add_right_cancel shifted)]
      decide

variable {letters : Letters} {before : Option Char} {text front rest : List Char}

theorem isWord_of_ascii {c : Char} (low : c.toNat < 128) (letter : c.isAlphanum = true) :
    letters.isWord c = true := by
  simp [Letters.isWord, letters.ascii c low, letter]

/-- What a letter of the word is, to every class of characters. -/
theorem bearerLetter_classes : ∀ c ∈ bearerLetters,
    c.toNat < 128 ∧ c.isAlphanum = true ∧ PyText.isSpace c = false ∧ isTokenLetter c = true ∧
      c ≠ 'f' ∧ c ≠ '-' ∧ c ≠ '[' := by
  decide

theorem bearerLetter_word {c : Char} (member : c ∈ bearerLetters) : letters.isWord c = true :=
  isWord_of_ascii (bearerLetter_classes c member).1 (bearerLetter_classes c member).2.1

/-- The six letters of the word, one by one. -/
theorem bearerWord_letters {word : List Char} (same : word.map Char.toLower = "bearer".toList) :
    (∀ c ∈ word, c ∈ bearerLetters) ∧ ∃ c tail, word = c :: tail ∧ c.toLower = 'b' ∧ tail.length = 5 ∧
      ∀ d ∈ tail, d.toLower ≠ 'b' := by
  constructor
  · intro c member
    have lowered : c.toLower ∈ "bearer".toList := same ▸ List.mem_map_of_mem member
    exact mem_bearerLetters lowered rfl
  · simp only [String.reduceToList, List.map_eq_cons_iff, List.map_eq_nil_iff] at same
    obtain ⟨b, _, rfl, first, e, _, rfl, second, a, _, rfl, third, r, _, rfl, fourth, e', _, rfl,
      fifth, r', _, rfl, sixth, rfl⟩ := same
    refine ⟨b, _, rfl, first, rfl, ?_⟩
    intro d member
    simp only [List.mem_cons, List.not_mem_nil, or_false] at member
    rcases member with rfl | rfl | rfl | rfl | rfl
    · rw [second]; decide
    · rw [third]; decide
    · rw [fourth]; decide
    · rw [fifth]; decide
    · rw [sixth]; decide

/-- Letters of a token and its padding, up to the edge of a word. -/
def TokenAt (letters : Letters) (token pad rest : List Char) : Prop :=
  token ≠ [] ∧ (∀ c ∈ token, isTokenLetter c = true) ∧ (∀ c ∈ pad, c = '=') ∧
    wordAt letters.isWord (after none (token ++ pad)) ≠ wordAt letters.isWord rest.head?

theorem bearer_fits : Fits letters.isWord bearerRe before front rest ↔
    wordAt letters.isWord before = false ∧
      ∃ word gap token pad, front = word ++ (gap ++ (token ++ pad)) ∧
        word.map Char.toLower = "bearer".toList ∧ gap ≠ [] ∧ (∀ c ∈ gap, PyText.isSpace c = true) ∧
        TokenAt letters token pad rest := by
  constructor
  · intro fits
    simp only [bearerRe, fits_boundary, fits_one, fits_many, fits_nil] at fits
    obtain ⟨edge, b, _, rfl, first, e, _, rfl, second, a, _, rfl, third, r, _, rfl, fourth, e', _, rfl,
      fifth, r', _, rfl, sixth, gap, _, rfl, spaces, wide, token, _, rfl, all, filled, pad, _, rfl,
      pads, -, ⟨stop, rfl⟩⟩ := fits
    have lower {letter c : Char} (accepted : ignoringCase letter c = true) : c.toLower = letter :=
      eq_of_beq accepted
    have word : [b, e, a, r, e', r'].map Char.toLower = "bearer".toList := by
      simp only [List.map_cons, List.map_nil, lower first, lower second, lower third, lower fourth,
        lower fifth, lower sixth]
      rfl
    have begins : letters.isWord b = true :=
      bearerLetter_word ((bearerWord_letters word).1 b List.mem_cons_self)
    have outside : wordAt letters.isWord before = false := by simpa [wordAt, begins] using edge
    refine ⟨outside, [b, e, a, r, e', r'], gap, token, pad, by simp, word,
      List.ne_nil_of_length_pos wide, spaces, List.ne_nil_of_length_pos filled, all, ?_, ?_⟩
    · exact fun c member => eq_of_beq (pads c member)
    · rw [after_append, after_filled (List.ne_nil_of_length_pos filled) none (after (some r') gap)]
      exact stop
  · rintro ⟨outside, word, gap, token, pad, rfl, same, wide, spaces, filled, all, pads, stop⟩
    obtain ⟨letters_, b, tail, rfl, first, -⟩ := bearerWord_letters same
    rw [bearerRe, fits_boundary]
    refine ⟨fun equal => absurd ((outside.symm.trans equal).trans
      (bearerLetter_word (letters_ b List.mem_cons_self))) (by decide), ?_⟩
    simp only [String.reduceToList, List.map_eq_cons_iff, List.map_eq_nil_iff, List.map_cons,
      List.cons.injEq] at same
    obtain ⟨-, e, _, rfl, second, a, _, rfl, third, r, _, rfl, fourth, e', _, rfl, fifth, r', _, rfl,
      sixth, rfl⟩ := same
    have accepted {letter c : Char} (same : c.toLower = letter) : ignoringCase letter c = true :=
      beq_iff_eq.mpr same
    simp only [List.cons_append, List.nil_append]
    refine .one (accepted first) (.one (accepted second) (.one (accepted third) (.one (accepted fourth)
      (.one (accepted fifth) (.one (accepted sixth) (.many spaces (List.length_pos_of_ne_nil wide)
        (.many all (List.length_pos_of_ne_nil filled) ?_)))))))
    have last : Fits letters.isWord [.many (· == '=') 0, .boundary]
        (after (after (some r') gap) token) (pad ++ []) rest := by
      refine .many (fun c member => beq_iff_eq.mpr (pads c member)) (Nat.zero_le _) ?_
      refine .boundary ?_ (.nil _ _)
      rw [after_append, after_filled filled none (after (some r') gap)] at stop
      exact stop
    rwa [List.append_nil] at last

theorem isAlphanum_ascii {c : Char} (letter : c.isAlphanum = true) : c.toNat < 128 := by
  have classes : c.isAlphanum =
      ((decide ('A'.val ≤ c.val ∧ c.val ≤ 'Z'.val) || 'a'.val ≤ c.val && c.val ≤ 'z'.val) ||
        '0'.val ≤ c.val && c.val ≤ '9'.val) := rfl
  simp only [classes, Bool.or_eq_true, Bool.and_eq_true, decide_eq_true_eq,
    UInt32.le_iff_toNat_le] at letter
  change c.val.toNat < 128
  have limits : 'Z'.val.toNat = 90 ∧ 'z'.val.toNat = 122 ∧ '9'.val.toNat = 57 := by decide
  omega

theorem isAlphanum_word {c : Char} (letter : c.isAlphanum = true) : letters.isWord c = true :=
  isWord_of_ascii (isAlphanum_ascii letter) letter

theorem after_word {run : List Char} (filled : run ≠ []) (word : ∀ c ∈ run, letters.isWord c = true)
    (before : Option Char) : wordAt letters.isWord (after before run) = true := by
  induction run generalizing before with
  | nil => exact absurd rfl filled
  | cons c run ih =>
    cases run with
    | nil => exact word c List.mem_cons_self
    | cons d run =>
      exact ih (List.cons_ne_nil _ _) (fun e member => word e (List.mem_cons_of_mem _ member)) (some c)

theorem firecrawlKey_fits : Fits letters.isWord firecrawlKeyRe before front rest ↔
    wordAt letters.isWord before = false ∧ wordAt letters.isWord rest.head? = false ∧
      ∃ run, front = "fc-".toList ++ run ∧ 8 ≤ run.length ∧ ∀ c ∈ run, c.isAlphanum = true := by
  have first : letters.isWord 'f' = true := isAlphanum_word (by decide)
  constructor
  · intro fits
    simp only [firecrawlKeyRe, fits_boundary, fits_one, fits_many, fits_nil] at fits
    obtain ⟨edge, f, _, rfl, one, c, _, rfl, two, dash, _, rfl, three, run, _, rfl, all, enough, stop,
      rfl⟩ := fits
    cases eq_of_beq one
    cases eq_of_beq two
    cases eq_of_beq three
    have filled : run ≠ [] := List.ne_nil_of_length_pos (by omega)
    rw [after_word filled fun c member => isAlphanum_word (all c member)] at stop
    refine ⟨by simpa [wordAt, first] using edge, by simpa using stop.symm, run, by simp, enough, all⟩
  · rintro ⟨outside, ends, run, rfl, enough, all⟩
    have filled : run ≠ [] := List.ne_nil_of_length_pos (by omega)
    rw [firecrawlKeyRe, fits_boundary]
    refine ⟨fun same => absurd first (ne_true_of_eq_false (same.symm.trans outside)), ?_⟩
    simp only [String.reduceToList, List.cons_append, List.nil_append]
    refine .one rfl (.one rfl (.one rfl ?_))
    have last : Fits letters.isWord [.many Char.isAlphanum 8, .boundary] (some '-') (run ++ []) rest := by
      refine .many all enough (.boundary ?_ (.nil _ _))
      rw [after_word filled fun c member => isAlphanum_word (all c member)]
      simp [ends]
    rwa [List.append_nil] at last

/-! ## Both patterns are for whole words -/

theorem wordAt_pad {token pad : List Char} (pads : ∀ c ∈ pad, c = '=') (filled : pad ≠ []) :
    wordAt letters.isWord (after none (token ++ pad)) = false := by
  have dash : letters.isWord '=' = false := by
    simp only [Letters.isWord, letters.ascii '=' (by decide)]
    decide
  obtain rfl | ⟨front, c, rfl⟩ := pad.eq_nil_or_concat
  · exact absurd rfl filled
  · rw [List.concat_eq_append] at pads ⊢
    rw [← List.append_assoc, after_append, pads c (by simp)]
    exact dash

theorem bearer_sharp : Sharp letters.isWord bearerRe ("Bearer ".toList ++ redactedMark)
    (ignoringCase 'b') where
  first fits := by
    obtain ⟨outside, word, gap, token, pad, rfl, same, -⟩ := bearer_fits.mp fits
    obtain ⟨-, b, tail, rfl, first, -⟩ := bearerWord_letters same
    exact ⟨outside, b, _, rfl, beq_iff_eq.mpr first⟩
  last fits := by
    obtain ⟨outside, word, gap, token, pad, rfl, -, -, -, filled, -, -, stop⟩ := bearer_fits.mp fits
    rw [after_append, after_append, after_filled (List.append_ne_nil_of_left_ne_nil filled pad) _ none]
    exact stop
  word c start := bearerLetter_word (mem_bearerLetters (by decide) (eq_of_beq start))
  begins := ⟨'B', _, rfl, rfl⟩

theorem firecrawlKey_sharp : Sharp letters.isWord firecrawlKeyRe ("fc-".toList ++ redactedMark)
    (· == 'f') where
  first fits := by
    obtain ⟨outside, -, run, rfl, -⟩ := firecrawlKey_fits.mp fits
    exact ⟨outside, 'f', _, rfl, rfl⟩
  last fits := by
    obtain ⟨-, ends, run, rfl, enough, all⟩ := firecrawlKey_fits.mp fits
    have filled : run ≠ [] := List.ne_nil_of_length_pos (by omega)
    rw [after_append, after_word filled fun c member => isAlphanum_word (all c member), ends]
    decide
  word c start := by
    rw [eq_of_beq start]
    exact isAlphanum_word (by decide)
  begins := ⟨'f', _, rfl, rfl⟩

theorem isSpace_not_alphanum {c : Char} (space : PyText.isSpace c = true) (letters : Letters) :
    c.isAlphanum = false := by
  cases letter : c.isAlphanum with
  | false => rfl
  | true =>
    have known := letters.ascii c (isAlphanum_ascii letter)
    rw [letters.space c space, letter] at known
    cases known

/-- Its first eight characters are not all letters and digits. -/
def Broken (text : List Char) : Prop := ∃ c ∈ text.take 8, c.isAlphanum = false

theorem broken_append {front back : List Char} (broken : Broken front) : Broken (front ++ back) := by
  obtain ⟨c, member, other⟩ := broken
  refine ⟨c, ?_, other⟩
  rw [List.take_append]
  exact List.mem_append_left _ member

theorem not_broken {front back run rest : List Char} (same : front ++ back = run ++ rest)
    (enough : 8 ≤ run.length) (all : ∀ c ∈ run, c.isAlphanum = true) : ¬Broken front := by
  intro broken
  have longer : Broken (front ++ back) := broken_append broken
  rw [same] at longer
  obtain ⟨c, member, other⟩ := longer
  rw [List.take_append_of_le_length enough] at member
  rw [all c (List.mem_of_mem_take member)] at other
  cases other

/-- A substitution that begins no match in the other places a secret is looked
for, and neither matches nor leaves a long run of letters and digits. -/
structure Gentle (letters : Letters) (pattern : List Piece) (replacement : List Char)
    (starts : Char → Bool) : Prop where
  sharp : Sharp letters.isWord pattern replacement starts
  word : ∀ c ∈ bearerLetters, c.toLower ≠ 'b' → starts c = false
  space : ∀ c, PyText.isSpace c = true → starts c = false
  mark : ∀ c ∈ redactedMark, starts c = false
  key : starts 'c' = false ∧ starts '-' = false
  matched : ∀ {before front back}, Fits letters.isWord pattern before front back → Broken front
  replaced : Broken replacement

theorem broken_word (letters : Letters) {word gap : List Char}
    (same : word.map Char.toLower = "bearer".toList) (wide : gap ≠ [])
    (spaces : ∀ c ∈ gap, PyText.isSpace c = true) : Broken (word ++ gap) := by
  obtain ⟨c, gap, rfl⟩ := List.exists_cons_of_ne_nil wide
  refine ⟨c, ?_, isSpace_not_alphanum (spaces c List.mem_cons_self) letters⟩
  have six : word.length = 6 := by simpa using congrArg List.length same
  rw [List.take_append, six]
  simp

theorem bearer_gentle : Gentle letters bearerRe ("Bearer ".toList ++ redactedMark)
    (ignoringCase 'b') where
  sharp := bearer_sharp
  word c _ other := beq_false_of_ne other
  space c space := by
    cases start : ignoringCase 'b' c with
    | false => rfl
    | true =>
      have first : 'b' ∈ "bearer".toList := by decide
      have member := mem_bearerLetters first (eq_of_beq start)
      rw [(bearerLetter_classes c member).2.2.1] at space
      cases space
  mark := by decide
  key := by decide
  matched fits := by
    obtain ⟨-, word, gap, token, pad, rfl, same, wide, spaces, -⟩ := bearer_fits.mp fits
    rw [← List.append_assoc]
    exact broken_append (broken_word letters same wide spaces)
  replaced := ⟨' ', by decide, by decide⟩

theorem firecrawlKey_gentle : Gentle letters firecrawlKeyRe ("fc-".toList ++ redactedMark)
    (· == 'f') where
  sharp := firecrawlKey_sharp
  word := by decide
  space c space := by
    cases start : c == 'f' with
    | false => rfl
    | true =>
      rw [eq_of_beq start] at space
      revert space
      decide
  mark := by decide
  key := by decide
  matched fits := by
    obtain ⟨-, -, run, rfl, -⟩ := firecrawlKey_fits.mp fits
    exact ⟨'-', by simp, by decide⟩
  replaced := ⟨'-', by decide, by decide⟩

/-! ## Secrets at a place that stays -/

/-- A key next to an underscore or to a letter outside ASCII. -/
def Glued (letters : Letters) (before : Option Char) (text : List Char) : Prop :=
  before.any Char.isAlphanum = false ∧ ∃ run rest, KeyToken text run rest ∧
    (wordAt letters.isWord before = true ∨ wordAt letters.isWord rest.head? = true)

theorem isWord_tokenChar {c : Char} (word : letters.isWord c = true) : tokenChar letters c = true := by
  simp [tokenChar, word]

/-- Nothing that belongs to a token goes on from here. -/
def Ends (letters : Letters) (text : List Char) : Prop :=
  ∀ c, text.head? = some c → tokenChar letters c = false

theorem ends_bare (ends : Ends letters text) : wordAt letters.isWord text.head? = false := by
  cases text with
  | nil => rfl
  | cons c text =>
    cases word : letters.isWord c with
    | false => exact word
    | true => exact absurd (isWord_tokenChar word) (ne_true_of_eq_false (ends c rfl))

theorem ends_sub {pattern : List Piece} {replacement : List Char} {starts : Char → Bool}
    (sharp : Sharp letters.isWord pattern replacement starts) (before : Option Char)
    (text : List Char) :
    Ends letters (subFrom letters.isWord pattern replacement 0 before text) ↔ Ends letters text := by
  rcases sub_head sharp before text with same | ⟨c, d, first, start, first', start'⟩
  · rw [Ends, same]
    rfl
  · have one := isWord_tokenChar (sharp.word c start)
    have other := isWord_tokenChar (sharp.word d start')
    apply iff_of_false
    · exact fun ends => absurd other (ne_true_of_eq_false (ends d first'))
    · exact fun ends => absurd one (ne_true_of_eq_false (ends c first))

section
variable {pattern : List Piece} {replacement : List Char} {starts : Char → Bool}
  (gentle : Gentle letters pattern replacement starts)
include gentle

theorem marked_sub (before : Option Char) (text : List Char) :
    Marked letters (subFrom letters.isWord pattern replacement 0 before text) ↔ Marked letters text := by
  constructor
  · rintro ⟨out, same, stop⟩
    obtain ⟨rest, rfl, rfl⟩ := quiet_of_sub gentle.sharp gentle.mark same
    exact ⟨rest, rfl, (ends_sub gentle.sharp _ rest).mp stop⟩
  · rintro ⟨rest, rfl, stop⟩
    exact ⟨_, sub_quiet gentle.sharp gentle.mark before rest, (ends_sub gentle.sharp _ rest).mpr stop⟩

theorem solid_sub (before : Option Char) (text : List Char) :
    (∃ c, (subFrom letters.isWord pattern replacement 0 before text).head? = some c ∧
      PyText.isSpace c = false) ↔ ∃ c, text.head? = some c ∧ PyText.isSpace c = false := by
  have solid {c : Char} (start : starts c = true) : PyText.isSpace c = false := by
    cases space : PyText.isSpace c with
    | false => rfl
    | true => exact absurd start (ne_true_of_eq_false (gentle.space c space))
  rcases sub_head gentle.sharp before text with same | ⟨c, d, first, start, first', start'⟩
  · rw [same]
  · exact iff_of_true ⟨d, first', solid start'⟩ ⟨c, first, solid start⟩

theorem quiet_rest {word gap : List Char} (same : word.map Char.toLower = "bearer".toList)
    (spaces : ∀ c ∈ gap, PyText.isSpace c = true) {b : Char} {tail : List Char}
    (shape : word = b :: tail) : ∀ c ∈ tail ++ gap, starts c = false := by
  obtain ⟨members, b', tail', shape', -, -, others⟩ := bearerWord_letters same
  obtain ⟨rfl, rfl⟩ := List.cons.inj (shape.symm.trans shape')
  intro c member
  rcases List.mem_append.mp member with member | member
  · exact gentle.word c (members c (shape ▸ List.mem_cons_of_mem _ member)) (others c member)
  · exact gentle.space c (spaces c member)

/-- The word `bearer` at a place that stays comes from the word there. -/
theorem bearerWord_kept {c : Char} {out : List Char} (later : BearerWord letters before
      (c :: subFrom letters.isWord pattern replacement 0 (some c) rest) out) :
    ∃ place text, BearerWord letters before (c :: rest) text ∧
      out = subFrom letters.isWord pattern replacement 0 place text := by
  obtain ⟨outside, word, gap, split, same, wide, spaces⟩ := later
  obtain ⟨-, b, tail, shape, -⟩ := bearerWord_letters same
  have quiet := quiet_rest gentle same spaces shape
  rw [shape, List.cons_append, List.cons_append] at split
  obtain ⟨rfl, later⟩ := List.cons.inj split
  obtain ⟨text, rfl, rfl⟩ := quiet_of_sub gentle.sharp quiet later
  exact ⟨_, text, ⟨outside, word, gap, by rw [shape]; simp, same, wide, spaces⟩, rfl⟩

theorem bearerWord_keep {c : Char} {text : List Char}
    (word : BearerWord letters before (c :: rest) text) :
    ∃ place, BearerWord letters before
      (c :: subFrom letters.isWord pattern replacement 0 (some c) rest)
      (subFrom letters.isWord pattern replacement 0 place text) := by
  obtain ⟨outside, word, gap, split, same, wide, spaces⟩ := word
  obtain ⟨-, b, tail, shape, -⟩ := bearerWord_letters same
  have quiet := quiet_rest gentle same spaces shape
  rw [shape, List.cons_append, List.cons_append] at split
  obtain ⟨rfl, rfl⟩ := List.cons.inj split
  refine ⟨after (some c) (tail ++ gap), outside, word, gap, ?_, same, wide, spaces⟩
  rw [sub_quiet gentle.sharp quiet, shape]
  simp

theorem exposed_keep (c : Char) (rest : List Char) :
    Exposed letters before (c :: subFrom letters.isWord pattern replacement 0 (some c) rest) ↔
      Exposed letters before (c :: rest) := by
  constructor
  · rintro ⟨out, word, solid, unmarked⟩
    obtain ⟨place, text, begins, rfl⟩ := bearerWord_kept gentle word
    exact ⟨text, begins, (solid_sub gentle place text).mp solid,
      fun marked => unmarked ((marked_sub gentle place text).mpr marked)⟩
  · rintro ⟨text, word, solid, unmarked⟩
    obtain ⟨place, kept⟩ := bearerWord_keep gentle word
    exact ⟨_, kept, (solid_sub gentle place text).mpr solid,
      fun marked => unmarked ((marked_sub gentle place text).mp marked)⟩

/-- A long run of letters and digits stays as it is. -/
theorem sub_run {run : List Char} (enough : 8 ≤ run.length) (all : ∀ c ∈ run, c.isAlphanum = true)
    (place : Option Char) (text : List Char) :
    subFrom letters.isWord pattern replacement 0 place (run ++ text) =
      run ++ subFrom letters.isWord pattern replacement 0 (after place run) text := by
  cases run with
  | nil => cases enough
  | cons r run =>
    have unmatched : matchLength letters.isWord pattern place (r :: (run ++ text)) = none := by
      cases found : matchLength letters.isWord pattern place (r :: (run ++ text)) with
      | none => rfl
      | some length =>
        obtain ⟨front, back, split, -, fits⟩ := matchLength_sound found
        exact absurd (gentle.matched fits) (not_broken split.symm enough all)
    have word : ∀ c ∈ run, letters.isWord c = true := fun c member =>
      isAlphanum_word (all c (List.mem_cons_of_mem _ member))
    have inside : wordAt letters.isWord (some r) = true := isAlphanum_word (all r List.mem_cons_self)
    rw [List.cons_append, subFrom_keep unmatched, sub_word gentle.sharp word inside]
    rfl

theorem run_of_sub {run out : List Char} (enough : 8 ≤ run.length)
    (all : ∀ c ∈ run, c.isAlphanum = true) {place : Option Char} {text : List Char}
    (left : subFrom letters.isWord pattern replacement 0 place text = run ++ out) :
    ∃ rest, text = run ++ rest ∧
      out = subFrom letters.isWord pattern replacement 0 (after place run) rest := by
  cases run with
  | nil => cases enough
  | cons r run =>
    induction place, text using sub_induction gentle.sharp with
    | nil => cases left
    | keep place c rest unmatched =>
      rw [subFrom_keep unmatched] at left
      obtain ⟨rfl, later⟩ := List.cons.inj left
      have word : ∀ d ∈ run, letters.isWord d = true := fun d member =>
        isAlphanum_word (all d (List.mem_cons_of_mem _ member))
      have inside : wordAt letters.isWord (some c) = true :=
        isAlphanum_word (all c List.mem_cons_self)
      obtain ⟨tail, rfl, same⟩ := word_of_sub gentle.sharp word inside later
      exact ⟨tail, rfl, same⟩
    | swap place front back filled fits found =>
      rw [subFrom_match filled found] at left
      exact absurd gentle.replaced (not_broken left enough all)

theorem keyRun_head {run : List Char} (enough : 8 ≤ run.length)
    (all : ∀ c ∈ run, c.isAlphanum = true) (place : Option Char) (text : List Char) :
    (subFrom letters.isWord pattern replacement 0 (after place run) text).head? = text.head? := by
  apply sub_head_inside gentle.sharp
  apply after_word (List.ne_nil_of_length_pos (by omega))
  exact fun c member => isAlphanum_word (all c member)

/-- A key at a place that stays comes from the key there. -/
theorem keyToken_kept {c : Char} {run out : List Char}
    (key : KeyToken (c :: subFrom letters.isWord pattern replacement 0 (some c) rest) run out) :
    ∃ tail, KeyToken (c :: rest) run tail ∧ tail.head? = out.head? := by
  obtain ⟨split, enough, all, ends⟩ := key
  obtain ⟨rfl, later⟩ := List.cons.inj split
  have quiet : ∀ c ∈ ['c', '-'], starts c = false := by simpa using gentle.key
  have left : subFrom letters.isWord pattern replacement 0 (some 'f') rest =
      ['c', '-'] ++ (run ++ out) := later
  obtain ⟨between, rfl, same⟩ := quiet_of_sub gentle.sharp quiet left
  obtain ⟨tail, rfl, rfl⟩ := run_of_sub gentle enough all same.symm
  rw [keyRun_head gentle enough all] at ends ⊢
  exact ⟨tail, ⟨rfl, enough, all, ends⟩, rfl⟩

theorem keyToken_keep {c : Char} {run tail : List Char} (key : KeyToken (c :: rest) run tail) :
    ∃ out, KeyToken (c :: subFrom letters.isWord pattern replacement 0 (some c) rest) run out ∧
      out.head? = tail.head? := by
  obtain ⟨split, enough, all, ends⟩ := key
  obtain ⟨rfl, rfl⟩ := List.cons.inj split
  have quiet : ∀ c ∈ ['c', '-'], starts c = false := by simpa using gentle.key
  have head := keyRun_head gentle enough all (some '-') tail
  refine ⟨subFrom letters.isWord pattern replacement 0 (after (some '-') run) tail,
    ⟨?_, enough, all, head.symm ▸ ends⟩, head⟩
  have kept := sub_quiet gentle.sharp quiet (some 'f') (run ++ tail)
  rw [show after (some 'f') ['c', '-'] = some '-' from rfl, sub_run gentle enough all] at kept
  exact congrArg ('f' :: ·) kept

theorem glued_keep (c : Char) (rest : List Char) :
    Glued letters before (c :: subFrom letters.isWord pattern replacement 0 (some c) rest) ↔
      Glued letters before (c :: rest) := by
  constructor
  · rintro ⟨outside, run, out, key, edge⟩
    obtain ⟨tail, key, head⟩ := keyToken_kept gentle key
    exact ⟨outside, run, tail, key, head ▸ edge⟩
  · rintro ⟨outside, run, tail, key, edge⟩
    obtain ⟨out, key, head⟩ := keyToken_keep gentle key
    exact ⟨outside, run, out, key, head ▸ edge⟩

end

end FcamGateway.Redact
