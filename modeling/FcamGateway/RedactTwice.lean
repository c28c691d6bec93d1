import FcamGateway.RedactStages

/-! A second redaction changes nothing: the first leaves no bearer token and no
key that a pattern would take again. -/
namespace FcamGateway.Redact
open Pattern

variable {letters : Letters} {before : Option Char} {text front rest back out : List Char}


/-- A token as the pattern asks for it begins here. -/
def TokenStart (letters : Letters) (text : List Char) : Prop :=
  ∃ token pad rest, text = token ++ (pad ++ rest) ∧ TokenAt letters token pad rest

theorem bearerMatch_iff : MatchAt letters.isWord bearerRe before text ↔
    ∃ rest, BearerWord letters before text rest ∧ TokenStart letters rest := by
  constructor
  · rintro ⟨front, back, rfl, fits⟩
    obtain ⟨outside, word, gap, token, pad, rfl, same, wide, spaces, at_⟩ := bearer_fits.mp fits
    exact ⟨token ++ (pad ++ back), ⟨outside, word, gap, by simp, same, wide, spaces⟩, token, pad, back,
      rfl, at_⟩
  · rintro ⟨_, ⟨outside, word, gap, rfl, same, wide, spaces⟩, token, pad, back, rfl, at_⟩
    exact ⟨word ++ (gap ++ (token ++ pad)), back, by simp,
      bearer_fits.mpr ⟨outside, word, gap, token, pad, rfl, same, wide, spaces, at_⟩⟩

theorem keyMatch_iff : MatchAt letters.isWord firecrawlKeyRe before text ↔
    wordAt letters.isWord before = false ∧
      ∃ run rest, KeyToken text run rest ∧ wordAt letters.isWord rest.head? = false := by
  constructor
  · rintro ⟨front, back, rfl, fits⟩
    obtain ⟨outside, ends, run, rfl, enough, all⟩ := firecrawlKey_fits.mp fits
    exact ⟨outside, run, back, ⟨rfl, enough, all, bare_alphanum ends⟩, ends⟩
  · rintro ⟨outside, run, rest, key, ends⟩
    exact key_fits key outside ends

theorem isSpace_bare {c : Char} (space : PyText.isSpace c = true) : letters.isWord c = false := by
  have other : c ≠ '_' := by
    rintro rfl
    exact absurd space (by decide)
  simp [Letters.isWord, letters.space c space, other]

theorem not_word_ascii {c : Char} (low : c.toNat < 128) (no : c.isAlphanum = false) (other : c ≠ '_') :
    letters.isWord c = false := by
  simp [Letters.isWord, letters.ascii c low, no, other]

theorem tokenStart_of_bearer (fits : Fits letters.isWord bearerRe before front back) :
    TokenStart letters (front ++ back) := by
  obtain ⟨-, word, gap, token, pad, rfl, same, wide, spaces, -⟩ := bearer_fits.mp fits
  obtain ⟨members, b, tail, shape, -⟩ := bearerWord_letters same
  have filled : word ≠ [] := shape ▸ List.cons_ne_nil _ _
  refine ⟨word, [], gap ++ (token ++ pad) ++ back, by simp, filled, ?_, nofun, ?_⟩
  · exact fun c member => (bearerLetter_classes c (members c member)).2.2.2.1
  · obtain ⟨g, gap, rfl⟩ := List.exists_cons_of_ne_nil wide
    rw [List.append_nil, after_word filled fun c member => bearerLetter_word (members c member)]
    exact fun same => absurd (same.trans (isSpace_bare (spaces g List.mem_cons_self))) (by decide)

theorem tokenStart_of_key (fits : Fits letters.isWord firecrawlKeyRe before front back) :
    TokenStart letters (front ++ back) := by
  obtain ⟨-, -, run, rfl, -⟩ := firecrawlKey_fits.mp fits
  refine ⟨['f', 'c'], [], '-' :: (run ++ back), by simp, List.cons_ne_nil _ _, by decide, nofun, ?_⟩
  have word : letters.isWord 'c' = true := isAlphanum_word (by decide)
  have bare : letters.isWord '-' = false := not_word_ascii (by decide) (by decide) (by decide)
  exact fun same => absurd (same.symm.trans word) (ne_true_of_eq_false bare)

/-- A token in what is left was one in the text. -/
theorem tokenStart_of_sub {pattern : List Piece} {replacement : List Char} {starts : Char → Bool}
    (sharp : Sharp letters.isWord pattern replacement starts)
    (matched : ∀ {before front back}, Fits letters.isWord pattern before front back →
      TokenStart letters (front ++ back)) (before : Option Char) (text : List Char)
    (left : TokenStart letters (subFrom letters.isWord pattern replacement 0 before text)) :
    TokenStart letters text := by
  induction before, text using sub_induction sharp with
  | nil =>
    obtain ⟨token, pad, rest, split, filled, -⟩ := left
    exact absurd (List.append_eq_nil_iff.mp split.symm).1 filled
  | swap before front back _ fits => exact matched fits
  | keep before c rest unmatched ih =>
    rw [subFrom_keep unmatched] at left
    obtain ⟨token, pad, back, split, filled, all, pads, edge⟩ := left
    obtain ⟨d, token, rfl⟩ := List.exists_cons_of_ne_nil filled
    obtain ⟨rfl, later⟩ := List.cons.inj split
    have letter := all c List.mem_cons_self
    cases token with
    | nil =>
      have quiet : ∀ d ∈ pad, starts d = false := by
        intro d member
        cases start : starts d with
        | false => rfl
        | true =>
          have padding : letters.isWord '=' = false :=
            not_word_ascii (by decide) (by decide) (by decide)
          rw [pads d member] at start
          exact absurd (sharp.word '=' start) (ne_true_of_eq_false padding)
      obtain ⟨tail, rfl, rfl⟩ := quiet_of_sub sharp quiet later
      rw [sub_head_word sharp] at edge
      exact ⟨[c], pad, tail, rfl, filled, all, pads, edge⟩
    | cons d token =>
      have inner : TokenStart letters (subFrom letters.isWord pattern replacement 0 (some c) rest) :=
        ⟨d :: token, pad, back, later, List.cons_ne_nil _ _,
          fun e member => all e (List.mem_cons_of_mem _ member), pads, edge⟩
      obtain ⟨token, pad, back, rfl, filled, all, pads, edge⟩ := ih inner
      refine ⟨c :: token, pad, back, rfl, List.cons_ne_nil _ _, ?_, pads, ?_⟩
      · intro e member
        rcases List.mem_cons.mp member with rfl | member
        · exact letter
        · exact all e member
      · rw [List.cons_append, after_cons,
          after_filled (List.append_ne_nil_of_left_ne_nil filled pad) (some c) none]
        exact edge

theorem edge_behind {pattern : List Piece} {replacement : List Char} {starts : Char → Bool}
    (sharp : Sharp letters.isWord pattern replacement starts)
    (fits : Fits letters.isWord pattern before front back) :
    SameEdge letters.isWord (after before front) (some ']') back := by
  have bracket : wordAt letters.isWord (some ']') = false :=
    not_word_ascii (by decide) (by decide) (by decide)
  have edge := sharp.last fits
  cases first : wordAt letters.isWord back.head? with
  | false => exact .inr first
  | true =>
    left
    rw [first, ne_eq, Bool.not_eq_true] at edge
    rw [edge, bracket]

section
variable {pattern : List Piece} {replacement : List Char} {starts : Char → Bool}

/-- A bearer token at a place that stays was one before. -/
theorem bearerMatch_kept (gentle : Gentle letters pattern replacement starts)
    (matched : ∀ {before front back}, Fits letters.isWord pattern before front back →
      TokenStart letters (front ++ back)) {c : Char}
    (later : MatchAt letters.isWord bearerRe before
      (c :: subFrom letters.isWord pattern replacement 0 (some c) rest)) :
    MatchAt letters.isWord bearerRe before (c :: rest) := by
  obtain ⟨out, word, token⟩ := bearerMatch_iff.mp later
  obtain ⟨place, text, begins, rfl⟩ := bearerWord_kept gentle word
  exact bearerMatch_iff.mpr ⟨text, begins, tokenStart_of_sub gentle.sharp matched place text token⟩

end

theorem not_tokenStart_mark : ¬TokenStart letters (redactedMark ++ out) := by
  rintro ⟨token, pad, rest, split, filled, all, -⟩
  obtain ⟨c, token, rfl⟩ := List.exists_cons_of_ne_nil filled
  obtain ⟨rfl, -⟩ := List.cons.inj split
  exact (tokenLetter_classes letters (all _ List.mem_cons_self)).2.1 rfl

theorem bearerMatch_in_replaced :
    Occurs (MatchAt letters.isWord bearerRe) before ("Bearer ".toList ++ redactedMark ++ out) ↔
      Occurs (MatchAt letters.isWord bearerRe) (some ']') out := by
  have quiet : ∀ c ∈ "earer [REDACTED]".toList, ignoringCase 'b' c = false := by decide
  have first : ¬MatchAt letters.isWord bearerRe before ("Bearer ".toList ++ redactedMark ++ out) := by
    intro there
    obtain ⟨text, word, token⟩ := bearerMatch_iff.mp there
    obtain ⟨-, rfl⟩ := bearerWord_replaced.mp word
    exact not_tokenStart_mark token
  have tail : Occurs (MatchAt letters.isWord bearerRe) (some 'B') ("earer [REDACTED]".toList ++ out) ↔
      Occurs (MatchAt letters.isWord bearerRe) (some ']') out :=
    occurs_append fun c member place rest => not_matchAt_start bearer_sharp (quiet c member)
  exact occurs_cons.trans ((or_iff_right first).trans tail)

theorem bearerMatch_in_key :
    Occurs (MatchAt letters.isWord bearerRe) before ("fc-".toList ++ redactedMark ++ out) ↔
      Occurs (MatchAt letters.isWord bearerRe) (some ']') out := by
  have quiet : ∀ c ∈ "fc-[REDACTED]".toList, ignoringCase 'b' c = false := by decide
  have whole : Occurs (MatchAt letters.isWord bearerRe) before ("fc-[REDACTED]".toList ++ out) ↔
      Occurs (MatchAt letters.isWord bearerRe) (some ']') out :=
    occurs_append fun c member place rest => not_matchAt_start bearer_sharp (quiet c member)
  exact whole

theorem keyMatch_in_key :
    Occurs (MatchAt letters.isWord firecrawlKeyRe) before ("fc-".toList ++ redactedMark ++ out) ↔
      Occurs (MatchAt letters.isWord firecrawlKeyRe) (some ']') out := by
  have quiet : ∀ c ∈ "c-[REDACTED]".toList, (c == 'f') = false := by decide
  have first : ¬MatchAt letters.isWord firecrawlKeyRe before ("fc-".toList ++ redactedMark ++ out) := by
    intro there
    obtain ⟨-, run, rest, key, -⟩ := keyMatch_iff.mp there
    exact not_keyToken_mark key
  have tail : Occurs (MatchAt letters.isWord firecrawlKeyRe) (some 'f')
        ("c-[REDACTED]".toList ++ out) ↔
      Occurs (MatchAt letters.isWord firecrawlKeyRe) (some ']') out :=
    occurs_append fun c member place rest => not_matchAt_start firecrawlKey_sharp (quiet c member)
  exact occurs_cons.trans ((or_iff_right first).trans tail)

/-- The first substitution leaves nothing that its pattern fits. -/
theorem bearers_gone (text : List Char) :
    ¬Occurs (MatchAt letters.isWord bearerRe) none (withoutBearers letters none text) :=
  sub_gone bearer_sharp (bearerMatch_kept bearer_gentle tokenStart_of_bearer)
    bearerMatch_in_replaced.mp (edge_behind bearer_sharp) none text none (.inl rfl)

/-- The second substitution makes no bearer token. -/
theorem bearers_not_made (before : Option Char) (text : List Char) :
    ∀ place, SameEdge letters.isWord before place text →
      Occurs (MatchAt letters.isWord bearerRe) place (withoutKeys letters before text) →
        Occurs (MatchAt letters.isWord bearerRe) before text := by
  induction before, text using sub_induction (@firecrawlKey_sharp letters) with
  | nil before =>
    intro place _ left
    cases matchAt_first bearer_sharp _ _ (occurs_nil.mp left)
  | keep before c rest unmatched ih =>
    intro place same
    have there : SameEdge letters.isWord before place (c :: withoutKeys letters (some c) rest) := same
    rw [withoutKeys, subFrom_keep unmatched, occurs_cons, occurs_cons, ← matchAt_edge bearer_sharp there]
    rintro (now | later)
    · exact .inl (bearerMatch_kept firecrawlKey_gentle tokenStart_of_key now)
    · exact .inr (ih (some c) (.inl rfl) later)
  | swap before front back filled fits found ih =>
    intro place _
    rw [withoutKeys, subFrom_match filled found, bearerMatch_in_key]
    exact fun left => occurs_of_append (ih (some ']') (edge_behind firecrawlKey_sharp fits) left)

theorem keyMatch_kept {c : Char}
    (later : MatchAt letters.isWord firecrawlKeyRe before (c :: withoutKeys letters (some c) rest)) :
    MatchAt letters.isWord firecrawlKeyRe before (c :: rest) := by
  obtain ⟨outside, run, out, key, ends⟩ := keyMatch_iff.mp later
  obtain ⟨tail, key, head⟩ := keyToken_kept firecrawlKey_gentle key
  exact key_fits key outside (head ▸ ends)

/-- The second substitution leaves nothing that its pattern fits. -/
theorem keys_gone (text : List Char) :
    ¬Occurs (MatchAt letters.isWord firecrawlKeyRe) none (withoutKeys letters none text) :=
  sub_gone firecrawlKey_sharp keyMatch_kept keyMatch_in_key.mp (edge_behind firecrawlKey_sharp)
    none text none (.inl rfl)

/-- A redacted text is redacted to itself. -/
theorem redactText_idem (text : List Char) :
    redactText letters (redactText letters text) = redactText letters text := by
  have left : ¬Occurs (MatchAt letters.isWord bearerRe) none (redactText letters text) := fun there =>
    bearers_gone text (bearers_not_made none _ none (.inl rfl) there)
  have keyless : ¬Occurs (MatchAt letters.isWord firecrawlKeyRe) none (redactText letters text) :=
    keys_gone _
  calc redactText letters (redactText letters text)
      = withoutKeys letters none (withoutBearers letters none (redactText letters text)) := rfl
    _ = withoutKeys letters none (redactText letters text) := by rw [withoutBearers, sub_unmatched left]
    _ = redactText letters text := sub_unmatched keyless

end FcamGateway.Redact
