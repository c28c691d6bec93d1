import Mathlib.Data.List.Basic

/-! Patterns over text and what their substitution leaves: a pattern is a row of
characters, greedy runs and word boundaries, matched with backtracking; a text
is searched from left to right and every match replaced. The matcher finds a
match exactly where the pattern fits. -/
namespace FcamGateway.Pattern

inductive Piece where
  | one (accepts : Char → Bool)
  | many (accepts : Char → Bool) (least : Nat)
  | boundary

/-- What is said of the characters of a text is decided over the text, not over
all characters. -/
instance (priority := 2000) decidableForallMem (text : List Char) (p : Char → Prop)
    [DecidablePred p] : Decidable (∀ c ∈ text, p c) := List.decidableBAll p text

variable (isWord : Char → Bool)

/-- A word character stands there. -/
def wordAt (c : Option Char) : Bool := c.any isWord

/-- The character before what follows a text. -/
def after (before : Option Char) (text : List Char) : Option Char :=
  text.foldl (fun _ c => some c) before

@[simp] theorem after_nil (before : Option Char) : after before [] = before := rfl

@[simp] theorem after_cons (before : Option Char) (c : Char) (text : List Char) :
    after before (c :: text) = after (some c) text := rfl

theorem after_append (before : Option Char) (front back : List Char) :
    after before (front ++ back) = after (after before front) back := List.foldl_append ..

/-- The longest run first, shorter ones after it, and after each what follows. -/
def greedy (accepts : Char → Bool) (next : Option Char → List Char → Option Nat) :
    Nat → Option Char → List Char → Option Nat
  | least, before, [] => if least = 0 then next before [] else none
  | least, before, c :: rest =>
    let stop := if least = 0 then next before (c :: rest) else none
    if accepts c then
      match greedy accepts next (least - 1) (some c) rest with
      | some length => some (length + 1)
      | none => stop
    else stop

/-- The length of the match at the beginning of a text. -/
def matchLength : List Piece → Option Char → List Char → Option Nat
  | [], _, _ => some 0
  | .one _ :: _, _, [] => none
  | .one accepts :: more, _, c :: rest =>
    if accepts c then (matchLength more (some c) rest).map (· + 1) else none
  | .many accepts least :: more, before, text =>
    greedy accepts (fun before text => matchLength more before text) least before text
  | .boundary :: more, before, text =>
    if wordAt isWord before ≠ wordAt isWord text.head? then matchLength more before text else none

/-- A stretch of text, between the character before it and the rest, that has
the form of the pattern. -/
inductive Fits : List Piece → Option Char → List Char → List Char → Prop where
  | nil (before : Option Char) (rest : List Char) : Fits [] before [] rest
  | one {accepts : Char → Bool} {more : List Piece} {before : Option Char} {c : Char}
      {front rest : List Char} (accepted : accepts c = true) (later : Fits more (some c) front rest) :
    Fits (.one accepts :: more) before (c :: front) rest
  | many {accepts : Char → Bool} {least : Nat} {more : List Piece} {before : Option Char}
      {run front rest : List Char} (all : ∀ c ∈ run, accepts c = true) (enough : least ≤ run.length)
      (later : Fits more (after before run) front rest) :
    Fits (.many accepts least :: more) before (run ++ front) rest
  | boundary {more : List Piece} {before : Option Char} {front rest : List Char}
      (edge : wordAt isWord before ≠ wordAt isWord (front ++ rest).head?)
      (later : Fits more before front rest) : Fits (.boundary :: more) before front rest

theorem after_filled {text : List Char} (filled : text ≠ []) (one other : Option Char) :
    after one text = after other text := by
  cases text with
  | nil => exact absurd rfl filled
  | cons c text => rfl

variable {isWord} {accepts : Char → Bool} {next : Option Char → List Char → Option Nat}
  {pattern : List Piece} {before : Option Char} {text front back : List Char}

theorem fits_nil : Fits isWord [] before front back ↔ front = [] := by
  constructor
  · rintro ⟨⟩
    rfl
  · rintro rfl
    exact .nil before back

theorem fits_one : Fits isWord (.one accepts :: pattern) before front back ↔
    ∃ c tail, front = c :: tail ∧ accepts c = true ∧ Fits isWord pattern (some c) tail back := by
  constructor
  · rintro (_ | ⟨accepted, later⟩)
    exact ⟨_, _, rfl, accepted, later⟩
  · rintro ⟨c, tail, rfl, accepted, later⟩
    exact .one accepted later

theorem fits_many {least : Nat} : Fits isWord (.many accepts least :: pattern) before front back ↔
    ∃ run tail, front = run ++ tail ∧ (∀ c ∈ run, accepts c = true) ∧ least ≤ run.length ∧
      Fits isWord pattern (after before run) tail back := by
  constructor
  · rintro (_ | _ | ⟨all, enough, later⟩)
    exact ⟨_, _, rfl, all, enough, later⟩
  · rintro ⟨run, tail, rfl, all, enough, later⟩
    exact .many all enough later

theorem fits_boundary : Fits isWord (.boundary :: pattern) before front back ↔
    wordAt isWord before ≠ wordAt isWord (front ++ back).head? ∧ Fits isWord pattern before front back := by
  constructor
  · rintro (_ | _ | _ | ⟨edge, later⟩)
    exact ⟨edge, later⟩
  · rintro ⟨edge, later⟩
    exact .boundary edge later

theorem greedy_sound {least length : Nat} (found : greedy accepts next least before text = some length) :
    ∃ run rest more, text = run ++ rest ∧ (∀ c ∈ run, accepts c = true) ∧ least ≤ run.length ∧
      next (after before run) rest = some more ∧ length = run.length + more := by
  induction text generalizing least before length with
  | nil =>
    unfold greedy at found
    split at found
    · rename_i none_
      exact ⟨[], [], length, rfl, nofun, by simp [none_], found, by simp⟩
    · cases found
  | cons c rest ih =>
    have stopped (stop : (if least = 0 then next before (c :: rest) else none) = some length) :
        ∃ run tail more, c :: rest = run ++ tail ∧ (∀ c ∈ run, accepts c = true) ∧
          least ≤ run.length ∧ next (after before run) tail = some more ∧
          length = run.length + more := by
      split at stop
      · rename_i none_
        exact ⟨[], c :: rest, length, rfl, nofun, by simp [none_], stop, by simp⟩
      · cases stop
    unfold greedy at found
    dsimp only at found
    split at found
    · rename_i accepted
      split at found
      · rename_i shorter longer
        obtain ⟨run, tail, more, split, all, enough, later, sum⟩ := ih longer
        cases found
        refine ⟨c :: run, tail, more, by rw [split]; rfl, ?_, by simp; omega, later, by simp; omega⟩
        intro d member
        rcases List.mem_cons.mp member with rfl | member
        · exact accepted
        · exact all d member
      · exact stopped found
    · exact stopped found

/-- A run that cannot go on is taken whole where what follows it then matches. -/
theorem greedy_whole {run rest : List Char} {least more : Nat} (all : ∀ c ∈ run, accepts c = true)
    (stops : ∀ c, rest.head? = some c → accepts c = false) (enough : least ≤ run.length)
    (later : next (after before run) rest = some more) :
    greedy accepts next least before (run ++ rest) = some (run.length + more) := by
  induction run generalizing least before with
  | nil =>
    obtain rfl : least = 0 := Nat.le_zero.mp enough
    cases rest with
    | nil => simpa [greedy] using later
    | cons c rest => simpa [greedy, stops c rfl] using later
  | cons c run ih =>
    have shorter : least - 1 ≤ run.length := by
      simp only [List.length_cons] at enough
      omega
    have onward : next (after (some c) run) rest = some more := later
    have longer := ih (fun d member => all d (List.mem_cons_of_mem _ member)) shorter onward
    simp only [List.cons_append, greedy, all c List.mem_cons_self, ↓reduceIte, longer,
      List.length_cons, Option.some.injEq]
    omega

theorem greedy_complete {run rest : List Char} {least more : Nat} (all : ∀ c ∈ run, accepts c = true)
    (enough : least ≤ run.length) (later : next (after before run) rest = some more) :
    ∃ length, greedy accepts next least before (run ++ rest) = some length := by
  have stop {least : Nat} {before : Option Char} {text : List Char} (zero : least = 0)
      (later : next before text = some more) :
      ∃ length, greedy accepts next least before text = some length := by
    subst zero
    cases text with
    | nil => exact ⟨more, by simpa [greedy] using later⟩
    | cons c text =>
      simp only [greedy, ↓reduceIte, later]
      split
      · split
        · exact ⟨_, rfl⟩
        · exact ⟨_, rfl⟩
      · exact ⟨_, rfl⟩
  induction run generalizing least before with
  | nil => exact stop (Nat.le_zero.mp enough) later
  | cons c run ih =>
    have shorter : least - 1 ≤ run.length := by
      simp only [List.length_cons] at enough
      omega
    have onward : next (after (some c) run) rest = some more := later
    obtain ⟨length, longer⟩ :=
      ih (fun d member => all d (List.mem_cons_of_mem _ member)) shorter onward
    exact ⟨length + 1, by simp [greedy, all c List.mem_cons_self, longer]⟩

/-- A match is a stretch that fits. -/
theorem matchLength_sound {length : Nat} (found : matchLength isWord pattern before text = some length) :
    ∃ front rest, text = front ++ rest ∧ front.length = length ∧ Fits isWord pattern before front rest := by
  induction pattern generalizing before text length with
  | nil =>
    cases found
    exact ⟨[], text, rfl, rfl, .nil _ _⟩
  | cons piece more ih =>
    cases piece with
    | one accepts =>
      cases text with
      | nil => cases found
      | cons c rest =>
        unfold matchLength at found
        split at found
        · rename_i accepted
          obtain ⟨shorter, later, rfl⟩ := Option.map_eq_some_iff.mp found
          obtain ⟨front, tail, split, rfl, fits⟩ := ih later
          exact ⟨c :: front, tail, by rw [split]; rfl, rfl, .one accepted fits⟩
        · cases found
    | many accepts least =>
      obtain ⟨run, rest, shorter, rfl, all, enough, later, rfl⟩ := greedy_sound found
      obtain ⟨front, tail, rfl, rfl, fits⟩ := ih later
      exact ⟨run ++ front, tail, (List.append_assoc ..).symm, List.length_append,
        .many all enough fits⟩
    | boundary =>
      unfold matchLength at found
      split at found
      · rename_i edge
        obtain ⟨front, tail, rfl, rfl, fits⟩ := ih found
        exact ⟨front, tail, rfl, rfl, .boundary edge fits⟩
      · cases found

/-- Where a stretch fits there is a match. -/
theorem matchLength_complete (fits : Fits isWord pattern before front back) :
    ∃ length, matchLength isWord pattern before (front ++ back) = some length := by
  induction fits with
  | nil => exact ⟨0, rfl⟩
  | one accepted _ ih =>
    obtain ⟨length, later⟩ := ih
    exact ⟨length + 1, by simp [matchLength, accepted, later]⟩
  | many all enough _ ih =>
    obtain ⟨length, later⟩ := ih
    rw [List.append_assoc]
    exact greedy_complete all enough later
  | boundary edge _ ih =>
    obtain ⟨length, later⟩ := ih
    exact ⟨length, by rw [matchLength, if_pos edge, later]⟩

/-! ## Substitution -/

/-- `re.sub` from a position on. The first argument counts the characters that
still belong to the match before. -/
def subFrom (isWord : Char → Bool) (pattern : List Piece) (replacement : List Char) :
    Nat → Option Char → List Char → List Char
  | _, _, [] => []
  | skip + 1, _, c :: rest => subFrom isWord pattern replacement skip (some c) rest
  | 0, before, c :: rest =>
    match matchLength isWord pattern before (c :: rest) with
    | some (length + 1) => replacement ++ subFrom isWord pattern replacement length (some c) rest
    | _ => c :: subFrom isWord pattern replacement 0 (some c) rest

/-- A pattern for whole words: it begins with a certain character at the
beginning of a word and ends at the edge of one, and so does what replaces it. -/
structure Sharp (isWord : Char → Bool) (pattern : List Piece) (replacement : List Char)
    (starts : Char → Bool) : Prop where
  first : ∀ {before front rest}, Fits isWord pattern before front rest →
    wordAt isWord before = false ∧ ∃ c tail, front = c :: tail ∧ starts c = true
  last : ∀ {before front rest}, Fits isWord pattern before front rest →
    wordAt isWord (after before front) ≠ wordAt isWord rest.head?
  word : ∀ c, starts c = true → isWord c = true
  begins : ∃ c tail, replacement = c :: tail ∧ starts c = true

variable {replacement : List Char} {starts : Char → Bool}

theorem subFrom_skip (skip : Nat) (before : Option Char) (text : List Char) :
    subFrom isWord pattern replacement skip before text =
      subFrom isWord pattern replacement 0 (after before (text.take skip)) (text.drop skip) := by
  induction skip generalizing before text with
  | zero => rfl
  | succ skip ih =>
    cases text with
    | nil => rfl
    | cons c rest => exact ih (some c) rest

theorem subFrom_match {front back : List Char} (filled : front ≠ [])
    (found : matchLength isWord pattern before (front ++ back) = some front.length) :
    subFrom isWord pattern replacement 0 before (front ++ back) =
      replacement ++ subFrom isWord pattern replacement 0 (after before front) back := by
  cases front with
  | nil => exact absurd rfl filled
  | cons c front =>
    rw [List.cons_append] at found ⊢
    rw [subFrom, found]
    dsimp only [List.length_cons]
    rw [subFrom_skip, List.take_left, List.drop_left]
    rfl

theorem subFrom_keep {c : Char} {rest : List Char}
    (unmatched : matchLength isWord pattern before (c :: rest) = none) :
    subFrom isWord pattern replacement 0 before (c :: rest) =
      c :: subFrom isWord pattern replacement 0 (some c) rest := by
  rw [subFrom, unmatched]

section
variable (sharp : Sharp isWord pattern replacement starts)
include sharp

/-- A text is nothing, a character that stays, or a match; so it goes on. -/
theorem sub_induction {motive : Option Char → List Char → Prop} (nil : ∀ before, motive before [])
    (keep : ∀ before c rest, matchLength isWord pattern before (c :: rest) = none →
      motive (some c) rest → motive before (c :: rest))
    (swap : ∀ before front back, front ≠ [] → Fits isWord pattern before front back →
      matchLength isWord pattern before (front ++ back) = some front.length →
      motive (after before front) back → motive before (front ++ back))
    (before : Option Char) (text : List Char) : motive before text := by
  induction size : text.length using Nat.strongRecOn generalizing before text with
  | _ size ih =>
    subst size
    cases text with
    | nil => exact nil before
    | cons c rest =>
      cases found : matchLength isWord pattern before (c :: rest) with
      | none => exact keep before c rest found (ih _ (by simp) _ _ rfl)
      | some length =>
        obtain ⟨front, back, split, rfl, fits⟩ := matchLength_sound found
        obtain ⟨-, d, tail, shape, -⟩ := sharp.first fits
        have filled : front ≠ [] := shape ▸ List.cons_ne_nil _ _
        have shorter : back.length < (c :: rest).length := by
          rw [split, shape, List.length_append, List.length_cons]
          omega
        rw [split] at found ⊢
        exact swap before front back filled fits found (ih _ shorter _ _ rfl)

theorem unmatched_of_word (word : wordAt isWord before = true) (text : List Char) :
    matchLength isWord pattern before text = none := by
  cases found : matchLength isWord pattern before text with
  | none => rfl
  | some length =>
    obtain ⟨front, rest, -, -, fits⟩ := matchLength_sound found
    exact absurd word (ne_true_of_eq_false (sharp.first fits).1)

theorem unmatched_of_quiet {c : Char} (quiet : starts c = false) (rest : List Char) :
    matchLength isWord pattern before (c :: rest) = none := by
  cases found : matchLength isWord pattern before (c :: rest) with
  | none => rfl
  | some length =>
    obtain ⟨front, back, split, -, fits⟩ := matchLength_sound found
    obtain ⟨-, d, tail, rfl, start⟩ := sharp.first fits
    obtain rfl := (List.cons.inj split).1
    exact absurd start (ne_true_of_eq_false quiet)

/-- What is left begins with the same character, or with a match and with what
replaces it. -/
theorem sub_head (before : Option Char) (text : List Char) :
    (subFrom isWord pattern replacement 0 before text).head? = text.head? ∨
      ∃ c d, text.head? = some c ∧ starts c = true ∧
        (subFrom isWord pattern replacement 0 before text).head? = some d ∧ starts d = true := by
  induction before, text using sub_induction sharp with
  | nil => exact .inl rfl
  | keep before c rest unmatched => exact .inl (by rw [subFrom_keep unmatched]; rfl)
  | swap before front back filled fits found =>
    obtain ⟨-, c, tail, shape, start⟩ := sharp.first fits
    obtain ⟨d, tail', shape', start'⟩ := sharp.begins
    exact .inr ⟨c, d, by rw [shape]; rfl, start, by rw [subFrom_match filled found, shape']; rfl, start'⟩

theorem sub_head_word (before : Option Char) (text : List Char) :
    wordAt isWord (subFrom isWord pattern replacement 0 before text).head? =
      wordAt isWord text.head? := by
  rcases sub_head sharp before text with same | ⟨c, d, first, start, first', start'⟩
  · rw [same]
  · rw [first, first']
    exact (sharp.word d start').trans (sharp.word c start).symm

/-- Characters at which no match begins stay, and come from themselves. -/
theorem sub_quiet {front : List Char} (quiet : ∀ c ∈ front, starts c = false) (before : Option Char)
    (text : List Char) :
    subFrom isWord pattern replacement 0 before (front ++ text) =
      front ++ subFrom isWord pattern replacement 0 (after before front) text := by
  induction front generalizing before with
  | nil => rfl
  | cons c front ih =>
    rw [List.cons_append, subFrom_keep (unmatched_of_quiet sharp (quiet c List.mem_cons_self) _),
      ih fun d member => quiet d (List.mem_cons_of_mem _ member)]
    rfl

theorem quiet_of_sub {front out : List Char} (quiet : ∀ c ∈ front, starts c = false)
    {before : Option Char} {text : List Char}
    (left : subFrom isWord pattern replacement 0 before text = front ++ out) :
    ∃ rest, text = front ++ rest ∧
      out = subFrom isWord pattern replacement 0 (after before front) rest := by
  induction front generalizing before text with
  | nil => exact ⟨text, rfl, left.symm⟩
  | cons d front ih =>
    have quietHead := quiet d List.mem_cons_self
    induction before, text using sub_induction sharp with
    | nil => cases left
    | keep before c rest unmatched =>
      rw [subFrom_keep unmatched] at left
      obtain ⟨rfl, later⟩ := List.cons.inj left
      obtain ⟨tail, rfl, same⟩ := ih (fun e member => quiet e (List.mem_cons_of_mem _ member)) later
      exact ⟨tail, rfl, same⟩
    | swap before taken back filled fits found =>
      rw [subFrom_match filled found] at left
      obtain ⟨e, tail, shape, start⟩ := sharp.begins
      rw [shape] at left
      obtain ⟨rfl, -⟩ := List.cons.inj left
      exact absurd start (ne_true_of_eq_false quietHead)

/-- Inside a word nothing is matched. -/
theorem sub_word {run : List Char} (word : ∀ c ∈ run, isWord c = true) {before : Option Char}
    (inside : wordAt isWord before = true) (text : List Char) :
    subFrom isWord pattern replacement 0 before (run ++ text) =
      run ++ subFrom isWord pattern replacement 0 (after before run) text := by
  induction run generalizing before with
  | nil => rfl
  | cons c run ih =>
    rw [List.cons_append, subFrom_keep (unmatched_of_word sharp inside _),
      ih (fun d member => word d (List.mem_cons_of_mem _ member))
        (show wordAt isWord (some c) = true from word c List.mem_cons_self)]
    rfl

theorem word_of_sub {run out : List Char} (word : ∀ c ∈ run, isWord c = true)
    {before : Option Char} (inside : wordAt isWord before = true) {text : List Char}
    (left : subFrom isWord pattern replacement 0 before text = run ++ out) :
    ∃ rest, text = run ++ rest ∧
      out = subFrom isWord pattern replacement 0 (after before run) rest := by
  induction run generalizing before text with
  | nil => exact ⟨text, rfl, left.symm⟩
  | cons d run ih =>
    cases text with
    | nil => cases left
    | cons c rest =>
      rw [subFrom_keep (unmatched_of_word sharp inside _)] at left
      obtain ⟨rfl, later⟩ := List.cons.inj left
      obtain ⟨tail, rfl, same⟩ :=
        ih (fun e member => word e (List.mem_cons_of_mem _ member))
          (show wordAt isWord (some c) = true from word c List.mem_cons_self) later
      exact ⟨tail, rfl, same⟩

/-- After a word character the text begins as it began. -/
theorem sub_head_inside {before : Option Char} (inside : wordAt isWord before = true)
    (text : List Char) :
    (subFrom isWord pattern replacement 0 before text).head? = text.head? := by
  cases text with
  | nil => rfl
  | cons c rest => rw [subFrom_keep (unmatched_of_word sharp inside _)]; rfl

end

/-! ## Places in a text -/

/-- Something is the case at a place of a text. -/
def Occurs (at_ : Option Char → List Char → Prop) (before : Option Char) (text : List Char) : Prop :=
  ∃ front back, text = front ++ back ∧ at_ (after before front) back

variable {at_ : Option Char → List Char → Prop}

theorem occurs_nil : Occurs at_ before [] ↔ at_ before [] := by
  constructor
  · rintro ⟨front, back, split, there⟩
    obtain ⟨rfl, rfl⟩ := List.append_eq_nil_iff.mp split.symm
    exact there
  · exact fun there => ⟨[], [], rfl, there⟩

theorem occurs_cons {c : Char} {rest : List Char} :
    Occurs at_ before (c :: rest) ↔ at_ before (c :: rest) ∨ Occurs at_ (some c) rest := by
  constructor
  · rintro ⟨front, back, split, there⟩
    cases front with
    | nil => exact .inl (split ▸ there)
    | cons d front =>
      obtain ⟨rfl, rfl⟩ := List.cons.inj split
      exact .inr ⟨front, back, rfl, there⟩
  · rintro (there | ⟨front, back, rfl, there⟩)
    · exact ⟨[], c :: rest, rfl, there⟩
    · exact ⟨c :: front, back, rfl, there⟩

theorem occurs_of_append (later : Occurs at_ (after before front) back) :
    Occurs at_ before (front ++ back) := by
  obtain ⟨one, other, rfl, there⟩ := later
  exact ⟨front ++ one, other, (List.append_assoc ..).symm, by rwa [after_append]⟩

/-- Where it cannot be the case at the characters of a stretch, it is the case
after it. -/
theorem occurs_append (never : ∀ c ∈ front, ∀ place rest, ¬at_ place (c :: rest)) :
    Occurs at_ before (front ++ back) ↔ Occurs at_ (after before front) back := by
  induction front generalizing before with
  | nil => exact Iff.rfl
  | cons c front ih =>
    rw [List.cons_append, occurs_cons, or_iff_right (never c List.mem_cons_self _ _),
      ih fun d member => never d (List.mem_cons_of_mem _ member)]
    rfl

/-- Where it cannot be the case after the characters of a stretch, either. -/
theorem occurs_append_inside (never : ∀ c ∈ front, ∀ rest, ¬at_ (some c) rest) {c : Char}
    (first : ∀ rest, ¬at_ (some c) rest) :
    Occurs at_ (some c) (front ++ back) ↔ Occurs at_ (after (some c) front) back := by
  induction front generalizing c with
  | nil => exact Iff.rfl
  | cons d front ih =>
    rw [List.cons_append, occurs_cons, or_iff_right (first _),
      ih (fun e member => never e (List.mem_cons_of_mem _ member)) (never d List.mem_cons_self)]
    rfl

/-- It is only the case at word characters. -/
def WordFirst (isWord : Char → Bool) (at_ : Option Char → List Char → Prop) : Prop :=
  ∀ place rest, at_ place rest → wordAt isWord rest.head? = true

/-- The character before makes no difference: it is the same, or no word begins. -/
def SamePlace (isWord : Char → Bool) (one other : Option Char) (text : List Char) : Prop :=
  one = other ∨ wordAt isWord text.head? = false

theorem at_samePlace (first : WordFirst isWord at_) {one other : Option Char}
    (same : SamePlace isWord one other text) : at_ one text ↔ at_ other text := by
  rcases same with rfl | bare
  · exact Iff.rfl
  · apply iff_of_false
    · exact fun there => absurd (first _ _ there) (ne_true_of_eq_false bare)
    · exact fun there => absurd (first _ _ there) (ne_true_of_eq_false bare)

/-- A pattern fits at a place. -/
def MatchAt (isWord : Char → Bool) (pattern : List Piece) (before : Option Char) (text : List Char) :
    Prop :=
  ∃ front back, text = front ++ back ∧ Fits isWord pattern before front back

theorem matchAt_iff : MatchAt isWord pattern before text ↔
    matchLength isWord pattern before text ≠ none := by
  constructor
  · rintro ⟨front, back, rfl, fits⟩ unmatched
    obtain ⟨length, found⟩ := matchLength_complete fits
    rw [found] at unmatched
    cases unmatched
  · intro found
    obtain ⟨length, found⟩ := Option.ne_none_iff_exists'.mp found
    obtain ⟨front, back, split, -, fits⟩ := matchLength_sound found
    exact ⟨front, back, split, fits⟩

theorem matchAt_first (sharp : Sharp isWord pattern replacement starts) :
    WordFirst isWord (MatchAt isWord pattern) := by
  rintro place _ ⟨front, back, rfl, fits⟩
  obtain ⟨-, c, tail, rfl, start⟩ := sharp.first fits
  exact sharp.word c start

theorem not_matchAt_start (sharp : Sharp isWord pattern replacement starts) {c : Char}
    (quiet : starts c = false) {rest : List Char} : ¬MatchAt isWord pattern before (c :: rest) :=
  fun there => matchAt_iff.mp there (unmatched_of_quiet sharp quiet rest)

/-- Of the character before, only whether it belongs to a word makes a difference. -/
theorem fits_edge {one other : Option Char} (same : wordAt isWord one = wordAt isWord other)
    (fits : Fits isWord pattern one front back) : Fits isWord pattern other front back := by
  induction fits generalizing other with
  | nil => exact .nil _ _
  | one accepted later => exact .one accepted later
  | @many _ _ _ _ run _ _ all enough later ih =>
    cases run with
    | nil => exact .many all enough (ih same)
    | cons c run => exact .many all enough later
  | boundary edge _ ih => exact .boundary (same ▸ edge) (ih same)

/-- The character before makes no difference to a match. -/
def SameEdge (isWord : Char → Bool) (one other : Option Char) (text : List Char) : Prop :=
  wordAt isWord one = wordAt isWord other ∨ wordAt isWord text.head? = false

theorem matchAt_edge (sharp : Sharp isWord pattern replacement starts) {one other : Option Char}
    (same : SameEdge isWord one other text) :
    MatchAt isWord pattern one text ↔ MatchAt isWord pattern other text := by
  rcases same with same | bare
  · constructor
    · rintro ⟨front, back, rfl, fits⟩
      exact ⟨front, back, rfl, fits_edge same fits⟩
    · rintro ⟨front, back, rfl, fits⟩
      exact ⟨front, back, rfl, fits_edge same.symm fits⟩
  · exact at_samePlace (matchAt_first sharp) (.inr bare)

/-- Where a match at a character that stays was one before, and none begins in
what is put in, the substitution leaves nothing that its pattern fits. -/
theorem sub_gone (sharp : Sharp isWord pattern replacement starts) {edge : Option Char}
    (kept : ∀ {before c rest},
      MatchAt isWord pattern before (c :: subFrom isWord pattern replacement 0 (some c) rest) →
        MatchAt isWord pattern before (c :: rest))
    (replaced : ∀ {before out}, Occurs (MatchAt isWord pattern) before (replacement ++ out) →
      Occurs (MatchAt isWord pattern) edge out)
    (behind : ∀ {before front back}, Fits isWord pattern before front back →
      SameEdge isWord (after before front) edge back) (before : Option Char) (text : List Char) :
    ∀ place, SameEdge isWord before place text →
      ¬Occurs (MatchAt isWord pattern) place (subFrom isWord pattern replacement 0 before text) := by
  induction before, text using sub_induction sharp with
  | nil before =>
    intro place _ left
    cases matchAt_first sharp _ _ (occurs_nil.mp left)
  | keep before c rest unmatched ih =>
    intro place same
    have there : SameEdge isWord before place
        (c :: subFrom isWord pattern replacement 0 (some c) rest) := same
    rw [subFrom_keep unmatched, occurs_cons, not_or, ← matchAt_edge sharp there]
    exact ⟨fun now => matchAt_iff.mp (kept now) unmatched, ih (some c) (.inl rfl)⟩
  | swap before front back filled fits found ih =>
    intro place _ left
    rw [subFrom_match filled found] at left
    exact ih edge (behind fits) (replaced left)

/-- A text without matches is left alone. -/
theorem sub_unmatched (none_ : ¬Occurs (MatchAt isWord pattern) before text) :
    subFrom isWord pattern replacement 0 before text = text := by
  induction text generalizing before with
  | nil => rfl
  | cons c rest ih =>
    rw [occurs_cons, not_or, matchAt_iff, not_not] at none_
    rw [subFrom_keep none_.1, ih none_.2]

end FcamGateway.Pattern
