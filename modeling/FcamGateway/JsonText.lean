import FcamGateway.Json
import Mathlib.Data.String.Basic

/-! The text `json.dumps` prints with sorted keys, compact separators and no
ASCII escapes. No text is the start of another value's text, so two values print
alike exactly when they agree up to the order of members. -/
namespace FcamGateway.JsonText

def hexDigit (n : Nat) : Char := "0123456789abcdef".toList.getD n '0'

/-- `ESCAPE_DCT`: the characters that are escaped within a string. -/
def escapeChar (c : Char) : List Char :=
  if c = '"' then ['\\', '"']
  else if c = '\\' then ['\\', '\\']
  else if c = '\n' then ['\\', 'n']
  else if c = '\r' then ['\\', 'r']
  else if c = '\t' then ['\\', 't']
  else if c.toNat = 8 then ['\\', 'b']
  else if c.toNat = 12 then ['\\', 'f']
  else if c.toNat < 32 then ['\\', 'u', '0', '0', hexDigit (c.toNat / 16), hexDigit (c.toNat % 16)]
  else [c]

def escape (text : List Char) : List Char := text.flatMap escapeChar

/-- `int.__repr__`. -/
def intText : Int → List Char
  | .ofNat n => Nat.toDigits 10 n
  | .negSucc n => '-' :: Nat.toDigits 10 (n + 1)

mutual

def encode : Json → List Char
  | .null => ['n', 'u', 'l', 'l']
  | .bool true => ['t', 'r', 'u', 'e']
  | .bool false => ['f', 'a', 'l', 's', 'e']
  | .int value => intText value
  | .float value => value.text
  | .str value => '"' :: (escape value.toList ++ ['"'])
  | .arr items => '[' :: encodeItems false items
  | .obj members => '{' :: encodeMembers false members

/-- Items up to the closing bracket; the flag says whether one came before. -/
def encodeItems : Bool → List Json → List Char
  | _, [] => [']']
  | comma, item :: rest => (if comma then [','] else []) ++ (encode item ++ encodeItems true rest)

def encodeMembers : Bool → List (String × Json) → List Char
  | _, [] => ['}']
  | comma, (name, value) :: rest =>
    (if comma then [','] else []) ++ ('"' :: (escape name.toList ++ '"' :: ':' ::
      (encode value ++ encodeMembers true rest)))

end

/-- Put a member in its place among sorted ones, unless its name is there. -/
def insertMember (name : String) (value : Json) : List (String × Json) → List (String × Json)
  | [] => [(name, value)]
  | (other, kept) :: rest =>
    if name < other then (name, value) :: (other, kept) :: rest
    else if name = other then (other, kept) :: rest
    else (other, kept) :: insertMember name value rest

mutual

/-- Objects with their members sorted by name; of a repeated name, the last
member counts. -/
def canonical : Json → Json
  | .arr items => .arr (canonicalItems items)
  | .obj members => .obj (canonicalMembers members)
  | .null => .null
  | .bool value => .bool value
  | .int value => .int value
  | .float value => .float value
  | .str value => .str value

def canonicalItems : List Json → List Json
  | [] => []
  | item :: rest => canonical item :: canonicalItems rest

def canonicalMembers : List (String × Json) → List (String × Json)
  | [] => []
  | (name, value) :: rest => insertMember name (canonical value) (canonicalMembers rest)

end

/-- `json.dumps(value, sort_keys=True, separators=(",", ":"), ensure_ascii=False)`. -/
def dumps (value : Json) : List Char := encode (canonical value)

example : String.ofList (dumps (.obj [("b", .arr [.int (-12), .null]), ("a", .str "x\n"),
    ("b", .bool true)])) = "\x7b\"a\":\"x\\n\",\"b\":true\x7d" := by decide +kernel

/-- A character of a printed number. -/
def numeric (c : Char) : Bool := floatChars.contains c

def marked (text : List Char) : Bool := text.any ['.', 'e', 'N', 'I'].contains

/-- What may follow a number: nothing that could go on with it. -/
def Ended (rest : List Char) : Prop := ∀ c ∈ rest.head?, numeric c = false

theorem takeWhile_ended {text rest : List Char} (all : ∀ c ∈ text, numeric c = true)
    (ended : Ended rest) : (text ++ rest).takeWhile numeric = text := by
  rw [List.takeWhile_append_of_pos all]
  cases rest with
  | nil => simp
  | cons c rest => simp [ended c rfl]

/-- Numbers of the same text are followed by the same. -/
theorem number_inj {one other r s : List Char} (all : ∀ c ∈ one, numeric c = true)
    (rest : ∀ c ∈ other, numeric c = true) (ended : Ended r) (stopped : Ended s)
    (same : one ++ r = other ++ s) : one = other ∧ r = s := by
  have text := congrArg (List.takeWhile numeric) same
  rw [takeWhile_ended all ended, takeWhile_ended rest stopped] at text
  subst text
  exact ⟨rfl, List.append_cancel_left same⟩

theorem intText_digits (value : Int) : ∀ c ∈ intText value, c.isDigit = true ∨ c = '-' := by
  have digits (n : Nat) : ∀ c ∈ Nat.toDigits 10 n, c.isDigit = true ∨ c = '-' :=
    fun c member => .inl (Nat.isDigit_of_mem_toDigits (by decide) (by decide) member)
  cases value with
  | ofNat n => exact digits n
  | negSucc n =>
    intro c member
    rcases List.mem_cons.mp member with rfl | member
    · exact .inr rfl
    · exact digits (n + 1) c member

/-- Digits and the minus sign print in numbers and do not mark a float. -/
private theorem digit_numeric {c : Char} (digit : c.isDigit = true ∨ c = '-') :
    numeric c = true ∧ ['.', 'e', 'N', 'I'].contains c = false := by
  rcases digit with digit | rfl
  · have bounds : 48 ≤ c.toNat ∧ c.toNat ≤ 57 := by
      simpa [Char.isDigit, UInt32.le_iff_toNat_le] using digit
    have shown : ∀ n : Nat, 48 ≤ n → n ≤ 57 → numeric (Char.ofNat n) = true ∧
        ['.', 'e', 'N', 'I'].contains (Char.ofNat n) = false := by decide
    have given := shown c.toNat bounds.1 bounds.2
    rwa [Char.ofNat_toNat] at given
  · decide

theorem toDigits_inj {one other : Nat} (same : Nat.toDigits 10 one = Nat.toDigits 10 other) :
    one = other := by
  have read := congrArg (fun text => Nat.ofDigitChars 10 text 0) same
  simpa using read

private theorem minus_not_digit {n : Nat} {rest : List Char} : Nat.toDigits 10 n ≠ '-' :: rest := by
  intro same
  have digit := Nat.isDigit_of_mem_toDigits (b := 10) (n := n) (c := '-') (by decide) (by decide)
    (same ▸ List.mem_cons_self)
  exact absurd digit (by decide)

theorem intText_inj {one other : Int} (same : intText one = intText other) : one = other := by
  cases one <;> cases other <;> simp only [intText] at same
  · exact congrArg Int.ofNat (toDigits_inj same)
  · exact absurd same minus_not_digit
  · exact absurd same.symm minus_not_digit
  · exact congrArg Int.negSucc (Nat.succ.inj (toDigits_inj (List.cons.inj same).2))

/-- Read one escaped character back. -/
def readChar : List Char → Option (Char × List Char)
  | '\\' :: 'u' :: '0' :: '0' :: high :: low :: rest =>
    some (Char.ofNat (16 * "0123456789abcdef".toList.idxOf high +
      "0123456789abcdef".toList.idxOf low), rest)
  | '\\' :: 'n' :: rest => some ('\n', rest)
  | '\\' :: 'r' :: rest => some ('\r', rest)
  | '\\' :: 't' :: rest => some ('\t', rest)
  | '\\' :: 'b' :: rest => some (Char.ofNat 8, rest)
  | '\\' :: 'f' :: rest => some (Char.ofNat 12, rest)
  | '\\' :: c :: rest => some (c, rest)
  | '"' :: _ => none
  | c :: rest => some (c, rest)
  | [] => none

private theorem hex_read : ∀ n : Nat, n < 32 → Char.ofNat (16 * "0123456789abcdef".toList.idxOf
    (hexDigit (n / 16)) + "0123456789abcdef".toList.idxOf (hexDigit (n % 16))) = Char.ofNat n := by
  decide

theorem readChar_escape (c : Char) (rest : List Char) :
    readChar (escapeChar c ++ rest) = some (c, rest) := by
  unfold escapeChar
  split
  · rename_i quote
    rw [quote]
    rfl
  split
  · rename_i slash
    rw [slash]
    rfl
  split
  · rename_i newline
    rw [newline]
    rfl
  split
  · rename_i back
    rw [back]
    rfl
  split
  · rename_i tab
    rw [tab]
    rfl
  split
  · rename_i code
    have same : c = Char.ofNat 8 := by rw [← code, Char.ofNat_toNat]
    rw [same]
    rfl
  split
  · rename_i code
    have same : c = Char.ofNat 12 := by rw [← code, Char.ofNat_toNat]
    rw [same]
    rfl
  split
  · rename_i low
    simp only [List.cons_append, List.nil_append, readChar, hex_read _ low, Char.ofNat_toNat]
  · rename_i quote slash _ _ _ _ _ _
    rw [List.singleton_append, readChar]
    all_goals simp_all

private theorem escape_cons (c : Char) (text rest : List Char) :
    escape (c :: text) ++ rest = escapeChar c ++ (escape text ++ rest) := by
  rw [escape, List.flatMap_cons, List.append_assoc]
  rfl

/-- A closing quote ends the text of a string. -/
theorem escape_inj {one other r s : List Char}
    (same : escape one ++ '"' :: r = escape other ++ '"' :: s) : one = other ∧ r = s := by
  induction one generalizing other with
  | nil =>
    cases other with
    | nil => simpa [escape] using same
    | cons d other =>
      have read := congrArg readChar same
      rw [escape_cons, readChar_escape] at read
      cases read
  | cons c one ih =>
    have read := congrArg readChar same
    rw [escape_cons, readChar_escape] at read
    cases other with
    | nil => cases read
    | cons d other =>
      rw [escape_cons, readChar_escape] at read
      obtain ⟨rfl, later⟩ := Prod.mk.inj (Option.some.inj read)
      obtain ⟨rfl, rest⟩ := ih later
      exact ⟨rfl, rest⟩

/-- The kind of value a printed text starts with. -/
def shape (text : List Char) : Char :=
  if marked (text.takeWhile numeric) then 'f'
  else match text.head? with
    | some 'n' => 'n'
    | some 't' => 'b'
    | some 'f' => 'b'
    | some '"' => 's'
    | some '[' => 'a'
    | some '\x7b' => 'o'
    | _ => 'i'

def shapeOf : Json → Char
  | .null => 'n'
  | .bool _ => 'b'
  | .int _ => 'i'
  | .float _ => 'f'
  | .str _ => 's'
  | .arr _ => 'a'
  | .obj _ => 'o'

private theorem all_numeric (value : FloatText) : ∀ c ∈ value.text, numeric c = true := by
  intro c member
  exact List.all_eq_true.mp value.floating c member

theorem shape_encode (value : Json) {rest : List Char} (ended : Ended rest) :
    shape (encode value ++ rest) = shapeOf value := by
  have stops : numeric 'n' = true ∧ numeric 'u' = false ∧ numeric 't' = true ∧
      numeric 'r' = false ∧ numeric 'f' = true ∧ numeric 'a' = true ∧ numeric 'l' = false ∧
      numeric '"' = false ∧ numeric '[' = false ∧ numeric '\x7b' = false := by decide
  have plain : marked [] = false ∧ marked ['n'] = false ∧ marked ['t'] = false ∧
      marked ['f', 'a'] = false := by decide
  cases value with
  | null => simp [shape, encode, shapeOf, stops, plain]
  | bool value => cases value <;> simp [shape, encode, shapeOf, stops, plain]
  | int value =>
    have digits := intText_digits value
    have unmarked : marked (intText value) = false := by
      simp only [marked, List.any_eq_false]
      exact fun c member => by simpa using (digit_numeric (digits c member)).2
    simp only [shape, encode, takeWhile_ended (fun c member => (digit_numeric (digits c member)).1)
      ended, unmarked, shapeOf, Bool.false_eq_true, if_false]
    cases text : intText value with
    | nil => cases value <;> simp [intText, Nat.toDigits_ne_nil] at text
    | cons c more =>
      have digit := digits c (text ▸ List.mem_cons_self)
      simp only [List.cons_append, List.head?_cons]
      split <;> rename_i letter <;> first
        | rfl
        | (cases letter
           exact absurd digit (by decide))
  | float value =>
    simp only [shape, encode, takeWhile_ended (all_numeric value) ended, shapeOf]
    rw [if_pos]
    exact value.marked
  | str value => simp [shape, encode, shapeOf, stops, plain]
  | arr items => simp [shape, encode, shapeOf, stops, plain]
  | obj members => simp [shape, encode, shapeOf, stops, plain]

private theorem ended_items (items : List Json) (rest : List Char) :
    Ended (encodeItems true items ++ rest) := by
  cases items <;> rintro _ ⟨⟩ <;> decide

private theorem ended_members (members : List (String × Json)) (rest : List Char) :
    Ended (encodeMembers true members ++ rest) := by
  cases members <;> rintro _ ⟨⟩ <;> decide

/-- No value prints a closing bracket or brace first. -/
private theorem encode_opens (value : Json) :
    ∃ c text, encode value = c :: text ∧ c ≠ ']' ∧ c ≠ '\x7d' := by
  have opened {c : Char} (shown : numeric c = true) : c ≠ ']' ∧ c ≠ '\x7d' := by
    constructor <;> rintro rfl <;> exact absurd shown (by decide)
  cases value with
  | null => exact ⟨_, _, rfl, by decide, by decide⟩
  | bool value => cases value <;> exact ⟨_, _, rfl, by decide, by decide⟩
  | int value =>
    cases text : intText value with
    | nil => cases value <;> simp [intText, Nat.toDigits_ne_nil] at text
    | cons c more =>
      have digit := intText_digits value c (text ▸ List.mem_cons_self)
      exact ⟨c, more, text, opened (digit_numeric digit).1⟩
  | float value =>
    cases text : value.text with
    | nil => simpa [text] using value.marked
    | cons c more =>
      exact ⟨c, more, text, opened (all_numeric value c (text ▸ List.mem_cons_self))⟩
  | str value => exact ⟨_, _, rfl, by decide, by decide⟩
  | arr items => exact ⟨_, _, rfl, by decide, by decide⟩
  | obj members => exact ⟨_, _, rfl, by decide, by decide⟩

private theorem items_open (comma : Bool) (item : Json) (items : List Json) {r s : List Char} :
    encodeItems comma (item :: items) ++ r ≠ ']' :: s := by
  intro same
  obtain ⟨c, text, starts, stop, _⟩ := encode_opens item
  cases comma <;> simp only [encodeItems, starts] at same
  · exact stop (List.cons.inj same).1
  · exact absurd (List.cons.inj same).1 (by decide)

private theorem members_open (comma : Bool) (member : String × Json)
    (members : List (String × Json)) {r s : List Char} :
    encodeMembers comma (member :: members) ++ r ≠ '\x7d' :: s := by
  intro same
  cases comma <;> simp only [encodeMembers] at same <;>
    exact absurd (List.cons.inj same).1 (by decide)

mutual

theorem encode_inj : ∀ (one other : Json) {r s : List Char}, Ended r → Ended s →
    encode one ++ r = encode other ++ s → one = other ∧ r = s := by
  intro one other r s ended stopped same
  have shapes := congrArg shape same
  rw [shape_encode one ended, shape_encode other stopped] at shapes
  cases one <;> cases other <;> simp only [shapeOf, Char.reduceEq] at shapes
  case null.null => exact ⟨rfl, List.append_cancel_left same⟩
  case bool.bool a b =>
    cases a <;> cases b <;> simp_all [encode]
  case int.int a b =>
    obtain ⟨text, rest⟩ := number_inj (fun c member => (digit_numeric (intText_digits a c member)).1)
      (fun c member => (digit_numeric (intText_digits b c member)).1) ended stopped same
    exact ⟨congrArg Json.int (intText_inj text), rest⟩
  case float.float a b =>
    obtain ⟨text, rest⟩ := number_inj (all_numeric a) (all_numeric b) ended stopped same
    cases a
    cases b
    cases text
    exact ⟨rfl, rest⟩
  case str.str a b =>
    simp only [encode, List.cons_append, List.append_assoc, List.cons.injEq, true_and,
      List.nil_append] at same
    obtain ⟨text, rest⟩ := escape_inj same
    exact ⟨congrArg Json.str (String.toList_injective text), rest⟩
  case arr.arr a b =>
    obtain ⟨rfl, rest⟩ := encodeItems_inj false a b (List.cons.inj same).2
    exact ⟨rfl, rest⟩
  case obj.obj a b =>
    obtain ⟨rfl, rest⟩ := encodeMembers_inj false a b (List.cons.inj same).2
    exact ⟨rfl, rest⟩

theorem encodeItems_inj : ∀ (comma : Bool) (one other : List Json) {r s : List Char},
    encodeItems comma one ++ r = encodeItems comma other ++ s → one = other ∧ r = s := by
  intro comma one other r s same
  cases one with
  | nil =>
    cases other with
    | nil => exact ⟨rfl, (List.cons.inj same).2⟩
    | cons item items => exact absurd same.symm (items_open comma item items)
  | cons first rest =>
    cases other with
    | nil => exact absurd same (items_open comma first rest)
    | cons item items =>
      simp only [encodeItems, List.append_assoc, List.append_cancel_left_eq] at same
      obtain ⟨rfl, later⟩ := encode_inj first item (ended_items _ _) (ended_items _ _) same
      obtain ⟨rfl, tail⟩ := encodeItems_inj true rest items later
      exact ⟨rfl, tail⟩

theorem encodeMembers_inj : ∀ (comma : Bool) (one other : List (String × Json)) {r s : List Char},
    encodeMembers comma one ++ r = encodeMembers comma other ++ s → one = other ∧ r = s := by
  intro comma one other r s same
  cases one with
  | nil =>
    cases other with
    | nil => exact ⟨rfl, (List.cons.inj same).2⟩
    | cons member members => exact absurd same.symm (members_open comma member members)
  | cons first rest =>
    cases other with
    | nil => exact absurd same (members_open comma first rest)
    | cons member members =>
      obtain ⟨name, value⟩ := first
      obtain ⟨label, given⟩ := member
      simp only [encodeMembers, List.append_assoc, List.append_cancel_left_eq, List.cons_append,
        List.cons.injEq, true_and] at same
      obtain ⟨text, later⟩ := escape_inj same
      simp only [List.cons.injEq, true_and] at later
      obtain ⟨rfl, beyond⟩ := encode_inj value given (ended_members _ _) (ended_members _ _) later
      obtain ⟨rfl, tail⟩ := encodeMembers_inj true rest members beyond
      obtain rfl := String.toList_injective text
      exact ⟨rfl, tail⟩

end

/-- Two values print alike exactly when they agree up to the order of members. -/
theorem dumps_inj {one other : Json} : dumps one = dumps other ↔ canonical one = canonical other := by
  refine ⟨fun same => ?_, fun same => congrArg encode same⟩
  have ended : Ended [] := nofun
  exact (encode_inj _ _ ended ended (by simpa [dumps] using same)).1

end FcamGateway.JsonText
