import Mathlib.Data.List.Infix
import Mathlib.Algebra.Group.Nat.Defs

/-! The string operations of the source language that the gateway decides by:
stripping, lower-casing, UTF-8 decoding with replacement and reading a decimal
integer. They follow the language's documented behaviour. -/
namespace FcamGateway.PyText

/-- `str.isspace` of one character. -/
def isSpace (c : Char) : Bool :=
  let n := c.toNat
  (9 ≤ n && n ≤ 13) || (28 ≤ n && n ≤ 32) || n == 0x85 || n == 0xA0 || n == 0x1680 ||
    (0x2000 ≤ n && n ≤ 0x200A) || n == 0x2028 || n == 0x2029 || n == 0x202F || n == 0x205F ||
    n == 0x3000

def dropSpaces (text : List Char) : List Char := text.dropWhile isSpace

/-- `str.strip`. -/
def stripChars (text : List Char) : List Char := (dropSpaces (dropSpaces text).reverse).reverse

def strip (text : String) : String := String.ofList (stripChars text.toList)

/-- `str.lower` of one character, exact wherever the result holds an ASCII
character. Only two characters outside ASCII have such a result; every other
one is left as it stands, since its lower case cannot complete an ASCII word. -/
def lowerChar (c : Char) : List Char :=
  if c.toNat = 0x130 then ['i', Char.ofNat 0x307]
  else if c.toNat = 0x212A then ['k']
  else [c.toLower]

def lowerChars (text : List Char) : List Char := text.flatMap lowerChar

def lower (text : String) : String := String.ofList (lowerChars text.toList)

/-- Zeros of the Unicode decimal digit blocks. The nine digits after each zero
follow it. -/
def digitZeros : List Nat :=
  [0x30, 0x660, 0x6F0, 0x7C0, 0x966, 0x9E6, 0xA66, 0xAE6, 0xB66, 0xBE6, 0xC66, 0xCE6, 0xD66,
   0xDE6, 0xE50, 0xED0, 0xF20, 0x1040, 0x1090, 0x17E0, 0x1810, 0x1946, 0x19D0, 0x1A80, 0x1A90,
   0x1B50, 0x1BB0, 0x1C40, 0x1C50, 0xA620, 0xA8D0, 0xA900, 0xA9D0, 0xA9F0, 0xAA50, 0xABF0,
   0xFF10, 0x104A0, 0x10D30, 0x11066, 0x110F0, 0x11136, 0x111D0, 0x112F0, 0x11450, 0x114D0,
   0x11650, 0x116C0, 0x11730, 0x118E0, 0x11950, 0x11C50, 0x11D50, 0x11DA0, 0x16A60, 0x16AC0,
   0x16B50, 0x1D7CE, 0x1D7D8, 0x1D7E2, 0x1D7EC, 0x1D7F6, 0x1E140, 0x1E2F0, 0x1E950, 0x1FBF0]

def digitValue (c : Char) : Option Nat :=
  (digitZeros.find? fun first => first ≤ c.toNat && c.toNat ≤ first + 9).map (c.toNat - ·)

/-- Digits of an integer literal, with single underscores between digits. The
flag says whether the character before was a digit. -/
def readDigits : Bool → List Char → Option (List Nat)
  | afterDigit, [] => if afterDigit then some [] else none
  | afterDigit, '_' :: rest => if afterDigit then readDigits false rest else none
  | _, c :: rest =>
    match digitValue c with
    | some digit => (readDigits true rest).map (digit :: ·)
    | none => none

/-- Longest digit string `int` converts. -/
def maxStrDigits : Nat := 4300

def readNat (text : List Char) : Option Nat :=
  match readDigits false text with
  | some digits =>
    if digits.length ≤ maxStrDigits then some (digits.foldl (fun value digit => 10 * value + digit) 0)
    else none
  | none => none

/-- `int` of a string; `none` is the `ValueError`. -/
def readInt (text : String) : Option Int :=
  match stripChars text.toList with
  | '-' :: rest => (readNat rest).map fun n => -(n : Int)
  | '+' :: rest => (readNat rest).map fun n => (n : Int)
  | rest => (readNat rest).map fun n => (n : Int)

def replacement : Char := Char.ofNat 0xFFFD

def isTail (byte : UInt8) : Bool := 0x80 ≤ byte && byte ≤ 0xBF

/-- Bounds of the byte after a three or four byte lead. -/
def secondOk (lead second : UInt8) : Bool :=
  if lead == 0xE0 then 0xA0 ≤ second && second ≤ 0xBF
  else if lead == 0xED then 0x80 ≤ second && second ≤ 0x9F
  else if lead == 0xF0 then 0x90 ≤ second && second ≤ 0xBF
  else if lead == 0xF4 then 0x80 ≤ second && second ≤ 0x8F
  else isTail second

def lowBits (byte : UInt8) (bits : Nat) : Nat := byte.toNat % 2 ^ bits

/-- One character of a UTF-8 text and the number of tail bytes it takes. A
malformed sequence becomes one replacement character for its longest valid
start. -/
def decodeOne (lead : UInt8) (rest : List UInt8) : Char × Nat :=
  if lead < 0x80 then (Char.ofNat lead.toNat, 0)
  else if 0xC2 ≤ lead && lead ≤ 0xDF then
    match rest with
    | b :: _ => if isTail b then (Char.ofNat (lowBits lead 5 * 64 + lowBits b 6), 1)
      else (replacement, 0)
    | [] => (replacement, 0)
  else if 0xE0 ≤ lead && lead ≤ 0xEF then
    match rest with
    | b :: c :: _ =>
      if !secondOk lead b then (replacement, 0)
      else if !isTail c then (replacement, 1)
      else (Char.ofNat (lowBits lead 4 * 4096 + lowBits b 6 * 64 + lowBits c 6), 2)
    | [b] => if secondOk lead b then (replacement, 1) else (replacement, 0)
    | [] => (replacement, 0)
  else if 0xF0 ≤ lead && lead ≤ 0xF4 then
    match rest with
    | b :: c :: d :: _ =>
      if !secondOk lead b then (replacement, 0)
      else if !isTail c then (replacement, 1)
      else if !isTail d then (replacement, 2)
      else (Char.ofNat (lowBits lead 3 * 262144 + lowBits b 6 * 4096 + lowBits c 6 * 64 +
        lowBits d 6), 3)
    | [b, c] => if !secondOk lead b then (replacement, 0)
      else if isTail c then (replacement, 2) else (replacement, 1)
    | [b] => if secondOk lead b then (replacement, 1) else (replacement, 0)
    | [] => (replacement, 0)
  else (replacement, 0)

def decodeFrom : Nat → List UInt8 → List Char
  | _, [] => []
  | taken + 1, _ :: rest => decodeFrom taken rest
  | 0, lead :: rest => (decodeOne lead rest).1 :: decodeFrom (decodeOne lead rest).2 rest

/-- `bytes.decode("utf-8", errors="replace")`. -/
def decodeReplace (bytes : List UInt8) : List Char := decodeFrom 0 bytes

/-- `marker in text`. -/
def contains (text : List Char) (marker : String) : Bool := decide (marker.toList <:+: text)

example : readInt " 1_000 " = some 1000 ∧ readInt "1__0" = none ∧ readInt "-7" = some (-7) := by
  decide

example : decodeReplace [0x41, 0xE2, 0x84, 0xAA, 0xE2, 0x84, 0x42] =
    ['A', Char.ofNat 0x212A, replacement, 'B'] := by
  decide

end FcamGateway.PyText
