import FcamGateway.Json
import FcamGateway.Pattern

/-! Redaction of logged values: bearer tokens and Firecrawl keys in text, and
the values under sensitive keys, at any depth. -/
namespace FcamGateway.Redact
open Pattern

/-- The letters outside ASCII that `[a-z]` accepts where case is ignored. -/
def foldedLetters : List Char :=
  [Char.ofNat 0x130, Char.ofNat 0x131, Char.ofNat 0x17F, Char.ofNat 0x212A]

/-- The letters and digits of the language, and its lower case. -/
structure Letters where
  isAlnum : Char → Bool
  lower : String → String
  ascii : ∀ c : Char, c.toNat < 128 → isAlnum c = c.isAlphanum
  folded : ∀ c ∈ foldedLetters, isAlnum c = true
  space : ∀ c, PyText.isSpace c = true → isAlnum c = false

/-- `\\w`. -/
def Letters.isWord (letters : Letters) (c : Char) : Bool := letters.isAlnum c || c == '_'

def redactedMark : List Char := "[REDACTED]".toList

/-- One letter in either case. -/
def ignoringCase (letter c : Char) : Bool := c.toLower == letter

/-- `[a-z0-9._\\-~+/]`, ignoring case. -/
def isTokenLetter (c : Char) : Bool :=
  c.isAlphanum || "._-~+/".toList.contains c || foldedLetters.contains c

/-- `(?i)\\bbearer\\s+[a-z0-9._\\-~+/]+=*\\b`. -/
def bearerRe : List Piece :=
  [.boundary, .one (ignoringCase 'b'), .one (ignoringCase 'e'), .one (ignoringCase 'a'),
    .one (ignoringCase 'r'), .one (ignoringCase 'e'), .one (ignoringCase 'r'),
    .many PyText.isSpace 1, .many isTokenLetter 1, .many (· == '=') 0, .boundary]

/-- `\\bfc-[A-Za-z0-9]{8,}\\b`. -/
def firecrawlKeyRe : List Piece :=
  [.boundary, .one (· == 'f'), .one (· == 'c'), .one (· == '-'), .many Char.isAlphanum 8, .boundary]

variable (letters : Letters)

/-- `re.sub` of a whole text. -/
def sub (pattern : List Piece) (replacement text : List Char) : List Char :=
  subFrom letters.isWord pattern replacement 0 none text

def redactText (text : List Char) : List Char :=
  let redacted := sub letters bearerRe ("Bearer ".toList ++ redactedMark) text
  sub letters firecrawlKeyRe ("fc-".toList ++ redactedMark) redacted

variable (sensitiveKeys : List String)

mutual

def redactData : Json → Json
  | .obj members => .obj (redactMembers members)
  | .arr items => .arr (redactItems items)
  | .str text => .str (String.ofList (redactText letters text.toList))
  | value => value

def redactItems : List Json → List Json
  | [] => []
  | item :: items => redactData item :: redactItems items

def redactMembers : List (String × Json) → List (String × Json)
  | [] => []
  | (key, value) :: members =>
    (key,
      if letters.lower key ∈ sensitiveKeys then .str (String.ofList redactedMark)
      else redactData value) :: redactMembers members

end

/-! ## What redaction is for -/

/-- The characters of a token. -/
def tokenChar (c : Char) : Bool := letters.isWord c || "._-~+/=".toList.contains c

/-- The marker stands here, and not as the beginning of a longer token. -/
def Marked (text : List Char) : Prop :=
  ∃ rest, text = redactedMark ++ rest ∧ ∀ c, rest.head? = some c → tokenChar letters c = false

/-- The word `bearer` begins here, and after white space the rest. -/
def BearerWord (before : Option Char) (text rest : List Char) : Prop :=
  wordAt letters.isWord before = false ∧
    ∃ word gap, text = word ++ gap ++ rest ∧ word.map Char.toLower = "bearer".toList ∧
      gap ≠ [] ∧ ∀ c ∈ gap, PyText.isSpace c = true

/-- The word `bearer` and white space, and then something else than the marker. -/
def Exposed (before : Option Char) (text : List Char) : Prop :=
  ∃ rest, BearerWord letters before text rest ∧
    (∃ c, rest.head? = some c ∧ PyText.isSpace c = false) ∧ ¬Marked letters rest

/-- `fc-` and at least eight letters or digits, as many as there are. -/
def KeyToken (text run rest : List Char) : Prop :=
  text = "fc-".toList ++ run ++ rest ∧ 8 ≤ run.length ∧ (∀ c ∈ run, c.isAlphanum = true) ∧
    ∀ c, rest.head? = some c → c.isAlphanum = false

/-- A key that no letter or digit continues begins here. -/
def HoldsKey (before : Option Char) (text : List Char) : Prop :=
  before.any Char.isAlphanum = false ∧ ∃ run rest, KeyToken text run rest

/-- A text without secrets. -/
def Clean (text : List Char) : Prop :=
  ∀ front back, text = front ++ back →
    ¬Exposed letters (after none front) back ∧ ¬HoldsKey (after none front) back

/-- A key is sensitive in the spelling of the set and in every case of it. -/
def Sensitive (key : String) : Prop := key ∈ sensitiveKeys ∨ letters.lower key ∈ sensitiveKeys

/-- No secret in any string and in any key, and the marker under every
sensitive key. -/
inductive Safe : Json → Prop where
  | null : Safe .null
  | bool (value : Bool) : Safe (.bool value)
  | int (value : Int) : Safe (.int value)
  | float (value : FloatText) : Safe (.float value)
  | str (text : String) (clean : Clean letters text.toList) : Safe (.str text)
  | arr (items : List Json) (each : ∀ item ∈ items, Safe item) : Safe (.arr items)
  | obj (members : List (String × Json))
      (keys : ∀ member ∈ members, Clean letters member.1.toList)
      (marked : ∀ member ∈ members, Sensitive letters sensitiveKeys member.1 →
        member.2 = .str (String.ofList redactedMark))
      (each : ∀ member ∈ members, Safe member.2) : Safe (.obj members)

/-- Redaction is complete and idempotent on a value. -/
def Redacts (value : Json) : Prop :=
  Safe letters sensitiveKeys (redactData letters sensitiveKeys value) ∧
    redactData letters sensitiveKeys (redactData letters sensitiveKeys value) =
      redactData letters sensitiveKeys value

end FcamGateway.Redact
