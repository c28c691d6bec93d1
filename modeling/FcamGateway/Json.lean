import FcamGateway.PyText

/-! JSON values as the source language holds them after parsing. A float is
carried by its shortest text that reads back as the same float, which is what
the encoder prints; an object is its list of members. -/
namespace FcamGateway

def floatChars : List Char :=
  ['0', '1', '2', '3', '4', '5', '6', '7', '8', '9', '+', '-', '.', 'e', 'N', 'a', 'I', 'n', 'f',
   'i', 't', 'y']

/-- The printed form of a float. The mark keeps it apart from every integer. -/
structure FloatText where
  text : List Char
  floating : text.all floatChars.contains = true
  marked : text.any ['.', 'e', 'N', 'I'].contains = true
deriving DecidableEq

inductive Json where
  | null
  | bool (value : Bool)
  | int (value : Int)
  | float (value : FloatText)
  | str (value : String)
  | arr (items : List Json)
  | obj (members : List (String × Json))

/-- A value is a leaf, or made of the values in it; so it goes on. -/
@[elab_as_elim]
theorem Json.induction {motive : Json → Prop} (null : motive .null)
    (bool : ∀ value, motive (.bool value)) (int : ∀ value, motive (.int value))
    (float : ∀ value, motive (.float value)) (str : ∀ text, motive (.str text))
    (arr : ∀ items, (∀ item ∈ items, motive item) → motive (.arr items))
    (obj : ∀ members : List (String × Json), (∀ member ∈ members, motive member.2) →
      motive (.obj members)) (value : Json) : motive value := by
  apply @Json.rec motive (fun items => ∀ item ∈ items, motive item)
    (fun members => ∀ member ∈ members, motive member.2) (fun member => motive member.2)
    null bool int float str arr obj
  · exact nofun
  · exact fun _ _ head tail => List.forall_mem_cons.mpr ⟨head, tail⟩
  · exact nofun
  · exact fun _ _ head tail => List.forall_mem_cons.mpr ⟨head, tail⟩
  · exact fun _ _ inner => inner

/-- Round to the nearest multiple of `2 ^ shift`, ties to even. -/
def roundTo (value shift : Nat) : Nat :=
  let quotient := value / 2 ^ shift
  let rest := value % 2 ^ shift
  let up := 2 ^ shift < 2 * rest ∨ (2 * rest = 2 ^ shift ∧ quotient % 2 = 1)
  (if up then quotient + 1 else quotient) * 2 ^ shift

namespace FloatText

/-- Magnitude of a finite float cut off at the decimal point. Below the first
exponent form every integer is a float, so the digits before the point are
exact; above it the float is the nearest one to the digits printed. -/
def magnitude (text : List Char) : Option Nat :=
  let mantissa := text.takeWhile (· != 'e')
  let whole := mantissa.takeWhile (· != '.')
  let fraction := (mantissa.dropWhile (· != '.')).drop 1
  match text.dropWhile (· != 'e') with
  | [] => PyText.readNat whole
  | _ :: '-' :: _ => some 0
  | _ :: exponent =>
    match PyText.readNat (whole ++ fraction), PyText.readInt (String.ofList exponent) with
    | some digits, some power =>
      let value := digits * 10 ^ (power.toNat - fraction.length)
      some (roundTo value (value.log2 + 1 - 53))
    | _, _ => none

/-- `int` of a float; `none` for infinities and for what is not a number. -/
def truncated (value : FloatText) : Option Int :=
  match value.text with
  | '-' :: rest => (magnitude rest).map fun n => -(n : Int)
  | rest => (magnitude rest).map fun n => (n : Int)

/-- A float that is zero prints only zeros. -/
def isZero (value : FloatText) : Bool :=
  value.text.all fun c => c == '0' || c == '.' || c == '-'

end FloatText

namespace Json

/-- `dict.get` of a parsed object. A repeated name keeps the last value. -/
def get? (members : List (String × Json)) (name : String) : Option Json :=
  (members.reverse.find? fun member => member.1 == name).map Prod.snd

/-- Truth value of a parsed value. -/
def truthy : Json → Bool
  | null => false
  | bool value => value
  | int value => value != 0
  | float value => !value.isZero
  | str value => value != ""
  | arr items => !items.isEmpty
  | obj members => !members.isEmpty

/-- `int` of a parsed value; `none` is an exception. -/
def toInt? : Json → Option Int
  | bool value => some (if value then 1 else 0)
  | int value => some value
  | float value => value.truncated
  | str value => PyText.readInt value
  | _ => none

end Json

private def printed (text : String) (floating : text.toList.all floatChars.contains = true)
    (marked : text.toList.any ['.', 'e', 'N', 'I'].contains = true) : FloatText :=
  ⟨text.toList, floating, marked⟩

example : (printed "1e+23" (by decide) (by decide)).truncated = some 99999999999999991611392 := by
  decide

example : (printed "-2.75" (by decide) (by decide)).truncated = some (-2) ∧
    (printed "Infinity" (by decide) (by decide)).truncated = none := by
  decide

end FcamGateway
