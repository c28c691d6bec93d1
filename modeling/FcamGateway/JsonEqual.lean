import FcamGateway.JsonText
import Mathlib.Data.List.Nodup
import Mathlib.Algebra.Field.Rat

/-! JSON values up to the order of the members of their objects, and the sorted values that stand
for them. What counts as the same number is left open. -/
namespace FcamGateway.JsonText

/-- No object in the value has a name twice. -/
inductive Distinct : Json → Prop where
  | null : Distinct .null
  | bool (value : Bool) : Distinct (.bool value)
  | int (value : Int) : Distinct (.int value)
  | float (value : FloatText) : Distinct (.float value)
  | str (text : String) : Distinct (.str text)
  | arr {items : List Json} (all : ∀ item ∈ items, Distinct item) : Distinct (.arr items)
  | obj {members : List (String × Json)} (names : (members.map Prod.fst).Nodup)
      (all : ∀ member ∈ members, Distinct member.2) : Distinct (.obj members)

def isNumber : Json → Bool
  | .int _ => true
  | .float _ => true
  | _ => false

/-- Equality up to the order of members: two objects are equal where they have the same names and,
under each name, equal values. -/
inductive SameValue (agree : Json → Json → Prop) : Json → Json → Prop where
  | null : SameValue agree .null .null
  | bool (value : Bool) : SameValue agree (.bool value) (.bool value)
  | str (text : String) : SameValue agree (.str text) (.str text)
  | number {one other : Json} (first : isNumber one = true) (second : isNumber other = true)
      (agreed : agree one other) : SameValue agree one other
  | arr {items others : List Json} (long : items.length = others.length)
      (each : ∀ pair ∈ items.zip others, SameValue agree pair.1 pair.2) :
      SameValue agree (.arr items) (.arr others)
  | obj {members others : List (String × Json)}
      (names : (members.map Prod.fst).Perm (others.map Prod.fst))
      (each : ∀ name value given, (name, value) ∈ members → (name, given) ∈ others →
        SameValue agree value given) :
      SameValue agree (.obj members) (.obj others)

variable {members others : List (String × Json)} {items : List Json} {name : String}
  {one other value : Json}

theorem canonicalItems_eq (items : List Json) : canonicalItems items = items.map canonical := by
  induction items with
  | nil => rfl
  | cons item items ih => rw [canonicalItems, ih, List.map_cons]

theorem insertMember_perm (fresh : name ∉ members.map Prod.fst) :
    (insertMember name value members).Perm ((name, value) :: members) := by
  induction members with
  | nil => exact .refl _
  | cons member members ih =>
    obtain ⟨other, kept⟩ := member
    rw [List.map_cons, List.mem_cons, not_or] at fresh
    rw [insertMember, if_neg fresh.1]
    split
    · exact .refl _
    · exact ((ih fresh.2).cons _).trans (.swap ..)

/-- The sorted members are those of the object, each with its sorted value. -/
theorem canonicalMembers_perm (distinct : (members.map Prod.fst).Nodup) :
    (canonicalMembers members).Perm (members.map fun member => (member.1, canonical member.2)) := by
  induction members with
  | nil => exact .refl _
  | cons member members ih =>
    obtain ⟨fresh, rest⟩ := List.nodup_cons.mp distinct
    have sorted := ih rest
    have names : (canonicalMembers members).map Prod.fst |>.Perm (members.map Prod.fst) := by
      simpa [Function.comp_def] using sorted.map Prod.fst
    exact (insertMember_perm fun listed => fresh (names.mem_iff.mp listed)).trans (sorted.cons _)

theorem mem_insertMember {member : String × Json}
    (listed : member ∈ insertMember name value members) :
    member = (name, value) ∨ member ∈ members := by
  induction members with
  | nil => exact .inl (List.mem_singleton.mp listed)
  | cons first members ih =>
    simp only [insertMember] at listed
    split at listed
    · exact List.mem_cons.mp listed
    · split at listed
      · exact .inr listed
      · rcases List.mem_cons.mp listed with rfl | listed
        · exact .inr List.mem_cons_self
        · exact (ih listed).imp_right (List.mem_cons_of_mem _)

theorem insertMember_ascending (ascending : members.Pairwise fun one other => one.1 < other.1) :
    (insertMember name value members).Pairwise fun one other => one.1 < other.1 := by
  induction members with
  | nil => exact List.pairwise_singleton _ _
  | cons first members ih =>
    obtain ⟨least, rest⟩ := List.pairwise_cons.mp ascending
    simp only [insertMember]
    split
    · rename_i less
      refine List.pairwise_cons.mpr ⟨fun member listed => ?_, ascending⟩
      rcases List.mem_cons.mp listed with rfl | listed
      · exact less
      · exact less.trans (least member listed)
    · rename_i notLess
      split
      · exact ascending
      · rename_i different
        refine List.pairwise_cons.mpr ⟨fun member listed => ?_, ih rest⟩
        rcases mem_insertMember listed with rfl | listed
        · exact (lt_or_gt_of_ne different).resolve_left notLess
        · exact least member listed

theorem canonicalMembers_ascending (members : List (String × Json)) :
    (canonicalMembers members).Pairwise fun one other => one.1 < other.1 := by
  induction members with
  | nil => exact .nil
  | cons member members ih => exact insertMember_ascending ih

/-- The members of a sorted object, by name. -/
theorem mem_canonicalMembers (distinct : (members.map Prod.fst).Nodup) :
    (name, value) ∈ canonicalMembers members ↔
      ∃ given, (name, given) ∈ members ∧ canonical given = value := by
  rw [(canonicalMembers_perm distinct).mem_iff, List.mem_map]
  constructor
  · rintro ⟨⟨_, given⟩, listed, same⟩
    cases same
    exact ⟨given, listed, rfl⟩
  · rintro ⟨given, listed, rfl⟩
    exact ⟨(name, given), listed, rfl⟩

theorem names_canonicalMembers (distinct : (members.map Prod.fst).Nodup) :
    ((canonicalMembers members).map Prod.fst).Perm (members.map Prod.fst) := by
  simpa [Function.comp_def] using (canonicalMembers_perm distinct).map Prod.fst

/-- A name stands for one value. -/
theorem value_unique {given : Json} (distinct : (members.map Prod.fst).Nodup)
    (first : (name, value) ∈ members) (second : (name, given) ∈ members) : value = given :=
  congrArg Prod.snd (List.inj_on_of_nodup_map distinct first second rfl)

/-- Sorted objects with the same members are the same. -/
theorem canonicalMembers_ext (distinct : (members.map Prod.fst).Nodup)
    (apart : (others.map Prod.fst).Nodup)
    (same : ∀ name value, (name, value) ∈ canonicalMembers members ↔
      (name, value) ∈ canonicalMembers others) :
    canonicalMembers members = canonicalMembers others := by
  have unrepeated {members : List (String × Json)} (distinct : (members.map Prod.fst).Nodup) :
      (canonicalMembers members).Nodup :=
    .of_map Prod.fst ((names_canonicalMembers distinct).nodup_iff.mpr distinct)
  have perm : (canonicalMembers members).Perm (canonicalMembers others) :=
    (List.perm_ext_iff_of_nodup (unrepeated distinct) (unrepeated apart)).mpr
      fun member => same member.1 member.2
  exact perm.eq_of_pairwise (fun one other _ _ less more => absurd (less.trans more) (lt_irrefl _))
    (canonicalMembers_ascending members) (canonicalMembers_ascending others)

theorem getElem_mem_zip {items others : List Json} {place : Nat} (within : place < items.length)
    (inside : place < others.length) : (items[place], others[place]) ∈ items.zip others := by
  have zipped : place < (items.zip others).length := by
    rw [List.length_zip]
    exact Nat.lt_min.mpr ⟨within, inside⟩
  rw [← List.getElem_zip (h := zipped)]
  exact List.getElem_mem zipped

/-- Values that are equal up to the order of members have the same sorted value. -/
theorem SameValue.canonical_eq (same : SameValue (· = ·) one other) (distinct : Distinct one)
    (apart : Distinct other) : canonical one = canonical other := by
  induction same with
  | null => rfl
  | bool value => rfl
  | str text => rfl
  | number _ _ agreed => rw [agreed]
  | arr long each ih =>
    obtain _ | _ | _ | _ | _ | distinct := distinct
    obtain _ | _ | _ | _ | _ | apart := apart
    rw [canonical, canonical, canonicalItems_eq, canonicalItems_eq]
    congr 1
    refine List.ext_getElem (by simpa using long) fun place within inside => ?_
    rw [List.length_map] at within inside
    rw [List.getElem_map, List.getElem_map]
    exact ih _ (getElem_mem_zip within inside) (distinct _ (List.getElem_mem within))
      (apart _ (List.getElem_mem inside))
  | @obj members others names each ih =>
    obtain _ | _ | _ | _ | _ | _ | ⟨distinct, inner⟩ := distinct
    obtain _ | _ | _ | _ | _ | _ | ⟨apart, other⟩ := apart
    rw [canonical, canonical]
    congr 1
    refine canonicalMembers_ext distinct apart fun name value => ?_
    rw [mem_canonicalMembers distinct, mem_canonicalMembers apart]
    have matched (value given : Json) (first : (name, value) ∈ members)
        (second : (name, given) ∈ others) : canonical value = canonical given :=
      ih name value given first second (inner _ first) (other _ second)
    constructor
    · rintro ⟨given, listed, rfl⟩
      have there := names.mem_iff.mp (List.mem_map_of_mem (f := Prod.fst) listed)
      obtain ⟨⟨_, found⟩, second, rfl⟩ := List.mem_map.mp there
      exact ⟨found, second, (matched given found listed second).symm⟩
    · rintro ⟨given, listed, rfl⟩
      have there := names.mem_iff.mpr (List.mem_map_of_mem (f := Prod.fst) listed)
      obtain ⟨⟨_, found⟩, first, rfl⟩ := List.mem_map.mp there
      exact ⟨found, first, matched found given first listed⟩

/-- A sorted value stands for one value, up to the order of members. -/
theorem sameValue_of_canonical (one : Json) : ∀ other, Distinct one → Distinct other →
    canonical one = canonical other → SameValue (· = ·) one other := by
  induction one using Json.induction with
  | null =>
    intro other _ _ same
    cases other <;> simp only [canonical, reduceCtorEq] at same
    exact .null
  | bool value =>
    intro other _ _ same
    cases other <;> simp only [canonical, reduceCtorEq, Json.bool.injEq] at same
    exact same ▸ .bool value
  | int value =>
    intro other _ _ same
    cases other <;> simp only [canonical, reduceCtorEq, Json.int.injEq] at same
    exact .number rfl rfl (congrArg Json.int same)
  | float value =>
    intro other _ _ same
    cases other <;> simp only [canonical, reduceCtorEq, Json.float.injEq] at same
    exact .number rfl rfl (congrArg Json.float same)
  | str text =>
    intro other _ _ same
    cases other <;> simp only [canonical, reduceCtorEq, Json.str.injEq] at same
    exact same ▸ .str text
  | arr items ih =>
    intro other distinct apart same
    cases other <;> simp only [canonical, reduceCtorEq, Json.arr.injEq] at same
    rename_i others
    rw [canonicalItems_eq, canonicalItems_eq] at same
    obtain _ | _ | _ | _ | _ | distinct := distinct
    obtain _ | _ | _ | _ | _ | apart := apart
    refine .arr (by simpa using congrArg List.length same) fun pair listed => ?_
    obtain ⟨place, zipped, rfl⟩ := List.getElem_of_mem listed
    rw [List.length_zip] at zipped
    obtain ⟨within, inside⟩ := Nat.lt_min.mp zipped
    rw [List.getElem_zip]
    have equal : canonical items[place] = canonical others[place] := by
      have at_ := congrArg (·[place]?) same
      simpa [within, inside] using at_
    exact ih _ (List.getElem_mem within) _ (distinct _ (List.getElem_mem within))
      (apart _ (List.getElem_mem inside)) equal
  | obj members ih =>
    intro other distinct apart same
    cases other <;> simp only [canonical, reduceCtorEq, Json.obj.injEq] at same
    rename_i others
    obtain _ | _ | _ | _ | _ | _ | ⟨distinct, inner⟩ := distinct
    obtain _ | _ | _ | _ | _ | _ | ⟨apart, within⟩ := apart
    have names := names_canonicalMembers distinct
    rw [same] at names
    refine .obj (names.symm.trans (names_canonicalMembers apart)) ?_
    intro name value given first second
    have sorted : (name, canonical value) ∈ canonicalMembers others :=
      same ▸ (mem_canonicalMembers distinct).mpr ⟨value, first, rfl⟩
    obtain ⟨found, listed, equal⟩ := (mem_canonicalMembers apart).mp sorted
    obtain rfl := value_unique apart listed second
    exact ih _ first _ (inner _ first) (within _ second) equal.symm

/-- The number that digits with a point and an exponent write. -/
def decimal (text : List Char) : Option ℚ := do
  let mantissa := text.takeWhile (· != 'e')
  let fraction := (mantissa.dropWhile (· != '.')).drop 1
  let digits ← PyText.readNat (mantissa.takeWhile (· != '.') ++ fraction)
  let power ← match text.dropWhile (· != 'e') with
    | [] => some 0
    | _ :: exponent => PyText.readInt (String.ofList exponent)
  return digits * 10 ^ (power - fraction.length)

/-- The number that is printed for a value. -/
def numberOf : Json → Option ℚ
  | .int value => some value
  | .float value =>
    match value.text with
    | '-' :: text => (decimal text).map fun number => -number
    | text => decimal text
  | _ => none

/-- Two numbers of one value. -/
def SameNumber (one other : Json) : Prop :=
  ∃ number, numberOf one = some number ∧ numberOf other = some number

end FcamGateway.JsonText
