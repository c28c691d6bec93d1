import FcamGateway.KeyAdmin
import FcamGateway.PyFields

/-! The text of an import. A line holds a key, or a key with what belongs to its account;
how many of its fields hold something decides what each of them means. A line with all four
columns keeps them in place exactly if none is empty before one that is not, but for the
key on its own and the key behind its user name. -/
namespace FcamGateway.KeyImport
open KeyAdmin PyText

/-- A date and time as `datetime.fromisoformat` reads it: the local time, and its offset from
UTC when it has one. -/
structure ReadDatetime where
  localTime : Instant
  utcOffset : Option Int := none

/-- `_DATE_ONLY_RE`. -/
def isDateOnly : List Char → Bool
  | [y, e, a, r, '-', m, o, '-', d, n] => [y, e, a, r, m, o, d, n].all fun c => (digitValue c).isSome
  | _ => false

/-- The text that `_parse_datetime_utc` hands to `fromisoformat`. -/
def isoText (text : List Char) : List Char :=
  if isDateOnly text then text ++ "T00:00:00+00:00".toList
  else if text.getLast? = some 'Z' then text.dropLast ++ "+00:00".toList
  else if ' ' ∈ text ∧ 'T' ∉ text ∧ '+' ∉ text then
    text.takeWhile (· ≠ ' ') ++ 'T' :: (text.dropWhile (· ≠ ' ')).tail
  else text

/-- `_parse_datetime_utc`. -/
def parseDatetimeUtc (fromIsoFormat : String → Except String ReadDatetime) (raw : List Char) :
    Except String Instant := do
  let text := stripChars raw
  if text = [] then throw "empty datetime"
  else
    let read ← fromIsoFormat (String.ofList (isoText text))
    let moved := read.localTime - read.utcOffset.getD 0
    if Instant.earliest ≤ moved ∧ moved ≤ Instant.latest then return moved
    else throw "date value out of range"

/-- `_split_fields`. -/
def splitFields (line : List Char) : List (List Char) :=
  let parts :=
    if '|' ∈ line then line.splitOn '|'
    else if '\t' ∈ line then line.splitOn '\t'
    else if ',' ∈ line then line.splitOn ','
    else words line
  parts.map stripChars

/-- What the fields of a line say. -/
structure KeyFields where
  accountUsername : Option (List Char) := none
  accountPassword : Option (List Char) := none
  apiKey : List Char
  accountVerifiedAt : Option Instant := none

/-- The meaning of the fields, by their number. -/
def assignFields (fromIsoFormat : String → Except String ReadDatetime) :
    List (List Char) → Except String KeyFields
  | [apiKey] => return { apiKey }
  | [username, apiKey] => return { accountUsername := some username, apiKey }
  | [username, password, apiKey] =>
    return { accountUsername := some username, accountPassword := some password, apiKey }
  | [username, password, apiKey, verifiedRaw] => do
    let verifiedAt ← (if verifiedRaw ≠ [] then some <$> parseDatetimeUtc fromIsoFormat verifiedRaw
      else pure none)
    return { accountUsername := some username, accountPassword := some password, apiKey
             accountVerifiedAt := verifiedAt }
  | _ => throw "expect 1/2/3/4 fields per line"

/-- `(value or "").strip() or None`. -/
def textOrNone (value : Option (List Char)) : Option String :=
  let text := stripChars (value.getD [])
  if text = [] then none else some (String.ofList text)

/-- The fields of a line that hold something. -/
def lineParts (raw : List Char) : List (List Char) :=
  (splitFields (stripChars raw)).filter (· ≠ [])

/-- The `ParsedKeyLine` of a line's fields. -/
def KeyFields.item (fields : KeyFields) (lineNo : Nat) (raw : List Char) : ParsedKeyLine :=
  { lineNo, raw := String.ofList raw, apiKey := String.ofList (stripChars fields.apiKey)
    accountUsername := textOrNone fields.accountUsername
    accountPassword := textOrNone fields.accountPassword
    accountVerifiedAt := fields.accountVerifiedAt }

/-- One line inside the `try` of `parse_keys_text`. -/
def parseFields (fromIsoFormat : String → Except String ReadDatetime) (lineNo : Nat)
    (raw : List Char) : Except String ParsedKeyLine := do
  let fields ← assignFields fromIsoFormat (lineParts raw)
  if (stripChars fields.apiKey).length < 8 then throw "api_key too short"
  else return fields.item lineNo raw

/-- A line that says nothing: blank, or a comment. -/
def isIgnored (raw : List Char) : Bool :=
  stripChars raw = [] || (stripChars raw).head? = some '#'

/-- One line of `parse_keys_text`. -/
def parseLine (fromIsoFormat : String → Except String ReadDatetime) (lineNo : Nat)
    (raw : List Char) : Option (Except ParseFailure ParsedKeyLine) :=
  if isIgnored raw then none
  else some <| (parseFields fromIsoFormat lineNo raw).mapError fun message =>
    { lineNo, raw := String.ofList raw, message }

/-- What becomes of the lines of a text, in their order. -/
def parseLines (fromIsoFormat : String → Except String ReadDatetime) (text : String) :
    List (Except ParseFailure ParsedKeyLine) :=
  ((splitLines text.toList).zipIdx 1).filterMap fun line => parseLine fromIsoFormat line.2 line.1

/-- The items of what was parsed, and its failures. -/
def parsed (outcomes : List (Except ParseFailure ParsedKeyLine)) :
    List ParsedKeyLine × List ParseFailure :=
  (outcomes.filterMap (·.toOption), outcomes.filterMap fun outcome =>
    match outcome with
    | .ok _ => none
    | .error failure => some failure)

/-- `parse_keys_text`. -/
def parseKeysText (fromIsoFormat : String → Except String ReadDatetime) (text : String) :
    List ParsedKeyLine × List ParseFailure :=
  parsed (parseLines fromIsoFormat text)

/-- The delimiters, the one that takes precedence first. -/
def delimiters : List Char := ['|', '\t', ',']

/-- A line with all four columns. None of them holds the delimiter or one before it. -/
structure FourColumns where
  delimiter : Char
  username : List Char := []
  password : List Char := []
  apiKey : List Char
  verifiedAt : List Char := []
  delimits : delimiter ∈ delimiters
  clear : ∀ column ∈ [username, password, apiKey, verifiedAt],
    ∀ c ∈ delimiters.takeWhile (· ≠ delimiter) ++ [delimiter], c ∉ column
  long : 8 ≤ (stripChars apiKey).length

namespace FourColumns

def columns (line : FourColumns) : List (List Char) :=
  [line.username, line.password, line.apiKey, line.verifiedAt]

def raw (line : FourColumns) : List Char := [line.delimiter].intercalate line.columns

/-- The date of the last column, which may be empty. -/
def verified (fromIsoFormat : String → Except String ReadDatetime) (line : FourColumns) :
    Except String (Option Instant) :=
  if stripChars line.verifiedAt = [] then .ok none
  else some <$> parseDatetimeUtc fromIsoFormat line.verifiedAt

/-- The line with every column in its place. -/
def item (line : FourColumns) (lineNo : Nat) (date : Option Instant) : ParsedKeyLine :=
  { lineNo, raw := String.ofList line.raw, apiKey := String.ofList (stripChars line.apiKey)
    accountUsername := textOrNone (some line.username)
    accountPassword := textOrNone (some line.password)
    accountVerifiedAt := date }

/-- Nothing but the key, between tabs that stripping takes away. -/
def Alone (line : FourColumns) : Prop :=
  line.delimiter = '\t' ∧ Blank line.username ∧ Blank line.password ∧ Blank line.verifiedAt

/-- The lines whose columns keep their place: no comment, no column empty before one that is
not, the key apart, and a key alone between tabs in one piece. -/
structure Placed (line : FourColumns) : Prop where
  plain : (stripChars line.raw).head? ≠ some '#'
  filled : (¬Blank line.username ∧ ¬Blank line.password) ∨
    (Blank line.password ∧ Blank line.verifiedAt)
  whole : line.Alone → ∀ c ∈ stripChars line.apiKey, c ≠ ',' ∧ ¬isSpace c

end FourColumns

/-- What is numbered by its line is found by the number. -/
theorem filter_filterMap_zipIdx (parse : List Char × Nat → Option α) (number : α → Nat)
    (numbered : ∀ line item, parse line = some item → number item = line.2)
    (lines : List (List Char)) (start index : Nat) (here : lines[index]? = some raw) :
    ((lines.zipIdx start).filterMap parse).filter (fun item => number item = start + index) =
      (parse (raw, start + index)).toList := by
  induction lines generalizing start index with
  | nil => simp at here
  | cons line others ih =>
    rw [List.zipIdx_cons, List.filterMap_cons]
    cases index with
    | zero =>
      have same : line = raw := by simpa using here
      have later : ((others.zipIdx (start + 1)).filterMap parse).filter
          (fun item => number item = start) = [] := by
        apply List.filter_eq_nil_iff.mpr
        intro item member
        obtain ⟨other, inside, found⟩ := List.mem_filterMap.mp member
        have bound := List.le_snd_of_mem_zipIdx inside
        have tag := numbered other item found
        simp only [decide_eq_true_eq]
        omega
      rw [Nat.add_zero, same]
      cases found : parse (raw, start) with
      | none => exact later
      | some item =>
        have tag := numbered _ _ found
        rw [List.filter_cons_of_pos (by simpa using tag), later]
        rfl
    | succ index =>
      have rest := ih (start + 1) index (by simpa using here)
      rw [show start + 1 + index = start + (index + 1) by omega] at rest
      cases found : parse (line, start) with
      | none => exact rest
      | some item =>
        have tag := numbered _ _ found
        rw [List.filter_cons_of_neg]
        · exact rest
        · simp only [decide_eq_true_eq]
          omega

section
variable {fromIsoFormat : String → Except String ReadDatetime}

theorem bind_ok {action : Except String α} {next : α → Except String β} {result : β}
    (done : action >>= next = .ok result) :
    ∃ value, action = .ok value ∧ next value = .ok result := by
  cases action with
  | error message => cases done
  | ok value => exact ⟨value, rfl, done⟩

/-- How a line that parses came by its item. -/
theorem parseFields_ok (done : parseFields fromIsoFormat lineNo raw = .ok item) :
    ∃ fields, assignFields fromIsoFormat (lineParts raw) = .ok fields ∧
      item = fields.item lineNo raw := by
  obtain ⟨fields, assigned, rest⟩ := bind_ok done
  split at rest
  · cases rest
  · exact ⟨fields, assigned, (Except.ok.inj rest).symm⟩

theorem parseFields_of_fields
    (assigned : assignFields fromIsoFormat (lineParts raw) = .ok fields)
    (long : 8 ≤ (stripChars fields.apiKey).length) :
    parseFields fromIsoFormat lineNo raw = .ok (fields.item lineNo raw) := by
  unfold parseFields
  rw [assigned]
  exact if_neg (Nat.not_lt.mpr long)

theorem parseLine_lineNo (found : (parseLine fromIsoFormat lineNo raw).bind (·.toOption) = some item) :
    item.lineNo = lineNo := by
  unfold parseLine at found
  split at found
  · cases found
  · cases outcome : parseFields fromIsoFormat lineNo raw with
    | error message => simp [outcome, Except.mapError, Except.toOption] at found
    | ok parsedItem =>
      obtain ⟨fields, -, rfl⟩ := parseFields_ok outcome
      simp only [outcome, Except.mapError, Except.toOption, Option.bind_some,
        Option.some.injEq] at found
      rw [← found]
      rfl

/-- The items with the number of a line are what that line gives. -/
theorem items_at (text : String) (index : Nat)
    (here : (splitLines text.toList)[index]? = some raw) :
    (parseKeysText fromIsoFormat text).1.filter (fun item => item.lineNo = index + 1) =
      ((parseLine fromIsoFormat (index + 1) raw).bind (·.toOption)).toList := by
  unfold parseKeysText parsed parseLines
  rw [List.filterMap_filterMap, Nat.add_comm index 1]
  exact filter_filterMap_zipIdx _ ParsedKeyLine.lineNo
    (fun line item => parseLine_lineNo) _ 1 index here

end

/-- The fields of a text between the delimiter that takes precedence in it. -/
theorem splitFields_of_delimiter (delimits : d ∈ delimiters) (present : d ∈ text)
    (clear : ∀ c ∈ delimiters.takeWhile (· ≠ d), c ∉ text) :
    splitFields text = (text.splitOn d).map stripChars := by
  simp only [delimiters, List.mem_cons, List.not_mem_nil, or_false] at delimits
  rcases delimits with rfl | rfl | rfl
  · simp [splitFields, present]
  · simp [splitFields, present, clear '|' (by decide)]
  · simp [splitFields, present, clear '|' (by decide), clear '\t' (by decide)]

namespace FourColumns
variable (line : FourColumns)

theorem raw_eq : line.raw = line.username ++ line.delimiter :: (line.password ++
    line.delimiter :: (line.apiKey ++ line.delimiter :: line.verifiedAt)) := by
  simp [raw, columns, List.intercalate]

theorem not_mem_raw (before : c ∈ delimiters.takeWhile (· ≠ line.delimiter)) : c ∉ line.raw := by
  have other : c ≠ line.delimiter := by simpa using List.mem_takeWhile_imp before
  have absent := fun column member => line.clear column member c (List.mem_append_left _ before)
  simp only [List.forall_mem_cons] at absent
  obtain ⟨username, password, apiKey, verifiedAt, -⟩ := absent
  rw [raw_eq]
  simp [username, password, apiKey, verifiedAt, other]

theorem splitOn_raw : line.raw.splitOn line.delimiter = line.columns :=
  List.splitOn_intercalate _
    (fun column member => line.clear column member _ (List.mem_append_right _ (by simp))) (by
      simp [columns])

theorem apiKey_solid : stripChars line.apiKey ≠ [] := by
  intro empty
  have long := line.long
  rw [empty] at long
  simp at long

/-- Where the delimiter survives stripping, the fields are the columns that hold something. -/
theorem lineParts_raw (present : line.delimiter ∈ stripChars line.raw) :
    lineParts line.raw = filled line.columns := by
  have fields := splitFields_of_delimiter line.delimits present fun c before inside =>
    line.not_mem_raw before (stripChars_mem inside)
  unfold lineParts
  rw [fields, ← line.splitOn_raw, ← filled_splitOn line.delimiter line.raw]
  rfl

/-- A delimiter goes with stripping only around a key alone between tabs. -/
theorem delimiter_mem (accompanied : ¬line.Alone) : line.delimiter ∈ stripChars line.raw := by
  have inside : line.delimiter ∈ line.raw := by simp [raw_eq]
  by_cases space : isSpace line.delimiter
  · by_contra absent
    have single : filled line.columns = filled [stripChars line.raw] := by
      rw [← line.splitOn_raw, ← filled_splitOn, List.splitOn_eq_singleton absent]
    have tab : line.delimiter = '\t' := by
      have delimits := line.delimits
      simp only [delimiters, List.mem_cons, List.not_mem_nil, or_false] at delimits
      rcases delimits with bar | tab | comma
      · rw [bar] at space
        cases space
      · exact tab
      · rw [comma] at space
        cases space
    have short : (filled line.columns).length ≤ 1 := by
      rw [single, filled_cons]
      split <;> simp
    apply accompanied
    refine ⟨tab, ?_⟩
    simp only [columns, filled_cons, filled_nil, if_neg line.apiKey_solid] at short
    by_cases username : stripChars line.username = [] <;>
      by_cases password : stripChars line.password = [] <;>
        by_cases verifiedAt : stripChars line.verifiedAt = [] <;>
          simp [username, password, verifiedAt] at short
    exact ⟨blank_of_stripChars username, blank_of_stripChars password,
      blank_of_stripChars verifiedAt⟩
  · exact mem_stripChars inside space

/-- Between tabs that hold nothing else, stripping leaves the key. -/
theorem stripChars_alone (alone : line.Alone) : stripChars line.raw = stripChars line.apiKey := by
  obtain ⟨tab, username, password, verifiedAt⟩ := alone
  have front : Blank (line.username ++ '\t' :: (line.password ++ ['\t'])) := by
    simp only [Blank, List.mem_append, List.mem_cons, List.not_mem_nil, or_false]
    rintro c (inside | rfl | inside | rfl)
    · exact username c inside
    · rfl
    · exact password c inside
    · rfl
  have back : Blank ('\t' :: line.verifiedAt) := List.forall_mem_cons.mpr ⟨rfl, verifiedAt⟩
  have whole : line.raw = (line.username ++ '\t' :: (line.password ++ ['\t'])) ++ line.apiKey ++
      '\t' :: line.verifiedAt := by
    rw [raw_eq, tab]
    simp
  rw [whole, stripChars_append_blank back, stripChars_append_front front]

/-- The fields of a key alone between tabs: the key, unless it falls to pieces itself. -/
theorem lineParts_alone (alone : line.Alone) :
    lineParts line.raw = [stripChars line.apiKey] ↔
      ∀ c ∈ stripChars line.apiKey, c ≠ ',' ∧ ¬isSpace c := by
  have absent : ∀ c ∈ ['|', '\t'], c ∉ stripChars line.apiKey := by
    intro c before inside
    apply line.clear line.apiKey (by simp) c _ (stripChars_mem inside)
    rw [alone.1]
    exact before
  have bar := absent '|' (by simp)
  have tab := absent '\t' (by simp)
  have parts : lineParts line.raw = if ',' ∈ stripChars line.apiKey then
      filled ((stripChars line.apiKey).splitOn ',') else filled (words (stripChars line.apiKey)) := by
    simp only [lineParts, splitFields, line.stripChars_alone alone, if_neg bar, if_neg tab]
    split <;> rfl
  rw [parts]
  constructor
  · intro single
    split at single
    · next comma =>
      obtain ⟨field, inside, same⟩ := mem_filled (by rw [single]; exact List.mem_singleton_self _)
      rw [same] at comma
      have kept := not_separator_of_mem_splitOnP _ _ field inside ',' (stripChars_mem comma)
      simp at kept
    · next comma =>
      obtain ⟨field, inside, same⟩ := mem_filled (by rw [single]; exact List.mem_singleton_self _)
      intro c member
      constructor
      · rintro rfl
        exact comma member
      · rw [same] at member
        exact not_separator_of_mem_splitOnP _ _ field (List.mem_filter.mp inside).1 c
          (stripChars_mem member)
  · intro whole
    rw [if_neg fun comma => (whole _ comma).1 rfl, words, List.splitOnP_eq_singleton]
    · simp [filled, line.apiKey_solid]
    · intro c member
      simpa using (whole c member).2

/-- The line is read exactly if it is no comment. -/
theorem not_isIgnored : isIgnored line.raw = false ↔ (stripChars line.raw).head? ≠ some '#' := by
  have solid : stripChars line.raw ≠ [] := by
    intro empty
    cases key : stripChars line.apiKey with
    | nil => exact line.apiKey_solid key
    | cons c rest =>
      have space := stripChars_first (c := c) line.apiKey (by rw [key]; rfl)
      have inside : c ∈ line.raw := by
        rw [raw_eq]
        have member : c ∈ line.apiKey := stripChars_mem (by rw [key]; exact List.mem_cons_self)
        simp [member]
      have kept := mem_stripChars inside space
      rw [empty] at kept
      cases kept
  simp [isIgnored, solid]

end FourColumns

@[simp] theorem textOrNone_none : textOrNone none = none := rfl

@[simp] theorem textOrNone_stripChars (text : List Char) :
    textOrNone (some (stripChars text)) = textOrNone (some text) := by
  simp [textOrNone]

@[simp] theorem textOrNone_eq_none : textOrNone (some text) = none ↔ stripChars text = [] := by
  simp [textOrNone]

theorem textOrNone_blank (blank : stripChars text = []) : textOrNone (some text) = none :=
  textOrNone_eq_none.mpr blank

theorem ofList_inj (same : String.ofList left = String.ofList right) : left = right := by
  simpa using congrArg String.toList same

section
variable {fromIsoFormat : String → Except String ReadDatetime}

/-- The first of several fields is taken for the user name. -/
theorem assignFields_username
    (assigned : assignFields fromIsoFormat (first :: second :: others) = .ok fields) :
    fields.accountUsername = some first := by
  match others with
  | [] | [_] =>
    cases assigned
    rfl
  | [_, verifiedRaw] =>
    obtain ⟨verifiedAt, -, done⟩ := bind_ok assigned
    cases done
    rfl
  | _ :: _ :: _ :: _ => cases assigned

/-- The second of three fields is taken for the password. -/
theorem assignFields_password (assigned : assignFields fromIsoFormat [first, second, third] =
    .ok fields) : fields.accountPassword = some second := by
  cases assigned
  rfl

namespace FourColumns
variable (line : FourColumns)

/-- A key alone between tabs is read as the key exactly if it is one piece. -/
theorem parseFields_alone (alone : line.Alone) (valid : line.verified fromIsoFormat = .ok date) :
    parseFields fromIsoFormat lineNo line.raw = .ok (line.item lineNo date) ↔
      ∀ c ∈ stripChars line.apiKey, c ≠ ',' ∧ ¬isSpace c := by
  have username := stripChars_blank alone.2.1
  have password := stripChars_blank alone.2.2.1
  rw [verified, if_pos (stripChars_blank alone.2.2.2)] at valid
  cases valid
  rw [← line.lineParts_alone alone]
  constructor
  · intro done
    obtain ⟨fields, assigned, same⟩ := parseFields_ok done
    have key := ofList_inj (congrArg ParsedKeyLine.apiKey same)
    have name := congrArg ParsedKeyLine.accountUsername same
    cases parts : lineParts line.raw with
    | nil =>
      rw [parts] at assigned
      cases assigned
    | cons first others =>
      have member : first ∈ lineParts line.raw := by simp [parts]
      rw [parts] at assigned
      have solid : stripChars first = first ∧ first ≠ [] := by
        obtain ⟨inside, some⟩ := List.mem_filter.mp member
        obtain ⟨part, -, rfl⟩ := List.mem_map.mp inside
        exact ⟨stripChars_stripChars part, by simpa using some⟩
      cases others with
      | nil =>
        cases assigned
        rw [key, solid.1]
      | cons second others =>
        simp only [item, KeyFields.item, assignFields_username assigned] at name
        rw [textOrNone_blank username, eq_comm, textOrNone_eq_none, solid.1] at name
        exact absurd name solid.2
  · intro parts
    have assigned : assignFields fromIsoFormat (lineParts line.raw) =
        .ok { apiKey := stripChars line.apiKey } := by
      rw [parts]
      rfl
    rw [parseFields_of_fields assigned (by rw [stripChars_stripChars]; exact line.long)]
    simp [KeyFields.item, item, textOrNone_blank username, textOrNone_blank password]

/-- Columns that keep their place: none is empty before one that is not, but for the key and
for the key behind its user name. -/
theorem filled_of_parsed (accompanied : ¬line.Alone)
    (done : parseFields fromIsoFormat lineNo line.raw = .ok (line.item lineNo date)) :
    (¬Blank line.username ∧ ¬Blank line.password) ∨
      (Blank line.password ∧ Blank line.verifiedAt) := by
  have solid := line.apiKey_solid
  obtain ⟨fields, assigned, same⟩ := parseFields_ok done
  have name := congrArg ParsedKeyLine.accountUsername same
  rw [line.lineParts_raw (line.delimiter_mem accompanied)] at assigned
  simp only [columns, filled_cons, filled_nil, if_neg solid] at assigned
  simp only [← stripChars_eq_nil]
  by_cases password : stripChars line.password = []
  · right
    refine ⟨password, ?_⟩
    by_contra verifiedAt
    rw [if_pos password, if_neg verifiedAt] at assigned
    by_cases username : stripChars line.username = []
    · -- the key is taken for the user name
      rw [if_pos username] at assigned
      simp only [item, KeyFields.item, assignFields_username assigned] at name
      rw [textOrNone_blank username, textOrNone_stripChars, eq_comm, textOrNone_eq_none] at name
      exact solid name
    · -- the key is taken for the password
      rw [if_neg username] at assigned
      have secret := congrArg ParsedKeyLine.accountPassword same
      simp only [item, KeyFields.item, assignFields_password assigned] at secret
      rw [textOrNone_blank password, textOrNone_stripChars, eq_comm, textOrNone_eq_none] at secret
      exact solid secret
  · left
    refine ⟨?_, password⟩
    intro username
    -- the password is taken for the user name
    rw [if_pos username, if_neg password] at assigned
    simp only [item, KeyFields.item, assignFields_username assigned] at name
    rw [textOrNone_blank username, textOrNone_stripChars, eq_comm, textOrNone_eq_none] at name
    exact password name

/-- A line whose fields are its columns. -/
theorem parsed_of_fields (assigned : assignFields fromIsoFormat (lineParts line.raw) = .ok fields)
    (apiKey : fields.apiKey = stripChars line.apiKey)
    (username : textOrNone fields.accountUsername = textOrNone (some line.username))
    (password : textOrNone fields.accountPassword = textOrNone (some line.password)) :
    parseFields fromIsoFormat lineNo line.raw =
      .ok (line.item lineNo fields.accountVerifiedAt) := by
  have long : 8 ≤ (stripChars fields.apiKey).length := by
    rw [apiKey, stripChars_stripChars]
    exact line.long
  rw [parseFields_of_fields assigned long]
  simp [KeyFields.item, item, apiKey, username, password]

theorem parsed_of_filled (accompanied : ¬line.Alone)
    (valid : line.verified fromIsoFormat = .ok date)
    (kept : (¬Blank line.username ∧ ¬Blank line.password) ∨
      (Blank line.password ∧ Blank line.verifiedAt)) :
    parseFields fromIsoFormat lineNo line.raw = .ok (line.item lineNo date) := by
  have reads (fields : KeyFields)
      (assigned : assignFields fromIsoFormat (lineParts line.raw) = .ok fields) :=
    @parsed_of_fields fromIsoFormat line fields lineNo assigned
  rw [line.lineParts_raw (line.delimiter_mem accompanied)] at reads
  simp only [columns, filled_cons, filled_nil, if_neg line.apiKey_solid] at reads
  simp only [← stripChars_eq_nil] at kept
  unfold verified at valid
  by_cases verifiedAt : stripChars line.verifiedAt = []
  · rw [if_pos verifiedAt] at valid
    cases valid
    rw [if_pos verifiedAt] at reads
    rcases kept with ⟨username, password⟩ | ⟨password, -⟩
    · rw [if_neg username, if_neg password] at reads
      exact reads _ rfl rfl (textOrNone_stripChars _) (textOrNone_stripChars _)
    · rw [if_pos password] at reads
      by_cases username : stripChars line.username = []
      · rw [if_pos username] at reads
        exact reads _ rfl rfl (textOrNone_blank username).symm (textOrNone_blank password).symm
      · rw [if_neg username] at reads
        exact reads _ rfl rfl (textOrNone_stripChars _) (textOrNone_blank password).symm
  · rw [if_neg verifiedAt] at valid
    rcases kept with ⟨username, password⟩ | ⟨-, blank⟩
    · rw [if_neg username, if_neg password, if_neg verifiedAt] at reads
      refine reads { accountUsername := some (stripChars line.username)
                     accountPassword := some (stripChars line.password)
                     apiKey := stripChars line.apiKey, accountVerifiedAt := date } ?_ rfl
        (textOrNone_stripChars _) (textOrNone_stripChars _)
      have stripped : parseDatetimeUtc fromIsoFormat (stripChars line.verifiedAt) =
          parseDatetimeUtc fromIsoFormat line.verifiedAt := by
        simp [parseDatetimeUtc]
      simp only [assignFields, if_pos verifiedAt, stripped, valid]
      rfl
    · exact absurd blank verifiedAt

theorem parseFields_raw (valid : line.verified fromIsoFormat = .ok date) :
    parseFields fromIsoFormat lineNo line.raw = .ok (line.item lineNo date) ↔
      ((¬Blank line.username ∧ ¬Blank line.password) ∨
        (Blank line.password ∧ Blank line.verifiedAt)) ∧
      (line.Alone → ∀ c ∈ stripChars line.apiKey, c ≠ ',' ∧ ¬isSpace c) := by
  by_cases alone : line.Alone
  · rw [line.parseFields_alone alone valid]
    simp [alone, alone.2.2.1, alone.2.2.2]
  · constructor
    · intro done
      exact ⟨line.filled_of_parsed alone done, fun pieces => absurd pieces alone⟩
    · intro kept
      exact line.parsed_of_filled alone valid kept.1

end FourColumns

/-- Wherever a line with all four columns stands in a text, it is read with every column in
its place exactly if it is one of the lines that keep them. -/
theorem columns_kept_iff (text : String) (index : Nat) (line : FourColumns) (date : Option Instant)
    (here : (splitLines text.toList)[index]? = some line.raw)
    (valid : line.verified fromIsoFormat = .ok date) :
    (parseKeysText fromIsoFormat text).1.filter (fun item => item.lineNo = index + 1) =
      [line.item (index + 1) date] ↔ line.Placed := by
  have kept : parseFields fromIsoFormat (index + 1) line.raw = .ok (line.item (index + 1) date) ↔ _ :=
    line.parseFields_raw valid
  rw [items_at text index here]
  by_cases comment : isIgnored line.raw
  · have skipped : ¬line.Placed := fun placed =>
      Bool.false_ne_true ((line.not_isIgnored.mpr placed.plain).symm.trans comment)
    simp [parseLine, comment, skipped]
  · have plain := line.not_isIgnored.mp (Bool.eq_false_iff.mpr comment)
    have read : (parseLine fromIsoFormat (index + 1) line.raw).bind (·.toOption) =
        (parseFields fromIsoFormat (index + 1) line.raw).toOption := by
      rw [parseLine, if_neg comment]
      cases parseFields fromIsoFormat (index + 1) line.raw <;> rfl
    have single : (parseFields fromIsoFormat (index + 1) line.raw).toOption.toList =
        [line.item (index + 1) date] ↔
        parseFields fromIsoFormat (index + 1) line.raw = .ok (line.item (index + 1) date) := by
      cases parseFields fromIsoFormat (index + 1) line.raw <;> simp [Except.toOption]
    rw [read, single, kept]
    exact ⟨fun ⟨filled, whole⟩ => ⟨plain, filled, whole⟩, fun placed =>
      ⟨placed.filled, placed.whole⟩⟩

end

/-- `fromisoformat` at the one date that is read below. -/
def readFebruary (text : String) : Except String ReadDatetime :=
  if text = "2026-02-12T00:00:00+00:00" then
    .ok { localTime := 1770854400 * Instant.second, utcOffset := some 0 }
  else .error ("Invalid isoformat string: '" ++ text ++ "'")

def exampleColumns (password : List Char) (clear : '|' ∉ password) : FourColumns :=
  { delimiter := '|', username := "alice".toList, password, apiKey := "fc-12345678".toList
    verifiedAt := "2026-02-12".toList, delimits := by decide
    clear := by simp [delimiters, clear], long := by decide }

theorem columns_kept_iff_example :
    (parseKeysText readFebruary "# keys\r\nalice|secret|fc-12345678|2026-02-12").1.filter
        (fun item => item.lineNo = 2) =
      [(exampleColumns "secret".toList (by decide)).item 2 (some 1770854400000000)] :=
  (columns_kept_iff "# keys\r\nalice|secret|fc-12345678|2026-02-12" 1
      (exampleColumns "secret".toList (by decide)) (some 1770854400000000)
      (by decide) (by decide)).mpr
    { plain := by decide
      filled := by
        left
        constructor <;> simp [Blank, exampleColumns, isSpace]
      whole := fun alone => by cases alone.1 }

/-- With the password left empty the key is stored as the password and the date as the key,
and no failure is reported. -/
theorem empty_password_shifts_columns :
    (exampleColumns [] (by decide)).raw = "alice||fc-12345678|2026-02-12".toList ∧
    (exampleColumns [] (by decide)).verified readFebruary = .ok (some 1770854400000000) ∧
    (parseKeysText readFebruary "alice||fc-12345678|2026-02-12").1 ≠
      [(exampleColumns [] (by decide)).item 1 (some 1770854400000000)] ∧
    (parseKeysText readFebruary "alice||fc-12345678|2026-02-12").1.map
        (fun item => (item.accountUsername, item.accountPassword, item.apiKey)) =
      [(some "alice", some "fc-12345678", "2026-02-12")] ∧
    (parseKeysText readFebruary "alice||fc-12345678|2026-02-12").2.length = 0 := by
  have shifted : (parseKeysText readFebruary "alice||fc-12345678|2026-02-12").1.map
      (fun item => (item.accountUsername, item.accountPassword, item.apiKey)) =
      [(some "alice", some "fc-12345678", "2026-02-12")] := by decide
  refine ⟨by decide, by decide, ?_, shifted, by decide⟩
  intro kept
  rw [kept] at shifted
  revert shifted
  decide

end FcamGateway.KeyImport
