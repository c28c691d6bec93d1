import FcamGateway.NestedDict
import FcamGateway.PyText
import Mathlib.Data.List.Nodup

/-! The environment variables that override the configuration: how they are
read one by one into a nested dictionary, and when the order in which the
process lists them does not matter. -/
namespace FcamGateway.EnvOverrides
open Nested

set_option linter.unusedSectionVars false

/-- A key of a dictionary that the YAML reader may give. -/
inductive YamlKey (Other : Type) where
  | text (name : String)
  | other (value : Other)
deriving DecidableEq

/-- The YAML reader, and the lower case of a string. -/
structure Reader (Other Scalar Failure : Type) where
  safeLoad : String → Except Failure (Nested (YamlKey Other) Scalar)
  lower : String → String

/-- `os.environ` as it is enumerated. -/
structure Environ where
  items : List (String × String)
  distinct : (items.map Prod.fst).Nodup

def Environ.names (environ : Environ) : List String := environ.items.map Prod.fst

/-- The same variables, enumerated in another order. -/
def Environ.reorder (environ : Environ) (items : List (String × String))
    (perm : items.Perm environ.items) : Environ :=
  ⟨items, (perm.map Prod.fst).nodup_iff.mpr environ.distinct⟩

def reservedEnvKeys : List String := ["FCAM_CONFIG", "FCAM_ADMIN_TOKEN", "FCAM_MASTER_KEY"]

def envPrefix : String := "FCAM_"

/-- `str.split("__")`. -/
def splitNested : List Char → List (List Char)
  | '_' :: '_' :: rest => [] :: splitNested rest
  | c :: rest => (splitNested rest).modifyHead (c :: ·)
  | [] => [[]]

variable {Other Scalar Failure : Type} [DecidableEq Other]

abbrev Entries (Other Scalar : Type) : Type := YamlKey Other → Option (Nested (YamlKey Other) Scalar)

/-- The walk of the cursor to the last part, and the assignment there. -/
def assign (value : Nested (YamlKey Other) Scalar) : List (YamlKey Other) → Entries Other Scalar →
    Entries Other Scalar
  | [], cursor => cursor
  | [last], cursor => Function.update cursor last (some value)
  | part :: next :: rest, cursor =>
    let nextCursor :=
      match cursor part with
      | some (.dict entries) => entries
      | _ => fun _ => none
    Function.update cursor part (some (.dict (assign value (next :: rest) nextCursor)))

section
variable (reader : Reader Other Scalar Failure)

def pathOf (key : String) : List (YamlKey Other) :=
  (splitNested (reader.lower (String.ofList (key.toList.drop envPrefix.length))).toList).map
    fun part => .text (String.ofList part)

/-- One round of the loop. -/
def overrideWith (names : List String) (result : Entries Other Scalar) (item : String × String) :
    Except Failure (Entries Other Scalar) :=
  let (key, rawValue) := item
  if key ∈ reservedEnvKeys then .ok result
  else if key = "FCAM_DATABASE_URL" ∧ "FCAM_DATABASE__URL" ∈ names then .ok result
  else
    let key := if key = "FCAM_DATABASE_URL" then "FCAM_DATABASE__URL" else key
    if ¬envPrefix.toList <+: key.toList then .ok result
    else
      match reader.safeLoad rawValue with
      | .error failure => .error failure
      | .ok value => .ok (assign value (pathOf reader key) result)

/-- `_env_overrides`. -/
def envOverrides (environ : Environ) : Except Failure (Entries Other Scalar) :=
  environ.items.foldlM (overrideWith reader environ.names) fun _ => none

/-- The path a variable overrides, `none` where the loop passes over it. -/
def pathFor (names : List String) (key : String) : Option (List (YamlKey Other)) :=
  if key ∈ reservedEnvKeys then none
  else if key = "FCAM_DATABASE_URL" then
    if "FCAM_DATABASE__URL" ∈ names then none else some (pathOf reader "FCAM_DATABASE__URL")
  else if envPrefix.toList <+: key.toList then some (pathOf reader key)
  else none

end

variable {reader : Reader Other Scalar Failure} {names : List String}

theorem splitNested_ne_nil (text : List Char) : splitNested text ≠ [] := by
  fun_induction splitNested text with
  | case1 => exact List.cons_ne_nil _ _
  | case2 c rest _ ih => simpa using ih
  | case3 => exact List.cons_ne_nil _ _

theorem pathOf_ne_nil (key : String) : pathOf reader key ≠ [] := by
  simpa [pathOf] using splitNested_ne_nil _

theorem pathFor_ne_nil {key : String} {path : List (YamlKey Other)}
    (taken : pathFor reader names key = some path) : path ≠ [] := by
  unfold pathFor at taken
  split at taken
  · cases taken
  · split at taken
    · split at taken
      · cases taken
      · exact Option.some.inj taken ▸ pathOf_ne_nil _
    · split at taken
      · exact Option.some.inj taken ▸ pathOf_ne_nil _
      · cases taken

/-- The walk of the cursor puts the value at its path. -/
theorem assign_put (value : Nested (YamlKey Other) Scalar) {path : List (YamlKey Other)}
    (filled : path ≠ []) (cursor : Entries Other Scalar) :
    .dict (assign value path cursor) = put value path (some (.dict cursor)) := by
  fun_induction assign value path cursor with
  | case1 => exact absurd rfl filled
  | case2 => rfl
  | case3 part next rest cursor nextCursor ih =>
    have child : put value (next :: rest) (some (.dict nextCursor)) =
        put value (next :: rest) (cursor part) := by
      have entries : nextCursor = entriesOf (cursor part) := by
        simp only [nextCursor]
        cases cursor part with
        | none => rfl
        | some node => cases node <;> rfl
      rw [put, put, entries]
      rfl
    rw [ih (List.cons_ne_nil _ _), child]
    rfl

/-- One round: a variable that is taken puts its value at its path. -/
theorem overrideWith_eq (result : Entries Other Scalar) (item : String × String) :
    overrideWith reader names result item =
      match pathFor reader names item.1 with
      | none => .ok result
      | some path =>
        match reader.safeLoad item.2 with
        | .error failure => .error failure
        | .ok value => .ok (assign value path result) := by
  have nested : envPrefix.toList <+: "FCAM_DATABASE__URL".toList := by decide
  simp only [overrideWith, pathFor]
  by_cases reserved : item.1 ∈ reservedEnvKeys
  · simp [reserved]
  · by_cases plain : item.1 = "FCAM_DATABASE_URL"
    · by_cases both : "FCAM_DATABASE__URL" ∈ names
      · simp [plain, both]
      · rw [plain] at reserved
        simp only [reserved, plain, both, ↓reduceIte, and_false, nested, not_true]
    · by_cases named : envPrefix.toList <+: item.1.toList
      · simp [reserved, plain, named]
      · simp [reserved, plain, named]

/-! ## The whole loop -/

/-- The write that one variable asks for. -/
def writeOf (reader : Reader Other Scalar Failure) (names : List String) (item : String × String) :
    Option (Write (YamlKey Other) Scalar) :=
  match pathFor reader names item.1, reader.safeLoad item.2 with
  | some path, .ok value => some (path, value)
  | _, _ => none

/-- Every variable that is taken holds a YAML document. -/
def Loads (reader : Reader Other Scalar Failure) (names : List String)
    (items : List (String × String)) : Prop :=
  ∀ item ∈ items, ∀ path, pathFor reader names item.1 = some path →
    ∃ value, reader.safeLoad item.2 = .ok value

theorem overrides_ok {items : List (String × String)} {start result : Entries Other Scalar}
    (ok : items.foldlM (overrideWith reader names) start = .ok result) :
    Loads reader names items ∧
      putAll (items.filterMap (writeOf reader names)) (some (.dict start)) = some (.dict result) := by
  induction items generalizing start with
  | nil =>
    cases ok
    exact ⟨nofun, rfl⟩
  | cons item items ih =>
    rw [List.foldlM_cons, overrideWith_eq] at ok
    cases taken : pathFor reader names item.1 with
    | none =>
      rw [taken] at ok
      obtain ⟨loads, put⟩ := ih ok
      refine ⟨?_, by simpa [writeOf, taken] using put⟩
      intro other member path found
      rcases List.mem_cons.mp member with rfl | member
      · rw [taken] at found
        cases found
      · exact loads other member path found
    | some path =>
      rw [taken] at ok
      cases loaded : reader.safeLoad item.2 with
      | error failure => simp [loaded, bind, Except.bind] at ok
      | ok value =>
        rw [loaded] at ok
        obtain ⟨loads, put⟩ := ih ok
        rw [assign_put value (pathFor_ne_nil taken)] at put
        refine ⟨?_, by simpa [writeOf, taken, loaded, putAll] using put⟩
        intro other member path found
        rcases List.mem_cons.mp member with rfl | member
        · exact ⟨value, loaded⟩
        · exact loads other member path found

theorem overrides_of_loads {items : List (String × String)} (loads : Loads reader names items)
    (start : Entries Other Scalar) :
    ∃ result, items.foldlM (overrideWith reader names) start = .ok result := by
  induction items generalizing start with
  | nil => exact ⟨start, rfl⟩
  | cons item items ih =>
    have later := ih fun other member => loads other (List.mem_cons_of_mem _ member)
    rw [List.foldlM_cons, overrideWith_eq]
    cases taken : pathFor reader names item.1 with
    | none => exact later start
    | some path =>
      obtain ⟨value, loaded⟩ := loads item List.mem_cons_self path taken
      rw [loaded]
      exact later _

theorem pathFor_perm {order environ : Environ} (perm : order.items.Perm environ.items) :
    pathFor reader order.names = pathFor reader environ.names := by
  have named : "FCAM_DATABASE__URL" ∈ order.names ↔ "FCAM_DATABASE__URL" ∈ environ.names :=
    (perm.map Prod.fst).mem_iff
  funext key
  by_cases held : "FCAM_DATABASE__URL" ∈ environ.names
  · simp only [pathFor, held, named.mpr held]
  · simp only [pathFor, held, mt named.mp held]

theorem writeOf_perm {order environ : Environ} (perm : order.items.Perm environ.items) :
    writeOf reader order.names = writeOf reader environ.names := by
  funext item
  simp only [writeOf, pathFor_perm perm]

/-- One dictionary in every order, with the value of each variable at its path
unless another variable's path continues that path. -/
def Orderless (reader : Reader Other Scalar Failure) (environ : Environ) : Prop :=
  ∃ result,
    (∀ order : Environ, order.items.Perm environ.items → envOverrides reader order = .ok result) ∧
    ∀ one ∈ environ.items, ∀ path, pathFor reader environ.names one.1 = some path →
      (∀ other ∈ environ.items, other ≠ one → ∀ longer,
        pathFor reader environ.names other.1 = some longer → ¬path <+: longer) →
      ∃ value, reader.safeLoad one.2 = .ok value ∧ find path (some (.dict result)) = some value

/-- A variable that reaches into the value of another one finds its own value
there. -/
def Uncontested (reader : Reader Other Scalar Failure) (environ : Environ) : Prop :=
  ∀ one ∈ environ.items, ∀ other ∈ environ.items, one ≠ other → ∀ path rest,
    pathFor reader environ.names one.1 = some path →
    pathFor reader environ.names other.1 = some (path ++ rest) →
    ∀ value inner, reader.safeLoad one.2 = .ok value → reader.safeLoad other.2 = .ok inner →
      find rest (some value) = some inner

theorem writeOf_eq_some {item : String × String} {write : Write (YamlKey Other) Scalar} :
    writeOf reader names item = some write ↔
      pathFor reader names item.1 = some write.1 ∧ reader.safeLoad item.2 = .ok write.2 := by
  unfold writeOf
  split
  · rename_i path value taken loaded
    rw [taken, loaded, Option.some.injEq, Option.some.injEq, Except.ok.injEq, Prod.ext_iff]
  · rename_i neither
    constructor
    · nofun
    · rintro ⟨taken, loaded⟩
      exact absurd loaded (neither _ _ taken)

theorem uncontested_iff {environ : Environ} :
    Uncontested reader environ ↔
      (environ.items.filterMap (writeOf reader environ.names)).Pairwise Agree := by
  have distinct : environ.items.Nodup := List.Nodup.of_map _ environ.distinct
  rw [List.pairwise_filterMap]
  constructor
  · intro uncontested
    apply List.Nodup.pairwise_of_forall_ne distinct
    intro one member other member' ne first readFirst second readSecond
    obtain ⟨taken, loaded⟩ := writeOf_eq_some.mp readFirst
    obtain ⟨taken', loaded'⟩ := writeOf_eq_some.mp readSecond
    constructor
    · intro rest longer
      rw [longer] at taken'
      exact uncontested one member other member' ne _ rest taken taken' _ _ loaded loaded'
    · intro rest longer
      rw [longer] at taken
      exact uncontested other member' one member ne.symm _ rest taken' taken _ _ loaded' loaded
  · intro agree one member other member' ne path rest taken taken' value inner loaded loaded'
    have symmetric : Std.Symm fun one other : String × String =>
        ∀ first, writeOf reader environ.names one = some first →
          ∀ second, writeOf reader environ.names other = some second → Agree first second :=
      ⟨fun _ _ both second readSecond first readFirst =>
        (both first readFirst second readSecond).symm⟩
    have pair := agree.forall member member' ne (path, value) (writeOf_eq_some.mpr ⟨taken, loaded⟩)
      (path ++ rest, inner) (writeOf_eq_some.mpr ⟨taken', loaded'⟩)
    exact pair.1 rest rfl

theorem envOverrides_ok {order environ : Environ} {result : Entries Other Scalar}
    (perm : order.items.Perm environ.items) (ok : envOverrides reader order = .ok result) :
    putAll (order.items.filterMap (writeOf reader environ.names)) (some (.dict fun _ => none)) =
      some (.dict result) := by
  rw [← writeOf_perm perm]
  exact (overrides_ok ok).2

/-- The overrides are the same in every order exactly when every value is a YAML
document and no variable contests what another one says. -/
theorem overrides_orderless_iff (reader : Reader Other Scalar Failure) (environ : Environ) :
    Orderless reader environ ↔
      Loads reader environ.names environ.items ∧ Uncontested reader environ := by
  rw [uncontested_iff, ← putAll_orderless _ _ (some (.dict fun _ => none))]
  constructor
  · rintro ⟨result, same, -⟩
    refine ⟨(overrides_ok (same environ (.refl _))).1, ?_⟩
    intro order perm
    have first := envOverrides_ok (.refl _) (same environ (.refl _))
    have second := envOverrides_ok perm (same (environ.reorder order perm) perm)
    exact second.trans first.symm
  · rintro ⟨loads, orderless⟩
    obtain ⟨result, ok⟩ := overrides_of_loads loads fun _ => none
    have every : ∀ order : Environ, order.items.Perm environ.items →
        envOverrides reader order = .ok result := by
      intro order perm
      have reloads : Loads reader order.names order.items := by
        intro item member path taken
        rw [pathFor_perm perm] at taken
        exact loads item (perm.mem_iff.mp member) path taken
      obtain ⟨other, ok'⟩ := overrides_of_loads reloads fun _ => none
      have first := envOverrides_ok (.refl _) ok
      have second := envOverrides_ok perm ok'
      rw [orderless order.items perm, first] at second
      cases second
      exact ok'
    refine ⟨result, every, ?_⟩
    intro one member path taken _
    obtain ⟨value, loaded⟩ := loads one member path taken
    obtain ⟨front, back, split⟩ := List.append_of_mem member
    -- With the variable enumerated last, its value is the one that stands.
    have perm : (front ++ back ++ [one]).Perm environ.items := by
      rw [split, List.append_assoc]
      exact List.perm_append_comm.append_left front
    have put := envOverrides_ok perm (every (environ.reorder _ perm) perm)
    have read : writeOf reader environ.names one = some (path, value) :=
      writeOf_eq_some.mpr ⟨taken, loaded⟩
    rw [Environ.reorder, List.filterMap_append, List.filterMap_cons, read] at put
    have last := find_putAll_last ((front ++ back).filterMap (writeOf reader environ.names))
      (path, value) (some (.dict fun _ => none))
    exact ⟨value, loaded, (congrArg (find path) put).symm.trans last⟩

/-- Plain words, which YAML reads as strings. -/
def plainReader : Reader Empty String Unit := ⟨fun rawValue => .ok (.scalar rawValue), PyText.lower⟩

/-- A word for the whole section and a word for one of its settings. -/
def contested : Environ :=
  ⟨[("FCAM_SERVER", "off"), ("FCAM_SERVER__HOST", "localhost")], by decide⟩

/-- The setting is lost when the section comes after it. -/
theorem section_overrides : ¬Orderless plainReader contested := by
  rintro ⟨result, same, -⟩
  have swapped : (contested.items.reverse).Perm contested.items := List.reverse_perm _
  have straight := envOverrides_ok (.refl _) (same contested (.refl _))
  have reversed := envOverrides_ok swapped (same (contested.reorder _ swapped) swapped)
  have apart := congrArg (find [.text "server", .text "host"]) (straight.trans reversed.symm)
  have kept : find [.text "server", .text "host"] (putAll (contested.items.filterMap
      (writeOf plainReader contested.names)) (some (.dict fun _ => none))) =
      some (.scalar "localhost") := by
    rfl
  have lost : find [.text "server", .text "host"] (putAll (contested.items.reverse.filterMap
      (writeOf plainReader contested.names)) (some (.dict fun _ => none))) = none := by
    rfl
  rw [kept, Environ.reorder, lost] at apart
  cases apart

end FcamGateway.EnvOverrides
