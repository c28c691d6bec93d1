import FcamGateway.PathText

/-! The URL of the SQLite database, built from one configured path in three
places: by the service, by the migration environment and by the migration tool.
When all three name the file that the path itself denotes. -/
namespace FcamGateway.DatabaseUrl
open PathText

structure DatabaseConfig where
  path : List Char := "./data/api_manager.db".toList
  url : Option (List Char) := none

/-- The variables that the migration environment reads: `FCAM_DATABASE_URL`,
`FCAM_DATABASE__URL` and `FCAM_DATABASE__PATH`. -/
structure MigrationEnv where
  databaseUrl : Option (List Char) := none
  databaseNestedUrl : Option (List Char) := none
  databasePath : Option (List Char) := none

/-- `str.lstrip`: it takes a set of characters away, not a prefix. -/
def lstrip (chars text : List Char) : List Char := text.dropWhile (· ∈ chars)

/-- A string that is set and not empty. -/
def truthy (text : Option (List Char)) : Option (List Char) := text.filter (· ≠ [])

/-- `len(path) >= 3 and path[1:3] == ":/"`. -/
def isDrive (path : List Char) : Bool := 3 ≤ path.length && (path.drop 1).take 2 == [':', '/']

def buildDatabaseUrl (database : DatabaseConfig) : List Char :=
  match truthy database.url with
  | some url => url
  | none =>
    let path := slashes database.path
    if path.head? = some '/' then "sqlite:////".toList ++ lstrip ['/'] path
    else if isDrive path then "sqlite:///".toList ++ path
    else "sqlite:///./".toList ++ lstrip ['.', '/'] path

/-- `os.path.isabs`. -/
def isabs : Platform → List Char → Bool
  | .posix, path => path.head? = some '/'
  | .windows, path =>
    let start := slashes (path.take 3)
    start.head? = some '/' || start.drop 1 == [':', '/']

/-- `_database_url` of the migration environment; `database` is what
`load_config` gives. -/
def databaseUrl (platform : Platform) (environ : MigrationEnv) (database : DatabaseConfig) :
    List Char :=
  match truthy environ.databaseUrl, truthy environ.databaseNestedUrl, truthy environ.databasePath with
  | some url, _, _ => url
  | none, some url, _ => url
  | none, none, some path =>
    if isabs platform path then "sqlite:////".toList ++ lstrip ['/'] path
    else "sqlite:///".toList ++ path
  | none, none, none => buildDatabaseUrl database

def sqliteUrlFromPath (path : List Char) : List Char :=
  let normalized := slashes path
  if normalized.head? = some '/' then "sqlite:////".toList ++ lstrip ['/'] normalized
  else if isDrive normalized then "sqlite:///".toList ++ normalized
  else "sqlite:///".toList ++ normalized

/-! ## What a URL opens -/

inductive Opened where
  | file (place : Place)
  | memory
  | refused
deriving DecidableEq

/-- The database engine, as far as it is documented: what follows the three
slashes is a path, an empty one and `:memory:` are no file. Options begin at a
question mark, and nothing is said of them here. -/
structure Engine (platform : Platform) where
  opens : WorkingDirectory → List Char → Opened
  file : ∀ cwd path, path ≠ [] → path ≠ ":memory:".toList → '?' ∉ path →
    opens cwd ("sqlite:///".toList ++ path) = .file (abspath platform cwd path)
  memory : ∀ cwd, opens cwd "sqlite:///".toList = .memory ∧
    opens cwd "sqlite:///:memory:".toList = .memory

/-- All three URLs open the file that the path denotes. -/
def OneFile (platform : Platform) (path : List Char) : Prop :=
  ∀ (engine : Engine platform) (cwd : WorkingDirectory),
    engine.opens cwd (buildDatabaseUrl { path }) = .file (abspath platform cwd path) ∧
    engine.opens cwd (databaseUrl platform { databasePath := some path } { path }) =
      .file (abspath platform cwd path) ∧
    engine.opens cwd (sqliteUrlFromPath path) = .file (abspath platform cwd path)

/-- The path that the service puts into the URL of a relative one. -/
def shortened (path : List Char) : List Char := "./".toList ++ lstrip ['.', '/'] (slashes path)

/-- One slash, of the forward kind, and then a name. -/
def Rooted (path : List Char) : Prop :=
  ∃ rest, path = '/' :: rest ∧ rest.head? ≠ some '/' ∧ rest.head? ≠ some '\\'

/-- The path names a file by itself, and neither the slashes that are turned nor
the dots and slashes that are dropped belong to its meaning. -/
def Preserved (platform : Platform) (path : List Char) : Prop :=
  path ≠ [] ∧ path ≠ ":memory:".toList ∧ '?' ∉ path ∧
    match platform with
    | .posix =>
      normal .posix (slashes path) = normal .posix path ∧
        ((slashes path).head? = some '/' ∨ isDrive (slashes path) ∨
          normal .posix (shortened path) = normal .posix path)
    | .windows =>
      Rooted path ∨
        (anchored .windows path).1 = .here ∧ normal .windows (shortened path) = normal .windows path

variable {platform : Platform} {path : List Char}

/-! ## The path in each URL -/

/-- The path names a file, as a database in a URL. -/
def Named (path : List Char) : Prop := path ≠ [] ∧ path ≠ ":memory:".toList ∧ '?' ∉ path

def serviceFile (path : List Char) : List Char :=
  if (slashes path).head? = some '/' then '/' :: lstrip ['/'] (slashes path)
  else if isDrive (slashes path) then slashes path
  else shortened path

def migrationFile (platform : Platform) (path : List Char) : List Char :=
  if path = [] then serviceFile path
  else if isabs platform path then '/' :: lstrip ['/'] path
  else path

def toolFile (path : List Char) : List Char :=
  if (slashes path).head? = some '/' then '/' :: lstrip ['/'] (slashes path) else slashes path

theorem buildDatabaseUrl_eq (path : List Char) :
    buildDatabaseUrl { path } = "sqlite:///".toList ++ serviceFile path := by
  simp only [buildDatabaseUrl, serviceFile, truthy, Option.filter_none]
  split
  · rfl
  · split <;> rfl

theorem databaseUrl_eq (platform : Platform) (path : List Char) :
    databaseUrl platform { databasePath := some path } { path } =
      "sqlite:///".toList ++ migrationFile platform path := by
  by_cases empty : path = []
  · subst empty
    exact buildDatabaseUrl_eq []
  · have set : truthy (some path) = some path := by simp [truthy, empty]
    have unset : truthy none = none := rfl
    simp only [databaseUrl, set, unset, migrationFile, empty, ↓reduceIte]
    split <;> rfl

theorem sqliteUrlFromPath_eq (path : List Char) :
    sqliteUrlFromPath path = "sqlite:///".toList ++ toolFile path := by
  simp only [sqliteUrlFromPath, toolFile, ite_self]
  split <;> rfl

/-- An engine that knows no options. -/
def plainEngine (platform : Platform) : Engine platform where
  opens cwd url :=
    let path := url.drop "sqlite:///".toList.length
    if path = [] ∨ path = ":memory:".toList then .memory
    else if '?' ∈ path then .refused
    else .file (abspath platform cwd path)
  file cwd path filled disk plain := by
    rw [List.drop_left, if_neg (not_or.mpr ⟨filled, disk⟩), if_neg plain]
  memory cwd := ⟨rfl, rfl⟩

theorem opens_iff {built : List Char} :
    (∀ (engine : Engine platform) cwd,
      engine.opens cwd ("sqlite:///".toList ++ built) = .file (abspath platform cwd path)) ↔
      Named built ∧ normal platform built = normal platform path := by
  constructor
  · intro opens
    have plain := opens (plainEngine platform)
    simp only [plainEngine, List.drop_left] at plain
    have named : Named built := by
      by_contra bad
      have somewhere := plain (deepBelow 0 ['x'] (by simp [Proper]))
      split at somewhere
      · cases somewhere
      · rename_i filled
        split at somewhere
        · cases somewhere
        · rename_i asks
          rw [not_or] at filled
          exact bad ⟨filled.1, filled.2, asks⟩
    refine ⟨named, abspath_eq_iff.mp fun cwd => ?_⟩
    have opened := plain cwd
    rw [if_neg (not_or.mpr ⟨named.1, named.2.1⟩), if_neg named.2.2] at opened
    exact Opened.file.inj opened
  · rintro ⟨named, same⟩ engine cwd
    rw [engine.file cwd built named.1 named.2.1 named.2.2, abspath_eq_iff.mpr same]

/-- The three paths, each against the one that is meant. -/
theorem oneFile_parts : OneFile platform path ↔
    (Named (serviceFile path) ∧ normal platform (serviceFile path) = normal platform path) ∧
    (Named (migrationFile platform path) ∧
      normal platform (migrationFile platform path) = normal platform path) ∧
    Named (toolFile path) ∧ normal platform (toolFile path) = normal platform path := by
  simp only [OneFile, buildDatabaseUrl_eq, databaseUrl_eq, sqliteUrlFromPath_eq, ← opens_iff]
  constructor
  · intro all
    exact ⟨fun engine cwd => (all engine cwd).1, fun engine cwd => (all engine cwd).2.1,
      fun engine cwd => (all engine cwd).2.2⟩
  · intro each engine cwd
    exact ⟨each.1 engine cwd, each.2.1 engine cwd, each.2.2 engine cwd⟩

/-! ## Text of paths -/

theorem mem_lstrip {c : Char} {chars text : List Char} (kept : c ∉ chars) :
    c ∈ lstrip chars text ↔ c ∈ text := by
  induction text with
  | nil => exact Iff.rfl
  | cons head text ih =>
    simp only [lstrip, List.dropWhile_cons] at ih ⊢
    split
    · rename_i dropped
      have other : c ≠ head := fun same => kept (same ▸ of_decide_eq_true dropped)
      rw [ih, List.mem_cons]
      simp [other]
    · exact Iff.rfl

theorem mem_slashes_mark : '?' ∈ slashes path ↔ '?' ∈ path := by
  simp only [slashes, List.mem_map]
  constructor
  · rintro ⟨c, member, same⟩
    split at same
    · contradiction
    · exact same ▸ member
  · intro member
    exact ⟨'?', member, by decide⟩

theorem slashes_slashes (path : List Char) : slashes (slashes path) = slashes path := by
  simp only [slashes, List.map_map]
  apply List.map_congr_left
  intro c _
  simp only [Function.comp]
  split
  · decide
  · rfl

theorem normal_windows_slashes (path : List Char) :
    normal .windows (slashes path) = normal .windows path := by
  have same : anchored .windows (slashes path) = anchored .windows path :=
    congrArg anchoredSlashes (slashes_slashes path)
  rw [normal, same]
  rfl

theorem courseOf_slash (text : List Char) : courseOf ('/' :: text) = courseOf text := by
  simp [courseOf, List.splitOn_cons_eq_if_modifyHead, Course.enter]

theorem courseOf_lstrip (text : List Char) : courseOf (lstrip ['/'] text) = courseOf text := by
  induction text with
  | nil => rfl
  | cons c text ih =>
    by_cases slash : c = '/'
    · subst slash
      rw [courseOf_slash, ← ih]
      rfl
    · simp [lstrip, slash]

theorem lstrip_head {chars text : List Char} {c : Char} (first : (lstrip chars text).head? = some c) :
    c ∉ chars := by
  intro member
  have := List.head?_dropWhile_not (· ∈ chars) text
  rw [show (text.dropWhile (· ∈ chars)).head? = some c from first] at this
  simp [member] at this

theorem slashes_eq_nil : slashes path = [] ↔ path = [] := List.map_eq_nil_iff

/-- Slashes that are turned show. -/
theorem slashes_eq_self {text : List Char} (same : slashes path = text) (plain : '/' ∉ text) :
    path = text := by
  subst same
  have unturned : ∀ c ∈ path, c ≠ '\\' := by
    rintro c member rfl
    exact plain (List.mem_map.mpr ⟨_, member, rfl⟩)
  symm
  calc slashes path = path.map id :=
        List.map_congr_left fun c member => if_neg (unturned c member)
    _ = path := List.map_id path

theorem slash_named {chars text : List Char} (kept : '?' ∉ chars) :
    Named ('/' :: lstrip chars text) ↔ '?' ∉ text := by
  simp [Named, mem_lstrip kept]

theorem toolFile_named : Named (toolFile path) ↔ Named path := by
  unfold toolFile
  split
  · rename_i absolute
    have filled : path ≠ [] := by
      rintro rfl
      cases absolute
    have disk : path ≠ ":memory:".toList := by
      rintro rfl
      simp [slashes] at absolute
    rw [slash_named (by decide), mem_slashes_mark]
    exact ⟨fun plain => ⟨filled, disk, plain⟩, fun named => named.2.2⟩
  · have memory : slashes path = ":memory:".toList ↔ path = ":memory:".toList :=
      ⟨fun same => slashes_eq_self same (by decide), fun same => by rw [same]; decide⟩
    simp only [Named, ne_eq, slashes_eq_nil, memory, mem_slashes_mark]

theorem serviceFile_named : Named (serviceFile path) ↔ '?' ∉ path := by
  unfold serviceFile
  split
  · rw [slash_named (by decide), mem_slashes_mark]
  · split
    · rename_i drive
      have filled : slashes path ≠ [] := by
        intro empty
        rw [empty] at drive
        cases drive
      have disk : slashes path ≠ ":memory:".toList := by
        intro same
        rw [same] at drive
        revert drive
        decide
      simp only [Named, ne_eq, filled, disk, mem_slashes_mark, not_false_eq_true, true_and]
    · simp [Named, shortened, mem_lstrip, mem_slashes_mark]

theorem migrationFile_named (filled : path ≠ []) (disk : path ≠ ":memory:".toList) :
    Named (migrationFile platform path) ↔ '?' ∉ path := by
  unfold migrationFile
  rw [if_neg filled]
  split
  · exact slash_named (by decide)
  · simp only [Named, ne_eq, filled, disk, not_false_eq_true, true_and]

/-! ## POSIX -/

theorem normal_posix_lstrip (absolute : path.head? = some '/') :
    normal .posix ('/' :: lstrip ['/'] path) = normal .posix path := by
  obtain ⟨rest, rfl⟩ : ∃ rest, path = '/' :: rest := List.head?_eq_some_iff.mp absolute
  have same : courseOf (lstrip ['/'] ('/' :: rest)) = courseOf rest :=
    (courseOf_lstrip _).trans (courseOf_slash rest)
  simp only [normal, anchored, same]

theorem normal_posix_toolFile : normal .posix (toolFile path) = normal .posix (slashes path) := by
  unfold toolFile
  split
  · rename_i absolute
    exact normal_posix_lstrip absolute
  · rfl

theorem normal_posix_migrationFile (filled : path ≠ []) :
    normal .posix (migrationFile .posix path) = normal .posix path := by
  unfold migrationFile
  rw [if_neg filled]
  split
  · rename_i absolute
    exact normal_posix_lstrip (of_decide_eq_true absolute)
  · rfl

theorem normal_posix_serviceFile (turned : normal .posix (slashes path) = normal .posix path) :
    normal .posix (serviceFile path) = normal .posix path ↔
      (slashes path).head? = some '/' ∨ isDrive (slashes path) ∨
        normal .posix (shortened path) = normal .posix path := by
  unfold serviceFile
  split
  · rename_i absolute
    rw [normal_posix_lstrip absolute]
    exact iff_of_true turned (.inl absolute)
  · rename_i relative
    split
    · rename_i drive
      exact iff_of_true turned (.inr (.inl drive))
    · rename_i plain
      simp [relative, plain]

theorem oneFile_posix : OneFile .posix path ↔ Preserved .posix path := by
  rw [oneFile_parts, toolFile_named, serviceFile_named, normal_posix_toolFile]
  constructor
  · rintro ⟨⟨_, served⟩, -, named, turned⟩
    exact ⟨named.1, named.2.1, named.2.2, turned, (normal_posix_serviceFile turned).mp served⟩
  · rintro ⟨filled, disk, plain, turned, kept⟩
    exact ⟨⟨plain, (normal_posix_serviceFile turned).mpr kept⟩,
      ⟨(migrationFile_named filled disk).mpr plain, normal_posix_migrationFile filled⟩,
      ⟨filled, disk, plain⟩, turned⟩

/-! ## Windows -/

/-- The five kinds of paths. -/
inductive Kind : List Char → Anchor → Prop where
  | share (rest : List Char) : Kind ('/' :: '/' :: rest) .share
  | root (rest : List Char) (single : rest.head? ≠ some '/') : Kind ('/' :: rest) .root
  | drive (letter : Char) (rest : List Char) (name : letter ≠ '/') :
    Kind (letter :: ':' :: '/' :: rest) (.drive letter)
  | driveHere (letter : Char) (rest : List Char) (name : letter ≠ '/') (open_ : rest.head? ≠ some '/') :
    Kind (letter :: ':' :: rest) (.driveHere letter)
  | here (path : List Char) (relative : path.head? ≠ some '/') (undriven : path[1]? ≠ some ':') :
    Kind path .here

theorem head_ne {text : List Char} {c : Char} (other : ∀ rest, text = c :: rest → False) :
    text.head? ≠ some c := by
  intro first
  obtain ⟨rest, same⟩ := List.head?_eq_some_iff.mp first
  exact other rest same

theorem kind_of (path : List Char) : Kind path (anchoredSlashes path).1 := by
  fun_cases anchoredSlashes path with
  | case1 rest => exact .share rest
  | case2 rest single => exact .root rest (head_ne single)
  | case3 letter rest name => exact .drive letter rest name
  | case4 letter rest name undriven => exact .driveHere letter rest name (head_ne undriven)
  | case5 path _ relative _ undriven =>
    apply Kind.here path (head_ne relative)
    intro second
    match path, second with
    | letter :: _ :: rest, rfl => exact undriven letter rest rfl

theorem not_mem_slashes : '\\' ∉ slashes path := by
  intro member
  obtain ⟨c, -, same⟩ := List.mem_map.mp member
  split at same
  · contradiction
  · rename_i other
    exact other same

/-- A single slash before other text is the root. -/
theorem anchored_root {rest : List Char} (single : rest.head? ≠ some '/')
    (single' : rest.head? ≠ some '\\') : (anchored .windows ('/' :: rest)).1 = .root := by
  cases rest with
  | nil => rfl
  | cons c rest =>
    have forward : c ≠ '/' := fun same => single (same ▸ rfl)
    have backward : c ≠ '\\' := fun same => single' (same ▸ rfl)
    simp [anchored, slashes, anchoredSlashes, forward, backward]

theorem anchored_of_normal {one other : List Char}
    (same : normal platform one = normal platform other) :
    (anchored platform one).1 = (anchored platform other).1 := by
  simpa only [normal] using congrArg Prod.fst same

theorem head_lstrip_slashes {c : Char} (first : (lstrip ['/'] (slashes path)).head? = some c) :
    c ≠ '/' ∧ c ≠ '\\' := by
  constructor
  · rintro rfl
    exact lstrip_head first (by decide)
  · rintro rfl
    have member := (List.dropWhile_sublist _).subset (List.mem_of_head? first)
    exact not_mem_slashes member

/-- What the service makes of a path with a leading slash is at the root. -/
theorem serviceFile_root (absolute : (slashes path).head? = some '/') :
    (anchored .windows (serviceFile path)).1 = .root := by
  rw [serviceFile, if_pos absolute]
  apply anchored_root
  · exact fun first => (head_lstrip_slashes first).1 rfl
  · exact fun first => (head_lstrip_slashes first).2 rfl

theorem anchored_shortened : (anchored .windows (shortened path)).1 = .here := rfl

theorem lstrip_of_head {chars text : List Char} (other : ∀ c, text.head? = some c → c ∉ chars) :
    lstrip chars text = text := by
  cases text with
  | nil => rfl
  | cons c text => simp [lstrip, other c rfl]

theorem not_rooted (other : (anchored .windows path).1 ≠ .root) : ¬Rooted path := by
  rintro ⟨rest, rfl, single, single'⟩
  exact other (anchored_root single single')

theorem isDrive_iff : isDrive path = true ↔ ∃ letter rest, path = letter :: ':' :: '/' :: rest := by
  constructor
  · intro drive
    match path, drive with
    | letter :: second :: third :: rest, drive =>
      have both : [second, third] = [':', '/'] := by simpa [isDrive] using drive
      cases both
      exact ⟨letter, rest, rfl⟩
  · rintro ⟨letter, rest, rfl⟩
    simp [isDrive]

theorem isabs_windows_iff : isabs .windows path = true ↔
    (slashes path).head? = some '/' ∨ isDrive (slashes path) = true := by
  have start : slashes (path.take 3) = (slashes path).take 3 := by simp [slashes, List.map_take]
  match turned : slashes path with
  | [] => simp [isabs, start, turned, isDrive]
  | [_] => simp [isabs, start, turned, isDrive]
  | [_, _] => simp [isabs, start, turned, isDrive]
  | _ :: _ :: _ :: _ => simp [isabs, start, turned, isDrive]

/-- Behind a slash of its own no drive is a drive. -/
theorem migrationFile_drive {letter : Char} {rest : List Char} (name : letter ≠ '/')
    (turned : slashes path = letter :: ':' :: '/' :: rest) :
    (anchored .windows (migrationFile .windows path)).1 = .root := by
  have filled : path ≠ [] := by
    rintro rfl
    cases turned
  have absolute : isabs .windows path = true :=
    isabs_windows_iff.mpr (.inr (isDrive_iff.mpr ⟨letter, rest, turned⟩))
  have kept : lstrip ['/'] path = path := by
    apply lstrip_of_head
    intro c first member
    obtain rfl := List.mem_singleton.mp member
    obtain ⟨later, rfl⟩ := List.head?_eq_some_iff.mp first
    exact name (List.cons.inj turned).1.symm
  rw [migrationFile, if_neg filled, if_pos absolute, kept]
  simp [anchored, slashes, anchoredSlashes, show path.map _ = _ from turned, name]

/-- A path that begins with a backslash gets a slash before it. -/
theorem migrationFile_backslash {rest : List Char} :
    (anchored .windows (migrationFile .windows ('\\' :: rest))).1 = .share := rfl

theorem lstrip_single {rest : List Char} (single : rest.head? ≠ some '/') :
    lstrip ['/'] ('/' :: rest) = rest := by
  have same : lstrip ['/'] rest = rest := by
    apply lstrip_of_head
    intro c first member
    exact single (List.mem_singleton.mp member ▸ first)
  exact same

theorem migrationFile_rooted {rest : List Char} (single : rest.head? ≠ some '/') :
    migrationFile .windows ('/' :: rest) = '/' :: rest := by
  have absolute : isabs .windows ('/' :: rest) = true := isabs_windows_iff.mpr (.inl rfl)
  rw [migrationFile, if_neg (List.cons_ne_nil _ _), if_pos absolute, lstrip_single single]

theorem slashes_root {rest : List Char} (turned : slashes path = '/' :: rest) :
    ∃ later, (path = '/' :: later ∨ path = '\\' :: later) ∧ slashes later = rest := by
  cases path with
  | nil => cases turned
  | cons c later =>
    obtain ⟨first, same⟩ := List.cons.inj turned
    refine ⟨later, ?_, same⟩
    by_cases backward : c = '\\'
    · exact .inr (backward ▸ rfl)
    · have forward : c = '/' := by simpa [backward] using first
      exact .inl (forward ▸ rfl)

theorem slashes_single {rest : List Char} (single : (slashes rest).head? ≠ some '/') :
    rest.head? ≠ some '/' ∧ rest.head? ≠ some '\\' := by
  constructor
  · intro first
    obtain ⟨later, rfl⟩ := List.head?_eq_some_iff.mp first
    exact single rfl
  · intro first
    obtain ⟨later, rfl⟩ := List.head?_eq_some_iff.mp first
    exact single rfl

theorem oneFile_windows : OneFile .windows path ↔ Preserved .windows path := by
  rw [oneFile_parts, toolFile_named, serviceFile_named]
  have kind := kind_of (slashes path)
  generalize turned : slashes path = q at kind
  generalize found : (anchoredSlashes q).1 = anchor at kind
  have anchored_path : (anchored .windows path).1 = anchor := by rw [← found, ← turned]; rfl
  have apart {built : List Char} {other : Anchor} (elsewhere : (anchored .windows built).1 = other)
      (ne : other ≠ anchor) : normal .windows built ≠ normal .windows path := fun same =>
    ne (elsewhere.symm.trans ((anchored_of_normal same).trans anchored_path))
  cases kind with
  | share rest =>
    have served := apart (serviceFile_root (by rw [turned]; rfl)) (by decide)
    apply iff_of_false
    · exact fun parts => served parts.1.2
    · rintro ⟨-, -, -, rooted | ⟨relative, -⟩⟩
      · exact not_rooted (by rw [anchored_path]; decide) rooted
      · rw [anchored_path] at relative
        cases relative
  | root rest single =>
    obtain ⟨later, rfl | rfl, same⟩ := slashes_root turned
    · obtain ⟨forward, backward⟩ := slashes_single (same ▸ single)
      have tool : toolFile ('/' :: later) = slashes ('/' :: later) := by
        rw [toolFile, turned, if_pos List.head?_cons, lstrip_single single]
      have service : serviceFile ('/' :: later) = slashes ('/' :: later) := by
        rw [serviceFile, turned, if_pos List.head?_cons, lstrip_single single]
      have disk : '/' :: later ≠ ":memory:".toList := by simp
      rw [tool, service, migrationFile_rooted forward, normal_windows_slashes]
      constructor
      · intro parts
        exact ⟨List.cons_ne_nil _ _, disk, parts.1.1, .inl ⟨later, rfl, forward, backward⟩⟩
      · rintro ⟨filled, -, plain, -⟩
        exact ⟨⟨plain, rfl⟩, ⟨⟨filled, disk, plain⟩, rfl⟩, ⟨filled, disk, plain⟩, rfl⟩
    · have migrated := apart (@migrationFile_backslash later) (by decide)
      apply iff_of_false
      · exact fun parts => migrated parts.2.1.2
      · rintro ⟨-, -, -, ⟨_, rooted, -⟩ | ⟨relative, -⟩⟩
        · cases rooted
        · rw [anchored_path] at relative
          cases relative
  | drive letter rest name =>
    have migrated := apart (migrationFile_drive name turned) (by nofun)
    apply iff_of_false
    · exact fun parts => migrated parts.2.1.2
    · rintro ⟨-, -, -, rooted | ⟨relative, -⟩⟩
      · exact not_rooted (by rw [anchored_path]; nofun) rooted
      · rw [anchored_path] at relative
        cases relative
  | driveHere letter rest name undriven =>
    have relative : ¬(slashes path).head? = some '/' := by simpa [turned] using name
    have drive : ¬isDrive (slashes path) = true := by
      intro drive
      obtain ⟨_, _, same⟩ := isDrive_iff.mp drive
      rw [turned] at same
      cases same
      exact undriven rfl
    have service : serviceFile path = shortened path := by
      rw [serviceFile, if_neg relative, if_neg drive]
    have served := apart (service ▸ anchored_shortened) (by nofun)
    apply iff_of_false
    · exact fun parts => served parts.1.2
    · rintro ⟨-, -, -, rooted | ⟨elsewhere, -⟩⟩
      · exact not_rooted (by rw [anchored_path]; nofun) rooted
      · rw [anchored_path] at elsewhere
        cases elsewhere
  | here _ relative undriven =>
    rw [← turned] at relative undriven
    have drive : ¬isDrive (slashes path) = true := by
      intro drive
      obtain ⟨_, _, same⟩ := isDrive_iff.mp drive
      exact undriven (same ▸ rfl)
    have service : serviceFile path = shortened path := by
      rw [serviceFile, if_neg relative, if_neg drive]
    have tool : toolFile path = slashes path := by rw [toolFile, if_neg relative]
    have inner : ¬isabs .windows path = true := fun absolute =>
      (isabs_windows_iff.mp absolute).elim relative drive
    have migration (filled : path ≠ []) : migrationFile .windows path = path := by
      rw [migrationFile, if_neg filled, if_neg inner]
    rw [service, tool, normal_windows_slashes]
    constructor
    · rintro ⟨⟨-, same⟩, -, named, -⟩
      exact ⟨named.1, named.2.1, named.2.2, .inr ⟨anchored_path, same⟩⟩
    · rintro ⟨filled, disk, plain, rooted | ⟨-, same⟩⟩
      · exact absurd rooted (not_rooted (by rw [anchored_path]; decide))
      · rw [migration filled]
        exact ⟨⟨plain, same⟩, ⟨⟨filled, disk, plain⟩, rfl⟩, ⟨filled, disk, plain⟩, rfl⟩

/-- One path is one database file exactly when it is preserved. -/
theorem one_file_iff (platform : Platform) (path : List Char) :
    OneFile platform path ↔ Preserved platform path := by
  cases platform with
  | posix => exact oneFile_posix
  | windows => exact oneFile_windows

example : Preserved .posix "./data/api_manager.db".toList :=
  ⟨by decide, by decide, by decide, by decide, .inr (.inr (by decide))⟩

/-- The parent directory is dropped: the service opens another file. -/
theorem parent_dropped : ¬OneFile .posix "../data/x.db".toList := by
  intro same
  have opened := (same (plainEngine .posix) (deepBelow 1 ['x'] (by simp [Proper]))).1
  revert opened
  decide

end FcamGateway.DatabaseUrl
