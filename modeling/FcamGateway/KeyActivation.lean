import FcamGateway.KeyTasks

/-! A disabled key stays disabled. Objects that were loaded before the key was disabled are
still written afterwards, but none of them carries an active flag that was switched on, so
only an administrator's own write brings the key back. -/
namespace FcamGateway.KeyTasks
open Prog Forwarder KeyAdmin KeyVerdicts CreditRefresh

set_option linter.unusedSectionVars false

variable {R : Type} [Field R] [LinearOrder R] [ScoreMath R]

/-- The row object switches the key on. -/
def SwitchesOn (id : Nat) (key : KeyObject) : Prop :=
  key.id = id ∧ key.loaded.isActive = false ∧ key.current.isActive = true

/-- The event sets the key active in the table, or takes its row away. -/
def Restores (id : Nat) : Happening R → Prop
  | ⟨.inl (.commit batch), reply⟩ => reply = true ∧ ∃ key ∈ batch.keys, SwitchesOn id key
  | ⟨.inr (.commitImport _ changed), reply⟩ => reply = true ∧ ∃ key ∈ changed, SwitchesOn id key
  | ⟨.inr (.purgeKey other), reply⟩ => reply = true ∧ other = id
  | _ => False

/-- The question looks keys up. -/
def Queries : Question R → Prop
  | .inl op => Reads op
  | .inr _ => False

/-- The question asks for a slot of the key or sends its secret. -/
def Uses (id : Nat) : Question R → Prop
  | .inl (.allow other _) => other = id
  | .inl (.acquire other _) => other = id
  | .inl (.request other _) => other = id
  | .inl (.probe other _) => other = id
  | _ => False

/-- After a lookup in the middle part the thread does not use the key, there or later, until it
looks keys up again. -/
def Unused {Thread : Type} (id : Nat) (thread : Thread)
    (middle back : Trace Thread (Question R) (Answer R)) : Prop :=
  ∀ early lookup late between use rest, middle = early ++ (thread, lookup) :: late →
    Queries lookup.op → late ++ back = between ++ (thread, use) :: rest → Uses id use.op →
    ∃ entry ∈ between, entry.1 = thread ∧ Queries entry.2.op

variable {store last : Store} {keys : Table KeyColumns} {id : Nat} {key : KeyObject}
  {row : KeyColumns} {event : Happening R}

theorem off_flush (kept : ¬ (key.loaded.isActive = false ∧ key.current.isActive = true))
    (off : row.isActive = false) : (key.flush row).isActive = false := by
  change written key.loaded.isActive key.current.isActive row.isActive = false
  unfold written
  split
  · exact off
  · rename_i changed
    cases loaded : key.loaded.isActive with
    | false =>
      cases current : key.current.isActive with
      | false => rfl
      | true => exact absurd ⟨loaded, current⟩ kept
    | true =>
      cases current : key.current.isActive with
      | false => rfl
      | true => exact absurd (current.trans loaded.symm) changed

/-- Objects that do not switch the key on leave it off. -/
theorem off_flushed (objects : List KeyObject) (kept : ∀ key ∈ objects, ¬ SwitchesOn id key)
    (off : ∃ row, keys.get? id = some row ∧ row.isActive = false) :
    ∃ row, (objects.foldl Store.flushKey keys).get? id = some row ∧ row.isActive = false := by
  induction objects generalizing keys with
  | nil => exact off
  | cons key objects ih =>
    refine ih (fun other member => kept other (List.mem_cons_of_mem _ member)) ?_
    obtain ⟨row, found, off⟩ := off
    by_cases same : id = key.id
    · subst same
      refine ⟨key.flush row, ?_, off_flush (fun on => ?_) off⟩
      · rw [Store.get_flushKey_self, found, Option.map_some]
      · exact kept key List.mem_cons_self ⟨rfl, on⟩
    · exact ⟨row, (Store.get_flushKey_other same).trans found, off⟩

/-- New rows leave those that are there alone. -/
theorem get_insertRows {next : Table KeyColumns} (rows : List KeyObject)
    (added : insertRows keys rows = some next) (found : keys.get? id = some row) :
    next.get? id = some row := by
  induction rows generalizing keys with
  | nil =>
    cases added
    exact found
  | cons key rows ih =>
    obtain ⟨middle, inserted, rest⟩ := Option.bind_eq_some_iff.mp added
    refine ih rest ?_
    rw [Table.get_insert inserted, if_neg, found]
    rintro rfl
    obtain ⟨above, _⟩ := Table.insert_some inserted
    exact Nat.lt_irrefl _ (above _ (Table.get_some.mp found).1)

/-- What does not restore a disabled key leaves it disabled. -/
theorem struck_moves (struck : Struck id store) (kept : ¬ Restores id event)
    (moved : moves store event last) : Struck id last := by
  obtain ⟨op | op, reply⟩ := event
  · cases op with
    | commit batch =>
      obtain ⟨yes, _, rfl⟩ | ⟨_, rfl⟩ := moved
      · exact off_flushed batch.keys (fun key member on => kept ⟨yes, key, member, on⟩) struck
      · exact struck
    | clearRefresh ids =>
      obtain ⟨_, rfl⟩ | ⟨_, rfl⟩ := moved
      · obtain ⟨row, found, off⟩ := struck
        refine ⟨if id ∈ ids then { row with nextRefreshAt := none } else row, ?_, ?_⟩
        · change (Store.clearRefresh store.keys ids).get? id = _
          rw [Store.get_clearRefresh, found, Option.map_some]
        · split <;> exact off
      · exact struck
    | readPool provider exclude => exact moved.1 ▸ struck
    | findKey other => exact moved.1 ▸ struck
    | reload other => exact moved.1 ▸ struck
    | listKeys => exact moved.1 ▸ struck
    | _ => exact Eq.mpr (congrArg (Struck id) moved) struck
  · cases op with
    | commitImport inserted changed =>
      obtain ⟨yes, next, added, _, rfl⟩ | ⟨_, rfl⟩ := moved
      · obtain ⟨row, found, off⟩ := struck
        exact off_flushed changed (fun key member on => kept ⟨yes, key, member, on⟩)
          ⟨row, get_insertRows inserted added found, off⟩
      · exact struck
    | purgeKey other =>
      obtain ⟨yes, rfl⟩ | ⟨_, rfl⟩ := moved
      · obtain ⟨row, found, off⟩ := struck
        refine ⟨row, ?_, off⟩
        change (store.keys.delete _).get? id = _
        rw [Table.get_delete, found, Option.filter_some, if_pos]
        refine Bool.not_eq_true' _ |>.mpr (decide_eq_false fun same => kept ⟨yes, same.symm⟩)
      · exact struck
    | _ => exact Eq.mpr (congrArg (Struck id) moved) struck

/-- No question that a plain task may ask restores a key. -/
theorem watched_keeps {control : ControlPlane R} {task : Task} {events : List (Happening R)}
    (allowed : Watched control task events event.op) : ¬ Restores id event := by
  obtain ⟨op | op, reply⟩ := event
  · cases op with
    | commit batch =>
      rintro ⟨_, key, member, _, off, on⟩
      exact Bool.false_ne_true (off.symm.trans ((allowed key member).1.dormant on))
    | _ => exact False.elim
  · cases op with
    | commitImport inserted changed =>
      rintro ⟨_, key, member, _, off, on⟩
      exact Bool.false_ne_true (off.symm.trans ((allowed key member).1.dormant on))
    | purgeKey other => exact absurd allowed False.elim
    | _ => exact False.elim

section Threads
variable {Thread : Type} [DecidableEq Thread] {control : Thread → ControlPlane R}
  {vault : KeyVault} {tasks : Thread → Task} {thread : Thread} {start before after : Store}
  {front middle back : Trace Thread (Question R) (Answer R)}

/-- One event of a run in which no administrator restores the key. -/
theorem struck_step (asking : Asking (programs control vault tasks) front thread event.op)
    (kept : (tasks thread).Administrative → ¬ Restores id event) (struck : Struck id store)
    (moved : moves store event last) : Struck id last := by
  by_cases admin : (tasks thread).Administrative
  · exact struck_moves struck (kept admin) moved
  · exact struck_moves struck (watched_keeps (asking_watched admin asking)) moved

/-- A part of a run in which no administrator restores the key. -/
theorem struck_through
    (run : Interleaved (programs control vault tasks) moves start (front ++ middle) after)
    (reached : Interleaved (programs control vault tasks) moves start front before)
    (kept : ∀ entry ∈ middle, (tasks entry.1).Administrative → ¬ Restores id entry.2)
    (struck : Struck id before) : Struck id after := by
  induction middle using List.reverseRecOn generalizing after with
  | nil =>
    rw [List.append_nil] at run
    rwa [← follows_unique reached.shared run.shared]
  | append_singleton middle entry ih =>
    rw [← List.append_assoc] at run
    obtain ⟨last, next, earlier, moved, _, ended, asking⟩ := run.at
    cases ended
    have struck := ih earlier fun other member => kept other (List.mem_append_left _ member)
    exact struck_step asking
      (kept entry (List.mem_append_right _ (List.mem_singleton_self _))) struck moved

/-- The gateway's part of a thread's exchange after a lookup, if it looked nothing up since. -/
theorem quiet_between {between : Trace Thread (Question R) (Answer R)}
    (still : ¬ ∃ entry ∈ between, entry.1 = thread ∧ Queries entry.2.op) :
    ∀ event ∈ inner (own thread between), ¬ Reads event.op := by
  intro event member reads
  obtain ⟨⟨op | op, reply⟩, inside, same⟩ := List.mem_filterMap.mp member
  · cases same
    exact still ⟨_, mem_own.mp inside, rfl, reads⟩
  · cases same

/-- A forward that looked keys up while the key was disabled does not use it. -/
theorem forward_unused {call : Call} (forwards : tasks thread = .forward call)
    (run : Interleaved (programs control vault tasks) moves start (front ++ (middle ++ back)) last)
    (struck : ∀ early lookup late store next, middle = early ++ (thread, lookup) :: late →
      moves store lookup next → Follows moves start ((front ++ early).map Prod.snd) store →
      Struck id store) : Unused id thread middle back := by
  intro early lookup late between use rest same queries split uses
  by_contra still
  subst same
  -- the thread's demand where it uses the key, and the state its lookup found
  have whole : front ++ (early ++ (thread, lookup) :: late ++ back) =
      (front ++ early ++ (thread, lookup) :: between) ++ (thread, use) :: rest := by
    simp only [List.append_assoc, List.cons_append, split]
  rw [whole] at run
  obtain ⟨_, _, earlier, _, _, _, asking⟩ := run.at
  have plain : ¬ (tasks thread).Administrative := by
    rw [forwards]
    exact False.elim
  have allowed := asking_watched plain asking
  rw [forwards] at allowed
  have offered : Offered Reads (fun row => row.isActive = true)
      (inner (own thread (front ++ early ++ (thread, lookup) :: between))) id := by
    obtain ⟨op | op, reply⟩ := use
    · cases op with
      | allow other rate => exact uses ▸ allowed
      | acquire other maximum => exact uses ▸ allowed
      | request other sent => exact uses ▸ allowed
      | probe other secret => exact uses ▸ allowed
      | _ => exact absurd uses False.elim
    · exact absurd uses False.elim
  obtain ⟨op | op, reply⟩ := lookup
  case inr => exact absurd queries False.elim
  obtain ⟨load, later, row, ⟨⟨first, parts⟩, quiet⟩, reads, loaded, on⟩ := offered
  rw [own_append, own_self, inner_append] at parts
  change _ ++ (⟨op, reply⟩ : Event (Op R) (Reply R)) :: inner (own thread between) = _ at parts
  rcases split_cases parts with ⟨_, rfl, _⟩ | ⟨gap, _, tail⟩ | ⟨gap, _, tail⟩
  · rw [List.append_assoc, ← List.append_assoc] at earlier
    obtain ⟨store, next, reached, moved, _⟩ := earlier.at
    obtain ⟨found, _⟩ := moves_loaded loaded moved
    obtain ⟨other, there, off⟩ := struck early ⟨.inl op, reply⟩ late store next rfl moved reached.shared
    rw [found] at there
    cases there
    exact Bool.false_ne_true (off.symm.trans on)
  · refine quiet_between still load ?_ reads
    rw [tail]
    exact List.mem_append_right _ List.mem_cons_self
  · refine quiet ⟨op, reply⟩ ?_ queries
    rw [tail]
    exact List.mem_append_right _ List.mem_cons_self

/-- Only an administrator enables a key. Once its row is inactive it stays so through every part
of a run in which no `update_key`, `batch_keys` or `revive_key` restores it, and a forward that
looks keys up in that part does not use it. -/
theorem only_administrators_enable
    (earlier : Interleaved (programs control vault tasks) moves start front before)
    (off : Struck id before)
    (later : Interleaved (programs control vault tasks) moves start (front ++ middle) after)
    (kept : ∀ entry ∈ middle, (tasks entry.1).Administrative → ¬ Restores id entry.2) :
    Struck id after ∧ ∀ thread call back last, tasks thread = .forward call →
      Interleaved (programs control vault tasks) moves start (front ++ (middle ++ back)) last →
      Unused id thread middle back := by
  refine ⟨struck_through later earlier kept off, fun thread call back last forwards run => ?_⟩
  refine forward_unused forwards run fun early lookup late store next same moved reached => ?_
  subst same
  rw [← List.append_assoc, ← List.append_assoc] at run
  rw [List.append_assoc front] at run
  obtain ⟨middleState, upto, _⟩ := run.before
  rw [← List.append_assoc] at upto
  obtain ⟨here, _, part, _⟩ := upto.at
  obtain rfl := follows_unique reached part.shared
  exact struck_through part earlier
    (fun entry member => kept entry (List.mem_append_left _ member)) off

end Threads

def plainVault : KeyVault :=
  { hmacSha256Hex := fun _ text => text, encryptApiKey := fun _ _ _ => [2]
    encryptAccountPassword := fun _ _ _ => [] }

def openControl (config : AppConfig ℚ) : ControlPlane ℚ :=
  { setup := { foreign := openCipher, config, runtime := none, masterKey := some [] } }

/-- A key test, an update that disables the tested key, and a forward. -/
def disabling : Nat → Task
  | 0 => .testKey "r" 1 "scrape" "https://example.com"
  | 1 => .updateKey [] false 1 { isActive := some false }
  | _ => .forward { requestId := "r", client := ClientObject.fresh 1 {}, method := "POST"
                    upstreamPath := "/v2/scrape", jsonBody := none, inboundHeaders := [] }

def disablingStart : Store :=
  { keys := Table.single 1 { apiKeyCiphertext := [1] }, clients := Table.empty {} }

def disablingRun (config : AppConfig ℚ) (order : List Nat) :=
  schedule (respond 0) (programs (fun _ => openControl config) plainVault disabling) disablingStart
    order

/-- The key is disabled between a test's reading and its commits; it is disabled afterwards, too,
and a later forward finds no key. -/
theorem tested_key_stays_disabled :
    Struck 1 (disablingRun {} ([0, 1, 1] ++ [0, 0, 0, 0, 0, 0, 2, 2])).2.2 := by
  have earlier : Interleaved (programs (fun _ => openControl {}) plainVault disabling) moves
      disablingStart (disablingRun {} [0, 1, 1]).1 (disablingRun {} [0, 1, 1]).2.2 :=
    schedule_interleaved (respond_honest 0) _ _ _
  have later : Interleaved (programs (fun _ => openControl {}) plainVault disabling) moves
      disablingStart (disablingRun {} ([0, 1, 1] ++ [0, 0, 0, 0, 0, 0, 2, 2])).1
      (disablingRun {} ([0, 1, 1] ++ [0, 0, 0, 0, 0, 0, 2, 2])).2.2 :=
    schedule_interleaved (respond_honest 0) _ _ _
  unfold disablingRun at later
  rw [schedule_append] at later
  have off : Struck 1 (disablingRun {} [0, 1, 1]).2.2 :=
    ⟨((disablingRun {} [0, 1, 1]).2.2.keys.get? 1).getD {}, by decide +kernel, by decide +kernel⟩
  have plain : ∀ thread ∈ (schedule (respond 0) (schedule (respond 0)
      (programs (fun _ => openControl {}) plainVault disabling) disablingStart [0, 1, 1]).2.1
      (schedule (respond 0) (programs (fun _ => openControl {}) plainVault disabling) disablingStart
        [0, 1, 1]).2.2 [0, 0, 0, 0, 0, 0, 2, 2]).1.map Prod.fst, thread ≠ 1 := by
    decide +kernel
  refine (only_administrators_enable earlier off later fun entry member admin => ?_).1
  have other := plain entry.1 (List.mem_map_of_mem member)
  obtain ⟨_ | _ | thread, event⟩ := entry
  · exact absurd admin False.elim
  · exact absurd rfl other
  · exact absurd admin False.elim

end FcamGateway.KeyTasks
