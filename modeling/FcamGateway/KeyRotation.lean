import FcamGateway.KeyActivation

/-! Verdicts and rotations. A verdict is written to the row by its id alone, so a key that is
rotated after its ciphertext was read can be condemned for its old secret; the verdict is on
the secret that the row holds as long as each new ciphertext was read after it came. -/
namespace FcamGateway.KeyTasks
open Prog Forwarder KeyAdmin KeyVerdicts CreditRefresh

set_option linter.unusedSectionVars false

variable {R : Type} [Field R] [LinearOrder R] [ScoreMath R]

/-- The row object gives the key another ciphertext. -/
def Rotates (id : Nat) (key : KeyObject) : Prop :=
  key.id = id ∧ key.current.apiKeyCiphertext ≠ key.loaded.apiKeyCiphertext

/-- The event gives the id another ciphertext, by a rotation or with a new row. -/
def Replaces (id : Nat) : Happening R → Prop
  | ⟨.inl (.commit batch), reply⟩ => reply = true ∧ ∃ key ∈ batch.keys, Rotates id key
  | ⟨.inr (.commitImport inserted changed), reply⟩ =>
    reply = true ∧ ((∃ key ∈ inserted, key.id = id) ∨ ∃ key ∈ changed, Rotates id key)
  | _ => False

/-- The question reads the ciphertexts that the task judges. -/
def Reading (task : Task) : Question R → Prop
  | .inl op => task.reads op
  | .inr _ => False

/-- Whatever ciphertext came to the key so far, the thread has read since. -/
def UpToDate {Thread : Type} (tasks : Thread → Task) (thread : Thread) (id : Nat)
    (front : Trace Thread (Question R) (Answer R)) : Prop :=
  ∀ early entry late, front = early ++ entry :: late → Replaces id entry.2 →
    ∃ reading ∈ late, reading.1 = thread ∧ Reading (tasks thread) reading.2.op

/-- If the key has a row, it holds the ciphertext. -/
def Sealed (id : Nat) (ciphertext : Bytes) (keys : Table KeyColumns) : Prop :=
  ∀ row, keys.get? id = some row → row.apiKeyCiphertext = ciphertext

variable {store last : Store} {keys : Table KeyColumns} {id : Nat} {key : KeyObject}
  {ciphertext : Bytes} {event : Happening R}

theorem sealed_flushed (objects : List KeyObject) (kept : ∀ key ∈ objects, ¬ Rotates id key)
    (held : Sealed id ciphertext keys) :
    Sealed id ciphertext (objects.foldl Store.flushKey keys) := by
  induction objects generalizing keys with
  | nil => exact held
  | cons key objects ih =>
    refine ih (fun other member => kept other (List.mem_cons_of_mem _ member)) fun row found => ?_
    by_cases same : id = key.id
    · subst same
      rw [Store.get_flushKey_self, Option.map_eq_some_iff] at found
      obtain ⟨before, there, rfl⟩ := found
      have unchanged : key.current.apiKeyCiphertext = key.loaded.apiKeyCiphertext := by
        by_contra changed
        exact kept key List.mem_cons_self ⟨rfl, changed⟩
      change written key.loaded.apiKeyCiphertext key.current.apiKeyCiphertext
        before.apiKeyCiphertext = ciphertext
      rw [written, if_pos unchanged]
      exact held before there
    · rw [Store.get_flushKey_other same] at found
      exact held row found

theorem sealed_insertRows {next : Table KeyColumns} (rows : List KeyObject)
    (added : insertRows keys rows = some next) (kept : ¬ ∃ key ∈ rows, key.id = id)
    (held : Sealed id ciphertext keys) : Sealed id ciphertext next := by
  induction rows generalizing keys with
  | nil =>
    cases added
    exact held
  | cons key rows ih =>
    obtain ⟨middle, inserted, rest⟩ := Option.bind_eq_some_iff.mp added
    refine ih rest (fun ⟨other, member, same⟩ => kept ⟨other, List.mem_cons_of_mem _ member, same⟩)
      fun row found => ?_
    rw [Table.get_insert inserted, if_neg] at found
    · exact held row found
    · exact fun same => kept ⟨key, List.mem_cons_self, same.symm⟩

/-- What brings the key no other ciphertext leaves the one it has. -/
theorem sealed_moves (held : Sealed id ciphertext store.keys) (kept : ¬ Replaces id event)
    (moved : moves store event last) : Sealed id ciphertext last.keys := by
  obtain ⟨op | op, reply⟩ := event
  · cases op with
    | commit batch =>
      obtain ⟨yes, _, rfl⟩ | ⟨_, rfl⟩ := moved
      · exact sealed_flushed batch.keys (fun key member on => kept ⟨yes, key, member, on⟩) held
      · exact held
    | clearRefresh ids =>
      obtain ⟨_, rfl⟩ | ⟨_, rfl⟩ := moved
      · intro row found
        change (Store.clearRefresh store.keys ids).get? id = _ at found
        rw [Store.get_clearRefresh, Option.map_eq_some_iff] at found
        obtain ⟨before, there, rfl⟩ := found
        split <;> exact held before there
      · exact held
    | readPool provider exclude => exact moved.1 ▸ held
    | findKey other => exact moved.1 ▸ held
    | reload other => exact moved.1 ▸ held
    | listKeys => exact moved.1 ▸ held
    | _ => exact Eq.mpr (congrArg (fun store : Store => Sealed id ciphertext store.keys) moved) held
  · cases op with
    | commitImport inserted changed =>
      obtain ⟨yes, next, added, _, rfl⟩ | ⟨_, rfl⟩ := moved
      · refine sealed_flushed changed (fun key member on => kept ⟨yes, .inr ⟨key, member, on⟩⟩) ?_
        exact sealed_insertRows inserted added (fun fresh => kept ⟨yes, .inl fresh⟩) held
      · exact held
    | purgeKey other =>
      obtain ⟨_, rfl⟩ | ⟨_, rfl⟩ := moved
      · intro row found
        change (store.keys.delete _).get? id = _ at found
        rw [Table.get_delete] at found
        exact held row (Option.filter_eq_some_iff.mp found).1
      · exact held
    | _ => exact Eq.mpr (congrArg (fun store : Store => Sealed id ciphertext store.keys) moved) held

theorem sealed_follows {events : List (Happening R)} (held : Sealed id ciphertext store.keys)
    (kept : ∀ event ∈ events, ¬ Replaces id event) (followed : Follows moves store events last) :
    Sealed id ciphertext last.keys := by
  induction followed with
  | nil => exact held
  | cons moved _ ih =>
    refine ih ?_ fun event member => kept event (List.mem_cons_of_mem _ member)
    exact sealed_moves held (kept _ List.mem_cons_self) moved

section Threads
variable {Thread : Type} [DecidableEq Thread] {control : Thread → ControlPlane R}
  {vault : KeyVault} {tasks : Thread → Task} {thread : Thread} {start before : Store}
  {front back : Trace Thread (Question R) (Answer R)}

/-- Where in a run an event of a thread's own exchange stands. -/
theorem inner_own_split {early late : Exchange R} {load : Event (Op R) (Reply R)}
    (same : inner (own thread front) = early ++ load :: late) :
    ∃ first second, front = first ++ (thread, ⟨.inl load.op, load.reply⟩) :: second ∧
      inner (own thread second) = late := by
  induction front generalizing early with
  | nil => exact absurd same.symm (List.append_ne_nil_of_right_ne_nil _ (List.cons_ne_nil _ _))
  | cons entry rest ih =>
    obtain ⟨other, ⟨op | op, reply⟩⟩ := entry
    · by_cases own_ : other = thread
      · subst own_
        rw [own_self] at same
        cases early with
        | nil =>
          obtain ⟨rfl, tail⟩ := List.cons.inj (same : _ = load :: late)
          exact ⟨[], rest, rfl, tail⟩
        | cons head early =>
          obtain ⟨_, tail⟩ := List.cons.inj (same : _ = head :: (early ++ load :: late))
          obtain ⟨first, second, rfl, after⟩ := ih tail
          exact ⟨_ :: first, second, rfl, after⟩
      · rw [own_other own_] at same
        obtain ⟨first, second, rfl, after⟩ := ih same
        exact ⟨_ :: first, second, rfl, after⟩
    · have skipped : inner (own thread rest) = early ++ load :: late := by
        by_cases own_ : other = thread
        · subst own_
          rw [own_self] at same
          exact same
        · rwa [own_other own_] at same
      obtain ⟨first, second, rfl, after⟩ := ih skipped
      exact ⟨_ :: first, second, rfl, after⟩

/-- A verdict that a task writes was obtained with the ciphertext the row holds, if the task has
read each ciphertext that came to the key. -/
theorem verdict_of_held_secret {batch : Commit}
    (reached : Interleaved (programs control vault tasks) moves start front before)
    (run : Interleaved (programs control vault tasks) moves start
      (front ++ (thread, ⟨.inl (.commit batch), true⟩) :: back) last)
    (plain : ¬ (tasks thread).Administrative) (member : key ∈ batch.keys) (condemns : Condemns key)
    (read : UpToDate tasks thread key.id front) :
    ∃ row, before.keys.get? key.id = some row ∧
      Evident (control thread).setup.foreign ((control thread).setup.masterKey.getD [])
        (tasks thread).reads (inner (own thread front)) key.id key.current.status
        row.apiKeyCiphertext := by
  obtain ⟨here, next, part, moved, _, _, asking⟩ := run.at
  obtain rfl := follows_unique part.shared reached.shared
  obtain ⟨ciphertext, evident⟩ := (asking_watched plain asking key member).2 condemns
  -- the row is there, or the commit would have failed
  have changed : key.current ≠ key.loaded := by
    rintro same
    rcases condemns with ⟨off, on⟩ | ⟨_, other⟩
    · rw [same, on] at off
      cases off
    · exact other (congrArg KeyColumns.status same)
  have present : key.id ∈ here.keys.ids := by
    obtain ⟨_, present, _⟩ | ⟨no, _⟩ := moved
    · exact present key member changed
    · cases no
  refine ⟨here.keys.row key.id, Table.get_some.mpr ⟨present, rfl⟩, ?_⟩
  -- the ciphertext has not changed since it was read
  obtain ⟨load, late, row, ⟨⟨early, parts⟩, quiet⟩, loaded, same, verdict⟩ := evident
  obtain ⟨first, second, rfl, after⟩ := inner_own_split parts
  obtain ⟨store, stop, _, moved, _, rest, _⟩ := part.at
  obtain ⟨found, rfl⟩ := moves_loaded loaded moved
  have sealed_ : Sealed key.id ciphertext here.keys := by
    refine sealed_follows ?_ ?_ rest
    · intro other there
      rw [found] at there
      cases there
      exact same
    · intro event member replaces
      obtain ⟨entry, inside, rfl⟩ := List.mem_map.mp member
      obtain ⟨one, two, rfl⟩ := List.append_of_mem inside
      obtain ⟨⟨mine, op | op, reply⟩, later, rfl, reads⟩ := read
        (first ++ (thread, ⟨.inl load.op, load.reply⟩) :: one) entry two (by simp) replaces
      · refine quiet ⟨op, reply⟩ ?_ reads
        rw [← after]
        refine List.mem_filterMap.mpr ⟨⟨.inl op, reply⟩, mem_own.mpr ?_, rfl⟩
        exact List.mem_append_right _ (List.mem_cons_of_mem _ later)
      · exact reads
  rw [sealed_ _ (Table.get_some.mpr ⟨present, rfl⟩)]
  exact ⟨load, late, row, ⟨⟨early, parts⟩, quiet⟩, loaded, same, verdict⟩

end Threads

/-- A cipher that tells two ciphertexts apart. -/
def twoSecrets : Foreign :=
  { openCipher with decryptApiKey := fun _ blob => .ok (if blob = [1] then "old" else "new") }

def rotationControl (config : AppConfig ℚ) : ControlPlane ℚ :=
  { setup := { foreign := twoSecrets, config, runtime := none, masterKey := some [] } }

/-- A refresh round, and an update that rotates the key. -/
def rotating : Nat → Task
  | 0 => .refreshOnce
  | _ => .updateKey [] false 1 { apiKey := some "fc-rotated" }

/-- Surroundings in which the credit endpoint refuses every key. -/
def rejecting (now : Instant) (store : Store) : (question : Question ℚ) → Answer ℚ question × Store
  | .inl op => refusing now store op
  | .inr op => respond now store (.inr op)

theorem rejecting_honest (now : Instant) (store : Store) (question : Question ℚ) :
    moves store ⟨question, (rejecting now store question).1⟩ (rejecting now store question).2 := by
  cases question with
  | inl op => exact refusing_honest now store op
  | inr op => exact respond_honest now store (.inr op)

def rotationRun (config : AppConfig ℚ) (order : List Nat) :=
  schedule (rejecting 0) (programs (fun _ => rotationControl config) plainVault rotating)
    disablingStart order

def rotatedRow : KeyColumns :=
  { apiKeyCiphertext := [2], apiKeyHash := "fc-rotated", apiKeyLast4 := "ated" }

/-- What a round writes for a key that was refused. -/
def condemnation (row : KeyColumns) : KeyObject :=
  ⟨1, row, { row with
    status := "invalid", isActive := false, nextRefreshAt := none
    cachedRemainingCredits := some 0 }⟩

def condemning (row : KeyColumns) : Commit := { site := .creditResult, keys := [condemnation row] }

theorem rotation_reaches (order : List Nat) :
    Interleaved (programs (fun _ => rotationControl {}) plainVault rotating) moves disablingStart
      (rotationRun {} order).1 (rotationRun {} order).2.2 :=
  schedule_interleaved (rejecting_honest 0) _ _ _

/-- The run goes on with the commit of the round's verdict. -/
theorem rotation_commits {order : List Nat} (row : KeyColumns)
    (asks : (schedule (rejecting 0) (rotationRun {} order).2.1 (rotationRun {} order).2.2 [0]).1 =
      [(0, ⟨.inl (.commit (condemning row)), true⟩)]) :
    Interleaved (programs (fun _ => rotationControl {}) plainVault rotating) moves disablingStart
      ((rotationRun {} order).1 ++ (0, ⟨.inl (.commit (condemning row)), true⟩) :: [])
      (rotationRun {} (order ++ [0])).2.2 := by
  rw [← asks]
  have reached := rotation_reaches (order ++ [0])
  unfold rotationRun at reached ⊢
  rw [schedule_append] at reached
  exact reached

/-- The rotation comes first and the round lists the row after it. -/
theorem rotated_key_judged :
    ∃ row, (rotationRun {} [1, 1, 1, 0, 0, 0, 0, 0]).2.2.keys.get? 1 = some row ∧
      Evident twoSecrets [] Lists (inner (own 0 (rotationRun {} [1, 1, 1, 0, 0, 0, 0, 0]).1)) 1
        "invalid" row.apiKeyCiphertext := by
  refine verdict_of_held_secret (rotation_reaches _) (rotation_commits rotatedRow rfl) id
    (List.mem_singleton_self _) (.inl ⟨rfl, rfl⟩) ?_
  -- the rotation is the run's second event, and the round lists rows after it
  obtain ⟨first, rotation, rest, parts, before, after, listing, inside, mine, reads⟩ :
      ∃ first rotation rest,
        (rotationRun {} [1, 1, 1, 0, 0, 0, 0, 0]).1 = first ++ rotation :: rest ∧
        (∀ entry ∈ first, ¬ Replaces 1 entry.2) ∧ (∀ entry ∈ rest, ¬ Replaces 1 entry.2) ∧
        ∃ listing ∈ rest, listing.1 = 0 ∧ Reading (rotating 0) listing.2.op := by
    refine ⟨[_], _, _, rfl, List.forall_mem_cons.mpr ⟨False.elim, fun _ => nofun⟩, ?_,
      _, .tail _ (.tail _ (.head _)), rfl, trivial⟩
    exact List.forall_mem_cons.mpr ⟨False.elim, List.forall_mem_cons.mpr ⟨False.elim,
      List.forall_mem_cons.mpr ⟨False.elim, List.forall_mem_cons.mpr ⟨False.elim,
        List.forall_mem_cons.mpr ⟨False.elim, List.forall_mem_cons.mpr ⟨False.elim,
          fun _ => nofun⟩⟩⟩⟩⟩⟩
  intro early entry late same replaces
  rcases split_cases (parts.symm.trans same) with ⟨_, _, rfl⟩ | ⟨gap, _, later⟩ | ⟨gap, earlier, _⟩
  · exact ⟨listing, inside, mine, reads⟩
  · refine absurd replaces (after entry ?_)
    rw [later]
    exact List.mem_append_right _ List.mem_cons_self
  · refine absurd replaces (before entry ?_)
    rw [earlier]
    exact List.mem_append_right _ List.mem_cons_self

/-- The round reads the old ciphertext, the rotation commits, and the row with the new one is
condemned. -/
theorem rotated_key_condemned : ¬ ∀ (front back : Trace Nat (Question ℚ) (Answer ℚ))
    (before last : Store) (batch : Commit) (key : KeyObject),
    Interleaved (programs (fun _ => rotationControl {}) plainVault rotating) moves disablingStart
      front before →
    Interleaved (programs (fun _ => rotationControl {}) plainVault rotating) moves disablingStart
      (front ++ (0, ⟨.inl (.commit batch), true⟩) :: back) last →
    key ∈ batch.keys → Condemns key →
    ∃ row, before.keys.get? key.id = some row ∧
      Evident twoSecrets [] Lists (inner (own 0 front)) key.id key.current.status
        row.apiKeyCiphertext := by
  intro claim
  obtain ⟨row, found, load, late, read, ⟨⟨early, parts⟩, _⟩, _, _, verdict⟩ := claim _ _ _ _ _ _
    (rotation_reaches [0, 0, 0, 1, 1, 1, 0, 0]) (rotation_commits rotatedRow rfl)
    (List.mem_singleton_self _) (.inl ⟨rfl, rfl⟩)
  have held : (rotationRun {} [0, 0, 0, 1, 1, 1, 0, 0]).2.2.keys.get? 1 = some rotatedRow := by
    decide +kernel
  cases held.symm.trans found
  obtain ⟨same, _⟩ | ⟨_, secret, opened, event, member, refuses⟩ := verdict
  · exact absurd same (by decide)
  · cases opened
    have none : ∀ event ∈ inner (own 0 (rotationRun {} [0, 0, 0, 1, 1, 1, 0, 0]).1),
        ¬ Refuses 1 "new" event := by
      refine List.forall_mem_cons.mpr ⟨False.elim, List.forall_mem_cons.mpr ⟨False.elim,
        List.forall_mem_cons.mpr ⟨fun refused => ?_, List.forall_mem_cons.mpr ⟨False.elim,
          List.forall_mem_cons.mpr ⟨False.elim, fun _ => nofun⟩⟩⟩⟩⟩
      exact absurd refused.1 (by decide +kernel)
    refine none event ?_ refuses
    rw [parts]
    exact List.mem_append_right _ (List.mem_cons_of_mem _ member)

end FcamGateway.KeyTasks
