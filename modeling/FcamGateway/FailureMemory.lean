import FcamGateway.SchedulingValues

/-! The failure memory of the score over sequences of calls: what each call
leaves in it, the weight that a key's failures have on a time scale, and when
reading the memory leaves that weight alone. -/
namespace FcamGateway.FailureMemory
open KeyPool

inductive Act where
  | failure (reason : String) (statusCode : Option Int)
  | success
  | count

/-- The failures that are held against a key. -/
def Act.scores : Act → Bool
  | .failure reason statusCode => is4xxScoreFailure reason statusCode
  | _ => false

/-- One call of `record_failure`, `record_success` or `_failure_count`. -/
structure Call (R : Type) where
  key : Nat
  time : R
  act : Act

section
variable {R : Type} [Field R] [LinearOrder R] [ScoreMath R]

/-- The entry that a failure writes. -/
def noted (entry : Option (R × R)) (now : R) : Option (R × R) :=
  some (entry.elim 0 Prod.fst + 1, now)

omit [LinearOrder R] [ScoreMath R] in
theorem recordFailure_eq (keyId : Nat) (reason : String) (statusCode : Option Int) :
    (recordFailure keyId reason statusCode : Gateway R Unit) =
      if is4xxScoreFailure reason statusCode then
        (query .monotonic).bind fun now => (query (.readFailure keyId)).bind fun entry =>
          query (.keepFailures [(keyId, noted entry now)])
      else pure () := rfl

/-- The memory after a call. -/
def remember (half : R) (memory : Nat → Option (R × R)) (call : Call R) : Nat → Option (R × R) :=
  match call.act with
  | .failure reason statusCode =>
    if is4xxScoreFailure reason statusCode then
      Function.update memory call.key (noted (memory call.key) call.time)
    else memory
  | .success => Function.update memory call.key none
  | .count => Function.update memory call.key (failureCount (memory call.key) call.time half).2

def memoryAfter (half : R) (calls : List (Call R)) : Nat → Option (R × R) :=
  calls.foldl (remember half) fun _ => none

/-- What a `_failure_count` returns after the calls before it. -/
def reading (half : R) (past : List (Call R)) (call : Call R) : R :=
  (failureCount (memoryAfter half past call.key) call.time half).1

/-- The times of a key's failures since its last success. -/
def failuresSince (key : Nat) (calls : List (Call R)) : List R :=
  calls.foldl (fun times call =>
    if call.key = key then
      match call.act with
      | .success => []
      | act => if act.scores then times ++ [call.time] else times
    else times) []

/-- The sum of what is left of each failure. -/
def weight (half : R) (times : List R) (now : R) : R :=
  (times.map fun time => ScoreMath.halfPower ((now - time) / half)).sum

/-- The smallest weight that is read as it is. -/
def leastWeight : R := ((5 : Nat) : R) / ((100 : Nat) : R)

/-- Weights below the cut-off read as zero. -/
def cutOff (value : R) : R := if value < leastWeight then 0 else value

theorem leastWeight_eq : (5 / 100 : ℝ) = leastWeight := by
  rw [leastWeight, Nat.cast_ofNat, Nat.cast_ofNat]

theorem leastWeight_pos : (0 : ℝ) < leastWeight := by
  rw [← leastWeight_eq]
  norm_num

theorem leastWeight_le_one : (leastWeight : ℝ) ≤ 1 := by
  rw [← leastWeight_eq]
  norm_num

/-- A call that stamps the key's entry with its time. -/
def Call.touches (call : Call R) (key : Nat) : Prop :=
  call.key = key ∧ (call.act = .count ∨ call.act.scores = true)

theorem memoryAfter_snoc (half : R) (past : List (Call R)) (call : Call R) :
    memoryAfter half (past ++ [call]) = remember half (memoryAfter half past) call := by
  simp [memoryAfter]

theorem remember_other {half : R} {memory : Nat → Option (R × R)} {call : Call R} {key : Nat}
    (other : call.key ≠ key) : remember half memory call key = memory key := by
  cases act : call.act with
  | failure reason statusCode =>
    simp only [remember, act]
    split
    · exact Function.update_of_ne other.symm _ _
    · rfl
  | success => simp only [remember, act, Function.update_of_ne other.symm]
  | count => simp only [remember, act, Function.update_of_ne other.symm]

theorem remember_failure {half : R} {memory : Nat → Option (R × R)} {call : Call R}
    (scores : call.act.scores = true) :
    remember half memory call call.key = noted (memory call.key) call.time := by
  unfold remember
  cases act : call.act with
  | failure reason statusCode =>
    have relevant : is4xxScoreFailure reason statusCode = true := by rwa [act] at scores
    simp [relevant]
  | success => simp [act, Act.scores] at scores
  | count => simp [act, Act.scores] at scores

theorem remember_count {half : R} {memory : Nat → Option (R × R)} {call : Call R}
    (count : call.act = .count) :
    remember half memory call call.key = (failureCount (memory call.key) call.time half).2 := by
  simp [remember, count]

theorem remember_success {half : R} {memory : Nat → Option (R × R)} {call : Call R}
    (success : call.act = .success) : remember half memory call call.key = none := by
  simp [remember, success]

/-- A failure that is not held against the key changes nothing. -/
theorem remember_ignored {half : R} {memory : Nat → Option (R × R)} {call : Call R}
    (ignored : call.act.scores = false) (success : call.act ≠ .success) (count : call.act ≠ .count) :
    remember half memory call = memory := by
  unfold remember
  cases act : call.act with
  | failure reason statusCode =>
    have irrelevant : is4xxScoreFailure reason statusCode = false := by rwa [act] at ignored
    simp [irrelevant]
  | success => exact absurd act success
  | count => exact absurd act count

section
omit [Field R] [LinearOrder R] [ScoreMath R]

theorem failuresSince_snoc (key : Nat) (past : List (Call R)) (call : Call R) :
    failuresSince key (past ++ [call]) =
      if call.key = key then
        match call.act with
        | .success => []
        | act => if act.scores then failuresSince key past ++ [call.time] else failuresSince key past
      else failuresSince key past := by
  simp only [failuresSince, List.foldl_append, List.foldl_cons, List.foldl_nil]

theorem failuresSince_failure {past : List (Call R)} {call : Call R}
    (scores : call.act.scores = true) :
    failuresSince call.key (past ++ [call]) = failuresSince call.key past ++ [call.time] := by
  rw [failuresSince_snoc, if_pos rfl]
  cases act : call.act with
  | success => simp [act, Act.scores] at scores
  | failure reason statusCode => simp [← act, scores]
  | count => simp [act, Act.scores] at scores

theorem failuresSince_still {key : Nat} {past : List (Call R)} {call : Call R}
    (still : call.key ≠ key ∨ (call.act ≠ .success ∧ call.act.scores = false)) :
    failuresSince key (past ++ [call]) = failuresSince key past := by
  rw [failuresSince_snoc]
  split
  case isFalse => rfl
  case isTrue same =>
    obtain ⟨success, ignored⟩ := still.resolve_left (not_not.mpr same)
    cases act : call.act with
    | success => exact absurd act success
    | failure reason statusCode => simp [← act, ignored]
    | count => simp [← act, ignored]

end

/-- The stamp of an entry is the time of a call that touched the key. -/
theorem memory_touched {half : R} {key : Nat} {count last : R} (past : List (Call R))
    (held : memoryAfter half past key = some (count, last)) :
    ∃ prior ∈ past, prior.touches key ∧ prior.time = last := by
  induction past using List.reverseRecOn generalizing count last with
  | nil => simp [memoryAfter] at held
  | append_singleton past call ih =>
    have earlier (before : ∃ prior ∈ past, prior.touches key ∧ prior.time = last) :
        ∃ prior ∈ past ++ [call], prior.touches key ∧ prior.time = last := by
      obtain ⟨prior, member, found⟩ := before
      exact ⟨prior, List.mem_append_left _ member, found⟩
    rw [memoryAfter_snoc] at held
    by_cases same : call.key = key
    · subst same
      by_cases scores : call.act.scores = true
      · rw [remember_failure scores] at held
        refine ⟨call, by simp, ⟨rfl, .inr scores⟩, ?_⟩
        exact congrArg Prod.snd (Option.some.inj held)
      · cases act : call.act with
        | success =>
          rw [remember_success act] at held
          cases held
        | failure reason statusCode =>
          rw [remember_ignored (by simpa using scores) (by simp [act]) (by simp [act])] at held
          exact earlier (ih held)
        | count =>
          rw [remember_count act] at held
          cases entry : memoryAfter half past call.key with
          | none => simp [entry, failureCount] at held
          | some pair =>
            obtain ⟨stored, stamp⟩ := pair
            simp only [entry, failureCount] at held
            split at held
            · cases held
              exact earlier (ih entry)
            · split at held
              · cases held
              · refine ⟨call, by simp, ⟨rfl, .inl act⟩, ?_⟩
                exact congrArg Prod.snd (Option.some.inj held)
    · rw [remember_other same] at held
      exact earlier (ih held)

end

/-! ## Decay over the reals -/

theorem halfPower_add (a b : ℝ) :
    ScoreMath.halfPower (a + b) = ScoreMath.halfPower a * ScoreMath.halfPower b :=
  Real.rpow_add (by norm_num) a b

theorem halfPower_pos (a : ℝ) : 0 < ScoreMath.halfPower a := Real.rpow_pos_of_pos (by norm_num) a

theorem halfPower_zero : ScoreMath.halfPower (0 : ℝ) = 1 := Real.rpow_zero _

theorem halfPower_lt_one {a : ℝ} (later : 0 < a) : ScoreMath.halfPower a < 1 :=
  Real.rpow_lt_one (by norm_num) (by norm_num) later

theorem halfPower_le_one {a : ℝ} (later : 0 ≤ a) : ScoreMath.halfPower a ≤ 1 :=
  Real.rpow_le_one (by norm_num) (by norm_num) later

/-- A weight decays as a whole. -/
theorem weight_decays (half : ℝ) (times : List ℝ) (now later : ℝ) :
    weight half times later = weight half times now * ScoreMath.halfPower ((later - now) / half) := by
  unfold weight
  rw [← List.sum_map_mul_right]
  congr 1
  apply List.map_congr_left
  intro time _
  rw [← halfPower_add]
  congr 1
  ring

theorem weight_snoc (half : ℝ) (times : List ℝ) (time : ℝ) :
    weight half (times ++ [time]) time = weight half times time + 1 := by
  simp [weight, halfPower_zero]

theorem weight_nonneg (half : ℝ) (times : List ℝ) (now : ℝ) : 0 ≤ weight half times now := by
  apply List.sum_nonneg
  intro part member
  obtain ⟨time, _, rfl⟩ := List.mem_map.mp member
  exact (halfPower_pos _).le

theorem weight_pos (half : ℝ) {times : List ℝ} (some : times ≠ []) (now : ℝ) :
    0 < weight half times now := by
  cases times with
  | nil => exact absurd rfl some
  | cons time times =>
    have rest := weight_nonneg half times now
    have first := halfPower_pos ((now - time) / half)
    simp only [weight, List.map_cons, List.sum_cons] at rest ⊢
    linarith

theorem weight_antitone {half : ℝ} (positive : 0 < half) (times : List ℝ) {now later : ℝ}
    (order : now ≤ later) : weight half times later ≤ weight half times now := by
  rw [weight_decays half times now later]
  apply mul_le_of_le_one_right (weight_nonneg half times now)
  exact halfPower_le_one (div_nonneg (sub_nonneg.mpr order) positive.le)

/-- The half-life that `_failure_count` works with. -/
def lifetime (half : ℝ) : ℝ := max half 1

theorem lifetime_pos (half : ℝ) : 0 < lifetime half := lt_max_of_lt_right one_pos

variable {half : ℝ} {past : List (Call ℝ)} {key : Nat} {entry : Option (ℝ × ℝ)}

/-- An entry that carries the weight of the key's failures, unless it was
dropped below the cut-off. -/
inductive Faithful (half : ℝ) (past : List (Call ℝ)) (key : Nat) : Option (ℝ × ℝ) → Prop where
  | fresh (clear : failuresSince key past = []) : Faithful half past key none
  | kept (last : ℝ) (failed : failuresSince key past ≠ [])
      (seen : ∃ prior ∈ past, prior.time = last)
      (latest : ∀ prior ∈ past, prior.touches key → prior.time ≤ last) :
      Faithful half past key
        (some (weight (lifetime half) (failuresSince key past) last, last))
  | dropped (failed : failuresSince key past ≠ [])
      (low : ∃ prior ∈ past, weight (lifetime half) (failuresSince key past) prior.time < leastWeight) :
      Faithful half past key none

/-- A faithful entry is read as its weight, and stays so. -/
theorem Faithful.failureCount (faithful : Faithful half past key entry) {now : ℝ}
    (ordered : ∀ prior ∈ past, prior.time ≤ now) :
    failureCount entry now half =
      (cutOff (weight (lifetime half) (failuresSince key past) now),
       if weight (lifetime half) (failuresSince key past) now < leastWeight then none
       else some (weight (lifetime half) (failuresSince key past) now, now)) := by
  cases faithful with
  | fresh clear => simp [KeyPool.failureCount, clear, weight, cutOff, leastWeight_pos]
  | kept last failed seen latest =>
    obtain ⟨prior, member, rfl⟩ := seen
    have age : max (now - prior.time) 0 = now - prior.time :=
      max_eq_left (sub_nonneg.mpr (ordered prior member))
    have positive := weight_pos (lifetime half) failed prior.time
    have decays := weight_decays (lifetime half) (failuresSince key past) prior.time now
    simp only [KeyPool.failureCount, if_neg (not_le.mpr positive), age, leastWeight_eq]
    rw [show max half 1 = lifetime half from rfl, ← decays]
    unfold cutOff
    split <;> rfl
  | dropped failed low =>
    obtain ⟨prior, member, low⟩ := low
    have gone : weight (lifetime half) (failuresSince key past) now < leastWeight :=
      (weight_antitone (lifetime_pos half) _ (ordered prior member)).trans_lt low
    simp [KeyPool.failureCount, cutOff, gone]

theorem Faithful.still {call : Call ℝ} (faithful : Faithful half past key entry)
    (same : failuresSince key (past ++ [call]) = failuresSince key past)
    (away : ¬ call.touches key) : Faithful half (past ++ [call]) key entry := by
  cases faithful with
  | fresh clear => exact .fresh (same.trans clear)
  | kept last failed seen latest =>
    rw [← same] at failed ⊢
    obtain ⟨prior, member, time⟩ := seen
    refine .kept last failed ⟨prior, List.mem_append_left _ member, time⟩ ?_
    intro other member touches
    rcases List.mem_append.mp member with member | member
    · exact latest other member touches
    · obtain rfl := List.mem_singleton.mp member
      exact absurd touches away
  | dropped failed low =>
    rw [← same] at failed low
    obtain ⟨prior, member, low⟩ := low
    exact .dropped failed ⟨prior, List.mem_append_left _ member, low⟩

/-- The calls leave no call after the one given. -/
theorem ordered_snoc {call : Call ℝ} (ordered : ∀ prior ∈ past, prior.time ≤ call.time) :
    ∀ prior ∈ past ++ [call], prior.touches key → prior.time ≤ call.time := by
  intro prior member _
  rcases List.mem_append.mp member with member | member
  · exact ordered prior member
  · obtain rfl := List.mem_singleton.mp member
    exact le_refl _

theorem Faithful.read {call : Call ℝ} (faithful : Faithful half past call.key entry)
    (ordered : ∀ prior ∈ past, prior.time ≤ call.time) (count : call.act = .count) :
    Faithful half (past ++ [call]) call.key (KeyPool.failureCount entry call.time half).2 := by
  have same : failuresSince call.key (past ++ [call]) = failuresSince call.key past :=
    failuresSince_still (.inr ⟨by simp [count], by simp [count, Act.scores]⟩)
  rw [faithful.failureCount ordered]
  by_cases failed : failuresSince call.key past = []
  · have clear : weight (lifetime half) (failuresSince call.key past) call.time < leastWeight := by
      simp [failed, weight, leastWeight_pos]
    simp only [clear, ↓reduceIte]
    exact .fresh (same.trans failed)
  · dsimp only
    rw [← same] at failed ⊢
    split
    case isTrue low => exact .dropped failed ⟨call, by simp, low⟩
    case isFalse => exact .kept call.time failed ⟨call, by simp, rfl⟩ (ordered_snoc ordered)

/-- A failure keeps the entry faithful where it is the first one, or finds an
entry that was brought up to its instant. -/
theorem Faithful.fail {call : Call ℝ} (faithful : Faithful half past call.key entry)
    (ordered : ∀ prior ∈ past, prior.time ≤ call.time) (scores : call.act.scores = true)
    (settled : failuresSince call.key past ≠ [] →
      (∃ prior ∈ past, prior.touches call.key ∧ prior.time = call.time) ∧
        leastWeight ≤ weight (lifetime half) (failuresSince call.key past) call.time) :
    Faithful half (past ++ [call]) call.key (noted entry call.time) := by
  have grown : failuresSince call.key (past ++ [call]) = failuresSince call.key past ++ [call.time] :=
    failuresSince_failure scores
  have failed : failuresSince call.key (past ++ [call]) ≠ [] := by simp [grown]
  have value : entry.elim 0 Prod.fst + 1 =
      weight (lifetime half) (failuresSince call.key (past ++ [call])) call.time := by
    rw [grown, weight_snoc]
    cases faithful with
    | fresh clear => simp [clear, weight]
    | kept last failed seen latest =>
      obtain ⟨⟨prior, member, touches, time⟩, _⟩ := settled failed
      obtain ⟨stamped, inside, stamp⟩ := seen
      have now : last = call.time :=
        le_antisymm (stamp ▸ ordered stamped inside) (time ▸ latest prior member touches)
      simp [now]
    | dropped failed low =>
      obtain ⟨prior, member, low⟩ := low
      have high := (settled failed).2
      have order := weight_antitone (lifetime_pos half) (failuresSince call.key past)
        (ordered prior member)
      linarith
  unfold noted
  rw [value]
  exact .kept call.time failed ⟨call, by simp, rfl⟩ (ordered_snoc ordered)

/-- Every failure held against a key that has failed since its last success
comes at an instant at which the key has failed or was read already, while the
weight is not below the cut-off. -/
def Settled (half : ℝ) (calls : List (Call ℝ)) : Prop :=
  ∀ front call back, calls = front ++ call :: back → call.act.scores = true →
    failuresSince call.key front ≠ [] →
    (∃ prior ∈ front, prior.touches call.key ∧ prior.time = call.time) ∧
      leastWeight ≤ weight (lifetime half) (failuresSince call.key front) call.time

/-- The calls without those that were added. -/
def original (more : List (Call ℝ × Bool)) : List (Call ℝ) :=
  (more.filter fun entry => !entry.2).map Prod.fst

def taken (more : List (Call ℝ × Bool)) : List (Call ℝ) := more.map Prod.fst

/-- Readings added anywhere to a sequence of calls. -/
structure Extends (calls : List (Call ℝ)) (more : List (Call ℝ × Bool)) : Prop where
  same : original more = calls
  counts : ∀ entry ∈ more, entry.2 = true → entry.1.act = .count
  ordered : more.Pairwise fun earlier later => earlier.1.time ≤ later.1.time

theorem taken_snoc (more : List (Call ℝ × Bool)) (entry : Call ℝ × Bool) :
    taken (more ++ [entry]) = taken more ++ [entry.1] := by simp [taken]

theorem original_append (front back : List (Call ℝ × Bool)) :
    original (front ++ back) = original front ++ original back := by simp [original]

theorem failuresSince_taken {more : List (Call ℝ × Bool)}
    (counts : ∀ entry ∈ more, entry.2 = true → entry.1.act = .count) :
    failuresSince key (taken more) = failuresSince key (original more) := by
  induction more using List.reverseRecOn with
  | nil => rfl
  | append_singleton more entry ih =>
    have before := ih fun other member => counts other (List.mem_append_left _ member)
    obtain ⟨call, added⟩ := entry
    rw [taken_snoc, original_append]
    cases added with
    | true =>
      have count : call.act = .count := counts (call, true) (by simp) rfl
      rw [failuresSince_still (.inr ⟨by simp [count], by simp [count, Act.scores]⟩), before]
      simp [original]
    | false =>
      rw [show original [(call, false)] = [call] from rfl, failuresSince_snoc, failuresSince_snoc,
        before]

theorem Extends.before {calls : List (Call ℝ)} {front back : List (Call ℝ × Bool)}
    {entry : Call ℝ × Bool} (grown : Extends calls (front ++ entry :: back)) :
    ∀ prior ∈ taken front, prior.time ≤ entry.1.time := by
  intro prior member
  obtain ⟨earlier, inside, rfl⟩ := List.mem_map.mp member
  exact (List.pairwise_append.mp grown.ordered).2.2 earlier inside entry (by simp)

/-- The step: one more call of an extended sequence. -/
theorem faithful_step {calls : List (Call ℝ)} {front back : List (Call ℝ × Bool)} {call : Call ℝ}
    {added : Bool} (settled : Settled half calls)
    (grown : Extends calls (front ++ (call, added) :: back))
    (faithful : ∀ key, Faithful half (taken front) key (memoryAfter half (taken front) key)) :
    Faithful half (taken front ++ [call]) key (memoryAfter half (taken front ++ [call]) key) := by
  have ordered := grown.before
  rw [memoryAfter_snoc]
  by_cases same : call.key = key
  · subst same
    by_cases scores : call.act.scores = true
    · rw [remember_failure scores]
      refine (faithful call.key).fail ordered scores fun failed => ?_
      -- A failure is never added, so it stands in the calls themselves.
      have own : added = false := by
        by_contra inserted
        have count := grown.counts (call, added) (by simp) (by simpa using inserted)
        simp [show call.act = .count from count, Act.scores] at scores
      subst own
      have before : ∀ entry ∈ front, entry.2 = true → entry.1.act = .count :=
        fun entry member => grown.counts entry (List.mem_append_left _ member)
      rw [failuresSince_taken before] at failed ⊢
      have place : calls = original front ++ call :: original back := by
        rw [← grown.same, original_append]
        rfl
      obtain ⟨⟨prior, member, found⟩, high⟩ := settled _ call _ place scores failed
      obtain ⟨entry, inside, rfl⟩ := List.mem_map.mp member
      exact ⟨⟨entry.1, List.mem_map_of_mem (List.mem_filter.mp inside).1, found⟩, high⟩
    · cases act : call.act with
      | success =>
        rw [remember_success act]
        refine .fresh ?_
        rw [failuresSince_snoc, if_pos rfl, act]
      | failure reason statusCode =>
        rw [remember_ignored (by simpa using scores) (by simp [act]) (by simp [act])]
        refine (faithful call.key).still (failuresSince_still (.inr ⟨by simp [act], ?_⟩)) ?_
        · simpa using scores
        · rintro ⟨_, count | scored⟩
          · simp [act] at count
          · exact scores scored
      | count =>
        rw [remember_count act]
        exact (faithful call.key).read ordered act
  · rw [remember_other same]
    exact (faithful key).still (failuresSince_still (.inl same)) fun touches => same touches.1

theorem faithful_run {calls : List (Call ℝ)} {front back : List (Call ℝ × Bool)}
    (settled : Settled half calls) (grown : Extends calls (front ++ back)) :
    Faithful half (taken front) key (memoryAfter half (taken front) key) := by
  induction front using List.reverseRecOn generalizing back key with
  | nil => exact .fresh rfl
  | append_singleton front entry ih =>
    rw [List.append_assoc] at grown
    rw [taken_snoc]
    exact faithful_step settled grown fun other => ih grown

/-- Added readings leave every reading as it is, and each is the weight of the
failures since the last success, as far as it reaches the cut-off. -/
def Unaltered (half : ℝ) (calls : List (Call ℝ)) : Prop :=
  ∀ more, Extends calls more → ∀ front call added back, more = front ++ (call, added) :: back →
    call.act = .count →
    reading half (taken front) call =
        cutOff (weight (lifetime half) (failuresSince call.key (taken front)) call.time) ∧
      (added = false → reading half (taken front) call = reading half (original front) call)

def untouched (calls : List (Call ℝ)) : List (Call ℝ × Bool) := calls.map fun call => (call, false)

@[simp] theorem original_untouched (calls : List (Call ℝ)) : original (untouched calls) = calls := by
  simp [original, untouched, List.filter_map, Function.comp_def]

@[simp] theorem taken_untouched (calls : List (Call ℝ)) : taken (untouched calls) = calls := by
  simp [taken, untouched, Function.comp_def]

theorem untouched_extends {calls : List (Call ℝ)}
    (ordered : calls.Pairwise fun earlier later => earlier.time ≤ later.time) :
    Extends calls (untouched calls) where
  same := original_untouched calls
  counts := by
    intro entry member inserted
    obtain ⟨call, _, rfl⟩ := List.mem_map.mp member
    cases inserted
  ordered := List.pairwise_map.mpr ordered

theorem unaltered_of_settled {calls : List (Call ℝ)}
    (ordered : calls.Pairwise fun earlier later => earlier.time ≤ later.time)
    (settled : Settled half calls) : Unaltered half calls := by
  rintro more grown front call added back rfl count
  have read : reading half (taken front) call =
      cutOff (weight (lifetime half) (failuresSince call.key (taken front)) call.time) := by
    unfold reading
    rw [(faithful_run settled grown).failureCount grown.before]
  refine ⟨read, fun own => ?_⟩
  subst own
  have place : calls = original front ++ call :: original back := by
    rw [← grown.same, original_append]
    rfl
  have plain := untouched_extends ordered
  rw [place, untouched, List.map_append, List.map_cons, ← untouched] at plain
  have faithful : Faithful half (taken (untouched (original front))) call.key
      (memoryAfter half (taken (untouched (original front))) call.key) :=
    faithful_run (place ▸ settled) plain
  have bare := faithful.failureCount plain.before
  rw [taken_untouched] at bare
  have counts : ∀ entry ∈ front, entry.2 = true → entry.1.act = .count :=
    fun entry member => grown.counts entry (List.mem_append_left _ member)
  rw [read, failuresSince_taken counts, reading, bare]

/-- Readings added at the instant of a call, before it and after it. -/
theorem extends_around {front back : List (Call ℝ)} {call : Call ℝ}
    (before after : List (Call ℝ × Bool))
    (ordered : (front ++ call :: back).Pairwise fun earlier later => earlier.time ≤ later.time)
    (near : ∀ entry ∈ before ++ after,
      entry.2 = true ∧ entry.1.act = .count ∧ entry.1.time = call.time) :
    Extends (front ++ call :: back)
      (untouched front ++ (before ++ (call, false) :: (after ++ untouched back))) := by
  have dropped (added : List (Call ℝ × Bool)) (inside : ∀ entry ∈ added, entry ∈ before ++ after) :
      original added = [] := by
    have none : (added.filter fun entry => !entry.2) = [] := by
      apply List.filter_eq_nil_iff.mpr
      intro entry member
      simp [(near entry (inside entry member)).1]
    simp [original, none]
  obtain ⟨early, here, across⟩ := List.pairwise_append.mp ordered
  obtain ⟨next, late⟩ := List.pairwise_cons.mp here
  refine ⟨?_, ?_, ?_⟩
  · have own : original [(call, false)] = [call] := rfl
    rw [original_append, original_append, ← List.singleton_append, original_append,
      original_append, dropped before (by simp +contextual), dropped after (by simp +contextual), own]
    simp
  · intro entry member inserted
    simp only [List.mem_append, List.mem_cons, untouched, List.mem_map] at member
    obtain ⟨own, _, rfl⟩ | member | rfl | member | ⟨own, _, rfl⟩ := member
    · cases inserted
    · exact (near entry (by simp [member])).2.1
    · cases inserted
    · exact (near entry (by simp [member])).2.1
    · cases inserted
  · have stood : ∀ entry ∈ before ++ (call, false) :: after, entry.1.time = call.time := by
      intro entry member
      simp only [List.mem_append, List.mem_cons] at member
      obtain member | rfl | member := member
      · exact (near entry (by simp [member])).2.2
      · rfl
      · exact (near entry (by simp [member])).2.2
    have split : before ++ (call, false) :: (after ++ untouched back) =
        (before ++ (call, false) :: after) ++ untouched back := by simp
    rw [split]
    refine List.pairwise_append.mpr ⟨List.pairwise_map.mpr early, ?_, ?_⟩
    · refine List.pairwise_append.mpr ⟨?_, List.pairwise_map.mpr late, ?_⟩
      · apply List.pairwise_of_forall_mem_list
        intro earlier first later second
        rw [stood earlier first, stood later second]
      · intro earlier first later second
        obtain ⟨own, inside, rfl⟩ := List.mem_map.mp second
        rw [stood earlier first]
        exact next own inside
    · intro earlier first later second
      obtain ⟨own, inside, rfl⟩ := List.mem_map.mp first
      rcases List.mem_append.mp second with second | second
      · rw [stood later second]
        exact across own inside call (by simp)
      · obtain ⟨other, behind, rfl⟩ := List.mem_map.mp second
        exact across own inside other (by simp [behind])

/-- The reading of a key at the instant of a call. -/
def Call.look (call : Call ℝ) : Call ℝ := { call with act := .count }

/-- What is read just after a failure is one more than what was stored. -/
theorem reading_failure {call : Call ℝ} (scores : call.act.scores = true) :
    reading half (past ++ [call]) call.look =
      cutOff ((memoryAfter half past call.key).elim 0 Prod.fst + 1) := by
  generalize stored : (memoryAfter half past call.key).elim 0 Prod.fst = count
  have entry : memoryAfter half (past ++ [call]) call.key = some (count + 1, call.time) := by
    rw [memoryAfter_snoc, remember_failure scores, noted, stored]
  simp only [reading, Call.look, entry, failureCount, sub_self, max_self, zero_div, halfPower_zero,
    mul_one, cutOff, leastWeight_eq]
  split
  · rw [if_pos (by linarith [leastWeight_pos])]
  · split <;> rfl

theorem cutOff_succ {value : ℝ} (above : 0 ≤ value) : cutOff (value + 1) = value + 1 :=
  if_neg (by linarith [leastWeight_le_one])

theorem eq_of_cutOff {value other : ℝ} (same : cutOff value = other) (positive : 0 < other) :
    value = other := by
  unfold cutOff at same
  split at same
  · linarith
  · exact same

/-- What is left of an entry that was not brought up to the instant. -/
theorem failureCount_stored {value last now : ℝ} (positive : 0 < value) :
    failureCount (some (value, last)) now half =
      (cutOff (value * ScoreMath.halfPower (max (now - last) 0 / lifetime half)),
       if value * ScoreMath.halfPower (max (now - last) 0 / lifetime half) < leastWeight then none
       else some (value * ScoreMath.halfPower (max (now - last) 0 / lifetime half), now)) := by
  simp only [failureCount, if_neg (not_le.mpr positive), cutOff, leastWeight_eq]
  unfold lifetime
  split <;> rfl

theorem settled_of_unaltered {calls : List (Call ℝ)}
    (ordered : calls.Pairwise fun earlier later => earlier.time ≤ later.time)
    (unaltered : Unaltered half calls) : Settled half calls := by
  rintro front call back rfl scores failed
  have early : ∀ prior ∈ front, prior.time ≤ call.time := fun prior member =>
    (List.pairwise_append.mp ordered).2.2 prior member call (by simp)
  have near (before after : List (Call ℝ × Bool)) (only : before ++ after ⊆ [(call.look, true)]) :=
    extends_around before after ordered fun entry member => by
      obtain rfl := List.mem_singleton.mp (only member)
      exact ⟨rfl, rfl, rfl⟩
  generalize worth : weight (lifetime half) (failuresSince call.key front) call.time = value
  have positive : 0 < value := worth ▸ weight_pos (lifetime half) failed call.time
  -- Read just after the failure, the stored count is the weight before it.
  have after := (unaltered _ (near [] [(call.look, true)] (by simp))
    (untouched front ++ [(call, false)]) call.look true (untouched back) (by simp) rfl).1
  rw [taken_snoc, taken_untouched, reading_failure scores] at after
  simp only [Call.look, failuresSince_failure scores, weight_snoc, worth,
    cutOff_succ positive.le] at after
  have stored := add_right_cancel (eq_of_cutOff after (by linarith))
  cases held : memoryAfter half front call.key with
  | none =>
    rw [held] at stored
    exact absurd stored positive.ne
  | some entry =>
    obtain ⟨count, last⟩ := entry
    obtain rfl : count = value := by rwa [held] at stored
    have decays : count * ScoreMath.halfPower (max (call.time - last) 0 / lifetime half) ≤ count :=
      mul_le_of_le_one_right positive.le (halfPower_le_one (by have := lifetime_pos half; positivity))
    obtain ⟨prior, member, touches, time⟩ := memory_touched front held
    -- A reading before the failure would drop a weight below the cut-off.
    have high : leastWeight ≤ count := by
      by_contra low
      have looked : memoryAfter half (front ++ [call.look]) call.key = none := by
        rw [memoryAfter_snoc, show call.key = call.look.key from rfl, remember_count rfl,
          show memoryAfter half front call.look.key = some (count, last) from held,
          failureCount_stored positive]
        exact if_pos (decays.trans_lt (not_le.mp low))
      have around := (unaltered _ (near [(call.look, true)] [(call.look, true)] (by simp))
        (untouched front ++ [(call.look, true), (call, false)]) call.look true (untouched back)
        (by simp) rfl).1
      rw [List.append_cons, taken_snoc, taken_snoc, taken_untouched, reading_failure scores,
        looked] at around
      have same : failuresSince call.key (front ++ [call.look]) = failuresSince call.key front :=
        failuresSince_still (.inr ⟨by simp [Call.look], by simp [Call.look, Act.scores]⟩)
      simp only [Call.look, Option.elim_none] at around same
      rw [failuresSince_failure scores, weight_snoc, same, worth, cutOff_succ positive.le,
        cutOff_succ le_rfl] at around
      linarith
    refine ⟨⟨prior, member, touches, ?_⟩, high⟩
    -- And it would age an entry that was stamped earlier.
    have before := (unaltered _ (near [(call.look, true)] [] (by simp)) (untouched front) call.look
      true ((call, false) :: untouched back) (by simp) rfl).1
    rw [taken_untouched, reading,
      show memoryAfter half front call.look.key = some (count, last) from held,
      failureCount_stored positive] at before
    simp only [Call.look, worth] at before
    rw [show cutOff count = count from if_neg (not_lt.mpr high)] at before
    have whole := eq_of_cutOff before positive
    by_contra late
    have aged : 0 < max (call.time - last) 0 := by
      have order := early prior member
      exact lt_max_of_lt_left (sub_pos.mpr (lt_of_le_of_ne (time ▸ order) (time ▸ late)))
    have less := halfPower_lt_one (div_pos aged (lifetime_pos half))
    nlinarith

/-- Over nondecreasing times, readings leave the failure weights alone, and are
the weights, exactly when the calls are settled. -/
theorem unaltered_iff (half : ℝ) (calls : List (Call ℝ))
    (ordered : calls.Pairwise fun earlier later => earlier.time ≤ later.time) :
    Unaltered half calls ↔ Settled half calls :=
  ⟨settled_of_unaltered ordered, unaltered_of_settled ordered⟩

/-- A rate limit of the first key. -/
def limited (time : ℝ) : Call ℝ := ⟨1, time, .failure "" (some 429)⟩

def looked (time : ℝ) : Call ℝ := ⟨1, time, .count⟩

theorem limited_scores (time : ℝ) : (limited time).act.scores = true := by
  simp [limited, Act.scores, is4xxScoreFailure, keyAttributableStatuses]

theorem single_failure_unaltered : Unaltered 300 [limited 0, looked 10] := by
  refine (unaltered_iff 300 [limited 0, looked 10] (by simp [limited, looked])).mpr ?_
  intro front call back split scores failed
  rcases front with _ | ⟨first, _ | ⟨second, rest⟩⟩
  · exact absurd rfl failed
  · obtain ⟨-, rfl, -⟩ : limited 0 = first ∧ looked 10 = call ∧ [] = back := by simpa using split
    simp [looked, Act.scores] at scores
  · simp at split

/-- A second failure one half-life later: the weight of the first has halved
only if it was read in between. -/
theorem second_failure_altered : ¬ Unaltered 300 [limited 0, limited 300, looked 300] := by
  intro unaltered
  have settled := settled_of_unaltered (by simp [limited, looked]) unaltered
  have failed : failuresSince 1 [limited 0] ≠ [] := by
    rw [show [limited 0] = [] ++ [limited 0] from rfl,
      show (1 : Nat) = (limited 0).key from rfl, failuresSince_failure (limited_scores 0)]
    simp
  obtain ⟨⟨prior, member, _, time⟩, _⟩ :=
    settled [limited 0] (limited 300) [looked 300] rfl (limited_scores 300) failed
  obtain rfl := List.mem_singleton.mp member
  norm_num [limited] at time

end FcamGateway.FailureMemory
