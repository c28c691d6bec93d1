import FcamGateway.Rotation
import FcamGateway.ScoreOrder

/-! Selections one after the other. They share a cursor for each provider: an exploring
selection takes the eligible keys in turn, however many others come in between, and one that
exploits stays near the best score. -/
namespace FcamGateway.KeyPool

set_option linter.unusedSectionVars false

variable {R : Type} [Field R] [LinearOrder R] [ScoreMath R]

/-- `_rr_cursor`, as a selection reads and writes it. -/
def cursorMoves (cursors : String → Nat) : Event (Op R) (Reply R) → (String → Nat) → Prop
  | ⟨.readPool provider _, reply⟩, next =>
    next = cursors ∧ ∀ view, reply = some view → view.cursor = cursors provider
  | ⟨.keepCursor provider cursor, _⟩, next => next = Function.update cursors provider cursor
  | _, next => next = cursors

/-- One selection with the exchange it had. -/
structure Round (R : Type) [Field R] [LinearOrder R] [ScoreMath R] where
  config : AppConfig R
  runtime : Option (RuntimeScheduling R)
  provider : String
  exclude : List Nat
  events : List (Event (Op R) (Reply R))
  outcome : Except Exn (Except Unselected (SelectedKey R))
  ran : Prog.Ran (select config runtime provider exclude) events outcome

def keepsCursor : Event (Op R) (Reply R) → Bool
  | ⟨.keepCursor _ _, _⟩ => true
  | _ => false

def readView : Event (Op R) (Reply R) → Option (PoolView R)
  | ⟨.readPool _ _, reply⟩ => reply
  | _ => none

def failedCommit : Event (Op R) (Reply R) → Bool
  | ⟨.commit _, reply⟩ => !reply
  | _ => false

namespace Round

variable (round : Round R)

def weights : Weights R := KeyPool.weights round.config round.runtime

/-- What the selection read of the pool. -/
def view : Option (PoolView R) := round.events.findSome? readView

/-- The selection took the explore path. -/
def explores : Bool := round.events.any keepsCursor

/-- The candidates on a reading. -/
def candidates (view : PoolView R) : List (R × KeyObject) :=
  (scanKeys view round.weights round.provider round.exclude).candidates

/-- The selection returns the key, unless its commit fails. -/
def Returns (id : Nat) : Prop :=
  (∃ selected, round.outcome = .ok (.ok selected) ∧ selected.explore = true ∧
    selected.apiKey.id = id) ∨ ∃ event ∈ round.events, failedCommit event = true

end Round

/-- The ids of the eligible keys. -/
def eligible (view : PoolView R) (provider : String) (exclude : List Nat) : List Nat :=
  (standingRows view provider exclude .free).map KeyObject.id

/-- The exploring selections of a provider, in their order. -/
def explorations (rounds : List (Round R)) (provider : String) : List (Round R) :=
  rounds.filter fun round => round.provider = provider ∧ round.explores = true

/-- What one selection does to the cursors, and what it comes to. -/
inductive Course (round : Round R) (cursors last : String → Nat) : Prop where
  | quiet (unmoved : last = cursors) (stays : round.explores = false)
      (fails : ∀ selected, round.outcome ≠ .ok (.ok selected))
  | exploits (view : PoolView R) (selected : SelectedKey R) (read : round.view = some view)
      (decided : decision view round.weights round.provider round.exclude = .ok selected)
      (near : selected.explore = false)
      (unmoved : last = cursors) (stays : round.explores = false)
      (answered : ∀ other, round.outcome = .ok (.ok other) →
        other = { selected with apiKey := selected.apiKey.saved })
  | explores (view : PoolView R) (selected : SelectedKey R) (read : round.view = some view)
      (decided : decision view round.weights round.provider round.exclude = .ok selected)
      (free : selected.explore = true) (here : view.cursor = cursors round.provider)
      (moved : last = Function.update cursors round.provider
        (cursors round.provider % (round.candidates view).length + 1))
      (marked : round.explores = true)
      (answered : round.outcome = .ok (.ok { selected with apiKey := selected.apiKey.saved }) ∨
        ∃ event ∈ round.events, failedCommit event = true)

variable {weight : Weights R} {config : AppConfig R} {runtime : Option (RuntimeScheduling R)}
  {provider : String} {exclude : List Nat} {view : PoolView R} {selected : SelectedKey R}
  {cursors last : String → Nat} {round : Round R} {events : List (Event (Op R) (Reply R))}
  {outcome : Except Exn (Except Unselected (SelectedKey R))}

theorem error_not_ok (error : Unselected) (other : SelectedKey R) :
    (.ok (.error error) : Except Exn (Except Unselected (SelectedKey R))) ≠ .ok (.ok other) := by
  intro same
  cases same

/-- The commit of a decision, and the row that is read again after one that fails. -/
def settling (selected : SelectedKey R) (batch : Commit) :
    Gateway R (Except Unselected (SelectedKey R)) :=
  (query (.commit batch)).bind fun written =>
    if written then .done (.ok { selected with apiKey := selected.apiKey.saved })
    else (rollback selected.apiKey).bind fun _ => .done (.error { error := dbUnavailable })

theorem settling_ran {batch : Commit} (ran : Prog.Ran (settling selected batch) events outcome) :
    (events = [⟨.commit batch, true⟩] ∧
      outcome = .ok (.ok { selected with apiKey := selected.apiKey.saved })) ∨
    ((∃ row, events = [⟨.commit batch, false⟩, ⟨.reload selected.apiKey.id, row⟩]) ∧
      ∀ other, outcome ≠ .ok (.ok other)) := by
  obtain ⟨written, rest, rfl, settled⟩ := Prog.ran_ask ran
  cases written with
  | true =>
    obtain ⟨rfl, rfl⟩ := Prog.ran_done settled
    exact .inl ⟨rfl, rfl⟩
  | false =>
    obtain ⟨row, rest, rfl, reloaded⟩ := Prog.ran_ask settled
    cases row with
    | some columns =>
      obtain ⟨rfl, rfl⟩ := Prog.ran_done reloaded
      exact .inr ⟨⟨_, rfl⟩, error_not_ok _⟩
    | none =>
      cases outcome with
      | error error =>
        cases reloaded
        refine .inr ⟨⟨_, rfl⟩, fun other same => ?_⟩
        cases same
      | ok value => cases reloaded

/-- What a selection asks, and what it makes of it. -/
theorem select_ran_cases (ran : Prog.Ran (select config runtime provider exclude) events outcome) :
    (events = [⟨.readPool provider exclude, none⟩] ∧ ∀ other, outcome ≠ .ok (.ok other)) ∨
    ∃ view kept rest, events = ⟨.readPool provider exclude, some view⟩ :: ⟨.keepFailures kept, ()⟩ :: rest ∧
      ((rest = [] ∧ ∀ other, outcome ≠ .ok (.ok other)) ∨
      ∃ selected batch, decision view (weights config runtime) provider exclude = .ok selected ∧
        ((selected.explore = false ∧ Prog.Ran (settling selected batch) rest outcome) ∨
        ∃ later, selected.explore = true ∧ rest = ⟨.keepCursor provider (view.cursor %
          (scanKeys view (weights config runtime) provider exclude).candidates.length + 1), ()⟩ ::
            later ∧ Prog.Ran (settling selected batch) later outcome)) := by
  obtain ⟨found, rest, rfl, scanned⟩ := Prog.ran_ask ran
  cases found with
  | none =>
    obtain ⟨rfl, rfl⟩ := Prog.ran_done scanned
    exact .inl ⟨rfl, error_not_ok _⟩
  | some view =>
    obtain ⟨⟨⟩, rest, rfl, decides⟩ := Prog.ran_ask scanned
    refine .inr ⟨view, _, rest, rfl, ?_⟩
    dsimp only at decides
    split at decides
    · obtain ⟨rfl, rfl⟩ := Prog.ran_done decides
      exact .inl ⟨rfl, error_not_ok _⟩
    · rename_i selected decided
      refine .inr ⟨selected, { site := .reactivate
                               keys := (scanKeys view (weights config runtime) provider
                                 exclude).reactivated }, decided, ?_⟩
      obtain ⟨apiKey, now, score, explore⟩ := selected
      cases explore with
      | false => exact .inl ⟨rfl, decides⟩
      | true =>
        obtain ⟨⟨⟩, later, rfl, settled⟩ := Prog.ran_ask decides
        exact .inr ⟨later, rfl, rfl, settled⟩

theorem follows_read {reply : Option (PoolView R)}
    (followed : Prog.Follows cursorMoves cursors (⟨.readPool provider exclude, reply⟩ :: events)
      last) : (∀ view, reply = some view → view.cursor = cursors provider) ∧
      Prog.Follows cursorMoves cursors events last := by
  obtain _ | ⟨⟨rfl, here⟩, rest⟩ := followed
  exact ⟨here, rest⟩

theorem follows_kept {cursor : Nat}
    (followed : Prog.Follows cursorMoves cursors (⟨.keepCursor provider cursor, ()⟩ :: events : List
      (Event (Op R) (Reply R))) last) :
    Prog.Follows cursorMoves (Function.update cursors provider cursor) events last := by
  obtain _ | ⟨rfl, rest⟩ := followed
  exact rest

/-- The rest of a selection leaves the cursors alone. -/
theorem settling_follows {batch : Commit}
    (ran : Prog.Ran (settling selected batch) events outcome)
    (followed : Prog.Follows cursorMoves cursors events last) :
    last = cursors ∧ events.any keepsCursor = false ∧
      (outcome = .ok (.ok { selected with apiKey := selected.apiKey.saved }) ∨
        (∀ other, outcome ≠ .ok (.ok other)) ∧ ∃ event ∈ events, failedCommit event = true) := by
  rcases settling_ran ran with ⟨rfl, rfl⟩ | ⟨⟨row, rfl⟩, failed⟩
  · obtain _ | ⟨rfl, _ | _⟩ := followed
    exact ⟨rfl, rfl, .inl rfl⟩
  · obtain _ | ⟨rfl, _ | ⟨rfl, _ | _⟩⟩ := followed
    exact ⟨rfl, rfl, .inr ⟨failed, _, List.mem_cons_self, rfl⟩⟩

theorem round_course (round : Round R)
    (followed : Prog.Follows cursorMoves cursors round.events last) : Course round cursors last := by
  obtain ⟨config, runtime, provider, exclude, events, outcome, ran⟩ := round
  rcases select_ran_cases ran with ⟨rfl, failed⟩ | ⟨view, kept, rest, rfl, decides⟩
  · obtain _ | ⟨⟨rfl, -⟩, _ | _⟩ := followed
    exact .quiet rfl rfl failed
  · obtain ⟨here, read⟩ := follows_read followed
    obtain _ | ⟨rfl, moved⟩ := read
    rcases decides with
      ⟨rfl, failed⟩ | ⟨selected, batch, decided, ⟨near, settled⟩ | ⟨later, free, rfl, settled⟩⟩
    · obtain _ | _ := moved
      exact .quiet rfl rfl failed
    · obtain ⟨rfl, stays, answered⟩ := settling_follows settled moved
      refine .exploits view selected rfl decided near rfl stays ?_
      intro other same
      rcases answered with answered | ⟨failed, -⟩
      · exact Except.ok.inj (Except.ok.inj (same.symm.trans answered))
      · exact absurd same (failed other)
    · obtain ⟨rfl, -, answered⟩ := settling_follows settled (follows_kept moved)
      have cursor := here view rfl
      refine .explores view selected rfl decided free cursor ?_ rfl ?_
      · rw [← cursor]
        rfl
      · rcases answered with answered | ⟨-, event, member, failed⟩
        · exact .inl answered
        · exact .inr ⟨event, by simp [member], failed⟩

/-! ## Explore -/

theorem entrant_ids (rows : List KeyObject) (view : PoolView R) (weight : Weights R)
    (exclude : List Nat) : (rows.filterMap (entrant view weight exclude)).map (fun one => one.2.id) =
      (rows.filter fun key => standing view exclude key = .free).map KeyObject.id := by
  induction rows with
  | nil => rfl
  | cons key rows ih =>
    by_cases free : standing view exclude key = .free
    · have funded := (standing_free_iff.mp free).funded
      rw [← credits_settled] at funded
      obtain ⟨score, scored⟩ := keyScore_funded view weight funded
      have enters : entrant view weight exclude key = some (score, settled key) := by
        rw [entrant, if_pos free, scored, Option.map_some]
      rw [List.filterMap_cons_some enters, List.filter_cons_of_pos (by simpa using free),
        List.map_cons, List.map_cons, ih, id_settled]
    · have stays : entrant view weight exclude key = none := if_neg free
      rw [List.filterMap_cons_none stays, List.filter_cons_of_neg (by simpa using free), ih]

theorem candidates_ids (view : PoolView R) (weight : Weights R) (provider : String)
    (exclude : List Nat) :
    (scanKeys view weight provider exclude).candidates.map (fun one => one.2.id) =
      eligible view provider exclude := by
  rw [scanKeys_candidates]
  exact entrant_ids _ view weight exclude

theorem eligible_nodup (view : PoolView R) (provider : String) (exclude : List Nat) :
    (eligible view provider exclude).Nodup := by
  have rows : ((providerKeys view.keys provider).map KeyObject.id).Nodup := by
    have ids : view.keys.entries.map Prod.fst = view.keys.ids := by
      rw [Table.entries, List.map_map]
      exact List.map_id _
    rw [providerKeys, List.map_map]
    refine (ids ▸ view.keys.nodup).sublist ?_
    exact List.filter_sublist.map _
  exact rows.sublist (List.filter_sublist.map _)

/-- Ordered by id, the candidates are the ids in order. -/
theorem turn_taken {first : R × KeyObject} {rest : List (R × KeyObject)} {ids : List Nat}
    (same : ((first :: rest).map fun one => one.2.id).Perm ids) (cursor : Nat) :
    let ordered := (first :: rest).insertionSort fun one other => one.2.id ≤ other.2.id
    (ids.insertionSort (· ≤ ·))[cursor % ids.length]? =
      some (ordered.getD (cursor % ordered.length) first).2.id := by
  intro ordered
  have sorted : ordered.map (fun one => one.2.id) = ids.insertionSort (· ≤ ·) := by
    rw [List.map_insertionSort _ (· ≤ ·) _ _ fun _ _ _ _ => Iff.rfl]
    apply List.Perm.eq_of_pairwise' (List.pairwise_insertionSort _ _) (List.pairwise_insertionSort _ _)
    exact (List.perm_insertionSort _ _).trans (same.trans (List.perm_insertionSort _ _).symm)
  have count : ordered.length = ids.length := by
    rw [← List.length_map (fun one : R × KeyObject => one.2.id), sorted, List.length_insertionSort]
  have within : cursor % ids.length < ordered.length := by
    rw [count]
    apply Nat.mod_lt
    rw [← same.length_eq]
    exact Nat.succ_pos _
  rw [← sorted, List.getElem?_map, count, List.getD_eq_getElem?_getD, List.getElem?_eq_getElem within]
  rfl

/-- An exploring selection takes the eligible key at its cursor. -/
theorem decision_explored
    (decided : decision view weight provider exclude = .ok selected)
    (free : selected.explore = true) {ids : List Nat}
    (same : (eligible view provider exclude).Perm ids) :
    (scanKeys view weight provider exclude).candidates.length = ids.length ∧
      (ids.insertionSort (· ≤ ·))[view.cursor % ids.length]? = some selected.apiKey.id := by
  have listed := candidates_ids view weight provider exclude
  have count : (scanKeys view weight provider exclude).candidates.length = ids.length := by
    rw [← same.length_eq, ← listed, List.length_map]
  refine ⟨count, ?_⟩
  simp only [decision] at decided
  split at decided
  · cases decided
  split at decided
  · cases decided
  split at decided
  · cases decided
  rename_i first rest candidates
  cases decided
  simp only [choose] at free ⊢
  split at free
  · rename_i drawn
    rw [if_pos drawn]
    exact turn_taken (by rw [← candidates, listed]; exact same) view.cursor
  · cases free

/-- Explorations of the same keys return them in turn, from where the cursor stands. -/
theorem explorations_turn {ids : List Nat} (rounds : List (Round R))
    (followed : Prog.Follows cursorMoves cursors (rounds.flatMap Round.events) last)
    (same : ∀ round ∈ explorations rounds provider, ∀ view, round.view = some view →
      (eligible view provider round.exclude).Perm ids) :
    List.Forall₂ Round.Returns (explorations rounds provider)
      (Rotation.reads (ids.insertionSort (· ≤ ·)) (cursors provider)
        (explorations rounds provider).length) := by
  induction rounds generalizing cursors with
  | nil => exact .nil
  | cons round rounds ih =>
    rw [List.flatMap_cons] at followed
    obtain ⟨middle, first, rest⟩ := (Prog.follows_append _ _).mp followed
    by_cases turn : round.provider = provider ∧ round.explores = true
    · have taken : explorations (round :: rounds) provider = round :: explorations rounds provider :=
        List.filter_cons_of_pos (decide_eq_true turn)
      rw [taken] at same ⊢
      rcases round_course round first with ⟨-, stays, -⟩ | ⟨_, _, -, -, -, -, stays, -⟩ |
        ⟨view, selected, read, decided, free, here, moved, -, answered⟩
      · exact absurd turn.2 (ne_true_of_eq_false stays)
      · exact absurd turn.2 (ne_true_of_eq_false stays)
      · obtain ⟨rfl, -⟩ := turn
        have perm := same round List.mem_cons_self view read
        obtain ⟨count, chosen⟩ := decision_explored decided free perm
        have cursor : middle round.provider = cursors round.provider % ids.length + 1 := by
          rw [moved, Function.update_self]
          exact congrArg (fun count => cursors round.provider % count + 1) count
        have later := ih rest fun other member => same other (List.mem_cons_of_mem _ member)
        rw [List.length_cons, Rotation.reads, List.length_insertionSort, ← here, chosen, here, ← cursor]
        refine .cons ?_ later
        rcases answered with answered | failed
        · exact .inl ⟨_, answered, free, rfl⟩
        · exact .inr failed
    · have skipped : explorations (round :: rounds) provider = explorations rounds provider :=
        List.filter_cons_of_neg (by simpa using turn)
      have kept : middle provider = cursors provider := by
        rcases round_course round first with ⟨rfl, -, -⟩ | ⟨_, _, -, -, -, rfl, -, -⟩ |
          ⟨view, selected, -, -, -, -, rfl, marked, -⟩
        · rfl
        · rfl
        · exact Function.update_of_ne (fun own => turn ⟨own.symm, marked⟩) _ _
      rw [skipped] at same ⊢
      rw [← kept]
      exact ih rest same

/-! ## Exploit -/

instance : IsTrans (R × KeyObject) Before where
  trans := by
    rintro first second third (above | ⟨same, least⟩) (below | ⟨equal, less⟩)
    · exact .inl (below.trans above)
    · exact .inl (equal ▸ above)
    · exact .inl (same ▸ below)
    · exact .inr ⟨same.trans equal, least.trans less⟩

instance : Std.Total (Before (R := R)) where
  total := by
    intro first second
    rcases lt_trichotomy first.1 second.1 with less | same | more
    · exact .inr (.inl less)
    · rcases le_total first.2.id second.2.id with least | least
      · exact .inl (.inr ⟨same, least⟩)
      · exact .inr (.inr ⟨same.symm, least⟩)
    · exact .inl (.inl more)

theorem before_le {one other : R × KeyObject} (before : Before one other) : other.1 ≤ one.1 := by
  rcases before with above | ⟨same, -⟩
  · exact above.le
  · exact same.ge

/-- What the exploit path returns is one of the scores near the best. -/
theorem exploit_near (view : PoolView R) (weight : Weights R) (first : R × KeyObject)
    (rest : List (R × KeyObject)) :
    ∃ best ∈ first :: rest, (∀ candidate ∈ first :: rest, candidate.1 ≤ best.1) ∧
      (best.1 * weight.nearRatio ≤ best.1 →
        best.1 * weight.nearRatio ≤ (exploit view weight first rest).1) := by
  have members : ∀ one, one ∈ (first :: rest).insertionSort Before ↔ one ∈ first :: rest :=
    fun one => List.mem_insertionSort _
  have ordered := List.pairwise_insertionSort Before (first :: rest)
  rw [exploit]
  split
  · rename_i empty
    have listed := (members first).mpr List.mem_cons_self
    rw [empty] at listed
    cases listed
  · rename_i best others sorted
    rw [sorted] at members ordered
    refine ⟨best, (members best).mp List.mem_cons_self, ?_, fun reached => ?_⟩
    · intro candidate listed
      rcases List.mem_cons.mp ((members candidate).mpr listed) with rfl | later
      · exact le_refl _
      · exact before_le ((List.pairwise_cons.mp ordered).1 candidate later)
    · generalize filtered : (best :: others).filter
        (fun candidate => best.1 * weight.nearRatio ≤ candidate.1) = near
      have within : ∀ one ∈ near, best.1 * weight.nearRatio ≤ one.1 := by
        intro one listed
        rw [← filtered] at listed
        exact of_decide_eq_true (List.mem_filter.mp listed).2
      have top : best.1 * weight.nearRatio ≤ (near.headD best).1 := by
        cases near with
        | nil => exact reached
        | cons one near => exact within one List.mem_cons_self
      dsimp only
      split
      · exact top
      · split
        · exact top
        · generalize drawn : pickWeighted (R := R) _ _ near = picked
          cases picked with
          | none => exact top
          | some choice => exact within _ (pickWeighted_mem drawn)

variable [IsStrictOrderedRing R]

theorem near_ratio_clamped (config : AppConfig R) (runtime : Option (RuntimeScheduling R)) :
    1 / 2 ≤ (weights config runtime).nearRatio ∧ (weights config runtime).nearRatio ≤ 1 := by
  have half : (1 : R) / 2 ≤ 1 := by
    rw [div_le_one (by norm_num)]
    norm_num
  exact ⟨le_min (le_max_right _ _) half, min_le_right _ _⟩

/-- No candidate scores below zero. -/
theorem candidate_nonneg (monotone : Monotone R) {candidate : R × KeyObject}
    (member : candidate ∈ (scanKeys view weight provider exclude).candidates) : 0 ≤ candidate.1 := by
  have scored := candidate_scored member
  exact scoreKey_nonneg monotone scored

/-- An exploiting selection returns a candidate near the best. -/
theorem decision_near (monotone : Monotone R) (least : 0 ≤ weight.nearRatio)
    (most : weight.nearRatio ≤ 1)
    (decided : decision view weight provider exclude = .ok selected)
    (near : selected.explore = false) :
    (∃ key, (selected.score, key) ∈ (scanKeys view weight provider exclude).candidates ∧
      key.id = selected.apiKey.id) ∧
    ∀ candidate ∈ (scanKeys view weight provider exclude).candidates,
      weight.nearRatio * candidate.1 ≤ selected.score := by
  simp only [decision] at decided
  split at decided
  · cases decided
  split at decided
  · cases decided
  split at decided
  · cases decided
  rename_i first rest candidates
  cases decided
  have chosen : (choose view weight first rest).1 ∈ first :: rest := choose_mem
  refine ⟨⟨_, candidates ▸ chosen, rfl⟩, ?_⟩
  rw [candidates]
  simp only [choose] at near ⊢
  split at near
  · cases near
  · rename_i drawn
    rw [if_neg drawn]
    intro candidate member
    obtain ⟨best, listed, greatest, reaches⟩ := exploit_near view weight first rest
    have positive : 0 ≤ best.1 := candidate_nonneg monotone (candidates ▸ listed)
    calc weight.nearRatio * candidate.1
        ≤ weight.nearRatio * best.1 := mul_le_mul_of_nonneg_left (greatest candidate member) least
      _ = best.1 * weight.nearRatio := mul_comm _ _
      _ ≤ (exploit view weight first rest).1 :=
        reaches (mul_le_of_le_one_right positive most)

theorem explores_read (marked : round.explores = true) : ∃ view, round.view = some view := by
  obtain ⟨config, runtime, provider, exclude, events, outcome, ran⟩ := round
  rcases select_ran_cases ran with ⟨rfl, -⟩ | ⟨view, kept, rest, rfl, -⟩
  · cases marked
  · exact ⟨view, rfl⟩

/-- What a selection returned without exploring was decided so. -/
theorem round_exploits (returned : round.outcome = .ok (.ok selected))
    (near : selected.explore = false) : ∃ view decided, round.view = some view ∧
      decision view round.weights round.provider round.exclude = .ok decided ∧
      decided.explore = false ∧ selected = { decided with apiKey := decided.apiKey.saved } := by
  obtain ⟨config, runtime, provider, exclude, events, outcome, ran⟩ := round
  have answered : ∀ {decided : SelectedKey R} {batch rest},
      Prog.Ran (settling decided batch) rest outcome →
        selected = { decided with apiKey := decided.apiKey.saved } := by
    intro decided batch rest settled
    rcases settling_ran settled with ⟨-, same⟩ | ⟨-, failed⟩
    · exact Except.ok.inj (Except.ok.inj (returned.symm.trans same))
    · exact absurd returned (failed selected)
  rcases select_ran_cases ran with ⟨-, failed⟩ | ⟨view, kept, rest, rfl, decides⟩
  · exact absurd returned (failed selected)
  · rcases decides with
      ⟨-, failed⟩ | ⟨decided, batch, decides, ⟨stays, settled⟩ | ⟨later, free, -, settled⟩⟩
    · exact absurd returned (failed selected)
    · exact ⟨view, decided, rfl, decides, stays, answered settled⟩
    · rw [answered settled] at near
      exact absurd free (ne_true_of_eq_false near)

/-- Selections one after the other, from any cursors. Once round, the exploring ones of a
provider whose eligible keys stay the same choose each of these once, and return it unless
their commit fails. An exploiting one returns a key near the best, whatever it draws. -/
theorem exploration_fair (monotone : Monotone R) (rounds : List (Round R))
    (followed : Prog.Follows cursorMoves cursors (rounds.flatMap Round.events) last) :
    (∀ provider ids, 2 ≤ ids.length → (explorations rounds provider).length = ids.length →
      (∀ round ∈ explorations rounds provider, ∀ view, round.view = some view →
        (eligible view provider round.exclude).Perm ids) →
      ∃ chosen : List Nat, chosen.Perm ids ∧ chosen.Nodup ∧
        List.Forall₂ Round.Returns (explorations rounds provider) chosen) ∧
    ∀ round ∈ rounds, ∀ selected, round.outcome = .ok (.ok selected) → selected.explore = false →
      ∃ view, round.view = some view ∧
        1 / 2 ≤ round.weights.nearRatio ∧ round.weights.nearRatio ≤ 1 ∧
        (∃ key, (selected.score, key) ∈ round.candidates view ∧ key.id = selected.apiKey.id) ∧
        ∀ candidate ∈ round.candidates view,
          round.weights.nearRatio * candidate.1 ≤ selected.score := by
  constructor
  · intro provider ids two count same
    have returned := explorations_turn rounds followed same
    have once := Rotation.reads_perm (ids.insertionSort (· ≤ ·)) (cursors provider)
    rw [List.length_insertionSort, ← count] at once
    have perm := once.trans (List.perm_insertionSort _ _)
    refine ⟨_, perm, ?_, returned⟩
    have some_ : 0 < (explorations rounds provider).length := by omega
    obtain ⟨round, member⟩ := List.exists_mem_of_length_pos some_
    obtain ⟨view, read⟩ := explores_read (of_decide_eq_true (List.mem_filter.mp member).2).2
    exact ((same round member view read).trans perm.symm).nodup_iff.mp (eligible_nodup _ _ _)
  · intro round member selected returned near
    obtain ⟨view, decided, read, decides, stays, rfl⟩ := round_exploits returned near
    obtain ⟨least, most⟩ := near_ratio_clamped round.config round.runtime
    have positive : 0 ≤ round.weights.nearRatio := (by norm_num : (0 : R) ≤ 1 / 2).trans least
    obtain ⟨⟨key, listed, same⟩, close⟩ := decision_near monotone positive most decides stays
    exact ⟨view, read, least, most, ⟨key, listed, same⟩, close⟩

/-- Two keys, two selections that always explore. -/
theorem two_keys_in_turn : ∃ (rounds : List (Round ℝ)) (last : String → Nat),
    Prog.Follows cursorMoves (fun _ => 0) (rounds.flatMap Round.events) last ∧
      (explorations rounds "firecrawl").length = 2 ∧
      ∃ chosen : List Nat, chosen.Perm [1, 2] ∧ chosen.Nodup ∧
        List.Forall₂ Round.Returns (explorations rounds "firecrawl") chosen := by
  let config : AppConfig ℝ := { scheduling := { epsilonGreedy := 1 } }
  let view (cursor : Nat) : PoolView ℝ := { restingView twoKeys none with cursor }
  have epsilon : (weights config none).epsilon = 1 := by
    simp [weights, config, clamp]
  have explores : ∀ cursor, ∃ selected, decision (view cursor) (weights config none) "firecrawl" [] =
      .ok selected ∧ selected.explore = true := by
    intro cursor
    obtain ⟨first, second, candidates⟩ := twoKeys_candidates (weights config none)
    refine @drawn_explores _ _ _ _ (view cursor) _ _ _ _ _ _ candidates ?_ ?_
    · rw [epsilon]
      exact one_pos
    · rw [epsilon]
      exact one_pos
  have ran : ∀ cursor, ∃ outcome, Prog.Ran (select config none "firecrawl" [])
      (exploring config none (view cursor) "firecrawl" []) outcome := by
    intro cursor
    obtain ⟨selected, decided, explored⟩ := explores cursor
    exact ⟨_, exploring_ran decided explored⟩
  obtain ⟨first, firstRan⟩ := ran 0
  obtain ⟨second, secondRan⟩ := ran 1
  have two : (scanKeys (view 0) (weights config none) "firecrawl" []).candidates.length = 2 := by
    obtain ⟨one, other, candidates⟩ := twoKeys_candidates (weights config none)
    exact congrArg List.length candidates
  let rounds : List (Round ℝ) :=
    [⟨config, none, "firecrawl", [], _, first, firstRan⟩,
      ⟨config, none, "firecrawl", [], _, second, secondRan⟩]
  have followed : ∃ last, Prog.Follows cursorMoves (fun _ => 0) (rounds.flatMap Round.events) last := by
    refine ⟨_, .cons ⟨rfl, ?_⟩ (.cons rfl (.cons rfl (.cons rfl (.cons ⟨rfl, ?_⟩
      (.cons rfl (.cons rfl (.cons rfl .nil)))))))⟩
    · rintro _ ⟨⟩
      rfl
    · rintro _ ⟨⟩
      rw [Function.update_self, two]
      rfl
  obtain ⟨last, followed⟩ := followed
  have fair := (exploration_fair real_monotone rounds followed).1 "firecrawl" [1, 2] (le_refl 2) rfl
  refine ⟨rounds, last, followed, rfl, fair ?_⟩
  intro round member other read
  have free : ∀ cursor, eligible (view cursor) "firecrawl" [] = [1, 2] := by
    intro cursor
    have rows : providerKeys twoKeys "firecrawl" = [.fresh 1 {}, .fresh 2 {}] := rfl
    change ((providerKeys twoKeys "firecrawl").filter _).map KeyObject.id = _
    have one : standing (view cursor) [] (.fresh 1 {}) = .free := rfl
    have two : standing (view cursor) [] (.fresh 2 {}) = .free := rfl
    rw [rows, List.filter_cons_of_pos (by simpa using one),
      List.filter_cons_of_pos (by simpa using two)]
    rfl
  rcases List.mem_cons.mp (List.mem_of_mem_filter member) with rfl | member
  · cases read
    rw [free]
  · obtain rfl := List.mem_singleton.mp member
    cases read
    rw [free]

end FcamGateway.KeyPool
