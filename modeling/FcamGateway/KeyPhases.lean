import FcamGateway.KeyWrites
import FcamGateway.KeyAdmin

/-! The phases of a key. The active flag and the status of a row are two columns, written in many
places; in a phase they fit together. A change of the two columns either leads to a phase whatever
the row was, or it does so only from a row that is as the change takes it to be. -/
namespace FcamGateway.KeyPhases
open Credits KeyAdmin KeyWrites

set_option linter.unusedSectionVars false

inductive Phase where
  | active
  | cooling
  | failed
  | disabled
  | invalid
  | decryptFailed
deriving DecidableEq

namespace Phase

/-- A key in the phase may be selected, now or after a rest. -/
def enabled : Phase → Bool
  | .active => true
  | .cooling => true
  | .failed => true
  | .disabled => false
  | .invalid => false
  | .decryptFailed => false

def status : Phase → String
  | .active => "active"
  | .cooling => "cooling"
  | .failed => "failed"
  | .disabled => "disabled"
  | .invalid => "invalid"
  | .decryptFailed => "decrypt_failed"

/-- A phase is enabled exactly if its status is none of the terminal ones. -/
theorem enabled_iff (phase : Phase) :
    phase.enabled = true ↔ PyText.lower phase.status ∉ KeyPool.disabledStatuses := by
  cases phase <;> decide

end Phase

/-- The statuses that a verdict on a key leaves. -/
def condemnedStatuses : List String := ["invalid", "decrypt_failed"]

structure InPhase (phase : Phase) (row : KeyColumns) : Prop where
  active : row.isActive = phase.enabled
  status : row.status = phase.status

def Phased (row : KeyColumns) : Prop := ∃ phase, InPhase phase row

/-- The rows agree in the two columns. -/
structure SamePhase (one two : KeyColumns) : Prop where
  active : one.isActive = two.isActive
  status : one.status = two.status

variable {row columns : KeyColumns} {phase : Phase}

/-- The key is active exactly if its status is none of the terminal ones. -/
def Coupled (row : KeyColumns) : Prop :=
  row.isActive = true ↔ PyText.lower row.status ∉ KeyPool.disabledStatuses

theorem Phased.coupled (phased : Phased row) : Coupled row := by
  obtain ⟨phase, into⟩ := phased
  unfold Coupled
  rw [into.active, into.status]
  exact phase.enabled_iff

theorem SamePhase.phased (same : SamePhase columns row) (phased : Phased row) : Phased columns := by
  obtain ⟨phase, into⟩ := phased
  exact ⟨phase, same.active.trans into.active, same.status.trans into.status⟩

theorem SamePhase.symm (same : SamePhase row columns) : SamePhase columns row :=
  ⟨same.active.symm, same.status.symm⟩

theorem SamePhase.trans {last : KeyColumns} (first : SamePhase row columns)
    (second : SamePhase columns last) : SamePhase row last :=
  ⟨first.active.trans second.active, first.status.trans second.status⟩

theorem SamePhase.refl (row : KeyColumns) : SamePhase row row := ⟨rfl, rfl⟩

/-- A row as the endpoints create it. -/
theorem phased_created (isActive : Bool) (active : row.isActive = isActive)
    (status : row.status = if isActive then "active" else "disabled") : Phased row := by
  cases isActive with
  | true => exact ⟨.active, active, status⟩
  | false => exact ⟨.disabled, active, status⟩

/-- How a commit changes the two columns: not at all, into a phase, by switching the key on with the
status that it has, or by resting it without a look at the flag. -/
inductive Steps (chilled found : Prop) (row columns : KeyColumns) : Prop where
  | stays (same : SamePhase columns row)
  | settles (phase : Phase) (into : InPhase phase columns)
  | enables (found : found) (active : columns.isActive = true)
    (status : columns.status = if row.status = "disabled" then "active" else row.status)
  | chills (chilled : chilled) (active : columns.isActive = row.isActive)
    (status : columns.status = "cooling")

variable {chilled found : Prop}

/-- A change leads from a phase to a phase, where a key that is rested without a look at its flag is
active and a key that is switched on was not condemned. -/
theorem Steps.phased (steps : Steps chilled found row columns) (phased : Phased row)
    (awake : chilled → row.isActive = true) (pardoned : found → row.status ∉ condemnedStatuses) :
    Phased columns := by
  cases steps with
  | stays same => exact same.phased phased
  | settles phase into => exact ⟨phase, into⟩
  | chills cold active status => exact ⟨.cooling, active.trans (awake cold), status⟩
  | enables given active status =>
    obtain ⟨phase, into⟩ := phased
    have pardoned := pardoned given
    rw [into.status] at pardoned status
    cases phase with
    | active => exact ⟨.active, active, status⟩
    | cooling => exact ⟨.cooling, active, status⟩
    | failed => exact ⟨.failed, active, status⟩
    | disabled => exact ⟨.active, active, status⟩
    | invalid => exact absurd (by decide) pardoned
    | decryptFailed => exact absurd (by decide) pardoned

theorem Steps.rescheduled (steps : Steps chilled found row columns) (next : Option Instant) :
    Steps chilled found row { columns with nextRefreshAt := next } := by
  cases steps with
  | stays same => exact .stays ⟨same.active, same.status⟩
  | settles phase into => exact .settles phase ⟨into.active, into.status⟩
  | enables given active status => exact .enables given active status
  | chills cold active status => exact .chills cold active status

/-- A cooling result rests the key without a look at its flag. -/
theorem steps_applied {result : CreditFetchResult} (applied : Applied result row columns)
    (cold : result.kind = .cooling → row.isActive = true ∨ chilled) :
    Steps chilled found row columns := by
  cases applied with
  | decryptFailed => exact .settles .decryptFailed ⟨rfl, rfl⟩
  | invalid => exact .settles .invalid ⟨rfl, rfl⟩
  | cooling kind =>
    rcases cold kind with awake | given
    · exact .settles .cooling ⟨awake, rfl⟩
    · exact .chills given rfl rfl
  | success => exact .stays ⟨rfl, rfl⟩
  | error => exact .stays ⟨rfl, rfl⟩

/-- What a forward writes. -/
theorem steps_rewritten {site : Site} (rewritten : Rewritten chilled site row columns) :
    Steps chilled found row columns := by
  cases rewritten with
  | reactivate key enabled =>
    have awake : key.current.isActive = true := by
      unfold KeyPool.isDisabled at enabled
      split at enabled
      · cases enabled
      · rename_i on
        simpa using on
    by_cases rested : PyText.lower key.current.status ∈ KeyPool.coolingStatuses
    · exact .settles .active ⟨awake, if_pos rested⟩
    · exact .stays ⟨rfl, if_neg rested⟩
  | decryptFailed => exact .settles .decryptFailed ⟨rfl, rfl⟩
  | cooling _ _ _ usable => exact .settles .cooling ⟨usable.1, rfl⟩
  | failed _ _ usable => exact .settles .failed ⟨usable.1, rfl⟩
  | invalid => exact .settles .invalid ⟨rfl, rfl⟩
  | creditResult result applied cold => exact steps_applied applied fun kind => .inr (cold kind)
  | zeroCredits => exact .stays ⟨rfl, rfl⟩
  | localCredits => exact .stays ⟨rfl, rfl⟩
  | quota => exact .stays ⟨rfl, rfl⟩

/-- An administrator's assignment of the flag, where switching on is asked for. -/
theorem steps_setActive (isActive : Bool) (given : isActive = true → found)
    (active : columns.isActive = isActive)
    (status : columns.status = if !isActive then "disabled"
      else if row.status = "disabled" then "active" else row.status) :
    Steps chilled found row columns := by
  cases isActive with
  | true => exact .enables (given rfl) active status
  | false => exact .settles .disabled ⟨active, status⟩

/-- The update of a row, whose rotation leaves the two columns alone. -/
theorem steps_update {payload : UpdateKeyRequest} {rotated : KeyColumns}
    (given : payload.isActive = some true → found) (same : SamePhase rotated row) :
    Steps chilled found row (payload.assign rotated) := by
  unfold UpdateKeyRequest.assign
  cases asked : payload.isActive with
  | none => exact .stays ⟨same.active, same.status⟩
  | some isActive =>
    refine steps_setActive isActive (fun on => given (by rw [asked, on])) rfl ?_
    simp only [setActive, same.status]

/-- What a patch makes of a row that was left alone or has become active. -/
theorem steps_patch {patch : BatchKeyPatch} {reset : KeyColumns}
    (given : patch.isActive = some true → found)
    (from_ : SamePhase reset row ∨ InPhase .active reset) :
    Steps chilled found row (patch.assign reset) := by
  unfold BatchKeyPatch.assign
  cases asked : patch.isActive with
  | none =>
    rcases from_ with same | into
    · exact .stays ⟨same.active, same.status⟩
    · exact .settles .active ⟨into.active, into.status⟩
  | some isActive =>
    rcases from_ with same | into
    · refine steps_setActive isActive (fun on => given (by rw [asked, on])) rfl ?_
      simp only [setActive, same.status]
    · cases isActive with
      | true => exact .settles .active ⟨rfl, by simp [setActive, into.status, Phase.status]⟩
      | false => exact .settles .disabled ⟨rfl, rfl⟩

/-- What a batch assigns to a row. A key that is put away is not switched on. -/
theorem steps_batch {payload : BatchKeysRequest}
    (given : payload.patch.bind (·.isActive) = some true → payload.softDelete = false → found)
    (kept : payload.purge = false) : Steps chilled found row (payload.assign row) := by
  unfold BatchKeysRequest.assign
  have reset : ∀ reset : KeyColumns, reset = (if payload.resetCooldown then
      { row with
        cooldownUntil := none
        status := if row.status ∈ ["cooling", "failed"] ∧ row.isActive then "active" else row.status }
      else row) → SamePhase reset row ∨ InPhase .active reset := by
    rintro _ rfl
    split
    · by_cases resting : row.status ∈ ["cooling", "failed"] ∧ row.isActive
      · exact .inr ⟨resting.2, if_pos resting⟩
      · exact .inl ⟨rfl, if_neg resting⟩
    · exact .inl (.refl row)
  dsimp only
  rw [kept]
  cases soft : payload.softDelete with
  | true => exact .settles .disabled ⟨rfl, rfl⟩
  | false =>
    simp only [Bool.false_and, Bool.false_eq_true, if_false]
    cases patched : payload.patch with
    | none =>
      rcases reset _ rfl with same | into
      · exact .stays same
      · exact .settles .active into
    | some patch =>
      exact steps_patch (fun on => given (by rw [patched]; exact on) soft) (reset _ rfl)

end FcamGateway.KeyPhases
