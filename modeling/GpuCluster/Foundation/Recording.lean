import GpuCluster.Foundation.Machine

/-! # Machines with a record of their steps

A variable that notes which steps a machine took, and that no step reads. The runs stay
what they are, so a step may be judged with it: by what was done since an earlier one.
-/

namespace GpuCluster.Foundation

namespace Machine

universe u v w

variable {σ : Type u} {α : Type v} {γ : Type w}

/-- `note` is told the state that a step is taken in, and the action. -/
def recording (M : Machine σ α) (note : σ → α → γ → γ) (start : γ) : Machine (σ × γ) α where
  init s := M.init s.1 ∧ s.2 = start
  step s action := (M.step s.1 action).map fun next => (next, note s.1 action s.2)

variable {M : Machine σ α} {note : σ → α → γ → γ} {start : γ}

theorem recording_step {s next : σ × γ} {action : α} :
    (M.recording note start).step s action = some next ↔
      M.step s.1 action = some next.1 ∧ next.2 = note s.1 action s.2 := by
  simp only [recording, Option.map_eq_some_iff]
  constructor
  · rintro ⟨state, hstep, rfl⟩
    exact ⟨hstep, rfl⟩
  · rintro ⟨hstep, hrecord⟩
    exact ⟨next.1, hstep, Prod.ext rfl hrecord.symm⟩

/-- A run visits the same states with the record. -/
theorem throughout_recording {P : σ → Prop} {state : σ} {record : γ} {actions : List α} :
    (M.recording note start).Throughout (fun s => P s.1) (state, record) actions ↔
      M.Throughout P state actions := by
  induction actions generalizing state record with
  | nil => exact .rfl
  | cons action rest ih =>
      refine and_congr_right fun _ => ?_
      constructor
      · intro hall next hstep
        exact ih.mp (hall (next, note state action record) (recording_step.mpr ⟨hstep, rfl⟩))
      · rintro hall ⟨next, noted⟩ hstep
        exact ih.mpr (hall next (recording_step.mp hstep).1)

/-- It takes the same steps. -/
theorem meets_recording {P : σ → α → Prop} {state : σ} {record : γ} {actions : List α} :
    (M.recording note start).Meets (fun s action => P s.1 action) (state, record) actions ↔
      M.Meets P state actions := by
  induction actions generalizing state record with
  | nil => exact .rfl
  | cons action rest ih =>
      constructor
      · intro hall next hstep
        obtain ⟨hjudged, hrest⟩ :=
          hall (next, note state action record) (recording_step.mpr ⟨hstep, rfl⟩)
        exact ⟨hjudged, ih.mp hrest⟩
      · rintro hall ⟨next, noted⟩ hstep
        obtain ⟨hjudged, hrest⟩ := hall next (recording_step.mp hstep).1
        exact ⟨hjudged, ih.mpr hrest⟩

end Machine

end GpuCluster.Foundation
