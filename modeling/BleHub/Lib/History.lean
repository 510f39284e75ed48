import Mathlib.Tactic.Common

/-! Properties of recorded histories, kept with the newest entry first. -/

namespace History

variable {α : Type}

/-- The property holds of every entry together with the entries recorded before it. -/
def Always (φ : α → List α → Prop) : List α → Prop
  | [] => True
  | entry :: past => φ entry past ∧ Always φ past

@[simp] theorem always_nil (φ : α → List α → Prop) : Always φ [] = True := rfl

@[simp] theorem always_cons (φ : α → List α → Prop) (entry : α) (past : List α) :
    Always φ (entry :: past) = (φ entry past ∧ Always φ past) := rfl

/-- A property of every entry can be read off at any point of the history. -/
theorem Always.at {φ : α → List α → Prop} {later past : List α} {entry : α} :
    Always φ (later ++ entry :: past) → φ entry past := by
  -- Dropping the newest entry keeps the property of the entries below it.
  induction later with
  | nil => exact fun holds => holds.1
  | cons _ later ih => exact fun holds => ih holds.2

/-- Two properties that always agree hold throughout the same histories. -/
theorem Always.congr {φ ψ : α → List α → Prop} {history : List α}
    (agree : Always (fun entry past => φ entry past ↔ ψ entry past) history) :
    Always φ history ↔ Always ψ history := by
  -- The newest entry and the entries before it are compared separately.
  induction history with
  | nil => simp
  | cons entry past ih =>
    simp only [always_cons] at agree ⊢
    rw [agree.1, ih agree.2]

/--
Two properties hold throughout the same histories if they agree wherever an invariant holds,
and if the invariant is kept as long as they hold.
-/
theorem Always.congr_invariant {φ ψ : α → List α → Prop} {J : List α → Prop} {history : List α}
    (first : J [])
    (agree : Always (fun entry past => J past → (φ entry past ↔ ψ entry past)) history)
    (keeps : Always (fun entry past => J past → ψ entry past → J (entry :: past)) history) :
    Always φ history ↔ Always ψ history := by
  -- The invariant is carried along the histories in which the second property holds.
  have both : (Always φ history ↔ Always ψ history) ∧ (Always ψ history → J history) := by
    induction history with
    | nil => exact ⟨Iff.rfl, fun _ => first⟩
    | cons entry past ih =>
      obtain ⟨same, kept⟩ := ih agree.2 keeps.2
      simp only [always_cons, same]
      refine ⟨?_, fun holds => keeps.1 (kept holds.2) holds.1⟩
      -- At the newest entry the invariant holds, so both properties say the same there.
      constructor
      · exact fun holds => ⟨(agree.1 (kept holds.2)).mp holds.1, holds.2⟩
      · exact fun holds => ⟨(agree.1 (kept holds.2)).mpr holds.1, holds.2⟩
  exact both.1

/-- A weaker property holds throughout the same histories. -/
theorem Always.mono {φ ψ : α → List α → Prop} {history : List α}
    (implies : ∀ entry past, φ entry past → ψ entry past) (holds : Always φ history) :
    Always ψ history := by
  induction history with
  | nil => trivial
  | cons entry past ih => exact ⟨implies entry past holds.1, ih holds.2⟩

instance decidableAlways {φ : α → List α → Prop} [∀ entry past, Decidable (φ entry past)] :
    ∀ history, Decidable (Always φ history)
  | [] => isTrue trivial
  | entry :: past =>
    match (inferInstance : Decidable (φ entry past)), decidableAlways past with
    | isTrue here, isTrue before => isTrue ⟨here, before⟩
    | isFalse here, _ => isFalse fun holds => here holds.1
    | _, isFalse before => isFalse fun holds => before holds.2

end History
