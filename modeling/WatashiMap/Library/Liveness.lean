import Mathlib.Order.Monotone.Basic
import Mathlib.Order.WellFounded
import WatashiMap.Library.Machine

namespace Machine

variable {σ ε α : Type*} {step : σ → ε → Option σ}

/-- An execution without end: no step of it traps. -/
structure Execution (step : σ → ε → Option σ) where
  state : ℕ → σ
  event : ℕ → ε
  step_eq : ∀ n, step (state n) (event n) = some (state (n + 1))

/-- If the rank never grows, a busy state is followed by a step that lowers it, and no quiet state
by a busy one, then some time everything is quiet for good. -/
theorem Execution.quiesces [Preorder α] [WellFoundedLT α] (x : Execution step) (rank : σ → α)
    (Busy : σ → Prop) (hle : ∀ n, rank (x.state (n + 1)) ≤ rank (x.state n))
    (hbusy : ∀ n, Busy (x.state (n + 1)) → Busy (x.state n))
    (hfair : ∀ n, Busy (x.state n) → ∃ m, n ≤ m ∧ rank (x.state (m + 1)) < rank (x.state m)) :
    ∃ n, ∀ m, n ≤ m → ¬ Busy (x.state m) := by
  have hanti : Antitone fun n => rank (x.state n) := antitone_nat_of_succ_le hle
  have hquiet : ∀ a n, rank (x.state n) = a → ∃ k, ¬ Busy (x.state k) := by
    intro a
    induction a using WellFoundedLT.induction with
    | ind a ih =>
      intro n hn
      by_cases hb : Busy (x.state n)
      · obtain ⟨m, hnm, hlt⟩ := hfair n hb
        have hlow : rank (x.state (m + 1)) < a := by
          rw [← hn]
          exact lt_of_lt_of_le hlt (hanti hnm)
        exact ih _ hlow (m + 1) rfl
      · exact ⟨n, hb⟩
  obtain ⟨n, hn⟩ := hquiet _ 0 rfl
  refine ⟨n, fun m hm => ?_⟩
  induction m, hm using Nat.le_induction with
  | base => exact hn
  | succ m _ ih => exact fun hb => ih (hbusy m hb)

end Machine
