import Mathlib.Data.List.Basic

namespace Crash

variable {δ γ : Type*}

/-- Commit the transactions in order on the durable state. -/
def commit (ws : List (δ → δ)) (d : δ) : δ := ws.foldl (fun d w => w d) d

/-- What a kill after `k` commits leaves; every transaction is all or nothing. -/
def cut (ws : List (δ → δ)) (k : Nat) (d : δ) : δ := commit (ws.take k) d

@[simp] theorem commit_nil (d : δ) : commit [] d = d := rfl

@[simp] theorem cut_zero (ws : List (δ → δ)) (d : δ) : cut ws 0 d = d := rfl

@[simp] theorem cut_nil (k : Nat) (d : δ) : cut [] k d = d := by
  rw [cut, List.take_nil, commit_nil]

@[simp] theorem cut_succ_cons (w : δ → δ) (ws : List (δ → δ)) (k : Nat) (d : δ) :
    cut (w :: ws) (k + 1) d = cut ws k (w d) := rfl

theorem cut_of_length_le {ws : List (δ → δ)} {k : Nat} (h : ws.length ≤ k) (d : δ) :
    cut ws k d = commit ws d := by
  rw [cut, List.take_of_length_le h]

/-- An operation of at most one transaction is all or nothing under a kill. -/
theorem cut_all_or_nothing {ws : List (δ → δ)} (h : ws.length ≤ 1) (k : Nat) (d : δ) :
    cut ws k d = d ∨ cut ws k d = commit ws d := by
  cases k with
  | zero => exact Or.inl (cut_zero ws d)
  | succ k => exact Or.inr (cut_of_length_le (by omega) d)

/-- What every transaction keeps, a kill at any point keeps. -/
theorem cut_invariant (P : δ → Prop) {ws : List (δ → δ)} (h : ∀ w ∈ ws, ∀ d, P d → P (w d))
    (k : Nat) {d : δ} (hd : P d) : P (cut ws k d) := by
  induction ws generalizing k d with
  | nil => rwa [cut_nil]
  | cons w ws ih =>
    cases k with
    | zero => exact hd
    | succ k =>
      rw [cut_succ_cons]
      exact ih (fun v hv => h v (List.mem_cons_of_mem w hv)) k (h w List.mem_cons_self d hd)

/-- A part of the durable state that no transaction writes survives a kill at any point. -/
theorem cut_frame {f : δ → γ} {ws : List (δ → δ)} (h : ∀ w ∈ ws, ∀ d, f (w d) = f d)
    (k : Nat) (d : δ) : f (cut ws k d) = f d :=
  cut_invariant (fun e => f e = f d) (fun w hw e he => (h w hw e).trans he) k rfl

theorem commit_frame {f : δ → γ} {ws : List (δ → δ)} (h : ∀ w ∈ ws, ∀ d, f (w d) = f d)
    (d : δ) : f (commit ws d) = f d := by
  rw [← cut_of_length_le (Nat.le_refl ws.length) d]
  exact cut_frame h ws.length d

end Crash
