import Mathlib.Data.List.Forall2
import WatashiMap.Library.Machine

namespace Machine

variable {σ τ ε φ : Type*} {step : σ → ε → Option σ} {step' : τ → φ → Option τ} {R : σ → τ → Prop}

theorem run_singleton (step : σ → ε → Option σ) (s : σ) (e : ε) : run step s [e] = step s e := by
  rw [run_cons]
  exact Option.bind_fun_some (step s e)

/-- Where every step of one machine is matched by some steps of another, every run is matched by
the steps taken together. -/
theorem run_simulates {M : ε → List φ → Prop}
    (hstep : ∀ s t e fs s', R s t → M e fs → step s e = some s' →
      ∃ t', run step' t fs = some t' ∧ R s' t')
    {es : List ε} {fss : List (List φ)} (hm : List.Forall₂ M es fss) {s s' : σ} {t : τ}
    (hR : R s t) (h : run step s es = some s') :
    ∃ t', run step' t fss.flatten = some t' ∧ R s' t' := by
  induction hm generalizing s t with
  | nil =>
    cases h
    exact ⟨t, rfl, hR⟩
  | @cons e fs es fss he _ ih =>
    rw [run_cons] at h
    obtain ⟨s₁, hs₁, hrest⟩ := Option.bind_eq_some_iff.mp h
    obtain ⟨t₁, ht₁, hR₁⟩ := hstep s t e fs s₁ hR he hs₁
    obtain ⟨t', ht', hR'⟩ := ih hR₁ hrest
    refine ⟨t', ?_, hR'⟩
    rw [List.flatten_cons, run_append, ht₁, Option.bind_some, ht']

/-- The matching steps are a function of the event. -/
theorem run_simulates_flatMap {translate : ε → List φ}
    (hstep : ∀ s t e s', R s t → step s e = some s' →
      ∃ t', run step' t (translate e) = some t' ∧ R s' t')
    {es : List ε} {s s' : σ} {t : τ} (hR : R s t) (h : run step s es = some s') :
    ∃ t', run step' t (es.flatMap translate) = some t' ∧ R s' t' := by
  have hm : List.Forall₂ (fun e fs => fs = translate e) es (es.map translate) := by
    rw [List.forall₂_map_right_iff, List.forall₂_same]
    intro e _
    rfl
  rw [List.flatMap_def]
  refine run_simulates ?_ hm hR h
  intro s t e fs s' hR hfs hs
  subst hfs
  exact hstep s t e s' hR hs

/-- One step matches one step. -/
theorem run_simulates_forall₂ {N : ε → φ → Prop}
    (hstep : ∀ s t e f s', R s t → N e f → step s e = some s' →
      ∃ t', step' t f = some t' ∧ R s' t')
    {es : List ε} {fs : List φ} (hm : List.Forall₂ N es fs) {s s' : σ} {t : τ} (hR : R s t)
    (h : run step s es = some s') : ∃ t', run step' t fs = some t' ∧ R s' t' := by
  have hsingle : List.Forall₂ (fun e gs => ∃ f, gs = [f] ∧ N e f) es (fs.map fun f => [f]) := by
    rw [List.forall₂_map_right_iff]
    exact hm.imp fun e f he => ⟨f, rfl, he⟩
  have hmatch : ∀ s t e gs s', R s t → (∃ f, gs = [f] ∧ N e f) → step s e = some s' →
      ∃ t', run step' t gs = some t' ∧ R s' t' := by
    intro s t e gs s' hR hgs hs
    obtain ⟨f, rfl, he⟩ := hgs
    obtain ⟨t', ht', hR'⟩ := hstep s t e f s' hR he hs
    exact ⟨t', (run_singleton step' t f).trans ht', hR'⟩
  obtain ⟨t', ht', hR'⟩ := run_simulates hmatch hsingle hR h
  rw [← List.flatMap_def, List.flatMap_singleton'] at ht'
  exact ⟨t', ht', hR'⟩

end Machine
