import Mathlib.Data.List.Infix

namespace Machine

variable {σ ε : Type*}

/-- Take the events in order; `none` from the first step that traps. -/
def run (step : σ → ε → Option σ) : σ → List ε → Option σ
  | s, [] => some s
  | s, e :: es => (step s e).bind fun t => run step t es

theorem run_cons (step : σ → ε → Option σ) (s : σ) (e : ε) (es : List ε) :
    run step s (e :: es) = (step s e).bind fun t => run step t es := rfl

theorem run_cons_of_step {step : σ → ε → Option σ} {s t : σ} {e : ε} (h : step s e = some t)
    (es : List ε) : run step s (e :: es) = run step t es := by
  rw [run_cons, h, Option.bind_some]

theorem run_append (step : σ → ε → Option σ) (s : σ) (es fs : List ε) :
    run step s (es ++ fs) = (run step s es).bind fun t => run step t fs := by
  induction es generalizing s with
  | nil => rfl
  | cons e es ih =>
    rw [List.cons_append, run_cons, run_cons, Option.bind_assoc]
    exact congrArg (Option.bind (step s e)) (funext fun t => ih t)

/-- `P` holds in every state a prefix of the run reaches, the first one included. -/
def Always (step : σ → ε → Option σ) (P : σ → Prop) (s : σ) (es : List ε) : Prop :=
  ∀ pre, pre <+: es → ∀ t, run step s pre = some t → P t

/-- Every completed step of the run satisfies `C` in the state it is taken in. -/
def EachStep (step : σ → ε → Option σ) (C : σ → ε → Prop) (s : σ) (es : List ε) : Prop :=
  ∀ pre e, pre ++ [e] <+: es → ∀ t u, run step s pre = some t → step t e = some u → C t e

theorem always_nil {step : σ → ε → Option σ} {P : σ → Prop} {s : σ} :
    Always step P s [] ↔ P s := by
  constructor
  · intro h
    exact h [] List.prefix_rfl s rfl
  · intro hs pre hp t hr
    rw [List.prefix_nil.mp hp] at hr
    cases hr
    exact hs

theorem always_cons {step : σ → ε → Option σ} {P : σ → Prop} {s : σ} {e : ε} {es : List ε} :
    Always step P s (e :: es) ↔ P s ∧ ∀ t, step s e = some t → Always step P t es := by
  constructor
  · intro h
    refine ⟨h [] List.nil_prefix s rfl, ?_⟩
    intro t ht pre hp u hu
    exact h (e :: pre) (by simpa using hp) u (by rw [run_cons_of_step ht, hu])
  · intro h pre hp u hu
    obtain ⟨hs, h⟩ := h
    rcases List.prefix_cons_iff.mp hp with rfl | ⟨tail, rfl, htail⟩
    · cases hu
      exact hs
    · rw [run_cons] at hu
      obtain ⟨t, ht, hu⟩ := Option.bind_eq_some_iff.mp hu
      exact h t ht tail htail u hu

theorem eachStep_nil {step : σ → ε → Option σ} {C : σ → ε → Prop} {s : σ} :
    EachStep step C s [] := by
  intro pre e hp
  simp at hp

theorem eachStep_cons {step : σ → ε → Option σ} {C : σ → ε → Prop} {s : σ} {e : ε}
    {es : List ε} : EachStep step C s (e :: es) ↔
      ∀ t, step s e = some t → C s e ∧ EachStep step C t es := by
  constructor
  · intro h t ht
    refine ⟨h [] e (by simp) s t rfl ht, ?_⟩
    intro pre f hp u v hu hv
    exact h (e :: pre) f (by simpa using hp) u v (by rw [run_cons_of_step ht, hu]) hv
  · intro h pre f hp u v hu hv
    cases pre with
    | nil =>
      have hf : f = e := by simpa using hp
      subst f
      cases hu
      exact (h v hv).1
    | cons g pre =>
      obtain ⟨hg, htail⟩ : g = e ∧ pre ++ [f] <+: es := by simpa using hp
      subst g
      rw [run_cons] at hu
      obtain ⟨t, ht, hu⟩ := Option.bind_eq_some_iff.mp hu
      exact (h t ht).2 pre f htail u v hu hv

theorem EachStep.cons {step : σ → ε → Option σ} {C : σ → ε → Prop} {s t : σ} {e : ε} {es : List ε}
    (h : step s e = some t) (hC : C s e) (hes : EachStep step C t es) :
    EachStep step C s (e :: es) := by
  rw [eachStep_cons]
  intro u hu
  rw [h] at hu
  cases hu
  exact ⟨hC, hes⟩

theorem Always.last {step : σ → ε → Option σ} {P : σ → Prop} {s : σ} {es : List ε}
    (h : Always step P s es) {t : σ} (ht : run step s es = some t) : P t :=
  h es List.prefix_rfl t ht

theorem Always.mono {step : σ → ε → Option σ} {P Q : σ → Prop} {s : σ} {es : List ε}
    (h : Always step P s es) (hpq : ∀ t, P t → Q t) : Always step Q s es :=
  fun pre hp t hr => hpq t (h pre hp t hr)

/-- An invariant every step keeps holds along every run. -/
theorem always_of_invariant {step : σ → ε → Option σ} {J : σ → Prop}
    (hstep : ∀ s e t, J s → step s e = some t → J t) {s : σ} (hs : J s) (es : List ε) :
    Always step J s es := by
  induction es generalizing s with
  | nil => exact always_nil.mpr hs
  | cons e es ih => exact always_cons.mpr ⟨hs, fun t ht => ih (hstep s e t hs ht)⟩

/-- Where no step from the invariant traps, no run traps. -/
theorem exists_run_of_invariant {step : σ → ε → Option σ} {J : σ → Prop}
    (hstep : ∀ s e t, J s → step s e = some t → J t) (htotal : ∀ s e, J s → (step s e).isSome)
    {s : σ} (hs : J s) (es : List ε) : ∃ t, run step s es = some t ∧ J t := by
  induction es generalizing s with
  | nil => exact ⟨s, rfl, hs⟩
  | cons e es ih =>
    obtain ⟨t, ht⟩ := Option.isSome_iff_exists.mp (htotal s e hs)
    rw [run_cons_of_step ht]
    exact ih (hstep s e t hs ht)

/-- Where each step keeps the invariant `J` exactly when it meets `C`, and a step that misses
`C` is seen in `P`, the runs that stay in `P` are the runs whose steps all meet `C`. -/
theorem always_iff_eachStep {step : σ → ε → Option σ} {J P : σ → Prop} {C : σ → ε → Prop}
    (hJP : ∀ s, J s → P s) (hkeep : ∀ s e t, J s → step s e = some t → C s e → J t)
    (hmiss : ∀ s e t, J s → step s e = some t → P t → C s e) {s : σ} (hs : J s)
    (es : List ε) : Always step P s es ↔ EachStep step C s es := by
  induction es generalizing s with
  | nil => exact iff_of_true (always_nil.mpr (hJP s hs)) eachStep_nil
  | cons e es ih =>
    rw [always_cons, eachStep_cons]
    constructor
    · intro h t ht
      have htail : Always step P t es := h.2 t ht
      have hP : P t := htail [] List.nil_prefix t rfl
      have hC : C s e := hmiss s e t hs ht hP
      exact ⟨hC, (ih (hkeep s e t hs ht hC)).mp htail⟩
    · intro h
      refine ⟨hJP s hs, fun t ht => ?_⟩
      obtain ⟨hC, hes⟩ := h t ht
      exact (ih (hkeep s e t hs ht hC)).mpr hes

/-- A run every step of which meets `C` stays in the invariant that such steps keep. -/
theorem always_of_eachStep {step : σ → ε → Option σ} {J : σ → Prop} {C : σ → ε → Prop}
    (hkeep : ∀ s e t, J s → step s e = some t → C s e → J t) {s : σ} (hs : J s)
    {es : List ε} (h : EachStep step C s es) : Always step J s es := by
  induction es generalizing s with
  | nil => exact always_nil.mpr hs
  | cons e es ih =>
    refine always_cons.mpr ⟨hs, fun t ht => ?_⟩
    obtain ⟨hC, hes⟩ := eachStep_cons.mp h t ht
    exact ih (hkeep s e t hs ht hC) hes

/-- The steps of a run, each with the state it is taken in. -/
def trace (step : σ → ε → Option σ) : σ → List ε → List (σ × ε)
  | _, [] => []
  | s, e :: es => (s, e) :: ((step s e).map fun t => trace step t es).getD []

end Machine
