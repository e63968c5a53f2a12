import Mathlib.Data.List.Induction
import WatashiMap.Library.Machine

namespace LastWrite

variable {σ ε α β : Type*}

/-- What the last of the events that write leaves; `a` if none of them does. -/
def value (write : ε → Option α) (a : α) (es : List ε) : α := ((es.filterMap write).getLast?).getD a

@[simp] theorem value_nil (write : ε → Option α) (a : α) : value write a [] = a := rfl

theorem value_cons (write : ε → Option α) (a : α) (e : ε) (es : List ε) :
    value write a (e :: es) = value write ((write e).getD a) es := by
  unfold value
  cases hw : write e with
  | none => rw [List.filterMap_cons_none hw, Option.getD_none]
  | some b =>
    rw [List.filterMap_cons_some hw, List.getLast?_cons, Option.getD_some, Option.getD_some]

theorem value_append (write : ε → Option α) (a : α) (es fs : List ε) :
    value write a (es ++ fs) = value write (value write a es) fs := by
  induction es generalizing a with
  | nil => rfl
  | cons e es ih => rw [List.cons_append, value_cons, value_cons, ih]

/-- Reading a part of what is written commutes with writing. -/
theorem value_map (f : α → β) (write : ε → Option α) (a : α) (es : List ε) :
    value (fun e => (write e).map f) (f a) es = f (value write a es) := by
  induction es generalizing a with
  | nil => rfl
  | cons e es ih =>
    rw [value_cons, value_cons, ← ih]
    cases write e <;> rfl

theorem value_of_none {write : ε → Option α} {es : List ε} (h : ∀ e ∈ es, write e = none) (a : α) :
    value write a es = a := by
  rw [value, List.filterMap_eq_nil_iff.mpr h]
  rfl

/-- The event that writes last decides. -/
theorem value_split {write : ε → Option α} {e : ε} {b : α} (he : write e = some b) {post : List ε}
    (hpost : ∀ f ∈ post, write f = none) (a : α) (pre : List ε) :
    value write a (pre ++ e :: post) = b := by
  rw [value_append, value_cons, he, Option.getD_some, value_of_none hpost]

/-- Either no event writes, or one writes last. -/
theorem value_cases (write : ε → Option α) (a : α) (es : List ε) :
    ((∀ e ∈ es, write e = none) ∧ value write a es = a) ∨
      ∃ pre e post b, es = pre ++ e :: post ∧ write e = some b ∧
        (∀ f ∈ post, write f = none) ∧ value write a es = b := by
  induction es generalizing a with
  | nil => exact Or.inl ⟨nofun, rfl⟩
  | cons e es ih =>
    rw [value_cons]
    rcases ih ((write e).getD a) with ⟨hnone, hvalue⟩ | ⟨pre, f, post, b, rfl, hf, hpost, hvalue⟩
    · cases he : write e with
      | none =>
        refine Or.inl ⟨by simpa [he] using hnone, ?_⟩
        rw [value_of_none hnone, Option.getD_none]
      | some b =>
        refine Or.inr ⟨[], e, es, b, rfl, he, hnone, ?_⟩
        rw [value_of_none hnone, Option.getD_some]
    · exact Or.inr ⟨e :: pre, f, post, b, rfl, hf, hpost, hvalue⟩

/-- A part of the state that each step writes as its event says is, after a run, what the last
write leaves. -/
theorem value_of_run {step : σ → ε → Option σ} {read : σ → α} {write : ε → Option α}
    (hstep : ∀ s e t, step s e = some t → read t = (write e).getD (read s)) {es : List ε} {s t : σ}
    (h : Machine.run step s es = some t) : read t = value write (read s) es := by
  induction es generalizing s with
  | nil =>
    cases h
    rfl
  | cons e es ih =>
    rw [Machine.run_cons] at h
    obtain ⟨u, hu, h⟩ := Option.bind_eq_some_iff.mp h
    rw [value_cons, ← hstep s e u hu]
    exact ih h

/-- A step that writes from its state and its event, where what was written last stays related to
the state. -/
theorem related_of_trace {step : σ → ε → Option σ} {R : α → σ → Prop} {write : σ × ε → Option α}
    (hstep : ∀ a s e t, R a s → step s e = some t → R ((write (s, e)).getD a) t) {es : List ε}
    {a : α} {s t : σ} (hs : R a s) (h : Machine.run step s es = some t) :
    R (value write a (Machine.trace step s es)) t := by
  induction es generalizing a s with
  | nil =>
    cases h
    exact hs
  | cons e es ih =>
    rw [Machine.run_cons] at h
    obtain ⟨u, hu, h⟩ := Option.bind_eq_some_iff.mp h
    rw [Machine.trace, hu, Option.map_some, Option.getD_some, value_cons]
    exact ih (hstep a s e u hs hu) h

/-- Whether the last event that touches `Q` makes it hold: `verdict` says so from the state the
event finds, and without such an event the start decides. -/
def Holds (step : σ → ε → σ) (touches : ε → Bool) (verdict : σ → ε → Prop) (start : Prop) (s : σ)
    (es : List ε) : Prop :=
  (∃ pre e post, es = pre ++ e :: post ∧ touches e = true ∧ (∀ f ∈ post, touches f = false) ∧
      verdict (pre.foldl step s) e) ∨
    (∀ f ∈ es, touches f = false) ∧ start

/-- Where an event of a list stands when one more is appended. -/
theorem split_append_singleton {es pre post : List ε} {e f : ε}
    (h : es ++ [e] = pre ++ f :: post) :
    (post = [] ∧ es = pre ∧ e = f) ∨ ∃ post', post = post' ++ [e] ∧ es = pre ++ f :: post' := by
  induction post using List.reverseRecOn with
  | nil =>
    obtain ⟨hes, hef⟩ := List.append_inj' h rfl
    exact Or.inl ⟨rfl, hes, List.singleton_inj.mp hef⟩
  | append_singleton post' g _ =>
    have hassoc : es ++ [e] = (pre ++ f :: post') ++ [g] := by
      rw [h, List.append_assoc, List.cons_append]
    obtain ⟨hes, heg⟩ := List.append_inj' hassoc rfl
    rw [List.singleton_inj.mp heg]
    exact Or.inr ⟨post', rfl, hes⟩

theorem holds_append_of_touches {step : σ → ε → σ} {touches : ε → Bool}
    {verdict : σ → ε → Prop} {start : Prop} {s : σ} {es : List ε} {e : ε}
    (he : touches e = true) :
    Holds step touches verdict start s (es ++ [e]) ↔ verdict (es.foldl step s) e := by
  constructor
  · intro h
    rcases h with ⟨pre, f, post, heq, _, hpost, hverdict⟩ | ⟨hnone, _⟩
    · rcases split_append_singleton heq with ⟨_, rfl, rfl⟩ | ⟨post', rfl, _⟩
      · exact hverdict
      · -- `e` would be an event that touches nothing
        have hnot := hpost e (by simp)
        rw [he] at hnot
        cases hnot
    · have hnot := hnone e (by simp)
      rw [he] at hnot
      cases hnot
  · intro h
    refine Or.inl ⟨es, e, [], rfl, he, ?_, h⟩
    intro f hf
    cases hf

theorem holds_append_of_not {step : σ → ε → σ} {touches : ε → Bool} {verdict : σ → ε → Prop}
    {start : Prop} {s : σ} {es : List ε} {e : ε} (he : touches e = false) :
    Holds step touches verdict start s (es ++ [e]) ↔ Holds step touches verdict start s es := by
  have hall (fs : List ε) : (∀ f ∈ fs ++ [e], touches f = false) ↔ ∀ f ∈ fs, touches f = false := by
    simp [or_imp, forall_and, he]
  constructor
  · intro h
    rcases h with ⟨pre, f, post, heq, hf, hpost, hverdict⟩ | ⟨hnone, hstart⟩
    · rcases split_append_singleton heq with ⟨_, _, rfl⟩ | ⟨post', rfl, hes⟩
      · rw [he] at hf
        cases hf
      · exact Or.inl ⟨pre, f, post', hes, hf, (hall post').mp hpost, hverdict⟩
    · exact Or.inr ⟨(hall es).mp hnone, hstart⟩
  · intro h
    rcases h with ⟨pre, f, post, rfl, hf, hpost, hverdict⟩ | ⟨hnone, hstart⟩
    · exact Or.inl ⟨pre, f, post ++ [e], by simp, hf, (hall post).mpr hpost, hverdict⟩
    · exact Or.inr ⟨(hall es).mpr hnone, hstart⟩

/-- A property that an event decides or leaves alone is decided by the last event that touches
it. -/
theorem foldl_iff_holds {step : σ → ε → σ} {Q : σ → Prop} {touches : ε → Bool}
    {verdict : σ → ε → Prop} (htouch : ∀ s e, touches e = true → (Q (step s e) ↔ verdict s e))
    (hleave : ∀ s e, touches e = false → (Q (step s e) ↔ Q s)) (s : σ) (es : List ε) :
    Q (es.foldl step s) ↔ Holds step touches verdict (Q s) s es := by
  induction es using List.reverseRecOn with
  | nil => simp [Holds]
  | append_singleton es e ih =>
    rw [List.foldl_append, List.foldl_cons, List.foldl_nil]
    cases he : touches e with
    | true => rw [htouch _ e he, holds_append_of_touches he]
    | false => rw [hleave _ e he, holds_append_of_not he, ih]

end LastWrite
