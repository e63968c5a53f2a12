import WatashiMap.Model.App
import WatashiMap.Model.Numbers

namespace WatashiMap

variable {D : Type} [SwiftDouble D]

namespace Suggestions

section

omit [SwiftDouble D]

/-- The table asks for its first `k` rows. -/
def showRows : Nat → Suggestions D → Option (Suggestions D)
  | 0, s => some s
  | k + 1, s => (s.showRows k).bind fun s => (s.cellForRowAt k).map Prod.fst

/-- A reload with new results: the table asks for its row count and for the rows that fit, at
least one if it has any. -/
def reload (results : List MKLocalSearchCompletion) (fitting : Nat) (s : Suggestions D) :
    Option (Suggestions D) :=
  let s := s.completerDidUpdateResults results
  s.showRows (min (max fitting 1) s.rows)

theorem cellForRowAt_spec {row : Nat} {s t : Suggestions D} {cell : Cell}
    (h : s.cellForRowAt row = some (t, cell)) : t = { s with tableViewIsHidden := false } := by
  obtain ⟨_, _, hpair⟩ := Option.map_eq_some_iff.mp h
  exact (congrArg Prod.fst hpair).symm

/-- Showing a row shows the table; the button and the text stay. -/
theorem showRows_spec {k : Nat} {s t : Suggestions D} (h : s.showRows k = some t) :
    t = { s with tableViewIsHidden := decide (k = 0) && s.tableViewIsHidden } := by
  induction k generalizing t with
  | zero =>
    cases h
    simp
  | succ k ih =>
    obtain ⟨u, hu, h⟩ := Option.bind_eq_some_iff.mp h
    obtain ⟨⟨t', cell⟩, hcell, ht⟩ := Option.map_eq_some_iff.mp h
    have hfst : t' = t := ht
    rw [← hfst, cellForRowAt_spec hcell, ih hu]
    simp

def Hidden (s : Suggestions D) : Prop :=
  s.tableViewIsHidden = true ∧ s.hideTableBtnIsHidden = true

theorem hideTable_hidden (s : Suggestions D) : s.hideTable.Hidden := ⟨rfl, rfl⟩

/-- A reload leaves a hidden list hidden exactly when there is nothing to show. -/
theorem reload_hidden_iff {results : List MKLocalSearchCompletion} {fitting : Nat}
    {s t : Suggestions D} (hs : s.Hidden) (h : s.reload results fitting = some t) :
    t.Hidden ↔ results.length + s.pincount = 0 := by
  have ht := showRows_spec h
  have hbutton : t.hideTableBtnIsHidden = decide (results.length + s.pincount = 0) := by
    rw [ht]
    rfl
  constructor
  · intro hidden
    rw [hidden.2] at hbutton
    exact of_decide_eq_true hbutton.symm
  · intro hnone
    have hrows : (s.completerDidUpdateResults results).rows = 0 := hnone
    refine ⟨?_, by rw [hbutton, decide_eq_true hnone]⟩
    rw [ht, hrows, Nat.min_zero]
    exact hs.1

theorem didSelectRowAt_hidden {row : Nat} {s t : Suggestions D} {action : RowAction D}
    (h : s.didSelectRowAt row = some (t, action)) : t.Hidden := by
  obtain ⟨result, _, h⟩ := Option.bind_eq_some_iff.mp h
  dsimp only at h
  split at h
  · obtain ⟨_, _, h⟩ := Option.bind_eq_some_iff.mp h
    cases h
    exact ⟨rfl, rfl⟩
  · cases h
    exact ⟨rfl, rfl⟩

end

theorem edit_flags {items : List PinItem} {newText : String} {s t : Suggestions D}
    (h : s.edit items newText = some t) :
    t.tableViewIsHidden = s.tableViewIsHidden ∧
      t.hideTableBtnIsHidden = s.hideTableBtnIsHidden := by
  obtain ⟨⟨u, accepted⟩, hu, rfl⟩ := Option.map_eq_some_iff.mp h
  unfold shouldChangeTextIn at hu
  dsimp only at hu
  split at hu
  · cases hu
    exact ⟨rfl, rfl⟩
  · obtain ⟨pins, _, hu⟩ := Option.bind_eq_some_iff.mp hu
    cases hu
    exact ⟨rfl, rfl⟩

end Suggestions

inductive TableEvent where
  | edit (items : List PinItem) (newText : String)
  | update (results : List MKLocalSearchCompletion) (fitting : Nat)
  | HideTable
  | searchBarCancelButtonClicked
  | searchBarSearchButtonClicked
  | didSelectRowAt (row : Nat)

def TableEvent.apply (s : Suggestions D) : TableEvent → Option (Suggestions D)
  | .edit items newText => s.edit items newText
  | .update results fitting => s.reload results fitting
  | .HideTable | .searchBarCancelButtonClicked | .searchBarSearchButtonClicked => some s.hideTable
  | .didSelectRowAt row => (s.didSelectRowAt row).map Prod.fst

/-- The suggestions, and whether they were dismissed after the last edit of the text. -/
structure Dismissible (D : Type) where
  suggestions : Suggestions D
  dismissed : Bool

namespace Dismissible

omit [SwiftDouble D] in
/-- An edit the bar accepts ends the dismissal. -/
def dismissedAfter (s : Dismissible D) : TableEvent → Bool
  | .edit _ _ => s.dismissed && s.suggestions.text.isNone
  | .update _ _ => s.dismissed
  | _ => true

def step (s : Dismissible D) (e : TableEvent) : Option (Dismissible D) :=
  (e.apply s.suggestions).map fun t => ⟨t, s.dismissedAfter e⟩

omit [SwiftDouble D] in
def StaysDismissed (s : Dismissible D) : Prop := s.dismissed = true → s.suggestions.Hidden

omit [SwiftDouble D] in
/-- An update after a dismissal brings nothing to show. -/
def UpdatesEmpty (s : Dismissible D) : TableEvent → Prop
  | .update results _ => s.dismissed = true → results.length + s.suggestions.pincount = 0
  | _ => True

theorem step_staysDismissed (s : Dismissible D) (e : TableEvent) (t : Dismissible D)
    (hs : s.StaysDismissed) (h : step s e = some t) (hc : s.UpdatesEmpty e) :
    t.StaysDismissed := by
  obtain ⟨u, hu, rfl⟩ := Option.map_eq_some_iff.mp h
  intro hdismissed
  cases e with
  | edit items newText =>
    have hbefore : s.dismissed = true := (Bool.and_eq_true_iff.mp hdismissed).1
    obtain ⟨htable, hbutton⟩ := Suggestions.edit_flags hu
    exact ⟨htable.trans (hs hbefore).1, hbutton.trans (hs hbefore).2⟩
  | update results fitting =>
    exact (Suggestions.reload_hidden_iff (hs hdismissed) hu).mpr (hc hdismissed)
  | HideTable | searchBarCancelButtonClicked | searchBarSearchButtonClicked =>
    cases hu
    exact s.suggestions.hideTable_hidden
  | didSelectRowAt row =>
    obtain ⟨⟨t, action⟩, hselect, rfl⟩ := Option.map_eq_some_iff.mp hu
    exact Suggestions.didSelectRowAt_hidden hselect

theorem updatesEmpty_of_staysDismissed (s : Dismissible D) (e : TableEvent)
    (t : Dismissible D) (hs : s.StaysDismissed) (h : step s e = some t)
    (ht : t.StaysDismissed) : s.UpdatesEmpty e := by
  cases e with
  | update results fitting =>
    obtain ⟨u, hu, rfl⟩ := Option.map_eq_some_iff.mp h
    intro hdismissed
    exact (Suggestions.reload_hidden_iff (hs hdismissed) hu).mp (ht hdismissed)
  | _ => trivial

end Dismissible

/-- From any state, the runs in which dismissed suggestions stay hidden until the next edit are
the runs in which no update after a dismissal brings or finds anything to show. -/
theorem dismissed_suggestions_stay_hidden_iff (s : Suggestions D) (es : List TableEvent) :
    Machine.Always Dismissible.step Dismissible.StaysDismissed ⟨s, false⟩ es ↔
      Machine.EachStep Dismissible.step Dismissible.UpdatesEmpty ⟨s, false⟩ es :=
  Machine.always_iff_eachStep (fun _ hs => hs) Dismissible.step_staysDismissed
    Dismissible.updatesEmpty_of_staysDismissed (fun h => absurd h Bool.false_ne_true) es

/-- "c" is typed, the list is hidden by its button, and the reply to "c" arrives. -/
theorem late_update_shows_dismissed_list :
    let es : List TableEvent := [.edit [] "c", .HideTable, .update [⟨"cafe", ""⟩] 5]
    ¬ Machine.Always Dismissible.step Dismissible.StaysDismissed
      ⟨(Suggestions.initial : Suggestions WholeDegrees), false⟩ es := by
  intro es h
  have hrun : (Machine.run Dismissible.step
      ⟨(Suggestions.initial : Suggestions WholeDegrees), false⟩ es).map
        (fun t => (t.dismissed, t.suggestions.tableViewIsHidden)) = some (true, false) := by decide
  obtain ⟨t, ht, hflags⟩ := Option.map_eq_some_iff.mp hrun
  obtain ⟨hdismissed, htable⟩ := Prod.mk.inj hflags
  have hidden := h.last ht hdismissed
  rw [hidden.1] at htable
  cases htable

end WatashiMap
