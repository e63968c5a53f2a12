import WatashiMap.Form.Session

namespace WatashiMap

variable {D F : Type} [SwiftDouble D] [SwiftCGFloat F] [DecidableEq D]

/-- A disabled done button sends nothing, so `Create` needs an enabled one. -/
def Op.reachesEnabled (p : Process D F) (o : Op D F) : Bool :=
  o.reaches p && match o with
    | .create => p.vc.editview.createBtnIsEnabled
    | _ => true

def PinItem.HasTitle (q : PinItem) : Prop := ∃ title, q.title = some title ∧ title ≠ ""

/-- While the form is open, no title means no done button. -/
def EditView.Guards (v : EditView) : Prop :=
  v.covers = true → v.textField = "" → v.createBtnIsEnabled = false

theorem EditView.checkTitle_guards (v : EditView) : v.checkTitle.Guards := by
  intro _ htext
  by_contra henabled
  exact checkTitle_enabled (by simpa using henabled) htext

theorem EditView.textFieldEditingChanged_guards (text : String) (v : EditView) :
    (v.textFieldEditingChanged text).Guards := by
  intro _ htext
  exact decide_eq_false (not_not.mpr htext)

theorem EditView.guards_of_closed {v : EditView} (h : v.covers = false) : v.Guards := by
  intro hopen
  rw [h] at hopen
  cases hopen

omit [DecidableEq D] in
theorem viewDidLoad_editview {items : List PinItem} {vc vc' : ViewController D}
    (h : vc.viewDidLoad items = some vc') : vc'.editview = vc.editview := by
  obtain ⟨_, _, rfl⟩ := Option.map_eq_some_iff.mp h
  rfl

/-- Every operation keeps the guard: typing, showing the form and `changePin` set the flag, and
whatever else writes the title closes the form. -/
theorem perform_guards {screen : Screen} {r : Realm} {p q : Process D F} {o : Op D F}
    (hp : p.vc.editview.Guards) (h : o.perform screen r p = some q) : q.vc.editview.Guards := by
  cases hf : o.editsForm with
  | false =>
    obtain ⟨_, hv, _⟩ := (Op.effect (Op.stays_of_form hf) h).form hf
    rw [hv]
    exact hp
  | true =>
    cases o with
    | tutorialReturn =>
      obtain ⟨vc, hvc, rfl⟩ := Process.tutorialReturn_spec h
      refine EditView.guards_of_closed ?_
      rw [viewDidLoad_editview hvc]
      rfl
    | changeSetting theme selectedPin =>
      obtain ⟨vc, hvc, rfl⟩ := Process.changeSetting_spec h
      exact EditView.guards_of_closed rfl
    | modifyPlace | showEditView | changePin =>
      cases h
      exact EditView.checkTitle_guards _
    | editTitle text =>
      cases h
      exact EditView.textFieldEditingChanged_guards text _
    | editMemo text | choosePin sec row =>
      cases h
      exact hp
    | create =>
      cases h
      exact EditView.guards_of_closed rfl
    | hideEditView confirmed =>
      cases h
      unfold Process.hideEditView
      split
      · exact hp
      · exact EditView.guards_of_closed rfl
    | _ => cases hf

/-- The stored titles are not empty, and the open form guards the next one. -/
structure App.TitlesGuarded (s : App D F) : Prop where
  titles : ∀ q ∈ s.realm.pinItems, q.HasTitle
  guards : ∀ p, s.process = some p → p.vc.editview.Guards

omit [SwiftDouble D] [SwiftCGFloat F] [DecidableEq D] in
theorem App.titlesGuarded_dead {r : Realm} (h : ∀ q ∈ r.pinItems, q.HasTitle) :
    (⟨r, none⟩ : App D F).TitlesGuarded := by
  refine ⟨h, ?_⟩
  intro p hp
  cases hp

omit [DecidableEq D] in
theorem commit_writes_titles {r : Realm} {p : Process D F} {o : Op D F}
    (h : ∀ q ∈ r.pinItems, q.HasTitle) (hp : p.vc.editview.Guards)
    (ho : o.reachesEnabled p = true) :
    ∀ q ∈ (Crash.commit (o.writes r p) r).pinItems, q.HasTitle := by
  rw [commit_writes_pinItems]
  cases o with
  | create =>
    obtain ⟨hreach, henabled⟩ := Bool.and_eq_true_iff.mp ho
    have hopen : p.vc.editview.covers = true := open_of_reaches hreach rfl
    have htitle : p.vc.editview.textField ≠ "" := by
      intro htext
      rw [hp hopen htext] at henabled
      cases henabled
    intro q hq
    rcases Keyed.mem_replaceFirst hq with hq | rfl
    · exact h q hq
    · exact ⟨_, rfl, htitle⟩
  | deletePin => exact fun q hq => h q (List.mem_filter.mp hq).1
  | deleteAllPins => exact fun q hq => absurd hq List.not_mem_nil
  | _ => exact h

theorem step_titlesGuarded {screen : Screen} (s : App D F) (e : Event D F) (t : App D F)
    (hs : s.TitlesGuarded) (h : App.guardedStep Op.reachesEnabled screen s e = some t) :
    t.TitlesGuarded := by
  refine App.guardedStep_invariant App.TitlesGuarded ?_ ?_ ?_ ?_ s e t hs h
  · intro r u vc hr _ hvc
    refine ⟨hr.titles, ?_⟩
    intro p hp
    cases hp
    refine EditView.guards_of_closed ?_
    rw [viewDidLoad_editview hvc]
    rfl
  · intro r p o q hJ ho hq
    refine ⟨commit_writes_titles hJ.titles (hJ.guards p rfl) ho, ?_⟩
    intro p' hp'
    cases hp'
    exact perform_guards (hJ.guards p rfl) hq
  · intro r p o k hJ ho
    have hafter := commit_writes_titles hJ.titles (hJ.guards p rfl) ho
    exact App.titlesGuarded_dead
      (cut_writes_keeps (P := fun items => ∀ q ∈ items, q.HasTitle) hJ.titles hafter k)
  · intro r p hJ
    exact App.titlesGuarded_dead hJ.titles

/-- From an empty store no run stores a pin without a title, if a disabled button sends nothing
and an open form covers the screen. -/
theorem stored_pins_have_titles (screen : Screen) (es : List (Event D F)) :
    Machine.Always (App.guardedStep Op.reachesEnabled screen)
      (fun s => ∀ q ∈ s.realm.pinItems, q.HasTitle) App.installed es := by
  have hinstalled : App.TitlesGuarded (App.installed : App D F) :=
    App.titlesGuarded_dead fun q hq => absurd hq List.not_mem_nil
  exact (Machine.always_of_invariant step_titlesGuarded hinstalled es).mono
    fun s hs => hs.titles

end WatashiMap
