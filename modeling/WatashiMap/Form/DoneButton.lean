import WatashiMap.Model.Effects
import WatashiMap.Model.Numbers

namespace WatashiMap

namespace EditView

/-- The done button is enabled next to a title. -/
def TitleEnables (v : EditView) : Prop := v.textField ≠ "" → v.createBtnIsEnabled = true

theorem initial_titleEnables : initial.TitleEnables := fun _ => rfl

theorem textFieldEditingChanged_titleEnables (text : String) (v : EditView) :
    (v.textFieldEditingChanged text).TitleEnables := by
  intro htext
  exact decide_eq_true htext

theorem checkTitle_of_title {v : EditView} (h : v.textField ≠ "") : v.checkTitle = v := by
  rw [checkTitle, if_neg h]

theorem checkTitle_titleEnables_iff (v : EditView) :
    v.checkTitle.TitleEnables ↔ v.TitleEnables := by
  by_cases htext : v.textField = ""
  · have hcheck : v.checkTitle.TitleEnables := by
      intro h
      exact absurd ((checkTitle_textField v).trans htext) h
    exact iff_of_true hcheck fun h => absurd htext h
  · rw [checkTitle_of_title htext]

end EditView

variable {D F : Type} [SwiftDouble D] [SwiftCGFloat F] [DecidableEq D]

/-- A pin without a title is edited, or the button is enabled already. -/
def Op.OpensEnabled (p : Process D F) : Op D F → Prop
  | .modifyPlace => p.vc.pintitle ≠ "" → p.vc.editview.createBtnIsEnabled = true
  | _ => True

omit [SwiftDouble D] [SwiftCGFloat F] [DecidableEq D] in
theorem initEditView_titleEnables (p : Process D F) :
    p.initEditView.vc.editview.TitleEnables := by
  intro h
  exact absurd rfl h

omit [SwiftDouble D] [SwiftCGFloat F] [DecidableEq D] in
theorem modifyPlace_editview (screen : Screen) (p : Process D F) :
    (p.modifyPlace screen).vc.editview = EditView.checkTitle { p.vc.editview with
      textField := p.vc.pintitle, memoText := p.vc.pinsubtitle, covers := true } := rfl

omit [SwiftDouble D] [SwiftCGFloat F] [DecidableEq D] in
/-- `modifyPlace` writes the title but not the button. -/
theorem modifyPlace_titleEnables_iff (screen : Screen) (p : Process D F) :
    (p.modifyPlace screen).vc.editview.TitleEnables ↔
      (Op.modifyPlace : Op D F).OpensEnabled p := by
  rw [modifyPlace_editview, EditView.checkTitle_titleEnables_iff]
  exact Iff.rfl

/-- An operation other than `modifyPlace` keeps the button enabled next to a title. -/
theorem perform_titleEnables {screen : Screen} {r : Realm} {p q : Process D F} {o : Op D F}
    (hp : p.vc.editview.TitleEnables) (h : o.perform screen r p = some q)
    (ho : o.OpensEnabled p) : q.vc.editview.TitleEnables := by
  cases hform : o.editsForm with
  | false =>
    obtain ⟨_, heditview, _⟩ := (Op.effect (Op.stays_of_form hform) h).form hform
    rw [heditview]
    exact hp
  | true =>
    cases o with
    | tutorialReturn =>
      obtain ⟨vc, hvc, rfl⟩ := Process.tutorialReturn_spec h
      obtain ⟨_, _, rfl⟩ := Option.map_eq_some_iff.mp hvc
      exact EditView.initial_titleEnables
    | changeSetting theme selectedPin =>
      obtain ⟨vc, _, rfl⟩ := Process.changeSetting_spec h
      exact EditView.initial_titleEnables
    | modifyPlace =>
      cases h
      exact (modifyPlace_titleEnables_iff screen p).mpr ho
    | showEditView =>
      cases h
      exact (EditView.checkTitle_titleEnables_iff _).mpr hp
    | changePin =>
      cases h
      exact (EditView.checkTitle_titleEnables_iff _).mpr hp
    | editTitle text =>
      cases h
      exact EditView.textFieldEditingChanged_titleEnables text _
    | editMemo | choosePin =>
      cases h
      exact hp
    | create =>
      cases h
      exact initEditView_titleEnables _
    | hideEditView confirmed =>
      cases h
      unfold Process.hideEditView
      split_ifs
      · exact hp
      · exact initEditView_titleEnables p
    | _ => cases hform

/-- Next to a title the done button is enabled, whether the form is open or not. -/
def App.TitleEnables (s : App D F) : Prop :=
  ∀ p, s.process = some p → p.vc.editview.TitleEnables

/-- While the form is open and has a title, its done button is enabled. -/
def App.TitledCanBeSaved (s : App D F) : Prop :=
  ∀ p, s.process = some p → p.vc.editview.covers = true → p.vc.editview.TitleEnables

def App.OpensEnabled (s : App D F) : Event D F → Prop
  | .op o => ∀ p, s.process = some p → o.OpensEnabled p
  | _ => True

omit [SwiftDouble D] [SwiftCGFloat F] [DecidableEq D] in
theorem App.TitleEnables.of_dead (r : Realm) : App.TitleEnables (⟨r, none⟩ : App D F) := by
  intro p hp
  cases hp

theorem step_titleEnables {screen : Screen} (s : App D F) (e : Event D F) (t : App D F)
    (hs : s.TitleEnables) (h : App.step screen s e = some t) (hc : s.OpensEnabled e) :
    t.TitleEnables := by
  refine App.step_running (fun p => p.vc.editview.TitleEnables) ?_ ?_ hs h
  · intro u vc items hvc
    obtain ⟨_, _, rfl⟩ := Option.map_eq_some_iff.mp hvc
    exact EditView.initial_titleEnables
  · intro p o q hp he hq hbefore
    subst he
    exact perform_titleEnables hbefore hq (hc p hp)

/-- `modifyPlace` leaves the form open, so a pin it opens with the button disabled is seen. -/
theorem opensEnabled_of_titled {screen : Screen} (s : App D F) (e : Event D F) (t : App D F)
    (_ : s.TitleEnables) (h : App.step screen s e = some t) (ht : t.TitledCanBeSaved) :
    s.OpensEnabled e := by
  cases e with
  | launch | killDuring | kill => trivial
  | op o =>
    obtain ⟨r, process⟩ := s
    intro p hp
    cases hp
    obtain ⟨q, hq, rfl⟩ := App.step_op h
    cases o with
    | modifyPlace =>
      cases hq
      have hopen : (p.modifyPlace screen).vc.editview.covers = true :=
        EditView.checkTitle_covers _
      exact (modifyPlace_titleEnables_iff screen p).mp (ht _ rfl hopen)
    | _ => trivial

/-- From any stored pins, the runs in which an open form with a title can always be saved are
the runs in which no titled pin is edited while the done button is disabled. -/
theorem titled_pin_can_be_saved_iff (screen : Screen) (r : Realm) (es : List (Event D F)) :
    Machine.Always (App.step screen) App.TitledCanBeSaved ⟨r, none⟩ es ↔
      Machine.EachStep (App.step screen) App.OpensEnabled ⟨r, none⟩ es :=
  Machine.always_iff_eachStep (fun _ hs p hp _ => hs p hp) step_titleEnables
    opensEnabled_of_titled (App.TitleEnables.of_dead r) es

/-- The form is opened by `+` and closed again without a title; the pin "park" edited next
cannot be saved. -/
theorem edited_pin_cannot_be_saved :
    let screen : Screen := ⟨375, 667⟩
    let park : CustomAnnotation WholeDegrees := ⟨⟨⟨35⟩, ⟨139⟩⟩, "park", "", "tree.png"⟩
    let es : List (Event WholeDegrees SevenDecimals) :=
      [.launch, .op (.mapLongPressed ⟨⟨36⟩, ⟨140⟩⟩), .op .showEditView, .op (.hideEditView false),
        .op (.didSelect (.custom park)), .op .detailOpen, .op .modifyPlace]
    ¬ Machine.Always (App.step screen) App.TitledCanBeSaved ⟨⟨[park.record], [], []⟩, none⟩
      es := by
  intro screen park es h
  have hrun : (Machine.run (App.step screen) ⟨⟨[park.record], [], []⟩, none⟩ es).bind
      (fun t => t.process.map fun p => (p.vc.editview.covers,
        (p.vc.editview.textField, p.vc.editview.createBtnIsEnabled))) =
          some (true, ("park", false)) := by decide
  obtain ⟨t, ht, hp⟩ := Option.bind_eq_some_iff.mp hrun
  obtain ⟨p, hp, hform⟩ := Option.map_eq_some_iff.mp hp
  obtain ⟨hopen, hform⟩ := Prod.mk.inj hform
  obtain ⟨htext, hdisabled⟩ := Prod.mk.inj hform
  have htitle : p.vc.editview.textField ≠ "" := by
    rw [htext]
    decide
  have henabled := h.last ht p hp hopen htitle
  rw [hdisabled] at henabled
  cases henabled

end WatashiMap
