import WatashiMap.Form.Session

namespace WatashiMap

variable {D F : Type}

/-- What the form shows besides its two texts: the label "メモを入力" that stands for an empty memo,
the image view `imagepinview` on top of earlier ones, and whether `ChoosePin` lies over it all. -/
structure FormDisplay where
  memoPlaceholderIsHidden : Bool
  imagepinview : Option String
  pickerIsOpen : Bool
  deriving DecidableEq

namespace FormDisplay

/-- A new `EditView()`, which carries no image view yet. -/
def initial : FormDisplay := ⟨false, none, false⟩

/-- `EditView.selectPin`. -/
def selectPin (d : FormDisplay) : FormDisplay := { d with pickerIsOpen := true }

/-- What an operation does to the display; `q` is the process it leaves. A memo that is set, not
typed, does not fire `textViewDidChange`. The target of the button that closes the picker is a
`ViewController()` that nothing else holds, so it is gone when the button is tapped; UIKit is
assumed to send `changePin` up the responder chain then, to the view controller on screen. -/
def after (q : Process D F) (d : FormDisplay) : Op D F → FormDisplay
  | .showEditView | .modifyPlace =>
      { d with
        memoPlaceholderIsHidden := decide (q.vc.editview.memoText ≠ "")
        imagepinview := some q.userSetting.pinColor }
  | .editMemo _ => { d with memoPlaceholderIsHidden := decide (q.vc.editview.memoText ≠ "") }
  | .changePin => { d with imagepinview := some q.userSetting.pinColor, pickerIsOpen := false }
  | .changeSetting _ _ | .tutorialReturn => initial
  | _ => d

end FormDisplay

/-- An open picker covers the form; only its own two actions reach the program then. -/
def Op.reachesForm (d : FormDisplay) (p : Process D F) (o : Op D F) : Bool :=
  o.reaches p && match o with
    | .choosePin _ _ | .changePin => d.pickerIsOpen
    | o => !o.isFormAction || !d.pickerIsOpen

structure FormScreen (D F : Type) where
  app : App D F
  display : FormDisplay

/-- An event of the app, or a tap on the button that opens the picker. -/
inductive FormEvent (D F : Type) where
  | app (e : Event D F)
  | selectPin

/-- The display of an open form is the form: the label stands exactly where there is no memo, and
unless the picker is open the image shown is the one the record will have. A closed form has no
picker. -/
structure Process.IsShown (d : FormDisplay) (p : Process D F) [SwiftDouble D] : Prop where
  placeholder : p.vc.editview.covers = true →
    (d.memoPlaceholderIsHidden = false ↔ p.vc.editview.memoText = "")
  image : p.vc.editview.covers = true → d.pickerIsOpen = false →
    p.pinItem.image = d.imagepinview
  closed : p.vc.editview.covers = false → d.pickerIsOpen = false

variable [SwiftDouble D]

/-- A closed form without a picker shows nothing that could be wrong. -/
theorem Process.IsShown.of_closed {d : FormDisplay} {p : Process D F}
    (hcovers : p.vc.editview.covers = false) (hpicker : d.pickerIsOpen = false) : p.IsShown d := by
  have hnot : p.vc.editview.covers ≠ true := by
    rw [hcovers]
    exact Bool.false_ne_true
  exact ⟨fun h => absurd h hnot, fun h _ => absurd h hnot, fun _ => hpicker⟩

/-- The display and what it shows stay. -/
theorem Process.IsShown.of_same {d : FormDisplay} {p q : Process D F} (h : p.IsShown d)
    (hcovers : q.vc.editview.covers = p.vc.editview.covers)
    (hmemo : q.vc.editview.memoText = p.vc.editview.memoText)
    (hcolor : q.userSetting.pinColor = p.userSetting.pinColor) : q.IsShown d := by
  have himage : q.pinItem.image = p.pinItem.image := congrArg some hcolor
  constructor
  · rw [hcovers, hmemo]
    exact h.placeholder
  · rw [hcovers, himage]
    exact h.image
  · rw [hcovers]
    exact h.closed

/-- A form that has just been opened shows its memo and its image. -/
theorem Process.isShown_opened {d : FormDisplay} {q : Process D F}
    (hcovers : q.vc.editview.covers = true) :
    q.IsShown { d with
      memoPlaceholderIsHidden := decide (q.vc.editview.memoText ≠ "")
      imagepinview := some q.userSetting.pinColor } := by
  refine ⟨fun _ => by simp, fun _ _ => rfl, ?_⟩
  intro hclosed
  rw [hcovers] at hclosed
  cases hclosed

variable [SwiftCGFloat F] [DecidableEq D]

omit [SwiftDouble D] [SwiftCGFloat F] [DecidableEq D] in
theorem picker_closed_of_reaches {d : FormDisplay} {p : Process D F} {o : Op D F}
    (h : o.reachesForm d p = true) (ho : o.isFormAction = true)
    (hpicker : ∀ sec row, o ≠ .choosePin sec row ∧ o ≠ .changePin) : d.pickerIsOpen = false := by
  obtain ⟨_, h⟩ := Bool.and_eq_true_iff.mp h
  cases o with
  | choosePin sec row => exact absurd rfl (hpicker sec row).1
  | changePin => exact absurd rfl (hpicker 0 0).2
  | _ => simpa [ho] using h

theorem perform_isShown {screen : Screen} {d : FormDisplay} {r : Realm} {p q : Process D F}
    {o : Op D F} (hp : p.IsShown d) (ho : o.reachesForm d p = true)
    (h : o.perform screen r p = some q) : q.IsShown (d.after q o) := by
  cases hform : o.editsForm with
  | false =>
    obtain ⟨husers, hview, _⟩ := (Op.effect (Op.stays_of_form hform) h).form hform
    have hsame : q.IsShown d := hp.of_same (by rw [hview]) (by rw [hview]) (by rw [husers])
    cases o with
    | showEditView | modifyPlace | editMemo | changePin | changeSetting | tutorialReturn =>
      cases hform
    | _ => exact hsame
  | true =>
    cases o with
    | tutorialReturn =>
      obtain ⟨_, hvc, rfl⟩ := Process.tutorialReturn_spec h
      obtain ⟨_, _, rfl⟩ := Option.map_eq_some_iff.mp hvc
      exact .of_closed rfl rfl
    | changeSetting theme selectedPin =>
      obtain ⟨_, hvc, rfl⟩ := Process.changeSetting_spec h
      exact .of_closed rfl rfl
    | modifyPlace | showEditView =>
      cases h
      refine Process.isShown_opened ?_
      simp [Process.modifyPlace, Process.showEditView, ViewController.showEditView]
    | editTitle text =>
      cases h
      exact hp.of_same rfl rfl rfl
    | editMemo text =>
      cases h
      exact ⟨fun _ => by simp [FormDisplay.after], hp.image, hp.closed⟩
    | choosePin sec row =>
      cases h
      have hopen : d.pickerIsOpen = true := (Bool.and_eq_true_iff.mp ho).2
      refine ⟨hp.placeholder, ?_, hp.closed⟩
      intro _ hpicker
      have hclosed : d.pickerIsOpen = false := hpicker
      rw [hopen] at hclosed
      cases hclosed
    | changePin =>
      cases h
      refine ⟨?_, fun _ _ => rfl, fun _ => rfl⟩
      simpa [FormDisplay.after] using hp.placeholder
    | create =>
      cases h
      exact .of_closed rfl (picker_closed_of_reaches ho rfl (by simp))
    | hideEditView confirmed =>
      have hpicker : d.pickerIsOpen = false := picker_closed_of_reaches ho rfl (by simp)
      cases h
      unfold Process.hideEditView
      split
      · exact hp
      · exact .of_closed rfl hpicker
    | _ => cases hform

namespace FormScreen

def displayAfter (s : FormScreen D F) (t : App D F) : Event D F → FormDisplay
  | .op o =>
      match s.app.process, t.process with
      | some p, some q => if o.reachesForm s.display p then s.display.after q o else s.display
      | _, _ => s.display
  | .launch => if s.app.process.isSome then s.display else .initial
  | .killDuring _ _ | .kill => s.display

def step (screen : Screen) (s : FormScreen D F) : FormEvent D F → Option (FormScreen D F)
  | .app e => (App.guardedStep (Op.reachesForm s.display) screen s.app e).map fun t =>
      ⟨t, s.displayAfter t e⟩
  | .selectPin =>
      match s.app.process with
      | some p =>
          if p.vc.editview.covers then some { s with display := s.display.selectPin } else some s
      | none => some s

def IsShown (s : FormScreen D F) : Prop := ∀ p, s.app.process = some p → p.IsShown s.display

theorem step_isShown {screen : Screen} (s : FormScreen D F) (e : FormEvent D F)
    (t : FormScreen D F) (hs : s.IsShown) (h : s.step screen e = some t) : t.IsShown := by
  obtain ⟨⟨r, process⟩, d⟩ := s
  cases e with
  | selectPin =>
    cases process with
    | none =>
      cases h
      exact hs
    | some p =>
      have hp : p.IsShown d := hs p rfl
      dsimp only [step] at h
      split_ifs at h with hcovers
      · cases h
        intro q hq
        cases hq
        refine ⟨hp.placeholder, nofun, ?_⟩
        intro hclosed
        rw [hcovers] at hclosed
        cases hclosed
      · cases h
        exact hs
  | app e =>
    obtain ⟨u, hu, rfl⟩ := Option.map_eq_some_iff.mp h
    cases process with
    | none =>
      cases e with
      | launch =>
        have hstep : App.step screen ⟨r, none⟩ .launch = some u := hu
        obtain ⟨_, _, _, _, hvc, rfl⟩ := App.step_launch_iff.mp hstep
        obtain ⟨_, _, rfl⟩ := Option.map_eq_some_iff.mp hvc
        intro q hq
        cases hq
        exact .of_closed rfl rfl
      | op | killDuring | kill =>
        cases hu
        intro q hq
        cases hq
    | some p =>
      have hp : p.IsShown d := hs p rfl
      cases e with
      | launch =>
        cases hu
        exact hs
      | op o =>
        cases ho : o.reachesForm d p with
        | false =>
          rw [App.guardedStep_op_of_not ho] at hu
          cases hu
          intro q hq
          cases hq
          simpa [displayAfter, ho] using hp
        | true =>
          rw [App.guardedStep_op ho] at hu
          obtain ⟨q, hq, rfl⟩ := App.step_op hu
          intro q' hq'
          cases hq'
          simpa [displayAfter, ho] using perform_isShown hp ho hq
      | killDuring o k =>
        dsimp only [App.guardedStep] at hu
        split_ifs at hu
        · cases hu
          intro q hq
          cases hq
        · cases hu
          exact hs
      | kill =>
        cases hu
        intro q hq
        cases hq

end FormScreen

/-- In every run from any store, whatever is typed, picked, set by the program or read from a pin,
an open form shows the memo label exactly if the memo is empty and, the picker apart, the image that
`Create` would store. -/
theorem form_shows_what_is_stored (screen : Screen) (r : Realm) (es : List (FormEvent D F)) :
    Machine.Always (FormScreen.step screen) FormScreen.IsShown
      ⟨⟨r, none⟩, FormDisplay.initial⟩ es := by
  refine Machine.always_of_invariant FormScreen.step_isShown ?_ es
  intro p hp
  cases hp

end WatashiMap
