import WatashiMap.Model.Effects
import WatashiMap.Pins.Store

namespace WatashiMap

variable {D F : Type} [SwiftDouble D] [SwiftCGFloat F] [DecidableEq D]

/-- What the user does in the form. -/
def Op.isFormAction : Op D F → Bool
  | .editTitle _ | .editMemo _ | .choosePin _ _ | .changePin | .create | .hideEditView _ => true
  | _ => false

/-- What the system calls by itself. -/
def Op.isCallback : Op D F → Bool
  | .locationUpdate _ | .viewFor _ _ | .reply _ _ | .completerDidUpdateResults _
  | .cellForRowAt _ => true
  | _ => false

/-- An open form covers the screen: form actions reach the program while it is open, other
actions while it is closed, callbacks always. -/
def Op.reaches (p : Process D F) (o : Op D F) : Bool :=
  if o.isFormAction then p.vc.editview.covers
  else o.isCallback || !p.vc.editview.covers

omit [SwiftDouble D] [SwiftCGFloat F] [DecidableEq D] in
theorem open_of_reaches {p : Process D F} {o : Op D F} (h : o.reaches p = true)
    (ho : o.isFormAction = true) : p.vc.editview.covers = true := by
  rwa [Op.reaches, if_pos ho] at h

omit [SwiftDouble D] [SwiftCGFloat F] [DecidableEq D] in
theorem closed_of_reaches {p : Process D F} {o : Op D F} (h : o.reaches p = true)
    (hform : o.isFormAction = false) (hcallback : o.isCallback = false) :
    p.vc.editview.covers = false := by
  rw [Op.reaches, hform, hcallback] at h
  simpa using h

/-- The app where an operation that is not let through does nothing. -/
def App.guardedStep (through : Process D F → Op D F → Bool) (screen : Screen) (s : App D F) :
    Event D F → Option (App D F)
  | .op o =>
      match s.process with
      | some p => if through p o then App.step screen s (.op o) else some s
      | none => some s
  | .killDuring o k =>
      match s.process with
      | some p => if through p o then App.step screen s (.killDuring o k) else some s
      | none => some s
  | e => App.step screen s e

theorem App.guardedStep_op {through : Process D F → Op D F → Bool} {screen : Screen} {r : Realm}
    {p : Process D F} {o : Op D F} (ho : through p o = true) :
    App.guardedStep through screen ⟨r, some p⟩ (.op o) = App.step screen ⟨r, some p⟩ (.op o) :=
  if_pos ho

theorem App.guardedStep_op_of_not {through : Process D F → Op D F → Bool} {screen : Screen}
    {r : Realm} {p : Process D F} {o : Op D F} (ho : through p o = false) :
    App.guardedStep through screen ⟨r, some p⟩ (.op o) = some ⟨r, some p⟩ :=
  if_neg (by simp [ho])

/-- An invariant of a guarded run has to be checked on the operations let through only. -/
theorem App.guardedStep_invariant {through : Process D F → Op D F → Bool} {screen : Screen}
    (J : App D F → Prop)
    (launch : ∀ r u vc, J ⟨r, none⟩ → didFinishLaunching r = some u →
      ViewController.initial.viewDidLoad r.pinItems = some vc → J ⟨r, some ⟨u, vc⟩⟩)
    (op : ∀ r p o q, J ⟨r, some p⟩ → through p o = true → Op.perform screen r p o = some q →
      J ⟨Crash.commit (o.writes r p) r, some q⟩)
    (kill : ∀ r p o k, J ⟨r, some p⟩ → through p o = true →
      J ⟨Crash.cut (Op.writes r p o) k r, none⟩)
    (dead : ∀ r p, J ⟨r, some p⟩ → J ⟨r, none⟩)
    (s : App D F) (e : Event D F) (t : App D F) (hs : J s)
    (h : App.guardedStep through screen s e = some t) : J t := by
  obtain ⟨r, _ | p⟩ := s
  · cases e with
    | launch =>
      have hstep : App.step screen ⟨r, none⟩ .launch = some t := h
      obtain ⟨u, vc, hu, _, hvc, rfl⟩ := App.step_launch_iff.mp hstep
      exact launch r u vc hs hu hvc
    | op | killDuring | kill =>
      cases h
      exact hs
  · cases e with
    | launch =>
      cases h
      exact hs
    | op o =>
      cases ho : through p o with
      | false =>
        rw [App.guardedStep_op_of_not ho] at h
        cases h
        exact hs
      | true =>
        rw [App.guardedStep_op ho] at h
        obtain ⟨q, hq, rfl⟩ := App.step_op h
        exact op r p o q hs ho hq
    | killDuring o k =>
      dsimp only [App.guardedStep] at h
      split_ifs at h with ho
      · cases h
        exact kill r p o k hs ho
      · cases h
        exact hs
    | kill =>
      cases h
      exact dead r p hs

/-- Nothing of an earlier session is left in the form or the statics. -/
structure Process.Blank (p : Process D F) : Prop where
  textField : p.vc.editview.textField = ""
  memoText : p.vc.editview.memoText = ""
  isExistingPin : p.vc.isExistingPin = false
  pinColor : p.userSetting.pinColor = "redpin-1.png"

def App.BlankWhenClosed (s : App D F) : Prop :=
  ∀ p, s.process = some p → p.vc.editview.covers = false → p.Blank

omit [SwiftDouble D] [SwiftCGFloat F] [DecidableEq D] in
theorem blank_initEditView (p : Process D F) : p.initEditView.Blank := ⟨rfl, rfl, rfl, rfl⟩

omit [SwiftCGFloat F] [DecidableEq D] in
theorem viewDidLoad_blank {items : List PinItem} {vc : ViewController D} {u : UserSetting F}
    (h : ViewController.initial.viewDidLoad items = some vc)
    (hu : u.pinColor = "redpin-1.png") : Process.Blank ⟨u, vc⟩ := by
  obtain ⟨_, _, rfl⟩ := Option.map_eq_some_iff.mp h
  exact ⟨rfl, rfl, rfl, hu⟩

/-- An operation that reaches the program leaves a blank form behind if it leaves it closed. -/
theorem perform_blank {screen : Screen} {r : Realm} {p q : Process D F} {o : Op D F}
    (hp : p.vc.editview.covers = false → p.Blank) (ho : o.reaches p = true)
    (h : o.perform screen r p = some q) (hq : q.vc.editview.covers = false) : q.Blank := by
  cases hf : o.editsForm with
  | false =>
    obtain ⟨hu, hv, he⟩ := (Op.effect (Op.stays_of_form hf) h).form hf
    rw [hv] at hq
    have hblank := hp hq
    exact ⟨hv ▸ hblank.textField, hv ▸ hblank.memoText, he.trans hblank.isExistingPin,
      hu ▸ hblank.pinColor⟩
  | true =>
    cases o with
    | tutorialReturn =>
      obtain ⟨vc, hvc, rfl⟩ := Process.tutorialReturn_spec h
      have hclosed := closed_of_reaches ho rfl rfl
      exact viewDidLoad_blank hvc (hp hclosed).pinColor
    | changeSetting theme selectedPin =>
      obtain ⟨vc, hvc, rfl⟩ := Process.changeSetting_spec h
      obtain ⟨_, _, rfl⟩ := Option.map_eq_some_iff.mp hvc
      have hclosed := closed_of_reaches ho rfl rfl
      exact ⟨rfl, rfl, (hp hclosed).isExistingPin, (hp hclosed).pinColor⟩
    | modifyPlace | showEditView =>
      cases h
      simp [Process.modifyPlace, Process.showEditView, ViewController.showEditView] at hq
    | editTitle | editMemo | choosePin | changePin =>
      cases h
      have hopen := open_of_reaches ho rfl
      have hclosed : p.vc.editview.covers = false := by
        simpa [EditView.textFieldEditingChanged, EditView.textViewDidChange] using hq
      rw [hopen] at hclosed
      cases hclosed
    | create =>
      cases h
      exact blank_initEditView _
    | hideEditView confirmed =>
      cases h
      unfold Process.hideEditView at hq ⊢
      split_ifs at hq ⊢
      · exact hp hq
      · exact blank_initEditView p
    | _ => cases hf

theorem step_blankWhenClosed {screen : Screen} (s : App D F) (e : Event D F) (t : App D F)
    (hs : s.BlankWhenClosed) (h : App.guardedStep Op.reaches screen s e = some t) :
    t.BlankWhenClosed := by
  refine App.guardedStep_invariant App.BlankWhenClosed ?_ ?_ ?_ ?_ s e t hs h
  · intro r u vc _ hu hvc p hp _
    cases hp
    exact viewDidLoad_blank hvc (didFinishLaunching_pinColor hu)
  · intro r p o q hJ ho hq p' hp' hclosed
    cases hp'
    exact perform_blank (hJ p rfl) ho hq hclosed
  · intro r p o k _ _ p' hp'
    cases hp'
  · intro r p _ p' hp'
    cases hp'

/-- A form action or a callback, so nothing that opens a form. -/
def Op.inSession (o : Op D F) : Bool := o.isFormAction || o.isCallback

def Op.typesMemo : Op D F → Bool
  | .editMemo _ => true
  | _ => false

def Op.choosesPin : Op D F → Bool
  | .choosePin _ _ => true
  | _ => false

theorem perform_memoText {screen : Screen} {r : Realm} {p q : Process D F} {o : Op D F}
    (ho : o.inSession = true) (hmemo : o.typesMemo = false) (h : o.perform screen r p = some q)
    (hp : p.vc.editview.memoText = "") : q.vc.editview.memoText = "" := by
  cases o with
  | locationUpdate | viewFor | reply | completerDidUpdateResults | cellForRowAt =>
    obtain ⟨_, hv, _⟩ := (Op.effect rfl h).form rfl
    rw [hv]
    exact hp
  | editTitle | choosePin =>
    cases h
    exact hp
  | changePin =>
    cases h
    simpa using hp
  | create =>
    cases h
    rfl
  | hideEditView confirmed =>
    cases h
    unfold Process.hideEditView
    split
    · exact hp
    · rfl
  | editMemo => cases hmemo
  | _ => cases ho

theorem perform_pinColor {screen : Screen} {r : Realm} {p q : Process D F} {o : Op D F}
    (ho : o.inSession = true) (hpin : o.choosesPin = false) (h : o.perform screen r p = some q)
    (hp : p.userSetting.pinColor = "redpin-1.png") :
    q.userSetting.pinColor = "redpin-1.png" := by
  cases o with
  | locationUpdate | viewFor | reply | completerDidUpdateResults | cellForRowAt =>
    obtain ⟨hu, _, _⟩ := (Op.effect rfl h).form rfl
    rw [hu]
    exact hp
  | editTitle | editMemo | changePin =>
    cases h
    exact hp
  | create =>
    cases h
    rfl
  | hideEditView confirmed =>
    cases h
    unfold Process.hideEditView
    split
    · exact hp
    · rfl
  | choosePin => cases hpin
  | _ => cases ho

/-- A property of the process that the operations of a session keep, a session keeps. -/
theorem session_keeps {screen : Screen} (P : Process D F → Prop) {skip : Op D F → Bool}
    (hkeep : ∀ r p o q, o.inSession = true → skip o = false → Op.perform screen r p o = some q →
      P p → P q) {os : List (Op D F)} (hos : ∀ o ∈ os, o.inSession = true ∧ skip o = false)
    {r : Realm} {p : Process D F} (hp : P p) {u : App D F}
    (hr : Machine.run (App.guardedStep Op.reaches screen) ⟨r, some p⟩ (os.map .op) = some u) :
    ∃ q, u.process = some q ∧ P q := by
  induction os generalizing r p with
  | nil =>
    cases hr
    exact ⟨p, rfl, hp⟩
  | cons o os ih =>
    obtain ⟨ho, hskip⟩ := hos o List.mem_cons_self
    have htail : ∀ o ∈ os, o.inSession = true ∧ skip o = false :=
      fun o h => hos o (List.mem_cons_of_mem _ h)
    rw [List.map_cons, Machine.run_cons] at hr
    obtain ⟨t, ht, hr⟩ := Option.bind_eq_some_iff.mp hr
    cases hreach : o.reaches p with
    | false =>
      rw [App.guardedStep_op_of_not hreach] at ht
      cases ht
      exact ih htail hp hr
    | true =>
      rw [App.guardedStep_op hreach] at ht
      obtain ⟨q, hq, rfl⟩ := App.step_op ht
      exact ih htail (hkeep r p o q ho hskip hq hp) hr

/-- `Create` in an open form stores the form's values last. -/
theorem create_stores_form {screen : Screen} {u : App D F} {q : Process D F}
    (hq : u.process = some q) (hopen : q.vc.editview.covers = true) :
    ∃ v, App.guardedStep Op.reaches screen u (.op .create) = some v ∧
      v.realm.pinItems.getLast? = some q.pinItem := by
  obtain ⟨r, process⟩ := u
  cases hq
  refine ⟨_, App.guardedStep_op hopen, ?_⟩
  change (q.createWrite r r).pinItems.getLast? = _
  rw [createWrite_pinItems]
  exact List.getLast?_concat

/-- If the form is still open after these operations, `Create` stores a record with `P`. -/
def App.SavesAfter (screen : Screen) (t : App D F) (os : List (Op D F)) (P : PinItem → Prop) :
    Prop :=
  ∀ u q, Machine.run (App.guardedStep Op.reaches screen) t (os.map .op) = some u →
    u.process = some q → q.vc.editview.covers = true →
      ∃ v item, App.guardedStep Op.reaches screen u (.op .create) = some v ∧
        v.realm.pinItems.getLast? = some item ∧ P item

/-- The form is open and empty, and a pin saved from it has no memo and no image but those
chosen in this session. -/
structure App.FreshForm (screen : Screen) (t : App D F) : Prop where
  form : ∃ q, t.process = some q ∧ q.vc.editview.covers = true ∧ q.Blank
  memo : ∀ os : List (Op D F), (∀ o ∈ os, o.inSession = true ∧ o.typesMemo = false) →
    t.SavesAfter screen os fun item => item.subtitle = some ""
  image : ∀ os : List (Op D F), (∀ o ∈ os, o.inSession = true ∧ o.choosesPin = false) →
    t.SavesAfter screen os fun item => item.image = some "redpin-1.png"

/-- A `+` callout opens a fresh form. -/
def App.StartsBlank (screen : Screen) (s : App D F) : Prop :=
  ∀ p t, s.process = some p → p.vc.editview.covers = false →
    App.guardedStep Op.reaches screen s (.op .showEditView) = some t → t.FreshForm screen

theorem blank_showEditView {screen : Screen} {s t : App D F} {p : Process D F}
    (h : s.BlankWhenClosed) (hp : s.process = some p) (hclosed : p.vc.editview.covers = false)
    (ht : App.guardedStep Op.reaches screen s (.op .showEditView) = some t) :
    ∃ r q, t = ⟨r, some q⟩ ∧ q.vc.editview.covers = true ∧ q.Blank := by
  obtain ⟨r, process⟩ := s
  cases hp
  have hblank := h p rfl hclosed
  have hreach : Op.reaches p (.showEditView : Op D F) = true := by
    simp [Op.reaches, Op.isFormAction, Op.isCallback, hclosed]
  rw [App.guardedStep_op hreach] at ht
  obtain ⟨q, hq, rfl⟩ := App.step_op ht
  cases hq
  refine ⟨_, _, rfl, ?_, ?_, ?_, hblank.isExistingPin, ?_⟩
  · exact EditView.checkTitle_covers _
  · exact (EditView.checkTitle_textField _).trans hblank.textField
  · exact (EditView.checkTitle_memoText _).trans hblank.memoText
  · change p.vc.editPinColor p.userSetting.pinColor = _
    rw [ViewController.editPinColor, hblank.isExistingPin]
    exact hblank.pinColor

theorem App.BlankWhenClosed.startsBlank {s : App D F} (h : s.BlankWhenClosed)
    (screen : Screen) : s.StartsBlank screen := by
  intro p t hp hclosed ht
  obtain ⟨r, q₀, rfl, hopen, hblank⟩ := blank_showEditView h hp hclosed ht
  refine ⟨⟨q₀, rfl, hopen, hblank⟩, ?_, ?_⟩
  · intro os hos u q hr hq hform
    obtain ⟨q', hq', hmemo⟩ := session_keeps (fun p => p.vc.editview.memoText = "")
      (fun _ _ _ _ => perform_memoText) hos hblank.memoText hr
    obtain ⟨v, hv, hlast⟩ := create_stores_form hq hform
    rw [hq] at hq'
    cases hq'
    exact ⟨v, _, hv, hlast, congrArg some hmemo⟩
  · intro os hos u q hr hq hform
    obtain ⟨q', hq', hpin⟩ := session_keeps (fun p => p.userSetting.pinColor = "redpin-1.png")
      (fun _ _ _ _ => perform_pinColor) hos hblank.pinColor hr
    obtain ⟨v, hv, hlast⟩ := create_stores_form hq hform
    rw [hq] at hq'
    cases hq'
    exact ⟨v, _, hv, hlast, congrArg some hpin⟩

/-- In every state of every run in which an open form covers the screen, a `+` callout opens an
empty form, and a new pin saved without choosing a memo or an image gets none of an earlier
session's. -/
theorem new_pin_starts_blank (screen : Screen) (r : Realm) (es : List (Event D F)) :
    Machine.Always (App.guardedStep Op.reaches screen) (App.StartsBlank screen) ⟨r, none⟩ es := by
  have hdead : App.BlankWhenClosed (⟨r, none⟩ : App D F) := by
    intro p hp
    cases hp
  exact (Machine.always_of_invariant step_blankWhenClosed hdead es).mono
    fun s hs => hs.startsBlank screen

end WatashiMap
