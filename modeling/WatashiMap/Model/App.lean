import WatashiMap.Library.Machine
import WatashiMap.Model.ViewController

namespace WatashiMap

open SwiftDouble

/-- A running process: its statics and the view controller on screen. -/
structure Process (D F : Type) where
  userSetting : UserSetting F
  vc : ViewController D

/-- The files on disk and the process, if one runs. -/
structure App (D F : Type) where
  realm : Realm
  process : Option (Process D F)

/-- What can happen to a running process. `deletePin` and `deleteAllPins` are confirmed. -/
inductive Op (D F : Type) where
  | tutorialReturn
  | locationUpdate (location : CLLocationCoordinate2D D)
  | mapLongPressed (mapPoint : CLLocationCoordinate2D D)
  | reply (i : Nat) (r : Reply D)
  | didSelect (a : MKAnnotation D)
  | viewFor (dequeued : Bool) (a : MKAnnotation D)
  | deletePins
  | hideDeletingPanel
  | deleteAllPins
  | detailOpen
  | hideDetailPanel
  | modifyPlace
  | deletePin
  | showEditView
  | editTitle (text : String)
  | editMemo (text : String)
  | choosePin (sec row : Nat)
  | changePin
  | create
  | hideEditView (confirmed : Bool)
  | changeSetting (theme : Theme F) (selectedPin : PinButton)
  | editSearchText (newText : String)
  | completerDidUpdateResults (results : List MKLocalSearchCompletion)
  | cellForRowAt (row : Nat)
  | didSelectRowAt (row : Nat)
  | hideTable
  | searchBarCancelButtonClicked
  | searchBarSearchButtonClicked
  deriving DecidableEq

/-- A launch, an operation that runs to its end, one cut short by a kill after `k` of its
write transactions, or a kill in between. -/
inductive Event (D F : Type) where
  | launch
  | op (o : Op D F)
  | killDuring (o : Op D F) (k : Nat)
  | kill
  deriving DecidableEq

namespace Process

variable {D F : Type} [SwiftDouble D]

/-- The record `Create` fills in from the form. -/
def pinItem (p : Process D F) : PinItem where
  coordinateLat := description p.vc.pincoordinate.latitude
  coordinateLon := description p.vc.pincoordinate.longitude
  title := some p.vc.editview.textField
  subtitle := some p.vc.editview.memoText
  image := some p.userSetting.pinColor

/-- The annotation `Create` makes from the form. -/
def customAnnotation (p : Process D F) : CustomAnnotation D :=
  ⟨p.vc.pincoordinate, p.vc.editview.textField, p.vc.editview.memoText, p.userSetting.pinColor⟩

theorem pinItem_eq (p : Process D F) : p.pinItem = p.customAnnotation.record := rfl

/-- The write block of `Create`: `result` was looked up in `r` before the transaction began. -/
def createWrite (p : Process D F) (r : Realm) : Realm → Realm :=
  let result := (r.pinItems.filter fun q => q.coordinates = p.pinItem.coordinates).head?
  fun realm =>
    { realm with
      pinItems := (match result with
        | some q => realm.pinItems.erase q
        | none => realm.pinItems) ++ [p.pinItem] }

/-- The write block of a confirmed `deletePin`. -/
def deletePinWrite (p : Process D F) (realm : Realm) : Realm :=
  { realm with pinItems := realm.pinItems.filter fun q => ¬q.isAt p.vc.pincoordinate }

/-- The write block of a confirmed `deleteAllPins`. -/
def deleteAllPinsWrite (realm : Realm) : Realm := { realm with pinItems := [] }

section

omit [SwiftDouble D]

def initEditView (p : Process D F) : Process D F :=
  { userSetting := { p.userSetting with pinColor := "redpin-1.png" }
    vc := p.vc.initEditView }

def showEditView (screen : Screen) (p : Process D F) : Process D F :=
  { userSetting :=
      { p.userSetting with pinColor := p.vc.editPinColor p.userSetting.pinColor }
    vc := p.vc.showEditView screen }

def modifyPlace (screen : Screen) (p : Process D F) : Process D F :=
  showEditView screen { p with vc := p.vc.fillForm screen }

/-- With a title the user is asked first; `confirmed` is the answer. -/
def hideEditView (confirmed : Bool) (p : Process D F) : Process D F :=
  if p.vc.editview.textField ≠ "" ∧ confirmed = false then p else p.initEditView

end

section

omit [SwiftDouble D]
variable [DecidableEq D]

/-- `Create` outside its write transaction. -/
def create (p : Process D F) : Process D F :=
  let vc := p.vc.removeAnnotationsAtPin
  let pin : MKAnnotation D := .custom p.customAnnotation
  let vc := { vc with annotations := vc.annotations ++ [pin] }
  let vc := { vc with annotations := vc.annotations.filter fun a => a ≠ MKAnnotation.point }
  initEditView { p with vc := vc }

/-- A confirmed `deletePin` outside its write transaction. -/
def deletePin (screen : Screen) (p : Process D F) : Process D F :=
  { p with
    vc := { p.vc with panels := p.vc.panels.hideDetailPanel screen }.removeAnnotationsAtPin }

/-- A confirmed `deleteAllPins` outside its write transaction. -/
def deleteAllPins (screen : Screen) (p : Process D F) : Process D F :=
  { p with
    vc := { p.vc with panels := p.vc.panels.hideDeletingPanel screen, annotations := [] } }

end

/-- `changeSetting` after its transactions have committed `realm`: the map is emptied and
`loadView` and `viewDidLoad` run again on the same view controller. -/
def changeSetting [SwiftCGFloat F] (realm : Realm) (theme : Theme F) (selectedPin : PinButton)
    (p : Process D F) : Option (Process D F) := do
  let userSetting := p.userSetting.adopt theme selectedPin
  let vc := { p.vc with annotations := [], panels := p.vc.panels.loadView }
  let _ ← ViewController.drawControls userSetting
  let vc ← vc.viewDidLoad realm.pinItems
  let editview ← EditView.initFrame userSetting
  return { userSetting := userSetting, vc := { vc with editview := editview } }

/-- The colours of the panel's buttons are drawn without a trap. -/
theorem changeSetting_eq [SwiftCGFloat F] (realm : Realm) (theme : Theme F)
    (selectedPin : PinButton) (p : Process D F) : p.changeSetting realm theme selectedPin =
      (({ p.vc with annotations := [], panels := p.vc.panels.loadView } :
        ViewController D).viewDidLoad realm.pinItems).map fun vc =>
          { userSetting := p.userSetting.adopt theme selectedPin
            vc := { vc with editview := .initial } } := by
  rw [changeSetting]
  exact (Option.map_eq_bind ..).symm

theorem changeSetting_spec [SwiftCGFloat F] {realm : Realm} {theme : Theme F}
    {selectedPin : PinButton} {p q : Process D F}
    (h : p.changeSetting realm theme selectedPin = some q) : ∃ vc,
      ({ p.vc with annotations := [], panels := p.vc.panels.loadView } :
        ViewController D).viewDidLoad realm.pinItems = some vc ∧
      q = ⟨p.userSetting.adopt theme selectedPin, { vc with editview := .initial }⟩ := by
  rw [changeSetting_eq] at h
  obtain ⟨vc, hvc, rfl⟩ := Option.map_eq_some_iff.mp h
  exact ⟨vc, hvc, rfl⟩

/-- A fresh view controller in the same process, as the tutorial's `goBack` segue presents. -/
def tutorialReturn (realm : Realm) (p : Process D F) : Option (Process D F) :=
  (ViewController.load p.userSetting realm.pinItems).map fun vc => { p with vc := vc }

theorem tutorialReturn_spec {realm : Realm} {p q : Process D F}
    (h : p.tutorialReturn realm = some q) : ∃ vc,
      ViewController.initial.viewDidLoad realm.pinItems = some vc ∧ q = { p with vc := vc } := by
  obtain ⟨vc, hvc, rfl⟩ := Option.map_eq_some_iff.mp h
  exact ⟨vc, (ViewController.load_eq_some_iff.mp hvc).2, rfl⟩

end Process

/-- MapKit hands over annotations of its own map only. -/
def ViewController.onMap {D : Type} (vc : ViewController D) (a : MKAnnotation D) : Prop :=
  a ∈ vc.annotations ∨ a = .userLocation

instance {D : Type} [DecidableEq D] (vc : ViewController D) (a : MKAnnotation D) :
    Decidable (vc.onMap a) := inferInstanceAs (Decidable (_ ∨ _))

variable {D F : Type} [SwiftDouble D] [SwiftCGFloat F]

/-- The write transactions of an operation, in the order it commits them. -/
def Op.writes (r : Realm) (p : Process D F) : Op D F → List (Realm → Realm)
  | .create => [p.createWrite r]
  | .deletePin => [p.deletePinWrite]
  | .deleteAllPins => [Process.deleteAllPinsWrite]
  | .changeSetting theme selectedPin => changeSettingWrites theme selectedPin
  | _ => []

variable [DecidableEq D]

/-- An operation on a running process; `none` is a trap. What UIKit and MapKit never ask
(a foreign annotation, a row the table does not have, a tap on a disabled button) does
nothing. -/
def Op.perform (screen : Screen) (realm : Realm) (p : Process D F) :
    Op D F → Option (Process D F)
  | .tutorialReturn => p.tutorialReturn realm
  | .locationUpdate location => some { p with vc := { p.vc with userLocation := location } }
  | .mapLongPressed mapPoint => some { p with vc := p.vc.mapLongPressed mapPoint }
  | .reply i r => some { p with vc := p.vc.reply i r }
  | .didSelect a =>
      if p.vc.onMap a then (p.vc.didSelect screen realm.pinItems a).map fun vc =>
        { p with vc := vc }
      else some p
  | .viewFor dequeued a =>
      if p.vc.onMap a then some { p with vc := p.vc.viewFor dequeued a } else some p
  | .deletePins =>
      if p.vc.panels.deletePinsBtnEnabled then
        some { p with vc := { p.vc with panels := p.vc.panels.deletePins screen } }
      else some p
  | .hideDeletingPanel =>
      some { p with vc := { p.vc with panels := p.vc.panels.hideDeletingPanel screen } }
  | .deleteAllPins => some (p.deleteAllPins screen)
  | .detailOpen => some { p with vc := p.vc.detailOpen screen }
  | .hideDetailPanel =>
      some { p with vc := { p.vc with panels := p.vc.panels.hideDetailPanel screen } }
  | .modifyPlace => some (p.modifyPlace screen)
  | .deletePin => some (p.deletePin screen)
  | .showEditView => some (p.showEditView screen)
  | .editTitle text =>
      some { p with
        vc := { p.vc with editview := p.vc.editview.textFieldEditingChanged text } }
  | .editMemo text =>
      some { p with vc := { p.vc with editview := p.vc.editview.textViewDidChange text } }
  | .choosePin sec row =>
      some { p with userSetting :=
        { p.userSetting with
          pinColor := WatashiMap.choosePin sec row p.userSetting.pinColor } }
  | .changePin => some { p with vc := { p.vc with editview := p.vc.editview.checkTitle } }
  | .create => some p.create
  | .hideEditView confirmed => some (p.hideEditView confirmed)
  | .changeSetting theme selectedPin =>
      p.changeSetting (Crash.commit (changeSettingWrites theme selectedPin) realm) theme selectedPin
  | .editSearchText newText =>
      (p.vc.suggestions.edit realm.pinItems newText).map fun s =>
        { p with vc := { p.vc with suggestions := s } }
  | .completerDidUpdateResults results =>
      some { p with vc := { p.vc with
        panels := (p.vc.panels.hideDeletingPanel screen).hideDetailPanel screen
        suggestions := p.vc.suggestions.completerDidUpdateResults results } }
  | .cellForRowAt row =>
      if row < p.vc.suggestions.rows then
        (p.vc.suggestions.cellForRowAt row).map fun (s, _) =>
          { p with vc := { p.vc with suggestions := s } }
      else some p
  | .didSelectRowAt row =>
      if row < p.vc.suggestions.rows then
        (p.vc.suggestions.didSelectRowAt row).map fun (s, action) =>
          let vc := { p.vc with suggestions := s }
          { p with vc := match action with
            | .setRegion _ => vc
            | .searchMap => vc.searchMap }
      else some p
  | .hideTable | .searchBarCancelButtonClicked =>
      some { p with vc := { p.vc with suggestions := p.vc.suggestions.hideTable } }
  | .searchBarSearchButtonClicked =>
      some { p with
        vc := { p.vc with suggestions := p.vc.suggestions.hideTable }.searchMap }

/-- `none` is a trap. -/
def App.step (screen : Screen) (s : App D F) : Event D F → Option (App D F)
  | .launch =>
      match s.process with
      | some _ => some s
      | none => do
          let userSetting ← didFinishLaunching s.realm
          let vc ← ViewController.load userSetting s.realm.pinItems
          return { s with process := some ⟨userSetting, vc⟩ }
  | .op o =>
      match s.process with
      | none => some s
      | some p => (o.perform screen s.realm p).map fun q =>
          ⟨Crash.commit (o.writes s.realm p) s.realm, some q⟩
  | .killDuring o k =>
      match s.process with
      | none => some s
      | some p => some ⟨Crash.cut (o.writes s.realm p) k s.realm, none⟩
  | .kill => some { s with process := none }

/-- A device on which the program has stored nothing yet. -/
def App.installed : App D F := ⟨.empty, none⟩

theorem App.step_op {screen : Screen} {r : Realm} {p : Process D F} {o : Op D F} {t : App D F}
    (h : App.step screen ⟨r, some p⟩ (.op o) = some t) :
    ∃ q, o.perform screen r p = some q ∧ t = ⟨Crash.commit (o.writes r p) r, some q⟩ := by
  obtain ⟨q, hq, rfl⟩ := Option.map_eq_some_iff.mp h
  exact ⟨q, hq, rfl⟩

theorem App.step_launch_iff {screen : Screen} {r : Realm} {t : App D F} :
    App.step screen ⟨r, none⟩ .launch = some t ↔ ∃ u vc, didFinishLaunching r = some u ∧
      u.theme.isSome ∧ ViewController.initial.viewDidLoad r.pinItems = some vc ∧
        t = ⟨r, some ⟨u, vc⟩⟩ := by
  simp only [App.step, Option.bind_eq_bind, Option.pure_def, Option.bind_eq_some_iff,
    Option.some.injEq, ViewController.load_eq_some_iff]
  constructor
  · intro h
    obtain ⟨u, hu, vc, ⟨htheme, hvc⟩, rfl⟩ := h
    exact ⟨u, vc, hu, htheme, hvc, rfl⟩
  · intro h
    obtain ⟨u, vc, hu, htheme, hvc, rfl⟩ := h
    exact ⟨u, hu, vc, ⟨htheme, hvc⟩, rfl⟩

/-- What holds of every running process has to be checked at a launch and on the operation the
event performs. -/
theorem App.step_running {screen : Screen} (P : Process D F → Prop) {s t : App D F}
    {e : Event D F}
    (launch : ∀ u vc items, ViewController.initial.viewDidLoad items = some vc → P ⟨u, vc⟩)
    (op : ∀ p o q, s.process = some p → e = .op o → o.perform screen s.realm p = some q → P p → P q)
    (hs : ∀ p, s.process = some p → P p) (h : App.step screen s e = some t) :
    ∀ p, t.process = some p → P p := by
  obtain ⟨r, process⟩ := s
  intro p' hp'
  cases process with
  | none =>
    cases e with
    | launch =>
      obtain ⟨u, vc, _, _, hvc, rfl⟩ := App.step_launch_iff.mp h
      cases hp'
      exact launch u vc r.pinItems hvc
    | op | killDuring | kill =>
      cases h
      cases hp'
  | some p =>
    cases e with
    | launch =>
      cases h
      exact hs p' hp'
    | op o =>
      obtain ⟨q, hq, rfl⟩ := App.step_op h
      cases hp'
      exact op p o p' rfl rfl hq (hs p rfl)
    | killDuring | kill =>
      cases h
      cases hp'

/-- Every step launches, performs an operation, ends the process or does nothing, so an
invariant has to be checked on three transitions. -/
theorem App.step_invariant {screen : Screen} (J : App D F → Prop)
    (launch : ∀ r u vc, J ⟨r, none⟩ → didFinishLaunching r = some u → u.theme.isSome →
      ViewController.initial.viewDidLoad r.pinItems = some vc → J ⟨r, some ⟨u, vc⟩⟩)
    (op : ∀ r p o q, J ⟨r, some p⟩ → Op.perform screen r p o = some q →
      J ⟨Crash.commit (o.writes r p) r, some q⟩)
    (kill : ∀ r p o k, J ⟨r, some p⟩ → J ⟨Crash.cut (Op.writes r p o) k r, none⟩)
    (s : App D F) (e : Event D F) (t : App D F) (hs : J s) (h : App.step screen s e = some t) :
    J t := by
  obtain ⟨r, process⟩ := s
  cases process with
  | none =>
    cases e with
    | launch =>
      obtain ⟨u, vc, hu, htheme, hvc, rfl⟩ := App.step_launch_iff.mp h
      exact launch r u vc hs hu htheme hvc
    | op | killDuring | kill =>
      cases h
      exact hs
  | some p =>
    cases e with
    | launch =>
      cases h
      exact hs
    | op o =>
      obtain ⟨q, hq, rfl⟩ := App.step_op h
      exact op r p o q hs hq
    | killDuring o k =>
      cases h
      exact kill r p o k hs
    | kill =>
      cases h
      exact kill r p .create 0 hs

end WatashiMap
