import WatashiMap.Model.EditView
import WatashiMap.Model.Marker
import WatashiMap.Model.Panels
import WatashiMap.Model.Suggestions
import WatashiMap.Model.Theme

namespace WatashiMap

open SwiftDouble

/-- What `detailOpen` shows in the panel it opens. -/
structure DetailLabels where
  titleLabel : String
  subtitleLabel : String
  pinImage : String
  deriving DecidableEq

structure ViewController (D : Type) where
  /-- The annotations the program has put on `mapView`. -/
  annotations : List <| MKAnnotation D
  /-- Where MapKit's own annotation of the user's location is. -/
  userLocation : CLLocationCoordinate2D D
  marker : Marker D
  pincoordinate : CLLocationCoordinate2D D
  pintitle : String
  pinsubtitle : String
  pinimage : String
  isExistingPin : Bool
  editview : EditView
  suggestions : Suggestions D
  panels : Panels
  detail : Option DetailLabels

/-- The query `coordinateLat == %@ AND coordinateLon == %@` at a coordinate. -/
def PinItem.isAt {D : Type} [SwiftDouble D] (c : CLLocationCoordinate2D D) (p : PinItem) : Bool :=
  decide (p.coordinates = c.strings)

/-- The annotation `viewDidLoad` makes of a record; each `!` of the source traps. -/
def PinItem.customAnnotation {D : Type} [SwiftDouble D] (p : PinItem) :
    Option <| CustomAnnotation D := do
  let latitude ← ofString p.coordinateLat
  let longitude ← ofString p.coordinateLon
  let title ← p.title
  let image ← p.image
  return ⟨⟨latitude, longitude⟩, title, p.subtitle.getD "", image⟩

/-- Reading a record back gives the pin it was made of. -/
theorem customAnnotation_record {D : Type} [SwiftDouble D] (c : CustomAnnotation D) :
    c.record.customAnnotation = some c := by
  simp [PinItem.customAnnotation, CustomAnnotation.record, ofString_description]

namespace ViewController

variable {D : Type} [SwiftDouble D]

def initial : ViewController D where
  annotations := []
  userLocation := .origin
  marker := .initial
  pincoordinate := .origin
  pintitle := ""
  pinsubtitle := ""
  pinimage := ""
  isExistingPin := false
  editview := .initial
  suggestions := .initial
  panels := .initial
  detail := none

omit [SwiftDouble D] in
/-- `annotation.coordinate`. -/
def coordinate (vc : ViewController D) : MKAnnotation D → CLLocationCoordinate2D D
  | .custom c => c.coordinate
  | .point => vc.marker.annotation.coordinate
  | .userLocation => vc.userLocation

/-- The colours `viewDidLoad` draws its controls with: the borders of the buttons `btnSetting`
makes and that of the search bar. -/
def drawControls {F : Type} (u : UserSetting F) : Option Unit := do
  let _ ← cgColor u.color2
  let _ ← cgColor u.color3
  return ()

/-- The part of `viewDidLoad` that puts the stored pins on the map, together with the controls
it makes anew. -/
def viewDidLoad (items : List PinItem) (vc : ViewController D) : Option (ViewController D) :=
  (items.mapM PinItem.customAnnotation).map fun customs =>
    { vc with
      annotations := vc.annotations ++ customs.map .custom
      suggestions := { vc.suggestions with hideTableBtnIsHidden := true }
      panels := { vc.panels with deletePinsBtnEnabled := true } }

/-- `ViewController()`, whose stored properties are made first, `EditView()` and `SettingView()`
among them, and then the whole of `viewDidLoad`. -/
def load {F : Type} (u : UserSetting F) (items : List PinItem) : Option (ViewController D) := do
  let editview ← EditView.initFrame u
  let _ ← u.theme
  let _ ← drawControls u
  viewDidLoad items { initial with editview := editview }

/-- Nothing is drawn with `UIColor()` exactly when the settings panel can be made. -/
theorem load_eq_some_iff {F : Type} {u : UserSetting F} {items : List PinItem}
    {vc : ViewController D} :
    load u items = some vc ↔ u.theme.isSome ∧ initial.viewDidLoad items = some vc := by
  constructor
  · intro h
    simp only [load, Option.bind_eq_bind, Option.bind_eq_some_iff] at h
    obtain ⟨editview, hedit, theme, htheme, _, _, hvc⟩ := h
    have hinitial : editview = .initial := by
      unfold EditView.initFrame at hedit
      simp only [Option.bind_eq_bind, Option.pure_def, Option.bind_eq_some_iff,
        Option.some.injEq] at hedit
      obtain ⟨_, _, _, _, rfl⟩ := hedit
      rfl
    rw [hinitial] at hvc
    exact ⟨by rw [htheme]; rfl, hvc⟩
  · intro h
    obtain ⟨htheme, hvc⟩ := h
    obtain ⟨_, color1, color2, color3, _⟩ := u
    match color1, color2, color3 with
    | some (.rgb _), some (.rgb _), some (.rgb _) => exact hvc

section

omit [SwiftDouble D]
variable [DecidableEq D]

/-- `mapView.addAnnotation`: an annotation already there is not added twice. -/
def addAnnotation (a : MKAnnotation D) (vc : ViewController D) : ViewController D :=
  if a ∈ vc.annotations then vc else { vc with annotations := vc.annotations ++ [a] }

theorem addAnnotation_eq (a : MKAnnotation D) (vc : ViewController D) :
    vc.addAnnotation a = { vc with annotations := (vc.addAnnotation a).annotations } := by
  unfold addAnnotation
  split <;> rfl

/-- The loop of `Create` and `deletePin` over `mapView.annotations`. -/
def removeAnnotationsAtPin (vc : ViewController D) : ViewController D :=
  { vc with
    annotations := vc.annotations.filter fun a =>
      ¬((vc.coordinate a).latitude = vc.pincoordinate.latitude ∧
        (vc.coordinate a).longitude = vc.pincoordinate.longitude) }

def mapLongPressed (mapPoint : CLLocationCoordinate2D D) (vc : ViewController D) :
    ViewController D :=
  let vc := { vc with marker := vc.marker.mapLongPressed mapPoint }
  let vc := { vc with pincoordinate := vc.marker.annotation.coordinate }
  vc.addAnnotation .point

/-- Request `i` is answered; a search's handler puts the marker on the map. -/
def reply (i : Nat) (r : Reply D) (vc : ViewController D) : ViewController D :=
  let added := vc.marker.addsAnnotation i r
  let vc := { vc with marker := vc.marker.reply vc.suggestions.text i r }
  if added then vc.addAnnotation .point else vc

theorem reply_eq (i : Nat) (r : Reply D) (vc : ViewController D) :
    vc.reply i r = { vc with
      marker := vc.marker.reply vc.suggestions.text i r
      annotations := (vc.reply i r).annotations } := by
  unfold reply
  dsimp only
  split
  · exact addAnnotation_eq _ _
  · rfl

end

omit [SwiftDouble D] in
def searchMap (vc : ViewController D) : ViewController D :=
  { vc with marker := vc.marker.searchMap vc.suggestions.text }

/-- `mapView(_:didSelect:)`. -/
def didSelect (screen : Screen) (items : List PinItem) (a : MKAnnotation D)
    (vc : ViewController D) : Option (ViewController D) :=
  let vc := { vc with panels := vc.panels.didSelect screen }
  let vc := { vc with pincoordinate := vc.coordinate a }
  match a with
  | .custom _ => do
      let pininfo ← (items.filter (PinItem.isAt vc.pincoordinate)).head?
      let title ← pininfo.title
      let image ← pininfo.image
      return { vc with
        pintitle := title, pinsubtitle := pininfo.subtitle.getD "", pinimage := image }
  | _ => some vc

theorem didSelect_spec {screen : Screen} {items : List PinItem} {a : MKAnnotation D}
    {vc vc' : ViewController D} (h : vc.didSelect screen items a = some vc') :
    ∃ pintitle pinsubtitle pinimage, vc' = { vc with
      panels := vc.panels.didSelect screen, pincoordinate := vc.coordinate a
      pintitle := pintitle, pinsubtitle := pinsubtitle, pinimage := pinimage } := by
  unfold didSelect at h
  cases a with
  | custom c =>
    simp only [Option.bind_eq_bind, Option.pure_def, Option.bind_eq_some_iff,
      Option.some.injEq] at h
    obtain ⟨_, _, _, _, _, _, rfl⟩ := h
    exact ⟨_, _, _, rfl⟩
  | point | userLocation =>
    cases h
    exact ⟨_, _, _, rfl⟩

section

omit [SwiftDouble D]

/-- `setupCustomView` fills three of the four pin fields. -/
def setupCustomView (c : CustomAnnotation D) (vc : ViewController D) : ViewController D :=
  { vc with pintitle := c.title, pinsubtitle := c.subtitle, pincoordinate := c.coordinate }

/-- `mapView(_:viewFor:)`; `dequeued` says whether MapKit had a view to reuse. A new default
view carries the marker, whose coordinate is then the one copied. -/
def viewFor (dequeued : Bool) (a : MKAnnotation D) (vc : ViewController D) : ViewController D :=
  match a with
  | .custom c => if dequeued then vc else vc.setupCustomView c
  | .userLocation => vc
  | .point =>
      { vc with
        pincoordinate := if dequeued then vc.coordinate a else vc.marker.annotation.coordinate }

def detailOpen (screen : Screen) (vc : ViewController D) : ViewController D :=
  { vc with
    panels := vc.panels.detailOpen screen
    detail := some ⟨vc.pintitle, vc.pinsubtitle, vc.pinimage⟩ }

/-- `showEditView` up to the pin colour, which is a static of the process. -/
def showEditView (screen : Screen) (vc : ViewController D) : ViewController D :=
  { vc with
    panels := vc.panels.showEditView screen
    editview := { vc.editview with covers := true }.checkTitle }

/-- The pin colour `showEditView` leaves. -/
def editPinColor (vc : ViewController D) (pinColor : String) : String :=
  if vc.isExistingPin then vc.pinimage else pinColor

/-- `modifyPlace` up to its call of `showEditView`. -/
def fillForm (screen : Screen) (vc : ViewController D) : ViewController D :=
  { vc with
    editview := { vc.editview with textField := vc.pintitle, memoText := vc.pinsubtitle }
    isExistingPin := true
    panels := vc.panels.hideDetailPanel screen }

/-- `initEditView` up to the pin colour. -/
def initEditView (vc : ViewController D) : ViewController D :=
  { vc with
    isExistingPin := false
    editview := { vc.editview with textField := "", memoText := "", covers := false } }

end

end ViewController

section

variable {D : Type}

/-- The custom annotations among a map's annotations. -/
def customsOf (annotations : List <| MKAnnotation D) : List <| CustomAnnotation D :=
  annotations.filterMap fun a => match a with
    | .custom c => some c
    | _ => none

theorem mem_customsOf {annotations : List <| MKAnnotation D} {c : CustomAnnotation D} :
    c ∈ customsOf annotations ↔ .custom c ∈ annotations := by
  rw [customsOf, List.mem_filterMap]
  constructor
  · intro h
    obtain ⟨a, ha, hc⟩ := h
    cases a with
    | custom b =>
      cases hc
      exact ha
    | point | userLocation => cases hc
  · intro h
    exact ⟨.custom c, h, rfl⟩

@[simp] theorem customsOf_append (as bs : List <| MKAnnotation D) :
    customsOf (as ++ bs) = customsOf as ++ customsOf bs := List.filterMap_append

@[simp] theorem customsOf_custom (cs : List <| CustomAnnotation D) :
    customsOf (cs.map .custom) = cs := by
  rw [customsOf, List.filterMap_map]
  exact List.filterMap_some

theorem customsOf_filter (as : List <| MKAnnotation D) (q : MKAnnotation D → Bool) :
    customsOf (as.filter q) = (customsOf as).filter fun c => q (.custom c) := by
  induction as with
  | nil => rfl
  | cons a as ih =>
    cases ha : q a with
    | false =>
      rw [List.filter_cons_of_neg (by simp [ha]), ih]
      cases a <;> simp [customsOf, ha]
    | true =>
      rw [List.filter_cons_of_pos ha]
      cases a <;> simp [customsOf, ha] <;> exact ih

theorem customsOf_without_marker [DecidableEq D] (as : List <| MKAnnotation D) :
    customsOf (as.filter fun a => a ≠ .point) = customsOf as := by
  rw [customsOf_filter]
  simp

theorem customsOf_addAnnotation [DecidableEq D] (vc : ViewController D) :
    customsOf (vc.addAnnotation .point).annotations = customsOf vc.annotations := by
  unfold ViewController.addAnnotation
  split
  · rfl
  · rw [customsOf_append]
    exact List.append_nil _

theorem customsOf_reply [DecidableEq D] (vc : ViewController D) (i : Nat) (r : Reply D) :
    customsOf (vc.reply i r).annotations = customsOf vc.annotations := by
  unfold ViewController.reply
  dsimp only
  split
  · exact customsOf_addAnnotation _
  · rfl

end

end WatashiMap
