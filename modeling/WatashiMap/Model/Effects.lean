import WatashiMap.Model.App

namespace WatashiMap

variable {D F : Type} [SwiftDouble D] [SwiftCGFloat F] [DecidableEq D]

namespace Op

/-- The operations that put a rebuilt view or a new view controller on screen. -/
def rebuilds : Op D F → Bool
  | .tutorialReturn | .changeSetting _ _ => true
  | _ => false

/-- The operations after which the map shows other pins than before. -/
def editsMap : Op D F → Bool
  | .create | .deletePin | .deleteAllPins | .changeSetting _ _ | .tutorialReturn => true
  | _ => false

/-- The operations that write what the suggestion table indexes or its row count. -/
def editsTable : Op D F → Bool
  | .tutorialReturn | .editSearchText _ | .completerDidUpdateResults _ | .didSelectRowAt _ => true
  | _ => false

/-- The operations that write the form, `isExistingPin` or the pin colour. -/
def editsForm : Op D F → Bool
  | .tutorialReturn | .modifyPlace | .showEditView | .editTitle _ | .editMemo _ | .choosePin _ _
  | .changePin | .create | .hideEditView _ | .changeSetting _ _ => true
  | _ => false

/-- The coordinate an operation other than a selection copies into `pincoordinate`. -/
def retargets (vc : ViewController D) : Op D F → Option (CLLocationCoordinate2D D)
  | .mapLongPressed mapPoint => some mapPoint
  | .viewFor dequeued (.custom c) =>
      if vc.onMap (.custom c) ∧ dequeued = false then some c.coordinate else none
  | .viewFor _ .point =>
      if vc.onMap .point then some vc.marker.annotation.coordinate else none
  | _ => none

/-- `pincoordinate` after an operation. -/
def target (vc : ViewController D) : Op D F → CLLocationCoordinate2D D
  | .tutorialReturn => .origin
  | .didSelect a => if vc.onMap a then vc.coordinate a else vc.pincoordinate
  | o => (o.retargets vc).getD vc.pincoordinate

/-- What an operation does to the panels. -/
def panelEvents (vc : ViewController D) : Op D F → List PanelEvent
  | .didSelect a => if vc.onMap a then [.didSelect] else []
  | .deletePins => [.deletePins]
  | .hideDeletingPanel => [.hideDeletingPanel]
  | .deleteAllPins => [.deleteAllPins]
  | .detailOpen => [.detailOpen]
  | .hideDetailPanel | .deletePin => [.hideDetailPanel]
  | .modifyPlace => [.modifyPlace]
  | .showEditView => [.showEditView]
  | .completerDidUpdateResults _ => [.hideDeletingPanel, .hideDetailPanel]
  | _ => []

/-- What an operation does to the marker. -/
def markerEvents (vc : ViewController D) : Op D F → List (MarkerEvent D)
  | .mapLongPressed mapPoint => [.mapLongPressed mapPoint]
  | .reply i r => [.reply vc.suggestions.text i r]
  | .searchBarSearchButtonClicked => [.searchMap vc.suggestions.text]
  | .didSelectRowAt row =>
      if row < vc.suggestions.rows then
        match vc.suggestions.didSelectRowAt row with
        | some (s, .searchMap) => [.searchMap s.text]
        | _ => []
      else []
  | _ => []

omit [SwiftDouble D] [SwiftCGFloat F] [DecidableEq D] in
theorem stays_of_map {o : Op D F} (h : o.editsMap = false) : o.rebuilds = false := by
  cases o with
  | changeSetting | tutorialReturn => cases h
  | _ => rfl

omit [SwiftDouble D] [SwiftCGFloat F] [DecidableEq D] in
theorem stays_of_form {o : Op D F} (h : o.editsForm = false) : o.rebuilds = false := by
  cases o with
  | changeSetting | tutorialReturn => cases h
  | _ => rfl

/-- `viewFor` writes `pintitle`, `pinsubtitle` and `pincoordinate` only. -/
theorem perform_viewFor {screen : Screen} {r : Realm} {p q : Process D F} {dequeued : Bool}
    {a : MKAnnotation D} (h : perform screen r p (.viewFor dequeued a) = some q) :
    ∃ pintitle pinsubtitle, q = { p with vc := { p.vc with
      pintitle := pintitle, pinsubtitle := pinsubtitle
      pincoordinate := Op.target p.vc (.viewFor dequeued a : Op D F) } } := by
  dsimp only [perform] at h
  split_ifs at h with hmap
  · cases h
    cases a with
    | custom c =>
      cases dequeued with
      | false =>
        have htarget : Op.target p.vc (.viewFor false (.custom c) : Op D F) =
            c.coordinate := by
          simp [target, retargets, hmap]
        rw [htarget]
        exact ⟨c.title, c.subtitle, rfl⟩
      | true =>
        have htarget : Op.target p.vc (.viewFor true (.custom c) : Op D F) =
            p.vc.pincoordinate := by
          simp [target, retargets]
        rw [htarget]
        exact ⟨_, _, rfl⟩
    | point =>
      have htarget : Op.target p.vc (.viewFor dequeued .point : Op D F) =
          p.vc.marker.annotation.coordinate := by
        simp [target, retargets, hmap]
      rw [htarget]
      cases dequeued <;> exact ⟨_, _, rfl⟩
    | userLocation => exact ⟨_, _, rfl⟩
  · cases h
    have htarget : Op.target p.vc (.viewFor dequeued a : Op D F) = p.vc.pincoordinate := by
      cases a <;> simp [target, retargets, hmap]
    rw [htarget]
    exact ⟨_, _, rfl⟩

/-- `cellForRowAt` shows the table and writes nothing else. -/
theorem perform_cellForRowAt {screen : Screen} {r : Realm} {p q : Process D F} {row : Nat}
    (h : perform screen r p (.cellForRowAt row) = some q) :
    ∃ hidden, q = { p with vc := { p.vc with
      suggestions := { p.vc.suggestions with tableViewIsHidden := hidden } } } := by
  dsimp only [perform] at h
  split_ifs at h
  · obtain ⟨⟨s, c⟩, hcell, rfl⟩ := Option.map_eq_some_iff.mp h
    obtain ⟨_, _, hpair⟩ := Option.map_eq_some_iff.mp hcell
    cases hpair
    exact ⟨false, rfl⟩
  · cases h
    exact ⟨_, rfl⟩

/-- `hideEditView` leaves everything but the form and the statics. -/
theorem perform_hideEditView {screen : Screen} {r : Realm} {p q : Process D F} {confirmed : Bool}
    (h : perform screen r p (.hideEditView confirmed) = some q) :
    ∃ userSetting editview isExistingPin, q = { p with
      userSetting := userSetting
      vc := { p.vc with editview := editview, isExistingPin := isExistingPin } } := by
  cases h
  unfold Process.hideEditView
  split <;> exact ⟨_, _, _, rfl⟩

/-- What an operation on a view that stays does, part by part. -/
structure Effect (screen : Screen) (p q : Process D F) (o : Op D F) : Prop where
  customs : o.editsMap = false → customsOf q.vc.annotations = customsOf p.vc.annotations
  pincoordinate : q.vc.pincoordinate = o.target p.vc
  panels : q.vc.panels = (o.panelEvents p.vc).foldl (PanelEvent.apply screen) p.vc.panels
  marker : q.vc.marker = (o.markerEvents p.vc).foldl MarkerEvent.apply p.vc.marker
  table : o.editsTable = false → ∃ table button, q.vc.suggestions =
    { p.vc.suggestions with tableViewIsHidden := table, hideTableBtnIsHidden := button }
  form : o.editsForm = false → q.userSetting = p.userSetting ∧
    q.vc.editview = p.vc.editview ∧ q.vc.isExistingPin = p.vc.isExistingPin

theorem effect {screen : Screen} {r : Realm} {p q : Process D F} {o : Op D F}
    (ho : o.rebuilds = false) (h : o.perform screen r p = some q) : Effect screen p q o := by
  cases o with
  | tutorialReturn | changeSetting => cases ho
  | mapLongPressed mapPoint =>
    cases h
    have hcustoms := customsOf_addAnnotation
      { p.vc with marker := p.vc.marker.mapLongPressed mapPoint, pincoordinate := mapPoint }
    dsimp only [ViewController.mapLongPressed]
    rw [ViewController.addAnnotation_eq]
    exact ⟨fun _ => hcustoms, rfl, rfl, rfl, fun _ => ⟨_, _, rfl⟩, fun _ => ⟨rfl, rfl, rfl⟩⟩
  | reply i r =>
    cases h
    have hcustoms := customsOf_reply p.vc i r
    rw [ViewController.reply_eq]
    exact ⟨fun _ => hcustoms, rfl, rfl, rfl, fun _ => ⟨_, _, rfl⟩, fun _ => ⟨rfl, rfl, rfl⟩⟩
  | didSelect a =>
    dsimp only [perform] at h
    split_ifs at h with hmap
    · obtain ⟨_, hvc, rfl⟩ := Option.map_eq_some_iff.mp h
      obtain ⟨_, _, _, rfl⟩ := ViewController.didSelect_spec hvc
      refine ⟨fun _ => rfl, ?_, ?_, rfl, fun _ => ⟨_, _, rfl⟩, fun _ => ⟨rfl, rfl, rfl⟩⟩
      · rw [target, if_pos hmap]
      · rw [panelEvents, if_pos hmap]
        rfl
    · cases h
      refine ⟨fun _ => rfl, ?_, ?_, rfl, fun _ => ⟨_, _, rfl⟩, fun _ => ⟨rfl, rfl, rfl⟩⟩
      · rw [target, if_neg hmap]
      · rw [panelEvents, if_neg hmap]
        rfl
  | viewFor dequeued a =>
    obtain ⟨_, _, rfl⟩ := perform_viewFor h
    exact ⟨fun _ => rfl, rfl, rfl, rfl, fun _ => ⟨_, _, rfl⟩, fun _ => ⟨rfl, rfl, rfl⟩⟩
  | deletePins =>
    dsimp only [perform] at h
    split_ifs at h with henabled
    · cases h
      refine ⟨fun _ => rfl, rfl, ?_, rfl, fun _ => ⟨_, _, rfl⟩, fun _ => ⟨rfl, rfl, rfl⟩⟩
      exact (if_pos henabled).symm
    · cases h
      refine ⟨fun _ => rfl, rfl, ?_, rfl, fun _ => ⟨_, _, rfl⟩, fun _ => ⟨rfl, rfl, rfl⟩⟩
      exact (if_neg henabled).symm
  | hideEditView confirmed =>
    obtain ⟨_, _, _, rfl⟩ := perform_hideEditView h
    exact ⟨fun _ => rfl, rfl, rfl, rfl, fun _ => ⟨_, _, rfl⟩, nofun⟩
  | editSearchText newText =>
    obtain ⟨_, _, rfl⟩ := Option.map_eq_some_iff.mp h
    exact ⟨fun _ => rfl, rfl, rfl, rfl, nofun, fun _ => ⟨rfl, rfl, rfl⟩⟩
  | cellForRowAt row =>
    obtain ⟨_, rfl⟩ := perform_cellForRowAt h
    exact ⟨fun _ => rfl, rfl, rfl, rfl, fun _ => ⟨_, _, rfl⟩, fun _ => ⟨rfl, rfl, rfl⟩⟩
  | didSelectRowAt row =>
    dsimp only [perform] at h
    split_ifs at h with hrow
    · obtain ⟨⟨s, action⟩, hs, rfl⟩ := Option.map_eq_some_iff.mp h
      cases action with
      | setRegion | searchMap =>
        refine ⟨fun _ => rfl, rfl, rfl, ?_, nofun, fun _ => ⟨rfl, rfl, rfl⟩⟩
        rw [markerEvents, if_pos hrow, hs]
        rfl
    · cases h
      refine ⟨fun _ => rfl, rfl, rfl, ?_, nofun, fun _ => ⟨rfl, rfl, rfl⟩⟩
      rw [markerEvents, if_neg hrow]
      rfl
  | create =>
    cases h
    exact ⟨nofun, rfl, rfl, rfl, fun _ => ⟨_, _, rfl⟩, nofun⟩
  | deletePin | deleteAllPins =>
    cases h
    exact ⟨nofun, rfl, rfl, rfl, fun _ => ⟨_, _, rfl⟩, fun _ => ⟨rfl, rfl, rfl⟩⟩
  | modifyPlace | showEditView | editTitle | editMemo | choosePin | changePin =>
    cases h
    exact ⟨fun _ => rfl, rfl, rfl, rfl, fun _ => ⟨_, _, rfl⟩, nofun⟩
  | completerDidUpdateResults results =>
    cases h
    exact ⟨fun _ => rfl, rfl, rfl, rfl, nofun, fun _ => ⟨rfl, rfl, rfl⟩⟩
  | locationUpdate | hideDeletingPanel | detailOpen | hideDetailPanel | hideTable
  | searchBarCancelButtonClicked | searchBarSearchButtonClicked =>
    cases h
    exact ⟨fun _ => rfl, rfl, rfl, rfl, fun _ => ⟨_, _, rfl⟩, fun _ => ⟨rfl, rfl, rfl⟩⟩

end Op

def Op.savesSettings : Op D F → Bool
  | .changeSetting _ _ => true
  | _ => false

omit [SwiftDouble D] [SwiftCGFloat F] [DecidableEq D] in
theorem Op.savesSettings_cases (o : Op D F) :
    o.savesSettings = false ∨ ∃ theme selectedPin, o = .changeSetting theme selectedPin := by
  cases o with
  | changeSetting theme selectedPin => exact Or.inr ⟨theme, selectedPin, rfl⟩
  | _ => exact Or.inl rfl

omit [DecidableEq D] in
/-- The settings live in two of the three classes; the operations on pins write the third. -/
theorem cut_writes_settings {r : Realm} {p : Process D F} {o : Op D F}
    (ho : o.savesSettings = false) (k : Nat) :
    (Crash.cut (o.writes r p) k r).themeColors = r.themeColors ∧
      (Crash.cut (o.writes r p) k r).userPins = r.userPins := by
  have hwrites : ∀ w ∈ o.writes r p, ∀ d,
      ((w d).themeColors, (w d).userPins) = (d.themeColors, d.userPins) := by
    intro w hw d
    cases o with
    | changeSetting => cases ho
    | create | deletePin | deleteAllPins =>
      rw [List.mem_singleton.mp hw]
      rfl
    | _ => cases hw
  exact Prod.mk.inj (Crash.cut_frame (f := fun d => (d.themeColors, d.userPins)) hwrites k r)

omit [DecidableEq D] in
theorem commit_writes_settings {r : Realm} {p : Process D F} {o : Op D F}
    (ho : o.savesSettings = false) :
    (Crash.commit (o.writes r p) r).themeColors = r.themeColors ∧
      (Crash.commit (o.writes r p) r).userPins = r.userPins := by
  rw [← Crash.cut_of_length_le (Nat.le_refl (o.writes r p).length) r]
  exact cut_writes_settings ho _

theorem perform_settings {screen : Screen} {r : Realm} {p q : Process D F} {o : Op D F}
    (ho : o.savesSettings = false) (h : o.perform screen r p = some q) :
    q.userSetting.colors = p.userSetting.colors ∧
      q.userSetting.pinImage = p.userSetting.pinImage := by
  cases hform : o.editsForm with
  | false =>
    rw [((Op.effect (Op.stays_of_form hform) h).form hform).1]
    exact ⟨rfl, rfl⟩
  | true =>
    cases o with
    | changeSetting => cases ho
    | tutorialReturn =>
      obtain ⟨_, _, rfl⟩ := Option.map_eq_some_iff.mp h
      exact ⟨rfl, rfl⟩
    | modifyPlace | showEditView | editTitle | editMemo | choosePin | changePin | create =>
      cases h
      exact ⟨rfl, rfl⟩
    | hideEditView confirmed =>
      cases h
      unfold Process.hideEditView
      split <;> exact ⟨rfl, rfl⟩
    | _ => cases hform

end WatashiMap
