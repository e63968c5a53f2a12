import WatashiMap.Model.App
import WatashiMap.Model.Decimals
import WatashiMap.Model.SettingView
import WatashiMap.Settings.Loader

namespace WatashiMap

/-- The stored settings, those of the process and the settings panel. -/
structure SettingApp where
  realm : Realm
  userSetting : UserSetting ℚ
  settingView : SettingView

namespace SettingApp

def edit (s : SettingApp) (e : SettingAction) : SettingApp :=
  { s with settingView := e.apply s.settingView }

theorem foldl_edit (es : List SettingAction) (s : SettingApp) :
    es.foldl edit s = { s with settingView := es.foldl SettingAction.apply s.settingView } := by
  induction es generalizing s with
  | nil => rfl
  | cons e es ih => rw [List.foldl_cons, List.foldl_cons, ih, edit]

variable [SwiftCGFloat ℚ]

/-- `changeSetting`, which ends with `hideSettingView`. -/
def changeSetting (s : SettingApp) : SettingApp where
  realm := Crash.commit (changeSettingWrites s.settingView.theme s.settingView.selectedPin) s.realm
  userSetting := s.userSetting.adopt s.settingView.theme s.settingView.selectedPin
  settingView := s.settingView.hideSettingView

/-- The edits, the cancel button, and a visit that saves without an edit. -/
def cancelled (es : List SettingAction) (s : SettingApp) : SettingApp :=
  (((es.foldl edit s).edit .hideSettingView).edit .showSettingView).changeSetting

/-- The saved colours and user pin, in memory and stored, are the same. -/
structure SameSettings (s t : SettingApp) : Prop where
  color1 : t.userSetting.color1 = s.userSetting.color1
  color2 : t.userSetting.color2 = s.userSetting.color2
  color3 : t.userSetting.color3 = s.userSetting.color3
  pinImage : t.userSetting.pinImage = s.userSetting.pinImage
  themeColors : t.realm.themeColors = s.realm.themeColors
  userPins : t.realm.userPins = s.realm.userPins

/-- The panel shows the colours and the user pin that are in use, and these are stored. -/
structure InSync (s : SettingApp) : Prop where
  color1 : s.userSetting.color1 = some (.rgb s.settingView.theme.btn1)
  color2 : s.userSetting.color2 = some (.rgb s.settingView.theme.btn2)
  color3 : s.userSetting.color3 = some (.rgb s.settingView.theme.btn3)
  pinImage : s.userSetting.pinImage = some s.settingView.selectedPin.pinImage
  themeColors : s.realm.themeColors = s.settingView.theme.records
  userPins : s.realm.userPins = [⟨some s.settingView.selectedPin.pinImage⟩]

theorem changeSetting_inSync (s : SettingApp) : s.changeSetting.InSync :=
  ⟨rfl, rfl, rfl, rfl, rfl, rfl⟩

/-- Saving changes nothing exactly when the panel shows what is saved. -/
theorem sameSettings_changeSetting_iff (s : SettingApp) :
    s.SameSettings s.changeSetting ↔ s.InSync := by
  constructor
  · intro h
    exact ⟨h.color1.symm, h.color2.symm, h.color3.symm, h.pinImage.symm, h.themeColors.symm,
      h.userPins.symm⟩
  · intro h
    exact ⟨h.color1.symm, h.color2.symm, h.color3.symm, h.pinImage.symm, h.themeColors.symm,
      h.userPins.symm⟩

omit [SwiftCGFloat ℚ] in
theorem pinImage_injective : Function.Injective PinButton.pinImage := by
  intro a b h
  cases a <;> cases b <;> first | rfl | exact absurd h (by decide)

/-- Edits of a panel that shows what is saved keep it so exactly when they leave its colours and
its pin as they were. -/
theorem inSync_foldl_edit_iff {s : SettingApp} (h : s.InSync) (es : List SettingAction) :
    (es.foldl edit s).InSync ↔
      (es.foldl SettingAction.apply s.settingView).theme = s.settingView.theme ∧
      (es.foldl SettingAction.apply s.settingView).selectedPin = s.settingView.selectedPin := by
  rw [foldl_edit]
  generalize es.foldl SettingAction.apply s.settingView = v
  constructor
  · intro hv
    have hcolor {a b : RGB ℚ} {c : Option (UIColor ℚ)} (ha : c = some (.rgb a))
        (hb : c = some (.rgb b)) : a = b :=
      UIColor.rgb.inj (Option.some.inj (ha.symm.trans hb))
    have htheme (t : Theme ℚ) : t = ⟨t.btn1, t.btn2, t.btn3⟩ := rfl
    refine ⟨?_, pinImage_injective (Option.some.inj (hv.pinImage.symm.trans h.pinImage))⟩
    rw [htheme v.theme, htheme s.settingView.theme, hcolor hv.color1 h.color1,
      hcolor hv.color2 h.color2, hcolor hv.color3 h.color3]
  · intro hv
    obtain ⟨htheme, hpin⟩ := hv
    constructor
    · rw [htheme]
      exact h.color1
    · rw [htheme]
      exact h.color2
    · rw [htheme]
      exact h.color3
    · rw [hpin]
      exact h.pinImage
    · rw [htheme]
      exact h.themeColors
    · rw [hpin]
      exact h.userPins

/-- The save of the panel's colours and pin is the one of the running app. -/
theorem changeSetting_eq {D : Type} [SwiftDouble D] [DecidableEq D] {screen : Screen} {r : Realm}
    {p q : Process D ℚ} {v : SettingView}
    (h : Op.perform screen r p (.changeSetting v.theme v.selectedPin) = some q) :
    (⟨r, p.userSetting, v⟩ : SettingApp).changeSetting =
      ⟨Crash.commit (Op.writes r p (.changeSetting v.theme v.selectedPin)) r, q.userSetting,
        v.hideSettingView⟩ := by
  obtain ⟨_, _, rfl⟩ := Process.changeSetting_spec h
  rfl

/-- Neither the cancel button nor the next visit touches the colours and the pin of the panel. -/
theorem sameSettings_cancelled_iff (s : SettingApp) (es : List SettingAction) :
    s.SameSettings (s.cancelled es) ↔ (es.foldl edit s).InSync := by
  rw [← sameSettings_changeSetting_iff, cancelled, foldl_edit]
  constructor
  · intro h
    exact ⟨h.color1, h.color2, h.color3, h.pinImage, h.themeColors, h.userPins⟩
  · intro h
    exact ⟨h.color1, h.color2, h.color3, h.pinImage, h.themeColors, h.userPins⟩

end SettingApp

/-- Whatever is saved and whatever the panel shows, edits that are cancelled change nothing in
the next visit exactly when the panel they leave shows what is saved. From a panel that shows what
is saved these are the edits that leave its colours and its pin as they were. -/
theorem cancelled_edits_are_discarded_iff [SwiftCGFloat ℚ] (s : SettingApp)
    (es : List SettingAction) :
    (s.SameSettings (s.cancelled es) ↔ (es.foldl SettingApp.edit s).InSync) ∧
      (s.InSync → (s.SameSettings (s.cancelled es) ↔
        (es.foldl SettingAction.apply s.settingView).theme = s.settingView.theme ∧
        (es.foldl SettingAction.apply s.settingView).selectedPin = s.settingView.selectedPin)) := by
  refine ⟨s.sameSettings_cancelled_iff es, ?_⟩
  intro h
  rw [s.sameSettings_cancelled_iff, SettingApp.inSync_foldl_edit_iff h]

/-- From the first-launch settings, saved, another user pin is chosen and cancelled. -/
theorem cancelled_pin_is_saved :
    letI : SwiftCGFloat ℚ := singleDecimals
    let theme : Theme ℚ :=
      ⟨Color.color1, Color.rgb255 242 207 20, Color.rgb255 242 175 175⟩
    let s := SettingApp.changeSetting
      ⟨.empty, .launched (theme.colorArray.map .rgb) (some "hitoB.png"),
        .ofTheme theme (some "hitoB.png")⟩
    ¬ s.SameSettings (s.cancelled [.showSettingView, .pinBtnSelected .btnP]) := by
  intro theme s h
  have hpin : some "hitoP.png" = some "hitoB.png" := h.pinImage
  exact absurd hpin (by decide)

end WatashiMap
