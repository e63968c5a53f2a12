import WatashiMap.Settings.Cancel
import WatashiMap.Settings.Sliders

namespace WatashiMap

/-- What the settings panel is for: three colours, the one being edited, and a user pin. -/
structure Choice where
  color : ColorButton → RGB ℚ
  slot : ColorButton
  pin : PinButton

namespace Choice

def ofTheme (theme : Theme ℚ) (pin : PinButton) : Choice where
  color
    | .btn1 => theme.btn1
    | .btn2 => theme.btn2
    | .btn3 => theme.btn3
  slot := .btn1
  pin := pin

/-- The colour being edited becomes `color`. -/
def paint (color : RGB ℚ) (c : Choice) : Choice :=
  { c with color := Function.update c.color c.slot color }

/-- How a colour button looks. -/
def colorBtn (c : Choice) (btn : ColorButton) : ColorButtonView :=
  if btn = c.slot then ⟨c.color btn, true, 3, .red⟩ else ⟨c.color btn, false, 1, .lightGray⟩

/-- How a pin button looks. -/
def pinBtn (c : Choice) (btn : PinButton) : PinButtonView :=
  if btn = c.pin then ⟨true, true⟩ else ⟨false, false⟩

end Choice

namespace SettingView

/-- The part of the preview that stands for a button. -/
def preview (v : SettingView) : ColorButton → RGB ℚ
  | .btn1 => v.screenBackground
  | .btn2 => v.labelBackground
  | .btn3 => v.screenBorder

@[simp] theorem pinBtn_changeColor (color : RGB ℚ) (v : SettingView) :
    (v.changeColor color).pinBtn = v.pinBtn := by
  unfold changeColor setBackground
  split_ifs <;> rfl

@[simp] theorem selectedPin_changeColor (color : RGB ℚ) (v : SettingView) :
    (v.changeColor color).selectedPin = v.selectedPin := by
  unfold changeColor setBackground
  split_ifs <;> rfl

/-- `changeColor` repaints the part of the preview that stands for the slot it writes. -/
theorem preview_changeColor (color : RGB ℚ) (v : SettingView) :
    (v.changeColor color).preview = Function.update v.preview v.slot color := by
  funext btn
  unfold changeColor slot setBackground
  split_ifs <;> cases btn <;> rfl

/-- The panel shows the choice: on its buttons, in its preview and in what it hands over. -/
structure Shows (c : Choice) (v : SettingView) : Prop where
  colorBtn : v.colorBtn = c.colorBtn
  pinBtn : v.pinBtn = c.pinBtn
  selectedPin : v.selectedPin = c.pin
  preview : v.preview = c.color

variable {c : Choice} {v : SettingView}

theorem ofTheme_shows (theme : Theme ℚ) (pinImage : Option String) :
    (ofTheme theme pinImage).Shows (Choice.ofTheme theme (pinButton pinImage)) where
  colorBtn := by
    funext btn
    cases btn <;> rfl
  pinBtn := rfl
  selectedPin := rfl
  preview := by
    funext btn
    cases btn <;> rfl

theorem Shows.isSelected_iff (h : v.Shows c) (btn : ColorButton) :
    (v.colorBtn btn).isSelected = true ↔ btn = c.slot := by
  rw [h.colorBtn, Choice.colorBtn]
  split_ifs with hbtn <;> simp [hbtn]

/-- The slot `changeColor` writes is the one button that is selected. -/
theorem Shows.slot_eq (h : v.Shows c) : v.slot = c.slot := by
  simp only [slot, h.isSelected_iff]
  cases c.slot <;> rfl

theorem Shows.backgroundColor (h : v.Shows c) (btn : ColorButton) :
    (v.colorBtn btn).backgroundColor = c.color btn := by
  rw [h.colorBtn, Choice.colorBtn]
  split_ifs <;> rfl

theorem Shows.changeColor (h : v.Shows c) (color : RGB ℚ) :
    (v.changeColor color).Shows (c.paint color) where
  colorBtn := by
    funext btn
    rw [colorBtn_changeColor, h.slot_eq, h.colorBtn]
    by_cases hbtn : btn = c.slot
    · simp [Choice.colorBtn, Choice.paint, hbtn]
    · simp [Choice.colorBtn, Choice.paint, hbtn]
  pinBtn := by
    rw [pinBtn_changeColor, h.pinBtn]
    rfl
  selectedPin := by rw [selectedPin_changeColor, h.selectedPin, Choice.paint]
  preview := by rw [preview_changeColor, h.slot_eq, h.preview, Choice.paint]

theorem Shows.colorBtnSelected (h : v.Shows c) (sender : ColorButton) :
    (v.colorBtnSelected sender).Shows { c with slot := sender } where
  colorBtn := by
    funext btn
    by_cases hbtn : btn = sender
    · simp [SettingView.colorBtnSelected, Choice.colorBtn, hbtn, h.backgroundColor]
    · simp [SettingView.colorBtnSelected, Choice.colorBtn, hbtn, h.backgroundColor]
  pinBtn := h.pinBtn
  selectedPin := h.selectedPin
  preview := h.preview

theorem Shows.pinBtnSelected (h : v.Shows c) (sender : PinButton) :
    (v.pinBtnSelected sender).Shows { c with pin := sender } where
  colorBtn := h.colorBtn
  pinBtn := rfl
  selectedPin := rfl
  preview := h.preview

theorem Shows.segmentChanged (h : v.Shows c) (index : Nat) :
    (v.segmentChanged index).Shows c := by
  unfold SettingView.segmentChanged
  split <;> exact ⟨h.colorBtn, h.pinBtn, h.selectedPin, h.preview⟩

end SettingView

namespace SettingAction

/-- The colour a palette pick or a slider's move brings. -/
def newColor (v : SettingView) : SettingAction → Option (RGB ℚ)
  | .didSelectItemAt item => Color.colorArray[item]?
  | .colorIsBeingChanged channel value => some (v.sliderColor.set channel value)
  | _ => none

/-- What an action on the panel means for the choice. -/
def onChoice (v : SettingView) (c : Choice) : SettingAction → Choice
  | .pinBtnSelected sender => { c with pin := sender }
  | .colorBtnSelected sender => { c with slot := sender }
  | e => match e.newColor v with
    | some color => c.paint color
    | none => c

/-- A change of colour paints the slot being edited, whatever the sliders did. -/
theorem apply_newColor {v : SettingView} {c : Choice} (h : v.Shows c) {e : SettingAction}
    {color : RGB ℚ} (he : e.newColor v = some color) : (e.apply v).Shows (c.paint color) := by
  cases e with
  | didSelectItemAt item =>
    have hcolor : Color.colorArray[item]? = some color := he
    rw [apply, SettingView.didSelectItemAt_of_some hcolor]
    exact h.changeColor color
  | colorIsBeingChanged channel value =>
    have hmoved : { v with slider := Function.update v.slider channel value }.Shows c :=
      ⟨h.colorBtn, h.pinBtn, h.selectedPin, h.preview⟩
    have hcolor : v.sliderColor.set channel value = color := Option.some.inj he
    rw [apply, SettingView.colorIsBeingChanged, SettingView.sliderColor_update, hcolor]
    exact hmoved.changeColor color
  | pinBtnSelected | colorBtnSelected | segmentChanged | showSettingView | hideSettingView =>
    cases he

/-- One action on the panel does to what it shows what it means. -/
theorem apply_shows {v : SettingView} {c : Choice} (h : v.Shows c) (e : SettingAction) :
    (e.apply v).Shows (e.onChoice v c) := by
  cases e with
  | pinBtnSelected sender => exact h.pinBtnSelected sender
  | colorBtnSelected sender => exact h.colorBtnSelected sender
  | didSelectItemAt item =>
    cases hcolor : Color.colorArray[item]? with
    | some color =>
      have hpaint := apply_newColor h (e := .didSelectItemAt item) hcolor
      simpa [onChoice, newColor, hcolor] using hpaint
    | none =>
      simpa [apply, SettingView.didSelectItemAt_of_none, onChoice, newColor, hcolor] using h
  | colorIsBeingChanged channel value => exact apply_newColor h rfl
  | segmentChanged index => exact h.segmentChanged index
  | showSettingView | hideSettingView => exact ⟨h.colorBtn, h.pinBtn, h.selectedPin, h.preview⟩

/-- The choice a run of actions leaves. -/
def choiceAfter (v : SettingView) (c : Choice) : List SettingAction → Choice
  | [] => c
  | e :: es => choiceAfter (e.apply v) (e.onChoice v c) es

/-- After any actions the panel shows the choice they mean. -/
theorem foldl_apply_shows {v : SettingView} {c : Choice} (h : v.Shows c)
    (es : List SettingAction) : (es.foldl apply v).Shows (choiceAfter v c es) := by
  induction es generalizing v c with
  | nil => exact h
  | cons e es ih => exact ih (apply_shows h e)

end SettingAction

namespace SettingView

/-- One colour button and one pin button are selected and look so, the panel hands over the
latter, and the preview has the colours of the colour buttons. -/
structure Consistent (v : SettingView) : Prop where
  oneColorBtn : ∃! btn, (v.colorBtn btn).isSelected = true
  onePinBtn : ∃! btn, (v.pinBtn btn).isSelected = true
  selectedPin : (v.pinBtn v.selectedPin).isSelected = true
  screen : v.screenBackground = (v.colorBtn .btn1).backgroundColor
  label : v.labelBackground = (v.colorBtn .btn2).backgroundColor
  border : v.screenBorder = (v.colorBtn .btn3).backgroundColor
  colorHighlight : ∀ btn, (v.colorBtn btn).borderWidth = 3 ∧ (v.colorBtn btn).borderColor = .red ↔
    (v.colorBtn btn).isSelected = true
  pinHighlight : ∀ btn, (v.pinBtn btn).isShaded = (v.pinBtn btn).isSelected

/-- From `v` to `w` the selected slot turns to `color`, on its button and in the preview, and
nothing else does. -/
structure RepaintsSlot (color : RGB ℚ) (v w : SettingView) : Prop where
  slot : ∀ btn, (v.colorBtn btn).isSelected = true →
    w.colorBtn btn = { v.colorBtn btn with backgroundColor := color } ∧ w.preview btn = color
  others : ∀ btn, (v.colorBtn btn).isSelected = false →
    w.colorBtn btn = v.colorBtn btn ∧ w.preview btn = v.preview btn
  pinBtn : w.pinBtn = v.pinBtn
  selectedPin : w.selectedPin = v.selectedPin

theorem Shows.consistent {c : Choice} {v : SettingView} (h : v.Shows c) : v.Consistent := by
  have hpin (btn : PinButton) : (v.pinBtn btn).isSelected = true ↔ btn = c.pin := by
    rw [h.pinBtn, Choice.pinBtn]
    split_ifs with hbtn <;> simp [hbtn]
  have hpreview (btn : ColorButton) : v.preview btn = (v.colorBtn btn).backgroundColor := by
    rw [h.preview, h.backgroundColor]
  constructor
  · exact ⟨c.slot, (h.isSelected_iff _).mpr rfl, fun btn hbtn => (h.isSelected_iff btn).mp hbtn⟩
  · exact ⟨c.pin, (hpin _).mpr rfl, fun btn hbtn => (hpin btn).mp hbtn⟩
  · exact (hpin _).mpr h.selectedPin
  · exact hpreview .btn1
  · exact hpreview .btn2
  · exact hpreview .btn3
  · intro btn
    rw [h.colorBtn, Choice.colorBtn]
    split_ifs <;> simp
  · intro btn
    rw [h.pinBtn, Choice.pinBtn]
    split_ifs <;> rfl

theorem Shows.repaintsSlot {c : Choice} {v w : SettingView} {color : RGB ℚ} (hv : v.Shows c)
    (hw : w.Shows (c.paint color)) : RepaintsSlot color v w where
  slot := by
    intro btn hbtn
    rw [hv.isSelected_iff] at hbtn
    rw [hw.colorBtn, hw.preview, hv.colorBtn]
    simp [Choice.colorBtn, Choice.paint, hbtn]
  others := by
    intro btn hbtn
    have hne : btn ≠ c.slot := by
      intro hslot
      rw [(hv.isSelected_iff btn).mpr hslot] at hbtn
      cases hbtn
    rw [hw.colorBtn, hw.preview, hv.colorBtn, hv.preview]
    simp [Choice.colorBtn, Choice.paint, hne]
  pinBtn := hw.pinBtn.trans hv.pinBtn.symm
  selectedPin := hw.selectedPin.trans hv.selectedPin.symm

/-- `init` makes a panel that shows its theme and its pin. -/
theorem initFrame_shows {u : UserSetting ℚ} {v : SettingView} (h : initFrame u = some v) :
    ∃ c, v.Shows c := by
  unfold initFrame at h
  split at h
  · cases h
    exact ⟨_, ofTheme_shows _ _⟩
  · cases h

end SettingView

namespace SettingApp

variable [SwiftCGFloat ℚ]

/-- `changeSetting` takes over and stores the colours of the preview and the pin highlighted. -/
structure SavesShown (s : SettingApp) : Prop where
  color1 : s.changeSetting.userSetting.color1 = some (.rgb s.settingView.screenBackground)
  color2 : s.changeSetting.userSetting.color2 = some (.rgb s.settingView.labelBackground)
  color3 : s.changeSetting.userSetting.color3 = some (.rgb s.settingView.screenBorder)
  themeColors : s.changeSetting.realm.themeColors =
    [ThemeColor.ofColor s.settingView.screenBackground,
      ThemeColor.ofColor s.settingView.labelBackground,
      ThemeColor.ofColor s.settingView.screenBorder]
  pin : ∀ btn, (s.settingView.pinBtn btn).isShaded = true →
    s.changeSetting.userSetting.pinImage = some btn.pinImage ∧
      s.changeSetting.realm.userPins = [⟨some btn.pinImage⟩]

/-- What is saved from a consistent panel is what it shows. -/
theorem savesShown_of_consistent {s : SettingApp} (h : s.settingView.Consistent) :
    s.SavesShown where
  color1 := by
    rw [h.screen]
    rfl
  color2 := by
    rw [h.label]
    rfl
  color3 := by
    rw [h.border]
    rfl
  themeColors := by
    rw [h.screen, h.label, h.border]
    rfl
  pin := by
    intro btn hbtn
    rw [h.pinHighlight] at hbtn
    rw [h.onePinBtn.unique hbtn h.selectedPin]
    exact ⟨rfl, rfl⟩

end SettingApp

/-- In every state a run of a new panel reaches, for any colours and any user pin, the panel is
consistent, a change of colour repaints the selected slot alone, and what is saved is what is
shown. -/
theorem panel_is_consistent [SwiftCGFloat ℚ] {u : UserSetting ℚ} {start : SettingView}
    (h : SettingView.initFrame u = some start) (es : List SettingAction) :
    let v := es.foldl SettingAction.apply start
    v.Consistent ∧
      (∀ (e : SettingAction) color, e.newColor v = some color →
        SettingView.RepaintsSlot color v (e.apply v)) ∧
      ∀ r userSetting, SettingApp.SavesShown ⟨r, userSetting, v⟩ := by
  intro v
  obtain ⟨c, hstart⟩ := SettingView.initFrame_shows h
  have hv : v.Shows (SettingAction.choiceAfter start c es) :=
    SettingAction.foldl_apply_shows hstart es
  refine ⟨hv.consistent, ?_, ?_⟩
  · intro e color he
    exact hv.repaintsSlot (SettingAction.apply_newColor hv he)
  · intro r userSetting
    exact SettingApp.savesShown_of_consistent hv.consistent

/-- The first-launch settings, of which the second colour and the user pin are changed. -/
theorem edited_panel_is_consistent :
    letI : SwiftCGFloat ℚ := singleDecimals
    let theme : Theme ℚ :=
      ⟨Color.color1, Color.rgb255 242 207 20, Color.rgb255 242 175 175⟩
    let u : UserSetting ℚ := .launched (theme.colorArray.map .rgb) (some "hitoB.png")
    let v := [SettingAction.colorBtnSelected .btn2, .didSelectItemAt 4, .pinBtnSelected .btnP].foldl
      SettingAction.apply (.ofTheme theme (some "hitoB.png"))
    v.Consistent ∧ v.labelBackground = Color.rgb255 213 185 164 ∧ v.selectedPin = .btnP ∧
      SettingApp.SavesShown ⟨.empty, u, v⟩ := by
  intro theme u v
  obtain ⟨hconsistent, _, hsaves⟩ := @panel_is_consistent singleDecimals u _ rfl
    [.colorBtnSelected .btn2, .didSelectItemAt 4, .pinBtnSelected .btnP]
  exact ⟨hconsistent, rfl, rfl, hsaves .empty u⟩

end WatashiMap
