import Mathlib.Algebra.Order.Ring.Rat
import Mathlib.Order.Interval.Set.ProjIcc
import WatashiMap.Model.Theme

namespace WatashiMap

inductive Channel where
  | red
  | green
  | blue
  deriving DecidableEq

namespace RGB

def get (c : RGB ℚ) : Channel → ℚ
  | .red => c.r
  | .green => c.g
  | .blue => c.b

def set (channel : Channel) (x : ℚ) (c : RGB ℚ) : RGB ℚ :=
  match channel with
  | .red => { c with r := x }
  | .green => { c with g := x }
  | .blue => { c with b := x }

def InRange (c : RGB ℚ) : Prop := ∀ channel, c.get channel ∈ Set.Icc 0 1

theorem ext_get {c d : RGB ℚ} (h : ∀ channel, c.get channel = d.get channel) : c = d := by
  cases c
  cases d
  simp only [RGB.mk.injEq]
  exact ⟨h .red, h .green, h .blue⟩

theorem get_set (channel : Channel) (x : ℚ) (c : RGB ℚ) (other : Channel) :
    (c.set channel x).get other = if other = channel then x else c.get other := by
  cases channel <;> cases other <;> rfl

end RGB

namespace Color

def rgb255 (r g b : ℚ) : RGB ℚ := ⟨r / 255, g / 255, b / 255⟩

def color1 : RGB ℚ := rgb255 184 218 255

/-- The palette; the fourth colour's blue is divided by 164. -/
def colorArray : List (RGB ℚ) :=
  [color1, rgb255 242 207 20, rgb255 242 175 175, ⟨213 / 255, 230 / 255, 230 / 164⟩,
    rgb255 213 185 164, rgb255 213 139 164, rgb255 95 139 164, rgb255 95 139 70,
    rgb255 223 216 255, rgb255 71 216 140, rgb255 255 74 104, rgb255 255 74 0,
    rgb255 255 172 0, rgb255 255 172 147, rgb255 255 77 82, rgb255 228 183 190,
    rgb255 204 229 190, rgb255 204 161 145, rgb255 81 144 212, rgb255 37 93 108,
    rgb255 126 93 108, rgb255 112 140 218, rgb255 204 206 255, rgb255 125 101 79,
    rgb255 211 182 79, rgb255 180 142 137, rgb255 0 142 137, rgb255 0 88 57,
    rgb255 94 78 133, rgb255 179 255 215, rgb255 255 255 215, rgb255 255 209 215,
    rgb255 206 209 0, rgb255 206 41 41, rgb255 255 218 194]

end Color

inductive ColorButton where
  | btn1
  | btn2
  | btn3
  deriving DecidableEq

inductive BorderColor where
  | red
  | lightGray
  deriving DecidableEq

structure ColorButtonView where
  backgroundColor : RGB ℚ
  isSelected : Bool
  borderWidth : Nat
  borderColor : BorderColor
  deriving DecidableEq

/-- `isShaded` says that the background is `UIColor(white: 0, alpha: 0.1)`; otherwise it is
clear. -/
structure PinButtonView where
  isSelected : Bool
  isShaded : Bool
  deriving DecidableEq

structure SettingView where
  pinBtn : PinButton → PinButtonView
  selectedPin : PinButton
  colorBtn : ColorButton → ColorButtonView
  screenBackground : RGB ℚ
  labelBackground : RGB ℚ
  screenBorder : RGB ℚ
  /-- A `UISlider` keeps its value between its minimum 0 and its maximum 1. -/
  slider : Channel → Set.Icc (0 : ℚ) 1
  slidersInScreen : Bool
  covers : Bool

namespace SettingView

/-- `UISlider.setValue`. -/
def setValue (x : ℚ) : Set.Icc (0 : ℚ) 1 := Set.projIcc 0 1 zero_le_one x

theorem setValue_eq_iff {x : ℚ} : (setValue x : ℚ) = x ↔ x ∈ Set.Icc 0 1 := by
  constructor
  · intro h
    rw [← h]
    exact (setValue x).2
  · intro h
    rw [setValue, Set.projIcc_of_mem zero_le_one h]

def pinBtnSelected (sender : PinButton) (v : SettingView) : SettingView :=
  { v with
    pinBtn := fun btn => if btn = sender then ⟨true, true⟩ else ⟨false, false⟩
    selectedPin := sender }

def colorBtnSelected (sender : ColorButton) (v : SettingView) : SettingView :=
  { v with
    colorBtn := fun btn =>
      if btn = sender then
        { v.colorBtn btn with isSelected := true, borderWidth := 3, borderColor := .red }
      else
        { v.colorBtn btn with isSelected := false, borderWidth := 1, borderColor := .lightGray }
    slider := fun channel => setValue ((v.colorBtn sender).backgroundColor.get channel) }

def setBackground (btn : ColorButton) (color : RGB ℚ) (v : SettingView) : SettingView :=
  { v with colorBtn :=
    Function.update v.colorBtn btn { v.colorBtn btn with backgroundColor := color } }

/-- The colour goes to the button selected and to its part of the preview. -/
def changeColor (color : RGB ℚ) (v : SettingView) : SettingView :=
  if (v.colorBtn .btn1).isSelected = true then
    { v.setBackground .btn1 color with screenBackground := color }
  else if (v.colorBtn .btn2).isSelected = true then
    { v.setBackground .btn2 color with labelBackground := color }
  else { v.setBackground .btn3 color with screenBorder := color }

/-- The colour the three sliders stand for. -/
def sliderColor (v : SettingView) : RGB ℚ := ⟨v.slider .red, v.slider .green, v.slider .blue⟩

/-- The user moves a slider, which fires `colorIsBeingChanged`. -/
def colorIsBeingChanged (channel : Channel) (value : Set.Icc (0 : ℚ) 1) (v : SettingView) :
    SettingView :=
  let v := { v with slider := Function.update v.slider channel value }
  v.changeColor v.sliderColor

/-- `collectionView(_:didSelectItemAt:)`; the palette has no other items. -/
def didSelectItemAt (item : Nat) (v : SettingView) : SettingView :=
  match Color.colorArray[item]? with
  | some color => v.changeColor color
  | none => v

def segmentChanged (selectedSegmentIndex : Nat) (v : SettingView) : SettingView :=
  match selectedSegmentIndex with
  | 0 => { v with slidersInScreen := false }
  | 1 => { v with slidersInScreen := true }
  | _ => v

def showSettingView (v : SettingView) : SettingView := { v with covers := true }

/-- `hideSettingView` moves the panel out of the screen. -/
def hideSettingView (v : SettingView) : SettingView := { v with covers := false }

def theme (v : SettingView) : Theme ℚ :=
  ⟨(v.colorBtn .btn1).backgroundColor, (v.colorBtn .btn2).backgroundColor,
    (v.colorBtn .btn3).backgroundColor⟩

/-- The button of the user pin that is set. -/
def pinButton (pinImage : Option String) : PinButton :=
  match pinImage with
  | some "hitoP.png" => .btnP
  | some "hitoY.png" => .btnY
  | _ => .btnB

/-- The panel for three colours and a user pin. The sliders start from the red, red and blue of
`Color.color1`. -/
def ofTheme (theme : Theme ℚ) (pinImage : Option String) : SettingView where
  pinBtn := fun btn => if btn = pinButton pinImage then ⟨true, true⟩ else ⟨false, false⟩
  selectedPin := pinButton pinImage
  colorBtn
    | .btn1 => ⟨theme.btn1, true, 3, .red⟩
    | .btn2 => ⟨theme.btn2, false, 1, .lightGray⟩
    | .btn3 => ⟨theme.btn3, false, 1, .lightGray⟩
  screenBackground := theme.btn1
  labelBackground := theme.btn2
  screenBorder := theme.btn3
  slider
    | .red => setValue Color.color1.r
    | .green => setValue Color.color1.r
    | .blue => setValue Color.color1.b
  slidersInScreen := false
  covers := false

/-- `SettingView.init(frame:)`. A missing colour traps, and so does reading the components of
`UIColor()`. -/
def initFrame (u : UserSetting ℚ) : Option SettingView :=
  match u.color1, u.color2, u.color3 with
  | some (.rgb btn1), some (.rgb btn2), some (.rgb btn3) =>
      some (ofTheme ⟨btn1, btn2, btn3⟩ u.pinImage)
  | _, _, _ => none

theorem initFrame_eq (u : UserSetting ℚ) :
    initFrame u = u.theme.map fun theme => ofTheme theme u.pinImage := by
  obtain ⟨_, color1, color2, color3, _⟩ := u
  rcases color1 with _ | _ | _ <;> rcases color2 with _ | _ | _ <;>
    rcases color3 with _ | _ | _ <;> rfl

theorem didSelectItemAt_of_some {item : Nat} {color : RGB ℚ}
    (h : Color.colorArray[item]? = some color) (v : SettingView) :
    v.didSelectItemAt item = v.changeColor color := by
  rw [didSelectItemAt, h]

theorem didSelectItemAt_of_none {item : Nat} (h : Color.colorArray[item]? = none)
    (v : SettingView) : v.didSelectItemAt item = v := by
  rw [didSelectItemAt, h]

/-- The button `changeColor` writes. -/
def slot (v : SettingView) : ColorButton :=
  if (v.colorBtn .btn1).isSelected = true then .btn1
  else if (v.colorBtn .btn2).isSelected = true then .btn2
  else .btn3

def slotColor (v : SettingView) : RGB ℚ := (v.colorBtn v.slot).backgroundColor

/-- `changeColor` repaints the selected slot and leaves the other buttons. -/
theorem colorBtn_changeColor (color : RGB ℚ) (v : SettingView) (btn : ColorButton) :
    (v.changeColor color).colorBtn btn =
      if btn = v.slot then { v.colorBtn btn with backgroundColor := color }
      else v.colorBtn btn := by
  unfold changeColor slot setBackground
  split_ifs <;> simp_all [Function.update]

@[simp] theorem slider_changeColor (color : RGB ℚ) (v : SettingView) :
    (v.changeColor color).slider = v.slider := by
  unfold changeColor setBackground
  split_ifs <;> rfl

@[simp] theorem sliderColor_changeColor (color : RGB ℚ) (v : SettingView) :
    (v.changeColor color).sliderColor = v.sliderColor := by
  unfold sliderColor
  rw [slider_changeColor]

@[simp] theorem isSelected_changeColor (color : RGB ℚ) (v : SettingView) (btn : ColorButton) :
    ((v.changeColor color).colorBtn btn).isSelected = (v.colorBtn btn).isSelected := by
  rw [colorBtn_changeColor]
  split_ifs <;> rfl

@[simp] theorem slot_changeColor (color : RGB ℚ) (v : SettingView) :
    (v.changeColor color).slot = v.slot := by
  unfold slot
  rw [isSelected_changeColor, isSelected_changeColor]

@[simp] theorem slotColor_changeColor (color : RGB ℚ) (v : SettingView) :
    (v.changeColor color).slotColor = color := by
  rw [slotColor, slot_changeColor, colorBtn_changeColor, if_pos rfl]

@[simp] theorem slot_colorBtnSelected (sender : ColorButton) (v : SettingView) :
    (v.colorBtnSelected sender).slot = sender := by
  cases sender <;> simp [slot, colorBtnSelected]

@[simp] theorem backgroundColor_colorBtnSelected (sender btn : ColorButton) (v : SettingView) :
    ((v.colorBtnSelected sender).colorBtn btn).backgroundColor =
      (v.colorBtn btn).backgroundColor := by
  unfold colorBtnSelected
  dsimp only
  split_ifs <;> rfl

@[simp] theorem slotColor_colorBtnSelected (sender : ColorButton) (v : SettingView) :
    (v.colorBtnSelected sender).slotColor = (v.colorBtn sender).backgroundColor := by
  rw [slotColor, slot_colorBtnSelected, backgroundColor_colorBtnSelected]

end SettingView

inductive SettingAction where
  | pinBtnSelected (sender : PinButton)
  | colorBtnSelected (sender : ColorButton)
  | didSelectItemAt (item : Nat)
  | colorIsBeingChanged (channel : Channel) (value : Set.Icc (0 : ℚ) 1)
  | segmentChanged (selectedSegmentIndex : Nat)
  | showSettingView
  | hideSettingView
  deriving DecidableEq

def SettingAction.apply (v : SettingView) : SettingAction → SettingView
  | .pinBtnSelected sender => v.pinBtnSelected sender
  | .colorBtnSelected sender => v.colorBtnSelected sender
  | .didSelectItemAt item => v.didSelectItemAt item
  | .colorIsBeingChanged channel value => v.colorIsBeingChanged channel value
  | .segmentChanged selectedSegmentIndex => v.segmentChanged selectedSegmentIndex
  | .showSettingView => v.showSettingView
  | .hideSettingView => v.hideSettingView

end WatashiMap
