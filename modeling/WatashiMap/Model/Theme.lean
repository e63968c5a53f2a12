import WatashiMap.Library.Crash
import WatashiMap.Model.Objects

namespace WatashiMap

open SwiftCGFloat

/-- The three colours of the settings panel's buttons. -/
structure Theme (F : Type) where
  btn1 : RGB F
  btn2 : RGB F
  btn3 : RGB F
  deriving DecidableEq

def Theme.colorArray {F : Type} (t : Theme F) : List (RGB F) := [t.btn1, t.btn2, t.btn3]

/-- The colours `SettingView.init(frame:)` unwraps and draws with, so `UIColor()` traps as a missing
one does. -/
def UserSetting.theme {F : Type} (u : UserSetting F) : Option (Theme F) :=
  match u.color1, u.color2, u.color3 with
  | some (.rgb btn1), some (.rgb btn2), some (.rgb btn3) => some ⟨btn1, btn2, btn3⟩
  | _, _, _ => none

def UserSetting.colors {F : Type} (u : UserSetting F) : List (Option (UIColor F)) :=
  [u.color1, u.color2, u.color3]

theorem theme_of_colors {F : Type} {u u' : UserSetting F} (h : u'.colors = u.colors) :
    u'.theme = u.theme := by
  simp only [UserSetting.colors, List.cons.injEq, and_true] at h
  obtain ⟨h1, h2, h3⟩ := h
  rw [UserSetting.theme, UserSetting.theme, h1, h2, h3]

inductive PinButton where
  | btnB
  | btnY
  | btnP
  deriving DecidableEq

/-- The switch over `settingView.selectedPin`. -/
def PinButton.pinImage : PinButton → String
  | .btnB => "hitoB.png"
  | .btnY => "hitoY.png"
  | .btnP => "hitoP.png"

variable {F : Type} [SwiftCGFloat F]

def ThemeColor.ofColor (c : RGB F) : ThemeColor :=
  ⟨some (format7 c.r), some (format7 c.g), some (format7 c.b)⟩

/-- A missing component is read as "1". -/
def ThemeColor.color (t : ThemeColor) : UIColor F :=
  .rgb ⟨floatValue (t.r.getD "1"), floatValue (t.g.getD "1"), floatValue (t.b.getD "1")⟩

def deleteThemeColors (r : Realm) : Realm := { r with themeColors := [] }

def addThemeColor (t : ThemeColor) (r : Realm) : Realm :=
  { r with themeColors := r.themeColors ++ [t] }

/-- Old and new user pin change hands inside one transaction. -/
def replaceUserPin (p : UserPin) (r : Realm) : Realm := { r with userPins := [p] }

/-- The transactions of one `changeSetting`, in the order they are committed. -/
def changeSettingWrites (theme : Theme F) (selectedPin : PinButton) : List (Realm → Realm) :=
  deleteThemeColors :: (theme.colorArray.map fun c => addThemeColor (ThemeColor.ofColor c)) ++
    [replaceUserPin ⟨some selectedPin.pinImage⟩]

/-- The first-launch colours. -/
def defaultColors : List (UIColor F) :=
  [.rgb ⟨ratio 184 255, ratio 218 255, ratio 255 255⟩,
    .rgb ⟨ratio 242 255, ratio 207 255, ratio 20 255⟩,
    .rgb ⟨ratio 242 255, ratio 175 255, ratio 175 255⟩]

/-- The loop `colorArray[index] = ...`, which traps past the last slot. -/
def loadColors : List ThemeColor → Nat → List (UIColor F) → Option (List (UIColor F))
  | [], _, colorArray => some colorArray
  | t :: ts, index, colorArray =>
      if index < colorArray.length then loadColors ts (index + 1) (colorArray.set index t.color)
      else none

def colorArray (r : Realm) : Option (List (UIColor F)) :=
  if r.themeColors.head?.isSome then
    loadColors r.themeColors 0 [.placeholder, .placeholder, .placeholder]
  else some defaultColors

def storedPinImage (r : Realm) : Option String :=
  match r.userPins.head? with
  | some pinImage => pinImage.name
  | none => some "hitoB.png"

omit [SwiftCGFloat F] in
/-- The statics a launch sets from the colour array and the stored pin. -/
def UserSetting.launched (colorArray : List (UIColor F)) (pinImage : Option String) :
    UserSetting F :=
  { (UserSetting.initial : UserSetting F) with
    color1 := colorArray[0]?
    color2 := colorArray[1]?
    color3 := colorArray[2]?
    pinImage := pinImage }

/-- `AppDelegate.application(_:didFinishLaunchingWithOptions:)`. -/
def didFinishLaunching (r : Realm) : Option (UserSetting F) :=
  (colorArray r).map fun colors => .launched colors (storedPinImage r)

/-- The in-memory half of `changeSetting`. -/
def UserSetting.adopt (u : UserSetting F) (theme : Theme F) (selectedPin : PinButton) :
    UserSetting F :=
  { u with
    color1 := some (.rgb theme.btn1)
    color2 := some (.rgb theme.btn2)
    color3 := some (.rgb theme.btn3)
    pinImage := some selectedPin.pinImage }

theorem changeSettingWrites_pinItems (theme : Theme F) (selectedPin : PinButton) :
    ∀ w ∈ changeSettingWrites theme selectedPin, ∀ r, (w r).pinItems = r.pinItems := by
  intro w hw r
  simp only [changeSettingWrites, Theme.colorArray, List.map_cons, List.map_nil, List.cons_append,
    List.nil_append, List.mem_cons, List.not_mem_nil, or_false] at hw
  rcases hw with rfl | rfl | rfl | rfl | rfl <;> rfl

theorem didFinishLaunching_pinColor {r : Realm} {u : UserSetting F}
    (h : didFinishLaunching r = some u) : u.pinColor = "redpin-1.png" := by
  obtain ⟨colors, _, rfl⟩ := Option.map_eq_some_iff.mp h
  rfl

end WatashiMap
