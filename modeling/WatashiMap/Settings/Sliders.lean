import Mathlib.Tactic.NormNum
import WatashiMap.Library.LastWrite
import WatashiMap.Model.SettingView

namespace WatashiMap

namespace SettingView

/-- Moving a slider replaces its channel of the selected slot's colour. -/
def MovesOneChannel (v : SettingView) : Prop :=
  ∀ channel value, ((v.colorIsBeingChanged channel value).colorBtn v.slot).backgroundColor =
    v.slotColor.set channel value

theorem sliderColor_update (channel : Channel) (value : Set.Icc (0 : ℚ) 1) (v : SettingView) :
    sliderColor { v with slider := Function.update v.slider channel value } =
      v.sliderColor.set channel value := by
  cases channel <;> simp [sliderColor, RGB.set, Function.update]

theorem slot_colorIsBeingChanged (channel : Channel) (value : Set.Icc (0 : ℚ) 1)
    (v : SettingView) : (v.colorIsBeingChanged channel value).slot = v.slot :=
  slot_changeColor _ _

theorem slotColor_colorIsBeingChanged (channel : Channel) (value : Set.Icc (0 : ℚ) 1)
    (v : SettingView) :
    (v.colorIsBeingChanged channel value).slotColor = v.sliderColor.set channel value := by
  rw [colorIsBeingChanged, slotColor_changeColor, sliderColor_update]

theorem sliderColor_colorIsBeingChanged (channel : Channel) (value : Set.Icc (0 : ℚ) 1)
    (v : SettingView) :
    (v.colorIsBeingChanged channel value).sliderColor = v.sliderColor.set channel value := by
  rw [colorIsBeingChanged, sliderColor_changeColor, sliderColor_update]

/-- The law holds in a state exactly when the sliders stand for the selected slot's colour. -/
theorem movesOneChannel_iff (v : SettingView) :
    v.MovesOneChannel ↔ v.sliderColor = v.slotColor := by
  have hmove (channel : Channel) (value : Set.Icc (0 : ℚ) 1) :
      ((v.colorIsBeingChanged channel value).colorBtn v.slot).backgroundColor =
        v.sliderColor.set channel value := by
    rw [← slotColor_colorIsBeingChanged, slotColor, slot_colorIsBeingChanged]
  constructor
  · intro h
    have hkept {moved other : Channel} (value : Set.Icc (0 : ℚ) 1) (hne : other ≠ moved) :
        v.sliderColor.get other = v.slotColor.get other := by
      have hset := congrArg (fun c => c.get other) ((hmove moved value).symm.trans (h moved value))
      simpa [RGB.get_set, hne] using hset
    apply RGB.ext_get
    intro channel
    -- each channel is seen when another one is moved
    cases channel with
    | red => exact hkept (setValue 0) (by decide : Channel.red ≠ .green)
    | green => exact hkept (setValue 0) (by decide : Channel.green ≠ .blue)
    | blue => exact hkept (setValue 0) (by decide : Channel.blue ≠ .red)
  · intro h channel value
    rw [hmove, h]

theorem sliderColor_colorBtnSelected (sender : ColorButton) (v : SettingView) :
    (v.colorBtnSelected sender).sliderColor = (v.colorBtn sender).backgroundColor ↔
      (v.colorBtn sender).backgroundColor.InRange := by
  have hget (channel : Channel) : (v.colorBtnSelected sender).sliderColor.get channel =
      setValue ((v.colorBtn sender).backgroundColor.get channel) := by
    cases channel <;> rfl
  constructor
  · intro h channel
    rw [← setValue_eq_iff, ← hget, h]
  · intro h
    apply RGB.ext_get
    intro channel
    rw [hget, setValue_eq_iff]
    exact h channel

theorem sliderColor_ofTheme (theme : Theme ℚ) (pinImage : Option String) :
    (ofTheme theme pinImage).sliderColor = ⟨184 / 255, 184 / 255, 1⟩ := by
  have hred : (setValue Color.color1.r : ℚ) = 184 / 255 := by
    rw [setValue_eq_iff.mpr (by norm_num [Color.color1, Color.rgb255])]
    rfl
  have hblue : (setValue Color.color1.b : ℚ) = 1 := by
    rw [setValue_eq_iff.mpr (by norm_num [Color.color1, Color.rgb255])]
    norm_num [Color.color1, Color.rgb255]
  simp only [sliderColor, ofTheme, hred, hblue]

end SettingView

namespace SettingAction

/-- The events that write the sliders, the selection or the selected colour. -/
def writesColor : SettingAction → Bool
  | .colorBtnSelected _ | .colorIsBeingChanged _ _ => true
  | .didSelectItemAt item => (Color.colorArray[item]?).isSome
  | _ => false

/-- The event leaves the sliders on the selected slot's colour: a button is tapped whose colour
the sliders can show, a palette colour is chosen that they show already, or a slider is moved. -/
def MatchesSliders (v : SettingView) : SettingAction → Prop
  | .colorBtnSelected sender => (v.colorBtn sender).backgroundColor.InRange
  | .didSelectItemAt item => Color.colorArray[item]? = some v.sliderColor
  | _ => True

theorem apply_writes (v : SettingView) (e : SettingAction) (he : e.writesColor = true) :
    (e.apply v).sliderColor = (e.apply v).slotColor ↔ e.MatchesSliders v := by
  cases e with
  | colorBtnSelected sender =>
    rw [apply, SettingView.slotColor_colorBtnSelected, SettingView.sliderColor_colorBtnSelected]
    exact Iff.rfl
  | colorIsBeingChanged channel value =>
    rw [apply, SettingView.slotColor_colorIsBeingChanged,
      SettingView.sliderColor_colorIsBeingChanged]
    exact iff_of_true rfl trivial
  | didSelectItemAt item =>
    obtain ⟨color, hcolor⟩ := Option.isSome_iff_exists.mp he
    rw [apply, SettingView.didSelectItemAt_of_some hcolor, SettingView.slotColor_changeColor,
      SettingView.sliderColor_changeColor, MatchesSliders, hcolor, Option.some.injEq]
    exact eq_comm
  | pinBtnSelected | segmentChanged | showSettingView | hideSettingView => cases he

theorem apply_leaves (v : SettingView) (e : SettingAction) (he : e.writesColor = false) :
    (e.apply v).sliderColor = (e.apply v).slotColor ↔ v.sliderColor = v.slotColor := by
  cases e with
  | colorBtnSelected | colorIsBeingChanged => cases he
  | didSelectItemAt item =>
    have hnone : Color.colorArray[item]? = none := by simpa [writesColor] using he
    rw [apply, SettingView.didSelectItemAt_of_none hnone]
  | segmentChanged index =>
    dsimp only [apply, SettingView.segmentChanged]
    split <;> exact Iff.rfl
  | pinBtnSelected | showSettingView | hideSettingView => exact Iff.rfl

end SettingAction

/-- In the state any run of a new panel reaches, moving a slider moves one channel exactly when
the last event that wrote the sliders, the selection or the selected colour left the sliders on
that colour; before any such event, when the first slot has the colour the sliders start with. -/
theorem slider_moves_one_channel_iff (theme : Theme ℚ) (pinImage : Option String)
    (es : List SettingAction) :
    (es.foldl SettingAction.apply (SettingView.ofTheme theme pinImage)).MovesOneChannel ↔
      LastWrite.Holds SettingAction.apply SettingAction.writesColor SettingAction.MatchesSliders
        (theme.btn1 = ⟨184 / 255, 184 / 255, 1⟩) (SettingView.ofTheme theme pinImage) es := by
  have hstart : (SettingView.ofTheme theme pinImage).sliderColor =
      (SettingView.ofTheme theme pinImage).slotColor ↔ theme.btn1 = ⟨184 / 255, 184 / 255, 1⟩ := by
    rw [SettingView.sliderColor_ofTheme]
    exact eq_comm
  rw [SettingView.movesOneChannel_iff, ← hstart]
  exact LastWrite.foldl_iff_holds (Q := fun v : SettingView => v.sliderColor = v.slotColor)
    SettingAction.apply_writes SettingAction.apply_leaves _ es

/-- A new panel for the first-launch colours: moving the red slider to 0 lowers green as well. -/
theorem red_slider_lowers_green :
    let theme : Theme ℚ :=
      ⟨Color.color1, Color.rgb255 242 207 20, Color.rgb255 242 175 175⟩
    ¬ (SettingView.ofTheme theme (some "hitoB.png")).MovesOneChannel := by
  intro theme h
  rw [SettingView.movesOneChannel_iff, SettingView.sliderColor_ofTheme] at h
  have hgreen : (184 / 255 : ℚ) = 218 / 255 := congrArg RGB.g h
  norm_num at hgreen

end WatashiMap
