import WatashiMap.Library.LastWrite
import WatashiMap.Library.Simulation
import WatashiMap.Pins.Mirror
import WatashiMap.Settings.Preview
import WatashiMap.Settings.RoundTrip

namespace WatashiMap

namespace SettingAction

/-- The actions taken from `v`, each with the panel it found. -/
def history (v : SettingView) (as : List SettingAction) : List (SettingView × SettingAction) :=
  Machine.trace (fun v a => some (apply v a)) v as

/-- The colour an action gives the button: the new colour, if the button is the selected one. -/
def paints (btn : ColorButton) : SettingView × SettingAction → Option (RGB ℚ)
  | (v, a) => if v.slot = btn then a.newColor v else none

def pressedPin : SettingAction → Option PinButton
  | .pinBtnSelected sender => some sender
  | _ => none

theorem color_onChoice {v : SettingView} {c : Choice} (h : v.Shows c) (a : SettingAction)
    (btn : ColorButton) : (a.onChoice v c).color btn = (paints btn (v, a)).getD (c.color btn) := by
  dsimp only [paints]
  rw [h.slot_eq]
  have hpaint (color : RGB ℚ) : (c.paint color).color btn =
      (if c.slot = btn then some color else none).getD (c.color btn) := by
    dsimp only [Choice.paint]
    by_cases hbtn : c.slot = btn
    · subst hbtn
      rw [if_pos rfl, Function.update_self, Option.getD_some]
    · rw [if_neg hbtn, Function.update_of_ne (Ne.symm hbtn), Option.getD_none]
  cases a with
  | didSelectItemAt item =>
    dsimp only [onChoice, newColor]
    cases Color.colorArray[item]? with
    | some color => exact hpaint color
    | none => simp
  | colorIsBeingChanged channel value => exact hpaint _
  | pinBtnSelected | colorBtnSelected | segmentChanged | showSettingView | hideSettingView =>
    simp [onChoice, newColor]

theorem pin_onChoice (v : SettingView) (c : Choice) (a : SettingAction) :
    (a.onChoice v c).pin = a.pressedPin.getD c.pin := by
  cases a with
  | pinBtnSelected | colorBtnSelected => rfl
  | _ =>
    dsimp only [onChoice]
    split <;> rfl

/-- After a run of actions a button has the colour that was chosen last while it was selected. -/
theorem color_choiceAfter {v : SettingView} {c : Choice} (h : v.Shows c) (as : List SettingAction)
    (btn : ColorButton) :
    (choiceAfter v c as).color btn = LastWrite.value (paints btn) (c.color btn) (history v as) := by
  induction as generalizing v c with
  | nil => rfl
  | cons a as ih =>
    rw [choiceAfter, ih (apply_shows h a), color_onChoice h]
    exact (LastWrite.value_cons _ _ _ _).symm

theorem pin_choiceAfter (v : SettingView) (c : Choice) (as : List SettingAction) :
    (choiceAfter v c as).pin = LastWrite.value pressedPin c.pin as := by
  induction as generalizing v c with
  | nil => rfl
  | cons a as ih => rw [choiceAfter, ih, pin_onChoice, LastWrite.value_cons]

end SettingAction

open SettingAction

theorem pinButton_pinImage (btn : PinButton) :
    SettingView.pinButton (some btn.pinImage) = btn := by
  cases btn <;> rfl

variable [SwiftCGFloat ℚ]

/-- A panel that offers what was chosen last in an earlier one: for each colour button the colour
as it is read back from its three strings, on the button and in the preview, and the pin. -/
structure SettingView.Offers (v : SettingView) (as : List SettingAction) (w : SettingView) :
    Prop where
  color : ∀ btn, (w.colorBtn btn).backgroundColor =
    (LastWrite.value (paints btn) (v.colorBtn btn).backgroundColor (history v as)).reloaded
  preview : ∀ btn, w.preview btn = (w.colorBtn btn).backgroundColor
  pin : w.selectedPin = LastWrite.value pressedPin v.selectedPin as

/-- The panel of the next launch, from the settings an earlier panel saved. -/
theorem offers_of_launch {u : UserSetting ℚ} {v : SettingView}
    (h : SettingView.initFrame u = some v) (as : List SettingAction) {r : Realm}
    (hcolors : r.themeColors = (as.foldl apply v).theme.records)
    (hpins : r.userPins = [⟨some (as.foldl apply v).selectedPin.pinImage⟩]) :
    ∃ u' w, didFinishLaunching r = some u' ∧ SettingView.initFrame u' = some w ∧
      v.Offers as w := by
  obtain ⟨c, hv⟩ := SettingView.initFrame_shows h
  have hafter := foldl_apply_shows hv as
  have hpin : storedPinImage r = some (as.foldl apply v).selectedPin.pinImage := by
    rw [storedPinImage, hpins]
    rfl
  have hreloaded : ∀ btn, ((SettingView.ofTheme (as.foldl apply v).theme.reloaded
      (storedPinImage r)).colorBtn btn).backgroundColor =
        ((as.foldl apply v).colorBtn btn).backgroundColor.reloaded := by
    intro btn
    cases btn <;> rfl
  refine ⟨_, _, launch_saved hcolors, rfl, ?_, ?_, ?_⟩
  · intro btn
    rw [hv.backgroundColor, ← color_choiceAfter hv, ← hafter.backgroundColor]
    exact hreloaded btn
  · intro btn
    cases btn <;> rfl
  · have hselected : LastWrite.value pressedPin v.selectedPin as =
        (as.foldl apply v).selectedPin := by
      rw [hv.selectedPin, ← pin_choiceAfter v, hafter.selectedPin]
    rw [hselected, ← pinButton_pinImage (as.foldl apply v).selectedPin, ← hpin]
    rfl

variable {D : Type} [SwiftDouble D] [DecidableEq D]

/-- Whatever state the program is in and whatever is done in its settings panel, in any order of
buttons, palette and sliders: once saved, and the process killed and launched again, the new panel
offers for each button the colour chosen last while that button was selected, and the pin pressed
last. -/
theorem chosen_settings_come_back (screen : Screen) (es : List (Event D ℚ)) (s : App D ℚ)
    (p : Process D ℚ) (u : UserSetting ℚ) (v : SettingView) (as : List SettingAction)
    (h : Machine.run (App.step screen) App.installed es = some s) (hp : s.process = some p)
    (hv : SettingView.initFrame u = some v) :
    ∃ t q w, Machine.run (App.step screen) s
        [.op (.changeSetting (as.foldl apply v).theme (as.foldl apply v).selectedPin), .kill,
          .launch] = some t ∧ t.process = some q ∧
      SettingView.initFrame q.userSetting = some w ∧ v.Offers as w := by
  obtain ⟨r, _⟩ := s
  cases hp
  have hinv : MapInvariant (⟨r, some p⟩ : App D ℚ) := mapInvariant_of_run h
  let o : Op D ℚ := .changeSetting (as.foldl apply v).theme (as.foldl apply v).selectedPin
  let saved := Crash.commit (o.writes r p) r
  have hsave : (App.step screen ⟨r, some p⟩ (.op o)).isSome :=
    step_isSome hinv (.op o) rfl (by simp)
  obtain ⟨t₁, ht₁⟩ := Option.isSome_iff_exists.mp hsave
  have hinv₁ := step_mapInvariant _ _ _ hinv ht₁
  obtain ⟨q₁, _, rfl⟩ := App.step_op ht₁
  have hkill : App.step screen ⟨saved, some q₁⟩ .kill = some ⟨saved, none⟩ := rfl
  obtain ⟨u', w, hu', hw, hoffers⟩ := offers_of_launch hv as (r := saved) rfl rfl
  have htheme : u'.theme.isSome := by
    rw [SettingView.initFrame_eq] at hw
    obtain ⟨theme, htheme, _⟩ := Option.map_eq_some_iff.mp hw
    rw [htheme]
    rfl
  obtain ⟨vc, hvc⟩ := Option.isSome_iff_exists.mp
    (viewDidLoad_isSome hinv₁.wellFormed ViewController.initial)
  refine ⟨⟨saved, some ⟨u', vc⟩⟩, ⟨u', vc⟩, w, ?_, rfl, hw, hoffers⟩
  rw [Machine.run_cons_of_step ht₁, Machine.run_cons_of_step hkill, Machine.run_singleton]
  exact App.step_launch_iff.mpr ⟨u', vc, hu', htheme, hvc, rfl⟩

omit [SwiftCGFloat ℚ] in
/-- The second button's colour is picked twice and the first one's red moved; then the pin. -/
theorem picked_settings_come_back :
    letI : SwiftCGFloat ℚ := singleDecimals
    let screen : Screen := ⟨375, 667⟩
    let theme : Theme ℚ :=
      ⟨Color.color1, Color.rgb255 242 207 20, Color.rgb255 242 175 175⟩
    let v : SettingView := .ofTheme theme (some "hitoB.png")
    let as : List SettingAction :=
      [.colorBtnSelected .btn2, .didSelectItemAt 4, .didSelectItemAt 7, .colorBtnSelected .btn1,
        .colorIsBeingChanged .red ⟨0, Set.left_mem_Icc.mpr zero_le_one⟩, .pinBtnSelected .btnP]
    ∃ s t : App WholeDegrees ℚ, ∃ q w,
      Machine.run (App.step screen) App.installed [.launch] = some s ∧
      Machine.run (App.step screen) s
        [.op (.changeSetting (as.foldl apply v).theme (as.foldl apply v).selectedPin), .kill,
          .launch] = some t ∧ t.process = some q ∧
      SettingView.initFrame q.userSetting = some w ∧ v.Offers as w := by
  let _ : SwiftCGFloat ℚ := singleDecimals
  intro screen theme v as
  obtain ⟨t, q, w, ht, hq, hw, hoffers⟩ := chosen_settings_come_back (D := WholeDegrees) screen
    [.launch] _ _ (.launched (theme.colorArray.map .rgb) (some "hitoB.png")) v as rfl rfl rfl
  exact ⟨_, t, q, w, rfl, ht, hq, hw, hoffers⟩

end WatashiMap
