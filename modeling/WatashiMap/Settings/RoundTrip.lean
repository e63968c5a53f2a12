import WatashiMap.Model.Decimals
import WatashiMap.Model.SettingView
import WatashiMap.Settings.Loader

namespace WatashiMap

open SwiftCGFloat

section

variable {F : Type} [SwiftCGFloat F]

/-- The colour a launch reads from the strings of a saved one. -/
def RGB.reloaded (c : RGB F) : RGB F :=
  ⟨floatValue (format7 c.r), floatValue (format7 c.g), floatValue (format7 c.b)⟩

def Theme.reloaded (theme : Theme F) : Theme F :=
  ⟨theme.btn1.reloaded, theme.btn2.reloaded, theme.btn3.reloaded⟩

/-- A launch after a complete save finds the three colours in their slots. -/
theorem launch_saved {theme : Theme F} {r : Realm} (h : r.themeColors = theme.records) :
    didFinishLaunching r = some (UserSetting.launched
      (theme.reloaded.colorArray.map .rgb) (storedPinImage r)) := by
  rw [didFinishLaunching, colorArray_eq (by rw [h, records_length]), h]
  rfl

end

variable [conversions : SwiftCGFloat ℚ]

/-- Launch, open the settings, and save them without an edit. -/
def Realm.cycle (r : Realm) : Option Realm := do
  let userSetting ← didFinishLaunching r
  let settingView ← SettingView.initFrame userSetting
  return Crash.commit (changeSettingWrites settingView.theme settingView.selectedPin) r

def Realm.cycles : Nat → Realm → Option Realm
  | 0, r => some r
  | n + 1, r => r.cycle.bind (Realm.cycles n)

def RGB.Near (c saved : RGB ℚ) : Prop :=
  ∀ channel, |c.get channel - saved.get channel| ≤ 5 / 10 ^ 8 + 1 / 2 ^ 25

structure UserSetting.LoadsNear (theme : Theme ℚ) (u : UserSetting ℚ) : Prop where
  color1 : ∃ c, u.color1 = some (.rgb c) ∧ c.Near theme.btn1
  color2 : ∃ c, u.color2 = some (.rgb c) ∧ c.Near theme.btn2
  color3 : ∃ c, u.color3 = some (.rgb c) ∧ c.Near theme.btn3

/-- A component is read back nearly, and printed again as it was. -/
theorem component_round_trip (h : DecimalConversions conversions) {x : ℚ}
    (hx : x ∈ Set.Icc 0 1) :
    |(floatValue (format7 x) : ℚ) - x| ≤ 5 / 10 ^ 8 + 1 / 2 ^ 25 ∧
      format7 (floatValue (format7 x) : ℚ) = format7 x := by
  have hstep : (0 : ℚ) < 1 / 10 ^ 7 := by norm_num
  have hδ : (1 / 2 ^ 25 : ℚ) < 1 / 10 ^ 7 / 2 := by norm_num
  have hn : x ≤ ((10 ^ 7 : ℤ) : ℚ) * (1 / 10 ^ 7) := by
    have hone : ((10 ^ 7 : ℤ) : ℚ) * (1 / 10 ^ 7) = 1 := by norm_num
    rw [hone]
    exact hx.2
  have hhalf : (1 / 10 ^ 7 / 2 + 1 / 2 ^ 25 : ℚ) = 5 / 10 ^ 8 + 1 / 2 ^ 25 := by norm_num
  rw [← hhalf]
  exact ⟨h.decode_close hstep hx.1 hn, h.encode_decode hstep hδ hx.1 hn⟩

theorem reloaded_near (h : DecimalConversions conversions) {c : RGB ℚ} (hc : c.InRange) :
    c.reloaded.Near c := by
  intro channel
  cases channel with
  | red => exact (component_round_trip h (hc .red)).1
  | green => exact (component_round_trip h (hc .green)).1
  | blue => exact (component_round_trip h (hc .blue)).1

theorem ofColor_reloaded (h : DecimalConversions conversions) {c : RGB ℚ} (hc : c.InRange) :
    ThemeColor.ofColor c.reloaded = ThemeColor.ofColor c := by
  simp only [ThemeColor.ofColor, RGB.reloaded, ThemeColor.mk.injEq, Option.some.injEq]
  exact ⟨(component_round_trip h (hc .red)).2, (component_round_trip h (hc .green)).2,
    (component_round_trip h (hc .blue)).2⟩

/-- The nine strings of a reloaded theme are those of the theme. -/
theorem records_reloaded (h : DecimalConversions conversions) {theme : Theme ℚ}
    (htheme : ∀ c ∈ theme.colorArray, c.InRange) : theme.reloaded.records = theme.records := by
  have hreload (c : RGB ℚ) (hc : c ∈ theme.colorArray) :
      ThemeColor.ofColor c.reloaded = ThemeColor.ofColor c := ofColor_reloaded h (htheme c hc)
  have hmap : theme.reloaded.colorArray = theme.colorArray.map RGB.reloaded := rfl
  rw [Theme.records, hmap, List.map_map]
  exact List.map_congr_left hreload

theorem cycle_keeps (h : DecimalConversions conversions) {theme : Theme ℚ}
    (htheme : ∀ c ∈ theme.colorArray, c.InRange) {r : Realm} (hr : r.themeColors = theme.records) :
    ∃ t, r.cycle = some t ∧ t.themeColors = theme.records := by
  have hcycle : r.cycle = some (Crash.commit (changeSettingWrites theme.reloaded
      (SettingView.pinButton (storedPinImage r))) r) := by
    rw [Realm.cycle, launch_saved hr]
    rfl
  refine ⟨_, hcycle, ?_⟩
  rw [commit_changeSettingWrites]
  exact records_reloaded h htheme

theorem cycles_keep (h : DecimalConversions conversions) {theme : Theme ℚ}
    (htheme : ∀ c ∈ theme.colorArray, c.InRange) (n : Nat) {r : Realm}
    (hr : r.themeColors = theme.records) :
    ∃ t, r.cycles n = some t ∧ t.themeColors = theme.records := by
  induction n generalizing r with
  | zero => exact ⟨r, rfl, hr⟩
  | succ n ih =>
    obtain ⟨u, hu, hrecords⟩ := cycle_keeps h htheme hr
    rw [Realm.cycles, hu, Option.bind_some]
    exact ih hrecords

/-- Three colours with components between 0 and 1, saved completely, are loaded nearly as they
were by the next launch, and every further cycle writes the same strings in the same slots. -/
theorem saved_theme_round_trips (h : DecimalConversions conversions) (theme : Theme ℚ)
    (htheme : ∀ c ∈ theme.colorArray, c.InRange) (selectedPin : PinButton) (r : Realm) :
    let saved := Crash.commit (changeSettingWrites theme selectedPin) r
    (∃ u, didFinishLaunching saved = some u ∧ u.LoadsNear theme) ∧
      ∀ n, ∃ t, saved.cycles n = some t ∧ t.themeColors = saved.themeColors := by
  intro saved
  have hsaved : saved.themeColors = theme.records := rfl
  constructor
  · refine ⟨_, launch_saved hsaved, ?_, ?_, ?_⟩
    · exact ⟨_, rfl, reloaded_near h (htheme theme.btn1 (by simp [Theme.colorArray]))⟩
    · exact ⟨_, rfl, reloaded_near h (htheme theme.btn2 (by simp [Theme.colorArray]))⟩
    · exact ⟨_, rfl, reloaded_near h (htheme theme.btn3 (by simp [Theme.colorArray]))⟩
  · intro n
    exact cycles_keep h htheme n hsaved

omit conversions in
theorem rgb255_inRange {r g b : ℚ} (hr : r ∈ Set.Icc 0 255) (hg : g ∈ Set.Icc 0 255)
    (hb : b ∈ Set.Icc 0 255) : (Color.rgb255 r g b).InRange := by
  have hdiv {x : ℚ} (hx : x ∈ Set.Icc 0 255) : x / 255 ∈ Set.Icc 0 1 := by
    obtain ⟨h0, h255⟩ := hx
    exact ⟨by positivity, (div_le_one (by norm_num)).mpr h255⟩
  intro channel
  cases channel with
  | red => exact hdiv hr
  | green => exact hdiv hg
  | blue => exact hdiv hb

omit conversions in
/-- The first-launch colours, saved with seven decimals and read back in single precision. -/
theorem default_theme_round_trips :
    let theme : Theme ℚ :=
      ⟨Color.color1, Color.rgb255 242 207 20, Color.rgb255 242 175 175⟩
    letI : SwiftCGFloat ℚ := singleDecimals
    let saved := Crash.commit (changeSettingWrites theme .btnY) Realm.empty
    (∃ u, didFinishLaunching saved = some u ∧ u.LoadsNear theme) ∧
      ∀ n, ∃ t, saved.cycles n = some t ∧ t.themeColors = saved.themeColors := by
  intro theme
  refine @saved_theme_round_trips singleDecimals singleDecimals_conversions theme ?_ .btnY .empty
  intro c hc
  simp only [Theme.colorArray, List.mem_cons, List.not_mem_nil, or_false] at hc
  rcases hc with rfl | rfl | rfl
  · exact rgb255_inRange (by norm_num) (by norm_num) (by norm_num)
  · exact rgb255_inRange (by norm_num) (by norm_num) (by norm_num)
  · exact rgb255_inRange (by norm_num) (by norm_num) (by norm_num)

end WatashiMap
