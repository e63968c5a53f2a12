import WatashiMap.Library.Simulation
import WatashiMap.Model.Numbers
import WatashiMap.Pins.Editing
import WatashiMap.Settings.RoundTrip

namespace WatashiMap

variable {D F : Type}

/-- What the settings panel's Done button leaves in the three colours. -/
def Theme.colors (theme : Theme F) : List (Option (UIColor F)) :=
  theme.colorArray.map fun c => some (.rgb c)

theorem colors_adopt (u : UserSetting F) (theme : Theme F) (selectedPin : PinButton) :
    (u.adopt theme selectedPin).colors = theme.colors := rfl

variable [SwiftCGFloat F]

/-- A colour printed with seven decimals and read again. -/
def UIColor.reloaded : UIColor F → UIColor F
  | .placeholder => .placeholder
  | .rgb c => .rgb c.reloaded

/-- The process has the stored settings: the pin of the user pin record, and the colours as they
were loaded from the records or as they were when the records were written. -/
structure Process.Kept (r : Realm) (p : Process D F) : Prop where
  pinImage : p.userSetting.pinImage = storedPinImage r
  colors : (∃ u : UserSetting F, didFinishLaunching r = some u ∧
      p.userSetting.colors = u.colors) ∨
    ∃ theme : Theme F, r.themeColors = theme.records ∧ p.userSetting.colors = theme.colors

def App.Kept (s : App D F) : Prop := ∀ p, s.process = some p → p.Kept s.realm

theorem kept_pinImage {r : Realm} {u : UserSetting F}
    (h : didFinishLaunching r = some u) : u.pinImage = storedPinImage r := by
  obtain ⟨colors, _, rfl⟩ := Option.map_eq_some_iff.mp h
  rfl

theorem Process.Kept.of_settings {r r' : Realm} {p q : Process D F} (h : p.Kept r)
    (hcolors : q.userSetting.colors = p.userSetting.colors)
    (hpin : q.userSetting.pinImage = p.userSetting.pinImage)
    (hr : r'.themeColors = r.themeColors ∧ r'.userPins = r.userPins) : q.Kept r' := by
  obtain ⟨hthemeColors, huserPins⟩ := hr
  have hstored : storedPinImage r' = storedPinImage r := by
    rw [storedPinImage, storedPinImage, huserPins]
  have hlaunch : (didFinishLaunching r' : Option (UserSetting F)) = didFinishLaunching r := by
    rw [didFinishLaunching, didFinishLaunching, colorArray, colorArray, hstored, hthemeColors]
  constructor
  · rw [hpin, hstored, h.pinImage]
  · rw [hcolors, hlaunch, hthemeColors]
    exact h.colors

variable [SwiftDouble D] [DecidableEq D]

theorem perform_kept {screen : Screen} {r : Realm} {p q : Process D F} {o : Op D F}
    (hp : p.Kept r) (h : o.perform screen r p = some q) :
    q.Kept (Crash.commit (o.writes r p) r) := by
  obtain ho | ⟨theme, selectedPin, rfl⟩ := o.savesSettings_cases
  · obtain ⟨hcolors, hpin⟩ := perform_settings ho h
    exact hp.of_settings hcolors hpin (commit_writes_settings ho)
  · obtain ⟨_, _, rfl⟩ := Process.changeSetting_spec h
    exact ⟨rfl, Or.inr ⟨theme, rfl, colors_adopt p.userSetting theme selectedPin⟩⟩

theorem step_kept {screen : Screen} (s : App D F) (e : Event D F) (t : App D F) (hs : s.Kept)
    (h : App.step screen s e = some t) : t.Kept := by
  refine App.step_invariant App.Kept ?_ ?_ ?_ s e t hs h
  · intro r u vc _ hu _ _ p hp
    cases hp
    exact ⟨kept_pinImage hu, Or.inl ⟨u, hu, rfl⟩⟩
  · intro r p o q hr hq p' hp'
    cases hp'
    exact perform_kept (hr p rfl) hq
  · intro r p o k _ p' hp'
    cases hp'

/-- A new process after a restart: the same pins on the map, the same user pin, the colours as
they were or as they are printed, and nothing of an open form or an outstanding request. -/
structure Process.RestoredBy (p q : Process D F) : Prop where
  pins : (customsOf q.vc.annotations).Perm (customsOf p.vc.annotations)
  pinImage : q.userSetting.pinImage = p.userSetting.pinImage
  colors : q.userSetting.colors = p.userSetting.colors ∨
    q.userSetting.colors = p.userSetting.colors.map (Option.map UIColor.reloaded)
  form : q.vc.editview = .initial ∧ q.userSetting.pinColor = "redpin-1.png"
  marker : q.vc.marker = .initial

omit [SwiftDouble D] [DecidableEq D] in
theorem Process.Kept.colors_launch {r : Realm} {p : Process D F} {u : UserSetting F}
    (h : p.Kept r) (hu : didFinishLaunching r = some u) : u.colors = p.userSetting.colors ∨
      u.colors = p.userSetting.colors.map (Option.map UIColor.reloaded) := by
  rcases h.colors with ⟨u', hu', hcolors⟩ | ⟨theme, htheme, hcolors⟩
  · left
    rw [hu] at hu'
    cases hu'
    exact hcolors.symm
  · right
    rw [launch_saved htheme] at hu
    cases hu
    rw [hcolors]
    rfl

omit [SwiftCGFloat F] [DecidableEq D] in
/-- Two maps that show the same store show the same pins. -/
theorem ViewController.Shows.perm {items : List PinItem} {vc vc' : ViewController D}
    (h : vc.Shows items) (h' : vc'.Shows items) :
    (customsOf vc'.annotations).Perm (customsOf vc.annotations) :=
  (List.map_perm_map_iff record_injective).mp (h'.trans h.symm)

/-- Whenever the process is killed between two operations and the program launched again, the map
shows the same pins and the settings are the same, the colours up to being printed once. -/
theorem restart_restores (screen : Screen) (es : List (Event D F)) (s : App D F)
    (p : Process D F) (h : Machine.run (App.step screen) App.installed es = some s)
    (hp : s.process = some p) :
    ∃ q, Machine.run (App.step screen) s [.kill, .launch] = some ⟨s.realm, some q⟩ ∧
      p.RestoredBy q := by
  obtain ⟨r, _⟩ := s
  cases hp
  have hinv : MapInvariant (⟨r, some p⟩ : App D F) := mapInvariant_of_run h
  have hdead : App.Kept (App.installed : App D F) := by
    intro q hq
    cases hq
  have hkept : p.Kept r := (Machine.always_of_invariant step_kept hdead es).last h p rfl
  have hkill : App.step screen ⟨r, some p⟩ .kill = some ⟨r, none⟩ := rfl
  have hinv' : MapInvariant (⟨r, none⟩ : App D F) := step_mapInvariant _ _ _ hinv hkill
  have hlaunch : (App.step screen ⟨r, none⟩ .launch : Option (App D F)).isSome :=
    (launch_isSome_iff hinv' rfl).mpr (hinv.drawn p rfl).wholeTheme
  obtain ⟨t, ht⟩ := Option.isSome_iff_exists.mp hlaunch
  have hinv'' : MapInvariant t := step_mapInvariant _ _ _ hinv' ht
  obtain ⟨u, vc, hu, _, hvc, rfl⟩ := App.step_launch_iff.mp ht
  refine ⟨⟨u, vc⟩, ?_, ?_⟩
  · rw [Machine.run_cons_of_step hkill, Machine.run_singleton]
    exact ht
  · obtain ⟨_, _, hvc'⟩ := Option.map_eq_some_iff.mp hvc
    constructor
    · exact (hinv.shown p rfl).perm (hinv''.shown _ rfl)
    · rw [kept_pinImage hu, hkept.pinImage]
    · exact hkept.colors_launch hu
    · exact ⟨by rw [← hvc']; rfl, didFinishLaunching_pinColor hu⟩
    · rw [← hvc']
      rfl

/-- A pin and a theme, saved before the restart. -/
theorem saved_theme_is_restored :
    let screen : Screen := ⟨375, 667⟩
    let black : Theme SevenDecimals := ⟨⟨⟨0⟩, ⟨0⟩, ⟨0⟩⟩, ⟨⟨0⟩, ⟨0⟩, ⟨0⟩⟩, ⟨⟨0⟩, ⟨0⟩, ⟨0⟩⟩⟩
    let es : List (Event WholeDegrees SevenDecimals) :=
      [.launch, .op (.mapLongPressed ⟨⟨36⟩, ⟨140⟩⟩), .op .showEditView, .op (.editTitle "park"),
        .op .create, .op (.changeSetting black .btnP)]
    ∃ s p q, Machine.run (App.step screen) App.installed es = some s ∧ s.process = some p ∧
      Machine.run (App.step screen) s [.kill, .launch] = some ⟨s.realm, some q⟩ ∧
      p.RestoredBy q := by
  intro screen black es
  have hrun : ((Machine.run (App.step screen) App.installed es).bind App.process).isSome := by
    decide
  obtain ⟨p, hp⟩ := Option.isSome_iff_exists.mp hrun
  obtain ⟨s, hs, hp⟩ := Option.bind_eq_some_iff.mp hp
  obtain ⟨q, hq, hpq⟩ := restart_restores screen es s p hs hp
  exact ⟨s, p, q, hs, hp, hq, hpq⟩

end WatashiMap
