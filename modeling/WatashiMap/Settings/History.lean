import WatashiMap.Library.Machine
import WatashiMap.Settings.Loader

namespace WatashiMap

/-- A `changeSetting` of which `committed` transactions got through before a kill (all five
when there was none), or a launch. -/
inductive SettingEvent (F : Type) where
  | changeSetting (theme : Theme F) (selectedPin : PinButton) (committed : Nat)
  | launch
  deriving DecidableEq

/-- The store and the colours of the last `changeSetting` that committed its delete. -/
structure SettingHistory (F : Type) where
  realm : Realm
  lastTheme : Option (Theme F)

variable {F : Type} [SwiftCGFloat F]

/-- `none` is a launch that runs past the colour slots. -/
def SettingHistory.step (s : SettingHistory F) : SettingEvent F → Option (SettingHistory F)
  | .changeSetting theme selectedPin committed =>
      some
        { realm := Crash.cut (changeSettingWrites theme selectedPin) committed s.realm
          lastTheme := if 0 < committed then some theme else s.lastTheme }
  | .launch => (didFinishLaunching s.realm : Option (UserSetting F)).map fun _ => s

/-- The stored colours are a prefix of the last theme's. -/
structure SettingHistory.Bounded (s : SettingHistory F) : Prop where
  themePrefix : match s.lastTheme with
    | some theme => s.realm.themeColors <+: theme.records
    | none => s.realm.themeColors = []
  themeColors_le : s.realm.themeColors.length ≤ 3
  userPins_le : s.realm.userPins.length ≤ 1

theorem cut_bounded {s : SettingHistory F} (h : s.Bounded) (theme : Theme F)
    (selectedPin : PinButton) (committed : Nat) :
    SettingHistory.Bounded
      { realm := Crash.cut (changeSettingWrites theme selectedPin) committed s.realm
        lastTheme := if 0 < committed then some theme else s.lastTheme } := by
  cases committed with
  | zero => exact h
  | succ k =>
    rw [cut_changeSettingWrites]
    refine ⟨?_, ?_, ?_⟩
    · exact List.take_prefix k theme.records
    · simp
    · dsimp only
      split
      · simp
      · exact h.userPins_le

theorem SettingHistory.step_bounded (s : SettingHistory F) (e : SettingEvent F)
    (t : SettingHistory F) (h : s.Bounded) (ht : s.step e = some t) : t.Bounded := by
  cases e with
  | changeSetting theme selectedPin committed =>
    cases ht
    exact cut_bounded h theme selectedPin committed
  | launch =>
    obtain ⟨_, _, rfl⟩ := Option.map_eq_some_iff.mp ht
    exact h

theorem SettingHistory.step_isSome (s : SettingHistory F) (e : SettingEvent F)
    (h : s.Bounded) : (s.step e).isSome := by
  cases e with
  | changeSetting theme selectedPin committed => rfl
  | launch =>
    rw [step, Option.isSome_map]
    exact (didFinishLaunching_isSome_iff s.realm).mpr h.themeColors_le

/-- Over every history of complete and interrupted saves and of launches from an empty store,
the stored colours are at most three, in order a prefix of those of the last save that
committed its delete, there is at most one user pin, and no launch traps. -/
theorem launch_never_past_slots (es : List (SettingEvent F)) :
    ∃ t : SettingHistory F, Machine.run SettingHistory.step ⟨.empty, none⟩ es = some t ∧
      t.Bounded ∧ (didFinishLaunching t.realm : Option (UserSetting F)).isSome := by
  have hempty : SettingHistory.Bounded (⟨.empty, none⟩ : SettingHistory F) :=
    ⟨rfl, Nat.zero_le 3, Nat.zero_le 1⟩
  obtain ⟨t, ht, hb⟩ := Machine.exists_run_of_invariant SettingHistory.step_bounded
    SettingHistory.step_isSome hempty es
  exact ⟨t, ht, hb, (didFinishLaunching_isSome_iff t.realm).mpr hb.themeColors_le⟩

end WatashiMap
