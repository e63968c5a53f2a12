import WatashiMap.Model.Numbers
import WatashiMap.Settings.Loader

namespace WatashiMap

variable {F : Type}

theorem launched_eq_iff {as bs : List (UIColor F)} (ha : as.length = 3) (hb : bs.length = 3)
    (p q : Option String) :
    UserSetting.launched as p = UserSetting.launched bs q ↔ as = bs ∧ p = q := by
  constructor
  · intro h
    simp only [UserSetting.launched, UserSetting.mk.injEq, true_and] at h
    refine ⟨List.ext_getElem? fun i => ?_, h.2.2.2⟩
    obtain _ | _ | _ | i := i
    · exact h.1
    · exact h.2.1
    · exact h.2.2.1
    · rw [List.getElem?_eq_none (by omega), List.getElem?_eq_none (by omega)]
  · intro h
    obtain ⟨rfl, rfl⟩ := h
    rfl

variable [SwiftCGFloat F]

/-- The colours a launch reads back after a complete save of `theme`. -/
def Theme.loadedColors (theme : Theme F) : List (UIColor F) :=
  theme.records.map ThemeColor.color

/-- A settings state on disk: never written, or written by a complete `changeSetting`. -/
def settled (r : Realm) : Option (Theme F × PinButton) → Realm
  | none => { r with themeColors := [], userPins := [] }
  | some (theme, selectedPin) => Crash.commit (changeSettingWrites theme selectedPin) r

/-- The colours and the pin a launch from a settled state shows. -/
def settledColors : Option (Theme F × PinButton) → List (UIColor F)
  | none => defaultColors
  | some (theme, _) => theme.loadedColors

omit [SwiftCGFloat F] in
def settledPin : Option (Theme F × PinButton) → String
  | none => "hitoB.png"
  | some (_, selectedPin) => selectedPin.pinImage

theorem settledColors_length (old : Option (Theme F × PinButton)) :
    (settledColors old).length = 3 := by
  cases old <;> rfl

/-- No colour of a settled state is unset. -/
theorem settledColors_set (old : Option (Theme F × PinButton)) :
    .placeholder ∉ settledColors old := by
  cases old with
  | none => simp [settledColors, defaultColors]
  | some saved => simp [settledColors, Theme.loadedColors, ThemeColor.color]

theorem launch_settled (r : Realm) (old : Option (Theme F × PinButton)) :
    didFinishLaunching (settled r old) =
      some (UserSetting.launched (settledColors old) (some (settledPin old))) := by
  cases old with
  | none => rfl
  | some saved =>
    rw [didFinishLaunching, settled, colorArray_eq (by rw [commit_changeSettingWrites]; rfl)]
    rfl

/-- The first `k` of three saved colours fill the first `k` slots. -/
theorem loaded_take (theme : Theme F) (k : Nat) :
    (if theme.records.take k = [] then defaultColors
      else (theme.records.take k).map ThemeColor.color ++
        List.replicate (3 - (theme.records.take k).length) .placeholder) =
      if k = 0 then defaultColors
      else theme.loadedColors.take k ++ List.replicate (3 - k) (.placeholder : UIColor F) := by
  cases k with
  | zero => rfl
  | succ k =>
    have hne : theme.records.take (k + 1) ≠ [] := by
      simp [Theme.records, Theme.colorArray]
    have hpad : 3 - (theme.records.take (k + 1)).length = 3 - (k + 1) := by
      rw [List.length_take, records_length]
      omega
    rw [if_neg hne, if_neg (Nat.succ_ne_zero k), hpad, List.map_take]
    rfl

/-- What the launch finds after `k + 1` of the five transactions. -/
theorem launch_cut (r : Realm) (old : Option (Theme F × PinButton)) (theme : Theme F)
    (selectedPin : PinButton) (k : Nat) :
    didFinishLaunching (Crash.cut (changeSettingWrites theme selectedPin) (k + 1)
        (settled r old)) =
      some (UserSetting.launched
        (if k = 0 then defaultColors
          else theme.loadedColors.take k ++ List.replicate (3 - k) .placeholder)
        (some (if 4 ≤ k then selectedPin.pinImage else settledPin old))) := by
  rw [cut_changeSettingWrites, didFinishLaunching, colorArray_eq (by simp), Option.map_some]
  have hpin : storedPinImage
      { settled r old with
        themeColors := theme.records.take k
        userPins := if 4 ≤ k then [⟨some selectedPin.pinImage⟩] else (settled r old).userPins } =
      some (if 4 ≤ k then selectedPin.pinImage else settledPin old) := by
    by_cases hk : 4 ≤ k
    · simp [storedPinImage, hk]
    · cases old <;> simp [storedPinImage, hk, settled, commit_changeSettingWrites, settledPin]
  rw [hpin]
  exact congrArg (fun c => some (UserSetting.launched c _)) (loaded_take theme k)

/-- The launch after a kill that let `k` transactions of `changeSetting` through shows the old
settings or the new ones. -/
def AllOrNothing (r : Realm) (old : Option (Theme F × PinButton)) (theme : Theme F)
    (selectedPin : PinButton) (k : Nat) : Prop :=
  let writes := changeSettingWrites theme selectedPin
  let crashed : Option (UserSetting F) :=
    didFinishLaunching (Crash.cut writes k (settled r old))
  crashed = didFinishLaunching (settled r old) ∨
    crashed = didFinishLaunching (Crash.commit writes (settled r old))

theorem launch_cut_eq_settled_iff (r : Realm) (old other : Option (Theme F × PinButton))
    (theme : Theme F) (selectedPin : PinButton) (k : Nat) :
    (didFinishLaunching (Crash.cut (changeSettingWrites theme selectedPin) (k + 1)
        (settled r old)) : Option (UserSetting F)) = didFinishLaunching (settled r other) ↔
      (if k = 0 then defaultColors
        else theme.loadedColors.take k ++ List.replicate (3 - k) .placeholder) =
          settledColors other ∧
      (if 4 ≤ k then selectedPin.pinImage else settledPin old) = settledPin other := by
  have hlength : (if k = 0 then defaultColors
      else theme.loadedColors.take k ++
        List.replicate (3 - k) (.placeholder : UIColor F)).length = 3 := by
    split_ifs
    · rfl
    · simp [Theme.loadedColors]
      omega
  rw [launch_cut, launch_settled, Option.some.injEq,
    launched_eq_iff hlength (settledColors_length other), Option.some.injEq]

/-- A colour array with an unset slot is that of no settled state. -/
theorem padded_ne_settled (colors : List (UIColor F)) {k : Nat} (hk : 0 < k)
    (other : Option (Theme F × PinButton)) :
    colors ++ List.replicate k .placeholder ≠ settledColors other := by
  intro h
  apply settledColors_set other
  rw [← h]
  exact List.mem_append_right colors (List.mem_replicate.mpr ⟨by omega, rfl⟩)

theorem allOrNothing_succ_iff (r : Realm) (old : Option (Theme F × PinButton)) (theme : Theme F)
    (selectedPin : PinButton) (k : Nat) :
    AllOrNothing r old theme selectedPin (k + 1) ↔
      let colors := if k = 0 then defaultColors
        else theme.loadedColors.take k ++ List.replicate (3 - k) .placeholder
      let pin := if 4 ≤ k then selectedPin.pinImage else settledPin old
      (colors = settledColors old ∧ pin = settledPin old) ∨
        (colors = theme.loadedColors ∧ pin = selectedPin.pinImage) := by
  have hnew : (didFinishLaunching (Crash.commit (changeSettingWrites theme selectedPin)
      (settled r old)) : Option (UserSetting F)) =
        didFinishLaunching (settled r (some (theme, selectedPin))) := by
    rw [launch_settled]
    exact launch_settled (settled r old) (some (theme, selectedPin))
  dsimp only [AllOrNothing]
  rw [hnew, launch_cut_eq_settled_iff, launch_cut_eq_settled_iff]
  rfl

/-- A save cut short is all or nothing exactly when nothing or everything was committed, when
the first-launch colours that show after the delete are the old ones (or the new ones, with the
pin unchanged), or when before the last transaction the new colours or the new pin are the old
ones. -/
theorem interrupted_save_iff (r : Realm) (old : Option (Theme F × PinButton)) (theme : Theme F)
    (selectedPin : PinButton) (k : Nat) :
    AllOrNothing r old theme selectedPin k ↔
      k = 0 ∨ 5 ≤ k ∨
      (k = 1 ∧ (settledColors old = defaultColors ∨
        theme.loadedColors = defaultColors ∧ selectedPin.pinImage = settledPin old)) ∨
      (k = 4 ∧ (theme.loadedColors = settledColors old ∨
        selectedPin.pinImage = settledPin old)) := by
  have htake (k : Nat) (hk : 3 ≤ k) : theme.loadedColors.take k = theme.loadedColors :=
    List.take_of_length_le (by simpa [Theme.loadedColors] using hk)
  match k with
  | 0 => exact iff_of_true (Or.inl rfl) (Or.inl rfl)
  | 1 =>
    -- the theme is gone: the launch falls back to the first-launch colours
    have h : AllOrNothing r old theme selectedPin 1 ↔
        (defaultColors = settledColors old ∧ settledPin old = settledPin old) ∨
          (defaultColors = theme.loadedColors ∧ settledPin old = selectedPin.pinImage) :=
      allOrNothing_succ_iff r old theme selectedPin 0
    rw [h]
    constructor
    · intro hsame
      rcases hsame with ⟨hc, _⟩ | ⟨hc, hp⟩
      · exact Or.inr (Or.inr (Or.inl ⟨rfl, Or.inl hc.symm⟩))
      · exact Or.inr (Or.inr (Or.inl ⟨rfl, Or.inr ⟨hc.symm, hp.symm⟩⟩))
    · intro hk
      rcases hk with h | h | ⟨_, hc | ⟨hc, hp⟩⟩ | ⟨h, _⟩
      · omega
      · omega
      · exact Or.inl ⟨hc.symm, rfl⟩
      · exact Or.inr ⟨hc.symm, hp.symm⟩
      · omega
  | 2 | 3 =>
    -- some slots are unset, which is neither outcome
    rw [allOrNothing_succ_iff]
    refine iff_of_false ?_ (by simp)
    intro hsame
    rcases hsame with ⟨hc, _⟩ | ⟨hc, _⟩
    · exact padded_ne_settled _ (by decide) old hc
    · exact padded_ne_settled _ (by decide) (some (theme, selectedPin)) hc
  | 4 =>
    -- the new colours with the old pin
    have h : AllOrNothing r old theme selectedPin 4 ↔
        (theme.loadedColors = settledColors old ∧ settledPin old = settledPin old) ∨
          (theme.loadedColors = theme.loadedColors ∧ settledPin old = selectedPin.pinImage) :=
      allOrNothing_succ_iff r old theme selectedPin 3
    rw [h]
    constructor
    · intro hsame
      rcases hsame with ⟨hc, _⟩ | ⟨_, hp⟩
      · exact Or.inr (Or.inr (Or.inr ⟨rfl, Or.inl hc⟩))
      · exact Or.inr (Or.inr (Or.inr ⟨rfl, Or.inr hp.symm⟩))
    · intro hk
      rcases hk with h | h | ⟨h, _⟩ | ⟨_, hc | hp⟩
      · omega
      · omega
      · omega
      · exact Or.inl ⟨hc, rfl⟩
      · exact Or.inr ⟨rfl, hp.symm⟩
  | k + 5 =>
    have hnone : 3 - (k + 4) = 0 := by omega
    rw [allOrNothing_succ_iff]
    refine iff_of_true (Or.inr ⟨?_, ?_⟩) (Or.inr (Or.inl (by omega)))
    · rw [if_neg (by omega), htake (k + 4) (by omega), hnone, List.replicate_zero,
        List.append_nil]
    · rw [if_pos (by omega)]

/-- Half of all three components saved with the yellow pin, then a save of black with the pink
pin that is killed after its first transaction. -/
theorem interrupted_save_shows_defaults :
    let half : RGB SevenDecimals := ⟨⟨5000000⟩, ⟨5000000⟩, ⟨5000000⟩⟩
    let black : RGB SevenDecimals := ⟨⟨0⟩, ⟨0⟩, ⟨0⟩⟩
    ¬ AllOrNothing .empty (some (⟨half, half, half⟩, .btnY)) ⟨black, black, black⟩ .btnP 1 := by
  intro half black
  unfold AllOrNothing
  decide

end WatashiMap
