import WatashiMap.Model.Theme

namespace WatashiMap

variable {F : Type} [SwiftCGFloat F]

/-- The strings of the three colours, as a complete `changeSetting` stores them. -/
def Theme.records (theme : Theme F) : List ThemeColor := theme.colorArray.map ThemeColor.ofColor

@[simp] theorem records_length (theme : Theme F) : theme.records.length = 3 := rfl

theorem commit_changeSettingWrites (theme : Theme F) (selectedPin : PinButton) (r : Realm) :
    Crash.commit (changeSettingWrites theme selectedPin) r =
      { r with themeColors := theme.records, userPins := [⟨some selectedPin.pinImage⟩] } := rfl

/-- Every point at which `changeSetting` can be cut: the first commit empties the theme, the
next three refill it in order, the last one swaps the user pin. -/
theorem cut_changeSettingWrites (theme : Theme F) (selectedPin : PinButton) (k : Nat) (r : Realm) :
    Crash.cut (changeSettingWrites theme selectedPin) (k + 1) r =
      { r with
        themeColors := theme.records.take k
        userPins := if 4 ≤ k then [⟨some selectedPin.pinImage⟩] else r.userPins } := by
  match k with
  | 0 | 1 | 2 | 3 => rfl
  | k + 4 =>
    rw [Crash.cut_of_length_le (by simp [changeSettingWrites, Theme.colorArray])]
    simp only [Nat.le_add_left, if_true]
    rfl

/-- The loop fills the slots from `index` on while they last. -/
theorem loadColors_eq (ts : List ThemeColor) (index : Nat) (colors : List (UIColor F))
    (h : index + ts.length ≤ colors.length) :
    loadColors ts index colors =
      some (colors.take index ++ ts.map ThemeColor.color ++ colors.drop (index + ts.length)) := by
  induction ts generalizing index colors with
  | nil => simp [loadColors]
  | cons t ts ih =>
    rw [List.length_cons] at h
    have hi : index < colors.length := by omega
    rw [loadColors, if_pos hi, ih (index + 1) _ (by rw [List.length_set]; omega)]
    have htake : (colors.set index t.color).take (index + 1) =
        colors.take index ++ [t.color] := by
      rw [List.take_add_one, List.take_set_of_le (Nat.le_refl index)]
      simp [hi]
    have hdrop : (colors.set index t.color).drop (index + 1 + ts.length) =
        colors.drop (index + (ts.length + 1)) := by
      rw [List.drop_set_of_lt (by omega)]
      congr 1
      omega
    rw [htake, hdrop]
    simp

theorem loadColors_none (ts : List ThemeColor) (index : Nat) (colors : List (UIColor F))
    (hi : index ≤ colors.length) (h : colors.length < index + ts.length) :
    loadColors ts index colors = none := by
  induction ts generalizing index colors with
  | nil => simp at h; omega
  | cons t ts ih =>
    rw [List.length_cons] at h
    rw [loadColors]
    split_ifs with hlt
    · exact ih (index + 1) _ (by rw [List.length_set]; omega) (by rw [List.length_set]; omega)
    · rfl

/-- The launch reads the stored colours, pads them with unset ones, and takes the defaults for
no colour at all. -/
theorem colorArray_eq {r : Realm} (h : r.themeColors.length ≤ 3) :
    (colorArray r : Option (List (UIColor F))) =
      some (if r.themeColors = [] then defaultColors
        else r.themeColors.map ThemeColor.color ++
          List.replicate (3 - r.themeColors.length) .placeholder) := by
  unfold colorArray
  cases ht : r.themeColors with
  | nil => rfl
  | cons t ts =>
    rw [ht] at h
    rw [if_pos (by rfl), if_neg (List.cons_ne_nil t ts), loadColors_eq _ _ _ (by simpa using h)]
    have hslots : [.placeholder, .placeholder, .placeholder] =
        List.replicate 3 (UIColor.placeholder : UIColor F) := rfl
    rw [List.take_zero, List.nil_append, Nat.zero_add, hslots, List.drop_replicate]

/-- The launch traps exactly when there are more colours than slots. -/
theorem didFinishLaunching_isSome_iff (r : Realm) :
    (didFinishLaunching r : Option (UserSetting F)).isSome ↔ r.themeColors.length ≤ 3 := by
  rw [didFinishLaunching, Option.isSome_map]
  constructor
  · intro h
    by_contra hlt
    unfold colorArray at h
    cases ht : r.themeColors with
    | nil => simp [ht] at hlt
    | cons t ts =>
      rw [ht] at h hlt
      rw [if_pos (by rfl), loadColors_none _ _ _ (by simp) (by simp at hlt ⊢; omega)] at h
      exact absurd h (by simp)
  · intro h
    rw [colorArray_eq h]
    rfl

/-- No theme is stored or a whole one. -/
def Realm.WholeTheme (r : Realm) : Prop := r.themeColors.length = 0 ∨ r.themeColors.length = 3

/-- The launch leaves `UIColor()` in a slot exactly when a part of a theme is stored. -/
theorem theme_isSome_iff {r : Realm} {u : UserSetting F} (hu : didFinishLaunching r = some u) :
    u.theme.isSome ↔ r.WholeTheme := by
  have hle : r.themeColors.length ≤ 3 := (didFinishLaunching_isSome_iff r).mp (by rw [hu]; rfl)
  rw [didFinishLaunching, colorArray_eq hle] at hu
  cases hu
  unfold Realm.WholeTheme
  match h : r.themeColors with
  | [] => simp [UserSetting.launched, UserSetting.theme, defaultColors]
  | [a] => simp [UserSetting.launched, UserSetting.theme, ThemeColor.color]
  | [a, b] => simp [UserSetting.launched, UserSetting.theme, ThemeColor.color]
  | [a, b, c] => simp [UserSetting.launched, UserSetting.theme, ThemeColor.color]
  | a :: b :: c :: d :: ts =>
    rw [h] at hle
    simp only [List.length_cons] at hle
    omega

end WatashiMap
