import WatashiMap.Model.App
import WatashiMap.Model.Numbers

namespace WatashiMap

inductive RowItem (D : Type) where
  | pin (p : Pin D)
  | completion (result : MKLocalSearchCompletion)

def RowItem.title {D : Type} : RowItem D → String
  | .pin p => p.title
  | .completion result => result.title

variable {D : Type}

namespace Suggestions

/-- The rows are the pins, then the completions. -/
def item (row : Nat) (s : Suggestions D) : Option (RowItem D) :=
  if row < s.pincount then (s.Pins[row]?).map .pin
  else (s.results[row - s.pincount]?).map .completion

theorem cell_textLabel (row : Nat) (s : Suggestions D) :
    (s.cell row).map Cell.textLabel = (s.item row).map RowItem.title := by
  unfold cell item
  by_cases hrow : row < s.pincount
  · have hcount : s.pincount ≠ 0 := by omega
    rw [if_pos ⟨hcount, hrow⟩, if_pos hrow, Option.map_map, Option.map_map]
    rfl
  · rw [if_neg fun h => hrow h.2, if_neg hrow, Option.map_map, Option.map_map]
    rfl

theorem item_isSome {row : Nat} {s : Suggestions D} (hcount : s.pincount = s.Pins.length)
    (hrow : row < s.pincount + s.results.length) : (s.item row).isSome := by
  unfold item
  split
  · rw [Option.isSome_map, isSome_getElem?]
    omega
  · rw [Option.isSome_map, isSome_getElem?]
    omega

end Suggestions

/-- `tableView(_:didSelectRowAt:)` on the view controller, with what it does to the map. -/
def ViewController.didSelectRowAt (row : Nat) (vc : ViewController D) :
    Option (ViewController D × RowAction D) :=
  (vc.suggestions.didSelectRowAt row).map fun (s, action) =>
    let vc := { vc with suggestions := s }
    (match action with
      | .setRegion _ => vc
      | .searchMap => vc.searchMap, action)

theorem perform_didSelectRowAt {F : Type} [SwiftDouble D] [SwiftCGFloat F] [DecidableEq D]
    (screen : Screen) (r : Realm) (p : Process D F) {row : Nat}
    (hrow : row < p.vc.suggestions.rows) : Op.perform screen r p (.didSelectRowAt row) =
      (p.vc.didSelectRowAt row).map fun (vc, _) => { p with vc := vc } := by
  unfold ViewController.didSelectRowAt
  dsimp only [Op.perform]
  rw [if_pos hrow, Option.map_map]
  rfl

/-- Selecting the row does not trap, puts the item's title in the search bar, and centres the
map on the item's pin or starts a search for the item's title. -/
def ViewController.ActsOn (row : Nat) (item : RowItem D) (vc : ViewController D) : Prop :=
  ∃ vc' action, vc.didSelectRowAt row = some (vc', action) ∧
    vc'.suggestions.text = some item.title ∧
    match item with
    | .pin p => action = .setRegion p.coordinate ∧ vc'.marker = vc.marker
    | .completion result =>
        action = .searchMap ∧ vc'.marker = vc.marker.searchMap (some result.title)

/-- Whatever the row, the text is that of the completer's result at the row's own index. -/
theorem didSelectRowAt_text {row : Nat} {vc vc' : ViewController D} {action : RowAction D}
    (h : vc.didSelectRowAt row = some (vc', action)) :
    ∃ result, vc.suggestions.results[row]? = some result ∧
      vc'.suggestions.text = some result.title := by
  obtain ⟨⟨s, rowAction⟩, hs, hpair⟩ := Option.map_eq_some_iff.mp h
  obtain ⟨result, hresult, hs⟩ := Option.bind_eq_some_iff.mp hs
  refine ⟨result, hresult, ?_⟩
  have htext : s.text = some result.title := by
    dsimp only at hs
    split at hs
    · obtain ⟨_, _, hs⟩ := Option.bind_eq_some_iff.mp hs
      cases hs
      rfl
    · cases hs
      rfl
  cases rowAction with
  | setRegion | searchMap =>
    cases hpair
    exact htext

theorem didSelectRowAt_pin {row : Nat} {vc : ViewController D} {pin : Pin D}
    {result : MKLocalSearchCompletion} (hresult : vc.suggestions.results[row]? = some result)
    (hrow : row < vc.suggestions.pincount) (hpin : vc.suggestions.Pins[row]? = some pin) :
    vc.didSelectRowAt row = some ({ vc with suggestions :=
      { vc.suggestions.hideTable with text := some result.title, Pins := [] } },
      .setRegion pin.coordinate) := by
  simp [ViewController.didSelectRowAt, Suggestions.didSelectRowAt, Suggestions.hideTable, hresult,
    hrow, hpin]

theorem didSelectRowAt_completion {row : Nat} {vc : ViewController D}
    {result : MKLocalSearchCompletion} (hresult : vc.suggestions.results[row]? = some result)
    (hrow : ¬ row < vc.suggestions.pincount) :
    vc.didSelectRowAt row = some (ViewController.searchMap { vc with suggestions :=
      { vc.suggestions.hideTable with text := some result.title, Pins := [] } }, .searchMap) := by
  simp [ViewController.didSelectRowAt, Suggestions.didSelectRowAt, Suggestions.hideTable, hresult,
    hrow]

/-- A row is shown as one item, and selecting it acts on that item exactly when the completer has
a result at the row's own index that carries the item's title. -/
theorem selected_row_iff (vc : ViewController D) (row : Nat)
    (hcount : vc.suggestions.pincount = vc.suggestions.Pins.length)
    (hrow : row < vc.suggestions.pincount + vc.suggestions.results.length) :
    ∃ item, vc.suggestions.item row = some item ∧
      (vc.suggestions.cell row).map Cell.textLabel = some item.title ∧
      (vc.ActsOn row item ↔ ∃ result, vc.suggestions.results[row]? = some result ∧
        result.title = item.title) := by
  obtain ⟨item, hitem⟩ := Option.isSome_iff_exists.mp (Suggestions.item_isSome hcount hrow)
  refine ⟨item, hitem, ?_, ?_⟩
  · rw [Suggestions.cell_textLabel, hitem, Option.map_some]
  constructor
  · intro h
    obtain ⟨vc', action, hselect, htext, _⟩ := h
    obtain ⟨result, hresult, htitle⟩ := didSelectRowAt_text hselect
    rw [htext] at htitle
    exact ⟨result, hresult, (Option.some.inj htitle).symm⟩
  · intro h
    obtain ⟨result, hresult, htitle⟩ := h
    unfold Suggestions.item at hitem
    by_cases hpins : row < vc.suggestions.pincount
    · rw [if_pos hpins] at hitem
      obtain ⟨pin, hpin, rfl⟩ := Option.map_eq_some_iff.mp hitem
      exact ⟨_, _, didSelectRowAt_pin hresult hpins hpin, congrArg some htitle, rfl, rfl⟩
    · rw [if_neg hpins] at hitem
      obtain ⟨shown, _, rfl⟩ := Option.map_eq_some_iff.mp hitem
      refine ⟨_, _, didSelectRowAt_completion hresult hpins, congrArg some htitle, rfl, ?_⟩
      have hquery : result.title = shown.title := htitle
      rw [← hquery]
      rfl

/-- A table whose one pin and one completion carry the same title. -/
theorem same_title_row_acts_on_pin :
    let pin : Pin WholeDegrees := ⟨⟨⟨35⟩, ⟨139⟩⟩, "tea shop", "", "tea.png"⟩
    let vc : ViewController WholeDegrees := { ViewController.initial with
      suggestions := ⟨some "tea", "te", [pin], 1, [⟨"tea shop", ""⟩], 2, false, false⟩ }
    vc.suggestions.item 0 = some (.pin pin) ∧ vc.ActsOn 0 (.pin pin) := by
  intro pin vc
  obtain ⟨item, hitem, _, hacts⟩ := selected_row_iff vc 0 rfl (by decide)
  have hpin : RowItem.pin pin = item := Option.some.inj hitem
  subst item
  exact ⟨rfl, hacts.mpr ⟨⟨"tea shop", ""⟩, rfl, rfl⟩⟩

/-- The pin "tea shop" above the completion "tea house": the first row puts "tea house" in the
search bar, the second one traps. -/
theorem pin_row_takes_completion_title :
    let pin : Pin WholeDegrees := ⟨⟨⟨35⟩, ⟨139⟩⟩, "tea shop", "", "tea.png"⟩
    let vc : ViewController WholeDegrees := { ViewController.initial with
      suggestions := ⟨some "tea", "te", [pin], 1, [⟨"tea house", ""⟩], 2, false, false⟩ }
    (vc.suggestions.item 0 = some (.pin pin) ∧ ¬ vc.ActsOn 0 (.pin pin)) ∧
      (vc.suggestions.item 1).isSome ∧ vc.didSelectRowAt 1 = none := by
  intro pin vc
  refine ⟨⟨rfl, ?_⟩, by decide, rfl⟩
  intro h
  obtain ⟨vc', action, hselect, htext, _⟩ := h
  obtain ⟨result, hresult, htitle⟩ := didSelectRowAt_text hselect
  have hhouse : (⟨"tea house", ""⟩ : MKLocalSearchCompletion) = result := Option.some.inj hresult
  subst result
  rw [htitle] at htext
  exact absurd (Option.some.inj htext) (by decide)

end WatashiMap
