import WatashiMap.Model.Effects
import WatashiMap.Model.Numbers

namespace WatashiMap

variable {D F : Type}

theorem mapM_length {α β : Type} {f : α → Option β} {as : List α} {bs : List β}
    (h : as.mapM f = some bs) : bs.length = as.length := by
  induction as generalizing bs with
  | nil =>
    cases h
    rfl
  | cons a as ih =>
    rw [List.mapM_cons] at h
    obtain ⟨b, _, hrest⟩ := Option.bind_eq_some_iff.mp h
    obtain ⟨cs, hcs, hbs⟩ := Option.bind_eq_some_iff.mp hrest
    cases hbs
    rw [List.length_cons, List.length_cons, ih hcs]

namespace Suggestions

/-- `pincount = Pins.count`, and every row the table has can be shown. -/
structure InBounds (s : Suggestions D) : Prop where
  pincount_eq : s.pincount = s.Pins.length
  cell : ∀ row < s.rows, (s.cellForRowAt row).isSome

/-- With a right `pincount`, the rows can be shown if there are no more of them than pins and
completions. -/
theorem inBounds_iff {s : Suggestions D} :
    s.InBounds ↔ s.pincount = s.Pins.length ∧ s.rows ≤ s.pincount + s.results.length := by
  constructor
  · intro h
    obtain ⟨hcount, hcell⟩ := h
    refine ⟨hcount, ?_⟩
    by_contra hlt
    have hsome := hcell (s.pincount + s.results.length) (by omega)
    have hover : s.results[s.pincount + s.results.length - s.pincount]? = none :=
      List.getElem?_eq_none (by omega)
    rw [cellForRowAt, Option.isSome_map, cell, if_neg (by dsimp only; omega), hover] at hsome
    exact absurd hsome (by simp)
  · intro h
    obtain ⟨hcount, hrows⟩ := h
    refine ⟨hcount, ?_⟩
    intro row hrow
    rw [cellForRowAt, Option.isSome_map, cell]
    split
    · rename_i hpin
      rw [Option.isSome_map, isSome_getElem?]
      simp only at hpin ⊢
      omega
    · rename_i hresult
      rw [Option.isSome_map, isSome_getElem?]
      simp only at hresult ⊢
      omega

/-- Hiding the table or its button moves no bound. -/
theorem inBounds_hidden_iff {s : Suggestions D} {table button : Bool} :
    InBounds { s with tableViewIsHidden := table, hideTableBtnIsHidden := button } ↔
      s.InBounds := by
  rw [inBounds_iff, inBounds_iff]

theorem initial_inBounds : (initial : Suggestions D).InBounds :=
  inBounds_iff.mpr ⟨rfl, Nat.zero_le 0⟩

/-- A reload asks for the row count again. -/
theorem completerDidUpdateResults_inBounds {s : Suggestions D} (h : s.InBounds)
    (results : List MKLocalSearchCompletion) : (s.completerDidUpdateResults results).InBounds :=
  inBounds_iff.mpr ⟨h.pincount_eq, Nat.le_of_eq (Nat.add_comm _ _)⟩

/-- No pin is suggested when a row is selected. -/
def SelectKeepsPins (row : Nat) (s : Suggestions D) : Prop := row < s.rows → s.pincount = 0

/-- A selection, whatever the row is, leaves `text` and an empty `Pins`. -/
theorem didSelectRowAt_eq (row : Nat) (s : Suggestions D) :
    s.didSelectRowAt row = (s.results[row]?).bind fun result =>
      let t := { s.hideTable with text := some result.title, Pins := [] }
      if row < s.pincount then (s.Pins[row]?).bind fun pin => some (t, .setRegion pin.coordinate)
      else some (t, .searchMap) := rfl

theorem didSelectRowAt_spec {row : Nat} {s t : Suggestions D} {action : RowAction D}
    (h : s.didSelectRowAt row = some (t, action)) :
    ∃ text, t = { s.hideTable with text := text, Pins := [] } := by
  rw [didSelectRowAt_eq] at h
  obtain ⟨result, _, h⟩ := Option.bind_eq_some_iff.mp h
  refine ⟨some result.title, ?_⟩
  dsimp only at h
  split at h
  · obtain ⟨_, _, h⟩ := Option.bind_eq_some_iff.mp h
    cases h
    rfl
  · cases h
    rfl

theorem didSelectRowAt_inBounds_iff {row : Nat} {s t : Suggestions D} {action : RowAction D}
    (h : s.InBounds) (ht : s.didSelectRowAt row = some (t, action)) :
    t.InBounds ↔ s.pincount = 0 := by
  have hrows := (inBounds_iff.mp h).2
  obtain ⟨text, rfl⟩ := didSelectRowAt_spec ht
  rw [inBounds_iff]
  simp only [hideTable, List.length_nil]
  omega

variable [SwiftDouble D]

/-- An edit finds enough pins for the rows the table keeps; without a text it finds none, so
there must have been none. -/
def EditKeepsRows (items : List PinItem) (s : Suggestions D) : Prop :=
  match s.text with
  | none => s.pincount = 0
  | some text => s.rows ≤ (items.filter (PinItem.titleContains text)).length + s.results.length

theorem edit_inBounds_iff {items : List PinItem} {newText : String} {s t : Suggestions D}
    (h : s.InBounds) (ht : s.edit items newText = some t) :
    t.InBounds ↔ s.EditKeepsRows items := by
  have hrows := (inBounds_iff.mp h).2
  obtain ⟨⟨u, accepted⟩, hu, rfl⟩ := Option.map_eq_some_iff.mp ht
  unfold shouldChangeTextIn at hu
  dsimp only at hu
  rw [EditKeepsRows]
  cases htext : s.text with
  | none =>
    rw [htext] at hu
    cases hu
    rw [inBounds_iff]
    simp only [Bool.false_eq_true, if_false, List.length_nil]
    omega
  | some text =>
    rw [htext] at hu
    obtain ⟨pins, hpins, hu⟩ := Option.bind_eq_some_iff.mp hu
    cases hu
    rw [inBounds_iff]
    simp only [if_true]
    rw [mapM_length hpins]
    exact and_iff_right rfl

end Suggestions

variable [SwiftDouble D] [SwiftCGFloat F] [DecidableEq D]

theorem perform_sameTable {screen : Screen} {r : Realm} {p q : Process D F} {o : Op D F}
    (ho : o.editsTable = false) (h : o.perform screen r p = some q) :
    ∃ table button, q.vc.suggestions = { p.vc.suggestions with
      tableViewIsHidden := table, hideTableBtnIsHidden := button } := by
  cases hview : o.rebuilds with
  | false => exact (Op.effect hview h).table ho
  | true =>
    cases o with
    | changeSetting theme selectedPin =>
      obtain ⟨vc, hvc, rfl⟩ := Process.changeSetting_spec h
      obtain ⟨_, _, rfl⟩ := Option.map_eq_some_iff.mp hvc
      exact ⟨_, _, rfl⟩
    | tutorialReturn => cases ho
    | _ => cases hview

/-- The table of the running process, if there is one, never indexes out of range. -/
def App.TableInBounds (s : App D F) : Prop :=
  ∀ p, s.process = some p → p.vc.suggestions.InBounds

/-- An edit of the text finds enough pins, and no row is selected next to a suggested pin. -/
def Op.KeepsTable (r : Realm) (p : Process D F) : Op D F → Prop
  | .editSearchText _ => p.vc.suggestions.EditKeepsRows r.pinItems
  | .didSelectRowAt row => p.vc.suggestions.SelectKeepsPins row
  | _ => True

theorem perform_inBounds_iff {screen : Screen} {r : Realm} {p q : Process D F} {o : Op D F}
    (hs : p.vc.suggestions.InBounds) (h : o.perform screen r p = some q) :
    q.vc.suggestions.InBounds ↔ o.KeepsTable r p := by
  cases ho : o.editsTable with
  | false =>
    obtain ⟨table, button, hq⟩ := perform_sameTable ho h
    rw [hq, Suggestions.inBounds_hidden_iff]
    cases o with
    | editSearchText | didSelectRowAt => cases ho
    | _ => exact iff_true_intro hs
  | true =>
    cases o with
    | tutorialReturn =>
      obtain ⟨vc, hvc, rfl⟩ := Process.tutorialReturn_spec h
      obtain ⟨_, _, rfl⟩ := Option.map_eq_some_iff.mp hvc
      exact iff_true_intro (Suggestions.inBounds_hidden_iff.mpr Suggestions.initial_inBounds)
    | editSearchText newText =>
      obtain ⟨_, hedit, rfl⟩ := Option.map_eq_some_iff.mp h
      exact Suggestions.edit_inBounds_iff hs hedit
    | completerDidUpdateResults results =>
      cases h
      exact iff_true_intro (Suggestions.completerDidUpdateResults_inBounds hs results)
    | didSelectRowAt row =>
      dsimp only [Op.perform] at h
      split_ifs at h with hrow
      · obtain ⟨⟨t, action⟩, hselect, rfl⟩ := Option.map_eq_some_iff.mp h
        have ht := Suggestions.didSelectRowAt_inBounds_iff hs hselect
        have himp : p.vc.suggestions.pincount = 0 ↔ p.vc.suggestions.SelectKeepsPins row :=
          ⟨fun hk _ => hk, fun hk => hk hrow⟩
        cases action <;> exact ht.trans himp
      · cases h
        exact iff_of_true hs fun hlt => absurd hlt hrow
    | _ => cases ho

def App.KeepsTable (s : App D F) : Event D F → Prop
  | .op o => ∀ p, s.process = some p → o.KeepsTable s.realm p
  | _ => True

theorem step_tableInBounds {screen : Screen} (s : App D F) (e : Event D F) (t : App D F)
    (hs : s.TableInBounds) (h : App.step screen s e = some t) (hc : s.KeepsTable e) :
    t.TableInBounds := by
  refine App.step_running (fun p => p.vc.suggestions.InBounds) ?_ ?_ hs h
  · intro u vc items hvc
    obtain ⟨_, _, rfl⟩ := Option.map_eq_some_iff.mp hvc
    exact Suggestions.inBounds_hidden_iff.mpr Suggestions.initial_inBounds
  · intro p o q hp he hq hbefore
    subst he
    exact (perform_inBounds_iff hbefore hq).mpr (hc p hp)

theorem keepsTable_of_tableInBounds {screen : Screen} (s : App D F) (e : Event D F)
    (t : App D F) (hs : s.TableInBounds) (h : App.step screen s e = some t)
    (ht : t.TableInBounds) : s.KeepsTable e := by
  cases e with
  | launch | killDuring | kill => trivial
  | op o =>
    obtain ⟨r, process⟩ := s
    intro p hp
    cases hp
    obtain ⟨q, hq, rfl⟩ := App.step_op h
    exact (perform_inBounds_iff (hs p rfl) hq).mp (ht q rfl)

/-- From any stored pins, the runs in which the table never indexes out of range, and
`pincount` always is the number of `Pins`, are the runs in which every edit of the search text
finds enough pins for the rows on screen and no row is selected while pins are suggested. -/
theorem table_in_bounds_iff (screen : Screen) (r : Realm) (es : List (Event D F)) :
    Machine.Always (App.step screen) App.TableInBounds ⟨r, none⟩ es ↔
      Machine.EachStep (App.step screen) App.KeepsTable ⟨r, none⟩ es :=
  Machine.always_iff_eachStep (fun _ hs => hs) step_tableInBounds keepsTable_of_tableInBounds
    (fun _ hp => absurd hp (Option.some_ne_none _).symm) es

/-- A pin titled "ab" is suggested for the text "a" next to one completion; its row is selected,
which empties `Pins`, and the next completions reload a table that still counts the pin. -/
theorem reload_after_selection_out_of_bounds :
    let screen : Screen := ⟨375, 667⟩
    let pin : CustomAnnotation WholeDegrees := ⟨⟨⟨35⟩, ⟨139⟩⟩, "ab", "", "tea.png"⟩
    let es : List (Event WholeDegrees SevenDecimals) :=
      [.launch, .op (.editSearchText "a"), .op (.editSearchText "ab"),
        .op (.completerDidUpdateResults [⟨"abc", ""⟩]), .op (.didSelectRowAt 0),
        .op (.completerDidUpdateResults [])]
    ¬ Machine.Always (App.step screen) App.TableInBounds ⟨⟨[pin.record], [], []⟩, none⟩ es := by
  intro screen pin es h
  have hrun : (Machine.run (App.step screen) ⟨⟨[pin.record], [], []⟩, none⟩ es).bind
      (fun t => t.process.map fun p =>
        (decide (0 < p.vc.suggestions.rows), (p.vc.suggestions.cellForRowAt 0).isSome)) =
          some (true, false) := by decide
  obtain ⟨t, ht, hp⟩ := Option.bind_eq_some_iff.mp hrun
  obtain ⟨p, hp, hcell⟩ := Option.map_eq_some_iff.mp hp
  obtain ⟨hrow, hnone⟩ := Prod.mk.inj hcell
  have hsome := (h.last ht p hp).cell 0 (of_decide_eq_true hrow)
  rw [hnone] at hsome
  cases hsome

end WatashiMap
