import WatashiMap.Library.Machine
import WatashiMap.Model.Effects
import WatashiMap.Panels.Showing

namespace WatashiMap

namespace Panels

variable {screen : Screen} {p : Panels} {v : PanelView}

/-- `deletePinsBtn` is disabled exactly while a deleting panel is on screen, and that one is
`panel1`. -/
structure ButtonMatches (screen : Screen) (p : Panels) : Prop where
  roles : p.Roles
  onScreen_iff : ∀ v, v.role = .deletingPanel →
    (p.OnScreen screen v ↔ p.deletePinsBtnEnabled = false ∧ v = p.panel1)

theorem initial_buttonMatches : initial.ButtonMatches screen where
  roles := ⟨rfl, rfl, rfl, rfl, rfl, rfl⟩
  onScreen_iff := by
    intro v _
    refine iff_of_false ?_ (fun h => by cases h.1)
    intro hv
    have hsubview : initial.isSubview v = true := hv.1
    cases hsubview

/-- What happens to views that are no deleting panels does not matter. -/
theorem ButtonMatches.of_same {q : Panels} (h : p.ButtonMatches screen) (hroles : q.Roles)
    (henabled : q.deletePinsBtnEnabled = p.deletePinsBtnEnabled) (hpanel1 : q.panel1 = p.panel1)
    (hsame : ∀ v, v.role = .deletingPanel → (q.OnScreen screen v ↔ p.OnScreen screen v)) :
    q.ButtonMatches screen := by
  refine ⟨hroles, ?_⟩
  intro v hv
  rw [hsame v hv, henabled, hpanel1]
  exact h.onScreen_iff v hv

/-- While the button is enabled there is no deleting panel. -/
theorem ButtonMatches.not_onScreen (h : p.ButtonMatches screen)
    (henabled : p.deletePinsBtnEnabled = true) (hv : v.role = .deletingPanel) :
    ¬ p.OnScreen screen v := by
  rw [h.onScreen_iff v hv, henabled]
  simp

theorem ButtonMatches.hideDeletingPanel (h : p.ButtonMatches screen) :
    (p.hideDeletingPanel screen).ButtonMatches screen where
  roles := h.roles.hideDeletingPanel
  onScreen_iff := by
    intro v hv
    refine iff_of_false ?_ (fun henabled => by cases henabled.1)
    intro hon
    obtain ⟨⟨⟨hold, hne⟩, _⟩, _⟩ := onScreen_hideDeletingPanel.mp hon
    exact hne ((h.onScreen_iff v hv).mp hold).2

theorem ButtonMatches.hideDetailPanel (h : p.ButtonMatches screen) :
    (p.hideDetailPanel screen).ButtonMatches screen := by
  refine h.of_same h.roles.hideDetailPanel rfl rfl ?_
  intro v hv
  rw [onScreen_hideDetailPanel]
  have hpanel2 := ne_of_role hv h.roles.panel2 (by decide)
  have hdelete := ne_of_role hv h.roles.deletePinBtn (by decide)
  have hmodify := ne_of_role hv h.roles.modifyPinBtn (by decide)
  have hhide := ne_of_role hv h.roles.hidePanelBtn (by decide)
  simp [hpanel2, hdelete, hmodify, hhide]

theorem ButtonMatches.removeFromSuperview {w : PanelView} (h : p.ButtonMatches screen)
    (hw : w.role ≠ .deletingPanel) : (p.removeFromSuperview w).ButtonMatches screen := by
  refine h.of_same ?_ rfl rfl ?_
  · exact ⟨h.roles.panel1, h.roles.panel2, h.roles.hidePanelBtn, h.roles.deletePinBtn,
      h.roles.modifyPinBtn, h.roles.deleteAllPinsBtn⟩
  · intro v hv
    rw [onScreen_removeFromSuperview]
    exact and_iff_left (ne_of_role hv rfl (Ne.symm hw))

/-- The new detail panel comes with three buttons, none of them a deleting panel. -/
theorem ButtonMatches.showDetailPanel (hs : screen.Large) (h : p.ButtonMatches screen) :
    (p.showDetailPanel screen).ButtonMatches screen := by
  refine h.of_same ?_ rfl rfl ?_
  · exact ⟨h.roles.panel1, rfl, rfl, rfl, rfl, h.roles.deleteAllPinsBtn⟩
  · intro v hv
    rw [onScreen_showDetailPanel hs]
    refine or_iff_right ?_
    intro hhas
    have hdetail : PanelRole.ofDetail v.role := hhas.2
    rw [hv] at hdetail
    exact hdetail

theorem ButtonMatches.detailOpen (hs : screen.Large) (h : p.ButtonMatches screen) :
    (p.detailOpen screen).ButtonMatches screen := by
  have hclosed : (p.closeDeletingPanel screen).ButtonMatches screen := by
    rcases closeDeletingPanel_cases screen p with hq | hq
    · rwa [hq]
    · rw [hq]
      exact h.hideDeletingPanel
  have hremoved : ((p.closeDeletingPanel screen).removePreviousPanel screen).ButtonMatches
      screen := by
    unfold removePreviousPanel
    split_ifs
    · refine (((hclosed.removeFromSuperview ?_).removeFromSuperview ?_).removeFromSuperview
        ?_).removeFromSuperview ?_
      · simp [hclosed.roles.panel2]
      · simp [hclosed.roles.deletePinBtn]
      · simp [hclosed.roles.modifyPinBtn]
      · simp [hclosed.roles.hidePanelBtn]
    · exact hclosed
  rw [detailOpen_eq]
  exact hremoved.showDetailPanel hs

/-- Where no deleting panel was, the one on screen is then the new one. -/
theorem showDeletingPanel_buttonMatches (hs : screen.Large) (hroles : p.Roles)
    (hdisabled : p.deletePinsBtnEnabled = false)
    (hnone : ∀ v, v.role = .deletingPanel → ¬ p.OnScreen screen v) :
    (p.showDeletingPanel screen).ButtonMatches screen where
  roles := ⟨rfl, hroles.panel2, rfl, hroles.deletePinBtn, hroles.modifyPinBtn, rfl⟩
  onScreen_iff := by
    intro v hv
    rw [onScreen_showDeletingPanel hs, or_iff_left (hnone v hv)]
    obtain ⟨call, role⟩ := v
    cases hv
    constructor
    · intro hhas
      obtain ⟨rfl, _⟩ := hhas
      exact ⟨hdisabled, rfl⟩
    · intro hnew
      obtain ⟨_, hpanel⟩ := hnew
      cases hpanel
      exact ⟨rfl, trivial⟩

theorem ButtonMatches.deletePins (hs : screen.Large) (h : p.ButtonMatches screen)
    (henabled : p.deletePinsBtnEnabled = true) : (p.deletePins screen).ButtonMatches screen := by
  have hroles := h.roles
  rw [deletePins_eq]
  unfold removeDetailPanel
  split_ifs
  · refine showDeletingPanel_buttonMatches hs ⟨hroles.panel1, hroles.panel2,
      hroles.hidePanelBtn, hroles.deletePinBtn, hroles.modifyPinBtn, hroles.deleteAllPinsBtn⟩
      rfl ?_
    intro v hv hon
    simp only [onScreen_removeFromSuperview] at hon
    exact h.not_onScreen henabled hv hon.1.1.1
  · refine showDeletingPanel_buttonMatches hs ⟨hroles.panel1, hroles.panel2,
      hroles.hidePanelBtn, hroles.deletePinBtn, hroles.modifyPinBtn, hroles.deleteAllPinsBtn⟩
      rfl ?_
    intro v hv hon
    exact h.not_onScreen henabled hv hon

theorem loadView_buttonMatches (h : p.ButtonMatches screen) : p.loadView.ButtonMatches screen where
  roles := ⟨h.roles.panel1, h.roles.panel2, h.roles.hidePanelBtn, h.roles.deletePinBtn,
    h.roles.modifyPinBtn, h.roles.deleteAllPinsBtn⟩
  onScreen_iff := by
    intro v _
    refine iff_of_false ?_ (fun h => by cases h.1)
    intro hv
    have hsubview : p.loadView.isSubview v = true := hv.1
    cases hsubview

theorem apply_buttonMatches (hs : screen.Large) (h : p.ButtonMatches screen) (e : PanelEvent) :
    (e.apply screen p).ButtonMatches screen := by
  cases e with
  | deletePins =>
    unfold PanelEvent.apply
    split_ifs with henabled
    · exact h.deletePins hs henabled
    · exact h
  | hideDeletingPanel | deleteAllPins => exact h.hideDeletingPanel
  | detailOpen => exact h.detailOpen hs
  | hideDetailPanel => exact h.hideDetailPanel
  | modifyPlace => exact h.hideDetailPanel.hideDetailPanel.hideDeletingPanel
  | showEditView => exact h.hideDetailPanel.hideDeletingPanel
  | didSelect => exact h.hideDeletingPanel.hideDetailPanel

theorem foldl_buttonMatches (hs : screen.Large) (h : p.ButtonMatches screen)
    (es : List PanelEvent) : (es.foldl (PanelEvent.apply screen) p).ButtonMatches screen := by
  induction es generalizing p with
  | nil => exact h
  | cons e es ih => exact ih (apply_buttonMatches hs h e)

end Panels

open Panels

variable {D F : Type} [SwiftDouble D] [SwiftCGFloat F] [DecidableEq D]

theorem perform_buttonMatches {screen : Screen} (hs : screen.Large) {r : Realm}
    {p q : Process D F} {o : Op D F} (hp : p.vc.panels.ButtonMatches screen)
    (h : o.perform screen r p = some q) : q.vc.panels.ButtonMatches screen := by
  cases ho : o.rebuilds with
  | false =>
    rw [(Op.effect ho h).panels]
    exact foldl_buttonMatches hs hp _
  | true =>
    cases o with
    | tutorialReturn =>
      obtain ⟨_, hvc, rfl⟩ := Process.tutorialReturn_spec h
      obtain ⟨_, _, rfl⟩ := Option.map_eq_some_iff.mp hvc
      exact initial_buttonMatches
    | changeSetting theme selectedPin =>
      obtain ⟨_, hvc, rfl⟩ := Process.changeSetting_spec h
      obtain ⟨_, _, rfl⟩ := Option.map_eq_some_iff.mp hvc
      have hloaded : p.vc.panels.loadView.ButtonMatches screen := loadView_buttonMatches hp
      exact hloaded
    | _ => cases ho

/-- The button "ピン消去" is disabled exactly while the panel it opens is on screen, and there is at
most one such panel. -/
def App.DeleteButtonMatches (screen : Screen) (s : App D F) : Prop :=
  ∀ p, s.process = some p →
    (p.vc.panels.deletePinsBtnEnabled = false ↔
      ∃ v, v.role = .deletingPanel ∧ p.vc.panels.OnScreen screen v) ∧
    ∀ v w, v.role = .deletingPanel → w.role = .deletingPanel →
      p.vc.panels.OnScreen screen v → p.vc.panels.OnScreen screen w → v = w

omit [SwiftDouble D] [SwiftCGFloat F] [DecidableEq D] in
theorem deleteButtonMatches_of {screen : Screen} {s : App D F}
    (h : ∀ p, s.process = some p → p.vc.panels.ButtonMatches screen) :
    s.DeleteButtonMatches screen := by
  intro p hp
  have hmatches := h p hp
  refine ⟨?_, ?_⟩
  · constructor
    · intro hdisabled
      have hrole := hmatches.roles.panel1
      exact ⟨p.vc.panels.panel1, hrole, (hmatches.onScreen_iff _ hrole).mpr ⟨hdisabled, rfl⟩⟩
    · intro hpanel
      obtain ⟨v, hv, hon⟩ := hpanel
      exact ((hmatches.onScreen_iff v hv).mp hon).1
  · intro v w hv hw hvon hwon
    rw [((hmatches.onScreen_iff v hv).mp hvon).2, ((hmatches.onScreen_iff w hw).mp hwon).2]

/-- On every screen large enough for the panels, in every run from any store, `deletePinsBtn` is
disabled exactly while a deleting panel is on screen, whatever panels the other operations open,
close or strand. -/
theorem delete_button_matches_panel (screen : {s : Screen // s.Large}) (r : Realm)
    (es : List (Event D F)) :
    Machine.Always (App.step screen) (App.DeleteButtonMatches screen) ⟨r, none⟩ es := by
  have hstep : ∀ (s : App D F) e t,
      (∀ p, s.process = some p → p.vc.panels.ButtonMatches screen) →
      App.step screen s e = some t →
      ∀ p, t.process = some p → p.vc.panels.ButtonMatches screen := by
    intro s e t hs h
    refine App.step_running (fun p => p.vc.panels.ButtonMatches screen) ?_ ?_ hs h
    · intro u vc items hvc
      obtain ⟨_, _, rfl⟩ := Option.map_eq_some_iff.mp hvc
      exact initial_buttonMatches
    · intro p o q _ _ hq hp
      exact perform_buttonMatches screen.2 hp hq
  have hdead : ∀ p : Process D F, (⟨r, none⟩ : App D F).process = some p →
      p.vc.panels.ButtonMatches screen := by
    intro p hp
    cases hp
  exact (Machine.always_of_invariant hstep hdead es).mono fun _ ht => deleteButtonMatches_of ht

end WatashiMap
