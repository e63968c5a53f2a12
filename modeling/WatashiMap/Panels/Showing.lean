import Mathlib.Tactic.Linarith
import WatashiMap.Model.Panels

namespace WatashiMap

/-- Large enough for both panels. -/
structure Screen.Large (screen : Screen) : Prop where
  w_ge : 300 ≤ screen.w
  h_ge : 480 ≤ screen.h

/-- Some of the rectangle is on the screen. -/
def CGRect.Meets (r : CGRect) (screen : Screen) : Prop :=
  r.x < screen.w ∧ 0 < r.x + r.width ∧ r.y < screen.h ∧ 0 < r.y + r.height

namespace Panels

variable {screen : Screen} {p : Panels} {v w : PanelView} {r : CGRect}

def OnScreen (screen : Screen) (p : Panels) (v : PanelView) : Prop :=
  p.isSubview v = true ∧ (p.frame v).Meets screen

theorem onScreen_setFrame_off (hr : ¬ r.Meets screen) :
    (p.setFrame v r).OnScreen screen w ↔ p.OnScreen screen w ∧ w ≠ v := by
  unfold OnScreen setFrame
  by_cases hw : w = v
  · subst w
    simp [hr]
  · simp [hw]

theorem onScreen_removeFromSuperview :
    (p.removeFromSuperview v).OnScreen screen w ↔ p.OnScreen screen w ∧ w ≠ v := by
  unfold OnScreen removeFromSuperview
  by_cases hw : w = v
  · subst w
    simp
  · simp [hw]

theorem onScreen_hideDeletingPanel :
    (p.hideDeletingPanel screen).OnScreen screen w ↔
      ((p.OnScreen screen w ∧ w ≠ p.panel1) ∧ w ≠ p.hidePanelBtn) ∧ w ≠ p.deleteAllPinsBtn := by
  unfold hideDeletingPanel originOfDeletingPanel
  rw [onScreen_setFrame_off, onScreen_setFrame_off, onScreen_setFrame_off]
  · rfl
  all_goals
    intro hvisible
    obtain ⟨_, _, _, habove⟩ := hvisible
    norm_num at habove

theorem onScreen_hideDetailPanel :
    (p.hideDetailPanel screen).OnScreen screen w ↔
      (((p.OnScreen screen w ∧ w ≠ p.panel2) ∧ w ≠ p.deletePinBtn) ∧ w ≠ p.modifyPinBtn) ∧
        w ≠ p.hidePanelBtn := by
  unfold hideDetailPanel originOfDetailPanel
  rw [onScreen_setFrame_off, onScreen_setFrame_off, onScreen_setFrame_off, onScreen_setFrame_off]
  all_goals
    try rfl
    intro hvisible
    obtain ⟨_, _, hbelow, _⟩ := hvisible
    exact lt_irrefl screen.h hbelow

/-- What is on screen. -/
inductive Showing where
  | nothing
  | detail (call : Nat)
  | deleting (call : Nat)

/-- The views a call of `detailOpen` makes. -/
def PanelRole.ofDetail : PanelRole → Prop
  | .detailPanel | .deletePinBtn | .modifyPinBtn | .hidePanelBtn => True
  | .deletingPanel | .deleteAllPinsBtn => False

/-- The views a call of `deletePins` makes. -/
def PanelRole.ofDeleting : PanelRole → Prop
  | .deletingPanel | .hidePanelBtn | .deleteAllPinsBtn => True
  | .detailPanel | .deletePinBtn | .modifyPinBtn => False

def Showing.Has (v : PanelView) : Showing → Prop
  | .nothing => False
  | .detail call => v.call = call ∧ PanelRole.ofDetail v.role
  | .deleting call => v.call = call ∧ PanelRole.ofDeleting v.role

/-- Each new view of `detailOpen` ends up on screen, and no other view moves. -/
theorem onScreen_showDetailPanel (hs : screen.Large) :
    (p.showDetailPanel screen).OnScreen screen v ↔
      (Showing.detail (p.calls + 1)).Has v ∨ p.OnScreen screen v := by
  obtain ⟨call, role⟩ := v
  obtain ⟨hw, hh⟩ := hs
  by_cases hcall : call = p.calls + 1
  · subst call
    cases role <;>
      simp [OnScreen, showDetailPanel, originOfDetailPanel, setFrame, addSubview, Showing.Has,
        PanelRole.ofDetail, CGRect.Meets, detailFrame] <;>
      and_intros <;> linarith
  · simp [OnScreen, showDetailPanel, originOfDetailPanel, setFrame, addSubview, Showing.Has,
      hcall]

/-- Each new view of `deletePins` ends up on screen, and no other view moves. -/
theorem onScreen_showDeletingPanel (hs : screen.Large) :
    (p.showDeletingPanel screen).OnScreen screen v ↔
      (Showing.deleting (p.calls + 1)).Has v ∨ p.OnScreen screen v := by
  obtain ⟨call, role⟩ := v
  obtain ⟨hw, hh⟩ := hs
  by_cases hcall : call = p.calls + 1
  · subst call
    cases role <;>
      simp [OnScreen, showDeletingPanel, originOfDeletingPanel, setFrame, addSubview, Showing.Has,
        PanelRole.ofDeleting, CGRect.Meets, deletingFrame] <;>
      and_intros <;> linarith
  · simp [OnScreen, showDeletingPanel, originOfDeletingPanel, setFrame, addSubview, Showing.Has,
      hcall]

/-- The references name objects of their kind. -/
structure Roles (p : Panels) : Prop where
  panel1 : p.panel1.role = .deletingPanel
  panel2 : p.panel2.role = .detailPanel
  hidePanelBtn : p.hidePanelBtn.role = .hidePanelBtn
  deletePinBtn : p.deletePinBtn.role = .deletePinBtn
  modifyPinBtn : p.modifyPinBtn.role = .modifyPinBtn
  deleteAllPinsBtn : p.deleteAllPinsBtn.role = .deleteAllPinsBtn

/-- Objects of different kinds are different objects. -/
theorem ne_of_role {v w : PanelView} {role role' : PanelRole} (hv : v.role = role)
    (hw : w.role = role') (hne : role ≠ role') : v ≠ w := by
  intro heq
  rw [heq, hw] at hv
  exact hne hv.symm

theorem Roles.panel1_ne (h : p.Roles) : p.panel1 ≠ p.panel2 ∧ p.panel1 ≠ p.deletePinBtn ∧
    p.panel1 ≠ p.modifyPinBtn ∧ p.panel1 ≠ p.hidePanelBtn := by
  refine ⟨?_, ?_, ?_, ?_⟩
  · exact ne_of_role h.panel1 h.panel2 (by decide)
  · exact ne_of_role h.panel1 h.deletePinBtn (by decide)
  · exact ne_of_role h.panel1 h.modifyPinBtn (by decide)
  · exact ne_of_role h.panel1 h.hidePanelBtn (by decide)

theorem Roles.panel2_ne (h : p.Roles) : p.panel2 ≠ p.panel1 ∧ p.panel2 ≠ p.hidePanelBtn ∧
    p.panel2 ≠ p.deleteAllPinsBtn := by
  refine ⟨?_, ?_, ?_⟩
  · exact ne_of_role h.panel2 h.panel1 (by decide)
  · exact ne_of_role h.panel2 h.hidePanelBtn (by decide)
  · exact ne_of_role h.panel2 h.deleteAllPinsBtn (by decide)

/-- The references and `deletePinsBtn` while `showing` is on screen. -/
def Holds (screen : Screen) (p : Panels) : Showing → Prop
  | .nothing => p.deletePinsBtnEnabled = true
  | .detail call =>
      p.deletePinsBtnEnabled = true ∧ call ≤ p.calls ∧
        p.panel2 = ⟨call, .detailPanel⟩ ∧ p.deletePinBtn = ⟨call, .deletePinBtn⟩ ∧
        p.modifyPinBtn = ⟨call, .modifyPinBtn⟩ ∧ p.hidePanelBtn = ⟨call, .hidePanelBtn⟩ ∧
        p.frame p.panel2 = detailFrame screen
  | .deleting call =>
      p.deletePinsBtnEnabled = false ∧
        p.panel1 = ⟨call, .deletingPanel⟩ ∧ p.deleteAllPinsBtn = ⟨call, .deleteAllPinsBtn⟩ ∧
        p.hidePanelBtn = ⟨call, .hidePanelBtn⟩ ∧ p.frame p.panel1 = deletingFrame screen

/-- Exactly the views of `showing` are on screen, and the references name them. -/
structure Shows (screen : Screen) (p : Panels) (showing : Showing) : Prop where
  roles : p.Roles
  onScreen_iff : ∀ v, p.OnScreen screen v ↔ showing.Has v
  holds : p.Holds screen showing

theorem shows_initial : Shows screen initial .nothing where
  roles := ⟨rfl, rfl, rfl, rfl, rfl, rfl⟩
  onScreen_iff := by
    intro v
    refine iff_false_intro fun hv => ?_
    have hsubview : initial.isSubview v = true := hv.1
    cases hsubview
  holds := rfl

/-- Whatever is on screen is held by one of the six references. -/
theorem Shows.onScreen_cases {showing : Showing} (h : p.Shows screen showing)
    (hv : p.OnScreen screen v) :
    v = p.panel1 ∨ v = p.panel2 ∨ v = p.hidePanelBtn ∨ v = p.deletePinBtn ∨
      v = p.modifyPinBtn ∨ v = p.deleteAllPinsBtn := by
  have hhas := (h.onScreen_iff v).mp hv
  obtain ⟨call, role⟩ := v
  cases showing with
  | nothing => cases hhas
  | detail n =>
    obtain ⟨_, _, h2, hd, hm, hh, _⟩ := h.holds
    obtain ⟨rfl, hrole⟩ := hhas
    rw [h2, hd, hm, hh]
    cases role <;> simp [PanelRole.ofDetail] at hrole ⊢
  | deleting n =>
    obtain ⟨_, h1, ha, hh, _⟩ := h.holds
    obtain ⟨rfl, hrole⟩ := hhas
    rw [h1, ha, hh]
    cases role <;> simp [PanelRole.ofDeleting] at hrole ⊢

theorem Roles.hideDeletingPanel (h : p.Roles) : (p.hideDeletingPanel screen).Roles :=
  ⟨h.panel1, h.panel2, h.hidePanelBtn, h.deletePinBtn, h.modifyPinBtn, h.deleteAllPinsBtn⟩

theorem Roles.hideDetailPanel (h : p.Roles) : (p.hideDetailPanel screen).Roles :=
  ⟨h.panel1, h.panel2, h.hidePanelBtn, h.deletePinBtn, h.modifyPinBtn, h.deleteAllPinsBtn⟩

/-- An operation that takes all six references off the screen leaves nothing on it. -/
theorem Shows.nothing_of_hidden {showing : Showing} (h : p.Shows screen showing) {q : Panels}
    (hroles : q.Roles) (henabled : q.deletePinsBtnEnabled = true)
    (hq : ∀ v, q.OnScreen screen v → p.OnScreen screen v ∧ v ≠ p.panel1 ∧ v ≠ p.panel2 ∧
      v ≠ p.hidePanelBtn ∧ v ≠ p.deletePinBtn ∧ v ≠ p.modifyPinBtn ∧ v ≠ p.deleteAllPinsBtn) :
    q.Shows screen .nothing where
  roles := hroles
  onScreen_iff := by
    intro v
    refine iff_false_intro fun hv => ?_
    obtain ⟨hold, h1, h2, hh, hd, hm, ha⟩ := hq v hv
    rcases h.onScreen_cases hold with e | e | e | e | e | e
    · exact h1 e
    · exact h2 e
    · exact hh e
    · exact hd e
    · exact hm e
    · exact ha e
  holds := henabled

theorem Shows.showEditView {showing : Showing} (h : p.Shows screen showing) :
    (p.showEditView screen).Shows screen .nothing := by
  refine h.nothing_of_hidden h.roles.hideDetailPanel.hideDeletingPanel rfl fun v hv => ?_
  unfold Panels.showEditView at hv
  rw [onScreen_hideDeletingPanel, onScreen_hideDetailPanel] at hv
  obtain ⟨⟨⟨⟨⟨⟨⟨hv, h2⟩, hd⟩, hm⟩, hh⟩, h1⟩, _⟩, ha⟩ := hv
  exact ⟨hv, h1, h2, hh, hd, hm, ha⟩

theorem Shows.didSelect {showing : Showing} (h : p.Shows screen showing) :
    (p.didSelect screen).Shows screen .nothing := by
  refine h.nothing_of_hidden h.roles.hideDeletingPanel.hideDetailPanel rfl fun v hv => ?_
  unfold Panels.didSelect at hv
  rw [onScreen_hideDetailPanel, onScreen_hideDeletingPanel] at hv
  obtain ⟨⟨⟨⟨⟨⟨⟨hv, h1⟩, hh⟩, ha⟩, h2⟩, hd⟩, hm⟩, _⟩ := hv
  exact ⟨hv, h1, h2, hh, hd, hm, ha⟩

theorem Shows.modifyPlace {showing : Showing} (h : p.Shows screen showing) :
    (p.modifyPlace screen).Shows screen .nothing := by
  refine h.nothing_of_hidden
    h.roles.hideDetailPanel.hideDetailPanel.hideDeletingPanel rfl fun v hv => ?_
  unfold Panels.modifyPlace Panels.showEditView at hv
  rw [onScreen_hideDeletingPanel, onScreen_hideDetailPanel, onScreen_hideDetailPanel] at hv
  obtain ⟨⟨⟨⟨⟨⟨⟨⟨⟨⟨⟨hv, h2⟩, hd⟩, hm⟩, hh⟩, _⟩, _⟩, _⟩, _⟩, h1⟩, _⟩, ha⟩ := hv
  exact ⟨hv, h1, h2, hh, hd, hm, ha⟩

/-- `hideDetailPanel` closes the detail panel, or finds nothing to close. -/
theorem Shows.hideDetailPanel {showing : Showing} (h : p.Shows screen showing)
    (hno : ∀ n, showing ≠ .deleting n) : (p.hideDetailPanel screen).Shows screen .nothing where
  roles := h.roles.hideDetailPanel
  onScreen_iff := by
    intro v
    refine iff_false_intro fun hv => ?_
    rw [onScreen_hideDetailPanel] at hv
    obtain ⟨⟨⟨⟨hv, h2⟩, hd⟩, hm⟩, hh⟩ := hv
    have hhas := (h.onScreen_iff v).mp hv
    cases showing with
    | nothing => exact hhas
    | deleting n => exact hno n rfl
    | detail n =>
      obtain ⟨_, _, e2, ed, em, eh, _⟩ := h.holds
      obtain ⟨call, role⟩ := v
      obtain ⟨rfl, hrole⟩ := hhas
      rw [e2] at h2
      rw [ed] at hd
      rw [em] at hm
      rw [eh] at hh
      cases role <;> simp [PanelRole.ofDetail] at hrole h2 hd hm hh
  holds := by
    cases showing with
    | nothing => exact h.holds
    | detail n => exact h.holds.1
    | deleting n => exact absurd rfl (hno n)

/-- `hideDeletingPanel` closes the deleting panel, or finds nothing to close. -/
theorem Shows.hideDeletingPanel {showing : Showing} (h : p.Shows screen showing)
    (hno : ∀ n, showing ≠ .detail n) : (p.hideDeletingPanel screen).Shows screen .nothing where
  roles := h.roles.hideDeletingPanel
  onScreen_iff := by
    intro v
    refine iff_false_intro fun hv => ?_
    rw [onScreen_hideDeletingPanel] at hv
    obtain ⟨⟨⟨hv, h1⟩, hh⟩, ha⟩ := hv
    have hhas := (h.onScreen_iff v).mp hv
    cases showing with
    | nothing => exact hhas
    | detail n => exact hno n rfl
    | deleting n =>
      obtain ⟨_, e1, ea, eh, _⟩ := h.holds
      obtain ⟨call, role⟩ := v
      obtain ⟨rfl, hrole⟩ := hhas
      rw [e1] at h1
      rw [ea] at ha
      rw [eh] at hh
      cases role <;> simp [PanelRole.ofDeleting] at hrole h1 ha hh
  holds := rfl

/-- The two panels share `hidePanelBtn`: hiding the deleting panel takes the close button of an
open detail panel away. -/
theorem Shows.hideDeletingPanel_leaves {n : Nat} (h : p.Shows screen (.detail n)) :
    (p.hideDeletingPanel screen).OnScreen screen ⟨n, .detailPanel⟩ ∧
      ¬ (p.hideDeletingPanel screen).OnScreen screen ⟨n, .hidePanelBtn⟩ := by
  obtain ⟨_, _, e2, _, _, eh, _⟩ := h.holds
  obtain ⟨hne1, hneh, hnea⟩ := h.roles.panel2_ne
  have hpanel : p.OnScreen screen p.panel2 := by
    rw [e2, h.onScreen_iff]
    exact ⟨rfl, trivial⟩
  rw [← e2, ← eh, onScreen_hideDeletingPanel, onScreen_hideDeletingPanel]
  exact ⟨⟨⟨⟨hpanel, hne1⟩, hneh⟩, hnea⟩, fun hbtn => hbtn.1.2 rfl⟩

/-- Hiding the detail panel takes the close button of an open deleting panel away. -/
theorem Shows.hideDetailPanel_leaves {n : Nat} (h : p.Shows screen (.deleting n)) :
    (p.hideDetailPanel screen).OnScreen screen ⟨n, .deletingPanel⟩ ∧
      ¬ (p.hideDetailPanel screen).OnScreen screen ⟨n, .hidePanelBtn⟩ := by
  obtain ⟨_, e1, _, eh, _⟩ := h.holds
  obtain ⟨hne2, hned, hnem, hneh⟩ := h.roles.panel1_ne
  have hpanel : p.OnScreen screen p.panel1 := by
    rw [e1, h.onScreen_iff]
    exact ⟨rfl, trivial⟩
  rw [← e1, ← eh, onScreen_hideDetailPanel, onScreen_hideDetailPanel]
  exact ⟨⟨⟨⟨⟨hpanel, hne2⟩, hned⟩, hnem⟩, hneh⟩, fun hbtn => hbtn.2 rfl⟩

/-- The first step of `detailOpen`. -/
def closeDeletingPanel (screen : Screen) (p : Panels) : Panels :=
  if p.frame p.panel1 = deletingFrame screen then p.hideDeletingPanel screen else p

/-- The second step of `detailOpen`. -/
def removePreviousPanel (screen : Screen) (p : Panels) : Panels :=
  if p.frame p.panel2 = previousDetailFrame screen then
    (((p.removeFromSuperview p.panel2).removeFromSuperview p.deletePinBtn).removeFromSuperview
      p.modifyPinBtn).removeFromSuperview p.hidePanelBtn
  else p

theorem detailOpen_eq : p.detailOpen screen =
    ((p.closeDeletingPanel screen).removePreviousPanel screen).showDetailPanel screen := rfl

/-- On an empty screen a new detail panel is the only one. -/
theorem shows_showDetailPanel (hs : screen.Large) (hroles : p.Roles)
    (hempty : ∀ v, ¬ p.OnScreen screen v) (henabled : p.deletePinsBtnEnabled = true) :
    (p.showDetailPanel screen).Shows screen (.detail (p.calls + 1)) where
  roles := ⟨hroles.panel1, rfl, rfl, rfl, rfl, hroles.deleteAllPinsBtn⟩
  onScreen_iff := by
    intro v
    rw [onScreen_showDetailPanel hs]
    exact or_iff_left (hempty v)
  holds := by
    refine ⟨henabled, le_rfl, rfl, rfl, rfl, rfl, ?_⟩
    simp [showDetailPanel, originOfDetailPanel, setFrame, addSubview]

/-- On an empty screen a new deleting panel is the only one. -/
theorem shows_showDeletingPanel (hs : screen.Large) (hroles : p.Roles)
    (hempty : ∀ v, ¬ p.OnScreen screen v) (henabled : p.deletePinsBtnEnabled = false) :
    (p.showDeletingPanel screen).Shows screen (.deleting (p.calls + 1)) where
  roles := ⟨rfl, hroles.panel2, rfl, hroles.deletePinBtn, hroles.modifyPinBtn, rfl⟩
  onScreen_iff := by
    intro v
    rw [onScreen_showDeletingPanel hs]
    exact or_iff_left (hempty v)
  holds := by
    refine ⟨henabled, rfl, rfl, rfl, ?_⟩
    simp [showDeletingPanel, originOfDeletingPanel, setFrame, addSubview]

theorem closeDeletingPanel_cases (screen : Screen) (p : Panels) :
    p.closeDeletingPanel screen = p ∨
      p.closeDeletingPanel screen = p.hideDeletingPanel screen := by
  unfold closeDeletingPanel
  split
  · exact Or.inr rfl
  · exact Or.inl rfl

/-- Without a detail panel the first two steps of `detailOpen` empty the screen. -/
theorem Shows.closeDeletingPanel {showing : Showing} (h : p.Shows screen showing)
    (hno : ∀ n, showing ≠ .detail n) : (p.closeDeletingPanel screen).Shows screen .nothing := by
  unfold Panels.closeDeletingPanel
  split
  · exact h.hideDeletingPanel hno
  · rename_i hframe
    cases showing with
    | nothing => exact h
    | detail n => exact absurd rfl (hno n)
    | deleting n => exact absurd h.holds.2.2.2.2 hframe

theorem onScreen_of_removePreviousPanel (h : (p.removePreviousPanel screen).OnScreen screen v) :
    p.OnScreen screen v := by
  unfold removePreviousPanel at h
  split at h
  · simp only [onScreen_removeFromSuperview] at h
    exact h.1.1.1.1
  · exact h

theorem removePreviousPanel_refs (screen : Screen) (p : Panels) (h : p.Roles) :
    (p.removePreviousPanel screen).Roles ∧
      (p.removePreviousPanel screen).deletePinsBtnEnabled = p.deletePinsBtnEnabled ∧
      (p.removePreviousPanel screen).calls = p.calls := by
  unfold removePreviousPanel
  split
  · exact ⟨⟨h.panel1, h.panel2, h.hidePanelBtn, h.deletePinBtn, h.modifyPinBtn,
      h.deleteAllPinsBtn⟩, rfl, rfl⟩
  · exact ⟨h, rfl, rfl⟩

/-- `detailOpen` shows the new panel alone if the first two steps emptied the screen. -/
theorem shows_detailOpen (hs : screen.Large) (hroles : (p.closeDeletingPanel screen).Roles)
    (henabled : (p.closeDeletingPanel screen).deletePinsBtnEnabled = true)
    (hempty : ∀ v, ¬ ((p.closeDeletingPanel screen).removePreviousPanel screen).OnScreen screen v) :
    ∃ n, (p.detailOpen screen).Shows screen (.detail n) := by
  obtain ⟨hroles', henabled', _⟩ := removePreviousPanel_refs screen _ hroles
  rw [detailOpen_eq]
  exact ⟨_, shows_showDetailPanel hs hroles' hempty (henabled'.trans henabled)⟩

theorem Shows.detailOpen {showing : Showing} (hs : screen.Large) (h : p.Shows screen showing)
    (hno : ∀ n, showing ≠ .detail n) : ∃ n, (p.detailOpen screen).Shows screen (.detail n) := by
  have hclosed := h.closeDeletingPanel hno
  refine shows_detailOpen hs hclosed.roles hclosed.holds fun v hv => ?_
  exact (hclosed.onScreen_iff v).mp (onScreen_of_removePreviousPanel hv)

/-- What `detailOpen` finds after its first step when a detail panel was open. -/
theorem Shows.closeDeletingPanel_detail {n : Nat} (h : p.Shows screen (.detail n)) :
    let q := p.closeDeletingPanel screen
    q.Roles ∧ q.deletePinsBtnEnabled = true ∧ q.calls = p.calls ∧
      q.frame q.panel2 = detailFrame screen ∧ q.OnScreen screen ⟨n, .detailPanel⟩ ∧
      ∀ v, q.OnScreen screen v →
        v = q.panel2 ∨ v = q.deletePinBtn ∨ v = q.modifyPinBtn ∨ v = q.hidePanelBtn := by
  obtain ⟨henabled, _, e2, ed, em, eh, hframe⟩ := h.holds
  have hpanel : p.OnScreen screen ⟨n, .detailPanel⟩ := (h.onScreen_iff _).mpr ⟨rfl, trivial⟩
  have hrefs : ∀ v, p.OnScreen screen v →
      v = p.panel2 ∨ v = p.deletePinBtn ∨ v = p.modifyPinBtn ∨ v = p.hidePanelBtn := by
    intro v hv
    obtain ⟨call, role⟩ := v
    obtain ⟨rfl, hrole⟩ := (h.onScreen_iff _).mp hv
    rw [e2, ed, em, eh]
    cases role <;> simp [PanelRole.ofDetail] at hrole ⊢
  obtain ⟨hne1, hneh, hnea⟩ := h.roles.panel2_ne
  rcases closeDeletingPanel_cases screen p with hq | hq
  · rw [hq]
    exact ⟨h.roles, henabled, rfl, hframe, hpanel, hrefs⟩
  · rw [hq]
    refine ⟨h.roles.hideDeletingPanel, rfl, rfl, ?_, ?_, ?_⟩
    · rw [← hframe]
      simp [Panels.hideDeletingPanel, originOfDeletingPanel, setFrame, hne1, hneh, hnea]
    · rw [onScreen_hideDeletingPanel, ← e2]
      exact ⟨⟨⟨e2 ▸ hpanel, hne1⟩, hneh⟩, hnea⟩
    · intro v hv
      rw [onScreen_hideDeletingPanel] at hv
      exact hrefs v hv.1.1.1

/-- On a square screen `detailOpen` recognises the previous panel and removes it. -/
theorem Shows.detailOpen_square {n : Nat} (hs : screen.Large) (h : p.Shows screen (.detail n))
    (hsquare : screen.w = screen.h) : ∃ n, (p.detailOpen screen).Shows screen (.detail n) := by
  obtain ⟨hroles, henabled, _, hframe, _, hrefs⟩ := h.closeDeletingPanel_detail
  refine shows_detailOpen hs hroles henabled fun v hv => ?_
  have hprevious : detailFrame screen = previousDetailFrame screen := by
    rw [detailFrame, previousDetailFrame, hsquare]
  unfold removePreviousPanel at hv
  rw [if_pos (hframe.trans hprevious)] at hv
  simp only [onScreen_removeFromSuperview] at hv
  obtain ⟨⟨⟨⟨hv, h2⟩, hd⟩, hm⟩, hh⟩ := hv
  rcases hrefs v hv with e | e | e | e
  · exact h2 e
  · exact hd e
  · exact hm e
  · exact hh e

/-- On any other screen the previous panel stays, under the new one. -/
theorem Shows.detailOpen_leaves {n : Nat} (hs : screen.Large) (h : p.Shows screen (.detail n))
    (hsquare : screen.w ≠ screen.h) :
    (p.detailOpen screen).OnScreen screen ⟨n, .detailPanel⟩ ∧
      (p.detailOpen screen).OnScreen screen ⟨p.calls + 1, .detailPanel⟩ := by
  obtain ⟨_, _, hcalls, hframe, hpanel, _⟩ := h.closeDeletingPanel_detail
  have hprevious : detailFrame screen ≠ previousDetailFrame screen := by
    intro e
    have hheight : screen.h / 2 = screen.w / 2 := congrArg CGRect.height e
    exact hsquare (by linarith)
  have hkept : (p.closeDeletingPanel screen).removePreviousPanel screen =
      p.closeDeletingPanel screen := by
    unfold removePreviousPanel
    rw [hframe, if_neg hprevious]
  rw [detailOpen_eq, hkept, onScreen_showDetailPanel hs, onScreen_showDetailPanel hs, hcalls]
  exact ⟨Or.inr hpanel, Or.inl ⟨rfl, trivial⟩⟩

/-- What `deletePins` does before it makes its own views. -/
def removeDetailPanel (screen : Screen) (p : Panels) : Panels :=
  if p.frame p.panel2 = detailFrame screen then
    ((p.removeFromSuperview p.panel2).removeFromSuperview p.deletePinBtn).removeFromSuperview
      p.modifyPinBtn
  else p

theorem deletePins_eq : p.deletePins screen =
    (removeDetailPanel screen { p with deletePinsBtnEnabled := false }).showDeletingPanel
      screen := rfl

theorem Shows.deletePins (hs : screen.Large) (h : p.Shows screen .nothing) :
    ∃ n, (p.deletePins screen).Shows screen (.deleting n) := by
  have hempty : ∀ v, ¬ p.OnScreen screen v := fun v => (h.onScreen_iff v).mp
  rw [deletePins_eq]
  refine ⟨_, shows_showDeletingPanel hs ?_ ?_ ?_⟩
  · unfold removeDetailPanel
    split <;> exact ⟨h.roles.panel1, h.roles.panel2, h.roles.hidePanelBtn, h.roles.deletePinBtn,
      h.roles.modifyPinBtn, h.roles.deleteAllPinsBtn⟩
  · intro v hv
    unfold removeDetailPanel at hv
    split at hv
    · simp only [onScreen_removeFromSuperview] at hv
      exact hempty v hv.1.1.1
    · exact hempty v hv
  · unfold removeDetailPanel
    split <;> rfl

/-- `deletePins` removes an open detail panel but not its close button. -/
theorem Shows.deletePins_leaves {n : Nat} (hs : screen.Large) (h : p.Shows screen (.detail n)) :
    (p.deletePins screen).OnScreen screen ⟨n, .hidePanelBtn⟩ ∧
      ¬ (p.deletePins screen).OnScreen screen ⟨n, .detailPanel⟩ ∧
      ¬ (p.deletePins screen).OnScreen screen ⟨n, .deletingPanel⟩ := by
  obtain ⟨_, hn, e2, ed, em, _, hframe⟩ := h.holds
  have hremoved : removeDetailPanel screen { p with deletePinsBtnEnabled := false } =
      { ((p.removeFromSuperview ⟨n, .detailPanel⟩).removeFromSuperview
        ⟨n, .deletePinBtn⟩).removeFromSuperview ⟨n, .modifyPinBtn⟩ with
          deletePinsBtnEnabled := false } := by
    unfold removeDetailPanel
    rw [if_pos hframe, ← e2, ← ed, ← em]
    rfl
  have honScreen : ∀ v, (p.deletePins screen).OnScreen screen v ↔
      (Showing.deleting (p.calls + 1)).Has v ∨
        ((p.OnScreen screen v ∧ v ≠ ⟨n, .detailPanel⟩) ∧ v ≠ ⟨n, .deletePinBtn⟩) ∧
          v ≠ ⟨n, .modifyPinBtn⟩ := by
    intro v
    rw [deletePins_eq, hremoved, onScreen_showDeletingPanel hs]
    exact or_congr Iff.rfl (onScreen_removeFromSuperview.trans (and_congr_left fun _ =>
      onScreen_removeFromSuperview.trans (and_congr_left fun _ => onScreen_removeFromSuperview)))
  have hnew : n ≠ p.calls + 1 := by omega
  rw [honScreen, honScreen, honScreen, h.onScreen_iff, h.onScreen_iff, h.onScreen_iff]
  simp [Showing.Has, PanelRole.ofDetail, PanelRole.ofDeleting, hnew]

end Panels

end WatashiMap
