import WatashiMap.Model.Effects
import WatashiMap.Panels.Showing

namespace WatashiMap

namespace Panels

variable {screen : Screen} {p : Panels} {v w : PanelView}

/-- The button's role and that of the panel it belongs to. -/
def PanelRole.BelongsTo : PanelRole → PanelRole → Prop
  | .hidePanelBtn, .detailPanel | .deletePinBtn, .detailPanel | .modifyPinBtn, .detailPanel
  | .hidePanelBtn, .deletingPanel | .deleteAllPinsBtn, .deletingPanel => True
  | _, _ => False

def PanelRole.IsPanel (role : PanelRole) : Prop := role = .detailPanel ∨ role = .deletingPanel

/-- At most one panel is on screen, with its close button, and every button on screen belongs
to a panel on screen. -/
structure Consistent (screen : Screen) (p : Panels) : Prop where
  onePanel : ∀ v w, p.OnScreen screen v → p.OnScreen screen w → PanelRole.IsPanel v.role →
    PanelRole.IsPanel w.role → v = w
  closable : ∀ v, p.OnScreen screen v → PanelRole.IsPanel v.role →
    p.OnScreen screen ⟨v.call, .hidePanelBtn⟩
  owned : ∀ v, p.OnScreen screen v → ¬ PanelRole.IsPanel v.role →
    ∃ role, PanelRole.BelongsTo v.role role ∧ p.OnScreen screen ⟨v.call, role⟩

theorem Showing.onePanel {showing : Showing} (hv : showing.Has v) (hw : showing.Has w)
    (hpv : PanelRole.IsPanel v.role) (hpw : PanelRole.IsPanel w.role) : v = w := by
  obtain ⟨c, role⟩ := v
  obtain ⟨c', role'⟩ := w
  cases showing with
  | nothing => cases hv
  | detail n | deleting n =>
    obtain ⟨rfl, hrole⟩ := hv
    obtain ⟨rfl, hrole'⟩ := hw
    rcases hpv with rfl | rfl <;> rcases hpw with rfl | rfl <;> trivial

theorem Showing.closable {showing : Showing} (hv : showing.Has v) :
    showing.Has ⟨v.call, .hidePanelBtn⟩ := by
  cases showing with
  | nothing => exact hv
  | detail n | deleting n => exact ⟨hv.1, trivial⟩

theorem Showing.owned {showing : Showing} (hv : showing.Has v)
    (hp : ¬ PanelRole.IsPanel v.role) :
    ∃ role, PanelRole.BelongsTo v.role role ∧ showing.Has ⟨v.call, role⟩ := by
  obtain ⟨c, role⟩ := v
  cases showing with
  | nothing => cases hv
  | detail n =>
    refine ⟨.detailPanel, ?_, hv.1, trivial⟩
    have hrole := hv.2
    cases role <;> simp_all [PanelRole.IsPanel, PanelRole.ofDetail, PanelRole.BelongsTo]
  | deleting n =>
    refine ⟨.deletingPanel, ?_, hv.1, trivial⟩
    have hrole := hv.2
    cases role <;> simp_all [PanelRole.IsPanel, PanelRole.ofDeleting, PanelRole.BelongsTo]

theorem Shows.consistent {showing : Showing} (h : p.Shows screen showing) :
    p.Consistent screen where
  onePanel := by
    intro v w hv hw
    have hv' := (h.onScreen_iff v).mp hv
    have hw' := (h.onScreen_iff w).mp hw
    exact Showing.onePanel hv' hw'
  closable := by
    intro v hv _
    have hv' := (h.onScreen_iff v).mp hv
    exact (h.onScreen_iff _).mpr (Showing.closable hv')
  owned := by
    intro v hv hp
    have hv' := (h.onScreen_iff v).mp hv
    obtain ⟨role, hrole, hhas⟩ := Showing.owned hv' hp
    exact ⟨role, hrole, (h.onScreen_iff _).mpr hhas⟩

end Panels

namespace PanelEvent

open Panels

variable {screen : Screen} {p : Panels}

def step (screen : Screen) (p : Panels) (e : PanelEvent) : Option Panels :=
  some (e.apply screen p)

/-- The operations on one panel find the other one closed, and `detailOpen` finds no detail
panel open, unless the screen is square. -/
def Safe (screen : Screen) (p : Panels) : PanelEvent → Prop
  | .deletePins | .hideDeletingPanel | .deleteAllPins =>
      ∀ v, v.role = .detailPanel → ¬ p.OnScreen screen v
  | .hideDetailPanel => ∀ v, v.role = .deletingPanel → ¬ p.OnScreen screen v
  | .detailOpen => ∀ v, v.role = .detailPanel → p.OnScreen screen v → screen.w = screen.h
  | .modifyPlace | .showEditView | .didSelect => True

theorem not_detail_iff {showing : Showing} (h : p.Shows screen showing) :
    (∀ v, v.role = .detailPanel → ¬ p.OnScreen screen v) ↔ ∀ n, showing ≠ .detail n := by
  constructor
  · intro hv n hn
    subst hn
    exact hv ⟨n, .detailPanel⟩ rfl ((h.onScreen_iff _).mpr ⟨rfl, trivial⟩)
  · intro hno v hrole hv
    obtain ⟨call, role⟩ := v
    cases hrole
    have hhas := (h.onScreen_iff _).mp hv
    cases showing with
    | nothing => exact hhas
    | detail n => exact hno n rfl
    | deleting n => exact hhas.2

theorem not_deleting_iff {showing : Showing} (h : p.Shows screen showing) :
    (∀ v, v.role = .deletingPanel → ¬ p.OnScreen screen v) ↔ ∀ n, showing ≠ .deleting n := by
  constructor
  · intro hv n hn
    subst hn
    exact hv ⟨n, .deletingPanel⟩ rfl ((h.onScreen_iff _).mpr ⟨rfl, trivial⟩)
  · intro hno v hrole hv
    obtain ⟨call, role⟩ := v
    cases hrole
    have hhas := (h.onScreen_iff _).mp hv
    cases showing with
    | nothing => exact hhas
    | detail n => exact hhas.2
    | deleting n => exact hno n rfl

theorem shows_apply (hs : screen.Large) {showing : Showing} (h : p.Shows screen showing)
    (e : PanelEvent) (he : e.Safe screen p) :
    ∃ showing', (e.apply screen p).Shows screen showing' := by
  cases e with
  | deletePins =>
    have hno := (not_detail_iff h).mp he
    cases showing with
    | nothing =>
      have henabled : p.deletePinsBtnEnabled = true := h.holds
      obtain ⟨n, hn⟩ := h.deletePins hs
      exact ⟨.deleting n, by rwa [apply, if_pos henabled]⟩
    | detail n => exact absurd rfl (hno n)
    | deleting n =>
      have hdisabled : ¬ p.deletePinsBtnEnabled = true := by simp [h.holds.1]
      exact ⟨.deleting n, by rwa [apply, if_neg hdisabled]⟩
  | hideDeletingPanel | deleteAllPins =>
    exact ⟨.nothing, h.hideDeletingPanel ((not_detail_iff h).mp he)⟩
  | detailOpen =>
    have hopened : ∃ n, (p.detailOpen screen).Shows screen (.detail n) := by
      cases showing with
      | nothing => exact h.detailOpen hs (by simp)
      | deleting n => exact h.detailOpen hs (by simp)
      | detail n =>
        exact h.detailOpen_square hs
          (he ⟨n, .detailPanel⟩ rfl ((h.onScreen_iff _).mpr ⟨rfl, trivial⟩))
    obtain ⟨n, hn⟩ := hopened
    exact ⟨.detail n, hn⟩
  | hideDetailPanel => exact ⟨.nothing, h.hideDetailPanel ((not_deleting_iff h).mp he)⟩
  | modifyPlace => exact ⟨.nothing, h.modifyPlace⟩
  | showEditView => exact ⟨.nothing, h.showEditView⟩
  | didSelect => exact ⟨.nothing, h.didSelect⟩

/-- An operation on one panel while the other is open strands a panel or a button. -/
theorem safe_of_consistent (hs : screen.Large) {showing : Showing} (h : p.Shows screen showing)
    (e : PanelEvent) (he : (e.apply screen p).Consistent screen) : e.Safe screen p := by
  cases e with
  | deletePins =>
    refine (not_detail_iff h).mpr ?_
    intro n hn
    subst hn
    rw [apply, if_pos h.holds.1] at he
    obtain ⟨hbtn, hdetail, hdeleting⟩ := h.deletePins_leaves hs
    obtain ⟨role, hrole, hpanel⟩ := he.owned _ hbtn (by simp [PanelRole.IsPanel])
    cases role with
    | detailPanel => exact hdetail hpanel
    | deletingPanel => exact hdeleting hpanel
    | hidePanelBtn | deletePinBtn | modifyPinBtn | deleteAllPinsBtn => exact hrole
  | hideDeletingPanel | deleteAllPins =>
    refine (not_detail_iff h).mpr ?_
    intro n hn
    subst hn
    obtain ⟨hpanel, hbtn⟩ := h.hideDeletingPanel_leaves
    exact hbtn (he.closable _ hpanel (Or.inl rfl))
  | detailOpen =>
    intro v hrole hv
    obtain ⟨call, role⟩ := v
    cases hrole
    by_contra hsquare
    cases showing with
    | nothing => exact (h.onScreen_iff _).mp hv
    | deleting n => exact ((h.onScreen_iff _).mp hv).2
    | detail n =>
      obtain ⟨hold, hnew⟩ := h.detailOpen_leaves hs hsquare
      have heq := he.onePanel _ _ hold hnew (Or.inl rfl) (Or.inl rfl)
      have hn : n ≤ p.calls := h.holds.2.1
      have hcall : n = p.calls + 1 := congrArg PanelView.call heq
      omega
  | hideDetailPanel =>
    refine (not_deleting_iff h).mpr ?_
    intro n hn
    subst hn
    obtain ⟨hpanel, hbtn⟩ := h.hideDetailPanel_leaves
    exact hbtn (he.closable _ hpanel (Or.inr rfl))
  | modifyPlace | showEditView | didSelect => trivial

theorem run_eq_foldl (events : List PanelEvent) (p : Panels) :
    Machine.run (step screen) p events = some (events.foldl (apply screen) p) := by
  induction events generalizing p with
  | nil => rfl
  | cons e events ih => exact ih (e.apply screen p)

/-- On a view that stays, every operation of the app takes the panels through such events. -/
theorem perform_panelRun {D F : Type} [SwiftDouble D] [SwiftCGFloat F] [DecidableEq D]
    {r : Realm} {p q : Process D F} {o : Op D F} (ho : o.rebuilds = false)
    (h : o.perform screen r p = some q) :
    Machine.run (step screen) p.vc.panels (o.panelEvents p.vc) = some q.vc.panels := by
  rw [run_eq_foldl, (Op.effect ho h).panels]

end PanelEvent

/-- Nothing, one detail panel or one deleting panel is on screen. -/
def Panels.ShowsOne (screen : Screen) (p : Panels) : Prop := ∃ showing, p.Shows screen showing

/-- On every screen large enough for both panels, the runs from the start that keep panels and
buttons consistent are the runs whose steps all are safe: `deletePins`, `hideDeletingPanel` and
`deleteAllPins` without an open detail panel, `hideDetailPanel` without an open deleting panel,
and `detailOpen` without an open detail panel or on a square screen. -/
theorem panels_consistent_iff (screen : {s : Screen // s.Large}) (es : List PanelEvent) :
    Machine.Always (PanelEvent.step screen) (Panels.Consistent screen) Panels.initial es ↔
      Machine.EachStep (PanelEvent.step screen) (fun p e => e.Safe screen p) Panels.initial
        es := by
  have hshown : ∀ p, Panels.ShowsOne screen p → p.Consistent screen := by
    intro p hp
    obtain ⟨showing, h⟩ := hp
    exact h.consistent
  refine Machine.always_iff_eachStep hshown ?_ ?_ ⟨_, Panels.shows_initial⟩ es
  · intro p e q hp hq he
    obtain ⟨showing, h⟩ := hp
    cases hq
    exact PanelEvent.shows_apply screen.2 h e he
  · intro p e q hp hq he
    obtain ⟨showing, h⟩ := hp
    cases hq
    exact PanelEvent.safe_of_consistent screen.2 h e he

/-- On a 375 by 667 screen two calls of `detailOpen` leave two detail panels. -/
theorem detailOpen_twice_strands_panel :
    let screen : Screen := ⟨375, 667⟩
    ¬ Machine.Always (PanelEvent.step screen) (Panels.Consistent screen) Panels.initial
      [.detailOpen, .detailOpen] := by
  intro screen h
  have hlarge : screen.Large := ⟨by norm_num [screen], by norm_num [screen]⟩
  have hconsistent := h _ List.prefix_rfl _ rfl
  obtain ⟨n, hopen⟩ := Panels.shows_initial.detailOpen hlarge (by simp)
  obtain ⟨hold, hnew⟩ := hopen.detailOpen_leaves hlarge (by norm_num [screen])
  have hcall := congrArg PanelView.call
    (hconsistent.onePanel _ _ hold hnew (Or.inl rfl) (Or.inl rfl))
  have hn : n ≤ (Panels.initial.detailOpen screen).calls := hopen.holds.2.1
  dsimp only at hcall
  omega

end WatashiMap
