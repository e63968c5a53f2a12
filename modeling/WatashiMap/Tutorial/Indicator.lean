import WatashiMap.Library.LastWrite
import WatashiMap.Model.Tutorial

namespace WatashiMap

/-- 0 for `TutorialPage1`, 1 for `TutorialPage2`. -/
def TutorialPage.index : TutorialPage → Nat
  | .page1 _ => 0
  | .page2 _ => 1

theorem TutorialPage.index_le_one (q : TutorialPage) : q.index ≤ 1 := by
  cases q <;> simp [index]

namespace Tutorial

/-- Which page each instance is. -/
def kinds (t : Tutorial) : List Nat := t.pages.map TutorialPage.index

theorem map_index_set {pages : List TutorialPage} {i : Nat} {old q : TutorialPage}
    (h : pages[i]? = some old) (hq : q.index = old.index) :
    (pages.set i q).map TutorialPage.index = pages.map TutorialPage.index := by
  obtain ⟨hi, hold⟩ := List.getElem?_eq_some_iff.mp h
  have hmap : i < (pages.map TutorialPage.index).length := by rwa [List.length_map]
  have hkind : (pages.map TutorialPage.index)[i] = old.index := by rw [List.getElem_map, hold]
  rw [List.map_set, hq, ← hkind, List.set_getElem_self]

variable {t : Tutorial} {i : Nat}

/-- Other things may have changed on the pages, but these and the indicator are as before. -/
structure SamePages (t u : Tutorial) : Prop where
  kinds : u.kinds = t.kinds
  currentPage : u.currentPage = t.currentPage

theorem samePages_load : t.SamePages (t.load i) := by
  unfold load
  split
  · next p hi =>
    split
    · exact ⟨rfl, rfl⟩
    · exact ⟨map_index_set hi rfl, rfl⟩
  · next p hi =>
    split
    · exact ⟨rfl, rfl⟩
    · exact ⟨map_index_set hi rfl, rfl⟩
  · exact ⟨rfl, rfl⟩

theorem samePages_tapOK : t.SamePages (t.tapOK i) := by
  unfold tapOK
  split
  · next p hi =>
    split
    · exact ⟨map_index_set hi rfl, rfl⟩
    · exact ⟨map_index_set hi rfl, rfl⟩
    · exact ⟨map_index_set hi rfl, rfl⟩
    · exact ⟨map_index_set hi rfl, rfl⟩
    · exact ⟨rfl, rfl⟩
  · next p hi =>
    split
    · exact ⟨map_index_set hi rfl, rfl⟩
    · exact ⟨map_index_set hi rfl, rfl⟩
    · exact ⟨rfl, rfl⟩
  · exact ⟨rfl, rfl⟩

theorem samePages_labelRemoved : t.SamePages (t.labelRemoved i) := by
  unfold labelRemoved
  split
  · next p hi =>
    split
    · exact ⟨map_index_set hi rfl, rfl⟩
    · exact ⟨rfl, rfl⟩
  · exact ⟨rfl, rfl⟩

/-- From an indicator at most 1, `currentPage -= 1` leaves 0, whatever page the query is about. -/
theorem currentPage_viewControllerBefore (hi : i < t.pages.length) (ht : t.currentPage ≤ 1) :
    (t.viewControllerBefore i).currentPage = 0 := by
  have hzero : (max 0 (min ((t.currentPage : Int) - 1) 1)).toNat = 0 := by omega
  unfold viewControllerBefore
  rw [List.getElem?_eq_getElem hi]
  cases t.pages[i] with
  | page1 p => exact hzero
  | page2 p => exact hzero

/-- `currentPage += 1` leaves 1. -/
theorem currentPage_viewControllerAfter (hi : i < t.pages.length) :
    (t.viewControllerAfter i).currentPage = 1 := by
  have hone : (max 0 (min ((t.currentPage : Int) + 1) 1)).toNat = 1 := by omega
  unfold viewControllerAfter
  rw [List.getElem?_eq_getElem hi]
  cases t.pages[i] with
  | page1 p => exact hone
  | page2 p => exact hone

theorem kinds_viewControllerBefore : t.kinds <+: (t.viewControllerBefore i).kinds := by
  unfold viewControllerBefore
  split
  · simp [kinds, setCurrentPage]
  · exact List.prefix_rfl
  · exact List.prefix_rfl

theorem kinds_viewControllerAfter : t.kinds <+: (t.viewControllerAfter i).kinds := by
  unfold viewControllerAfter
  split
  · simp [kinds, setCurrentPage]
  · exact List.prefix_rfl
  · exact List.prefix_rfl

end Tutorial

namespace TutorialEvent

/-- A page keeps its place and stays what it is. -/
theorem kinds_apply (t : Tutorial) (e : TutorialEvent) : t.kinds <+: (e.apply t).kinds := by
  cases e with
  | viewDidLoad => simp [apply, Tutorial.viewDidLoad, Tutorial.kinds]
  | viewControllerBefore i => exact Tutorial.kinds_viewControllerBefore
  | viewControllerAfter i => exact Tutorial.kinds_viewControllerAfter
  | load i => simp [apply, Tutorial.samePages_load.kinds]
  | tapOK i => simp [apply, Tutorial.samePages_tapOK.kinds]
  | labelRemoved i => simp [apply, Tutorial.samePages_labelRemoved.kinds]
  | backToMap => exact List.prefix_rfl

theorem length_pages_le (t : Tutorial) (e : TutorialEvent) :
    t.pages.length ≤ (e.apply t).pages.length := by
  simpa [Tutorial.kinds] using (e.kinds_apply t).length_le

/-- Whether the event can happen during the visit that made the pages from `first` on; UIKit asks
for the neighbours of pages it has been given. -/
def inVisit (first made : Nat) : TutorialEvent → Bool
  | .viewControllerBefore i | .viewControllerAfter i => first ≤ i && i < made
  | .load _ | .tapOK _ | .labelRemoved _ => true
  | .viewDidLoad | .backToMap => false

/-- What the event makes the indicator show. -/
def indicated : TutorialEvent → Option Nat
  | .viewControllerBefore _ => some 0
  | .viewControllerAfter _ => some 1
  | _ => none

theorem currentPage_apply {t : Tutorial} {e : TutorialEvent} {first : Nat}
    (ht : t.currentPage ≤ 1) (he : e.inVisit first t.pages.length = true) :
    (e.apply t).currentPage = e.indicated.getD t.currentPage := by
  cases e with
  | viewControllerBefore i =>
    obtain ⟨_, hi⟩ := Bool.and_eq_true_iff.mp he
    exact Tutorial.currentPage_viewControllerBefore (of_decide_eq_true hi) ht
  | viewControllerAfter i =>
    obtain ⟨_, hi⟩ := Bool.and_eq_true_iff.mp he
    exact Tutorial.currentPage_viewControllerAfter (of_decide_eq_true hi)
  | load i => exact Tutorial.samePages_load.currentPage
  | tapOK i => exact Tutorial.samePages_tapOK.currentPage
  | labelRemoved i => exact Tutorial.samePages_labelRemoved.currentPage
  | viewDidLoad | backToMap => cases he

theorem currentPage_apply_le {t : Tutorial} {e : TutorialEvent} {first : Nat}
    (ht : t.currentPage ≤ 1) (he : e.inVisit first t.pages.length = true) :
    (e.apply t).currentPage ≤ 1 := by
  rw [currentPage_apply ht he]
  cases e <;> simp [indicated, ht]

end TutorialEvent

/-- A visit to the tutorial: its first page and the page on screen. -/
structure PageView where
  tutorial : Tutorial
  first : Nat
  shown : Nat
  isMade : shown < tutorial.pages.length
  indicator_le : tutorial.currentPage ≤ 1

/-- What happens during a visit; `turn j` is the end of a page turn to page `j`. -/
inductive PageEvent where
  | tutorial (e : TutorialEvent)
  | turn (j : Nat)
  deriving DecidableEq

namespace PageView

/-- The visit that `PageViewController.viewDidLoad` starts. -/
def viewDidLoad (t : Tutorial) : PageView where
  tutorial := t.viewDidLoad
  first := t.pages.length
  shown := t.pages.length
  isMade := by simp [Tutorial.viewDidLoad]
  indicator_le := Nat.zero_le 1

def onScreen (s : PageView) : TutorialPage := s.tutorial.pages.get ⟨s.shown, s.isMade⟩

/-- A turn leads from a page to one of the other kind, made earlier in the visit. -/
def step (s : PageView) : PageEvent → Option PageView
  | .tutorial e =>
      if he : e.inVisit s.first s.tutorial.pages.length = true then
        some ⟨e.apply s.tutorial, s.first, s.shown,
          Nat.lt_of_lt_of_le s.isMade (e.length_pages_le s.tutorial),
          TutorialEvent.currentPage_apply_le s.indicator_le he⟩
      else none
  | .turn j =>
      if hj : s.first ≤ j ∧ j < s.tutorial.pages.length then
        if (s.tutorial.pages.get ⟨j, hj.2⟩).index ≠ s.onScreen.index then
          some { s with shown := j, isMade := hj.2 }
        else none
      else none

/-- The indicator shows the page on screen. -/
def Indicates (s : PageView) : Prop := s.tutorial.currentPage = s.onScreen.index

end PageView

namespace PageEvent

def indicated : PageEvent → Option Nat
  | .tutorial e => e.indicated
  | .turn _ => none

def isTurn : PageEvent → Bool
  | .tutorial _ => false
  | .turn _ => true

theorem indicated_getD_zero {e : PageEvent} (he : e.indicated ≠ some 1) :
    e.indicated.getD 0 = 0 := by
  cases e with
  | tutorial e =>
    cases e with
    | viewControllerAfter i => exact absurd rfl he
    | _ => rfl
  | turn j => rfl

end PageEvent

namespace PageView

theorem step_tutorial {s t : PageView} {e : TutorialEvent} (h : s.step (.tutorial e) = some t) :
    e.inVisit s.first s.tutorial.pages.length = true ∧ t.tutorial = e.apply s.tutorial ∧
      t.shown = s.shown := by
  unfold step at h
  dsimp only at h
  split at h
  · next he =>
    cases h
    exact ⟨he, rfl, rfl⟩
  · cases h

theorem step_turn {s t : PageView} {j : Nat} (h : s.step (.turn j) = some t) :
    t.tutorial = s.tutorial ∧ t.onScreen.index ≠ s.onScreen.index := by
  unfold step at h
  dsimp only at h
  split at h
  · split at h
    · next hne =>
      cases h
      exact ⟨rfl, hne⟩
    · cases h
  · cases h

theorem kinds_shown (s : PageView) : s.tutorial.kinds[s.shown]? = some s.onScreen.index := by
  rw [Tutorial.kinds, List.getElem?_map, List.getElem?_eq_getElem s.isMade]
  rfl

/-- Only a turn changes the page on screen. -/
theorem index_step_tutorial {s t : PageView} {e : TutorialEvent}
    (h : s.step (.tutorial e) = some t) : t.onScreen.index = s.onScreen.index := by
  obtain ⟨_, htutorial, hshown⟩ := step_tutorial h
  obtain ⟨made, hmade⟩ := e.kinds_apply s.tutorial
  have hkept : (e.apply s.tutorial).kinds[s.shown]? = some s.onScreen.index := by
    rw [← hmade, List.getElem?_append_left (by simpa [Tutorial.kinds] using s.isMade),
      s.kinds_shown]
  rw [← htutorial, ← hshown, t.kinds_shown] at hkept
  exact Option.some.inj hkept

/-- Only a query changes the indicator. -/
theorem currentPage_step (s : PageView) (e : PageEvent) (t : PageView) (h : s.step e = some t) :
    t.tutorial.currentPage = e.indicated.getD s.tutorial.currentPage := by
  cases e with
  | tutorial e =>
    obtain ⟨he, htutorial, _⟩ := step_tutorial h
    rw [htutorial]
    exact TutorialEvent.currentPage_apply s.indicator_le he
  | turn j =>
    obtain ⟨htutorial, _⟩ := step_turn h
    rw [htutorial]
    rfl

theorem index_step (s : PageView) (e : PageEvent) (t : PageView) (h : s.step e = some t) :
    t.onScreen.index = (s.onScreen.index + e.isTurn.toNat) % 2 := by
  have hs := s.onScreen.index_le_one
  cases e with
  | tutorial e =>
    rw [index_step_tutorial h]
    change _ = (_ + 0) % 2
    omega
  | turn j =>
    obtain ⟨_, hne⟩ := step_turn h
    have ht := t.onScreen.index_le_one
    change _ = (_ + 1) % 2
    omega

end PageView

/-- The number of page turns. -/
def turns (es : List PageEvent) : Nat := es.countP PageEvent.isTurn

namespace PageView

theorem index_of_run {es : List PageEvent} {s t : PageView} (h : Machine.run step s es = some t) :
    t.onScreen.index = (s.onScreen.index + turns es) % 2 := by
  induction es generalizing s with
  | nil =>
    cases h
    have ht := t.onScreen.index_le_one
    simp only [turns, List.countP_nil]
    omega
  | cons e es ih =>
    rw [Machine.run_cons] at h
    obtain ⟨u, hu, h⟩ := Option.bind_eq_some_iff.mp h
    have hcount : turns (e :: es) = turns es + e.isTurn.toNat := by
      rw [turns, List.countP_cons]
      cases e <;> rfl
    rw [ih h, index_step s e u hu, hcount]
    omega

theorem viewDidLoad_index (t : Tutorial) : (viewDidLoad t).onScreen.index = 0 := by
  simp [onScreen, viewDidLoad, Tutorial.viewDidLoad, Tutorial.getFirst, TutorialPage.index]

/-- The event is no page turn and no query for the page after. -/
def StaysFirst (_ : PageView) (e : PageEvent) : Prop := e.isTurn = false ∧ e.indicated ≠ some 1

/-- A step keeps the first page on screen and indicated, or is seen to miss. -/
theorem stays_first_iff {s u : PageView} {e : PageEvent} (hs : s.Indicates)
    (hzero : s.onScreen.index = 0) (h : s.step e = some u) :
    s.StaysFirst e ↔ u.Indicates := by
  have hindex := index_step s e u h
  have hcurrent := currentPage_step s e u h
  rw [hs, hzero] at hcurrent
  rw [hzero, Nat.zero_add] at hindex
  constructor
  · intro he
    obtain ⟨hturn, hafter⟩ := he
    rw [Indicates, hcurrent, hindex, hturn]
    exact PageEvent.indicated_getD_zero hafter
  · intro hu
    rw [Indicates, hcurrent, hindex] at hu
    cases e with
    | tutorial e =>
      refine ⟨rfl, ?_⟩
      intro hafter
      rw [hafter] at hu
      cases hu
    | turn j => cases hu

/-- The indicator is right all through the visits in which no page is turned and none asked for
that comes after: a turn leaves the indicator alone, and the query before it came too early. -/
theorem always_indicates_iff (t : Tutorial) (es : List PageEvent) :
    Machine.Always step Indicates (viewDidLoad t) es ↔
      Machine.EachStep step StaysFirst (viewDidLoad t) es := by
  have hkeep (s : PageView) (e : PageEvent) (u : PageView)
      (hs : s.Indicates ∧ s.onScreen.index = 0) (h : s.step e = some u) (he : s.StaysFirst e) :
      u.Indicates ∧ u.onScreen.index = 0 := by
    obtain ⟨hindicates, hzero⟩ := hs
    refine ⟨(stays_first_iff hindicates hzero h).mp he, ?_⟩
    rw [index_step s e u h, hzero, he.1]
    rfl
  have hstart : (viewDidLoad t).Indicates := (viewDidLoad_index t).symm
  exact Machine.always_iff_eachStep (fun s hs => hs.1) hkeep
    (fun s e u hs h hu => (stays_first_iff hs.1 hs.2 h).mpr hu) ⟨hstart, viewDidLoad_index t⟩ es

/-- The page on screen is the first one after an even number of turns, and the indicator shows
what the last query made of it: they agree when that query, if there was one, asked for the page
after and the number of turns is odd, or neither. -/
theorem page_indicator_iff (t : Tutorial) {es : List PageEvent} {s : PageView}
    (h : Machine.run step (viewDidLoad t) es = some s) :
    s.Indicates ↔ LastWrite.value PageEvent.indicated 0 es = turns es % 2 := by
  have hpage := index_of_run h
  rw [viewDidLoad_index, Nat.zero_add] at hpage
  have hindicator : s.tutorial.currentPage = LastWrite.value PageEvent.indicated 0 es :=
    LastWrite.value_of_run currentPage_step h
  rw [Indicates, hpage, hindicator]

/-- The second page is asked for and turned to. -/
theorem turned_page_is_indicated :
    ∃ s, Machine.run step (viewDidLoad .launch)
        [.tutorial (.viewControllerAfter 0), .turn 1] = some s ∧ s.Indicates := by
  have hrun : (Machine.run step (viewDidLoad .launch)
      [.tutorial (.viewControllerAfter 0), .turn 1]).isSome := by decide
  obtain ⟨s, hs⟩ := Option.isSome_iff_exists.mp hrun
  exact ⟨s, hs, (page_indicator_iff .launch hs).mpr (by decide)⟩

/-- The page after the first is asked for, and the first stays on screen. -/
theorem asked_page_is_indicated :
    ¬ ∀ es s, Machine.run step (viewDidLoad .launch) es = some s → s.Indicates := by
  intro hall
  have hrun : (Machine.run step (viewDidLoad .launch)
      [.tutorial (.viewControllerAfter 0)]).map (fun s =>
        (s.tutorial.currentPage, s.onScreen.index)) = some (1, 0) := by decide
  obtain ⟨s, hs, hpages⟩ := Option.map_eq_some_iff.mp hrun
  obtain ⟨hone, hzero⟩ := Prod.mk.inj hpages
  have hindicates := hall _ s hs
  rw [Indicates, hone, hzero] at hindicates
  cases hindicates

end PageView

end WatashiMap
