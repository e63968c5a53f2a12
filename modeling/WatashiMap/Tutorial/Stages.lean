import WatashiMap.Tutorial.Timers

namespace WatashiMap

/-- The animation that runs on a page in its present stage: the search bar blinks until the first
OK, the swipe text moves from the fourth one on, and the second page's button from its last. -/
def TutorialPage.stage : TutorialPage → Option TimerSelector
  | .page1 p =>
      if p.isLoaded then
        match p.okBtn with
        | some .changeLabel1 => some .page1Animate
        | none => some .page1Animate2
        | _ => none
      else none
  | .page2 p =>
      if p.isLoaded && (p.labelIsLeaving || p.okBtn = none) then some .page2Animate else none

namespace Tutorial

def stageAt (t : Tutorial) (i : Nat) : Option TimerSelector :=
  (t.pages[i]?).bind TutorialPage.stage

/-- The number of valid timers with this target and selector. -/
def running (a : AnimationTimer) (t : Tutorial) : Nat :=
  t.timers.live.countP fun e => e.2 = a

/-- A valid timer calls its page in the stage it was made for. -/
structure InStage (t : Tutorial) : Prop where
  calls : ∀ e ∈ t.timers.live, t.stageAt e.2.target = some e.2.selector
  loaded : ∀ p, .page2 p ∈ t.pages → p.okBtn.isSome → p.isLoaded = true

variable {t : Tutorial} {inStatic : Bool} {n i : Nat}

theorem stageAt_of_getElem? {q : TutorialPage} (h : t.pages[i]? = some q) :
    t.stageAt i = q.stage := by
  rw [stageAt, h, Option.bind_some]

/-- A stage with an animation lasts through a change of the page that keeps it. -/
theorem stageAt_set {old q : TutorialPage} {j : Nat} {selector : TimerSelector}
    (hi : t.pages[i]? = some old) (hq : ∀ s, old.stage = some s → q.stage = some s)
    (hj : t.stageAt j = some selector) :
    { t with pages := t.pages.set i q }.stageAt j = some selector := by
  obtain ⟨hlt, _⟩ := List.getElem?_eq_some_iff.mp hi
  by_cases hji : j = i
  · subst hji
    rw [stageAt_of_getElem? hi] at hj
    rw [stageAt, List.getElem?_set_self hlt, Option.bind_some, hq selector hj]
  · rw [stageAt, List.getElem?_set_ne (Ne.symm hji)]
    exact hj

theorem stageAt_append {q : TutorialPage} {selector : TimerSelector}
    (hi : t.stageAt i = some selector) :
    { t with pages := t.pages ++ [q] }.stageAt i = some selector := by
  obtain ⟨old, hold, _⟩ := Option.bind_eq_some_iff.mp hi
  obtain ⟨hlt, _⟩ := List.getElem?_eq_some_iff.mp hold
  rw [stageAt, List.getElem?_append_left hlt]
  exact hi

theorem loaded_set {pages : List TutorialPage}
    (h : ∀ p, .page2 p ∈ pages → p.okBtn.isSome → p.isLoaded = true) {q : TutorialPage}
    (hq : ∀ p, q = .page2 p → p.okBtn.isSome → p.isLoaded = true) :
    ∀ p, .page2 p ∈ pages.set i q → p.okBtn.isSome → p.isLoaded = true := by
  intro p hp
  rcases List.mem_or_eq_of_mem_set hp with hp | hp
  · exact h p hp
  · exact hq p hp.symm

theorem launch_inStage : launch.InStage where
  calls _ he := absurd he List.not_mem_nil
  loaded _ hp := absurd hp List.not_mem_nil

theorem InStage.setCurrentPage (h : t.InStage) (page : Int) : (t.setCurrentPage page).InStage :=
  ⟨h.calls, h.loaded⟩

theorem InStage.append (h : t.InStage) {q : TutorialPage}
    (hq : ∀ p, q = .page2 p → p.okBtn.isSome → p.isLoaded = true) :
    { t with pages := t.pages ++ [q] }.InStage where
  calls e he := stageAt_append (h.calls e he)
  loaded p hp := by
    rcases List.mem_append.mp hp with hp | hp
    · exact h.loaded p hp
    · exact hq p (List.mem_singleton.mp hp).symm

theorem InStage.viewDidLoad (h : t.InStage) : t.viewDidLoad.InStage := by
  obtain ⟨hcalls, hloaded⟩ := h.append (q := getFirst) nofun
  exact ⟨hcalls, hloaded⟩

theorem getSecond_loaded (p : TutorialPage2) (hp : getSecond = .page2 p) (hbtn : p.okBtn.isSome) :
    p.isLoaded = true := by
  cases hp
  cases hbtn

theorem InStage.viewControllerBefore (h : t.InStage) : (t.viewControllerBefore i).InStage := by
  unfold Tutorial.viewControllerBefore
  split
  · exact (h.setCurrentPage _).append nofun
  · exact h.setCurrentPage _
  · exact h

theorem InStage.viewControllerAfter (h : t.InStage) : (t.viewControllerAfter i).InStage := by
  unfold Tutorial.viewControllerAfter
  split
  · exact (h.setCurrentPage _).append getSecond_loaded
  · exact h.setCurrentPage _
  · exact h

/-- A page changes, no timer does, and an animation that runs goes on. -/
theorem InStage.set_same (h : t.InStage) {old q : TutorialPage} (hi : t.pages[i]? = some old)
    (hq : ∀ s, old.stage = some s → q.stage = some s)
    (hloaded : ∀ p, q = .page2 p → p.okBtn.isSome → p.isLoaded = true) :
    { t with pages := t.pages.set i q }.InStage where
  calls e he := stageAt_set hi hq (h.calls e he)
  loaded := loaded_set h.loaded hloaded

/-- A new timer calls the page in the stage that the page enters with it. -/
theorem InStage.acquire (h : t.InStage) (selector : TimerSelector) {old q : TutorialPage}
    (hi : t.pages[i]? = some old) (hq : q.stage = some selector)
    (hold : ∀ s, old.stage = some s → s = selector)
    (hloaded : ∀ p, q = .page2 p → p.okBtn.isSome → p.isLoaded = true) :
    { t with timers := t.timers.acquire ⟨i, selector⟩, pages := t.pages.set i q }.InStage where
  calls := by
    intro e he
    rcases Pool.mem_acquire.mp he with he | rfl
    · exact stageAt_set hi (fun s hs => by rw [hq, hold s hs]) (h.calls e he)
    · obtain ⟨hlt, _⟩ := List.getElem?_eq_some_iff.mp hi
      rw [stageAt, List.getElem?_set_self hlt, Option.bind_some, hq]
  loaded := loaded_set h.loaded hloaded

theorem InStage.load (h : t.InStage) : (t.load i).InStage := by
  unfold Tutorial.load
  split
  · next p hi =>
    split
    · exact h
    · next hnot =>
      obtain ⟨hcalls, hloaded⟩ := h.acquire .page1Animate
        (q := .page1 ⟨true, some .changeLabel1, some t.timers.next⟩) hi rfl
        (by simp [TutorialPage.stage, hnot]) nofun
      exact ⟨hcalls, hloaded⟩
  · next p hi =>
    split
    · exact h
    · next hnot =>
      refine h.set_same hi (by simp [TutorialPage.stage, hnot]) ?_
      intro r hr _
      cases hr
      rfl
  · exact h

/-- The first OK stops the only timer that calls the page: it is the one in the page's field. -/
theorem InStage.changeLabel1 (hs : t.InStage) (h : t.Holds inStatic n) {p : TutorialPage1}
    (hi : t.pages[i]? = some (.page1 p)) (hbtn : p.okBtn = some .changeLabel1) :
    (t.changeLabel1 i p).InStage where
  calls := by
    intro e he
    obtain ⟨he, hkept⟩ := Pool.mem_release.mp he
    have hcalls := hs.calls e he
    by_cases hei : e.2.target = i
    · have hloaded : p.isLoaded = true := h.isLoaded_of_okBtn hi hbtn
      have hstage : t.stageAt i = some .page1Animate := by
        simp [stageAt_of_getElem? hi, TutorialPage.stage, hloaded, hbtn]
      rw [hei, hstage] at hcalls
      have howner : e.2.owner = some i := by
        rw [AnimationTimer.owner, ← Option.some.inj hcalls, hei]
      have hanimates : p.animates = true := by simp [TutorialPage1.animates, hloaded, hbtn]
      have hown := h.slots.own_of_live e he i howner
      rw [own_of_getElem? hi, TutorialPage.ownTimer, if_pos hanimates] at hown
      exact absurd hown.symm hkept
    · rw [stageAt] at hcalls ⊢
      change ((t.pages.set i _)[e.2.target]?).bind _ = _
      rwa [List.getElem?_set_ne (Ne.symm hei)]
  loaded := loaded_set hs.loaded nofun

/-- Between its two timers the first page has no animation. -/
theorem InStage.next_label (h : t.InStage) {p q : TutorialPage1}
    (hi : t.pages[i]? = some (.page1 p)) {old : Page1Action} (hbtn : p.okBtn = some old)
    (hold : old ≠ .changeLabel1) : (t.setPage1 i q).InStage := by
  refine h.set_same hi ?_ nofun
  simp [TutorialPage.stage, hbtn, hold]

theorem InStage.nextPage (h : t.InStage) {p : TutorialPage1}
    (hi : t.pages[i]? = some (.page1 p)) (hbtn : p.okBtn = some .nextPage)
    (hloaded : p.isLoaded = true) : (t.nextPage i p).InStage := by
  obtain ⟨hcalls, hpages⟩ := h.acquire .page1Animate2
    (q := .page1 { p with okBtn := none, animationTimer := some t.timers.next }) hi
    (by simp [TutorialPage.stage, hloaded]) (by simp [TutorialPage.stage, hbtn]) nofun
  exact ⟨hcalls, hpages⟩

theorem InStage.page2_loaded (h : t.InStage) {p : TutorialPage2}
    (hi : t.pages[i]? = some (.page2 p)) {action : Page2Action} (hbtn : p.okBtn = some action) :
    p.isLoaded = true :=
  h.loaded p (List.mem_of_getElem? hi) (Option.isSome_of_eq_some hbtn)

theorem InStage.openDetail (h : t.InStage) {p : TutorialPage2}
    (hi : t.pages[i]? = some (.page2 p)) (hbtn : p.okBtn = some .openDetail) :
    (t.openDetail i p).InStage := by
  have hloaded : p.isLoaded = true := h.page2_loaded hi hbtn
  refine h.set_same hi ?_ ?_
  · simp [TutorialPage.stage, hbtn]
  · intro r hr _
    cases hr
    exact hloaded

theorem InStage.hideLabel (h : t.InStage) {p : TutorialPage2}
    (hi : t.pages[i]? = some (.page2 p)) (hbtn : p.okBtn = some .hideLabel) :
    (t.hideLabel i p).InStage := by
  have hloaded : p.isLoaded = true := h.page2_loaded hi hbtn
  obtain ⟨hcalls, hpages⟩ := h.acquire .page2Animate
    (q := .page2 { p with labelIsLeaving := true }) hi
    (by simp [TutorialPage.stage, hloaded]) (by simp [TutorialPage.stage]) (by
      intro r hr _
      cases hr
      exact hloaded)
  exact ⟨hcalls, hpages⟩

theorem InStage.tapOK (hs : t.InStage) (h : t.Holds inStatic n) : (t.tapOK i).InStage := by
  unfold Tutorial.tapOK
  split
  · next p hi =>
    split
    · next hbtn => exact hs.changeLabel1 h hi hbtn
    · next hbtn => exact hs.next_label hi hbtn (by decide)
    · next hbtn => exact hs.next_label hi hbtn (by decide)
    · next hbtn => exact hs.nextPage hi hbtn (h.isLoaded_of_okBtn hi hbtn)
    · exact hs
  · next p hi =>
    split
    · next hbtn => exact hs.openDetail hi hbtn
    · next hbtn => exact hs.hideLabel hi hbtn
    · exact hs
  · exact hs

theorem InStage.labelRemoved (h : t.InStage) : (t.labelRemoved i).InStage := by
  unfold Tutorial.labelRemoved
  split
  · next p hi =>
    split
    · refine h.set_same hi ?_ ?_
      · simp +contextual [TutorialPage.stage]
      · intro r hr hbtn
        cases hr
        cases hbtn
    · exact h
  · exact h

theorem InStage.backToMap (h : t.InStage) : t.backToMap.InStage where
  calls e he := h.calls e (Pool.mem_release.mp he).1
  loaded := h.loaded

theorem InStage.apply (hs : t.InStage) (h : t.Holds inStatic n) (e : TutorialEvent) :
    (e.apply t).InStage := by
  cases e with
  | viewDidLoad => exact hs.viewDidLoad
  | viewControllerBefore i => exact hs.viewControllerBefore
  | viewControllerAfter i => exact hs.viewControllerAfter
  | load i => exact hs.load
  | tapOK i => exact hs.tapOK h
  | labelRemoved i => exact hs.labelRemoved
  | backToMap => exact hs.backToMap

theorem foldl_apply_inStage (hs : t.InStage) (h : t.Holds inStatic n) (es : List TutorialEvent) :
    (es.foldl TutorialEvent.apply t).InStage := by
  induction es generalizing t inStatic n with
  | nil => exact hs
  | cons e es ih => exact ih (hs.apply h e) (e.apply_holds h)

theorem InStage.running_eq_zero (h : t.InStage) {selector : TimerSelector}
    (hi : t.stageAt i ≠ some selector) : t.running ⟨i, selector⟩ = 0 := by
  rw [running, List.countP_eq_zero]
  intro e he heq
  have hcalls := h.calls e he
  rw [of_decide_eq_true heq] at hcalls
  exact hi hcalls

theorem owner_eq_some {a : AnimationTimer} (h : a.owner = some i) : a.target = i := by
  obtain ⟨target, selector⟩ := a
  cases selector with
  | page2Animate => cases h
  | _ => exact Option.some.inj h

/-- A first page with an animation holds a timer. -/
theorem Holds.own_of_stage (h : t.Holds inStatic n) {selector : TimerSelector}
    (hi : t.stageAt i = some selector) (hselector : selector ≠ .page2Animate) :
    ∃ k, own t.pages i = some k := by
  obtain ⟨q, hq, hstage⟩ := Option.bind_eq_some_iff.mp hi
  cases q with
  | page1 p =>
    have hanimates : p.animates = true := by
      simp only [TutorialPage.stage] at hstage
      split at hstage
      · next hloaded =>
        split at hstage
        · next hbtn => simp [TutorialPage1.animates, hloaded, hbtn]
        · next hbtn => simp [TutorialPage1.animates, hloaded, hbtn]
        · cases hstage
      · cases hstage
    obtain ⟨k, hk⟩ := Option.isSome_iff_exists.mp ((h.page1_sound hq).1 hanimates)
    exact ⟨k, by rw [own_of_getElem? hq, TutorialPage.ownTimer, if_pos hanimates, hk]⟩
  | page2 p =>
    simp only [TutorialPage.stage] at hstage
    split at hstage
    · exact absurd (Option.some.inj hstage).symm hselector
    · cases hstage

theorem InStage.running_eq_one (hs : t.InStage) (h : t.Holds inStatic n)
    {selector : TimerSelector} (hi : t.stageAt i = some selector)
    (hselector : selector ≠ .page2Animate) : t.running ⟨i, selector⟩ = 1 := by
  obtain ⟨k, hk⟩ := h.own_of_stage hi hselector
  obtain ⟨a, ha, howner⟩ := h.slots.live_of_own i k hk
  have htarget : a.target = i := owner_eq_some howner
  have hcalls : t.stageAt a.target = some a.selector := hs.calls (k, a) ha
  rw [htarget, hi] at hcalls
  have heq : a = ⟨i, selector⟩ := by rw [← htarget, Option.some.inj hcalls]
  rw [running]
  refine Pool.countP_eq_one ha fun f hf => ?_
  rw [decide_eq_true_iff]
  constructor
  · intro hfa
    have hown := h.slots.own_of_live f hf i (by rw [hfa, ← heq, howner])
    rw [hk] at hown
    exact Pool.eq_of_number hf ha (Option.some.inj hown).symm
  · intro hfk
    rw [hfk, heq]

theorem InStage.running_eq (hs : t.InStage) (h : t.Holds inStatic n)
    {selector : TimerSelector} (hselector : selector ≠ .page2Animate) :
    t.running ⟨i, selector⟩ = if t.stageAt i = some selector then 1 else 0 := by
  by_cases hi : t.stageAt i = some selector
  · rw [if_pos hi, hs.running_eq_one h hi hselector]
  · rw [if_neg hi, hs.running_eq_zero hi]

/-- Whatever is tapped, turned and left in whatever visits, the search bar of a first page blinks
by exactly one timer until its first OK, its swipe text moves by exactly one from the last on, and
a second page has no timer before its last OK. -/
theorem timers_run_in_their_stages (es : List TutorialEvent) (i : Nat) :
    let t := es.foldl TutorialEvent.apply launch
    (t.running ⟨i, .page1Animate⟩ = if t.stageAt i = some .page1Animate then 1 else 0) ∧
    (t.running ⟨i, .page1Animate2⟩ = if t.stageAt i = some .page1Animate2 then 1 else 0) ∧
    (t.running ⟨i, .page2Animate⟩ = 0 ∨ t.stageAt i = some .page2Animate) := by
  obtain ⟨hidden, hholds⟩ := foldl_apply_holds launch_holds es
  have hstages := foldl_apply_inStage launch_inStage launch_holds es
  refine ⟨hstages.running_eq hholds (by decide), hstages.running_eq hholds (by decide), ?_⟩
  by_cases hi : (es.foldl TutorialEvent.apply launch).stageAt i = some .page2Animate
  · exact Or.inr hi
  · exact Or.inl (hstages.running_eq_zero hi)

end Tutorial

end WatashiMap
