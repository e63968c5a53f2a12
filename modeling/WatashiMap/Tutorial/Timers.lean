import WatashiMap.Model.Tutorial

namespace WatashiMap

/-- The page whose own field a timer was put into; the second page's go into the static. -/
def AnimationTimer.owner (timer : AnimationTimer) : Option Nat :=
  match timer.selector with
  | .page1Animate | .page1Animate2 => some timer.target
  | .page2Animate => none

/-- The page is loaded and waits for its first OK, or has had its last one. -/
def TutorialPage1.animates (p : TutorialPage1) : Bool :=
  p.isLoaded && (p.okBtn = some .changeLabel1 || p.okBtn = none)

namespace TutorialPage

/-- The timer an animating first page holds. -/
def ownTimer : TutorialPage → Option Nat
  | .page1 p => if p.animates then p.animationTimer else none
  | .page2 _ => none

/-- An animating page has a timer, and only a loaded one has a button. -/
def Sound : TutorialPage → Prop
  | .page1 p => (p.animates = true → p.animationTimer.isSome) ∧ (p.okBtn.isSome → p.isLoaded = true)
  | .page2 _ => True

theorem getFirst_sound : Tutorial.getFirst.Sound := ⟨nofun, nofun⟩

theorem getSecond_sound : Tutorial.getSecond.Sound := trivial

end TutorialPage

namespace Tutorial

def own (pages : List TutorialPage) (i : Nat) : Option Nat :=
  (pages[i]?).bind TutorialPage.ownTimer

theorem own_of_getElem? {pages : List TutorialPage} {i : Nat} {q : TutorialPage}
    (h : pages[i]? = some q) : own pages i = q.ownTimer := by
  rw [own, h, Option.bind_some]

theorem own_set {pages : List TutorialPage} {i : Nat} {old : TutorialPage}
    (h : pages[i]? = some old) (q : TutorialPage) :
    own (pages.set i q) = Function.update (own pages) i q.ownTimer := by
  obtain ⟨hi, _⟩ := List.getElem?_eq_some_iff.mp h
  funext j
  by_cases hj : j = i
  · rw [hj, Function.update_self, own, List.getElem?_set_self hi, Option.bind_some]
  · rw [Function.update_of_ne hj, own, own, List.getElem?_set_ne (Ne.symm hj)]

/-- A page that holds as much as the one it replaces changes nothing. -/
theorem own_set_same {pages : List TutorialPage} {i : Nat} {old q : TutorialPage}
    (h : pages[i]? = some old) (hq : q.ownTimer = old.ownTimer) :
    own (pages.set i q) = own pages := by
  rw [own_set h, hq, ← own_of_getElem? h, Function.update_eq_self]

theorem own_append {pages : List TutorialPage} {q : TutorialPage} (hq : q.ownTimer = none) :
    own (pages ++ [q]) = own pages := by
  funext i
  rw [own, own]
  rcases Nat.lt_trichotomy i pages.length with hi | hi | hi
  · rw [List.getElem?_append_left hi]
  · subst hi
    rw [List.getElem?_concat_length, Option.bind_some, hq, List.getElem?_eq_none (Nat.le_refl _)]
    rfl
  · rw [List.getElem?_eq_none (by simp; omega), List.getElem?_eq_none (by omega)]

/-- The valid timers are those the first pages hold and those that went into the static, `n` of
which were overwritten there. -/
structure Holds (inStatic : Bool) (n : Nat) (t : Tutorial) : Prop where
  slots : t.timers.Slots AnimationTimer.owner (own t.pages) t.page2Timer inStatic n
  sound : ∀ q ∈ t.pages, q.Sound

variable {t : Tutorial} {inStatic : Bool} {n i : Nat}

theorem launch_holds : launch.Holds false 0 where
  slots := Pool.slots_empty 0
  sound _ hq := absurd hq List.not_mem_nil

theorem Holds.append (h : t.Holds inStatic n) {q : TutorialPage} (hq : q.ownTimer = none)
    (hsound : q.Sound) : { t with pages := t.pages ++ [q] }.Holds inStatic n where
  slots := by
    dsimp only
    rw [own_append hq]
    exact h.slots
  sound := by
    intro r hr
    rcases List.mem_append.mp hr with hr | hr
    · exact h.sound r hr
    · rw [List.mem_singleton.mp hr]
      exact hsound

theorem Holds.setCurrentPage (h : t.Holds inStatic n) (page : Int) :
    (t.setCurrentPage page).Holds inStatic n := ⟨h.slots, h.sound⟩

theorem Holds.viewDidLoad (h : t.Holds inStatic n) : t.viewDidLoad.Holds inStatic n := by
  obtain ⟨hslots, hsound⟩ := h.append rfl TutorialPage.getFirst_sound
  exact ⟨hslots, hsound⟩

theorem Holds.viewControllerBefore (h : t.Holds inStatic n) :
    (t.viewControllerBefore i).Holds inStatic n := by
  unfold Tutorial.viewControllerBefore
  split
  · exact (h.setCurrentPage _).append rfl TutorialPage.getFirst_sound
  · exact h.setCurrentPage _
  · exact h

theorem Holds.viewControllerAfter (h : t.Holds inStatic n) :
    (t.viewControllerAfter i).Holds inStatic n := by
  unfold Tutorial.viewControllerAfter
  split
  · exact (h.setCurrentPage _).append rfl TutorialPage.getSecond_sound
  · exact h.setCurrentPage _
  · exact h

theorem sound_set (h : ∀ q ∈ t.pages, q.Sound) {q : TutorialPage} (hq : q.Sound) :
    ∀ r ∈ t.pages.set i q, r.Sound := by
  intro r hr
  rcases List.mem_or_eq_of_mem_set hr with hr | hr
  · exact h r hr
  · rw [hr]
    exact hq

theorem Holds.page1_sound (h : t.Holds inStatic n) {p : TutorialPage1}
    (hi : t.pages[i]? = some (.page1 p)) : (TutorialPage.page1 p).Sound :=
  h.sound _ (List.mem_of_getElem? hi)

theorem Holds.isLoaded_of_okBtn (h : t.Holds inStatic n) {p : TutorialPage1}
    (hi : t.pages[i]? = some (.page1 p)) {action : Page1Action} (hbtn : p.okBtn = some action) :
    p.isLoaded = true := by
  obtain ⟨_, hloaded⟩ := h.page1_sound hi
  exact hloaded (Option.isSome_of_eq_some hbtn)

/-- A page changes and no timer does. -/
theorem Holds.set_same (h : t.Holds inStatic n) {old q : TutorialPage}
    (hi : t.pages[i]? = some old) (hq : q.ownTimer = old.ownTimer) (hsound : q.Sound) :
    { t with pages := t.pages.set i q }.Holds inStatic n where
  slots := by
    dsimp only
    rw [own_set_same hi hq]
    exact h.slots
  sound := sound_set h.sound hsound

theorem Holds.scheduleOwn (h : t.Holds inStatic n) {p q : TutorialPage1}
    (hi : t.pages[i]? = some (.page1 p)) (hp : p.animates = false) (hloaded : q.isLoaded = true)
    (hq : q.okBtn = some .changeLabel1 ∨ q.okBtn = none) (selector : TimerSelector)
    (hselector : (AnimationTimer.mk i selector).owner = some i) :
    (t.scheduleOwn i selector q).Holds inStatic n := by
  let q' : TutorialPage1 := { q with animationTimer := some t.timers.next }
  have hanimates : q'.animates = true := by
    dsimp only [TutorialPage1.animates, q']
    rw [hloaded]
    simpa using hq
  have hown : (TutorialPage.page1 q').ownTimer = some t.timers.next := if_pos hanimates
  have hnone : own t.pages i = none := by
    rw [own_of_getElem? hi, TutorialPage.ownTimer, hp, if_neg Bool.false_ne_true]
  constructor
  · change (t.timers.acquire ⟨i, selector⟩).Slots AnimationTimer.owner
      (own (t.pages.set i (.page1 q'))) t.page2Timer inStatic n
    rw [own_set hi, hown]
    exact h.slots.acquire_own hnone hselector
  · exact sound_set h.sound ⟨fun _ => rfl, fun _ => hloaded⟩

theorem Holds.load (h : t.Holds inStatic n) : (t.load i).Holds inStatic n := by
  unfold Tutorial.load
  split
  · next p hi =>
    split
    · exact h
    · next hloaded =>
      have hp : p.animates = false := by simp [TutorialPage1.animates, hloaded]
      exact h.scheduleOwn hi hp rfl (Or.inl rfl) .page1Animate rfl
  · next p hi =>
    split
    · exact h
    · exact h.set_same hi rfl trivial
  · exact h

theorem Holds.changeLabel1 (h : t.Holds inStatic n) {p : TutorialPage1}
    (hi : t.pages[i]? = some (.page1 p)) (hbtn : p.okBtn = some .changeLabel1) :
    (t.changeLabel1 i p).Holds inStatic n := by
  have hloaded : p.isLoaded = true := h.isLoaded_of_okBtn hi hbtn
  have hown : own t.pages i = p.animationTimer := by
    have hanimates : p.animates = true := by simp [TutorialPage1.animates, hloaded, hbtn]
    rw [own_of_getElem? hi, TutorialPage.ownTimer, if_pos hanimates]
  let q : TutorialPage1 := { p with okBtn := some .changeLabel2 }
  have hstops : q.animates = false := by simp [TutorialPage1.animates, q]
  have hnone : (TutorialPage.page1 q).ownTimer = none := by
    rw [TutorialPage.ownTimer, hstops, if_neg Bool.false_ne_true]
  constructor
  · change (t.timers.release p.animationTimer).Slots AnimationTimer.owner
      (own (t.pages.set i (.page1 q))) t.page2Timer inStatic n
    rw [own_set hi, hnone, ← hown]
    exact h.slots.release_own i
  · exact sound_set h.sound ⟨fun ha => absurd ha (hstops ▸ Bool.false_ne_true), fun _ => hloaded⟩

/-- The first page goes on to the next label, between its two timers. -/
theorem Holds.next_label (h : t.Holds inStatic n) {p : TutorialPage1}
    (hi : t.pages[i]? = some (.page1 p)) {old new : Page1Action} (hbtn : p.okBtn = some old)
    (hold : old ≠ .changeLabel1) (hnew : new ≠ .changeLabel1) :
    (t.setPage1 i { p with okBtn := some new }).Holds inStatic n := by
  have hloaded : p.isLoaded = true := h.isLoaded_of_okBtn hi hbtn
  refine h.set_same hi ?_ ⟨?_, fun _ => hloaded⟩
  · simp [TutorialPage.ownTimer, TutorialPage1.animates, hbtn, hold, hnew]
  · intro ha
    simp [TutorialPage1.animates, hnew] at ha

theorem Holds.changeLabel2 (h : t.Holds inStatic n) {p : TutorialPage1}
    (hi : t.pages[i]? = some (.page1 p)) (hbtn : p.okBtn = some .changeLabel2) :
    (t.changeLabel2 i p).Holds inStatic n := h.next_label hi hbtn (by decide) (by decide)

theorem Holds.detailPanel (h : t.Holds inStatic n) {p : TutorialPage1}
    (hi : t.pages[i]? = some (.page1 p)) (hbtn : p.okBtn = some .detailPanel) :
    (t.detailPanel i p).Holds inStatic n := h.next_label hi hbtn (by decide) (by decide)

theorem Holds.nextPage (h : t.Holds inStatic n) {p : TutorialPage1}
    (hi : t.pages[i]? = some (.page1 p)) (hbtn : p.okBtn = some .nextPage) :
    (t.nextPage i p).Holds inStatic n := by
  have hloaded : p.isLoaded = true := h.isLoaded_of_okBtn hi hbtn
  have hp : p.animates = false := by simp [TutorialPage1.animates, hbtn]
  exact h.scheduleOwn (q := { p with okBtn := none }) hi hp hloaded (Or.inr rfl) .page1Animate2 rfl

/-- The last OK of a second page overwrites the static. -/
theorem Holds.hideLabel (h : t.Holds inStatic n) {p : TutorialPage2}
    (hi : t.pages[i]? = some (.page2 p)) :
    (t.hideLabel i p).Holds true (n + inStatic.toNat) := by
  let q : TutorialPage2 := { p with labelIsLeaving := true }
  constructor
  · change (t.timers.acquire ⟨i, .page2Animate⟩).Slots AnimationTimer.owner
      (own (t.pages.set i (.page2 q))) (some t.timers.next) true _
    rw [own_set_same (q := .page2 q) hi rfl]
    exact h.slots.acquire_shared rfl
  · exact sound_set h.sound trivial

theorem Holds.tapOK_page1 (h : t.Holds inStatic n) {p : TutorialPage1}
    (hi : t.pages[i]? = some (.page1 p)) : (t.tapOK i).Holds inStatic n := by
  cases hbtn : p.okBtn with
  | none => simpa only [Tutorial.tapOK, hi, hbtn] using h
  | some action =>
    cases action with
    | changeLabel1 => simpa only [Tutorial.tapOK, hi, hbtn] using h.changeLabel1 hi hbtn
    | changeLabel2 => simpa only [Tutorial.tapOK, hi, hbtn] using h.changeLabel2 hi hbtn
    | detailPanel => simpa only [Tutorial.tapOK, hi, hbtn] using h.detailPanel hi hbtn
    | nextPage => simpa only [Tutorial.tapOK, hi, hbtn] using h.nextPage hi hbtn

/-- The static is overwritten if the button is the last one. -/
theorem Holds.tapOK_page2 (h : t.Holds inStatic n) {p : TutorialPage2}
    (hi : t.pages[i]? = some (.page2 p)) :
    (t.tapOK i).Holds (inStatic || decide (p.okBtn = some .hideLabel))
      (n + (inStatic && decide (p.okBtn = some .hideLabel)).toNat) := by
  cases hbtn : p.okBtn with
  | none => simpa [Tutorial.tapOK, hi, hbtn] using h
  | some action =>
    cases action with
    | openDetail =>
      have hopen : (t.openDetail i p).Holds inStatic n := h.set_same hi rfl trivial
      simpa [Tutorial.tapOK, hi, hbtn] using hopen
    | hideLabel => simpa [Tutorial.tapOK, hi, hbtn] using h.hideLabel hi

theorem Holds.labelRemoved (h : t.Holds inStatic n) : (t.labelRemoved i).Holds inStatic n := by
  unfold Tutorial.labelRemoved
  split
  · next p hi =>
    split
    · exact h.set_same hi rfl trivial
    · exact h
  · exact h

theorem Holds.backToMap (h : t.Holds inStatic n) : t.backToMap.Holds false n :=
  ⟨h.slots.release_shared, h.sound⟩

end Tutorial

namespace TutorialEvent

def hidesLabel (t : Tutorial) : TutorialEvent → Bool
  | .tapOK i =>
      match t.pages[i]? with
      | some (.page2 p) => p.okBtn = some .hideLabel
      | _ => false
  | _ => false

/-- Whether the last OK of a second page has been tapped since the tutorial was last left. -/
def hiddenAfter (hidden : Bool) (t : Tutorial) : TutorialEvent → Bool
  | .backToMap => false
  | e => hidden || e.hidesLabel t

/-- One event overwrites a valid timer exactly when it hides a label once more. -/
theorem apply_holds {t : Tutorial} {hidden : Bool} {n : Nat} (h : t.Holds hidden n)
    (e : TutorialEvent) :
    (e.apply t).Holds (e.hiddenAfter hidden t) (n + (hidden && e.hidesLabel t).toNat) := by
  cases e with
  | tapOK i =>
    dsimp only [apply, hiddenAfter, hidesLabel]
    cases hi : t.pages[i]? with
    | none => simpa [Tutorial.tapOK, hi] using h
    | some q =>
      cases q with
      | page1 p => simpa using h.tapOK_page1 hi
      | page2 p => exact h.tapOK_page2 hi
  | backToMap => simpa [apply, hiddenAfter, hidesLabel] using h.backToMap
  | viewDidLoad => simpa [apply, hiddenAfter, hidesLabel] using h.viewDidLoad
  | viewControllerBefore i => simpa [apply, hiddenAfter, hidesLabel] using h.viewControllerBefore
  | viewControllerAfter i => simpa [apply, hiddenAfter, hidesLabel] using h.viewControllerAfter
  | load i => simpa [apply, hiddenAfter, hidesLabel] using h.load
  | labelRemoved i => simpa [apply, hiddenAfter, hidesLabel] using h.labelRemoved

end TutorialEvent

namespace Tutorial

/-- The number of second pages' last OKs that come after another one of the same visit. -/
def repeatedHides (hidden : Bool) (t : Tutorial) : List TutorialEvent → Nat
  | [] => 0
  | e :: es =>
      (hidden && e.hidesLabel t).toNat + repeatedHides (e.hiddenAfter hidden t) (e.apply t) es

theorem foldl_apply_holds {t : Tutorial} {hidden : Bool} {n : Nat} (h : t.Holds hidden n)
    (es : List TutorialEvent) :
    ∃ hidden', (es.foldl TutorialEvent.apply t).Holds hidden' (n + repeatedHides hidden t es) := by
  induction es generalizing t hidden n with
  | nil => exact ⟨hidden, h⟩
  | cons e es ih =>
    obtain ⟨hidden', hrun⟩ := ih (e.apply_holds h)
    rw [Nat.add_assoc] at hrun
    exact ⟨hidden', hrun⟩

theorem Holds.own_eq_none_iff {t : Tutorial} {inStatic : Bool} {n : Nat}
    (h : t.Holds inStatic n) :
    (∀ i, own t.pages i = none) ↔ ∀ p, .page1 p ∈ t.pages → p.animates = false := by
  constructor
  · intro hnone p hp
    obtain ⟨i, hi⟩ := List.mem_iff_getElem?.mp hp
    have hown := hnone i
    rw [own_of_getElem? hi, TutorialPage.ownTimer] at hown
    by_contra hanimates
    rw [Bool.not_eq_false] at hanimates
    have hsome := (h.page1_sound hi).1 hanimates
    rw [if_pos hanimates] at hown
    rw [hown] at hsome
    cases hsome
  · intro hquiet i
    rw [own]
    cases hi : t.pages[i]? with
    | none => rfl
    | some q =>
      cases q with
      | page1 p =>
        rw [Option.bind_some, TutorialPage.ownTimer, hquiet p (List.mem_of_getElem? hi),
          if_neg Bool.false_ne_true]
      | page2 p => rfl

/-- Leaving the tutorial stops all of its timers exactly when no first page waits for its first OK
or has had its last, and no visit tapped a second page's last OK twice: `backToMap` knows only the
static, which holds one timer. -/
theorem leaving_stops_all_timers_iff (es : List TutorialEvent) :
    (es.foldl TutorialEvent.apply launch).backToMap.timers.live = [] ↔
      (∀ p, .page1 p ∈ (es.foldl TutorialEvent.apply launch).pages → p.animates = false) ∧
      repeatedHides false launch es = 0 := by
  obtain ⟨hidden, hrun⟩ := foldl_apply_holds launch_holds es
  rw [Nat.zero_add] at hrun
  rw [hrun.backToMap.slots.live_eq_nil_iff]
  exact and_congr_left' hrun.own_eq_none_iff

/-- Leaving at once leaks the timer of the first page. -/
theorem first_page_keeps_its_timer :
    ¬ ∀ es : List TutorialEvent,
      (es.foldl TutorialEvent.apply launch).backToMap.timers.live = [] := by
  intro hall
  exact absurd (hall [.viewDidLoad, .load 0]) (by decide)

end Tutorial

end WatashiMap
