import WatashiMap.Library.Pool

namespace WatashiMap

inductive Page1Action where
  | changeLabel1
  | changeLabel2
  | detailPanel
  | nextPage
  deriving DecidableEq

inductive Page2Action where
  | openDetail
  | hideLabel
  deriving DecidableEq

/-- An instance of `TutorialPage1`: its OK button, if it has one, and its timer. -/
structure TutorialPage1 where
  isLoaded : Bool
  okBtn : Option Page1Action
  animationTimer : Option Nat
  deriving DecidableEq

/-- An instance of `TutorialPage2`; its label is leaving from `hideLabel` until the end of the
animation, which removes the label and the button on it. -/
structure TutorialPage2 where
  isLoaded : Bool
  okBtn : Option Page2Action
  labelIsLeaving : Bool
  deriving DecidableEq

inductive TutorialPage where
  | page1 (p : TutorialPage1)
  | page2 (p : TutorialPage2)
  deriving DecidableEq

inductive TimerSelector where
  | page1Animate
  | page1Animate2
  | page2Animate
  deriving DecidableEq

/-- A repeating timer: the page it calls and what it calls there. -/
structure AnimationTimer where
  target : Nat
  selector : TimerSelector
  deriving DecidableEq

/-- The tutorial as the process sees it: the pages made so far, also those of earlier visits, the
timers that are valid, the static `TutorialPage2.animationTimer` and the page indicator. -/
structure Tutorial where
  pages : List TutorialPage
  timers : Pool AnimationTimer
  page2Timer : Option Nat
  currentPage : Nat

namespace Tutorial

/-- A page from the storyboard, not loaded yet. -/
def getFirst : TutorialPage := .page1 ⟨false, none, none⟩

def getSecond : TutorialPage := .page2 ⟨false, none, false⟩

/-- A process that has not shown the tutorial yet. -/
def launch : Tutorial := ⟨[], .empty 0, none, 0⟩

/-- `PageViewController.viewDidLoad`: a visit starts with a first page. -/
def viewDidLoad (t : Tutorial) : Tutorial :=
  { t with pages := t.pages ++ [getFirst], currentPage := 0 }

/-- `UIPageControl` keeps the page between 0 and `numberOfPages - 1`. -/
def setCurrentPage (page : Int) (t : Tutorial) : Tutorial :=
  { t with currentPage := (max 0 (min page 1)).toNat }

/-- `pageViewController(_:viewControllerBefore:)`. -/
def viewControllerBefore (i : Nat) (t : Tutorial) : Tutorial :=
  match t.pages[i]? with
  | some (.page2 _) =>
      let t := t.setCurrentPage (t.currentPage - 1)
      { t with pages := t.pages ++ [getFirst] }
  | some (.page1 _) => t.setCurrentPage (t.currentPage - 1)
  | none => t

/-- `pageViewController(_:viewControllerAfter:)`. -/
def viewControllerAfter (i : Nat) (t : Tutorial) : Tutorial :=
  match t.pages[i]? with
  | some (.page1 _) =>
      let t := t.setCurrentPage (t.currentPage + 1)
      { t with pages := t.pages ++ [getSecond] }
  | some (.page2 _) => t.setCurrentPage (t.currentPage + 1)
  | none => t

def setPage1 (i : Nat) (p : TutorialPage1) (t : Tutorial) : Tutorial :=
  { t with pages := t.pages.set i (.page1 p) }

def setPage2 (i : Nat) (p : TutorialPage2) (t : Tutorial) : Tutorial :=
  { t with pages := t.pages.set i (.page2 p) }

/-- `animationTimer = Timer.scheduledTimer(...)` of the first page. -/
def scheduleOwn (i : Nat) (selector : TimerSelector) (p : TutorialPage1) (t : Tutorial) :
    Tutorial :=
  { t with timers := t.timers.acquire ⟨i, selector⟩ }.setPage1 i
    { p with animationTimer := some t.timers.next }

/-- `viewDidLoad` of page `i`, if it has not run yet. -/
def load (i : Nat) (t : Tutorial) : Tutorial :=
  match t.pages[i]? with
  | some (.page1 p) =>
      if p.isLoaded then t
      else t.scheduleOwn i .page1Animate { p with isLoaded := true, okBtn := some .changeLabel1 }
  | some (.page2 p) =>
      if p.isLoaded then t
      else t.setPage2 i { p with isLoaded := true, okBtn := some .openDetail }
  | none => t

def changeLabel1 (i : Nat) (p : TutorialPage1) (t : Tutorial) : Tutorial :=
  { t with timers := t.timers.release p.animationTimer }.setPage1 i
    { p with okBtn := some .changeLabel2 }

def changeLabel2 (i : Nat) (p : TutorialPage1) (t : Tutorial) : Tutorial :=
  t.setPage1 i { p with okBtn := some .detailPanel }

def detailPanel (i : Nat) (p : TutorialPage1) (t : Tutorial) : Tutorial :=
  t.setPage1 i { p with okBtn := some .nextPage }

/-- `nextPage` removes the label with its button. -/
def nextPage (i : Nat) (p : TutorialPage1) (t : Tutorial) : Tutorial :=
  t.scheduleOwn i .page1Animate2 { p with okBtn := none }

def openDetail (i : Nat) (p : TutorialPage2) (t : Tutorial) : Tutorial :=
  t.setPage2 i { p with okBtn := some .hideLabel }

/-- `hideLabel` leaves its button on the label, which slides away, and overwrites the static
timer. -/
def hideLabel (i : Nat) (p : TutorialPage2) (t : Tutorial) : Tutorial :=
  { t with
    timers := t.timers.acquire ⟨i, .page2Animate⟩
    page2Timer := some t.timers.next }.setPage2 i { p with labelIsLeaving := true }

def tapOK (i : Nat) (t : Tutorial) : Tutorial :=
  match t.pages[i]? with
  | some (.page1 p) =>
      match p.okBtn with
      | some .changeLabel1 => t.changeLabel1 i p
      | some .changeLabel2 => t.changeLabel2 i p
      | some .detailPanel => t.detailPanel i p
      | some .nextPage => t.nextPage i p
      | none => t
  | some (.page2 p) =>
      match p.okBtn with
      | some .openDetail => t.openDetail i p
      | some .hideLabel => t.hideLabel i p
      | none => t
  | none => t

/-- The end of the animation of `hideLabel`. -/
def labelRemoved (i : Nat) (t : Tutorial) : Tutorial :=
  match t.pages[i]? with
  | some (.page2 p) =>
      if p.labelIsLeaving then t.setPage2 i { p with okBtn := none, labelIsLeaving := false } else t
  | _ => t

/-- `backToMap` up to its segue. -/
def backToMap (t : Tutorial) : Tutorial := { t with timers := t.timers.release t.page2Timer }

end Tutorial

/-- What happens in the tutorial, over any number of visits; pages are named by the order in which
they were made. -/
inductive TutorialEvent where
  | viewDidLoad
  | viewControllerBefore (i : Nat)
  | viewControllerAfter (i : Nat)
  | load (i : Nat)
  | tapOK (i : Nat)
  | labelRemoved (i : Nat)
  | backToMap
  deriving DecidableEq

def TutorialEvent.apply (t : Tutorial) : TutorialEvent → Tutorial
  | .viewDidLoad => t.viewDidLoad
  | .viewControllerBefore i => t.viewControllerBefore i
  | .viewControllerAfter i => t.viewControllerAfter i
  | .load i => t.load i
  | .tapOK i => t.tapOK i
  | .labelRemoved i => t.labelRemoved i
  | .backToMap => t.backToMap

end WatashiMap
