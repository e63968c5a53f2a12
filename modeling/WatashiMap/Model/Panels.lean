import Mathlib.Data.Rat.Defs
import Mathlib.Logic.Function.Basic

namespace WatashiMap

/-- Frames as exact numbers. -/
structure CGRect where
  x : ℚ
  y : ℚ
  width : ℚ
  height : ℚ
  deriving DecidableEq

structure Screen where
  w : ℚ
  h : ℚ
  deriving DecidableEq

inductive PanelRole where
  | deletingPanel
  | detailPanel
  | hidePanelBtn
  | deleteAllPinsBtn
  | deletePinBtn
  | modifyPinBtn
  deriving DecidableEq

/-- A panel or button object: what it is, and which call of an open operation made it.
Call 0 stands for the objects the stored properties start with. -/
structure PanelView where
  call : Nat
  role : PanelRole
  deriving DecidableEq

/-- The panels' part of the view controller: the objects' frames, which of them are subviews
of `view`, the six stored references, and whether `deletePinsBtn` is enabled. -/
structure Panels where
  frame : PanelView → CGRect
  isSubview : PanelView → Bool
  panel1 : PanelView
  panel2 : PanelView
  hidePanelBtn : PanelView
  deletePinBtn : PanelView
  modifyPinBtn : PanelView
  deleteAllPinsBtn : PanelView
  deletePinsBtnEnabled : Bool
  calls : Nat

namespace Panels

def initial : Panels where
  frame := fun _ => ⟨0, 0, 0, 0⟩
  isSubview := fun _ => false
  panel1 := ⟨0, .deletingPanel⟩
  panel2 := ⟨0, .detailPanel⟩
  hidePanelBtn := ⟨0, .hidePanelBtn⟩
  deletePinBtn := ⟨0, .deletePinBtn⟩
  modifyPinBtn := ⟨0, .modifyPinBtn⟩
  deleteAllPinsBtn := ⟨0, .deleteAllPinsBtn⟩
  deletePinsBtnEnabled := true
  calls := 0

def setFrame (v : PanelView) (r : CGRect) (p : Panels) : Panels :=
  { p with frame := Function.update p.frame v r }

def addSubview (v : PanelView) (p : Panels) : Panels :=
  { p with isSubview := Function.update p.isSubview v true }

def removeFromSuperview (v : PanelView) (p : Panels) : Panels :=
  { p with isSubview := Function.update p.isSubview v false }

variable (screen : Screen)

/-- Where `deletePins` leaves its panel. -/
def deletingFrame : CGRect := ⟨7, 120, screen.w - 14, 60⟩

/-- Where `detailOpen` leaves its panel. -/
def detailFrame : CGRect := ⟨6, screen.h / 2 + 100, screen.w - 12, screen.h / 2⟩

/-- The frame `detailOpen` takes for that of a panel still open: its height is read off the
screen's width. -/
def previousDetailFrame : CGRect := ⟨6, screen.h / 2 + 100, screen.w - 12, screen.w / 2⟩

def originOfDeletingPanel (p : Panels) : Panels :=
  ((p.setFrame p.panel1 ⟨7, -60, screen.w - 14, 60⟩).setFrame p.hidePanelBtn
    ⟨20, -30, 30, 30⟩).setFrame p.deleteAllPinsBtn ⟨80, -40, 140, 40⟩

def originOfDetailPanel (p : Panels) : Panels :=
  (((p.setFrame p.panel2 ⟨6, screen.h, screen.w - 12, screen.h⟩).setFrame p.deletePinBtn
    ⟨30, screen.h, 32, 35⟩).setFrame p.modifyPinBtn ⟨80, screen.h, 32, 35⟩).setFrame
    p.hidePanelBtn ⟨screen.w - 60, screen.h, 30, 30⟩

def hideDeletingPanel (p : Panels) : Panels :=
  originOfDeletingPanel screen { p with deletePinsBtnEnabled := true }

def hideDetailPanel (p : Panels) : Panels := originOfDetailPanel screen p

/-- The three views `deletePins` makes, on `view` and at the end of their animation. -/
def showDeletingPanel (p : Panels) : Panels :=
  let n := p.calls + 1
  let p := { p with
    panel1 := ⟨n, .deletingPanel⟩
    deleteAllPinsBtn := ⟨n, .deleteAllPinsBtn⟩
    hidePanelBtn := ⟨n, .hidePanelBtn⟩
    calls := n }
  let p := ((p.addSubview p.panel1).addSubview p.hidePanelBtn).addSubview p.deleteAllPinsBtn
  let p := originOfDeletingPanel screen p
  ((p.setFrame p.panel1 (deletingFrame screen)).setFrame p.hidePanelBtn
    ⟨20, 135, 30, 30⟩).setFrame p.deleteAllPinsBtn ⟨80, 130, 140, 40⟩

def deletePins (p : Panels) : Panels :=
  let p := { p with deletePinsBtnEnabled := false }
  let p :=
    if p.frame p.panel2 = detailFrame screen then
      -- the detail panel's close button stays where it is
      ((p.removeFromSuperview p.panel2).removeFromSuperview p.deletePinBtn).removeFromSuperview
        p.modifyPinBtn
    else p
  showDeletingPanel screen p

/-- The four views `detailOpen` makes, on `view` and at the end of their animation. -/
def showDetailPanel (p : Panels) : Panels :=
  let n := p.calls + 1
  let p := { p with
    panel2 := ⟨n, .detailPanel⟩
    deletePinBtn := ⟨n, .deletePinBtn⟩
    modifyPinBtn := ⟨n, .modifyPinBtn⟩
    hidePanelBtn := ⟨n, .hidePanelBtn⟩
    calls := n }
  let p := (((p.addSubview p.panel2).addSubview p.deletePinBtn).addSubview
    p.modifyPinBtn).addSubview p.hidePanelBtn
  let p := originOfDetailPanel screen p
  (((p.setFrame p.panel2 (detailFrame screen)).setFrame p.deletePinBtn
    ⟨30, screen.h - 57, 32, 35⟩).setFrame p.modifyPinBtn ⟨80, screen.h - 57, 32, 35⟩).setFrame
    p.hidePanelBtn ⟨screen.w - 60, screen.h - 52, 30, 30⟩

def detailOpen (p : Panels) : Panels :=
  let p := if p.frame p.panel1 = deletingFrame screen then hideDeletingPanel screen p else p
  let p :=
    if p.frame p.panel2 = previousDetailFrame screen then
      (((p.removeFromSuperview p.panel2).removeFromSuperview p.deletePinBtn).removeFromSuperview
        p.modifyPinBtn).removeFromSuperview p.hidePanelBtn
    else p
  showDetailPanel screen p

/-- What `showEditView` does to the panels. -/
def showEditView (p : Panels) : Panels := hideDeletingPanel screen (hideDetailPanel screen p)

/-- What `modifyPlace` does to the panels. -/
def modifyPlace (p : Panels) : Panels := showEditView screen (hideDetailPanel screen p)

/-- What `didSelect` does to the panels. -/
def didSelect (p : Panels) : Panels := hideDetailPanel screen (hideDeletingPanel screen p)

/-- A new root view carries none of the old subviews; `viewDidLoad` makes a new
`deletePinsBtn`. -/
def loadView (p : Panels) : Panels :=
  { p with isSubview := fun _ => false, deletePinsBtnEnabled := true }

end Panels

/-- The operations on the panels. `deleteAllPins` is confirmed. -/
inductive PanelEvent where
  | deletePins
  | hideDeletingPanel
  | deleteAllPins
  | detailOpen
  | hideDetailPanel
  | modifyPlace
  | showEditView
  | didSelect
  deriving DecidableEq

/-- A disabled `deletePinsBtn` sends nothing. -/
def PanelEvent.apply (screen : Screen) (p : Panels) : PanelEvent → Panels
  | .deletePins => if p.deletePinsBtnEnabled then p.deletePins screen else p
  | .hideDeletingPanel | .deleteAllPins => p.hideDeletingPanel screen
  | .detailOpen => p.detailOpen screen
  | .hideDetailPanel => p.hideDetailPanel screen
  | .modifyPlace => p.modifyPlace screen
  | .showEditView => p.showEditView screen
  | .didSelect => p.didSelect screen

end WatashiMap
