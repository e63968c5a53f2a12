import Mathlib.Data.List.Infix
import WatashiMap.Model.Objects

namespace WatashiMap

open SwiftDouble

/-- `ViewController.Pin`: a stored pin offered as a suggestion. -/
structure Pin (D : Type) where
  coordinate : CLLocationCoordinate2D D
  title : String
  subtitle : String
  image : String
  deriving DecidableEq

structure MKLocalSearchCompletion where
  title : String
  subtitle : String
  deriving DecidableEq

/-- The search bar, its completer and the suggestion table. -/
structure Suggestions (D : Type) where
  /-- `searchBar.text`. -/
  text : Option String
  queryFragment : String
  Pins : List (Pin D)
  pincount : Nat
  /-- `searchCompleter.results`. -/
  results : List MKLocalSearchCompletion
  /-- What the table got from `numberOfRowsInSection` when it last asked. -/
  rows : Nat
  tableViewIsHidden : Bool
  hideTableBtnIsHidden : Bool
  deriving DecidableEq

/-- What `cellForRowAt` shows in a row. -/
structure Cell where
  textLabel : String
  detailTextLabel : String
  image : Option String
  deriving DecidableEq

/-- What `didSelectRowAt` does with the map. -/
inductive RowAction (D : Type) where
  | setRegion (center : CLLocationCoordinate2D D)
  | searchMap
  deriving DecidableEq

/-- `title CONTAINS %@`: a missing title contains nothing, and Realm finds "" in no title. -/
def PinItem.titleContains (text : String) (p : PinItem) : Bool :=
  match p.title with
  | some title => decide (text ≠ "" ∧ text.toList <:+: title.toList)
  | none => false

variable {D : Type}

/-- The pin copied from a record; each `!` of the source traps on a missing value. -/
def PinItem.pin [SwiftDouble D] (p : PinItem) : Option (Pin D) := do
  let latitude ← ofString p.coordinateLat
  let longitude ← ofString p.coordinateLon
  let title ← p.title
  let subtitle ← p.subtitle
  let image ← p.image
  return ⟨⟨latitude, longitude⟩, title, subtitle, image⟩

namespace Suggestions

def initial : Suggestions D := ⟨some "", "", [], 0, [], 0, false, false⟩

/-- `searchBar(_:shouldChangeTextIn:replacementText:)`: it runs before the edit is applied and
reads the text as it still is. -/
def shouldChangeTextIn [SwiftDouble D] (items : List PinItem) (s : Suggestions D) :
    Option (Suggestions D × Bool) :=
  let s := { s with Pins := [] }
  match s.text with
  | none => some (s, false)
  | some text => do
      let results := items.filter (PinItem.titleContains text)
      let pins ← results.mapM PinItem.pin
      return ({ s with queryFragment := text, pincount := results.length, Pins := pins }, true)

/-- An edit of the search text: the delegate is asked first, and the bar shows `newText` if it
agrees. -/
def edit [SwiftDouble D] (items : List PinItem) (newText : String) (s : Suggestions D) :
    Option (Suggestions D) :=
  (shouldChangeTextIn items s).map fun (s, accepted) =>
    if accepted then { s with text := some newText } else s

def numberOfRowsInSection (s : Suggestions D) : Suggestions D :=
  let numOfRows := s.results.length + s.pincount
  { s with rows := numOfRows, hideTableBtnIsHidden := decide (numOfRows = 0) }

/-- `completerDidUpdateResults`: `reloadData` makes the table ask for its row count again. -/
def completerDidUpdateResults (results : List MKLocalSearchCompletion) (s : Suggestions D) :
    Suggestions D :=
  numberOfRowsInSection { s with results := results }

/-- The content of a row; `none` is an index out of range. -/
def cell (row : Nat) (s : Suggestions D) : Option Cell :=
  if s.pincount ≠ 0 ∧ row < s.pincount then
    (s.Pins[row]?).map fun pin => ⟨pin.title, pin.subtitle, some pin.image⟩
  else (s.results[row - s.pincount]?).map fun result => ⟨result.title, result.subtitle, none⟩

def cellForRowAt (row : Nat) (s : Suggestions D) : Option (Suggestions D × Cell) :=
  let s := { s with tableViewIsHidden := false }
  (s.cell row).map fun c => (s, c)

def hideTable (s : Suggestions D) : Suggestions D :=
  { s with tableViewIsHidden := true, hideTableBtnIsHidden := true }

/-- `tableView(_:didSelectRowAt:)`: the text is read at `indexPath.row` of the completer's
results for every row, and `Pins` is emptied while `pincount` stays. -/
def didSelectRowAt (row : Nat) (s : Suggestions D) : Option (Suggestions D × RowAction D) := do
  let s := s.hideTable
  let result ← s.results[row]?
  let s := { s with text := some result.title }
  if row < s.pincount then
    let pin ← s.Pins[row]?
    return ({ s with Pins := [] }, .setRegion pin.coordinate)
  else return ({ s with Pins := [] }, .searchMap)

end Suggestions

end WatashiMap
