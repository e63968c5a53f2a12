import WatashiMap.Model.Objects

namespace WatashiMap

structure CLPlacemark where
  name : Option String
  subThoroughfare : Option String
  thoroughfare : Option String
  subLocality : Option String
  locality : Option String
  subAdministrativeArea : Option String
  administrativeArea : Option String
  postalCode : Option String
  country : Option String
  deriving DecidableEq

/-- The subtitle both completion handlers write: eight fields, a space between any two. -/
def CLPlacemark.address (pm : CLPlacemark) : String :=
  " ".intercalate [pm.subThoroughfare.getD "", pm.thoroughfare.getD "", pm.subLocality.getD "",
    pm.locality.getD "", pm.subAdministrativeArea.getD "", pm.administrativeArea.getD "",
    pm.postalCode.getD "", pm.country.getD ""]

structure MKPointAnnotation (D : Type) where
  coordinate : CLLocationCoordinate2D D
  title : Option String
  subtitle : Option String
  deriving DecidableEq

/-- An asynchronous request on its way. `issue` numbers the user actions and `query` is the
text a search was started with; no completion handler reads either of them. -/
inductive Request (D : Type) where
  | localSearch (issue : Nat) (query : Option String)
  | geocodePress (issue : Nat) (location : CLLocationCoordinate2D D)
  | geocodeSearch (issue : Nat) (query : Option String) (location : CLLocationCoordinate2D D)
  deriving DecidableEq

/-- What a completion handler is called with: a local search's response (the centre of its
region and the number of its map items) or the first placemark; `none` for an error. -/
inductive Reply (D : Type) where
  | search (response : Option (CLLocationCoordinate2D D × Nat))
  | geocode (placemark : Option CLPlacemark)
  deriving DecidableEq

/-- The shared marker `annotation` and the requests whose handlers write it. -/
structure Marker (D : Type) where
  annotation : MKPointAnnotation D
  pending : List (Request D)
  issued : Nat
  deriving DecidableEq

namespace Marker

variable {D : Type}

def initial [SwiftDouble D] : Marker D := ⟨⟨.origin, none, none⟩, [], 0⟩

def mapLongPressed (mapPoint : CLLocationCoordinate2D D) (m : Marker D) : Marker D :=
  { annotation := { m.annotation with coordinate := mapPoint }
    pending := m.pending ++ [.geocodePress m.issued mapPoint]
    issued := m.issued + 1 }

def searchMap (text : Option String) (m : Marker D) : Marker D :=
  { m with pending := m.pending ++ [.localSearch m.issued text], issued := m.issued + 1 }

/-- The body of `mapItems.forEach`, run once for each of `items` map items. -/
def forEachItem (issue : Nat) (query : Option String) (center : CLLocationCoordinate2D D) :
    Nat → Marker D → Marker D
  | 0, m => m
  | items + 1, m =>
      forEachItem issue query center items
        { m with
          annotation := { m.annotation with coordinate := center }
          pending := m.pending ++ [.geocodeSearch issue query center] }

/-- The handler of `reverseGeocodeLocation`; `title` is what it puts in the title. -/
def describe (title : Option String) (pm : CLPlacemark) (m : Marker D) : Marker D :=
  { m with annotation := { m.annotation with title := title, subtitle := some pm.address } }

/-- The `i`-th outstanding request is answered. `text` is the search bar's text then: a search's
geocoding handler reads it when it runs. An answer of the wrong kind never arrives. -/
def reply (text : Option String) (i : Nat) (r : Reply D) (m : Marker D) : Marker D :=
  match m.pending[i]?, r with
  | some (.localSearch issue query), .search response =>
      let m := { m with pending := m.pending.eraseIdx i }
      match response with
      | none => m
      | some (center, items) => m.forEachItem issue query center items
  | some (.geocodePress _ _), .geocode placemark =>
      let m := { m with pending := m.pending.eraseIdx i }
      match placemark with
      | none => m
      | some pm => m.describe (some (pm.name.getD "")) pm
  | some (.geocodeSearch _ _ _), .geocode placemark =>
      let m := { m with pending := m.pending.eraseIdx i }
      match placemark with
      | none => m
      | some pm => m.describe text pm
  | _, _ => m

/-- Whether the reply makes the search handler put the marker on the map. -/
def addsAnnotation (i : Nat) (r : Reply D) (m : Marker D) : Bool :=
  match m.pending[i]?, r with
  | some (.localSearch _ _), .search (some (_, items)) => decide (items ≠ 0)
  | _, _ => false

end Marker

/-- What happens to the marker. `text` is the search bar's text at the time. -/
inductive MarkerEvent (D : Type) where
  | mapLongPressed (mapPoint : CLLocationCoordinate2D D)
  | searchMap (text : Option String)
  | reply (text : Option String) (i : Nat) (r : Reply D)
  deriving DecidableEq

def MarkerEvent.apply {D : Type} (m : Marker D) : MarkerEvent D → Marker D
  | .mapLongPressed mapPoint => m.mapLongPressed mapPoint
  | .searchMap text => m.searchMap text
  | .reply text i r => m.reply text i r

end WatashiMap
