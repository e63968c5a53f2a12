import WatashiMap.Model.Effects
import WatashiMap.Model.Written
import WatashiMap.Search.Latest

namespace WatashiMap

variable {D F : Type}

namespace Marker

/-- Where a reply puts the marker: at the centre of an answered search that found something. -/
def movedBy (i : Nat) (r : Reply D) (m : Marker D) : Option (CLLocationCoordinate2D D) :=
  match m.pending[i]?, r with
  | some (.localSearch _ _), .search (some (center, items)) =>
      if items = 0 then none else some center
  | _, _ => none

/-- What a reply makes the marker say: the title and the address of the place reported. -/
def labelledBy (text : Option String) (i : Nat) (r : Reply D) (m : Marker D) :
    Option (Option String × Option String) :=
  match m.pending[i]?, r with
  | some request, .geocode (some pm) =>
      if request.isLookup then some (writtenTitle text pm request, some pm.address) else none
  | _, _ => none

def coordinate (m : Marker D) : CLLocationCoordinate2D D := m.annotation.coordinate

def texts (m : Marker D) : Option String × Option String :=
  (m.annotation.title, m.annotation.subtitle)

theorem reply_writes (text : Option String) (i : Nat) (r : Reply D) (m : Marker D) :
    (m.reply text i r).coordinate = (m.movedBy i r).getD m.coordinate ∧
      (m.reply text i r).texts = (m.labelledBy text i r).getD m.texts := by
  unfold reply movedBy labelledBy
  cases hp : m.pending[i]? with
  | none => exact ⟨rfl, rfl⟩
  | some request =>
    cases request with
    | localSearch issue query =>
      cases r with
      | search response =>
        cases response with
        | none => exact ⟨rfl, rfl⟩
        | some response =>
          obtain ⟨center, items⟩ := response
          dsimp only
          rw [forEachItem_eq]
          split <;> exact ⟨rfl, rfl⟩
      | geocode placemark => cases placemark <;> exact ⟨rfl, rfl⟩
    | geocodePress | geocodeSearch =>
      cases r with
      | search response => exact ⟨rfl, rfl⟩
      | geocode placemark => cases placemark <;> exact ⟨rfl, rfl⟩

end Marker

namespace Process

def markerCoordinate (p : Process D F) : CLLocationCoordinate2D D :=
  p.vc.marker.annotation.coordinate

def markerTexts (p : Process D F) : Option String × Option String :=
  (p.vc.marker.annotation.title, p.vc.marker.annotation.subtitle)

end Process

namespace Op

/-- Where an operation puts the marker. -/
def movesMarker [SwiftDouble D] (p : Process D F) : Op D F → Option (CLLocationCoordinate2D D)
  | .tutorialReturn => some .origin
  | .mapLongPressed mapPoint => some mapPoint
  | .reply i r => p.vc.marker.movedBy i r
  | _ => none

/-- What an operation makes the marker say. -/
def labelsMarker (p : Process D F) : Op D F → Option (Option String × Option String)
  | .tutorialReturn => some (none, none)
  | .reply i r => p.vc.marker.labelledBy p.vc.suggestions.text i r
  | _ => none

end Op

variable [SwiftDouble D] [SwiftCGFloat F] [DecidableEq D]

theorem perform_marker {screen : Screen} {r : Realm} {p q : Process D F} {o : Op D F}
    (h : o.perform screen r p = some q) :
    q.markerCoordinate = (o.movesMarker p).getD p.markerCoordinate ∧
      q.markerTexts = (o.labelsMarker p).getD p.markerTexts := by
  unfold Process.markerCoordinate Process.markerTexts
  cases ho : o.rebuilds with
  | false =>
    rw [(Op.effect ho h).marker]
    cases o with
    | reply i r => exact Marker.reply_writes _ i r _
    | didSelectRowAt row =>
      dsimp only [Op.markerEvents]
      split_ifs
      · split <;> exact ⟨rfl, rfl⟩
      · exact ⟨rfl, rfl⟩
    | tutorialReturn | changeSetting => cases ho
    | _ => exact ⟨rfl, rfl⟩
  | true =>
    cases o with
    | tutorialReturn =>
      obtain ⟨_, hvc, rfl⟩ := Process.tutorialReturn_spec h
      obtain ⟨_, _, rfl⟩ := Option.map_eq_some_iff.mp hvc
      exact ⟨rfl, rfl⟩
    | changeSetting theme selectedPin =>
      obtain ⟨_, hvc, rfl⟩ := Process.changeSetting_spec h
      obtain ⟨_, _, rfl⟩ := Option.map_eq_some_iff.mp hvc
      exact ⟨rfl, rfl⟩
    | _ => cases ho

/-- In every state of every run the marker is where the last long press or answered search of the
view controller put it, and its title and subtitle are the two that one answer, the last lookup to
report, gave it together. -/
theorem marker_is_last_written (screen : Screen) (r : Realm) (es : List (Event D F))
    (s : App D F) (h : Machine.run (App.step screen) ⟨r, none⟩ es = some s) :
    let past := Machine.trace (App.step screen) ⟨r, none⟩ es
    s.process.map Process.markerCoordinate =
        LastWrite.value (App.written .origin Op.movesMarker) none past ∧
      s.process.map Process.markerTexts =
        LastWrite.value (App.written (none, none) Op.labelsMarker) none past := by
  intro past
  constructor
  · refine App.value_of_run ?_ (fun _ _ _ _ hq => (perform_marker hq).1) h
    intro u vc items hvc
    obtain ⟨_, _, rfl⟩ := Option.map_eq_some_iff.mp hvc
    rfl
  · refine App.value_of_run ?_ (fun _ _ _ _ hq => (perform_marker hq).2) h
    intro u vc items hvc
    obtain ⟨_, _, rfl⟩ := Option.map_eq_some_iff.mp hvc
    rfl

/-- Two presses, whose lookups report in the other order: the marker is at the second place and says
what was reported for the first. -/
theorem cafe_is_last_written :
    let cafe : CLPlacemark := ⟨some "cafe", none, none, none, none, none, none, none, some "JP"⟩
    let park : CLPlacemark := ⟨some "park", none, none, none, none, none, none, none, some "KR"⟩
    let es : List (Event WholeDegrees SevenDecimals) :=
      [.launch, .op (.mapLongPressed ⟨⟨35⟩, ⟨139⟩⟩), .op (.mapLongPressed ⟨⟨37⟩, ⟨127⟩⟩),
        .op (.reply 1 (.geocode (some park))), .op (.reply 0 (.geocode (some cafe)))]
    let past := Machine.trace (App.step ⟨375, 667⟩) App.installed es
    ∃ s, Machine.run (App.step ⟨375, 667⟩) App.installed es = some s ∧
      (s.process.map Process.markerCoordinate =
          LastWrite.value (App.written .origin Op.movesMarker) none past ∧
        s.process.map Process.markerTexts =
          LastWrite.value (App.written (none, none) Op.labelsMarker) none past) ∧
      s.process.map Process.markerCoordinate = some ⟨⟨37⟩, ⟨127⟩⟩ ∧
      s.process.map Process.markerTexts = some (some "cafe", some cafe.address) := by
  intro cafe park es past
  have hrun : (Machine.run (App.step ⟨375, 667⟩) App.installed es).map
      (fun s => (s.process.map Process.markerCoordinate, s.process.map Process.markerTexts)) =
        some (some ⟨⟨37⟩, ⟨127⟩⟩, some (some "cafe", some cafe.address)) := by decide
  obtain ⟨s, hs, hmarker⟩ := Option.map_eq_some_iff.mp hrun
  obtain ⟨hcoordinate, htexts⟩ := Prod.mk.inj hmarker
  exact ⟨s, hs, marker_is_last_written ⟨375, 667⟩ .empty es s hs, hcoordinate, htexts⟩

end WatashiMap
