import WatashiMap.Model.Numbers
import WatashiMap.Model.Written
import WatashiMap.Pins.Editing

namespace WatashiMap

variable {D F : Type}

namespace MKAnnotation

def isCustom : MKAnnotation D → Bool
  | .custom _ => true
  | .point | .userLocation => false

theorem map_customsOf (as : List <| MKAnnotation D) :
    (customsOf as).map .custom = as.filter isCustom := by
  induction as with
  | nil => rfl
  | cons a as ih =>
    cases a with
    | custom c => exact congrArg (.custom c :: ·) ih
    | point | userLocation => exact ih

/-- Besides pins there is the marker among the annotations, once, or nothing. -/
def Marked (marked : Bool) (as : List <| MKAnnotation D) : Prop :=
  (as.filter fun a => !a.isCustom) = if marked then [.point] else []

theorem Marked.point_mem_iff {marked : Bool} {as : List <| MKAnnotation D} (h : Marked marked as) :
    .point ∈ as ↔ marked = true := by
  have hmem : (.point : MKAnnotation D) ∈ as ↔
      .point ∈ as.filter fun a => !a.isCustom := by
    rw [List.mem_filter]
    exact (and_iff_left rfl).symm
  rw [hmem, h]
  cases marked <;> simp

theorem Marked.filter {marked : Bool} {as : List <| MKAnnotation D} (h : Marked marked as)
    (q : MKAnnotation D → Bool) : Marked (marked && q .point) (as.filter q) := by
  rw [Marked, List.filter_comm, h]
  cases marked with
  | false => rfl
  | true => cases hq : q .point <;> simp [hq]

theorem marked_custom (customs : List <| CustomAnnotation D) :
    Marked false (customs.map .custom) := by
  rw [Marked, List.filter_map]
  simp [Function.comp_def, isCustom]

theorem Marked.append_custom {marked : Bool} {as : List <| MKAnnotation D} (h : Marked marked as)
    (c : CustomAnnotation D) : Marked marked (as ++ [.custom c]) := by
  rw [Marked, List.filter_append, h]
  exact List.append_nil _

/-- Pins and marker together are the annotations. -/
theorem Marked.perm {marked : Bool} {as : List <| MKAnnotation D} (h : Marked marked as) :
    as.Perm ((customsOf as).map .custom ++ if marked then [.point] else []) := by
  rw [map_customsOf, ← h]
  exact (List.filter_append_perm isCustom as).symm

/-- The loop over `mapView.annotations` removes the marker too if it is at the pin's place. -/
theorem Marked.removeAnnotationsAtPin [SwiftDouble D] [DecidableEq D] {marked : Bool}
    {vc : ViewController D} (h : Marked marked vc.annotations) :
    Marked (marked && decide (vc.marker.annotation.coordinate ≠ vc.pincoordinate))
      vc.removeAnnotationsAtPin.annotations := by
  have hfiltered := h.filter fun a => ¬((vc.coordinate a).latitude = vc.pincoordinate.latitude ∧
    (vc.coordinate a).longitude = vc.pincoordinate.longitude)
  have hplace : ((vc.coordinate .point).latitude = vc.pincoordinate.latitude ∧
      (vc.coordinate .point).longitude = vc.pincoordinate.longitude) ↔
        vc.marker.annotation.coordinate = vc.pincoordinate :=
    (same_coordinate_iff _ _).trans CLLocationCoordinate2D.strings_injective.eq_iff
  rwa [decide_eq_decide.mpr (not_congr hplace)] at hfiltered

theorem Marked.addAnnotation [DecidableEq D] {marked : Bool} {v : ViewController D}
    (h : Marked marked v.annotations) : Marked true (v.addAnnotation .point).annotations := by
  unfold ViewController.addAnnotation
  split_ifs with hmem
  · rwa [h.point_mem_iff.mp hmem] at h
  · have hfalse : marked = false := by
      rw [h.point_mem_iff] at hmem
      exact Bool.not_eq_true _ ▸ hmem
    rw [Marked, List.filter_append, h, hfalse]
    rfl

end MKAnnotation

open MKAnnotation

/-- The operations that add annotations to the map or remove some. -/
def Op.redraws : Op D F → Bool
  | .tutorialReturn | .mapLongPressed _ | .reply _ _ | .deleteAllPins | .deletePin | .create
  | .changeSetting _ _ => true
  | _ => false

variable [SwiftDouble D] [DecidableEq D]

/-- Whether an operation leaves the marker on the map; `none` if it does not touch it. -/
def Op.marksMap (p : Process D F) : Op D F → Option Bool
  | .mapLongPressed _ => some true
  | .reply i r => if p.vc.marker.addsAnnotation i r then some true else none
  | .deletePin =>
      if p.vc.marker.annotation.coordinate = p.vc.pincoordinate then some false else none
  | .create | .deleteAllPins | .changeSetting _ _ | .tutorialReturn => some false
  | _ => none

variable [SwiftCGFloat F]

theorem perform_annotations {screen : Screen} {r : Realm} {p q : Process D F} {o : Op D F}
    (ho : o.redraws = false) (h : o.perform screen r p = some q) :
    q.vc.annotations = p.vc.annotations := by
  cases o with
  | tutorialReturn | mapLongPressed | reply | deleteAllPins | deletePin | create
  | changeSetting => cases ho
  | didSelect a =>
    dsimp only [Op.perform] at h
    split_ifs at h
    · obtain ⟨_, hvc, rfl⟩ := Option.map_eq_some_iff.mp h
      obtain ⟨_, _, _, rfl⟩ := ViewController.didSelect_spec hvc
      rfl
    · cases h
      rfl
  | viewFor dequeued a =>
    obtain ⟨_, _, rfl⟩ := Op.perform_viewFor h
    rfl
  | deletePins =>
    dsimp only [Op.perform] at h
    split_ifs at h <;> cases h <;> rfl
  | hideEditView confirmed =>
    obtain ⟨_, _, _, rfl⟩ := Op.perform_hideEditView h
    rfl
  | editSearchText newText =>
    obtain ⟨_, _, rfl⟩ := Option.map_eq_some_iff.mp h
    rfl
  | cellForRowAt row =>
    obtain ⟨_, rfl⟩ := Op.perform_cellForRowAt h
    rfl
  | didSelectRowAt row =>
    dsimp only [Op.perform] at h
    split_ifs at h
    · obtain ⟨⟨s, action⟩, _, rfl⟩ := Option.map_eq_some_iff.mp h
      cases action <;> rfl
    · cases h
      rfl
  | _ =>
    cases h
    rfl

omit [DecidableEq D] [SwiftCGFloat F] in
/-- `viewDidLoad` on an empty map adds pins only. -/
theorem viewDidLoad_marked {items : List PinItem} {vc vc' : ViewController D}
    (hempty : vc.annotations = []) (h : vc.viewDidLoad items = some vc') :
    Marked false vc'.annotations := by
  obtain ⟨customs, _, rfl⟩ := Option.map_eq_some_iff.mp h
  dsimp only
  rw [hempty, List.nil_append]
  exact marked_custom customs

theorem perform_marked {screen : Screen} {marked : Bool} {r : Realm} {p q : Process D F}
    {o : Op D F} (hp : Marked marked p.vc.annotations) (h : o.perform screen r p = some q) :
    Marked ((o.marksMap p).getD marked) q.vc.annotations := by
  cases ho : o.redraws with
  | false =>
    rw [perform_annotations ho h]
    cases o with
    | tutorialReturn | mapLongPressed | reply | deleteAllPins | deletePin | create
    | changeSetting => cases ho
    | _ => exact hp
  | true =>
    cases o with
    | tutorialReturn =>
      obtain ⟨_, hvc, rfl⟩ := Process.tutorialReturn_spec h
      exact viewDidLoad_marked rfl hvc
    | changeSetting theme selectedPin =>
      obtain ⟨vc, hvc, rfl⟩ := Process.changeSetting_spec h
      have hloaded : Marked false vc.annotations := viewDidLoad_marked rfl hvc
      exact hloaded
    | mapLongPressed mapPoint =>
      cases h
      exact Marked.addAnnotation (v := { p.vc with
        marker := p.vc.marker.mapLongPressed mapPoint, pincoordinate := mapPoint }) hp
    | reply i r =>
      cases h
      dsimp only [ViewController.reply, Op.marksMap]
      split_ifs with hadds
      · exact Marked.addAnnotation (v := { p.vc with
          marker := p.vc.marker.reply p.vc.suggestions.text i r }) hp
      · exact hp
    | deleteAllPins =>
      cases h
      rfl
    | deletePin =>
      cases h
      have hremoved := hp.removeAnnotationsAtPin
      dsimp only [Op.marksMap]
      split_ifs with hplace
      · rwa [decide_eq_false (not_not.mpr hplace), Bool.and_false] at hremoved
      · rwa [decide_eq_true hplace, Bool.and_true] at hremoved
    | create =>
      cases h
      have hkept := (hp.removeAnnotationsAtPin.append_custom p.customAnnotation).filter
        fun a => a ≠ .point
      rwa [decide_eq_false (not_not.mpr rfl), Bool.and_false] at hkept
    | _ => cases ho

/-- The map shows one annotation for each stored pin, and the marker once or not at all. -/
structure Process.MapShows (items : List PinItem) (marked : Bool) (p : Process D F) : Prop where
  contents : ∃ customs : List <| CustomAnnotation D, customs.map CustomAnnotation.record = items ∧
    p.vc.annotations.Perm (customs.map .custom ++ if marked then [.point] else [])
  nodup : p.vc.annotations.Nodup

omit [DecidableEq D] [SwiftCGFloat F] in
theorem mapShows_of_marked {r : Realm} {p : Process D F} {marked : Bool}
    (hinv : MapInvariant (⟨r, some p⟩ : App D F)) (hp : Marked marked p.vc.annotations) :
    p.MapShows r.pinItems marked := by
  obtain ⟨customs, hcustoms⟩ := hinv.wellFormed.eq_map
  have hshown : (customsOf p.vc.annotations).Perm customs := by
    have hrecords := hinv.shown p rfl
    rw [ViewController.Shows, Keyed.Mirrors, ← hcustoms] at hrecords
    exact (List.map_perm_map_iff record_injective).mp hrecords
  have hperm : p.vc.annotations.Perm (customs.map .custom ++ if marked then [.point] else []) :=
    hp.perm.trans ((hshown.map _).append_right _)
  refine ⟨⟨customs, hcustoms, hperm⟩, ?_⟩
  have hnodup : customs.Nodup := by
    have hkeys : (r.pinItems.map PinItem.coordinates).Nodup := hinv.unique
    rw [← hcustoms, List.map_map] at hkeys
    exact hkeys.of_map _
  rw [hperm.nodup_iff]
  have hpins : (customs.map MKAnnotation.custom).Nodup := hnodup.map fun _ _ h => by cases h; rfl
  cases marked with
  | false => simpa using hpins
  | true =>
    rw [if_pos rfl, ← List.concat_eq_append, List.nodup_concat]
    exact ⟨by simp, hpins⟩

/-- In every state of every run from an empty store the map shows the stored pins, each once, and
besides them nothing but the marker, which is there if the last operation that touched it was a
long press or the answer to a search. -/
theorem map_shows_pins_and_marker (screen : Screen) (es : List (Event D F)) (s : App D F)
    (p : Process D F) (h : Machine.run (App.step screen) App.installed es = some s)
    (hp : s.process = some p) :
    ∃ marked, LastWrite.value (App.written false Op.marksMap) none
        (Machine.trace (App.step screen) App.installed es) = some marked ∧
      p.MapShows s.realm.pinItems marked := by
  obtain ⟨r, _⟩ := s
  cases hp
  have hmarked := App.related_of_run (R := fun marked p => Marked marked p.vc.annotations)
    (fun _ _ _ hvc => viewDidLoad_marked rfl hvc)
    (fun _ _ _ _ _ hp hq => perform_marked hp hq) .none h
  obtain ⟨marked, hvalue, hp⟩ := exists_of_rel_some hmarked
  exact ⟨marked, hvalue, mapShows_of_marked (mapInvariant_of_run h) hp⟩

/-- A saved pin and a long press after it. -/
theorem press_after_save_is_marked :
    let screen : Screen := ⟨375, 667⟩
    let es : List (Event WholeDegrees SevenDecimals) :=
      [.launch, .op (.mapLongPressed ⟨⟨36⟩, ⟨140⟩⟩), .op .showEditView, .op (.editTitle "park"),
        .op .create, .op (.mapLongPressed ⟨⟨37⟩, ⟨141⟩⟩)]
    ∃ s p, Machine.run (App.step screen) App.installed es = some s ∧ s.process = some p ∧
      p.MapShows s.realm.pinItems true := by
  intro screen es
  have hrun : ((Machine.run (App.step screen) App.installed es).bind App.process).isSome := by
    decide
  obtain ⟨p, hp⟩ := Option.isSome_iff_exists.mp hrun
  obtain ⟨s, hs, hp⟩ := Option.bind_eq_some_iff.mp hp
  obtain ⟨marked, hvalue, hshows⟩ := map_shows_pins_and_marker screen es s p hs hp
  have hmarked : LastWrite.value (App.written false Op.marksMap) none
      (Machine.trace (App.step screen) App.installed es) = some true := by decide
  rw [hmarked] at hvalue
  cases hvalue
  exact ⟨s, p, hs, hp, hshows⟩

end WatashiMap
