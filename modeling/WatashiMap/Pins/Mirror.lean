import WatashiMap.Model.Effects
import WatashiMap.Pins.Store
import WatashiMap.Settings.Loader

namespace WatashiMap

open SwiftDouble

variable {D F : Type}

section

variable [SwiftDouble D]

/-- Every record was made of a pin, so none of its fields is missing. -/
def WellFormed (D : Type) [SwiftDouble D] (items : List PinItem) : Prop :=
  ∀ q ∈ items, ∃ c : CustomAnnotation D, q = c.record

theorem WellFormed.eq_map {items : List PinItem} (h : WellFormed D items) :
    ∃ customs : List <| CustomAnnotation D, customs.map CustomAnnotation.record = items := by
  induction items with
  | nil => exact ⟨[], rfl⟩
  | cons q items ih =>
    obtain ⟨c, rfl⟩ := h q List.mem_cons_self
    obtain ⟨customs, rfl⟩ := ih fun p hp => h p (List.mem_cons_of_mem _ hp)
    exact ⟨c :: customs, rfl⟩

theorem WellFormed.subset {items items' : List PinItem} (h : WellFormed D items)
    (hs : items' ⊆ items) : WellFormed D items' := fun q hq => h q (hs hq)

/-- A loop over the records of pins that traps on none of them traps nowhere. -/
theorem mapM_record {β : Type} {read : PinItem → Option β} {show_ : CustomAnnotation D → β}
    (h : ∀ c : CustomAnnotation D, read c.record = some (show_ c))
    (customs : List <| CustomAnnotation D) :
    (customs.map CustomAnnotation.record).mapM read = some (customs.map show_) := by
  induction customs with
  | nil => rfl
  | cons c customs ih =>
    rw [List.map_cons, List.mapM_cons, h, ih]
    rfl

/-- The suggestion read from the record of a pin. -/
def CustomAnnotation.pin (c : CustomAnnotation D) : Pin D :=
  ⟨c.coordinate, c.title, c.subtitle, c.image⟩

theorem pin_record (c : CustomAnnotation D) : c.record.pin = some c.pin := by
  simp [PinItem.pin, CustomAnnotation.record, CustomAnnotation.pin, ofString_description]

theorem viewDidLoad_spec {items : List PinItem} (h : WellFormed D items)
    (vc : ViewController D) :
    ∃ vc', vc.viewDidLoad items = some vc' ∧
      ∃ customs : List <| CustomAnnotation D, customs.map CustomAnnotation.record = items ∧
        customsOf vc'.annotations = customsOf vc.annotations ++ customs := by
  obtain ⟨customs, hm⟩ := h.eq_map
  have hload := mapM_record (fun c => (customAnnotation_record c : _ = some (id c))) customs
  rw [hm, List.map_id_fun', id_eq] at hload
  refine ⟨_, by rw [ViewController.viewDidLoad, hload, Option.map_some], customs, hm, ?_⟩
  rw [customsOf_append, customsOf_custom]

/-- No `!` of the pin search meets a missing value. -/
theorem shouldChangeTextIn_isSome {items : List PinItem} (h : WellFormed D items)
    (s : Suggestions D) : (s.shouldChangeTextIn items).isSome := by
  unfold Suggestions.shouldChangeTextIn
  dsimp only
  split
  · rfl
  · rename_i text _
    obtain ⟨customs, hm⟩ :=
      (h.subset (List.filter_sublist (p := PinItem.titleContains text)).subset).eq_map
    rw [← hm, mapM_record pin_record]
    rfl

/-- The map of a view controller shows exactly the stored pins. -/
def ViewController.Shows (vc : ViewController D) (items : List PinItem) : Prop :=
  Keyed.Mirrors CustomAnnotation.record (customsOf vc.annotations) items

/-- From a map without pins `viewDidLoad` shows the store. -/
theorem viewDidLoad_shows {items : List PinItem} {vc vc' : ViewController D}
    (h : WellFormed D items) (hempty : customsOf vc.annotations = [])
    (hload : vc.viewDidLoad items = some vc') : vc'.Shows items := by
  obtain ⟨w, hw, customs, hm, hc⟩ := viewDidLoad_spec h vc
  rw [hload] at hw
  cases hw
  rw [ViewController.Shows, hc, hempty, List.nil_append, Keyed.Mirrors, hm]

/-- Comparing two coordinates as numbers is comparing their strings. -/
theorem same_coordinate_iff (a b : CLLocationCoordinate2D D) :
    (a.latitude = b.latitude ∧ a.longitude = b.longitude) ↔ a.strings = b.strings := by
  rw [CLLocationCoordinate2D.strings_injective.eq_iff]
  cases a
  cases b
  simp

variable [DecidableEq D]

/-- The loop over `mapView.annotations` drops the pins whose record is under the key. -/
theorem customsOf_removeAnnotationsAtPin (vc : ViewController D) :
    customsOf vc.removeAnnotationsAtPin.annotations =
      (customsOf vc.annotations).filter fun c =>
        decide (c.record.coordinates ≠ vc.pincoordinate.strings) := by
  rw [ViewController.removeAnnotationsAtPin, customsOf_filter]
  apply List.filter_congr
  intro c _
  exact decide_eq_decide.mpr (not_congr (same_coordinate_iff c.coordinate vc.pincoordinate))

theorem create_shows {p : Process D F} {r : Realm}
    (hu : Keyed.Unique PinItem.coordinates r.pinItems) (h : p.vc.Shows r.pinItems) :
    p.create.vc.Shows (p.createWrite r r).pinItems := by
  rw [createWrite_pinItems, p.pinItem_eq, ViewController.Shows]
  have hc : customsOf p.create.vc.annotations =
      customsOf p.vc.removeAnnotationsAtPin.annotations ++ [p.customAnnotation] := by
    change customsOf ((_ ++ [(.custom p.customAnnotation : MKAnnotation D)]).filter _) = _
    rw [customsOf_without_marker, customsOf_append]
    rfl
  rw [hc, customsOf_removeAnnotationsAtPin]
  exact h.replaceFirst hu fun _ => rfl

theorem deletePin_shows {screen : Screen} {p : Process D F} {r : Realm}
    (h : p.vc.Shows r.pinItems) :
    (p.deletePin screen).vc.Shows (p.deletePinWrite r).pinItems := by
  rw [deletePinWrite_pinItems, ViewController.Shows]
  have hc := customsOf_removeAnnotationsAtPin
    { p.vc with panels := p.vc.panels.hideDetailPanel screen }
  change customsOf (p.deletePin screen).vc.annotations = _ at hc
  rw [hc]
  exact Keyed.Mirrors.eraseKey h fun _ => rfl

variable [SwiftCGFloat F]

omit [DecidableEq D] in
theorem commit_writes_wellFormed {r : Realm} (h : WellFormed D r.pinItems) (p : Process D F)
    (o : Op D F) : WellFormed D (Crash.commit (o.writes r p) r).pinItems := by
  rw [commit_writes_pinItems]
  cases o with
  | create =>
    intro q hq
    rcases Keyed.mem_replaceFirst hq with hq | rfl
    · exact h q hq
    · exact ⟨p.customAnnotation, p.pinItem_eq⟩
  | deletePin => exact h.subset List.filter_sublist.subset
  | deleteAllPins => exact h.subset (List.nil_subset _)
  | _ => exact h

omit [DecidableEq D] in
theorem cut_writes_wellFormed {r : Realm} (h : WellFormed D r.pinItems) (p : Process D F)
    (o : Op D F) (k : Nat) : WellFormed D (Crash.cut (o.writes r p) k r).pinItems :=
  cut_writes_keeps h (commit_writes_wellFormed h p o) k

omit [DecidableEq D] in
theorem cut_writes_themeColors {r : Realm} (h : r.themeColors.length ≤ 3) (p : Process D F)
    (o : Op D F) (k : Nat) : (Crash.cut (o.writes r p) k r).themeColors.length ≤ 3 := by
  obtain ho | ⟨theme, selectedPin, rfl⟩ := o.savesSettings_cases
  · rw [(cut_writes_settings ho k).1]
    exact h
  · cases k with
    | zero => exact h
    | succ k =>
      rw [Op.writes, cut_changeSettingWrites]
      simp

omit [DecidableEq D] in
theorem commit_writes_themeColors {r : Realm} (h : r.themeColors.length ≤ 3)
    (p : Process D F) (o : Op D F) :
    (Crash.commit (o.writes r p) r).themeColors.length ≤ 3 := by
  rw [← Crash.cut_of_length_le (Nat.le_refl (o.writes r p).length) r]
  exact cut_writes_themeColors h p o _

omit [DecidableEq D] in
/-- An operation that runs to its end leaves the theme alone or stores a whole one. -/
theorem commit_writes_wholeTheme {r : Realm} (h : r.WholeTheme) (p : Process D F) (o : Op D F) :
    (Crash.commit (o.writes r p) r).WholeTheme := by
  obtain ho | ⟨theme, selectedPin, rfl⟩ := o.savesSettings_cases
  · rw [Realm.WholeTheme, (commit_writes_settings ho).1]
    exact h
  · exact Or.inr rfl

/-- The process has no `UIColor()` to draw with, and a launch would find none either. -/
structure Process.Drawn (r : Realm) (p : Process D F) : Prop where
  theme : p.userSetting.theme.isSome
  wholeTheme : r.WholeTheme

/-- What every run keeps: unique keys, whole records, a map that shows the store, no more colours
than the launch has slots for, and all or none of them while a process runs. -/
structure MapInvariant (s : App D F) : Prop where
  unique : Keyed.Unique PinItem.coordinates s.realm.pinItems
  wellFormed : WellFormed D s.realm.pinItems
  shown : ∀ p, s.process = some p → p.vc.Shows s.realm.pinItems
  themeColors_le : s.realm.themeColors.length ≤ 3
  drawn : ∀ p, s.process = some p → p.Drawn s.realm

theorem perform_shows {screen : Screen} {r : Realm} {p q : Process D F} {o : Op D F}
    (hu : Keyed.Unique PinItem.coordinates r.pinItems) (hw : WellFormed D r.pinItems)
    (hs : p.vc.Shows r.pinItems) (h : o.perform screen r p = some q) :
    q.vc.Shows (Crash.commit (o.writes r p) r).pinItems := by
  cases ho : o.editsMap with
  | false =>
    have hitems : (Crash.commit (o.writes r p) r).pinItems = r.pinItems := by
      rw [commit_writes_pinItems]
      cases o with
      | create | deletePin | deleteAllPins => cases ho
      | _ => rfl
    rw [hitems, ViewController.Shows, (Op.effect (Op.stays_of_map ho) h).customs ho]
    exact hs
  | true =>
    cases o with
    | create =>
      cases h
      exact create_shows hu hs
    | deletePin =>
      cases h
      exact deletePin_shows hs
    | deleteAllPins =>
      cases h
      exact Keyed.mirrors_nil CustomAnnotation.record
    | changeSetting theme selectedPin =>
      obtain ⟨vc, hvc, rfl⟩ := Process.changeSetting_spec h
      have hw' := commit_writes_wellFormed hw p (.changeSetting theme selectedPin)
      have hshown : vc.Shows _ := viewDidLoad_shows hw' rfl hvc
      exact hshown
    | tutorialReturn =>
      obtain ⟨vc, hvc, rfl⟩ := Process.tutorialReturn_spec h
      exact viewDidLoad_shows hw rfl hvc
    | _ => cases ho

/-- Only `changeSetting` changes the colours, and it ends with a whole theme. -/
theorem perform_drawn {screen : Screen} {r : Realm} {p q : Process D F} {o : Op D F}
    (hp : p.Drawn r) (h : o.perform screen r p = some q) :
    q.Drawn (Crash.commit (o.writes r p) r) := by
  refine ⟨?_, commit_writes_wholeTheme hp.wholeTheme p o⟩
  obtain ho | ⟨theme, selectedPin, rfl⟩ := o.savesSettings_cases
  · rw [theme_of_colors (perform_settings ho h).1]
    exact hp.theme
  · obtain ⟨_, _, rfl⟩ := Process.changeSetting_spec h
    rfl

theorem step_mapInvariant {screen : Screen} (s : App D F) (e : Event D F) (t : App D F)
    (hs : MapInvariant s) (h : App.step screen s e = some t) : MapInvariant t := by
  refine App.step_invariant MapInvariant ?_ ?_ ?_ s e t hs h
  · intro r u vc hr hu htheme hvc
    refine ⟨hr.unique, hr.wellFormed, ?_, hr.themeColors_le, ?_⟩
    · intro p hp
      cases hp
      exact viewDidLoad_shows hr.wellFormed rfl hvc
    · intro p hp
      cases hp
      exact ⟨htheme, (theme_isSome_iff hu).mp htheme⟩
  · intro r p o q hr hq
    refine ⟨commit_writes_unique hr.unique p o, commit_writes_wellFormed hr.wellFormed p o, ?_,
      commit_writes_themeColors hr.themeColors_le p o, ?_⟩
    · intro p' hp'
      cases hp'
      exact perform_shows hr.unique hr.wellFormed (hr.shown p rfl) hq
    · intro p' hp'
      cases hp'
      exact perform_drawn (hr.drawn p rfl) hq
  · intro r p o k hr
    refine ⟨cut_writes_unique hr.unique p o k, cut_writes_wellFormed hr.wellFormed p o k, ?_,
      cut_writes_themeColors hr.themeColors_le p o k, ?_⟩ <;> intro p' hp' <;> cases hp'

omit [DecidableEq D] [SwiftCGFloat F] in
/-- `didSelect` finds the record of any pin on the map and reads that pin's values from it. -/
theorem didSelect_custom_eq {items : List PinItem} {vc : ViewController D}
    (hu : Keyed.Unique PinItem.coordinates items) {c : CustomAnnotation D}
    (hc : c.record ∈ items) (screen : Screen) :
    vc.didSelect screen items (.custom c) = some { vc with
      panels := vc.panels.didSelect screen, pincoordinate := c.coordinate
      pintitle := c.title, pinsubtitle := c.subtitle, pinimage := c.image } := by
  have hfind : (items.filter (PinItem.isAt c.coordinate)).head? = some c.record := by
    rw [List.head?_filter]
    exact hu.find?_eq hc
  unfold ViewController.didSelect
  dsimp only [ViewController.coordinate]
  rw [hfind]
  rfl

omit [DecidableEq D] [SwiftCGFloat F] in
theorem didSelect_custom {items : List PinItem} {vc : ViewController D}
    (hu : Keyed.Unique PinItem.coordinates items) (hs : vc.Shows items)
    {c : CustomAnnotation D} (hc : .custom c ∈ vc.annotations) (screen : Screen) :
    ∃ vc', vc.didSelect screen items (.custom c) = some vc' ∧
      vc'.pincoordinate = c.coordinate ∧ vc'.pintitle = c.title ∧
      vc'.pinsubtitle = c.subtitle ∧ vc'.pinimage = c.image := by
  have hmem : c.record ∈ items :=
    hs.mem_iff.mp (List.mem_map_of_mem (mem_customsOf.mpr hc))
  exact ⟨_, didSelect_custom_eq hu hmem screen, rfl, rfl, rfl, rfl⟩

/-- The two table callbacks index `Pins` and `searchCompleter.results`. -/
def Event.indexesTable : Event D F → Bool
  | .op (.cellForRowAt _) | .op (.didSelectRowAt _) => true
  | _ => false

/-- The map shows the store, and no `!` on a record meets a missing value. All that traps is a
launch on a part of a theme, whose colours are not all there to draw with. -/
structure MapAndStoreAgree (screen : Screen) (s : App D F) : Prop where
  agree : ∀ p, s.process = some p →
    ((customsOf p.vc.annotations : Multiset <| CustomAnnotation D).map CustomAnnotation.record) =
      (s.realm.pinItems : Multiset PinItem)
  didSelect : ∀ p c, s.process = some p → .custom c ∈ p.vc.annotations →
    ∃ vc, p.vc.didSelect screen s.realm.pinItems (.custom c) = some vc ∧
      vc.pincoordinate = c.coordinate ∧ vc.pintitle = c.title ∧
      vc.pinsubtitle = c.subtitle ∧ vc.pinimage = c.image
  viewDidLoad : ∀ vc : ViewController D, (vc.viewDidLoad s.realm.pinItems).isSome
  search : ∀ sg : Suggestions D, (sg.shouldChangeTextIn s.realm.pinItems).isSome
  drawn : ∀ p, s.process = some p → p.userSetting.theme.isSome
  launch : s.process = none → ((App.step screen s .launch).isSome ↔ s.realm.WholeTheme)
  step : ∀ e : Event D F, e.indexesTable = false → e ≠ .launch → (App.step screen s e).isSome

omit [DecidableEq D] [SwiftCGFloat F] in
theorem viewDidLoad_isSome {items : List PinItem} (h : WellFormed D items)
    (vc : ViewController D) : (vc.viewDidLoad items).isSome := by
  obtain ⟨_, hvc, _⟩ := viewDidLoad_spec h vc
  rw [hvc]
  rfl

omit [DecidableEq D] [SwiftCGFloat F] in
theorem load_isSome {items : List PinItem} (h : WellFormed D items) {u : UserSetting F}
    (hu : u.theme.isSome) : (ViewController.load u items : Option (ViewController D)).isSome := by
  obtain ⟨vc, hvc⟩ := Option.isSome_iff_exists.mp (viewDidLoad_isSome h .initial)
  rw [ViewController.load_eq_some_iff.mpr ⟨hu, hvc⟩]
  rfl

/-- No operation but the table's callbacks traps. -/
theorem perform_isSome {screen : Screen} {r : Realm} {p : Process D F}
    (h : MapInvariant (⟨r, some p⟩ : App D F)) (o : Op D F)
    (ho : (Event.op o).indexesTable = false) : (o.perform screen r p).isSome := by
  cases o with
  | cellForRowAt | didSelectRowAt => cases ho
  | didSelect a =>
    dsimp only [Op.perform]
    split_ifs with ha
    · rw [Option.isSome_map]
      cases a with
      | custom c =>
        have hc : .custom c ∈ p.vc.annotations := ha.resolve_right (by simp)
        obtain ⟨vc, hvc, _⟩ := didSelect_custom h.unique (h.shown p rfl) hc screen
        rw [hvc]
        rfl
      | point => rfl
      | userLocation => rfl
    · rfl
  | changeSetting theme selectedPin =>
    dsimp only [Op.perform]
    rw [Process.changeSetting_eq, Option.isSome_map]
    exact viewDidLoad_isSome
      (commit_writes_wellFormed h.wellFormed p (.changeSetting theme selectedPin)) _
  | tutorialReturn =>
    dsimp only [Op.perform, Process.tutorialReturn]
    rw [Option.isSome_map]
    exact load_isSome h.wellFormed (h.drawn p rfl).theme
  | editSearchText newText =>
    dsimp only [Op.perform, Suggestions.edit]
    rw [Option.isSome_map, Option.isSome_map]
    exact shouldChangeTextIn_isSome h.wellFormed _
  | viewFor | deletePins =>
    dsimp only [Op.perform]
    split_ifs <;> rfl
  | _ => rfl

theorem launch_wholeTheme {screen : Screen} {r : Realm} {t : App D F}
    (h : App.step screen ⟨r, none⟩ .launch = some t) : r.WholeTheme := by
  obtain ⟨u, _, hu, htheme, _, _⟩ := App.step_launch_iff.mp h
  exact (theme_isSome_iff hu).mp htheme

/-- The slots are filled from the stored colours, and one left at `UIColor()` is drawn with. -/
theorem launch_isSome_iff {screen : Screen} {s : App D F} (h : MapInvariant s)
    (hs : s.process = none) : (App.step screen s .launch).isSome ↔ s.realm.WholeTheme := by
  obtain ⟨r, process⟩ := s
  cases hs
  constructor
  · intro hsome
    obtain ⟨t, ht⟩ := Option.isSome_iff_exists.mp hsome
    exact launch_wholeTheme ht
  · intro hwhole
    obtain ⟨u, hu⟩ := Option.isSome_iff_exists.mp
      ((didFinishLaunching_isSome_iff (F := F) r).mpr h.themeColors_le)
    obtain ⟨vc, hvc⟩ := Option.isSome_iff_exists.mp
      (viewDidLoad_isSome h.wellFormed ViewController.initial)
    rw [App.step_launch_iff.mpr ⟨u, vc, hu, (theme_isSome_iff hu).mpr hwhole, hvc, rfl⟩]
    rfl

theorem step_isSome {screen : Screen} {s : App D F} (h : MapInvariant s) (e : Event D F)
    (he : e.indexesTable = false) (hlaunch : e ≠ .launch) : (App.step screen s e).isSome := by
  obtain ⟨r, _ | p⟩ := s
  · cases e with
    | launch => exact absurd rfl hlaunch
    | op | killDuring | kill => rfl
  · cases e with
    | op o =>
      dsimp only [App.step]
      rw [Option.isSome_map]
      exact perform_isSome h o he
    | launch | killDuring | kill => rfl

theorem MapInvariant.mapAndStoreAgree {s : App D F} (h : MapInvariant s) (screen : Screen) :
    MapAndStoreAgree screen s where
  agree := by
    intro p hp
    rw [Multiset.map_coe, Multiset.coe_eq_coe]
    exact h.shown p hp
  didSelect := fun p _ hp hc => didSelect_custom h.unique (h.shown p hp) hc screen
  viewDidLoad := viewDidLoad_isSome h.wellFormed
  search := shouldChangeTextIn_isSome h.wellFormed
  drawn := fun p hp => (h.drawn p hp).theme
  launch := launch_isSome_iff h
  step := step_isSome h

omit [SwiftCGFloat F] [DecidableEq D] in
theorem installed_mapInvariant : MapInvariant (App.installed : App D F) :=
  ⟨Keyed.unique_nil PinItem.coordinates, fun _ hq => absurd hq List.not_mem_nil,
    fun _ hp => absurd hp (Option.some_ne_none _).symm, Nat.zero_le 3,
    fun _ hp => absurd hp (Option.some_ne_none _).symm⟩

/-- Every reachable state keeps the invariant. -/
theorem mapInvariant_of_run {screen : Screen} {es : List (Event D F)} {s : App D F}
    (h : Machine.run (App.step screen) App.installed es = some s) : MapInvariant s :=
  (Machine.always_of_invariant step_mapInvariant installed_mapInvariant es).last h

/-- In every state of every run from an empty store the pins on the map are the stored pins,
with multiplicity; `didSelect` finds the record of each of them, and no force unwrap on a
record fails. -/
theorem map_and_store_agree (screen : Screen) (es : List (Event D F)) :
    Machine.Always (App.step screen) (MapAndStoreAgree screen) App.installed es :=
  (Machine.always_of_invariant step_mapInvariant installed_mapInvariant es).mono
    fun _ hs => hs.mapAndStoreAgree screen

end

end WatashiMap
