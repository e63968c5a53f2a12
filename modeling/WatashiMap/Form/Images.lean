import WatashiMap.Form.Session
import WatashiMap.Pins.Mirror

namespace WatashiMap

variable {D F : Type}

/-- The images the picker offers. -/
def images : List String := photo.flatten

theorem choosePin_mem_images (sec row : Nat) {pinColor : String} (h : pinColor ∈ images) :
    choosePin sec row pinColor ∈ images := by
  unfold choosePin
  cases hs : photo[sec]? with
  | none => exact h
  | some s =>
    cases hi : s[row]? with
    | none => simpa [hi] using h
    | some image =>
      have hmem : image ∈ images :=
        List.mem_flatten.mpr ⟨s, List.mem_of_getElem? hs, List.mem_of_getElem? hi⟩
      rw [Option.bind_some, hi, Option.getD_some]
      exact hmem

theorem redpin_mem_images : "redpin-1.png" ∈ images := by decide

def PinItem.HasKnownImage (q : PinItem) : Prop := ∃ image ∈ images, q.image = some image

/-- The callout of a pin has the button for `detailOpen`. -/
def opensDetail (selected : Option <| MKAnnotation D) : Bool :=
  match selected with
  | some (.custom _) => true
  | _ => false

/-- The callouts of the marker and of the user's location have the button for `showEditView`. -/
def opensForm (selected : Option <| MKAnnotation D) : Bool :=
  match selected with
  | some .point | some .userLocation => true
  | _ => false

/-- The buttons of a detail panel exist once one was opened. -/
def Op.offered (selected : Option <| MKAnnotation D) (p : Process D F) : Op D F → Bool
  | .detailOpen => opensDetail selected
  | .showEditView => opensForm selected
  | .modifyPlace | .deletePin => p.vc.detail.isSome
  | _ => true

/-- The app and the annotation that MapKit shows the callout of. -/
structure WithCallout (D F : Type) where
  app : App D F
  selected : Option <| MKAnnotation D

/-- What a process may show or store as an image is known. -/
structure Process.KnownImages (selected : Option <| MKAnnotation D) (p : Process D F) : Prop where
  pinColor : p.userSetting.pinColor ∈ images
  labels : ∀ labels, p.vc.detail = some labels → labels.pinImage ∈ images
  pinimage : p.vc.isExistingPin = true ∨ p.vc.detail.isSome = true ∨ opensDetail selected = true →
    p.vc.pinimage ∈ images

/-- An operation that leaves the image fields alone. -/
theorem Process.KnownImages.of_same {selected selected' : Option <| MKAnnotation D}
    {p q : Process D F} (h : p.KnownImages selected)
    (hcolor : q.userSetting.pinColor = p.userSetting.pinColor)
    (hexisting : q.vc.isExistingPin = p.vc.isExistingPin) (hdetail : q.vc.detail = p.vc.detail)
    (hpinimage : q.vc.pinimage = p.vc.pinimage)
    (hselected : opensDetail selected' = true → opensDetail selected = true) :
    q.KnownImages selected' := by
  constructor
  · rw [hcolor]
    exact h.pinColor
  · rw [hdetail]
    exact h.labels
  · rw [hexisting, hdetail, hpinimage]
    intro hknown
    exact h.pinimage (hknown.imp_right (Or.imp_right hselected))

variable [DecidableEq D]

/-- What is selected after an operation: the map takes its annotations' callouts with it. -/
def Op.selects (p : Process D F) (selected : Option <| MKAnnotation D) :
    Op D F → (Option <| MKAnnotation D)
  | .didSelect a => if p.vc.onMap a then some a else selected
  | .changeSetting _ _ | .tutorialReturn => none
  | _ => selected

variable [SwiftDouble D] [SwiftCGFloat F]

omit [DecidableEq D] [SwiftCGFloat F] in
/-- The record that `didSelect` finds has the image it copies. -/
theorem didSelect_pinimage {screen : Screen} {items : List PinItem} {c : CustomAnnotation D}
    {vc vc' : ViewController D} (hitems : ∀ q ∈ items, q.HasKnownImage)
    (h : vc.didSelect screen items (.custom c) = some vc') : vc'.pinimage ∈ images := by
  simp only [ViewController.didSelect, Option.bind_eq_bind, Option.pure_def,
    Option.bind_eq_some_iff, Option.some.injEq] at h
  obtain ⟨pininfo, hfirst, _, _, image, himage, rfl⟩ := h
  have hmem : pininfo ∈ items := (List.mem_filter.mp (List.mem_of_head? hfirst)).1
  obtain ⟨known, hknown, heq⟩ := hitems pininfo hmem
  rw [himage] at heq
  cases heq
  exact hknown

theorem perform_knownImages {screen : Screen} {selected : Option <| MKAnnotation D} {r : Realm}
    {p q : Process D F} {o : Op D F} (hitems : ∀ q ∈ r.pinItems, q.HasKnownImage)
    (hp : p.KnownImages selected) (ho : o.offered selected p = true)
    (h : o.perform screen r p = some q) : q.KnownImages (o.selects p selected) := by
  cases o with
  | didSelect a =>
    dsimp only [Op.perform, Op.selects] at h ⊢
    split_ifs at h ⊢
    · obtain ⟨vc, hvc, rfl⟩ := Option.map_eq_some_iff.mp h
      cases a with
      | custom c =>
        have hpinimage := didSelect_pinimage hitems hvc
        obtain ⟨_, _, _, rfl⟩ := ViewController.didSelect_spec hvc
        exact ⟨hp.pinColor, hp.labels, fun _ => hpinimage⟩
      | point | userLocation =>
        cases hvc
        exact hp.of_same rfl rfl rfl rfl nofun
    · cases h
      exact hp
  | viewFor dequeued a =>
    obtain ⟨_, _, rfl⟩ := Op.perform_viewFor h
    exact hp.of_same rfl rfl rfl rfl id
  | deletePins =>
    dsimp only [Op.perform] at h
    split_ifs at h <;> cases h <;> exact hp.of_same rfl rfl rfl rfl id
  | detailOpen =>
    cases h
    have hpinimage : p.vc.pinimage ∈ images := hp.pinimage (Or.inr (Or.inr ho))
    refine ⟨hp.pinColor, ?_, fun _ => hpinimage⟩
    intro labels hlabels
    cases hlabels
    exact hpinimage
  | modifyPlace =>
    cases h
    have hpinimage : p.vc.pinimage ∈ images := hp.pinimage (Or.inr (Or.inl ho))
    exact ⟨hpinimage, hp.labels, fun _ => hpinimage⟩
  | showEditView =>
    cases h
    refine ⟨?_, hp.labels, hp.pinimage⟩
    change p.vc.editPinColor p.userSetting.pinColor ∈ images
    unfold ViewController.editPinColor
    split_ifs with hexisting
    · exact hp.pinimage (Or.inl hexisting)
    · exact hp.pinColor
  | choosePin sec row =>
    cases h
    exact ⟨choosePin_mem_images sec row hp.pinColor, hp.labels, hp.pinimage⟩
  | create =>
    cases h
    refine ⟨redpin_mem_images, hp.labels, ?_⟩
    intro hknown
    exact hp.pinimage (Or.inr (hknown.resolve_left Bool.false_ne_true))
  | hideEditView confirmed =>
    cases h
    unfold Process.hideEditView
    split
    · exact hp
    · refine ⟨redpin_mem_images, hp.labels, ?_⟩
      intro hknown
      exact hp.pinimage (Or.inr (hknown.resolve_left Bool.false_ne_true))
  | tutorialReturn =>
    obtain ⟨_, hvc, rfl⟩ := Process.tutorialReturn_spec h
    obtain ⟨_, _, rfl⟩ := Option.map_eq_some_iff.mp hvc
    refine ⟨hp.pinColor, nofun, ?_⟩
    simp [ViewController.initial, opensDetail, Op.selects]
  | changeSetting theme selectedPin =>
    obtain ⟨_, hvc, rfl⟩ := Process.changeSetting_spec h
    obtain ⟨_, _, rfl⟩ := Option.map_eq_some_iff.mp hvc
    exact hp.of_same rfl rfl rfl rfl nofun
  | editSearchText newText =>
    obtain ⟨_, _, rfl⟩ := Option.map_eq_some_iff.mp h
    exact hp.of_same rfl rfl rfl rfl id
  | cellForRowAt row =>
    obtain ⟨_, rfl⟩ := Op.perform_cellForRowAt h
    exact hp.of_same rfl rfl rfl rfl id
  | didSelectRowAt row =>
    dsimp only [Op.perform] at h
    split_ifs at h
    · obtain ⟨⟨s, action⟩, _, rfl⟩ := Option.map_eq_some_iff.mp h
      cases action <;> exact hp.of_same rfl rfl rfl rfl id
    · cases h
      exact hp
  | mapLongPressed mapPoint =>
    cases h
    dsimp only [ViewController.mapLongPressed]
    rw [ViewController.addAnnotation_eq]
    exact hp.of_same rfl rfl rfl rfl id
  | reply i r =>
    cases h
    rw [ViewController.reply_eq]
    exact hp.of_same rfl rfl rfl rfl id
  | _ =>
    cases h
    exact hp.of_same rfl rfl rfl rfl id

omit [DecidableEq D] in
theorem commit_writes_knownImages {r : Realm} {p : Process D F} {o : Op D F}
    (h : ∀ q ∈ r.pinItems, q.HasKnownImage) (hp : p.userSetting.pinColor ∈ images) :
    ∀ q ∈ (Crash.commit (o.writes r p) r).pinItems, q.HasKnownImage := by
  rw [commit_writes_pinItems]
  cases o with
  | create =>
    intro q hq
    rcases Keyed.mem_replaceFirst hq with hq | rfl
    · exact h q hq
    · exact ⟨_, hp, rfl⟩
  | deletePin => exact fun q hq => h q (List.mem_filter.mp hq).1
  | deleteAllPins => exact fun q hq => absurd hq List.not_mem_nil
  | _ => exact h

namespace WithCallout

/-- The operations that reach the program: an open form covers the screen, and the buttons of
callouts and panels need these. -/
def through (selected : Option <| MKAnnotation D) (p : Process D F) (o : Op D F) : Bool :=
  o.reaches p && o.offered selected p

def selectedAfter (s : WithCallout D F) : Event D F → (Option <| MKAnnotation D)
  | .op o =>
      match s.app.process with
      | some p => if through s.selected p o then o.selects p s.selected else s.selected
      | none => s.selected
  | .launch => if s.app.process.isSome then s.selected else none
  | .killDuring _ _ | .kill => s.selected

def step (screen : Screen) (s : WithCallout D F) (e : Event D F) : Option (WithCallout D F) :=
  (App.guardedStep (through s.selected) screen s.app e).map fun t => ⟨t, s.selectedAfter e⟩

/-- Every image that is stored, shown on the map or in the detail panel, or about to be stored is
one the picker offers. -/
structure ImagesKnown (s : WithCallout D F) : Prop where
  stored : ∀ q ∈ s.app.realm.pinItems, q.HasKnownImage
  shown : ∀ p c, s.app.process = some p → .custom c ∈ p.vc.annotations → c.image ∈ images
  pinColor : ∀ p, s.app.process = some p → p.userSetting.pinColor ∈ images
  labels : ∀ p labels, s.app.process = some p → p.vc.detail = some labels →
    labels.pinImage ∈ images

/-- What every step keeps. -/
structure Invariant (s : WithCallout D F) : Prop where
  map : MapInvariant s.app
  stored : ∀ q ∈ s.app.realm.pinItems, q.HasKnownImage
  running : ∀ p, s.app.process = some p → p.KnownImages s.selected

omit [DecidableEq D] [SwiftCGFloat F] in
theorem Invariant.imagesKnown {s : WithCallout D F} (h : s.Invariant) : s.ImagesKnown where
  stored := h.stored
  shown := by
    intro p c hp hc
    have hmem : c.record ∈ s.app.realm.pinItems :=
      (h.map.shown p hp).mem_iff.mp (List.mem_map_of_mem (mem_customsOf.mpr hc))
    obtain ⟨image, himage, heq⟩ := h.stored _ hmem
    cases heq
    exact himage
  pinColor := fun p hp => (h.running p hp).pinColor
  labels := fun p labels hp hlabels => (h.running p hp).labels labels hlabels

omit [DecidableEq D] in
theorem knownImages_launch {u : UserSetting F} {vc : ViewController D} {r : Realm}
    (hu : didFinishLaunching r = some u)
    (hvc : ViewController.initial.viewDidLoad r.pinItems = some vc) :
    Process.KnownImages none ⟨u, vc⟩ := by
  obtain ⟨_, _, rfl⟩ := Option.map_eq_some_iff.mp hvc
  refine ⟨?_, nofun, ?_⟩
  · rw [didFinishLaunching_pinColor hu]
    exact redpin_mem_images
  · simp [ViewController.initial, opensDetail]

theorem guardedStep_cases {through : Process D F → Op D F → Bool} {screen : Screen}
    {s t : App D F} {e : Event D F} (h : App.guardedStep through screen s e = some t) :
    t = s ∨ App.step screen s e = some t := by
  obtain ⟨r, process⟩ := s
  cases process with
  | none =>
    cases e with
    | launch | kill => exact Or.inr h
    | op | killDuring =>
      cases h
      exact Or.inl rfl
  | some p =>
    cases e with
    | launch | kill => exact Or.inr h
    | op o | killDuring o k =>
      dsimp only [App.guardedStep] at h
      split_ifs at h
      · exact Or.inr h
      · cases h
        exact Or.inl rfl

theorem step_invariant {screen : Screen} (s : WithCallout D F) (e : Event D F)
    (t : WithCallout D F) (hs : s.Invariant) (h : s.step screen e = some t) : t.Invariant := by
  obtain ⟨u, hu, rfl⟩ := Option.map_eq_some_iff.mp h
  have hmap : MapInvariant u := by
    rcases guardedStep_cases hu with rfl | hstep
    · exact hs.map
    · exact step_mapInvariant _ _ _ hs.map hstep
  obtain ⟨⟨r, process⟩, selected⟩ := s
  cases process with
  | none =>
    cases e with
    | launch =>
      have hstep : App.step screen ⟨r, none⟩ .launch = some u := hu
      obtain ⟨users, vc, husers, _, hvc, rfl⟩ := App.step_launch_iff.mp hstep
      refine ⟨hmap, hs.stored, ?_⟩
      intro p hp
      cases hp
      exact knownImages_launch husers hvc
    | op | killDuring | kill =>
      cases hu
      refine ⟨hmap, hs.stored, ?_⟩
      intro p hp
      cases hp
  | some p =>
    have hp : p.KnownImages selected := hs.running p rfl
    cases e with
    | launch =>
      cases hu
      exact ⟨hmap, hs.stored, hs.running⟩
    | op o =>
      cases ho : through selected p o with
      | false =>
        rw [App.guardedStep_op_of_not ho] at hu
        cases hu
        refine ⟨hmap, hs.stored, ?_⟩
        simpa [selectedAfter, ho] using hp
      | true =>
        rw [App.guardedStep_op ho] at hu
        obtain ⟨q, hq, rfl⟩ := App.step_op hu
        refine ⟨hmap, commit_writes_knownImages hs.stored hp.pinColor, ?_⟩
        have hoffered : o.offered selected p = true := (Bool.and_eq_true_iff.mp ho).2
        simpa [selectedAfter, ho] using perform_knownImages hs.stored hp hoffered hq
    | killDuring o k =>
      dsimp only [App.guardedStep] at hu
      split_ifs at hu
      · cases hu
        have hafter := commit_writes_knownImages (o := o) hs.stored hp.pinColor
        refine ⟨hmap, cut_writes_keeps (P := fun items => ∀ q ∈ items, q.HasKnownImage)
          hs.stored hafter k, ?_⟩
        intro p' hp'
        cases hp'
      · cases hu
        exact ⟨hmap, hs.stored, hs.running⟩
    | kill =>
      cases hu
      refine ⟨hmap, hs.stored, ?_⟩
      intro p' hp'
      cases hp'

end WithCallout

/-- In every run from an empty store in which buttons are tapped only where they are, every image
that is stored, on the map, in the detail panel or chosen for the next pin is one the picker
offers. -/
theorem images_come_from_picker (screen : Screen) (es : List (Event D F)) :
    Machine.Always (WithCallout.step screen) WithCallout.ImagesKnown ⟨App.installed, none⟩ es := by
  have hinstalled : WithCallout.Invariant (⟨App.installed, none⟩ : WithCallout D F) := by
    refine ⟨installed_mapInvariant, fun q hq => absurd hq List.not_mem_nil, ?_⟩
    intro p hp
    cases hp
  exact (Machine.always_of_invariant WithCallout.step_invariant hinstalled es).mono
    fun _ hs => hs.imagesKnown

end WatashiMap
