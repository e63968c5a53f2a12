import WatashiMap.Model.App
import WatashiMap.Model.Numbers

namespace WatashiMap

inductive ControlKind where
  | currentPosBtn
  | deletePinsBtn
  | settingBtn
  | searchBar
  deriving DecidableEq

/-- A control on the map view: what it is, and which call of `viewDidLoad` made it. Call 0
stands for the search bar the stored property starts with. -/
structure MapControl where
  kind : ControlKind
  call : Nat
  deriving DecidableEq

/-- What `viewDidLoad` puts on `mapView`: the long-press recognizers, by the call that made
them, and the subviews. -/
structure MapControls where
  recognizers : List Nat
  subviews : List MapControl
  calls : Nat
  deriving DecidableEq

namespace MapControls

/-- A new `MKMapView()`. -/
def initial : MapControls := ⟨[], [], 0⟩

def searchBar : MapControl := ⟨.searchBar, 0⟩

/-- `addSubview` brings a view that is there already to the front. -/
def addSubview (v : MapControl) (subviews : List MapControl) : List MapControl :=
  subviews.filter (fun w => w ≠ v) ++ [v]

/-- The part of `viewDidLoad` that adds to `mapView`. -/
def viewDidLoad (m : MapControls) : MapControls :=
  let n := m.calls + 1
  let subviews := addSubview ⟨.currentPosBtn, n⟩ m.subviews
  let subviews := addSubview ⟨.deletePinsBtn, n⟩ subviews
  let subviews := addSubview ⟨.settingBtn, n⟩ subviews
  { recognizers := m.recognizers ++ [n]
    subviews := addSubview searchBar subviews
    calls := n }

def count (kind : ControlKind) (m : MapControls) : Nat :=
  m.subviews.countP fun v => v.kind = kind

/-- What `n` calls of `viewDidLoad` leave: `n` recognizers and `n` of each button, but one
search bar. -/
structure LoadedTimes (n : Nat) (m : MapControls) : Prop where
  calls : m.calls = n
  recognizers : m.recognizers.length = n
  buttons : ∀ kind, kind ≠ .searchBar → m.count kind = n
  oneSearchBar : m.count .searchBar = min n 1
  searchBar : ∀ v ∈ m.subviews, v.kind = .searchBar → v = MapControls.searchBar
  made : ∀ v ∈ m.subviews, v.call ≤ n

theorem initial_loadedTimes : initial.LoadedTimes 0 :=
  ⟨rfl, rfl, fun _ _ => rfl, rfl, fun _ hv => absurd hv List.not_mem_nil,
    fun _ hv => absurd hv List.not_mem_nil⟩

theorem addSubview_of_not_mem {v : MapControl} {subviews : List MapControl} (h : v ∉ subviews) :
    addSubview v subviews = subviews ++ [v] := by
  rw [addSubview, List.filter_eq_self.mpr]
  intro w hw
  have hne : w ≠ v := fun he => h (he ▸ hw)
  exact decide_eq_true hne

/-- The three buttons are new; the search bar moves to the front. -/
theorem subviews_viewDidLoad {m : MapControls} (h : ∀ v ∈ m.subviews, v.call ≤ m.calls) :
    m.viewDidLoad.subviews = (m.subviews.filter fun v => v ≠ searchBar) ++
      [⟨.currentPosBtn, m.calls + 1⟩, ⟨.deletePinsBtn, m.calls + 1⟩,
        ⟨.settingBtn, m.calls + 1⟩, searchBar] := by
  have hnew (kind : ControlKind) : ⟨kind, m.calls + 1⟩ ∉ m.subviews := by
    intro hmem
    have hcall := h _ hmem
    dsimp only at hcall
    omega
  have hcurrent : addSubview ⟨.currentPosBtn, m.calls + 1⟩ m.subviews =
      m.subviews ++ [⟨.currentPosBtn, m.calls + 1⟩] := addSubview_of_not_mem (hnew _)
  have hdelete : addSubview ⟨.deletePinsBtn, m.calls + 1⟩
      (m.subviews ++ [⟨.currentPosBtn, m.calls + 1⟩]) =
        m.subviews ++ [⟨.currentPosBtn, m.calls + 1⟩, ⟨.deletePinsBtn, m.calls + 1⟩] := by
    rw [addSubview_of_not_mem (by simp [hnew]), List.append_assoc]
    rfl
  have hsetting : addSubview ⟨.settingBtn, m.calls + 1⟩
      (m.subviews ++ [⟨.currentPosBtn, m.calls + 1⟩, ⟨.deletePinsBtn, m.calls + 1⟩]) =
        m.subviews ++ [⟨.currentPosBtn, m.calls + 1⟩, ⟨.deletePinsBtn, m.calls + 1⟩,
          ⟨.settingBtn, m.calls + 1⟩] := by
    rw [addSubview_of_not_mem (by simp [hnew]), List.append_assoc]
    rfl
  unfold viewDidLoad
  dsimp only
  rw [hcurrent, hdelete, hsetting, addSubview, List.filter_append, List.append_assoc]
  simp [searchBar]

theorem viewDidLoad_loadedTimes {n : Nat} {m : MapControls} (h : m.LoadedTimes n) :
    m.viewDidLoad.LoadedTimes (n + 1) := by
  have hcalls := h.calls
  have hsubviews := subviews_viewDidLoad (m := m) (by rw [hcalls]; exact h.made)
  have hothers (kind : ControlKind) (hkind : kind ≠ .searchBar) :
      (m.subviews.filter fun v => v ≠ MapControls.searchBar).countP
        (fun v => v.kind = kind) = n := by
    rw [List.countP_filter, ← h.buttons kind hkind, count]
    apply List.countP_congr
    intro v hv
    have hbar : v.kind = kind → v ≠ MapControls.searchBar := by
      intro hv he
      exact hkind (hv.symm.trans (congrArg MapControl.kind he))
    simpa using hbar
  have hbars : (m.subviews.filter fun v => v ≠ MapControls.searchBar).countP
      (fun v => v.kind = .searchBar) = 0 := by
    rw [List.countP_filter, List.countP_eq_zero]
    intro v hv
    simpa using h.searchBar v hv
  refine ⟨by rw [← hcalls]; rfl, ?_, ?_, ?_, ?_, ?_⟩
  · unfold viewDidLoad
    rw [List.length_append, h.recognizers]
    rfl
  · intro kind hkind
    rw [count, hsubviews, List.countP_append, hothers kind hkind]
    cases kind with
    | searchBar => exact absurd rfl hkind
    | _ => rfl
  · rw [count, hsubviews, List.countP_append, hbars]
    simp [MapControls.searchBar]
  · intro v hv hkind
    rw [hsubviews, List.mem_append] at hv
    rcases hv with hv | hv
    · exact h.searchBar v (List.mem_of_mem_filter hv) hkind
    · simp only [List.mem_cons, List.not_mem_nil, or_false] at hv
      rcases hv with rfl | rfl | rfl | rfl
      · cases hkind
      · cases hkind
      · cases hkind
      · rfl
  · intro v hv
    rw [hsubviews, List.mem_append] at hv
    rcases hv with hv | hv
    · exact Nat.le_succ_of_le (h.made v (List.mem_of_mem_filter hv))
    · simp only [List.mem_cons, List.not_mem_nil, or_false] at hv
      rcases hv with rfl | rfl | rfl | rfl
      · exact Nat.le_of_eq (congrArg Nat.succ hcalls)
      · exact Nat.le_of_eq (congrArg Nat.succ hcalls)
      · exact Nat.le_of_eq (congrArg Nat.succ hcalls)
      · exact Nat.zero_le _

/-- After `n` resets of a map view that was set up once, everything but the search bar is there
`n + 1` times. -/
theorem resets_loadedTimes (n : Nat) :
    (viewDidLoad^[n] initial.viewDidLoad).LoadedTimes (n + 1) := by
  induction n with
  | zero => exact viewDidLoad_loadedTimes initial_loadedTimes
  | succ n ih =>
    rw [Function.iterate_succ_apply']
    exact viewDidLoad_loadedTimes ih

end MapControls

variable {D F : Type} [SwiftDouble D] [SwiftCGFloat F] [DecidableEq D]

/-- A long press that the recognizers of `handled` recognize, one after the other. -/
def ViewController.longPress (handled : List Nat) (mapPoint : CLLocationCoordinate2D D)
    (vc : ViewController D) : ViewController D :=
  handled.foldl (fun vc _ => vc.mapLongPressed mapPoint) vc

omit [SwiftDouble D] in
theorem longPress_singleton (recognizer : Nat) (mapPoint : CLLocationCoordinate2D D)
    (vc : ViewController D) : (vc.longPress [recognizer] mapPoint).marker.pending =
      vc.marker.pending ++ [.geocodePress vc.marker.issued mapPoint] := by
  rw [ViewController.longPress, List.foldl_cons, List.foldl_nil, ViewController.mapLongPressed,
    ViewController.addAnnotation_eq]
  rfl

/-- The app together with what its view controller has put on its map view. -/
structure SetupApp (D F : Type) where
  app : App D F
  controls : MapControls

namespace SetupApp

/-- A launch and the tutorial's return make a new map view; `changeSetting` sets up the one it
finds once more. -/
def controlsAfter (s : SetupApp D F) (e : Event D F) : MapControls :=
  match s.app.process, e with
  | none, .launch => MapControls.initial.viewDidLoad
  | some _, .op .tutorialReturn => MapControls.initial.viewDidLoad
  | some _, .op (.changeSetting _ _) => s.controls.viewDidLoad
  | _, _ => s.controls

def step (screen : Screen) (s : SetupApp D F) (e : Event D F) : Option (SetupApp D F) :=
  (App.step screen s.app e).map fun t => ⟨t, s.controlsAfter e⟩

/-- The map view carries one recognizer and one control of each kind, and a long press issues
exactly one request, whichever of the recognizers recognize it. -/
structure SetUpOnce (s : SetupApp D F) (p : Process D F) : Prop where
  recognizers : s.controls.recognizers.length = 1
  controls : ∀ kind, s.controls.count kind = 1
  longPress : ∀ handled mapPoint, handled.Sublist s.controls.recognizers → handled ≠ [] →
    (p.vc.longPress handled mapPoint).marker.pending =
      p.vc.marker.pending ++ [.geocodePress p.vc.marker.issued mapPoint]

def AlwaysSetUpOnce (s : SetupApp D F) : Prop := ∀ p, s.app.process = some p → s.SetUpOnce p

/-- The event is no `changeSetting` that completes in a running process. -/
def NoReset (s : SetupApp D F) : Event D F → Prop
  | .op (.changeSetting _ _) => s.app.process = none
  | _ => True

def LoadedOnce (s : SetupApp D F) : Prop :=
  ∀ p, s.app.process = some p → s.controls.LoadedTimes 1

omit [SwiftDouble D] [SwiftCGFloat F] in
theorem LoadedOnce.alwaysSetUpOnce {s : SetupApp D F} (h : s.LoadedOnce) : s.AlwaysSetUpOnce := by
  intro p hp
  have hloaded := h p hp
  refine ⟨hloaded.recognizers, ?_, ?_⟩
  · intro kind
    cases kind with
    | searchBar => exact hloaded.oneSearchBar
    | currentPosBtn | deletePinsBtn | settingBtn => exact hloaded.buttons _ (by decide)
  · intro handled mapPoint hsub hne
    have hle : handled.length ≤ 1 := by
      rw [← hloaded.recognizers]
      exact hsub.length_le
    have hpos : 0 < handled.length := List.length_pos_of_ne_nil hne
    obtain ⟨recognizer, rfl⟩ := List.length_eq_one_iff.mp (by omega : handled.length = 1)
    exact longPress_singleton recognizer mapPoint p.vc

theorem initial_viewDidLoad_loadedTimes : MapControls.initial.viewDidLoad.LoadedTimes 1 :=
  MapControls.viewDidLoad_loadedTimes MapControls.initial_loadedTimes

theorem step_loadedOnce {screen : Screen} (s : SetupApp D F) (e : Event D F) (t : SetupApp D F)
    (hs : s.LoadedOnce) (h : step screen s e = some t) (hc : s.NoReset e) : t.LoadedOnce := by
  obtain ⟨u, hu, rfl⟩ := Option.map_eq_some_iff.mp h
  obtain ⟨⟨r, process⟩, controls⟩ := s
  intro q hq
  cases process with
  | none =>
    cases e with
    | launch => exact initial_viewDidLoad_loadedTimes
    | op | killDuring | kill =>
      cases hu
      cases hq
  | some p =>
    have hloaded : controls.LoadedTimes 1 := hs p rfl
    cases e with
    | op o =>
      cases o with
      | tutorialReturn => exact initial_viewDidLoad_loadedTimes
      | changeSetting => cases hc
      | _ => exact hloaded
    | launch => exact hloaded
    | killDuring | kill =>
      cases hu
      cases hq

theorem noReset_of_setUpOnce {screen : Screen} (s : SetupApp D F) (e : Event D F)
    (t : SetupApp D F) (hs : s.LoadedOnce) (h : step screen s e = some t)
    (ht : t.AlwaysSetUpOnce) : s.NoReset e := by
  obtain ⟨u, hu, rfl⟩ := Option.map_eq_some_iff.mp h
  obtain ⟨⟨r, process⟩, controls⟩ := s
  cases e with
  | launch | killDuring | kill => trivial
  | op o =>
    cases o with
    | changeSetting theme selectedPin =>
      cases process with
      | none => rfl
      | some p =>
        obtain ⟨q, _, rfl⟩ := App.step_op hu
        have hone := (ht q rfl).recognizers
        have htwo := (MapControls.viewDidLoad_loadedTimes (hs p rfl)).recognizers
        exact absurd (htwo.symm.trans hone) (by decide)
    | _ => trivial

end SetupApp

/-- From any store, the runs in which the map view of the running process always is as after
its first `viewDidLoad` are the runs in which no `changeSetting` completes. -/
theorem set_up_once_iff (screen : Screen) (r : Realm) (es : List (Event D F)) :
    Machine.Always (SetupApp.step screen) SetupApp.AlwaysSetUpOnce ⟨⟨r, none⟩, .initial⟩ es ↔
      Machine.EachStep (SetupApp.step screen) SetupApp.NoReset ⟨⟨r, none⟩, .initial⟩ es := by
  have hdead : SetupApp.LoadedOnce (⟨⟨r, none⟩, .initial⟩ : SetupApp D F) := by
    intro p hp
    cases hp
  exact Machine.always_iff_eachStep (fun _ hs => hs.alwaysSetUpOnce) SetupApp.step_loadedOnce
    SetupApp.noReset_of_setUpOnce hdead es

/-- The settings are saved once after the launch: the map view carries two long-press
recognizers. -/
theorem reset_doubles_recognizers :
    let screen : Screen := ⟨375, 667⟩
    let theme : Theme SevenDecimals := ⟨⟨⟨0⟩, ⟨0⟩, ⟨0⟩⟩, ⟨⟨0⟩, ⟨0⟩, ⟨0⟩⟩, ⟨⟨0⟩, ⟨0⟩, ⟨0⟩⟩⟩
    let es : List (Event WholeDegrees SevenDecimals) :=
      [.launch, .op (.changeSetting theme .btnB)]
    ¬ Machine.Always (SetupApp.step screen) SetupApp.AlwaysSetUpOnce ⟨.installed, .initial⟩ es := by
  intro screen theme es h
  have hrun : (Machine.run (SetupApp.step screen) ⟨.installed, .initial⟩ es).bind
      (fun t => t.app.process.map fun _ => t.controls.recognizers.length) = some 2 := by decide
  obtain ⟨t, ht, hp⟩ := Option.bind_eq_some_iff.mp hrun
  obtain ⟨p, hp, htwo⟩ := Option.map_eq_some_iff.mp hp
  have hone := (h.last ht p hp).recognizers
  rw [hone] at htwo
  cases htwo

end WatashiMap
