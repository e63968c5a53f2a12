import WatashiMap.Library.LastWrite
import WatashiMap.Model.Numbers
import WatashiMap.Pins.Mirror

namespace WatashiMap

/-- One call of `mapView(_:viewFor:)`: whether MapKit had a view to reuse, and the annotation. -/
abbrev ViewCall (D : Type) := Bool × MKAnnotation D

namespace ViewController

variable {D : Type} [DecidableEq D]

/-- The pin whose new custom view the call sets up. -/
def newView (vc : ViewController D) : ViewCall D → (Option <| CustomAnnotation D)
  | (false, .custom c) => if vc.onMap (.custom c) then some c else none
  | _ => none

/-- The coordinate the call copies into `pincoordinate`. -/
def newCoordinate (vc : ViewController D) : ViewCall D → Option (CLLocationCoordinate2D D)
  | (_, .point) => if vc.onMap .point then some vc.marker.annotation.coordinate else none
  | call => (vc.newView call).map CustomAnnotation.coordinate

/-- The pin fields after the calls: the last new custom view leaves its texts, the last of these
and of the marker's views its coordinate. -/
def called (calls : List (ViewCall D)) (vc : ViewController D) : ViewController D :=
  let texts := LastWrite.value (fun call => (vc.newView call).map fun c => (c.title, c.subtitle))
    (vc.pintitle, vc.pinsubtitle) calls
  { vc with
    pintitle := texts.1
    pinsubtitle := texts.2
    pincoordinate := LastWrite.value vc.newCoordinate vc.pincoordinate calls }

theorem called_cons (call : ViewCall D) (calls : List (ViewCall D)) (vc : ViewController D) :
    vc.called (call :: calls) = (vc.called [call]).called calls := by
  unfold called
  dsimp only
  rw [LastWrite.value_cons, LastWrite.value_cons, LastWrite.value_cons, LastWrite.value_cons]
  rfl

theorem called_singleton (dequeued : Bool) (a : MKAnnotation D) (vc : ViewController D) :
    vc.called [(dequeued, a)] = if vc.onMap a then vc.viewFor dequeued a else vc := by
  by_cases hmap : vc.onMap a
  · rw [if_pos hmap]
    cases a with
    | custom c =>
      cases dequeued <;>
        simp [called, LastWrite.value_cons, newView, newCoordinate, viewFor, setupCustomView, hmap]
    | point =>
      cases dequeued <;>
        simp [called, LastWrite.value_cons, newView, newCoordinate, viewFor, coordinate, hmap]
    | userLocation => cases dequeued <;> rfl
  · rw [if_neg hmap]
    cases a <;> cases dequeued <;>
      simp [called, LastWrite.value_cons, newView, newCoordinate, hmap]

/-- The coordinate `coords` leave with the texts `texts` leave, and the image of the pin
selected. -/
def carried (c : CustomAnnotation D) (texts coords : List (ViewCall D))
    (vc : ViewController D) : CustomAnnotation D :=
  { LastWrite.value vc.newView c texts with
    coordinate := LastWrite.value vc.newCoordinate c.coordinate coords
    image := c.image }

end ViewController

variable {D F : Type} [SwiftDouble D] [SwiftCGFloat F] [DecidableEq D]

def ViewCall.event (call : ViewCall D) : Event D F := .op (.viewFor call.1 call.2)

theorem step_viewFor (screen : Screen) (r : Realm) (p : Process D F) (call : ViewCall D) :
    App.step screen ⟨r, some p⟩ call.event =
      some ⟨r, some { p with vc := p.vc.called [call] }⟩ := by
  obtain ⟨dequeued, a⟩ := call
  rw [ViewController.called_singleton]
  dsimp only [ViewCall.event, App.step, Op.perform]
  split_ifs <;> rfl

theorem run_calls (screen : Screen) (r : Realm) (p : Process D F) (calls : List (ViewCall D)) :
    Machine.run (App.step screen) ⟨r, some p⟩ (calls.map ViewCall.event) =
      some ⟨r, some { p with vc := p.vc.called calls }⟩ := by
  induction calls generalizing p with
  | nil => rfl
  | cons call calls ih =>
    rw [List.map_cons, Machine.run_cons_of_step (step_viewFor screen r p call), ih,
      ViewController.called_cons call calls]

theorem run_calls_op (screen : Screen) (r : Realm) (p : Process D F) (calls : List (ViewCall D))
    (o : Op D F) : Machine.run (App.step screen) ⟨r, some p⟩ (calls.map ViewCall.event ++ [.op o]) =
      App.step screen ⟨r, some { p with vc := p.vc.called calls }⟩ (.op o) := by
  rw [Machine.run_append, run_calls, Option.bind_some, Machine.run_cons]
  exact Option.bind_fun_some _

/-- The panel shows a stored pin, the one at the coordinate the view controller keeps. -/
def Process.PanelShowsPin (items : List PinItem) (p : Process D F) : Prop :=
  ∃ labels, p.vc.detail = some labels ∧
    CustomAnnotation.record ⟨p.vc.pincoordinate, labels.titleLabel, labels.subtitleLabel,
      labels.pinImage⟩ ∈ items

/-- The pin is selected, its panel opened, edited and saved as the form then is, with callbacks
before each of the last three; panel and form show a stored pin, and the store keeps its
records. -/
def App.EditKeepsPins (screen : Screen) (s : App D F) (c : CustomAnnotation D)
    (calls₁ calls₂ calls₃ : List (ViewCall D)) : Prop :=
  ∃ t₁ p₁ t₂ p₂ t₃,
    Machine.run (App.step screen) s
      (.op (.didSelect (.custom c)) :: (calls₁.map ViewCall.event ++ [.op .detailOpen])) = some t₁ ∧
    t₁.process = some p₁ ∧ p₁.PanelShowsPin s.realm.pinItems ∧
    Machine.run (App.step screen) t₁ (calls₂.map ViewCall.event ++ [.op .modifyPlace]) = some t₂ ∧
    t₂.process = some p₂ ∧ p₂.pinItem ∈ s.realm.pinItems ∧
    Machine.run (App.step screen) t₂ (calls₃.map ViewCall.event ++ [.op .create]) = some t₃ ∧
    t₃.realm.pinItems.Perm s.realm.pinItems

omit [SwiftCGFloat F] [DecidableEq D] in
theorem record_injective :
    Function.Injective fun c : CustomAnnotation D => c.record := by
  intro a b h
  have hrecord : a.record = b.record := h
  have ha := customAnnotation_record a
  rw [hrecord, customAnnotation_record b] at ha
  exact (Option.some.inj ha).symm

omit [SwiftCGFloat F] [DecidableEq D] in
theorem onMap_of_stored {items : List PinItem} {vc : ViewController D} (h : vc.Shows items)
    {c : CustomAnnotation D} (hc : c.record ∈ items) : vc.onMap (.custom c) := by
  obtain ⟨b, hb, hrecord⟩ := List.mem_map.mp (h.mem_iff.mpr hc)
  rw [record_injective hrecord] at hb
  exact Or.inl (mem_customsOf.mp hb)

section

omit [SwiftDouble D]

omit [DecidableEq D] in
theorem onMap_iff {vc vc₀ : ViewController D} (h : vc.annotations = vc₀.annotations)
    (a : MKAnnotation D) : vc.onMap a ↔ vc₀.onMap a := by
  rw [ViewController.onMap, h]
  exact Iff.rfl

theorem newView_eq {vc vc₀ : ViewController D} (h : vc.annotations = vc₀.annotations) :
    vc.newView = vc₀.newView := by
  funext call
  simp only [ViewController.newView, onMap_iff h]

theorem newCoordinate_eq {vc vc₀ : ViewController D} (h : vc.annotations = vc₀.annotations)
    (hmarker : vc.marker = vc₀.marker) : vc.newCoordinate = vc₀.newCoordinate := by
  funext call
  simp only [ViewController.newCoordinate, onMap_iff h, newView_eq h, hmarker]

/-- On the map of `vc₀`, the pin fields are those carried after the calls so far. -/
structure ViewController.Carries (vc₀ : ViewController D) (c : CustomAnnotation D)
    (texts coords : List (ViewCall D)) (vc : ViewController D) : Prop where
  annotations : vc.annotations = vc₀.annotations
  marker : vc.marker = vc₀.marker
  pintitle : vc.pintitle = (vc₀.carried c texts coords).title
  pinsubtitle : vc.pinsubtitle = (vc₀.carried c texts coords).subtitle
  pincoordinate : vc.pincoordinate = (vc₀.carried c texts coords).coordinate

theorem carries_called {vc₀ vc : ViewController D} {c : CustomAnnotation D}
    {texts coords : List (ViewCall D)} (h : vc₀.Carries c texts coords vc)
    (calls : List (ViewCall D)) :
    vc₀.Carries c (texts ++ calls) (coords ++ calls) (vc.called calls) := by
  have htexts : LastWrite.value
      (fun call => (vc.newView call).map fun c => (c.title, c.subtitle))
      (vc.pintitle, vc.pinsubtitle) calls =
        ((LastWrite.value vc₀.newView c (texts ++ calls)).title,
          (LastWrite.value vc₀.newView c (texts ++ calls)).subtitle) := by
    rw [LastWrite.value_append, h.pintitle, h.pinsubtitle, newView_eq h.annotations]
    exact LastWrite.value_map (fun c => (c.title, c.subtitle)) vc₀.newView
      (LastWrite.value vc₀.newView c texts) calls
  have hcoordinate : LastWrite.value vc.newCoordinate vc.pincoordinate calls =
      LastWrite.value vc₀.newCoordinate c.coordinate (coords ++ calls) := by
    rw [LastWrite.value_append, h.pincoordinate, newCoordinate_eq h.annotations h.marker]
    rfl
  exact ⟨h.annotations, h.marker, congrArg Prod.fst htexts, congrArg Prod.snd htexts, hcoordinate⟩

end

section

variable (screen : Screen) (c : CustomAnnotation D) (calls₁ calls₂ calls₃ : List (ViewCall D))

def ViewController.selectPin (vc : ViewController D) : ViewController D :=
  { vc with
    panels := vc.panels.didSelect screen, pincoordinate := c.coordinate
    pintitle := c.title, pinsubtitle := c.subtitle, pinimage := c.image }

def Process.openPanel (p : Process D F) : Process D F :=
  { p with vc := ((p.vc.selectPin screen c).called calls₁).detailOpen screen }

def Process.openForm (p : Process D F) : Process D F :=
  let opened := p.openPanel screen c calls₁
  Process.modifyPlace screen { opened with vc := opened.vc.called calls₂ }

def Process.beforeCreate (p : Process D F) : Process D F :=
  let form := p.openForm screen c calls₁ calls₂
  { form with vc := form.vc.called calls₃ }

variable {r : Realm} {p : Process D F}

theorem editKeepsPins_iff (h : MapInvariant (⟨r, some p⟩ : App D F)) (hc : c.record ∈ r.pinItems) :
    App.EditKeepsPins screen ⟨r, some p⟩ c calls₁ calls₂ calls₃ ↔
      (p.openPanel screen c calls₁).PanelShowsPin r.pinItems ∧
      (p.openForm screen c calls₁ calls₂).pinItem ∈ r.pinItems ∧
      (p.beforeCreate screen c calls₁ calls₂ calls₃).pinItem ∈ r.pinItems := by
  have hselect : App.step screen ⟨r, some p⟩ (.op (.didSelect (.custom c))) =
      some ⟨r, some { p with vc := p.vc.selectPin screen c }⟩ := by
    have hmap : p.vc.onMap (.custom c) := onMap_of_stored (h.shown p rfl) hc
    dsimp only [App.step, Op.perform]
    rw [if_pos hmap, didSelect_custom_eq h.unique hc]
    rfl
  have hopen : Machine.run (App.step screen) ⟨r, some p⟩
      (.op (.didSelect (.custom c)) :: (calls₁.map ViewCall.event ++ [.op .detailOpen])) =
        some ⟨r, some (p.openPanel screen c calls₁)⟩ := by
    rw [Machine.run_cons_of_step hselect, run_calls_op]
    rfl
  have hmodify : Machine.run (App.step screen) ⟨r, some (p.openPanel screen c calls₁)⟩
      (calls₂.map ViewCall.event ++ [.op .modifyPlace]) =
        some ⟨r, some (p.openForm screen c calls₁ calls₂)⟩ := by
    rw [run_calls_op]
    rfl
  let q := p.beforeCreate screen c calls₁ calls₂ calls₃
  have hcreate : Machine.run (App.step screen) ⟨r, some (p.openForm screen c calls₁ calls₂)⟩
      (calls₃.map ViewCall.event ++ [.op .create]) = some ⟨q.createWrite r r, some q.create⟩ := by
    rw [run_calls_op]
    rfl
  have hperm : (q.createWrite r r).pinItems.Perm r.pinItems ↔ q.pinItem ∈ r.pinItems := by
    rw [createWrite_pinItems]
    exact h.unique.replaceFirst_perm_iff q.pinItem
  constructor
  · intro hkeeps
    obtain ⟨t₁, p₁, t₂, p₂, t₃, ht₁, hp₁, hpanel, ht₂, hp₂, hform, ht₃, hitems⟩ := hkeeps
    cases hopen.symm.trans ht₁
    cases hp₁
    cases hmodify.symm.trans ht₂
    cases hp₂
    cases hcreate.symm.trans ht₃
    exact ⟨hpanel, hform, hperm.mp hitems⟩
  · intro hstored
    obtain ⟨hpanel, hform, hsaved⟩ := hstored
    exact ⟨_, _, _, _, _, hopen, rfl, hpanel, hmodify, rfl, hform, hcreate, hperm.mpr hsaved⟩

omit [SwiftDouble D] [SwiftCGFloat F] in
theorem openPanel_carries :
    p.vc.Carries c calls₁ calls₁ (p.openPanel screen c calls₁).vc := by
  have hselected : p.vc.Carries c [] [] (p.vc.selectPin screen c) := ⟨rfl, rfl, rfl, rfl, rfl⟩
  have hcalled := carries_called hselected calls₁
  exact ⟨rfl, rfl, hcalled.pintitle, hcalled.pinsubtitle, hcalled.pincoordinate⟩

omit [SwiftCGFloat F] in
theorem panelShowsPin_iff {items : List PinItem} :
    (p.openPanel screen c calls₁).PanelShowsPin items ↔
      (p.vc.carried c calls₁ calls₁).record ∈ items := by
  have hpanel := openPanel_carries screen c calls₁ (p := p)
  have hshown : CustomAnnotation.record ⟨(p.openPanel screen c calls₁).vc.pincoordinate,
      (p.openPanel screen c calls₁).vc.pintitle, (p.openPanel screen c calls₁).vc.pinsubtitle,
      c.image⟩ = (p.vc.carried c calls₁ calls₁).record := by
    rw [hpanel.pintitle, hpanel.pinsubtitle, hpanel.pincoordinate]
    rfl
  rw [← hshown]
  constructor
  · intro h
    obtain ⟨labels, hlabels, hmem⟩ := h
    cases hlabels
    exact hmem
  · intro h
    exact ⟨_, rfl, h⟩

omit [SwiftDouble D] [SwiftCGFloat F] in
theorem openForm_customAnnotation :
    Process.customAnnotation (p.openForm screen c calls₁ calls₂) =
      p.vc.carried c (calls₁ ++ calls₂) (calls₁ ++ calls₂) := by
  have hcalled := carries_called (openPanel_carries screen c calls₁ (p := p)) calls₂
  simp only [Process.customAnnotation, Process.openForm, Process.modifyPlace, Process.showEditView,
    ViewController.showEditView, ViewController.fillForm, EditView.checkTitle_textField,
    EditView.checkTitle_memoText, ViewController.editPinColor, if_pos]
  rw [hcalled.pintitle, hcalled.pinsubtitle, hcalled.pincoordinate]
  rfl

omit [SwiftDouble D] [SwiftCGFloat F] in
/-- Callbacks over an open form move the coordinate only. -/
theorem beforeCreate_customAnnotation :
    Process.customAnnotation (p.beforeCreate screen c calls₁ calls₂ calls₃) =
      p.vc.carried c (calls₁ ++ calls₂) (calls₁ ++ calls₂ ++ calls₃) := by
  have hform := openForm_customAnnotation screen c calls₁ calls₂ (p := p)
  have hcoordinate : (p.openForm screen c calls₁ calls₂).vc.pincoordinate =
      LastWrite.value p.vc.newCoordinate c.coordinate (calls₁ ++ calls₂) :=
    congrArg CustomAnnotation.coordinate hform
  have hmoved : Process.customAnnotation (p.beforeCreate screen c calls₁ calls₂ calls₃) =
      { Process.customAnnotation (p.openForm screen c calls₁ calls₂) with
        coordinate := LastWrite.value (p.openForm screen c calls₁ calls₂).vc.newCoordinate
          (p.openForm screen c calls₁ calls₂).vc.pincoordinate calls₃ } := rfl
  have hmap : (p.openForm screen c calls₁ calls₂).vc.newCoordinate = p.vc.newCoordinate :=
    newCoordinate_eq rfl rfl
  rw [hmoved, hmap, hform, hcoordinate, ← LastWrite.value_append]
  rfl

/-- In any reachable state, editing a stored pin without changing the form shows stored pins and
keeps the records exactly when at each of the three points the coordinate and texts last written
by the callbacks, together with the selected pin's image, are those of a stored pin. -/
theorem unchanged_edit_keeps_pins_iff {es : List (Event D F)} {s : App D F}
    (hs : Machine.run (App.step screen) App.installed es = some s) (hp : s.process = some p)
    (hc : c.record ∈ s.realm.pinItems) :
    App.EditKeepsPins screen s c calls₁ calls₂ calls₃ ↔
      (p.vc.carried c calls₁ calls₁).record ∈ s.realm.pinItems ∧
      (p.vc.carried c (calls₁ ++ calls₂) (calls₁ ++ calls₂)).record ∈ s.realm.pinItems ∧
      (p.vc.carried c (calls₁ ++ calls₂) (calls₁ ++ calls₂ ++ calls₃)).record ∈
        s.realm.pinItems := by
  have hinv : MapInvariant s := mapInvariant_of_run hs
  obtain ⟨r, process⟩ := s
  cases hp
  rw [editKeepsPins_iff screen c calls₁ calls₂ calls₃ hinv hc, panelShowsPin_iff,
    Process.pinItem_eq, Process.pinItem_eq, openForm_customAnnotation,
    beforeCreate_customAnnotation]

end

/-- Two pins are saved; while "shop" is edited, the map makes a new view for "park" and then one for
"shop", twice. -/
theorem view_of_selected_pin_comes_last :
    let screen : Screen := ⟨375, 667⟩
    let shop : CustomAnnotation WholeDegrees := ⟨⟨⟨35⟩, ⟨139⟩⟩, "shop", "", "tea.png"⟩
    let park : CustomAnnotation WholeDegrees := ⟨⟨⟨36⟩, ⟨140⟩⟩, "park", "", "tree.png"⟩
    let calls : List (ViewCall WholeDegrees) := [(false, .custom park), (false, .custom shop)]
    let es : List (Event WholeDegrees SevenDecimals) :=
      [.launch, .op (.mapLongPressed shop.coordinate), .op .showEditView, .op (.editTitle "shop"),
        .op (.choosePin 1 2), .op .create, .op (.mapLongPressed park.coordinate),
        .op .showEditView, .op (.editTitle "park"), .op (.choosePin 4 10), .op .create]
    ∃ s, Machine.run (App.step screen) App.installed es = some s ∧
      s.realm.pinItems = [shop.record, park.record] ∧
      App.EditKeepsPins screen s shop calls [] calls := by
  intro screen shop park calls es
  have hrun : (Machine.run (App.step screen) App.installed es).bind
      (fun t => t.process.map fun _ => t.realm.pinItems) =
        some [shop.record, park.record] := by decide
  obtain ⟨t, ht, hp⟩ := Option.bind_eq_some_iff.mp hrun
  obtain ⟨p, hp, hitems⟩ := Option.map_eq_some_iff.mp hp
  have hshop : shop.record ∈ t.realm.pinItems := by
    rw [hitems]
    exact List.mem_cons_self
  have hmap : p.vc.onMap (.custom shop) :=
    onMap_of_stored ((mapInvariant_of_run ht).shown p hp) hshop
  have hlast : ∀ first, p.vc.carried shop calls (first ++ calls) = shop := by
    intro first
    simp [calls, ViewController.carried, LastWrite.value_append, LastWrite.value_cons,
      ViewController.newView, ViewController.newCoordinate, hmap, shop]
  have hopened : p.vc.carried shop calls calls = shop := hlast []
  refine ⟨t, ht, hitems,
    (unchanged_edit_keeps_pins_iff screen shop calls [] calls ht hp hshop).mpr ?_⟩
  rw [List.append_nil, hopened, hlast calls]
  exact ⟨hshop, hshop, hshop⟩

/-- A new view for "park" while "shop" is selected puts the title of "park" next to the image of
"shop" in the panel, and the edit stores "park" with that image. -/
theorem new_view_mixes_pins :
    let screen : Screen := ⟨375, 667⟩
    let shop : CustomAnnotation WholeDegrees := ⟨⟨⟨35⟩, ⟨139⟩⟩, "shop", "", "tea.png"⟩
    let park : CustomAnnotation WholeDegrees := ⟨⟨⟨36⟩, ⟨140⟩⟩, "park", "", "tree.png"⟩
    let es : List (Event WholeDegrees SevenDecimals) :=
      [.launch, .op (.mapLongPressed shop.coordinate), .op .showEditView, .op (.editTitle "shop"),
        .op (.choosePin 1 2), .op .create, .op (.mapLongPressed park.coordinate),
        .op .showEditView, .op (.editTitle "park"), .op (.choosePin 4 10), .op .create]
    ∃ s, Machine.run (App.step screen) App.installed es = some s ∧
      s.realm.pinItems = [shop.record, park.record] ∧
      ¬ App.EditKeepsPins screen s shop [(false, .custom park)] [] [] ∧
      (Machine.run (App.step screen) s [.op (.didSelect (.custom shop)),
        .op (.viewFor false (.custom park)), .op .detailOpen, .op .modifyPlace, .op .create]).map
          (fun t => t.realm.pinItems) =
        some [shop.record, { park with image := "tea.png" }.record] := by
  intro screen shop park es
  let edited : CustomAnnotation WholeDegrees := { park with image := "tea.png" }
  let edit : List (Event WholeDegrees SevenDecimals) := [.op (.didSelect (.custom shop)),
    .op (.viewFor false (.custom park)), .op .detailOpen, .op .modifyPlace, .op .create]
  have hedit : (Machine.run (App.step screen) App.installed (es ++ edit)).map
      (fun t => t.realm.pinItems) = some [shop.record, edited.record] := by decide
  have hrun : (Machine.run (App.step screen) App.installed es).bind
      (fun t => t.process.map fun _ => t.realm.pinItems) =
        some [shop.record, park.record] := by decide
  obtain ⟨t, ht, hp⟩ := Option.bind_eq_some_iff.mp hrun
  obtain ⟨p, hp, hitems⟩ := Option.map_eq_some_iff.mp hp
  rw [Machine.run_append, ht, Option.bind_some] at hedit
  refine ⟨t, ht, hitems, ?_, ?_⟩
  · intro h
    have hinv : MapInvariant t := mapInvariant_of_run ht
    obtain ⟨r, process⟩ := t
    cases hp
    have hshop : shop.record ∈ r.pinItems := by
      rw [hitems]
      exact List.mem_cons_self
    have hpark : p.vc.onMap (.custom park) := by
      refine onMap_of_stored (hinv.shown p rfl) ?_
      rw [hitems]
      exact List.mem_cons_of_mem _ List.mem_cons_self
    obtain ⟨hpanel, _⟩ :=
      (editKeepsPins_iff screen shop [(false, .custom park)] [] [] hinv hshop).mp h
    have hmixed :
        p.vc.carried shop [(false, .custom park)] [(false, .custom park)] = edited := by
      simp [edited, ViewController.carried, LastWrite.value_cons, ViewController.newView,
        ViewController.newCoordinate, hpark, shop]
    rw [panelShowsPin_iff, hmixed, hitems] at hpanel
    exact absurd hpanel (by decide)
  · exact hedit

end WatashiMap
