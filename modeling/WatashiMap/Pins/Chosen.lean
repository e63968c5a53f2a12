import WatashiMap.Model.Effects
import WatashiMap.Model.Numbers
import WatashiMap.Pins.Store

namespace WatashiMap

variable {D F : Type} [SwiftDouble D] [SwiftCGFloat F] [DecidableEq D]

omit [DecidableEq D] in
theorem viewDidLoad_pincoordinate {items : List PinItem} {vc vc' : ViewController D}
    (h : vc.viewDidLoad items = some vc') : vc'.pincoordinate = vc.pincoordinate := by
  obtain ⟨_, _, rfl⟩ := Option.map_eq_some_iff.mp h
  rfl

/-- The one field both destructive operations act on, after any operation. -/
theorem perform_pincoordinate {screen : Screen} {r : Realm} {p q : Process D F} {o : Op D F}
    (h : o.perform screen r p = some q) : q.vc.pincoordinate = o.target p.vc := by
  cases ho : o.rebuilds with
  | false => exact (Op.effect ho h).pincoordinate
  | true =>
    cases o with
    | tutorialReturn =>
      obtain ⟨vc, hvc, rfl⟩ := Process.tutorialReturn_spec h
      exact viewDidLoad_pincoordinate hvc
    | changeSetting theme selectedPin =>
      obtain ⟨vc, hvc, rfl⟩ := Process.changeSetting_spec h
      have hkept := viewDidLoad_pincoordinate hvc
      exact hkept
    | _ => cases ho

/-- The app together with the coordinate the annotation last selected had when it was
selected; `none` before the first selection of a view controller. -/
structure Chosen (D F : Type) where
  app : App D F
  selected : Option (CLLocationCoordinate2D D)

namespace Chosen

/-- What a completed event does to the selection. -/
def selectedAfter (s : Chosen D F) : Event D F → Option (CLLocationCoordinate2D D)
  | .op (.didSelect a) =>
      match s.app.process with
      | some p => if p.vc.onMap a then some (p.vc.coordinate a) else s.selected
      | none => none
  | .op .tutorialReturn | .killDuring _ _ | .kill => none
  | _ => s.selected

def step (screen : Screen) (s : Chosen D F) (e : Event D F) : Option (Chosen D F) :=
  (App.step screen s.app e).map fun t => ⟨t, s.selectedAfter e⟩

/-- A confirmed `deletePin` would erase exactly the records at the selected coordinate, and
`Create` would save under it. -/
def ActsOnSelected (screen : Screen) (s : Chosen D F) : Prop :=
  ∀ x, s.selected = some x →
    (∃ t, App.step screen s.app (.op .deletePin) = some t ∧
      t.realm.pinItems = s.app.realm.pinItems.filter fun q => q.coordinates ≠ x.strings) ∧
    ∃ t q, App.step screen s.app (.op .create) = some t ∧ q.coordinates = x.strings ∧
      t.realm.pinItems =
        s.app.realm.pinItems.eraseP (fun q => q.coordinates = x.strings) ++ [q]

/-- The event does not move `pincoordinate` off the selected coordinate: a long press is made
there, a new custom view is that of a pin there, and a view for the marker is asked for while
the marker is there. -/
def StaysOnSelected (s : Chosen D F) : Event D F → Prop
  | .op o => ∀ p x c, s.app.process = some p → s.selected = some x →
      o.retargets p.vc = some c → c = x
  | _ => True

/-- A selection was made in the running process, whose `pincoordinate` still is the selected
coordinate. -/
def Targets (s : Chosen D F) : Prop :=
  ∀ x, s.selected = some x → ∃ p, s.app.process = some p ∧ p.vc.pincoordinate = x

theorem actsOnSelected_iff {screen : Screen} {r : Realm} {p : Process D F}
    {selected : Option (CLLocationCoordinate2D D)} :
    ActsOnSelected screen ⟨⟨r, some p⟩, selected⟩ ↔
      ∀ x, selected = some x → p.vc.pincoordinate = x := by
  constructor
  · intro h x hx
    obtain ⟨_, t, q, ht, hq, hitems⟩ := h x hx
    cases ht
    change (p.createWrite r r).pinItems = _ at hitems
    rw [createWrite_pinItems, Keyed.replaceFirst] at hitems
    have hlast : p.pinItem = q := List.append_inj_right' hitems rfl |> List.singleton_inj.mp
    exact CLLocationCoordinate2D.strings_injective ((congrArg PinItem.coordinates hlast).trans hq)
  · intro h x hx
    have hx' := h x hx
    subst hx'
    exact ⟨⟨_, rfl, deletePinWrite_pinItems p r⟩, _, _, rfl, rfl, createWrite_pinItems p r⟩

/-- An operation keeps the shared field on the selected coordinate if it meets the condition. -/
theorem targets_after_op {screen : Screen} {r r' : Realm} {p q : Process D F} {o : Op D F}
    {selected : Option (CLLocationCoordinate2D D)}
    (hs : Targets (⟨⟨r, some p⟩, selected⟩ : Chosen D F))
    (hq : o.perform screen r p = some q)
    (hc : StaysOnSelected ⟨⟨r, some p⟩, selected⟩ (.op o)) :
    Targets ⟨⟨r', some q⟩, selectedAfter ⟨⟨r, some p⟩, selected⟩ (.op o)⟩ := by
  intro x hx
  refine ⟨q, rfl, ?_⟩
  rw [perform_pincoordinate hq]
  have hold : selected = some x → p.vc.pincoordinate = x := by
    intro hsel
    obtain ⟨p', hp', hx'⟩ := hs x hsel
    cases hp'
    exact hx'
  have hrest : selected = some x → (o.retargets p.vc).getD p.vc.pincoordinate = x := by
    intro hsel
    cases hr : o.retargets p.vc with
    | none => exact hold hsel
    | some c => exact hc p x c rfl hsel hr
  cases o with
  | tutorialReturn => cases hx
  | didSelect a =>
    dsimp only [selectedAfter, Op.target] at hx ⊢
    split_ifs at hx ⊢
    · exact Option.some.inj hx
    · exact hold hx
  | _ => exact hrest hx

theorem step_targets {screen : Screen} (s : Chosen D F) (e : Event D F) (t : Chosen D F)
    (hs : s.Targets) (h : s.step screen e = some t) (hc : s.StaysOnSelected e) : t.Targets := by
  obtain ⟨u, hu, rfl⟩ := Option.map_eq_some_iff.mp h
  obtain ⟨⟨r, process⟩, selected⟩ := s
  cases process with
  | none =>
    intro x hx
    have hnone : selected ≠ some x := by
      intro hsel
      obtain ⟨p, hp, _⟩ := hs x hsel
      cases hp
    cases e with
    | op o =>
      cases o with
      | didSelect | tutorialReturn => cases hx
      | _ => exact absurd hx hnone
    | launch => exact absurd hx hnone
    | killDuring | kill => cases hx
  | some p =>
    cases e with
    | op o =>
      obtain ⟨q, hq, rfl⟩ := App.step_op hu
      exact targets_after_op hs hq hc
    | launch =>
      cases hu
      exact hs
    | killDuring | kill =>
      intro x hx
      cases hx

theorem Targets.actsOnSelected {s : Chosen D F} (h : s.Targets) (screen : Screen) :
    s.ActsOnSelected screen := by
  obtain ⟨⟨r, process⟩, selected⟩ := s
  cases process with
  | none =>
    intro x hx
    obtain ⟨p, hp, _⟩ := h x hx
    cases hp
  | some p =>
    rw [actsOnSelected_iff]
    intro x hx
    obtain ⟨p', hp', hx'⟩ := h x hx
    cases hp'
    exact hx'

/-- A step that moves the shared field elsewhere is seen in what `Create` would do next. -/
theorem staysOnSelected_of_acts {screen : Screen} (s : Chosen D F) (e : Event D F)
    (t : Chosen D F) (h : s.step screen e = some t) (ht : t.ActsOnSelected screen) :
    s.StaysOnSelected e := by
  obtain ⟨u, hu, rfl⟩ := Option.map_eq_some_iff.mp h
  obtain ⟨⟨r, process⟩, selected⟩ := s
  cases e with
  | launch | killDuring | kill => trivial
  | op o =>
    intro p x c hp hsel hc
    cases hp
    cases hsel
    obtain ⟨q, hq, rfl⟩ := App.step_op hu
    rw [actsOnSelected_iff] at ht
    cases o with
    | mapLongPressed | viewFor =>
      have hx : q.vc.pincoordinate = x := ht x rfl
      have htarget : q.vc.pincoordinate = c :=
        (perform_pincoordinate hq).trans
          (congrArg (fun c => Option.getD c p.vc.pincoordinate) hc)
      exact htarget.symm.trans hx
    | _ => cases hc

end Chosen

/-- From any state without a selection, the runs in which a confirmed `deletePin` and `Create`
always act on the selected coordinate are the runs whose steps never move `pincoordinate` off
it. -/
theorem acts_on_selected_iff (screen : Screen) (app : App D F) (es : List (Event D F)) :
    Machine.Always (Chosen.step screen) (Chosen.ActsOnSelected screen) ⟨app, none⟩ es ↔
      Machine.EachStep (Chosen.step screen) Chosen.StaysOnSelected ⟨app, none⟩ es :=
  Machine.always_iff_eachStep (fun _ hs => hs.actsOnSelected screen) Chosen.step_targets
    (fun s e t _ h ht => Chosen.staysOnSelected_of_acts s e t h ht)
    (fun _ hx => absurd hx (Option.some_ne_none _).symm) es

/-- Two stored pins: the first is selected and opened, MapKit asks for a new view of the second,
and a confirmed `deletePin` would erase the second. -/
theorem deletePin_erases_another_pin :
    let screen : Screen := ⟨375, 667⟩
    let shop : CustomAnnotation WholeDegrees := ⟨⟨⟨35⟩, ⟨139⟩⟩, "shop", "", "tea.png"⟩
    let park : CustomAnnotation WholeDegrees := ⟨⟨⟨36⟩, ⟨140⟩⟩, "park", "", "tree.png"⟩
    let s : Chosen WholeDegrees SevenDecimals :=
      ⟨⟨⟨[shop.record, park.record], [], []⟩, none⟩, none⟩
    let es : List (Event WholeDegrees SevenDecimals) :=
      [.launch, .op (.didSelect (.custom shop)), .op .detailOpen,
        .op (.viewFor false (.custom park))]
    ¬ Machine.Always (Chosen.step screen) (Chosen.ActsOnSelected screen) s es := by
  intro screen shop park s es h
  have hbefore : (Machine.run (Chosen.step screen) s es).map
      (fun t => (t.selected, t.app.realm.pinItems)) =
        some (some shop.coordinate, [shop.record, park.record]) := by decide
  have hafter : (Machine.run (Chosen.step screen) s es).bind
      (fun t => (App.step screen t.app (.op .deletePin)).map fun u => u.realm.pinItems) =
        some [shop.record] := by decide
  obtain ⟨t, ht, hst⟩ := Option.map_eq_some_iff.mp hbefore
  obtain ⟨hselected, hitems⟩ := Prod.mk.inj hst
  obtain ⟨⟨u, hu, herased⟩, _⟩ := h.last ht shop.coordinate hselected
  rw [ht, Option.bind_some, hu, Option.map_some, herased, hitems] at hafter
  exact absurd hafter (by decide)

end WatashiMap
