import WatashiMap.Model.App

namespace WatashiMap

open SwiftDouble

/-- What the pin store is for: one content for each pair of coordinate strings. -/
abbrev PinMap := Finmap fun _ : String × String => Option String × Option String × Option String

def Realm.pinMap (r : Realm) : PinMap :=
  Keyed.toFinmap PinItem.coordinates PinItem.contents r.pinItems

variable {D F : Type} [SwiftDouble D]

/-- The finite-map meaning of each operation. -/
def Op.onPinMap (p : Process D F) : Op D F → PinMap → PinMap
  | .create, m =>
      m.insert p.vc.pincoordinate.strings
        (some p.vc.editview.textField, some p.vc.editview.memoText, some p.userSetting.pinColor)
  | .deletePin, m => m.erase p.vc.pincoordinate.strings
  | .deleteAllPins, _ => ∅
  | _, m => m

/-- `Create` deletes the first record under the new one's key and appends the new one. -/
theorem createWrite_pinItems (p : Process D F) (r : Realm) :
    (p.createWrite r r).pinItems =
      Keyed.replaceFirst PinItem.coordinates p.pinItem r.pinItems := by
  unfold Process.createWrite Keyed.replaceFirst
  rw [List.head?_filter]
  cases hq : r.pinItems.find? fun q => q.coordinates = p.pinItem.coordinates with
  | none => rw [Keyed.eraseP_of_no_match hq]
  | some q => rw [← Keyed.erase_first_match hq]

theorem deletePinWrite_pinItems (p : Process D F) (r : Realm) :
    (p.deletePinWrite r).pinItems =
      Keyed.eraseKey PinItem.coordinates p.vc.pincoordinate.strings r.pinItems := by
  apply List.filter_congr
  intro q _
  simp [PinItem.isAt]

variable [SwiftCGFloat F]

/-- What each operation commits to the list of records. -/
theorem commit_writes_pinItems (r : Realm) (p : Process D F) (o : Op D F) :
    (Crash.commit (o.writes r p) r).pinItems =
      match o with
      | .create => Keyed.replaceFirst PinItem.coordinates p.pinItem r.pinItems
      | .deletePin => Keyed.eraseKey PinItem.coordinates p.vc.pincoordinate.strings r.pinItems
      | .deleteAllPins => []
      | _ => r.pinItems := by
  cases o with
  | create => exact createWrite_pinItems p r
  | deletePin => exact deletePinWrite_pinItems p r
  | changeSetting theme selectedPin =>
    exact Crash.commit_frame (changeSettingWrites_pinItems theme selectedPin) r
  | _ => rfl

theorem commit_writes_unique {r : Realm} (h : Keyed.Unique PinItem.coordinates r.pinItems)
    (p : Process D F) (o : Op D F) :
    Keyed.Unique PinItem.coordinates (Crash.commit (o.writes r p) r).pinItems := by
  rw [commit_writes_pinItems]
  cases o with
  | create => exact h.replaceFirst p.pinItem
  | deletePin => exact h.eraseKey p.vc.pincoordinate.strings
  | deleteAllPins => exact Keyed.unique_nil PinItem.coordinates
  | _ => exact h

theorem commit_writes_pinMap {r : Realm} (h : Keyed.Unique PinItem.coordinates r.pinItems)
    (p : Process D F) (o : Op D F) :
    (Crash.commit (o.writes r p) r).pinMap = o.onPinMap p r.pinMap := by
  rw [Realm.pinMap, commit_writes_pinItems]
  cases o with
  | create => exact Keyed.toFinmap_replaceFirst h p.pinItem
  | deletePin => exact Keyed.toFinmap_eraseKey p.vc.pincoordinate.strings r.pinItems
  | _ => rfl

/-- Only `changeSetting` commits more than one transaction, and it does not touch the pins. -/
theorem cut_writes_pinItems (r : Realm) (p : Process D F) (o : Op D F) (k : Nat) :
    (Crash.cut (o.writes r p) k r).pinItems = r.pinItems ∨
      (Crash.cut (o.writes r p) k r).pinItems = (Crash.commit (o.writes r p) r).pinItems := by
  cases o with
  | changeSetting theme selectedPin =>
    exact Or.inl (Crash.cut_frame (changeSettingWrites_pinItems theme selectedPin) k r)
  | _ =>
    refine (Crash.cut_all_or_nothing ?_ k r).imp (congrArg Realm.pinItems)
      (congrArg Realm.pinItems)
    simp [Op.writes]

/-- What holds of the pins before and after an operation holds of them after a kill inside
it. -/
theorem cut_writes_keeps {P : List PinItem → Prop} {r : Realm} {p : Process D F} {o : Op D F}
    (hbefore : P r.pinItems) (hafter : P (Crash.commit (o.writes r p) r).pinItems) (k : Nat) :
    P (Crash.cut (o.writes r p) k r).pinItems := by
  rcases cut_writes_pinItems r p o k with hk | hk
  · rw [hk]
    exact hbefore
  · rw [hk]
    exact hafter

theorem cut_writes_unique {r : Realm} (h : Keyed.Unique PinItem.coordinates r.pinItems)
    (p : Process D F) (o : Op D F) (k : Nat) :
    Keyed.Unique PinItem.coordinates (Crash.cut (o.writes r p) k r).pinItems :=
  cut_writes_keeps h (commit_writes_unique h p o) k

variable [DecidableEq D]

/-- The store of `s` is a finite map on which every operation, whole or killed, acts as its
meaning says. -/
structure RefinesPinMap (screen : Screen) (s : App D F) : Prop where
  unique : Keyed.Unique PinItem.coordinates s.realm.pinItems
  launch : ∀ t, App.step screen s .launch = some t → t.realm.pinMap = s.realm.pinMap
  op : ∀ p o t, s.process = some p → App.step screen s (.op o) = some t →
    t.realm.pinMap = o.onPinMap p s.realm.pinMap
  killed : ∀ p o k t, s.process = some p → App.step screen s (.killDuring o k) = some t →
    t.realm.pinItems = s.realm.pinItems ∨
      t.realm.pinItems = (Crash.commit (o.writes s.realm p) s.realm).pinItems ∧
        t.realm.pinMap = o.onPinMap p s.realm.pinMap

theorem refinesPinMap_of_unique {screen : Screen} {s : App D F}
    (h : Keyed.Unique PinItem.coordinates s.realm.pinItems) : RefinesPinMap screen s where
  unique := h
  launch := by
    intro t ht
    obtain ⟨r, _ | p⟩ := s
    · obtain ⟨u, vc, _, _, _, rfl⟩ := App.step_launch_iff.mp ht
      rfl
    · cases ht
      rfl
  op := by
    intro p o t hp ht
    obtain ⟨r, process⟩ := s
    cases hp
    obtain ⟨q, _, rfl⟩ := App.step_op ht
    exact commit_writes_pinMap h p o
  killed := by
    intro p o k t hp ht
    obtain ⟨r, process⟩ := s
    cases hp
    cases ht
    refine (cut_writes_pinItems r p o k).imp id fun hk => ⟨hk, ?_⟩
    rw [Realm.pinMap, hk]
    exact commit_writes_pinMap h p o

theorem step_unique {screen : Screen} (s : App D F) (e : Event D F) (t : App D F)
    (hs : Keyed.Unique PinItem.coordinates s.realm.pinItems)
    (h : App.step screen s e = some t) :
    Keyed.Unique PinItem.coordinates t.realm.pinItems :=
  App.step_invariant (fun s => Keyed.Unique PinItem.coordinates s.realm.pinItems)
    (fun _ _ _ hr _ _ _ => hr) (fun _ p o _ hr _ => commit_writes_unique hr p o)
    (fun _ p o k hr => cut_writes_unique hr p o k) s e t hs h

/-- In every state of every run from an empty store, the pin store is a finite map from
coordinate strings to contents: `Create` inserts or replaces, a confirmed `deletePin` erases, a
confirmed `deleteAllPins` clears, nothing else changes it, and a kill inside an operation
leaves it as it was before or as it would be after. -/
theorem pinStore_refines_map (screen : Screen) (es : List (Event D F)) :
    Machine.Always (App.step screen) (RefinesPinMap screen) App.installed es :=
  (Machine.always_of_invariant step_unique (Keyed.unique_nil PinItem.coordinates) es).mono
    fun _ => refinesPinMap_of_unique

end WatashiMap
