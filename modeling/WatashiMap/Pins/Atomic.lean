import WatashiMap.Library.Simulation
import WatashiMap.Model.Numbers
import WatashiMap.Pins.Mirror

namespace WatashiMap

variable {D F : Type}

/-- A process apart from its colours and its user pin. -/
def Process.besidesSettings (p : Process D F) : ViewController D × String :=
  (p.vc, p.userSetting.pinColor)

/-- The same pins are stored and, if a process runs, it is the same but for its settings. -/
structure App.SamePins (s t : App D F) : Prop where
  pinItems : t.realm.pinItems = s.realm.pinItems
  process : t.process.map Process.besidesSettings = s.process.map Process.besidesSettings

theorem App.SamePins.some_some {r r' : Realm} {p p' : Process D F}
    (hr : r'.pinItems = r.pinItems) (hp : p'.besidesSettings = p.besidesSettings) :
    App.SamePins ⟨r, some p⟩ ⟨r', some p'⟩ := ⟨hr, congrArg some hp⟩

theorem App.SamePins.none_none {r r' : Realm} (hr : r'.pinItems = r.pinItems) :
    App.SamePins (⟨r, none⟩ : App D F) ⟨r', none⟩ := ⟨hr, rfl⟩

/-- The same operation, or two that save settings. -/
inductive Op.SameButSettings : Op D F → Op D F → Prop
  | same (o : Op D F) : SameButSettings o o
  | changeSetting (theme theme' : Theme F) (selectedPin selectedPin' : PinButton) :
      SameButSettings (.changeSetting theme selectedPin) (.changeSetting theme' selectedPin')

inductive Event.SameButSettings : Event D F → Event D F → Prop
  | launch : SameButSettings .launch .launch
  | op {o o' : Op D F} (h : o.SameButSettings o') : SameButSettings (.op o) (.op o')
  | killDuring {o o' : Op D F} (h : o.SameButSettings o') (k : Nat) :
      SameButSettings (.killDuring o k) (.killDuring o' k)
  | kill : SameButSettings .kill .kill

def Op.writesPins : Op D F → Bool
  | .create | .deletePin | .deleteAllPins => true
  | _ => false

/-- A kill inside an operation, as one before it or after it: after it if the transaction that
writes the pins was committed. -/
def Event.uninterrupted : Event D F → List (Event D F)
  | .killDuring o k => if 0 < k ∧ o.writesPins = true then [.op o, .kill] else [.kill]
  | e => [e]

variable [SwiftDouble D]

theorem pinItem_same {p p' : Process D F} (hp : p'.besidesSettings = p.besidesSettings) :
    p'.pinItem = p.pinItem := by
  obtain ⟨hvc, hcolor⟩ := Prod.mk.inj hp
  unfold Process.pinItem
  rw [hvc, hcolor]

variable [SwiftCGFloat F]

theorem commit_writes_same {r r' : Realm} {p p' : Process D F} {o o' : Op D F}
    (hr : r'.pinItems = r.pinItems) (hp : p'.besidesSettings = p.besidesSettings)
    (ho : o.SameButSettings o') : (Crash.commit (o'.writes r' p') r').pinItems =
      (Crash.commit (o.writes r p) r).pinItems := by
  obtain ⟨hvc, _⟩ := Prod.mk.inj hp
  rw [commit_writes_pinItems, commit_writes_pinItems]
  cases ho with
  | changeSetting => exact hr
  | same o =>
    cases o with
    | create =>
      dsimp only
      rw [hr, pinItem_same hp]
    | deletePin =>
      dsimp only
      rw [hr, hvc]
    | deleteAllPins => rfl
    | _ => exact hr

/-- An operation that does not write the pins leaves them under a kill at any point. -/
theorem cut_writes_of_not_writesPins {o : Op D F} (ho : o.writesPins = false) (r : Realm)
    (p : Process D F) (k : Nat) : (Crash.cut (o.writes r p) k r).pinItems = r.pinItems := by
  have hcommit : (Crash.commit (o.writes r p) r).pinItems = r.pinItems := by
    rw [commit_writes_pinItems]
    cases o with
    | create | deletePin | deleteAllPins => cases ho
    | _ => rfl
  rcases cut_writes_pinItems r p o k with h | h
  · exact h
  · rw [h, hcommit]

/-- An operation that writes the pins writes them in its one transaction. -/
theorem cut_writes_of_writesPins {o : Op D F} (ho : o.writesPins = true) (r : Realm)
    (p : Process D F) {k : Nat} (hk : 0 < k) :
    Crash.cut (o.writes r p) k r = Crash.commit (o.writes r p) r := by
  refine Crash.cut_of_length_le ?_ r
  cases o with
  | create | deletePin | deleteAllPins => exact hk
  | _ => cases ho

theorem cut_writes_same {r r' : Realm} {p p' : Process D F} {o o' : Op D F}
    (hr : r'.pinItems = r.pinItems) (hp : p'.besidesSettings = p.besidesSettings)
    (ho : o.SameButSettings o') (k : Nat) : (Crash.cut (o'.writes r' p') k r').pinItems =
      (Crash.cut (o.writes r p) k r).pinItems := by
  have hwrites : o'.writesPins = o.writesPins := by cases ho <;> rfl
  cases ho' : o.writesPins with
  | false =>
    rw [cut_writes_of_not_writesPins (hwrites.trans ho'), cut_writes_of_not_writesPins ho', hr]
  | true =>
    cases k with
    | zero => exact hr
    | succ k =>
      have hk : 0 < k + 1 := Nat.succ_pos k
      rw [cut_writes_of_writesPins (hwrites.trans ho') r' p' hk,
        cut_writes_of_writesPins ho' r p hk]
      exact commit_writes_same hr hp ho

variable [DecidableEq D]

omit [SwiftDouble D] [SwiftCGFloat F] [DecidableEq D] in
theorem map_same {α : Type} {x : Option α} {f g : α → Process D F} {q : Process D F}
    (hfg : ∀ a, (g a).besidesSettings = (f a).besidesSettings) (h : x.map f = some q) :
    ∃ q', x.map g = some q' ∧ q'.besidesSettings = q.besidesSettings := by
  obtain ⟨a, rfl, rfl⟩ := Option.map_eq_some_iff.mp h
  exact ⟨g a, rfl, hfg a⟩

/-- The new screen of a `changeSetting` does not show which settings were saved. -/
theorem perform_changeSetting_same {screen : Screen} {r r' : Realm} {vc : ViewController D}
    {u u' : UserSetting F} {q : Process D F} (hr : r'.pinItems = r.pinItems)
    (hcolor : u'.pinColor = u.pinColor) {theme : Theme F} {selectedPin : PinButton}
    (theme' : Theme F) (selectedPin' : PinButton)
    (h : Op.perform screen r ⟨u, vc⟩ (.changeSetting theme selectedPin) = some q) :
    ∃ q', Op.perform screen r' ⟨u', vc⟩ (.changeSetting theme' selectedPin') = some q' ∧
      q'.besidesSettings = q.besidesSettings := by
  dsimp only [Op.perform] at h ⊢
  rw [Process.changeSetting_eq,
    Crash.commit_frame (changeSettingWrites_pinItems theme selectedPin)] at h
  rw [Process.changeSetting_eq,
    Crash.commit_frame (changeSettingWrites_pinItems theme' selectedPin'), hr]
  refine map_same ?_ h
  intro _
  exact Prod.ext rfl hcolor

/-- No operation reads the settings, except to save new ones and to draw with the colours. -/
theorem perform_same {screen : Screen} {r r' : Realm} {p p' q : Process D F} {o o' : Op D F}
    (hr : r'.pinItems = r.pinItems) (hp : p'.besidesSettings = p.besidesSettings)
    (htheme : p'.userSetting.theme.isSome) (ho : o.SameButSettings o')
    (h : o.perform screen r p = some q) :
    ∃ q', o'.perform screen r' p' = some q' ∧ q'.besidesSettings = q.besidesSettings := by
  obtain ⟨u, vc⟩ := p
  obtain ⟨u', vc'⟩ := p'
  obtain ⟨hvc, hcolor⟩ := Prod.mk.inj hp
  dsimp only at hvc hcolor
  subst vc'
  have hsame (v : ViewController D) :
      Process.besidesSettings (⟨u', v⟩ : Process D F) = Process.besidesSettings ⟨u, v⟩ :=
    Prod.ext rfl hcolor
  cases ho with
  | changeSetting => exact perform_changeSetting_same hr hcolor _ _ h
  | same o =>
    cases o with
    | changeSetting => exact perform_changeSetting_same hr hcolor _ _ h
    | tutorialReturn =>
      obtain ⟨w, hw, rfl⟩ := Process.tutorialReturn_spec h
      rw [← hr] at hw
      have hload := ViewController.load_eq_some_iff.mpr ⟨htheme, hw⟩
      exact ⟨⟨u', w⟩, Option.map_eq_some_iff.mpr ⟨w, hload, rfl⟩, hsame w⟩
    | didSelect a =>
      dsimp only [Op.perform] at h ⊢
      rw [hr]
      split_ifs at h ⊢
      · exact map_same hsame h
      · cases h
        exact ⟨_, rfl, hsame vc⟩
    | editSearchText newText =>
      dsimp only [Op.perform] at h ⊢
      rw [hr]
      exact map_same (fun _ => hsame _) h
    | cellForRowAt row | didSelectRowAt row =>
      dsimp only [Op.perform] at h ⊢
      split_ifs at h ⊢
      · exact map_same (fun _ => hsame _) h
      · cases h
        exact ⟨_, rfl, hsame vc⟩
    | viewFor | deletePins =>
      dsimp only [Op.perform] at h ⊢
      split_ifs at h ⊢ <;> cases h <;> exact ⟨_, rfl, hsame _⟩
    | modifyPlace =>
      cases h
      have hedit := congrArg (vc.fillForm screen).editPinColor hcolor
      exact ⟨_, rfl, Prod.ext rfl hedit⟩
    | showEditView =>
      cases h
      have hedit := congrArg vc.editPinColor hcolor
      exact ⟨_, rfl, Prod.ext rfl hedit⟩
    | choosePin sec row =>
      cases h
      exact ⟨_, rfl, Prod.ext rfl (congrArg (choosePin sec row) hcolor)⟩
    | create =>
      cases h
      have hpin : Process.customAnnotation (⟨u', vc⟩ : Process D F) =
          Process.customAnnotation ⟨u, vc⟩ := by
        unfold Process.customAnnotation
        rw [hcolor]
      refine ⟨_, rfl, Prod.ext ?_ rfl⟩
      change Process.vc (Process.create ⟨u', vc⟩) = Process.vc (Process.create ⟨u, vc⟩)
      unfold Process.create
      rw [hpin]
      rfl
    | hideEditView confirmed =>
      cases h
      refine ⟨_, rfl, ?_⟩
      unfold Process.hideEditView
      split
      · exact hsame vc
      · rfl
    | _ =>
      cases h
      exact ⟨_, rfl, hsame _⟩

omit [SwiftDouble D] [SwiftCGFloat F] [DecidableEq D] in
/-- Processes that are the same but for their settings, or none on either side. -/
theorem App.SamePins.cases {s t : App D F} (h : s.SamePins t) :
    (s.process = none ∧ t.process = none) ∨ ∃ p q, s.process = some p ∧ t.process = some q ∧
      q.besidesSettings = p.besidesSettings := by
  obtain ⟨_, hprocess⟩ := h
  cases hs : s.process with
  | none =>
    rw [hs] at hprocess
    exact Or.inl ⟨rfl, Option.map_eq_none_iff.mp hprocess⟩
  | some p =>
    rw [hs] at hprocess
    obtain ⟨q, hq, hqp⟩ := Option.map_eq_some_iff.mp hprocess
    exact Or.inr ⟨p, q, rfl, hq, hqp⟩

/-- A launch that finds a whole theme or none shows the same pins whatever the settings are. -/
theorem launch_same {screen : Screen} {r r' : Realm} {s : App D F} (hr : r'.pinItems = r.pinItems)
    (hinv : MapInvariant (⟨r', none⟩ : App D F)) (hwhole : r'.WholeTheme)
    (h : App.step screen ⟨r, none⟩ .launch = some s) :
    ∃ t, App.step screen ⟨r', none⟩ .launch = some t ∧ s.SamePins t := by
  obtain ⟨u, vc, hu, _, hvc, rfl⟩ := App.step_launch_iff.mp h
  have hsome : (App.step screen (⟨r', none⟩ : App D F) .launch).isSome :=
    (launch_isSome_iff hinv rfl).mpr hwhole
  obtain ⟨t, ht⟩ := Option.isSome_iff_exists.mp hsome
  refine ⟨t, ht, ?_⟩
  obtain ⟨u', vc', hu', _, hvc', rfl⟩ := App.step_launch_iff.mp ht
  rw [hr, hvc] at hvc'
  cases hvc'
  refine App.SamePins.some_some hr (Prod.ext rfl ?_)
  exact (didFinishLaunching_pinColor hu').trans (didFinishLaunching_pinColor hu).symm

theorem step_same {screen : Screen} {s s' t : App D F} {e f : Event D F} (hst : s.SamePins t)
    (hinv : MapInvariant t) (hwhole : e = .launch → s.process = none → t.realm.WholeTheme)
    (he : e.SameButSettings f) (h : App.step screen s e = some s') :
    ∃ t', App.step screen t f = some t' ∧ s'.SamePins t' := by
  obtain ⟨r, process⟩ := s
  obtain ⟨r', process'⟩ := t
  have hr : r'.pinItems = r.pinItems := hst.pinItems
  obtain ⟨hs, ht⟩ | ⟨p, q, hs, ht, hqp⟩ := hst.cases
  · cases hs
    cases ht
    cases he with
    | launch => exact launch_same hr hinv (hwhole rfl rfl) h
    | op | killDuring | kill =>
      cases h
      exact ⟨_, rfl, App.SamePins.none_none hr⟩
  · cases hs
    cases ht
    cases he with
    | launch =>
      cases h
      exact ⟨_, rfl, App.SamePins.some_some hr hqp⟩
    | op ho =>
      obtain ⟨q₁, hq₁, rfl⟩ := App.step_op h
      obtain ⟨q₂, hq₂, hsame⟩ := perform_same hr hqp (hinv.drawn q rfl).theme ho hq₁
      refine ⟨_, congrArg (Option.map _) hq₂, ?_⟩
      exact App.SamePins.some_some (commit_writes_same hr hqp ho) hsame
    | killDuring ho k =>
      cases h
      exact ⟨_, rfl, App.SamePins.none_none (cut_writes_same hr hqp ho k)⟩
    | kill =>
      cases h
      exact ⟨_, rfl, App.SamePins.none_none hr⟩

/-- A kill inside an operation is matched by one before it or after it. -/
theorem killDuring_atomic {screen : Screen} {s s' t : App D F} {o : Op D F} {k : Nat}
    (hst : s.SamePins t) (h : App.step screen s (.killDuring o k) = some s') :
    ∃ t', Machine.run (App.step screen) t (Event.uninterrupted (.killDuring o k)) = some t' ∧
      s'.SamePins t' := by
  obtain ⟨r, process⟩ := s
  obtain ⟨r', process'⟩ := t
  have hr : r'.pinItems = r.pinItems := hst.pinItems
  obtain ⟨hs, ht⟩ | ⟨p, q, hs, ht, hqp⟩ := hst.cases
  · cases hs
    cases ht
    cases h
    refine ⟨⟨r', none⟩, ?_, App.SamePins.none_none hr⟩
    dsimp only [Event.uninterrupted]
    split <;> rfl
  · cases hs
    cases ht
    cases h
    have hsame := Op.SameButSettings.same o
    dsimp only [Event.uninterrupted]
    split_ifs with hk
    · obtain ⟨hk, ho⟩ := hk
      have hop : ∃ q', o.perform screen r' q = some q' := by
        cases o with
        | create | deletePin | deleteAllPins => exact ⟨_, rfl⟩
        | _ => cases ho
      obtain ⟨q', hq'⟩ := hop
      have hstep : App.step screen ⟨r', some q⟩ (.op o) =
          some ⟨Crash.commit (o.writes r' q) r', some q'⟩ := congrArg (Option.map _) hq'
      rw [Machine.run_cons_of_step hstep]
      refine ⟨_, rfl, App.SamePins.none_none ?_⟩
      rw [cut_writes_of_writesPins ho r p hk]
      exact commit_writes_same hr hqp hsame
    · refine ⟨_, rfl, App.SamePins.none_none ?_⟩
      cases ho : o.writesPins with
      | false => rw [cut_writes_of_not_writesPins ho, hr]
      | true =>
        have hzero : k = 0 := by
          by_contra hne
          exact hk ⟨Nat.pos_of_ne_zero hne, ho⟩
        rw [hzero, Crash.cut_zero, hr]

omit [SwiftDouble D] [SwiftCGFloat F] [DecidableEq D] in
theorem Event.SameButSettings.refl (e : Event D F) : e.SameButSettings e := by
  cases e with
  | launch => exact .launch
  | op o => exact .op (.same o)
  | killDuring o k => exact .killDuring (.same o) k
  | kill => exact .kill

theorem uninterrupted_same {screen : Screen} {s s' t : App D F} {e : Event D F}
    (hst : s.SamePins t) (hinv : MapInvariant t) (hwhole : t.realm.WholeTheme)
    (h : App.step screen s e = some s') :
    ∃ t', Machine.run (App.step screen) t e.uninterrupted = some t' ∧ s'.SamePins t' := by
  cases e with
  | killDuring o k => exact killDuring_atomic hst h
  | launch | op | kill =>
    obtain ⟨t', ht', hsame⟩ :=
      step_same hst hinv (fun _ _ => hwhole) (Event.SameButSettings.refl _) h
    exact ⟨t', (Machine.run_singleton _ _ _).trans ht', hsame⟩

/-- Only a kill inside `changeSetting` stores a part of a theme. -/
theorem step_wholeTheme {screen : Screen} {s t : App D F} {e : Event D F}
    (hs : s.realm.WholeTheme) (he : ∀ o k, e ≠ .killDuring o k)
    (h : App.step screen s e = some t) : t.realm.WholeTheme := by
  obtain ⟨r, _ | p⟩ := s
  · cases e with
    | launch =>
      obtain ⟨_, _, _, _, _, rfl⟩ := App.step_launch_iff.mp h
      exact hs
    | op | killDuring | kill =>
      cases h
      exact hs
  · cases e with
    | op o =>
      obtain ⟨q, _, rfl⟩ := App.step_op h
      exact commit_writes_wholeTheme hs p o
    | killDuring o k => exact absurd rfl (he o k)
    | launch | kill =>
      cases h
      exact hs

omit [SwiftDouble D] [SwiftCGFloat F] [DecidableEq D] in
theorem ne_killDuring_of_uninterrupted {e f : Event D F} (hf : f ∈ e.uninterrupted) (o : Op D F)
    (k : Nat) : f ≠ .killDuring o k := by
  intro hkill
  subst hkill
  cases e with
  | killDuring o' k' =>
    dsimp only [Event.uninterrupted] at hf
    split_ifs at hf <;> simp at hf
  | launch | op | kill => simp [Event.uninterrupted] at hf

/-- So an uninterrupted run launches on a whole theme or none. -/
theorem uninterrupted_wholeTheme {screen : Screen} {s t : App D F} {e : Event D F}
    (hs : s.realm.WholeTheme) (h : Machine.run (App.step screen) s e.uninterrupted = some t) :
    t.realm.WholeTheme := by
  have hsteps : Machine.EachStep (App.step screen) (fun _ f => ∀ o k, f ≠ .killDuring o k) s
      e.uninterrupted := by
    intro pre f hpre _ _ _ _
    exact ne_killDuring_of_uninterrupted (hpre.subset (by simp))
  have hkeep : ∀ (s : App D F) f t, s.realm.WholeTheme → App.step screen s f = some t →
      (∀ o k, f ≠ .killDuring o k) → t.realm.WholeTheme :=
    fun _ _ _ hs ht hf => step_wholeTheme hs hf ht
  exact (Machine.always_of_eachStep hkeep hs hsteps).last h

omit [SwiftCGFloat F] [DecidableEq D] in
theorem installed_samePins :
    App.SamePins (App.installed : App D F) App.installed ∧ MapInvariant (App.installed : App D F) :=
  ⟨⟨rfl, rfl⟩, installed_mapInvariant⟩

theorem mapInvariant_of_run_from {screen : Screen} {s t : App D F} {es : List (Event D F)}
    (hs : MapInvariant s) (h : Machine.run (App.step screen) s es = some t) : MapInvariant t :=
  (Machine.always_of_invariant step_mapInvariant hs es).last h

/-- Whatever operations are killed, and wherever, the run ends with the pins and the process of
a run in which each of them was killed before it began or after its end. -/
theorem interrupted_run_is_atomic (screen : Screen) (es : List (Event D F)) (s : App D F)
    (h : Machine.run (App.step screen) App.installed es = some s) :
    ∃ t, Machine.run (App.step screen) App.installed (es.flatMap Event.uninterrupted) = some t ∧
      s.SamePins t := by
  have hstep : ∀ (s t : App D F) e s', s.SamePins t ∧ MapInvariant t ∧ t.realm.WholeTheme →
      App.step screen s e = some s' →
      ∃ t', Machine.run (App.step screen) t (Event.uninterrupted e) = some t' ∧
        s'.SamePins t' ∧ MapInvariant t' ∧ t'.realm.WholeTheme := by
    intro s t e s' hst hs
    obtain ⟨hst, hinv, hwhole⟩ := hst
    obtain ⟨t', ht', hsame⟩ := uninterrupted_same hst hinv hwhole hs
    exact ⟨t', ht', hsame, mapInvariant_of_run_from hinv ht', uninterrupted_wholeTheme hwhole ht'⟩
  obtain ⟨hsame, hinv⟩ := installed_samePins (D := D) (F := F)
  obtain ⟨t, ht, hst, _⟩ :=
    Machine.run_simulates_flatMap hstep ⟨hsame, hinv, Or.inl rfl⟩ h
  exact ⟨t, ht, hst⟩

/-- A kill during `Create` after its transaction, and one during `changeSetting` before the
colours are saved. -/
theorem interrupted_create_is_atomic :
    let screen : Screen := ⟨375, 667⟩
    let black : Theme SevenDecimals := ⟨⟨⟨0⟩, ⟨0⟩, ⟨0⟩⟩, ⟨⟨0⟩, ⟨0⟩, ⟨0⟩⟩, ⟨⟨0⟩, ⟨0⟩, ⟨0⟩⟩⟩
    let es : List (Event WholeDegrees SevenDecimals) :=
      [.launch, .op (.mapLongPressed ⟨⟨36⟩, ⟨140⟩⟩), .op .showEditView, .op (.editTitle "park"),
        .killDuring .create 1, .launch, .killDuring (.changeSetting black .btnP) 1, .launch]
    ∃ s t, Machine.run (App.step screen) App.installed es = some s ∧
      Machine.run (App.step screen) App.installed (es.flatMap Event.uninterrupted) = some t ∧
      s.SamePins t := by
  intro screen black es
  have hrun : (Machine.run (App.step screen) App.installed es).isSome := by decide
  obtain ⟨s, hs⟩ := Option.isSome_iff_exists.mp hrun
  obtain ⟨t, ht, hst⟩ := interrupted_run_is_atomic screen es s hs
  exact ⟨s, t, hs, ht, hst⟩

/-- As many colours are stored. -/
def App.SameSlots (s t : App D F) : Prop :=
  t.realm.themeColors.length = s.realm.themeColors.length

omit [SwiftDouble D] [SwiftCGFloat F] [DecidableEq D] in
theorem App.SameSlots.wholeTheme {s t : App D F} (h : s.SameSlots t)
    (hs : s.realm.WholeTheme) : t.realm.WholeTheme := by
  rw [Realm.WholeTheme, h]
  exact hs

omit [DecidableEq D] in
/-- Two saves cut at the same point have stored as many colours. -/
theorem cut_writes_slots {r r' : Realm} (hr : r'.themeColors.length = r.themeColors.length)
    {p p' : Process D F} {o o' : Op D F} (ho : o.SameButSettings o') (k : Nat) :
    (Crash.cut (o'.writes r' p') k r').themeColors.length =
      (Crash.cut (o.writes r p) k r).themeColors.length := by
  have hsave (theme theme' : Theme F) (selectedPin selectedPin' : PinButton) :
      (Crash.cut (changeSettingWrites theme' selectedPin') k r').themeColors.length =
        (Crash.cut (changeSettingWrites theme selectedPin) k r).themeColors.length := by
    cases k with
    | zero => exact hr
    | succ k =>
      rw [cut_changeSettingWrites, cut_changeSettingWrites, List.length_take, List.length_take,
        records_length, records_length]
  cases ho with
  | changeSetting theme theme' selectedPin selectedPin' =>
    exact hsave theme theme' selectedPin selectedPin'
  | same o =>
    obtain ho | ⟨theme, selectedPin, rfl⟩ := o.savesSettings_cases
    · rw [(cut_writes_settings ho k).1, (cut_writes_settings ho k).1, hr]
    · exact hsave theme theme selectedPin selectedPin

omit [DecidableEq D] in
theorem commit_writes_slots {r r' : Realm} (hr : r'.themeColors.length = r.themeColors.length)
    {p p' : Process D F} {o o' : Op D F} (ho : o.SameButSettings o') :
    (Crash.commit (o'.writes r' p') r').themeColors.length =
      (Crash.commit (o.writes r p) r).themeColors.length := by
  rw [← Crash.cut_of_length_le (Nat.le_add_left _ (o.writes r p).length) r',
    ← Crash.cut_of_length_le (Nat.le_add_right _ (o'.writes r' p').length) r]
  exact cut_writes_slots hr ho _

theorem step_slots {screen : Screen} {s s' t t' : App D F} {e f : Event D F}
    (hst : s.SamePins t) (hslots : s.SameSlots t) (he : e.SameButSettings f)
    (hs : App.step screen s e = some s') (ht : App.step screen t f = some t') :
    s'.SameSlots t' := by
  obtain ⟨r, process⟩ := s
  obtain ⟨r', process'⟩ := t
  obtain ⟨hdead, hdead'⟩ | ⟨p, q, hp, hq, _⟩ := hst.cases
  · cases hdead
    cases hdead'
    cases he with
    | launch =>
      obtain ⟨_, _, _, _, _, rfl⟩ := App.step_launch_iff.mp hs
      obtain ⟨_, _, _, _, _, rfl⟩ := App.step_launch_iff.mp ht
      exact hslots
    | op | killDuring | kill =>
      cases hs
      cases ht
      exact hslots
  · cases hp
    cases hq
    cases he with
    | launch | kill =>
      cases hs
      cases ht
      exact hslots
    | op ho =>
      obtain ⟨_, _, rfl⟩ := App.step_op hs
      obtain ⟨_, _, rfl⟩ := App.step_op ht
      exact commit_writes_slots hslots ho
    | killDuring ho k =>
      cases hs
      cases ht
      exact cut_writes_slots hslots ho k

/-- Which settings are saved has no influence on the pins, the map, the form or the panels, in
whatever run. -/
theorem pins_ignore_settings (screen : Screen) (es fs : List (Event D F)) (s : App D F)
    (hm : List.Forall₂ Event.SameButSettings es fs)
    (h : Machine.run (App.step screen) App.installed es = some s) :
    ∃ t, Machine.run (App.step screen) App.installed fs = some t ∧ s.SamePins t := by
  have hstep : ∀ (s t : App D F) e f s', s.SamePins t ∧ MapInvariant t ∧ s.SameSlots t →
      Event.SameButSettings e f → App.step screen s e = some s' →
      ∃ t', App.step screen t f = some t' ∧ s'.SamePins t' ∧ MapInvariant t' ∧
        s'.SameSlots t' := by
    intro s t e f s' hst he hs
    obtain ⟨hst, hinv, hslots⟩ := hst
    have hwhole : e = .launch → s.process = none → t.realm.WholeTheme := by
      intro hlaunch hdead
      obtain ⟨r, process⟩ := s
      cases hlaunch
      cases hdead
      exact hslots.wholeTheme (launch_wholeTheme hs)
    obtain ⟨t', ht', hsame⟩ := step_same hst hinv hwhole he hs
    exact ⟨t', ht', hsame, step_mapInvariant t f t' hinv ht', step_slots hst hslots he hs ht'⟩
  obtain ⟨hsame, hinv⟩ := installed_samePins (D := D) (F := F)
  obtain ⟨t, ht, hst, _⟩ := Machine.run_simulates_forall₂ hstep hm ⟨hsame, hinv, rfl⟩ h
  exact ⟨t, ht, hst⟩

/-- A black theme and a yellow one, saved and then saved again up to a kill. -/
theorem pin_ignores_theme :
    let screen : Screen := ⟨375, 667⟩
    let black : Theme SevenDecimals := ⟨⟨⟨0⟩, ⟨0⟩, ⟨0⟩⟩, ⟨⟨0⟩, ⟨0⟩, ⟨0⟩⟩, ⟨⟨0⟩, ⟨0⟩, ⟨0⟩⟩⟩
    let yellow : Theme SevenDecimals :=
      ⟨⟨⟨9⟩, ⟨9⟩, ⟨0⟩⟩, ⟨⟨9⟩, ⟨9⟩, ⟨0⟩⟩, ⟨⟨9⟩, ⟨9⟩, ⟨0⟩⟩⟩
    let run (theme : Theme SevenDecimals) (pin : PinButton) :
        List (Event WholeDegrees SevenDecimals) :=
      [.launch, .op (.mapLongPressed ⟨⟨36⟩, ⟨140⟩⟩), .op .showEditView, .op (.editTitle "park"),
        .op .create, .op (.changeSetting theme pin), .killDuring (.changeSetting theme pin) 1,
        .launch]
    ∃ s t, Machine.run (App.step screen) App.installed (run black .btnB) = some s ∧
      Machine.run (App.step screen) App.installed (run yellow .btnP) = some t ∧
      s.SamePins t := by
  intro screen black yellow run
  have hrun : (Machine.run (App.step screen) App.installed (run black .btnB)).isSome := by decide
  obtain ⟨s, hs⟩ := Option.isSome_iff_exists.mp hrun
  have hm : List.Forall₂ Event.SameButSettings (run black .btnB) (run yellow .btnP) :=
    .cons .launch (.cons (.op (.same _)) (.cons (.op (.same _)) (.cons (.op (.same _))
      (.cons (.op (.same _)) (.cons (.op (.changeSetting _ _ _ _))
        (.cons (.killDuring (.changeSetting _ _ _ _) 1) (.cons .launch .nil)))))))
  obtain ⟨t, ht, hst⟩ := pins_ignore_settings screen _ _ s hm hs
  exact ⟨s, t, hs, ht, hst⟩

end WatashiMap
