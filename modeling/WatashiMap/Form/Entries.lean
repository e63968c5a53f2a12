import WatashiMap.Form.Session
import WatashiMap.Library.LastWrite
import WatashiMap.Model.Numbers

namespace WatashiMap

variable {D F : Type}

/-- What the user enters in the form. -/
structure Entries where
  title : String
  memo : String
  image : String
  deriving DecidableEq

def Process.entries (p : Process D F) : Entries :=
  ⟨p.vc.editview.textField, p.vc.editview.memoText, p.userSetting.pinColor⟩

namespace Op

def typedTitle : Op D F → Option String
  | .editTitle text => some text
  | _ => none

def typedMemo : Op D F → Option String
  | .editMemo text => some text
  | _ => none

/-- An index path outside the table of images chooses nothing. -/
def chosenImage : Op D F → Option String
  | .choosePin sec row => (photo[sec]?).bind fun s => s[row]?
  | _ => none

end Op

def Event.entered (entry : Op D F → Option String) : Event D F → Option String
  | .op o => entry o
  | _ => none

/-- The entries after some events: of each, the last one made. -/
def Entries.after (e : Entries) (es : List (Event D F)) : Entries where
  title := LastWrite.value (Event.entered Op.typedTitle) e.title es
  memo := LastWrite.value (Event.entered Op.typedMemo) e.memo es
  image := LastWrite.value (Event.entered Op.chosenImage) e.image es

theorem Entries.after_cons (e : Entries) (f : Event D F) (es : List (Event D F)) :
    e.after (f :: es) = (e.after [f]).after es := by
  simp only [Entries.after, LastWrite.value_cons, LastWrite.value_nil]

/-- What a single event enters. -/
theorem Entries.after_singleton (e : Entries) (f : Event D F) : e.after [f] =
    ⟨(f.entered Op.typedTitle).getD e.title, (f.entered Op.typedMemo).getD e.memo,
      (f.entered Op.chosenImage).getD e.image⟩ := by
  simp only [Entries.after, LastWrite.value_cons, LastWrite.value_nil]

/-- The record `Create` makes of the entries. -/
def Entries.item [SwiftDouble D] (c : CLLocationCoordinate2D D) (e : Entries) : PinItem :=
  CustomAnnotation.record ⟨c, e.title, e.memo, e.image⟩

def App.FormOpen (s : App D F) : Prop :=
  ∃ p, s.process = some p ∧ p.vc.editview.covers = true

/-- Nothing but a form action enters anything. -/
theorem Entries.after_op_of_not_form {o : Op D F} (ho : o.isFormAction = false) (e : Entries) :
    e.after [.op o] = e := by
  rw [Entries.after_singleton]
  cases o with
  | editTitle | editMemo | choosePin => cases ho
  | _ => rfl

variable [SwiftDouble D] [SwiftCGFloat F] [DecidableEq D]

/-- While the form is open, an operation that reaches the program enters what its event says and
writes nothing to disk, unless it closes the form. -/
theorem perform_entries {screen : Screen} {r : Realm} {p q : Process D F} {o : Op D F}
    (hp : p.vc.editview.covers = true) (ho : o.reaches p = true)
    (h : o.perform screen r p = some q) (hq : q.vc.editview.covers = true) :
    q.entries = p.entries.after [.op o] ∧ o.writes r p = [] := by
  rw [Entries.after_singleton]
  cases o with
  | locationUpdate | viewFor | reply | completerDidUpdateResults | cellForRowAt =>
    obtain ⟨husers, hview, _⟩ := (Op.effect rfl h).form rfl
    refine ⟨?_, rfl⟩
    unfold Process.entries
    rw [husers, hview]
    rfl
  | editTitle | editMemo | choosePin =>
    cases h
    exact ⟨rfl, rfl⟩
  | changePin =>
    cases h
    refine ⟨?_, rfl⟩
    simp [Process.entries, Event.entered, Op.typedTitle, Op.typedMemo, Op.chosenImage]
  | create =>
    cases h
    cases hq
  | hideEditView confirmed =>
    cases h
    unfold Process.hideEditView at hq ⊢
    split_ifs at hq ⊢
    · exact ⟨rfl, rfl⟩
    · cases hq
  | _ => simp [Op.reaches, Op.isFormAction, Op.isCallback, hp] at ho

/-- One step of an open form that stays open. -/
theorem guardedStep_entries {screen : Screen} {s t : App D F} {p q : Process D F}
    {e : Event D F} (hs : s.process = some p) (hp : p.vc.editview.covers = true)
    (h : App.guardedStep Op.reaches screen s e = some t) (ht : t.process = some q)
    (hq : q.vc.editview.covers = true) :
    q.entries = p.entries.after [e] ∧ t.realm = s.realm := by
  obtain ⟨r, process⟩ := s
  cases hs
  cases e with
  | launch =>
    cases h
    cases ht
    exact ⟨rfl, rfl⟩
  | op o =>
    cases ho : o.reaches p with
    | false =>
      rw [App.guardedStep_op_of_not ho] at h
      cases h
      cases ht
      refine ⟨(Entries.after_op_of_not_form ?_ _).symm, rfl⟩
      by_contra hform
      rw [Op.reaches, if_pos (by simpa using hform), hp] at ho
      cases ho
    | true =>
      rw [App.guardedStep_op ho] at h
      obtain ⟨q', hq', rfl⟩ := App.step_op h
      cases ht
      obtain ⟨hentries, hwrites⟩ := perform_entries hp ho hq' hq
      refine ⟨hentries, ?_⟩
      dsimp only
      rw [hwrites, Crash.commit_nil]
  | killDuring o k =>
    dsimp only [App.guardedStep] at h
    split_ifs at h
    · cases h
      cases ht
    · cases h
      cases ht
      exact ⟨rfl, rfl⟩
  | kill =>
    cases h
    cases ht

theorem run_entries {screen : Screen} {es : List (Event D F)} {s t : App D F}
    {p : Process D F} (hs : s.process = some p)
    (hopen : Machine.Always (App.guardedStep Op.reaches screen) App.FormOpen s es)
    (h : Machine.run (App.guardedStep Op.reaches screen) s es = some t) :
    ∃ q, t.process = some q ∧ q.entries = p.entries.after es ∧ t.realm = s.realm := by
  induction es generalizing s p with
  | nil =>
    cases h
    exact ⟨p, hs, rfl, rfl⟩
  | cons e es ih =>
    rw [Machine.run_cons] at h
    obtain ⟨u, hu, hrest⟩ := Option.bind_eq_some_iff.mp h
    obtain ⟨⟨p', hp', hcovers⟩, htail⟩ := Machine.always_cons.mp hopen
    rw [hs] at hp'
    cases hp'
    obtain ⟨q, hq, hqcovers⟩ := htail u hu [] List.nil_prefix u rfl
    obtain ⟨hentries, hrealm⟩ := guardedStep_entries hs hcovers hu hq hqcovers
    obtain ⟨q', hq', hentries', hrealm'⟩ := ih hq (htail u hu) hrest
    refine ⟨q', hq', ?_, hrealm'.trans hrealm⟩
    rw [hentries', hentries, ← Entries.after_cons]

/-- The events that close the form with the user's consent or end the process, and those that
leave it without a title. -/
def Event.losesForm : Event D F → Bool
  | .op .create | .op (.hideEditView true) | .killDuring _ _ | .kill => true
  | .op (.editTitle text) => decide (text = "")
  | _ => false

/-- The form is open with a title in it. -/
def App.FormTitled (s : App D F) : Prop :=
  ∃ p, s.process = some p ∧ p.vc.editview.covers = true ∧ p.vc.editview.textField ≠ ""

omit [SwiftDouble D] [SwiftCGFloat F] [DecidableEq D] in
theorem App.FormTitled.formOpen {s : App D F} (h : s.FormTitled) : s.FormOpen := by
  obtain ⟨p, hp, hcovers, _⟩ := h
  exact ⟨p, hp, hcovers⟩

theorem perform_keepsForm {screen : Screen} {r : Realm} {p q : Process D F} {o : Op D F}
    (hcovers : p.vc.editview.covers = true) (htitle : p.vc.editview.textField ≠ "")
    (ho : o.reaches p = true) (hkeeps : Event.losesForm (.op o) = false)
    (h : o.perform screen r p = some q) :
    q.vc.editview.covers = true ∧ q.vc.editview.textField ≠ "" := by
  cases o with
  | locationUpdate | viewFor | reply | completerDidUpdateResults | cellForRowAt =>
    obtain ⟨_, hview, _⟩ := (Op.effect rfl h).form rfl
    rw [hview]
    exact ⟨hcovers, htitle⟩
  | editTitle text =>
    cases h
    exact ⟨hcovers, of_decide_eq_false hkeeps⟩
  | editMemo | choosePin =>
    cases h
    exact ⟨hcovers, htitle⟩
  | changePin =>
    cases h
    simpa using ⟨hcovers, htitle⟩
  | create => cases hkeeps
  | hideEditView confirmed =>
    cases confirmed with
    | true => cases hkeeps
    | false =>
      cases h
      rw [Process.hideEditView, if_pos ⟨htitle, rfl⟩]
      exact ⟨hcovers, htitle⟩
  | _ => simp [Op.reaches, Op.isFormAction, Op.isCallback, hcovers] at ho

theorem step_keepsForm {screen : Screen} (s : App D F) (e : Event D F) (t : App D F)
    (hs : s.FormTitled) (h : App.guardedStep Op.reaches screen s e = some t)
    (he : e.losesForm = false) : t.FormTitled := by
  obtain ⟨r, process⟩ := s
  obtain ⟨p, hp, hcovers, htitle⟩ := hs
  cases hp
  cases e with
  | launch =>
    cases h
    exact ⟨p, rfl, hcovers, htitle⟩
  | op o =>
    cases ho : o.reaches p with
    | false =>
      rw [App.guardedStep_op_of_not ho] at h
      cases h
      exact ⟨p, rfl, hcovers, htitle⟩
    | true =>
      rw [App.guardedStep_op ho] at h
      obtain ⟨q, hq, rfl⟩ := App.step_op h
      exact ⟨q, rfl, perform_keepsForm hcovers htitle ho he hq⟩
  | killDuring | kill => cases he

theorem always_titled {screen : Screen} {es : List (Event D F)} {s : App D F}
    (hs : s.FormTitled) (hes : ∀ e ∈ es, e.losesForm = false) :
    Machine.Always (App.guardedStep Op.reaches screen) App.FormTitled s es := by
  refine Machine.always_of_eachStep (C := fun _ e => e.losesForm = false) step_keepsForm hs ?_
  intro pre e hpre _ _ _ _
  exact hes e (hpre.subset (by simp))

/-- An open form with a title stays open, with the title the user entered last, until the user
saves it, confirms that it be discarded or empties the title, or the process ends: no callback, no
other tap and no unconfirmed close loses it. -/
theorem titled_form_stays_open (screen : Screen) (es : List (Event D F)) (s : App D F)
    (hs : s.FormTitled) (hes : ∀ e ∈ es, e.losesForm = false) :
    Machine.Always (App.guardedStep Op.reaches screen) App.FormTitled s es ∧
      ∀ t p q, Machine.run (App.guardedStep Op.reaches screen) s es = some t →
        s.process = some p → t.process = some q → q.entries = p.entries.after es := by
  have htitled : Machine.Always (App.guardedStep Op.reaches screen) App.FormTitled s es :=
    always_titled hs hes
  refine ⟨htitled, ?_⟩
  intro t p q h hp hq
  obtain ⟨q', hq', hentries, _⟩ := run_entries hp (htitled.mono fun _ ht => ht.formOpen) h
  rw [hq] at hq'
  cases hq'
  exact hentries

/-- A form opened for a new pin, with a title typed into it. -/
def openedForm : List (Event WholeDegrees SevenDecimals) :=
  [.launch, .op (.mapLongPressed ⟨⟨36⟩, ⟨140⟩⟩), .op .showEditView, .op (.editTitle "park")]

/-- More entries, and a close that is not confirmed. -/
def moreEntries : List (Event WholeDegrees SevenDecimals) :=
  [.op (.editMemo "pond"), .op (.choosePin 4 10), .op (.hideEditView false),
    .op (.locationUpdate ⟨⟨1⟩, ⟨2⟩⟩), .op (.editTitle "lake")]

theorem openedForm_titled :
    ∃ s p, Machine.run (App.guardedStep Op.reaches ⟨375, 667⟩) App.installed openedForm = some s ∧
      s.process = some p ∧ s.FormTitled := by
  have hrun : (Machine.run (App.guardedStep Op.reaches ⟨375, 667⟩) App.installed openedForm).bind
      (fun s => s.process.map fun p => (p.vc.editview.covers, p.vc.editview.textField)) =
        some (true, "park") := by decide
  obtain ⟨s, hs, hp⟩ := Option.bind_eq_some_iff.mp hrun
  obtain ⟨p, hp, hform⟩ := Option.map_eq_some_iff.mp hp
  obtain ⟨hcovers, htitle⟩ := Prod.mk.inj hform
  exact ⟨s, p, hs, hp, p, hp, hcovers, by rw [htitle]; decide⟩

theorem park_form_stays_open :
    ∃ s, Machine.run (App.guardedStep Op.reaches ⟨375, 667⟩) App.installed openedForm = some s ∧
      Machine.Always (App.guardedStep Op.reaches ⟨375, 667⟩) App.FormTitled s moreEntries := by
  obtain ⟨s, p, hs, _, htitled⟩ := openedForm_titled
  have hes : ∀ e ∈ moreEntries, e.losesForm = false := by decide
  exact ⟨s, hs, (titled_form_stays_open ⟨375, 667⟩ moreEntries s htitled hes).1⟩

/-- `Create` at the end of a session, however long, stores the title, the memo and the image entered
last, in place of the record at its coordinates; until then the session has stored nothing. The
order of the records is Realm's. -/
theorem create_stores_last_entries (screen : Screen) (es : List (Event D F)) (s t : App D F)
    (p : Process D F) (hs : s.process = some p)
    (hopen : Machine.Always (App.guardedStep Op.reaches screen) App.FormOpen s es)
    (h : Machine.run (App.guardedStep Op.reaches screen) s es = some t) :
    ∃ q u, t.process = some q ∧ App.guardedStep Op.reaches screen t (.op .create) = some u ∧
      t.realm = s.realm ∧
      u.realm.pinItems.Perm (Keyed.replaceFirst PinItem.coordinates
        ((p.entries.after es).item q.vc.pincoordinate) s.realm.pinItems) := by
  obtain ⟨q, hq, hentries, hrealm⟩ := run_entries hs hopen h
  obtain ⟨q', hq', hcovers⟩ := hopen.last h
  obtain ⟨r, process⟩ := t
  cases hq
  cases hq'
  refine ⟨q, _, rfl, App.guardedStep_op hcovers, hrealm, ?_⟩
  change (q.createWrite r r).pinItems.Perm _
  have hitem : q.pinItem = (p.entries.after es).item q.vc.pincoordinate := by
    rw [← hentries]
    rfl
  have hr : r = s.realm := hrealm
  rw [createWrite_pinItems, hitem, hr]

theorem park_entries_are_stored :
    ∃ s p t, s.process = some p ∧
      Machine.run (App.guardedStep Op.reaches ⟨375, 667⟩) s moreEntries = some t ∧
      ∃ q u, t.process = some q ∧ App.guardedStep Op.reaches ⟨375, 667⟩ t (.op .create) = some u ∧
        t.realm = s.realm ∧
        u.realm.pinItems.Perm (Keyed.replaceFirst PinItem.coordinates
          ((p.entries.after moreEntries).item q.vc.pincoordinate) s.realm.pinItems) := by
  obtain ⟨s, p, hs, hp, htitled⟩ := openedForm_titled
  have hes : ∀ e ∈ moreEntries, e.losesForm = false := by decide
  have hopen : Machine.Always (App.guardedStep Op.reaches ⟨375, 667⟩) App.FormOpen s moreEntries :=
    (always_titled htitled hes).mono fun _ ht => ht.formOpen
  have hrun : ((Machine.run (App.guardedStep Op.reaches ⟨375, 667⟩) App.installed openedForm).bind
      fun s => Machine.run (App.guardedStep Op.reaches ⟨375, 667⟩) s moreEntries).isSome := by
    decide
  rw [hs, Option.bind_some] at hrun
  obtain ⟨t, ht⟩ := Option.isSome_iff_exists.mp hrun
  exact ⟨s, p, t, hp, ht, create_stores_last_entries ⟨375, 667⟩ moreEntries s t p hp hopen ht⟩

end WatashiMap
