import WatashiMap.Model.Effects
import WatashiMap.Model.Numbers

namespace WatashiMap

variable {D : Type}

namespace Request

/-- The user action the request goes back to. -/
def issue : Request D → Nat
  | .localSearch issue _ | .geocodePress issue _ | .geocodeSearch issue _ _ => issue

/-- The text of the search the request belongs to; `none` for a long press. -/
def query : Request D → Option (Option String)
  | .localSearch _ query | .geocodeSearch _ query _ => some query
  | .geocodePress _ _ => none

/-- A reverse geocoding. -/
def isLookup : Request D → Bool
  | .localSearch _ _ => false
  | .geocodePress _ _ | .geocodeSearch _ _ _ => true

end Request

/-- The answer to a reverse geocoding. -/
def Reply.isLookup : Reply D → Bool
  | .search _ => false
  | .geocode _ => true

/-- The most recent long press or answered search, with what a lookup has reported for its
coordinate. -/
structure Latest (D : Type) where
  issue : Nat
  coordinate : CLLocationCoordinate2D D
  query : Option (Option String)
  reported : Option CLPlacemark
  deriving DecidableEq

namespace Latest

/-- The address reported for the coordinate, or nothing. -/
def subtitle (l : Latest D) : String := (l.reported.map CLPlacemark.address).getD ""

/-- A search's query text, or the place name reported for a long press, or nothing. -/
def title (l : Latest D) : String :=
  match l.query with
  | some query => query.getD ""
  | none => (l.reported.bind CLPlacemark.name).getD ""

end Latest

/-- What the marker shows is that of `l`. -/
def MKPointAnnotation.Describes (a : MKPointAnnotation D) (l : Latest D) : Prop :=
  a.subtitle.getD "" = l.subtitle ∧ a.title.getD "" = l.title

/-- The marker, the text of the search bar and the latest request. -/
structure MarkerRun (D : Type) where
  marker : Marker D
  text : Option String
  latest : Option (Latest D)
  deriving DecidableEq

/-- A change of the search text, a long press, a search for the text, or the reply to the
`i`-th outstanding request. -/
inductive MarkerAction (D : Type) where
  | editText (newText : Option String)
  | mapLongPressed (mapPoint : CLLocationCoordinate2D D)
  | searchMap
  | reply (i : Nat) (r : Reply D)
  deriving DecidableEq

namespace MarkerRun

/-- A search with results becomes the latest request unless a later one is there; a placemark
is reported for the latest request if its lookup asked for it. -/
def latestAfter (s : MarkerRun D) (i : Nat) (r : Reply D) : Option (Latest D) :=
  match s.marker.pending[i]?, r with
  | some (.localSearch issue query), .search (some (center, items)) =>
      if items ≠ 0 ∧ ∀ l ∈ s.latest, l.issue < issue then some ⟨issue, center, some query, none⟩
      else s.latest
  | some request, .geocode (some pm) =>
      s.latest.map fun l =>
        if request.isLookup ∧ l.issue = request.issue then { l with reported := some pm } else l
  | _, _ => s.latest

def step (s : MarkerRun D) : MarkerAction D → Option (MarkerRun D)
  | .editText newText => some { s with text := newText }
  | .mapLongPressed mapPoint =>
      some { s with
        marker := s.marker.mapLongPressed mapPoint
        latest := some ⟨s.marker.issued, mapPoint, none, none⟩ }
  | .searchMap => some { s with marker := s.marker.searchMap s.text }
  | .reply i r =>
      some { s with marker := s.marker.reply s.text i r, latest := s.latestAfter i r }

/-- Once no reply is outstanding, the marker is where the latest request is and shows what was
reported for it. -/
def DescribesLatest (s : MarkerRun D) : Prop :=
  s.marker.pending = [] → ∀ l, s.latest = some l →
    s.marker.annotation.coordinate = l.coordinate ∧ s.marker.annotation.Describes l

/-- A lookup of `l` is outstanding and none has reported yet. -/
def Awaits (pending : List (Request D)) (l : Latest D) : Prop :=
  l.reported = none ∧ ∃ r ∈ pending, r.isLookup = true ∧ r.issue = l.issue

/-- The marker has no subtitle, and no title but the query of `l`. -/
def Unreported (a : MKPointAnnotation D) (l : Latest D) : Prop :=
  a.subtitle.getD "" = "" ∧ a.title.getD "" = (l.query.getD none).getD ""

/-- The reply does not come out of order: a search is not answered after a later request, the
lookup of an earlier request does not report after that of the latest, a search's lookup
reports while the search bar still shows the query, and if the last lookup of the latest
request fails, the marker shows nothing of an earlier one. -/
def InOrder (s : MarkerRun D) : MarkerAction D → Prop
  | .reply i r => ∀ request l, s.marker.pending[i]? = some request → s.latest = some l →
      match r with
      | .search (some (_, items)) => request.isLookup = false → items = 0 ∨ l.issue < request.issue
      | .search none => True
      | .geocode (some _) => request.isLookup = true →
          if request.issue = l.issue then
            ∀ query, request.query = some query → s.text.getD "" = query.getD ""
          else Awaits s.marker.pending l
      | .geocode none => request.isLookup = true → request.issue = l.issue →
          l.reported = none → ¬ Awaits (s.marker.pending.eraseIdx i) l →
            Unreported s.marker.annotation l
  | _ => True

/-- Some request, the latest or an outstanding one, has this number and this query. -/
def Tagged (s : MarkerRun D) (issue : Nat) (query : Option (Option String)) : Prop :=
  (∃ r ∈ s.marker.pending, r.issue = issue ∧ r.query = query) ∨
    ∃ l, s.latest = some l ∧ l.issue = issue ∧ l.query = query

/-- Requests are numbered in the order of the user's actions, and the number fixes the query. -/
structure Numbered (s : MarkerRun D) : Prop where
  lt : ∀ issue query, s.Tagged issue query → issue < s.marker.issued
  query_eq : ∀ issue query query', s.Tagged issue query → s.Tagged issue query' → query = query'

theorem Numbered.subset {s t : MarkerRun D} (h : s.Numbered)
    (hissued : t.marker.issued = s.marker.issued)
    (htags : ∀ issue query, t.Tagged issue query → s.Tagged issue query) : t.Numbered where
  lt := by
    intro issue query ht
    rw [hissued]
    exact h.lt issue query (htags issue query ht)
  query_eq := by
    intro issue query query' ht ht'
    exact h.query_eq issue query query' (htags _ _ ht) (htags _ _ ht')

/-- A new user action takes the next number. -/
theorem Numbered.issue {s t : MarkerRun D} (h : s.Numbered)
    (hissued : t.marker.issued = s.marker.issued + 1) (new : Option (Option String))
    (htags : ∀ issue query, t.Tagged issue query →
      s.Tagged issue query ∨ issue = s.marker.issued ∧ query = new) : t.Numbered where
  lt := by
    intro issue query ht
    rw [hissued]
    rcases htags issue query ht with hs | ⟨rfl, _⟩
    · exact Nat.lt_succ_of_lt (h.lt issue query hs)
    · exact Nat.lt_succ_self _
  query_eq := by
    intro issue query query' ht ht'
    rcases htags _ _ ht with hs | ⟨hi, rfl⟩ <;> rcases htags _ _ ht' with hs' | ⟨hi', rfl⟩
    · exact h.query_eq issue query query' hs hs'
    · have hlt := h.lt issue query hs
      omega
    · have hlt := h.lt issue query' hs'
      omega
    · rfl

end MarkerRun

namespace Marker

theorem forEachItem_eq (issue : Nat) (query : Option String)
    (center : CLLocationCoordinate2D D) (items : Nat) (m : Marker D) :
    m.forEachItem issue query center items = { m with
      annotation := if items = 0 then m.annotation else { m.annotation with coordinate := center }
      pending := m.pending ++ List.replicate items (.geocodeSearch issue query center) } := by
  induction items generalizing m with
  | zero => simp [forEachItem]
  | succ items ih =>
    rw [forEachItem, ih]
    simp [List.replicate_succ]

theorem reply_issued (text : Option String) (i : Nat) (r : Reply D) (m : Marker D) :
    (m.reply text i r).issued = m.issued := by
  unfold reply
  split
  · dsimp only
    split
    · rfl
    · rw [forEachItem_eq]
  · dsimp only
    split <;> rfl
  · dsimp only
    split <;> rfl
  · rfl

/-- A reply adds requests of the answered search only. -/
theorem reply_pending {text : Option String} {i : Nat} {r : Reply D} {m : Marker D}
    {request : Request D} (h : request ∈ (m.reply text i r).pending) :
    ∃ r₀ ∈ m.pending, r₀.issue = request.issue ∧ r₀.query = request.query := by
  have hold : request ∈ m.pending.eraseIdx i →
      ∃ r₀ ∈ m.pending, r₀.issue = request.issue ∧ r₀.query = request.query :=
    fun hr => ⟨request, List.mem_of_mem_eraseIdx hr, rfl, rfl⟩
  unfold reply at h
  split at h
  · rename_i issue query response hp
    dsimp only at h
    split at h
    · exact hold h
    · rw [forEachItem_eq] at h
      rcases List.mem_append.mp h with hr | hr
      · exact hold hr
      · rw [List.eq_of_mem_replicate hr]
        exact ⟨_, List.mem_of_getElem? hp, rfl, rfl⟩
  · dsimp only at h
    split at h <;> exact hold h
  · dsimp only at h
    split at h <;> exact hold h
  · exact ⟨request, h, rfl, rfl⟩

/-- What the lookup's handler puts in the title: a search's handler takes the text of the search
bar as it is then. -/
def writtenTitle (text : Option String) (pm : CLPlacemark) : Request D → Option String
  | .geocodePress _ _ => some (pm.name.getD "")
  | .localSearch _ _ | .geocodeSearch _ _ _ => text

theorem reply_lookup_some {text : Option String} {i : Nat} {m : Marker D} {request : Request D}
    (hp : m.pending[i]? = some request) (hl : request.isLookup = true) (pm : CLPlacemark) :
    m.reply text i (.geocode (some pm)) = { m with
      annotation := { m.annotation with
        title := writtenTitle text pm request, subtitle := some pm.address }
      pending := m.pending.eraseIdx i } := by
  unfold reply
  rw [hp]
  cases request with
  | localSearch => cases hl
  | geocodePress | geocodeSearch => rfl

theorem reply_lookup_none {text : Option String} {i : Nat} {m : Marker D} {request : Request D}
    (hp : m.pending[i]? = some request) (hl : request.isLookup = true) :
    m.reply text i (.geocode none) = { m with pending := m.pending.eraseIdx i } := by
  unfold reply
  rw [hp]
  cases request with
  | localSearch => cases hl
  | geocodePress | geocodeSearch => rfl

end Marker

namespace MarkerRun

/-- A reply makes the answered search the latest request, or keeps the latest one. -/
theorem tagged_latestAfter {s : MarkerRun D} {i : Nat} {r : Reply D} {l : Latest D}
    (h : s.latestAfter i r = some l) : s.Tagged l.issue l.query := by
  unfold latestAfter at h
  split at h
  · rename_i issue query center items hp
    split at h
    · cases h
      exact Or.inl ⟨_, List.mem_of_getElem? hp, rfl, rfl⟩
    · exact Or.inr ⟨l, h, rfl, rfl⟩
  · obtain ⟨l₀, hl₀, rfl⟩ := Option.map_eq_some_iff.mp h
    refine Or.inr ⟨l₀, hl₀, ?_, ?_⟩ <;> split <;> rfl
  · exact Or.inr ⟨l, h, rfl, rfl⟩

theorem step_numbered {s t : MarkerRun D} {a : MarkerAction D} (h : s.Numbered)
    (ht : s.step a = some t) : t.Numbered := by
  cases a with
  | editText newText =>
    cases ht
    exact h.subset rfl fun _ _ htag => htag
  | mapLongPressed mapPoint =>
    cases ht
    refine h.issue rfl none fun issue query htag => ?_
    rcases htag with ⟨r, hr, rfl, rfl⟩ | ⟨l, hl, rfl, rfl⟩
    · rcases List.mem_append.mp hr with hr | hr
      · exact Or.inl (Or.inl ⟨r, hr, rfl, rfl⟩)
      · rw [List.mem_singleton.mp hr]
        exact Or.inr ⟨rfl, rfl⟩
    · cases hl
      exact Or.inr ⟨rfl, rfl⟩
  | searchMap =>
    cases ht
    refine h.issue rfl (some s.text) fun issue query htag => ?_
    rcases htag with ⟨r, hr, rfl, rfl⟩ | hl
    · rcases List.mem_append.mp hr with hr | hr
      · exact Or.inl (Or.inl ⟨r, hr, rfl, rfl⟩)
      · rw [List.mem_singleton.mp hr]
        exact Or.inr ⟨rfl, rfl⟩
    · exact Or.inl (Or.inr hl)
  | reply i r =>
    cases ht
    refine h.subset (Marker.reply_issued s.text i r s.marker) fun issue query htag => ?_
    rcases htag with ⟨request, hr, rfl, rfl⟩ | ⟨l, hl, rfl, rfl⟩
    · exact Or.inl (Marker.reply_pending hr)
    · exact tagged_latestAfter hl

/-- The marker is where the latest request is; its texts describe it, or will be written by a
lookup that is outstanding. -/
def Settles (s : MarkerRun D) : Prop :=
  ∀ l, s.latest = some l → s.marker.annotation.coordinate = l.coordinate ∧
    (Awaits s.marker.pending l ∨ s.marker.annotation.Describes l)

theorem Awaits.append {pending : List (Request D)} {l : Latest D} (h : Awaits pending l)
    (new : List (Request D)) : Awaits (pending ++ new) l := by
  obtain ⟨hreported, r, hr, hlookup⟩ := h
  exact ⟨hreported, r, List.mem_append_left new hr, hlookup⟩

/-- A reply to another request leaves the awaited lookup outstanding. -/
theorem Awaits.eraseIdx {pending : List (Request D)} {l : Latest D} (h : Awaits pending l)
    {i : Nat} {request : Request D} (hp : pending[i]? = some request)
    (hother : request.isLookup = true → request.issue ≠ l.issue) :
    Awaits (pending.eraseIdx i) l := by
  obtain ⟨hreported, r, hr, hlookup, hissue⟩ := h
  refine ⟨hreported, r, ?_, hlookup, hissue⟩
  obtain ⟨j, hj⟩ := List.mem_iff_getElem?.mp hr
  refine List.mem_eraseIdx_iff_getElem?.mpr ⟨j, ?_, hj⟩
  intro hij
  subst j
  rw [hp] at hj
  cases hj
  exact hother hlookup hissue

theorem describes_of_unreported {a : MKPointAnnotation D} {l : Latest D} (h : Unreported a l)
    (hl : l.reported = none) : a.Describes l := by
  obtain ⟨hsubtitle, htitle⟩ := h
  refine ⟨?_, ?_⟩
  · rw [hsubtitle, Latest.subtitle, hl]
    rfl
  · rw [htitle, Latest.title, hl]
    cases l.query <;> rfl

/-- The lookup of the latest request reports. -/
theorem describes_reported {s : MarkerRun D} {i : Nat} {request : Request D} {l : Latest D}
    (hn : s.Numbered) (hp : s.marker.pending[i]? = some request) (hl : s.latest = some l)
    (hissue : request.issue = l.issue) (hlookup : request.isLookup = true) (pm : CLPlacemark)
    (htext : ∀ query, request.query = some query → s.text.getD "" = query.getD "") :
    MKPointAnnotation.Describes
      { s.marker.annotation with
        title := Marker.writtenTitle s.text pm request, subtitle := some pm.address }
      { l with reported := some pm } := by
  have hquery : request.query = l.query :=
    hn.query_eq l.issue _ _ (Or.inl ⟨request, List.mem_of_getElem? hp, hissue, rfl⟩)
      (Or.inr ⟨l, hl, rfl, rfl⟩)
  refine ⟨rfl, ?_⟩
  rw [Latest.title]
  dsimp only
  rw [← hquery]
  cases request with
  | localSearch => cases hlookup
  | geocodePress => rfl
  | geocodeSearch issue query location => exact htext query rfl

theorem latestAfter_lookup_some {s : MarkerRun D} {i : Nat} {request : Request D}
    (hp : s.marker.pending[i]? = some request) (hlookup : request.isLookup = true)
    (pm : CLPlacemark) : s.latestAfter i (.geocode (some pm)) = s.latest.map fun l =>
      if l.issue = request.issue then { l with reported := some pm } else l := by
  unfold latestAfter
  rw [hp]
  simp [hlookup]

theorem latestAfter_geocode_none (s : MarkerRun D) (i : Nat) :
    s.latestAfter i (.geocode none) = s.latest := by
  unfold latestAfter
  cases s.marker.pending[i]? with
  | none => rfl
  | some request => cases request <;> rfl

/-- A local search is answered. -/
theorem settles_search {s : MarkerRun D} (h : s.Settles) {i : Nat} {issue : Nat}
    {query : Option String} (hp : s.marker.pending[i]? = some (.localSearch issue query))
    {response : Option (CLLocationCoordinate2D D × Nat)}
    (hc : s.InOrder (.reply i (.search response))) :
    Settles { s with
      marker := s.marker.reply s.text i (.search response)
      latest := s.latestAfter i (.search response) } := by
  have hsame : Settles { s with
      marker := { s.marker with pending := s.marker.pending.eraseIdx i } } := by
    intro l hl
    obtain ⟨hcoordinate, htexts⟩ := h l hl
    exact ⟨hcoordinate, htexts.imp_left fun hw => hw.eraseIdx hp nofun⟩
  unfold Marker.reply latestAfter
  rw [hp]
  dsimp only
  cases response with
  | none => exact hsame
  | some response =>
    obtain ⟨center, items⟩ := response
    dsimp only
    cases items with
    | zero => exact hsame
    | succ items =>
      rw [Marker.forEachItem_eq]
      intro l hl
      dsimp only at hl
      split at hl
      · cases hl
        have hnew : Request.geocodeSearch issue query center ∈
            s.marker.pending.eraseIdx i ++
              List.replicate (items + 1) (.geocodeSearch issue query center) :=
          List.mem_append_right _ (List.mem_replicate.mpr ⟨Nat.succ_ne_zero items, rfl⟩)
        exact ⟨rfl, Or.inl ⟨rfl, _, hnew, rfl, rfl⟩⟩
      · -- a later request was there, which an answer in order excludes
        rename_i hlater
        refine absurd ⟨Nat.succ_ne_zero items, ?_⟩ hlater
        intro l' hl'
        exact (hc _ l' hp hl' rfl).resolve_left (Nat.succ_ne_zero items)

/-- A lookup fails. -/
theorem settles_lookup_none {s : MarkerRun D} (h : s.Settles) {i : Nat} {request : Request D}
    (hp : s.marker.pending[i]? = some request) (hlookup : request.isLookup = true)
    (hc : s.InOrder (.reply i (.geocode none))) :
    Settles { s with marker := s.marker.reply s.text i (.geocode none) } := by
  intro l hl
  rw [Marker.reply_lookup_none hp hlookup]
  obtain ⟨hcoordinate, hw | hd⟩ := h l hl
  · refine ⟨hcoordinate, ?_⟩
    by_cases hrest : Awaits (s.marker.pending.eraseIdx i) l
    · exact Or.inl hrest
    · -- the last awaited lookup failed, so the texts stay as they are
      have hissue : request.issue = l.issue := by
        by_contra hne
        exact hrest (hw.eraseIdx hp fun _ => hne)
      have hshown : Unreported s.marker.annotation l :=
        hc request l hp hl hlookup hissue hw.1 hrest
      exact Or.inr (describes_of_unreported hshown hw.1)
  · exact ⟨hcoordinate, Or.inr hd⟩

/-- A lookup reports. -/
theorem settles_lookup_some {s : MarkerRun D} (hn : s.Numbered) (h : s.Settles) {i : Nat}
    {request : Request D} (hp : s.marker.pending[i]? = some request)
    (hlookup : request.isLookup = true) {pm : CLPlacemark}
    (hc : s.InOrder (.reply i (.geocode (some pm)))) :
    Settles { s with
      marker := s.marker.reply s.text i (.geocode (some pm))
      latest := s.latestAfter i (.geocode (some pm)) } := by
  intro l hl
  dsimp only at hl
  rw [latestAfter_lookup_some hp hlookup] at hl
  obtain ⟨l₀, hl₀, rfl⟩ := Option.map_eq_some_iff.mp hl
  have horder := hc request l₀ hp hl₀ hlookup
  have hcoordinate := (h l₀ hl₀).1
  rw [Marker.reply_lookup_some hp hlookup]
  by_cases hissue : l₀.issue = request.issue
  · rw [if_pos hissue.symm] at horder
    rw [if_pos hissue]
    have hdescribes := describes_reported hn hp hl₀ hissue.symm hlookup pm horder
    exact ⟨hcoordinate, Or.inr hdescribes⟩
  · rw [if_neg (Ne.symm hissue)] at horder
    rw [if_neg hissue]
    have hawaits : Awaits (s.marker.pending.eraseIdx i) l₀ :=
      horder.eraseIdx hp fun _ => Ne.symm hissue
    exact ⟨hcoordinate, Or.inl hawaits⟩

/-- A reply that fits no outstanding request changes nothing. -/
theorem reply_ignored {s : MarkerRun D} {i : Nat} {r : Reply D}
    (h : ∀ request, s.marker.pending[i]? = some request → request.isLookup ≠ r.isLookup) :
    s.marker.reply s.text i r = s.marker ∧ s.latestAfter i r = s.latest := by
  unfold Marker.reply latestAfter
  cases hp : s.marker.pending[i]? with
  | none => exact ⟨rfl, rfl⟩
  | some request =>
    have hr := h request hp
    cases r with
    | search response =>
      cases request with
      | localSearch => exact absurd rfl hr
      | geocodePress | geocodeSearch => exact ⟨rfl, rfl⟩
    | geocode placemark =>
      cases request with
      | localSearch => cases placemark <;> simp [Request.isLookup]
      | geocodePress | geocodeSearch => exact absurd rfl hr

theorem step_settles {s t : MarkerRun D} {a : MarkerAction D} (hn : s.Numbered)
    (h : s.Settles) (ht : s.step a = some t) (hc : s.InOrder a) : t.Settles := by
  cases a with
  | editText newText =>
    cases ht
    exact h
  | mapLongPressed mapPoint =>
    cases ht
    intro l hl
    cases hl
    have hnew : Request.geocodePress s.marker.issued mapPoint ∈
        s.marker.pending ++ [.geocodePress s.marker.issued mapPoint] :=
      List.mem_append_right _ (List.mem_singleton_self _)
    exact ⟨rfl, Or.inl ⟨rfl, _, hnew, rfl, rfl⟩⟩
  | searchMap =>
    cases ht
    intro l hl
    obtain ⟨hcoordinate, htexts⟩ := h l hl
    exact ⟨hcoordinate, htexts.imp_left fun hw => hw.append _⟩
  | reply i r =>
    cases ht
    have hignored :
        (∀ request, s.marker.pending[i]? = some request → request.isLookup ≠ r.isLookup) →
        Settles { s with marker := s.marker.reply s.text i r, latest := s.latestAfter i r } := by
      intro hr
      obtain ⟨hm, hl⟩ := reply_ignored hr
      rw [hm, hl]
      exact h
    cases hp : s.marker.pending[i]? with
    | none => exact hignored (by simp [hp])
    | some request =>
      cases r with
      | search response =>
        cases request with
        | localSearch issue query => exact settles_search h hp hc
        | geocodePress | geocodeSearch =>
          refine hignored fun request hr => ?_
          rw [hp] at hr
          cases hr
          exact Bool.noConfusion
      | geocode placemark =>
        cases hlookup : request.isLookup with
        | false =>
          refine hignored fun request' hr => ?_
          rw [hp] at hr
          cases hr
          rw [hlookup]
          exact Bool.noConfusion
        | true =>
          cases placemark with
          | none =>
            rw [latestAfter_geocode_none]
            exact settles_lookup_none h hp hlookup hc
          | some pm => exact settles_lookup_some hn h hp hlookup hc

theorem Settles.describesLatest {s : MarkerRun D} (h : s.Settles) : s.DescribesLatest := by
  intro hquiet l hl
  obtain ⟨hcoordinate, hawaits | hdescribes⟩ := h l hl
  · obtain ⟨_, r, hr, _⟩ := hawaits
    rw [hquiet] at hr
    cases hr
  · exact ⟨hcoordinate, hdescribes⟩

/-- The actions an event of the marker consists of: the handlers read the text of the time. -/
def actions : MarkerEvent D → List (MarkerAction D)
  | .mapLongPressed mapPoint => [.mapLongPressed mapPoint]
  | .searchMap text => [.editText text, .searchMap]
  | .reply text i r => [.editText text, .reply i r]

theorem run_events (events : List (MarkerEvent D)) (s : MarkerRun D) :
    ∃ t, Machine.run step s (events.flatMap actions) = some t ∧
      t.marker = events.foldl MarkerEvent.apply s.marker := by
  induction events generalizing s with
  | nil => exact ⟨s, rfl, rfl⟩
  | cons e events ih =>
    have hone : ∃ u, Machine.run step s (actions e) = some u ∧
        u.marker = e.apply s.marker := by
      cases e <;> exact ⟨_, rfl, rfl⟩
    obtain ⟨u, hu, hmarker⟩ := hone
    obtain ⟨t, ht, htail⟩ := ih u
    refine ⟨t, ?_, ?_⟩
    · rw [List.flatMap_cons, Machine.run_append, hu, Option.bind_some, ht]
    · rw [htail, hmarker, List.foldl_cons]

/-- On a view that stays, every operation of the app moves its marker as some such actions do. -/
theorem perform_markerRun {F : Type} [SwiftDouble D] [SwiftCGFloat F] [DecidableEq D]
    {screen : Screen} {r : Realm} {p q : Process D F} {o : Op D F} (ho : o.rebuilds = false)
    (h : o.perform screen r p = some q) (latest : Option (Latest D)) :
    ∃ as latest', Machine.run step ⟨p.vc.marker, p.vc.suggestions.text, latest⟩ as =
      some ⟨q.vc.marker, q.vc.suggestions.text, latest'⟩ := by
  obtain ⟨t, ht, hmarker⟩ :=
    run_events (o.markerEvents p.vc) ⟨p.vc.marker, p.vc.suggestions.text, latest⟩
  refine ⟨(o.markerEvents p.vc).flatMap actions ++ [.editText q.vc.suggestions.text], t.latest, ?_⟩
  rw [Machine.run_append, ht, Option.bind_some, (Op.effect ho h).marker, ← hmarker]
  rfl

end MarkerRun

/-- In every run in which no reply comes out of order, the marker describes the latest request
whenever no reply is outstanding. -/
theorem marker_describes_latest [SwiftDouble D] (text : Option String)
    (actions : List (MarkerAction D))
    (h : Machine.EachStep MarkerRun.step MarkerRun.InOrder ⟨.initial, text, none⟩ actions) :
    Machine.Always MarkerRun.step MarkerRun.DescribesLatest ⟨.initial, text, none⟩ actions := by
  have hnone : ∀ issue query,
      ¬ MarkerRun.Tagged (⟨.initial, text, none⟩ : MarkerRun D) issue query := by
    intro issue query htag
    rcases htag with ⟨r, hr, _⟩ | ⟨l, hl, _⟩
    · cases hr
    · cases hl
  have hstart : MarkerRun.Numbered (⟨.initial, text, none⟩ : MarkerRun D) ∧
      MarkerRun.Settles (⟨.initial, text, none⟩ : MarkerRun D) := by
    refine ⟨⟨?_, ?_⟩, ?_⟩
    · intro issue query htag
      exact absurd htag (hnone issue query)
    · intro issue query query' htag
      exact absurd htag (hnone issue query)
    · intro l hl
      cases hl
  have hkeep : ∀ (s : MarkerRun D) a t, s.Numbered ∧ s.Settles → MarkerRun.step s a = some t →
      MarkerRun.InOrder s a → t.Numbered ∧ t.Settles := by
    intro s a t h ht hc
    obtain ⟨hn, hs⟩ := h
    exact ⟨MarkerRun.step_numbered hn ht, MarkerRun.step_settles hn hs ht hc⟩
  exact (Machine.always_of_eachStep hkeep hstart h).mono fun s hs => hs.2.describesLatest

/-- A press, then a search that finds two places: the lookup of the press reports only after that,
before one of the search's lookups reports and the other fails. -/
theorem marker_describes_search :
    let cafe : CLPlacemark := ⟨some "cafe", none, none, none, none, none, none, none, some "JP"⟩
    let park : CLPlacemark := ⟨some "park", none, none, none, none, none, none, none, some "KR"⟩
    Machine.Always MarkerRun.step MarkerRun.DescribesLatest
      (⟨.initial, some "park", none⟩ : MarkerRun WholeDegrees)
      [.mapLongPressed ⟨⟨35⟩, ⟨139⟩⟩, .searchMap, .reply 1 (.search (some (⟨⟨37⟩, ⟨127⟩⟩, 2))),
        .reply 0 (.geocode (some cafe)), .reply 0 (.geocode (some park)),
        .reply 0 (.geocode none)] := by
  intro cafe park
  apply marker_describes_latest
  refine .cons rfl trivial (.cons rfl trivial (.cons rfl ?answered (.cons rfl ?late
    (.cons rfl ?reports (.cons rfl ?fails Machine.eachStep_nil)))))
  case answered =>
    intro request l hrequest hl _
    cases hrequest
    cases hl
    exact Or.inr Nat.zero_lt_one
  case late =>
    intro request l hrequest hl _
    cases hrequest
    cases hl
    rw [if_neg (by decide)]
    exact ⟨rfl, .geocodeSearch 1 (some "park") ⟨⟨37⟩, ⟨127⟩⟩, by decide, rfl, rfl⟩
  case reports =>
    intro request l hrequest hl _
    cases hrequest
    cases hl
    rw [if_pos (by decide)]
    intro query hquery
    cases hquery
    rfl
  case fails =>
    intro request l hrequest hl _ _ hunreported
    cases hrequest
    cases hl
    cases hunreported

/-- Two presses, answered in the other order: the marker is at the second place under the
address of the first. -/
theorem marker_shows_earlier_address :
    let cafe : CLPlacemark := ⟨some "cafe", none, none, none, none, none, none, none, some "JP"⟩
    let park : CLPlacemark := ⟨some "park", none, none, none, none, none, none, none, some "KR"⟩
    ¬ Machine.Always MarkerRun.step MarkerRun.DescribesLatest
      (⟨.initial, some "", none⟩ : MarkerRun WholeDegrees)
      [.mapLongPressed ⟨⟨35⟩, ⟨139⟩⟩, .mapLongPressed ⟨⟨37⟩, ⟨127⟩⟩,
        .reply 1 (.geocode (some park)), .reply 0 (.geocode (some cafe))] := by
  intro cafe park h
  obtain ⟨_, _, htitle⟩ := h _ List.prefix_rfl _ rfl rfl _ rfl
  exact absurd htitle (by decide)

end WatashiMap
