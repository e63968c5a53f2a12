import Mathlib.Data.Prod.Lex
import WatashiMap.Library.Liveness
import WatashiMap.Model.Effects
import WatashiMap.Search.Latest
import WatashiMap.Search.Table

namespace WatashiMap

variable {D F : Type}

namespace Marker

/-- The searches under way. -/
def searches (pending : List (Request D)) : Nat := pending.countP fun r => !r.isLookup

/-- The searches under way, then all requests under way: an answered search may start any number
of lookups, an answered lookup starts nothing. -/
def load (pending : List (Request D)) : ℕ ×ₗ ℕ := toLex (searches pending, pending.length)

theorem load_nil_le (pending : List (Request D)) : load ([] : List (Request D)) ≤ load pending := by
  rw [load, load, Prod.Lex.toLex_le_toLex]
  rcases Nat.eq_zero_or_pos (searches pending) with hcount | hcount
  · exact Or.inr ⟨hcount.symm, Nat.zero_le _⟩
  · exact Or.inl hcount

theorem eq_nil_of_load_le {pending : List (Request D)}
    (h : load pending ≤ load ([] : List (Request D))) : pending = [] := by
  have hload : load pending = load [] := le_antisymm h (load_nil_le pending)
  have hlength : pending.length = 0 := congrArg (fun l => (ofLex l).2) hload
  exact List.length_eq_zero_iff.mp hlength

/-- The reply is one the `i`-th outstanding request waits for. -/
def Answers (pending : List (Request D)) (i : Nat) (r : Reply D) : Prop :=
  ∃ request, pending[i]? = some request ∧ request.isLookup = r.isLookup

/-- An answered request is taken off the list and off the count of its kind. -/
theorem searches_eraseIdx {pending : List (Request D)} {i : Nat} {request : Request D}
    (h : pending[i]? = some request) :
    searches (pending.eraseIdx i) + (if request.isLookup then 0 else 1) = searches pending ∧
      (pending.eraseIdx i).length + 1 = pending.length := by
  obtain ⟨hi, hget⟩ := List.getElem?_eq_some_iff.mp h
  have hperm : (request :: pending.eraseIdx i).Perm pending := by
    rw [← hget]
    exact List.getElem_cons_eraseIdx_perm hi
  refine ⟨?_, hperm.length_eq⟩
  rw [searches, searches, ← hperm.countP_eq, List.countP_cons]
  cases request.isLookup <;> rfl

/-- An answered search leaves its lookups behind. -/
theorem reply_search (text : Option String) {i issue : Nat} {query : Option String}
    {m : Marker D} (hp : m.pending[i]? = some (.localSearch issue query))
    (response : Option (CLLocationCoordinate2D D × Nat)) :
    ∃ center items, (m.reply text i (.search response)).pending =
      m.pending.eraseIdx i ++ List.replicate items (.geocodeSearch issue query center) := by
  unfold reply
  rw [hp]
  cases response with
  | none => exact ⟨m.annotation.coordinate, 0, (List.append_nil _).symm⟩
  | some response =>
    obtain ⟨center, items⟩ := response
    refine ⟨center, items, ?_⟩
    dsimp only
    rw [forEachItem_eq]

/-- An answer lowers the load: a search's by one search, a lookup's by one request. -/
theorem load_reply_lt {text : Option String} {i : Nat} {r : Reply D} {m : Marker D}
    (h : Answers m.pending i r) : load (m.reply text i r).pending < load m.pending := by
  obtain ⟨request, hp, hkind⟩ := h
  obtain ⟨hsearches, hlength⟩ := searches_eraseIdx hp
  rw [load, load, Prod.Lex.toLex_lt_toLex]
  cases r with
  | search response =>
    left
    cases request with
    | geocodePress | geocodeSearch => cases hkind
    | localSearch issue query =>
      obtain ⟨center, items, hpending⟩ := reply_search text hp response
      have hlookups :
          searches (List.replicate items (Request.geocodeSearch issue query center)) = 0 := by
        simp [searches, Request.isLookup]
      have hnew : searches (m.reply text i (.search response)).pending =
          searches (m.pending.eraseIdx i) := by
        rw [hpending, searches, List.countP_append]
        exact congrArg _ hlookups
      rw [hnew, ← hsearches]
      exact Nat.lt_succ_self _
  | geocode placemark =>
    right
    have hlookup : request.isLookup = true := hkind
    have hpending : (m.reply text i (.geocode placemark)).pending = m.pending.eraseIdx i := by
      cases placemark with
      | none => rw [reply_lookup_none hp hlookup]
      | some pm => rw [reply_lookup_some hp hlookup]
    rw [hpending, ← hsearches, ← hlength, if_pos hlookup]
    exact ⟨rfl, Nat.lt_succ_self _⟩

theorem load_reply_le (text : Option String) (i : Nat) (r : Reply D) (m : Marker D) :
    load (m.reply text i r).pending ≤ load m.pending := by
  by_cases h : Answers m.pending i r
  · exact le_of_lt (load_reply_lt h)
  · have hignored := (MarkerRun.reply_ignored (s := ⟨m, text, none⟩) (i := i) (r := r)
      fun request hp hkind => h ⟨request, hp, hkind⟩).1
    exact le_of_eq (congrArg (fun m => load m.pending) hignored)

end Marker

/-- The operation starts a request: a long press, the search button, and of the table's rows those
below the pins. -/
def Op.issues (vc : ViewController D) : Op D F → Bool
  | .mapLongPressed _ | .searchBarSearchButtonClicked => true
  | .didSelectRowAt row => decide (row < vc.suggestions.rows ∧ vc.suggestions.pincount ≤ row)
  | _ => false

/-- The requests no reply has arrived for. -/
def App.outstanding (s : App D F) : List (Request D) :=
  (s.process.map fun p => p.vc.marker.pending).getD []

/-- The event starts a request. -/
def App.Issues (s : App D F) : Event D F → Prop
  | .op o => ∃ p, s.process = some p ∧ o.issues p.vc = true
  | _ => False

/-- The event is the answer to an outstanding request. -/
def App.IsAnswered (s : App D F) : Event D F → Prop
  | .op (.reply i r) => Marker.Answers s.outstanding i r
  | _ => False

/-- The row of a pin moves the map; one below the pins starts a search. -/
theorem markerEvents_didSelectRowAt {row : Nat} {vc : ViewController D}
    (h : row < vc.suggestions.rows → (vc.suggestions.didSelectRowAt row).isSome) :
    ∃ text, (Op.didSelectRowAt row : Op D F).markerEvents vc =
      if (Op.didSelectRowAt row : Op D F).issues vc then [.searchMap text] else [] := by
  dsimp only [Op.markerEvents, Op.issues]
  by_cases hrow : row < vc.suggestions.rows
  · obtain ⟨⟨s, action⟩, hs⟩ := Option.isSome_iff_exists.mp (h hrow)
    refine ⟨s.text, ?_⟩
    rw [if_pos hrow, hs]
    rw [Suggestions.didSelectRowAt_eq] at hs
    obtain ⟨result, _, hs⟩ := Option.bind_eq_some_iff.mp hs
    dsimp only at hs
    split_ifs at hs with hpin
    · obtain ⟨_, _, hs⟩ := Option.bind_eq_some_iff.mp hs
      cases hs
      simp [hpin]
    · cases hs
      simp [hrow, Nat.le_of_not_lt hpin]
  · refine ⟨none, ?_⟩
    rw [if_neg hrow]
    simp [hrow]

variable [SwiftDouble D] [SwiftCGFloat F] [DecidableEq D]

theorem perform_markerEvents {screen : Screen} {r : Realm} {p q : Process D F} {row : Nat}
    (h : Op.perform screen r p (.didSelectRowAt row) = some q) :
    ∃ text, (Op.didSelectRowAt row : Op D F).markerEvents p.vc =
      if (Op.didSelectRowAt row : Op D F).issues p.vc then [.searchMap text] else [] := by
  refine markerEvents_didSelectRowAt fun hrow => ?_
  dsimp only [Op.perform] at h
  rw [if_pos hrow] at h
  obtain ⟨_, hs, _⟩ := Option.map_eq_some_iff.mp h
  rw [hs]
  rfl

/-- On a view that stays, the operations that issue are those that number a new request. -/
theorem perform_issued {screen : Screen} {r : Realm} {p q : Process D F} {o : Op D F}
    (hr : o.rebuilds = false) (h : o.perform screen r p = some q) :
    q.vc.marker.issued = p.vc.marker.issued + if o.issues p.vc then 1 else 0 := by
  rw [(Op.effect hr h).marker]
  cases o with
  | reply i r => exact Marker.reply_issued _ i r _
  | didSelectRowAt row =>
    obtain ⟨text, hevents⟩ := perform_markerEvents h
    rw [hevents]
    split <;> rfl
  | _ => rfl

theorem perform_load {screen : Screen} {r : Realm} {p q : Process D F} {o : Op D F}
    (ho : o.issues p.vc = false) (h : o.perform screen r p = some q) :
    Marker.load q.vc.marker.pending ≤ Marker.load p.vc.marker.pending := by
  cases hr : o.rebuilds with
  | false =>
    rw [(Op.effect hr h).marker]
    cases o with
    | reply i r => exact Marker.load_reply_le _ i r _
    | tutorialReturn | changeSetting => cases hr
    | mapLongPressed | searchBarSearchButtonClicked => cases ho
    | didSelectRowAt row =>
      obtain ⟨_, hevents⟩ := perform_markerEvents h
      rw [hevents, ho]
      exact le_rfl
    | _ => exact le_rfl
  | true =>
    cases o with
    | tutorialReturn =>
      obtain ⟨_, hvc, rfl⟩ := Process.tutorialReturn_spec h
      obtain ⟨_, _, rfl⟩ := Option.map_eq_some_iff.mp hvc
      exact Marker.load_nil_le _
    | changeSetting theme selectedPin =>
      obtain ⟨_, hvc, rfl⟩ := Process.changeSetting_spec h
      obtain ⟨_, _, rfl⟩ := Option.map_eq_some_iff.mp hvc
      exact le_rfl
    | _ => cases hr

theorem step_load {screen : Screen} {s t : App D F} {e : Event D F}
    (he : ¬ s.Issues e) (h : App.step screen s e = some t) :
    Marker.load t.outstanding ≤ Marker.load s.outstanding := by
  obtain ⟨r, process⟩ := s
  cases process with
  | none =>
    cases e with
    | launch =>
      obtain ⟨u, vc, _, _, hvc, rfl⟩ := App.step_launch_iff.mp h
      obtain ⟨_, _, rfl⟩ := Option.map_eq_some_iff.mp hvc
      exact le_rfl
    | op | killDuring | kill =>
      cases h
      exact le_rfl
  | some p =>
    cases e with
    | launch =>
      cases h
      exact le_rfl
    | op o =>
      obtain ⟨q, hq, rfl⟩ := App.step_op h
      have ho : o.issues p.vc = false := by
        by_contra hissues
        exact he ⟨p, rfl, eq_true_of_ne_false hissues⟩
      exact perform_load ho hq
    | killDuring | kill =>
      cases h
      exact Marker.load_nil_le _

theorem answered_load {screen : Screen} {s t : App D F} {e : Event D F} (he : s.IsAnswered e)
    (h : App.step screen s e = some t) :
    Marker.load t.outstanding < Marker.load s.outstanding := by
  obtain ⟨r, process⟩ := s
  cases e with
  | op o =>
    cases o with
    | reply i reply =>
      cases process with
      | none =>
        obtain ⟨_, hp, _⟩ := he
        cases hp
      | some p =>
        obtain ⟨q, hq, rfl⟩ := App.step_op h
        have hmarker : q.vc.marker = p.vc.marker.reply p.vc.suggestions.text i reply :=
          (Op.effect rfl hq).marker
        have hlt : Marker.load (p.vc.marker.reply p.vc.suggestions.text i reply).pending <
            Marker.load p.vc.marker.pending := Marker.load_reply_lt he
        rw [← hmarker] at hlt
        exact hlt
    | _ => cases he
  | launch | killDuring | kill => cases he

/-- Once the user starts no more requests, and if no request waits for ever, some time no request
is outstanding and none ever is again, however many lookups the searches under way start. -/
theorem requests_run_dry (screen : Screen)
    (x : Machine.Execution (App.step screen : App D F → Event D F → Option (App D F)))
    (hissues : ∀ n, ¬ (x.state n).Issues (x.event n))
    (hanswered : ∀ n, (x.state n).outstanding ≠ [] →
      ∃ m, n ≤ m ∧ (x.state m).IsAnswered (x.event m)) :
    ∃ n, ∀ m, n ≤ m → (x.state m).outstanding = [] := by
  have hle : ∀ n, Marker.load (x.state (n + 1)).outstanding ≤
      Marker.load (x.state n).outstanding := fun n => step_load (hissues n) (x.step_eq n)
  have hbusy : ∀ n, (x.state (n + 1)).outstanding ≠ [] → (x.state n).outstanding ≠ [] := by
    intro n hnext hnow
    apply hnext
    have hload := hle n
    rw [hnow] at hload
    exact Marker.eq_nil_of_load_le hload
  have hfair : ∀ n, (x.state n).outstanding ≠ [] → ∃ m, n ≤ m ∧
      Marker.load (x.state (m + 1)).outstanding < Marker.load (x.state m).outstanding := by
    intro n hn
    obtain ⟨m, hnm, hm⟩ := hanswered n hn
    exact ⟨m, hnm, answered_load hm (x.step_eq m)⟩
  obtain ⟨n, hn⟩ := x.quiesces (fun s => Marker.load s.outstanding)
    (fun s => s.outstanding ≠ []) hle hbusy hfair
  exact ⟨n, fun m hm => not_not.mp (hn m hm)⟩

/-- A search is answered with one place and its lookup fails; then nothing more happens. -/
def answeredSearch : Machine.Execution
    (App.step ⟨375, 667⟩ : App WholeDegrees SevenDecimals → Event WholeDegrees SevenDecimals → _) :=
  let search : List (Event WholeDegrees SevenDecimals) :=
    [.launch, .op .searchBarSearchButtonClicked]
  let found : Event WholeDegrees SevenDecimals :=
    .op (.reply 0 (.search (some (⟨⟨35⟩, ⟨139⟩⟩, 1))))
  let failed : Event WholeDegrees SevenDecimals := .op (.reply 0 (.geocode none))
  let after := fun es => (Machine.run (App.step ⟨375, 667⟩) App.installed (search ++ es)).getD
    App.installed
  { state := fun n => match n with
      | 0 => after []
      | 1 => after [found]
      | _ => after [found, failed]
    event := fun n => match n with
      | 0 => found
      | 1 => failed
      | _ => .launch
    step_eq := fun n => match n with
      | 0 => rfl
      | 1 => rfl
      | _ + 2 => rfl }

theorem answeredSearch_runs_dry :
    ∃ n, ∀ m, n ≤ m → (answeredSearch.state m).outstanding = [] := by
  apply requests_run_dry ⟨375, 667⟩ answeredSearch
  · intro n hissues
    match n with
    | 0 | 1 =>
      obtain ⟨_, _, hreply⟩ := hissues
      cases hreply
    | n + 2 => exact hissues
  · intro n hn
    match n with
    | 0 => exact ⟨0, le_rfl, _, rfl, rfl⟩
    | 1 => exact ⟨1, le_rfl, _, rfl, rfl⟩
    | n + 2 => exact absurd rfl hn

end WatashiMap
