import WatashiMap.Model.Numbers
import WatashiMap.Pins.Mirror

namespace WatashiMap

/-- A range of UTF-16 code units. -/
structure NSRange where
  location : Nat
  length : Nat
  deriving DecidableEq

def utf16Length (c : Char) : Nat := if c.toNat < 0x10000 then 1 else 2

def takeUTF16 : Nat → List Char → List Char
  | 0, _ | _, [] => []
  | n, c :: cs => c :: takeUTF16 (n - utf16Length c) cs

def dropUTF16 : Nat → List Char → List Char
  | 0, cs => cs
  | _, [] => []
  | n, c :: cs => dropUTF16 (n - utf16Length c) cs

/-- An edit of the search text over a store of pins. -/
structure SearchEdit (D : Type) where
  pins : List <| CustomAnnotation D
  range : NSRange
  replacement : String

variable {D : Type} [SwiftDouble D]

namespace SearchEdit

/-- The text the bar shows once the edit is applied. -/
def newText (e : SearchEdit D) (text : String) : String :=
  String.ofList (takeUTF16 e.range.location text.toList ++ e.replacement.toList ++
    dropUTF16 (e.range.location + e.range.length) text.toList)

def items (e : SearchEdit D) : List PinItem := e.pins.map CustomAnnotation.record

def step (e : SearchEdit D) (s : Suggestions D) : Option (Suggestions D) :=
  s.edit e.items (e.newText (s.text.getD ""))

end SearchEdit

/-- The stored pins whose title contains the text, as every title contains "". -/
def pinsContaining (text : String) (pins : List <| CustomAnnotation D) : List (Pin D) :=
  (pins.filter fun c => text.toList <:+: c.title.toList).map CustomAnnotation.pin

/-- The pins the query for the text finds. -/
def pinsFound (text : String) (pins : List <| CustomAnnotation D) : List (Pin D) :=
  (pins.filter fun c => c.record.titleContains text).map CustomAnnotation.pin

omit [SwiftDouble D] in
theorem pinsContaining_empty (pins : List <| CustomAnnotation D) :
    pinsContaining "" pins = pins.map CustomAnnotation.pin := by
  have hall : ∀ c ∈ pins, decide ("".toList <:+: c.title.toList) = true :=
    fun _ _ => decide_eq_true List.nil_infix
  rw [pinsContaining, List.filter_eq_self.mpr hall]

/-- The query finds what contains the text, except that it finds nothing for "". -/
theorem pinsFound_eq_iff {text : String} {pins : List <| CustomAnnotation D} :
    pinsFound text pins = pinsContaining text pins ↔ text ≠ "" ∨ pins = [] := by
  by_cases htext : text = ""
  · subst htext
    have hnone : pinsFound "" pins = [] := by
      simp [pinsFound, PinItem.titleContains, CustomAnnotation.record]
    rw [hnone, pinsContaining_empty, eq_comm, List.map_eq_nil_iff]
    simp
  · refine iff_of_true ?_ (Or.inl htext)
    simp [pinsFound, pinsContaining, PinItem.titleContains, CustomAnnotation.record, htext]

structure Suggestions.MatchesText (pins : List <| CustomAnnotation D) (text : String)
    (s : Suggestions D) : Prop where
  pins : s.Pins = pinsContaining text pins
  pincount : s.pincount = s.Pins.length
  queryFragment : s.queryFragment = text

def Suggestions.MatchesBar (pins : List <| CustomAnnotation D) (s : Suggestions D) : Prop :=
  ∃ text, s.text = some text ∧ s.MatchesText pins text

/-- The suggestions are those of a search for the text. -/
structure Suggestions.SearchedFor (pins : List <| CustomAnnotation D) (text : String)
    (s : Suggestions D) : Prop where
  pins : s.Pins = pinsFound text pins
  pincount : s.pincount = s.Pins.length
  queryFragment : s.queryFragment = text

/-- The delegate searches for the text it finds, which is the one before the edit, and copies
every match. -/
theorem step_searchedFor {s : Suggestions D} {text : String} (hs : s.text = some text)
    (e : SearchEdit D) :
    ∃ t, e.step s = some t ∧ t.text = some (e.newText text) ∧ t.SearchedFor e.pins text := by
  have hcopy : (e.items.filter (PinItem.titleContains text)).mapM PinItem.pin =
      some (pinsFound text e.pins) := by
    rw [SearchEdit.items, List.filter_map, mapM_record pin_record]
    rfl
  have hcount : (e.items.filter (PinItem.titleContains text)).length =
      (pinsFound text e.pins).length := by
    rw [SearchEdit.items, List.filter_map, List.length_map, pinsFound, List.length_map]
    rfl
  have hstep : e.step s = some { s with
      text := some (e.newText text), queryFragment := text
      pincount := (e.items.filter (PinItem.titleContains text)).length
      Pins := pinsFound text e.pins } := by
    unfold SearchEdit.step Suggestions.edit Suggestions.shouldChangeTextIn
    rw [hs]
    dsimp only [Option.getD_some]
    rw [hcopy]
    rfl
  exact ⟨_, hstep, rfl, rfl, hcount, rfl⟩

/-- So the suggestions match the bar after an edit that leaves the text as it is, if that text is
one the query finds the titles of, and after no other. -/
theorem matchesBar_iff {pins : List <| CustomAnnotation D} {before after : String}
    {t : Suggestions D} (htext : t.text = some after) (ht : t.SearchedFor pins before) :
    t.MatchesBar pins ↔ after = before ∧ (before ≠ "" ∨ pins = []) := by
  rw [← pinsFound_eq_iff]
  constructor
  · intro h
    obtain ⟨text, hshown, hmatches⟩ := h
    have hbefore : before = text := ht.queryFragment.symm.trans hmatches.queryFragment
    have hafter : after = text := Option.some.inj (htext.symm.trans hshown)
    refine ⟨hafter.trans hbefore.symm, ?_⟩
    rw [← ht.pins, hmatches.pins, hbefore]
  · intro h
    obtain ⟨hafter, hfound⟩ := h
    subst hafter
    exact ⟨after, htext, ht.pins.trans hfound, ht.pincount, ht.queryFragment⟩

/-- The edits change the text as the user sees it, whatever the stores are. -/
theorem run_edits (es : List (SearchEdit D)) {s : Suggestions D} {text : String}
    (hs : s.text = some text) :
    ∃ t, Machine.run (fun s e => SearchEdit.step e s) s es = some t ∧
      t.text = some (es.foldl (fun text e => e.newText text) text) := by
  induction es generalizing s text with
  | nil => exact ⟨s, rfl, hs⟩
  | cons e es ih =>
    obtain ⟨u, hu, htext, _⟩ := step_searchedFor hs e
    obtain ⟨t, ht, hlast⟩ := ih htext
    refine ⟨t, ?_, hlast⟩
    rw [Machine.run_cons_of_step hu]
    exact ht

/-- From any text, after any edits over any stores, the suggestions match the text the bar shows
exactly when the last edit left the text as it was, and this is not "" or no pin is stored. -/
theorem suggestions_match_bar_iff (s : Suggestions D) (text : String)
    (es : List (SearchEdit D)) (e : SearchEdit D) :
    let before := es.foldl (fun text e => e.newText text) text
    ∃ t, Machine.run (fun s e => SearchEdit.step e s) { s with text := some text } (es ++ [e]) =
        some t ∧
      t.text = some (e.newText before) ∧
      (t.MatchesBar e.pins ↔ e.newText before = before ∧ (before ≠ "" ∨ e.pins = [])) := by
  intro before
  obtain ⟨u, hu, hbefore⟩ := run_edits es (s := { s with text := some text }) rfl
  obtain ⟨t, ht, hafter, hsearched⟩ := step_searchedFor hbefore e
  refine ⟨t, ?_, hafter, matchesBar_iff hafter hsearched⟩
  rw [Machine.run_append, hu, Option.bind_some, Machine.run_cons_of_step ht]
  rfl

/-- "b" is typed after "a": the bar shows "ab", and the pin "apple" is suggested. -/
theorem typed_letter_is_not_searched :
    let apple : CustomAnnotation WholeDegrees := ⟨⟨⟨35⟩, ⟨139⟩⟩, "apple", "", "apple.png"⟩
    let typed : SearchEdit WholeDegrees := ⟨[apple], ⟨1, 0⟩, "b"⟩
    ∃ t, typed.step { Suggestions.initial with text := some "a" } = some t ∧
      t.text = some "ab" ∧ t.Pins = [apple.pin] ∧ t.queryFragment = "a" ∧
      ¬ t.MatchesBar [apple] := by
  intro apple typed
  obtain ⟨t, ht, htext, hsearched⟩ :=
    step_searchedFor (s := { Suggestions.initial with text := some "a" }) rfl typed
  have hnew : typed.newText "a" = "ab" := by decide
  have hpins : pinsFound "a" [apple] = [apple.pin] := by decide
  refine ⟨t, ht, by rw [htext, hnew], by rw [hsearched.pins, hpins], hsearched.queryFragment, ?_⟩
  intro h
  have hsame := ((matchesBar_iff htext hsearched).mp h).1
  rw [hnew] at hsame
  exact absurd hsame (by decide)

end WatashiMap
