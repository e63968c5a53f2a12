import WatashiMap.Library.Keyed

/-- Objects that live until they are released. Each has a number of its own, drawn in order. -/
structure Pool (α : Type*) where
  next : Nat
  live : List (Nat × α)
  fresh : ∀ e ∈ live, e.1 < next
  unique : Keyed.Unique Prod.fst live

namespace Pool

variable {α : Type*}

/-- No object lives, and the numbers below `n` are used up. -/
def empty (n : Nat) : Pool α :=
  ⟨n, [], fun _ he => absurd he List.not_mem_nil, Keyed.unique_nil Prod.fst⟩

/-- A new object; its number is the pool's `next`. -/
def acquire (a : α) (p : Pool α) : Pool α where
  next := p.next + 1
  live := p.live ++ [(p.next, a)]
  fresh := by
    intro e he
    rcases List.mem_append.mp he with he | he
    · exact Nat.lt_succ_of_lt (p.fresh e he)
    · rw [List.mem_singleton.mp he]
      exact Nat.lt_succ_self p.next
  unique := by
    rw [Keyed.Unique, List.map_append, List.nodup_append]
    refine ⟨p.unique, List.nodup_singleton _, ?_⟩
    intro k hk l hl
    obtain ⟨e, he, rfl⟩ := List.mem_map.mp hk
    rw [List.mem_singleton.mp hl]
    exact Nat.ne_of_lt (p.fresh e he)

/-- The end of the object with this number, if there is one. -/
def release (k : Option Nat) (p : Pool α) : Pool α where
  next := p.next
  live := p.live.filter fun e => some e.1 ≠ k
  fresh e he := p.fresh e (List.mem_of_mem_filter he)
  unique := p.unique.sublist List.filter_sublist

theorem live_acquire (a : α) (p : Pool α) : (p.acquire a).live = p.live ++ [(p.next, a)] := rfl

theorem live_release (k : Option Nat) (p : Pool α) :
    (p.release k).live = p.live.filter fun e => some e.1 ≠ k := rfl

theorem mem_acquire {a : α} {p : Pool α} {e : Nat × α} :
    e ∈ (p.acquire a).live ↔ e ∈ p.live ∨ e = (p.next, a) := by
  rw [live_acquire, List.mem_append, List.mem_singleton]

theorem mem_release {k : Option Nat} {p : Pool α} {e : Nat × α} :
    e ∈ (p.release k).live ↔ e ∈ p.live ∧ some e.1 ≠ k := by
  rw [live_release, List.mem_filter, decide_eq_true_iff]

theorem ne_next {p : Pool α} {e : Nat × α} (h : e ∈ p.live) : e.1 ≠ p.next :=
  Nat.ne_of_lt (p.fresh e h)

theorem eq_of_number {p : Pool α} {e f : Nat × α} (he : e ∈ p.live) (hf : f ∈ p.live)
    (h : e.1 = f.1) : e = f :=
  List.inj_on_of_nodup_map p.unique he hf h

theorem countP_eq_one {p : Pool α} {e : Nat × α} (he : e ∈ p.live) {P : Nat × α → Bool}
    (h : ∀ f ∈ p.live, P f = true ↔ f = e) : p.live.countP P = 1 := by
  classical
  have hnodup : p.live.Nodup := List.Nodup.of_map Prod.fst p.unique
  rw [← List.count_eq_one_of_mem hnodup he, List.count]
  apply List.countP_congr
  intro f hf
  rw [h f hf, beq_iff_eq]

/-- A release takes one object out of the list and leaves the rest in order. -/
theorem exists_release_live {p : Pool α} {e : Nat × α} (he : e ∈ p.live) :
    ∃ before after, p.live = before ++ e :: after ∧
      (p.release (some e.1)).live = before ++ after := by
  obtain ⟨before, after, hlive⟩ := List.append_of_mem he
  have hnodup : (before.map Prod.fst ++ e.1 :: after.map Prod.fst).Nodup := by
    have h := p.unique
    rwa [Keyed.Unique, hlive, List.map_append, List.map_cons] at h
  obtain ⟨_, hafter, hbefore⟩ := List.nodup_append.mp hnodup
  have hkeep : ∀ f ∈ before ++ after, some f.1 ≠ some e.1 := by
    intro f hf heq
    rw [Option.some.injEq] at heq
    rcases List.mem_append.mp hf with hf | hf
    · exact hbefore f.1 (List.mem_map_of_mem hf) e.1 List.mem_cons_self heq
    · rw [← heq] at hafter
      exact (List.nodup_cons.mp hafter).1 (List.mem_map_of_mem hf)
  refine ⟨before, after, hlive, ?_⟩
  rw [live_release, hlive, List.filter_append, List.filter_cons_of_neg (by simp),
    ← List.filter_append]
  exact List.filter_eq_self.mpr fun f hf => decide_eq_true (hkeep f hf)

variable {ι : Type*}

/-- How the live objects are held: `own i` is the number of the one owner `i` holds; the others
went through a slot that all owners share, `n` of them were overwritten there, and `inSlot` says
whether the one in the slot lives. `ownerOf` is `none` for an object that went through the shared
slot. -/
structure Slots (ownerOf : α → Option ι) (own : ι → Option Nat) (shared : Option Nat)
    (inSlot : Bool) (n : Nat) (p : Pool α) : Prop where
  own_of_live : ∀ e ∈ p.live, ∀ i, ownerOf e.2 = some i → own i = some e.1
  live_of_own : ∀ i k, own i = some k → ∃ a, (k, a) ∈ p.live ∧ ownerOf a = some i
  count : (p.live.filter fun e => ownerOf e.2 = none).length = n + inSlot.toNat
  shared_lt : ∀ k, shared = some k → k < p.next
  of_shared : ∀ e ∈ p.live, some e.1 = shared → ownerOf e.2 = none ∧ inSlot = true
  slot_live : inSlot = true → ∃ e ∈ p.live, some e.1 = shared

variable {ownerOf : α → Option ι} {own : ι → Option Nat} {shared : Option Nat} {inSlot : Bool}
  {n : Nat} {p : Pool α}

theorem slots_empty (first : Nat) :
    (empty first : Pool α).Slots ownerOf (fun _ => none) none false 0 where
  own_of_live _ he := absurd he List.not_mem_nil
  live_of_own _ _ h := absurd h (Option.some_ne_none _).symm
  count := rfl
  shared_lt _ h := absurd h (Option.some_ne_none _).symm
  of_shared _ he := absurd he List.not_mem_nil
  slot_live h := absurd h Bool.false_ne_true

theorem Slots.ne_own_of_shared (h : p.Slots ownerOf own shared inSlot n) {e : Nat × α}
    (he : e ∈ p.live) (hshared : ownerOf e.2 = none) (i : ι) : some e.1 ≠ own i := by
  intro hi
  obtain ⟨a, ha, hai⟩ := h.live_of_own i e.1 hi.symm
  have hea : e = (e.1, a) := eq_of_number he ha rfl
  rw [hea, hai] at hshared
  cases hshared

theorem Slots.acquire_own [DecidableEq ι] (h : p.Slots ownerOf own shared inSlot n) {i : ι} {a : α}
    (hi : own i = none) (ha : ownerOf a = some i) :
    (p.acquire a).Slots ownerOf (Function.update own i (some p.next)) shared inSlot n where
  own_of_live := by
    intro e he j hj
    rcases mem_acquire.mp he with he | rfl
    · have hown := h.own_of_live e he j hj
      have hne : j ≠ i := by
        intro hji
        rw [hji, hi] at hown
        cases hown
      rw [Function.update_of_ne hne, hown]
    · have hij : i = j := Option.some.inj (ha.symm.trans hj)
      rw [← hij, Function.update_self]
  live_of_own := by
    intro j k hj
    by_cases hji : j = i
    · rw [hji, Function.update_self] at hj
      refine ⟨a, mem_acquire.mpr (Or.inr ?_), hji ▸ ha⟩
      rw [Option.some.inj hj]
    · rw [Function.update_of_ne hji] at hj
      obtain ⟨b, hb, hbj⟩ := h.live_of_own j k hj
      exact ⟨b, mem_acquire.mpr (Or.inl hb), hbj⟩
  count := by
    rw [live_acquire, List.filter_append, List.length_append, h.count]
    simp [ha]
  shared_lt k hk := Nat.lt_succ_of_lt (h.shared_lt k hk)
  of_shared := by
    intro e he hshared
    rcases mem_acquire.mp he with he | rfl
    · exact h.of_shared e he hshared
    · exact absurd (h.shared_lt _ hshared.symm) (Nat.lt_irrefl _)
  slot_live hin := by
    obtain ⟨e, he, hslot⟩ := h.slot_live hin
    exact ⟨e, mem_acquire.mpr (Or.inl he), hslot⟩

theorem Slots.release_own [DecidableEq ι] (h : p.Slots ownerOf own shared inSlot n) (i : ι) :
    (p.release (own i)).Slots ownerOf (Function.update own i none) shared inSlot n where
  own_of_live := by
    intro e he j hj
    obtain ⟨he, hkept⟩ := mem_release.mp he
    have hown := h.own_of_live e he j hj
    have hne : j ≠ i := by
      intro hji
      rw [hji] at hown
      exact hkept hown.symm
    rw [Function.update_of_ne hne, hown]
  live_of_own := by
    intro j k hj
    by_cases hji : j = i
    · rw [hji, Function.update_self] at hj
      cases hj
    · rw [Function.update_of_ne hji] at hj
      obtain ⟨b, hb, hbj⟩ := h.live_of_own j k hj
      refine ⟨b, mem_release.mpr ⟨hb, ?_⟩, hbj⟩
      intro hi
      -- the object would have two owners
      obtain ⟨c, hc, hci⟩ := h.live_of_own i k hi.symm
      have hbc : b = c := congrArg Prod.snd (eq_of_number hb hc rfl)
      rw [hbc, hci] at hbj
      exact hji (Option.some.inj hbj).symm
  count := by
    rw [← h.count, live_release, List.filter_filter]
    congr 1
    apply List.filter_congr
    intro e he
    simpa using fun hshared : ownerOf e.2 = none => h.ne_own_of_shared he hshared i
  shared_lt := h.shared_lt
  of_shared e he := h.of_shared e (mem_release.mp he).1
  slot_live hin := by
    obtain ⟨e, he, hslot⟩ := h.slot_live hin
    obtain ⟨hshared, _⟩ := h.of_shared e he hslot
    exact ⟨e, mem_release.mpr ⟨he, h.ne_own_of_shared he hshared i⟩, hslot⟩

/-- A new object goes into the shared slot, whatever was in it. -/
theorem Slots.acquire_shared (h : p.Slots ownerOf own shared inSlot n) {a : α}
    (ha : ownerOf a = none) :
    (p.acquire a).Slots ownerOf own (some p.next) true (n + inSlot.toNat) where
  own_of_live := by
    intro e he j hj
    rcases mem_acquire.mp he with he | rfl
    · exact h.own_of_live e he j hj
    · rw [ha] at hj
      cases hj
  live_of_own := by
    intro j k hj
    obtain ⟨b, hb, hbj⟩ := h.live_of_own j k hj
    exact ⟨b, mem_acquire.mpr (Or.inl hb), hbj⟩
  count := by
    rw [live_acquire, List.filter_append, List.length_append, h.count]
    simp [ha]
  shared_lt k hk := by
    rw [← Option.some.inj hk]
    exact Nat.lt_succ_self p.next
  of_shared := by
    intro e he hshared
    rcases mem_acquire.mp he with he | rfl
    · exact absurd (Option.some.inj hshared) (ne_next he)
    · exact ⟨ha, rfl⟩
  slot_live _ := ⟨(p.next, a), mem_acquire.mpr (Or.inr rfl), rfl⟩

/-- The object in the shared slot is released; its number stays there. -/
theorem Slots.release_shared (h : p.Slots ownerOf own shared inSlot n) :
    (p.release shared).Slots ownerOf own shared false n where
  own_of_live e he := h.own_of_live e (mem_release.mp he).1
  live_of_own := by
    intro j k hj
    obtain ⟨b, hb, hbj⟩ := h.live_of_own j k hj
    refine ⟨b, mem_release.mpr ⟨hb, ?_⟩, hbj⟩
    intro hshared
    obtain ⟨hnone, _⟩ := h.of_shared _ hb hshared
    rw [hbj] at hnone
    cases hnone
  count := by
    cases inSlot with
    | false =>
      have hlive : (p.release shared).live = p.live := by
        refine List.filter_eq_self.mpr fun e he => decide_eq_true ?_
        intro hshared
        exact Bool.false_ne_true (h.of_shared e he hshared).2
      rw [hlive]
      exact h.count
    | true =>
      obtain ⟨e, he, hslot⟩ := h.slot_live rfl
      obtain ⟨hnone, _⟩ := h.of_shared e he hslot
      obtain ⟨before, after, hlive, hrelease⟩ := exists_release_live he
      have hcount := h.count
      rw [hlive, List.filter_append, List.filter_cons_of_pos (by simpa using hnone),
        List.length_append, List.length_cons, Bool.toNat_true] at hcount
      rw [← hslot, hrelease, List.filter_append, List.length_append, Bool.toNat_false]
      omega
  shared_lt := h.shared_lt
  of_shared e he hshared := absurd hshared (mem_release.mp he).2
  slot_live hin := absurd hin Bool.false_ne_true

/-- With nothing alive in the shared slot, nothing lives at all exactly when no owner holds an
object and none was overwritten in the slot. -/
theorem Slots.live_eq_nil_iff (h : p.Slots ownerOf own shared false n) :
    p.live = [] ↔ (∀ i, own i = none) ∧ n = 0 := by
  have hcount := h.count
  rw [Bool.toNat_false, Nat.add_zero] at hcount
  constructor
  · intro hnil
    rw [hnil] at hcount
    refine ⟨fun i => ?_, hcount.symm⟩
    cases hi : own i with
    | none => rfl
    | some k =>
      obtain ⟨a, ha, _⟩ := h.live_of_own i k hi
      rw [hnil] at ha
      exact absurd ha List.not_mem_nil
  · intro hnone
    obtain ⟨hown, hn⟩ := hnone
    rw [hn, List.length_eq_zero_iff, List.filter_eq_nil_iff] at hcount
    apply List.eq_nil_iff_forall_not_mem.mpr
    intro e he
    cases hi : ownerOf e.2 with
    | none => exact hcount e he (decide_eq_true hi)
    | some i =>
      have hsome := h.own_of_live e he i hi
      rw [hown i] at hsome
      cases hsome

end Pool
