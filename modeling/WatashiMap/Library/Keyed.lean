import Mathlib.Data.Finmap

namespace Keyed

variable {ρ μ κ ν : Type*}

/-- No two records carry one key. -/
def Unique (key : ρ → κ) (l : List ρ) : Prop := (l.map key).Nodup

theorem unique_nil (key : ρ → κ) : Unique key [] := List.nodup_nil

theorem Unique.sublist {key : ρ → κ} {l l' : List ρ} (h : Unique key l) (hs : l'.Sublist l) :
    Unique key l' :=
  List.Nodup.sublist (hs.map key) h

variable [DecidableEq κ]

/-- Drop every record under `k`. -/
def eraseKey (key : ρ → κ) (k : κ) (l : List ρ) : List ρ := l.filter fun r => key r ≠ k

/-- Drop the first record under the key of `r` and append `r`. -/
def replaceFirst (key : ρ → κ) (r : ρ) (l : List ρ) : List ρ :=
  l.eraseP (fun q => key q = key r) ++ [r]

/-- The finite map a list of records stands for. -/
def toFinmap (key : ρ → κ) (val : ρ → ν) (l : List ρ) : Finmap fun _ : κ => ν :=
  (l.map fun r => (⟨key r, val r⟩ : Σ _ : κ, ν)).toFinmap

variable {key : ρ → κ} {val : ρ → ν} {r : ρ} {l : List ρ}

theorem eraseKey_cons_of_eq {q : ρ} {k : κ} (hq : key q = k) :
    eraseKey key k (q :: l) = eraseKey key k l :=
  List.filter_cons_of_neg (by simpa using hq)

theorem eraseKey_cons_of_ne {q : ρ} {k : κ} (hq : key q ≠ k) :
    eraseKey key k (q :: l) = q :: eraseKey key k l :=
  List.filter_cons_of_pos (by simpa using hq)

theorem Unique.eraseKey (h : Unique key l) (k : κ) : Unique key (eraseKey key k l) :=
  h.sublist List.filter_sublist

/-- Under unique keys the first match is the only one. -/
theorem Unique.eraseP_eq (h : Unique key l) (k : κ) :
    l.eraseP (fun q => key q = k) = Keyed.eraseKey key k l := by
  induction l with
  | nil => rfl
  | cons q l ih =>
    have hn := List.nodup_cons.mp h
    by_cases hq : key q = k
    · have hrest : ∀ p ∈ l, key p ≠ k := by
        intro p hp hk
        exact hn.1 (List.mem_map.mpr ⟨p, hp, hk.trans hq.symm⟩)
      rw [List.eraseP_cons_of_pos (by simpa using hq), eraseKey_cons_of_eq hq]
      exact (List.filter_eq_self.mpr (by simpa using hrest)).symm
    · rw [List.eraseP_cons_of_neg (by simpa using hq), ih hn.2, eraseKey_cons_of_ne hq]

/-- Looking up the key of a record finds the record. -/
theorem Unique.find?_eq (h : Unique key l) (hr : r ∈ l) :
    l.find? (fun q => key q = key r) = some r := by
  have hsome : (l.find? fun q => key q = key r).isSome := by
    rw [List.find?_isSome]
    exact ⟨r, hr, decide_eq_true rfl⟩
  obtain ⟨q, hq⟩ := Option.isSome_iff_exists.mp hsome
  have hkey : key q = key r := by simpa using List.find?_some hq
  rw [hq, List.inj_on_of_nodup_map h (List.mem_of_find?_eq_some hq) hr hkey]

theorem Unique.replaceFirst_eq (h : Unique key l) (r : ρ) :
    Keyed.replaceFirst key r l = Keyed.eraseKey key (key r) l ++ [r] := by
  rw [Keyed.replaceFirst, h.eraseP_eq]

theorem Unique.replaceFirst (h : Unique key l) (r : ρ) :
    Unique key (Keyed.replaceFirst key r l) := by
  rw [h.replaceFirst_eq, Unique, List.map_append, List.nodup_append]
  refine ⟨h.eraseKey (key r), List.nodup_singleton _, ?_⟩
  intro a ha b hb hab
  obtain ⟨q, hq, rfl⟩ := List.mem_map.mp ha
  have hk : key q ≠ key r := by simpa using (List.mem_filter.mp hq).2
  exact hk (hab.trans (by simpa using hb))

theorem mem_replaceFirst {q : ρ} (h : q ∈ replaceFirst key r l) : q ∈ l ∨ q = r := by
  rcases List.mem_append.mp h with h | h
  · exact Or.inl (List.mem_of_mem_eraseP h)
  · exact Or.inr (List.mem_singleton.mp h)

/-- Deleting the first match as an object deletes it by position. -/
theorem erase_first_match [DecidableEq ρ] {p : ρ → Bool} {q : ρ} (h : l.find? p = some q) :
    l.erase q = l.eraseP p := by
  induction l with
  | nil => simp at h
  | cons a l ih =>
    by_cases ha : p a
    · have hq : a = q := by simpa [List.find?_cons_of_pos ha] using h
      subst q
      rw [List.erase_cons_head, List.eraseP_cons_of_pos ha]
    · rw [List.find?_cons_of_neg ha] at h
      have hne : a ≠ q := by
        intro he
        subst q
        exact ha (List.find?_some h)
      rw [List.erase_cons_tail (by simpa using hne), List.eraseP_cons_of_neg ha, ih h]

theorem eraseP_of_no_match {p : ρ → Bool} (h : l.find? p = none) : l.eraseP p = l :=
  List.eraseP_of_forall_not (by simpa using h)

/-- Replacing under a key changes nothing exactly when the record is there already. -/
theorem Unique.replaceFirst_perm_iff [DecidableEq ρ] (h : Unique key l) (r : ρ) :
    (Keyed.replaceFirst key r l).Perm l ↔ r ∈ l := by
  constructor
  · intro hperm
    exact hperm.mem_iff.mp (List.mem_append_right _ (List.mem_singleton_self r))
  · intro hr
    have herase : l.erase r = l.eraseP fun q => key q = key r := erase_first_match (h.find?_eq hr)
    rw [Keyed.replaceFirst, ← herase]
    exact (List.perm_append_singleton r _).trans (List.perm_cons_erase hr).symm

theorem lookup_toFinmap (k : κ) (l : List ρ) :
    (toFinmap key val l).lookup k = (l.find? fun q => key q = k).map val := by
  rw [toFinmap, Finmap.dlookup_list_toFinmap]
  induction l with
  | nil => rfl
  | cons q l ih =>
    by_cases hq : key q = k
    · subst k
      simp
    · rw [List.map_cons, List.dlookup_cons_ne _ _ (Ne.symm hq), ih,
        List.find?_cons_of_neg (by simpa using hq)]

theorem lookup_eraseKey_ne {k k' : κ} (h : k' ≠ k) (l : List ρ) :
    (eraseKey key k l).find? (fun q => key q = k') = l.find? fun q => key q = k' := by
  rw [eraseKey, List.find?_filter]
  congr 1
  funext q
  by_cases hq : key q = k'
  · simp [hq, h]
  · simp [hq]

theorem toFinmap_eraseKey (k : κ) (l : List ρ) :
    toFinmap key val (eraseKey key k l) = (toFinmap key val l).erase k := by
  apply Finmap.ext_lookup
  intro k'
  rw [lookup_toFinmap]
  by_cases hk : k' = k
  · subst k'
    rw [Finmap.lookup_erase, List.find?_eq_none.mpr]
    · rfl
    · intro q hq
      simpa using (List.mem_filter.mp hq).2
  · rw [Finmap.lookup_erase_ne hk, lookup_toFinmap, lookup_eraseKey_ne hk]

/-- Deleting the first match and appending is insert-or-replace, once keys are unique. -/
theorem toFinmap_replaceFirst (h : Unique key l) (r : ρ) :
    toFinmap key val (replaceFirst key r l) = (toFinmap key val l).insert (key r) (val r) := by
  apply Finmap.ext_lookup
  intro k
  rw [h.replaceFirst_eq, lookup_toFinmap, List.find?_append]
  by_cases hk : k = key r
  · subst k
    have hnone : (eraseKey key (key r) l).find? (fun q => key q = key r) = none := by
      rw [List.find?_eq_none]
      intro q hq
      simpa using (List.mem_filter.mp hq).2
    rw [hnone, Finmap.lookup_insert]
    simp
  · rw [Finmap.lookup_insert_of_ne _ hk, lookup_toFinmap, lookup_eraseKey_ne hk]
    simp [Ne.symm hk]

/-- `m` shows exactly the records of `l`, in any order, through `f`. -/
def Mirrors (f : μ → ρ) (m : List μ) (l : List ρ) : Prop := (m.map f).Perm l

theorem mirrors_nil (f : μ → ρ) : Mirrors f [] [] := List.Perm.nil

/-- Dropping by a test that reads the key keeps the mirror. -/
theorem Mirrors.eraseKey {f : μ → ρ} {m : List μ} (h : Mirrors f m l) {p : μ → Bool} {k : κ}
    (hp : ∀ a, p a = decide (key (f a) ≠ k)) :
    Mirrors f (m.filter p) (Keyed.eraseKey key k l) := by
  have hf : p = (fun q => decide (key q ≠ k)) ∘ f := funext hp
  rw [Mirrors, hf, ← List.filter_map]
  exact h.filter _

theorem Mirrors.replaceFirst {f : μ → ρ} {m : List μ} (h : Mirrors f m l)
    (hu : Unique key l) {p : μ → Bool} {a : μ} (hp : ∀ b, p b = decide (key (f b) ≠ key (f a))) :
    Mirrors f (m.filter p ++ [a]) (Keyed.replaceFirst key (f a) l) := by
  rw [hu.replaceFirst_eq, Mirrors, List.map_append]
  exact (h.eraseKey hp).append (List.Perm.refl _)

end Keyed
