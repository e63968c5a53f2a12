import WatashiMap.Library.Keyed
import WatashiMap.Library.LastWrite

namespace Keyed

variable {ρ κ ν : Type*}

/-- What can be done to a keyed store. -/
inductive Command (κ ν : Type*) where
  | put (k : κ) (v : ν)
  | erase (k : κ)
  | clear
  deriving DecidableEq

namespace Command

variable [DecidableEq κ]

def apply (m : Finmap fun _ : κ => ν) : Command κ ν → Finmap fun _ : κ => ν
  | .put k v => m.insert k v
  | .erase k => m.erase k
  | .clear => ∅

/-- The store a log stands for. -/
def replay (log : List (Command κ ν)) : Finmap fun _ : κ => ν := log.foldl apply ∅

/-- What a command leaves at a key, if it touches the key. -/
def leaves (k : κ) : Command κ ν → Option (Option ν)
  | .put k' v => if k' = k then some (some v) else none
  | .erase k' => if k' = k then some none else none
  | .clear => some none

/-- What the last command that touches the key leaves there. -/
def last (k : κ) (log : List (Command κ ν)) : Option ν := LastWrite.value (leaves k) none log

theorem leaves_eq_some_some {k : κ} {v : ν} {c : Command κ ν} :
    c.leaves k = some (some v) ↔ c = .put k v := by
  cases c with
  | put k' v' => simp [leaves]
  | erase k' => simp [leaves]
  | clear => simp [leaves]

theorem lookup_apply (c : Command κ ν) (m : Finmap fun _ : κ => ν) (k : κ) :
    (apply m c).lookup k = (c.leaves k).getD (m.lookup k) := by
  cases c with
  | put k' v =>
    by_cases hk : k' = k
    · subst k'
      simp [apply, leaves]
    · simp [apply, leaves, hk, Finmap.lookup_insert_of_ne _ (Ne.symm hk)]
  | erase k' =>
    by_cases hk : k' = k
    · subst k'
      simp [apply, leaves]
    · simp [apply, leaves, hk, Finmap.lookup_erase_ne (Ne.symm hk)]
  | clear => simp [apply, leaves]

theorem lookup_foldl (log : List (Command κ ν)) (m : Finmap fun _ : κ => ν) (k : κ) :
    (log.foldl apply m).lookup k = LastWrite.value (leaves k) (m.lookup k) log := by
  induction log generalizing m with
  | nil => rfl
  | cons c log ih => rw [List.foldl_cons, ih, LastWrite.value_cons, lookup_apply]

@[simp] theorem lookup_replay (log : List (Command κ ν)) (k : κ) :
    (replay log).lookup k = last k log := by
  rw [replay, lookup_foldl, Finmap.lookup_empty, last]

@[simp] theorem replay_append (log new : List (Command κ ν)) :
    replay (log ++ new) = new.foldl apply (replay log) := List.foldl_append

/-- A value is there exactly if it was put there and its key was not touched since. -/
theorem last_eq_some_iff {k : κ} {v : ν} {log : List (Command κ ν)} :
    last k log = some v ↔
      ∃ pre post, log = pre ++ .put k v :: post ∧ ∀ c ∈ post, c.leaves k = none := by
  constructor
  · intro h
    rcases LastWrite.value_cases (leaves k) none log with
      ⟨_, hvalue⟩ | ⟨pre, c, post, w, rfl, hc, hpost, hvalue⟩
    · rw [last, hvalue] at h
      cases h
    · rw [last, hvalue] at h
      subst h
      rw [leaves_eq_some_some.mp hc]
      exact ⟨pre, post, rfl, hpost⟩
  · intro h
    obtain ⟨pre, post, rfl, hpost⟩ := h
    exact LastWrite.value_split (leaves_eq_some_some.mpr rfl) hpost none pre

/-- Logs stand for one store exactly if their last commands leave the same at every key. -/
theorem replay_eq_iff {log log' : List (Command κ ν)} :
    replay log = replay log' ↔ ∀ k, last k log = last k log' := by
  constructor
  · intro h k
    rw [← lookup_replay, h, lookup_replay]
  · intro h
    apply Finmap.ext_lookup
    intro k
    rw [lookup_replay, lookup_replay, h]

end Command

section

variable {key : ρ → κ} {val : ρ → ν} {l l' : List ρ} [DecidableEq κ]

theorem Unique.lookup_eq_some_iff (h : Unique key l) {k : κ} {v : ν} :
    (toFinmap key val l).lookup k = some v ↔ ∃ r ∈ l, key r = k ∧ val r = v := by
  rw [lookup_toFinmap]
  constructor
  · intro hk
    obtain ⟨r, hr, hval⟩ := Option.map_eq_some_iff.mp hk
    have hkey : key r = k := by simpa using List.find?_some hr
    exact ⟨r, List.mem_of_find?_eq_some hr, hkey, hval⟩
  · intro hk
    obtain ⟨r, hr, rfl, rfl⟩ := hk
    rw [h.find?_eq hr, Option.map_some]

/-- Where key and value make up the record, a record is there exactly if its value is found under
its key. -/
theorem Unique.mem_iff_lookup (h : Unique key l)
    (hinj : Function.Injective fun r => (key r, val r)) {r : ρ} :
    r ∈ l ↔ (toFinmap key val l).lookup (key r) = some (val r) := by
  rw [h.lookup_eq_some_iff]
  constructor
  · intro hr
    exact ⟨r, hr, rfl, rfl⟩
  · intro hr
    obtain ⟨q, hq, hkey, hval⟩ := hr
    rwa [← hinj (Prod.ext hkey hval)]

/-- Lists with unique keys have the same records exactly if they stand for one map. -/
theorem Unique.perm_iff (h : Unique key l) (h' : Unique key l')
    (hinj : Function.Injective fun r => (key r, val r)) :
    l.Perm l' ↔ toFinmap key val l = toFinmap key val l' := by
  constructor
  · intro hperm
    apply Finmap.ext_lookup
    intro k
    apply Option.ext
    intro v
    rw [h.lookup_eq_some_iff, h'.lookup_eq_some_iff]
    simp only [hperm.mem_iff]
  · intro hmap
    have hmem : ∀ r, r ∈ l ↔ r ∈ l' := by
      intro r
      rw [h.mem_iff_lookup hinj, h'.mem_iff_lookup hinj, hmap]
    exact (List.perm_ext_iff_of_nodup h.of_map h'.of_map).mpr hmem

end

end Keyed
