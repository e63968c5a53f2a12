import WatashiMap.Library.CommandLog
import WatashiMap.Pins.Atomic

namespace WatashiMap

open Keyed

variable {D F : Type} [SwiftDouble D]

abbrev PinCommand := Command (String × String) (Option String × Option String × Option String)

/-- What a completed operation commits to the pin store. -/
def Op.command (p : Process D F) : Op D F → Option PinCommand
  | .create => some (.put p.pinItem.coordinates p.pinItem.contents)
  | .deletePin => some (.erase p.vc.pincoordinate.strings)
  | .deleteAllPins => some .clear
  | _ => none

/-- What an event commits; a kill comes before or after the one transaction that writes pins. -/
def Event.commands (s : App D F) : Event D F → List PinCommand
  | .op o => ((s.process.bind fun p => o.command p)).toList
  | .killDuring o k => if 0 < k then (s.process.bind fun p => o.command p).toList else []
  | _ => []

theorem contents_injective :
    Function.Injective fun q : PinItem => (q.coordinates, q.contents) := by
  intro a b h
  cases a
  cases b
  simp_all [PinItem.coordinates, PinItem.contents]

theorem onPinMap_eq (p : Process D F) (o : Op D F) (m : PinMap) :
    o.onPinMap p m = (o.command p).toList.foldl Command.apply m := by
  cases o <;> rfl

theorem command_isSome (p : Process D F) (o : Op D F) :
    (o.command p).isSome = o.writesPins := by
  cases o <;> rfl

/-- The app together with what was committed to its pin store so far. -/
structure Logged (D F : Type) where
  app : App D F
  log : List PinCommand

variable [SwiftCGFloat F] [DecidableEq D]

namespace Logged

def step (screen : Screen) (s : Logged D F) (e : Event D F) : Option (Logged D F) :=
  (App.step screen s.app e).map fun t => ⟨t, s.log ++ e.commands s.app⟩

/-- The store is what its log stands for. -/
structure Replays (s : Logged D F) : Prop where
  unique : Unique PinItem.coordinates s.app.realm.pinItems
  pinMap : s.app.realm.pinMap = Command.replay s.log

omit [DecidableEq D] in
theorem replays_commit {r : Realm} {p : Process D F} {o : Op D F}
    (hu : Unique PinItem.coordinates r.pinItems) {log : List PinCommand}
    (hlog : r.pinMap = Command.replay log) :
    (Crash.commit (o.writes r p) r).pinMap =
      Command.replay (log ++ (o.command p).toList) := by
  rw [commit_writes_pinMap hu, onPinMap_eq, hlog, Command.replay_append]

theorem step_replays {screen : Screen} (s : Logged D F) (e : Event D F) (t : Logged D F)
    (hs : s.Replays) (h : s.step screen e = some t) : t.Replays := by
  obtain ⟨u, hu, rfl⟩ := Option.map_eq_some_iff.mp h
  refine ⟨step_unique s.app e u hs.unique hu, ?_⟩
  obtain ⟨⟨r, process⟩, log⟩ := s
  have hlog : r.pinMap = Command.replay log := hs.pinMap
  have hidle : r.pinMap = Command.replay (log ++ []) := by rw [List.append_nil, hlog]
  cases process with
  | none =>
    cases e with
    | launch =>
      obtain ⟨_, _, _, _, _, rfl⟩ := App.step_launch_iff.mp hu
      exact hidle
    | op | kill =>
      cases hu
      exact hidle
    | killDuring o k =>
      cases hu
      dsimp only [Event.commands]
      split_ifs <;> exact hidle
  | some p =>
    cases e with
    | launch | kill =>
      cases hu
      exact hidle
    | op o =>
      obtain ⟨q, _, rfl⟩ := App.step_op hu
      exact replays_commit hs.unique hlog
    | killDuring o k =>
      cases hu
      dsimp only [Event.commands]
      split_ifs with hk
      · cases ho : o.writesPins with
        | true =>
          rw [cut_writes_of_writesPins ho r p hk]
          exact replays_commit hs.unique hlog
        | false =>
          have hcommand : o.command p = none := by
            rw [← Option.not_isSome_iff_eq_none, command_isSome, ho]
            exact Bool.false_ne_true
          rw [Realm.pinMap, cut_writes_of_not_writesPins ho r p k, Option.bind_some, hcommand]
          exact hidle
      · rw [Nat.eq_zero_of_not_pos hk, Crash.cut_zero]
        exact hidle

theorem replays_of_run {screen : Screen} {es : List (Event D F)} {s : Logged D F}
    (h : Machine.run (step screen) ⟨App.installed, []⟩ es = some s) : s.Replays := by
  have hstart : Replays (⟨App.installed, []⟩ : Logged D F) := ⟨unique_nil PinItem.coordinates, rfl⟩
  exact (Machine.always_of_invariant step_replays hstart es).last h

/-- A record is stored exactly if a `Create` wrote it and no later command touched its
coordinates. -/
def StoresLastCommands (s : Logged D F) : Prop :=
  ∀ q : PinItem, q ∈ s.app.realm.pinItems ↔
    ∃ pre post, s.log = pre ++ .put q.coordinates q.contents :: post ∧
      ∀ c ∈ post, c.leaves q.coordinates = none

omit [SwiftDouble D] [SwiftCGFloat F] [DecidableEq D] in
theorem Replays.storesLastCommands {s : Logged D F} (h : s.Replays) : s.StoresLastCommands := by
  intro q
  have hmem := h.unique.mem_iff_lookup contents_injective (r := q)
  have hmap : toFinmap PinItem.coordinates PinItem.contents s.app.realm.pinItems =
      Command.replay s.log := h.pinMap
  rw [hmem, hmap, Command.lookup_replay, Command.last_eq_some_iff]

end Logged

/-- In every state of every run from an empty store, kills inside operations included, the stored
pins are those that were saved and whose coordinates no later save, deletion or clearing
touched. -/
theorem stored_iff_last_command (screen : Screen) (es : List (Event D F)) :
    Machine.Always (Logged.step screen) Logged.StoresLastCommands ⟨App.installed, []⟩ es := by
  have hstart : Logged.Replays (⟨App.installed, []⟩ : Logged D F) :=
    ⟨unique_nil PinItem.coordinates, rfl⟩
  exact (Machine.always_of_invariant Logged.step_replays hstart es).mono
    fun _ hs => hs.storesLastCommands

/-- Two runs, on whatever devices and in whatever order, leave the same pins exactly if at every
pair of coordinates the last command that touches it leaves the same. -/
theorem same_pins_iff_same_last_commands (screen screen' : Screen) (es fs : List (Event D F))
    (s t : Logged D F)
    (hs : Machine.run (Logged.step screen) ⟨App.installed, []⟩ es = some s)
    (ht : Machine.run (Logged.step screen') ⟨App.installed, []⟩ fs = some t) :
    s.app.realm.pinItems.Perm t.app.realm.pinItems ↔
      ∀ k, Command.last k s.log = Command.last k t.log := by
  have hs' := Logged.replays_of_run hs
  have ht' := Logged.replays_of_run ht
  have hsmap : toFinmap PinItem.coordinates PinItem.contents s.app.realm.pinItems =
      Command.replay s.log := hs'.pinMap
  have htmap : toFinmap PinItem.coordinates PinItem.contents t.app.realm.pinItems =
      Command.replay t.log := ht'.pinMap
  rw [hs'.unique.perm_iff ht'.unique contents_injective, hsmap, htmap, Command.replay_eq_iff]

/-- Two pins, saved in either order. -/
theorem saved_in_either_order :
    let screen : Screen := ⟨375, 667⟩
    let save (title : String) (x : WholeDegrees) : List (Event WholeDegrees SevenDecimals) :=
      [.op (.mapLongPressed ⟨x, x⟩), .op .showEditView, .op (.editTitle title), .op .create]
    let es := .launch :: (save "park" ⟨36⟩ ++ save "cafe" ⟨37⟩)
    let fs := .launch :: (save "cafe" ⟨37⟩ ++ save "park" ⟨36⟩)
    let pin (title : String) (x : WholeDegrees) : CustomAnnotation WholeDegrees :=
      ⟨⟨x, x⟩, title, "", "redpin-1.png"⟩
    ∃ s t, Machine.run (Logged.step screen) ⟨App.installed, []⟩ es = some s ∧
      Machine.run (Logged.step screen) ⟨App.installed, []⟩ fs = some t ∧
      s.app.realm.pinItems = [(pin "park" ⟨36⟩).record, (pin "cafe" ⟨37⟩).record] ∧
      t.app.realm.pinItems = [(pin "cafe" ⟨37⟩).record, (pin "park" ⟨36⟩).record] ∧
      s.app.realm.pinItems.Perm t.app.realm.pinItems ∧
      ∀ k, Command.last k s.log = Command.last k t.log := by
  intro screen save es fs pin
  have hes : (Machine.run (Logged.step screen) ⟨App.installed, []⟩ es).map
      (fun s => s.app.realm.pinItems) =
        some [(pin "park" ⟨36⟩).record, (pin "cafe" ⟨37⟩).record] := by decide
  have hfs : (Machine.run (Logged.step screen) ⟨App.installed, []⟩ fs).map
      (fun s => s.app.realm.pinItems) =
        some [(pin "cafe" ⟨37⟩).record, (pin "park" ⟨36⟩).record] := by decide
  obtain ⟨s, hs, hsitems⟩ := Option.map_eq_some_iff.mp hes
  obtain ⟨t, ht, htitems⟩ := Option.map_eq_some_iff.mp hfs
  have hperm : s.app.realm.pinItems.Perm t.app.realm.pinItems := by
    rw [hsitems, htitems]
    exact List.Perm.swap _ _ _
  exact ⟨s, t, hs, ht, hsitems, htitems, hperm,
    (same_pins_iff_same_last_commands screen screen es fs s t hs ht).mp hperm⟩

end WatashiMap
