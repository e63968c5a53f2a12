import WatashiMap.Library.LastWrite
import WatashiMap.Model.App

namespace WatashiMap

variable {D F α : Type}

/-- What a completed event writes to a part of the running process: a launch `start`, an operation
what `onOp` says; with the process the part is gone. -/
def App.written (start : α) (onOp : Process D F → Op D F → Option α) :
    App D F × Event D F → Option (Option α)
  | (s, .launch) => if s.process.isNone then some (some start) else none
  | (s, .op o) => s.process.bind fun p => (onOp p o).map some
  | (_, .killDuring _ _) | (_, .kill) => some none

theorem exists_of_rel_some {β : Type} {R : α → β → Prop} {a : Option α} {b : β}
    (h : Option.Rel R a (some b)) : ∃ x, a = some x ∧ R x b := by
  cases h with
  | some hab => exact ⟨_, rfl, hab⟩

theorem map_of_rel {β : Type} {read : β → α} {a : Option α} {b : Option β}
    (h : Option.Rel (fun a b => read b = a) a b) : b.map read = a := by
  cases h with
  | none => rfl
  | some hab => exact congrArg some hab

variable [SwiftDouble D] [SwiftCGFloat F] [DecidableEq D]

/-- What an operation writes as `onOp` says stays related to the process through every run, if it
does through every operation. -/
theorem App.related_of_run {screen : Screen} {R : α → Process D F → Prop} {start : α}
    {onOp : Process D F → Op D F → Option α}
    (launch : ∀ u vc items, ViewController.initial.viewDidLoad items = some vc → R start ⟨u, vc⟩)
    (op : ∀ a r p o q, R a p → Op.perform screen r p o = some q → R ((onOp p o).getD a) q)
    {es : List (Event D F)} {a : Option α} {s t : App D F} (hs : Option.Rel R a s.process)
    (h : Machine.run (App.step screen) s es = some t) :
    Option.Rel R (LastWrite.value (App.written start onOp) a (Machine.trace (App.step screen) s es))
      t.process := by
  have hstep : ∀ (a : Option α) (s : App D F) (e : Event D F) t, Option.Rel R a s.process →
      App.step screen s e = some t →
      Option.Rel R ((App.written start onOp (s, e)).getD a) t.process := by
    intro a s e t hs ht
    obtain ⟨r, process⟩ := s
    cases hs with
    | none =>
      cases e with
      | launch =>
        obtain ⟨u, vc, _, _, hvc, rfl⟩ := App.step_launch_iff.mp ht
        exact .some (launch u vc r.pinItems hvc)
      | op | killDuring | kill =>
        cases ht
        exact .none
    | @some a p hap =>
      cases e with
      | op o =>
        obtain ⟨q, hq, rfl⟩ := App.step_op ht
        have hwritten : (App.written start onOp ((⟨r, some p⟩ : App D F), .op o)).getD (some a) =
            some ((onOp p o).getD a) := by
          dsimp only [App.written, Option.bind_some]
          cases onOp p o <;> rfl
        rw [hwritten]
        exact .some (op a r p o q hap hq)
      | launch =>
        cases ht
        exact .some hap
      | killDuring | kill =>
        cases ht
        exact .none
  exact LastWrite.related_of_trace hstep hs h

/-- A part of the process that every operation writes as `onOp` says is what the last write of the
run left. -/
theorem App.value_of_run {screen : Screen} {read : Process D F → α} {start : α}
    {onOp : Process D F → Op D F → Option α}
    (launch : ∀ u vc items, ViewController.initial.viewDidLoad items = some vc →
      read ⟨u, vc⟩ = start)
    (op : ∀ r p o q, Op.perform screen r p o = some q → read q = (onOp p o).getD (read p))
    {es : List (Event D F)} {r : Realm} {t : App D F}
    (h : Machine.run (App.step screen) ⟨r, none⟩ es = some t) :
    t.process.map read = LastWrite.value (App.written start onOp) none
      (Machine.trace (App.step screen) ⟨r, none⟩ es) := by
  have hop : ∀ a r p o q, read p = a → Op.perform screen r p o = some q →
      read q = (onOp p o).getD a := by
    intro a r p o q ha hq
    rw [op r p o q hq, ha]
  exact map_of_rel (App.related_of_run (R := fun a p => read p = a) launch hop .none h)

end WatashiMap
