import CoroEpoll.Library.Retry
import CoroEpoll.Library.Transition

/-! An operation that is called again and again, each call a loop over one non-blocking
call of the system. The system answers each non-blocking call as it likes within what it
allows, and wakes a waiting operation when it likes.
-/

set_option autoImplicit false

namespace Calls

open Retry (Next)

inductive Phase where
  /-- between two calls of the operation -/
  | idle
  /-- at the non-blocking call -/
  | running
  /-- waiting until the non-blocking call may succeed -/
  | suspended
  deriving DecidableEq, Repr

/-- The state `σ` holds the variables of the call in progress and what the calls share. -/
structure Op (σ Arg Out : Type) where
  /-- what a call does before its loop; `none` when the caller makes no such call -/
  begin : σ → Arg → Option (Next σ σ)
  /-- the result of leaving at the head of the loop, where it is left -/
  exit : σ → Option σ
  /-- the answers that the system may give -/
  allowed : σ → Out → Bool
  body : σ → Out → Next σ σ

inductive Act (Arg Out : Type) where
  | call (arg : Arg)
  | answer (out : Out)
  | ready
  deriving DecidableEq, Repr

def answers {Arg Out : Type} : List (Act Arg Out) → List Out
  | [] => []
  | .answer out :: rest => out :: answers rest
  | .call _ :: rest | .ready :: rest => answers rest

theorem answers_cons {Arg Out : Type} (a : Act Arg Out) (rest : List (Act Arg Out)) :
    answers (a :: rest) = answers [a] ++ answers rest := by
  cases a <;> rfl

structure World (σ : Type) where
  phase : Phase
  state : σ
  deriving DecidableEq, Repr

variable {σ Arg Out : Type} (op : Op σ Arg Out)

namespace Op

def head (s : σ) : World σ :=
  match op.exit s with
  | none => ⟨.running, s⟩
  | some s => ⟨.idle, s⟩

def land : Next σ σ → World σ
  | .again s => op.head s
  | .suspend s => ⟨.suspended, s⟩
  | .finish s => ⟨.idle, s⟩

def step (w : World σ) : Act Arg Out → Option (World σ)
  | .call arg => if w.phase = .idle then (op.begin w.state arg).map op.land else none
  | .answer out =>
    if w.phase = .running ∧ op.allowed w.state out then some (op.land (op.body w.state out)) else none
  | .ready => if w.phase = .suspended then some (op.head w.state) else none

def machine (initial : σ → Prop) : Transition.Machine (World σ) (Act Arg Out) where
  start w := w.phase = .idle ∧ initial w.state
  step := op.step

inductive Moves (w : World σ) : Act Arg Out → World σ → Prop where
  | call (arg : Arg) (next : Next σ σ) : w.phase = .idle → op.begin w.state arg = some next →
      Moves w (.call arg) (op.land next)
  | answer (out : Out) : w.phase = .running → op.allowed w.state out = true →
      Moves w (.answer out) (op.land (op.body w.state out))
  | ready : w.phase = .suspended → Moves w .ready (op.head w.state)

structure Holds (between inside : σ → Prop) (w : World σ) : Prop where
  idle : w.phase = .idle → between w.state
  running : w.phase = .running → inside w.state ∧ op.exit w.state = none
  suspended : w.phase = .suspended → inside w.state

variable {op} {between inside : σ → Prop}

theorem step_moves {w w' : World σ} {a : Act Arg Out} (step : op.step w a = some w') :
    op.Moves w a w' := by
  cases a with
  | call arg =>
    simp only [Op.step, Option.ite_none_right_eq_some, Option.map_eq_some_iff] at step
    obtain ⟨idle, next, began, rfl⟩ := step
    exact .call arg next idle began
  | answer out =>
    simp only [Op.step, Option.ite_none_right_eq_some, Option.some.injEq] at step
    obtain ⟨⟨running, allowed⟩, rfl⟩ := step
    exact .answer out running allowed
  | ready =>
    simp only [Op.step, Option.ite_none_right_eq_some, Option.some.injEq] at step
    obtain ⟨suspended, rfl⟩ := step
    exact .ready suspended

def Meets (between inside : σ → Prop) : Next σ σ → Prop
  | .again s | .suspend s => inside s
  | .finish s => between s

theorem holds_head (leaves : ∀ s s', inside s → op.exit s = some s' → between s') {s : σ}
    (met : inside s) : op.Holds between inside (op.head s) := by
  unfold head
  split
  · rename_i stays
    exact ⟨by simp, fun _ => ⟨met, stays⟩, by simp⟩
  · rename_i after left
    exact ⟨fun _ => leaves s after met left, by simp, by simp⟩

theorem holds_land (leaves : ∀ s s', inside s → op.exit s = some s' → between s')
    {next : Next σ σ} (met : Meets between inside next) : op.Holds between inside (op.land next) := by
  cases next with
  | again s => exact holds_head leaves met
  | suspend s => exact ⟨by simp [land], by simp [land], fun _ => met⟩
  | finish s => exact ⟨fun _ => met, by simp [land], by simp [land]⟩

theorem Holds.step {w w' : World σ} {a : Act Arg Out} (holds : op.Holds between inside w)
    (begins : ∀ s arg next, between s → op.begin s arg = some next → Meets between inside next)
    (leaves : ∀ s s', inside s → op.exit s = some s' → between s')
    (round : ∀ s out, inside s → op.allowed s out = true → Meets between inside (op.body s out))
    (step : op.step w a = some w') : op.Holds between inside w' := by
  cases step_moves step with
  | call arg next idle began =>
    exact holds_land leaves (begins w.state arg next (holds.idle idle) began)
  | answer out running allowed =>
    exact holds_land leaves (round w.state out (holds.running running).1 allowed)
  | ready suspended => exact holds_head leaves (holds.suspended suspended)

theorem Holds.of_reachable {initial : σ → Prop} {w : World σ}
    (starts : ∀ s, initial s → between s)
    (begins : ∀ s arg next, between s → op.begin s arg = some next → Meets between inside next)
    (leaves : ∀ s s', inside s → op.exit s = some s' → between s')
    (round : ∀ s out, inside s → op.allowed s out = true → Meets between inside (op.body s out))
    (reached : (op.machine initial).Reachable w) : op.Holds between inside w := by
  refine reached.invariant ?_ fun _ _ _ holds _ step => holds.step begins leaves round step
  intro w started
  obtain ⟨idle, first⟩ := started
  exact ⟨fun _ => starts w.state first, by simp [idle], by simp [idle]⟩

theorem Holds.state {w : World σ} (holds : op.Holds between inside w) :
    w.phase = .idle ∧ between w.state ∨ w.phase ≠ .idle ∧ inside w.state := by
  cases phase : w.phase with
  | idle => exact .inl ⟨rfl, holds.idle phase⟩
  | running => exact .inr ⟨by simp, (holds.running phase).1⟩
  | suspended => exact .inr ⟨by simp, holds.suspended phase⟩

/-- Where a call is left only by its body, it goes on in the state that its body leaves. -/
def after : Next σ σ → σ
  | .again s | .suspend s | .finish s => s

theorem land_state (stays : ∀ s, op.exit s = none) (next : Next σ σ) :
    (op.land next).state = after next := by
  cases next with
  | again s => simp [land, head, stays, after]
  | suspend | finish => rfl

end Op

end Calls
