import Mathlib.Data.List.Basic

/-! Loops that repeat a non-blocking call and look at each outcome, over a script of
outcomes. When the script is used up, the call answers `idle` for ever.
-/

set_option autoImplicit false

namespace Retry

/-- What the loop does after one outcome: repeat the call at once, wait until the call may
succeed and repeat it then, or leave. -/
inductive Next (σ ρ : Type) where
  | again (s : σ)
  | suspend (s : σ)
  | finish (result : ρ)

variable {σ τ ρ Out : Type}

/-- The result of the loop and the rest of the script; `none` when it waits for ever. -/
def run (body : σ → Out → Next σ ρ) (idle : Out) : σ → List Out → Option (ρ × List Out)
  | s, [] =>
    match body s idle with
    | .again _ | .suspend _ => none
    | .finish result => some (result, [])
  | s, outcome :: rest =>
    match body s outcome with
    | .again s | .suspend s => run body idle s rest
    | .finish result => some (result, rest)

/-- The results of at most `calls` successive calls, up to one that stops the caller, with
the state that each call leaves to the next. -/
def session (call : τ → List Out → Option ((ρ × τ) × List Out)) (stops : ρ → Bool) :
    Nat → τ → List Out → List (ρ × τ)
  | 0, _, _ => []
  | calls + 1, t, script =>
    match call t script with
    | none => []
    | some (result, rest) =>
      result :: if stops result.1 then [] else session call stops calls result.2 rest

variable {body : σ → Out → Next σ ρ} {idle : Out}

theorem run_finish {s : σ} {outcome : Out} {result : ρ} (next : body s outcome = .finish result)
    (rest : List Out) : run body idle s (outcome :: rest) = some (result, rest) := by
  simp only [run, next]

variable {call : τ → List Out → Option ((ρ × τ) × List Out)} {stops : ρ → Bool}

theorem session_congr {t t' : τ} {script script' : List Out} (same : call t script = call t' script')
    (calls : Nat) : session call stops calls t script = session call stops calls t' script' := by
  cases calls with
  | zero => rfl
  | succ calls => simp only [session, same]

theorem session_none {t : τ} {script : List Out} (blocked : call t script = none) (calls : Nat) :
    session call stops calls t script = [] := by
  cases calls with
  | zero => rfl
  | succ calls => simp only [session, blocked]

theorem session_succ {t : τ} {script rest : List Out} {result : ρ × τ}
    (returned : call t script = some (result, rest)) (goesOn : stops result.1 = false)
    (calls : Nat) : session call stops (calls + 1) t script =
      result :: session call stops calls result.2 rest := by
  simp only [session, returned, goesOn, Bool.false_eq_true, if_false]

end Retry
