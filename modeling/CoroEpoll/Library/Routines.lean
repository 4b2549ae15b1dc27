import Mathlib.Data.Option.Basic

/-! A structured language with exceptions, input from outside and calls, and its direct
evaluation.

Evaluation reads the replies of the outside in order. It is blocked where it waits for a
reply that has not come yet.
-/

set_option autoImplicit false

namespace Routines

/-- The types a program is written over. -/
structure Lang where
  Fn : Type
  /-- the locals of a body -/
  Env : Type
  Value : Type
  Error : Type
  /-- what a body waits for -/
  Event : Type
  Reply : Type

inductive Stmt (L : Lang) where
  | skip
  | assign (change : L.Env → L.Env)
  | seq (first rest : Stmt L)
  | branch (test : L.Env → Bool) (yes no : Stmt L)
  | loop (test : L.Env → Bool) (body : Stmt L)
  | ret (value : L.Env → L.Value)
  | throw (error : L.Env → L.Error)
  /-- `none` when no handler takes the error -/
  | attempt (body : Stmt L) (catches : L.Error → L.Env → Option L.Env) (handler : Stmt L)
  | wait (event : L.Env → L.Event) (store : L.Reply → L.Env → L.Env)
  | call (fn : L.Fn) (argument : L.Env → L.Env) (store : Option L.Value → L.Env → L.Env)

inductive Flow (L : Lang) where
  | normal (env : L.Env)
  | returned (value : L.Value)
  | threw (error : L.Error) (env : L.Env)

/-- How a call ends, with no value when its body returns none. -/
inductive Outcome (L : Lang) where
  | returned (value : Option L.Value)
  | threw (error : L.Error)

/-- A body that returns a value, on every path and at last at its end, or none. -/
inductive Routine (L : Lang) where
  | value (body : Stmt L) (last : L.Env → L.Value)
  | void (body : Stmt L)

variable {L : Lang}

def Routine.body : Routine L → Stmt L
  | .value body _ => body
  | .void body => body

def Routine.outcome : Routine L → Flow L → Outcome L
  | .value _ last, .normal env => .returned (some (last env))
  | .value _ _, .returned result => .returned (some result)
  | .void _, .normal _ | .void _, .returned _ => .returned none
  | _, .threw error _ => .threw error

def Outcome.into (store : Option L.Value → L.Env → L.Env) (env : L.Env) : Outcome L → Flow L
  | .returned value => .normal (store value env)
  | .threw error => .threw error env

/-! ## Direct evaluation -/

inductive Progress (L : Lang) (α : Type) where
  | ended (result : α) (unread : List L.Reply)
  | blocked (event : L.Event)

def andThen {α β : Type} (first : Option (Progress L α))
    (next : α → List L.Reply → Option (Progress L β)) : Option (Progress L β) :=
  match first with
  | some (.ended result unread) => next result unread
  | some (.blocked event) => some (.blocked event)
  | none => none

/-- `none` when the fuel does not suffice. -/
def eval (program : L.Fn → Routine L) :
    Nat → Stmt L → L.Env → List L.Reply → Option (Progress L (Flow L))
  | 0, _, _, _ => none
  | fuel + 1, stmt, env, replies =>
    match stmt with
    | .skip => some (.ended (.normal env) replies)
    | .assign change => some (.ended (.normal (change env)) replies)
    | .seq first rest =>
      andThen (eval program fuel first env replies) fun
        | .normal env, unread => eval program fuel rest env unread
        | flow, unread => some (.ended flow unread)
    | .branch test yes no => eval program fuel (if test env then yes else no) env replies
    | .loop test body =>
      if test env then
        andThen (eval program fuel body env replies) fun
          | .normal env, unread => eval program fuel (.loop test body) env unread
          | flow, unread => some (.ended flow unread)
      else some (.ended (.normal env) replies)
    | .ret value => some (.ended (.returned (value env)) replies)
    | .throw error => some (.ended (.threw (error env) env) replies)
    | .attempt body catches handler =>
      andThen (eval program fuel body env replies) fun
        | .threw error env, unread =>
          match catches error env with
          | some env => eval program fuel handler env unread
          | none => some (.ended (.threw error env) unread)
        | flow, unread => some (.ended flow unread)
    | .wait event store =>
      match replies with
      | [] => some (.blocked (event env))
      | reply :: unread => some (.ended (.normal (store reply env)) unread)
    | .call fn argument store =>
      andThen (eval program fuel (program fn).body (argument env) replies) fun flow unread =>
        some (.ended (((program fn).outcome flow).into store env) unread)

def call (program : L.Fn → Routine L) (fuel : Nat) (fn : L.Fn) (env : L.Env)
    (replies : List L.Reply) : Option (Progress L (Outcome L)) :=
  andThen (eval program fuel (program fn).body env replies) fun flow unread =>
    some (.ended ((program fn).outcome flow) unread)

inductive Status (L : Lang) where
  | ended (outcome : Outcome L)
  | blocked (event : L.Event)

def Status.progress : Status L → Progress L (Outcome L)
  | .ended outcome => .ended outcome []
  | .blocked event => .blocked event

/-- Direct evaluation of a call reads all the replies and ends, or blocks, as stated. -/
def Direct (program : L.Fn → Routine L) (fn : L.Fn) (env : L.Env) (replies : List L.Reply)
    (status : Status L) : Prop :=
  ∃ fuel, call program fuel fn env replies = some status.progress

/-! ## Fuel -/

theorem andThen_eq_some {α β : Type} {first : Option (Progress L α)}
    {next : α → List L.Reply → Option (Progress L β)} {progress : Progress L β} :
    andThen first next = some progress ↔
      (∃ event, first = some (.blocked event) ∧ progress = .blocked event) ∨
        ∃ result unread, first = some (.ended result unread) ∧
          next result unread = some progress := by
  cases first with
  | none => simp [andThen]
  | some first =>
    cases first with
    | ended result unread =>
      constructor
      · intro rest
        exact .inr ⟨result, unread, rfl, rest⟩
      · rintro (⟨_, blocked, _⟩ | ⟨_, _, same, rest⟩)
        · cases blocked
        · cases same
          exact rest
    | blocked event => simp [andThen, eq_comm]

theorem andThen_mono {α β : Type} {first first' : Option (Progress L α)}
    {next next' : α → List L.Reply → Option (Progress L β)} {progress : Progress L β}
    (more : ∀ result, first = some result → first' = some result)
    (later : ∀ result unread, next result unread = some progress →
      next' result unread = some progress)
    (ends : andThen first next = some progress) : andThen first' next' = some progress := by
  rcases andThen_eq_some.mp ends with ⟨event, blocked, rfl⟩ | ⟨result, unread, ended, rest⟩
  · exact andThen_eq_some.mpr (.inl ⟨event, more _ blocked, rfl⟩)
  · exact andThen_eq_some.mpr (.inr ⟨result, unread, more _ ended, later result unread rest⟩)

theorem andThen_assoc {α β γ : Type} (first : Option (Progress L α))
    (second : α → List L.Reply → Option (Progress L β))
    (third : β → List L.Reply → Option (Progress L γ)) :
    andThen (andThen first second) third =
      andThen first fun result unread => andThen (second result unread) third := by
  cases first with
  | none => rfl
  | some first => cases first <;> rfl

inductive Scope (L : Lang) where
  | seq (rest : Stmt L)
  | loop (test : L.Env → Bool) (body : Stmt L)
  | attempt (catches : L.Error → L.Env → Option L.Env) (handler : Stmt L)

/-- The statement of a scope that takes up a flow; the flow leaves the scope if there is
none. -/
def Scope.take : Scope L → Flow L → Option (Stmt L × L.Env)
  | .seq rest, .normal env => some (rest, env)
  | .loop test body, .normal env => some (.loop test body, env)
  | .attempt catches handler, .threw error env => (catches error env).map fun env => (handler, env)
  | _, _ => none

def leave (program : L.Fn → Routine L) (fuel : Nat) (scope : Scope L) (flow : Flow L)
    (replies : List L.Reply) : Option (Progress L (Flow L)) :=
  match scope.take flow with
  | some (stmt, env) => eval program fuel stmt env replies
  | none => some (.ended flow replies)

section Equations

variable (program : L.Fn → Routine L) (fuel : Nat) (env : L.Env) (replies : List L.Reply)

theorem eval_seq (first rest : Stmt L) :
    eval program (fuel + 1) (.seq first rest) env replies =
      andThen (eval program fuel first env replies) (leave program fuel (.seq rest)) := by
  rw [eval]
  congr 1
  funext flow unread
  cases flow <;> rfl

theorem eval_loop (test : L.Env → Bool) (body : Stmt L) (again : test env = true) :
    eval program (fuel + 1) (.loop test body) env replies =
      andThen (eval program fuel body env replies) (leave program fuel (.loop test body)) := by
  rw [eval, if_pos again]
  congr 1
  funext flow unread
  cases flow <;> rfl

theorem eval_attempt (body : Stmt L) (catches : L.Error → L.Env → Option L.Env)
    (handler : Stmt L) :
    eval program (fuel + 1) (.attempt body catches handler) env replies =
      andThen (eval program fuel body env replies)
        (leave program fuel (.attempt catches handler)) := by
  rw [eval]
  congr 1
  funext flow unread
  cases flow with
  | normal | returned => rfl
  | threw error env =>
    simp only [leave, Scope.take]
    cases catches error env <;> rfl

end Equations

theorem eval_mono {program : L.Fn → Routine L} {fuel : Nat} {stmt : Stmt L} {env : L.Env}
    {replies : List L.Reply} {progress : Progress L (Flow L)}
    (ends : eval program fuel stmt env replies = some progress) :
    eval program (fuel + 1) stmt env replies = some progress := by
  induction fuel generalizing stmt env replies progress with
  | zero => cases ends
  | succ fuel ih =>
    have leaves : ∀ scope flow unread progress,
        leave program fuel scope flow unread = some progress →
          leave program (fuel + 1) scope flow unread = some progress := by
      intro scope flow unread progress later
      unfold leave at later ⊢
      split at later
      · exact ih later
      · exact later
    cases stmt with
    | skip | assign | ret | throw => exact ends
    | wait =>
      unfold eval at ends ⊢
      exact ends
    | seq first rest =>
      rw [eval_seq] at ends ⊢
      exact andThen_mono (fun _ => ih) (fun flow unread => leaves _ flow unread progress) ends
    | branch test yes no => exact ih ends
    | loop test body =>
      cases again : test env with
      | true =>
        rw [eval_loop _ _ _ _ _ _ again] at ends ⊢
        exact andThen_mono (fun _ => ih) (fun flow unread => leaves _ flow unread progress) ends
      | false =>
        simp only [eval, again] at ends ⊢
        exact ends
    | attempt body catches handler =>
      rw [eval_attempt] at ends ⊢
      exact andThen_mono (fun _ => ih) (fun flow unread => leaves _ flow unread progress) ends
    | call fn argument store => exact andThen_mono (fun _ => ih) (fun _ _ => id) ends

theorem call_mono {program : L.Fn → Routine L} {fuel more : Nat} (le : fuel ≤ more) {fn : L.Fn}
    {env : L.Env} {replies : List L.Reply} {progress : Progress L (Outcome L)}
    (ends : call program fuel fn env replies = some progress) :
    call program more fn env replies = some progress := by
  induction le with
  | refl => exact ends
  | step _ ih => exact andThen_mono (fun _ => eval_mono) (fun _ _ => id) ih

theorem Direct.unique {program : L.Fn → Routine L} {fn : L.Fn} {env : L.Env}
    {replies : List L.Reply} {first second : Status L}
    (left : Direct program fn env replies first)
    (right : Direct program fn env replies second) : first = second := by
  obtain ⟨fuel, left⟩ := left
  obtain ⟨more, right⟩ := right
  have same : some first.progress = some second.progress := by
    rw [← call_mono (Nat.le_max_left fuel more) left, ← call_mono (Nat.le_max_right fuel more) right]
  cases first <;> cases second <;> simp only [Status.progress, Option.some.injEq] at same <;>
    cases same <;> rfl

end Routines
