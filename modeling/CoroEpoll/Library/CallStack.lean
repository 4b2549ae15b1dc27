import CoroEpoll.Library.Routines
import CoroEpoll.Library.Transition
import Mathlib.Data.List.ReduceOption

/-! The same language on a stack of calls, one step at a time, with the replies of the
outside given as they come.
-/

set_option autoImplicit false

namespace Routines

variable {L : Lang}

/-- The point a body has come to: a statement, or control leaving one, inside the scopes
around it. -/
inductive Body (L : Lang) where
  | exec (stmt : Stmt L) (env : L.Env) (scopes : List (Scope L))
  | flow (flow : Flow L) (scopes : List (Scope L))

inductive Turn (L : Lang) where
  | goes (body : Body L)
  | waits (event : L.Event) (resume : L.Reply → Body L)
  | calls (fn : L.Fn) (env : L.Env) (resume : Outcome L → Body L)
  | ends (flow : Flow L)

def Body.turn : Body L → Turn L
  | .flow out [] => .ends out
  | .flow out (scope :: scopes) =>
    match scope.take out with
    | some (stmt, env) => .goes (.exec stmt env scopes)
    | none => .goes (.flow out scopes)
  | .exec stmt env scopes =>
    match stmt with
    | .skip => .goes (.flow (.normal env) scopes)
    | .assign change => .goes (.flow (.normal (change env)) scopes)
    | .seq first rest => .goes (.exec first env (.seq rest :: scopes))
    | .branch test yes no => .goes (.exec (if test env then yes else no) env scopes)
    | .loop test body =>
      .goes (if test env then .exec body env (.loop test body :: scopes)
        else .flow (.normal env) scopes)
    | .ret value => .goes (.flow (.returned (value env)) scopes)
    | .throw error => .goes (.flow (.threw (error env) env) scopes)
    | .attempt body catches handler => .goes (.exec body env (.attempt catches handler :: scopes))
    | .wait event store =>
      .waits (event env) fun reply => .flow (.normal (store reply env)) scopes
    | .call fn argument store =>
      .calls fn (argument env) fun outcome => .flow (outcome.into store env) scopes

def Routine.enter (routine : Routine L) (env : L.Env) : Body L :=
  .exec routine.body env []

/-- A call on the stack; one that has ended waits to be taken off by its caller. -/
inductive Activation (L : Lang) where
  | live (fn : L.Fn) (body : Body L)
  | ended (outcome : Outcome L)

abbrev Stack (L : Lang) := List (Activation L)

def advance (program : L.Fn → Routine L) : Stack L → Option (Stack L)
  | .live fn body :: callers =>
    match body.turn with
    | .goes next => some (.live fn next :: callers)
    | .waits _ _ => none
    | .calls callee env _ => some (.live callee ((program callee).enter env) :: .live fn body :: callers)
    | .ends flow => some (.ended ((program fn).outcome flow) :: callers)
  | .ended outcome :: .live fn body :: callers =>
    match body.turn with
    | .calls _ _ resume => some (.live fn (resume outcome) :: callers)
    | _ => none
  | _ => none

def supply (reply : L.Reply) : Stack L → Option (Stack L)
  | .live fn body :: callers =>
    match body.turn with
    | .waits _ resume => some (.live fn (resume reply) :: callers)
    | _ => none
  | _ => none

/-- Its actions are the replies, and `none` for a step of its own. -/
def stackMachine (program : L.Fn → Routine L) :
    Transition.Machine (Stack L) (Option L.Reply) where
  start stack := ∃ fn env, stack = [.live fn ((program fn).enter env)]
  step stack
    | none => advance program stack
    | some reply => supply reply stack

def status : Stack L → Option (Status L)
  | [.ended outcome] => some (.ended outcome)
  | .live _ body :: _ =>
    match body.turn with
    | .waits event _ => some (.blocked event)
    | _ => none
  | _ => none

theorem advance_of_status {program : L.Fn → Routine L} {stack : Stack L} {at_rest : Status L}
    (rests : status stack = some at_rest) : advance program stack = none := by
  -- the stack has ended, or its innermost call waits for a reply
  unfold status at rests
  split at rests
  · rfl
  · split at rests
    · rename_i turn
      simp only [advance, turn]
    · cases rests
  · cases rests

theorem supply_of_advance {program : L.Fn → Routine L} {stack next : Stack L}
    (steps : advance program stack = some next) (reply : L.Reply) : supply reply stack = none := by
  unfold supply
  split
  · rename_i fn body callers
    split
    · rename_i turn
      simp only [advance, turn] at steps
      cases steps
    · rfl
  · rfl

/-! ## Evaluation follows the stack -/

section

variable (program : L.Fn → Routine L)

/-- The stack gets from one state to another, reading some of the replies. -/
def Leads (stack : Stack L) (replies unread : List L.Reply) (target : Stack L) : Prop :=
  ∃ actions, actions.reduceOption ++ unread = replies ∧
    (stackMachine program).exec stack actions = some target

/-- The stack does what an evaluation says: it gets to the state of the result, or blocks. -/
def Plays {α : Type} (stack : Stack L) (replies : List L.Reply) (target : α → Stack L) :
    Progress L α → Prop
  | .ended result unread => Leads program stack replies unread (target result)
  | .blocked event => ∃ blocked, Leads program stack replies [] blocked ∧
      status blocked = some (.blocked event)

end

variable {program : L.Fn → Routine L}

theorem Leads.refl (stack : Stack L) (replies : List L.Reply) :
    Leads program stack replies replies stack :=
  ⟨[], rfl, rfl⟩

theorem Leads.trans {first second third : Stack L} {replies middle unread : List L.Reply}
    (left : Leads program first replies middle second)
    (right : Leads program second middle unread third) :
    Leads program first replies unread third := by
  obtain ⟨actions, rfl, left⟩ := left
  obtain ⟨more, rfl, right⟩ := right
  refine ⟨actions ++ more, ?_, ?_⟩
  · rw [List.reduceOption_append, List.append_assoc]
  · rw [Transition.Machine.exec_append, left]
    exact right

theorem Leads.advance {first second : Stack L} (replies : List L.Reply)
    (steps : advance program first = some second) : Leads program first replies replies second :=
  ⟨[none], rfl, Transition.Machine.exec_cons (m := stackMachine program) steps⟩

theorem Leads.supply {first second : Stack L} {reply : L.Reply} (unread : List L.Reply)
    (steps : supply reply first = some second) :
    Leads program first (reply :: unread) unread second :=
  ⟨[some reply], rfl, Transition.Machine.exec_cons (m := stackMachine program) steps⟩

theorem Leads.plays {α : Type} {first second : Stack L} {replies middle : List L.Reply}
    {target : α → Stack L} {progress : Progress L α} (leads : Leads program first replies middle second)
    (plays : Plays program second middle target progress) :
    Plays program first replies target progress := by
  cases progress with
  | ended result unread => exact leads.trans plays
  | blocked event =>
    obtain ⟨blocked, rest, atWait⟩ := plays
    exact ⟨blocked, leads.trans rest, atWait⟩

theorem Plays.andThen {α β : Type} {stack : Stack L} {replies : List L.Reply}
    {middle : α → Stack L} {target : β → Stack L} {first : Option (Progress L α)}
    {next : α → List L.Reply → Option (Progress L β)} {progress : Progress L β}
    (ends : Routines.andThen first next = some progress)
    (plays : ∀ result, first = some result → Plays program stack replies middle result)
    (later : ∀ result unread, next result unread = some progress →
      Plays program (middle result) unread target progress) :
    Plays program stack replies target progress := by
  rcases andThen_eq_some.mp ends with ⟨event, blocked, rfl⟩ | ⟨result, unread, ended, rest⟩
  · exact plays _ blocked
  · exact (plays _ ended : Leads program _ _ _ _).plays (later result unread rest)

theorem eval_plays {fuel : Nat} {stmt : Stmt L} {env : L.Env} {replies : List L.Reply}
    {progress : Progress L (Flow L)} (ends : eval program fuel stmt env replies = some progress)
    (fn : L.Fn) (scopes : List (Scope L)) (callers : Stack L) :
    Plays program (.live fn (.exec stmt env scopes) :: callers) replies
      (fun flow => .live fn (.flow flow scopes) :: callers) progress := by
  induction fuel generalizing stmt env replies progress fn scopes callers with
  | zero => cases ends
  | succ fuel ih =>
    -- a scope is left by going on with its statement, or at once
    have leaves : ∀ scope flow unread progress,
        leave program fuel scope flow unread = some progress →
          Plays program (.live fn (.flow flow (scope :: scopes)) :: callers) unread
            (fun flow => .live fn (.flow flow scopes) :: callers) progress := by
      intro scope flow unread progress later
      unfold leave at later
      cases taken : scope.take flow with
      | some entry =>
        obtain ⟨stmt, env⟩ := entry
        simp only [taken] at later
        have goes : advance program (.live fn (.flow flow (scope :: scopes)) :: callers) =
            some (.live fn (.exec stmt env scopes) :: callers) := by
          simp only [advance, Body.turn, taken]
        exact (Leads.advance unread goes).plays (ih later fn scopes callers)
      | none =>
        simp only [taken, Option.some.injEq] at later
        subst later
        have goes : advance program (.live fn (.flow flow (scope :: scopes)) :: callers) =
            some (.live fn (.flow flow scopes) :: callers) := by
          simp only [advance, Body.turn, taken]
        exact Leads.advance unread goes
    have inside : ∀ scope inner env,
        andThen (eval program fuel inner env replies) (leave program fuel scope) = some progress →
          Plays program (.live fn (.exec inner env (scope :: scopes)) :: callers) replies
            (fun flow => .live fn (.flow flow scopes) :: callers) progress := by
      intro scope inner env ends
      apply Plays.andThen ends
      · exact fun _ inner => ih inner fn (scope :: scopes) callers
      · exact fun flow unread => leaves scope flow unread progress
    cases stmt with
    | skip | assign | ret | throw =>
      cases ends
      exact Leads.advance replies rfl
    | seq first rest =>
      rw [eval_seq] at ends
      exact (Leads.advance replies rfl).plays (inside _ _ _ ends)
    | branch test yes no => exact (Leads.advance replies rfl).plays (ih ends fn scopes callers)
    | loop test body =>
      cases again : test env with
      | true =>
        rw [eval_loop _ _ _ _ _ _ again] at ends
        have enters : advance program (.live fn (.exec (.loop test body) env scopes) :: callers) =
            some (.live fn (.exec body env (.loop test body :: scopes)) :: callers) := by
          simp [advance, Body.turn, again]
        exact (Leads.advance replies enters).plays (inside _ _ _ ends)
      | false =>
        simp only [eval, again, Bool.false_eq_true, if_false, Option.some.injEq] at ends
        subst ends
        refine Leads.advance replies ?_
        simp [advance, Body.turn, again]
    | attempt body catches handler =>
      rw [eval_attempt] at ends
      exact (Leads.advance replies rfl).plays (inside _ _ _ ends)
    | wait event store =>
      cases replies with
      | nil =>
        cases ends
        exact ⟨_, Leads.refl _ [], rfl⟩
      | cons reply unread =>
        cases ends
        exact Leads.supply unread rfl
    | call callee argument store =>
      -- the callee runs with no scopes of its own, above the caller at its call
      apply (Leads.advance replies rfl).plays
      apply Plays.andThen ends
      · exact fun _ inner =>
          ih inner callee [] (.live fn (.exec (.call callee argument store) env scopes) :: callers)
      · intro flow unread returns
        cases returns
        -- the callee ends, and its caller takes its outcome
        exact (Leads.advance unread rfl).trans (Leads.advance unread rfl)

/-! ## The stack follows evaluation -/

section

variable (program : L.Fn → Routine L) (fuel : Nat)

def unwind : List (Scope L) → Flow L → List L.Reply → Option (Progress L (Flow L))
  | [], flow, replies => some (.ended flow replies)
  | scope :: scopes, flow, replies =>
    andThen (leave program fuel scope flow replies) (unwind scopes)

def Body.eval : Body L → List L.Reply → Option (Progress L (Flow L))
  | .exec stmt env scopes, replies =>
    andThen (Routines.eval program fuel stmt env replies) (unwind program fuel scopes)
  | .flow out scopes, replies => unwind program fuel scopes out replies

def finish : Stack L → Outcome L → List L.Reply → Option (Progress L (Outcome L))
  | [], outcome, replies => some (.ended outcome replies)
  | .live fn body :: callers, outcome, replies =>
    match body.turn with
    | .calls _ _ resume =>
      andThen ((resume outcome).eval program fuel replies) fun flow unread =>
        finish callers ((program fn).outcome flow) unread
    | _ => none
  | .ended _ :: _, _, _ => none

def stackEval : Stack L → List L.Reply → Option (Progress L (Outcome L))
  | .live fn body :: callers, replies =>
    andThen (body.eval program fuel replies) fun flow unread =>
      finish program fuel callers ((program fn).outcome flow) unread
  | .ended outcome :: callers, replies => finish program fuel callers outcome replies
  | [], _ => none

end

section Mono

variable {fuel : Nat}

theorem leave_mono {scope : Scope L} {flow : Flow L} {replies : List L.Reply}
    {progress : Progress L (Flow L)}
    (ends : leave program fuel scope flow replies = some progress) :
    leave program (fuel + 1) scope flow replies = some progress := by
  unfold leave at ends ⊢
  split at ends
  · exact eval_mono ends
  · exact ends

theorem unwind_mono {scopes : List (Scope L)} {flow : Flow L} {replies : List L.Reply}
    {progress : Progress L (Flow L)}
    (ends : unwind program fuel scopes flow replies = some progress) :
    unwind program (fuel + 1) scopes flow replies = some progress := by
  induction scopes generalizing flow replies with
  | nil => exact ends
  | cons scope scopes ih => exact andThen_mono (fun _ => leave_mono) (fun _ _ => ih) ends

theorem Body.eval_mono {body : Body L} {replies : List L.Reply} {progress : Progress L (Flow L)}
    (ends : body.eval program fuel replies = some progress) :
    body.eval program (fuel + 1) replies = some progress := by
  cases body with
  | exec => exact andThen_mono (fun _ => Routines.eval_mono) (fun _ _ => unwind_mono) ends
  | flow => exact unwind_mono ends

theorem finish_mono {callers : Stack L} {outcome : Outcome L} {replies : List L.Reply}
    {progress : Progress L (Outcome L)}
    (ends : finish program fuel callers outcome replies = some progress) :
    finish program (fuel + 1) callers outcome replies = some progress := by
  induction callers generalizing outcome replies with
  | nil => exact ends
  | cons caller callers ih =>
    cases caller with
    | ended => cases ends
    | live fn body =>
      unfold finish at ends ⊢
      split at ends
      · exact andThen_mono (fun _ => Body.eval_mono) (fun _ _ => ih) ends
      · cases ends

end Mono

theorem andThen_ended {α : Type} (first : Option (Progress L α)) :
    andThen first (fun result unread => some (.ended result unread)) = first := by
  cases first with
  | none => rfl
  | some first => cases first <;> rfl

theorem Routine.enter_eval (fuel : Nat) (routine : Routine L) (env : L.Env)
    (replies : List L.Reply) :
    (routine.enter env).eval program fuel replies =
      Routines.eval program fuel routine.body env replies :=
  andThen_ended _

section Turns

variable {fuel : Nat} {body : Body L} {replies : List L.Reply}

theorem Body.eval_of_goes {next : Body L} {progress : Progress L (Flow L)}
    (turn : body.turn = .goes next) (ends : next.eval program fuel replies = some progress) :
    body.eval program (fuel + 1) replies = some progress := by
  cases body with
  | flow out scopes =>
    cases scopes with
    | nil => cases turn
    | cons scope scopes =>
      simp only [Body.turn] at turn
      split at turn <;> rename_i taken <;> cases turn
      · have left : unwind program fuel (scope :: scopes) out replies = some progress := by
          simp only [unwind, leave, taken]
          exact ends
        exact unwind_mono left
      · have left : unwind program fuel (scope :: scopes) out replies = some progress := by
          simp only [unwind, leave, taken]
          exact ends
        exact unwind_mono left
  | exec stmt env scopes =>
    -- a statement that opens a scope is the evaluation inside it, then the scope
    have opened : ∀ scope inner env,
        (Body.exec inner env (scope :: scopes)).eval program fuel replies = some progress →
        andThen (andThen (Routines.eval program fuel inner env replies)
          (leave program fuel scope)) (unwind program (fuel + 1) scopes) = some progress := by
      intro scope inner env ends
      rw [andThen_assoc]
      refine andThen_mono (fun _ => id) (fun flow unread later => ?_) ends
      exact andThen_mono (fun _ => id) (fun _ _ => unwind_mono) later
    cases stmt with
    | skip | assign | ret | throw =>
      cases turn
      exact unwind_mono ends
    | seq first rest =>
      cases turn
      rw [Body.eval, eval_seq]
      exact opened _ _ _ ends
    | attempt inner catches handler =>
      cases turn
      rw [Body.eval, eval_attempt]
      exact opened _ _ _ ends
    | branch test yes no =>
      cases turn
      exact andThen_mono (fun _ => id) (fun _ _ => unwind_mono) ends
    | loop test inner =>
      cases turn
      cases again : test env with
      | true =>
        simp only [again, if_true] at ends
        rw [Body.eval, eval_loop _ _ _ _ _ _ again]
        exact opened _ _ _ ends
      | false =>
        simp only [again, Bool.false_eq_true, if_false] at ends
        simp only [Body.eval, Routines.eval, again, Bool.false_eq_true, if_false, andThen]
        exact unwind_mono ends
    | wait => cases turn
    | call => cases turn

theorem Body.eval_of_waits {event : L.Event} {resume : L.Reply → Body L}
    (turn : body.turn = .waits event resume) :
    body.eval program (fuel + 1) [] = some (.blocked event) ∧
      ∀ reply unread progress, (resume reply).eval program fuel unread = some progress →
        body.eval program (fuel + 1) (reply :: unread) = some progress := by
  cases body with
  | flow out scopes =>
    cases scopes with
    | nil => cases turn
    | cons scope scopes =>
      simp only [Body.turn] at turn
      split at turn <;> cases turn
  | exec stmt env scopes =>
    cases stmt <;> cases turn
    exact ⟨rfl, fun _ _ _ ends => unwind_mono ends⟩

theorem Body.eval_of_calls {callee : L.Fn} {argument : L.Env} {resume : Outcome L → Body L}
    {progress : Progress L (Flow L)} (turn : body.turn = .calls callee argument resume)
    (ends : andThen (Routines.eval program fuel (program callee).body argument replies)
      (fun flow unread =>
        (resume ((program callee).outcome flow)).eval program fuel unread) = some progress) :
    body.eval program (fuel + 1) replies = some progress := by
  cases body with
  | flow out scopes =>
    cases scopes with
    | nil => cases turn
    | cons scope scopes =>
      simp only [Body.turn] at turn
      split at turn <;> cases turn
  | exec stmt env scopes =>
    cases stmt <;> cases turn
    simp only [Body.eval, Routines.eval, andThen_assoc]
    exact andThen_mono (fun _ => id) (fun _ _ => unwind_mono) ends

theorem Body.eval_of_ends {out : Flow L} (turn : body.turn = .ends out) :
    body.eval program fuel replies = some (.ended out replies) := by
  cases body with
  | flow other scopes =>
    cases scopes with
    | nil =>
      cases turn
      rfl
    | cons scope scopes =>
      simp only [Body.turn] at turn
      split at turn <;> cases turn
  | exec stmt env scopes => cases stmt <;> cases turn

end Turns

theorem stackEval_of_advance {fuel : Nat} {stack next : Stack L} {replies : List L.Reply}
    {progress : Progress L (Outcome L)} (steps : advance program stack = some next)
    (ends : stackEval program fuel next replies = some progress) :
    stackEval program (fuel + 1) stack replies = some progress := by
  unfold advance at steps
  split at steps
  · rename_i fn body callers
    split at steps
    · rename_i inner turn
      cases steps
      exact andThen_mono (fun _ => Body.eval_of_goes turn) (fun _ _ => finish_mono) ends
    · cases steps
    -- the callers of the new stack include the body that called
    · rename_i callee argument resume turn
      cases steps
      simp only [stackEval, Routine.enter_eval, finish, turn] at ends
      rw [← andThen_assoc] at ends
      exact andThen_mono (fun _ => Body.eval_of_calls turn) (fun _ _ => finish_mono) ends
    · rename_i out turn
      cases steps
      rw [stackEval, Body.eval_of_ends turn]
      exact finish_mono ends
  · rename_i outcome fn body callers
    split at steps
    · rename_i callee argument resume turn
      cases steps
      simp only [stackEval, finish, turn]
      exact andThen_mono (fun _ => Body.eval_mono) (fun _ _ => finish_mono) ends
    · cases steps
  · cases steps

theorem stackEval_of_supply {fuel : Nat} {stack next : Stack L} {reply : L.Reply}
    {unread : List L.Reply} {progress : Progress L (Outcome L)}
    (steps : supply reply stack = some next)
    (ends : stackEval program fuel next unread = some progress) :
    stackEval program (fuel + 1) stack (reply :: unread) = some progress := by
  unfold supply at steps
  split at steps
  · split at steps
    · rename_i event resume turn
      cases steps
      exact andThen_mono (fun _ => (Body.eval_of_waits turn).2 reply unread _)
        (fun _ _ => finish_mono) ends
    · cases steps
  · cases steps

theorem stackEval_of_status {stack : Stack L} {at_rest : Status L}
    (rests : status stack = some at_rest) :
    stackEval program 1 stack [] = some at_rest.progress := by
  unfold status at rests
  split at rests
  · cases rests
    rfl
  · split at rests
    · rename_i event resume turn
      cases rests
      rw [stackEval, (Body.eval_of_waits turn).1]
      rfl
    · cases rests
  · cases rests

theorem stackEval_of_exec {stack final : Stack L} {actions : List (Option L.Reply)}
    {at_rest : Status L} (replay : (stackMachine program).exec stack actions = some final)
    (rests : status final = some at_rest) :
    ∃ fuel, stackEval program fuel stack actions.reduceOption = some at_rest.progress := by
  induction actions generalizing stack with
  | nil =>
    cases replay
    exact ⟨1, stackEval_of_status rests⟩
  | cons action actions ih =>
    obtain ⟨next, step, tail⟩ := Transition.Machine.exec_cons_eq_some.mp replay
    obtain ⟨fuel, ends⟩ := ih tail
    refine ⟨fuel + 1, ?_⟩
    cases action with
    | none => exact stackEval_of_advance step ends
    | some reply => exact stackEval_of_supply step ends

/-- The stack, run on some replies, comes to rest with a status exactly when direct
evaluation on these replies has it. -/
theorem direct_iff_rests {fn : L.Fn} {env : L.Env} {replies : List L.Reply}
    {at_rest : Status L} :
    Direct program fn env replies at_rest ↔ ∃ actions stack, actions.reduceOption = replies ∧
      (stackMachine program).exec [.live fn ((program fn).enter env)] actions = some stack ∧
        status stack = some at_rest := by
  constructor
  · rintro ⟨fuel, ends⟩
    have plays : Plays program [.live fn ((program fn).enter env)] replies
        (fun outcome => [.ended outcome]) at_rest.progress := by
      apply Plays.andThen ends
      · exact fun _ inner => eval_plays inner fn [] []
      · intro flow unread returns
        rw [← Option.some.inj returns]
        exact Leads.advance unread rfl
    cases at_rest with
    | ended outcome =>
      obtain ⟨actions, read, replay⟩ := plays
      exact ⟨actions, _, by rw [← read, List.append_nil], replay, rfl⟩
    | blocked event =>
      obtain ⟨stack, ⟨actions, read, replay⟩, waits⟩ := plays
      exact ⟨actions, stack, by rw [← read, List.append_nil], replay, waits⟩
  · rintro ⟨actions, stack, rfl, replay, rests⟩
    obtain ⟨fuel, ends⟩ := stackEval_of_exec replay rests
    refine ⟨fuel, ?_⟩
    rw [stackEval, Routine.enter_eval] at ends
    exact ends

/-- Two runs on the same replies, one of which has come to rest: the other gets there by
steps of its own. -/
theorem rests_later {stack first second : Stack L} {actions others : List (Option L.Reply)}
    {at_rest : Status L} (same : actions.reduceOption = others.reduceOption)
    (left : (stackMachine program).exec stack actions = some first)
    (rests : status first = some at_rest)
    (right : (stackMachine program).exec stack others = some second) :
    ∃ count, (stackMachine program).exec second (List.replicate count none) = some first := by
  induction others generalizing stack actions with
  | nil =>
    cases right
    -- nothing more is read
    have silent : actions = List.replicate actions.length none := by
      apply List.eq_replicate_of_mem
      intro action member
      cases action with
      | none => rfl
      | some reply =>
        have read := List.reduceOption_mem_iff.mpr member
        rw [same] at read
        cases read
    exact ⟨actions.length, silent ▸ left⟩
  | cons other others ih =>
    obtain ⟨next, step, tail⟩ := Transition.Machine.exec_cons_eq_some.mp right
    cases actions with
    | nil =>
      cases left
      cases other with
      -- the first run is at rest, and the second has as many replies
      | none => cases (advance_of_status rests).symm.trans step
      | some reply => cases same
    | cons action actions =>
      obtain ⟨following, taken, rest⟩ := Transition.Machine.exec_cons_eq_some.mp left
      cases other with
      -- a stack waits for a reply or steps by itself, so that both take the same action
      | none =>
        cases action with
        | none =>
          cases step.symm.trans taken
          rw [List.reduceOption_cons_of_none, List.reduceOption_cons_of_none] at same
          exact ih same rest tail
        | some reply => cases (supply_of_advance step reply).symm.trans taken
      | some reply =>
        cases action with
        | none => cases (supply_of_advance taken reply).symm.trans step
        | some read =>
          rw [List.reduceOption_cons_of_some, List.reduceOption_cons_of_some] at same
          injection same with head later
          subst head
          cases step.symm.trans taken
          exact ih later rest tail

end Routines
