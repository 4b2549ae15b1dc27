import CoroEpoll.Task.Promise

/-! The frames of a spawned task are a chain: each is awaited by the one that its promise
names as continuation. The chain carries a stack of direct calls.
-/

set_option autoImplicit false

namespace CoroEpoll.Task

open Routines

variable {L : Lang} {program : L.Fn → Routine L}

/-! ## Promises -/

inductive Promise.Holds (promise : Promise L) : Routine L → Outcome L → Prop where
  | value {body : Stmt L} {last : L.Env → L.Value} {value : L.Value} :
      promise.value = some value → promise.exception = none →
        Holds promise (.value body last) (.returned (some value))
  | completion {body : Stmt L} : promise.value = none → promise.exception = none →
      Holds promise (.void body) (.returned none)
  | exception {routine : Routine L} {error : L.Error} : promise.value = none →
      promise.exception = some error → Holds promise routine (.threw error)

theorem Promise.Holds.awaitResume {promise : Promise L} {routine : Routine L}
    {outcome : Outcome L} (holds : promise.Holds routine outcome) :
    promise.awaitResume routine = some outcome := by
  cases holds with
  | value value exception => simp [Promise.awaitResume, value, exception]
  | completion value exception => simp [Promise.awaitResume, exception]
  | exception value exception => simp [Promise.awaitResume, exception]

theorem Promise.Holds.unique {promise : Promise L} {routine : Routine L}
    {first second : Outcome L} (left : promise.Holds routine first)
    (right : promise.Holds routine second) : first = second :=
  Option.some.inj (left.awaitResume.symm.trans right.awaitResume)

theorem Promise.holds_leave {promise : Promise L} (value : promise.value = none)
    (exception : promise.exception = none) (routine : Routine L) (flow : Flow L) :
    (promise.leave routine flow).Holds routine (routine.outcome flow) := by
  cases routine with
  | value body last =>
    cases flow with
    | normal env => exact .value rfl exception
    | returned result => exact .value rfl exception
    | threw error env => exact .exception value rfl
  | void body =>
    cases flow with
    | normal env => exact .completion value exception
    | returned result => exact .completion value exception
    | threw error env => exact .exception value rfl

@[simp] theorem Promise.leave_continuation (promise : Promise L) (routine : Routine L)
    (flow : Flow L) : (promise.leave routine flow).continuation = promise.continuation := by
  cases routine <;> cases flow <;> rfl

/-! ## Frames and calls -/

/-- The frame of a coroutine whose body runs, or has ended, as the call. -/
inductive Carries (program : L.Fn → Routine L) (frame : Frame L) : Activation L → Prop where
  | live {body : Body L} : frame.body = some body → frame.promise.value = none →
      frame.promise.exception = none → frame.done = false → Carries program frame (.live frame.fn body)
  | ended {outcome : Outcome L} : frame.body = none → frame.done = true →
      frame.promise.Holds (program frame.fn) outcome → Carries program frame (.ended outcome)

/-- From the innermost frame of a task to that of the task itself. -/
inductive Chain (program : L.Fn → Routine L) (frames : Handle → Option (Frame L))
    (task : Handle) : List Handle → Stack L → Prop where
  | root {frame : Frame L} {activation : Activation L} : frames task = some frame →
      frame.task = task → frame.promise.continuation = none → Carries program frame activation →
        Chain program frames task [task] [activation]
  | call {handle parent : Handle} {frame caller : Frame L} {activation : Activation L}
      {body : Body L} {callee : L.Fn} {env : L.Env} {resume : Outcome L → Body L}
      {handles : List Handle} {stack : Stack L} :
      Chain program frames task (parent :: handles) (.live caller.fn body :: stack) →
      frames parent = some caller → caller.point = some (.await handle) →
      body.turn = .calls callee env resume → parent < handle → frames handle = some frame →
      frame.task = task → frame.promise.continuation = some parent →
      Carries program frame activation →
        Chain program frames task (handle :: parent :: handles)
          (activation :: .live caller.fn body :: stack)

section

variable {frames : Handle → Option (Frame L)} {task handle : Handle} {handles : List Handle}
  {activation : Activation L} {stack : Stack L}

theorem Chain.head (chain : Chain program frames task (handle :: handles) (activation :: stack)) :
    ∃ frame, frames handle = some frame ∧ Carries program frame activation := by
  cases chain with
  | root found mine outer carries => exact ⟨_, found, carries⟩
  | call rest caller awaits turn later found mine linked carries => exact ⟨_, found, carries⟩

theorem Chain.shape (chain : Chain program frames task handles stack) :
    ∃ leaf others activation below, handles = leaf :: others ∧ stack = activation :: below := by
  cases chain with
  | root => exact ⟨_, _, _, _, rfl, rfl⟩
  | call => exact ⟨_, _, _, _, rfl, rfl⟩

theorem Chain.works (chain : Chain program frames task handles stack) :
    ∀ member ∈ handles, ∃ frame, frames member = some frame ∧ frame.task = task := by
  induction chain with
  | root found mine =>
    intro member here
    rw [List.mem_singleton.mp here]
    exact ⟨_, found, mine⟩
  | call rest caller awaits turn later found mine linked carries ih =>
    intro member here
    cases here with
    | head => exact ⟨_, found, mine⟩
    | tail _ here => exact ih member here

theorem Chain.root_mem (chain : Chain program frames task handles stack) :
    ∃ frame, frames task = some frame ∧ task ∈ handles := by
  induction chain with
  | root found => exact ⟨_, found, List.mem_cons_self⟩
  | call _ _ _ _ _ _ _ _ _ ih =>
    obtain ⟨frame, found, here⟩ := ih
    exact ⟨frame, found, List.mem_cons_of_mem _ here⟩

theorem Chain.carries (chain : Chain program frames task handles stack) :
    ∀ member ∈ handles, ∀ frame, frames member = some frame →
      ∃ activation, Carries program frame activation := by
  induction chain with
  | root found _ _ carries =>
    intro member here frame again
    cases List.mem_singleton.mp here
    cases found.symm.trans again
    exact ⟨_, carries⟩
  | call _ _ _ _ _ found _ _ carries ih =>
    intro member here frame again
    cases here with
    | head =>
      cases found.symm.trans again
      exact ⟨_, carries⟩
    | tail _ here => exact ih member here frame again

theorem Chain.root_works (chain : Chain program frames task handles stack) :
    ∃ frame, frames task = some frame ∧ frame.task = task := by
  obtain ⟨_, _, here⟩ := chain.root_mem
  exact chain.works task here

theorem Chain.lt (chain : Chain program frames task (handle :: handles) stack) :
    ∀ member ∈ handles, member < handle := by
  induction handles generalizing handle stack with
  | nil => exact nofun
  | cons parent handles ih =>
    cases chain with
    | call rest caller awaits turn later =>
      intro member here
      cases here with
      | head => exact later
      | tail _ here => exact Nat.lt_trans (ih rest member here) later

/-- Every frame but the innermost is suspended at a co_await. -/
theorem Chain.awaits (chain : Chain program frames task (handle :: handles) stack) :
    ∀ member ∈ handles, ∀ frame, frames member = some frame →
      ∃ child, frame.point = some (.await child) := by
  induction handles generalizing handle stack with
  | nil => exact nofun
  | cons parent handles ih =>
    cases chain with
    | call rest callerFound awaits =>
      intro member here frame found
      cases here with
      | head =>
        cases callerFound.symm.trans found
        exact ⟨_, awaits⟩
      | tail _ here => exact ih rest member here frame found

theorem Chain.congr {after : Handle → Option (Frame L)}
    (chain : Chain program frames task handles stack)
    (same : ∀ member ∈ handles, after member = frames member) :
    Chain program after task handles stack := by
  induction chain with
  | root found mine outer carries =>
    exact .root ((same task List.mem_cons_self).trans found) mine outer carries
  | call rest caller awaits turn later found mine linked carries ih =>
    refine .call (ih fun member here => same member (List.mem_cons_of_mem _ here)) ?_ awaits turn
      later ?_ mine linked carries
    · exact (same _ (List.mem_cons_of_mem _ List.mem_cons_self)).trans caller
    · exact (same _ List.mem_cons_self).trans found

theorem Chain.replace {frame after : Frame L} {next : Activation L}
    (chain : Chain program frames task (handle :: handles) (activation :: stack))
    (found : frames handle = some frame) (task_eq : after.task = frame.task)
    (continuation_eq : after.promise.continuation = frame.promise.continuation)
    (carries : Carries program after next) :
    Chain program (Function.update frames handle (some after)) task (handle :: handles)
      (next :: stack) := by
  have below := chain.lt
  cases chain with
  | root here mine outer =>
    cases here.symm.trans found
    exact .root (Function.update_self ..) (task_eq.trans mine) (continuation_eq.trans outer) carries
  | call rest caller awaits turn later here mine linked =>
    cases here.symm.trans found
    have apart : ∀ member, member < handle →
        Function.update frames handle (some after) member = frames member :=
      fun member lt => Function.update_of_ne (Nat.ne_of_lt lt) _ _
    refine .call (rest.congr fun member here => apart member (below member here))
      ((apart _ later).trans caller) awaits turn later (Function.update_self ..)
      (task_eq.trans mine) (continuation_eq.trans linked) carries

end

end CoroEpoll.Task
