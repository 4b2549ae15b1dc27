import CoroEpoll.Task.Resumption

/-! Running through `Task`'s promises means the same as running the code directly. -/

set_option autoImplicit false

namespace CoroEpoll.Task

open Routines

variable {L : Lang} {program : L.Fn → Routine L}

/-- A spawned task is done with an outcome in its promise, or one of its coroutines waits
for an event. -/
def World.HasStatus (program : L.Fn → Routine L) (s : World L) (task : Handle) : Status L → Prop
  | .ended outcome => ∃ frame, s.frames task = some frame ∧ frame.done = true ∧
      frame.promise.awaitResume (program frame.fn) = some outcome
  | .blocked event => ∃ handle frame, s.frames handle = some frame ∧ frame.task = task ∧
      frame.point = some (.wait event)

/-- The loop gets back to where it delivers events. -/
def Settles (program : L.Fn → Routine L) (s : World L) : Prop :=
  ∃ count t, (machine program).exec s (List.replicate count .tick) = some t ∧ t.native = []

/-- The final suspend of the child has resumed the parent, whose next step takes the
child's outcome. -/
def World.Resuming (s : World L) (parent child : Handle) : Prop :=
  ∃ rest frame, s.native = ⟨parent, .body⟩ :: rest ∧ s.frames parent = some frame ∧
    frame.point = some (.await child)

structure RunsDirectly (program : L.Fn → Routine L) (s : World L) : Prop where
  /-- no step resumes a coroutine that is not suspended, nor reads a promise that holds
  nothing -/
  proceeds : s.native ≠ [] → (s.tick program).isSome = true
  /-- a task's status is that of direct evaluation on the replies it was given -/
  sound : ∀ task ∈ s.tasks, ∀ status, s.HasStatus program task.handle status →
    Direct program task.fn task.env (s.delivered task.handle) status
  /-- between events every task has a status -/
  settled : s.native = [] → ∀ task ∈ s.tasks, ∃ status, s.HasStatus program task.handle status
  /-- the loop gets back to its events exactly when direct evaluation ends or blocks -/
  settles : Settles program s ↔
    ∀ task ∈ s.tasks, ∃ status, Direct program task.fn task.env (s.delivered task.handle) status
  /-- a co_await resumes its parent only after the final suspend of its child, with what
  the child's body ended with -/
  after : ∀ entry ∈ s.resumed,
    (entry.parent, entry.child) ∈ s.awaited ∧ (entry.child, entry.outcome) ∈ s.finished
  once : (s.resumed.map Resumed.child).Nodup
  /-- every co_await has a child of its own -/
  own : (s.awaited.map Prod.snd).Nodup
  /-- a child that is done has resumed its parent, or is doing so -/
  each : ∀ parent child outcome, (parent, child) ∈ s.awaited → (child, outcome) ∈ s.finished →
    ⟨parent, child, outcome⟩ ∈ s.resumed ∨ s.Resuming parent child
  /-- a finished coroutine holds what its body ended with, and nothing else -/
  holds : ∀ (handle : Handle) (frame : Frame L), s.frames handle = some frame →
    frame.done = true → ∃ outcome, (handle, outcome) ∈ s.finished ∧
      frame.promise.Holds (program frame.fn) outcome
  done : ∀ (handle : Handle) (frame : Frame L), s.frames handle = some frame →
    (frame.done = true ↔ frame.body = none)

/-! ## The status of a task -/

theorem Frame.done_iff {frame : Frame L} : frame.done = true ↔ frame.point = some .final := by
  unfold Frame.done
  split
  · rename_i final
    simp [final]
  · rename_i open_
    constructor
    · exact nofun
    · exact fun final => absurd final open_

section

variable {s : World L} {task : Spawned L} {handles : List Handle} {stack : Stack L}

theorem Traced.rests (traced : Traced program s task handles stack)
    (rest : AtRest s.frames handles) :
    ∃ at_rest, Routines.status stack = some at_rest ∧
      s.HasStatus program task.handle at_rest := by
  have chain := traced.chain
  cases rest with
  | waits found point code turn =>
    obtain ⟨_, _, activation, below, same, rfl⟩ := chain.shape
    cases same
    obtain ⟨_, again, carries⟩ := chain.head
    obtain ⟨_, there, works⟩ := chain.works _ List.mem_cons_self
    cases found.symm.trans again
    cases found.symm.trans there
    cases carries with
    | live code' =>
      cases code.symm.trans code'
      exact ⟨.blocked _, by simp only [Routines.status, turn], _, _, found, works, point⟩
    | ended ended =>
      cases code.symm.trans ended
  | done found final =>
    cases chain with
    | root again _ _ carries =>
      cases found.symm.trans again
      cases carries with
      | live _ _ _ unfinished =>
        rw [final] at unfinished
        cases unfinished
      | ended _ _ holds =>
        exact ⟨.ended _, rfl, _, found, final, holds.awaitResume⟩

theorem Traced.leaf_of_point (traced : Traced program s task handles stack) {handle : Handle}
    {frame : Frame L} (found : s.frames handle = some frame) (works : frame.task = task.handle)
    (apart : ∀ child, frame.point ≠ some (.await child)) :
    ∃ others, handles = handle :: others := by
  have here := traced.all handle frame found works
  obtain ⟨leaf, others, _, _, rfl, rfl⟩ := traced.chain.shape
  cases here with
  | head => exact ⟨others, rfl⟩
  | tail _ here =>
    obtain ⟨child, await⟩ := traced.chain.awaits handle here frame found
    exact absurd await (apart child)

theorem Traced.status_of_blocked (traced : Traced program s task handles stack) {handle : Handle}
    {frame : Frame L} {event : L.Event} (found : s.frames handle = some frame)
    (works : frame.task = task.handle) (point : frame.point = some (.wait event)) :
    Routines.status stack = some (.blocked event) := by
  have apart : ∀ child, frame.point ≠ some (.await child) := by
    intro child await
    cases point.symm.trans await
  obtain ⟨others, rfl⟩ := traced.leaf_of_point found works apart
  have rest : AtRest s.frames (handle :: others) := by
    apply traced.atRest
    intro top rest native here
    cases traced.active top rest native here with
    | runs again runs =>
      cases found.symm.trans again
      cases point.symm.trans runs
    | resumes again final =>
      cases found.symm.trans again
      cases point.symm.trans (Frame.done_iff.mp final)
  obtain ⟨_, _, activation, below, same, rfl⟩ := traced.chain.shape
  cases same
  obtain ⟨_, again, carries⟩ := traced.chain.head
  cases found.symm.trans again
  cases rest with
  | waits there at_wait code turn =>
    cases found.symm.trans there
    cases point.symm.trans at_wait
    cases carries with
    | live code' =>
      cases code.symm.trans code'
      simp only [Routines.status, turn]
    | ended ended => cases code.symm.trans ended
  | done there final =>
    cases found.symm.trans there
    cases point.symm.trans (Frame.done_iff.mp final)

theorem Traced.status_of_done (traced : Traced program s task handles stack) {frame : Frame L}
    {outcome : Outcome L} (found : s.frames task.handle = some frame) (final : frame.done = true)
    (holds : frame.promise.awaitResume (program frame.fn) = some outcome) :
    Routines.status stack = some (.ended outcome) := by
  have point := Frame.done_iff.mp final
  obtain ⟨_, alive, works⟩ := traced.chain.root_works
  cases found.symm.trans alive
  have apart : ∀ child, frame.point ≠ some (.await child) := by
    intro child await
    cases point.symm.trans await
  obtain ⟨others, rfl⟩ := traced.leaf_of_point found works apart
  have chain := traced.chain
  cases chain with
  | root again _ _ carries =>
    cases found.symm.trans again
    cases carries with
    | live _ _ _ unfinished =>
      rw [final] at unfinished
      cases unfinished
    | ended _ _ held =>
      cases holds.symm.trans held.awaitResume
      rfl
  | call outer =>
    -- the task's own frame is the oldest of its chain
    obtain ⟨_, _, here⟩ := outer.root_mem
    exact absurd (traced.chain.lt _ here) (Nat.lt_irrefl _)

end

/-! ## The loop gets back to its events -/

theorem Settles.of_tick {s t : World L} (tick : s.tick program = some t)
    (later : Settles program t) : Settles program s := by
  obtain ⟨count, u, replay, idle⟩ := later
  have step : (machine program).step s .tick = some t := tick
  exact ⟨count + 1, u, (Transition.Machine.exec_cons step).trans replay, idle⟩

theorem settles_of_idle {s : World L} (idle : ∀ record ∈ s.native, record.site ≠ .body) :
    Settles program s := by
  generalize length : s.native.length = size
  induction size generalizing s with
  | zero => exact ⟨0, s, rfl, List.eq_nil_of_length_eq_zero length⟩
  | succ size ih =>
    obtain ⟨record, rest, native⟩ := List.exists_cons_of_length_eq_add_one length
    rw [native] at idle length
    have returns : Moves program s { s with native := rest } :=
      .returns native (idle record List.mem_cons_self)
    apply Settles.of_tick returns.tick
    exact ih (fun other member => idle other (List.mem_cons_of_mem _ member))
      (Nat.succ.inj length)

theorem Moves.follows {s t : World L} (moves : Moves program s t) (refines : Refines program s)
    {task : Spawned L} {handles : List Handle} {stack : Stack L}
    (traced : Traced program s task handles stack) {handle : Handle} {rest : List Resume}
    (native : s.native = ⟨handle, .body⟩ :: rest) (here : handle ∈ handles) :
    (∀ record ∈ t.native, record.site ≠ .body) ∨ Follows program t task stack := by
  obtain ⟨frame, alive, works⟩ := traced.chain.works handle here
  cases moves with
  | returns again inBody =>
    cases native.symm.trans again
    exact absurd rfl inBody
  | goes again found runs code turn =>
    cases native.symm.trans again
    cases alive.symm.trans found
    exact .inr (traced.goes native found works runs code turn)
  | waits again =>
    cases native.symm.trans again
    exact .inl (refines.below_rest native)
  | calls again found runs code turn =>
    cases native.symm.trans again
    cases alive.symm.trans found
    exact .inr (traced.calls refines _ native found works runs code turn)
  | ends again found runs code turn linked =>
    cases native.symm.trans again
    cases alive.symm.trans found
    exact .inr (traced.ends _ native found works runs code turn linked)
  | completes again found runs code turn outer =>
    cases native.symm.trans again
    cases alive.symm.trans found
    exact .inr (traced.completes refines _ native found works runs code turn outer)
  | resumes again found point code turn awaitedFound carries linked later =>
    cases native.symm.trans again
    cases alive.symm.trans found
    exact .inr (traced.resumes _ native found works point code turn awaitedFound carries later)

theorem settles_of_stack {s : World L} {task : Spawned L} {handles : List Handle}
    {stack final : Stack L} {count : Nat} {at_rest : Status L} (refines : Refines program s)
    (traced : Traced program s task handles stack) {handle : Handle} {rest : List Resume}
    (native : s.native = ⟨handle, .body⟩ :: rest) (here : handle ∈ handles)
    (replay : (stackMachine program).exec stack (List.replicate count none) = some final)
    (rests : Routines.status final = some at_rest) : Settles program s := by
  induction count generalizing s handles stack handle rest with
  | zero =>
    cases replay
    obtain ⟨t, moves⟩ := refines.moves (by rw [native]; nofun)
    rcases moves.follows refines traced native here with idle | ⟨_, next, _, steps, _⟩
    · exact .of_tick moves.tick (settles_of_idle idle)
    · cases (advance_of_status rests).symm.trans steps
  | succ count ih =>
    obtain ⟨t, moves⟩ := refines.moves (by rw [native]; nofun)
    apply Settles.of_tick moves.tick
    rcases moves.follows refines traced native here with idle | ⟨handles, next, after, steps, inside⟩
    · exact settles_of_idle idle
    · obtain ⟨_, step, tail⟩ := Transition.Machine.exec_cons_eq_some.mp replay
      cases steps.symm.trans step
      cases running : t.native with
      | nil => exact ⟨0, t, rfl, running⟩
      | cons record rest =>
        obtain ⟨top, site⟩ := record
        have refines := refines.step moves
        by_cases inBody : site = .body
        · subst inBody
          exact ih refines after running (inside top rest running) tail
        · apply settles_of_idle
          intro other member
          rw [running] at member
          cases member with
          | head => exact inBody
          | tail _ member => exact refines.below_rest running other member

theorem tick_keeps {s t : World L} (refines : Refines program s) (tick : s.tick program = some t) :
    t.tasks = s.tasks ∧ t.delivered = s.delivered := by
  cases refines.moves_of_tick tick <;> exact ⟨rfl, rfl⟩

theorem ticks_keep {s t : World L} {count : Nat} (refines : Refines program s)
    (replay : (machine program).exec s (List.replicate count .tick) = some t) :
    Refines program t ∧ t.tasks = s.tasks ∧ t.delivered = s.delivered := by
  induction count generalizing s with
  | zero =>
    cases replay
    exact ⟨refines, rfl, rfl⟩
  | succ count ih =>
    obtain ⟨u, step, tail⟩ := Transition.Machine.exec_cons_eq_some.mp replay
    obtain ⟨tasks, delivered⟩ := tick_keeps refines step
    obtain ⟨later, tasks', delivered'⟩ := ih (refines.of_step step) tail
    exact ⟨later, tasks'.trans tasks, delivered'.trans delivered⟩

/-! ## The refinement of direct evaluation -/

theorem Refines.sound {s : World L} (refines : Refines program s) {task : Spawned L}
    (member : task ∈ s.tasks) {at_rest : Status L}
    (has : s.HasStatus program task.handle at_rest) :
    Direct program task.fn task.env (s.delivered task.handle) at_rest := by
  obtain ⟨handles, stack, traced⟩ := refines.traced task member
  obtain ⟨actions, read, replay⟩ := traced.reads
  refine direct_iff_rests.mpr ⟨actions, stack, read, replay, ?_⟩
  cases at_rest with
  | ended outcome =>
    obtain ⟨frame, found, final, holds⟩ := has
    exact traced.status_of_done found final holds
  | blocked event =>
    obtain ⟨handle, frame, found, works, point⟩ := has
    exact traced.status_of_blocked found works point

theorem Refines.settled {s : World L} (refines : Refines program s) (idle : s.native = [])
    {task : Spawned L} (member : task ∈ s.tasks) :
    ∃ at_rest, s.HasStatus program task.handle at_rest := by
  obtain ⟨handles, stack, traced⟩ := refines.traced task member
  have rest : AtRest s.frames handles := by
    apply traced.atRest
    intro handle rest native
    rw [idle] at native
    cases native
  obtain ⟨at_rest, _, has⟩ := traced.rests rest
  exact ⟨at_rest, has⟩

theorem Refines.settles_iff {s : World L} (refines : Refines program s) :
    Settles program s ↔ ∀ task ∈ s.tasks, ∃ at_rest,
      Direct program task.fn task.env (s.delivered task.handle) at_rest := by
  constructor
  · rintro ⟨count, t, replay, idle⟩ task member
    obtain ⟨later, tasks, delivered⟩ := ticks_keep refines replay
    obtain ⟨at_rest, has⟩ := later.settled idle (tasks ▸ member)
    exact ⟨at_rest, delivered ▸ later.sound (tasks ▸ member) has⟩
  · intro direct
    by_cases idle : ∀ record ∈ s.native, record.site ≠ .body
    · exact settles_of_idle idle
    · -- a coroutine runs, and its task's stack comes to rest
      cases native : s.native with
      | nil => exact ⟨0, s, rfl, native⟩
      | cons record rest =>
        obtain ⟨handle, site⟩ := record
        have inBody : site = .body := by
          by_contra other
          apply idle
          intro record member
          rw [native] at member
          cases member with
          | head => exact other
          | tail _ member => exact refines.below_rest native record member
        subst inBody
        obtain ⟨frame, found⟩ := refines.top handle rest native
        obtain ⟨task, member, works⟩ := refines.owned handle frame found
        obtain ⟨handles, stack, traced⟩ := refines.traced task member
        obtain ⟨at_rest, runs⟩ := direct task member
        obtain ⟨actions, final, read, replay, rests⟩ := direct_iff_rests.mp runs
        obtain ⟨others, read', replay'⟩ := traced.reads
        obtain ⟨count, later⟩ := rests_later (read.trans read'.symm) replay rests replay'
        exact settles_of_stack refines traced native (traced.all handle frame found works.symm)
          later rests

theorem Refines.resuming {s : World L} (refines : Refines program s) {parent child : Handle}
    {frame : Frame L} (found : s.frames child = some frame) (final : frame.done = true)
    (linked : frame.promise.continuation = some parent) : s.Resuming parent child := by
  obtain ⟨task, member, works⟩ := refines.owned child frame found
  obtain ⟨handles, stack, traced⟩ := refines.traced task member
  have apart : ∀ other, frame.point ≠ some (.await other) := by
    intro other await
    cases (Frame.done_iff.mp final).symm.trans await
  obtain ⟨others, rfl⟩ := traced.leaf_of_point found works.symm apart
  obtain ⟨more, rfl⟩ := List.head?_eq_some_iff.mp ((traced.parent found).trans linked)
  by_cases running : ∃ handle rest, s.native = ⟨handle, .body⟩ :: rest ∧
      handle ∈ child :: parent :: more
  · obtain ⟨handle, rest, native, here⟩ := running
    cases traced.active handle rest native here with
    | runs again runs =>
      cases found.symm.trans again
      cases (Frame.done_iff.mp final).symm.trans runs
    | resumes =>
      cases traced.chain with
      | call _ callerFound awaits => exact ⟨rest, _, native, callerFound, awaits⟩
  · have rest : AtRest s.frames (child :: parent :: more) :=
      traced.atRest fun handle rest native here => running ⟨handle, rest, native, here⟩
    cases rest with
    | waits again point =>
      cases found.symm.trans again
      cases (Frame.done_iff.mp final).symm.trans point

/-- For every program and every order in which events are delivered, running its tasks
through initial suspend, await_suspend, final suspend and await_resume is direct
evaluation. -/
theorem runs_directly {s : World L} (reached : (machine program).Reachable s) :
    RunsDirectly program s := by
  have refines := refines_of_reachable reached
  have logged := logged_of_reachable reached
  have ended : ∀ (handle : Handle) (frame : Frame L), s.frames handle = some frame →
      (frame.done = true ↔ frame.body = none) := by
    intro handle frame found
    obtain ⟨task, member, works⟩ := refines.owned handle frame found
    obtain ⟨handles, stack, traced⟩ := refines.traced task member
    obtain ⟨activation, carries⟩ := traced.chain.carries handle
      (traced.all handle frame found works.symm) frame found
    cases carries with
    | live code _ _ unfinished => simp [code, unfinished]
    | ended code final => simp [code, final]
  constructor
  · intro active
    obtain ⟨t, moves⟩ := refines.moves active
    rw [moves.tick]
    rfl
  · exact fun task member _ has => refines.sound member has
  · exact fun idle task member => refines.settled idle member
  · exact refines.settles_iff
  · intro entry member
    obtain ⟨_, _, ended, awaits⟩ := logged.given entry member
    exact ⟨awaits, ended⟩
  · exact logged.resumedOnce
  · exact logged.awaitedOnce
  · intro parent child outcome awaits finished
    obtain ⟨_, ⟨frame, found, linked⟩ | ⟨other, given⟩⟩ := logged.waiting parent child awaits
    · exact .inr (refines.resuming found (logged.holds child outcome finished frame found).1 linked)
    · obtain ⟨_, _, again, _⟩ := logged.given _ given
      cases logged.finished_unique finished again
      exact .inl given
  · intro handle frame found final
    obtain ⟨outcome, member⟩ :=
      (logged.ended handle frame found).mp ((ended handle frame found).mp final)
    exact ⟨outcome, member, (logged.holds handle outcome member frame found).2⟩
  · exact ended

abbrev natLang : Lang := ⟨Nat, Nat, Nat, Nat, Nat, Nat⟩

/-- A task that adds up what its children read from descriptor 5, until one of them reads
0 and throws. -/
def summing : natLang.Fn → Routine natLang
  | 0 => .value (.attempt (.loop (fun _ => true) (.call 1 id fun value sum => sum + value.getD 0))
      (fun error sum => some (sum + error)) .skip) id
  | _ => .value (.seq (.wait (fun _ => 5) fun reply _ => reply)
      (.branch (· == 0) (.throw fun _ => 100) .skip)) id

def summingRun : List (Act natLang) :=
  [.spawn 0 0] ++ List.replicate 6 .tick ++ [.deliver 1 3] ++ List.replicate 12 .tick ++
    [.deliver 2 0] ++ List.replicate 10 .tick

theorem runs_directly_summing : ∃ s, (machine summing).exec (.boot natLang) summingRun = some s ∧
    RunsDirectly summing s ∧ s.HasStatus summing 0 (.ended (.returned (some 103))) := by
  have runs : ((machine summing).exec (.boot natLang) summingRun).bind (fun s =>
      (s.frames 0).map fun frame => (frame.done, frame.promise.awaitResume (summing frame.fn))) =
      some (true, some (.returned (some 103))) := rfl
  obtain ⟨s, replay, final⟩ := Option.bind_eq_some_iff.mp runs
  obtain ⟨frame, found, status⟩ := Option.map_eq_some_iff.mp final
  simp only [Prod.mk.injEq] at status
  exact ⟨s, replay, runs_directly (.replay (.start rfl) replay), frame, found, status⟩

example : call summing 8 0 0 [3, 0] = some (.ended (.returned (some 103)) []) := rfl

end CoroEpoll.Task
