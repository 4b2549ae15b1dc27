import CoroEpoll.EventLoop.Resumption
import CoroEpoll.Task.Dialogues

/-! An event loop and the tasks that it runs: the coroutines that the loop resumes are the frames
of `Task`, which wait for descriptors, make system calls and end as the tasks do.
-/

set_option autoImplicit false

namespace CoroEpoll.OnLoop

open Routines CoroEpoll.Task

structure Readiness (L : Lang) where
  /-- the direction and the trigger of a wait for a descriptor; `none` for a system call -/
  awaits : L.Event → Option (Direction × Bool)
  /-- what `await_resume` returns -/
  resumed : L.Reply
  /-- what an `await_suspend` that throws is to the coroutine -/
  failed : Exception → L.Reply

def event {L : Lang} (tasks : Task.World L) (handle : Handle) : Option L.Event :=
  (tasks.waitsAt handle).map Prod.snd

structure World (K Ev : Type) (L : Lang) where
  reactor : Reactor.World K Ev
  tasks : Task.World L
  /-- the coroutines that have asked and have no answer yet, the innermost first: a system call
  may spawn a coroutine, which runs before it returns -/
  asking : List Handle

inductive Act (L : Lang) (Ev Env : Type) where
  /-- `EventLoop::spawn` -/
  | spawn (fn : L.Fn) (env : L.Env)
  /-- one step of the coroutine that runs -/
  | tick
  /-- a system call returns -/
  | answer (reply : L.Reply)
  /-- `await_suspend` of the awaiter of a descriptor -/
  | await (fd : Fd)
  /-- `dispatch` goes on -/
  | resume
  /-- the loop, the kernel, or what a coroutine or callback does with descriptors -/
  | loop (act : Reactor.Act Ev Env)

section

variable {K Ev Env : Type} {L : Lang}

/-- The child of the co_await whose temporaries end with the next step. -/
def ending (tasks : Task.World L) : Option Handle :=
  match tasks.native with
  | ⟨handle, .body⟩ :: _ =>
    (tasks.frames handle).bind fun frame =>
      match frame.point with
      | some (.await child) => some child
      | _ => none
  | _ => none

def waiting (before after : Task.World L) : Option Handle :=
  match before.native with
  | ⟨handle, .body⟩ :: _ => if (event after handle).isSome then some handle else none
  | _ => none

/-- The temporaries of a co_await end, and its child with them. -/
def release (child : Option Handle) (reactor : Reactor.World K Ev) : Reactor.World K Ev :=
  match child with
  | some child => { reactor with frames := Function.update reactor.frames child .destroyed }
  | none => reactor

namespace World

def idle (s : World K Ev L) : Bool := s.tasks.native.isEmpty && s.asking.isEmpty

def request (R : Readiness L) (s : World K Ev L) : Option (Handle × Direction × Bool) :=
  s.asking.head?.bind fun handle =>
    ((event s.tasks handle).bind R.awaits).map fun wait => (handle, wait.1, wait.2)

def tick (program : L.Fn → Routine L) (s : World K Ev L) : Option (World K Ev L) :=
  (s.tasks.tick program).map fun tasks =>
    { tasks
      reactor := release (ending s.tasks) s.reactor
      asking := (waiting s.tasks tasks).toList ++ s.asking }

end World

def apart : Reactor.Act Ev Env → Bool
  | .wait .. | .destroy _ | .resume => false
  | _ => true

/-- The end of a callback or of a resumed coroutine, or of all that `run()` does before it waits. -/
def returns : Reactor.Act Ev Env → Bool
  | .block | .suspend => true
  | _ => false

section

variable (B : Backend K Ev Env) (R : Readiness L) (program : L.Fn → Routine L)

/-- `co_await` of a descriptor: the coroutine is suspended, or goes on with the exception. -/
def World.await (s : World K Ev L) (fd : Fd) : Option (World K Ev L) :=
  match s.request R with
  | some (handle, d, et) =>
    let reactor := s.reactor.wait B handle fd d et
    match (B.awaitSuspend fd d et (s.reactor.waiter B handle fd d) s.reactor.loop).2 with
    | none => some { s with reactor, asking := s.asking.tail }
    | some error =>
      (s.tasks.deliver handle (R.failed error)).map fun tasks =>
        ⟨reactor, tasks, s.asking.tail⟩
  | none => none

/-- `dispatch` resumes the next handle that it has taken, or returns. -/
def World.resume (s : World K Ev L) : Option (World K Ev L) :=
  (Reactor.step B s.reactor .resume).bind fun reactor =>
    match reactor.phase, s.reactor.hand with
    | .running, w :: _ =>
      (s.tasks.deliver w.frame R.resumed).map fun tasks => { s with reactor, tasks }
    | _, _ => some { s with reactor }

def step (s : World K Ev L) : Act L Ev Env → Option (World K Ev L)
  | .spawn fn env =>
    if s.reactor.userCode ∧ s.tasks.native = [] ∧ s.request R = none then
      (s.tasks.spawn program fn env).map fun tasks => { s with tasks }
    else none
  | .tick => if s.reactor.userCode then s.tick program else none
  | .answer reply =>
    match s.asking with
    | handle :: rest =>
      if s.reactor.userCode ∧ s.tasks.native = [] ∧ s.request R = none then
        (s.tasks.deliver handle reply).map fun tasks => { s with tasks, asking := rest }
      else none
    | [] => none
  | .await fd => if s.reactor.userCode ∧ s.tasks.native = [] then s.await B R fd else none
  | .resume => s.resume B R
  | .loop act =>
    if apart act ∧ (returns act → s.idle) then
      (Reactor.step B s.reactor act).map fun reactor => { s with reactor }
    else none

structure Start (s : World K Ev L) : Prop where
  reactor : Reactor.Start B s.reactor
  tasks : s.tasks = .boot L
  asking : s.asking = []

def machine : Transition.Machine (World K Ev L) (Act L Ev Env) where
  start := Start B
  step := step B R program

/-- The wait that a coroutine asks for leaves no handle behind if it fails. -/
def Clean (s : World K Ev L) : Act L Ev Env → Prop
  | .await fd => ∀ handle d et, s.request R = some (handle, d, et) →
      Reactor.Clean B s.reactor (.wait handle fd d et)
  | _ => True

end

/-! ## What a step of the tasks does to the coroutines that wait -/

variable {program : L.Fn → Routine L}

def Waits (tasks : Task.World L) (handle : Handle) (event : L.Event) : Prop :=
  ∃ frame body resume, tasks.frames handle = some frame ∧ frame.point = some (.wait event) ∧
    frame.body = some body ∧ body.turn = .waits event resume

theorem Waits.event_eq {tasks : Task.World L} {handle : Handle} {e : L.Event}
    (waits : Waits tasks handle e) : event tasks handle = some e := by
  obtain ⟨frame, _, _, found, point, _⟩ := waits
  simp [event, World.waitsAt, found, point]

theorem Waits.congr {tasks tasks' : Task.World L} {handle : Handle} {e : L.Event}
    (same : tasks'.frames handle = tasks.frames handle) :
    Waits tasks' handle e ↔ Waits tasks handle e := by
  simp only [Waits, same]

structure Steps (s t : Task.World L) : Prop where
  kept : ∀ handle e, Waits s handle e → Waits t handle e
  old : ∀ handle e, Waits t handle e → waiting s t ≠ some handle → Waits s handle e
  new : ∀ handle, waiting s t = some handle →
    (∃ e, Waits t handle e) ∧ (∀ e, ¬ Waits s handle e) ∧ ∃ frame, s.frames handle = some frame
  gone : ∀ handle, s.frames handle = none → handle < s.next → t.frames handle = none
  grows : s.next ≤ t.next
  ended : ∀ child, ending s = some child →
    (∀ e, ¬ Waits s child e) ∧ (∃ frame, s.frames child = some frame) ∧ t.frames child = none

/-- A step that changes only frames of coroutines that do not wait, before or after it. -/
theorem Steps.quiet {s t : Task.World L} (same : ∀ handle, t.frames handle = s.frames handle ∨
      (∀ e, ¬ Waits s handle e) ∧ ∀ e, ¬ Waits t handle e)
    (still : waiting s t = none) (gone : ∀ handle, s.frames handle = none → handle < s.next →
      t.frames handle = none) (grows : s.next ≤ t.next)
    (ended : ∀ child, ending s = some child →
      (∀ e, ¬ Waits s child e) ∧ (∃ frame, s.frames child = some frame) ∧ t.frames child = none) :
    Steps s t := by
  refine ⟨?_, ?_, ?_, gone, grows, ended⟩
  · intro handle e waits
    rcases same handle with same | ⟨before, _⟩
    · exact (Waits.congr same).mpr waits
    · exact absurd waits (before e)
  · intro handle e waits _
    rcases same handle with same | ⟨_, after⟩
    · exact (Waits.congr same).mp waits
    · exact absurd waits (after e)
  · intro handle new
    rw [still] at new
    cases new

section

variable {s t : Task.World L} {handle : Handle} {frame : Task.Frame L} {rest : List Task.Resume}

theorem not_waits (found : s.frames handle = some frame)
    (elsewhere : ∀ e, frame.point ≠ some (.wait e)) (e : L.Event) : ¬ Waits s handle e := by
  rintro ⟨_, _, _, again, point, _⟩
  cases found.symm.trans again
  exact elsewhere e point

theorem not_waits_of_none (free : s.frames handle = none) (e : L.Event) : ¬ Waits s handle e := by
  rintro ⟨_, _, _, found, _⟩
  cases free.symm.trans found

theorem ending_eq (native : s.native = ⟨handle, .body⟩ :: rest)
    (found : s.frames handle = some frame) :
    ending s = match frame.point with
      | some (.await child) => some child
      | _ => none := by
  simp only [ending, native, found, Option.bind_some]

theorem ending_of_runs (native : s.native = ⟨handle, .body⟩ :: rest)
    (found : s.frames handle = some frame) (runs : frame.point = none) : ending s = none := by
  rw [ending_eq native found, runs]

theorem waiting_eq_none (native : s.native = ⟨handle, .body⟩ :: rest)
    (found : t.frames handle = some frame) (elsewhere : ∀ e, frame.point ≠ some (.wait e)) :
    waiting s t = none := by
  have none_waits : event t handle = none := by
    cases point : frame.point with
    | none => simp [event, World.waitsAt, found, point]
    | some at_point =>
      cases at_point with
      | wait e => exact absurd point (elsewhere e)
      | initial | await | final => simp [event, World.waitsAt, found, point]
  simp [waiting, native, none_waits]

theorem Steps.of_update {after : Task.Frame L} (native : s.native = ⟨handle, .body⟩ :: rest)
    (found : s.frames handle = some frame) (runs : frame.point = none)
    (frames : t.frames = Function.update s.frames handle (some after))
    (elsewhere : ∀ e, after.point ≠ some (.wait e)) (next : t.next = s.next) : Steps s t := by
  have here : t.frames handle = some after := by
    rw [frames, Function.update_self]
  apply Steps.quiet
  · intro other
    by_cases same : other = handle
    · subst same
      exact .inr ⟨not_waits found (by simp [runs]), not_waits here elsewhere⟩
    · rw [frames, Function.update_of_ne same]
      exact .inl rfl
  · exact waiting_eq_none native here elsewhere
  · intro other free _
    have apart : other ≠ handle := by
      rintro rfl
      cases free.symm.trans found
    rw [frames, Function.update_of_ne apart]
    exact free
  · exact next ▸ Nat.le_refl _
  · intro child ends
    rw [ending_of_runs native found runs] at ends
    cases ends

theorem steps_of_moves (moves : Moves program s t) : Steps s t := by
  cases moves with
  | @returns record rest native inAwait =>
    obtain ⟨handle, site⟩ := record
    apply Steps.quiet
    · exact fun _ => .inl rfl
    · cases site with
      | body => exact absurd rfl inAwait
      | awaitSuspend | finalSuspend => simp [waiting, native]
    · exact fun _ free _ => free
    · exact Nat.le_refl _
    · intro child ends
      cases site with
      | body => exact absurd rfl inAwait
      | awaitSuspend | finalSuspend => simp [ending, native] at ends
  | goes native found runs code turn =>
    exact .of_update native found runs rfl (by simp [runs]) rfl
  | ends native found runs code turn linked caller awaits =>
    exact .of_update native found runs rfl (by simp) rfl
  | completes native found runs code turn outer =>
    exact .of_update native found runs rfl (by simp) rfl
  | @waits handle frame rest body e resume native found runs code turn =>
    have before := not_waits found (by simp [runs])
    have here : Waits
        { s.setFrame handle { frame with point := some (.wait e) } with native := rest } handle e :=
      ⟨_, body, resume, Function.update_self .., rfl, code, turn⟩
    have new : waiting s { s.setFrame handle { frame with point := some (.wait e) } with
        native := rest } = some handle := by
      simp [waiting, native, here.event_eq]
    have other : ∀ member, member ≠ handle → Function.update s.frames handle
        (some { frame with point := some (.wait e) }) member = s.frames member :=
      fun member apart => Function.update_of_ne apart _ _
    refine ⟨?_, ?_, ?_, ?_, Nat.le_refl _, ?_⟩
    · intro member e' waits
      have apart : member ≠ handle := by
        rintro rfl
        exact before e' waits
      exact (Waits.congr (other member apart)).mpr waits
    · intro member e' waits still
      have apart : member ≠ handle := by
        rintro rfl
        exact still new
      exact (Waits.congr (other member apart)).mp waits
    · intro member same
      cases new.symm.trans same
      exact ⟨⟨e, here⟩, before, frame, found⟩
    · intro member free _
      have apart : member ≠ handle := by
        rintro rfl
        cases free.symm.trans found
      exact (other member apart).trans free
    · intro child ends
      rw [ending_of_runs native found runs] at ends
      cases ends
  | @calls handle frame rest body callee env resume native found runs code turn fresh =>
    have apart : handle ≠ s.next := by
      rintro rfl
      cases fresh.symm.trans found
    have caller : ∀ created, Function.update (Function.update s.frames handle
        (some { frame with point := some (.await s.next) })) s.next created handle =
        some { frame with point := some (.await s.next) } := by
      intro created
      rw [Function.update_of_ne apart, Function.update_self]
    -- the child runs, and its parent waits for it alone
    apply Steps.quiet
    · intro other
      by_cases created : other = s.next
      · subst created
        exact .inr ⟨not_waits_of_none fresh, not_waits (Function.update_self ..) (by simp)⟩
      · by_cases same : other = handle
        · subst same
          exact .inr ⟨not_waits found (by simp [runs]), not_waits (caller _) (by simp)⟩
        · exact .inl ((Function.update_of_ne created _ _).trans (Function.update_of_ne same _ _))
    · exact waiting_eq_none native (caller _) (by simp)
    · intro other free older
      have same : other ≠ handle := by
        rintro rfl
        cases free.symm.trans found
      exact (Function.update_of_ne (Nat.ne_of_lt older) _ _).trans
        ((Function.update_of_ne same _ _).trans free)
    · exact Nat.le_succ _
    · intro child ends
      rw [ending_of_runs native found runs] at ends
      cases ends
  | @resumes handle child frame awaited rest body callee env resume outcome native found point code
      turn awaitedFound carries linked later =>
    have apart : child ≠ handle := Nat.ne_of_gt later
    have final : ∀ e, awaited.point ≠ some (.wait e) := by
      cases carries with
      | ended code done holds =>
        intro e waits
        rw [Frame.done, waits] at done
        cases done
    have destroyed := (Function.update_of_ne apart
      (some { frame with point := none, body := some (resume outcome) }) _).trans
        (Function.update_self child none s.frames)
    apply Steps.quiet
    · intro other
      by_cases same : other = handle
      · subst same
        exact .inr ⟨not_waits found (by simp [point]), not_waits (Function.update_self ..) (by simp)⟩
      · by_cases gone : other = child
        · subst gone
          exact .inr ⟨not_waits awaitedFound final, not_waits_of_none destroyed⟩
        · exact .inl ((Function.update_of_ne same _ _).trans (Function.update_of_ne gone _ _))
    · exact waiting_eq_none native (Function.update_self ..) (by simp)
    · intro other free _
      have same : other ≠ handle := by
        rintro rfl
        cases free.symm.trans found
      have gone : other ≠ child := by
        rintro rfl
        cases free.symm.trans awaitedFound
      exact (Function.update_of_ne same _ _).trans ((Function.update_of_ne gone _ _).trans free)
    · exact Nat.le_refl _
    · intro other ends
      rw [ending_eq native found, point, Option.some.injEq] at ends
      subst ends
      exact ⟨not_waits awaitedFound final, ⟨awaited, awaitedFound⟩, destroyed⟩

end

end

end CoroEpoll.OnLoop
