import CoroEpoll.Task.Nesting
import Mathlib.Data.List.Induction
import Mathlib.Logic.Relation

/-! How deep the calls of `resume()` nest while no co_awaited coroutine ends before it has
waited: no deeper than there are coroutines.
-/

set_option autoImplicit false

namespace CoroEpoll.Task

open Routines

variable {L : Lang} {program : L.Fn → Routine L}

/-- A coroutine awaits another one, directly or through others, or is that one. -/
def World.Awaits (s : World L) : Handle → Handle → Prop :=
  Relation.ReflTransGen fun parent child =>
    ∃ frame, s.frames parent = some frame ∧ frame.point = some (.await child)

/-- The awaited coroutine whose body ends with the next step. -/
def World.ends (s : World L) : Option Handle :=
  if s.continues.isSome then s.native.head?.map Resume.handle else none

def World.alive (s : World L) : List Handle :=
  (List.range s.next).filter fun handle => (s.frames handle).isSome

def Act.isTick : Act L → Bool
  | .tick => true
  | .spawn .. | .deliver .. => false

section

variable (program : L.Fn → Routine L)

/-- In the run the loop has ended a wait of the coroutine, or of one that it awaited. -/
def HasWaited (run : List (Act L)) (child : Handle) : Prop :=
  ∃ before handle reply after s, run = before ++ .deliver handle reply :: after ∧
    (machine program).exec (.boot L) before = some s ∧ s.Awaits child handle

def WaitsFirst (actions : List (Act L)) : Prop :=
  ∀ run rest s child, actions = run ++ .tick :: rest →
    (machine program).exec (.boot L) run = some s → s.ends = some child →
      HasWaited program run child

/-- The run leads to `s`, and the outermost active call of `resume()` began in `u`. -/
inductive Began : List (Act L) → World L → World L → Prop where
  | begins {before : List (Act L)} {outer : Act L} {s u : World L} :
      (machine program).exec (.boot L) before = some s → outer.isTick = false →
      step program s outer = some u → Began (before ++ [outer]) u u
  | goes {run : List (Act L)} {u s t : World L} : Began run u s → s.tick program = some t →
      Began (run ++ [.tick]) u t

/-- Each coroutine has at most one active call of `resume()`, and there are no more of these
calls than coroutines: those alive now and those that were when the outermost call began. -/
def Bounded (run : List (Act L)) (s : World L) : Prop :=
  NestsOnce s ∧ (s.native ≠ [] →
    ∃ u, Began program run u s ∧ s.native.length ≤ (u.alive ∪ s.alive).length)

def NestsWithin (actions : List (Act L)) : Prop :=
  ∀ run rest s, actions = run ++ rest → (machine program).exec (.boot L) run = some s →
    Bounded program run s

end

theorem Began.exec {run : List (Act L)} {u s : World L} (began : Began program run u s) :
    (machine program).exec (.boot L) run = some s := by
  induction began with
  | @begins before outer s u replay _ taken =>
    rw [Transition.Machine.exec_append, replay]
    exact Transition.Machine.exec_cons (m := machine program) taken
  | goes _ ticks ih =>
    rw [Transition.Machine.exec_append, ih]
    exact Transition.Machine.exec_cons (m := machine program) ticks

theorem tick_idle {s : World L} (idle : s.native = []) : s.tick program = none := by
  rw [World.tick, idle]

theorem exists_began {run : List (Act L)} {s : World L}
    (replay : (machine program).exec (.boot L) run = some s) (active : s.native ≠ []) :
    ∃ u, Began program run u s := by
  induction run using List.reverseRecOn generalizing s with
  | nil =>
    cases replay
    exact absurd rfl active
  | append_singleton run a ih =>
    rw [Transition.Machine.exec_append] at replay
    obtain ⟨t, before, last⟩ := Option.bind_eq_some_iff.mp replay
    obtain ⟨_, taken, same⟩ := Transition.Machine.exec_cons_eq_some.mp last
    cases same
    cases a with
    | tick =>
      have under : t.native ≠ [] := by
        intro idle
        cases (tick_idle idle).symm.trans taken
      obtain ⟨u, began⟩ := ih before under
      exact ⟨u, .goes began taken⟩
    | spawn | deliver => exact ⟨s, .begins before rfl taken⟩

theorem refines_of_exec {run : List (Act L)} {s : World L}
    (replay : (machine program).exec (.boot L) run = some s) : Refines program s :=
  refines_of_reachable (.replay (.start rfl) replay)

/-! ## The coroutine that ends -/

theorem Refines.caller {s : World L} (refines : Refines program s) {handle parent : Handle}
    {frame : Frame L} {rest : List Resume} (native : s.native = ⟨handle, .body⟩ :: rest)
    (found : s.frames handle = some frame) (runs : frame.point = none)
    (linked : frame.promise.continuation = some parent) :
    ∃ caller, s.frames parent = some caller ∧ caller.point = some (.await handle) ∧
      parent < handle ∧ caller.task = frame.task := by
  obtain ⟨task, member, mine⟩ := refines.owned handle frame found
  obtain ⟨handles, stack, traced⟩ := refines.traced task member
  obtain ⟨others, body, below, rfl, rfl, _⟩ := traced.running native found mine.symm runs
  have works := traced.chain.works
  cases traced.chain with
  | root again _ outer =>
    cases found.symm.trans again
    cases outer.symm.trans linked
  | @call _ _ _ caller _ _ _ _ _ _ _ _ callerFound awaits _ later again _ linked' =>
    cases found.symm.trans again
    cases linked.symm.trans linked'
    obtain ⟨_, same, mine'⟩ := works parent (List.mem_cons_of_mem _ List.mem_cons_self)
    cases callerFound.symm.trans same
    exact ⟨caller, callerFound, awaits, later, mine'.trans mine⟩

structure Ends (s : World L) (child parent : Handle) (frame caller : Frame L) (rest : List Resume) :
    Prop where
  native : s.native = ⟨child, .body⟩ :: rest
  found : s.frames child = some frame
  runs : frame.point = none
  linked : frame.promise.continuation = some parent
  continues : s.continues = some parent
  callerFound : s.frames parent = some caller
  awaits : caller.point = some (.await child)
  later : parent < child
  works : caller.task = frame.task

theorem Refines.ends_some {s : World L} (refines : Refines program s) {child : Handle}
    (ends : s.ends = some child) :
    ∃ parent frame caller rest, Ends s child parent frame caller rest := by
  obtain ⟨some_parent, top⟩ := Option.ite_none_right_eq_some.mp ends
  obtain ⟨parent, continues⟩ := Option.isSome_iff_exists.mp some_parent
  obtain ⟨⟨handle, site⟩, head, rfl⟩ := Option.map_eq_some_iff.mp top
  obtain ⟨rest, native⟩ : ∃ rest, s.native = ⟨handle, site⟩ :: rest := by
    cases listed : s.native with
    | nil =>
      rw [listed] at head
      cases head
    | cons record rest =>
      rw [listed] at head
      cases head
      exact ⟨rest, rfl⟩
  have whole := continues
  -- only a running coroutine whose body ends has a continuation to resume
  unfold World.continues at continues
  rw [native] at continues
  cases site with
  | awaitSuspend | finalSuspend => cases continues
  | body =>
    dsimp only at continues
    split at continues
    · rename_i frame found
      split at continues
      · rename_i body runs code
        split at continues
        · obtain ⟨caller, callerFound, awaits, later, works⟩ :=
            refines.caller native found runs continues
          exact ⟨parent, frame, caller, rest, native, found, runs, continues, whole, callerFound,
            awaits, later, works⟩
        · cases continues
      · cases continues
    · cases continues

/-! ## The frames after a step -/

section

variable {frames : Handle → Option (Frame L)} {handle next other : Handle}
  {frame earlier caller child : Frame L}

theorem set_cases (there : Function.update frames handle (some caller) other = some earlier) :
    other = handle ∧ caller = earlier ∨ other ≠ handle ∧ frames other = some earlier := by
  by_cases same : other = handle
  · subst same
    rw [Function.update_self] at there
    exact .inl ⟨rfl, Option.some.inj there⟩
  · rw [Function.update_of_ne same] at there
    exact .inr ⟨same, there⟩

theorem resumed_cases
    (there : Function.update (Function.update frames next none) handle (some caller) other =
      some earlier) : other = handle ∧ caller = earlier ∨ frames other = some earlier := by
  rcases set_cases there with here | ⟨_, before⟩
  · exact .inl here
  · by_cases gone : other = next
    · rw [gone, Function.update_self] at before
      cases before
    · rw [Function.update_of_ne gone] at before
      exact .inr before

theorem called_caller (fresh : frames next = none) (found : frames handle = some frame) :
    Function.update (Function.update frames handle (some caller)) next (some child) handle =
      some caller := by
  have apart : handle ≠ next := by
    rintro rfl
    cases fresh.symm.trans found
  rw [Function.update_of_ne apart, Function.update_self]

theorem called_other (fresh : frames next = none) (apart : other ≠ handle)
    (there : frames other = some earlier) :
    Function.update (Function.update frames handle (some caller)) next (some child) other =
      some earlier := by
  have created : other ≠ next := by
    rintro rfl
    cases fresh.symm.trans there
  rw [Function.update_of_ne created, Function.update_of_ne apart, there]

theorem called_cases
    (there : Function.update (Function.update frames handle (some caller)) next (some child) other =
      some earlier) :
    other = next ∧ child = earlier ∨ other = handle ∧ caller = earlier ∨
      frames other = some earlier := by
  rcases set_cases there with created | ⟨_, there⟩
  · exact .inl created
  · exact .inr ((set_cases there).imp_right And.right)

end

/-! ## What the steps of one outermost call keep -/

/-- The coroutines of `s`, seen from the state in which the outermost call began: it concerns
one task, and no coroutine older than that state has come to life. -/
structure Within (u s : World L) (task : Handle) : Prop where
  next : u.next ≤ s.next
  old : ∀ handle frame, handle < u.next → s.frames handle = some frame →
    ∃ earlier, u.frames handle = some earlier ∧ earlier.task = frame.task
  owner : ∀ handle rest, s.native = ⟨handle, .body⟩ :: rest →
    ∃ frame, s.frames handle = some frame ∧ frame.task = task
  stacked : ∀ record ∈ s.native, record.handle < u.next →
    ∃ frame, u.frames record.handle = some frame

theorem Within.setFrame {u s t : World L} {task handle : Handle} {frame after : Frame L}
    {rest : List Resume} (within : Within u s task) (native : s.native = ⟨handle, .body⟩ :: rest)
    (found : s.frames handle = some frame)
    (frames : t.frames = Function.update s.frames handle (some after))
    (works : after.task = frame.task) (next : t.next = s.next)
    (top : t.native = s.native ∨ t.native = rest)
    (idle : ∀ record ∈ rest, record.site ≠ .body) : Within u t task := by
  constructor
  · rw [next]
    exact within.next
  · intro other earlier older there
    rw [frames] at there
    rcases set_cases there with ⟨rfl, rfl⟩ | ⟨_, before⟩
    · obtain ⟨before, was, mine⟩ := within.old other frame older found
      exact ⟨before, was, mine.trans works.symm⟩
    · exact within.old other earlier older before
  · intro other others running
    rcases top with same | popped
    · rw [same, native] at running
      cases running
      obtain ⟨before, again, mine⟩ := within.owner handle rest native
      cases found.symm.trans again
      exact ⟨after, by rw [frames, Function.update_self], works.trans mine⟩
    · rw [popped] at running
      exact absurd rfl (idle ⟨other, .body⟩ (running ▸ List.mem_cons_self))
  · intro record member
    apply within.stacked record
    rcases top with same | popped
    · exact same ▸ member
    · rw [native]
      exact List.mem_cons_of_mem _ (popped ▸ member)

theorem Within.tick {u s t : World L} {task : Handle} (within : Within u s task)
    (refines : Refines program s) (moves : Moves program s t) : Within u t task := by
  cases moves with
  | @returns record rest native =>
    refine ⟨within.next, within.old, ?_, ?_⟩
    · intro handle others running
      exact absurd running (refines.idle_below native handle others)
    · intro other member
      exact within.stacked other (native ▸ List.mem_cons_of_mem _ member)
  | goes native found =>
    exact within.setFrame native found rfl rfl rfl (.inl rfl) (refines.below_rest native)
  | waits native found =>
    exact within.setFrame native found rfl rfl rfl (.inr rfl) (refines.below_rest native)
  | completes native found =>
    exact within.setFrame native found rfl rfl rfl (.inr rfl) (refines.below_rest native)
  | @calls handle frame rest body callee env resume native found runs code turn fresh =>
    have created : ∀ other, other < u.next → other ≠ s.next := fun other older =>
      Nat.ne_of_lt (Nat.lt_of_lt_of_le older within.next)
    obtain ⟨_, again, mine⟩ := within.owner handle rest native
    cases found.symm.trans again
    refine ⟨Nat.le_succ_of_le within.next, ?_, ?_, ?_⟩
    · intro other earlier older there
      rcases called_cases there with ⟨rfl, _⟩ | ⟨rfl, rfl⟩ | before
      · exact absurd rfl (created s.next older)
      · exact within.old other frame older found
      · exact within.old other earlier older before
    · intro other others running
      cases running
      exact ⟨_, Function.update_self .., mine⟩
    · intro record member older
      rcases List.mem_cons.mp member with rfl | member
      · exact absurd rfl (created s.next older)
      · rcases List.mem_cons.mp member with rfl | member
        · obtain ⟨earlier, was, _⟩ := within.old handle frame older found
          exact ⟨earlier, was⟩
        · exact within.stacked record (native ▸ List.mem_cons_of_mem _ member) older
  | @ends handle parent frame caller rest body flow native found runs code turn linked callerFound
      awaits =>
    obtain ⟨_, again, _, later, works⟩ := refines.caller native found runs linked
    cases callerFound.symm.trans again
    obtain ⟨_, here, mine⟩ := within.owner handle rest native
    cases found.symm.trans here
    have apart : parent ≠ handle := Nat.ne_of_lt later
    refine ⟨within.next, ?_, ?_, ?_⟩
    · intro other earlier older there
      rcases set_cases there with ⟨rfl, rfl⟩ | ⟨_, before⟩
      · exact within.old other frame older found
      · exact within.old other earlier older before
    · intro other others running
      cases running
      exact ⟨caller, (Function.update_of_ne apart _ _).trans callerFound, works.trans mine⟩
    · intro record member older
      rcases List.mem_cons.mp member with rfl | member
      · obtain ⟨earlier, was, _⟩ := within.old parent caller older callerFound
        exact ⟨earlier, was⟩
      · rcases List.mem_cons.mp member with rfl | member
        · obtain ⟨earlier, was, _⟩ := within.old handle frame older found
          exact ⟨earlier, was⟩
        · exact within.stacked record (native ▸ List.mem_cons_of_mem _ member) older
  | @resumes handle child frame awaited rest body callee env resume outcome native found point code
      turn awaitedFound =>
    obtain ⟨_, here, mine⟩ := within.owner handle rest native
    cases found.symm.trans here
    refine ⟨within.next, ?_, ?_, within.stacked⟩
    · intro other earlier older there
      rcases resumed_cases there with ⟨rfl, rfl⟩ | before
      · exact within.old other frame older found
      · exact within.old other earlier older before
    · intro other others running
      cases native.symm.trans running
      exact ⟨_, Function.update_self .., mine⟩

/-- Each coroutine of the stack that is not older than `base` is alive, and the co_await that has
started it is below it. -/
def StartedAbove (frames : Handle → Option (Frame L)) (base : Handle) : List Resume → Prop
  | [] => True
  | record :: rest =>
    (base ≤ record.handle → ∃ frame parent, frames record.handle = some frame ∧
      frame.promise.continuation = some parent ∧ ⟨parent, .awaitSuspend⟩ ∈ rest) ∧
    StartedAbove frames base rest

theorem StartedAbove.congr {frames after : Handle → Option (Frame L)} {base : Handle}
    {native : List Resume} (started : StartedAbove frames base native)
    (same : ∀ handle frame, base ≤ handle → (∃ record ∈ native, record.handle = handle) →
      frames handle = some frame → ∃ frame', after handle = some frame' ∧
        frame'.promise.continuation = frame.promise.continuation) :
    StartedAbove after base native := by
  induction native with
  | nil => trivial
  | cons record rest ih =>
    obtain ⟨head, later⟩ := started
    refine ⟨fun young => ?_, ih later fun handle frame young listed => ?_⟩
    · obtain ⟨frame, parent, found, linked, below⟩ := head young
      obtain ⟨frame', found', kept⟩ :=
        same record.handle frame young ⟨record, List.mem_cons_self, rfl⟩ found
      exact ⟨frame', parent, found', kept.trans linked, below⟩
    · obtain ⟨other, member, mine⟩ := listed
      exact same handle frame young ⟨other, List.mem_cons_of_mem _ member, mine⟩

/-- No coroutine that has been created since the outermost call began has ended: those on the
stack are below co_awaits of it. -/
structure Timely (base : Handle) (s : World L) : Prop where
  started : StartedAbove s.frames base s.native
  awaits : ∀ parent, ⟨parent, .awaitSuspend⟩ ∈ s.native →
    ∃ frame child, s.frames parent = some frame ∧ frame.point = some (.await child) ∧ base ≤ child
  ended : ∀ child frame, s.frames child = some frame → frame.done = true →
    frame.promise.continuation ≠ none → child < base

theorem StartedAbove.tail {frames : Handle → Option (Frame L)} {base : Handle} {record : Resume}
    {rest : List Resume} {native : List Resume} (started : StartedAbove frames base native)
    (listed : native = record :: rest) : StartedAbove frames base rest := by
  subst listed
  exact started.2

theorem Timely.top_apart {base : Handle} {s : World L} (timely : Timely base s) {handle : Handle}
    {frame : Frame L} (found : s.frames handle = some frame)
    (elsewhere : ∀ child, frame.point ≠ some (.await child)) {parent : Handle}
    (member : ⟨parent, .awaitSuspend⟩ ∈ s.native) : parent ≠ handle := by
  rintro rfl
  obtain ⟨_, child, again, awaits, _⟩ := timely.awaits parent member
  cases found.symm.trans again
  exact elsewhere child awaits

theorem Timely.setFrame {base : Handle} {s t : World L} {handle : Handle} {frame after : Frame L}
    {rest : List Resume} (timely : Timely base s) (native : s.native = ⟨handle, .body⟩ :: rest)
    (found : s.frames handle = some frame) (runs : frame.point = none)
    (frames : t.frames = Function.update s.frames handle (some after))
    (linked : after.promise.continuation = frame.promise.continuation)
    (top : t.native = s.native ∨ t.native = rest)
    (ended : after.done = true → after.promise.continuation = none) : Timely base t := by
  have started : StartedAbove t.frames base s.native := by
    apply timely.started.congr
    intro other earlier _ _ there
    rw [frames]
    by_cases same : other = handle
    · subst same
      cases found.symm.trans there
      exact ⟨after, Function.update_self .., linked⟩
    · exact ⟨earlier, (Function.update_of_ne same _ _).trans there, rfl⟩
  have listed : ∀ record ∈ t.native, record ∈ s.native := by
    intro record member
    rcases top with same | popped
    · exact same ▸ member
    · rw [native]
      exact List.mem_cons_of_mem _ (popped ▸ member)
  constructor
  · rcases top with same | popped
    · rw [same]
      exact started
    · rw [popped]
      exact started.tail native
  · intro parent member
    have apart := timely.top_apart found (by simp [runs]) (listed _ member)
    obtain ⟨earlier, child, there, awaits, young⟩ := timely.awaits parent (listed _ member)
    exact ⟨earlier, child, by rw [frames, Function.update_of_ne apart, there], awaits, young⟩
  · intro child earlier there done outer
    rw [frames] at there
    rcases set_cases there with ⟨rfl, rfl⟩ | ⟨_, before⟩
    · exact absurd (ended done) outer
    · exact timely.ended child earlier before done outer

theorem Timely.tick {base : Handle} {s t : World L} (timely : Timely base s)
    (refines : Refines program s) (once : NestsOnce s) (late : EndsLate s .tick)
    (older : base ≤ s.next) (moves : Moves program s t) : Timely base t := by
  cases moves with
  | @returns record rest native =>
    refine ⟨timely.started.tail native, fun parent member => ?_, timely.ended⟩
    exact timely.awaits parent (native ▸ List.mem_cons_of_mem _ member)
  | goes native found runs =>
    exact timely.setFrame native found runs rfl rfl (.inl rfl) fun done => by
      simp [Frame.done, runs] at done
  | waits native found runs =>
    exact timely.setFrame native found runs rfl rfl (.inr rfl) fun done => by
      simp [Frame.done] at done
  | completes native found runs code turn outer =>
    exact timely.setFrame native found runs rfl (by simp) (.inr rfl) fun _ => by simp [outer]
  | @calls handle frame rest body callee env resume native found runs code turn fresh =>
    -- the child is above the co_await that starts it
    have started := timely.started
    rw [native] at started
    constructor
    · refine ⟨fun _ => ⟨_, handle, Function.update_self .., rfl, List.mem_cons_self⟩, ?_⟩
      refine started.congr fun other earlier _ _ there => ?_
      by_cases same : other = handle
      · subst same
        cases found.symm.trans there
        exact ⟨_, called_caller fresh found, rfl⟩
      · exact ⟨earlier, called_other fresh same there, rfl⟩
    · intro parent member
      rcases List.mem_cons.mp member with same | member
      · cases same
      · rcases List.mem_cons.mp member with same | member
        · cases same
          exact ⟨_, s.next, called_caller fresh found, rfl, older⟩
        · have under : ⟨parent, .awaitSuspend⟩ ∈ s.native :=
            native ▸ List.mem_cons_of_mem _ member
          have apart := timely.top_apart found (by simp [runs]) under
          obtain ⟨earlier, child, there, awaits, young⟩ := timely.awaits parent under
          exact ⟨earlier, child, called_other fresh apart there, awaits, young⟩
    · intro child earlier there done outer
      rcases called_cases there with ⟨rfl, rfl⟩ | ⟨rfl, rfl⟩ | before
      · cases done
      · cases done
      · exact timely.ended child earlier before done outer
  | @ends handle parent frame caller rest body flow native found runs code turn linked callerFound
      awaits =>
    have continues : s.continues = some parent := by
      simp [World.continues, native, found, runs, code, turn, linked]
    have returned : ⟨parent, .awaitSuspend⟩ ∉ s.native := late parent continues
    obtain ⟨_, _, _, later, _⟩ := refines.caller native found runs linked
    have started := timely.started
    rw [native] at started
    -- a younger one would be above the co_await that has started it
    have aged : handle < base := by
      apply Nat.lt_of_not_le
      intro young
      obtain ⟨_, above, again, linked', below⟩ := started.1 young
      cases found.symm.trans again
      cases linked.symm.trans linked'
      exact returned (native ▸ List.mem_cons_of_mem _ below)
    have kept : StartedAbove (Function.update s.frames handle
        (some { frame with
          promise := frame.promise.leave (program frame.fn) flow
          point := some .final
          body := none })) base rest := by
      refine started.2.congr fun other earlier young _ there => ?_
      have apart : other ≠ handle := Nat.ne_of_gt (Nat.lt_of_lt_of_le aged young)
      exact ⟨earlier, (Function.update_of_ne apart _ _).trans there, rfl⟩
    constructor
    · refine ⟨fun young => ?_, fun young => ?_, kept⟩
      · exact absurd (Nat.lt_trans later aged) (Nat.not_lt.mpr young)
      · exact absurd aged (Nat.not_lt.mpr young)
    · intro other member
      have under : ⟨other, .awaitSuspend⟩ ∈ s.native := by
        rcases List.mem_cons.mp member with same | member
        · cases same
        · rcases List.mem_cons.mp member with same | member
          · cases same
          · exact native ▸ List.mem_cons_of_mem _ member
      have apart := timely.top_apart found (by simp [runs]) under
      obtain ⟨earlier, child, there, awaits, young⟩ := timely.awaits other under
      exact ⟨earlier, child, (Function.update_of_ne apart _ _).trans there, awaits, young⟩
    · intro child earlier there done outer
      rcases set_cases there with ⟨rfl, _⟩ | ⟨_, before⟩
      · exact aged
      · exact timely.ended child earlier before done outer
  | @resumes handle child frame awaited rest body callee env resume outcome native found point code
      turn awaitedFound carries linked later =>
    -- the child that is destroyed has ended, so that it is older
    have aged : child < base := by
      cases carries with
      | ended _ done => exact timely.ended child awaited awaitedFound done (linked ▸ Option.some_ne_none _)
    have apart : child ≠ handle := Nat.ne_of_gt later
    have others : ∀ other, other ≠ handle → other ≠ child → Function.update
        (Function.update s.frames child none) handle
        (some { frame with point := none, body := some (resume outcome) }) other =
          s.frames other := by
      intro other different alive
      rw [Function.update_of_ne different, Function.update_of_ne alive]
    constructor
    · refine timely.started.congr fun other earlier young _ there => ?_
      by_cases same : other = handle
      · subst same
        cases found.symm.trans there
        exact ⟨_, Function.update_self .., rfl⟩
      · have alive : other ≠ child := Nat.ne_of_gt (Nat.lt_of_lt_of_le aged young)
        exact ⟨earlier, (others other same alive).trans there, rfl⟩
    · intro parent member
      -- each coroutine has one call of `resume()`, and that of the running one is in its body
      have different : parent ≠ handle := by
        rintro rfl
        rw [NestsOnce, native, List.map_cons, List.nodup_cons] at once
        have below : ⟨parent, .awaitSuspend⟩ ∈ rest := by
          change _ ∈ s.native at member
          rw [native] at member
          rcases List.mem_cons.mp member with same | member
          · cases same
          · exact member
        exact once.1 (List.mem_map.mpr ⟨_, below, rfl⟩)
      obtain ⟨earlier, awaitee, there, awaits, young⟩ := timely.awaits parent member
      have alive : parent ≠ child := by
        rintro rfl
        cases carries with
        | ended _ done =>
          cases awaitedFound.symm.trans there
          rw [Frame.done, awaits] at done
          cases done
      exact ⟨earlier, awaitee, (others parent different alive).trans there, awaits, young⟩
    · intro other earlier there done outer
      rcases resumed_cases there with ⟨rfl, rfl⟩ | before
      · cases done
      · exact timely.ended other earlier before done outer

/-! ## Runs -/

theorem outer_native {s u : World L} {outer : Act L} (isOuter : outer.isTick = false)
    (taken : step program s outer = some u) :
    ∃ handle frame, u.native = [⟨handle, .body⟩] ∧ u.frames handle = some frame := by
  cases outer with
  | tick => cases isOuter
  | spawn fn env =>
    obtain ⟨idle, spawns⟩ := Option.ite_none_right_eq_some.mp taken
    rw [World.spawn_eq, idle] at spawns
    cases spawns
    exact ⟨s.next, _, rfl, Function.update_self ..⟩
  | deliver handle reply =>
    obtain ⟨idle, delivers⟩ := Option.ite_none_right_eq_some.mp taken
    obtain ⟨_, _, _, _, _, _, _, _, _, rfl⟩ := World.deliver_eq_some delivers
    exact ⟨handle, _, rfl, Function.update_self ..⟩

theorem began_within {run : List (Act L)} {u s : World L} (began : Began program run u s) :
    ∃ task, Within u u task ∧ Within u s task := by
  induction began with
  | @begins before outer s u replay isOuter taken =>
    obtain ⟨handle, frame, native, found⟩ := outer_native isOuter taken
    have within : Within u u frame.task := by
      refine ⟨Nat.le_refl _, fun _ earlier _ there => ⟨earlier, there, rfl⟩, ?_, ?_⟩
      · intro other rest running
        cases native.symm.trans running
        exact ⟨frame, found, rfl⟩
      · intro record member _
        rw [native] at member
        rw [List.mem_singleton.mp member]
        exact ⟨frame, found⟩
    exact ⟨frame.task, within, within⟩
  | goes began ticks ih =>
    obtain ⟨task, first, within⟩ := ih
    have refines := refines_of_exec began.exec
    exact ⟨task, first, within.tick refines (refines.moves_of_tick ticks)⟩

theorem began_timely {s u : World L} {outer : Act L} (refines : Refines program u)
    (isOuter : outer.isTick = false) (taken : step program s outer = some u) :
    Timely u.next u := by
  obtain ⟨handle, frame, native, found⟩ := outer_native isOuter taken
  constructor
  · rw [native]
    exact ⟨fun young => absurd (refines.lt_next found) (Nat.not_lt.mpr young), trivial⟩
  · intro parent member
    rw [native] at member
    cases List.mem_singleton.mp member
  · exact fun child frame found _ _ => refines.lt_next found

theorem nestsOnce_of_endsLate {run : List (Act L)} {s : World L}
    (replay : (machine program).exec (.boot L) run = some s)
    (late : (machine program).Each EndsLate (.boot L) run) : NestsOnce s :=
  ((nestsOnce_iff_endsLate replay).mpr late).last replay

theorem timely_of_endsLate {run : List (Act L)} {u s : World L} (began : Began program run u s)
    (late : (machine program).Each EndsLate (.boot L) run) : Timely u.next s := by
  induction began with
  | @begins before outer s u replay isOuter taken =>
    have began : Began program (before ++ [outer]) u u := .begins replay isOuter taken
    exact began_timely (refines_of_exec began.exec) isOuter taken
  | @goes run u s t began ticks ih =>
    obtain ⟨before, last⟩ := Transition.Machine.each_concat.mp late
    have refines := refines_of_exec began.exec
    obtain ⟨_, _, within⟩ := began_within began
    exact (ih before).tick refines (nestsOnce_of_endsLate began.exec before)
      (last s began.exec) within.next (refines.moves_of_tick ticks)

/-- As long as that has held, a coroutine ends late exactly if it is older than the outermost
call. -/
theorem Timely.endsLate_iff {s : World L} {base : Handle} (timely : Timely base s)
    (refines : Refines program s) :
    EndsLate s .tick ↔ ∀ child, s.ends = some child → child < base := by
  constructor
  · intro late child ending
    obtain ⟨parent, frame, caller, rest, ends⟩ := refines.ends_some ending
    apply Nat.lt_of_not_le
    intro young
    have started := timely.started
    rw [ends.native] at started
    obtain ⟨_, above, again, linked, below⟩ := started.1 young
    cases ends.found.symm.trans again
    cases ends.linked.symm.trans linked
    apply late parent ends.continues
    rw [ends.native]
    exact List.mem_cons_of_mem _ below
  · intro aged parent continues member
    obtain ⟨top, rest, native⟩ := List.exists_cons_of_ne_nil (List.ne_nil_of_mem member)
    have ending : s.ends = some top.handle := by
      simp [World.ends, show s.continues = some parent from continues, native]
    obtain ⟨_, _, caller, _, ends⟩ := refines.ends_some ending
    cases ends.continues.symm.trans continues
    obtain ⟨_, child, again, awaits, young⟩ := timely.awaits _ member
    cases ends.callerFound.symm.trans again
    cases ends.awaits.symm.trans awaits
    exact absurd (aged _ ending) (Nat.not_lt.mpr young)

/-! ## Who has waited -/

theorem Refines.next_le {s t : World L} {a : Act L} (refines : Refines program s)
    (taken : (machine program).step s a = some t) : s.next ≤ t.next := by
  cases a with
  | spawn fn env =>
    obtain ⟨_, spawns⟩ := Option.ite_none_right_eq_some.mp taken
    rw [World.spawn_eq] at spawns
    cases spawns
    exact Nat.le_succ _
  | deliver handle reply =>
    obtain ⟨_, delivers⟩ := Option.ite_none_right_eq_some.mp taken
    obtain ⟨_, _, _, _, _, _, _, _, _, rfl⟩ := World.deliver_eq_some delivers
    exact Nat.le_refl _
  | tick =>
    cases refines.moves_of_tick taken with
    | calls => exact Nat.le_succ _
    | returns | goes | waits | ends | completes | resumes => exact Nat.le_refl _

theorem next_le_of_exec {s t : World L} {run : List (Act L)} (refines : Refines program s)
    (replay : (machine program).exec s run = some t) : s.next ≤ t.next := by
  induction run generalizing s with
  | nil => exact Option.some.inj replay ▸ Nat.le_refl _
  | cons a rest ih =>
    obtain ⟨u, taken, tail⟩ := Transition.Machine.exec_cons_eq_some.mp replay
    exact Nat.le_trans (refines.next_le taken) (ih (refines.of_step taken) tail)

/-- Every delivery of the run comes before the outermost call, or begins it. -/
theorem Began.delivered {run : List (Act L)} {u s : World L} (began : Began program run u s)
    {before after : List (Act L)} {handle : Handle} {reply : L.Reply} {t : World L}
    (split : run = before ++ .deliver handle reply :: after)
    (replay : (machine program).exec (.boot L) before = some t) : t.next ≤ u.next := by
  induction began generalizing after with
  | @begins first outer s u replayed isOuter taken =>
    have began : Began program (first ++ [outer]) u u := .begins replayed isOuter taken
    have whole := began.exec
    rw [split, Transition.Machine.exec_append, replay] at whole
    exact next_le_of_exec (refines_of_exec replay) whole
  | @goes run u s v began ticks ih =>
    rcases List.eq_nil_or_concat' after with rfl | ⟨init, last, rfl⟩
    · cases (List.append_inj' split rfl).2
    · rw [← List.cons_append, ← List.append_assoc] at split
      exact ih (List.append_inj' split rfl).1

theorem Chain.awaits_head {frames : Handle → Option (Frame L)} {task leaf : Handle}
    {others : List Handle} {stack : Stack L}
    (chain : Chain program frames task (leaf :: others) stack) :
    ∀ member ∈ leaf :: others, Relation.ReflTransGen (fun parent child =>
      ∃ frame, frames parent = some frame ∧ frame.point = some (.await child)) member leaf := by
  induction others generalizing leaf stack with
  | nil =>
    intro member here
    rw [List.mem_singleton.mp here]
  | cons parent others ih =>
    intro member here
    cases chain with
    | call rest callerFound awaits =>
      rcases List.mem_cons.mp here with rfl | here
      · exact .refl
      · exact (ih rest member here).tail ⟨_, callerFound, awaits⟩

theorem Refines.awaits_waiting {s : World L} (refines : Refines program s) {handle child : Handle}
    {frame other : Frame L} {event : L.Event} (found : s.frames handle = some frame)
    (point : frame.point = some (.wait event)) (there : s.frames child = some other)
    (same : other.task = frame.task) : s.Awaits child handle := by
  obtain ⟨task, member, mine⟩ := refines.owned handle frame found
  obtain ⟨handles, stack, traced⟩ := refines.traced task member
  obtain ⟨leaf, others, activation, below, rfl, rfl⟩ := traced.chain.shape
  have innermost : handle = leaf := by
    cases traced.all handle frame found mine.symm with
    | head => rfl
    | tail _ here =>
      obtain ⟨_, await⟩ := traced.chain.awaits handle here frame found
      cases point.symm.trans await
  subst innermost
  exact traced.chain.awaits_head child (traced.all child other there (same.trans mine.symm))

/-- A coroutine that ends has waited exactly if it is older than the outermost call. -/
theorem Began.hasWaited_iff {run : List (Act L)} {u s : World L} (began : Began program run u s)
    {child : Handle} (ending : s.ends = some child) :
    HasWaited program run child ↔ child < u.next := by
  have refines := refines_of_exec began.exec
  constructor
  · rintro ⟨before, handle, reply, after, t, split, replay, awaits⟩
    have refines_t := refines_of_exec replay
    have alive : ∃ frame, t.frames child = some frame := by
      cases awaits.cases_head with
      | inl same =>
        have whole := began.exec
        rw [split, Transition.Machine.exec_append, replay] at whole
        obtain ⟨_, taken, _⟩ := Transition.Machine.exec_cons_eq_some.mp whole
        obtain ⟨_, delivers⟩ := Option.ite_none_right_eq_some.mp taken
        obtain ⟨frame, _, _, _, _, found, _⟩ := World.deliver_eq_some delivers
        exact ⟨frame, same ▸ found⟩
      | inr step =>
        obtain ⟨_, ⟨frame, found, _⟩, _⟩ := step
        exact ⟨frame, found⟩
    obtain ⟨frame, found⟩ := alive
    exact Nat.lt_of_lt_of_le (refines_t.lt_next found) (began.delivered split replay)
  · intro older
    obtain ⟨parent, frame, caller, rest, ends⟩ := refines.ends_some ending
    obtain ⟨task, first, within⟩ := began_within began
    obtain ⟨_, again, mine⟩ := within.owner child rest ends.native
    cases ends.found.symm.trans again
    obtain ⟨earlier, was, same⟩ := within.old child frame older ends.found
    obtain ⟨above, were, same'⟩ :=
      within.old parent caller (Nat.lt_trans ends.later older) ends.callerFound
    have works := same.trans mine
    have works' := same'.trans (ends.works.trans mine)
    have later := ends.later
    clear ends ending refines within again
    induction began with
    | @begins before outer s u replay isOuter taken =>
      have refines := refines_of_exec replay
      cases outer with
      | tick => cases isOuter
      | spawn fn env =>
        -- no coroutine of a task that has just been spawned is awaited
        obtain ⟨idle, spawns⟩ := Option.ite_none_right_eq_some.mp taken
        rw [World.spawn_eq, idle] at spawns
        cases spawns
        obtain ⟨_, root, spawned⟩ := first.owner s.next [] rfl
        cases (Function.update_self s.next _ s.frames).symm.trans root
        have young : parent ≠ s.next :=
          Nat.ne_of_lt (Nat.lt_of_lt_of_le later (Nat.le_of_lt_succ older))
        have before : s.frames parent = some above :=
          (Function.update_of_ne young _ _).symm.trans were
        obtain ⟨spawned_task, member, mine⟩ := refines.owned parent above before
        obtain ⟨_, _, traced⟩ := refines.traced spawned_task member
        obtain ⟨_, alive, _⟩ := traced.chain.root_mem
        rw [mine, works', ← spawned, refines.fresh s.next (Nat.le_refl _)] at alive
        cases alive
      | deliver handle reply =>
        obtain ⟨idle, delivers⟩ := Option.ite_none_right_eq_some.mp taken
        obtain ⟨waiter, body, event, expected, resume, found, point, code, turn, rfl⟩ :=
          World.deliver_eq_some delivers
        obtain ⟨_, top, ofTask⟩ := first.owner handle [] rfl
        cases (Function.update_self handle _ s.frames).symm.trans top
        obtain ⟨other, there, sameTask⟩ : ∃ other, s.frames child = some other ∧
            other.task = waiter.task := by
          by_cases here : child = handle
          · subst here
            exact ⟨waiter, found, rfl⟩
          · refine ⟨earlier, (Function.update_of_ne here _ _).symm.trans was, ?_⟩
            exact works.trans ofTask.symm
        exact ⟨before, handle, reply, [], s, rfl, replay,
          refines.awaits_waiting found point there sameTask⟩
    | goes began ticks ih =>
      obtain ⟨before, handle, reply, after, t, rfl, replay, awaits⟩ := ih older first was were
      refine ⟨before, handle, reply, after ++ [.tick], t, ?_, replay, awaits⟩
      simp

theorem waitsFirst_concat {run : List (Act L)} {a : Act L} :
    WaitsFirst program (run ++ [a]) ↔ WaitsFirst program run ∧ (a = .tick → ∀ s child,
      (machine program).exec (.boot L) run = some s → s.ends = some child →
        HasWaited program run child) := by
  constructor
  · intro first
    constructor
    · intro before rest s child split
      apply first before (rest ++ [a]) s child
      rw [split, List.append_assoc, List.cons_append]
    · rintro rfl s child
      exact first run [] s child rfl
  · rintro ⟨earlier, last⟩ before rest s child split replay ends
    rcases List.eq_nil_or_concat' rest with rfl | ⟨init, final, rfl⟩
    · obtain ⟨rfl, same⟩ := List.append_inj' split rfl
      cases same
      exact last rfl s child replay ends
    · rw [← List.cons_append, ← List.append_assoc] at split
      exact earlier before init s child (List.append_inj' split rfl).1 replay ends

theorem endsLate_iff_waitsFirst {t : World L} {actions : List (Act L)}
    (replay : (machine program).exec (.boot L) actions = some t) :
    (machine program).Each EndsLate (.boot L) actions ↔ WaitsFirst program actions := by
  induction actions using List.reverseRecOn generalizing t with
  | nil =>
    refine iff_of_true trivial fun run rest s child split => ?_
    simp at split
  | append_singleton run a ih =>
    rw [Transition.Machine.exec_append] at replay
    obtain ⟨s, before, last⟩ := Option.bind_eq_some_iff.mp replay
    obtain ⟨_, taken, same⟩ := Transition.Machine.exec_cons_eq_some.mp last
    cases same
    rw [Transition.Machine.each_concat, waitsFirst_concat, ← ih before]
    refine and_congr_right fun late => ?_
    cases a with
    | spawn fn env => exact iff_of_true (fun _ _ => trivial) nofun
    | deliver handle reply => exact iff_of_true (fun _ _ => trivial) nofun
    | tick =>
      have active : s.native ≠ [] := by
        intro idle
        cases (tick_idle idle).symm.trans taken
      obtain ⟨u, began⟩ := exists_began before active
      have exactly := (timely_of_endsLate began late).endsLate_iff (refines_of_exec before)
      constructor
      · rintro met - s' child replay' ends
        cases before.symm.trans replay'
        exact (began.hasWaited_iff ends).mpr (exactly.mp (met s before) child ends)
      · intro waited s' replay'
        cases before.symm.trans replay'
        exact exactly.mpr fun child ends =>
          (began.hasWaited_iff ends).mp (waited rfl s child before ends)

/-! ## The depth of the native stack -/

theorem Refines.mem_alive {s : World L} (refines : Refines program s) {handle : Handle}
    {frame : Frame L} (found : s.frames handle = some frame) : handle ∈ s.alive := by
  simp [World.alive, refines.lt_next found, found]

theorem StartedAbove.alive {frames : Handle → Option (Frame L)} {base : Handle}
    {native : List Resume} (started : StartedAbove frames base native) {record : Resume}
    (member : record ∈ native) (young : base ≤ record.handle) :
    ∃ frame, frames record.handle = some frame := by
  induction native with
  | nil => cases member
  | cons head rest ih =>
    rcases List.mem_cons.mp member with rfl | member
    · obtain ⟨frame, _, found, _⟩ := started.1 young
      exact ⟨frame, found⟩
    · exact ih started.2 member

theorem bounded_of_endsLate {run : List (Act L)} {s : World L}
    (replay : (machine program).exec (.boot L) run = some s)
    (late : (machine program).Each EndsLate (.boot L) run) : Bounded program run s := by
  have once := nestsOnce_of_endsLate replay late
  refine ⟨once, fun active => ?_⟩
  obtain ⟨u, began⟩ := exists_began replay active
  obtain ⟨task, first, within⟩ := began_within began
  have timely := timely_of_endsLate began late
  have refines := refines_of_exec replay
  refine ⟨u, began, ?_⟩
  have among : s.native.map Resume.handle ⊆ u.alive ∪ s.alive := by
    intro handle member
    obtain ⟨record, listed, rfl⟩ := List.mem_map.mp member
    rw [List.mem_union_iff]
    by_cases older : record.handle < u.next
    · obtain ⟨frame, found⟩ := within.stacked record listed older
      left
      simp [World.alive, older, found]
    · obtain ⟨frame, found⟩ := timely.started.alive listed (Nat.le_of_not_lt older)
      exact .inr (refines.mem_alive found)
  have bound := List.Nodup.length_le_of_subset once among
  rw [List.length_map] at bound
  exact bound

/-- Along every run each coroutine has at most one active call of `resume()`, and these calls
are no more than there are coroutines, exactly when no coroutine that another one awaits ends
before it has waited. -/
theorem nests_within_iff {t : World L} {actions : List (Act L)}
    (replay : (machine program).exec (.boot L) actions = some t) :
    NestsWithin program actions ↔ WaitsFirst program actions := by
  rw [← endsLate_iff_waitsFirst replay]
  constructor
  · intro within
    apply (nestsOnce_iff_endsLate replay).mp
    apply Transition.Machine.throughout_iff_forall.mpr
    exact fun run rest s split before => (within run rest s split before).1
  · rintro late run rest s rfl before
    exact bounded_of_endsLate before (Transition.Machine.each_append.mp late).1

/-- Coroutine `fn + 1` awaits one of `fn`, and the last one waits. -/
def chained : natLang.Fn → Routine natLang
  | 0 => .void (.wait (fun _ => 5) fun _ env => env)
  | fn + 1 => .void (.call fn id fun _ env => env)

/-- When its event has come, the innermost of three coroutines ends, and so does the next one. -/
def chainedRun : List (Act natLang) :=
  [.spawn 2 0] ++ List.replicate 5 .tick ++ [.deliver 2 0] ++ List.replicate 4 .tick

instance (s : World L) : ∀ a : Act L, Decidable (EndsLate s a)
  | .tick => inferInstanceAs (Decidable (∀ parent ∈ s.continues, ⟨parent, .awaitSuspend⟩ ∉ s.native))
  | .spawn .. | .deliver .. => isTrue trivial

theorem nests_within_iff_chained : ∃ t, (machine chained).exec (.boot natLang) chainedRun = some t ∧
    t.native.length = 3 ∧ t.alive = [0] ∧ NestsWithin chained chainedRun := by
  have run : ((machine chained).exec (.boot natLang) chainedRun).map
      (fun t => (t.native.length, t.alive)) = some (3, [0]) := by decide
  obtain ⟨t, replay, final⟩ := Option.map_eq_some_iff.mp run
  simp only [Prod.mk.injEq] at final
  have late : (machine chained).Each EndsLate (.boot natLang) chainedRun := by decide
  exact ⟨t, replay, final.1, final.2,
    (nests_within_iff replay).mpr ((endsLate_iff_waitsFirst replay).mp late)⟩

end CoroEpoll.Task
