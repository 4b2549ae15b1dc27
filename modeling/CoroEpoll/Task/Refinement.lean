import CoroEpoll.Task.Ticks

/-! `Task`'s coroutines refine a stack of direct calls for each spawned task.

The chain of a task's frames carries the stack that direct calls have after the same
replies. The steps of a coroutine are the steps of the stack; the returns of
`await_suspend` change nothing.
-/

set_option autoImplicit false

namespace CoroEpoll.Task

open Routines

variable {L : Lang} {program : L.Fn → Routine L}

/-- The stack is one that direct calls of the task have after these replies. -/
def Reads (program : L.Fn → Routine L) (task : Spawned L) (replies : List L.Reply)
    (stack : Stack L) : Prop :=
  ∃ actions : List (Option L.Reply), actions.reduceOption = replies ∧
    (stackMachine program).exec [.live task.fn ((program task.fn).enter task.env)] actions =
      some stack

theorem Reads.advance {task : Spawned L} {replies : List L.Reply} {stack next : Stack L}
    (reads : Reads program task replies stack) (steps : advance program stack = some next) :
    Reads program task replies next := by
  obtain ⟨actions, read, replay⟩ := reads
  refine ⟨actions ++ [none], ?_, ?_⟩
  · rw [List.reduceOption_append, read]
    exact List.append_nil _
  · rw [Transition.Machine.exec_append, replay]
    exact Transition.Machine.exec_cons (m := stackMachine program) steps

theorem Reads.supply {task : Spawned L} {replies : List L.Reply} {stack next : Stack L}
    {reply : L.Reply} (reads : Reads program task replies stack)
    (steps : supply reply stack = some next) :
    Reads program task (replies ++ [reply]) next := by
  obtain ⟨actions, read, replay⟩ := reads
  refine ⟨actions ++ [some reply], ?_, ?_⟩
  · rw [List.reduceOption_append, read]
    rfl
  · rw [Transition.Machine.exec_append, replay]
    exact Transition.Machine.exec_cons (m := stackMachine program) steps

inductive Active (frames : Handle → Option (Frame L)) (handle : Handle) : List Handle → Prop where
  | runs {frame : Frame L} {others : List Handle} : frames handle = some frame →
      frame.point = none → Active frames handle (handle :: others)
  | resumes {child : Handle} {frame : Frame L} {others : List Handle} :
      frames child = some frame → frame.done = true → Active frames handle (child :: handle :: others)

inductive AtRest (frames : Handle → Option (Frame L)) : List Handle → Prop where
  | waits {leaf : Handle} {frame : Frame L} {others : List Handle} {body : Body L}
      {event : L.Event} {resume : L.Reply → Body L} : frames leaf = some frame →
      frame.point = some (.wait event) → frame.body = some body →
      body.turn = .waits event resume → AtRest frames (leaf :: others)
  | done {leaf : Handle} {frame : Frame L} : frames leaf = some frame → frame.done = true →
      AtRest frames [leaf]

/-- The chain and the stack of a spawned task. -/
structure Traced (program : L.Fn → Routine L) (s : World L) (task : Spawned L)
    (handles : List Handle) (stack : Stack L) : Prop where
  chain : Chain program s.frames task.handle handles stack
  all : ∀ (member : Handle) (frame : Frame L), s.frames member = some frame →
    frame.task = task.handle → member ∈ handles
  reads : Reads program task (s.delivered task.handle) stack
  active : ∀ (handle : Handle) (rest : List Resume), s.native = ⟨handle, .body⟩ :: rest →
    handle ∈ handles → Active s.frames handle handles
  atRest : (∀ (handle : Handle) (rest : List Resume), s.native = ⟨handle, .body⟩ :: rest →
    handle ∉ handles) → AtRest s.frames handles

structure Refines (program : L.Fn → Routine L) (s : World L) : Prop where
  fresh : ∀ handle, s.next ≤ handle → s.frames handle = none
  undelivered : ∀ handle, s.next ≤ handle → s.delivered handle = []
  owned : ∀ (handle : Handle) (frame : Frame L), s.frames handle = some frame →
    ∃ task ∈ s.tasks, task.handle = frame.task
  below : ∀ record ∈ s.native.tail, record.site ≠ .body
  top : ∀ (handle : Handle) (rest : List Resume), s.native = ⟨handle, .body⟩ :: rest →
    ∃ frame, s.frames handle = some frame
  traced : ∀ task ∈ s.tasks, ∃ handles stack, Traced program s task handles stack

/-! ## Every step is one of `Moves` -/

theorem Carries.body_of_live {frame : Frame L} {fn : L.Fn} {body : Body L}
    (carries : Carries program frame (.live fn body)) : frame.body = some body := by
  cases carries with
  | live code => exact code

theorem Traced.running {s : World L} {task : Spawned L} {handles : List Handle} {stack : Stack L}
    {handle : Handle} {rest : List Resume} {frame : Frame L}
    (traced : Traced program s task handles stack) (native : s.native = ⟨handle, .body⟩ :: rest)
    (found : s.frames handle = some frame) (mine : frame.task = task.handle)
    (runs : frame.point = none) :
    ∃ others body below, handles = handle :: others ∧ stack = .live frame.fn body :: below ∧
      frame.body = some body := by
  have chain := traced.chain
  cases traced.active handle rest native (traced.all handle frame found mine) with
  | runs =>
    obtain ⟨leaf, others, activation, below, same, rfl⟩ := chain.shape
    cases same
    obtain ⟨head, here, carries⟩ := chain.head
    cases found.symm.trans here
    cases carries with
    | live code => exact ⟨_, _, _, rfl, rfl, code⟩
    | ended code final =>
      rw [Frame.done, runs] at final
      cases final
  | resumes =>
    obtain ⟨child, await⟩ := chain.awaits handle List.mem_cons_self frame found
    cases runs.symm.trans await

theorem Refines.moves {s : World L} (refines : Refines program s) (active : s.native ≠ []) :
    ∃ t, Moves program s t := by
  obtain ⟨⟨handle, site⟩, rest, native⟩ := List.exists_cons_of_ne_nil active
  by_cases inBody : site = .body
  · subst inBody
    obtain ⟨frame, found⟩ := refines.top handle rest native
    obtain ⟨task, member, mine⟩ := refines.owned handle frame found
    obtain ⟨handles, stack, traced⟩ := refines.traced task member
    have chain := traced.chain
    cases traced.active handle rest native (traced.all handle frame found mine.symm) with
    | @runs _ others here runs =>
      cases here.symm.trans found
      obtain ⟨_, body, below, same, rfl, code⟩ :=
        traced.running native found mine.symm runs
      cases same
      cases turn : body.turn with
      | goes next => exact ⟨_, .goes native found runs code turn⟩
      | waits event resume => exact ⟨_, .waits native found runs code turn⟩
      | calls callee env resume =>
        exact ⟨_, .calls native found runs code turn (refines.fresh _ (Nat.le_refl _))⟩
      | ends flow =>
        cases chain with
        | root again _ outer =>
          cases found.symm.trans again
          exact ⟨_, .completes native found runs code turn outer⟩
        | call _ caller awaits _ _ again _ linked =>
          cases found.symm.trans again
          exact ⟨_, .ends native found runs code turn linked caller awaits⟩
    | resumes here final =>
      cases chain with
      | call outer caller awaits turn later childFound _ linked carries =>
        cases childFound.symm.trans here
        obtain ⟨_, callerFound, live⟩ := outer.head
        cases callerFound.symm.trans caller
        cases carries with
        | live _ _ _ unfinished =>
          rw [unfinished] at final
          cases final
        | ended code done holds =>
          exact ⟨_, .resumes native caller awaits live.body_of_live turn here
            (.ended code done holds) linked later⟩
  · exact ⟨_, .returns native inBody⟩

/-! ## Every step keeps the refinement -/

def Only (owner : Handle) (before after : Handle → Option (Frame L)) : Prop :=
  ∀ member, after member = before member ∨
    ((∀ frame, before member = some frame → frame.task = owner) ∧
      ∀ frame, after member = some frame → frame.task = owner)

theorem Only.update {owner handle : Handle} {frames : Handle → Option (Frame L)}
    {changed : Option (Frame L)} (old : ∀ frame, frames handle = some frame → frame.task = owner)
    (new : ∀ frame, changed = some frame → frame.task = owner) :
    Only owner frames (Function.update frames handle changed) := by
  intro member
  by_cases here : member = handle
  · subst here
    rw [Function.update_self]
    exact .inr ⟨old, new⟩
  · exact .inl (Function.update_of_ne here _ _)

theorem Only.trans {owner : Handle} {first second third : Handle → Option (Frame L)}
    (left : Only owner first second) (right : Only owner second third) :
    Only owner first third := by
  intro member
  rcases right member with same | ⟨before, after⟩
  · rw [same]
    exact left member
  · rcases left member with same | ⟨earlier, _⟩
    · rw [same] at before
      exact .inr ⟨before, after⟩
    · exact .inr ⟨earlier, after⟩

structure Local (s t : World L) (owner : Handle) : Prop where
  tasks : t.tasks = s.tasks
  delivered : ∀ task, task ≠ owner → t.delivered task = s.delivered task
  frames : Only owner s.frames t.frames
  before : ∀ (handle : Handle) (rest : List Resume), s.native = ⟨handle, .body⟩ :: rest →
    ∃ frame, s.frames handle = some frame ∧ frame.task = owner
  after : ∀ (handle : Handle) (rest : List Resume), t.native = ⟨handle, .body⟩ :: rest →
    ∃ frame, t.frames handle = some frame ∧ frame.task = owner

theorem Local.same {s t : World L} {owner : Handle} (only : Local s t owner) {member : Handle}
    {frame : Frame L} (other : frame.task ≠ owner) :
    t.frames member = some frame ↔ s.frames member = some frame := by
  rcases only.frames member with same | ⟨before, after⟩
  · rw [same]
  · exact ⟨fun found => absurd (after frame found) other, fun found => absurd (before frame found) other⟩

theorem Traced.other {s t : World L} {owner : Handle} {task : Spawned L} {handles : List Handle}
    {stack : Stack L} (traced : Traced program s task handles stack) (only : Local s t owner)
    (apart : task.handle ≠ owner) : Traced program t task handles stack := by
  have same : ∀ member ∈ handles, t.frames member = s.frames member := by
    intro member here
    obtain ⟨frame, found, works⟩ := traced.chain.works member here
    rw [found]
    exact (only.same (works ▸ apart)).mpr found
  -- the step is that of a coroutine of the owner, which is not in this chain
  have idle : ∀ (handle : Handle) (rest : List Resume), s.native = ⟨handle, .body⟩ :: rest →
      handle ∉ handles := by
    intro handle rest native here
    obtain ⟨frame, found, mine⟩ := only.before handle rest native
    obtain ⟨_, again, works⟩ := traced.chain.works handle here
    cases found.symm.trans again
    exact apart (works.symm.trans mine)
  constructor
  · exact traced.chain.congr same
  · intro member frame found mine
    exact traced.all member frame ((only.same (mine ▸ apart)).mp found) mine
  · rw [only.delivered _ apart]
    exact traced.reads
  · intro handle rest native here
    obtain ⟨frame, found, mine⟩ := only.after handle rest native
    obtain ⟨_, again, works⟩ := traced.chain.works handle here
    rw [same handle here] at found
    cases found.symm.trans again
    exact absurd (works.symm.trans mine) apart
  · intro _
    cases traced.atRest idle with
    | waits found point code turn =>
      exact .waits ((same _ List.mem_cons_self).trans found) point code turn
    | done found final => exact .done ((same _ List.mem_cons_self).trans found) final

/-- A step of one task keeps the refinement when it keeps that of this task. -/
theorem Refines.of_local {s t : World L} {owner : Handle} (refines : Refines program s)
    (only : Local s t owner) (fresh : ∀ handle, t.next ≤ handle → t.frames handle = none)
    (undelivered : ∀ handle, t.next ≤ handle → t.delivered handle = [])
    (exists_owner : ∃ task ∈ s.tasks, task.handle = owner)
    (below : ∀ record ∈ t.native.tail, record.site ≠ .body)
    (mine : ∀ task ∈ s.tasks, task.handle = owner → ∀ handles stack,
      Traced program s task handles stack →
        ∃ handles stack, Traced program t task handles stack) : Refines program t := by
  constructor
  · exact fresh
  · exact undelivered
  · intro handle frame found
    rw [only.tasks]
    by_cases works : frame.task = owner
    · rw [works]
      exact exists_owner
    · exact refines.owned handle frame ((only.same works).mp found)
  · exact below
  · intro handle rest native
    obtain ⟨frame, found, _⟩ := only.after handle rest native
    exact ⟨frame, found⟩
  · intro task member
    rw [only.tasks] at member
    obtain ⟨handles, stack, traced⟩ := refines.traced task member
    by_cases works : task.handle = owner
    · exact mine task member works handles stack traced
    · exact ⟨handles, stack, traced.other only works⟩

theorem Refines.lt_next {s : World L} (refines : Refines program s) {handle : Handle}
    {frame : Frame L} (found : s.frames handle = some frame) : handle < s.next := by
  apply Nat.lt_of_not_le
  intro beyond
  cases (refines.fresh handle beyond).symm.trans found

theorem Only.setFrame {frames : Handle → Option (Frame L)} {handle : Handle}
    {frame : Frame L} (after : Frame L) (found : frames handle = some frame) (works : after.task = frame.task) :
    Only frame.task frames (Function.update frames handle (some after)) := by
  apply Only.update
  · intro other again
    cases found.symm.trans again
    rfl
  · intro other same
    cases same
    exact works

theorem top_eq {s : World L} {handle other : Handle} {rest others : List Resume}
    (native : s.native = ⟨handle, .body⟩ :: rest) (same : s.native = ⟨other, .body⟩ :: others) :
    handle = other := by
  cases native.symm.trans same
  rfl

theorem local_setFrame {s t : World L} {handle : Handle} {frame : Frame L} (after : Frame L)
    {rest : List Resume} (native : s.native = ⟨handle, .body⟩ :: rest)
    (found : s.frames handle = some frame) (works : after.task = frame.task)
    (frames : t.frames = Function.update s.frames handle (some after)) (tasks : t.tasks = s.tasks)
    (delivered : t.delivered = s.delivered)
    (top : ∀ (handle : Handle) (rest : List Resume), t.native = ⟨handle, .body⟩ :: rest →
      ∃ after, t.frames handle = some after ∧ after.task = frame.task) :
    Local s t frame.task := by
  refine ⟨tasks, fun _ _ => by rw [delivered], ?_, fun other _ same => ?_, top⟩
  · rw [frames]
    exact .setFrame after found works
  · cases native.symm.trans same
    exact ⟨frame, found, rfl⟩

theorem Traced.setFrame {s : World L} {task : Spawned L} {handles : List Handle} {stack : Stack L}
    {handle : Handle} {rest : List Resume} {frame : Frame L} (after : Frame L) {body : Body L}
    {next : Activation L} (traced : Traced program s task handles stack)
    (native : s.native = ⟨handle, .body⟩ :: rest) (found : s.frames handle = some frame)
    (mine : frame.task = task.handle) (runs : frame.point = none) (code : frame.body = some body)
    (task_eq : after.task = frame.task)
    (continuation_eq : after.promise.continuation = frame.promise.continuation)
    (carries : Carries program after next) :
    ∃ others below, handles = handle :: others ∧ stack = .live frame.fn body :: below ∧
      Chain program (Function.update s.frames handle (some after)) task.handle handles
        (next :: below) ∧
      ∀ member frame, Function.update s.frames handle (some after) member = some frame →
        frame.task = task.handle → member ∈ handles := by
  obtain ⟨others, _, below, rfl, rfl, code'⟩ := traced.running native found mine runs
  cases code.symm.trans code'
  refine ⟨others, below, rfl, rfl, traced.chain.replace found task_eq continuation_eq carries, ?_⟩
  intro member other here works
  by_cases same : member = handle
  · exact same ▸ List.mem_cons_self
  · rw [Function.update_of_ne same] at here
    exact traced.all member other here works

theorem Traced.unset {s : World L} {task : Spawned L} {handles : List Handle} {stack : Stack L}
    {handle : Handle} {rest : List Resume} {frame : Frame L}
    (traced : Traced program s task handles stack) (native : s.native = ⟨handle, .body⟩ :: rest)
    (found : s.frames handle = some frame) (mine : frame.task = task.handle)
    (runs : frame.point = none) : frame.promise.value = none ∧ frame.promise.exception = none := by
  obtain ⟨_, _, _, rfl, rfl, _⟩ := traced.running native found mine runs
  obtain ⟨head, here, carries⟩ := traced.chain.head
  cases found.symm.trans here
  cases carries with
  | live _ value exception => exact ⟨value, exception⟩

theorem Traced.parent {s : World L} {task : Spawned L} {handles : List Handle} {stack : Stack L}
    {handle : Handle} {frame : Frame L}
    (traced : Traced program s task (handle :: handles) stack)
    (found : s.frames handle = some frame) :
    handles.head? = frame.promise.continuation := by
  cases traced.chain with
  | root again _ outer =>
    cases found.symm.trans again
    exact outer.symm
  | call _ _ _ _ _ again _ linked =>
    cases found.symm.trans again
    exact linked.symm

/-- Nothing under the innermost call of `resume()` is in a body. -/
theorem Refines.idle_below {s : World L} (refines : Refines program s) {record : Resume}
    {rest : List Resume} (native : s.native = record :: rest) :
    ∀ (handle : Handle) (others : List Resume), rest ≠ ⟨handle, .body⟩ :: others := by
  rintro handle others rfl
  exact refines.below ⟨handle, .body⟩ (by rw [native]; exact List.mem_cons_self) rfl

theorem Refines.below_rest {s : World L} (refines : Refines program s) {record : Resume}
    {rest : List Resume} (native : s.native = record :: rest) :
    ∀ other ∈ rest, other.site ≠ .body := by
  intro other member
  exact refines.below other (by rw [native]; exact member)

theorem Refines.fresh_setFrame {s : World L} (refines : Refines program s) {handle : Handle}
    {frame : Frame L} (found : s.frames handle = some frame) (after : Frame L) :
    ∀ other, s.next ≤ other → Function.update s.frames handle (some after) other = none := by
  intro other beyond
  have apart : other ≠ handle := by
    rintro rfl
    exact absurd (refines.lt_next found) (Nat.not_lt.mpr beyond)
  rw [Function.update_of_ne apart]
  exact refines.fresh other beyond

theorem Refines.returns {s : World L} (refines : Refines program s) {record : Resume}
    {rest : List Resume} (native : s.native = record :: rest) (inAwait : record.site ≠ .body) :
    Refines program { s with native := rest } := by
  have idle : ∀ (handle : Handle) (others : List Resume), s.native ≠ ⟨handle, .body⟩ :: others := by
    intro handle others same
    cases native.symm.trans same
    exact inAwait rfl
  -- no frame changes; before and after, no body runs
  have still := refines.idle_below native
  refine ⟨refines.fresh, refines.undelivered, refines.owned, ?_, ?_, ?_⟩
  · intro other member
    exact refines.below_rest native other (List.mem_of_mem_tail member)
  · exact fun handle others same => absurd same (still handle others)
  · intro task member
    obtain ⟨handles, stack, traced⟩ := refines.traced task member
    refine ⟨handles, stack, traced.chain, traced.all, traced.reads, ?_, ?_⟩
    · exact fun handle others same => absurd same (still handle others)
    · exact fun _ => traced.atRest fun handle others same => absurd same (idle handle others)

/-- The task has taken one step of its stack, and its coroutines run no others. -/
def Follows (program : L.Fn → Routine L) (t : World L) (task : Spawned L) (stack : Stack L) :
    Prop :=
  ∃ handles next, Traced program t task handles next ∧ advance program stack = some next ∧
    ∀ (top : Handle) (rest : List Resume), t.native = ⟨top, .body⟩ :: rest → top ∈ handles

theorem Follows.traced {t : World L} {task : Spawned L} {stack : Stack L}
    (follows : Follows program t task stack) :
    ∃ handles next, Traced program t task handles next := by
  obtain ⟨handles, next, traced, _⟩ := follows
  exact ⟨handles, next, traced⟩

section Running

variable {s : World L} {handle : Handle} {frame : Frame L} {rest : List Resume} {body : Body L}
  {task : Spawned L} {handles : List Handle} {stack : Stack L}

theorem Traced.goes (traced : Traced program s task handles stack) {next : Body L}
    (native : s.native = ⟨handle, .body⟩ :: rest) (found : s.frames handle = some frame)
    (mine : frame.task = task.handle) (runs : frame.point = none) (code : frame.body = some body)
    (turn : body.turn = .goes next) :
    Follows program (s.setFrame handle { frame with body := some next }) task stack := by
  let after : Frame L := { frame with body := some next }
  obtain ⟨value, exception⟩ := traced.unset native found mine runs
  have carries : Carries program after (.live frame.fn next) :=
    .live rfl value exception (by simp [Frame.done, after, runs])
  obtain ⟨others, below, rfl, rfl, chain, all⟩ :=
    traced.setFrame after native found mine runs code rfl rfl carries
  have steps : advance program (.live frame.fn body :: below) = some (.live frame.fn next :: below) := by
    simp only [advance, turn]
  have top : ∀ (other : Handle) (others : List Resume), s.native = ⟨other, .body⟩ :: others →
      other = handle := fun _ _ same => (top_eq native same).symm
  refine ⟨_, _, ⟨chain, all, traced.reads.advance steps, ?_, ?_⟩, steps, ?_⟩
  · intro other others same _
    rw [top other others same]
    exact .runs (Function.update_self ..) runs
  · exact fun idle => absurd List.mem_cons_self (idle handle rest native)
  · intro other others same
    rw [top other others same]
    exact List.mem_cons_self

theorem Refines.goes (refines : Refines program s) {next : Body L}
    (native : s.native = ⟨handle, .body⟩ :: rest) (found : s.frames handle = some frame)
    (runs : frame.point = none) (code : frame.body = some body) (turn : body.turn = .goes next) :
    Refines program (s.setFrame handle { frame with body := some next }) := by
  let after : Frame L := { frame with body := some next }
  have only : Local s (s.setFrame handle after) frame.task := by
    refine local_setFrame after native found rfl rfl rfl rfl fun other others same => ?_
    rw [← top_eq native same]
    exact ⟨after, Function.update_self .., rfl⟩
  refine refines.of_local only (refines.fresh_setFrame found after) refines.undelivered
    (refines.owned handle frame found) refines.below ?_
  intro task member mine handles stack traced
  exact (traced.goes native found mine.symm runs code turn).traced

theorem Refines.waits (refines : Refines program s) {event : L.Event}
    {resume : L.Reply → Body L} (native : s.native = ⟨handle, .body⟩ :: rest)
    (found : s.frames handle = some frame) (runs : frame.point = none)
    (code : frame.body = some body) (turn : body.turn = .waits event resume) :
    Refines program
      { s.setFrame handle { frame with point := some (.wait event) } with native := rest } := by
  let after : Frame L := { frame with point := some (.wait event) }
  have still := refines.idle_below native
  have only : Local s { s.setFrame handle after with native := rest } frame.task :=
    local_setFrame after native found rfl rfl rfl rfl
      fun other others same => absurd same (still other others)
  refine refines.of_local only (refines.fresh_setFrame found after) refines.undelivered
    (refines.owned handle frame found)
    (fun other member => refines.below_rest native other (List.mem_of_mem_tail member)) ?_
  intro task member mine handles stack traced
  obtain ⟨value, exception⟩ := traced.unset native found mine.symm runs
  have carries : Carries program after (.live frame.fn body) := .live code value exception rfl
  obtain ⟨others, below, rfl, rfl, chain, all⟩ :=
    traced.setFrame after native found mine.symm runs code rfl rfl carries
  refine ⟨_, _, chain, all, traced.reads, ?_, ?_⟩
  · exact fun other others same => absurd same (still other others)
  · exact fun _ => .waits (Function.update_self ..) rfl code turn

theorem Traced.completes (traced : Traced program s task handles stack) (refines : Refines program s)
    {flow : Flow L} (finished : List (Handle × Outcome L))
    (native : s.native = ⟨handle, .body⟩ :: rest) (found : s.frames handle = some frame)
    (mine : frame.task = task.handle) (runs : frame.point = none) (code : frame.body = some body)
    (turn : body.turn = .ends flow) (outer : frame.promise.continuation = none) :
    Follows program
      { s.setFrame handle
          { frame with
            promise := frame.promise.leave (program frame.fn) flow
            point := some .final
            body := none } with
        finished, native := rest } task stack := by
  let after : Frame L :=
    { frame with
      promise := frame.promise.leave (program frame.fn) flow, point := some .final, body := none }
  have still := refines.idle_below native
  obtain ⟨value, exception⟩ := traced.unset native found mine runs
  have carries : Carries program after (.ended ((program frame.fn).outcome flow)) :=
    .ended rfl rfl (Promise.holds_leave value exception _ _)
  obtain ⟨others, below, rfl, rfl, chain, all⟩ :=
    traced.setFrame after native found mine runs code rfl (Promise.leave_continuation ..) carries
  -- a coroutine with no continuation is that of the task itself
  have alone : others = [] := List.head?_eq_none_iff.mp ((traced.parent found).trans outer)
  subst alone
  have steps : advance program (.live frame.fn body :: below) =
      some (.ended ((program frame.fn).outcome flow) :: below) := by
    simp only [advance, turn]
  refine ⟨_, _, ⟨chain, all, traced.reads.advance steps, ?_, ?_⟩, steps, ?_⟩
  · exact fun other others same => absurd same (still other others)
  · exact fun _ => .done (Function.update_self ..) rfl
  · exact fun other others same => absurd same (still other others)

theorem Refines.completes (refines : Refines program s) {flow : Flow L} (finished : List (Handle × Outcome L))
    (native : s.native = ⟨handle, .body⟩ :: rest) (found : s.frames handle = some frame)
    (runs : frame.point = none) (code : frame.body = some body) (turn : body.turn = .ends flow)
    (outer : frame.promise.continuation = none) :
    Refines program
      { s.setFrame handle
          { frame with
            promise := frame.promise.leave (program frame.fn) flow
            point := some .final
            body := none } with
        finished, native := rest } := by
  let after : Frame L :=
    { frame with
      promise := frame.promise.leave (program frame.fn) flow, point := some .final, body := none }
  have still := refines.idle_below native
  have only : Local s { s.setFrame handle after with finished, native := rest } frame.task :=
    local_setFrame after native found rfl rfl rfl rfl
      fun other others same => absurd same (still other others)
  refine refines.of_local only (refines.fresh_setFrame found after) refines.undelivered
    (refines.owned handle frame found)
    (fun other member => refines.below_rest native other (List.mem_of_mem_tail member)) ?_
  intro task member mine handles stack traced
  exact (traced.completes refines finished native found mine.symm runs code turn outer).traced

theorem Traced.ends (traced : Traced program s task handles stack) {flow : Flow L}
    (finished : List (Handle × Outcome L)) {parent : Handle}
    (native : s.native = ⟨handle, .body⟩ :: rest) (found : s.frames handle = some frame)
    (mine : frame.task = task.handle) (runs : frame.point = none) (code : frame.body = some body)
    (turn : body.turn = .ends flow) (linked : frame.promise.continuation = some parent) :
    Follows program
      { s.setFrame handle
          { frame with
            promise := frame.promise.leave (program frame.fn) flow
            point := some .final
            body := none } with
        finished, native := ⟨parent, .body⟩ :: ⟨handle, .finalSuspend⟩ :: rest } task stack := by
  let after : Frame L :=
    { frame with
      promise := frame.promise.leave (program frame.fn) flow, point := some .final, body := none }
  obtain ⟨value, exception⟩ := traced.unset native found mine runs
  have carries : Carries program after (.ended ((program frame.fn).outcome flow)) :=
    .ended rfl rfl (Promise.holds_leave value exception _ _)
  obtain ⟨others, below, rfl, rfl, chain, all⟩ :=
    traced.setFrame after native found mine runs code rfl (Promise.leave_continuation ..) carries
  obtain ⟨more, rfl⟩ := List.head?_eq_some_iff.mp ((traced.parent found).trans linked)
  have steps : advance program (.live frame.fn body :: below) =
      some (.ended ((program frame.fn).outcome flow) :: below) := by
    simp only [advance, turn]
  have inside : parent ∈ handle :: parent :: more := List.mem_cons_of_mem _ List.mem_cons_self
  refine ⟨_, _, ⟨chain, all, traced.reads.advance steps, ?_, ?_⟩, steps, ?_⟩
  · intro other others same _
    cases same
    exact .resumes (Function.update_self ..) rfl
  · exact fun idle => absurd inside (idle parent _ rfl)
  · intro other others same
    cases same
    exact inside

theorem Refines.ends (refines : Refines program s) {flow : Flow L} (finished : List (Handle × Outcome L))
    {parent : Handle} {caller : Frame L} (native : s.native = ⟨handle, .body⟩ :: rest)
    (found : s.frames handle = some frame) (runs : frame.point = none)
    (code : frame.body = some body) (turn : body.turn = .ends flow)
    (linked : frame.promise.continuation = some parent) (callerFound : s.frames parent = some caller)
    (awaits : caller.point = some (.await handle)) :
    Refines program
      { s.setFrame handle
          { frame with
            promise := frame.promise.leave (program frame.fn) flow
            point := some .final
            body := none } with
        finished, native := ⟨parent, .body⟩ :: ⟨handle, .finalSuspend⟩ :: rest } := by
  let after : Frame L :=
    { frame with
      promise := frame.promise.leave (program frame.fn) flow, point := some .final, body := none }
  have apart : parent ≠ handle := by
    rintro rfl
    cases found.symm.trans callerFound
    cases runs.symm.trans awaits
  -- the continuation works for the same task
  have works : caller.task = frame.task := by
    obtain ⟨task, member, mine⟩ := refines.owned handle frame found
    obtain ⟨handles, stack, traced⟩ := refines.traced task member
    obtain ⟨others, _, _, rfl, rfl, _⟩ := traced.running native found mine.symm runs
    obtain ⟨more, rfl⟩ := List.head?_eq_some_iff.mp ((traced.parent found).trans linked)
    obtain ⟨_, again, works⟩ :=
      traced.chain.works parent (List.mem_cons_of_mem _ List.mem_cons_self)
    cases callerFound.symm.trans again
    exact works.trans mine
  have only : Local s { s.setFrame handle after with
      finished, native := ⟨parent, .body⟩ :: ⟨handle, .finalSuspend⟩ :: rest } frame.task := by
    refine local_setFrame after native found rfl rfl rfl rfl fun other others same => ?_
    cases same
    exact ⟨caller, (Function.update_of_ne apart _ _).trans callerFound, works⟩
  refine refines.of_local only (refines.fresh_setFrame found after) refines.undelivered
    (refines.owned handle frame found) ?_ ?_
  · intro other member
    cases member with
    | head => exact nofun
    | tail _ member => exact refines.below_rest native other member
  · intro task member mine handles stack traced
    exact (traced.ends finished native found mine.symm runs code turn linked).traced

theorem Traced.calls (traced : Traced program s task handles stack) (refines : Refines program s)
    {callee : L.Fn} {env : L.Env} {resume : Outcome L → Body L} (awaited : List (Handle × Handle))
    (native : s.native = ⟨handle, .body⟩ :: rest) (found : s.frames handle = some frame)
    (mine : frame.task = task.handle) (runs : frame.point = none) (code : frame.body = some body)
    (turn : body.turn = .calls callee env resume) :
    Follows program
      { (s.setFrame handle { frame with point := some (.await s.next) }).setFrame s.next
          { fn := callee
            task := frame.task
            promise := { (.empty : Promise L) with continuation := some handle }
            point := none
            body := some ((program callee).enter env) } with
        next := s.next + 1
        native := ⟨s.next, .body⟩ :: ⟨handle, .awaitSuspend⟩ :: rest
        awaited } task stack := by
  let after : Frame L := { frame with point := some (.await s.next) }
  let child : Frame L :=
    { fn := callee
      task := frame.task
      promise := { (.empty : Promise L) with continuation := some handle }
      point := none
      body := some ((program callee).enter env) }
  have later : handle < s.next := refines.lt_next found
  have apart : handle ≠ s.next := Nat.ne_of_lt later
  obtain ⟨value, exception⟩ := traced.unset native found mine runs
  have carries : Carries program after (.live frame.fn body) := .live code value exception rfl
  obtain ⟨others, below, rfl, rfl, chain, all⟩ :=
    traced.setFrame after native found mine runs code rfl rfl carries
  -- the child has a new handle, and the chain below it stays as it is
  have older : ∀ member ∈ handle :: others, member ≠ s.next := by
    intro member here
    obtain ⟨_, alive, _⟩ := traced.chain.works member here
    exact Nat.ne_of_lt (refines.lt_next alive)
  have outer : Chain program ((s.setFrame handle after).setFrame s.next child).frames task.handle
      (handle :: others) (.live after.fn body :: below) :=
    chain.congr fun member here => Function.update_of_ne (older member here) _ _
  have caller : ((s.setFrame handle after).setFrame s.next child).frames handle = some after :=
    (Function.update_of_ne apart _ _).trans (Function.update_self ..)
  have linked : Chain program ((s.setFrame handle after).setFrame s.next child).frames
      task.handle (s.next :: handle :: others)
      (.live callee ((program callee).enter env) :: .live after.fn body :: below) :=
    .call outer caller rfl turn later (Function.update_self ..) mine rfl (.live rfl rfl rfl rfl)
  have steps : advance program (.live frame.fn body :: below) =
      some (.live callee ((program callee).enter env) :: .live frame.fn body :: below) := by
    simp only [advance, turn]
  refine ⟨_, _, ⟨linked, ?_, traced.reads.advance steps, ?_, ?_⟩, steps, ?_⟩
  · intro other held again works
    by_cases new : other = s.next
    · exact new ▸ List.mem_cons_self
    · replace again := (Function.update_of_ne new _ _).symm.trans again
      exact List.mem_cons_of_mem _ (all other held again works)
  · intro other others same _
    cases same
    exact .runs (Function.update_self ..) rfl
  · exact fun idle => absurd List.mem_cons_self (idle s.next _ rfl)
  · intro other others same
    cases same
    exact List.mem_cons_self

theorem Refines.calls (refines : Refines program s) {callee : L.Fn} {env : L.Env}
    {resume : Outcome L → Body L} (awaited : List (Handle × Handle))
    (native : s.native = ⟨handle, .body⟩ :: rest) (found : s.frames handle = some frame)
    (runs : frame.point = none) (code : frame.body = some body)
    (turn : body.turn = .calls callee env resume) :
    Refines program
      { (s.setFrame handle { frame with point := some (.await s.next) }).setFrame s.next
          { fn := callee
            task := frame.task
            promise := { (.empty : Promise L) with continuation := some handle }
            point := none
            body := some ((program callee).enter env) } with
        next := s.next + 1
        native := ⟨s.next, .body⟩ :: ⟨handle, .awaitSuspend⟩ :: rest
        awaited } := by
  let after : Frame L := { frame with point := some (.await s.next) }
  let child : Frame L :=
    { fn := callee
      task := frame.task
      promise := { (.empty : Promise L) with continuation := some handle }
      point := none
      body := some ((program callee).enter env) }
  have later : handle < s.next := refines.lt_next found
  have apart : handle ≠ s.next := Nat.ne_of_lt later
  have free : s.frames s.next = none := refines.fresh s.next (Nat.le_refl _)
  have only : Local s
      { (s.setFrame handle after).setFrame s.next child with
        next := s.next + 1
        native := ⟨s.next, .body⟩ :: ⟨handle, .awaitSuspend⟩ :: rest
        awaited } frame.task := by
    refine ⟨rfl, fun _ _ => rfl, (Only.setFrame after found rfl).trans (.update ?_ ?_),
      fun other others same => ?_, fun other others same => ?_⟩
    · intro other again
      rw [Function.update_of_ne apart.symm, free] at again
      cases again
    · intro other same
      cases same
      rfl
    · cases native.symm.trans same
      exact ⟨frame, found, rfl⟩
    · cases same
      exact ⟨child, Function.update_self .., rfl⟩
  refine refines.of_local only ?_ ?_ (refines.owned handle frame found) ?_ ?_
  · intro other beyond
    have above : s.next < other := beyond
    refine (Function.update_of_ne (Nat.ne_of_gt above) _ _).trans ?_
    exact refines.fresh_setFrame found after other (Nat.le_of_lt above)
  · exact fun other beyond => refines.undelivered other (Nat.le_of_succ_le beyond)
  · intro other member
    cases member with
    | head => exact nofun
    | tail _ member => exact refines.below_rest native other member
  · intro task member mine handles stack traced
    exact (traced.calls refines awaited native found mine.symm runs code turn).traced

/-- A coroutine that goes on after a co_await is the parent of the innermost one, which is
done. -/
theorem Traced.awaiting (traced : Traced program s task handles stack) {child : Handle}
    {awaited : Frame L} {outcome : Outcome L} (native : s.native = ⟨handle, .body⟩ :: rest)
    (found : s.frames handle = some frame) (mine : frame.task = task.handle)
    (point : frame.point = some (.await child)) (code : frame.body = some body)
    (awaitedFound : s.frames child = some awaited)
    (carries : Carries program awaited (.ended outcome)) :
    ∃ others below, handles = child :: handle :: others ∧
      stack = .ended outcome :: .live frame.fn body :: below ∧
        Chain program s.frames task.handle (handle :: others) (.live frame.fn body :: below) := by
  have chain := traced.chain
  cases traced.active handle rest native (traced.all handle frame found mine) with
  | runs again runs =>
    cases found.symm.trans again
    cases point.symm.trans runs
  | resumes =>
    cases chain with
    | call outer callerFound awaits _ _ childFound _ _ held =>
      cases found.symm.trans callerFound
      cases point.symm.trans awaits
      cases awaitedFound.symm.trans childFound
      obtain ⟨_, again, live⟩ := outer.head
      cases found.symm.trans again
      cases code.symm.trans live.body_of_live
      cases carries with
      | ended _ done holds =>
        cases held with
        | live _ _ _ unfinished =>
          rw [done] at unfinished
          cases unfinished
        | ended _ _ again =>
          cases holds.unique again
          exact ⟨_, _, rfl, rfl, outer⟩

theorem Traced.resumes (traced : Traced program s task handles stack) {child : Handle}
    {awaited : Frame L} {callee : L.Fn} {env : L.Env} {resume : Outcome L → Body L}
    {outcome : Outcome L} (resumed : List (Resumed L))
    (native : s.native = ⟨handle, .body⟩ :: rest) (found : s.frames handle = some frame)
    (mine : frame.task = task.handle) (point : frame.point = some (.await child))
    (code : frame.body = some body) (turn : body.turn = .calls callee env resume)
    (awaitedFound : s.frames child = some awaited)
    (carries : Carries program awaited (.ended outcome)) (later : handle < child) :
    Follows program
      { (s.destroy child).setFrame handle
          { frame with point := none, body := some (resume outcome) } with
        resumed } task stack := by
  let after : Frame L := { frame with point := none, body := some (resume outcome) }
  have stillFound : (s.destroy child).frames handle = some frame :=
    (Function.update_of_ne (Nat.ne_of_lt later) _ _).trans found
  obtain ⟨others, below, rfl, rfl, outer⟩ :=
    traced.awaiting native found mine point code awaitedFound carries
  obtain ⟨_, again, live⟩ := outer.head
  cases found.symm.trans again
  have carries : Carries program after (.live frame.fn (resume outcome)) := by
    cases live with
    | live _ value exception => exact .live rfl value exception rfl
  -- the child is destroyed; the coroutines below it are older
  have kept : Chain program (s.destroy child).frames task.handle (handle :: others)
      (.live frame.fn body :: below) := by
    refine outer.congr fun member here => Function.update_of_ne ?_ _ _
    exact Nat.ne_of_lt (traced.chain.lt member here)
  have steps : advance program (.ended outcome :: .live frame.fn body :: below) =
      some (.live frame.fn (resume outcome) :: below) := by
    simp only [advance, turn]
  refine ⟨_, _, ⟨kept.replace stillFound rfl rfl carries, ?_, traced.reads.advance steps, ?_, ?_⟩,
    steps, ?_⟩
  · intro other held again works
    by_cases same : other = handle
    · exact same ▸ List.mem_cons_self
    · replace again := (Function.update_of_ne same _ _).symm.trans again
      by_cases dead : other = child
      · subst dead
        have gone : (s.destroy other).frames other = none := Function.update_self ..
        cases gone.symm.trans again
      · replace again := (Function.update_of_ne dead _ _).symm.trans again
        cases traced.all other held again works with
        | head => exact absurd rfl dead
        | tail _ here => exact here
  · intro other others same _
    rw [← top_eq native same]
    exact .runs (Function.update_self ..) rfl
  · exact fun idle => absurd List.mem_cons_self (idle handle rest native)
  · intro other others same
    rw [← top_eq native same]
    exact List.mem_cons_self

theorem Refines.resumes (refines : Refines program s) {child : Handle} {awaited : Frame L}
    {callee : L.Fn} {env : L.Env} {resume : Outcome L → Body L} {outcome : Outcome L}
    (resumed : List (Resumed L)) (native : s.native = ⟨handle, .body⟩ :: rest)
    (found : s.frames handle = some frame) (point : frame.point = some (.await child))
    (code : frame.body = some body) (turn : body.turn = .calls callee env resume)
    (awaitedFound : s.frames child = some awaited)
    (carries : Carries program awaited (.ended outcome)) (later : handle < child) :
    Refines program
      { (s.destroy child).setFrame handle
          { frame with point := none, body := some (resume outcome) } with
        resumed } := by
  let after : Frame L := { frame with point := none, body := some (resume outcome) }
  have apart : handle ≠ child := Nat.ne_of_lt later
  have stillFound : (s.destroy child).frames handle = some frame :=
    (Function.update_of_ne apart _ _).trans found
  -- a child works for the task of its parent
  have works : awaited.task = frame.task := by
    obtain ⟨task, member, mine⟩ := refines.owned handle frame found
    obtain ⟨handles, stack, traced⟩ := refines.traced task member
    obtain ⟨others, below, rfl, rfl, _⟩ :=
      traced.awaiting native found mine.symm point code awaitedFound carries
    obtain ⟨_, again, works⟩ := traced.chain.works child List.mem_cons_self
    cases awaitedFound.symm.trans again
    exact works.trans mine
  have only : Local s { (s.destroy child).setFrame handle after with resumed } frame.task := by
    have removed : Only frame.task s.frames (s.destroy child).frames := by
      apply Only.update
      · intro other again
        cases awaitedFound.symm.trans again
        exact works
      · exact nofun
    refine ⟨rfl, fun _ _ => rfl, removed.trans (.setFrame after stillFound rfl),
      fun other others same => ?_, fun other others same => ?_⟩
    · rw [← top_eq native same]
      exact ⟨frame, found, rfl⟩
    · rw [← top_eq native same]
      exact ⟨after, Function.update_self .., rfl⟩
  refine refines.of_local only ?_ refines.undelivered (refines.owned handle frame found)
    refines.below ?_
  · intro other beyond
    have gone : s.frames other = none := refines.fresh other beyond
    have not_handle : other ≠ handle := by
      rintro rfl
      cases gone.symm.trans found
    refine (Function.update_of_ne not_handle _ _).trans ?_
    change Function.update s.frames child none other = none
    by_cases same : other = child
    · rw [same, Function.update_self]
    · rw [Function.update_of_ne same, gone]
  · intro task member mine handles stack traced
    exact (traced.resumes resumed native found mine.symm point code turn awaitedFound carries
      later).traced

end Running

theorem Refines.step {s t : World L} (refines : Refines program s) (moves : Moves program s t) :
    Refines program t := by
  cases moves with
  | returns native inAwait => exact refines.returns native inAwait
  | goes native found runs code turn => exact refines.goes native found runs code turn
  | waits native found runs code turn => exact refines.waits native found runs code turn
  | calls native found runs code turn => exact refines.calls _ native found runs code turn
  | ends native found runs code turn linked caller awaits =>
    exact refines.ends _ native found runs code turn linked caller awaits
  | completes native found runs code turn outer => exact refines.completes _ native found runs code turn outer
  | resumes native found point code turn awaitedFound carries linked later =>
    exact refines.resumes _ native found point code turn awaitedFound carries later

/-- Every step of a world that refines the stacks is one of `Moves`. -/
theorem Refines.moves_of_tick {s t : World L} (refines : Refines program s)
    (tick : s.tick program = some t) : Moves program s t := by
  have active : s.native ≠ [] := by
    intro empty
    rw [World.tick, empty] at tick
    cases tick
  obtain ⟨u, moves⟩ := refines.moves active
  cases moves.tick.symm.trans tick
  exact moves

/-! ## What the loop does -/

theorem Refines.spawn {s : World L} (refines : Refines program s) (idle : s.native = [])
    (fn : L.Fn) (env : L.Env) :
    Refines program
      { s.setFrame s.next
          { fn
            task := s.next
            promise := .empty
            point := none
            body := some ((program fn).enter env) } with
        next := s.next + 1
        native := ⟨s.next, .body⟩ :: s.native
        tasks := s.tasks ++ [⟨s.next, fn, env⟩] } := by
  let root : Frame L :=
    { fn, task := s.next, promise := .empty, point := none, body := some ((program fn).enter env) }
  have free : s.frames s.next = none := refines.fresh s.next (Nat.le_refl _)
  have same : ∀ other, other ≠ s.next →
      Function.update s.frames s.next (some root) other = s.frames other :=
    fun other apart => Function.update_of_ne apart _ _
  have new_root : Function.update s.frames s.next (some root) s.next = some root :=
    Function.update_self ..
  have older : ∀ task ∈ s.tasks, task.handle < s.next := by
    intro task member
    obtain ⟨handles, stack, traced⟩ := refines.traced task member
    obtain ⟨_, alive, _⟩ := traced.chain.root_mem
    exact refines.lt_next alive
  constructor
  · intro other beyond
    exact (same other (Nat.ne_of_gt beyond)).trans (refines.fresh other (Nat.le_of_succ_le beyond))
  · exact fun other beyond => refines.undelivered other (Nat.le_of_succ_le beyond)
  · intro handle frame found
    by_cases new : handle = s.next
    · subst new
      cases new_root.symm.trans found
      exact ⟨_, List.mem_append_right _ List.mem_cons_self, rfl⟩
    · obtain ⟨task, member, works⟩ := refines.owned handle frame ((same handle new).symm.trans found)
      exact ⟨task, List.mem_append_left _ member, works⟩
  · intro record member
    change record ∈ s.native at member
    rw [idle] at member
    cases member
  · intro handle rest native
    cases native
    exact ⟨root, Function.update_self ..⟩
  · intro task member
    rcases List.mem_append.mp member with member | new
    · obtain ⟨handles, stack, traced⟩ := refines.traced task member
      have kept : ∀ member ∈ handles, member ≠ s.next := by
        intro member here
        obtain ⟨_, found, _⟩ := traced.chain.works member here
        exact Nat.ne_of_lt (refines.lt_next found)
      refine ⟨handles, stack, traced.chain.congr fun member here => same member (kept member here),
        ?_, traced.reads, ?_, ?_⟩
      · intro other frame found works
        by_cases new : other = s.next
        · subst new
          cases new_root.symm.trans found
          exact absurd works (Nat.ne_of_gt (older task member))
        · exact traced.all other frame ((same other new).symm.trans found) works
      · intro handle rest native here
        cases native
        exact absurd rfl (kept s.next here)
      · intro _
        cases traced.atRest (fun handle rest native => by rw [idle] at native; cases native) with
        | waits found point code turn =>
          exact .waits ((same _ (kept _ List.mem_cons_self)).trans found) point code turn
        | done found final => exact .done ((same _ (kept _ List.mem_cons_self)).trans found) final
    · cases List.mem_singleton.mp new
      refine ⟨[s.next], [.live fn ((program fn).enter env)], ?_, ?_, ⟨[], ?_, rfl⟩, ?_, ?_⟩
      · exact .root new_root rfl rfl (.live rfl rfl rfl rfl)
      · intro other frame found works
        by_cases new : other = s.next
        · exact new ▸ List.mem_cons_self
        · obtain ⟨task, member, mine⟩ :=
            refines.owned other frame ((same other new).symm.trans found)
          exact absurd (mine.trans works) (Nat.ne_of_lt (older task member))
      · exact (refines.undelivered s.next (Nat.le_refl _)).symm
      · intro handle rest native _
        cases native
        exact .runs (Function.update_self ..) rfl
      · exact fun still => absurd List.mem_cons_self (still s.next _ rfl)

theorem Refines.deliver {s : World L} (refines : Refines program s) (idle : s.native = [])
    {handle : Handle} {reply : L.Reply} {frame : Frame L} {body : Body L}
    {event expected : L.Event} {resume : L.Reply → Body L} (found : s.frames handle = some frame)
    (point : frame.point = some (.wait event)) (code : frame.body = some body)
    (turn : body.turn = .waits expected resume) :
    Refines program
      { s.setFrame handle { frame with point := none, body := some (resume reply) } with
        native := [⟨handle, .body⟩]
        delivered := Function.update s.delivered frame.task (s.delivered frame.task ++ [reply]) } := by
  let after : Frame L := { frame with point := none, body := some (resume reply) }
  have noTop : ∀ (other : Handle) (rest : List Resume), s.native ≠ ⟨other, .body⟩ :: rest := by
    intro other rest native
    rw [idle] at native
    cases native
  have owner_old : frame.task < s.next := by
    obtain ⟨task, member, works⟩ := refines.owned handle frame found
    obtain ⟨handles, stack, traced⟩ := refines.traced task member
    obtain ⟨_, alive, _⟩ := traced.chain.root_mem
    exact works ▸ refines.lt_next alive
  have only : Local s
      { s.setFrame handle after with
        native := [⟨handle, .body⟩]
        delivered := Function.update s.delivered frame.task (s.delivered frame.task ++ [reply]) }
      frame.task := by
    refine ⟨rfl, fun task apart => Function.update_of_ne apart _ _, .setFrame after found rfl,
      fun other rest native => absurd native (noTop other rest), fun other rest native => ?_⟩
    cases native
    exact ⟨after, Function.update_self .., rfl⟩
  refine refines.of_local only (refines.fresh_setFrame found after) ?_
    (refines.owned handle frame found) nofun ?_
  · intro other beyond
    have apart : other ≠ frame.task := fun same => Nat.not_lt.mpr beyond (same ▸ owner_old)
    exact (Function.update_of_ne apart _ _).trans (refines.undelivered other beyond)
  · intro task member mine handles stack traced
    have here := traced.all handle frame found mine.symm
    obtain ⟨leaf, others, activation, below, rfl, rfl⟩ := traced.chain.shape
    -- the innermost coroutine of a task at rest is the one that waits
    have innermost : handle = leaf := by
      cases here with
      | head => rfl
      | tail _ here =>
        obtain ⟨child, await⟩ := traced.chain.awaits handle here frame found
        cases point.symm.trans await
    subst innermost
    obtain ⟨_, again, carries⟩ := traced.chain.head
    cases found.symm.trans again
    cases carries with
    | ended _ final =>
      rw [Frame.done, point] at final
      cases final
    | live code' value exception =>
      cases code.symm.trans code'
      have carries : Carries program after (.live frame.fn (resume reply)) :=
        .live rfl value exception rfl
      refine ⟨_, _, traced.chain.replace found rfl rfl carries, ?_, ?_, ?_, ?_⟩
      · intro other held again works
        by_cases same : other = handle
        · exact same ▸ List.mem_cons_self
        · exact traced.all other held ((Function.update_of_ne same _ _).symm.trans again) works
      · have given : Function.update s.delivered frame.task (s.delivered frame.task ++ [reply])
            task.handle = s.delivered task.handle ++ [reply] := by
          rw [mine, Function.update_self]
        have reads : Reads program task (s.delivered task.handle ++ [reply])
            (.live frame.fn (resume reply) :: below) :=
          traced.reads.supply (by simp only [supply, turn])
        rw [← given] at reads
        exact reads
      · intro other rest native _
        cases native
        exact .runs (Function.update_self ..) rfl
      · exact fun still => absurd List.mem_cons_self (still handle _ rfl)

theorem boot_refines : Refines program (World.boot L) := by
  refine ⟨fun _ _ => rfl, fun _ _ => rfl, nofun, nofun, nofun, nofun⟩

theorem Refines.of_step {s t : World L} {a : Act L} (refines : Refines program s)
    (step : (machine program).step s a = some t) : Refines program t := by
  cases a with
  | spawn fn env =>
    obtain ⟨idle, spawns⟩ := Option.ite_none_right_eq_some.mp step
    rw [World.spawn_eq] at spawns
    cases spawns
    exact refines.spawn idle fn env
  | deliver handle reply =>
    obtain ⟨idle, delivers⟩ := Option.ite_none_right_eq_some.mp step
    obtain ⟨frame, body, event, expected, resume, found, point, code, turn, rfl⟩ :=
      World.deliver_eq_some delivers
    exact refines.deliver idle found point code turn
  | tick => exact refines.step (refines.moves_of_tick step)

theorem refines_of_reachable {s : World L} (reached : (machine program).Reachable s) :
    Refines program s :=
  reached.invariant (fun _ start => start ▸ boot_refines) fun _ _ _ refines _ step =>
    refines.of_step step

end CoroEpoll.Task
