import CoroEpoll.Library.Contracts
import CoroEpoll.Task.Direct

/-! What the tasks of a loop ask of the outside: contracts of routines hold of the coroutines
that run them, however many tasks there are and in whatever order they are served.
-/

set_option autoImplicit false

namespace CoroEpoll.Task

open Routines

variable {L : Lang} {G : Type} {program : L.Fn → Routine L}

def StatusMeets (routine : Routine L) (fit : L.Event → G → Prop) (post : Flow L → G → Prop)
    (g : G) : Status L → Prop
  | .ended outcome => ∃ flow, routine.outcome flow = outcome ∧ post flow g
  | .blocked event => fit event g

structure Held (program : L.Fn → Routine L) (s : World L) (task : Spawned L) (status : Status L)
    (dialogue : Dialogue L) : Prop where
  read : dialogue.map Prod.snd = s.delivered task.handle
  converses : Converses program task.fn task.env dialogue status

/-- A task has held a dialogue, and every contract of its routine holds of it. -/
theorem Refines.dialogue {s : World L} (refines : Refines program s) {task : Spawned L}
    (member : task ∈ s.tasks) {status : Status L} (has : s.HasStatus program task.handle status)
    {observer : Observer L G} {fit : L.Event → G → Prop} {g : G} {post : Flow L → G → Prop}
    (meets : Meets program observer fit (program task.fn).body task.env g post) :
    ∃ dialogue : Dialogue L, Held program s task status dialogue ∧
      (observer.Expects g dialogue →
        StatusMeets (program task.fn) fit post (observer.after g dialogue) status) := by
  obtain ⟨dialogue, read, converses⟩ := direct_iff_converses.mp (refines.sound member has)
  refine ⟨dialogue, ⟨read, converses⟩, fun expected => ?_⟩
  cases status with
  | ended outcome =>
    obtain ⟨flow, talks, same⟩ := converses
    exact ⟨flow, same, meets dialogue _ talks expected⟩
  | blocked event => exact meets dialogue _ converses expected

def KeepsTo (fit : L.Event → G → Prop) (post : G → Prop) (g : G) : Status L → Prop
  | .blocked event => fit event g
  | .ended outcome => outcome = .returned none ∧ post g

theorem Refines.dialogue_void {s : World L} (refines : Refines program s) {task : Spawned L}
    (member : task ∈ s.tasks) {body : Stmt L} (isVoid : program task.fn = .void body)
    {status : Status L} (has : s.HasStatus program task.handle status)
    {observer : Observer L G} {fit : L.Event → G → Prop} {g : G} {post : G → Prop}
    (meets : Meets program observer fit body task.env g (Quietly post)) :
    ∃ dialogue : Dialogue L, Held program s task status dialogue ∧
      (observer.Expects g dialogue → KeepsTo fit post (observer.after g dialogue) status) := by
  have meets : Meets program observer fit (program task.fn).body task.env g (Quietly post) := by
    rw [isVoid]
    exact meets
  obtain ⟨dialogue, held, met⟩ := refines.dialogue member has meets
  refine ⟨dialogue, held, fun expected => ?_⟩
  have met := met expected
  rw [isVoid] at met
  cases status with
  | blocked event => exact met
  | ended outcome =>
    obtain ⟨flow, same, ends⟩ := met
    cases flow with
    | threw => exact ends.elim
    | normal | returned =>
      cases same
      exact ⟨rfl, ends⟩

/-- The event that a coroutine waits for, and the task it works for. -/
def World.waitsAt (s : World L) (handle : Handle) : Option (Handle × L.Event) :=
  (s.frames handle).bind fun frame =>
    match frame.point with
    | some (.wait event) => some (frame.task, event)
    | _ => none

theorem World.hasStatus_of_waitsAt {s : World L} {handle task : Handle} {event : L.Event}
    (waits : s.waitsAt handle = some (task, event)) :
    s.HasStatus program task (.blocked event) := by
  obtain ⟨frame, found, waits⟩ := Option.bind_eq_some_iff.mp waits
  split at waits
  · rename_i point
    cases waits
    exact ⟨handle, frame, found, rfl, point⟩
  · cases waits

theorem waits_of_run [DecidableEq L.Fn] [DecidableEq L.Event] {run : List (Act L)}
    {handle root : Handle} {fn : L.Fn} {event : L.Event}
    (waits : ((machine program).exec (.boot L) run).any (fun s =>
      s.waitsAt handle = some (root, event) &&
        (root, fn) ∈ s.tasks.map fun task => (task.handle, task.fn)) = true) :
    ∃ s task, (machine program).exec (.boot L) run = some s ∧ (machine program).Reachable s ∧
      task ∈ s.tasks ∧ task.fn = fn ∧ s.HasStatus program task.handle (.blocked event) := by
  obtain ⟨s, replay, holds⟩ := (Option.any_eq_true _ _).mp waits
  obtain ⟨at_wait, spawned⟩ := Bool.and_eq_true_iff.mp holds
  obtain ⟨task, member, same⟩ := List.mem_map.mp (of_decide_eq_true spawned)
  cases same
  exact ⟨s, task, replay, .replay (.start rfl) replay, member, rfl,
    World.hasStatus_of_waitsAt (of_decide_eq_true at_wait)⟩

/-! ## The loop gets back to its events -/

theorem supply_of_ended {stack : Stack L} {outcome : Outcome L}
    (finished : Routines.status stack = some (.ended outcome)) (reply : L.Reply) :
    supply reply stack = none := by
  unfold Routines.status at finished
  split at finished
  · rfl
  · split at finished <;> cases finished
  · cases finished

theorem reads_no_more {stack ended other : Stack L} {outcome : Outcome L}
    {actions others : List (Option L.Reply)} {unread : List L.Reply}
    (same : actions.reduceOption ++ unread = others.reduceOption)
    (left : (stackMachine program).exec stack actions = some ended)
    (finished : Routines.status ended = some (.ended outcome))
    (right : (stackMachine program).exec stack others = some other) : unread = [] := by
  induction others generalizing stack actions with
  | nil => exact (List.append_eq_nil_iff.mp same).2
  | cons action others ih =>
    obtain ⟨next, step, tail⟩ := Transition.Machine.exec_cons_eq_some.mp right
    cases actions with
    | nil =>
      cases left
      -- a stack that has ended takes neither a step nor a reply
      cases action with
      | none => cases (advance_of_status finished).symm.trans step
      | some reply => cases (supply_of_ended finished reply).symm.trans step
    | cons first actions =>
      obtain ⟨following, taken, rest⟩ := Transition.Machine.exec_cons_eq_some.mp left
      cases action with
      | none =>
        cases first with
        | none =>
          cases step.symm.trans taken
          rw [List.reduceOption_cons_of_none, List.reduceOption_cons_of_none] at same
          exact ih same rest tail
        | some reply => cases (supply_of_advance step reply).symm.trans taken
      | some reply =>
        cases first with
        | none => cases (supply_of_advance taken reply).symm.trans step
        | some read =>
          rw [List.reduceOption_cons_of_some, List.reduceOption_cons_of_some,
            List.cons_append] at same
          injection same with head later
          subst head
          cases step.symm.trans taken
          exact ih later rest tail

/-- The loop gets back to where it waits for events if no routine of its tasks can go on for
ever without asking. -/
theorem Refines.comesToRest {s : World L} (refines : Refines program s)
    (rests : ∀ task ∈ s.tasks, ComesToRest program (program task.fn).body) :
    Settles program s := by
  refine refines.settles_iff.mpr fun task member => ?_
  obtain ⟨progress, fuel, ends⟩ := (rests task member).direct task.env (s.delivered task.handle)
  cases progress with
  | blocked event => exact ⟨.blocked event, fuel, ends⟩
  | ended outcome unread =>
    have plays : Plays program [.live task.fn ((program task.fn).enter task.env)]
        (s.delivered task.handle) (fun outcome => [.ended outcome]) (.ended outcome unread) := by
      apply Plays.andThen ends
      · exact fun _ inner => eval_plays inner task.fn [] []
      · intro flow unread returns
        rw [← Option.some.inj returns]
        exact Leads.advance unread rfl
    obtain ⟨actions, read, replay⟩ := plays
    obtain ⟨handles, stack, traced⟩ := refines.traced task member
    obtain ⟨others, read', replay'⟩ := traced.reads
    -- the task was given no reply that it did not read
    have all := reads_no_more (read.trans read'.symm) replay rfl replay'
    subst all
    exact ⟨.ended outcome, fuel, ends⟩

end CoroEpoll.Task
