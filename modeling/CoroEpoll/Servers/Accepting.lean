import CoroEpoll.Servers.HttpSession
import CoroEpoll.Servers.Echo
import CoroEpoll.Task.Dialogues

/-! The accept loop of the servers hands every connection over once, in the order in which they
came.
-/

set_option autoImplicit false

namespace CoroEpoll.Servers

open Routines CoroEpoll.Task

variable {A : App} {X : Type}

structure HandedOver (w : Wire X) (left : List Fd) : Prop where
  opened : w.opened = w.spawned ++ left
  unclosed : w.closed = []
  going : w.stops = 0

/-- The last connection may have been closed instead; something broke then. -/
structure Stopping (w : Wire X) : Prop where
  opened : w.opened = w.spawned ++ w.closed
  one : w.closed.length ≤ 1
  broken : w.broken = true

/-- What the loop asks, and for which connection. -/
def AcceptFit {Q : Type} (question : Ask Q) (w : Wire X) : Prop :=
  match question with
  | .ensureValid _ | .accept _ | .ready _ _ _ => HandedOver w []
  | .configure fd | .closeFd fd | .spawn fd => HandedOver w [fd]
  | .stop => Stopping w ∧ w.stops = 0
  | _ => False

variable {program : A.Fn → Routine (net A)} {outside : Outside A X}

theorem acceptAndHandle_meets {accept : A.Fn} {last : Locals A.Own → Value A.Value}
    (body : program accept = .value asyncAcceptFd last) {s : Locals A.Own} {own : X} :
    Meets program outside.observer AcceptFit (acceptAndHandle accept) s (.boot own)
      (Quietly fun w => Stopping w ∧ w.stops = 1) := by
  have caught : ∀ error env (w : Wire X), error.isStd = true → Stopping w → w.stops = 0 →
      Caught catches (fun env w => Meets program outside.observer AcceptFit (ask fun _ => .stop) env w
        (Quietly fun w => Stopping w ∧ w.stops = 1)) (Quietly fun w => Stopping w ∧ w.stops = 1)
        (.threw error env) w := by
    intro error env w std stopping going
    simp only [Caught, catches, std, if_true]
    refine Meets.wait ⟨stopping, going⟩ fun answer expected => ?_
    have expected : answer = .done := expected
    subst expected
    exact ⟨⟨stopping.opened, stopping.one, stopping.broken⟩, congrArg (· + 1) going⟩
  refine Meets.attempt (Meets.forever (fun _ w => HandedOver w []) ⟨rfl, rfl, rfl⟩ ?_)
  intro env w handed
  refine Meets.seq (Meets.call ?_)
  rw [body]
  refine asyncAcceptFd_meets handed handed handed (fun fd => ?_) (fun fd => ?_) (fun fd => ?_)
    (fun error env' std => ?_) (fun error env' fd std => ?_)
  · exact ⟨by simp [Wire.openFd, handed.opened], handed.unclosed, handed.going⟩
  · exact ⟨by simp [Wire.openFd, Wire.fail, handed.opened], handed.unclosed, handed.going⟩
  · have pending : HandedOver (w.openFd fd) [fd] :=
      ⟨by simp [Wire.openFd, handed.opened], handed.unclosed, handed.going⟩
    refine Meets.seq (Meets.wait pending fun answer expected => ?_)
    cases answer with
    | done =>
      refine Meets.untaken rfl <| Meets.skip ⟨?_, pending.unclosed, pending.going⟩
      simp [Outside.observer, Outside.noteAsk, Outside.failsOn, Answer.fails, Wire.spawnFor, pending.opened]
    | threw error =>
      refine Meets.taken rfl (Meets.throw (caught error _ _ expected ⟨?_, ?_, rfl⟩ ?_))
      · simp [Outside.observer, Outside.noteAsk, Outside.failsOn, Answer.fails, Wire.closeFd, Wire.fail,
          pending.opened, pending.unclosed]
      · simp [Outside.observer, Outside.noteAsk, Outside.failsOn, Answer.fails, Wire.closeFd, Wire.fail,
          pending.unclosed]
      · exact pending.going
    | bytes | datagram | count | descriptor | failed => cases expected
  · refine caught error env _ std ⟨?_, ?_, rfl⟩ handed.going
    · simp [Wire.fail, handed.opened, handed.unclosed]
    · simp [Wire.fail, handed.unclosed]
  · refine caught error env _ std ⟨?_, ?_, rfl⟩ handed.going
    · simp [Wire.fail, Wire.openFd, Wire.closeFd, handed.opened, handed.unclosed]
    · simp [Wire.fail, Wire.openFd, Wire.closeFd, handed.unclosed]

/-- On a loop with any number of other tasks, every connection that is accepted is handed over
to one coroutine, in the order of acceptance. One that cannot be is closed, and the loop is
stopped once. -/
theorem connections_handed_over {serve accept : A.Fn} {last : Locals A.Own → Value A.Value}
    (accepts : program accept = .value asyncAcceptFd last)
    (serves : program serve = .void (acceptAndHandle accept)) {s : World (net A)}
    (reached : (machine program).Reachable s) {task : Spawned (net A)} (member : task ∈ s.tasks)
    (server : task.fn = serve) {status : Status (net A)}
    (has : s.HasStatus program task.handle status) (own : X) :
    ∃ dialogue : Dialogue (net A), Held program s task status dialogue ∧
      (outside.observer.Expects (.boot own) dialogue →
        KeepsTo AcceptFit (fun w => Stopping w ∧ w.stops = 1)
          (outside.observer.after (.boot own) dialogue) status) :=
  (refines_of_reachable reached).dialogue_void member (by rw [server]; exact serves) has
    (acceptAndHandle_meets accepts)

def tells (handle : Handle) (answers : List (Answer × Nat)) : List (Act (net A)) :=
  answers.flatMap fun (answer, ticks) => .deliver handle answer :: List.replicate ticks .tick

def acceptingRun : List (Act (net Http.app)) :=
  .spawn Http.Fn.acceptAndHandle (⟨3, 0, [], 0, 0, [], .done, ⟨[], [], .empty⟩⟩ : Locals Http.Own) ::
  List.replicate 8 .tick ++ tells 1 [(.done, 7), (.descriptor 9, 9), (.done, 13)] ++
  tells 0 [(.done, 11)] ++ tells 2 [(.done, 7), (.failed .EBADF, 13)]

theorem connections_handed_over_http : ∃ s task,
    (machine (Http.code ⟨[], []⟩)).exec (.boot (net Http.app)) acceptingRun = some s ∧
      task ∈ s.tasks ∧ ∃ dialogue, Held (Http.code ⟨[], []⟩) s task (.blocked .stop) dialogue ∧
        (Http.outside.observer.Expects (.boot ()) dialogue →
          KeepsTo (L := net Http.app) AcceptFit (fun w => Stopping w ∧ w.stops = 1)
            (Http.outside.observer.after (.boot ()) dialogue) (.blocked .stop)) := by
  have waits : ((machine (Http.code ⟨[], []⟩)).exec (.boot (net Http.app)) acceptingRun).any
      (fun s => s.waitsAt 0 = some (0, .stop) &&
        (0, Http.Fn.acceptAndHandle) ∈ s.tasks.map fun task => (task.handle, task.fn)) = true := by
    decide +kernel
  obtain ⟨s, task, replay, reached, member, server, waits⟩ := waits_of_run waits
  have accepts : Http.code ⟨[], []⟩ .asyncAcceptFd =
      .value asyncAcceptFd fun _ => .descriptor (-1) := rfl
  have serves : Http.code ⟨[], []⟩ .acceptAndHandle =
      .void (acceptAndHandle Http.Fn.asyncAcceptFd) := rfl
  exact ⟨s, task, replay, member,
    connections_handed_over accepts serves reached member server waits ()⟩

/-! ## Edge-triggered accept -/

/-- A batch is given up: what has not been handed over is closed, in whatever order. -/
structure GivingUp (w : Wire X) (left : List Fd) : Prop where
  all : (w.spawned ++ w.closed ++ left).Perm w.opened
  order : w.spawned <+: w.opened
  broken : w.broken = true

def AcceptEtFit {Q : Type} (question : Ask Q) (w : Wire X) : Prop :=
  match question with
  | .ensureValid _ | .ready _ _ _ => HandedOver w []
  | .accept _ => ∃ batch, HandedOver w batch
  | .configure fd => ∃ batch, HandedOver w (batch ++ [fd])
  | .spawn fd => ∃ batch, HandedOver w (fd :: batch)
  | .closeFd fd => ∃ batch, GivingUp w (fd :: batch) ∧ w.stops = 0
  | .stop => GivingUp w [] ∧ w.stops = 0
  | _ => False

theorem HandedOver.givesUp {w : Wire X} {left : List Fd} (handed : HandedOver w left)
    (broken : w.broken = true) : GivingUp w left := by
  refine ⟨?_, ⟨left, handed.opened.symm⟩, broken⟩
  rw [handed.opened, handed.unclosed, List.append_nil]

theorem GivingUp.close {w : Wire X} {fd : Fd} {left : List Fd} (givingUp : GivingUp w (fd :: left)) :
    GivingUp (w.closeFd fd) left := by
  refine ⟨?_, givingUp.order, givingUp.broken⟩
  have all := givingUp.all
  rwa [List.append_cons, List.append_assoc w.spawned] at all

theorem closeBatch_meets {s : Locals A.Own} {w : Wire X} {post : Flow (net A) → Wire X → Prop}
    (givingUp : GivingUp w s.batch) (going : w.stops = 0)
    (ends : ∀ env g, env.answer = s.answer → GivingUp g [] → g.stops = 0 → post (.normal env) g) :
    Meets program outside.observer AcceptEtFit closeBatch s w post := by
  refine Meets.loop (fun env g => env.answer = s.answer ∧ GivingUp g env.batch ∧ g.stops = 0)
    ⟨rfl, givingUp, going⟩ ?_ ?_
  · rintro env g ⟨answer, givingUp, going⟩ something
    obtain ⟨fd, batch, split⟩ := List.exists_cons_of_ne_nil (of_decide_eq_true something)
    rw [split] at givingUp
    refine Meets.wait ?_ fun reply expected => ?_
    · simp only [split, List.headD_cons]
      exact ⟨batch, givingUp, going⟩
    have expected : reply = .done := expected
    subst expected
    simp only [split, List.headD_cons]
    refine ⟨answer, ?_, going⟩
    simp only [List.tail_cons]
    exact givingUp.close
  · rintro env g ⟨answer, givingUp, going⟩ nothing
    have nothing : env.batch = [] := by simpa using nothing
    exact ends env g answer (nothing ▸ givingUp) going

theorem cleansUp_meets {s : Locals A.Own} {w : Wire X} {post : Flow (net A) → Wire X → Prop}
    {body : Stmt (net A)} (inside : Flow (net A) → Wire X → Prop)
    (meets : Meets program outside.observer AcceptEtFit body s w inside)
    (leaves : ∀ flow g, inside flow g → (∀ error env, flow ≠ .threw error env) → post flow g)
    (throws : ∀ error env g, inside (.threw error env) g → error.isStd = true ∧
      GivingUp g env.batch ∧ g.stops = 0)
    (thrown : ∀ error env g, error.isStd = true → GivingUp g [] → g.stops = 0 →
      post (.threw error env) g) :
    Meets program outside.observer AcceptEtFit (cleansUp body closeBatch) s w post := by
  refine Meets.attempt (meets.mono fun flow g met => ?_)
  cases flow with
  | normal env => exact leaves _ g met (by simp)
  | returned value => exact leaves _ g met (by simp)
  | threw error env =>
    obtain ⟨std, givingUp, going⟩ := throws error env g met
    refine Meets.seq (closeBatch_meets givingUp going fun env' g' answer closed going' => ?_)
    refine Meets.throw ?_
    simp only [answer, Answer.error, Option.getD_some]
    exact thrown error env' g' std closed going'

def Collected : Flow (net A) → Wire X → Prop
  | .normal _, _ => False
  | .returned value, w => ∃ batch, value = .descriptors batch ∧ HandedOver w batch
  | .threw error env, w => error.isStd = true ∧ GivingUp w env.batch ∧ w.stops = 0

def Delivered : Flow (net A) → Wire X → Prop
  | .normal _, w => HandedOver w []
  | .returned _, _ => False
  | .threw error env, w => error.isStd = true ∧ GivingUp w env.batch ∧ w.stops = 0

theorem asyncAcceptEt_meets {s : Locals A.Own} {w : Wire X} {post : Flow (net A) → Wire X → Prop}
    (handed : HandedOver w [])
    (returns : ∀ batch g, HandedOver g batch → post (.returned (.descriptors batch)) g)
    (throws : ∀ error env g, error.isStd = true → GivingUp g [] → g.stops = 0 →
      post (.threw error env) g) :
    Meets program outside.observer AcceptEtFit asyncAcceptEt s w post := by
  have broken : ∀ error env, error.isStd = true → post (.threw error env) w.fail :=
    fun error env std => throws error env _ std
      (HandedOver.givesUp (w := w.fail) ⟨handed.opened, handed.unclosed, handed.going⟩ rfl)
      handed.going
  refine Meets.seq (demand_meets rfl handed (Meets.seq (Meets.assign (Meets.seq ?_)))
    fun error std => broken error _ std)
  refine demand_meets rfl handed ?_ fun error std => broken error _ std
  -- the batch holds what has been accepted and not handed over
  refine cleansUp_meets Collected
    (Meets.forever (fun env g => HandedOver g env.batch) handed ?_) ?_ (fun _ _ _ met => met)
    throws
  · intro env g handed
    refine Meets.seq (Meets.wait ⟨env.batch, handed⟩ fun answer expected => ?_)
    cases answer with
    | descriptor fd =>
      refine Meets.taken rfl (Meets.seq ?_)
      have pending : HandedOver (g.openFd fd) (env.batch ++ [fd]) :=
        ⟨by simp [Wire.openFd, handed.opened], handed.unclosed, handed.going⟩
      have failing : GivingUp (g.openFd fd).fail (fd :: env.batch) := by
        have givingUp := HandedOver.givesUp (w := (g.openFd fd).fail)
          ⟨pending.opened, pending.unclosed, pending.going⟩ rfl
        refine ⟨List.Perm.trans ?_ givingUp.all, givingUp.order, rfl⟩
        exact List.Perm.append_left _ (List.perm_append_singleton fd env.batch).symm
      refine configureFd_meets rfl ⟨env.batch, pending⟩ ⟨env.batch, failing, handed.going⟩
        (Meets.assign pending) fun error env' std => ⟨std, failing.close, handed.going⟩
    | failed errno =>
      refine Meets.untaken rfl <| Meets.branch (fun again => ?_) fun notAgain => ?_
      · simp only [Answer.errno, Option.some.injEq, decide_eq_true_eq] at again
        subst again
        exact Meets.skip handed
      refine Meets.branch (fun drained => ?_) fun failed => ?_
      · simp only [Answer.errno, Option.some.injEq, decide_eq_true_eq] at drained
        subst drained
        exact Meets.ret ⟨env.batch, rfl, handed⟩
      · have hard : errno.hard = true := by
          simp only [Answer.errno, Option.some.injEq, decide_eq_false_iff_not] at notAgain failed
          cases errno <;> simp_all [Errno.hard]
        refine Meets.throw ⟨rfl, HandedOver.givesUp ?_ ?_, ?_⟩
        all_goals simp only [Outside.observer, Outside.noteAsk, Outside.failsOn, Answer.fails, hard, if_true]
        · exact ⟨handed.opened, handed.unclosed, handed.going⟩
        · rfl
        · exact handed.going
    | done | bytes | datagram | count | threw => cases expected
  · intro flow g met unthrown
    cases flow with
    | normal => exact met.elim
    | returned value =>
      obtain ⟨batch, rfl, handed⟩ := met
      exact returns batch g handed
    | threw error env => exact absurd rfl (unthrown error env)

theorem acceptAndHandleEt_meets {accept : A.Fn} {last : Locals A.Own → Value A.Value}
    (body : program accept = .value asyncAcceptEt last) {s : Locals A.Own} {own : X} :
    Meets program outside.observer AcceptEtFit (acceptAndHandleEt accept) s (.boot own)
      (Quietly fun w => GivingUp w [] ∧ w.stops = 1) := by
  have caught : ∀ error env (w : Wire X), error.isStd = true → GivingUp w [] → w.stops = 0 →
      Caught catches (fun env w => Meets program outside.observer AcceptEtFit (ask fun _ => .stop)
        env w (Quietly fun w => GivingUp w [] ∧ w.stops = 1))
        (Quietly fun w => GivingUp w [] ∧ w.stops = 1) (.threw error env) w := by
    intro error env w std givingUp going
    simp only [Caught, catches, std, if_true]
    refine Meets.wait ⟨givingUp, going⟩ fun answer expected => ?_
    have expected : answer = .done := expected
    subst expected
    exact ⟨⟨givingUp.all, givingUp.order, givingUp.broken⟩, congrArg (· + 1) going⟩
  refine Meets.attempt (Meets.forever (fun _ w => HandedOver w []) ⟨rfl, rfl, rfl⟩ ?_)
  intro env w handed
  refine Meets.seq (Meets.call ?_)
  rw [body]
  refine asyncAcceptEt_meets handed (fun batch g handed => ?_) fun error _ g std givingUp going =>
    caught error _ g std givingUp going
  refine cleansUp_meets Delivered
    (Meets.loop (fun env g => HandedOver g env.batch) handed ?_ ?_) ?_ (fun _ _ _ met => met)
    caught
  · rintro env g handed something
    obtain ⟨fd, batch, split⟩ := List.exists_cons_of_ne_nil (of_decide_eq_true something)
    rw [split] at handed
    refine Meets.seq (Meets.assign (Meets.seq (Meets.wait ?_ fun answer expected => ?_)))
    · simp only [split, List.headD_cons]
      exact ⟨batch, handed⟩
    simp only [split, List.headD_cons, List.tail_cons]
    cases answer with
    | done =>
      refine Meets.untaken rfl <| Meets.skip ⟨?_, handed.unclosed, handed.going⟩
      simp [Outside.observer, Outside.noteAsk, Outside.failsOn, Answer.fails, Wire.spawnFor, handed.opened]
    | threw error =>
      refine Meets.taken rfl (Meets.throw ⟨expected, ?_, handed.going⟩)
      have failing := HandedOver.givesUp (w := g.fail)
        ⟨handed.opened, handed.unclosed, handed.going⟩ rfl
      exact failing.close
    | bytes | datagram | count | descriptor | failed => cases expected
  · rintro env g handed nothing
    have nothing : env.batch = [] := by simpa using nothing
    rwa [nothing] at handed
  · intro flow g met unthrown
    cases flow with
    | normal env => exact met
    | returned value => exact met.elim
    | threw error env => exact absurd rfl (unthrown error env)

/-- With edge-triggered accept too every connection is handed over to one coroutine, in the
order of acceptance, or closed once; then the loop is stopped once. -/
theorem batches_handed_over {serve accept : A.Fn} {last : Locals A.Own → Value A.Value}
    (accepts : program accept = .value asyncAcceptEt last)
    (serves : program serve = .void (acceptAndHandleEt accept)) {s : World (net A)}
    (reached : (machine program).Reachable s) {task : Spawned (net A)} (member : task ∈ s.tasks)
    (server : task.fn = serve) {status : Status (net A)}
    (has : s.HasStatus program task.handle status) (own : X) :
    ∃ dialogue : Dialogue (net A), Held program s task status dialogue ∧
      (outside.observer.Expects (.boot own) dialogue →
        KeepsTo AcceptEtFit (fun w => GivingUp w [] ∧ w.stops = 1)
          (outside.observer.after (.boot own) dialogue) status) :=
  (refines_of_reachable reached).dialogue_void member (by rw [server]; exact serves) has
    (acceptAndHandleEt_meets accepts)

def batchRun : List (Act (net Echo.app)) :=
  .spawn Echo.Fn.acceptAndHandle (⟨3, 0, [], 0, 0, [], .done, ()⟩ : Locals Unit) ::
  List.replicate 8 .tick ++ tells 1 [(.done, 10), (.done, 8), (.descriptor 9, 9), (.done, 10),
    (.descriptor 10, 9), (.threw (.std (.runtimeError "")), 6), (.done, 8), (.done, 11)]

theorem batches_handed_over_echo : ∃ s task,
    (machine Echo.codeEt).exec (.boot (net Echo.app)) batchRun = some s ∧
      task ∈ s.tasks ∧ ∃ dialogue, Held Echo.codeEt s task (.blocked .stop) dialogue ∧
        (Echo.outside.observer.Expects (.boot ()) dialogue →
          KeepsTo (L := net Echo.app) AcceptEtFit (fun w => GivingUp w [] ∧ w.stops = 1)
            (Echo.outside.observer.after (.boot ()) dialogue) (.blocked .stop)) := by
  have waits : ((machine Echo.codeEt).exec (.boot (net Echo.app)) batchRun).any
      (fun s => s.waitsAt 0 = some (0, .stop) &&
        (0, Echo.Fn.acceptAndHandle) ∈ s.tasks.map fun task => (task.handle, task.fn)) = true := by
    decide +kernel
  obtain ⟨s, task, replay, reached, member, server, waits⟩ := waits_of_run waits
  have accepts : Echo.codeEt .asyncAcceptEt = .value asyncAcceptEt fun _ => .descriptors [] := rfl
  have serves : Echo.codeEt .acceptAndHandle =
      .void (acceptAndHandleEt Echo.Fn.asyncAcceptEt) := rfl
  exact ⟨s, task, replay, member,
    batches_handed_over accepts serves reached member server waits ()⟩

end CoroEpoll.Servers
