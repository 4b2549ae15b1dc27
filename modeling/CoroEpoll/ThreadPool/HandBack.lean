import CoroEpoll.ThreadPool.Journey
import CoroEpoll.ThreadPool.Progress

/-! Every submit hands its result back once, on its own loop. -/

set_option autoImplicit false

namespace CoroEpoll.Submit

variable {n : Nat} {V : Type}

/-! ## One step -/

def Act.isFree : Act n V → Bool
  | .await .. | .stop _ | .spurious _ | .postOther .. => true
  | _ => false

inductive Moves (s : World n V) : Act n V → World n V → Prop where
  | inner (a : Act n V) (b : ThreadPool.Act n Caller Nat)
      (c : Monitor.Act (ThreadPool.Thread n Caller) (ThreadPool.Call Nat))
      (pool : ThreadPool.World n Caller Nat) :
      b.isFree = a.isFree → b.inMonitor = some c → Quiet s.pool.monitor c →
      ThreadPool.step s.pool b = some pool → Moves s a { s with pool }
  | await (coroutine loop : Nat) (isVoid : Bool) (pool : ThreadPool.World n Caller Nat) :
      s.suspended coroutine = none →
      ThreadPool.step s.pool (.enqueue (.submit s.awaiters.length) s.awaiters.length) = some pool →
      Moves s (.await coroutine loop isVoid) { s with
        pool
        awaiters := s.awaiters ++ [⟨coroutine, loop, isVoid⟩]
        states := Function.update s.states s.awaiters.length { continuation := coroutine }
        suspended := Function.update s.suspended coroutine (some s.awaiters.length) }
  | refuse (id task : Nat) (error : StdException)
      (woken : Option (ThreadPool.Thread n Caller)) (pool : ThreadPool.World n Caller Nat) :
      s.pool.monitor.phase (.caller (.submit id)) = .leaving (.refused task error) →
      ThreadPool.step s.pool (.leave (.caller (.submit id)) woken) = some pool →
      Moves s (.leave (.caller (.submit id)) woken) { s with
        pool
        suspended := Function.update s.suspended (s.states id).continuation none
        refused := s.refused ++ [(id, error)] }
  | call (w : Fin n) (id : Nat) (awaiter : Awaiter) (outcome : Outcome V) :
      s.pool.workers w = .running id → s.stage w = .calling →
      s.awaiters[id]? = some awaiter → outcome.fits awaiter.isVoid = true →
      Moves s (.call w outcome) { s with
        stage := Function.update s.stage w .posting
        states := Function.update s.states id ((s.states id).record outcome)
        called := s.called ++ [(id, outcome)] }
  | post (w : Fin n) (id : Nat) (awaiter : Awaiter) :
      s.pool.workers w = .running id → s.stage w = .posting → s.awaiters[id]? = some awaiter →
      Moves s (.post w) { s.push awaiter.continuationLoop (.resume id) with
        stage := Function.update s.stage w .returning
        posted := s.posted ++ [(id, awaiter.continuationLoop)] }
  | finish (w : Fin n) (pool : ThreadPool.World n Caller Nat) : s.stage w = .returning →
      ThreadPool.step s.pool (.finish w) = some pool →
      Moves s (.finish w) { s with pool, stage := Function.update s.stage w .calling }
  | postOther (loop id : Nat) : Moves s (.postOther loop id) (s.push loop (.other id))
  | swap (loop : Nat) : (s.loops loop).localTasks = [] → (s.loops loop).pendingTasks ≠ [] →
      Moves s (.swap loop) { s with
        loops := Function.update s.loops loop ⟨[], (s.loops loop).pendingTasks⟩ }
  | skip (loop id : Nat) (rest : List Callback) : (s.loops loop).localTasks = .other id :: rest →
      Moves s (.drain loop) { s with
        loops := Function.update s.loops loop { s.loops loop with localTasks := rest } }
  | resume (loop id : Nat) (rest : List Callback) (awaiter : Awaiter) (outcome : Outcome V) :
      (s.loops loop).localTasks = .resume id :: rest → s.awaiters[id]? = some awaiter →
      (s.states id).awaitResume awaiter.isVoid = some outcome →
      Moves s (.drain loop) { s with
        loops := Function.update s.loops loop { s.loops loop with localTasks := rest }
        suspended := Function.update s.suspended (s.states id).continuation none
        resumed := s.resumed ++ [⟨id, loop, outcome⟩] }

theorem World.inPool_eq_some {s t : World n V} {b : ThreadPool.Act n Caller Nat}
    (inPool : s.inPool b = some t) :
    ∃ pool, ThreadPool.step s.pool b = some pool ∧ t = { s with pool } := by
  obtain ⟨pool, step, rfl⟩ := Option.map_eq_some_iff.mp inPool
  exact ⟨pool, step, rfl⟩

theorem World.leave_cases (s : World n V) (thread : ThreadPool.Thread n Caller) :
    (∃ id task error, thread = .caller (.submit id) ∧
      s.pool.monitor.phase thread = .leaving (.refused task error) ∧
      s.leave thread = { s with
        suspended := Function.update s.suspended (s.states id).continuation none
        refused := s.refused ++ [(id, error)] }) ∨
    (s.leave thread = s ∧ ∀ woken, Quiet s.pool.monitor (.leave thread woken)) := by
  match thread with
  | .worker w => exact .inr ⟨rfl, fun _ => trivial⟩
  | .caller (.other id) => exact .inr ⟨rfl, fun _ => trivial⟩
  | .caller (.submit id) =>
    cases phase : s.pool.monitor.phase (.caller (.submit id)) with
    | outside | entering | inside | waiting =>
      exact .inr ⟨by simp [World.leave, phase], fun _ task error => by simp [phase]⟩
    | leaving result =>
      cases result with
      | refused task error => exact .inl ⟨id, task, error, rfl, rfl, by simp [World.leave, phase]⟩
      | accepted | stopped | took | returned =>
        exact .inr ⟨by simp [World.leave, phase], fun _ task error => by simp [phase]⟩

theorem drain_moves {s t : World n V} {loop : Nat} (drain : s.drain loop = some t) :
    Moves s (.drain loop) t := by
  simp only [World.drain] at drain
  split at drain
  · cases drain
  · rename_i callback rest tasks
    split at drain
    · cases drain
      exact .skip loop _ rest tasks
    · rename_i id
      split at drain
      · split at drain
        · rename_i awaiter known
          obtain ⟨outcome, sees, rfl⟩ := Option.map_eq_some_iff.mp drain
          exact .resume loop id rest awaiter outcome tasks known sees
        · cases drain
      · cases drain

theorem step_moves {s t : World n V} {a : Act n V} (step : step s a = some t) : Moves s a t := by
  cases a with
  | await coroutine loop isVoid =>
    obtain ⟨awake, await⟩ := Option.ite_none_right_eq_some.mp step
    obtain ⟨pool, enqueues, rfl⟩ := World.inPool_eq_some await
    exact .await coroutine loop isVoid pool awake enqueues
  | stop id =>
    obtain ⟨pool, stops, rfl⟩ := World.inPool_eq_some step
    exact .inner _ (.stop (.other id)) (.enter (.caller (.other id)) .stop) pool rfl rfl rfl stops
  | loop w =>
    obtain ⟨pool, loops, rfl⟩ := World.inPool_eq_some step
    exact .inner _ (.loop w) (.enter (.worker w) .take) pool rfl rfl trivial loops
  | lock thread =>
    obtain ⟨pool, locks, rfl⟩ := World.inPool_eq_some step
    exact .inner _ (.lock thread) (.lock thread) pool rfl rfl trivial locks
  | run thread =>
    obtain ⟨pool, runs, rfl⟩ := World.inPool_eq_some step
    exact .inner _ (.run thread) (.run thread) pool rfl rfl trivial runs
  | leave thread woken =>
    obtain ⟨pool, leaves, rfl⟩ := World.inPool_eq_some step
    rcases s.leave_cases thread with ⟨id, task, error, rfl, leaving, throws⟩ | ⟨same, quiet⟩
    · rw [throws] at leaves ⊢
      exact .refuse id task error woken pool leaving leaves
    · rw [same] at leaves ⊢
      exact .inner _ _ _ pool rfl rfl (quiet woken) leaves
  | spurious thread =>
    obtain ⟨pool, wakes, rfl⟩ := World.inPool_eq_some step
    exact .inner _ (.spurious thread) (.spurious thread) pool rfl rfl trivial wakes
  | call w outcome =>
    simp only [Submit.step] at step
    split at step
    · rename_i id running stage
      split at step
      · rename_i awaiter known
        obtain ⟨fits, same⟩ := Option.ite_none_right_eq_some.mp step
        cases same
        exact .call w id awaiter outcome running stage known fits
      · cases step
    · cases step
  | post w =>
    simp only [Submit.step] at step
    split at step
    · rename_i id running stage
      split at step
      · rename_i awaiter known
        cases step
        exact .post w id awaiter running stage known
      · cases step
    · cases step
  | finish w =>
    obtain ⟨stage, finishes⟩ := Option.ite_none_right_eq_some.mp step
    obtain ⟨pool, returns, rfl⟩ := World.inPool_eq_some finishes
    exact .finish w pool stage returns
  | postOther loop id =>
    cases step
    exact .postOther loop id
  | swap loop =>
    obtain ⟨⟨empty, full⟩, same⟩ := Option.ite_none_right_eq_some.mp step
    cases same
    exact .swap loop empty full
  | drain loop => exact drain_moves step

namespace World

def calledIds (s : World n V) : List Nat := s.called.map Prod.fst

def postedIds (s : World n V) : List Nat := s.posted.map Prod.fst

def resumedIds (s : World n V) : List Nat := s.resumed.map Resumption.id

def refusedIds (s : World n V) : List Nat := s.refused.map Prod.fst

def Gone (s : World n V) (id : Nat) : Prop := id ∈ s.resumedIds ∨ id ∈ s.refusedIds

end World

/-! ## Every reachable state -/

structure Inv (s : World n V) : Prop where
  pool : ThreadPool.Inv s.pool
  tickets : Tickets s.pool.monitor s.awaiters.length s.refusedIds
  errors : ∀ id error, (id, error) ∈ s.refused → error = stoppedError
  work : Work s.pool s.stage s.calledIds s.postedIds
  slots : Slots s.awaiters s.states s.called s.posted
  queues : Queues s.loops s.posted s.resumed
  sees : ∀ resumption ∈ s.resumed, (resumption.id, resumption.outcome) ∈ s.called
  suspends : Suspends s.awaiters s.suspended s.Gone

theorem boot_inv (manned : 0 < n) (V : Type) : Inv (World.boot n V) where
  pool := ThreadPool.boot_inv manned Caller Nat
  tickets := ⟨fun _ => .unused (Nat.zero_le _), fun _ => trivial⟩
  errors := nofun
  work := {
    busy _ here := absurd rfl here
    callers id := by simp [World.calledIds, World.boot, Past, ThreadPool.World.boot]
    posters id := by simp [World.postedIds, World.boot, Past, ThreadPool.World.boot]
    calledOnce := List.nodup_nil
    postedOnce := List.nodup_nil }
  slots := ⟨nofun, fun _ _ => ⟨rfl, rfl⟩, nofun, nofun⟩
  queues := ⟨fun _ => rfl, List.nodup_nil⟩
  sees := nofun
  suspends _ _ := by simp [World.boot]

section

variable {s : World n V}

theorem Inv.distinct (inv : Inv s) : s.pool.accepted.Nodup := inv.tickets.distinct

theorem Inv.accepted_of_called (inv : Inv s) {id : Nat} (called : id ∈ s.calledIds) :
    id ∈ s.pool.accepted :=
  ((inv.work.callers id).mp called).accepted inv.pool

theorem Inv.called_of_posted (inv : Inv s) {id : Nat} (posted : id ∈ s.postedIds) :
    id ∈ s.calledIds := by
  rw [inv.work.callers]
  refine ((inv.work.posters id).mp posted).imp_right ?_
  rintro ⟨w, running, returning⟩
  exact ⟨w, running, by simp [returning]⟩

theorem Inv.posted_of_resumed (inv : Inv s) {id : Nat} (resumed : id ∈ s.resumedIds) :
    id ∈ s.postedIds := by
  obtain ⟨resumption, here, rfl⟩ := List.mem_map.mp resumed
  exact List.mem_map_of_mem (inv.queues.posted_of_resumed here)

theorem Inv.accepted_of_resumed (inv : Inv s) {id : Nat} (resumed : id ∈ s.resumedIds) :
    id ∈ s.pool.accepted :=
  inv.accepted_of_called (inv.called_of_posted (inv.posted_of_resumed resumed))

theorem Inv.fresh (inv : Inv s) : ¬ s.Gone s.awaiters.length := by
  rintro (resumed | refused)
  · exact Nat.lt_irrefl _ (inv.tickets.of_accepted (inv.accepted_of_resumed resumed)).1
  · exact Nat.lt_irrefl _ (inv.tickets.of_refused refused)

theorem Inv.refusing (inv : Inv s) {id task : Nat} {error : StdException}
    (leaving : s.pool.monitor.phase (.caller (.submit id)) = .leaving (.refused task error)) :
    error = stoppedError ∧ id < s.awaiters.length ∧ ¬ s.Gone id := by
  obtain ⟨own, bound, unaccepted, unrefused⟩ := inv.tickets.of_refusing leaving
  refine ⟨own, bound, ?_⟩
  rintro (resumed | refused)
  · exact unaccepted (inv.accepted_of_resumed resumed)
  · exact unrefused refused

theorem exists_awaiter {id : Nat} (known : id < s.awaiters.length) :
    ∃ awaiter, s.awaiters[id]? = some awaiter :=
  ⟨s.awaiters[id], List.getElem?_eq_getElem known⟩

/-- An await of which a loop holds the callback is suspended, and its outcome is there. -/
theorem Inv.due (inv : Inv s) {loop id : Nat} (due : id ∈ (s.loops loop).due) :
    ∃ awaiter outcome, s.awaiters[id]? = some awaiter ∧ awaiter.continuationLoop = loop ∧
      (s.states id).awaitResume awaiter.isVoid = some outcome ∧ (id, outcome) ∈ s.called ∧
      ¬ s.Gone id := by
  -- what is due was posted, what was posted was called, and the call has recorded its outcome
  have posted := inv.queues.posted_of_due due
  have called := inv.called_of_posted (List.mem_map_of_mem posted)
  obtain ⟨⟨_, outcome⟩, here, rfl⟩ := List.mem_map.mp called
  obtain ⟨awaiter, known, sees⟩ := inv.slots.recorded _ outcome here
  obtain ⟨awaiter', known', own⟩ := inv.slots.ownLoop _ loop posted
  cases known.symm.trans known'
  refine ⟨awaiter, outcome, known, own, sees, here, ?_⟩
  rintro (resumed | refused)
  · exact inv.queues.not_resumed inv.work.postedOnce due resumed
  · exact (inv.tickets.of_accepted (inv.accepted_of_called called)).2 refused

/-! ## The steps -/

theorem not_finish {b : ThreadPool.Act n Caller Nat}
    {c : Monitor.Act (ThreadPool.Thread n Caller) (ThreadPool.Call Nat)}
    (inMonitor : b.inMonitor = some c) (w : Fin n) : b ≠ .finish w := by
  rintro rfl
  cases inMonitor

theorem Inv.work_inner (inv : Inv s) {b : ThreadPool.Act n Caller Nat}
    {c : Monitor.Act (ThreadPool.Thread n Caller) (ThreadPool.Call Nat)}
    {pool : ThreadPool.World n Caller Nat} (inMonitor : b.inMonitor = some c)
    (step : ThreadPool.step s.pool b = some pool) :
    Work pool s.stage s.calledIds s.postedIds :=
  inv.work.inner (ThreadPool.executed_of_step step (not_finish inMonitor)) fun w _ running =>
    inv.pool.running_stays step running (not_finish inMonitor w)

theorem Inv.inner (inv : Inv s) {b : ThreadPool.Act n Caller Nat}
    {c : Monitor.Act (ThreadPool.Thread n Caller) (ThreadPool.Call Nat)}
    {pool : ThreadPool.World n Caller Nat} (inMonitor : b.inMonitor = some c)
    (quiet : Quiet s.pool.monitor c) (step : ThreadPool.step s.pool b = some pool) :
    Inv { s with pool } where
  pool := inv.pool.step step
  tickets :=
    inv.tickets.move inv.pool.guarded.roles (ThreadPool.move_of_step step inMonitor) quiet
  errors := inv.errors
  work := inv.work_inner inMonitor step
  slots := inv.slots
  queues := inv.queues
  sees := inv.sees
  suspends := inv.suspends

theorem Inv.await (inv : Inv s) {pool : ThreadPool.World n Caller Nat} (last : Awaiter)
    (awake : s.suspended last.coroutine = none)
    (step : ThreadPool.step s.pool (.enqueue (.submit s.awaiters.length) s.awaiters.length) =
      some pool) :
    Inv { s with
      pool
      awaiters := s.awaiters ++ [last]
      states := Function.update s.states s.awaiters.length { continuation := last.coroutine }
      suspended := Function.update s.suspended last.coroutine (some s.awaiters.length) } where
  pool := inv.pool.step step
  tickets := by
    rw [List.length_append, List.length_singleton]
    exact inv.tickets.await (ThreadPool.move_of_step step rfl)
  errors := inv.errors
  work := inv.work_inner rfl step
  slots := inv.slots.await last
  queues := inv.queues
  sees := inv.sees
  suspends := inv.suspends.await awake inv.fresh

theorem Inv.refuse (inv : Inv s) {id task : Nat} {error : StdException}
    {woken : Option (ThreadPool.Thread n Caller)} {pool : ThreadPool.World n Caller Nat}
    (leaving : s.pool.monitor.phase (.caller (.submit id)) = .leaving (.refused task error))
    (step : ThreadPool.step s.pool (.leave (.caller (.submit id)) woken) = some pool) :
    Inv { s with
      pool
      suspended := Function.update s.suspended (s.states id).continuation none
      refused := s.refused ++ [(id, error)] } := by
  obtain ⟨own, bound, still⟩ := inv.refusing leaving
  obtain ⟨awaiter, known⟩ := exists_awaiter bound
  have ids : (s.refused ++ [(id, error)]).map Prod.fst = s.refusedIds ++ [id] := List.map_append
  constructor
  case pool => exact inv.pool.step step
  case tickets =>
    rw [World.refusedIds, ids]
    exact inv.tickets.refuse leaving (ThreadPool.move_of_step step rfl)
  case errors =>
    intro id' error' here
    rcases List.mem_append.mp here with before | last
    · exact inv.errors id' error' before
    · cases List.mem_singleton.mp last
      exact own
  case work => exact inv.work_inner rfl step
  case slots => exact inv.slots
  case queues => exact inv.queues
  case sees => exact inv.sees
  case suspends =>
    rw [inv.slots.continuation id awaiter known]
    refine (inv.suspends.goOn known still).congr fun id' => ?_
    simp only [World.Gone, World.resumedIds, World.refusedIds, ids, List.mem_append,
      List.mem_singleton, or_assoc]

theorem Inv.call (inv : Inv s) {w : Fin n} {id : Nat} {awaiter : Awaiter} {outcome : Outcome V}
    (running : s.pool.workers w = .running id) (calling : s.stage w = .calling)
    (known : s.awaiters[id]? = some awaiter) (fits : outcome.fits awaiter.isVoid = true) :
    Inv { s with
      stage := Function.update s.stage w .posting
      states := Function.update s.states id ((s.states id).record outcome)
      called := s.called ++ [(id, outcome)] } where
  pool := inv.pool
  tickets := inv.tickets
  errors := inv.errors
  work := by
    have ids : (s.called ++ [(id, outcome)]).map Prod.fst = s.calledIds ++ [id] := List.map_append
    rw [World.calledIds, ids]
    exact inv.work.call inv.pool inv.distinct running calling
  slots :=
    inv.slots.call known (inv.work.uncalled inv.pool inv.distinct running calling) fits
  queues := inv.queues
  sees resumption here := List.mem_append_left _ (inv.sees resumption here)
  suspends := inv.suspends

theorem Inv.post (inv : Inv s) {w : Fin n} {id : Nat} {awaiter : Awaiter}
    (running : s.pool.workers w = .running id) (posting : s.stage w = .posting)
    (known : s.awaiters[id]? = some awaiter) :
    Inv { s.push awaiter.continuationLoop (.resume id) with
      stage := Function.update s.stage w .returning
      posted := s.posted ++ [(id, awaiter.continuationLoop)] } where
  pool := inv.pool
  tickets := inv.tickets
  errors := inv.errors
  work := by
    have ids : (s.posted ++ [(id, awaiter.continuationLoop)]).map Prod.fst = s.postedIds ++ [id] :=
      List.map_append
    rw [World.postedIds, ids]
    exact inv.work.post inv.pool inv.distinct running posting
  slots := inv.slots.post known
  queues := inv.queues.post
  sees := inv.sees
  suspends := inv.suspends

theorem Inv.finish (inv : Inv s) {w : Fin n} {pool : ThreadPool.World n Caller Nat}
    (returning : s.stage w = .returning)
    (step : ThreadPool.step s.pool (.finish w) = some pool) :
    Inv { s with pool, stage := Function.update s.stage w .calling } := by
  obtain ⟨id, running, rfl⟩ := ThreadPool.finish_of_step step
  constructor
  case pool => exact inv.pool.step step
  case tickets => exact inv.tickets
  case errors => exact inv.errors
  case work => exact inv.work.finish running returning
  case slots => exact inv.slots
  case queues => exact inv.queues
  case sees => exact inv.sees
  case suspends => exact inv.suspends

theorem Inv.loops (inv : Inv s) {loop : Nat} {after : Loop} (due : after.due = (s.loops loop).due) :
    Inv { s with loops := Function.update s.loops loop after } where
  pool := inv.pool
  tickets := inv.tickets
  errors := inv.errors
  work := inv.work
  slots := inv.slots
  queues := inv.queues.same due
  sees := inv.sees
  suspends := inv.suspends

theorem Inv.resume (inv : Inv s) {loop id : Nat} {rest : List Callback} {awaiter : Awaiter}
    {outcome : Outcome V} (tasks : (s.loops loop).localTasks = .resume id :: rest)
    (known : s.awaiters[id]? = some awaiter)
    (sees : (s.states id).awaitResume awaiter.isVoid = some outcome) :
    Inv { s with
      loops := Function.update s.loops loop { s.loops loop with localTasks := rest }
      suspended := Function.update s.suspended (s.states id).continuation none
      resumed := s.resumed ++ [⟨id, loop, outcome⟩] } := by
  have due : id ∈ (s.loops loop).due := by simp [Loop.due, tasks, Callback.resumes]
  obtain ⟨awaiter', outcome', known', _, sees', called, still⟩ := inv.due due
  cases known.symm.trans known'
  cases sees.symm.trans sees'
  have ids : (s.resumed ++ [Resumption.mk id loop outcome]).map Resumption.id =
      s.resumedIds ++ [id] := List.map_append
  constructor
  case pool => exact inv.pool
  case tickets => exact inv.tickets
  case errors => exact inv.errors
  case work => exact inv.work
  case slots => exact inv.slots
  case queues => exact inv.queues.resume inv.work.postedOnce tasks
  case sees =>
    intro resumption here
    rcases List.mem_append.mp here with before | last
    · exact inv.sees resumption before
    · cases List.mem_singleton.mp last
      exact called
  case suspends =>
    rw [inv.slots.continuation id awaiter known]
    refine (inv.suspends.goOn known still).congr fun id' => ?_
    simp only [World.Gone, World.resumedIds, World.refusedIds, ids, List.mem_append,
      List.mem_singleton, or_right_comm]

theorem Inv.step (inv : Inv s) {t : World n V} {a : Act n V} (step : step s a = some t) : Inv t := by
  cases step_moves step with
  | inner _ _ _ pool _ inMonitor quiet inner => exact inv.inner inMonitor quiet inner
  | await coroutine loop isVoid pool awake enqueues =>
    exact inv.await ⟨coroutine, loop, isVoid⟩ awake enqueues
  | refuse id task error woken pool leaving leaves => exact inv.refuse leaving leaves
  | call w id awaiter outcome running calling known fits =>
    exact inv.call running calling known fits
  | post w id awaiter running posting known => exact inv.post running posting known
  | finish w pool returning returns => exact inv.finish returning returns
  | postOther loop id => exact inv.loops (by simp [Loop.due, Callback.resumes])
  | swap loop empty _ => exact inv.loops (by simp [Loop.due, empty])
  | skip loop id rest tasks => exact inv.loops (by simp [Loop.due, tasks, Callback.resumes, List.filterMap_cons])
  | resume loop id rest awaiter outcome tasks known sees => exact inv.resume tasks known sees

end

theorem reachable_inv {s : World n V} (reached : (machine n V).Reachable s) : Inv s := by
  refine reached.invariant ?_ fun _ _ _ inv _ step => inv.step step
  rintro _ ⟨rfl, constructed⟩
  by_cases none : n = 0
  · rw [ThreadPool.World.construct, if_pos none] at constructed
    cases constructed
  · exact boot_inv (Nat.pos_of_ne_zero none) V

/-! ## Rest -/

def World.Stuck (s : World n V) : Prop := ∀ a : Act n V, a.isFree = false → step s a = none

section

variable {s : World n V}

theorem inPool_eq_none {b : ThreadPool.Act n Caller Nat} (stuck : s.inPool b = none) :
    ThreadPool.step s.pool b = none :=
  Option.map_eq_none_iff.mp stuck

theorem World.leave_pool (s : World n V) (thread : ThreadPool.Thread n Caller) :
    (s.leave thread).pool = s.pool := by
  rcases s.leave_cases thread with ⟨_, _, _, _, _, throws⟩ | ⟨same, _⟩
  · rw [throws]
  · rw [same]

theorem Inv.worker_goes_on (inv : Inv s) {w : Fin n} {id : Nat}
    (running : s.pool.workers w = .running id) :
    ∃ a : Act n V, a.isFree = false ∧ Submit.step s a ≠ none := by
  have accepted := inv.pool.running_accepted running
  obtain ⟨awaiter, known⟩ := exists_awaiter (inv.tickets.of_accepted accepted).1
  cases stage : s.stage w with
  | calling =>
    -- a function may throw whatever it returns otherwise
    refine ⟨.call w (.threw (.foreign 0)), rfl, ?_⟩
    simp [Submit.step, running, stage, known, Outcome.fits]
  | posting =>
    refine ⟨.post w, rfl, ?_⟩
    simp [Submit.step, running, stage, known]
  | returning =>
    refine ⟨.finish w, rfl, ?_⟩
    simp [Submit.step, stage, World.inPool, ThreadPool.step, running]

theorem Inv.stuck_pool (inv : Inv s) (stuck : s.Stuck) : s.pool.Stuck := by
  intro b going
  cases b with
  | enqueue | stop | spurious => cases going
  | loop w => exact inPool_eq_none (stuck (.loop w) rfl)
  | lock thread => exact inPool_eq_none (stuck (.lock thread) rfl)
  | run thread => exact inPool_eq_none (stuck (.run thread) rfl)
  | leave thread woken =>
    rw [← s.leave_pool thread]
    exact inPool_eq_none (stuck (.leave thread woken) rfl)
  | finish w =>
    cases worker : s.pool.workers w with
    | looping | exited => simp [ThreadPool.step, worker]
    | running id =>
      obtain ⟨a, inner, goes⟩ := inv.worker_goes_on worker
      exact absurd (stuck a inner) goes

/-- A drain calls its next callback; one that resumes a coroutine finds it suspended there. -/
theorem Inv.drains (inv : Inv s) {loop id : Nat} {rest : List Callback}
    (tasks : (s.loops loop).localTasks = .resume id :: rest) :
    ∃ awaiter outcome t, s.awaiters[id]? = some awaiter ∧ awaiter.continuationLoop = loop ∧
      s.suspended awaiter.coroutine = some id ∧
      Submit.step s (.drain loop) = some t ∧
      t.suspended awaiter.coroutine = none ∧ t.resumed = s.resumed ++ [⟨id, loop, outcome⟩] := by
  have due : id ∈ (s.loops loop).due := by simp [Loop.due, tasks, Callback.resumes]
  obtain ⟨awaiter, outcome, known, own, sees, _, still⟩ := inv.due due
  have continuation := inv.slots.continuation id awaiter known
  have there : s.suspended awaiter.coroutine = some id :=
    (inv.suspends _ _).mpr ⟨awaiter, known, rfl, still⟩
  have drains : Submit.step s (.drain loop) = some { s with
      loops := Function.update s.loops loop { s.loops loop with localTasks := rest }
      suspended := Function.update s.suspended awaiter.coroutine none
      resumed := s.resumed ++ [⟨id, loop, outcome⟩] } := by
    simp [Submit.step, World.drain, tasks, continuation, there, known, sees]
  exact ⟨awaiter, outcome, _, known, own, there, drains, Function.update_self .., rfl⟩

theorem Inv.stuck_loop (inv : Inv s) (stuck : s.Stuck) (loop : Nat) : (s.loops loop).due = [] := by
  have drained : (s.loops loop).localTasks = [] := by
    cases tasks : (s.loops loop).localTasks with
    | nil => rfl
    | cons callback rest =>
      have rests := stuck (.drain loop) rfl
      cases callback with
      | other id => simp [Submit.step, World.drain, tasks] at rests
      | resume id =>
        obtain ⟨_, _, _, _, _, _, drains, _⟩ := inv.drains tasks
        cases drains.symm.trans rests
  have swapped : (s.loops loop).pendingTasks = [] := by
    by_contra full
    have rests := stuck (.swap loop) rfl
    simp [Submit.step, drained, full] at rests
  simp [Loop.due, drained, swapped]

theorem Inv.stuck_decided (inv : Inv s) (stuck : s.Stuck) {id : Nat}
    (known : id < s.awaiters.length) :
    s.pool.accepted.count id = 1 ∧ s.refusedIds.count id = 0 ∨
      s.pool.accepted.count id = 0 ∧ s.refusedIds.count id = 1 := by
  have ticket := inv.tickets.submits id
  have rests := inv.pool.guarded.sound.rests (inv.stuck_pool stuck).monitor (.caller (.submit id))
  apply ticket.decided known
  apply rests.resolve_right
  rintro ⟨call, waits⟩
  exact ticket.not_waiting waits

theorem Inv.stuck_resumed (inv : Inv s) (stuck : s.Stuck) {id : Nat}
    (accepted : id ∈ s.pool.accepted) : id ∈ s.resumedIds := by
  -- accepted, executed, called, posted to its loop, and out of the loop's queues
  have executed := (inv.pool.rested_executed (inv.stuck_pool stuck)).mem_iff.mpr accepted
  have posted := (inv.work.posters id).mpr (.inl executed)
  obtain ⟨⟨_, loop⟩, here, rfl⟩ := List.mem_map.mp posted
  have delivered := inv.queues.delivered loop
  rw [inv.stuck_loop stuck, List.append_nil] at delivered
  rw [← mem_postedOn, delivered] at here
  obtain ⟨resumption, there, same⟩ := List.mem_map.mp here
  exact List.mem_map.mpr ⟨resumption, (List.mem_filter.mp there).1, same⟩

/-- A thread whose `enqueue` has been refused throws into the coroutine, which goes on. -/
theorem Inv.continues (inv : Inv s) {id task : Nat} {error : StdException}
    (leaving : s.pool.monitor.phase (.caller (.submit id)) = .leaving (.refused task error)) :
    ∃ awaiter t, s.awaiters[id]? = some awaiter ∧ s.suspended awaiter.coroutine = some id ∧
      Submit.step s (.leave (.caller (.submit id)) none) = some t ∧
      t.suspended awaiter.coroutine = none ∧ t.refused = s.refused ++ [(id, stoppedError)] := by
  obtain ⟨rfl, bound, still⟩ := inv.refusing leaving
  obtain ⟨awaiter, known⟩ := exists_awaiter bound
  have continuation := inv.slots.continuation id awaiter known
  have there := (inv.suspends _ _).mpr ⟨awaiter, known, rfl, still⟩
  -- the exception leaves `await_suspend`, and the coroutine goes on with it
  have throws : s.leave (.caller (.submit id)) = { s with
      suspended := Function.update s.suspended awaiter.coroutine none
      refused := s.refused ++ [(id, stoppedError)] } := by
    simp [World.leave, leaving, continuation]
  have leaves : ∃ pool,
      ThreadPool.step s.pool (.leave (.caller (.submit id)) none) = some pool := by
    simp [ThreadPool.step, ThreadPool.World.through, Monitor.step, leaving, ThreadPool.sections,
      Monitor.notified]
  obtain ⟨pool, leaves⟩ := leaves
  refine ⟨awaiter, { s with
    pool
    suspended := Function.update s.suspended awaiter.coroutine none
    refused := s.refused ++ [(id, stoppedError)] }, known, there, ?_, Function.update_self .., rfl⟩
  simp [Submit.step, throws, World.inPool, leaves]

end

/-! ## Progress -/

/-- How many steps a worker can still take with its task, and what its post costs the loop. -/
def stageRank : Stage → Nat
  | .calling => 4
  | .posting => 3
  | .returning => 0

def loopRank (loop : Loop) : Nat := 2 * loop.pendingTasks.length + loop.localTasks.length

def stageRanks (stage : Fin n → Stage) : Fin n → Nat := fun w => stageRank (stage w)

def loopRanks (loops : Nat → Loop) : Nat → Nat := fun loop => loopRank (loops loop)

noncomputable def World.rank (s : World n V) : Nat :=
  8 * s.pool.rank + ∑ w, stageRanks s.stage w + finsum (loopRanks s.loops)

structure Few (s : World n V) : Prop where
  callers : s.pool.Few
  loops : (loopRanks s.loops).HasFiniteSupport

theorem stageRanks_update (stage : Fin n → Stage) (w : Fin n) (after : Stage) :
    ∑ w', stageRanks (Function.update stage w after) w' + stageRank (stage w) =
      ∑ w', stageRanks stage w' + stageRank after := by
  have ranks : stageRanks (Function.update stage w after) =
      Function.update (stageRanks stage) w (stageRank after) := by
    funext w'
    by_cases here : w' = w
    · rw [here, stageRanks, Function.update_self, Function.update_self]
    · rw [stageRanks, Function.update_of_ne here, Function.update_of_ne here, stageRanks]
  rw [ranks]
  exact Rank.sum_update (stageRanks stage) w (stageRank after)

theorem loopRanks_update (loops : Nat → Loop) (loop : Nat) (after : Loop) :
    loopRanks (Function.update loops loop after) =
      Function.update (loopRanks loops) loop (loopRank after) := by
  funext l
  by_cases here : l = loop
  · rw [here, loopRanks, Function.update_self, Function.update_self]
  · rw [loopRanks, Function.update_of_ne here, Function.update_of_ne here, loopRanks]

section

variable {s : World n V}

theorem Few.loop_update (few : Few s) (loop : Nat) (after : Loop) :
    finsum (loopRanks (Function.update s.loops loop after)) + loopRank (s.loops loop) =
      finsum (loopRanks s.loops) + loopRank after := by
  rw [loopRanks_update]
  exact Rank.finsum_update few.loops loop _

theorem Few.loop (few : Few s) (loop : Nat) (after : Loop) :
    (loopRanks (Function.update s.loops loop after)).HasFiniteSupport := by
  rw [loopRanks_update]
  exact Rank.hasFiniteSupport_update few.loops loop _

theorem Few.step (few : Few s) (inv : Inv s) {t : World n V} {a : Act n V}
    (step : Submit.step s a = some t) : Few t := by
  cases step_moves step with
  | inner _ _ _ pool _ _ _ inner => exact ⟨inv.pool.few few.callers inner, few.loops⟩
  | await _ _ _ pool _ enqueues => exact ⟨inv.pool.few few.callers enqueues, few.loops⟩
  | refuse _ _ _ _ pool _ leaves => exact ⟨inv.pool.few few.callers leaves, few.loops⟩
  | finish _ pool _ returns => exact ⟨inv.pool.few few.callers returns, few.loops⟩
  | call => exact ⟨few.callers, few.loops⟩
  | post | postOther | swap | skip | resume => exact ⟨few.callers, few.loop _ _⟩

theorem rank_falls (inv : Inv s) (few : Few s) {t : World n V} {a : Act n V}
    (going : a.isFree = false) (step : Submit.step s a = some t) : t.rank < s.rank := by
  cases step_moves step with
  | await | postOther => cases going
  | inner _ _ _ pool same _ _ inner =>
    have falls := ThreadPool.rank_falls inv.pool few.callers (same.trans going) inner
    simp only [World.rank]
    omega
  | refuse _ _ _ _ pool _ leaves =>
    have falls := ThreadPool.rank_falls inv.pool few.callers rfl leaves
    simp only [World.rank]
    omega
  | finish w pool returning returns =>
    have falls := ThreadPool.rank_falls inv.pool few.callers rfl returns
    have stages := stageRanks_update s.stage w .calling
    rw [returning] at stages
    simp only [stageRank] at stages
    simp only [World.rank]
    omega
  | call w _ _ _ _ calling =>
    have stages := stageRanks_update s.stage w .posting
    rw [calling] at stages
    simp only [stageRank] at stages
    simp only [World.rank]
    omega
  -- the callback takes two steps of the loop: a swap and a drain
  | post w id awaiter _ posting =>
    have stages := stageRanks_update s.stage w .returning
    have loops := few.loop_update awaiter.continuationLoop
      { s.loops awaiter.continuationLoop with
        pendingTasks := (s.loops awaiter.continuationLoop).pendingTasks ++ [.resume id] }
    rw [posting] at stages
    simp only [loopRank, List.length_append, List.length_singleton] at loops
    simp only [stageRank] at stages
    simp only [World.rank, World.push]
    omega
  | swap loop empty full =>
    have loops := few.loop_update loop ⟨[], (s.loops loop).pendingTasks⟩
    have some := List.length_pos_iff.mpr full
    simp only [loopRank, empty, List.length_nil] at loops
    simp only [World.rank]
    omega
  | skip loop id rest tasks =>
    have loops := few.loop_update loop { s.loops loop with localTasks := rest }
    simp only [loopRank, tasks, List.length_cons] at loops
    simp only [World.rank]
    omega
  | resume loop id rest _ _ tasks =>
    have loops := few.loop_update loop { s.loops loop with localTasks := rest }
    simp only [loopRank, tasks, List.length_cons] at loops
    simp only [World.rank]
    omega

theorem rank_rises (inv : Inv s) (few : Few s) {t : World n V} {a : Act n V}
    (free : a.isFree = true) (step : Submit.step s a = some t) :
    t.rank ≤ s.rank + 8 * (3 * n + 11) := by
  cases step_moves step with
  | refuse | call | post | finish | swap | skip | resume => cases free
  | inner _ _ _ pool same _ _ inner =>
    have rises := ThreadPool.rank_rises inv.pool few.callers (same.trans free) inner
    simp only [World.rank]
    omega
  | await _ _ _ pool _ enqueues =>
    have rises := ThreadPool.rank_rises inv.pool few.callers rfl enqueues
    simp only [World.rank]
    omega
  | postOther loop id =>
    have loops := few.loop_update loop
      { s.loops loop with pendingTasks := (s.loops loop).pendingTasks ++ [.other id] }
    simp only [loopRank, List.length_append, List.length_singleton] at loops
    simp only [World.rank, World.push]
    omega

theorem boot_few (n : Nat) (V : Type) : Few (World.boot n V) where
  callers := ThreadPool.boot_few n Caller Nat
  loops := by
    have none : (loopRanks (World.boot n V).loops).support = ∅ := by
      ext loop
      simp [loopRanks, World.boot, loopRank]
    change (loopRanks (World.boot n V).loops).support.Finite
    rw [none]
    exact Set.finite_empty

/-- A run of which only so much is new has only so many other steps. -/
theorem Inv.rests (inv : Inv s) (few : Few s) {t : World n V} {actions : List (Act n V)}
    (replay : (machine n V).exec s actions = some t) :
    actions.countP (fun a => !a.isFree) ≤
      s.rank + 8 * (3 * n + 11) * actions.countP Act.isFree := by
  have paid := Transition.Machine.exec_rank (Q := fun s => Inv s ∧ Few s)
    (fun s a t both step => ⟨both.1.step step, both.2.step both.1 step⟩)
    (fun s a t both going step => rank_falls both.1 both.2 going step)
    (fun s a t both free step => rank_rises both.1 both.2 free step) ⟨inv, few⟩ replay
  exact Nat.le_trans (Nat.le_add_left ..) paid

end

/-! ## Every await -/

structure HandsBack (s : World n V) : Prop where
  /-- a function is called once, for an await that was accepted -/
  calls : s.calledIds.Nodup ∧ ∀ id ∈ s.calledIds, id ∈ s.pool.accepted
  /-- the outcome has been recorded when a worker comes to the post -/
  recorded : ∀ w id, s.pool.workers w = .running id → s.stage w = .posting →
    ∃ awaiter outcome, s.awaiters[id]? = some awaiter ∧ (id, outcome) ∈ s.called ∧
      (s.states id).awaitResume awaiter.isVoid = some outcome
  /-- a post is made once, after the call, and to the await's own loop -/
  posts : s.postedIds.Nodup ∧ ∀ id loop, (id, loop) ∈ s.posted → id ∈ s.calledIds ∧
    ∃ awaiter, s.awaiters[id]? = some awaiter ∧ awaiter.continuationLoop = loop
  /-- a coroutine is resumed once from an await, by the loop of the post and with the outcome of
  the call -/
  resumptions : s.resumedIds.Nodup ∧ ∀ resumption ∈ s.resumed,
    (resumption.id, resumption.loop) ∈ s.posted ∧
    (resumption.id, resumption.outcome) ∈ s.called
  /-- until then it is suspended there -/
  drains : ∀ loop id rest, (s.loops loop).localTasks = .resume id :: rest →
    ∃ awaiter outcome t, s.awaiters[id]? = some awaiter ∧ awaiter.continuationLoop = loop ∧
      s.suspended awaiter.coroutine = some id ∧ step s (.drain loop) = some t ∧
      t.suspended awaiter.coroutine = none ∧ t.resumed = s.resumed ++ [⟨id, loop, outcome⟩]
  /-- an await that is refused goes on at once, with the exception -/
  continues : ∀ id task error,
    s.pool.monitor.phase (.caller (.submit id)) = .leaving (.refused task error) →
    ∃ awaiter t, s.awaiters[id]? = some awaiter ∧ s.suspended awaiter.coroutine = some id ∧
      step s (.leave (.caller (.submit id)) none) = some t ∧
      t.suspended awaiter.coroutine = none ∧ t.refused = s.refused ++ [(id, stoppedError)]
  refusals : s.refusedIds.Nodup ∧ ∀ id error, (id, error) ∈ s.refused →
    error = stoppedError ∧ id ∉ s.pool.accepted ∧ id ∉ s.calledIds ∧ id ∉ s.resumedIds ∧
    (∀ loop, id ∉ (s.loops loop).due) ∧ ∀ coroutine, s.suspended coroutine ≠ some id
  /-- what has begun comes to an end -/
  rests : ∃ bound, ∀ actions t, (machine n V).exec s actions = some t →
    actions.countP (fun a => !a.isFree) ≤ bound + 8 * (3 * n + 11) * actions.countP Act.isFree
  /-- and then every await is over -/
  completes : s.Stuck → ∀ id < s.awaiters.length,
    (s.pool.accepted.count id = 1 ∧ s.calledIds.count id = 1 ∧ s.postedIds.count id = 1 ∧
      s.resumedIds.count id = 1 ∧ s.refusedIds.count id = 0) ∨
    (s.pool.accepted.count id = 0 ∧ s.calledIds.count id = 0 ∧ s.postedIds.count id = 0 ∧
      s.resumedIds.count id = 0 ∧ s.refusedIds.count id = 1)

section

variable {s : World n V}

theorem Inv.recorded (inv : Inv s) {w : Fin n} {id : Nat}
    (running : s.pool.workers w = .running id) (posting : s.stage w = .posting) :
    ∃ awaiter outcome, s.awaiters[id]? = some awaiter ∧ (id, outcome) ∈ s.called ∧
      (s.states id).awaitResume awaiter.isVoid = some outcome := by
  have called := (inv.work.callers id).mpr (.inr ⟨w, running, by simp [posting]⟩)
  obtain ⟨⟨_, outcome⟩, here, rfl⟩ := List.mem_map.mp called
  obtain ⟨awaiter, known, sees⟩ := inv.slots.recorded _ outcome here
  exact ⟨awaiter, outcome, known, here, sees⟩

theorem Inv.unaccepted_of_refused (inv : Inv s) {id : Nat} (refused : id ∈ s.refusedIds) :
    id ∉ s.pool.accepted :=
  fun accepted => (inv.tickets.of_accepted accepted).2 refused

theorem Inv.refusals (inv : Inv s) {id : Nat} {error : StdException}
    (refused : (id, error) ∈ s.refused) :
    error = stoppedError ∧ id ∉ s.pool.accepted ∧ id ∉ s.calledIds ∧ id ∉ s.resumedIds ∧
      (∀ loop, id ∉ (s.loops loop).due) ∧ ∀ coroutine, s.suspended coroutine ≠ some id := by
  have thrown : id ∈ s.refusedIds := List.mem_map_of_mem refused
  have unaccepted := inv.unaccepted_of_refused thrown
  refine ⟨inv.errors id error refused, unaccepted, mt inv.accepted_of_called unaccepted,
    mt inv.accepted_of_resumed unaccepted, fun loop due => ?_, fun coroutine there => ?_⟩
  · obtain ⟨_, _, _, _, _, _, still⟩ := inv.due due
    exact still (.inr thrown)
  · obtain ⟨_, _, _, still⟩ := (inv.suspends _ _).mp there
    exact still (.inr thrown)

theorem Inv.completes (inv : Inv s) (stuck : s.Stuck) {id : Nat} (known : id < s.awaiters.length) :
    (s.pool.accepted.count id = 1 ∧ s.calledIds.count id = 1 ∧ s.postedIds.count id = 1 ∧
      s.resumedIds.count id = 1 ∧ s.refusedIds.count id = 0) ∨
    (s.pool.accepted.count id = 0 ∧ s.calledIds.count id = 0 ∧ s.postedIds.count id = 0 ∧
      s.resumedIds.count id = 0 ∧ s.refusedIds.count id = 1) := by
  rcases inv.stuck_decided stuck known with ⟨accepted, unrefused⟩ | ⟨unaccepted, refused⟩
  · left
    -- counted from the far end: who was resumed was posted, and who was posted was called
    have resumed := inv.stuck_resumed stuck (List.count_pos_iff.mp (accepted.symm ▸ Nat.one_pos))
    have posted := inv.posted_of_resumed resumed
    have called := inv.called_of_posted posted
    exact ⟨accepted, List.count_eq_one_of_mem inv.work.calledOnce called,
      List.count_eq_one_of_mem inv.work.postedOnce posted,
      List.count_eq_one_of_mem inv.queues.once resumed, unrefused⟩
  · right
    -- an await that was not accepted gets to none of the later points
    have never := List.count_eq_zero.mp unaccepted
    have uncalled := mt inv.accepted_of_called never
    have unposted := mt inv.called_of_posted uncalled
    have unresumed := mt inv.posted_of_resumed unposted
    exact ⟨unaccepted, List.count_eq_zero.mpr uncalled, List.count_eq_zero.mpr unposted,
      List.count_eq_zero.mpr unresumed, refused⟩

end

theorem reachable_few {s : World n V} (reached : (machine n V).Reachable s) : Inv s ∧ Few s := by
  refine ⟨reachable_inv reached, ?_⟩
  induction reached with
  | start first =>
    obtain ⟨rfl, _⟩ := first
    exact boot_few n V
  | next before _ step few => exact few.step (reachable_inv before) step

theorem hands_back {s : World n V} (reached : (machine n V).Reachable s) : HandsBack s := by
  have ⟨inv, few⟩ := reachable_few reached
  constructor
  case calls => exact ⟨inv.work.calledOnce, fun _ => inv.accepted_of_called⟩
  case recorded => exact fun _ _ => inv.recorded
  case posts =>
    exact ⟨inv.work.postedOnce, fun id loop posted =>
      ⟨inv.called_of_posted (List.mem_map_of_mem posted), inv.slots.ownLoop id loop posted⟩⟩
  case resumptions =>
    exact ⟨inv.queues.once, fun resumption here =>
      ⟨inv.queues.posted_of_resumed here, inv.sees resumption here⟩⟩
  case drains => exact fun _ _ _ => inv.drains
  case continues => exact fun _ _ _ => inv.continues
  case refusals => exact ⟨inv.tickets.thrown_once, fun _ _ => inv.refusals⟩
  case rests => exact ⟨s.rank, fun _ _ => inv.rests few⟩
  case completes => exact fun stuck _ => inv.completes stuck

/-- The coroutine is resumed before `await_suspend` has returned; after `stop`, its second await
is refused. -/
def resumedEarly : List (Act 1 Nat) :=
  [.await 0 5 false, .lock (.caller (.submit 0)), .run (.caller (.submit 0)),
    .loop 0, .lock (.worker 0), .run (.worker 0), .leave (.worker 0) none,
    .call 0 (.returned (some 7)), .post 0, .swap 5, .drain 5,
    .leave (.caller (.submit 0)) none, .finish 0,
    .stop 0, .lock (.caller (.other 0)), .run (.caller (.other 0)), .leave (.caller (.other 0)) none,
    .await 0 5 false, .lock (.caller (.submit 1)), .run (.caller (.submit 1)),
    .leave (.caller (.submit 1)) none]

theorem hands_back_resumedEarly :
    ∃ s, (machine 1 Nat).exec (.boot 1 Nat) resumedEarly = some s ∧
      s.resumedIds = [0] ∧ s.refusedIds = [1] ∧ HandsBack s := by
  have run : ((machine 1 Nat).exec (.boot 1 Nat) resumedEarly).map
      (fun s => (s.resumedIds, s.refusedIds)) = some ([0], [1]) := by decide
  obtain ⟨s, replay, ids⟩ := Option.map_eq_some_iff.mp run
  obtain ⟨resumed, refused⟩ := Prod.mk.inj ids
  have started : (machine 1 Nat).Reachable (.boot 1 Nat) := .start ⟨rfl, rfl⟩
  exact ⟨s, replay, resumed, refused, hands_back (started.replay replay)⟩

end CoroEpoll.Submit
