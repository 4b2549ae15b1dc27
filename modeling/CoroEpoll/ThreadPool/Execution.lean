import CoroEpoll.ThreadPool.Pool

/-! Every accepted task is executed once. -/

set_option autoImplicit false

namespace CoroEpoll.ThreadPool

open scoped List

variable {n : Nat} {κ T : Type}

def Result.acceptedTask : Result T → Option T
  | .accepted task => some task
  | _ => none

def Result.takenTask : Result T → Option T
  | .took task => some task
  | _ => none

def carried : Monitor.Phase (Call T) (Result T) → Option T
  | .leaving result => result.takenTask
  | _ => none

namespace World

def accepted (s : World n κ T) : List T :=
  s.monitor.history.filterMap fun entry => entry.result.acceptedTask

def taken (s : World n κ T) : List T :=
  s.monitor.history.filterMap fun entry => entry.result.takenTask

/-- The task that a worker has taken and that has not returned. -/
def inHand (s : World n κ T) (w : Fin n) : Option T :=
  match s.workers w with
  | .running task => some task
  | .exited => none
  | .looping => carried (s.monitor.phase (.worker w))

def running (s : World n κ T) : List T := (List.finRange n).filterMap s.inHand

end World

/-! ## One section -/

section

variable {pool : Pool T} {task : T} {rest : List T}

theorem run_accepts (running : pool.stopped = false) :
    (sections T).run (.enqueue task) pool =
      some (.accepted task, { pool with tasks := pool.tasks ++ [task] }) := by
  simp [sections, Pool.enqueue, running]

theorem run_refuses (stopped : pool.stopped = true) :
    (sections T).run (.enqueue task) pool =
      some (.refused task (.runtimeError "cannot enqueue task on a stopped ThreadPool"), pool) := by
  simp [sections, Pool.enqueue, stopped]

theorem run_takes (tasks : pool.tasks = task :: rest) :
    (sections T).run .take pool = some (.took task, { pool with tasks := rest }) := by
  simp [sections, Pool.ready, Pool.take, tasks]

theorem run_returns (stopped : pool.stopped = true) (empty : pool.tasks = []) :
    (sections T).run .take pool = some (.returned, pool) := by
  simp [sections, Pool.ready, Pool.take, stopped, empty]

theorem run_waits (running : pool.stopped = false) (empty : pool.tasks = []) :
    (sections T).run .take pool = none := by
  simp [sections, Pool.ready, running, empty]

end

inductive Passes (pool : Pool T) : Call T → Result T → Pool T → Prop where
  | accepted (task : T) : pool.stopped = false →
      Passes pool (.enqueue task) (.accepted task) { pool with tasks := pool.tasks ++ [task] }
  | refused (task : T) : pool.stopped = true →
      Passes pool (.enqueue task)
        (.refused task (.runtimeError "cannot enqueue task on a stopped ThreadPool")) pool
  | stopped : Passes pool .stop .stopped { pool with stopped := true }
  | took (task : T) (rest : List T) : pool.tasks = task :: rest →
      Passes pool .take (.took task) { pool with tasks := rest }
  | returned : pool.stopped = true → pool.tasks = [] → Passes pool .take .returned pool

theorem run_cases (pool : Pool T) (call : Call T) :
    ((sections T).run call pool = none ∧ call = .take ∧ pool.stopped = false ∧ pool.tasks = []) ∨
    ∃ result pool', (sections T).run call pool = some (result, pool') ∧
      Passes pool call result pool' := by
  cases call with
  | enqueue task =>
    cases stopped : pool.stopped with
    | true => exact .inr ⟨_, _, run_refuses stopped, .refused task stopped⟩
    | false => exact .inr ⟨_, _, run_accepts stopped, .accepted task stopped⟩
  | stop => exact .inr ⟨_, _, rfl, .stopped⟩
  | take =>
    cases tasks : pool.tasks with
    | cons task rest => exact .inr ⟨_, _, run_takes tasks, .took task rest tasks⟩
    | nil =>
      cases stopped : pool.stopped with
      | true => exact .inr ⟨_, _, run_returns stopped tasks, .returned stopped tasks⟩
      | false => exact .inl ⟨run_waits stopped tasks, rfl, rfl, rfl⟩

theorem passes_of_run {pool pool' : Pool T} {call : Call T} {result : Result T}
    (runs : (sections T).run call pool = some (result, pool')) : Passes pool call result pool' := by
  rcases run_cases pool call with ⟨waits, _⟩ | ⟨result', pool'', again, passes⟩
  · cases runs.symm.trans waits
  · cases runs.symm.trans again
    exact passes

theorem empty_of_waits {pool : Pool T} {call : Call T} (waits : (sections T).run call pool = none) :
    call = .take ∧ pool.stopped = false ∧ pool.tasks = [] := by
  rcases run_cases pool call with ⟨_, empty⟩ | ⟨result, pool', passes, _⟩
  · exact empty
  · cases waits.symm.trans passes

/-! ## The monitor -/

/-- The calls of a thread: `worker_loop` takes, the other threads enqueue and stop. -/
def Thread.Calls : Thread n κ → Call T → Prop
  | .worker _, call => call = .take
  | .caller _, call => call ≠ .take

def Thread.Gets : Thread n κ → Result T → Prop
  | .worker _, .took _ | .worker _, .returned => True
  | .caller _, .accepted _ | .caller _, .refused .. | .caller _, .stopped => True
  | _, _ => False

/-- What holds in the monitor of a pool, whatever its workers do. -/
structure Guarded (m : Monitor.World (Thread n κ) (Call T) (Result T) (Pool T)) : Prop where
  sound : Monitor.Sound m
  roles : ∀ thread, (m.phase thread).Within thread.Calls thread.Gets
  waits : ∀ thread call, m.phase thread = .waiting call → call = .take
  /-- tasks leave the queue in the order in which they came -/
  fifo : (m.history.filterMap fun entry => entry.result.acceptedTask) =
    (m.history.filterMap fun entry => entry.result.takenTask) ++ m.shared.tasks
  broadcast : m.shared.stopped = true → m.waiters = [] ∨ Monitor.Announced (sections T) m .all

theorem gets_of_passes {pool pool' : Pool T} {call : Call T} {result : Result T}
    (passes : Passes pool call result pool') (thread : Thread n κ) (calls : thread.Calls call) :
    thread.Gets result := by
  cases thread <;> cases passes <;> trivial

variable [DecidableEq κ]

theorem Guarded.step {m next : Monitor.World (Thread n κ) (Call T) (Result T) (Pool T)}
    {a : Monitor.Act (Thread n κ) (Call T)} (guarded : Guarded m)
    (move : Monitor.Move (sections T) m a next)
    (calls : ∀ thread call, a = .enter thread call → thread.Calls call) : Guarded next where
  sound := guarded.sound.step move
  roles thread := by
    apply (move.goes thread).within (calls thread) _ (guarded.roles thread)
    intro call pool result pool' allowed runs
    exact gets_of_passes (passes_of_run runs) thread allowed
  waits thread call waiting := by
    rcases (move.goes thread).waiting waiting with before | ⟨_, waits⟩
    · exact guarded.waits thread call before
    · exact (empty_of_waits waits).1
  fifo := by
    refine move.keeps (Q := fun history pool =>
      (history.filterMap fun entry => entry.result.acceptedTask) =
        (history.filterMap fun entry => entry.result.takenTask) ++ pool.tasks) ?_ guarded.fifo
    intro history pool thread call result pool' before runs
    rw [List.filterMap_append, List.filterMap_append, before]
    cases passes_of_run runs with
    | accepted task | refused task | stopped | returned =>
      simp [Result.acceptedTask, Result.takenTask]
    | took task rest tasks => simp [Result.acceptedTask, Result.takenTask, tasks]
  broadcast := by
    apply move.broadcast (Q := fun pool => pool.stopped = true) _ _ guarded.broadcast
    · intro call pool stopped waits
      rw [(empty_of_waits waits).2.1] at stopped
      cases stopped
    · intro call pool result pool' running runs stopped
      cases passes_of_run runs with
      | stopped => rfl
      | accepted | refused | took | returned => exact absurd stopped running

theorem done_stays {m next : Monitor.World (Thread n κ) (Call T) (Result T) (Pool T)}
    {a : Monitor.Act (Thread n κ) (Call T)} (move : Monitor.Move (sections T) m a next)
    (done : m.shared.stopped = true ∧ m.shared.tasks = []) :
    next.shared.stopped = true ∧ next.shared.tasks = [] := by
  apply move.keeps (Q := fun _ pool => pool.stopped = true ∧ pool.tasks = []) _ done
  rintro _ pool _ call result pool' ⟨stopped, empty⟩ runs
  cases passes_of_run runs with
  | accepted task running => cases running.symm.trans stopped
  | refused | returned => exact ⟨stopped, empty⟩
  | stopped => exact ⟨rfl, empty⟩
  | took task rest tasks => cases tasks.symm.trans empty

/-! ## The workers -/

def World.Allows (s : World n κ T) : Monitor.Act (Thread n κ) (Call T) → Prop
  | .enter (.worker w) call => call = .take ∧ s.workers w = .looping
  | .enter (.caller _) call => call ≠ .take
  | .leave .. => False
  | _ => True

inductive Moves (s : World n κ T) : Act n κ T → World n κ T → Prop where
  | inner (a : Act n κ T) (b : Monitor.Act (Thread n κ) (Call T))
      (monitor : Monitor.World (Thread n κ) (Call T) (Result T) (Pool T)) : s.Allows b →
      Monitor.Move (sections T) s.monitor b monitor → Moves s a { s with monitor }
  | stop (id : κ) (monitor : Monitor.World (Thread n κ) (Call T) (Result T) (Pool T)) :
      Monitor.Move (sections T) s.monitor (.enter (.caller id) .stop) monitor →
      Moves s (.stop id) { s with monitor, stopCalled := true }
  | leave (thread : Thread n κ) (woken : Option (Thread n κ))
      (monitor : Monitor.World (Thread n κ) (Call T) (Result T) (Pool T)) :
      Monitor.Move (sections T) s.monitor (.leave thread woken) monitor →
      Moves s (.leave thread woken) { s with monitor, workers := s.proceed thread }
  | finish (w : Fin n) (task : T) : s.workers w = .running task →
      Moves s (.finish w) { s with
        workers := Function.update s.workers w .looping
        executed := s.executed ++ [task] }

theorem World.through_eq_some {s t : World n κ T} {b : Monitor.Act (Thread n κ) (Call T)}
    (through : s.through b = some t) :
    ∃ monitor, Monitor.Move (sections T) s.monitor b monitor ∧ t = { s with monitor } := by
  obtain ⟨monitor, step, rfl⟩ := Option.map_eq_some_iff.mp through
  exact ⟨monitor, Monitor.step_move step, rfl⟩

theorem step_moves {s t : World n κ T} {a : Act n κ T} (step : step s a = some t) :
    Moves s a t := by
  cases a with
  | enqueue id task =>
    obtain ⟨monitor, move, rfl⟩ := World.through_eq_some step
    exact .inner _ (.enter (.caller id) (.enqueue task)) monitor nofun move
  | stop id =>
    obtain ⟨_, through, rfl⟩ := Option.map_eq_some_iff.mp step
    obtain ⟨monitor, move, rfl⟩ := World.through_eq_some through
    exact .stop id monitor move
  | loop w =>
    simp only [ThreadPool.step] at step
    split at step
    · rename_i looping
      obtain ⟨monitor, move, rfl⟩ := World.through_eq_some step
      exact .inner _ (.enter (.worker w) .take) monitor ⟨rfl, looping⟩ move
    · cases step
    · cases step
  | lock thread =>
    obtain ⟨monitor, move, rfl⟩ := World.through_eq_some step
    exact .inner _ (.lock thread) monitor trivial move
  | run thread =>
    obtain ⟨monitor, move, rfl⟩ := World.through_eq_some step
    exact .inner _ (.run thread) monitor trivial move
  | leave thread woken =>
    obtain ⟨_, through, rfl⟩ := Option.map_eq_some_iff.mp step
    obtain ⟨monitor, move, rfl⟩ := World.through_eq_some through
    exact .leave thread woken monitor move
  | spurious thread =>
    obtain ⟨monitor, move, rfl⟩ := World.through_eq_some step
    exact .inner _ (.spurious thread) monitor trivial move
  | finish w =>
    simp only [ThreadPool.step] at step
    split at step
    · rename_i task running
      cases step
      exact .finish w task running
    · cases step
    · cases step

def World.Active (s : World n κ T) (w : Fin n) : Prop :=
  s.workers w ≠ .exited ∧ ∀ call, s.monitor.phase (.worker w) ≠ .waiting call

structure Inv (s : World n κ T) : Prop where
  manned : 0 < n
  guarded : Guarded s.monitor
  /-- a worker that runs a task or has exited is outside the lock -/
  away : ∀ w, s.workers w ≠ .looping → s.monitor.phase (.worker w) = .outside
  balance : s.taken.Perm (s.executed ++ s.running)
  done : ∀ w, s.workers w = .exited ∨ s.monitor.phase (.worker w) = .leaving .returned →
    s.stopped = true ∧ s.queue = []
  /-- while there are tasks, a worker is up or about to be woken -/
  alert : s.queue ≠ [] → (∃ w, s.Active w) ∨ Monitor.Announced (sections T) s.monitor .one
  stopping : s.stopCalled = true → s.stopped = true ∨
    ∃ id, s.monitor.phase (.caller id) = .entering .stop ∨
      s.monitor.phase (.caller id) = .inside .stop

theorem boot_inv (manned : 0 < n) (κ T : Type) : Inv (World.boot n κ T) where
  manned := manned
  guarded := {
    sound := Monitor.boot_sound _
    roles _ := trivial
    waits := nofun
    fifo := rfl
    broadcast := nofun }
  away _ _ := rfl
  balance := by
    have nobody : (World.boot n κ T).running = [] := List.filterMap_eq_nil_iff.mpr fun _ _ => rfl
    rw [nobody]
    exact List.Perm.nil
  done w := by simp [World.boot, Monitor.World.boot]
  alert empty := absurd rfl empty
  stopping := nofun

/-! ## Steps of the monitor -/

section

variable {s : World n κ T} {b : Monitor.Act (Thread n κ) (Call T)}
  {monitor : Monitor.World (Thread n κ) (Call T) (Result T) (Pool T)}

omit [DecidableEq κ] in
theorem World.Allows.calls (allows : s.Allows b) :
    ∀ thread call, b = .enter thread call → thread.Calls call := by
  rintro thread call rfl
  cases thread with
  | worker w => exact allows.1
  | caller id => exact allows

omit [DecidableEq κ] in
theorem World.Allows.stays (allows : s.Allows b) (thread : Thread n κ)
    (woken : Option (Thread n κ)) : b ≠ .leave thread woken := by
  rintro rfl
  exact allows

theorem carried_move {m : Monitor.World (Thread n κ) (Call T) (Result T) (Pool T)}
    {thread : Thread n κ} {phase : Monitor.Phase (Call T) (Result T)}
    (same : carried phase = carried (m.phase thread)) (other : Thread n κ) :
    carried ((m.move thread phase).phase other) = carried (m.phase other) := by
  by_cases here : other = thread
  · rw [here, Monitor.World.phase_move_self, same]
  · rw [Monitor.World.phase_move_ne here]

theorem carried_wake (m : Monitor.World (Thread n κ) (Call T) (Result T) (Pool T))
    (threads : List (Thread n κ)) (thread : Thread n κ) :
    carried ((m.wake threads).phase thread) = carried (m.phase thread) := by
  rcases m.phase_wake threads thread with same | ⟨call, waits, enters⟩
  · rw [same]
  · rw [waits, enters]
    rfl

/-- Only a worker that has not exited and is not waiting waits next, and only when there are
no tasks. -/
theorem World.Active.step {w : Fin n} (active : s.Active w) (full : s.queue ≠ [])
    (move : Monitor.Move (sections T) s.monitor b monitor) :
    ∀ call, monitor.phase (.worker w) ≠ .waiting call := by
  intro call waits
  rcases (move.goes (.worker w)).waiting waits with before | ⟨_, none⟩
  · exact active.2 call before
  · exact full (empty_of_waits none).2.2

theorem Inv.alert_inner (inv : Inv s) (allows : s.Allows b)
    (move : Monitor.Move (sections T) s.monitor b monitor) (full : monitor.shared.tasks ≠ []) :
    (∃ w, ({ s with monitor } : World n κ T).Active w) ∨
      Monitor.Announced (sections T) monitor .one := by
  by_cases before : s.queue = []
  · -- the task has just been accepted
    cases move with
    | pass thread call result shared phase runs =>
      cases passes_of_run runs with
      | accepted task => exact .inr ⟨thread, _, Monitor.World.phase_move_self .., rfl⟩
      | refused | stopped | returned => exact absurd before full
      | took task rest tasks => cases tasks.symm.trans before
    | leave thread result woken => exact absurd rfl (allows.stays thread woken)
    | _ => exact absurd before full
  · rcases inv.alert before with ⟨w, active⟩ | announced
    · exact .inl ⟨w, active.1, active.step before move⟩
    · exact .inr (move.announced announced fun thread woken _ same => absurd same (allows.stays thread woken))

theorem stopped_stays (move : Monitor.Move (sections T) s.monitor b monitor)
    (stopped : s.stopped = true) : monitor.shared.stopped = true := by
  apply move.keeps (Q := fun _ pool => pool.stopped = true) _ stopped
  intro _ pool _ call result pool' before runs
  cases passes_of_run runs with
  | accepted | refused | took | returned => exact before
  | stopped => rfl

theorem stopping_goes (move : Monitor.Move (sections T) s.monitor b monitor) {id : κ}
    (phase : s.monitor.phase (.caller id) = .entering .stop ∨
      s.monitor.phase (.caller id) = .inside .stop) :
    monitor.shared.stopped = true ∨ monitor.phase (.caller id) = .entering .stop ∨
      monitor.phase (.caller id) = .inside .stop := by
  have goes := move.goes (.caller id)
  generalize after : monitor.phase (.caller id) = next at goes
  rcases phase with entering | inside
  · rw [entering] at goes
    cases goes with
    | stays => exact .inr (.inl rfl)
    | lock => exact .inr (.inr rfl)
  · rw [inside] at goes
    cases goes with
    | stays => exact .inr (.inr rfl)
    | wait _ none => exact absurd (empty_of_waits none).1 nofun
    | pass _ result pool runs =>
      -- the section of `stop` has passed
      cases move with
      | wait _ call phase none =>
        cases inside.symm.trans phase
        cases none
      | pass _ call result' pool' phase runs' =>
        cases inside.symm.trans phase
        cases runs'
        exact .inl rfl

theorem Inv.stopping_move (inv : Inv s)
    (move : Monitor.Move (sections T) s.monitor b monitor) (called : s.stopCalled = true) :
    monitor.shared.stopped = true ∨ ∃ id, monitor.phase (.caller id) = .entering .stop ∨
      monitor.phase (.caller id) = .inside .stop := by
  rcases inv.stopping called with stopped | ⟨id, phase⟩
  · exact .inl (stopped_stays move stopped)
  · rcases stopping_goes move phase with stopped | phase
    · exact .inl stopped
    · exact .inr ⟨id, phase⟩

theorem Inv.done_inner (inv : Inv s) (move : Monitor.Move (sections T) s.monitor b monitor)
    {w : Fin n} (ended : s.workers w = .exited ∨ monitor.phase (.worker w) = .leaving .returned) :
    monitor.shared.stopped = true ∧ monitor.shared.tasks = [] := by
  apply done_stays move
  rcases ended with exited | leaving
  · exact inv.done w (.inl exited)
  · have goes := move.goes (.worker w)
    rw [leaving] at goes
    generalize before : s.monitor.phase (.worker w) = phase at goes
    cases goes with
    | stays => exact inv.done w (.inr before)
    | pass call _ pool runs =>
      cases passes_of_run runs with
      | returned stopped empty => exact ⟨stopped, empty⟩

theorem Inv.away_inner (inv : Inv s) (allows : s.Allows b)
    (move : Monitor.Move (sections T) s.monitor b monitor) {w : Fin n}
    (busy : s.workers w ≠ .looping) : monitor.phase (.worker w) = .outside := by
  have goes := move.goes (.worker w)
  rw [inv.away w busy] at goes
  generalize after : monitor.phase (.worker w) = phase at goes
  cases goes with
  | stays => rfl
  | enter call => exact absurd allows.2 busy

end

/-- Of the elements that a list's indices stand for, one more. -/
theorem filterMap_perm_cons {ι β : Type} {indices : List ι} (nodup : indices.Nodup) {i : ι}
    (member : i ∈ indices) {before after : ι → Option β} {b : β}
    (others : ∀ j, j ≠ i → after j = before j) (absent : before i = none)
    (present : after i = some b) :
    (indices.filterMap after).Perm (b :: indices.filterMap before) := by
  -- the index occurs once: on both sides of it the two lists are the same
  obtain ⟨front, back, rfl⟩ := List.mem_iff_append.mp member
  have apart := List.nodup_append.mp nodup
  have inFront : ∀ j ∈ front, j ≠ i := fun j here => apart.2.2 j here i List.mem_cons_self
  have inBack : ∀ j ∈ back, j ≠ i := by
    rintro j here rfl
    exact (List.nodup_cons.mp apart.2.1).1 here
  have sameFront : front.filterMap after = front.filterMap before :=
    List.filterMap_congr fun j here => others j (inFront j here)
  have sameBack : back.filterMap after = back.filterMap before :=
    List.filterMap_congr fun j here => others j (inBack j here)
  rw [List.filterMap_append, List.filterMap_append, List.filterMap_cons_some present,
    List.filterMap_cons_none absent, sameFront, sameBack]
  exact List.perm_middle

section

variable {s : World n κ T} {b : Monitor.Act (Thread n κ) (Call T)}
  {monitor : Monitor.World (Thread n κ) (Call T) (Result T) (Pool T)}

omit [DecidableEq κ] in
theorem running_eq {t : World n κ T} (same : ∀ w, t.inHand w = s.inHand w) :
    t.running = s.running :=
  List.filterMap_congr fun w _ => same w

omit [DecidableEq κ] in
theorem Inv.balance_same {t : World n κ T} (inv : Inv s) (taken : t.taken = s.taken)
    (executed : t.executed = s.executed) (same : ∀ w, t.inHand w = s.inHand w) :
    t.taken.Perm (t.executed ++ t.running) := by
  rw [taken, executed, running_eq same]
  exact inv.balance

theorem inHand_move {thread : Thread n κ} {phase : Monitor.Phase (Call T) (Result T)}
    (moves : monitor.phase = (s.monitor.move thread phase).phase)
    (same : carried phase = carried (s.monitor.phase thread)) (w : Fin n) :
    ({ s with monitor } : World n κ T).inHand w = s.inHand w := by
  simp only [World.inHand, moves, carried_move same]

omit [DecidableEq κ] in
theorem Inv.looping (inv : Inv s) {w : Fin n} (inside : s.monitor.phase (.worker w) ≠ .outside) :
    s.workers w = .looping := by
  by_contra busy
  exact inside (inv.away w busy)

theorem Inv.balance_took (inv : Inv s) {w : Fin n} {task : T} {pool : Pool T} {call : Call T}
    (inside : s.monitor.phase (.worker w) = .inside call)
    (passes : monitor = s.monitor.pass (.worker w) call (.took task) pool) :
    (({ s with monitor } : World n κ T).taken).Perm
      (s.executed ++ ({ s with monitor } : World n κ T).running) := by
  -- the task moves from the queue into the hand of a worker that had none
  have looping : s.workers w = .looping := inv.looping (by simp [inside])
  have taken : ({ s with monitor } : World n κ T).taken = s.taken ++ [task] := by
    simp [World.taken, passes, Monitor.World.pass, Result.takenTask]
  have phase : monitor.phase = (s.monitor.move (.worker w) (.leaving (.took task))).phase := by
    rw [passes]
    rfl
  have others : ∀ other, other ≠ w → ({ s with monitor } : World n κ T).inHand other = s.inHand other := by
    intro other different
    have apart : Thread.worker other ≠ Thread.worker (κ := κ) w := by simpa using different
    simp only [World.inHand, phase, Monitor.World.phase_move_ne apart]
  have before : s.inHand w = none := by simp [World.inHand, looping, inside, carried]
  have after : ({ s with monitor } : World n κ T).inHand w = some task := by
    simp [World.inHand, looping, phase, carried, Result.takenTask]
  have more := filterMap_perm_cons (List.nodup_finRange n) (List.mem_finRange w) others before after
  rw [taken]
  calc s.taken ++ [task]
    _ ~ task :: s.taken := List.perm_append_singleton ..
    _ ~ task :: (s.executed ++ s.running) := inv.balance.cons task
    _ ~ s.executed ++ task :: s.running := List.perm_middle.symm
    _ ~ s.executed ++ _ := more.symm.append_left s.executed

theorem Inv.balance_inner (inv : Inv s) (allows : s.Allows b)
    (move : Monitor.Move (sections T) s.monitor b monitor) :
    (({ s with monitor } : World n κ T).taken).Perm
      (s.executed ++ ({ s with monitor } : World n κ T).running) := by
  have plain : ∀ thread phase, monitor.phase = (s.monitor.move thread phase).phase →
      monitor.history.filterMap (fun entry => entry.result.takenTask) = s.taken →
      carried phase = carried (s.monitor.phase thread) →
      (({ s with monitor } : World n κ T).taken).Perm
        (s.executed ++ ({ s with monitor } : World n κ T).running) :=
    fun _ _ moves taken same => inv.balance_same taken rfl (inHand_move moves same)
  cases move with
  | enter thread call phase => exact plain thread (.entering call) rfl rfl (by rw [phase]; rfl)
  | lock thread call phase => exact plain thread (.inside call) rfl rfl (by rw [phase]; rfl)
  | wait thread call phase => exact plain thread (.waiting call) rfl rfl (by rw [phase]; rfl)
  | pass thread call result pool phase runs =>
    have roles := inv.guarded.roles thread
    rw [phase] at roles
    cases passes_of_run runs with
    | took task rest tasks =>
      cases thread with
      | worker w => exact inv.balance_took phase rfl
      | caller id => exact absurd rfl roles
    | accepted | refused | stopped | returned =>
      refine plain thread (.leaving _) rfl ?_ (by rw [phase]; rfl)
      simp [Monitor.World.pass, World.taken, Result.takenTask]
  | leave thread result woken => exact absurd rfl (allows.stays thread woken)
  | spurious thread =>
    refine inv.balance_same rfl rfl fun w => ?_
    simp only [World.inHand, carried_wake]

theorem Inv.inner (inv : Inv s) (allows : s.Allows b)
    (move : Monitor.Move (sections T) s.monitor b monitor) : Inv { s with monitor } where
  manned := inv.manned
  guarded := inv.guarded.step move allows.calls
  away _ := inv.away_inner allows move
  balance := inv.balance_inner allows move
  done _ := inv.done_inner move
  alert := inv.alert_inner allows move
  stopping := inv.stopping_move move

theorem Inv.stop (inv : Inv s) {id : κ}
    (move : Monitor.Move (sections T) s.monitor (.enter (.caller id) .stop) monitor) :
    Inv { s with monitor, stopCalled := true } := by
  -- for the monitor this is a call as any other; the caller of `stop` is then entering
  have entered : monitor.phase (.caller id) = .entering .stop := by
    cases move
    exact Monitor.World.phase_move_self ..
  have after := inv.inner (b := .enter (.caller id) .stop) nofun move
  exact ⟨after.manned, after.guarded, after.away, after.balance, after.done, after.alert,
    fun _ => .inr ⟨id, .inl entered⟩⟩

end

/-! ## Steps of the workers -/

section

variable {s : World n κ T} {thread : Thread n κ} {result : Result T} {woken : Option (Thread n κ)}
  {monitor : Monitor.World (Thread n κ) (Call T) (Result T) (Pool T)}

omit [DecidableEq κ] in
theorem Inv.proceed_cases (inv : Inv s) (leaving : s.monitor.phase thread = .leaving result) :
    (∃ id, thread = .caller id ∧ s.proceed thread = s.workers) ∨
    (∃ w task, thread = .worker w ∧ result = .took task ∧
      s.proceed thread = Function.update s.workers w (.running task)) ∨
    ∃ w, thread = .worker w ∧ result = .returned ∧
      s.proceed thread = Function.update s.workers w .exited := by
  have roles := inv.guarded.roles thread
  rw [leaving] at roles
  cases thread with
  | caller id => exact .inl ⟨id, rfl, rfl⟩
  | worker w =>
    cases result with
    | took task => exact .inr (.inl ⟨w, task, rfl, rfl, by simp [World.proceed, leaving]⟩)
    | returned => exact .inr (.inr ⟨w, rfl, rfl, by simp [World.proceed, leaving]⟩)
    | accepted | refused | stopped => exact roles.elim

omit [DecidableEq κ] in
theorem Inv.proceed_ne (inv : Inv s) (leaving : s.monitor.phase thread = .leaving result) {w : Fin n}
    (other : thread ≠ .worker w) : s.proceed thread w = s.workers w := by
  rcases inv.proceed_cases leaving with ⟨_, _, same⟩ | ⟨w', _, rfl, _, same⟩ | ⟨w', rfl, _, same⟩
  · rw [same]
  · have apart : w ≠ w' := fun equal => other (equal ▸ rfl)
    rw [same, Function.update_of_ne apart]
  · have apart : w ≠ w' := fun equal => other (equal ▸ rfl)
    rw [same, Function.update_of_ne apart]

omit [DecidableEq κ] in
theorem Inv.proceed_exited (inv : Inv s) (leaving : s.monitor.phase thread = .leaving result)
    {w : Fin n} (exited : s.proceed thread w = .exited) :
    s.workers w = .exited ∨ s.monitor.phase (.worker w) = .leaving .returned := by
  by_cases here : thread = .worker w
  · right
    rw [here] at exited leaving
    rcases inv.proceed_cases leaving with ⟨_, same, _⟩ | ⟨w', task, same, _, runs⟩ | ⟨w', same, rfl, _⟩
    · cases same
    · cases same
      rw [runs, Function.update_self] at exited
      cases exited
    · exact leaving
  · exact .inl (inv.proceed_ne leaving here ▸ exited)

theorem Inv.inHand_leave (inv : Inv s) (leaving : s.monitor.phase thread = .leaving result)
    (threads : List (Thread n κ)) (w : Fin n) :
    ({ s with
      monitor := (s.monitor.wake threads).move thread .outside
      workers := s.proceed thread } : World n κ T).inHand w = s.inHand w := by
  by_cases here : thread = .worker w
  · subst here
    have looping : s.workers w = .looping := inv.looping (by simp [leaving])
    rcases inv.proceed_cases leaving with ⟨_, same, _⟩ | ⟨w', task, same, rfl, runs⟩ | ⟨w', same, rfl, exits⟩
    · cases same
    · cases same
      simp [World.inHand, runs, looping, leaving, carried, Result.takenTask]
    · cases same
      simp [World.inHand, exits, looping, leaving, carried, Result.takenTask]
  · have apart : Thread.worker w ≠ thread := Ne.symm here
    simp only [World.inHand, inv.proceed_ne leaving here, Monitor.World.phase_move_ne apart,
      carried_wake]

/-- A notification for one wakes a worker, unless none waits. -/
theorem Inv.alert_notified (inv : Inv s) (full : s.queue ≠ [])
    (leaving : s.monitor.phase thread = .leaving result)
    (one : (sections T).signal result = .one)
    (move : Monitor.Move (sections T) s.monitor (.leave thread woken) monitor) :
    ∃ w, s.workers w ≠ .exited ∧ ∀ call, monitor.phase (.worker w) ≠ .waiting call := by
  have working : ∀ w, s.workers w ≠ .exited :=
    fun w exited => full (inv.done w (.inl exited)).2
  cases move with
  | leave _ result' _ threads phase wakes =>
    cases leaving.symm.trans phase
    rw [one] at wakes
    cases woken with
    -- the notified thread is a worker: the callers never wait
    | some other =>
      obtain ⟨waiter, same⟩ := Option.ite_none_right_eq_some.mp wakes
      cases same
      obtain ⟨call, waits⟩ := (inv.guarded.sound.waiters other).mp waiter
      cases inv.guarded.waits other call waits
      have roles := inv.guarded.roles other
      rw [waits] at roles
      cases other with
      | caller id => exact absurd rfl roles
      | worker w =>
        have apart : Thread.worker w ≠ thread := by
          rintro rfl
          cases waits.symm.trans phase
        refine ⟨w, working w, fun call => ?_⟩
        rw [Monitor.World.phase_move_ne apart]
        simp [Monitor.World.wake, waits, Monitor.Phase.awake]
    | none =>
      -- nobody waits, so that any worker will do; there is one
      obtain ⟨nobody, _⟩ := Option.ite_none_right_eq_some.mp wakes
      refine ⟨⟨0, inv.manned⟩, working _, fun call waits => ?_⟩
      have before : ∀ w call, s.monitor.phase (.worker w) ≠ .waiting call := by
        intro w call waits
        have waiter := (inv.guarded.sound.waiters (.worker w)).mpr ⟨call, waits⟩
        rw [nobody] at waiter
        cases waiter
      rcases ((Monitor.Move.leave thread result none threads phase (one ▸ wakes)).goes _).waiting waits with
        again | ⟨_, none⟩
      · exact before _ _ again
      · exact full (empty_of_waits none).2.2

theorem phase_leave {m : Monitor.World (Thread n κ) (Call T) (Result T) (Pool T)}
    (threads : List (Thread n κ)) {other : Thread n κ} (apart : other ≠ thread)
    (up : ∀ call, m.phase other ≠ .waiting call) :
    ((m.wake threads).move thread .outside).phase other = m.phase other := by
  rw [Monitor.World.phase_move_ne apart, Monitor.World.phase_wake_of_not_waiting up]

theorem Inv.away_leave (inv : Inv s) (leaving : s.monitor.phase thread = .leaving result)
    (threads : List (Thread n κ)) {w : Fin n} (busy : s.proceed thread w ≠ .looping) :
    ((s.monitor.wake threads).move thread .outside).phase (.worker w) = .outside := by
  by_cases here : thread = .worker w
  · rw [here]
    exact Monitor.World.phase_move_self ..
  · rw [inv.proceed_ne leaving here] at busy
    have outside := inv.away w busy
    rw [phase_leave threads (Ne.symm here) (by simp [outside]), outside]

theorem Inv.done_leave (inv : Inv s) (leaving : s.monitor.phase thread = .leaving result)
    (threads : List (Thread n κ)) {w : Fin n}
    (ended : s.proceed thread w = .exited ∨
      ((s.monitor.wake threads).move thread .outside).phase (.worker w) = .leaving .returned) :
    s.stopped = true ∧ s.queue = [] := by
  rcases ended with exited | still
  · exact inv.done w (inv.proceed_exited leaving exited)
  · by_cases here : thread = .worker w
    · rw [here] at still
      cases (Monitor.World.phase_move_self ..).symm.trans still
    · rw [Monitor.World.phase_move_ne (Ne.symm here)] at still
      rcases s.monitor.phase_wake threads (.worker w) with same | ⟨call, _, enters⟩
      · exact inv.done w (.inr (same ▸ still))
      · cases enters.symm.trans still

theorem Inv.alert_leave (inv : Inv s) (leaving : s.monitor.phase thread = .leaving result)
    (full : s.queue ≠ []) (move : Monitor.Move (sections T) s.monitor (.leave thread woken) monitor) :
    (∃ w, ({ s with monitor, workers := s.proceed thread } : World n κ T).Active w) ∨
      Monitor.Announced (sections T) monitor .one := by
  have kept : ∀ w, s.workers w ≠ .exited → s.proceed thread w ≠ .exited := by
    intro w working exited
    exact full (inv.done w (inv.proceed_exited leaving exited)).2
  rcases inv.alert full with ⟨w, active⟩ | announced
  · exact .inl ⟨w, kept w active.1, active.step full move⟩
  · by_cases one : (sections T).signal result = .one
    · obtain ⟨w, working, up⟩ := inv.alert_notified full leaving one move
      exact .inl ⟨w, kept w working, up⟩
    · refine .inr (move.announced announced ?_)
      rintro _ _ result' same leaving'
      cases same
      cases leaving.symm.trans leaving'
      exact one

theorem Inv.leave (inv : Inv s)
    (move : Monitor.Move (sections T) s.monitor (.leave thread woken) monitor) :
    Inv { s with monitor, workers := s.proceed thread } := by
  have leaves := move
  cases move with
  | leave _ result _ threads leaving wakes =>
    constructor
    case manned => exact inv.manned
    case guarded => exact inv.guarded.step leaves nofun
    case away => exact fun _ => inv.away_leave leaving threads
    case balance => exact inv.balance_same rfl rfl (inv.inHand_leave leaving threads)
    case done => exact fun _ => inv.done_leave leaving threads
    case alert => exact fun full => inv.alert_leave leaving full leaves
    case stopping => exact inv.stopping_move leaves

end

omit [DecidableEq κ] in
theorem Inv.finish {s : World n κ T} (inv : Inv s) {w : Fin n} {task : T}
    (running : s.workers w = .running task) :
    Inv { s with
      workers := Function.update s.workers w .looping
      executed := s.executed ++ [task] } := by
  have outside := inv.away w (by simp [running])
  have kept : ∀ w', Function.update s.workers w .looping w' = .exited → s.workers w' = .exited := by
    intro w' exited
    by_cases here : w' = w
    · rw [here, Function.update_self] at exited
      cases exited
    · rwa [Function.update_of_ne here] at exited
  constructor
  case manned => exact inv.manned
  case guarded => exact inv.guarded
  case away =>
    intro w' busy
    by_cases here : w' = w
    · rw [here]
      exact outside
    · exact inv.away w' fun looping => busy ((Function.update_of_ne here ..).trans looping)
  case balance =>
    -- the worker's task moves from its hand to the executed ones
    have before : s.inHand w = some task := by simp [World.inHand, running]
    have others : ∀ w', w' ≠ w → s.inHand w' = ({ s with
        workers := Function.update s.workers w .looping
        executed := s.executed ++ [task] } : World n κ T).inHand w' := by
      intro w' different
      simp only [World.inHand, Function.update_of_ne different]
    have after : ({ s with
        workers := Function.update s.workers w .looping
        executed := s.executed ++ [task] } : World n κ T).inHand w = none := by
      simp [World.inHand, outside, carried]
    have fewer := filterMap_perm_cons (List.nodup_finRange n) (List.mem_finRange w) others after before
    calc s.taken
      _ ~ s.executed ++ s.running := inv.balance
      _ ~ s.executed ++ task :: _ := fewer.append_left s.executed
      _ ~ s.executed ++ [task] ++ _ := .of_eq (List.append_cons ..)
  case done =>
    rintro w' (exited | leaving)
    · exact inv.done w' (.inl (kept w' exited))
    · exact inv.done w' (.inr leaving)
  case alert =>
    intro full
    refine (inv.alert full).imp_left ?_
    rintro ⟨w', working, up⟩
    exact ⟨w', fun exited => working (kept w' exited), up⟩
  case stopping => exact inv.stopping

theorem Inv.step {s t : World n κ T} {a : Act n κ T} (inv : Inv s) (step : step s a = some t) :
    Inv t := by
  cases step_moves step with
  | inner _ _ monitor allows move => exact inv.inner allows move
  | stop id monitor move => exact inv.stop move
  | leave thread woken monitor move => exact inv.leave move
  | finish w task running => exact inv.finish running

theorem reachable_inv {s : World n κ T} (reached : (machine n κ T).Reachable s) : Inv s := by
  refine reached.invariant ?_ fun _ _ _ inv _ step => inv.step step
  intro s start
  by_cases none : n = 0
  · rw [machine, World.construct, if_pos none] at start
    cases start
  · rw [machine, World.construct, if_neg none] at start
    cases start
    exact boot_inv (Nat.pos_of_ne_zero none) κ T

/-! ## Rest -/

/-- A new call or a spurious wake-up, which may come in any state. -/
def Act.isFree : Act n κ T → Bool
  | .enqueue .. | .stop _ | .spurious _ => true
  | _ => false

/-- No call that has begun and no worker can go on. -/
def World.Stuck (s : World n κ T) : Prop := ∀ a : Act n κ T, a.isFree = false → step s a = none

theorem World.Stuck.monitor {s : World n κ T} (stuck : s.Stuck) :
    Monitor.Stuck (sections T) s.monitor := by
  intro thread
  refine ⟨?_, ?_, fun woken => ?_⟩
  · exact Option.map_eq_none_iff.mp (stuck (.lock thread) rfl)
  · exact Option.map_eq_none_iff.mp (stuck (.run thread) rfl)
  · exact Option.map_eq_none_iff.mp (Option.map_eq_none_iff.mp (stuck (.leave thread woken) rfl))

theorem Inv.rests {s : World n κ T} (inv : Inv s) (stuck : s.Stuck) (w : Fin n) :
    s.workers w = .exited ∨ s.workers w = .looping ∧ ∃ call, s.monitor.phase (.worker w) = .waiting call := by
  cases worker : s.workers w with
  | exited => exact .inl rfl
  | running task =>
    have finishes := stuck (.finish w) rfl
    simp [ThreadPool.step, worker] at finishes
  | looping =>
    rcases inv.guarded.sound.rests stuck.monitor (.worker w) with outside | waits
    · have loops := stuck (.loop w) rfl
      simp [ThreadPool.step, worker, World.through, Monitor.step, outside] at loops
    · exact .inr ⟨rfl, waits⟩

theorem Inv.unannounced {s : World n κ T} (inv : Inv s) (stuck : s.Stuck) (signal : Monitor.Signal) :
    ¬ Monitor.Announced (sections T) s.monitor signal := by
  rintro ⟨thread, result, leaving, _⟩
  rcases inv.guarded.sound.rests stuck.monitor thread with outside | ⟨call, waits⟩
  · cases leaving.symm.trans outside
  · cases leaving.symm.trans waits

theorem Inv.rested_queue {s : World n κ T} (inv : Inv s) (stuck : s.Stuck) : s.queue = [] := by
  by_contra full
  -- a worker that is up goes on, and so does a notification to come
  rcases inv.alert full with ⟨w, working, up⟩ | announced
  · rcases inv.rests stuck w with exited | ⟨_, call, waits⟩
    · exact working exited
    · exact up call waits
  · exact inv.unannounced stuck .one announced

theorem Inv.rested_executed {s : World n κ T} (inv : Inv s) (stuck : s.Stuck) :
    s.executed ~ s.accepted := by
  -- nothing is in hand and nothing queued, so that all accepted tasks have been executed
  have idle : s.running = [] := by
    refine List.filterMap_eq_nil_iff.mpr fun w _ => ?_
    rcases inv.rests stuck w with exited | ⟨looping, call, waits⟩
    · simp [World.inHand, exited]
    · simp [World.inHand, looping, waits, carried]
  have taken : s.accepted = s.taken := by
    have fifo : s.accepted = s.taken ++ s.queue := inv.guarded.fifo
    rw [fifo, inv.rested_queue stuck, List.append_nil]
  have balance := inv.balance
  rw [idle, List.append_nil] at balance
  rw [taken]
  exact balance.symm

theorem Inv.rested_exited {s : World n κ T} (inv : Inv s) (called : s.stopCalled = true)
    (stuck : s.Stuck) (w : Fin n) : s.workers w = .exited := by
  have stopped : s.stopped = true := by
    rcases inv.stopping called with stopped | ⟨id, phase⟩
    · exact stopped
    · rcases inv.guarded.sound.rests stuck.monitor (.caller id) with outside | ⟨call, waits⟩
      · simp [outside] at phase
      · simp [waits] at phase
  rcases inv.rests stuck w with exited | ⟨_, call, waits⟩
  · exact exited
  · have waiter := (inv.guarded.sound.waiters (.worker w)).mpr ⟨call, waits⟩
    rcases inv.guarded.broadcast stopped with nobody | announced
    · rw [nobody] at waiter
      cases waiter
    · exact absurd announced (inv.unannounced stuck .all)

structure ExecutesAccepted (s : World n κ T) : Prop where
  /-- tasks are taken in the order in which they were accepted, none twice -/
  order : s.accepted = s.taken ++ s.queue
  /-- a task that has been taken is with one worker or has returned, once -/
  once : s.taken ~ s.executed ++ s.running
  refuses : ∀ thread task t, s.monitor.phase thread = .inside (.enqueue task) →
    step s (.run thread) = some t → s.stopped = true →
      t.queue = s.queue ∧ t.accepted = s.accepted ∧ t.monitor.phase thread =
        .leaving (.refused task (.runtimeError "cannot enqueue task on a stopped ThreadPool"))
  exits : ∀ w, s.workers w = .exited → s.stopped = true ∧ s.queue = []
  /-- unless a notification is still to come, some remaining worker is not blocked -/
  awake : s.queue ≠ [] ∨ s.stopped = true ∧ (∃ w, s.workers w ≠ .exited) →
    (∀ signal, signal ≠ .none → ¬ Monitor.Announced (sections T) s.monitor signal) → ∃ w, s.Active w
  /-- after `stop`, the pool comes to rest when its tasks have been executed and its workers
  have exited -/
  drained : s.stopCalled = true → s.Stuck → s.executed ~ s.accepted ∧ ∀ w, s.workers w = .exited

theorem refuses {s t : World n κ T} {thread : Thread n κ} {task : T}
    (inside : s.monitor.phase thread = .inside (.enqueue task))
    (step : step s (.run thread) = some t) (stopped : s.stopped = true) :
    t.queue = s.queue ∧ t.accepted = s.accepted ∧ t.monitor.phase thread =
      .leaving (.refused task (.runtimeError "cannot enqueue task on a stopped ThreadPool")) := by
  have refused := @run_refuses T _ task stopped
  obtain ⟨monitor, move, rfl⟩ := World.through_eq_some step
  cases move with
  | wait _ call phase waits =>
    cases inside.symm.trans phase
    cases waits.symm.trans refused
  | pass _ call result pool phase runs =>
    cases inside.symm.trans phase
    cases runs.symm.trans refused
    refine ⟨rfl, ?_, Monitor.World.phase_move_self ..⟩
    simp [World.accepted, Monitor.World.pass, Result.acceptedTask]

theorem executes_accepted {s : World n κ T} (reached : (machine n κ T).Reachable s) :
    ExecutesAccepted s := by
  have inv := reachable_inv reached
  constructor
  case order => exact inv.guarded.fifo
  case once => exact inv.balance
  case refuses => exact fun _ _ _ => refuses
  case exits => exact fun w exited => inv.done w (.inl exited)
  case awake =>
    intro work quiet
    rcases work with full | ⟨stopped, w, working⟩
    · exact (inv.alert full).resolve_right (quiet .one nofun)
    · have nobody := (inv.guarded.broadcast stopped).resolve_right (quiet .all nofun)
      refine ⟨w, working, fun call waits => ?_⟩
      have waiter := (inv.guarded.sound.waiters (.worker w)).mpr ⟨call, waits⟩
      rw [nobody] at waiter
      cases waiter
  case drained => exact fun called stuck => ⟨inv.rested_executed stuck, inv.rested_exited called stuck⟩

/-- Worker 0 waits when a task is accepted; `stop` comes before worker 0 is up again and before
another task, which is refused; both workers exit. -/
def stoppedEarly : List (Act 2 Nat Nat) :=
  [.loop 0, .lock (.worker 0), .run (.worker 0),
    .enqueue 0 7, .lock (.caller 0), .run (.caller 0), .leave (.caller 0) (some (.worker 0)),
    .stop 1, .lock (.caller 1), .run (.caller 1), .leave (.caller 1) none,
    .enqueue 0 8, .lock (.caller 0), .run (.caller 0), .leave (.caller 0) none,
    .lock (.worker 0), .run (.worker 0), .leave (.worker 0) none, .finish 0,
    .loop 0, .lock (.worker 0), .run (.worker 0), .leave (.worker 0) none,
    .loop 1, .lock (.worker 1), .run (.worker 1), .leave (.worker 1) none]

theorem executes_accepted_stoppedEarly :
    ∃ s, (machine 2 Nat Nat).exec (.boot 2 Nat Nat) stoppedEarly = some s ∧ s.executed = [7] ∧
      ExecutesAccepted s := by
  have run : ((machine 2 Nat Nat).exec (.boot 2 Nat Nat) stoppedEarly).map World.executed =
      some [7] := by decide
  obtain ⟨s, replay, executed⟩ := Option.map_eq_some_iff.mp run
  have started : (machine 2 Nat Nat).Reachable (.boot 2 Nat Nat) := .start rfl
  exact ⟨s, replay, executed, executes_accepted (started.replay replay)⟩

end CoroEpoll.ThreadPool
