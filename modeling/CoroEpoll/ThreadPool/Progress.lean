import CoroEpoll.Library.Rank
import CoroEpoll.ThreadPool.Callers

/-! A pool comes to rest unless something new is asked of it. -/

set_option autoImplicit false

namespace CoroEpoll.ThreadPool

variable {n : Nat} {κ T : Type}

/-- How many steps a worker can still take without another task or notification. -/
def workerRank : Worker T → Monitor.Phase (Call T) (Result T) → Nat
  | .exited, _ => 0
  | .running _, _ => 5
  | .looping, .waiting _ => 0
  | .looping, .inside _ => 2
  | .looping, .entering _ => 3
  | .looping, .outside => 4
  | .looping, .leaving (.took _) => 6
  | .looping, .leaving _ => 1

/-- The same for a caller, which pays for the worker or workers that it wakes, and for the task
that it adds. -/
def callerRank (n : Nat) : Monitor.Phase (Call T) (Result T) → Nat
  | .outside | .waiting _ => 0
  | .entering _ => 3 * n + 11
  | .inside _ => 3 * n + 10
  | .leaving _ => 3 * n + 4

section

variable (m : Monitor.World (Thread n κ) (Call T) (Result T) (Pool T)) (workers : Fin n → Worker T)

def callerRanks : κ → Nat := fun id => callerRank n (m.phase (.caller id))

def workerRanks : Fin n → Nat := fun w => workerRank (workers w) (m.phase (.worker w))

def threadRank (workers : Fin n → Worker T) :
    Thread n κ → Monitor.Phase (Call T) (Result T) → Nat
  | .worker w, phase => workerRank (workers w) phase
  | .caller _, phase => callerRank n phase

noncomputable def threadsRank : Nat :=
  ∑ w, workerRanks m workers w + finsum (callerRanks m)

end

noncomputable def World.rank (s : World n κ T) : Nat :=
  threadsRank s.monitor s.workers + 5 * s.queue.length

def World.Few (s : World n κ T) : Prop := (callerRanks s.monitor).HasFiniteSupport

section

variable [DecidableEq κ] {m : Monitor.World (Thread n κ) (Call T) (Result T) (Pool T)}
  {workers : Fin n → Worker T}

theorem callerRanks_move_worker (w : Fin n) (phase : Monitor.Phase (Call T) (Result T)) :
    callerRanks (m.move (.worker w) phase) = callerRanks m := by
  funext id
  rw [callerRanks, Monitor.World.phase_move_ne (by simp), callerRanks]

theorem callerRanks_move_caller (id : κ) (phase : Monitor.Phase (Call T) (Result T)) :
    callerRanks (m.move (.caller id) phase) =
      Function.update (callerRanks m) id (callerRank n phase) := by
  funext other
  by_cases here : other = id
  · rw [here, Function.update_self, callerRanks, Monitor.World.phase_move_self]
  · rw [Function.update_of_ne here, callerRanks,
      Monitor.World.phase_move_ne (by simpa using here), callerRanks]

theorem workerRanks_move_caller (id : κ) (phase : Monitor.Phase (Call T) (Result T)) :
    workerRanks (m.move (.caller id) phase) workers = workerRanks m workers := by
  funext w
  rw [workerRanks, Monitor.World.phase_move_ne (by simp), workerRanks]

theorem workerRanks_move_worker (w : Fin n) (phase : Monitor.Phase (Call T) (Result T)) :
    workerRanks (m.move (.worker w) phase) workers =
      Function.update (workerRanks m workers) w (workerRank (workers w) phase) := by
  funext other
  by_cases here : other = w
  · rw [here, Function.update_self, workerRanks, Monitor.World.phase_move_self]
  · rw [Function.update_of_ne here, workerRanks,
      Monitor.World.phase_move_ne (by simpa using here), workerRanks]

theorem few_move (few : (callerRanks m).HasFiniteSupport) (thread : Thread n κ)
    (phase : Monitor.Phase (Call T) (Result T)) :
    (callerRanks (m.move thread phase)).HasFiniteSupport := by
  cases thread with
  | worker w =>
    rw [callerRanks_move_worker]
    exact few
  | caller id =>
    rw [callerRanks_move_caller]
    exact Rank.hasFiniteSupport_update few id _

theorem threadsRank_move (workers : Fin n → Worker T) (few : (callerRanks m).HasFiniteSupport)
    (thread : Thread n κ) (phase : Monitor.Phase (Call T) (Result T)) :
    threadsRank (m.move thread phase) workers + threadRank workers thread (m.phase thread) =
      threadsRank m workers + threadRank workers thread phase := by
  cases thread with
  | worker w =>
    have one := Rank.sum_update (workerRanks m workers) w (workerRank (workers w) phase)
    rw [threadsRank, callerRanks_move_worker, workerRanks_move_worker, threadsRank]
    simp only [threadRank]
    simp only [workerRanks] at one ⊢
    omega
  | caller id =>
    have one := Rank.finsum_update few id (callerRank n phase)
    rw [threadsRank, callerRanks_move_caller, workerRanks_move_caller, threadsRank]
    simp only [threadRank]
    simp only [callerRanks] at one ⊢
    omega

theorem workerRank_awake (worker : Worker T) (phase : Monitor.Phase (Call T) (Result T)) :
    workerRank worker phase.awake ≤ workerRank worker phase + 3 := by
  cases phase with
  | waiting call => cases worker <;> simp [Monitor.Phase.awake, workerRank]
  | outside | entering | inside | leaving => exact Nat.le_add_right ..

theorem callerRanks_wake (threads : List (Thread n κ))
    (up : ∀ id call, m.phase (.caller id) ≠ .waiting call) :
    callerRanks (m.wake threads) = callerRanks m := by
  funext id
  rw [callerRanks, Monitor.World.phase_wake_of_not_waiting (up id), callerRanks]

/-- A notification costs no more than if it woke every worker. -/
theorem threadsRank_wake (workers : Fin n → Worker T) (threads : List (Thread n κ))
    (up : ∀ id call, m.phase (.caller id) ≠ .waiting call) :
    threadsRank (m.wake threads) workers ≤ threadsRank m workers + 3 * n := by
  -- a waiter has nothing to do; once woken it has to take the lock, and to wait or pass again
  have each : ∀ w, workerRanks (m.wake threads) workers w ≤ workerRanks m workers w + 3 := by
    intro w
    by_cases woken : Thread.worker w ∈ threads
    · have after : (m.wake threads).phase (.worker w) = (m.phase (.worker w)).awake :=
        if_pos woken
      rw [workerRanks, after]
      exact workerRank_awake ..
    · have after : (m.wake threads).phase (.worker w) = m.phase (.worker w) := if_neg woken
      rw [workerRanks, after]
      exact Nat.le_add_right ..
  have all : ∑ w, workerRanks (m.wake threads) workers w ≤ ∑ w, (workerRanks m workers w + 3) :=
    Finset.sum_le_sum fun w _ => each w
  rw [Finset.sum_add_distrib, Finset.sum_const, Finset.card_univ, Fintype.card_fin, smul_eq_mul] at all
  rw [threadsRank, callerRanks_wake threads up, threadsRank]
  omega

end

/-! ## The steps -/

section

variable [DecidableEq κ] {s t : World n κ T} {a : Act n κ T}

omit [DecidableEq κ] in
theorem Inv.caller_up (inv : Inv s) (id : κ) (call : Call T) :
    s.monitor.phase (.caller id) ≠ .waiting call := by
  intro waits
  have role := inv.guarded.roles (.caller id)
  rw [waits] at role
  exact role (inv.guarded.waits _ call waits)

omit [DecidableEq κ] in
theorem Inv.threadRank_eq (inv : Inv s) (thread : Thread n κ)
    (inside : s.monitor.phase thread ≠ .outside) (phase : Monitor.Phase (Call T) (Result T)) :
    threadRank s.workers thread phase = threadRank (fun _ => .looping) thread phase := by
  cases thread with
  | worker w => rw [threadRank, inv.looping inside, threadRank]
  | caller id => rfl

theorem Inv.pass_falls (inv : Inv s) (few : s.Few) {thread : Thread n κ} {call : Call T}
    {result : Result T} {pool : Pool T} (inside : s.monitor.phase thread = .inside call)
    (passes : Passes s.monitor.shared call result pool) :
    threadsRank (s.monitor.pass thread call result pool) s.workers + 5 * pool.tasks.length <
      s.rank := by
  have moved := threadsRank_move s.workers few thread (.leaving result)
  have same : threadsRank (s.monitor.pass thread call result pool) s.workers =
      threadsRank (s.monitor.move thread (.leaving result)) s.workers := rfl
  have away : s.monitor.phase thread ≠ .outside := by simp [inside]
  have role := inv.guarded.roles thread
  rw [inside] at role
  rw [inv.threadRank_eq thread away, inv.threadRank_eq thread away, inside] at moved
  rw [same, World.rank, World.queue]
  cases thread with
  | worker w =>
    cases passes with
    -- the worker gets steps for the task, fewer than the task weighed in the queue
    | took task rest tasks =>
      simp only [threadRank, workerRank] at moved
      simp only [tasks, List.length_cons]
      omega
    | returned =>
      simp only [threadRank, workerRank] at moved
      omega
    | accepted | refused | stopped => cases role
  | caller id =>
    cases passes with
    -- the caller pays for the task that it adds
    | accepted task =>
      simp only [threadRank, callerRank] at moved
      rw [List.length_append, List.length_singleton]
      omega
    | refused =>
      simp only [threadRank, callerRank] at moved
      omega
    | stopped =>
      simp only [threadRank, callerRank] at moved ⊢
      omega
    | took | returned => exact absurd rfl role

theorem Inv.lock_falls (inv : Inv s) (few : s.Few) {thread : Thread n κ} {call : Call T}
    (entering : s.monitor.phase thread = .entering call) :
    threadsRank (s.monitor.lock thread call) s.workers < threadsRank s.monitor s.workers := by
  have moved := threadsRank_move s.workers few thread (.inside call)
  have same : threadsRank (s.monitor.lock thread call) s.workers =
      threadsRank (s.monitor.move thread (.inside call)) s.workers := rfl
  have away : s.monitor.phase thread ≠ .outside := by simp [entering]
  rw [inv.threadRank_eq thread away, inv.threadRank_eq thread away, entering] at moved
  rw [same]
  cases thread <;> simp only [threadRank, workerRank, callerRank] at moved <;> omega

theorem Inv.wait_falls (inv : Inv s) (few : s.Few) {thread : Thread n κ} {call : Call T}
    (inside : s.monitor.phase thread = .inside call) :
    threadsRank (s.monitor.wait thread call) s.workers < threadsRank s.monitor s.workers := by
  have moved := threadsRank_move s.workers few thread (.waiting call)
  have same : threadsRank (s.monitor.wait thread call) s.workers =
      threadsRank (s.monitor.move thread (.waiting call)) s.workers := rfl
  have away : s.monitor.phase thread ≠ .outside := by simp [inside]
  rw [inv.threadRank_eq thread away, inv.threadRank_eq thread away, inside] at moved
  rw [same]
  cases thread <;> simp only [threadRank, workerRank, callerRank] at moved <;> omega

omit [DecidableEq κ] in
theorem notified_none {threads waiters : List (Thread n κ)} {woken : Option (Thread n κ)}
    [DecidableEq (Thread n κ)] (wakes : Monitor.notified waiters .none woken = some threads) :
    threads = [] := by
  cases woken with
  | none =>
    cases wakes
    rfl
  | some other => cases wakes

omit [DecidableEq κ] in
theorem threadsRank_update (m : Monitor.World (Thread n κ) (Call T) (Result T) (Pool T))
    (workers : Fin n → Worker T) (w : Fin n) (worker : Worker T) :
    threadsRank m (Function.update workers w worker) +
        workerRank (workers w) (m.phase (.worker w)) =
      threadsRank m workers + workerRank worker (m.phase (.worker w)) := by
  have ranks : workerRanks m (Function.update workers w worker) =
      Function.update (workerRanks m workers) w (workerRank worker (m.phase (.worker w))) := by
    funext other
    by_cases here : other = w
    · rw [here, Function.update_self, workerRanks, Function.update_self]
    · rw [Function.update_of_ne here, workerRanks, Function.update_of_ne here, workerRanks]
  have one := Rank.sum_update (workerRanks m workers) w (workerRank worker (m.phase (.worker w)))
  rw [← ranks] at one
  rw [threadsRank, threadsRank]
  simp only [workerRanks] at one ⊢
  omega

theorem threadsRank_wake_nil (m : Monitor.World (Thread n κ) (Call T) (Result T) (Pool T))
    (workers : Fin n → Worker T) : threadsRank (m.wake []) workers = threadsRank m workers := by
  have phase : (m.wake []).phase = m.phase := by
    funext thread
    simp [Monitor.World.wake]
  unfold threadsRank workerRanks callerRanks
  rw [phase]

theorem Inv.leave_worker_falls (inv : Inv s) (few : s.Few) {w : Fin n} {result : Result T}
    {worker : Worker T} (leaving : s.monitor.phase (.worker w) = .leaving result)
    (less : workerRank worker .outside < workerRank .looping (.leaving result)) :
    threadsRank ((s.monitor.wake []).move (.worker w) .outside)
        (Function.update s.workers w worker) < threadsRank s.monitor s.workers := by
  have few' : (callerRanks (s.monitor.wake [])).HasFiniteSupport := by
    rw [callerRanks_wake [] inv.caller_up]
    exact few
  have looping : s.workers w = .looping := inv.looping (by simp [leaving])
  have still : (s.monitor.wake []).phase (.worker w) = .leaving result :=
    (Monitor.World.phase_wake_of_not_waiting (by simp [leaving])).trans leaving
  have moved := threadsRank_move s.workers few' (.worker w) .outside
  have updated := threadsRank_update ((s.monitor.wake []).move (.worker w) .outside) s.workers w worker
  rw [still, threadsRank_wake_nil] at moved
  rw [Monitor.World.phase_move_self] at updated
  simp only [threadRank, looping] at moved updated
  omega

theorem Inv.leave_caller_falls (inv : Inv s) (few : s.Few) {id : κ} {result : Result T}
    (threads : List (Thread n κ)) (leaving : s.monitor.phase (.caller id) = .leaving result) :
    threadsRank ((s.monitor.wake threads).move (.caller id) .outside) s.workers <
      threadsRank s.monitor s.workers := by
  have few' : (callerRanks (s.monitor.wake threads)).HasFiniteSupport := by
    rw [callerRanks_wake threads inv.caller_up]
    exact few
  -- the caller has kept enough to pay for every worker that its notification wakes
  have still : (s.monitor.wake threads).phase (.caller id) = .leaving result :=
    (Monitor.World.phase_wake_of_not_waiting (inv.caller_up id)).trans leaving
  have moved := threadsRank_move s.workers few' (.caller id) .outside
  have woke := threadsRank_wake s.workers threads inv.caller_up
  rw [still] at moved
  simp only [threadRank, callerRank] at moved
  omega

theorem Inv.leave_falls (inv : Inv s) (few : s.Few) {thread : Thread n κ}
    {woken : Option (Thread n κ)} {monitor : Monitor.World (Thread n κ) (Call T) (Result T) (Pool T)}
    (move : Monitor.Move (sections T) s.monitor (.leave thread woken) monitor) :
    threadsRank monitor (s.proceed thread) < threadsRank s.monitor s.workers := by
  cases move with
  | leave _ result _ threads leaving wakes =>
    rcases inv.proceed_cases leaving with
      ⟨id, rfl, same⟩ | ⟨w, task, rfl, rfl, runs⟩ | ⟨w, rfl, rfl, exits⟩
    · rw [same]
      exact inv.leave_caller_falls few threads leaving
    -- a worker notifies nobody
    · cases notified_none wakes
      rw [runs]
      exact inv.leave_worker_falls few leaving (by simp [workerRank])
    · cases notified_none wakes
      rw [exits]
      exact inv.leave_worker_falls few leaving (by simp [workerRank])

theorem rank_falls (inv : Inv s) (few : s.Few) (going : a.isFree = false)
    (step : ThreadPool.step s a = some t) : t.rank < s.rank := by
  cases a with
  | enqueue | stop | spurious => cases going
  | loop w =>
    simp only [ThreadPool.step] at step
    split at step
    · rename_i looping
      obtain ⟨monitor, move, rfl⟩ := World.through_eq_some step
      cases move with
      | enter _ _ outside =>
        have moved := threadsRank_move s.workers few (.worker w) (.entering .take)
        simp only [threadRank, looping, outside, workerRank] at moved
        simp only [World.rank, World.queue, Monitor.World.move] at moved ⊢
        omega
    · cases step
    · cases step
  | lock thread =>
    obtain ⟨monitor, move, rfl⟩ := World.through_eq_some step
    cases move with
    | lock _ call entering => exact Nat.add_lt_add_right (inv.lock_falls few entering) _
  | run thread =>
    obtain ⟨monitor, move, rfl⟩ := World.through_eq_some step
    cases move with
    | wait _ call inside => exact Nat.add_lt_add_right (inv.wait_falls few inside) _
    | pass _ call result pool inside runs => exact inv.pass_falls few inside (passes_of_run runs)
  | leave thread woken =>
    obtain ⟨after, through, rfl⟩ := Option.map_eq_some_iff.mp step
    obtain ⟨monitor, move, rfl⟩ := World.through_eq_some through
    have shared : monitor.shared = s.monitor.shared := by
      cases move
      rfl
    have falls := inv.leave_falls few move
    simp only [World.rank, World.queue, shared]
    omega
  | finish w =>
    obtain ⟨task, running, rfl⟩ := finish_of_step step
    have updated := threadsRank_update s.monitor s.workers w .looping
    rw [running, inv.away w (by simp [running])] at updated
    simp only [workerRank] at updated
    simp only [World.rank, World.queue]
    omega

theorem rank_rises (inv : Inv s) (few : s.Few) (free : a.isFree = true)
    (step : ThreadPool.step s a = some t) : t.rank ≤ s.rank + (3 * n + 11) := by
  have enters : ∀ id call monitor,
      Monitor.Move (sections T) s.monitor (.enter (.caller id) call) monitor →
      threadsRank monitor s.workers + 5 * monitor.shared.tasks.length ≤ s.rank + (3 * n + 11) := by
    intro id call monitor move
    cases move with
    | enter _ _ outside =>
      have moved := threadsRank_move s.workers few (.caller id) (.entering call)
      have shared : (s.monitor.move (.caller id) (.entering call)).shared = s.monitor.shared := rfl
      simp only [threadRank, outside, callerRank] at moved
      rw [shared, World.rank, World.queue]
      omega
  cases a with
  | loop | lock | run | leave | finish => cases free
  | enqueue id task =>
    obtain ⟨monitor, move, rfl⟩ := World.through_eq_some step
    exact enters id _ monitor move
  | stop id =>
    obtain ⟨_, through, rfl⟩ := Option.map_eq_some_iff.mp step
    obtain ⟨monitor, move, rfl⟩ := World.through_eq_some through
    exact enters id _ monitor move
  | spurious thread =>
    obtain ⟨monitor, move, rfl⟩ := World.through_eq_some step
    cases move with
    | spurious _ waits =>
      have woke := threadsRank_wake s.workers [thread] inv.caller_up
      have shared : (s.monitor.wake [thread]).shared = s.monitor.shared := rfl
      simp only [World.rank, World.queue, shared]
      omega

theorem Inv.few_move (inv : Inv s) (few : s.Few) {b : Monitor.Act (Thread n κ) (Call T)}
    {monitor : Monitor.World (Thread n κ) (Call T) (Result T) (Pool T)}
    (move : Monitor.Move (sections T) s.monitor b monitor) :
    (callerRanks monitor).HasFiniteSupport := by
  have woken : ∀ threads, (callerRanks (s.monitor.wake threads)).HasFiniteSupport := by
    intro threads
    rw [callerRanks_wake threads inv.caller_up]
    exact few
  cases move with
  | enter thread call => exact ThreadPool.few_move few thread _
  | lock thread call => exact ThreadPool.few_move few thread (.inside call)
  | wait thread call => exact ThreadPool.few_move few thread (.waiting call)
  | pass thread call result => exact ThreadPool.few_move few thread (.leaving result)
  | leave thread result woken' threads => exact ThreadPool.few_move (woken threads) thread .outside
  | spurious thread => exact woken [thread]

theorem Inv.few (inv : Inv s) (few : s.Few) (step : ThreadPool.step s a = some t) : t.Few := by
  cases step_moves step with
  | inner _ _ monitor _ move => exact inv.few_move few move
  | stop id monitor move => exact inv.few_move few move
  | leave thread woken monitor move => exact inv.few_move few move
  | finish => exact few

omit [DecidableEq κ] in
theorem boot_few (n : Nat) (κ T : Type) : (World.boot n κ T).Few := by
  have none : (callerRanks (World.boot n κ T).monitor).support = ∅ := by
    ext id
    simp [callerRanks, World.boot, Monitor.World.boot, callerRank]
  change (callerRanks (World.boot n κ T).monitor).support.Finite
  rw [none]
  exact Set.finite_empty

end

end CoroEpoll.ThreadPool
