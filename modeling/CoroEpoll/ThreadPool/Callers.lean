import CoroEpoll.ThreadPool.Submit
import Mathlib.Data.List.Pairwise

/-! What the callers of a pool see of it: an await has one call of `enqueue`, which is accepted
or refused. -/

set_option autoImplicit false

namespace CoroEpoll.ThreadPool

open scoped List

variable {n : Nat} {κ T : Type}

/-! ## The pool as its callers see it -/

def Act.inMonitor : Act n κ T → Option (Monitor.Act (Thread n κ) (Call T))
  | .enqueue id task => some (.enter (.caller id) (.enqueue task))
  | .stop id => some (.enter (.caller id) .stop)
  | .loop w => some (.enter (.worker w) .take)
  | .lock thread => some (.lock thread)
  | .run thread => some (.run thread)
  | .leave thread woken => some (.leave thread woken)
  | .spurious thread => some (.spurious thread)
  | .finish _ => none

def acceptedIn (history : List (Monitor.Entry (Thread n κ) (Call T) (Result T))) : List T :=
  history.filterMap fun entry => entry.result.acceptedTask

section

variable [DecidableEq κ] {s t : World n κ T} {a : Act n κ T}

theorem move_of_step {b : Monitor.Act (Thread n κ) (Call T)} (step : step s a = some t)
    (inMonitor : a.inMonitor = some b) : Monitor.Move (sections T) s.monitor b t.monitor := by
  have through : ∀ b (t : World n κ T), s.through b = some t →
      Monitor.Move (sections T) s.monitor b t.monitor := by
    intro b t through
    obtain ⟨monitor, move, rfl⟩ := World.through_eq_some through
    exact move
  cases a with
  | enqueue | lock | run | spurious =>
    cases inMonitor
    exact through _ _ step
  | stop id =>
    cases inMonitor
    obtain ⟨after, enters, rfl⟩ := Option.map_eq_some_iff.mp step
    have move := through _ _ enters
    exact move
  | leave thread woken =>
    cases inMonitor
    obtain ⟨after, leaves, rfl⟩ := Option.map_eq_some_iff.mp step
    have move := through _ _ leaves
    exact move
  | loop w =>
    cases inMonitor
    simp only [ThreadPool.step] at step
    split at step
    · exact through _ _ step
    · cases step
    · cases step
  | finish w => cases inMonitor

theorem Inv.running_stays (inv : Inv s) (step : ThreadPool.step s a = some t) {w : Fin n} {task : T}
    (running : s.workers w = .running task) (goesOn : a ≠ .finish w) :
    t.workers w = .running task := by
  cases step_moves step with
  | inner | stop => exact running
  | leave thread woken monitor move =>
    cases move with
    | leave _ result _ threads leaving =>
      have other : thread ≠ .worker w := by
        rintro rfl
        have outside := inv.away w (by simp [running])
        cases leaving.symm.trans outside
      exact (inv.proceed_ne leaving other).trans running
  | finish w' =>
    have other : w ≠ w' := fun same => goesOn (same ▸ rfl)
    exact (Function.update_of_ne other ..).trans running

theorem executed_of_step (step : step s a = some t) (goesOn : ∀ w, a ≠ .finish w) :
    t.executed = s.executed := by
  cases step_moves step with
  | inner | stop | leave => rfl
  | finish w => exact absurd rfl (goesOn w)

theorem finish_of_step {w : Fin n} (step : step s (.finish w) = some t) :
    ∃ task, s.workers w = .running task ∧ t = { s with
      workers := Function.update s.workers w .looping
      executed := s.executed ++ [task] } := by
  simp only [ThreadPool.step] at step
  split at step
  · rename_i task running
    cases step
    exact ⟨task, running, rfl⟩
  · cases step
  · cases step

theorem leaving_accepted {m m' : Monitor.World (Thread n κ) (Call T) (Result T) (Pool T)}
    {b : Monitor.Act (Thread n κ) (Call T)} (move : Monitor.Move (sections T) m b m')
    {thread : Thread n κ} {task : T} (leaving : m'.phase thread = .leaving (.accepted task)) :
    m.phase thread = .leaving (.accepted task) ∨ b = .run thread := by
  have goes := move.goes thread
  rw [leaving] at goes
  generalize before : m.phase thread = phase at goes
  cases goes with
  | stays => exact .inl rfl
  | pass => exact .inr rfl

theorem accepted_of_move {m m' : Monitor.World (Thread n κ) (Call T) (Result T) (Pool T)}
    {b : Monitor.Act (Thread n κ) (Call T)} (move : Monitor.Move (sections T) m b m') :
    (∃ thread task, b = .run thread ∧ m.phase thread = .inside (.enqueue task) ∧
      m'.phase thread = .leaving (.accepted task) ∧
      acceptedIn m'.history = acceptedIn m.history ++ [task]) ∨
    (acceptedIn m'.history = acceptedIn m.history ∧ ∀ thread task,
      m'.phase thread = .leaving (.accepted task) → m.phase thread = .leaving (.accepted task)) := by
  have kept : ∀ thread task, m'.phase thread = .leaving (.accepted task) →
      m.phase thread = .leaving (.accepted task) ∨ b = .run thread :=
    fun _ _ => leaving_accepted move
  cases move with
  | pass thread call result pool inside runs =>
    cases passes_of_run runs with
    | accepted task =>
      refine .inl ⟨thread, task, rfl, inside, Monitor.World.phase_move_self .., ?_⟩
      simp [acceptedIn, Monitor.World.pass, Result.acceptedTask]
    | refused | stopped | took | returned =>
      refine .inr ⟨by simp [acceptedIn, Monitor.World.pass, Result.acceptedTask], ?_⟩
      intro other task leaving
      refine (kept other task leaving).resolve_right ?_
      intro same
      cases same
      cases (Monitor.World.phase_move_self ..).symm.trans leaving
  | wait thread call inside waits =>
    refine .inr ⟨rfl, fun other task leaving => (kept other task leaving).resolve_right ?_⟩
    intro same
    cases same
    cases (Monitor.World.phase_move_self ..).symm.trans leaving
  | enter | lock | leave | spurious =>
    exact .inr ⟨rfl, fun other task leaving => (kept other task leaving).resolve_right (by simp)⟩

omit [DecidableEq κ] in
theorem Inv.taken_nodup (inv : Inv s) (distinct : s.accepted.Nodup) :
    (s.executed ++ s.running).Nodup := by
  have fifo : s.accepted = s.taken ++ s.queue := inv.guarded.fifo
  rw [fifo] at distinct
  exact inv.balance.nodup_iff.mp (List.nodup_append.mp distinct).1

omit [DecidableEq κ] in
theorem inHand_of_running {w : Fin n} {task : T} (running : s.workers w = .running task) :
    s.inHand w = some task := by
  simp [World.inHand, running]

omit [DecidableEq κ] in
theorem mem_running {w : Fin n} {task : T} (running : s.workers w = .running task) :
    task ∈ s.running :=
  List.mem_filterMap.mpr ⟨w, List.mem_finRange w, inHand_of_running running⟩

omit [DecidableEq κ] in
theorem Inv.not_executed (inv : Inv s) (distinct : s.accepted.Nodup) {w : Fin n} {task : T}
    (running : s.workers w = .running task) : task ∉ s.executed := by
  intro executed
  have apart := (List.nodup_append.mp (inv.taken_nodup distinct)).2.2
  exact apart task executed task (mem_running running) rfl

omit [DecidableEq κ] in
theorem Inv.running_unique (inv : Inv s) (distinct : s.accepted.Nodup) {w w' : Fin n} {task : T}
    (running : s.workers w = .running task) (running' : s.workers w' = .running task) :
    w = w' := by
  by_contra different
  have nodup := (List.nodup_append.mp (inv.taken_nodup distinct)).2.1
  -- two workers with one task would have it in the list of running tasks twice
  have pairs := List.pairwise_filterMap.mp nodup
  have : Std.Symm fun i j : Fin n =>
      ∀ b, s.inHand i = some b → ∀ b', s.inHand j = some b' → b ≠ b' :=
    ⟨fun i j apart b here b' there same => apart b' there b here same.symm⟩
  exact pairs.forall (List.mem_finRange w) (List.mem_finRange w') different
    task (inHand_of_running running) task (inHand_of_running running') rfl

omit [DecidableEq κ] in
theorem Inv.executed_accepted (inv : Inv s) {task : T} (executed : task ∈ s.executed) :
    task ∈ s.accepted := by
  have fifo : s.accepted = s.taken ++ s.queue := inv.guarded.fifo
  rw [fifo]
  exact List.mem_append_left _ (inv.balance.mem_iff.mpr (List.mem_append_left _ executed))

omit [DecidableEq κ] in
theorem Inv.running_accepted (inv : Inv s) {w : Fin n} {task : T}
    (running : s.workers w = .running task) : task ∈ s.accepted := by
  have fifo : s.accepted = s.taken ++ s.queue := inv.guarded.fifo
  rw [fifo]
  exact List.mem_append_left _
    (inv.balance.mem_iff.mpr (List.mem_append_right _ (mem_running running)))

end

end CoroEpoll.ThreadPool

namespace CoroEpoll.Submit

open ThreadPool (Call Result Pool Thread sections acceptedIn)

def stoppedError : StdException := .runtimeError "cannot enqueue task on a stopped ThreadPool"

/-- How far an await has come: where its call of `enqueue` is, how often its task has been
accepted, and how often `await_suspend` has thrown. -/
inductive Ticket (awaits id : Nat) : Monitor.Phase (Call Nat) (Result Nat) → Nat → Nat → Prop where
  | unused : awaits ≤ id → Ticket awaits id .outside 0 0
  | entering : id < awaits → Ticket awaits id (.entering (.enqueue id)) 0 0
  | inside : id < awaits → Ticket awaits id (.inside (.enqueue id)) 0 0
  | accepted : id < awaits → Ticket awaits id (.leaving (.accepted id)) 1 0
  | refused : id < awaits → Ticket awaits id (.leaving (.refused id stoppedError)) 0 0
  | returned : id < awaits → Ticket awaits id .outside 1 0
  | threw : id < awaits → Ticket awaits id .outside 0 1

section

variable {awaits id accepted thrown : Nat} {phase : Monitor.Phase (Call Nat) (Result Nat)}

theorem Ticket.once (ticket : Ticket awaits id phase accepted thrown) :
    accepted ≤ 1 ∧ thrown ≤ 1 := by
  cases ticket <;> decide

theorem Ticket.of_accepted (ticket : Ticket awaits id phase accepted thrown)
    (counted : 0 < accepted) : id < awaits ∧ thrown = 0 := by
  cases ticket with
  | accepted known | returned known => exact ⟨known, rfl⟩
  | unused | entering | inside | refused | threw => cases counted

theorem Ticket.of_thrown (ticket : Ticket awaits id phase accepted thrown)
    (counted : 0 < thrown) : id < awaits := by
  cases ticket with
  | threw known => exact known
  | unused | entering | inside | accepted | refused | returned => cases counted

theorem Ticket.of_refusing {task : Nat} {error : StdException}
    (ticket : Ticket awaits id phase accepted thrown)
    (leaving : phase = .leaving (.refused task error)) :
    error = stoppedError ∧ id < awaits ∧ accepted = 0 ∧ thrown = 0 := by
  cases ticket with
  | refused known =>
    cases leaving
    exact ⟨rfl, known, rfl, rfl⟩
  | unused | entering | inside | accepted | returned | threw => cases leaving

theorem Ticket.of_inside {task : Nat} (ticket : Ticket awaits id phase accepted thrown)
    (inside : phase = .inside (.enqueue task)) : task = id := by
  cases ticket with
  | inside =>
    cases inside
    rfl
  | unused | entering | accepted | refused | returned | threw => cases inside

theorem Ticket.decided (ticket : Ticket awaits id phase accepted thrown) (known : id < awaits)
    (outside : phase = .outside) : accepted = 1 ∧ thrown = 0 ∨ accepted = 0 ∧ thrown = 1 := by
  cases ticket with
  | unused fresh => omega
  | returned => exact .inl ⟨rfl, rfl⟩
  | threw => exact .inr ⟨rfl, rfl⟩
  | entering | inside | accepted | refused => cases outside

theorem Ticket.of_fresh (ticket : Ticket awaits id phase accepted thrown) (fresh : awaits ≤ id) :
    accepted = 0 ∧ thrown = 0 := by
  cases ticket with
  | unused => exact ⟨rfl, rfl⟩
  | entering known | inside known | accepted known | refused known | returned known | threw known =>
    omega

theorem Ticket.grow (ticket : Ticket awaits id phase accepted thrown) (other : id ≠ awaits) :
    Ticket (awaits + 1) id phase accepted thrown := by
  cases ticket with
  | unused fresh => exact .unused (by omega)
  | entering known => exact .entering (by omega)
  | inside known => exact .inside (by omega)
  | accepted known => exact .accepted (by omega)
  | refused known => exact .refused (by omega)
  | returned known => exact .returned (by omega)
  | threw known => exact .threw (by omega)

theorem Ticket.throws {task : Nat} {error : StdException}
    (ticket : Ticket awaits id phase accepted thrown)
    (leaving : phase = .leaving (.refused task error)) :
    Ticket awaits id .outside accepted (thrown + 1) := by
  cases ticket with
  | refused known => exact .threw known
  | unused | entering | inside | accepted | returned | threw => cases leaving

theorem Ticket.not_waiting {call : Call Nat} (ticket : Ticket awaits id phase accepted thrown) :
    phase ≠ .waiting call := by
  cases ticket <;> simp

end

variable {n : Nat}

structure Tickets (m : Monitor.World (Thread n Caller) (Call Nat) (Result Nat) (Pool Nat))
    (awaits : Nat) (refused : List Nat) : Prop where
  submits : ∀ id, Ticket awaits id (m.phase (.caller (.submit id)))
    ((acceptedIn m.history).count id) (refused.count id)
  others : ∀ id, (m.phase (.caller (.other id))).Within (· = .stop) fun _ => True

section

variable {m m' : Monitor.World (Thread n Caller) (Call Nat) (Result Nat) (Pool Nat)}
  {b : Monitor.Act (Thread n Caller) (Call Nat)} {awaits id : Nat} {refused : List Nat}

theorem Tickets.distinct (tickets : Tickets m awaits refused) : (acceptedIn m.history).Nodup :=
  List.nodup_iff_count_le_one.mpr fun id => (tickets.submits id).once.1

theorem Tickets.thrown_once (tickets : Tickets m awaits refused) : refused.Nodup :=
  List.nodup_iff_count_le_one.mpr fun id => (tickets.submits id).once.2

theorem Tickets.of_accepted (tickets : Tickets m awaits refused)
    (accepted : id ∈ acceptedIn m.history) : id < awaits ∧ id ∉ refused := by
  rw [← List.count_eq_zero]
  exact (tickets.submits id).of_accepted (List.count_pos_iff.mpr accepted)

theorem Tickets.of_refused (tickets : Tickets m awaits refused) (thrown : id ∈ refused) :
    id < awaits :=
  (tickets.submits id).of_thrown (List.count_pos_iff.mpr thrown)

theorem Tickets.of_refusing {task : Nat} {error : StdException}
    (tickets : Tickets m awaits refused)
    (leaving : m.phase (.caller (.submit id)) = .leaving (.refused task error)) :
    error = stoppedError ∧ id < awaits ∧ id ∉ acceptedIn m.history ∧ id ∉ refused := by
  rw [← List.count_eq_zero, ← List.count_eq_zero]
  exact (tickets.submits id).of_refusing leaving

theorem Tickets.enqueues {thread : Thread n Caller} {task : Nat}
    (tickets : Tickets m awaits refused)
    (roles : ∀ thread, (m.phase thread).Within thread.Calls thread.Gets)
    (inside : m.phase thread = .inside (.enqueue task)) : thread = .caller (.submit task) := by
  match thread with
  | .worker w =>
    have role := roles (.worker w)
    rw [inside] at role
    cases role
  | .caller (.other id) =>
    have role := tickets.others id
    rw [inside] at role
    cases role
  | .caller (.submit id) =>
    rw [(tickets.submits id).of_inside inside]

/-- A step of the monitor that neither begins an await nor throws into one. -/
def Quiet (m : Monitor.World (Thread n Caller) (Call Nat) (Result Nat) (Pool Nat)) :
    Monitor.Act (Thread n Caller) (Call Nat) → Prop
  | .enter (.caller (.submit _)) _ => False
  | .enter (.caller (.other _)) call => call = .stop
  | .leave (.caller (.submit id)) _ => ∀ task error,
      m.phase (.caller (.submit id)) ≠ .leaving (.refused task error)
  | _ => True

theorem Ticket.accepts {phase : Monitor.Phase (Call Nat) (Result Nat)} {accepted thrown : Nat}
    (ticket : Ticket awaits id phase accepted thrown) (inside : phase = .inside (.enqueue id)) :
    Ticket awaits id (.leaving (.accepted id)) (accepted + 1) thrown := by
  cases ticket with
  | inside known => exact .accepted known
  | unused | entering | accepted | refused | returned | threw => cases inside

theorem Ticket.goes {pool : Pool Nat} {phase phase' : Monitor.Phase (Call Nat) (Result Nat)}
    {accepted thrown : Nat} (ticket : Ticket awaits id phase accepted thrown)
    (goes : Monitor.Goes (sections Nat) pool (.caller (.submit id)) b phase phase')
    (enters : ∀ call, b ≠ .enter (.caller (.submit id)) call)
    (leaves : ∀ woken task error, b = .leave (.caller (.submit id)) woken →
      phase ≠ .leaving (.refused task error))
    (accepts : ∀ task, phase' = .leaving (.accepted task) → phase = .leaving (.accepted task)) :
    Ticket awaits id phase' accepted thrown := by
  cases goes with
  | stays => exact ticket
  -- a caller never waits
  | woken call => cases ticket
  | enter call => exact absurd rfl (enters call)
  | lock call =>
    cases ticket with
    | entering known => exact .inside known
  | wait call waits =>
    cases ticket
    cases (ThreadPool.empty_of_waits waits).1
  | pass call result pool' runs =>
    cases ticket with
    | inside known =>
      cases ThreadPool.passes_of_run runs with
      -- accepting is the one step that changes the count, and it is dealt with apart
      | accepted => cases accepts id rfl
      | refused => exact .refused known
  | leave result woken =>
    cases ticket with
    | accepted known => exact .returned known
    | refused known => exact absurd rfl (leaves woken id stoppedError rfl)

theorem Tickets.move (tickets : Tickets m awaits refused)
    (roles : ∀ thread, (m.phase thread).Within thread.Calls thread.Gets)
    (move : Monitor.Move (sections Nat) m b m') (quiet : Quiet m b) :
    Tickets m' awaits refused := by
  constructor
  case submits =>
    intro id
    have ticket := tickets.submits id
    have enters : ∀ call, b ≠ .enter (.caller (.submit id)) call := by
      rintro call rfl
      exact quiet
    have leaves : ∀ woken task error, b = .leave (.caller (.submit id)) woken →
        m.phase (.caller (.submit id)) ≠ .leaving (.refused task error) := by
      rintro woken task error rfl
      exact quiet task error
    -- a task is only accepted from its own await's thread, so that one count changes
    rcases ThreadPool.accepted_of_move move with
      ⟨thread, task, rfl, inside, leaving, more⟩ | ⟨same, accepts⟩
    · have own := tickets.enqueues roles inside
      subst own
      rw [more, List.count_append]
      by_cases here : id = task
      · subst here
        rw [leaving, List.count_singleton_self]
        exact ticket.accepts inside
      · rw [List.count_singleton, if_neg (by simpa using Ne.symm here)]
        -- the section that has run is another await's
        apply ticket.goes (move.goes _) enters leaves
        intro task' leaving'
        apply (ThreadPool.leaving_accepted move leaving').resolve_right
        intro same
        cases same
        exact here rfl
    · rw [same]
      exact ticket.goes (move.goes _) enters leaves (accepts _)
  case others =>
    intro id
    refine (move.goes _).within ?_ (fun _ _ _ _ _ _ => trivial) (tickets.others id)
    rintro call rfl
    exact quiet

theorem Tickets.await (tickets : Tickets m awaits refused)
    (move : Monitor.Move (sections Nat) m
      (.enter (.caller (.submit awaits)) (.enqueue awaits)) m') :
    Tickets m' (awaits + 1) refused := by
  cases move with
  | enter _ _ outside =>
    constructor
    case submits =>
      intro id
      have ticket := tickets.submits id
      by_cases new : id = awaits
      · subst new
        obtain ⟨accepted, thrown⟩ := ticket.of_fresh (Nat.le_refl _)
        rw [Monitor.World.phase_move_self, thrown]
        change Ticket (id + 1) id _ ((acceptedIn m.history).count id) 0
        rw [accepted]
        exact .entering (Nat.lt_succ_self id)
      · have apart : Thread.caller (n := n) (Caller.submit id) ≠ .caller (.submit awaits) := by
          simpa using new
        rw [Monitor.World.phase_move_ne apart]
        exact ticket.grow new
    case others =>
      intro id
      rw [Monitor.World.phase_move_ne (by simp)]
      exact tickets.others id

theorem Tickets.refuse (tickets : Tickets m awaits refused) {task : Nat} {error : StdException}
    {woken : Option (Thread n Caller)}
    (leaving : m.phase (.caller (.submit id)) = .leaving (.refused task error))
    (move : Monitor.Move (sections Nat) m (.leave (.caller (.submit id)) woken) m') :
    Tickets m' awaits (refused ++ [id]) := by
  have accepted : acceptedIn m'.history = acceptedIn m.history := by
    cases move
    rfl
  have outside : m'.phase (.caller (.submit id)) = .outside := by
    cases move
    exact Monitor.World.phase_move_self ..
  constructor
  case submits =>
    intro id'
    have ticket := tickets.submits id'
    rw [accepted, List.count_append]
    by_cases here : id' = id
    · subst here
      rw [outside, List.count_singleton_self]
      exact ticket.throws leaving
    · rw [List.count_singleton, if_neg (by simpa using Ne.symm here)]
      apply ticket.goes (move.goes _) (by simp)
      · intro woken' task' error' same
        cases same
        exact absurd rfl here
      · intro task' leaving'
        exact (ThreadPool.leaving_accepted move leaving').resolve_right (by simp)
  case others =>
    intro other
    exact (move.goes _).within nofun (fun _ _ _ _ _ _ => trivial) (tickets.others other)

end

end CoroEpoll.Submit
