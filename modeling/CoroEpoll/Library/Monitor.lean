import CoroEpoll.Library.Transition
import Mathlib.Data.List.Basic

/-! A lock with a condition variable, for any number of threads.

A section is the code that a thread runs under the lock. One that has to wait releases the
lock and joins the waiters; one that passes may notify them, but only after it has released
the lock. A waiter that is woken starts its section again, and may be woken for no reason.
-/

set_option autoImplicit false

namespace Monitor

inductive Signal where
  | none | one | all
  deriving DecidableEq, Repr

structure Sections (S R σ : Type) where
  /-- what a section does under the lock; `none` where it waits -/
  run : S → σ → Option (R × σ)
  /-- what it notifies afterwards -/
  signal : R → Signal

inductive Phase (S R : Type) where
  | outside
  /-- about to take the lock -/
  | entering (call : S)
  /-- holds the lock -/
  | inside (call : S)
  | waiting (call : S)
  /-- has released the lock and has still to notify -/
  | leaving (result : R)

structure Entry (θ S R : Type) where
  thread : θ
  call : S
  result : R

structure World (θ S R σ : Type) where
  shared : σ
  owner : Option θ
  phase : θ → Phase S R
  waiters : List θ
  /-- the sections that have passed, in the order in which they held the lock -/
  history : List (Entry θ S R)

inductive Act (θ S : Type) where
  | enter (thread : θ) (call : S)
  | lock (thread : θ)
  | run (thread : θ)
  /-- the notification, which wakes a waiter if it is for one and there is one -/
  | leave (thread : θ) (woken : Option θ)
  | spurious (thread : θ)

variable {θ S R σ : Type} [DecidableEq θ]

def Phase.awake : Phase S R → Phase S R
  | .waiting call => .entering call
  | phase => phase

def notified (waiters : List θ) : Signal → Option θ → Option (List θ)
  | .none, none => some []
  | .one, some thread => if thread ∈ waiters then some [thread] else none
  | .one, none => if waiters = [] then some [] else none
  | .all, none => some waiters
  | _, _ => none

namespace World

def move (thread : θ) (phase : Phase S R) (w : World θ S R σ) : World θ S R σ :=
  { w with phase := Function.update w.phase thread phase }

def lock (thread : θ) (call : S) (w : World θ S R σ) : World θ S R σ :=
  { w.move thread (.inside call) with owner := some thread }

def wait (thread : θ) (call : S) (w : World θ S R σ) : World θ S R σ :=
  { w.move thread (.waiting call) with owner := none, waiters := w.waiters ++ [thread] }

def pass (thread : θ) (call : S) (result : R) (shared : σ) (w : World θ S R σ) :
    World θ S R σ :=
  { w.move thread (.leaving result) with
    shared
    owner := none
    history := w.history ++ [⟨thread, call, result⟩] }

def wake (threads : List θ) (w : World θ S R σ) : World θ S R σ :=
  { w with
    phase := fun thread => if thread ∈ threads then (w.phase thread).awake else w.phase thread
    waiters := w.waiters.filter fun thread => thread ∉ threads }

end World

variable (sections : Sections S R σ)

def step (w : World θ S R σ) : Act θ S → Option (World θ S R σ)
  | .enter thread call =>
    match w.phase thread with
    | .outside => some (w.move thread (.entering call))
    | _ => none
  | .lock thread =>
    match w.phase thread, w.owner with
    | .entering call, none => some (w.lock thread call)
    | _, _ => none
  | .run thread =>
    match w.phase thread with
    | .inside call =>
      match sections.run call w.shared with
      | none => some (w.wait thread call)
      | some (result, shared) => some (w.pass thread call result shared)
    | _ => none
  | .leave thread woken =>
    match w.phase thread with
    | .leaving result =>
      (notified w.waiters (sections.signal result) woken).map fun threads =>
        (w.wake threads).move thread .outside
    | _ => none
  | .spurious thread => if thread ∈ w.waiters then some (w.wake [thread]) else none

def World.boot (θ S R : Type) (shared : σ) : World θ S R σ where
  shared := shared
  owner := none
  phase _ := .outside
  waiters := []
  history := []

inductive Move (w : World θ S R σ) : Act θ S → World θ S R σ → Prop where
  | enter (thread : θ) (call : S) : w.phase thread = .outside →
      Move w (.enter thread call) (w.move thread (.entering call))
  | lock (thread : θ) (call : S) : w.phase thread = .entering call → w.owner = none →
      Move w (.lock thread) (w.lock thread call)
  | wait (thread : θ) (call : S) : w.phase thread = .inside call →
      sections.run call w.shared = none → Move w (.run thread) (w.wait thread call)
  | pass (thread : θ) (call : S) (result : R) (shared : σ) : w.phase thread = .inside call →
      sections.run call w.shared = some (result, shared) →
      Move w (.run thread) (w.pass thread call result shared)
  | leave (thread : θ) (result : R) (woken : Option θ) (threads : List θ) :
      w.phase thread = .leaving result →
      notified w.waiters (sections.signal result) woken = some threads →
      Move w (.leave thread woken) ((w.wake threads).move thread .outside)
  | spurious (thread : θ) : thread ∈ w.waiters → Move w (.spurious thread) (w.wake [thread])

variable {sections}

theorem step_move {w next : World θ S R σ} {a : Act θ S} (step : step sections w a = some next) :
    Move sections w a next := by
  cases a with
  | enter thread call =>
    simp only [Monitor.step] at step
    split at step
    · rename_i phase
      cases step
      exact .enter thread call phase
    · cases step
  | lock thread =>
    simp only [Monitor.step] at step
    split at step
    · rename_i call phase free
      cases step
      exact .lock thread call phase free
    · cases step
  | run thread =>
    simp only [Monitor.step] at step
    split at step
    · rename_i call phase
      split at step
      · rename_i waits
        cases step
        exact .wait thread call phase waits
      · rename_i result shared passes
        cases step
        exact .pass thread call result shared phase passes
    · cases step
  | leave thread woken =>
    simp only [Monitor.step] at step
    split at step
    · rename_i result phase
      obtain ⟨threads, wakes, rfl⟩ := Option.map_eq_some_iff.mp step
      exact .leave thread result woken threads phase wakes
    · cases step
  | spurious thread =>
    obtain ⟨waits, wakes⟩ := Option.ite_none_right_eq_some.mp step
    cases wakes
    exact .spurious thread waits

/-! ## One thread -/

@[simp] theorem World.phase_move_self (thread : θ) (phase : Phase S R) (w : World θ S R σ) :
    (w.move thread phase).phase thread = phase := Function.update_self ..

theorem World.phase_move_ne {thread other : θ} (different : other ≠ thread) (phase : Phase S R)
    (w : World θ S R σ) : (w.move thread phase).phase other = w.phase other :=
  Function.update_of_ne different ..

theorem World.phase_wake (threads : List θ) (w : World θ S R σ) (thread : θ) :
    (w.wake threads).phase thread = w.phase thread ∨
      ∃ call, w.phase thread = .waiting call ∧ (w.wake threads).phase thread = .entering call := by
  by_cases member : thread ∈ threads
  · have after : (w.wake threads).phase thread = (w.phase thread).awake := if_pos member
    rw [after]
    cases phase : w.phase thread with
    | waiting call => exact .inr ⟨call, rfl, rfl⟩
    | _ => exact .inl rfl
  · exact .inl (if_neg member)

theorem World.phase_wake_of_not_waiting {threads : List θ} {w : World θ S R σ} {thread : θ}
    (runs : ∀ call, w.phase thread ≠ .waiting call) :
    (w.wake threads).phase thread = w.phase thread := by
  rcases w.phase_wake threads thread with same | ⟨call, waits, _⟩
  · exact same
  · exact absurd waits (runs call)

inductive Goes (sections : Sections S R σ) (shared : σ) (thread : θ) :
    Act θ S → Phase S R → Phase S R → Prop where
  | stays (a : Act θ S) (phase : Phase S R) : Goes sections shared thread a phase phase
  | woken (a : Act θ S) (call : S) : Goes sections shared thread a (.waiting call) (.entering call)
  | enter (call : S) : Goes sections shared thread (.enter thread call) .outside (.entering call)
  | lock (call : S) : Goes sections shared thread (.lock thread) (.entering call) (.inside call)
  | wait (call : S) : sections.run call shared = none →
      Goes sections shared thread (.run thread) (.inside call) (.waiting call)
  | pass (call : S) (result : R) (shared' : σ) : sections.run call shared = some (result, shared') →
      Goes sections shared thread (.run thread) (.inside call) (.leaving result)
  | leave (result : R) (woken : Option θ) :
      Goes sections shared thread (.leave thread woken) (.leaving result) .outside

theorem Move.goes {w next : World θ S R σ} {a : Act θ S} (move : Move sections w a next)
    (thread : θ) : Goes sections w.shared thread a (w.phase thread) (next.phase thread) := by
  have woken : ∀ threads,
      Goes sections w.shared thread a (w.phase thread) ((w.wake threads).phase thread) := by
    intro threads
    rcases w.phase_wake threads thread with same | ⟨call, waits, enters⟩
    · rw [same]
      exact .stays ..
    · rw [waits, enters]
      exact .woken ..
  have moved : ∀ actor phase (v : World θ S R σ),
      Goes sections w.shared thread a (w.phase thread) (v.phase thread) →
      (actor = thread → Goes sections w.shared thread a (w.phase thread) phase) →
      Goes sections w.shared thread a (w.phase thread) ((v.move actor phase).phase thread) := by
    intro actor phase v before acts
    by_cases same : thread = actor
    · rw [same, World.phase_move_self, ← same]
      exact acts same.symm
    · rw [World.phase_move_ne same]
      exact before
  -- only the thread that acts enters, passes or leaves; the others are at most woken
  cases move with
  | enter actor call phase =>
    apply moved actor _ w (.stays ..)
    rintro rfl
    exact phase ▸ .enter call
  | lock actor call phase =>
    apply moved actor _ w (.stays ..)
    rintro rfl
    exact phase ▸ .lock call
  | wait actor call phase waits =>
    apply moved actor _ w (.stays ..)
    rintro rfl
    exact phase ▸ .wait call waits
  | pass actor call result shared phase passes =>
    apply moved actor _ w (.stays ..)
    rintro rfl
    exact phase ▸ .pass call result shared passes
  | leave actor result woken' threads phase =>
    apply moved actor _ _ (woken threads)
    rintro rfl
    exact phase ▸ .leave result woken'
  | spurious actor => exact woken [actor]

/-- The thread only makes certain calls, with certain results. -/
def Phase.Within (calls : S → Prop) (results : R → Prop) : Phase S R → Prop
  | .outside => True
  | .entering call | .inside call | .waiting call => calls call
  | .leaving result => results result

omit [DecidableEq θ] in
theorem Goes.within {calls : S → Prop} {results : R → Prop} {shared : σ} {thread : θ}
    {a : Act θ S} {before after : Phase S R} (goes : Goes sections shared thread a before after)
    (enters : ∀ call, a = .enter thread call → calls call)
    (passes : ∀ call shared result shared', calls call →
      sections.run call shared = some (result, shared') → results result)
    (within : before.Within calls results) : after.Within calls results := by
  cases goes with
  | stays | woken | lock | wait => exact within
  | enter call => exact enters call rfl
  | pass call result shared' runs => exact passes call shared result shared' within runs
  | leave => trivial

omit [DecidableEq θ] in
theorem Goes.waiting {shared : σ} {thread : θ} {a : Act θ S} {before after : Phase S R}
    (goes : Goes sections shared thread a before after) {call : S} (waits : after = .waiting call) :
    before = .waiting call ∨ before = .inside call ∧ sections.run call shared = none := by
  cases goes with
  | stays => exact .inl waits
  | wait call' runs =>
    cases waits
    exact .inr ⟨rfl, runs⟩
  | _ => cases waits

/-! ## The lock and the waiters -/

structure Sound (w : World θ S R σ) : Prop where
  owner : ∀ thread, w.owner = some thread ↔ ∃ call, w.phase thread = .inside call
  waiters : ∀ thread, thread ∈ w.waiters ↔ ∃ call, w.phase thread = .waiting call

omit [DecidableEq θ] in
theorem boot_sound (shared : σ) : Sound (World.boot θ S R shared) :=
  ⟨fun _ => ⟨nofun, nofun⟩, fun _ => ⟨nofun, nofun⟩⟩

theorem Sound.wake {w : World θ S R σ} (sound : Sound w) (threads : List θ) :
    Sound (w.wake threads) := by
  constructor
  · intro thread
    rw [show (w.wake threads).owner = w.owner from rfl, sound.owner thread]
    rcases w.phase_wake threads thread with same | ⟨call, waits, enters⟩
    · rw [same]
    · simp [waits, enters]
  · intro thread
    simp only [World.wake, List.mem_filter, decide_not, Bool.not_eq_true', decide_eq_false_iff_not,
      sound.waiters thread]
    by_cases member : thread ∈ threads
    · cases phase : w.phase thread <;> simp [member, Phase.awake]
    · simp [member]

theorem Sound.move {w : World θ S R σ} (sound : Sound w) {thread : θ} {phase : Phase S R}
    (before : w.owner ≠ some thread ∧ thread ∉ w.waiters)
    (after : ∀ call, phase ≠ .inside call ∧ phase ≠ .waiting call) :
    Sound (w.move thread phase) := by
  constructor
  · intro other
    by_cases same : other = thread
    · rw [same, World.phase_move_self]
      exact ⟨fun owner => absurd owner before.1, fun ⟨call, inside⟩ => absurd inside (after call).1⟩
    · rw [World.phase_move_ne same]
      exact sound.owner other
  · intro other
    by_cases same : other = thread
    · rw [same, World.phase_move_self]
      exact ⟨fun waits => absurd waits before.2, fun ⟨call, waits⟩ => absurd waits (after call).2⟩
    · rw [World.phase_move_ne same]
      exact sound.waiters other

omit [DecidableEq θ] in
theorem Sound.of_phase {w : World θ S R σ} (sound : Sound w) {thread : θ} {phase : Phase S R}
    (here : w.phase thread = phase) (plain : ∀ call, phase ≠ .inside call ∧ phase ≠ .waiting call) :
    w.owner ≠ some thread ∧ thread ∉ w.waiters := by
  constructor
  · intro owner
    obtain ⟨call, inside⟩ := (sound.owner thread).mp owner
    exact (plain call).1 (here.symm.trans inside)
  · intro member
    obtain ⟨call, waits⟩ := (sound.waiters thread).mp member
    exact (plain call).2 (here.symm.trans waits)

theorem Sound.release {w next : World θ S R σ} (sound : Sound w) {thread : θ} {call : S}
    {phase : Phase S R} (here : w.phase thread = .inside call)
    (moves : next.phase = (w.move thread phase).phase) (released : next.owner = none)
    (outside : ∀ call, phase ≠ .inside call)
    (waiters : ∀ other, other ∈ next.waiters ↔
      other ∈ w.waiters ∨ other = thread ∧ ∃ call, phase = .waiting call) : Sound next := by
  -- the owner is unique, so that after the release nobody is inside
  have alone : w.owner = some thread := (sound.owner thread).mpr ⟨call, here⟩
  have absent : thread ∉ w.waiters := by
    intro member
    obtain ⟨other, waits⟩ := (sound.waiters thread).mp member
    cases here.symm.trans waits
  constructor
  · intro other
    rw [released, moves]
    refine iff_of_false nofun ?_
    rintro ⟨held, inside⟩
    by_cases same : other = thread
    · rw [same, World.phase_move_self] at inside
      exact outside held inside
    · rw [World.phase_move_ne same] at inside
      have owner := (sound.owner other).mpr ⟨held, inside⟩
      exact same (Option.some.inj (owner.symm.trans alone))
  · intro other
    rw [waiters, moves]
    by_cases same : other = thread
    · rw [same, World.phase_move_self]
      simp [absent]
    · rw [World.phase_move_ne same]
      simp [same, sound.waiters]

theorem Sound.lock {w : World θ S R σ} (sound : Sound w) {thread : θ} {call : S}
    (here : w.phase thread = .entering call) (free : w.owner = none) :
    Sound (w.lock thread call) := by
  constructor
  · intro other
    by_cases same : other = thread
    · rw [same]
      exact iff_of_true rfl ⟨call, World.phase_move_self ..⟩
    · have before := sound.owner other
      rw [free] at before
      rw [World.lock, World.phase_move_ne same, ← before, Option.some.injEq]
      exact iff_of_false (Ne.symm same) nofun
  · intro other
    by_cases same : other = thread
    · have absent := (sound.of_phase here (by simp)).2
      rw [same]
      refine iff_of_false absent ?_
      rintro ⟨call', waits⟩
      cases (World.phase_move_self thread (.inside call) w).symm.trans waits
    · rw [World.lock, World.phase_move_ne same]
      exact sound.waiters other

theorem Sound.step {w next : World θ S R σ} {a : Act θ S} (sound : Sound w)
    (move : Move sections w a next) : Sound next := by
  cases move with
  | enter thread call phase =>
    exact sound.move (sound.of_phase phase (by simp)) (by simp)
  | lock thread call phase free => exact sound.lock phase free
  | wait thread call phase waits =>
    exact sound.release phase rfl rfl (by simp) (by simp [World.wait])
  | pass thread call result shared phase passes =>
    exact sound.release phase rfl rfl (by simp) (by simp [World.pass, World.move])
  | leave thread result woken threads phase wakes =>
    have still : (w.wake threads).phase thread = .leaving result := by
      rw [World.phase_wake_of_not_waiting (by simp [phase]), phase]
    exact (sound.wake threads).move ((sound.wake threads).of_phase still (by simp)) (by simp)
  | spurious thread waits => exact sound.wake [thread]

/-! ## What the sections keep -/

/-- What every section keeps holds of the history and the shared state, whatever the order
in which the threads get the lock. -/
theorem Move.keeps {Q : List (Entry θ S R) → σ → Prop}
    (keeps : ∀ history shared thread call result shared', Q history shared →
      sections.run call shared = some (result, shared') →
        Q (history ++ [⟨thread, call, result⟩]) shared')
    {w next : World θ S R σ} {a : Act θ S} (before : Q w.history w.shared)
    (move : Move sections w a next) : Q next.history next.shared := by
  cases move with
  | pass thread call result shared phase passes =>
    exact keeps w.history w.shared thread call result shared before passes
  | _ => exact before

/-! ## Notifications -/

def Announced (sections : Sections S R σ) (w : World θ S R σ) (signal : Signal) : Prop :=
  ∃ thread result, w.phase thread = .leaving result ∧ sections.signal result = signal

omit [DecidableEq θ] in
theorem Goes.leaving {shared : σ} {thread : θ} {a : Act θ S} {before after : Phase S R}
    (goes : Goes sections shared thread a before after) {result : R}
    (leaving : before = .leaving result) :
    after = .leaving result ∨ ∃ woken, a = .leave thread woken := by
  cases goes with
  | stays => exact .inl leaving
  | leave _ woken => exact .inr ⟨woken, rfl⟩
  | _ => cases leaving

theorem Move.announced {w next : World θ S R σ} {a : Act θ S} (move : Move sections w a next)
    {signal : Signal} (announced : Announced sections w signal)
    (elsewhere : ∀ thread woken result, a = .leave thread woken →
      w.phase thread = .leaving result → sections.signal result ≠ signal) :
    Announced sections next signal := by
  obtain ⟨thread, result, leaving, same⟩ := announced
  rcases (move.goes thread).leaving leaving with still | ⟨woken, leaves⟩
  · exact ⟨thread, result, still, same⟩
  · exact absurd same (elsewhere thread woken result leaves leaving)

/-- A condition that lets every section pass, and whose beginning is notified to all: as long
as it holds, nobody waits without a notification to all still to come. -/
theorem Move.broadcast {Q : σ → Prop}
    (runs : ∀ call shared, Q shared → sections.run call shared ≠ none)
    (announces : ∀ call shared result shared', ¬ Q shared →
      sections.run call shared = some (result, shared') → Q shared' → sections.signal result = .all)
    {w next : World θ S R σ} {a : Act θ S}
    (before : Q w.shared → w.waiters = [] ∨ Announced sections w .all)
    (move : Move sections w a next) (holds : Q next.shared) :
    next.waiters = [] ∨ Announced sections next .all := by
  have still : Announced sections w .all → _ → Announced sections next .all := move.announced
  cases move with
  | enter | lock => exact (before holds).imp_right fun announced => still announced nofun
  -- where the condition holds, no section has to wait
  | wait thread call phase waits => exact absurd waits (runs call _ holds)
  | pass thread call result shared phase passes =>
    -- the section that makes the condition true is the one that has to tell everybody
    by_cases already : Q w.shared
    · exact (before already).imp_right fun announced => still announced nofun
    · have all := announces call _ result shared already passes holds
      exact .inr ⟨thread, result, World.phase_move_self .., all⟩
  | leave thread result woken threads phase wakes =>
    -- this may be the notification that was still to come: then it leaves no waiters
    by_cases all : sections.signal result = .all
    · left
      rw [all] at wakes
      cases woken with
      | none =>
        cases Option.some.inj wakes
        simp [World.wake, World.move]
      | some other => cases wakes
    · rcases before holds with nobody | announced
      · exact .inl (by simp [World.wake, World.move, nobody])
      · refine .inr (still announced ?_)
        rintro _ _ result' same leaving
        cases same
        cases phase.symm.trans leaving
        exact all
  | spurious thread waits =>
    rcases before holds with nobody | announced
    · exact .inl (by simp [World.wake, nobody])
    · exact .inr (still announced nofun)

/-! ## Where a monitor comes to rest -/

/-- No thread in the monitor can go on by itself. -/
def Stuck (sections : Sections S R σ) (w : World θ S R σ) : Prop :=
  ∀ thread, step sections w (.lock thread) = none ∧ step sections w (.run thread) = none ∧
    ∀ woken, step sections w (.leave thread woken) = none

theorem exists_notified (waiters : List θ) (signal : Signal) :
    ∃ woken threads, notified waiters signal woken = some threads := by
  cases signal with
  | none => exact ⟨none, [], rfl⟩
  | one =>
    cases waiters with
    | nil => exact ⟨none, [], rfl⟩
    | cons first rest => exact ⟨some first, [first], if_pos List.mem_cons_self⟩
  | all => exact ⟨none, waiters, rfl⟩

theorem Sound.rests {w : World θ S R σ} (sound : Sound w) (stuck : Stuck sections w)
    (thread : θ) : w.phase thread = .outside ∨ ∃ call, w.phase thread = .waiting call := by
  -- a section under the lock can always run, so the lock is free
  have nobody : ∀ other call, w.phase other ≠ .inside call := by
    intro other call inside
    have runs := (stuck other).2.1
    simp only [Monitor.step, inside] at runs
    split at runs <;> cases runs
  cases phase : w.phase thread with
  | outside => exact .inl rfl
  | waiting call => exact .inr ⟨call, rfl⟩
  | inside call => exact absurd phase (nobody thread call)
  | entering call =>
    cases owner : w.owner with
    | none =>
      have locks := (stuck thread).1
      simp [Monitor.step, phase, owner] at locks
    | some other =>
      obtain ⟨held, inside⟩ := (sound.owner other).mp owner
      exact absurd inside (nobody other held)
  | leaving result =>
    obtain ⟨woken, threads, wakes⟩ := exists_notified w.waiters (sections.signal result)
    have leaves := (stuck thread).2.2 woken
    simp [Monitor.step, phase, wakes] at leaves

end Monitor
