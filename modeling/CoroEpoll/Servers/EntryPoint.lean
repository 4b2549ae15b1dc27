import CoroEpoll.ThreadPool.Startup
import Mathlib.Algebra.Group.Nat.Defs

/-! `main` of the servers, from the construction of its `WorkerGroup` to the destruction of the
server sockets, beside the threads of the group.

The six programs differ in the class of their sockets and in what they spawn; `TcpServer::listen`
stands for `UdpSocket::bind` too.
-/

set_option autoImplicit false

namespace CoroEpoll.Run

variable {Cb : Type}

theorem World.code_of_ran {s : World Cb} (ran : s.ran = true) : s.code = false := by
  unfold World.ran at ran
  unfold World.code
  split at ran
  case h_1 phase => simp [phase]
  case h_2 phase => simp [phase]
  case h_3 => cases ran

theorem ran_stuck {s : World Cb} {a : Act Cb} (ran : s.ran = true) (own : a.agent = none) :
    step s a = none := by
  by_contra some_step
  obtain ⟨t, step⟩ := Option.ne_none_iff_exists'.mp some_step
  have code := World.code_of_ran ran
  cases step_move step with
  | push | flag | write => cases own
  | spawn _ busy | finish _ _ busy | returned _ _ busy | threw _ _ _ busy | suspended _ busy
  | enter _ busy =>
    rw [code] at busy
    cases busy
  | stop phase | goOn phase | swap _ phase | call _ _ _ phase | drained _ phase | compact _ phase
  | wake _ phase | interrupted phase | waitFailed _ _ phase | batchDone phase | wakeup _ phase
  | other _ phase | emptied phase | wasEmpty phase =>
    simp [World.ran, phase] at ran

end CoroEpoll.Run

namespace CoroEpoll.EntryPoint

open WorkerGroup (Group WorkerAct)

/-- What is posted to a loop: the closure of `main`, which spawns the coroutine that serves a
socket, or another one. -/
inductive Closure where
  | serve (server : Nat)
  | other (id : Nat)
  deriving DecidableEq, Repr

inductive Main where
  /-- at the head of the `for` loop -/
  | starting
  /-- in the constructor of a server on a loop, or in its `listen` -/
  | listening (loop : Nat)
  /-- behind `servers.push_back` -/
  | posting (loop : Nat)
  /-- in `post`, before `wakeup` -/
  | waking (loop : Nat)
  /-- in `workers.join()`, at a thread -/
  | joining (i : Nat)
  /-- destroying `servers` -/
  | destroying (left : List Nat) (thrown : Option Exception)
  /-- going on to destroy the pool and the group -/
  | left (thrown : Option Exception)
  deriving DecidableEq

structure World (n : Nat) where
  /-- `workers` -/
  group : Group n Closure
  nextIndex : BitVec 64
  /-- the loops of the sockets in `servers` -/
  on : List Nat
  destroyed : List Nat
  main : Main

inductive Act where
  | next
  /-- the socket listens, or something is thrown -/
  | listen (thrown : Option Exception)
  | push
  | write
  | started
  | join
  | joined
  | destroy (server : Nat)
  | leave
  /-- a step of a thread of the group -/
  | thread (i : Nat) (a : WorkerAct Closure)
  /-- a step of `post` or `stop` by another thread -/
  | other (id loop : Nat) (a : Run.Act Closure)

variable {n : Nat}

def mainThread (n : Nat) : Run.Agent := WorkerGroup.user n 0

def step (s : World n) : Act → Option (World n)
  | .next =>
    if s.main = .starting ∧ s.on.length < n then
      some { s with
        nextIndex := s.nextIndex + 1
        main := .listening (s.nextIndex.toNat % n) }
    else none
  | .listen thrown =>
    match s.main with
    | .listening loop =>
      match thrown with
      | none => some { s with on := s.on ++ [loop], main := .posting loop }
      | some error =>
        -- the socket itself is not in `servers`
        some { s with main := .destroying (List.range s.on.length) (some error) }
    | _ => none
  | .push =>
    match s.main with
    | .posting loop =>
      (s.group.onLoop loop (.push (mainThread n) (.serve (s.on.length - 1)))).map fun group =>
        { s with group, main := .waking loop }
    | _ => none
  | .write =>
    match s.main with
    | .waking loop =>
      (s.group.onLoop loop (.write (mainThread n))).map fun group =>
        { s with group, main := .starting }
    | _ => none
  | .started =>
    if s.main = .starting ∧ s.on.length = n then some { s with main := .joining 0 } else none
  | .join =>
    match s.main with
    | .joining i =>
      if i < n ∧ s.group.returned i = true then some { s with main := .joining (i + 1) } else none
    | _ => none
  | .joined =>
    match s.main with
    | .joining i =>
      if i = n then some { s with main := .destroying (List.range s.on.length) none } else none
    | _ => none
  | .destroy server =>
    match s.main with
    | .destroying left thrown =>
      if server ∈ left then
        some { s with
          destroyed := server :: s.destroyed
          main := .destroying (left.erase server) thrown }
      else none
    | _ => none
  | .leave =>
    match s.main with
    | .destroying [] thrown => some { s with main := .left thrown }
    | _ => none
  | .thread i a => (s.group.progress i a).map fun group => { s with group }
  | .other id loop a => (s.group.use (id + 1, loop, a)).map fun group => { s with group }

/-- The constructor of the group has returned. -/
structure Start (s : World n) : Prop where
  built : ∃ owner, (WorkerGroup.lifetime n Closure Exception).Reachable owner ∧
    owner.phase = .built ∧ s.group = owner.shared
  nextIndex : s.nextIndex = 0
  on : s.on = []
  destroyed : s.destroyed = []
  main : s.main = .starting

abbrev machine (n : Nat) : Transition.Machine (World n) Act := ⟨Start, step⟩

/-- Nothing is thrown by a `listen` once another socket is there. -/
def Listens (s : World n) : Act → Prop
  | .listen (some _) => s.on = []
  | _ => True

instance Listens.decidable (s : World n) : ∀ a, Decidable (Listens s a)
  | .listen (some _) => inferInstanceAs (Decidable (s.on = []))
  | .listen none | .next | .push | .write | .started | .join | .joined | .destroy _ | .leave
  | .thread _ _ | .other _ _ _ => .isTrue trivial

def World.Outlives (s : World n) : Prop :=
  ∀ server loop, s.on[server]? = some loop → server ∈ s.destroyed → s.group.returned loop = true

variable {s t : World n} {a : Act}

/-! ## Where the servers are -/

def World.Placed (s : World n) : Prop :=
  match s.main with
  | .starting | .posting _ | .waking _ =>
    s.destroyed = [] ∧ s.nextIndex = BitVec.ofNat 64 s.on.length
  | .listening loop =>
    s.destroyed = [] ∧ s.nextIndex = BitVec.ofNat 64 (s.on.length + 1) ∧ loop = s.on.length
  | .joining i => s.destroyed = [] ∧ s.on.length = n ∧ ∀ j, j < i → s.group.returned j = true
  | .destroying _ _ | .left _ => True

/-- The sockets that have been started are on the first loops, one on each. -/
structure Inv (s : World n) : Prop where
  on : s.on = List.range s.on.length
  placed : s.Placed

def World.Settled (s : World n) : Prop :=
  match s.main with
  | .destroying _ _ | .left _ => ∀ j, j < s.on.length → s.group.returned j = true
  | _ => True

def Main.ending : Main → Bool
  | .destroying _ _ | .left _ => true
  | _ => false

theorem returned_onLoop {group group' : Group n Closure} {loop j : Nat} {a : Run.Act Closure}
    (moved : group.onLoop loop a = some group') (returned : group.returned j = true) :
    group'.returned j = true := by
  unfold WorkerGroup.Group.returned at returned ⊢
  split at returned
  case isTrue below =>
    rw [dif_pos below]
    exact WorkerGroup.onLoop_keeps moved (P := fun loop => loop.ran = true)
      (fun _ _ ran step => Run.ran_step step ran) returned
  case isFalse => cases returned

inductive Beside (s : World n) : World n → Prop where
  | moves (loop : Nat) (a : Run.Act Closure) (group : Group n Closure) :
      s.group.onLoop loop a = some group → Beside s { s with group }

theorem thread_beside {i : Nat} {b : WorkerAct Closure} (step : step s (.thread i b) = some t) :
    Beside s t := by
  obtain ⟨group, progress, rfl⟩ := Option.map_eq_some_iff.mp step
  obtain ⟨loop, a, moved, -⟩ := WorkerGroup.progress_moves progress
  exact .moves loop a group moved

theorem other_beside {id loop : Nat} {b : Run.Act Closure}
    (step : step s (.other id loop b) = some t) : Beside s t := by
  obtain ⟨group, use, rfl⟩ := Option.map_eq_some_iff.mp step
  obtain ⟨-, moved⟩ := Option.ite_none_right_eq_some.mp use
  exact .moves loop b group moved

theorem Beside.inv (beside : Beside s t) (inv : Inv s) : Inv t := by
  obtain ⟨loop, a, group, moved⟩ := beside
  refine ⟨inv.on, ?_⟩
  have placed := inv.placed
  unfold World.Placed at placed ⊢
  dsimp only
  split at placed
  · exact placed
  · exact placed
  · exact placed
  · exact placed
  · exact ⟨placed.1, placed.2.1, fun j below => returned_onLoop moved (placed.2.2 j below)⟩
  · trivial
  · trivial

theorem Beside.settled (beside : Beside s t) (settled : s.Settled) : t.Settled := by
  obtain ⟨loop, a, group, moved⟩ := beside
  unfold World.Settled at settled ⊢
  dsimp only
  split at settled
  · exact fun j below => returned_onLoop moved (settled j below)
  · exact fun j below => returned_onLoop moved (settled j below)
  · trivial

theorem Inv.step (values : n < 2 ^ 64) (inv : Inv s) (step : step s a = some t) : Inv t := by
  have placed := inv.placed
  cases a with
  | thread i b => exact (thread_beside step).inv inv
  | other id loop b => exact (other_beside step).inv inv
  | next =>
    obtain ⟨⟨starting, more⟩, step⟩ := Option.ite_none_right_eq_some.mp step
    cases step
    simp only [World.Placed, starting] at placed
    refine ⟨inv.on, placed.1, ?_, ?_⟩
    · rw [placed.2, BitVec.ofNat_add]
      rfl
    · have small : s.on.length % 2 ^ 64 = s.on.length := Nat.mod_eq_of_lt (by omega)
      rw [placed.2, BitVec.toNat_ofNat, small, Nat.mod_eq_of_lt more]
  | listen thrown =>
    simp only [EntryPoint.step] at step
    split at step
    case h_2 => cases step
    case h_1 loop listening =>
      simp only [World.Placed, listening] at placed
      cases thrown with
      | some error =>
        cases step
        exact ⟨inv.on, trivial⟩
      | none =>
        cases step
        refine ⟨?_, placed.1, ?_⟩
        · dsimp only
          rw [List.length_append, List.length_singleton, List.range_succ, ← inv.on, placed.2.2]
        · rw [placed.2.1, List.length_append, List.length_singleton]
  | push | write =>
    simp only [EntryPoint.step] at step
    split at step
    case h_2 => cases step
    case h_1 loop at_loop =>
      obtain ⟨group, _, rfl⟩ := Option.map_eq_some_iff.mp step
      simp only [World.Placed, at_loop] at placed
      exact ⟨inv.on, placed⟩
  | started =>
    obtain ⟨⟨starting, all⟩, step⟩ := Option.ite_none_right_eq_some.mp step
    cases step
    simp only [World.Placed, starting] at placed
    exact ⟨inv.on, placed.1, all, fun j below => absurd below (Nat.not_lt_zero j)⟩
  | join =>
    simp only [EntryPoint.step] at step
    split at step
    case h_2 => cases step
    case h_1 i joining =>
      obtain ⟨⟨-, returned⟩, step⟩ := Option.ite_none_right_eq_some.mp step
      cases step
      simp only [World.Placed, joining] at placed
      refine ⟨inv.on, placed.1, placed.2.1, fun j below => ?_⟩
      by_cases last : j = i
      · exact last ▸ returned
      · exact placed.2.2 j (by omega)
  | joined =>
    simp only [EntryPoint.step] at step
    split at step
    case h_2 => cases step
    case h_1 i joining =>
      obtain ⟨_, step⟩ := Option.ite_none_right_eq_some.mp step
      cases step
      exact ⟨inv.on, trivial⟩
  | destroy server =>
    simp only [EntryPoint.step] at step
    split at step
    case h_2 => cases step
    case h_1 left thrown destroying =>
      obtain ⟨_, step⟩ := Option.ite_none_right_eq_some.mp step
      cases step
      exact ⟨inv.on, trivial⟩
  | leave =>
    simp only [EntryPoint.step] at step
    split at step
    case h_2 => cases step
    case h_1 thrown destroying =>
      cases step
      exact ⟨inv.on, trivial⟩

theorem step_ending (ending : s.main.ending = true) (step : step s a = some t) :
    Listens s a ∧ t.main.ending = true := by
  cases a with
  | thread i b =>
    obtain ⟨group, _, rfl⟩ := Option.map_eq_some_iff.mp step
    exact ⟨trivial, ending⟩
  | other id loop b =>
    obtain ⟨group, _, rfl⟩ := Option.map_eq_some_iff.mp step
    exact ⟨trivial, ending⟩
  | next | started =>
    obtain ⟨⟨starting, _⟩, step⟩ := Option.ite_none_right_eq_some.mp step
    rw [starting] at ending
    cases ending
  | listen | push | write | join | joined =>
    simp only [EntryPoint.step] at step
    split at step
    · rename_i phase
      rw [phase] at ending
      cases ending
    · cases step
  | destroy server =>
    simp only [EntryPoint.step] at step
    split at step
    case h_2 => cases step
    case h_1 left thrown destroying =>
      obtain ⟨_, step⟩ := Option.ite_none_right_eq_some.mp step
      cases step
      exact ⟨trivial, rfl⟩
  | leave =>
    simp only [EntryPoint.step] at step
    split at step
    case h_2 => cases step
    case h_1 thrown destroying =>
      cases step
      exact ⟨trivial, rfl⟩

theorem World.Settled.step (inv : Inv s) (settled : s.Settled) (listens : Listens s a)
    (step : EntryPoint.step s a = some t) : t.Settled := by
  cases a with
  | thread i b => exact (thread_beside step).settled settled
  | other id loop b => exact (other_beside step).settled settled
  | next | started =>
    obtain ⟨_, step⟩ := Option.ite_none_right_eq_some.mp step
    cases step
    trivial
  | listen thrown =>
    simp only [EntryPoint.step] at step
    split at step
    case h_2 => cases step
    case h_1 loop listening =>
      cases thrown with
      | none =>
        cases step
        trivial
      | some error =>
        cases step
        have none : s.on = [] := listens
        intro j below
        simp [none] at below
  | push | write =>
    simp only [EntryPoint.step] at step
    split at step
    case h_2 => cases step
    case h_1 loop at_loop =>
      obtain ⟨group, _, rfl⟩ := Option.map_eq_some_iff.mp step
      trivial
  | join =>
    simp only [EntryPoint.step] at step
    split at step
    case h_2 => cases step
    case h_1 i joining =>
      obtain ⟨_, step⟩ := Option.ite_none_right_eq_some.mp step
      cases step
      trivial
  | joined =>
    have placed := inv.placed
    simp only [EntryPoint.step] at step
    split at step
    case h_2 => cases step
    case h_1 i joining =>
      obtain ⟨all, step⟩ := Option.ite_none_right_eq_some.mp step
      cases step
      simp only [World.Placed, joining] at placed
      intro j below
      exact placed.2.2 j (by rw [all, ← placed.2.1]; exact below)
  | destroy server =>
    simp only [EntryPoint.step] at step
    split at step
    case h_2 => cases step
    case h_1 left thrown destroying =>
      obtain ⟨_, step⟩ := Option.ite_none_right_eq_some.mp step
      cases step
      simpa only [World.Settled, destroying] using settled
  | leave =>
    simp only [EntryPoint.step] at step
    split at step
    case h_2 => cases step
    case h_1 thrown destroying =>
      cases step
      simpa only [World.Settled, destroying] using settled

/-! ## Runs -/

theorem Start.inv (start : Start s) : Inv s where
  on := by rw [start.on]; rfl
  placed := by
    simp only [World.Placed, start.main]
    exact ⟨start.destroyed, by rw [start.on, start.nextIndex]; rfl⟩

theorem Start.settled (start : Start s) : s.Settled := by
  simp only [World.Settled, start.main]

theorem reachable_settled (values : n < 2 ^ 64) (reached : (machine n).ReachableWhere Listens s) :
    Inv s ∧ s.Settled := by
  induction reached with
  | start start => exact ⟨Start.inv start, Start.settled start⟩
  | next _ listens step ih => exact ⟨ih.1.step values step, ih.2.step ih.1 listens step⟩

theorem Inv.at_server (inv : Inv s) {server loop : Nat} (started : s.on[server]? = some loop) :
    loop = server ∧ server < s.on.length := by
  rw [inv.on] at started
  obtain ⟨below, at_loop⟩ := List.getElem?_eq_some_iff.mp started
  rw [List.getElem_range] at at_loop
  rw [List.length_range] at below
  exact ⟨at_loop.symm, below⟩

theorem World.Settled.outlives (inv : Inv s) (settled : s.Settled) : s.Outlives := by
  intro server loop started gone
  obtain ⟨same, below⟩ := inv.at_server started
  subst same
  have placed := inv.placed
  unfold World.Settled at settled
  split at settled
  · exact settled loop below
  · exact settled loop below
  case h_3 early late =>
    unfold World.Placed at placed
    split at placed
    · rw [placed.1] at gone; cases gone
    · rw [placed.1] at gone; cases gone
    · rw [placed.1] at gone; cases gone
    · rw [placed.1] at gone; cases gone
    · rw [placed.1] at gone; cases gone
    case h_6 destroying => exact absurd destroying (early _ _)
    case h_7 left => exact absurd left (late _)

/-- As long as no `listen` fails behind another socket, each loop gets one socket, and runs
nothing any more once `main` has destroyed it. -/
theorem servers_outlive_threads (values : n < 2 ^ 64)
    (reached : (machine n).ReachableWhere Listens s) {server loop : Nat}
    (started : s.on[server]? = some loop) (gone : server ∈ s.destroyed) {b : Run.Act Closure}
    (own : b.agent = none) : loop = server ∧ step s (.thread loop (.own b)) = none := by
  obtain ⟨inv, settled⟩ := reachable_settled values reached
  have returned := settled.outlives inv server loop started gone
  refine ⟨(inv.at_server started).1, ?_⟩
  unfold WorkerGroup.Group.returned at returned
  split at returned
  case isFalse => cases returned
  case isTrue within =>
    simp [EntryPoint.step, WorkerGroup.Group.progress, WorkerGroup.Group.onLoop, own, within,
      Run.ran_stuck returned own]

def boot (n : Nat) : World n where
  group := ⟨fun _ => Run.boot Closure, 0⟩
  nextIndex := 0
  on := []
  destroyed := []
  main := .starting

theorem boot_start {owner : ThreadOwner.World WorkerGroup.Member (Group n Closure) Exception}
    (some : n ≠ 0) (creates : List (ThreadOwner.Act (WorkerAct Closure) WorkerGroup.StopAct
      (Nat × Nat × Run.Act Closure) Exception))
    (replay : (WorkerGroup.lifetime n Closure Exception).exec
      (.start (WorkerGroup.owned n Closure) (boot n).group) creates = .some owner)
    (built : owner.phase = .built) (same : (boot n).group = owner.shared) : Start (boot n) where
  built := by
    refine ⟨owner, Transition.Machine.ReachableWhere.replay (.start ⟨_, ?_, rfl⟩) replay, built, same⟩
    rw [WorkerGroup.construct, if_neg some]
    rfl
  nextIndex := rfl
  on := rfl
  destroyed := rfl
  main := rfl

/-- The accept loop fails at once and stops its loop. -/
def served : List Act :=
  [.next, .listen none, .push, .write, .started] ++
    [.enter, .test, .swap, .call, .spawn 0, .flag .loop, .write .loop, .returned, .drained, .compact,
      .wake [.wakeup], .next, .read, .read, .swap, .drained, .compact, .next, .test].map
      (fun a => .thread 0 (.own a)) ++ [.join, .joined, .destroy 0]

theorem servers_outlive_threads_served : ∃ s, (machine 1).exec (boot 1) served = some s ∧
    s.on[0]? = some 0 ∧ 0 ∈ s.destroyed ∧ step s (.thread 0 (.own .test)) = none := by
  have run : ((machine 1).exec (boot 1) served).map (fun s => (s.on, s.destroyed)) =
      some ([0], [0]) := rfl
  obtain ⟨s, replay, ends⟩ := Option.map_eq_some_iff.mp run
  obtain ⟨on, destroyed⟩ := Prod.mk.inj ends
  have start : Start (boot 1) := boot_start (by decide) [.create, .finish] rfl rfl rfl
  have listens : (machine 1).Each Listens (boot 1) served := by decide
  have started : s.on[0]? = some 0 := by rw [on]; rfl
  have gone : 0 ∈ s.destroyed := by rw [destroyed]; exact List.mem_cons_self
  exact ⟨s, replay, started, gone, (servers_outlive_threads (by decide)
    (Transition.Machine.ReachableWhere.exec (.start start) listens replay) started gone rfl).2⟩

/-- A `listen` that fails is harmless exactly when every loop with a socket has left `run()`
before: nobody tells them to stop before the sockets are destroyed. -/
theorem failed_listen_iff (values : n < 2 ^ 64) (reached : (machine n).ReachableWhere Listens s)
    {error : Exception} (failed : step s (.listen (some error)) = some t) :
    (∀ actions u, (machine n).exec t actions = some u → u.Outlives) ↔
      ∀ j, j < s.on.length → s.group.returned j = true := by
  have inv := (reachable_settled values reached).1
  have next := inv.step values failed
  simp only [EntryPoint.step] at failed
  split at failed
  case h_2 => cases failed
  case h_1 loop listening =>
    cases failed
    constructor
    · intro safe j below
      have started : s.on[j]? = some j := by rw [inv.on, List.getElem?_range below]
      have destroys : (machine n).exec
          { s with main := .destroying (List.range s.on.length) (some error) } [.destroy j] =
          some { s with
            destroyed := j :: s.destroyed
            main := .destroying ((List.range s.on.length).erase j) (some error) } := by
        simp [Transition.Machine.exec, EntryPoint.step, below]
      exact safe _ _ destroys j j started List.mem_cons_self
    · intro returned actions u replay
      obtain ⟨inv, settled, -⟩ : Inv u ∧ u.Settled ∧ u.main.ending = true := by
        refine @Transition.Machine.exec_invariant _ _ (machine n)
          (fun u => Inv u ∧ u.Settled ∧ u.main.ending = true) ?_ _ _ actions ⟨next, returned, rfl⟩ replay
        rintro u a v ⟨inv, settled, ending⟩ step
        have kept := step_ending ending step
        exact ⟨inv.step values step, settled.step inv kept.1 step, kept.2⟩
      exact settled.outlives inv

/-- The second socket cannot be bound while the first loop is at work. -/
def secondFails : List Act :=
  [.next, .listen none, .push, .write, .thread 0 (.own .enter), .next]

theorem failed_listen_iff_secondFails : ∃ s t, (machine 2).exec (boot 2) secondFails = some s ∧
    step s (.listen (some (.std (.systemError .EBADF "bind")))) = some t ∧
      ¬ ∀ actions u, (machine 2).exec t actions = some u → u.Outlives := by
  have run : ((machine 2).exec (boot 2) secondFails).map (fun s =>
      (s.main, s.on, s.group.returned 0)) = some (.listening 1, [0], false) := rfl
  obtain ⟨s, replay, ends⟩ := Option.map_eq_some_iff.mp run
  obtain ⟨listening, ends⟩ := Prod.mk.inj ends
  obtain ⟨on, running⟩ := Prod.mk.inj ends
  have start : Start (boot 2) :=
    boot_start (by decide) [.create, .create, .finish] rfl rfl rfl
  have listens : (machine 2).Each Listens (boot 2) secondFails := by decide
  have reached := Transition.Machine.ReachableWhere.exec (.start start) listens replay
  have failed : step s (.listen (some (.std (.systemError .EBADF "bind")))) =
      some { s with
        main := .destroying (List.range s.on.length)
          (some (.std (.systemError .EBADF "bind"))) } := by
    simp only [step, listening]
  refine ⟨s, _, replay, failed, fun safe => ?_⟩
  have returned := (failed_listen_iff (by decide) reached failed).mp safe 0 (by rw [on]; decide)
  rw [running] at returned
  cases returned

end CoroEpoll.EntryPoint
