import CoroEpoll.EventLoop.Failures
import CoroEpoll.EventLoop.Wakeup

/-! Every posted callback is called: neither a drain nor the sleep of the loop leaves one
behind, as long as no callback throws in front of others.
-/

set_option autoImplicit false

namespace CoroEpoll.Run

variable {Cb : Type}

def Locked (s : World Cb) : Prop := ∀ who, s.op who = some .pushed ↔ s.mutex = some who

theorem compact_mutex (site : Site) (s : World Cb) : (s.compact site).mutex = s.mutex := by
  unfold World.compact
  dsimp only
  split <;> rfl

theorem step_locked {s t : World Cb} {a : Act Cb} (locked : Locked s) (step : step s a = some t) :
    Locked t := by
  intro other
  have before := locked other
  cases step_move step with
  | push who task may free =>
    -- nobody else has pushed while the lock was free
    change Function.update s.op who (some .pushed) other = some .pushed ↔ some who = some other
    by_cases same : other = who
    · subst same
      simp
    · rw [Function.update_of_ne same, before, free]
      simp [Ne.symm same]
  | flag who may =>
    change Function.update s.op who (some .flagged) other = some .pushed ↔ s.mutex = some other
    by_cases same : other = who
    · subst same
      rw [op_of_mayAct may] at before
      simpa using before
    · rw [Function.update_of_ne same]
      exact before
  | write who op held =>
    change Function.update s.op who none other = some .pushed ↔
      (if op = .pushed then none else s.mutex) = some other
    have holder := locked who
    rw [held] at holder
    by_cases same : other = who
    · subst same
      cases op with
      | pushed => simp
      | flagged => simpa using holder
    · rw [Function.update_of_ne same, before]
      cases op with
      | pushed =>
        rw [holder.mp rfl]
        simp [Ne.symm same]
      | flagged => rfl
  | compact site phase =>
    rw [compact_mutex, (compact_flags site s).2.2]
    exact before
  | _ => exact before

theorem start_locked {s : World Cb} (start : Start s) : Locked s := by
  intro who
  rw [start.op, start.mutex]
  simp

theorem step_done {s t : World Cb} {a : Act Cb}
    (done : s.phase.draining = false → s.localTasks = []) (step : step s a = some t) :
    t.phase.draining = false → t.localTasks = [] := by
  cases step_move step with
  | push | flag | write | spawn | finish => exact done
  | swap | call | returned => exact nofun
  | threw => exact fun _ => rfl
  | drained site phase queue => exact fun _ => queue
  | compact site phase =>
    rw [(compact_queues site s).2.1]
    exact fun _ => done (by rw [phase]; rfl)
  | enter phase | stop phase | goOn phase | wake _ phase | interrupted phase | waitFailed _ _ phase
  | batchDone phase | wakeup _ phase | other _ phase | emptied phase | wasEmpty phase
  | suspended phase =>
    exact fun _ => done (by rw [phase]; rfl)

structure Kept (s : World Cb) : Prop where
  locked : Locked s
  awake : Awake s
  done : s.phase.draining = false → s.localTasks = []

theorem start_kept {s : World Cb} (start : Start s) : Kept s :=
  ⟨start_locked start, start_awake start, fun _ => start.localTasks⟩

theorem Kept.step {s t : World Cb} {a : Act Cb} (kept : Kept s) (step : step s a = some t) :
    Kept t :=
  ⟨step_locked kept.locked step, step_awake kept.awake step, step_done kept.done step⟩

theorem reachable_kept {s : World Cb} (reached : (machine Cb).Reachable s) : Kept s := by
  have preserves : ∀ s a t, Kept s → True → (machine Cb).step s a = some t → Kept t :=
    fun _ _ _ kept _ step => kept.step step
  exact reached.invariant (fun _ start => start_kept start) preserves

/-! ## The loop calls what is queued -/

def Phase.running : Phase → Bool
  | .setup | .exited | .died _ => false
  | _ => true

/-- The loop calls by itself all that is left of its drain and all that is queued. -/
def CallsAll (s : World Cb) : Prop :=
  ∃ t, Leads s t ∧ t.executed = s.executed ++ s.localTasks ++ s.pending

theorem CallsAll.next {s t : World Cb} {a : Act Cb} (calls : CallsAll t) (plain : a.plain = true)
    (taken : step s a = some t) (executed : t.executed = s.executed)
    (queue : t.localTasks = s.localTasks) (pending : t.pending = s.pending) : CallsAll s := by
  obtain ⟨u, leads, all⟩ := calls
  refine ⟨u, .next plain taken leads, ?_⟩
  rw [all, executed, queue, pending]

/-- Nobody is in the middle of a post, the loop is not told to end, and no compaction ends it. -/
structure Goes (s : World Cb) : Prop where
  idle : s.op .loop = none
  free : s.mutex = none
  going : s.stopped = false
  std : NoForeign s.outcome s.tasks

section

variable {s : World Cb}

theorem Goes.swap (goes : Goes s) {site : Site} (phase : s.phase = .swap site)
    (empty : s.localTasks = []) : CallsAll s := by
  have taken : step s .swap = some (s.swap site) := by
    simp [step, phase, goes.free]
  refine ⟨_, .next rfl taken (drain_leads rfl goes.idle), ?_⟩
  simp [World.swap, empty]

theorem Goes.test (goes : Goes s) (phase : s.phase = .test) (empty : s.localTasks = []) :
    CallsAll s := by
  have taken : step s .test = some { s with phase := .swap .top } := by
    simp [step, phase, goes.going]
  have after : Goes { s with phase := .swap .top } := ⟨goes.idle, goes.free, goes.going, goes.std⟩
  exact (after.swap rfl empty).next rfl taken rfl rfl rfl

theorem Goes.read (goes : Goes s) (phase : s.phase = .read) (empty : s.localTasks = []) :
    CallsAll s := by
  have emptied : ∀ s : World Cb, Goes s → s.phase = .read → s.localTasks = [] →
      s.signaled = false → CallsAll s := by
    intro s goes phase empty silent
    have taken : step s .read = some { s with phase := .swap .wakeup } := by
      simp [step, phase, silent]
    have after : Goes { s with phase := .swap .wakeup } :=
      ⟨goes.idle, goes.free, goes.going, goes.std⟩
    exact (after.swap rfl empty).next rfl taken rfl rfl rfl
  cases signaled : s.signaled with
  | false => exact emptied s goes phase empty signaled
  | true =>
    have taken : step s .read = some { s with signaled := false } := by
      simp [step, phase, signaled]
    have after : Goes { s with signaled := false } := ⟨goes.idle, goes.free, goes.going, goes.std⟩
    exact (emptied _ after phase empty rfl).next rfl taken rfl rfl rfl

theorem Goes.batch (goes : Goes s) (phase : s.phase = .batch) (empty : s.localTasks = []) :
    CallsAll s := by
  generalize listed : s.events = events
  induction events generalizing s with
  | nil =>
    have taken : step s .next = some { s with phase := .test } := by
      simp [step, phase, listed]
    have after : Goes { s with phase := .test } := ⟨goes.idle, goes.free, goes.going, goes.std⟩
    exact (after.test rfl empty).next rfl taken rfl rfl rfl
  | cons event rest ih =>
    cases event with
    | wakeup =>
      have taken : step s .next = some { s with phase := .read, events := rest } := by
        simp [step, phase, listed]
      have after : Goes { s with phase := .read, events := rest } :=
        ⟨goes.idle, goes.free, goes.going, goes.std⟩
      exact (after.read rfl empty).next rfl taken rfl rfl rfl
    | other =>
      have taken : step s .next = some { s with phase := .coroutine, events := rest } := by
        simp [step, phase, listed]
      have returned : step { s with phase := .coroutine, events := rest } .suspended =
          some { s with phase := .batch, events := rest } := by
        simp [step, World.code, goes.idle]
      have after : Goes { s with phase := .batch, events := rest } :=
        ⟨goes.idle, goes.free, goes.going, goes.std⟩
      have calls := (ih after rfl empty rfl).next rfl returned rfl rfl rfl
      exact calls.next rfl taken rfl rfl rfl

/-- The loop sleeps with a callback in its queue only if the wakeup descriptor is readable. -/
theorem Goes.wait (goes : Goes s) (phase : s.phase = .wait) (empty : s.localTasks = [])
    (heard : s.pending ≠ [] → s.signaled = true) : CallsAll s := by
  cases pending : s.pending with
  | nil => exact ⟨s, .refl s, by simp [empty, pending]⟩
  | cons task rest =>
    have signaled := heard (pending ▸ List.cons_ne_nil task rest)
    have taken : step s (.wake [.wakeup]) = some { s with phase := .batch, events := [.wakeup] } := by
      simp [step, phase, signaled]
    have after : Goes { s with phase := .batch, events := [.wakeup] } :=
      ⟨goes.idle, goes.free, goes.going, goes.std⟩
    exact (after.batch rfl empty).next rfl taken rfl rfl rfl

theorem Goes.compact (goes : Goes s) {site : Site} (phase : s.phase = .compact site)
    (empty : s.localTasks = []) (heard : s.pending ≠ [] → s.signaled = true) : CallsAll s := by
  have quiet := (scan_thrown_iff s.outcome s.tasks).mpr goes.std
  have taken : step s .compact = some (s.compact site) := by
    simp only [step, phase]
  obtain ⟨executed, queue, pending, _, _⟩ := compact_queues site s
  have kept : ∀ task ∈ (s.compact site).tasks, task ∈ s.tasks :=
    (compact_tasks_sublist site s).subset
  have after : Goes (s.compact site) := by
    refine ⟨?_, ?_, ?_, ?_⟩
    · rw [(compact_flags site s).2.2]
      exact goes.idle
    · rw [compact_mutex]
      exact goes.free
    · rw [(compact_flags site s).1]
      exact goes.going
    · intro task member
      rw [compact_outcome]
      exact goes.std task (kept task member)
  have next : (s.compact site).phase = site.next := by
    simp [World.compact, quiet]
  have calls : CallsAll (s.compact site) := by
    cases site with
    | top =>
      apply after.wait next (queue.trans empty)
      rw [pending, (compact_flags .top s).2.1]
      exact heard
    | wakeup => exact after.batch next (queue.trans empty)
  exact calls.next rfl taken executed queue pending

theorem Goes.drain (goes : Goes s) {site : Site} (phase : s.phase = .drain site)
    (heard : s.pending ≠ [] → s.signaled = true) : CallsAll s := by
  have after : Goes { s with
      phase := .compact site
      localTasks := []
      executed := s.executed ++ s.localTasks } := ⟨goes.idle, goes.free, goes.going, goes.std⟩
  obtain ⟨t, leads, all⟩ := after.compact rfl rfl heard
  refine ⟨t, (drain_leads phase goes.idle).trans leads, ?_⟩
  rw [all]
  simp

theorem Goes.callsAll (goes : Goes s) (kept : Kept s) (running : s.phase.running = true) :
    CallsAll s := by
  -- with the lock free, nobody has pushed without having written
  have heard : s.phase.swapAhead = false → s.pending ≠ [] → s.signaled = true := by
    intro behind nonempty
    by_contra silent
    obtain ⟨who, pushed⟩ := kept.awake.unheard behind (Bool.eq_false_iff.mpr silent) nonempty
    have holder := (kept.locked who).mp pushed
    rw [goes.free] at holder
    cases holder
  have empty := kept.done
  cases phase : s.phase with
  | setup | exited | died =>
    rw [phase] at running
    cases running
  | test => exact goes.test phase (empty (by rw [phase]; rfl))
  | swap site => exact goes.swap phase (empty (by rw [phase]; rfl))
  | drain site => exact goes.drain phase (heard (by rw [phase]; rfl))
  | callback site =>
    have returned : step s .returned = some { s with phase := .drain site } := by
      simp [step, phase, World.code, goes.idle]
    have after : Goes { s with phase := .drain site } := ⟨goes.idle, goes.free, goes.going, goes.std⟩
    exact (after.drain rfl (heard (by rw [phase]; rfl))).next rfl returned rfl rfl rfl
  | compact site =>
    exact goes.compact phase (empty (by rw [phase]; rfl)) (heard (by rw [phase]; rfl))
  | wait => exact goes.wait phase (empty (by rw [phase]; rfl)) (heard (by rw [phase]; rfl))
  | batch => exact goes.batch phase (empty (by rw [phase]; rfl))
  | coroutine =>
    have returned : step s .suspended = some { s with phase := .batch } := by
      simp [step, phase, World.code, goes.idle]
    have after : Goes { s with phase := .batch } := ⟨goes.idle, goes.free, goes.going, goes.std⟩
    exact (after.batch rfl (empty (by rw [phase]; rfl))).next rfl returned rfl rfl rfl
  | read => exact goes.read phase (empty (by rw [phase]; rfl))

end

theorem Kept.callsAll {s : World Cb} (kept : Kept s) (running : s.phase.running = true)
    (going : s.stopped = false) (std : NoForeign s.outcome s.tasks) : CallsAll s := by
  -- the thread of the loop brings its own post or stop to its end
  have idle : ∀ s : World Cb, Kept s → s.phase.running = true → s.stopped = false →
      NoForeign s.outcome s.tasks → s.mutex = none → CallsAll s := by
    intro s kept running going std free
    cases busy : s.op .loop with
    | none => exact Goes.callsAll ⟨busy, free, going, std⟩ kept running
    | some op =>
      have written : Run.step s (.write .loop) = some (s.write .loop op) := by
        simp only [Run.step, busy]
      have after : Goes (s.write .loop op) := by
        refine ⟨by simp [World.write], ?_, going, std⟩
        simp [World.write, free]
      exact (after.callsAll (kept.step written) running).next rfl written rfl rfl rfl
  cases held : s.mutex with
  | none => exact idle s kept running going std held
  | some who =>
    have pushed := (kept.locked who).mpr held
    have written : Run.step s (.write who) = some (s.write who .pushed) := by
      simp only [Run.step, pushed]
    have free : (s.write who .pushed).mutex = none := by simp [World.write]
    have calls := idle (s.write who .pushed) (kept.step written) running going std free
    exact calls.next rfl written rfl rfl rfl

/-! ## Posts, stops and callbacks -/

/-- Whatever the threads and the callbacks do: the loop never sleeps on a post or a stop
whose wakeup write has been made, the callbacks called are the first ones posted, in order,
one drain calls exactly the callbacks that its swap has found, up to the last, and the loop
comes to call every callback that has been posted. -/
theorem posts_and_stops_are_seen {s : World Cb}
    (reached : (machine Cb).ReachableWhere (fun _ a => NoThrow a = true) s) :
    (s.phase = .wait → s.signaled = false → s.pending ≠ [] ∨ s.stopped = true →
      ∃ who, s.op who ≠ none) ∧
    s.executed <+: s.posted ∧
    (∀ actions t, (∀ a ∈ actions, NoThrow a = true ∧ a ≠ .swap) →
      (machine Cb).exec s (.swap :: actions) = some t →
        t.executed ++ t.localTasks = s.executed ++ s.pending ∧
          (t.phase.draining = false → t.executed = s.executed ++ s.pending) ∧
          (t.phase.draining = true → ∃ u, Leads t u ∧ u.phase.draining = false ∧
            u.executed = s.executed ++ s.pending ∧ u.pending = t.pending)) ∧
    (s.phase.running = true → s.stopped = false → NoForeign s.outcome s.tasks →
      ∃ t, Leads s t ∧ t.executed = s.posted) := by
  have kept := reachable_kept reached.reachable
  have accounted := reachable_accounted reached
  refine ⟨?_, ?_, ?_, ?_⟩
  · intro blocked unreadable waiting
    rcases waiting with nonempty | stopped
    · obtain ⟨who, held⟩ := kept.awake.unheard (by rw [blocked]; rfl) unreadable nonempty
      exact ⟨who, by rw [held]; exact Option.some_ne_none _⟩
    · obtain ⟨who, held⟩ := kept.awake.unheard_stop (by rw [blocked]; rfl) unreadable stopped
      exact ⟨who, by rw [held]; exact Option.some_ne_none _⟩
  · rw [← accounted.order, List.append_assoc]
    exact List.prefix_append ..
  · intro actions t quiet replay
    obtain ⟨u, step, tail⟩ := Transition.Machine.exec_cons_eq_some.mp replay
    have reachedU := reached.next rfl step
    have swapped : u.executed = s.executed ∧ u.localTasks = s.pending := by
      cases step_move (show Run.step s .swap = some u from step) with
      | swap => exact ⟨rfl, rfl⟩
    have same := exec_drain quiet tail
    rw [swapped.1, swapped.2] at same
    refine ⟨same, fun ended => ?_, fun during => ?_⟩
    · have each : (machine Cb).Each (fun _ a => NoThrow a = true) u actions :=
        Transition.Machine.each_of_forall fun a member _ => (quiet a member).1
      rw [(reachable_accounted (reachedU.exec each tail)).done ended, List.append_nil] at same
      exact same
    · obtain ⟨site, at_site⟩ := Phase.draining_iff.mp during
      obtain ⟨v, leads, phase, executed, pending⟩ := drain_completes at_site
      exact ⟨v, leads, by rw [phase]; rfl, executed.trans same, pending⟩
  · intro running going std
    obtain ⟨t, leads, all⟩ := kept.callsAll running going std
    exact ⟨t, leads, all.trans accounted.order⟩

def twoPosted : List (Act Nat) :=
  [.push .loop 1, .write .loop, .push .loop 2, .write .loop, .enter, .test]

def firstPosts : List (Act Nat) :=
  [.call, .push .loop 3, .write .loop]

theorem posts_and_stops_are_seen_firstPosts : ∃ s t u v,
    (machine Nat).exec (boot Nat) twoPosted = some s ∧
    (machine Nat).exec s (.swap :: firstPosts) = some t ∧ t.executed = [1] ∧
    (Leads t u ∧ u.phase.draining = false ∧ u.executed = [1, 2] ∧ u.pending = [3]) ∧
    (Leads t v ∧ v.executed = [1, 2, 3]) := by
  have run : ((machine Nat).exec (boot Nat) twoPosted).map
      (fun s => (s.executed, s.pending)) = some ([], [1, 2]) := by decide
  obtain ⟨s, replay, queued⟩ := Option.map_eq_some_iff.mp run
  simp only [Prod.mk.injEq] at queued
  have whole : ((machine Nat).exec (boot Nat) (twoPosted ++ .swap :: firstPosts)).map
      (fun t => ((t.phase, t.stopped, t.tasks), t.executed, t.pending, t.posted)) =
      some ((.callback .top, false, []), [1], [3], [1, 2, 3]) := by decide
  obtain ⟨t, replay', final⟩ := Option.map_eq_some_iff.mp whole
  simp only [Prod.mk.injEq] at final
  obtain ⟨⟨phase, going, tasks⟩, executed₁, pending₁, posted⟩ := final
  have drains : (machine Nat).exec s (.swap :: firstPosts) = some t := by
    rw [Transition.Machine.exec_append, replay] at replay'
    exact replay'
  have each : (machine Nat).Each (fun _ a => NoThrow a = true) (boot Nat) twoPosted := by
    decide
  have later : (machine Nat).Each (fun _ a => NoThrow a = true) (boot Nat)
      (twoPosted ++ .swap :: firstPosts) := by decide
  have seen := posts_and_stops_are_seen (.exec (.start (boot_start Nat)) each replay)
  have seen' := posts_and_stops_are_seen (.exec (.start (boot_start Nat)) later replay')
  obtain ⟨_, _, ends⟩ := seen.2.2.1 firstPosts t (by decide) drains
  obtain ⟨u, leads, ended, executed, pending⟩ := ends (by rw [phase]; rfl)
  have std : NoForeign t.outcome t.tasks := by
    rw [tasks]
    exact nofun
  obtain ⟨v, leads', all⟩ := seen'.2.2.2 (by rw [phase]; rfl) going std
  refine ⟨s, t, u, v, replay, drains, executed₁, ⟨leads, ended, ?_, ?_⟩, leads', ?_⟩
  · rw [executed, queued.1, queued.2]
    rfl
  · rw [pending, pending₁]
  · rw [all, posted]

/-- Every posted callback has been called, once and in order, or is still to be called, and
the loop comes to call it. -/
structure Delivered (s : World Cb) : Prop where
  accounted : Accounted s
  /-- a drain calls the rest of its queue -/
  drains : ∀ site, s.phase = .drain site ∨ s.phase = .callback site →
    ∃ t, Leads s t ∧ t.phase = .compact site ∧ t.executed = s.executed ++ s.localTasks ∧
      t.pending = s.pending
  /-- the loop does not sleep on what is left -/
  heard : s.phase = .wait → s.signaled = false → s.pending ≠ [] → ∃ who, s.op who = some .pushed
  calls : s.phase.running = true → s.stopped = false → NoForeign s.outcome s.tasks →
    ∃ t, Leads s t ∧ t.executed = s.posted

theorem Kept.delivered_iff {s : World Cb} (kept : Kept s) : Delivered s ↔ Accounted s := by
  constructor
  · exact Delivered.accounted
  · intro accounted
    refine ⟨accounted, fun site during => drain_completes during, ?_, ?_⟩
    · intro blocked unreadable nonempty
      exact kept.awake.unheard (by rw [blocked]; rfl) unreadable nonempty
    · intro running going std
      obtain ⟨t, leads, all⟩ := kept.callsAll running going std
      exact ⟨t, leads, all.trans accounted.order⟩

/-- Along every run each posted callback is called exactly once, in order, by its drain or
a later one, exactly as long as no callback throws in front of others of its drain. -/
theorem callbacks_delivered_iff {s t : World Cb} {actions : List (Act Cb)} (start : Start s)
    (replay : (machine Cb).exec s actions = some t) :
    (machine Cb).Throughout Delivered s actions ↔ (machine Cb).Each LastThrows s actions := by
  have preserves : ∀ s a t, Kept s → True → (machine Cb).step s a = some t → Kept t :=
    fun _ _ _ kept _ step => kept.step step
  have exact_step : ∀ s a t, Kept s → Delivered s → True → (machine Cb).step s a = some t →
      (Delivered t ↔ LastThrows s a) := by
    intro s a t kept delivered _ step
    rw [(kept.step step).delivered_iff]
    exact step_accounted_iff delivered.accounted step
  have kept := start_kept start
  exact Transition.Machine.throughout_iff_each preserves exact_step kept
    (kept.delivered_iff.mpr (start_accounted start)) (Transition.Machine.each_true s actions) replay

instance (s : World Cb) : ∀ a : Act Cb, Decidable (LastThrows s a)
  | .threw _ => inferInstanceAs (Decidable (s.localTasks = []))
  | .push .. | .flag _ | .write _ | .spawn _ | .finish .. | .enter | .test | .swap | .call
  | .returned | .drained | .compact | .wake _ | .interrupted | .waitFailed .. | .next | .read
  | .suspended => isTrue trivial

def calledFirst : List (Act Nat) :=
  twoPosted ++ [.swap, .call]

/-- The first callback posts a third one, and the second throws. -/
def secondThrows : List (Act Nat) :=
  calledFirst ++ [.push .loop 3, .write .loop, .returned, .call,
    .threw (.std (.runtimeError "second"))]

theorem callbacks_delivered_iff_secondThrows :
    ∃ s, (machine Nat).exec (boot Nat) secondThrows = some s ∧
      (s.phase = .wait ∧ s.executed = [1, 2] ∧ s.pending = [3]) ∧
      (machine Nat).Throughout Delivered (boot Nat) secondThrows := by
  have run : ((machine Nat).exec (boot Nat) secondThrows).map
      (fun s => (s.phase, s.executed, s.pending)) = some (.wait, [1, 2], [3]) := by decide
  obtain ⟨s, replay, final⟩ := Option.map_eq_some_iff.mp run
  simp only [Prod.mk.injEq] at final
  exact ⟨s, replay, final, (callbacks_delivered_iff (boot_start Nat) replay).mpr (by decide)⟩

def StdThrows : Act Cb → Bool
  | .threw error => error.isStd
  | _ => true

/-- The first callback throws: the second is neither called nor queued any more. -/
theorem throwing_callback_drops_next : ¬ ∀ actions s, (∀ a ∈ actions, StdThrows a = true) →
    (machine Nat).exec (boot Nat) actions = some s → Delivered s := by
  intro always
  have run : ((machine Nat).exec (boot Nat)
      (calledFirst ++ [.threw (.std (.runtimeError "first"))])).map
        (fun s => (s.phase, s.executed, s.localTasks, s.pending, s.posted)) =
      some (.wait, [1], [], [], [1, 2]) := by decide
  obtain ⟨s, replay, final⟩ := Option.map_eq_some_iff.mp run
  simp only [Prod.mk.injEq] at final
  obtain ⟨_, executed, queue, pending, posted⟩ := final
  have order := (always _ s (by decide) replay).accounted.order
  rw [executed, queue, pending, posted] at order
  cases order

end CoroEpoll.Run
