import CoroEpoll.EventLoop.Laws

/-! Where the handle of a suspended coroutine can be: in the table, taken by the
dispatch in progress, or resumed.
-/

set_option autoImplicit false

namespace CoroEpoll.Reactor

variable {K Ev Env : Type} {B : Backend K Ev Env}

def Act.spares : Act Ev Env → Bool
  | .wait .. | .remove _ | .close _ | .closeServer _ => false
  | _ => true

/-- What one step does with handles and frames. -/
inductive Move (B : Backend K Ev Env) (s : World K Ev) (a : Act Ev Env) (t : World K Ev) : Prop where
  | quiet : a.spares = true → (∀ fd d, t.loop.slot fd d = s.loop.slot fd d) →
      t.hand = s.hand → t.frames = s.frames → t.passed = s.passed → t.resumed = s.resumed →
      Move B s a t
  | registered (f : Nat) (fd : Fd) (d : Direction) (et : Bool) : a = .wait f fd d et →
      s.frames f = .active → 0 ≤ fd →
      (∀ fd' d', t.loop.slot fd' d' =
        if fd' = fd ∧ d' = d then some (s.waiter B f fd d) else s.loop.slot fd' d') →
      t.hand = s.hand → t.frames = Function.update s.frames f (.suspended (s.waiter B f fd d) false) →
      t.passed = s.passed ++ [s.waiter B f fd d] → t.resumed = s.resumed → Move B s a t
  | refused (f : Nat) (fd : Fd) (d : Direction) (et : Bool) (error : Exception) :
      a = .wait f fd d et → (B.awaitSuspend fd d et (s.waiter B f fd d) s.loop).2 = some error →
      (∀ fd' d' w, t.loop.slot fd' d' = some w → s.loop.slot fd' d' = some w ∨
        B.keepsFailed = true ∧ (s.loop.states fd).isSome = true ∧ 0 ≤ fd ∧ fd' = fd ∧ d' = d ∧
          w = s.waiter B f fd d) →
      (∀ fd' d', fd' ≠ fd → t.loop.slot fd' d' = s.loop.slot fd' d') →
      t.hand = s.hand → t.frames = s.frames →
      t.passed = s.passed ++ [s.waiter B f fd d] → t.resumed = s.resumed → Move B s a t
  | removed (fd : Fd) : a = .remove fd ∨ a = .close fd ∨ a = .closeServer fd →
      (∀ fd' d, t.loop.slot fd' d = if fd' = fd ∧ 0 ≤ fd then none else s.loop.slot fd' d) →
      t.hand = s.hand → (∀ f, t.frames f = (s.frames f).deregister fd) →
      t.passed = s.passed → t.resumed = s.resumed → Move B s a t
  | destroyed (f : Nat) : a = .destroy f → (s.frames f).mayDestroy = true →
      (∀ fd d, t.loop.slot fd d = s.loop.slot fd d) → t.hand = s.hand →
      t.frames = Function.update s.frames f .destroyed →
      t.passed = s.passed → t.resumed = s.resumed → Move B s a t
  | took (report : Report Ev) (rest : List (Report Ev)) : a = .dispatch → s.phase = .batch →
      s.batch = report :: rest → B.eventFd report.event ≠ s.loop.wakeupFd →
      (∀ fd d, t.loop.slot fd d = if fd = B.eventFd report.event ∧ B.covers report.event d = true
        then none else s.loop.slot fd d) →
      (t.hand = s.loop.taken (B.eventFd report.event) (B.covers report.event) ∨
        t.hand = s.hand ∧ ∃ error, (B.dispatch report.event s.loop).2 = .threw error) →
      t.frames = s.frames → t.passed = s.passed → t.resumed = s.resumed → Move B s a t
  | gave (w : Waiter) (rest : List Waiter) (removed : Bool) : a = .resume → s.hand = w :: rest →
      s.frames w.frame = .suspended w removed →
      (∀ fd d, t.loop.slot fd d = s.loop.slot fd d) → t.hand = rest →
      t.frames = Function.update s.frames w.frame .active →
      t.passed = s.passed → t.resumed = s.resumed ++ [w] → Move B s a t
  | faulted (w : Waiter) (rest : List Waiter) : a = .resume → s.hand = w :: rest →
      (∀ removed, s.frames w.frame ≠ .suspended w removed) →
      (∀ fd d, t.loop.slot fd d = s.loop.slot fd d) → t.hand = rest →
      t.frames = s.frames → t.passed = s.passed → t.resumed = s.resumed → Move B s a t

theorem wait_move (lawful : B.Lawful) {s : World K Ev} {f : Nat} (active : s.frames f = .active)
    (fd : Fd) (d : Direction) (et : Bool) :
    Move B s (.wait f fd d et) (s.wait B f fd d et) := by
  rcases result : B.awaitSuspend fd d et (s.waiter B f fd d) s.loop with ⟨loop, thrown⟩
  cases thrown with
  | none =>
    obtain ⟨valid, slots⟩ := lawful.wait_slot fd d et (s.waiter B f fd d) s.loop (by rw [result])
    simp only [result] at slots
    refine .registered f fd d et rfl active valid ?_ ?_ ?_ ?_ ?_ <;>
      simp only [World.wait, result]
    exact slots
  | some error =>
    have slots := lawful.wait_threw fd d et (s.waiter B f fd d) s.loop error (by rw [result])
    have others := lawful.wait_frame fd d et (s.waiter B f fd d) s.loop
    simp only [result] at slots others
    refine .refused f fd d et error rfl (by rw [result]) ?_ ?_ ?_ ?_ ?_ ?_ <;>
      simp only [World.wait, result]
    · exact slots
    · exact others

theorem dispatch_move (lawful : B.Lawful) {s : World K Ev} (phase : s.phase = .batch)
    {report : Report Ev} {rest : List (Report Ev)} (batch : s.batch = report :: rest) :
    Move B s .dispatch ({ s with batch := rest }.dispatch B report.event) := by
  by_cases wakeup : B.eventFd report.event = s.loop.wakeupFd
  · obtain ⟨drains, slots⟩ := lawful.dispatch_wakeup report.event s.loop wakeup
    rcases result : B.dispatch report.event s.loop with ⟨loop, next⟩
    rw [result] at drains slots
    cases drains
    refine .quiet rfl ?_ ?_ ?_ ?_ ?_ <;> simp only [World.dispatch, result]
    exact slots
  · have slots := lawful.dispatch_slot report.event s.loop wakeup
    rcases lawful.dispatch_resume report.event s.loop wakeup with resumes | ⟨error, threw⟩
    · rcases result : B.dispatch report.event s.loop with ⟨loop, next⟩
      rw [result] at resumes slots
      cases resumes
      refine .took report rest rfl phase batch wakeup ?_ (Or.inl ?_) ?_ ?_ ?_ <;>
        simp only [World.dispatch, result]
      exact slots
    · rcases result : B.dispatch report.event s.loop with ⟨loop, next⟩
      rw [result] at threw slots
      cases threw
      refine .took report rest rfl phase batch wakeup ?_ (Or.inr ⟨?_, error, by rw [result]⟩)
        ?_ ?_ ?_ <;> simp only [World.dispatch, result]
      exact slots

theorem resume_move {s : World K Ev} {w : Waiter} {rest : List Waiter} (hand : s.hand = w :: rest) :
    Move B s .resume ({ s with hand := rest }.resume w) := by
  -- a frame that does not wait with this very handle is resumed by mistake
  cases frame : s.frames w.frame with
  | suspended current removed =>
    by_cases same : current = w
    · subst same
      refine .gave current rest removed rfl hand frame ?_ ?_ ?_ ?_ ?_ <;>
        simp [World.resume, frame]
    · refine .faulted w rest rfl hand ?_ ?_ ?_ ?_ ?_ ?_ <;> simp [World.resume, frame, same]
  | active => refine .faulted w rest rfl hand ?_ ?_ ?_ ?_ ?_ ?_ <;> simp [World.resume, frame]
  | destroyed => refine .faulted w rest rfl hand ?_ ?_ ?_ ?_ ?_ ?_ <;> simp [World.resume, frame]

theorem step_move (lawful : B.Lawful) {s t : World K Ev} {a : Act Ev Env}
    (step : step B s a = some t) : Move B s a t := by
  cases a with
  | wait f fd d et =>
    simp only [Reactor.step, Option.ite_none_right_eq_some, Option.some.injEq] at step
    obtain ⟨⟨_, active⟩, rfl⟩ := step
    exact wait_move lawful active fd d et
  | remove fd =>
    simp only [Reactor.step, Option.ite_none_right_eq_some, Option.some.injEq] at step
    obtain ⟨_, rfl⟩ := step
    exact .removed fd (Or.inl rfl) (lawful.remove_slot fd s.loop) rfl (fun _ => rfl) rfl rfl
  | close fd =>
    simp only [Reactor.step, Option.ite_none_right_eq_some, Option.some.injEq] at step
    obtain ⟨_, rfl⟩ := step
    exact .removed fd (Or.inr (Or.inl rfl)) (lawful.remove_slot fd s.loop) rfl (fun _ => rfl) rfl rfl
  | closeServer fd =>
    simp only [Reactor.step, Option.ite_none_right_eq_some, Option.some.injEq] at step
    obtain ⟨_, rfl⟩ := step
    exact .removed fd (Or.inr (Or.inr rfl))
      (fun fd' d => lawful.remove_slot fd (s.closeFd B fd).loop fd' d) rfl (fun _ => rfl) rfl rfl
  | openFd fd =>
    simp only [Reactor.step, Option.ite_none_right_eq_some, Option.map_eq_some_iff] at step
    obtain ⟨_, kernel, _, rfl⟩ := step
    exact .quiet rfl (fun _ _ => rfl) rfl rfl rfl rfl
  | destroy f =>
    simp only [Reactor.step, Option.ite_none_right_eq_some, Option.some.injEq] at step
    obtain ⟨⟨_, may⟩, rfl⟩ := step
    exact .destroyed f rfl may (fun _ _ => rfl) rfl rfl rfl rfl
  | change env =>
    simp only [Reactor.step, Option.map_eq_some_iff] at step
    obtain ⟨kernel, _, rfl⟩ := step
    exact .quiet rfl (fun _ _ => rfl) rfl rfl rfl rfl
  | block =>
    simp only [Reactor.step, Option.ite_none_right_eq_some, Option.some.injEq] at step
    obtain ⟨_, rfl⟩ := step
    exact .quiet rfl (fun _ _ => rfl) rfl rfl rfl rfl
  | wake reports =>
    simp only [Reactor.step, Option.ite_none_right_eq_some, Option.map_eq_some_iff] at step
    obtain ⟨_, kernel, _, rfl⟩ := step
    exact .quiet rfl (fun _ _ => rfl) rfl rfl rfl rfl
  | interrupted =>
    simp only [Reactor.step, Option.ite_none_right_eq_some, Option.some.injEq] at step
    obtain ⟨_, rfl⟩ := step
    exact .quiet rfl (fun _ _ => rfl) rfl rfl rfl rfl
  | dispatch =>
    simp only [Reactor.step, Option.ite_none_right_eq_some] at step
    obtain ⟨phase, step⟩ := step
    cases batch : s.batch with
    | nil =>
      simp only [batch, Option.some.injEq] at step
      subst step
      exact .quiet rfl (fun _ _ => rfl) rfl rfl rfl rfl
    | cons report rest =>
      simp only [batch, Option.some.injEq] at step
      subst step
      exact dispatch_move lawful phase batch
  | resume =>
    simp only [Reactor.step, Option.ite_none_right_eq_some] at step
    obtain ⟨phase, step⟩ := step
    cases hand : s.hand with
    | nil =>
      simp only [hand, Option.some.injEq] at step
      subst step
      exact .quiet rfl (fun _ _ => rfl) hand.symm rfl rfl rfl
    | cons w rest =>
      simp only [hand, Option.some.injEq] at step
      subst step
      exact resume_move hand
  | suspend =>
    simp only [Reactor.step, Option.ite_none_right_eq_some, Option.some.injEq] at step
    obtain ⟨_, rfl⟩ := step
    exact .quiet rfl (fun _ _ => rfl) rfl rfl rfl rfl

/-! ## What every reachable state satisfies -/

/-- Handles are in hand only while a dispatch is resuming, and a batch is pending only
between two waits. -/
structure Shape (s : World K Ev) : Prop where
  hand : s.phase = .drain ∨ s.phase = .waiting ∨ s.phase = .batch → s.hand = []
  batch : s.phase = .drain ∨ s.phase = .waiting → s.batch = []

@[simp] theorem phase_wait (s : World K Ev) (f : Nat) (fd : Fd) (d : Direction) (et : Bool) :
    (s.wait B f fd d et).phase = s.phase := by
  unfold World.wait
  dsimp only
  split <;> rfl

@[simp] theorem hand_wait (s : World K Ev) (f : Nat) (fd : Fd) (d : Direction) (et : Bool) :
    (s.wait B f fd d et).hand = s.hand := by
  unfold World.wait
  dsimp only
  split <;> rfl

@[simp] theorem batch_wait (s : World K Ev) (f : Nat) (fd : Fd) (d : Direction) (et : Bool) :
    (s.wait B f fd d et).batch = s.batch := by
  unfold World.wait
  dsimp only
  split <;> rfl

theorem step_shape {s t : World K Ev} {a : Act Ev Env} (shape : Shape s)
    (step : step B s a = some t) : Shape t := by
  cases a with
  | wait f fd d et =>
    simp only [Reactor.step, Option.ite_none_right_eq_some, Option.some.injEq] at step
    obtain ⟨_, rfl⟩ := step
    exact ⟨by simpa using shape.hand, by simpa using shape.batch⟩
  | remove fd | close fd | closeServer fd | destroy f =>
    simp only [Reactor.step, Option.ite_none_right_eq_some, Option.some.injEq] at step
    obtain ⟨_, rfl⟩ := step
    exact ⟨shape.hand, shape.batch⟩
  | openFd fd =>
    simp only [Reactor.step, Option.ite_none_right_eq_some, Option.map_eq_some_iff] at step
    obtain ⟨_, kernel, _, rfl⟩ := step
    exact ⟨shape.hand, shape.batch⟩
  | change env =>
    simp only [Reactor.step, Option.map_eq_some_iff] at step
    obtain ⟨kernel, _, rfl⟩ := step
    exact ⟨shape.hand, shape.batch⟩
  | block =>
    simp only [Reactor.step, Option.ite_none_right_eq_some, Option.some.injEq] at step
    obtain ⟨phase, rfl⟩ := step
    exact ⟨fun _ => shape.hand (Or.inl phase), fun _ => shape.batch (Or.inl phase)⟩
  | wake reports =>
    simp only [Reactor.step, Option.ite_none_right_eq_some, Option.map_eq_some_iff] at step
    obtain ⟨⟨phase, _⟩, kernel, _, rfl⟩ := step
    exact ⟨fun _ => shape.hand (Or.inr (Or.inl phase)), by simp⟩
  | interrupted =>
    simp only [Reactor.step, Option.ite_none_right_eq_some, Option.some.injEq] at step
    obtain ⟨phase, rfl⟩ := step
    exact ⟨fun _ => shape.hand (Or.inr (Or.inl phase)), fun _ => shape.batch (Or.inr phase)⟩
  | dispatch =>
    simp only [Reactor.step, Option.ite_none_right_eq_some] at step
    obtain ⟨phase, step⟩ := step
    have empty := shape.hand (Or.inr (Or.inr phase))
    cases batch : s.batch with
    | nil =>
      simp only [batch, Option.some.injEq] at step
      subst step
      exact ⟨fun _ => empty, fun _ => rfl⟩
    | cons report rest =>
      simp only [batch, Option.some.injEq] at step
      subst step
      rcases result : B.dispatch report.event s.loop with ⟨loop, next⟩
      cases next <;> constructor <;> simp [World.dispatch, result, phase, empty]
  | resume =>
    simp only [Reactor.step, Option.ite_none_right_eq_some] at step
    obtain ⟨phase, step⟩ := step
    cases hand : s.hand with
    | nil =>
      simp only [hand, Option.some.injEq] at step
      subst step
      exact ⟨fun _ => rfl, by simp⟩
    | cons w rest =>
      simp only [hand, Option.some.injEq] at step
      subst step
      unfold World.resume
      dsimp only
      split
      · split <;> constructor <;> simp
      · constructor <;> simp
  | suspend =>
    simp only [Reactor.step, Option.ite_none_right_eq_some, Option.some.injEq] at step
    obtain ⟨_, rfl⟩ := step
    constructor <;> simp

/-- Every handle in the table or in the hands of a dispatch was passed to a wait, and
is in one place. -/
structure Linked (s : World K Ev) : Prop where
  slot : ∀ fd d w, s.loop.slot fd d = some w →
    w.fd = fd ∧ w.direction = d ∧ 0 ≤ fd ∧ s.passed[w.serial]? = some w
  hand : ∀ w ∈ s.hand, s.passed[w.serial]? = some w
  nodup : s.hand.Nodup
  apart : ∀ w ∈ s.hand, ∀ fd d, s.loop.slot fd d ≠ some w

theorem start_shape {s : World K Ev} (start : Start B s) : Shape s :=
  ⟨fun _ => start.hand, fun _ => start.batch⟩

theorem start_linked {s : World K Ev} (start : Start B s) : Linked s where
  slot fd d w stored := by simp [EventLoop.slot, start.states] at stored
  hand w member := by simp [start.hand] at member
  nodup := start.hand ▸ List.nodup_nil
  apart w member := by simp [start.hand] at member

theorem getElem?_passed {passed : List Waiter} {w : Waiter} (before : passed[w.serial]? = some w)
    (last : Waiter) : (passed ++ [last])[w.serial]? = some w := by
  rw [List.getElem?_append_left (List.getElem?_eq_some_iff.mp before).1]
  exact before

theorem waiter_fresh {s : World K Ev} {w : Waiter} (before : s.passed[w.serial]? = some w)
    (f : Nat) (fd : Fd) (d : Direction) : w ≠ s.waiter B f fd d := by
  rintro rfl
  simp [World.waiter] at before

theorem getElem?_waiter (s : World K Ev) (f : Nat) (fd : Fd) (d : Direction) :
    (s.passed ++ [s.waiter B f fd d])[(s.waiter B f fd d).serial]? = some (s.waiter B f fd d) := by
  simp [World.waiter]

theorem Linked.taken_nodup {s : World K Ev} (linked : Linked s) (fd : Fd)
    (covers : Direction → Bool) : (s.loop.taken fd covers).Nodup := by
  unfold EventLoop.taken FdState.taken
  rw [List.nodup_append]
  refine ⟨?_, ?_, ?_⟩
  · cases (if covers .read then (s.loop.entry fd).readHandle else none) <;> simp
  · cases (if covers .write then (s.loop.entry fd).writeHandle else none) <;> simp
  · intro first left second right same
    subst same
    have read : s.loop.slot fd .read = some first := by
      rw [← EventLoop.handle_entry]
      simp only [Option.mem_toList] at left
      split at left
      · exact left
      · cases left
    have write : s.loop.slot fd .write = some first := by
      rw [← EventLoop.handle_entry]
      simp only [Option.mem_toList] at right
      split at right
      · exact right
      · cases right
    have directions := (linked.slot _ _ _ read).2.1.symm.trans (linked.slot _ _ _ write).2.1
    cases directions

theorem Linked.same {s t : World K Ev} (linked : Linked s)
    (slots : ∀ fd d, t.loop.slot fd d = s.loop.slot fd d) (hand : t.hand.Sublist s.hand)
    (passed : t.passed = s.passed) : Linked t where
  slot fd d w stored := by
    rw [passed]
    exact linked.slot fd d w (slots fd d ▸ stored)
  hand w member := by
    rw [passed]
    exact linked.hand w (hand.subset member)
  nodup := hand.nodup linked.nodup
  apart w member fd d := by
    rw [slots]
    exact linked.apart w (hand.subset member) fd d

theorem sublist_hand {s t : World K Ev} {w : Waiter} {rest : List Waiter}
    (held : s.hand = w :: rest) (hand : t.hand = rest) : t.hand.Sublist s.hand := by
  rw [held, hand]
  exact List.sublist_cons_self w rest

theorem step_linked (lawful : B.Lawful) {s t : World K Ev} {a : Act Ev Env} (shape : Shape s)
    (linked : Linked s) (step : step B s a = some t) : Linked t := by
  cases step_move lawful step with
  | quiet _ slots hand _ passed _ =>
    exact linked.same slots (hand ▸ List.Sublist.refl _) passed
  | registered f fd d et _ _ valid slots hand _ passed _ =>
    refine ⟨?_, ?_, hand ▸ linked.nodup, ?_⟩
    · intro fd' d' w stored
      rw [slots] at stored
      rw [passed]
      split at stored
      · rename_i slot
        cases Option.some.inj stored
        exact ⟨slot.1.symm, slot.2.symm, slot.1 ▸ valid, getElem?_waiter s f fd d⟩
      · obtain ⟨onFd, onDirection, valid, before⟩ := linked.slot fd' d' w stored
        exact ⟨onFd, onDirection, valid, getElem?_passed before _⟩
    · intro w member
      rw [passed]
      exact getElem?_passed (linked.hand w (hand ▸ member)) _
    · intro w member fd' d' stored
      rw [slots] at stored
      split at stored
      · exact waiter_fresh (linked.hand w (hand ▸ member)) f fd d (Option.some.inj stored).symm
      · exact linked.apart w (hand ▸ member) fd' d' stored
  | refused f fd d et error _ _ slots _ hand _ passed _ =>
    refine ⟨?_, ?_, hand ▸ linked.nodup, ?_⟩
    · intro fd' d' w stored
      rw [passed]
      rcases slots fd' d' w stored with old | ⟨_, _, valid, rfl, rfl, rfl⟩
      · obtain ⟨onFd, onDirection, valid, before⟩ := linked.slot fd' d' w old
        exact ⟨onFd, onDirection, valid, getElem?_passed before _⟩
      · exact ⟨rfl, rfl, valid, getElem?_waiter s f fd' d'⟩
    · intro w member
      rw [passed]
      exact getElem?_passed (linked.hand w (hand ▸ member)) _
    · intro w member fd' d' stored
      rcases slots fd' d' w stored with old | ⟨_, _, _, _, _, same⟩
      · exact linked.apart w (hand ▸ member) fd' d' old
      · exact waiter_fresh (linked.hand w (hand ▸ member)) f fd d same
  | removed fd _ slots hand _ passed _ =>
    refine ⟨?_, by simpa only [hand, passed] using linked.hand, hand ▸ linked.nodup, ?_⟩
    · intro fd' d' w stored
      rw [slots] at stored
      split at stored
      · cases stored
      · rw [passed]
        exact linked.slot fd' d' w stored
    · intro w member fd' d' stored
      rw [slots] at stored
      split at stored
      · cases stored
      · exact linked.apart w (hand ▸ member) fd' d' stored
  | destroyed f _ _ slots hand _ passed _ =>
    exact linked.same slots (hand ▸ List.Sublist.refl _) passed
  | took report rest _ phase _ _ slots hand _ passed _ =>
    -- what is in hand now was in a slot of the event's descriptor, and has been taken out of it
    have source : ∀ w ∈ t.hand, ∃ d, B.covers report.event d = true ∧
        s.loop.slot (B.eventFd report.event) d = some w := by
      intro w member
      rcases hand with taken | ⟨same, _⟩
      · exact EventLoop.mem_taken.mp (taken ▸ member)
      · rw [same, shape.hand (Or.inr (Or.inr phase))] at member
        cases member
    refine ⟨?_, ?_, ?_, ?_⟩
    · intro fd' d' w stored
      rw [slots] at stored
      split at stored
      · cases stored
      · rw [passed]
        exact linked.slot fd' d' w stored
    · intro w member
      obtain ⟨d, _, stored⟩ := source w member
      rw [passed]
      exact (linked.slot _ d w stored).2.2.2
    · rcases hand with taken | ⟨same, _⟩
      · rw [taken]
        exact linked.taken_nodup _ _
      · rw [same]
        exact linked.nodup
    · intro w member fd' d' stored
      obtain ⟨d, covered, before⟩ := source w member
      rw [slots] at stored
      split at stored
      · cases stored
      · rename_i kept
        obtain ⟨onFd, onDirection, _⟩ := linked.slot _ _ _ before
        obtain ⟨onFd', onDirection', _⟩ := linked.slot _ _ _ stored
        exact kept ⟨onFd'.symm.trans onFd, by rw [← onDirection', onDirection]; exact covered⟩
  | gave w rest removed _ held _ slots hand _ passed _ =>
    exact linked.same slots (sublist_hand held hand) passed
  | faulted w rest _ held _ slots hand _ passed _ =>
    exact linked.same slots (sublist_hand held hand) passed

end CoroEpoll.Reactor
