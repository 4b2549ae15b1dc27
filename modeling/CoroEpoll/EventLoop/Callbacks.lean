import CoroEpoll.EventLoop.Run

/-! What becomes of the posted callbacks: each is called once and in order, as long as no
callback throws in front of others.
-/

set_option autoImplicit false

namespace CoroEpoll.Run

variable {Cb : Type}

def Phase.draining : Phase → Bool
  | .drain _ | .callback _ => true
  | _ => false

theorem Phase.draining_iff {phase : Phase} :
    phase.draining = true ↔ ∃ site, phase = .drain site ∨ phase = .callback site := by
  cases phase <;> simp [Phase.draining]

/-- Every posted callback has been called, in order, or is still to be called. Outside a
drain the queue of the drain is empty. -/
structure Accounted (s : World Cb) : Prop where
  order : s.executed ++ s.localTasks ++ s.pending = s.posted
  done : s.phase.draining = false → s.localTasks = []

theorem Site.draining_next (site : Site) : site.next.draining = false := by
  cases site <;> rfl

theorem Site.draining_escape (site : Site) (error : Exception) :
    (site.escape error).draining = false := by
  cases site with
  | top => cases h : error.isStd <;> simp [Site.escape, h, Phase.draining]
  | wakeup => rfl

theorem compact_queues (site : Site) (s : World Cb) :
    (s.compact site).executed = s.executed ∧ (s.compact site).localTasks = s.localTasks ∧
      (s.compact site).pending = s.pending ∧ (s.compact site).posted = s.posted ∧
      (s.compact site).phase.draining = false := by
  unfold World.compact
  dsimp only
  split
  · exact ⟨rfl, rfl, rfl, rfl, site.draining_escape _⟩
  · exact ⟨rfl, rfl, rfl, rfl, site.draining_next⟩

/-- A callback throws only when it is the last one of its drain. -/
def LastThrows (s : World Cb) : Act Cb → Prop
  | .threw _ => s.localTasks = []
  | _ => True

theorem accounted_throw_iff {s : World Cb} (accounted : Accounted s) (site : Site)
    (error : Exception) : Accounted (s.throw site error) ↔ s.localTasks = [] := by
  constructor
  · intro after
    have kept : s.executed ++ [] ++ s.pending = s.executed ++ s.localTasks ++ s.pending :=
      after.order.trans accounted.order.symm
    have lengths := congrArg List.length kept
    simp only [List.length_append, List.length_nil] at lengths
    exact List.eq_nil_of_length_eq_zero (by omega)
  · intro last
    have order := accounted.order
    rw [last] at order
    exact ⟨order, fun _ => rfl⟩

theorem step_accounted_iff {s t : World Cb} {a : Act Cb} (accounted : Accounted s)
    (step : step s a = some t) : Accounted t ↔ LastThrows s a := by
  cases step_move step with
  | threw site error => exact accounted_throw_iff accounted site error
  | push who task =>
    simp only [LastThrows, iff_true]
    refine ⟨?_, accounted.done⟩
    change s.executed ++ s.localTasks ++ (s.pending ++ [task]) = s.posted ++ [task]
    rw [← List.append_assoc, accounted.order]
  | swap site phase =>
    simp only [LastThrows, iff_true]
    have empty := accounted.done (by rw [phase]; rfl)
    refine ⟨?_, nofun⟩
    have order := accounted.order
    rw [empty, List.append_nil] at order
    exact (List.append_nil _).trans order
  | call site task rest phase queue =>
    simp only [LastThrows, iff_true]
    refine ⟨?_, nofun⟩
    have order := accounted.order
    rw [queue] at order
    change s.executed ++ [task] ++ rest ++ s.pending = s.posted
    rw [List.append_assoc s.executed, List.singleton_append]
    exact order
  | drained site phase queue =>
    simp only [LastThrows, iff_true]
    exact ⟨accounted.order, fun _ => queue⟩
  | compact site phase =>
    simp only [LastThrows, iff_true]
    obtain ⟨executed, queue, pending, posted, _⟩ := compact_queues site s
    refine ⟨?_, fun _ => ?_⟩
    · rw [executed, queue, pending, posted]
      exact accounted.order
    · rw [queue]
      exact accounted.done (by rw [phase]; rfl)
  | flag | write | spawn | finish =>
    simp only [LastThrows, iff_true]
    exact ⟨accounted.order, accounted.done⟩
  | returned site phase =>
    simp only [LastThrows, iff_true]
    exact ⟨accounted.order, nofun⟩
  | enter phase | stop phase | goOn phase | wake _ phase | interrupted phase | waitFailed _ _ phase
  | batchDone phase | wakeup _ phase | other _ phase | emptied phase | wasEmpty phase
  | suspended phase =>
    simp only [LastThrows, iff_true]
    exact ⟨accounted.order, fun _ => accounted.done (by rw [phase]; rfl)⟩

theorem start_accounted {s : World Cb} (start : Start s) : Accounted s := by
  refine ⟨?_, fun _ => start.localTasks⟩
  rw [start.executed, start.localTasks, start.pending, start.posted]
  rfl

/-! ## A drain gets to its end -/

/-- What the thread in `run()` does while no callback or coroutine does anything but return, and
the wakeup writes that are still due. -/
def Act.plain : Act Cb → Bool
  | .write _ | .test | .swap | .call | .returned | .drained | .compact | .wake _ | .next | .read
  | .suspended => true
  | .push .. | .flag _ | .spawn _ | .finish .. | .enter | .threw _ | .interrupted
  | .waitFailed .. => false

/-- The loop gets from one state to the other by itself. -/
def Leads (s t : World Cb) : Prop :=
  ∃ actions, (∀ a ∈ actions, Act.plain a = true) ∧ (machine Cb).exec s actions = some t

theorem Leads.refl (s : World Cb) : Leads s s :=
  ⟨[], nofun, rfl⟩

theorem Leads.next {s t u : World Cb} {a : Act Cb} (plain : a.plain = true)
    (taken : step s a = some t) (later : Leads t u) : Leads s u := by
  obtain ⟨actions, all, replay⟩ := later
  refine ⟨a :: actions, ?_, ?_⟩
  · intro b member
    rcases List.mem_cons.mp member with rfl | member
    · exact plain
    · exact all b member
  · rw [Transition.Machine.exec_cons (m := machine Cb) taken]
    exact replay

theorem Leads.trans {s t u : World Cb} (first : Leads s t) (second : Leads t u) : Leads s u := by
  obtain ⟨actions, plain, replay⟩ := first
  induction actions generalizing s with
  | nil => exact Option.some.inj replay ▸ second
  | cons a rest ih =>
    obtain ⟨v, taken, tail⟩ := Transition.Machine.exec_cons_eq_some.mp replay
    apply Leads.next (plain a List.mem_cons_self) taken
    exact ih (fun b member => plain b (List.mem_cons_of_mem a member)) tail

theorem drain_leads {site : Site} {s : World Cb} (phase : s.phase = .drain site)
    (idle : s.op .loop = none) :
    Leads s { s with
      phase := .compact site
      localTasks := []
      executed := s.executed ++ s.localTasks } := by
  generalize queue : s.localTasks = tasks
  induction tasks generalizing s with
  | nil =>
    have drained : step s .drained = some { s with phase := .compact site } := by
      simp only [step, phase, queue]
    apply Leads.next rfl drained
    rw [List.append_nil, ← queue]
    exact .refl _
  | cons task rest ih =>
    have called : step s .call = some (s.call site task rest) := by
      simp only [step, phase, queue]
    have returned : step (s.call site task rest) .returned =
        some { s.call site task rest with phase := .drain site } := by
      simp [step, World.call, World.code, idle]
    apply Leads.next rfl called
    apply Leads.next rfl returned
    have later := ih (s := { s.call site task rest with phase := .drain site }) rfl idle rfl
    rw [World.call, List.append_assoc, List.singleton_append] at later
    exact later

/-- From every state of a drain it gets to its end, and calls all that is left of its queue. -/
theorem drain_completes {site : Site} {s : World Cb}
    (during : s.phase = .drain site ∨ s.phase = .callback site) :
    ∃ t, Leads s t ∧ t.phase = .compact site ∧ t.executed = s.executed ++ s.localTasks ∧
      t.pending = s.pending := by
  have idle : ∀ s : World Cb, s.op .loop = none → s.phase = .drain site ∨ s.phase = .callback site →
      ∃ t, Leads s t ∧ t.phase = .compact site ∧ t.executed = s.executed ++ s.localTasks ∧
        t.pending = s.pending := by
    intro s idle during
    rcases during with phase | phase
    · exact ⟨_, drain_leads phase idle, rfl, rfl, rfl⟩
    · have returned : step s .returned = some { s with phase := .drain site } := by
        simp [step, phase, World.code, idle]
      exact ⟨_, .next rfl returned (drain_leads rfl idle), rfl, rfl, rfl⟩
  -- a callback that is in the middle of a post or a stop brings it to its end first
  cases busy : s.op .loop with
  | none => exact idle s busy during
  | some op =>
    have written : step s (.write .loop) = some (s.write .loop op) := by
      simp only [step, busy]
    obtain ⟨t, leads, ends⟩ := idle (s.write .loop op) (by simp [World.write]) during
    exact ⟨t, .next rfl written leads, ends⟩

end CoroEpoll.Run
