import CoroEpoll.EventLoop.Callbacks

/-! `post` and `stop` against the sleep of the loop, for any number of threads. -/

set_option autoImplicit false

namespace CoroEpoll.Run

variable {Cb : Type}

def Phase.swapAhead : Phase → Bool
  | .swap _ | .read => true
  | _ => false

def Phase.testAhead : Phase → Bool
  | .swap .top | .drain .top | .callback .top | .compact .top | .wait => false
  | _ => true

theorem compact_flags (site : Site) (s : World Cb) :
    (s.compact site).stopped = s.stopped ∧ (s.compact site).signaled = s.signaled ∧
      (s.compact site).op = s.op := by
  unfold World.compact
  dsimp only
  split <;> exact ⟨rfl, rfl, rfl⟩

theorem compact_wakeup (s : World Cb) : (s.compact .wakeup).phase = .batch := by
  unfold World.compact
  dsimp only
  split <;> rfl

/-- What keeps the loop from sleeping through a post or a stop: a step ahead that looks,
a readable wakeup descriptor, or a wakeup write still to come. -/
structure Awake (s : World Cb) : Prop where
  post : s.pending ≠ [] →
    s.phase.swapAhead = true ∨ s.signaled = true ∨ ∃ who, s.op who = some .pushed
  stop : s.stopped = true →
    s.phase.testAhead = true ∨ s.signaled = true ∨ ∃ who, s.op who = some .flagged

theorem op_of_mayAct {s : World Cb} {who : Agent} (may : s.mayAct who = true) : s.op who = none := by
  cases who with
  | loop =>
    simp only [World.mayAct, World.code, Bool.and_eq_true, beq_iff_eq] at may
    exact may.1
  | thread id => simpa only [World.mayAct, beq_iff_eq] using may

theorem op_update {s : World Cb} {who : Agent} (may : s.mayAct who = true) {op op' : Op}
    (held : ∃ other, s.op other = some op') :
    ∃ other, Function.update s.op who (some op) other = some op' := by
  obtain ⟨other, found⟩ := held
  have different : other ≠ who := by
    rintro rfl
    rw [op_of_mayAct may] at found
    cases found
  exact ⟨other, (Function.update_of_ne different ..).trans found⟩

theorem Awake.move {s t : World Cb} (awake : Awake s) (pending : t.pending = s.pending)
    (stopped : t.stopped = s.stopped) (signaled : t.signaled = s.signaled) (op : t.op = s.op)
    (swap : s.phase.swapAhead = true → t.phase.swapAhead = true)
    (test : s.phase.testAhead = true → t.stopped = true → t.phase.testAhead = true) : Awake t := by
  constructor
  · rw [pending, signaled, op]
    intro nonempty
    exact (awake.post nonempty).imp_left swap
  · intro flagged
    rw [signaled, op]
    exact (awake.stop (stopped ▸ flagged)).imp_left fun ahead => test ahead flagged

theorem step_awake {s t : World Cb} {a : Act Cb} (awake : Awake s) (step : step s a = some t) :
    Awake t := by
  cases step_move step with
  | push who task may =>
    refine ⟨fun _ => Or.inr (Or.inr ⟨who, Function.update_self ..⟩), fun flagged => ?_⟩
    rcases awake.stop flagged with ahead | signaled | held
    · exact Or.inl ahead
    · exact Or.inr (Or.inl signaled)
    · exact Or.inr (Or.inr (op_update may held))
  | flag who may =>
    refine ⟨fun nonempty => ?_, fun _ => Or.inr (Or.inr ⟨who, Function.update_self ..⟩)⟩
    rcases awake.post nonempty with ahead | signaled | held
    · exact Or.inl ahead
    · exact Or.inr (Or.inl signaled)
    · exact Or.inr (Or.inr (op_update may held))
  | write who op => exact ⟨fun _ => Or.inr (Or.inl rfl), fun _ => Or.inr (Or.inl rfl)⟩
  | swap site phase =>
    refine ⟨fun nonempty => absurd rfl nonempty, fun flagged => ?_⟩
    rcases awake.stop flagged with ahead | later
    · refine Or.inl ?_
      rw [phase] at ahead
      cases site <;> exact ahead
    · exact Or.inr later
  | emptied phase signaled =>
    -- the swap that follows the read takes what the consumed write announced
    refine ⟨fun _ => Or.inl ?_, fun _ => Or.inl ?_⟩
    · rw [phase]
      rfl
    · rw [phase]
      rfl
  | goOn phase stopped =>
    apply awake.move <;> try rfl
    · exact fun _ => rfl
    · intro _ flagged
      rw [show s.stopped = true from flagged] at stopped
      cases stopped
  | wasEmpty => exact awake.move rfl rfl rfl rfl (fun _ => rfl) (fun _ _ => rfl)
  | spawn | finish => exact awake.move rfl rfl rfl rfl id (fun ahead _ => ahead)
  | enter phase | stop phase | wake _ phase | interrupted phase | waitFailed _ _ phase
  | batchDone phase | wakeup _ phase | other _ phase | suspended phase =>
    exact awake.move rfl rfl rfl rfl (by rw [phase]; nofun) (fun _ _ => rfl)
  | call site _ _ phase | returned site phase | drained site phase | threw site error phase =>
    apply awake.move <;> try rfl
    · rw [phase]
      nofun
    · rw [phase]
      cases site with
      | top => nofun
      | wakeup => exact fun _ _ => rfl
  | compact site phase =>
    apply awake.move
    · exact (compact_queues site s).2.2.1
    · exact (compact_flags site s).1
    · exact (compact_flags site s).2.1
    · exact (compact_flags site s).2.2
    · rw [phase]
      nofun
    · rw [phase]
      cases site with
      | top => nofun
      | wakeup => exact fun _ _ => compact_wakeup s ▸ rfl

/-- Where no step ahead looks, what has not been heard of is a post not yet written. -/
theorem Awake.unheard {s : World Cb} (awake : Awake s) (behind : s.phase.swapAhead = false)
    (silent : s.signaled = false) (nonempty : s.pending ≠ []) :
    ∃ who, s.op who = some .pushed := by
  rcases awake.post nonempty with ahead | signaled | pushed
  · rw [behind] at ahead
    cases ahead
  · rw [silent] at signaled
    cases signaled
  · exact pushed

theorem Awake.unheard_stop {s : World Cb} (awake : Awake s) (behind : s.phase.testAhead = false)
    (silent : s.signaled = false) (stopped : s.stopped = true) :
    ∃ who, s.op who = some .flagged := by
  rcases awake.stop stopped with ahead | signaled | flagged
  · rw [behind] at ahead
    cases ahead
  · rw [silent] at signaled
    cases signaled
  · exact flagged

theorem start_awake {s : World Cb} (start : Start s) : Awake s where
  post nonempty := absurd start.pending nonempty
  stop flagged := by
    rw [start.stopped] at flagged
    cases flagged

def NoThrow : Act Cb → Bool
  | .threw _ => false
  | _ => true

theorem reachable_accounted {s : World Cb}
    (reached : (machine Cb).ReachableWhere (fun _ a => NoThrow a = true) s) : Accounted s := by
  have preserves : ∀ s a t, Accounted s → NoThrow a = true → (machine Cb).step s a = some t →
      Accounted t := by
    intro s a t accounted quiet step
    apply (step_accounted_iff accounted step).mpr
    cases a with
    | threw error => cases quiet
    | _ => trivial
  exact reached.invariant (fun _ start => start_accounted start) preserves

/-- Between two swaps the callbacks called and those left of the drain are the same. -/
theorem step_drain {s t : World Cb} {a : Act Cb} (quiet : NoThrow a = true) (other : a ≠ .swap)
    (step : step s a = some t) : t.executed ++ t.localTasks = s.executed ++ s.localTasks := by
  cases step_move step with
  | swap => exact absurd rfl other
  | threw => cases quiet
  | call site task rest phase queue =>
    rw [queue]
    exact List.append_assoc ..
  | compact site phase =>
    obtain ⟨executed, queue, _⟩ := compact_queues site s
    rw [executed, queue]
  | _ => rfl

theorem exec_drain {s t : World Cb} {actions : List (Act Cb)}
    (quiet : ∀ a ∈ actions, NoThrow a = true ∧ a ≠ .swap)
    (replay : (machine Cb).exec s actions = some t) :
    t.executed ++ t.localTasks = s.executed ++ s.localTasks := by
  induction actions generalizing s with
  | nil => rw [Option.some.inj replay]
  | cons a rest ih =>
    obtain ⟨u, step, tail⟩ := Transition.Machine.exec_cons_eq_some.mp replay
    have head := quiet a List.mem_cons_self
    rw [ih (fun b member => quiet b (List.mem_cons_of_mem a member)) tail]
    exact step_drain head.1 head.2 step

end CoroEpoll.Run
