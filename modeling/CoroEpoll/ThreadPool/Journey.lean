import CoroEpoll.ThreadPool.Callers

/-! The way of an await: through the workers, its shared state, the queue of a loop and its
coroutine. -/

set_option autoImplicit false

namespace CoroEpoll.Submit

variable {n : Nat} {V : Type}

/-! ## The workers -/

def Past (pool : ThreadPool.World n Caller Nat) (stage : Fin n → Stage) (point : Stage → Prop)
    (id : Nat) : Prop :=
  id ∈ pool.executed ∨ ∃ w, pool.workers w = .running id ∧ point (stage w)

structure Work (pool : ThreadPool.World n Caller Nat) (stage : Fin n → Stage)
    (called posted : List Nat) : Prop where
  busy : ∀ w, stage w ≠ .calling → ∃ id, pool.workers w = .running id
  callers : ∀ id, id ∈ called ↔ Past pool stage (· ≠ .calling) id
  posters : ∀ id, id ∈ posted ↔ Past pool stage (· = .returning) id
  calledOnce : called.Nodup
  postedOnce : posted.Nodup

section

variable {pool pool' : ThreadPool.World n Caller Nat} {stage : Fin n → Stage}
  {called posted : List Nat} {point : Stage → Prop} {w : Fin n} {id : Nat}

theorem Past.accepted (inv : ThreadPool.Inv pool) (past : Past pool stage point id) :
    id ∈ pool.accepted := by
  rcases past with executed | ⟨w, running, _⟩
  · exact inv.executed_accepted executed
  · exact inv.running_accepted running

/-- A task that is not past a point in the hands of its worker is not past it at all. -/
theorem not_past (inv : ThreadPool.Inv pool) (distinct : pool.accepted.Nodup)
    (running : pool.workers w = .running id) (before : ¬ point (stage w)) :
    ¬ Past pool stage point id := by
  rintro (executed | ⟨w', running', after⟩)
  · exact inv.not_executed distinct running executed
  · cases inv.running_unique distinct running running'
    exact before after

theorem past_iff_of_stays (executed : pool'.executed = pool.executed)
    (stays : ∀ w id, pool.workers w = .running id → pool'.workers w = .running id)
    (busy : ∀ w, point (stage w) → ∃ id, pool.workers w = .running id) :
    Past pool' stage point id ↔ Past pool stage point id := by
  unfold Past
  rw [executed]
  apply or_congr_right
  constructor
  -- a worker past the point has had its task all along
  · rintro ⟨w, running, here⟩
    obtain ⟨id', running'⟩ := busy w here
    cases (stays w id' running').symm.trans running
    exact ⟨w, running', here⟩
  · rintro ⟨w, running, here⟩
    exact ⟨w, stays w id running, here⟩

theorem past_update_iff {after : Stage} (running : pool.workers w = .running id)
    (before : ¬ point (stage w)) (passed : point after) (id' : Nat) :
    Past pool (Function.update stage w after) point id' ↔
      Past pool stage point id' ∨ id' = id := by
  constructor
  · rintro (executed | ⟨w', running', here⟩)
    · exact .inl (.inl executed)
    · by_cases same : w' = w
      · subst same
        cases running.symm.trans running'
        exact .inr rfl
      · rw [Function.update_of_ne same] at here
        exact .inl (.inr ⟨w', running', here⟩)
  · rintro ((executed | ⟨w', running', here⟩) | rfl)
    · exact .inl executed
    · have other : w' ≠ w := by
        rintro rfl
        exact before here
      exact .inr ⟨w', running', by rwa [Function.update_of_ne other]⟩
    · exact .inr ⟨w, running, by rwa [Function.update_self]⟩

theorem past_update_same {after : Stage} (same : point after ↔ point (stage w)) (id' : Nat) :
    Past pool (Function.update stage w after) point id' ↔ Past pool stage point id' := by
  have points : ∀ w', point (Function.update stage w after w') ↔ point (stage w') := by
    intro w'
    by_cases here : w' = w
    · rw [here, Function.update_self, same]
    · rw [Function.update_of_ne here]
  simp only [Past, points]

theorem Work.inner (work : Work pool stage called posted)
    (executed : pool'.executed = pool.executed)
    (stays : ∀ w id, pool.workers w = .running id → pool'.workers w = .running id) :
    Work pool' stage called posted where
  busy w here := by
    obtain ⟨id, running⟩ := work.busy w here
    exact ⟨id, stays w id running⟩
  callers id := by rw [work.callers, past_iff_of_stays executed stays work.busy]
  posters id := by
    rw [work.posters, past_iff_of_stays executed stays]
    intro w returning
    exact work.busy w (by simp [returning])
  calledOnce := work.calledOnce
  postedOnce := work.postedOnce

theorem Work.uncalled (work : Work pool stage called posted) (inv : ThreadPool.Inv pool)
    (distinct : pool.accepted.Nodup) (running : pool.workers w = .running id)
    (calling : stage w = .calling) : id ∉ called := by
  rw [work.callers]
  exact not_past inv distinct running (by simp [calling])

theorem nodup_concat {l : List Nat} (nodup : l.Nodup) (fresh : id ∉ l) : (l ++ [id]).Nodup := by
  rw [List.nodup_append_comm]
  exact List.nodup_cons.mpr ⟨fresh, nodup⟩

theorem busy_update {after : Stage} (running : pool.workers w = .running id)
    (busy : ∀ w, stage w ≠ .calling → ∃ id, pool.workers w = .running id) (w' : Fin n)
    (here : Function.update stage w after w' ≠ .calling) : ∃ id, pool.workers w' = .running id := by
  by_cases same : w' = w
  · exact ⟨id, same ▸ running⟩
  · rw [Function.update_of_ne same] at here
    exact busy w' here

theorem Work.call (work : Work pool stage called posted) (inv : ThreadPool.Inv pool)
    (distinct : pool.accepted.Nodup) (running : pool.workers w = .running id)
    (calling : stage w = .calling) :
    Work pool (Function.update stage w .posting) (called ++ [id]) posted where
  busy := busy_update running work.busy
  callers id' := by
    rw [List.mem_append, List.mem_singleton, work.callers,
      past_update_iff running (by simp [calling]) (by simp)]
  posters id' := by rw [work.posters, past_update_same (by simp [calling])]
  calledOnce := nodup_concat work.calledOnce (work.uncalled inv distinct running calling)
  postedOnce := work.postedOnce

theorem Work.post (work : Work pool stage called posted) (inv : ThreadPool.Inv pool)
    (distinct : pool.accepted.Nodup) (running : pool.workers w = .running id)
    (posting : stage w = .posting) :
    Work pool (Function.update stage w .returning) called (posted ++ [id]) where
  busy := busy_update running work.busy
  callers id' := by rw [work.callers, past_update_same (by simp [posting])]
  posters id' := by
    rw [List.mem_append, List.mem_singleton, work.posters,
      past_update_iff running (by simp [posting]) (by simp)]
  calledOnce := work.calledOnce
  postedOnce := by
    apply nodup_concat work.postedOnce
    rw [work.posters]
    exact not_past inv distinct running (by simp [posting])

theorem past_finish (running : pool.workers w = .running id) (here : point (stage w))
    (not_calling : ¬ point .calling) (id' : Nat) :
    Past { pool with
      workers := Function.update pool.workers w .looping
      executed := pool.executed ++ [id] } (Function.update stage w .calling) point id' ↔
    Past pool stage point id' := by
  constructor
  · rintro (executed | ⟨w', running', after⟩)
    · rcases List.mem_append.mp executed with before | last
      · exact .inl before
      · cases List.mem_singleton.mp last
        exact .inr ⟨w, running, here⟩
    · have other : w' ≠ w := by
        rintro rfl
        rw [Function.update_self] at after
        exact not_calling after
      rw [Function.update_of_ne other] at after
      exact .inr ⟨w', (Function.update_of_ne other ..).symm.trans running', after⟩
  · rintro (executed | ⟨w', running', after⟩)
    · exact .inl (List.mem_append_left _ executed)
    · by_cases same : w' = w
      · subst same
        cases running.symm.trans running'
        exact .inl (List.mem_append_right _ (List.mem_singleton_self _))
      · refine .inr ⟨w', (Function.update_of_ne same ..).trans running', ?_⟩
        rwa [Function.update_of_ne same]

theorem Work.finish (work : Work pool stage called posted)
    (running : pool.workers w = .running id) (returning : stage w = .returning) :
    Work { pool with
      workers := Function.update pool.workers w .looping
      executed := pool.executed ++ [id] } (Function.update stage w .calling) called posted where
  busy w' here := by
    have other : w' ≠ w := by
      rintro rfl
      exact here (Function.update_self ..)
    rw [Function.update_of_ne other] at here
    obtain ⟨id', running'⟩ := work.busy w' here
    exact ⟨id', (Function.update_of_ne other ..).trans running'⟩
  callers id' := by rw [work.callers, past_finish running (by simp [returning]) (by simp)]
  posters id' := by rw [work.posters, past_finish running returning (by simp)]
  calledOnce := work.calledOnce
  postedOnce := work.postedOnce

end

/-! ## The shared states -/

structure Slots (awaiters : List Awaiter) (states : Nat → ThreadPoolState V)
    (called : List (Nat × Outcome V)) (posted : List (Nat × Nat)) : Prop where
  continuation : ∀ id awaiter, awaiters[id]? = some awaiter →
    (states id).continuation = awaiter.coroutine
  blank : ∀ id, id ∉ called.map Prod.fst → (states id).value = none ∧ (states id).exception = none
  recorded : ∀ id outcome, (id, outcome) ∈ called → ∃ awaiter, awaiters[id]? = some awaiter ∧
    (states id).awaitResume awaiter.isVoid = some outcome
  ownLoop : ∀ id loop, (id, loop) ∈ posted → ∃ awaiter, awaiters[id]? = some awaiter ∧
    awaiter.continuationLoop = loop

theorem awaitResume_record {state : ThreadPoolState V} {outcome : Outcome V} {isVoid : Bool}
    (blank : state.value = none ∧ state.exception = none) (fits : outcome.fits isVoid = true) :
    (state.record outcome).awaitResume isVoid = some outcome := by
  match outcome with
  | .threw error => rfl
  | .returned none =>
    cases isVoid with
    | true => simp [ThreadPoolState.record, ThreadPoolState.awaitResume, blank.2]
    | false => cases fits
  | .returned (some value) =>
    cases isVoid with
    | true => cases fits
    | false => simp [ThreadPoolState.record, ThreadPoolState.awaitResume, blank.2]

section

variable {awaiters : List Awaiter} {states : Nat → ThreadPoolState V}
  {called : List (Nat × Outcome V)} {posted : List (Nat × Nat)} {id : Nat} {awaiter : Awaiter}

theorem lt_of_getElem? (known : awaiters[id]? = some awaiter) : id < awaiters.length := by
  obtain ⟨bound, _⟩ := List.getElem?_eq_some_iff.mp known
  exact bound

theorem getElem?_concat (last : Awaiter) (known : awaiters[id]? = some awaiter) :
    (awaiters ++ [last])[id]? = some awaiter := by
  rw [List.getElem?_append_left (lt_of_getElem? known), known]

theorem Slots.await (slots : Slots awaiters states called posted) (last : Awaiter) :
    Slots (awaiters ++ [last]) (Function.update states awaiters.length { continuation := last.coroutine })
      called posted where
  continuation id awaiter known := by
    by_cases new : id = awaiters.length
    · subst new
      rw [List.getElem?_append_right (Nat.le_refl _), Nat.sub_self] at known
      cases known
      rw [Function.update_self]
    · rw [Function.update_of_ne new]
      have bound := lt_of_getElem? known
      rw [List.length_append, List.length_singleton] at bound
      rw [List.getElem?_append_left (by omega)] at known
      exact slots.continuation id awaiter known
  blank id uncalled := by
    by_cases new : id = awaiters.length
    · rw [new, Function.update_self]
      exact ⟨rfl, rfl⟩
    · rw [Function.update_of_ne new]
      exact slots.blank id uncalled
  recorded id outcome here := by
    obtain ⟨awaiter, known, sees⟩ := slots.recorded id outcome here
    refine ⟨awaiter, getElem?_concat last known, ?_⟩
    rwa [Function.update_of_ne (Nat.ne_of_lt (lt_of_getElem? known))]
  ownLoop id loop here := by
    obtain ⟨awaiter, known, own⟩ := slots.ownLoop id loop here
    exact ⟨awaiter, getElem?_concat last known, own⟩

theorem record_continuation (state : ThreadPoolState V) (outcome : Outcome V) :
    (state.record outcome).continuation = state.continuation := by
  match outcome with
  | .threw _ | .returned none | .returned (some _) => rfl

theorem Slots.call (slots : Slots awaiters states called posted) {outcome : Outcome V}
    (known : awaiters[id]? = some awaiter) (uncalled : id ∉ called.map Prod.fst)
    (fits : outcome.fits awaiter.isVoid = true) :
    Slots awaiters (Function.update states id ((states id).record outcome))
      (called ++ [(id, outcome)]) posted where
  continuation id' awaiter' known' := by
    by_cases same : id' = id
    · subst same
      rw [Function.update_self, record_continuation]
      exact slots.continuation id' awaiter' known'
    · rw [Function.update_of_ne same]
      exact slots.continuation id' awaiter' known'
  -- only its own call writes to a state
  blank id' uncalled' := by
    rw [List.map_append, List.mem_append, not_or] at uncalled'
    have other : id' ≠ id := by simpa using uncalled'.2
    rw [Function.update_of_ne other]
    exact slots.blank id' uncalled'.1
  recorded id' outcome' here := by
    rcases List.mem_append.mp here with before | last
    · have other : id' ≠ id := by
        rintro rfl
        exact uncalled (List.mem_map_of_mem before)
      rw [Function.update_of_ne other]
      exact slots.recorded id' outcome' before
    · cases List.mem_singleton.mp last
      refine ⟨awaiter, known, ?_⟩
      rw [Function.update_self]
      exact awaitResume_record (slots.blank id uncalled) fits
  ownLoop := slots.ownLoop

theorem Slots.post (slots : Slots awaiters states called posted)
    (known : awaiters[id]? = some awaiter) :
    Slots awaiters states called (posted ++ [(id, awaiter.continuationLoop)]) where
  continuation := slots.continuation
  blank := slots.blank
  recorded := slots.recorded
  ownLoop id' loop here := by
    rcases List.mem_append.mp here with before | last
    · exact slots.ownLoop id' loop before
    · cases List.mem_singleton.mp last
      exact ⟨awaiter, known, rfl⟩

end

/-! ## The loops -/

def Callback.resumes : Callback → Option Nat
  | .resume id => some id
  | .other _ => none

def Loop.due (loop : Loop) : List Nat :=
  loop.localTasks.filterMap Callback.resumes ++ loop.pendingTasks.filterMap Callback.resumes

def postedOn (posted : List (Nat × Nat)) (loop : Nat) : List Nat :=
  (posted.filter fun post => post.2 = loop).map Prod.fst

def resumedOn (resumed : List (Resumption V)) (loop : Nat) : List Nat :=
  (resumed.filter fun resumption => resumption.loop = loop).map Resumption.id

structure Queues (loops : Nat → Loop) (posted : List (Nat × Nat)) (resumed : List (Resumption V)) :
    Prop where
  delivered : ∀ loop, postedOn posted loop = resumedOn resumed loop ++ (loops loop).due
  once : (resumed.map Resumption.id).Nodup

section

variable {loops : Nat → Loop} {posted : List (Nat × Nat)} {resumed : List (Resumption V)}
  {loop id : Nat} {rest : List Callback}

theorem postedOn_nodup (once : (posted.map Prod.fst).Nodup) (loop : Nat) :
    (postedOn posted loop).Nodup :=
  once.sublist (List.filter_sublist.map _)

theorem mem_postedOn : id ∈ postedOn posted loop ↔ (id, loop) ∈ posted := by
  simp [postedOn]

theorem mem_resumedOn {resumption : Resumption V} (here : resumption ∈ resumed) :
    resumption.id ∈ resumedOn resumed resumption.loop :=
  List.mem_map_of_mem (List.mem_filter.mpr ⟨here, by simp⟩)

theorem Queues.posted_of_due (queues : Queues loops posted resumed)
    (due : id ∈ (loops loop).due) : (id, loop) ∈ posted := by
  rw [← mem_postedOn, queues.delivered]
  exact List.mem_append_right _ due

theorem Queues.posted_of_resumed (queues : Queues loops posted resumed)
    {resumption : Resumption V} (here : resumption ∈ resumed) :
    (resumption.id, resumption.loop) ∈ posted := by
  rw [← mem_postedOn, queues.delivered]
  exact List.mem_append_left _ (mem_resumedOn here)

theorem loop_unique (once : (posted.map Prod.fst).Nodup) {loop' : Nat} (here : (id, loop) ∈ posted)
    (there : (id, loop') ∈ posted) : loop = loop' :=
  congrArg Prod.snd (List.inj_on_of_nodup_map once here there rfl)

theorem Queues.not_resumed (queues : Queues loops posted resumed)
    (once : (posted.map Prod.fst).Nodup) (due : id ∈ (loops loop).due) :
    id ∉ resumed.map Resumption.id := by
  intro already
  obtain ⟨resumption, here, rfl⟩ := List.mem_map.mp already
  -- it would stand twice among what was posted to its loop
  have same := loop_unique once (queues.posted_of_due due) (queues.posted_of_resumed here)
  have nodup := postedOn_nodup once loop
  rw [queues.delivered] at nodup
  have before : resumption.id ∈ resumedOn resumed loop := same ▸ mem_resumedOn here
  exact (List.nodup_append.mp nodup).2.2 _ before _ due rfl

theorem Queues.same (queues : Queues loops posted resumed) {after : Loop}
    (due : after.due = (loops loop).due) :
    Queues (Function.update loops loop after) posted resumed where
  delivered loop' := by
    by_cases here : loop' = loop
    · rw [here, Function.update_self, due, queues.delivered]
    · rw [Function.update_of_ne here, queues.delivered]
  once := queues.once

theorem Queues.post (queues : Queues loops posted resumed) :
    Queues (Function.update loops loop
      { loops loop with pendingTasks := (loops loop).pendingTasks ++ [.resume id] })
      (posted ++ [(id, loop)]) resumed where
  delivered loop' := by
    have more : postedOn (posted ++ [(id, loop)]) loop' =
        postedOn posted loop' ++ if loop = loop' then [id] else [] := by
      by_cases here : loop = loop' <;> simp [postedOn, here]
    rw [more, queues.delivered]
    by_cases here : loop' = loop
    · subst here
      simp [Function.update_self, Loop.due, Callback.resumes]
    · rw [Function.update_of_ne here, if_neg (Ne.symm here), List.append_nil]
  once := queues.once

theorem Queues.resume (queues : Queues loops posted resumed) (once : (posted.map Prod.fst).Nodup)
    {outcome : Outcome V} (tasks : (loops loop).localTasks = .resume id :: rest) :
    Queues (Function.update loops loop { loops loop with localTasks := rest }) posted
      (resumed ++ [⟨id, loop, outcome⟩]) where
  delivered loop' := by
    rw [queues.delivered]
    by_cases here : loop' = loop
    · subst here
      simp [Function.update_self, Loop.due, Callback.resumes, tasks, resumedOn]
    · rw [Function.update_of_ne here]
      simp [resumedOn, Ne.symm here]
  once := by
    have due : id ∈ (loops loop).due := by simp [Loop.due, tasks, Callback.resumes]
    rw [List.map_append]
    exact nodup_concat queues.once (queues.not_resumed once due)

end

/-! ## The coroutines -/

/-- A coroutine is suspended at its await from `await_suspend` until it has gone on. -/
def Suspends (awaiters : List Awaiter) (suspended : Nat → Option Nat) (gone : Nat → Prop) : Prop :=
  ∀ coroutine id, suspended coroutine = some id ↔
    ∃ awaiter, awaiters[id]? = some awaiter ∧ awaiter.coroutine = coroutine ∧ ¬ gone id

section

variable {awaiters : List Awaiter} {suspended : Nat → Option Nat} {gone : Nat → Prop}

theorem Suspends.await (suspends : Suspends awaiters suspended gone) {last : Awaiter}
    (awake : suspended last.coroutine = none) (fresh : ¬ gone awaiters.length) :
    Suspends (awaiters ++ [last])
      (Function.update suspended last.coroutine (some awaiters.length)) gone := by
  intro coroutine id
  by_cases new : id = awaiters.length
  · subst new
    rw [List.getElem?_append_right (Nat.le_refl _), Nat.sub_self]
    by_cases here : coroutine = last.coroutine
    · subst here
      simp [fresh]
    -- nobody is suspended at an await that is yet to come
    · have elsewhere : suspended coroutine ≠ some awaiters.length := by
        intro at_last
        obtain ⟨awaiter, known, _⟩ := (suspends coroutine _).mp at_last
        exact Nat.lt_irrefl _ (lt_of_getElem? known)
      simp [Function.update_of_ne here, elsewhere, Ne.symm here]
  · have known_iff : ∀ awaiter, (awaiters ++ [last])[id]? = some awaiter ↔
        awaiters[id]? = some awaiter := by
      intro awaiter
      constructor
      · intro known
        have bound := lt_of_getElem? known
        rw [List.length_append, List.length_singleton] at bound
        rwa [List.getElem?_append_left (by omega)] at known
      · exact getElem?_concat last
    simp only [known_iff, ← suspends coroutine id]
    by_cases here : coroutine = last.coroutine
    · subst here
      simp [awake, Ne.symm new]
    · rw [Function.update_of_ne here]

theorem Suspends.goOn (suspends : Suspends awaiters suspended gone) {id : Nat} {awaiter : Awaiter}
    (known : awaiters[id]? = some awaiter) (still : ¬ gone id) :
    Suspends awaiters (Function.update suspended awaiter.coroutine none)
      fun id' => gone id' ∨ id' = id := by
  have here : suspended awaiter.coroutine = some id :=
    (suspends _ _).mpr ⟨awaiter, known, rfl, still⟩
  intro coroutine id'
  by_cases same : coroutine = awaiter.coroutine
  · subst same
    rw [Function.update_self]
    -- another await of the coroutine cannot be the one where it is suspended
    refine ⟨nofun, ?_⟩
    rintro ⟨awaiter', known', own, staying⟩
    rw [not_or] at staying
    have there := (suspends awaiter.coroutine id').mpr ⟨awaiter', known', own, staying.1⟩
    exact absurd (Option.some.inj (there.symm.trans here)) staying.2
  · rw [Function.update_of_ne same, suspends]
    constructor
    · rintro ⟨awaiter', known', own, staying⟩
      refine ⟨awaiter', known', own, not_or.mpr ⟨staying, ?_⟩⟩
      rintro rfl
      cases known.symm.trans known'
      exact same own.symm
    · rintro ⟨awaiter', known', own, staying⟩
      exact ⟨awaiter', known', own, (not_or.mp staying).1⟩

theorem Suspends.congr (suspends : Suspends awaiters suspended gone) {gone' : Nat → Prop}
    (same : ∀ id, gone' id ↔ gone id) : Suspends awaiters suspended gone' := by
  intro coroutine id
  rw [suspends, same]

end

end CoroEpoll.Submit
