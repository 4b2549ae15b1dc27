import CoroEpoll.Task.Direct

/-! How deep the calls of `resume()` nest on the native stack. -/

set_option autoImplicit false

namespace CoroEpoll.Task

open Routines

variable {L : Lang} {program : L.Fn → Routine L}

def NestsOnce (s : World L) : Prop := (s.native.map Resume.handle).Nodup

/-- The continuation that the next step resumes from a final suspend, if the next step is
the end of a body. -/
def World.continues (s : World L) : Option Handle :=
  match s.native with
  | ⟨handle, .body⟩ :: _ =>
    match s.frames handle with
    | some frame =>
      match frame.point, frame.body with
      | none, some body =>
        match body.turn with
        | .ends _ => frame.promise.continuation
        | _ => none
      | _, _ => none
    | none => none
  | _ => none

/-- No body ends while its parent is still in the `await_suspend` that resumed it. -/
def EndsLate (s : World L) : Act L → Prop
  | .tick => ∀ parent ∈ s.continues, ⟨parent, .awaitSuspend⟩ ∉ s.native
  | _ => True

structure Layered (s : World L) : Prop where
  created : ∀ record ∈ s.native, record.handle < s.next
  final : ∀ record ∈ s.native, record.site = .finalSuspend →
    ∀ frame, s.frames record.handle = some frame → frame.point = some .final

theorem boot_layered : Layered (.boot L) :=
  ⟨nofun, nofun⟩

theorem Layered.ne_of_undone {s : World L} (layered : Layered s) {handle : Handle}
    {frame : Frame L} (found : s.frames handle = some frame) (undone : frame.point ≠ some .final)
    {record : Resume} (member : record ∈ s.native) (final : record.site = .finalSuspend) :
    record.handle ≠ handle := by
  intro same
  exact undone (layered.final record member final frame (same ▸ found))

theorem Layered.setFrame {s : World L} (layered : Layered s) {handle : Handle}
    {frame next : Frame L} (found : s.frames handle = some frame) (undone : frame.point ≠ some .final)
    {record : Resume} (member : record ∈ s.native) (final : record.site = .finalSuspend) :
    ∀ other, Function.update s.frames handle (some next) record.handle = some other →
      other.point = some .final := by
  intro other there
  rw [Function.update_of_ne (layered.ne_of_undone found undone member final)] at there
  exact layered.final record member final other there

theorem below_native {s : World L} {top : Resume} {rest : List Resume}
    (native : s.native = top :: rest) : ∀ record ∈ rest, record ∈ s.native := by
  intro record member
  rw [native]
  exact List.mem_cons_of_mem top member

theorem Layered.tick {s t : World L} (layered : Layered s) (refines : Refines program s)
    (moves : Moves program s t) : Layered t := by
  cases moves with
  | @returns _ rest native =>
    have kept := below_native native
    exact ⟨fun record member => layered.created record (kept record member),
      fun record member => layered.final record (kept record member)⟩
  | @goes handle frame rest body next native found runs =>
    have undone : frame.point ≠ some .final := runs ▸ nofun
    exact ⟨layered.created, fun record => layered.setFrame found undone⟩
  | @waits handle frame rest body event resume native found runs =>
    have kept := below_native native
    have undone : frame.point ≠ some .final := runs ▸ nofun
    exact ⟨fun record member => layered.created record (kept record member),
      fun record member => layered.setFrame found undone (kept record member)⟩
  | @calls handle frame rest body callee env resume native found runs code turn fresh =>
    have kept := below_native native
    have undone : frame.point ≠ some .final := runs ▸ nofun
    constructor
    · intro record member
      rcases List.mem_cons.mp member with rfl | member
      · exact Nat.lt_succ_self _
      · rcases List.mem_cons.mp member with rfl | member
        · exact Nat.lt_succ_of_lt (refines.lt_next found)
        · exact Nat.lt_succ_of_lt (layered.created record (kept record member))
    · intro record member final other there
      rcases List.mem_cons.mp member with rfl | member
      · cases final
      · rcases List.mem_cons.mp member with rfl | member
        · cases final
        · have older := layered.created record (kept record member)
          have before : (s.setFrame handle { frame with point := some (.await s.next) }).frames
              record.handle = some other :=
            (Function.update_of_ne (Nat.ne_of_lt older) _ _).symm.trans there
          exact layered.setFrame found undone (kept record member) final other before
  | @ends handle parent frame caller rest body flow native found runs code turn outer callerFound =>
    have kept := below_native native
    have undone : frame.point ≠ some .final := runs ▸ nofun
    constructor
    · intro record member
      rcases List.mem_cons.mp member with rfl | member
      · exact refines.lt_next callerFound
      · rcases List.mem_cons.mp member with rfl | member
        · exact refines.lt_next found
        · exact layered.created record (kept record member)
    · intro record member final other there
      rcases List.mem_cons.mp member with rfl | member
      · cases final
      · rcases List.mem_cons.mp member with rfl | member
        · cases (Function.update_self handle _ s.frames).symm.trans there
          rfl
        · exact layered.setFrame found undone (kept record member) final other there
  | @completes handle frame rest body flow native found runs =>
    have kept := below_native native
    have undone : frame.point ≠ some .final := runs ▸ nofun
    exact ⟨fun record member => layered.created record (kept record member),
      fun record member => layered.setFrame found undone (kept record member)⟩
  -- the child is destroyed, so that nothing is asked of it any more
  | @resumes handle child frame awaited rest body callee env resume outcome native found point =>
    have undone : frame.point ≠ some .final := point ▸ nofun
    refine ⟨layered.created, fun record member final other there => ?_⟩
    have apart := layered.ne_of_undone found undone member final
    have before : Function.update s.frames child none record.handle = some other :=
      (Function.update_of_ne apart _ _).symm.trans there
    by_cases destroyed : record.handle = child
    · rw [destroyed, Function.update_self] at before
      cases before
    · rw [Function.update_of_ne destroyed] at before
      exact layered.final record member final other before

theorem Layered.step {s t : World L} {a : Act L} (layered : Layered s)
    (refines : Refines program s) (step : (machine program).step s a = some t) : Layered t := by
  cases a with
  | spawn fn env =>
    obtain ⟨idle, spawns⟩ := Option.ite_none_right_eq_some.mp step
    rw [World.spawn_eq, idle] at spawns
    cases spawns
    constructor
    · intro record member
      rw [List.mem_singleton.mp member]
      exact Nat.lt_succ_self _
    · intro record member final
      rw [List.mem_singleton.mp member] at final
      cases final
  | deliver handle reply =>
    obtain ⟨idle, delivers⟩ := Option.ite_none_right_eq_some.mp step
    obtain ⟨frame, body, event, expected, resume, found, point, code, turn, rfl⟩ :=
      World.deliver_eq_some delivers
    constructor
    · intro record member
      rw [List.mem_singleton.mp member]
      exact refines.lt_next found
    · intro record member final
      rw [List.mem_singleton.mp member] at final
      cases final
  | tick => exact layered.tick refines (refines.moves_of_tick step)

theorem Layered.mem_iff {s : World L} (layered : Layered s) (refines : Refines program s)
    {parent child : Handle} {frame : Frame L} (found : s.frames parent = some frame)
    (awaits : frame.point = some (.await child))
    (apart : ∀ rest, s.native ≠ ⟨parent, .body⟩ :: rest) :
    parent ∈ s.native.map Resume.handle ↔ ⟨parent, .awaitSuspend⟩ ∈ s.native := by
  constructor
  · intro member
    obtain ⟨⟨handle, site⟩, there, rfl⟩ := List.mem_map.mp member
    cases site with
    | awaitSuspend => exact there
    | finalSuspend =>
      have final := layered.final _ there rfl frame found
      rw [awaits] at final
      cases final
    -- only the innermost call of `resume()` runs a body
    | body =>
      obtain ⟨top, rest, native⟩ := List.exists_cons_of_ne_nil (List.ne_nil_of_mem there)
      rw [native] at there
      rcases List.mem_cons.mp there with rfl | below
      · exact absurd native (apart rest)
      · have beneath := refines.below ⟨handle, .body⟩
        rw [native] at beneath
        exact absurd rfl (beneath below)
  · intro there
    exact List.mem_map.mpr ⟨_, there, rfl⟩

theorem NestsOnce.tail {s : World L} {record : Resume} {rest : List Resume} (once : NestsOnce s)
    (native : s.native = record :: rest) : (rest.map Resume.handle).Nodup := by
  rw [NestsOnce, native, List.map_cons, List.nodup_cons] at once
  exact once.2

theorem nestsOnce_tick_iff {s t : World L} (refines : Refines program s) (layered : Layered s)
    (once : NestsOnce s) (moves : Moves program s t) : NestsOnce t ↔ EndsLate s .tick := by
  have quietly : s.continues = none → NestsOnce t → (NestsOnce t ↔ EndsLate s .tick) := by
    intro none kept
    refine iff_of_true kept ?_
    simp [EndsLate, none]
  cases moves with
  | @returns record rest native inAwait =>
    apply quietly _ (once.tail native)
    obtain ⟨handle, site⟩ := record
    cases site with
    | body => exact absurd rfl inAwait
    | awaitSuspend | finalSuspend => simp [World.continues, native]
  | goes native found runs code turn =>
    exact quietly (by simp [World.continues, native, found, runs, code, turn]) once
  | waits native found runs code turn =>
    exact quietly (by simp [World.continues, native, found, runs, code, turn]) (once.tail native)
  | completes native found runs code turn outer =>
    exact quietly (by simp [World.continues, native, found, runs, code, turn, outer])
      (once.tail native)
  | resumes native found point code =>
    exact quietly (by simp [World.continues, native, found, point]) once
  | @calls handle frame rest body callee env resume native found runs code turn =>
    apply quietly (by simp [World.continues, native, found, runs, code, turn])
    -- the child is new, so that no record is its own
    have absent : s.next ∉ (⟨handle, .awaitSuspend⟩ :: rest).map Resume.handle := by
      intro member
      obtain ⟨record, there, same⟩ := List.mem_map.mp member
      have older : record.handle < s.next := by
        rcases List.mem_cons.mp there with rfl | there
        · exact refines.lt_next found
        · exact layered.created record (native ▸ List.mem_cons_of_mem _ there)
      exact absurd same (Nat.ne_of_lt older)
    rw [NestsOnce, native] at once
    exact List.nodup_cons.mpr ⟨absent, once⟩
  | @ends handle parent frame caller rest body flow native found runs code turn outer callerFound
      awaits =>
    -- the parent is resumed; it is active already if its `await_suspend` has not returned
    have continues : s.continues = some parent := by
      simp [World.continues, native, found, runs, code, turn, outer]
    have apart : ∀ below, s.native ≠ ⟨parent, .body⟩ :: below := by
      intro below top
      cases native.symm.trans top
      cases found.symm.trans callerFound
      cases runs.symm.trans awaits
    rw [NestsOnce, native] at once
    have nodup_iff : NestsOnce { s.setFrame handle
          { frame with
            promise := frame.promise.leave (program frame.fn) flow
            point := some .final
            body := none } with
        finished := s.finished ++ [(handle, (program frame.fn).outcome flow)]
        native := ⟨parent, .body⟩ :: ⟨handle, .finalSuspend⟩ :: rest } ↔
        parent ∉ s.native.map Resume.handle := by
      rw [NestsOnce, native]
      exact List.nodup_cons.trans (and_iff_left once)
    rw [nodup_iff, layered.mem_iff refines callerFound awaits apart]
    simp [EndsLate, continues]

theorem nestsOnce_step_iff {s t : World L} {a : Act L} (refines : Refines program s)
    (layered : Layered s) (once : NestsOnce s) (step : (machine program).step s a = some t) :
    NestsOnce t ↔ EndsLate s a := by
  cases a with
  | spawn fn env =>
    obtain ⟨idle, spawns⟩ := Option.ite_none_right_eq_some.mp step
    rw [World.spawn_eq, idle] at spawns
    cases spawns
    exact iff_of_true (List.nodup_singleton _) trivial
  | deliver handle reply =>
    obtain ⟨idle, delivers⟩ := Option.ite_none_right_eq_some.mp step
    obtain ⟨frame, body, event, expected, resume, found, point, code, turn, rfl⟩ :=
      World.deliver_eq_some delivers
    exact iff_of_true (List.nodup_singleton _) trivial
  | tick => exact nestsOnce_tick_iff refines layered once (refines.moves_of_tick step)

/-- Along a run each coroutine has at most one active `resume()` exactly when no co_await's
child ends before the `await_suspend` that resumed it has returned. -/
theorem nestsOnce_iff_endsLate {t : World L} {actions : List (Act L)}
    (replay : (machine program).exec (.boot L) actions = some t) :
    (machine program).Throughout NestsOnce (.boot L) actions ↔
      (machine program).Each EndsLate (.boot L) actions := by
  have preserves : ∀ s a t, Refines program s ∧ Layered s → True →
      (machine program).step s a = some t → Refines program t ∧ Layered t :=
    fun _ _ _ ⟨refines, layered⟩ _ step => ⟨refines.of_step step, layered.step refines step⟩
  have exact_step : ∀ s a t, Refines program s ∧ Layered s → NestsOnce s → True →
      (machine program).step s a = some t → (NestsOnce t ↔ EndsLate s a) :=
    fun _ _ _ ⟨refines, layered⟩ once _ step => nestsOnce_step_iff refines layered once step
  exact Transition.Machine.throughout_iff_each preserves exact_step ⟨boot_refines, boot_layered⟩
    List.nodup_nil (Transition.Machine.each_true _ _) replay

/-! ## Children that end at once -/

/-- A coroutine that reads a line byte by byte from a socket with enough bytes buffered:
every read ends without a wait. -/
def lineReader : natLang.Fn → Routine natLang
  | 0 => .void (.loop (fun _ => true) (.call 1 id fun _ env => env))
  | _ => .void .skip

theorem buffered_reads_nest : ¬ ∀ actions s,
    (machine lineReader).exec (.boot natLang) actions = some s → NestsOnce s := by
  intro always
  have run : ((machine lineReader).exec (.boot natLang) ([.spawn 0 0] ++ List.replicate 4 .tick)).map
      World.native = some [⟨0, .body⟩, ⟨1, .finalSuspend⟩, ⟨0, .awaitSuspend⟩] := by decide
  obtain ⟨s, replay, native⟩ := Option.map_eq_some_iff.mp run
  have once := always _ s replay
  rw [NestsOnce, native] at once
  revert once
  decide

def readerFrame : Frame natLang :=
  ⟨0, 0, .empty, none, some ((lineReader 0).enter 0)⟩

/-- The line reader is about to read its next byte, with so many calls of `resume()` of
its own still active, and no other coroutine is alive. -/
structure Nested (depth : Nat) (s : World natLang) : Prop where
  frame : s.frames 0 = some readerFrame
  alone : ∀ handle, handle ≠ 0 → s.frames handle = none
  created : 0 < s.next
  native : ∃ rest, s.native = ⟨0, .body⟩ :: rest ∧ (rest.map Resume.handle).count 0 = depth

theorem nested_spawned : ∃ s, (machine lineReader).exec (.boot natLang) [.spawn 0 0] = some s ∧
    Nested 0 s := by
  refine ⟨_, Transition.Machine.exec_cons (World.spawn_eq lineReader 0 0 (.boot natLang)), ?_⟩
  exact ⟨rfl, fun _ apart => Function.update_of_ne apart _ _, Nat.zero_lt_one, _, rfl, rfl⟩

/-- How far a read has come: the frames of the reader and of its child, the native stack and the
next handle. -/
structure Reading (s t : World natLang) (frame : Frame natLang) (awaited : Option (Frame natLang))
    (native : List Resume) (next : Handle) : Prop where
  frames : t.frames = Function.update (Function.update s.frames s.next awaited) 0 (some frame)
  native : t.native = native
  next : t.next = next

section

variable {s t : World natLang} {frame child : Frame natLang} {awaited : Option (Frame natLang)}
  {rest : List Resume} {next : Handle} {body after : Body natLang}

theorem Reading.start (found : s.frames 0 = some frame) (fresh : s.frames s.next = none) :
    Reading s s frame none s.native s.next := by
  refine ⟨?_, rfl, rfl⟩
  rw [← fresh, Function.update_eq_self, ← found, Function.update_eq_self]

theorem Reading.reader {native : List Resume} (reading : Reading s t frame awaited native next) :
    t.frames 0 = some frame := by
  rw [reading.frames, Function.update_self]

theorem Reading.of_child {native : List Resume} (reading : Reading s t frame awaited native next)
    (apart : s.next ≠ 0) : t.frames s.next = awaited := by
  rw [reading.frames, Function.update_of_ne apart, Function.update_self]

theorem Reading.goes (reading : Reading s t frame awaited (⟨0, .body⟩ :: rest) next)
    (runs : frame.point = none) (code : frame.body = some body) (turn : body.turn = .goes after) :
    ∃ u, t.tick lineReader = some u ∧
      Reading s u { frame with body := some after } awaited (⟨0, .body⟩ :: rest) next := by
  refine ⟨_, (Moves.goes reading.native reading.reader runs code turn).tick, ?_⟩
  refine ⟨?_, reading.native, reading.next⟩
  simp only [World.setFrame, reading.frames, Function.update_idem]

theorem Reading.calls (reading : Reading s t frame none (⟨0, .body⟩ :: rest) s.next)
    (apart : s.next ≠ 0) (runs : frame.point = none) (code : frame.body = some body)
    {callee : natLang.Fn} {env : natLang.Env} {resume : Outcome natLang → Body natLang}
    (turn : body.turn = .calls callee env resume) :
    ∃ u, t.tick lineReader = some u ∧
      Reading s u { frame with point := some (.await s.next) }
        (some ⟨callee, frame.task, { (.empty : Promise natLang) with continuation := some 0 }, none,
          some ((lineReader callee).enter env)⟩)
        (⟨s.next, .body⟩ :: ⟨0, .awaitSuspend⟩ :: rest) (s.next + 1) := by
  have fresh : t.frames t.next = none := by rw [reading.next, reading.of_child apart]
  refine ⟨_, (Moves.calls reading.native reading.reader runs code turn fresh).tick, ?_⟩
  refine ⟨?_, by rw [reading.next], by rw [reading.next]⟩
  simp only [World.setFrame, reading.frames, reading.next, Function.update_idem]
  rw [Function.update_comm apart, Function.update_idem, Function.update_comm apart.symm]

theorem Reading.child_goes (reading : Reading s t frame (some child) (⟨s.next, .body⟩ :: rest) next)
    (apart : s.next ≠ 0) (runs : child.point = none) (code : child.body = some body)
    (turn : body.turn = .goes after) :
    ∃ u, t.tick lineReader = some u ∧
      Reading s u frame (some { child with body := some after }) (⟨s.next, .body⟩ :: rest) next := by
  refine ⟨_, (Moves.goes reading.native (reading.of_child apart) runs code turn).tick, ?_⟩
  refine ⟨?_, reading.native, reading.next⟩
  simp only [World.setFrame, reading.frames]
  rw [Function.update_comm apart, Function.update_idem, Function.update_comm apart.symm]

theorem Reading.ends (reading : Reading s t frame (some child) (⟨s.next, .body⟩ :: rest) next)
    (apart : s.next ≠ 0) (runs : child.point = none) (code : child.body = some body)
    {flow : Flow natLang} (turn : body.turn = .ends flow)
    (outer : child.promise.continuation = some 0) (awaits : frame.point = some (.await s.next)) :
    ∃ u, t.tick lineReader = some u ∧
      Reading s u frame
        (some { child with
          promise := child.promise.leave (lineReader child.fn) flow
          point := some .final
          body := none })
        (⟨0, .body⟩ :: ⟨s.next, .finalSuspend⟩ :: rest) next := by
  refine ⟨_, (Moves.ends reading.native (reading.of_child apart) runs code turn outer reading.reader
    awaits).tick, ?_⟩
  refine ⟨?_, rfl, reading.next⟩
  simp only [World.setFrame, reading.frames]
  rw [Function.update_comm apart, Function.update_idem, Function.update_comm apart.symm]

theorem Reading.resumes (reading : Reading s t frame (some child) (⟨0, .body⟩ :: rest) next)
    (apart : s.next ≠ 0) (awaits : frame.point = some (.await s.next))
    (code : frame.body = some body) {callee : natLang.Fn} {env : natLang.Env}
    {resume : Outcome natLang → Body natLang} (turn : body.turn = .calls callee env resume)
    {outcome : Outcome natLang} (carries : Carries lineReader child (.ended outcome))
    (outer : child.promise.continuation = some 0) :
    ∃ u, t.tick lineReader = some u ∧
      Reading s u { frame with point := none, body := some (resume outcome) } none
        (⟨0, .body⟩ :: rest) next := by
  have later : 0 < s.next := Nat.pos_of_ne_zero apart
  refine ⟨_, (Moves.resumes reading.native reading.reader awaits code turn (reading.of_child apart)
    carries outer later).tick, ?_⟩
  refine ⟨?_, reading.native, reading.next⟩
  simp only [World.destroy, World.setFrame, reading.frames]
  rw [Function.update_comm apart.symm, Function.update_idem, Function.update_idem]

end

theorem Nested.reads {depth : Nat} {s : World natLang} {rest : List Resume} (nested : Nested depth s)
    (native : s.native = ⟨0, .body⟩ :: rest) :
    ∃ t, (machine lineReader).exec s (List.replicate 6 .tick) = some t ∧
      Reading s t readerFrame none
        (⟨0, .body⟩ :: ⟨s.next, .finalSuspend⟩ :: ⟨0, .awaitSuspend⟩ :: rest) (s.next + 1) := by
  have apart : s.next ≠ 0 := Nat.ne_of_gt nested.created
  have start := Reading.start nested.frame (nested.alone s.next apart)
  rw [native] at start
  -- the loop's test and the co_await
  obtain ⟨_, test, tested⟩ := start.goes rfl rfl rfl
  obtain ⟨_, call, called⟩ := tested.calls apart rfl rfl rfl
  -- the two steps of the child
  obtain ⟨_, skip, skipped⟩ := called.child_goes apart rfl rfl rfl
  obtain ⟨_, finish, ended⟩ := skipped.ends apart rfl rfl rfl rfl rfl
  -- the `await_resume` and the end of the loop's body
  obtain ⟨_, get, resumed⟩ := ended.resumes apart rfl rfl rfl
    (.ended rfl rfl (.completion rfl rfl)) rfl
  obtain ⟨t, again, read⟩ := resumed.goes rfl rfl rfl
  refine ⟨t, ?_, read⟩
  change (machine lineReader).exec s [.tick, .tick, .tick, .tick, .tick, .tick] = some t
  rw [Transition.Machine.exec_cons test, Transition.Machine.exec_cons call,
    Transition.Machine.exec_cons skip, Transition.Machine.exec_cons finish,
    Transition.Machine.exec_cons get, Transition.Machine.exec_cons again]
  rfl

theorem Nested.deeper {depth : Nat} {s : World natLang} (nested : Nested depth s) :
    ∃ t, (machine lineReader).exec s (List.replicate 6 .tick) = some t ∧ Nested (depth + 1) t := by
  obtain ⟨rest, native, count⟩ := nested.native
  have apart : s.next ≠ 0 := Nat.ne_of_gt nested.created
  obtain ⟨t, replay, read⟩ := nested.reads native
  refine ⟨t, replay, read.reader, fun handle other => ?_, ?_, _, read.native, ?_⟩
  · rw [read.frames, Function.update_of_ne other]
    by_cases child : handle = s.next
    · rw [child, Function.update_self]
    · rw [Function.update_of_ne child, nested.alone handle other]
  · rw [read.next]
    exact Nat.succ_pos _
  · rw [List.map_cons, List.map_cons, List.count_cons_of_ne apart, List.count_cons_self, count]

/-- The peer's data bounds the nesting, not the number of coroutines. -/
theorem buffered_reads_nest_deeply (depth : Nat) :
    ∃ s, (machine lineReader).Reachable s ∧ Nested depth s := by
  induction depth with
  | zero =>
    obtain ⟨s, replay, nested⟩ := nested_spawned
    exact ⟨s, .replay (.start rfl) replay, nested⟩
  | succ depth ih =>
    obtain ⟨s, reached, nested⟩ := ih
    obtain ⟨t, replay, deeper⟩ := nested.deeper
    exact ⟨t, reached.replay replay, deeper⟩

end CoroEpoll.Task
