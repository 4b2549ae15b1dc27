import CoroEpoll.Task.Stages

/-! What it means that every co_await so far was right, and what the operations on coroutines
and objects keep of it.
-/

set_option autoImplicit false

namespace CoroEpoll.Objects

open Routines
open CoroEpoll.Task (Handle Resume Resumed)

variable {L : Lang}

/-- Its promise still has the value that the body ended with, if it ended with one. -/
def Frame.Holds (frame : Frame L) : Outcome L → Prop
  | .returned (some value) => frame.promise.value = some value
  | .returned none | .threw _ => True

namespace World

def stage (s : World L) : Stages := fun handle => (s.frames handle).map (·.point.stage)

def continuation (s : World L) (handle : Handle) : Option Handle :=
  (s.frames handle).bind (·.promise.continuation)

def Quiet (s : World L) (object : Nat) : Prop :=
  ∀ handle, s.objects object = some handle →
    s.stage handle = some .fresh ∨ s.stage handle = some .finished

/-- The object has a coroutine that has not been started, or one that has finished and whose
value no co_await has moved out. -/
def Joinable (s : World L) (object : Nat) : Prop :=
  ∃ handle frame, s.objects object = some handle ∧ s.frames handle = some frame ∧
    (frame.point.stage = .fresh ∨
      frame.done = true ∧ ∀ outcome, (handle, outcome) ∈ s.finished → frame.Holds outcome)

/-- It runs, or its event or the coroutine that it awaits is still to resume it. -/
def Busy (s : World L) (handle : Handle) : Prop :=
  s.stage handle = some .runs ∨
    (∃ n, s.stage handle = some (.waits n) ∧ s.waiting n ≠ none) ∨
    ∃ child, s.stage handle = some (.awaits child) ∧ s.stage child ≠ none

def Idle (s : World L) (object : Nat) : Prop :=
  ∀ handle, s.objects object = some handle → ¬ s.Busy handle

def Proper (s : World L) : Use L → Prop
  | .makes object _ _ | .drops object => s.Idle object
  | .moves target source => target = source ∨ s.Idle target
  | .resumes object => s.Quiet object
  | .withdraws _ => True

def MayTurn (s : World L) : Turn L → Prop
  | .awaits object _ => s.Joinable object
  | .uses use _ => s.Proper use
  | .goes _ | .waits _ _ | .returns _ | .throws _ => True

end World

/-- A step awaits joinable objects only, starts quiet ones only, and overwrites and destroys none
whose coroutine is busy. -/
def Cond (program : Program L) (s : World L) : Act L → Prop
  | .tick answer => ∀ handle frame env rest, s.top = some (handle, frame, env, rest) →
    s.MayTurn (program.turn answer env)
  | .uses use => s.Proper use
  | .event _ _ => True

/-- Every co_await so far was right. -/
structure Right (s : World L) : Prop where
  /-- no absent promise or value was read -/
  defined : s.undefined = false
  /-- no coroutine was resumed that was waiting for something else -/
  undisturbed : s.disturbed = []
  /-- a coroutine finishes once -/
  once : (s.finished.map Prod.fst).Nodup
  /-- an awaiting coroutine went on when the awaited one had finished, with its outcome -/
  own : ∀ r ∈ s.resumed, (r.child, r.outcome) ∈ s.finished
  /-- each wait that is not withdrawn was ended by its event, once -/
  ended : s.ended.Nodup
  /-- or is still to be ended by it -/
  waiting : ∀ n < s.waits, n ∉ s.ended → n ∉ s.withdrawn →
    ∃ handle, s.waiting n = some handle ∧ s.stage handle = some (.waits n)
  /-- the coroutine that awaits an unfinished one is suspended at it -/
  awaiting : ∀ child parent, s.continuation child = some parent → s.stage child ≠ some .finished →
    s.stage parent = some (.awaits child)

/-- A state in which every co_await so far was right, with what keeps the next ones right. -/
structure Sound (s : World L) : Prop where
  defined : s.undefined = false
  undisturbed : s.disturbed = []
  own : ∀ r ∈ s.resumed, (r.child, r.outcome) ∈ s.finished
  owners : Owners s.objects s.stage s.next
  waits : Waits s.stage s.waiting s.waits s.ended s.withdrawn
  awaits : Awaits s.stage s.continuation s.next
  ends : Ends s.frames s.finished s.next

/-! ## The stages after an operation -/

namespace World

theorem stage_some {s : World L} {handle : Handle} {frame : Frame L}
    (is : s.frames handle = some frame) : s.stage handle = some frame.point.stage := by
  rw [stage, is]
  rfl

theorem frames_of_stage {s : World L} {handle : Handle} {stage : Stage}
    (is : s.stage handle = some stage) :
    ∃ frame, s.frames handle = some frame ∧ frame.point.stage = stage :=
  Option.map_eq_some_iff.mp is

@[simp] theorem stage_setFrame (handle : Handle) (frame : Frame L) (s : World L) :
    (s.setFrame handle frame).stage = Function.update s.stage handle (some frame.point.stage) := by
  funext other
  simp only [stage, setFrame, Function.update_apply]
  split <;> rfl

@[simp] theorem continuation_setFrame (handle : Handle) (frame : Frame L) (s : World L) :
    (s.setFrame handle frame).continuation =
      Function.update s.continuation handle frame.promise.continuation := by
  funext other
  simp only [continuation, setFrame, Function.update_apply]
  split <;> rfl

theorem continuation_setFrame_same {s : World L} {handle : Handle} {old new : Frame L}
    (is : s.frames handle = some old)
    (same : new.promise.continuation = old.promise.continuation) :
    (s.setFrame handle new).continuation = s.continuation := by
  rw [continuation_setFrame, same, Function.update_eq_self_iff, continuation, is]
  rfl

end World

namespace Frame

@[simp] theorem point_taken (program : Program L) (frame : Frame L) :
    (frame.taken program).point = frame.point := by
  unfold taken
  split <;> rfl

@[simp] theorem continuation_taken (program : Program L) (frame : Frame L) :
    (frame.taken program).promise.continuation = frame.promise.continuation := by
  unfold taken
  split <;> rfl

@[simp] theorem isVoid_taken (program : Program L) (frame : Frame L) :
    (frame.taken program).isVoid = frame.isVoid := by
  unfold taken
  split <;> rfl

@[simp] theorem exception_taken (program : Program L) (frame : Frame L) :
    (frame.taken program).promise.exception = frame.promise.exception := by
  unfold taken
  split <;> rfl

theorem agrees_taken (program : Program L) {frame : Frame L} {outcome : Outcome L}
    (agrees : frame.Agrees outcome) : (frame.taken program).Agrees outcome := by
  cases outcome with
  | returned value => simpa [Agrees] using agrees
  | threw error => simpa [Agrees] using agrees

theorem done_taken (program : Program L) (frame : Frame L) :
    (frame.taken program).done = frame.done := by
  simp only [done, point_taken]

@[simp] theorem continuation_leave (frame : Frame L) (ending : Except L.Error L.Value) :
    (frame.leave ending).continuation = frame.promise.continuation := by
  cases ending with
  | ok value =>
    dsimp only [leave]
    split <;> rfl
  | error error => rfl

theorem agrees_leave {frame : Frame L} (exception : frame.promise.exception = none)
    (ending : Except L.Error L.Value) :
    ({ frame with promise := frame.leave ending, point := .final } : Frame L).Agrees
      (frame.outcome ending) := by
  cases ending with
  | ok value =>
    cases isVoid : frame.isVoid <;>
      simp [Agrees, leave, outcome, isVoid, exception, Task.Promise.returnVoid,
        Task.Promise.returnValue]
  | error error => rfl

theorem holds_leave (frame : Frame L) (ending : Except L.Error L.Value) :
    ({ frame with promise := frame.leave ending, point := .final } : Frame L).Holds
      (frame.outcome ending) := by
  cases ending with
  | ok value =>
    cases isVoid : frame.isVoid <;>
      simp [Holds, leave, outcome, isVoid, Task.Promise.returnValue]
  | error error => trivial

/-- `await_resume` gives what the body ended with while the promise has the value. -/
theorem result_iff {frame : Frame L} {outcome : Outcome L} (agrees : frame.Agrees outcome) :
    frame.result = some outcome ↔ frame.Holds outcome := by
  unfold result
  cases outcome with
  | threw error =>
    have exception : frame.promise.exception = some error := agrees
    simp [exception, Holds]
  | returned value =>
    rw [agrees.1]
    cases value with
    | none =>
      have isVoid : frame.isVoid = true := agrees.2.symm
      simp [isVoid, Holds]
    | some value =>
      have isVoid : frame.isVoid = false := agrees.2.symm
      simp [isVoid, Holds]

end Frame

namespace World

theorem stage_removed (handle : Handle) (s : World L) :
    ({ s with frames := Function.update s.frames handle none } : World L).stage =
      Function.update s.stage handle none := by
  funext other
  simp only [stage, Function.update_apply]
  split <;> rfl

theorem continuation_removed (handle : Handle) (s : World L) :
    ({ s with frames := Function.update s.frames handle none } : World L).continuation =
      Function.update s.continuation handle none := by
  funext other
  simp only [continuation, Function.update_apply]
  split <;> rfl

theorem setFrame_setFrame (handle : Handle) (first second : Frame L) (s : World L) :
    (s.setFrame handle first).setFrame handle second = s.setFrame handle second := by
  simp only [setFrame, Function.update_idem]

theorem frames_setFrame_ne {handle other : Handle} (different : other ≠ handle) (frame : Frame L)
    (s : World L) : (s.setFrame handle frame).frames other = s.frames other :=
  Function.update_of_ne different ..

theorem destroy_suspended {s : World L} {handle : Handle} {stage : Stage}
    (is : s.stage handle = some stage) (suspended : stage ≠ .runs) :
    s.destroy (some handle) = { s with frames := Function.update s.frames handle none } := by
  obtain ⟨frame, isFrame, point⟩ := frames_of_stage is
  simp only [destroy, isFrame]
  split
  · rename_i running
    rw [running] at point
    exact absurd point.symm suspended
  · rfl

theorem put_eq (object : Nat) (handle : Option Handle) (s : World L) :
    s.put object handle = { s.put object none with
      objects := Function.update (s.put object none).objects object handle } := by
  simp only [put, Function.update_idem]

theorem objects_destroy (handle : Option Handle) (s : World L) :
    (s.destroy handle).objects = s.objects := by
  unfold destroy
  split
  · rfl
  · split
    · rfl
    · split <;> rfl

theorem objects_put (object : Nat) (handle : Option Handle) (s : World L) :
    (s.put object handle).objects = Function.update s.objects object handle := by
  simp only [put, objects_destroy]

theorem stage_put {s : World L} {object : Nat} {handle : Handle}
    (other : s.objects object ≠ some handle) (new : Option Handle) :
    (s.put object new).stage handle = s.stage handle := by
  change (s.destroy (s.objects object)).stage handle = s.stage handle
  cases holds : s.objects object with
  | none => rfl
  | some old =>
    have different : handle ≠ old := by
      intro same
      exact other (same ▸ holds)
    unfold destroy
    dsimp only
    split
    · rfl
    · split
      · rfl
      · rw [stage_removed, Function.update_of_ne different]

theorem stage_setRunning {s : World L} {handle : Handle} {frame : Frame L}
    (is : s.frames handle = some frame) (running : frame.point.stage = .runs) (env : L.Env) :
    (s.setFrame handle { frame with point := .running env }).stage = s.stage := by
  have stage := stage_some is
  rw [running] at stage
  rw [stage_setFrame]
  exact Function.update_eq_self_iff.mpr stage.symm

theorem proper_setRunning {s : World L} {handle : Handle} {frame : Frame L}
    (is : s.frames handle = some frame) (running : frame.point.stage = .runs) (env : L.Env)
    (use : Use L) :
    (s.setFrame handle { frame with point := .running env }).Proper use ↔ s.Proper use := by
  have stage := stage_setRunning is running env
  cases use <;> simp only [Proper, Quiet, Idle, Busy, stage] <;> rfl

theorem live_of_continuation {s : World L} {child parent : Handle}
    (linked : s.continuation child = some parent) : s.stage child ≠ none := by
  obtain ⟨frame, is, _⟩ := Option.bind_eq_some_iff.mp linked
  rw [stage_some is]
  exact Option.some_ne_none _

theorem stage_create {s : World L} {handle : Handle} (other : handle ≠ s.next) (isVoid : Bool)
    (env : L.Env) : (s.create isVoid env).stage handle = s.stage handle := by
  change (s.setFrame s.next ⟨isVoid, .empty, .initial env⟩).stage handle = s.stage handle
  rw [stage_setFrame, Function.update_of_ne other]

theorem awaitReady_some {s : World L} {handle : Handle} {frame : Frame L}
    (is : s.frames handle = some frame) : s.awaitReady (some handle) = frame.done := by
  simp only [awaitReady, Option.bind_some, is]

theorem resume_start {s : World L} {handle : Handle} {frame : Frame L} {env : L.Env}
    (program : Program L) (is : s.frames handle = some frame) (point : frame.point = .initial env) :
    s.resume program .start handle = s.enter handle frame env := by
  simp only [resume, is, point, note]

end World

namespace Sound

variable {s : World L}

theorem right (sound : Sound s) : Right s where
  defined := sound.defined
  undisturbed := sound.undisturbed
  once := sound.ends.once
  own := sound.own
  ended := sound.waits.once
  waiting n below notEnded kept := by
    have pending := sound.waits.pending n below notEnded kept
    obtain ⟨handle, holds⟩ := Option.ne_none_iff_exists'.mp pending
    exact ⟨handle, holds, (sound.waits.held n handle holds).2.2.2⟩
  awaiting := sound.awaits.above

theorem boot : Sound (World.boot L) := by
  constructor
  · rfl
  · rfl
  · intro r member
    cases member
  · constructor
    · intro object handle holds
      cases holds
    · intro object object' handle holds
      cases holds
    · exact fun handle live => absurd rfl live
  · constructor
    · exact List.nodup_nil
    · rintro n (member | member)
      · cases member
      · cases member
    · intro handle n is
      cases is
    · intro n handle holds
      cases holds
    · exact fun n below => absurd below (Nat.not_lt_zero n)
  · constructor
    · intro child parent linked
      cases linked
    · intro parent child is
      cases is
    · intro parent child is
      cases is
  · constructor
    · intro handle outcome member
      cases member
    · exact List.nodup_nil
    · intro handle frame is
      cases is
    · intro handle frame outcome is
      cases is
    · intro handle frame is
      cases is

theorem withNative (sound : Sound s) (native : List Resume) : Sound { s with native } :=
  ⟨sound.defined, sound.undisturbed, sound.own, sound.owners, sound.waits, sound.awaits, sound.ends⟩

theorem withObjects (sound : Sound s) {objects : Nat → Option Handle}
    (owners : Owners objects s.stage s.next) : Sound { s with objects } :=
  ⟨sound.defined, sound.undisturbed, sound.own, owners, sound.waits, sound.awaits, sound.ends⟩

theorem setRunning (sound : Sound s) {handle : Handle} {frame : Frame L}
    (is : s.frames handle = some frame)
    (idle : frame.point.stage = .fresh ∨ frame.point.stage = .runs) (env : L.Env) :
    Sound (s.setFrame handle { frame with point := .running env }) := by
  have stage := World.stage_some is
  have going : frame.point.stage ≠ .finished := by
    rcases idle with idle | idle <;> simp [idle]
  have linked : (s.setFrame handle { frame with point := .running env }).continuation =
      s.continuation := World.continuation_setFrame_same is rfl
  constructor
  · exact sound.defined
  · exact sound.undisturbed
  · exact sound.own
  · rw [World.stage_setFrame]
    exact sound.owners.update (by simp [stage]) .runs
  · rw [World.stage_setFrame]
    apply sound.waits.update
    · apply sound.waits.unheld
      intro n
      rcases idle with idle | idle <;> simp [stage, idle]
    · intro n
      simp [Point.stage]
  · rw [World.stage_setFrame, linked]
    apply sound.awaits.update stage
    · intro child
      rcases idle with idle | idle <;> simp [idle]
    · exact going
    · intro child
      simp [Point.stage]
    · rfl
  · exact sound.ends.goOn is going (by simp [Point.stage]) rfl rfl rfl

theorem create (sound : Sound s) (isVoid : Bool) (env : L.Env) : Sound (s.create isVoid env) := by
  have gone := sound.owners.next_gone
  constructor
  · exact sound.defined
  · exact sound.undisturbed
  · exact sound.own
  · change Owners s.objects (s.setFrame s.next ⟨isVoid, .empty, .initial env⟩).stage (s.next + 1)
    rw [World.stage_setFrame]
    exact sound.owners.create
  · change Waits (s.setFrame s.next ⟨isVoid, .empty, .initial env⟩).stage s.waiting s.waits s.ended
      s.withdrawn
    rw [World.stage_setFrame]
    exact sound.waits.update (sound.waits.unheld (by simp [gone])) (by simp [Point.stage])
  · change Awaits (s.setFrame s.next ⟨isVoid, .empty, .initial env⟩).stage
      (s.setFrame s.next ⟨isVoid, .empty, .initial env⟩).continuation (s.next + 1)
    rw [World.stage_setFrame, World.continuation_setFrame]
    exact sound.awaits.create gone
  · exact sound.ends.create isVoid env

theorem busy_create (sound : Sound s) {handle : Handle} (other : handle ≠ s.next) (isVoid : Bool)
    (env : L.Env) : (s.create isVoid env).Busy handle ↔ s.Busy handle := by
  unfold World.Busy
  rw [World.stage_create other]
  refine or_congr Iff.rfl (or_congr Iff.rfl (exists_congr fun child => ?_))
  apply and_congr_right
  intro awaits
  have below := sound.awaits.numbered handle child awaits
  rw [World.stage_create (Nat.ne_of_lt below)]

theorem put_none (sound : Sound s) {object : Nat} (idle : s.Idle object) :
    Sound (s.put object none) := by
  cases holds : s.objects object with
  | none =>
    rw [World.put, holds]
    exact sound.withObjects (sound.owners.clear object)
  | some handle =>
    have idle := idle handle holds
    obtain ⟨stage, is⟩ := Option.ne_none_iff_exists'.mp (sound.owners.live object handle holds)
    have suspended : stage ≠ .runs := by
      intro same
      exact idle (Or.inl (same ▸ is))
    rw [World.put, holds, World.destroy_suspended is suspended]
    have free : ∀ other, Function.update s.objects object none other ≠ some handle := by
      intro other holds'
      obtain ⟨different, before⟩ := Table.clear_eq_some.mp holds'
      exact different (sound.owners.distinct other object handle before holds)
    constructor
    · exact sound.defined
    · exact sound.undisturbed
    · exact sound.own
    · have owners := (sound.owners.clear object).destroy free
      rw [← World.stage_removed] at owners
      exact owners
    · have unheld : ∀ n, s.waiting n ≠ some handle := by
        intro n held
        have waits := (sound.waits.held n handle held).2.2.2
        exact idle (Or.inr (Or.inl ⟨n, waits, held ▸ Option.some_ne_none handle⟩))
      have waits : Waits (Function.update s.stage handle none) s.waiting s.waits s.ended
          s.withdrawn := sound.waits.update unheld (by simp)
      rw [← World.stage_removed] at waits
      exact waits
    · have alone : ∀ child, s.stage handle = some (.awaits child) → s.stage child = none := by
        intro child awaits
        by_contra live
        exact idle (Or.inr (Or.inr ⟨child, awaits, live⟩))
      have awaits := sound.awaits.destroy (fun _ _ => World.live_of_continuation) alone
      rw [← World.stage_removed, ← World.continuation_removed] at awaits
      exact awaits
    · exact sound.ends.destroy handle

theorem makes (sound : Sound s) {object : Nat} (idle : s.Idle object) (isVoid : Bool)
    (env : L.Env) : Sound ((s.create isVoid env).put object (some s.next)) := by
  have created := sound.create isVoid env
  have fresh : (s.create isVoid env).stage s.next = some .fresh := by
    change (s.setFrame s.next ⟨isVoid, .empty, .initial env⟩).stage s.next = some .fresh
    rw [World.stage_setFrame, Function.update_self]
    rfl
  have unowned : ∀ other, s.objects other ≠ some s.next := by
    intro other holds
    exact sound.owners.live other s.next holds sound.owners.next_gone
  have idle' : (s.create isVoid env).Idle object := by
    intro handle holds busy
    have other : handle ≠ s.next := fun same => unowned object (same ▸ holds)
    exact idle handle holds ((sound.busy_create other isVoid env).mp busy)
  have emptied := created.put_none idle'
  rw [World.put_eq]
  apply emptied.withObjects
  apply emptied.owners.give
  · have other : (s.create isVoid env).objects object ≠ some s.next := unowned object
    rw [World.stage_put other, fresh]
    exact Option.some_ne_none _
  · intro other
    rw [World.objects_put, Function.update_apply]
    split
    · simp
    · exact unowned other

theorem moves (sound : Sound s) {target source : Nat} (different : target ≠ source)
    (idle : s.Idle target) :
    Sound { s.put target (s.objects source) with
      objects := Function.update (s.put target (s.objects source)).objects source none } := by
  have emptied := (sound.put_none idle).owners.clear source
  rw [World.objects_put, Function.update_comm different] at emptied
  rw [World.put_eq]
  apply (sound.put_none idle).withObjects
  dsimp only
  rw [World.objects_put, Function.update_idem, Function.update_comm different]
  cases holds : s.objects source with
  | none => exact emptied
  | some handle =>
    have unowned : ∀ object, object ≠ source → s.objects object ≠ some handle := by
      intro object other holds'
      exact other (sound.owners.distinct object source handle holds' holds)
    have live : (s.put target none).stage handle ≠ none := by
      rw [World.stage_put (unowned target different)]
      exact sound.owners.live source handle holds
    have free : ∀ object, Function.update (Function.update s.objects source none) target none
        object ≠ some handle := by
      intro object
      by_cases isTarget : object = target
      · simp [isTarget]
      · rw [Function.update_of_ne isTarget]
        by_cases isSource : object = source
        · simp [isSource]
        · rw [Function.update_of_ne isSource]
          exact unowned object isSource
    have given := emptied.give target live free
    rwa [Function.update_idem] at given

theorem withdraw (sound : Sound s) (serial : Nat) : Sound (s.withdraw serial) := by
  unfold World.withdraw
  split
  · rename_i handle holds
    exact ⟨sound.defined, sound.undisturbed, sound.own, sound.owners, sound.waits.withdraw holds,
      sound.awaits, sound.ends⟩
  · exact sound

theorem use (sound : Sound s) (program : Program L) {use : Use L} (proper : s.Proper use) :
    Sound (s.use program use) := by
  cases use with
  | makes object isVoid env => exact sound.makes proper isVoid env
  | moves target source =>
    dsimp only [World.use]
    by_cases same : target = source
    · rwa [if_pos same]
    · rw [if_neg same]
      exact sound.moves same (proper.resolve_left same)
  | drops object => exact sound.put_none proper
  | resumes object =>
    dsimp only [World.use]
    cases holds : s.objects object with
    | none => exact sound
    | some handle =>
      rcases proper handle holds with is | is
      · obtain ⟨frame, isFrame, point⟩ := World.frames_of_stage is
        have going : frame.done = false := Frame.not_done (by simp [point])
        cases env : frame.point <;> simp only [env, Point.stage, reduceCtorEq] at point
        dsimp only
        rw [World.awaitReady_some isFrame, going, if_neg Bool.false_ne_true,
          World.resume_start program isFrame env]
        exact (sound.setRunning isFrame (Or.inl (by simp [env, Point.stage])) _).withNative _
      · obtain ⟨frame, isFrame, point⟩ := World.frames_of_stage is
        dsimp only
        rwa [World.awaitReady_some isFrame, Frame.done_iff.mpr point, if_pos rfl]
  | withdraws serial => exact sound.withdraw serial

theorem setTaken (sound : Sound s) (program : Program L) {handle : Handle} {frame : Frame L}
    (is : s.frames handle = some frame) (done : frame.done = true) :
    Sound (s.setFrame handle (frame.taken program)) := by
  have stage : (s.setFrame handle (frame.taken program)).stage = s.stage := by
    rw [World.stage_setFrame, Frame.point_taken, ← World.stage_some is, Function.update_eq_self]
  have linked : (s.setFrame handle (frame.taken program)).continuation = s.continuation :=
    World.continuation_setFrame_same is (Frame.continuation_taken program frame)
  constructor
  · exact sound.defined
  · exact sound.undisturbed
  · exact sound.own
  · exact stage ▸ sound.owners
  · exact stage ▸ sound.waits
  · exact linked ▸ stage ▸ sound.awaits
  · apply sound.ends.update is (Frame.done_taken program frame) (Frame.isVoid_taken program frame)
      (Frame.exception_taken program frame)
    intro going
    rw [done] at going
    cases going

theorem withResumed (sound : Sound s) {r : Resumed L} (own : (r.child, r.outcome) ∈ s.finished) :
    Sound { s with resumed := s.resumed ++ [r] } where
  defined := sound.defined
  undisturbed := sound.undisturbed
  own r' member := by
    rcases List.mem_append.mp member with member | member
    · exact sound.own r' member
    · rwa [List.mem_singleton.mp member]
  owners := sound.owners
  waits := sound.waits
  awaits := sound.awaits
  ends := sound.ends

theorem awaitResume (sound : Sound s) (program : Program L) {parent child : Handle}
    {frame awaited : Frame L} {outcome : Outcome L} (is : s.frames parent = some frame)
    (running : frame.point.stage = .runs) (isChild : s.frames child = some awaited)
    (done : awaited.done = true) (result : awaited.result = some outcome)
    (own : (child, outcome) ∈ s.finished) (resume : Outcome L → L.Env) :
    Sound (s.awaitResume program parent frame (some child) resume) := by
  have different : parent ≠ child := by
    intro same
    rw [same, isChild] at is
    cases is
    rw [Frame.done_iff, running] at done
    cases done
  have kept : (s.setFrame child (awaited.taken program)).frames parent = some frame := by
    rwa [World.frames_setFrame_ne different]
  simp only [World.awaitResume, isChild, result]
  exact ((sound.setTaken program isChild done).setRunning kept (Or.inr running) _).withResumed own

theorem begin (sound : Sound s) (program : Program L) {parent child : Handle}
    {frame awaited : Frame L} (is : s.frames parent = some frame)
    (running : frame.point.stage = .runs) (isChild : s.frames child = some awaited)
    (fresh : awaited.point.stage = .fresh) (native : List Resume) (resume : Outcome L → L.Env) :
    Sound ({ s.setFrame parent { frame with point := .await child resume } with
      native }.awaitSuspend program child parent) := by
  have different : child ≠ parent := by
    intro same
    rw [same, is] at isChild
    cases isChild
    rw [running] at fresh
    cases fresh
  have stage := World.stage_some is
  have stageChild := World.stage_some isChild
  rw [running] at stage
  rw [fresh] at stageChild
  cases point : awaited.point <;> simp only [point, Point.stage, reduceCtorEq] at fresh
  rename_i env
  let suspended : Frame L := { frame with point := .await child resume }
  let linked : Frame L :=
    { awaited with promise := { awaited.promise with continuation := some parent } }
  have started : ({ s.setFrame parent suspended with native }.awaitSuspend program child parent) =
      { (s.setFrame parent suspended).setFrame child { linked with point := .running env } with
        native := ⟨child, .body⟩ :: native } := by
    have isChild' : (s.setFrame parent suspended).frames child = some awaited := by
      rwa [World.frames_setFrame_ne different]
    simp only [World.awaitSuspend, isChild']
    have isLinked : ({ s.setFrame parent suspended with native }.setFrame child linked).frames
        child = some linked := Function.update_self ..
    rw [World.resume_start program isLinked point, World.enter, World.setFrame_setFrame]
    rfl
  rw [started]
  apply Sound.withNative
  have stages : ((s.setFrame parent suspended).setFrame child
      { linked with point := .running env }).stage =
        Function.update (Function.update s.stage parent (some (.awaits child))) child
          (some .runs) := by
    rw [World.stage_setFrame, World.stage_setFrame]
    rfl
  have continuations : ((s.setFrame parent suspended).setFrame child
      { linked with point := .running env }).continuation =
        Function.update s.continuation child (some parent) := by
    have kept : (s.setFrame parent suspended).continuation = s.continuation :=
      World.continuation_setFrame_same is rfl
    rw [World.continuation_setFrame, kept]
  constructor
  · exact sound.defined
  · exact sound.undisturbed
  · exact sound.own
  · rw [stages]
    apply Owners.update
    · exact sound.owners.update (by simp [stage]) _
    · simp [Function.update_of_ne different, stageChild]
  · rw [stages]
    apply Waits.update
    · exact sound.waits.update (sound.waits.unheld (by simp [stage])) (by simp)
    · exact sound.waits.unheld (by simp [stageChild])
    · simp
  · rw [stages, continuations]
    exact sound.awaits.begin stage stageChild (sound.owners.numbered child (by simp [stageChild]))
  · have ends : Ends (s.setFrame parent suspended).frames s.finished s.next :=
      sound.ends.goOn is (by simp [running]) (by simp [suspended, Point.stage]) rfl rfl rfl
    have isChild' : (s.setFrame parent suspended).frames child = some awaited := by
      rwa [World.frames_setFrame_ne different]
    exact ends.goOn isChild' (by simp [point, Point.stage]) (by simp [Point.stage]) rfl rfl rfl

theorem suspend (sound : Sound s) {handle : Handle} {frame : Frame L}
    (is : s.frames handle = some frame) (running : frame.point.stage = .runs)
    (early : Option L.Reply) (resume : L.Reply → L.Env) (native : List Resume) :
    Sound { s.setFrame handle { frame with point := .wait s.waits early resume } with
      native
      waiting := Function.update s.waiting s.waits (some handle)
      waits := s.waits + 1 } := by
  have stage := World.stage_some is
  rw [running] at stage
  have linked : (s.setFrame handle { frame with point := .wait s.waits early resume }).continuation =
      s.continuation := World.continuation_setFrame_same is rfl
  constructor
  · exact sound.defined
  · exact sound.undisturbed
  · exact sound.own
  · change Owners s.objects
      (s.setFrame handle { frame with point := .wait s.waits early resume }).stage s.next
    rw [World.stage_setFrame]
    exact sound.owners.update (by simp [stage]) _
  · change Waits (s.setFrame handle { frame with point := .wait s.waits early resume }).stage _ _ _ _
    rw [World.stage_setFrame]
    exact sound.waits.suspend (by simp [stage])
  · change Awaits (s.setFrame handle { frame with point := .wait s.waits early resume }).stage
      (s.setFrame handle { frame with point := .wait s.waits early resume }).continuation s.next
    rw [World.stage_setFrame, linked]
    exact sound.awaits.update stage (by simp) (by simp) (by simp [Point.stage]) rfl
  · exact sound.ends.goOn is (by simp [running]) (by simp [Point.stage]) rfl rfl rfl

theorem event (sound : Sound s) (program : Program L) {serial : Nat} {handle : Handle}
    (holds : s.waiting serial = some handle) (reply : L.Reply) :
    Sound ({ s with waiting := Function.update s.waiting serial none }.resume program
      (.event serial reply) handle) := by
  obtain ⟨_, _, _, suspended⟩ := sound.waits.held serial handle holds
  obtain ⟨frame, is, stage⟩ := World.frames_of_stage suspended
  cases point : frame.point <;> simp only [point, Point.stage, reduceCtorEq] at stage
  rename_i n early resume
  cases stage
  have linked : (s.setFrame handle { frame with point := .running (resume reply) }).continuation =
      s.continuation := World.continuation_setFrame_same is rfl
  simp only [World.resume, is, point, World.note, Caller.reply, if_true]
  constructor
  · exact sound.defined
  · exact sound.undisturbed
  · exact sound.own
  · change Owners s.objects
      (s.setFrame handle { frame with point := .running (resume reply) }).stage s.next
    rw [World.stage_setFrame]
    exact sound.owners.update (by simp [suspended]) _
  · change Waits (s.setFrame handle { frame with point := .running (resume reply) }).stage _ _ _ _
    rw [World.stage_setFrame]
    exact sound.waits.event holds
  · change Awaits (s.setFrame handle { frame with point := .running (resume reply) }).stage
      (s.setFrame handle { frame with point := .running (resume reply) }).continuation s.next
    rw [World.stage_setFrame, linked]
    exact sound.awaits.update suspended (by simp) (by simp) (by simp [Point.stage]) rfl
  · exact sound.ends.goOn is (by simp [point, Point.stage]) (by simp [Point.stage]) rfl rfl rfl

/-- A coroutine finishes, and the one that awaits it goes on with its outcome. -/
theorem handOver (sound : Sound s) {handle parent : Handle} {frame above last goesOn : Frame L}
    (is : s.frames handle = some frame) (running : frame.point.stage = .runs)
    (isParent : s.frames parent = some above) (suspended : above.point.stage = .awaits handle)
    (isLast : last.point.stage = .finished)
    (linked : last.promise.continuation = frame.promise.continuation)
    (goes : goesOn.point.stage = .runs) (promise : goesOn.promise = above.promise)
    (isVoid : goesOn.isVoid = above.isVoid) {outcome : Outcome L} (agrees : last.Agrees outcome)
    (native : List Resume) :
    Sound { (s.setFrame handle last).setFrame parent goesOn with
      native
      finished := s.finished ++ [(handle, outcome)]
      resumed := s.resumed ++ [⟨parent, handle, outcome⟩] } := by
  have stage := World.stage_some is
  have stageParent := World.stage_some isParent
  rw [running] at stage
  rw [suspended] at stageParent
  have live : s.stage handle ≠ none := by simp [stage]
  obtain ⟨awaited, different, _⟩ := sound.awaits.below parent handle stageParent .runs stage
  have isAbove : (s.setFrame handle last).frames parent = some above := by
    rwa [World.frames_setFrame_ne different.symm]
  have stages : ((s.setFrame handle last).setFrame parent goesOn).stage =
      Function.update (Function.update s.stage handle (some .finished)) parent (some .runs) := by
    rw [World.stage_setFrame, World.stage_setFrame, isLast, goes]
  have continuations : ((s.setFrame handle last).setFrame parent goesOn).continuation =
      s.continuation := by
    rw [World.continuation_setFrame_same isAbove (by rw [promise]),
      World.continuation_setFrame_same is linked]
  constructor
  · exact sound.defined
  · exact sound.undisturbed
  · intro r member
    rcases List.mem_append.mp member with member | member
    · exact List.mem_append_left _ (sound.own r member)
    · rw [List.mem_singleton.mp member]
      exact List.mem_append_right _ List.mem_cons_self
  · change Owners s.objects ((s.setFrame handle last).setFrame parent goesOn).stage s.next
    rw [stages]
    apply Owners.update
    · exact sound.owners.update live .finished
    · simp [Function.update_of_ne different.symm, stageParent]
  · change Waits ((s.setFrame handle last).setFrame parent goesOn).stage s.waiting s.waits s.ended
      s.withdrawn
    rw [stages]
    apply Waits.update
    · exact sound.waits.update (sound.waits.unheld (by simp [stage])) (by simp)
    · exact sound.waits.unheld (by simp [stageParent])
    · simp
  · change Awaits ((s.setFrame handle last).setFrame parent goesOn).stage
      ((s.setFrame handle last).setFrame parent goesOn).continuation s.next
    rw [stages, continuations]
    exact sound.awaits.handOver stage awaited
  · have ends : Ends (s.setFrame handle last).frames (s.finished ++ [(handle, outcome)]) s.next :=
      sound.ends.finish is (Frame.not_done (by simp [running]))
        (sound.owners.numbered handle live) (Frame.done_iff.mpr isLast) agrees
    exact ends.goOn isAbove (by simp [suspended]) (by simp [goes]) isVoid (by rw [promise])
      (by rw [promise])

theorem finishAlone (sound : Sound s) {handle : Handle} {frame last : Frame L}
    (is : s.frames handle = some frame) (running : frame.point.stage = .runs)
    (alone : frame.promise.continuation = none) (isLast : last.point.stage = .finished)
    (linked : last.promise.continuation = frame.promise.continuation) {outcome : Outcome L}
    (agrees : last.Agrees outcome) (native : List Resume) :
    Sound { s.setFrame handle last with native, finished := s.finished ++ [(handle, outcome)] } := by
  have stage := World.stage_some is
  rw [running] at stage
  have live : s.stage handle ≠ none := by simp [stage]
  have unlinked : s.continuation handle = none := by
    rw [World.continuation, is]
    exact alone
  have stages : (s.setFrame handle last).stage =
      Function.update s.stage handle (some .finished) := by
    rw [World.stage_setFrame, isLast]
  constructor
  · exact sound.defined
  · exact sound.undisturbed
  · exact fun r member => List.mem_append_left _ (sound.own r member)
  · change Owners s.objects (s.setFrame handle last).stage s.next
    rw [stages]
    exact sound.owners.update live .finished
  · change Waits (s.setFrame handle last).stage s.waiting s.waits s.ended s.withdrawn
    rw [stages]
    exact sound.waits.update (sound.waits.unheld (by simp [stage])) (by simp)
  · change Awaits (s.setFrame handle last).stage (s.setFrame handle last).continuation s.next
    rw [stages, World.continuation_setFrame_same is linked]
    exact sound.awaits.finish stage unlinked
  · exact sound.ends.finish is (Frame.not_done (by simp [running]))
      (sound.owners.numbered handle live) (Frame.done_iff.mpr isLast) agrees

theorem finish (sound : Sound s) (program : Program L) {handle : Handle} {frame : Frame L}
    (is : s.frames handle = some frame) (running : frame.point.stage = .runs)
    (native : List Resume) (ending : Except L.Error L.Value) :
    Sound (s.finish program handle frame native ending) := by
  have stage := World.stage_some is
  rw [running] at stage
  obtain ⟨_, exception, _⟩ :=
    sound.ends.clean handle frame is (Frame.not_done (by simp [running]))
  have linked := Frame.continuation_leave frame ending
  have agrees := Frame.agrees_leave exception ending
  cases awaited : frame.promise.continuation with
  | none =>
    simp only [World.finish, linked, awaited]
    exact sound.finishAlone is running awaited rfl linked agrees native
  | some parent =>
    have above := sound.awaits.above handle parent
      (by rw [World.continuation, is]; exact awaited) (by simp [stage])
    have different := (sound.awaits.below parent handle above .runs stage).2.1.symm
    obtain ⟨suspended, isParent, point⟩ := World.frames_of_stage above
    cases await : suspended.point <;> simp only [await, Point.stage, reduceCtorEq] at point
    rename_i child resume
    cases point
    have result := (Frame.result_iff agrees).mpr (Frame.holds_leave frame ending)
    have handed : s.finish program handle frame native ending =
        { (s.setFrame handle (Frame.taken program
            { frame with promise := frame.leave ending, point := .final })).setFrame parent
              { suspended with point := .running (resume (frame.outcome ending)) } with
          native := ⟨parent, .body⟩ :: ⟨handle, .finalSuspend⟩ :: native
          finished := s.finished ++ [(handle, frame.outcome ending)]
          resumed := s.resumed ++ [⟨parent, handle, frame.outcome ending⟩] } := by
      simp only [World.finish, linked, awaited, World.resume, World.setFrame,
        Function.update_of_ne different, isParent, await, World.note, if_true, World.awaitResume,
        Function.update_self, result, Function.update_idem]
    rw [handed]
    refine sound.handOver is running isParent (by simp [await, Point.stage]) ?_ ?_ ?_ ?_ ?_
      ?_ _
    · rw [Frame.point_taken]
      rfl
    · rw [Frame.continuation_taken, linked]
    · rfl
    · rfl
    · rfl
    · exact Frame.agrees_taken program agrees

end Sound

end CoroEpoll.Objects
