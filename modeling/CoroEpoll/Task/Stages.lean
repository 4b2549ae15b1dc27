import CoroEpoll.Library.Table
import CoroEpoll.Task.Objects
import Mathlib.Data.List.Nodup

/-! Where the coroutines of the `Task` objects are, and what the stages of all of them have to do
with the objects, the waits and the co_await expressions that have begun.
-/

set_option autoImplicit false

namespace CoroEpoll.Objects

open Routines
open CoroEpoll.Task (Handle)

inductive Stage where
  | fresh
  | runs
  | awaits (child : Handle)
  | waits (serial : Nat)
  | finished
  deriving DecidableEq, Repr

def Point.stage {L : Lang} : Point L → Stage
  | .initial _ => .fresh
  | .running _ => .runs
  | .await child _ => .awaits child
  | .wait serial _ _ => .waits serial
  | .final => .finished

theorem Frame.done_iff {L : Lang} {frame : Frame L} :
    frame.done = true ↔ frame.point.stage = .finished := by
  unfold done
  cases frame.point <;> simp [Point.stage]

theorem Frame.not_done {L : Lang} {frame : Frame L} (going : frame.point.stage ≠ .finished) :
    frame.done = false := by
  rw [Bool.eq_false_iff]
  exact fun done => going (Frame.done_iff.mp done)

theorem Frame.done_congr {L : Lang} {old new : Frame L} (going : old.point.stage ≠ .finished)
    (goes : new.point.stage ≠ .finished) : new.done = old.done :=
  (not_done goes).trans (not_done going).symm

def Stage.begun : Stage → Bool
  | .fresh | .finished => false
  | .runs | .awaits _ | .waits _ => true

/-- The stage of each coroutine that has a frame. -/
abbrev Stages := Handle → Option Stage

/-! ## The objects -/

structure Owners (objects : Nat → Option Handle) (stage : Stages) (next : Handle) : Prop where
  live : ∀ object handle, objects object = some handle → stage handle ≠ none
  distinct : ∀ object object' handle, objects object = some handle →
    objects object' = some handle → object = object'
  numbered : ∀ handle, stage handle ≠ none → handle < next

namespace Owners

variable {objects : Nat → Option Handle} {stage stage' : Stages} {next : Handle}

theorem congr (owners : Owners objects stage next)
    (same : ∀ handle, stage' handle = none ↔ stage handle = none) :
    Owners objects stage' next where
  live object handle holds := fun gone => owners.live object handle holds ((same handle).mp gone)
  distinct := owners.distinct
  numbered handle live := owners.numbered handle fun gone => live ((same handle).mpr gone)

theorem update (owners : Owners objects stage next) {handle : Handle}
    (live : stage handle ≠ none) (new : Stage) :
    Owners objects (Function.update stage handle (some new)) next := by
  apply owners.congr
  intro other
  rw [Table.update_eq_none]
  constructor
  · exact And.right
  · intro gone
    exact ⟨fun same => live (same ▸ gone), gone⟩

theorem next_gone (owners : Owners objects stage next) : stage next = none := by
  by_contra live
  exact Nat.lt_irrefl next (owners.numbered next live)

theorem create (owners : Owners objects stage next) :
    Owners objects (Function.update stage next (some .fresh)) (next + 1) where
  live object handle holds := by
    rw [Function.update_apply]
    split
    · exact Option.some_ne_none _
    · exact owners.live object handle holds
  distinct := owners.distinct
  numbered handle live := by
    rw [Function.update_apply] at live
    split at live
    · rename_i same
      exact same ▸ Nat.lt_succ_self next
    · exact Nat.lt_succ_of_lt (owners.numbered handle live)

theorem clear (owners : Owners objects stage next) (object : Nat) :
    Owners (Function.update objects object none) stage next where
  live other handle holds := owners.live other handle (Table.clear_eq_some.mp holds).2
  distinct first second handle holds holds' :=
    owners.distinct first second handle (Table.clear_eq_some.mp holds).2
      (Table.clear_eq_some.mp holds').2
  numbered := owners.numbered

theorem destroy (owners : Owners objects stage next) {handle : Handle}
    (free : ∀ object, objects object ≠ some handle) :
    Owners objects (Function.update stage handle none) next where
  live object other holds := by
    rw [Function.update_of_ne]
    · exact owners.live object other holds
    · intro same
      exact free object (same ▸ holds)
  distinct := owners.distinct
  numbered other live := by
    rw [Function.update_apply] at live
    split at live
    · exact absurd rfl live
    · exact owners.numbered other live

theorem give (owners : Owners objects stage next) (object : Nat) {handle : Handle}
    (live : stage handle ≠ none) (free : ∀ object, objects object ≠ some handle) :
    Owners (Function.update objects object (some handle)) stage next where
  live other handle' holds := by
    rcases Table.enter_eq_some.mp holds with ⟨_, rfl⟩ | ⟨_, holds⟩
    · exact live
    · exact owners.live other handle' holds
  distinct first second handle' holds holds' := by
    rcases Table.enter_eq_some.mp holds with ⟨isFirst, same⟩ | ⟨_, before⟩
    · rcases Table.enter_eq_some.mp holds' with ⟨isSecond, _⟩ | ⟨_, before'⟩
      · rw [isFirst, isSecond]
      · exact absurd (same ▸ before') (free second)
    · rcases Table.enter_eq_some.mp holds' with ⟨_, same⟩ | ⟨_, before'⟩
      · exact absurd (same ▸ before) (free first)
      · exact owners.distinct first second handle' before before'
  numbered := owners.numbered

end Owners

/-! ## The waits -/

/-- Every wait is ended by its event, once, or withdrawn, or holds a coroutine that is suspended
in it. -/
structure Waits (stage : Stages) (waiting : Nat → Option Handle) (waits : Nat)
    (ended withdrawn : List Nat) : Prop where
  once : ended.Nodup
  past : ∀ n, n ∈ ended ∨ n ∈ withdrawn → n < waits
  registered : ∀ handle n, stage handle = some (.waits n) → n ∉ withdrawn →
    waiting n = some handle
  held : ∀ n handle, waiting n = some handle →
    n < waits ∧ n ∉ ended ∧ n ∉ withdrawn ∧ stage handle = some (.waits n)
  pending : ∀ n < waits, n ∉ ended → n ∉ withdrawn → waiting n ≠ none

namespace Waits

variable {stage : Stages} {waiting : Nat → Option Handle} {waits : Nat}
  {ended withdrawn : List Nat}

theorem unheld (inv : Waits stage waiting waits ended withdrawn) {handle : Handle}
    (away : ∀ n, stage handle ≠ some (.waits n)) (n : Nat) : waiting n ≠ some handle :=
  fun holds => away n (inv.held n handle holds).2.2.2

/-- A coroutine that nothing is to resume from a wait, and that is in none afterwards. -/
theorem update (inv : Waits stage waiting waits ended withdrawn) {handle : Handle}
    {new : Option Stage} (before : ∀ n, waiting n ≠ some handle)
    (after : ∀ n, new ≠ some (.waits n)) :
    Waits (Function.update stage handle new) waiting waits ended withdrawn where
  once := inv.once
  past := inv.past
  registered other n suspended := by
    obtain ⟨_, suspended⟩ := Table.entry_of_update suspended (after n)
    exact inv.registered other n suspended
  held n other holds := by
    obtain ⟨below, notEnded, kept, suspended⟩ := inv.held n other holds
    have different : other ≠ handle := fun same => before n (same ▸ holds)
    exact ⟨below, notEnded, kept, (Function.update_of_ne different ..).trans suspended⟩
  pending := inv.pending

theorem suspend (inv : Waits stage waiting waits ended withdrawn) {handle : Handle}
    (before : ∀ n, stage handle ≠ some (.waits n)) :
    Waits (Function.update stage handle (some (.waits waits)))
      (Function.update waiting waits (some handle)) (waits + 1) ended withdrawn where
  once := inv.once
  past n member := Nat.lt_succ_of_lt (inv.past n member)
  registered other n suspended kept := by
    rcases Table.enter_eq_some.mp suspended with ⟨rfl, same⟩ | ⟨_, suspended⟩
    · cases same
      rw [Function.update_self]
    · have holds := inv.registered other n suspended kept
      have below := (inv.held n other holds).1
      rw [Function.update_of_ne (by omega), holds]
  held n other holds := by
    rcases Table.enter_eq_some.mp holds with ⟨rfl, rfl⟩ | ⟨_, holds⟩
    · rw [Function.update_self]
      exact ⟨by omega, fun member => Nat.lt_irrefl _ (inv.past n (Or.inl member)),
        fun member => Nat.lt_irrefl _ (inv.past n (Or.inr member)), rfl⟩
    · obtain ⟨below, notEnded, kept, suspended⟩ := inv.held n other holds
      exact ⟨by omega, notEnded, kept, Table.update_of_entry suspended (before n)⟩
  pending n below notEnded kept := by
    rw [ne_eq, Table.update_eq_none]
    intro ⟨different, gone⟩
    exact inv.pending n (by omega) notEnded kept gone

theorem event (inv : Waits stage waiting waits ended withdrawn) {n : Nat} {handle : Handle}
    (holds : waiting n = some handle) :
    Waits (Function.update stage handle (some .runs)) (Function.update waiting n none) waits
      (ended ++ [n]) withdrawn := by
  obtain ⟨below, notEnded, kept, suspended⟩ := inv.held n handle holds
  constructor
  · simpa [List.nodup_append] using ⟨inv.once, fun m member same => notEnded (same ▸ member)⟩
  · intro m member
    rcases member with member | member
    · rcases List.mem_append.mp member with member | member
      · exact inv.past m (Or.inl member)
      · rwa [List.mem_singleton.mp member]
    · exact inv.past m (Or.inr member)
  · intro other m waits' kept'
    have differs : some Stage.runs ≠ some (.waits m) := by simp
    obtain ⟨different, waits'⟩ := Table.entry_of_update waits' differs
    have registered := inv.registered other m waits' kept'
    apply Table.update_of_entry registered
    intro same
    exact different (Option.some.inj (same.symm.trans holds))
  · intro m other holds'
    obtain ⟨different, holds'⟩ := Table.clear_eq_some.mp holds'
    obtain ⟨below', notEnded', kept', suspended'⟩ := inv.held m other holds'
    refine ⟨below', by simp [notEnded', different], kept', Table.update_of_entry suspended' ?_⟩
    rw [suspended]
    intro same
    cases same
    exact different rfl
  · intro m below' notEnded' kept'
    rw [List.mem_append, List.mem_singleton, not_or] at notEnded'
    rw [Function.update_of_ne notEnded'.2]
    exact inv.pending m below' notEnded'.1 kept'

theorem withdraw (inv : Waits stage waiting waits ended withdrawn) {n : Nat} {handle : Handle}
    (holds : waiting n = some handle) :
    Waits stage (Function.update waiting n none) waits ended (withdrawn ++ [n]) where
  once := inv.once
  past m member := by
    rcases member with member | member
    · exact inv.past m (Or.inl member)
    · rcases List.mem_append.mp member with member | member
      · exact inv.past m (Or.inr member)
      · rw [List.mem_singleton.mp member]
        exact (inv.held n handle holds).1
  registered other m suspended kept := by
    rw [List.mem_append, List.mem_singleton, not_or] at kept
    rw [Function.update_of_ne kept.2]
    exact inv.registered other m suspended kept.1
  held m other holds' := by
    obtain ⟨different, holds'⟩ := Table.clear_eq_some.mp holds'
    obtain ⟨below, notEnded, kept, suspended⟩ := inv.held m other holds'
    exact ⟨below, notEnded, by simp [kept, different], suspended⟩
  pending m below notEnded kept := by
    rw [List.mem_append, List.mem_singleton, not_or] at kept
    rw [Function.update_of_ne kept.2]
    exact inv.pending m below notEnded kept.1

end Waits

/-! ## The co_await expressions -/

/-- Every coroutine that is suspended in a co_await is the continuation of one that has not
finished, if that one is still there, and the other way round. -/
structure Awaits (stage : Stages) (continuation : Handle → Option Handle) (next : Handle) :
    Prop where
  above : ∀ child parent, continuation child = some parent → stage child ≠ some .finished →
    stage parent = some (.awaits child)
  below : ∀ parent child, stage parent = some (.awaits child) → ∀ begun, stage child = some begun →
    continuation child = some parent ∧ child ≠ parent ∧ begun.begun = true
  numbered : ∀ parent child, stage parent = some (.awaits child) → child < next

namespace Awaits

variable {stage : Stages} {continuation : Handle → Option Handle} {next : Handle}

theorem update (inv : Awaits stage continuation next) {handle : Handle} {old new : Stage}
    (is : stage handle = some old) (before : ∀ child, old ≠ .awaits child)
    (going : old ≠ .finished) (after : ∀ child, new ≠ .awaits child) (begun : new.begun = true) :
    Awaits (Function.update stage handle (some new)) continuation next where
  above child parent linked unfinished := by
    have unfinished : stage child ≠ some .finished := by
      by_cases same : child = handle
      · simpa [same, is] using going
      · rwa [Function.update_of_ne same] at unfinished
    have suspended := inv.above child parent linked unfinished
    exact Table.update_of_entry suspended (by simpa [is] using before child)
  below parent child suspended last isLast := by
    have differs : some new ≠ some (.awaits child) := by simpa using after child
    obtain ⟨_, awaits⟩ := Table.entry_of_update suspended differs
    rcases Table.enter_eq_some.mp isLast with ⟨rfl, rfl⟩ | ⟨_, before⟩
    · obtain ⟨linked, different, _⟩ := inv.below parent child awaits old is
      exact ⟨linked, different, begun⟩
    · exact inv.below parent child awaits last before
  numbered parent child suspended := by
    have differs : some new ≠ some (.awaits child) := by simpa using after child
    obtain ⟨_, suspended⟩ := Table.entry_of_update suspended differs
    exact inv.numbered parent child suspended

theorem begin (inv : Awaits stage continuation next) {parent child : Handle}
    (running : stage parent = some .runs) (fresh : stage child = some .fresh)
    (isNumbered : child < next) :
    Awaits (Function.update (Function.update stage parent (some (.awaits child))) child (some .runs))
      (Function.update continuation child (some parent)) next := by
  have different : child ≠ parent := by
    intro same
    rw [same, running] at fresh
    cases fresh
  -- no coroutine awaits either of them
  have parentless : ∀ c p, stage p = some (.awaits c) → p ≠ parent ∧ p ≠ child ∧ c ≠ child := by
    intro c p suspended
    refine ⟨?_, ?_, ?_⟩
    · intro same
      rw [same, running] at suspended
      cases suspended
    · intro same
      rw [same, fresh] at suspended
      cases suspended
    · intro same
      obtain ⟨_, _, started⟩ := inv.below p c suspended .fresh (same ▸ fresh)
      cases started
  -- and a coroutine that is in a co_await afterwards is the parent or was in it before
  have whose : ∀ p c, Function.update (Function.update stage parent (some (.awaits child))) child
      (some .runs) p = some (.awaits c) → p = parent ∧ c = child ∨ stage p = some (.awaits c) := by
    intro p c suspended
    obtain ⟨_, suspended⟩ := Table.entry_of_update suspended (by simp)
    rcases Table.enter_eq_some.mp suspended with ⟨isParent, same⟩ | ⟨_, suspended⟩
    · cases same
      exact Or.inl ⟨isParent, rfl⟩
    · exact Or.inr suspended
  constructor
  · intro c p linked unfinished
    by_cases same : c = child
    · subst same
      rw [Function.update_self] at linked
      cases linked
      rw [Function.update_of_ne different.symm, Function.update_self]
    · rw [Function.update_of_ne same] at linked unfinished
      have unfinished : stage c ≠ some .finished := by
        by_cases same : c = parent
        · simp [same, running]
        · rwa [Function.update_of_ne same] at unfinished
      have suspended := inv.above c p linked unfinished
      obtain ⟨notParent, notChild, _⟩ := parentless c p suspended
      rw [Function.update_of_ne notChild, Function.update_of_ne notParent, suspended]
  · intro p c suspended begun isBegun
    rcases whose p c suspended with ⟨rfl, rfl⟩ | suspended
    · rw [Function.update_self] at isBegun ⊢
      cases isBegun
      exact ⟨rfl, different, rfl⟩
    · obtain ⟨_, _, notChild⟩ := parentless c p suspended
      rw [Function.update_of_ne notChild] at isBegun ⊢
      by_cases same : c = parent
      · rw [same, Function.update_self] at isBegun
        cases isBegun
        obtain ⟨linked, other, _⟩ := inv.below p c suspended .runs (same ▸ running)
        exact ⟨linked, other, rfl⟩
      · rw [Function.update_of_ne same] at isBegun
        exact inv.below p c suspended begun isBegun
  · intro p c suspended
    rcases whose p c suspended with ⟨_, rfl⟩ | suspended
    · exact isNumbered
    · exact inv.numbered p c suspended

theorem finish (inv : Awaits stage continuation next) {handle : Handle}
    (running : stage handle = some .runs) (unlinked : continuation handle = none) :
    Awaits (Function.update stage handle (some .finished)) continuation next where
  above child parent linked unfinished := by
    by_cases same : child = handle
    · rw [same, unlinked] at linked
      cases linked
    rw [Function.update_of_ne same] at unfinished
    exact Table.update_of_entry (inv.above child parent linked unfinished) (by simp [running])
  below parent child suspended begun isBegun := by
    obtain ⟨_, awaits⟩ := Table.entry_of_update suspended (by simp)
    by_cases same : child = handle
    · subst same
      obtain ⟨linked, _⟩ := inv.below parent child awaits .runs running
      rw [unlinked] at linked
      cases linked
    · rw [Function.update_of_ne same] at isBegun
      exact inv.below parent child awaits begun isBegun
  numbered parent child suspended := by
    obtain ⟨_, suspended⟩ := Table.entry_of_update suspended (by simp)
    exact inv.numbered parent child suspended

theorem handOver (inv : Awaits stage continuation next) {handle parent : Handle}
    (running : stage handle = some .runs) (linked : continuation handle = some parent) :
    Awaits (Function.update (Function.update stage handle (some .finished)) parent (some .runs))
      continuation next := by
  have waits := inv.above handle parent linked (by simp [running])
  have different : handle ≠ parent := (inv.below parent handle waits .runs running).2.1
  have before : ∀ p c, Function.update (Function.update stage handle (some .finished)) parent
      (some .runs) p = some (.awaits c) → stage p = some (.awaits c) := by
    intro p c suspended
    obtain ⟨_, suspended⟩ := Table.entry_of_update suspended (by simp)
    obtain ⟨_, suspended⟩ := Table.entry_of_update suspended (by simp)
    exact suspended
  constructor
  · intro c p linked' unfinished
    by_cases same : c = handle
    · rw [same, Function.update_of_ne different, Function.update_self] at unfinished
      exact absurd rfl unfinished
    have unfinished : stage c ≠ some .finished := by
      by_cases same : c = parent
      · simp [same, waits]
      · rwa [Function.update_of_ne same, Function.update_of_ne ‹_›] at unfinished
    have suspended : Function.update stage handle (some .finished) p = some (.awaits c) :=
      Table.update_of_entry (inv.above c p linked' unfinished) (by simp [running])
    apply Table.update_of_entry suspended
    rw [Function.update_of_ne different.symm, waits]
    intro again
    cases again
    exact same rfl
  · intro p c suspended begun isBegun
    have aside : p ≠ parent := by
      rintro rfl
      rw [Function.update_self] at suspended
      cases suspended
    have awaits := before p c suspended
    by_cases same : c = parent
    · subst same
      rw [Function.update_self] at isBegun
      cases isBegun
      obtain ⟨linked', other, _⟩ := inv.below p c awaits _ waits
      exact ⟨linked', other, rfl⟩
    by_cases ended : c = handle
    · -- it has one continuation, which goes on
      subst ended
      obtain ⟨linked', _⟩ := inv.below p c awaits .runs running
      cases linked.symm.trans linked'
      exact absurd rfl aside
    · rw [Function.update_of_ne same, Function.update_of_ne ended] at isBegun
      exact inv.below p c awaits begun isBegun
  · exact fun p c suspended => inv.numbered p c (before p c suspended)

theorem create (inv : Awaits stage continuation next) (gone : stage next = none) :
    Awaits (Function.update stage next (some .fresh)) (Function.update continuation next none)
      (next + 1) where
  above child parent linked unfinished := by
    obtain ⟨different, linked⟩ := Table.clear_eq_some.mp linked
    rw [Function.update_of_ne different] at unfinished
    exact Table.update_of_entry (inv.above child parent linked unfinished) (by simp [gone])
  below parent child suspended begun isBegun := by
    obtain ⟨_, suspended⟩ := Table.entry_of_update suspended (by simp)
    have other : child ≠ next := Nat.ne_of_lt (inv.numbered parent child suspended)
    rw [Function.update_of_ne other] at isBegun ⊢
    exact inv.below parent child suspended begun isBegun
  numbered parent child suspended := by
    obtain ⟨_, suspended⟩ := Table.entry_of_update suspended (by simp)
    exact Nat.lt_succ_of_lt (inv.numbered parent child suspended)

theorem destroy (inv : Awaits stage continuation next) {handle : Handle}
    (live : ∀ child parent, continuation child = some parent → stage child ≠ none)
    (alone : ∀ child, stage handle = some (.awaits child) → stage child = none) :
    Awaits (Function.update stage handle none) (Function.update continuation handle none) next where
  above child parent linked unfinished := by
    obtain ⟨different, before⟩ := Table.clear_eq_some.mp linked
    rw [Function.update_of_ne different] at unfinished
    have suspended := inv.above child parent before unfinished
    rw [Function.update_of_ne, suspended]
    rintro rfl
    exact live child parent before (alone child suspended)
  below parent child suspended begun isBegun := by
    obtain ⟨_, suspended⟩ := Table.clear_eq_some.mp suspended
    obtain ⟨different, isBegun⟩ := Table.clear_eq_some.mp isBegun
    rw [Function.update_of_ne different]
    exact inv.below parent child suspended begun isBegun
  numbered parent child suspended := inv.numbered parent child (Table.clear_eq_some.mp suspended).2

end Awaits

/-! ## The promises -/

/-- The promise of a finished coroutine says how its body ended, whatever value it has. -/
def Frame.Agrees {L : Lang} (frame : Frame L) : Outcome L → Prop
  | .returned value => frame.promise.exception = none ∧ value.isNone = frame.isVoid
  | .threw error => frame.promise.exception = some error

/-- A coroutine finishes once, and its promise is empty until then. -/
structure Ends {L : Lang} (frames : Handle → Option (Frame L))
    (finished : List (Handle × Outcome L)) (next : Handle) : Prop where
  numbered : ∀ handle outcome, (handle, outcome) ∈ finished → handle < next
  once : (finished.map Prod.fst).Nodup
  recorded : ∀ handle frame, frames handle = some frame → frame.done = true →
    ∃ outcome, (handle, outcome) ∈ finished
  agrees : ∀ handle frame outcome, frames handle = some frame → frame.done = true →
    (handle, outcome) ∈ finished → frame.Agrees outcome
  clean : ∀ handle frame, frames handle = some frame → frame.done = false →
    frame.promise.value = none ∧ frame.promise.exception = none ∧
      ∀ outcome, (handle, outcome) ∉ finished

namespace Ends

variable {L : Lang} {frames : Handle → Option (Frame L)} {finished : List (Handle × Outcome L)}
  {next : Handle}

theorem unique (ends : Ends frames finished next) {handle : Handle} {first second : Outcome L}
    (isFirst : (handle, first) ∈ finished) (isSecond : (handle, second) ∈ finished) :
    first = second := by
  have same := List.inj_on_of_nodup_map ends.once isFirst isSecond rfl
  exact congrArg Prod.snd same

/-- A frame that changes, but for its end and for an exception, and that has no value before. -/
theorem update (ends : Ends frames finished next) {handle : Handle} {old new : Frame L}
    (is : frames handle = some old) (done : new.done = old.done)
    (isVoid : new.isVoid = old.isVoid)
    (exception : new.promise.exception = old.promise.exception)
    (value : old.done = false → new.promise.value = old.promise.value) :
    Ends (Function.update frames handle (some new)) finished next where
  numbered := ends.numbered
  once := ends.once
  recorded other frame is' isDone := by
    rcases Table.enter_eq_some.mp is' with ⟨rfl, rfl⟩ | ⟨_, is'⟩
    · exact ends.recorded other old is (done ▸ isDone)
    · exact ends.recorded other frame is' isDone
  agrees other frame outcome is' isDone member := by
    rcases Table.enter_eq_some.mp is' with ⟨rfl, rfl⟩ | ⟨_, is'⟩
    · have agrees := ends.agrees other old outcome is (done ▸ isDone) member
      cases outcome with
      | returned value => exact ⟨exception.trans agrees.1, agrees.2.trans isVoid.symm⟩
      | threw error => exact exception.trans agrees
    · exact ends.agrees other frame outcome is' isDone member
  clean other frame is' going := by
    rcases Table.enter_eq_some.mp is' with ⟨rfl, rfl⟩ | ⟨_, is'⟩
    · have going := done ▸ going
      rw [value going, exception]
      exact ends.clean other old is going
    · exact ends.clean other frame is' going

theorem goOn (ends : Ends frames finished next) {handle : Handle} {old new : Frame L}
    (is : frames handle = some old) (going : old.point.stage ≠ .finished)
    (goes : new.point.stage ≠ .finished) (isVoid : new.isVoid = old.isVoid)
    (exception : new.promise.exception = old.promise.exception)
    (value : new.promise.value = old.promise.value) :
    Ends (Function.update frames handle (some new)) finished next :=
  ends.update is (Frame.done_congr going goes) isVoid exception fun _ => value

theorem finish (ends : Ends frames finished next) {handle : Handle} {old new : Frame L}
    (is : frames handle = some old) (going : old.done = false) (below : handle < next)
    (done : new.done = true) {outcome : Outcome L} (agrees : new.Agrees outcome) :
    Ends (Function.update frames handle (some new)) (finished ++ [(handle, outcome)]) next where
  numbered other ending member := by
    rcases List.mem_append.mp member with member | member
    · exact ends.numbered other ending member
    · cases List.mem_singleton.mp member
      exact below
  once := by
    have absent := (ends.clean handle old is going).2.2
    simpa [List.nodup_append] using ⟨ends.once, fun other ending member same =>
      absent ending (same ▸ member)⟩
  recorded other frame is' isDone := by
    rcases Table.enter_eq_some.mp is' with ⟨rfl, _⟩ | ⟨_, is'⟩
    · exact ⟨outcome, by simp⟩
    · obtain ⟨ending, member⟩ := ends.recorded other frame is' isDone
      exact ⟨ending, List.mem_append_left _ member⟩
  agrees other frame ending is' isDone member := by
    rcases Table.enter_eq_some.mp is' with ⟨rfl, rfl⟩ | ⟨different, is'⟩
    · rcases List.mem_append.mp member with member | member
      · exact absurd member ((ends.clean other old is going).2.2 ending)
      · cases List.mem_singleton.mp member
        exact agrees
    · rcases List.mem_append.mp member with member | member
      · exact ends.agrees other frame ending is' isDone member
      · cases List.mem_singleton.mp member
        exact absurd rfl different
  clean other frame is' going' := by
    rcases Table.enter_eq_some.mp is' with ⟨rfl, rfl⟩ | ⟨different, is'⟩
    · rw [done] at going'
      cases going'
    · obtain ⟨value, exception, absent⟩ := ends.clean other frame is' going'
      refine ⟨value, exception, fun ending member => ?_⟩
      rcases List.mem_append.mp member with member | member
      · exact absent ending member
      · cases List.mem_singleton.mp member
        exact different rfl

theorem create (ends : Ends frames finished next) (isVoid : Bool) (env : L.Env) :
    Ends (Function.update frames next (some ⟨isVoid, .empty, .initial env⟩)) finished (next + 1)
    where
  numbered handle outcome member := Nat.lt_succ_of_lt (ends.numbered handle outcome member)
  once := ends.once
  recorded handle frame is isDone := by
    rcases Table.enter_eq_some.mp is with ⟨_, rfl⟩ | ⟨_, is⟩
    · cases isDone
    · exact ends.recorded handle frame is isDone
  agrees handle frame outcome is isDone := by
    rcases Table.enter_eq_some.mp is with ⟨_, rfl⟩ | ⟨_, is⟩
    · cases isDone
    · exact ends.agrees handle frame outcome is isDone
  clean handle frame is going := by
    rcases Table.enter_eq_some.mp is with ⟨same, rfl⟩ | ⟨_, is⟩
    · refine ⟨rfl, rfl, fun outcome member => ?_⟩
      exact Nat.lt_irrefl next (same ▸ ends.numbered handle outcome member)
    · exact ends.clean handle frame is going

theorem destroy (ends : Ends frames finished next) (handle : Handle) :
    Ends (Function.update frames handle none) finished next where
  numbered := ends.numbered
  once := ends.once
  recorded other frame is := ends.recorded other frame (Table.clear_eq_some.mp is).2
  agrees other frame outcome is := ends.agrees other frame outcome (Table.clear_eq_some.mp is).2
  clean other frame is := ends.clean other frame (Table.clear_eq_some.mp is).2

end Ends

end CoroEpoll.Objects
