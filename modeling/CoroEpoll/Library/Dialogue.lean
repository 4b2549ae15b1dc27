import CoroEpoll.Library.Routines

/-! What a routine asks of the outside and what it is told, in order: evaluation with both
sides of the exchange.
-/

set_option autoImplicit false

namespace Routines

variable {L : Lang}

abbrev Dialogue (L : Lang) := List (L.Event × L.Reply)

inductive Result (L : Lang) where
  | left (flow : Flow L)
  | asks (event : L.Event)

/-- The statement that a compound statement runs first, and the scope it runs in. -/
def Stmt.opens (env : L.Env) : Stmt L → Option (Stmt L × Scope L)
  | .seq first rest => some (first, .seq rest)
  | .loop test body => if test env then some (body, .loop test body) else none
  | .attempt body catches handler => some (body, .attempt catches handler)
  | _ => none

/-- A statement holds a dialogue with the outside and gets so far. -/
inductive Talks (program : L.Fn → Routine L) :
    Stmt L → L.Env → Dialogue L → Result L → Prop where
  | skip {env : L.Env} : Talks program .skip env [] (.left (.normal env))
  | assign {env : L.Env} (change : L.Env → L.Env) :
      Talks program (.assign change) env [] (.left (.normal (change env)))
  | branch {env : L.Env} {test : L.Env → Bool} {yes no : Stmt L} {dialogue : Dialogue L}
      {result : Result L} : Talks program (if test env then yes else no) env dialogue result →
      Talks program (.branch test yes no) env dialogue result
  | done {env : L.Env} {test : L.Env → Bool} (body : Stmt L) : test env = false →
      Talks program (.loop test body) env [] (.left (.normal env))
  | ret {env : L.Env} (value : L.Env → L.Value) :
      Talks program (.ret value) env [] (.left (.returned (value env)))
  | throw {env : L.Env} (error : L.Env → L.Error) :
      Talks program (.throw error) env [] (.left (.threw (error env) env))
  | asks {env : L.Env} (event : L.Env → L.Event) (store : L.Reply → L.Env → L.Env) :
      Talks program (.wait event store) env [] (.asks (event env))
  | told {env : L.Env} (event : L.Env → L.Event) (store : L.Reply → L.Env → L.Env)
      (reply : L.Reply) : Talks program (.wait event store) env [(event env, reply)]
        (.left (.normal (store reply env)))
  | callAsks {env : L.Env} {fn : L.Fn} {argument : L.Env → L.Env}
      {store : Option L.Value → L.Env → L.Env} {dialogue : Dialogue L} {event : L.Event} :
      Talks program (program fn).body (argument env) dialogue (.asks event) →
      Talks program (.call fn argument store) env dialogue (.asks event)
  | callEnds {env : L.Env} {fn : L.Fn} {argument : L.Env → L.Env}
      {store : Option L.Value → L.Env → L.Env} {dialogue : Dialogue L} {flow : Flow L} :
      Talks program (program fn).body (argument env) dialogue (.left flow) →
      Talks program (.call fn argument store) env dialogue
        (.left (((program fn).outcome flow).into store env))
  | inside {stmt inner : Stmt L} {env : L.Env} {scope : Scope L} {dialogue : Dialogue L}
      {event : L.Event} : stmt.opens env = some (inner, scope) →
      Talks program inner env dialogue (.asks event) → Talks program stmt env dialogue (.asks event)
  | leaves {stmt inner : Stmt L} {env : L.Env} {scope : Scope L} {dialogue : Dialogue L}
      {flow : Flow L} : stmt.opens env = some (inner, scope) →
      Talks program inner env dialogue (.left flow) → scope.take flow = none →
      Talks program stmt env dialogue (.left flow)
  | goesOn {stmt inner next : Stmt L} {env env' : L.Env} {scope : Scope L}
      {dialogue later : Dialogue L} {flow : Flow L} {result : Result L} :
      stmt.opens env = some (inner, scope) → Talks program inner env dialogue (.left flow) →
      scope.take flow = some (next, env') → Talks program next env' later result →
      Talks program stmt env (dialogue ++ later) result

def Converses (program : L.Fn → Routine L) (fn : L.Fn) (env : L.Env) (dialogue : Dialogue L) :
    Status L → Prop
  | .ended outcome => ∃ flow, Talks program (program fn).body env dialogue (.left flow) ∧
      (program fn).outcome flow = outcome
  | .blocked event => Talks program (program fn).body env dialogue (.asks event)

/-! ## Evaluation is a dialogue -/

/-- A dialogue that evaluation holds: its replies come first among those that were given. -/
def Holds (program : L.Fn → Routine L) (stmt : Stmt L) (env : L.Env) (replies : List L.Reply) :
    Progress L (Flow L) → Prop
  | .ended flow unread => ∃ dialogue : Dialogue L, dialogue.map Prod.snd ++ unread = replies ∧
      Talks program stmt env dialogue (.left flow)
  | .blocked event => ∃ dialogue : Dialogue L, dialogue.map Prod.snd = replies ∧
      Talks program stmt env dialogue (.asks event)

variable {program : L.Fn → Routine L}

theorem Holds.opening {fuel : Nat} {stmt inner : Stmt L} {env : L.Env} {scope : Scope L}
    {replies : List L.Reply} {progress : Progress L (Flow L)}
    (opens : stmt.opens env = some (inner, scope))
    (ends : andThen (eval program fuel inner env replies) (leave program fuel scope) =
      some progress)
    (ih : ∀ stmt env replies progress, eval program fuel stmt env replies = some progress →
      Holds program stmt env replies progress) : Holds program stmt env replies progress := by
  rcases andThen_eq_some.mp ends with ⟨event, blocked, rfl⟩ | ⟨flow, unread, ended, rest⟩
  · obtain ⟨dialogue, read, talks⟩ := ih inner env replies _ blocked
    exact ⟨dialogue, read, .inside opens talks⟩
  · obtain ⟨dialogue, rfl, talks⟩ := ih inner env replies _ ended
    unfold leave at rest
    cases taken : scope.take flow with
    | none =>
      simp only [taken, Option.some.injEq] at rest
      subst rest
      exact ⟨dialogue, rfl, .leaves opens talks taken⟩
    | some entry =>
      obtain ⟨next, env'⟩ := entry
      simp only [taken] at rest
      have later := ih next env' unread progress rest
      cases progress with
      | ended flow' unread' =>
        obtain ⟨more, rfl, talks'⟩ := later
        exact ⟨dialogue ++ more, by simp, .goesOn opens talks taken talks'⟩
      | blocked event =>
        obtain ⟨more, rfl, talks'⟩ := later
        exact ⟨dialogue ++ more, by simp, .goesOn opens talks taken talks'⟩

theorem eval_holds {fuel : Nat} {stmt : Stmt L} {env : L.Env} {replies : List L.Reply}
    {progress : Progress L (Flow L)} (ends : eval program fuel stmt env replies = some progress) :
    Holds program stmt env replies progress := by
  induction fuel generalizing stmt env replies progress with
  | zero => cases ends
  | succ fuel ih =>
    have ih : ∀ stmt env replies progress, eval program fuel stmt env replies = some progress →
        Holds program stmt env replies progress := fun _ _ _ _ => ih
    cases stmt with
    | skip | assign | ret | throw =>
      cases ends
      refine ⟨[], rfl, ?_⟩
      constructor
    | seq first rest =>
      rw [eval_seq] at ends
      exact Holds.opening rfl ends ih
    | branch test yes no =>
      have inner := ih _ env replies progress ends
      cases progress with
      | ended flow unread =>
        obtain ⟨dialogue, read, talks⟩ := inner
        exact ⟨dialogue, read, .branch talks⟩
      | blocked event =>
        obtain ⟨dialogue, read, talks⟩ := inner
        exact ⟨dialogue, read, .branch talks⟩
    | loop test body =>
      cases again : test env with
      | true =>
        rw [eval_loop _ _ _ _ _ _ again] at ends
        exact Holds.opening (if_pos again) ends ih
      | false =>
        simp only [eval, again, Bool.false_eq_true, if_false, Option.some.injEq] at ends
        subst ends
        exact ⟨[], rfl, .done body again⟩
    | attempt body catches handler =>
      rw [eval_attempt] at ends
      exact Holds.opening rfl ends ih
    | wait event store =>
      cases replies with
      | nil =>
        cases ends
        exact ⟨[], rfl, .asks event store⟩
      | cons reply unread =>
        cases ends
        exact ⟨[(event env, reply)], rfl, .told event store reply⟩
    | call fn argument store =>
      rcases andThen_eq_some.mp ends with ⟨event, blocked, rfl⟩ | ⟨flow, unread, ended, rest⟩
      · obtain ⟨dialogue, read, talks⟩ := ih _ _ _ _ blocked
        exact ⟨dialogue, read, .callAsks talks⟩
      · cases rest
        obtain ⟨dialogue, read, talks⟩ := ih _ _ _ _ ended
        exact ⟨dialogue, read, .callEnds talks⟩

/-! ## A dialogue is evaluation -/

theorem eval_mono_le {fuel more : Nat} (le : fuel ≤ more) {stmt : Stmt L} {env : L.Env}
    {replies : List L.Reply} {progress : Progress L (Flow L)}
    (ends : eval program fuel stmt env replies = some progress) :
    eval program more stmt env replies = some progress := by
  induction le with
  | refl => exact ends
  | step _ ih => exact eval_mono ih

theorem eval_scoped {fuel : Nat} {stmt inner : Stmt L} {env : L.Env} {scope : Scope L}
    (opens : stmt.opens env = some (inner, scope)) (replies : List L.Reply) :
    eval program (fuel + 1) stmt env replies =
      andThen (eval program fuel inner env replies) (leave program fuel scope) := by
  cases stmt with
  | skip | assign | branch | ret | throw | wait | call => cases opens
  | seq first rest =>
    cases opens
    exact eval_seq ..
  | loop test body =>
    obtain ⟨again, same⟩ := Option.ite_none_right_eq_some.mp opens
    cases same
    exact eval_loop _ _ _ _ _ _ again
  | attempt body catches handler =>
    cases opens
    exact eval_attempt ..

theorem Talks.eval {stmt : Stmt L} {env : L.Env} {dialogue : Dialogue L} {result : Result L}
    (talks : Talks program stmt env dialogue result) :
    ∃ fuel, match result with
      | .left flow => ∀ unread, Routines.eval program fuel stmt env
          (dialogue.map Prod.snd ++ unread) = some (.ended flow unread)
      | .asks event => Routines.eval program fuel stmt env (dialogue.map Prod.snd) =
          some (.blocked event) := by
  induction talks with
  | skip | assign | ret | throw => exact ⟨1, fun _ => rfl⟩
  | branch _ ih =>
    obtain ⟨fuel, ih⟩ := ih
    refine ⟨fuel + 1, ?_⟩
    split
    · exact fun unread => ih unread
    · exact ih
  | done body finished => exact ⟨1, fun unread => by simp [Routines.eval, finished]⟩
  | asks => exact ⟨1, rfl⟩
  | told => exact ⟨1, fun _ => rfl⟩
  | callAsks _ ih =>
    obtain ⟨fuel, ih⟩ := ih
    refine ⟨fuel + 1, ?_⟩
    simp only at ih
    simp only [Routines.eval, ih, andThen]
  | callEnds _ ih =>
    obtain ⟨fuel, ih⟩ := ih
    refine ⟨fuel + 1, fun unread => ?_⟩
    simp only [Routines.eval, ih unread, andThen]
  | inside opens _ ih =>
    obtain ⟨fuel, ih⟩ := ih
    refine ⟨fuel + 1, ?_⟩
    simp only at ih
    simp only [eval_scoped opens, ih, andThen]
  | leaves opens _ taken ih =>
    obtain ⟨fuel, ih⟩ := ih
    refine ⟨fuel + 1, fun unread => ?_⟩
    simp only [eval_scoped opens, ih unread, andThen, leave, taken]
  | @goesOn stmt inner next env env' scope dialogue later flow result opens _ taken _ ih ih' =>
    obtain ⟨fuel, ih⟩ := ih
    obtain ⟨fuel', ih'⟩ := ih'
    have first : ∀ unread, Routines.eval program (max fuel fuel') inner env
        (dialogue.map Prod.snd ++ unread) = some (.ended flow unread) :=
      fun unread => eval_mono_le (Nat.le_max_left ..) (ih unread)
    refine ⟨max fuel fuel' + 1, ?_⟩
    split
    · intro unread
      rw [eval_scoped opens, List.map_append, List.append_assoc, first]
      simp only [andThen, leave, taken]
      exact eval_mono_le (Nat.le_max_right ..) (ih' unread)
    · rw [eval_scoped opens, List.map_append, first]
      simp only [andThen, leave, taken]
      exact eval_mono_le (Nat.le_max_right ..) ih'

/-- Direct evaluation of a call gets to a status exactly when the call holds a dialogue with
these replies that gets there. -/
theorem direct_iff_converses {fn : L.Fn} {env : L.Env} {replies : List L.Reply}
    {status : Status L} : Direct program fn env replies status ↔
      ∃ dialogue : Dialogue L, dialogue.map Prod.snd = replies ∧
        Converses program fn env dialogue status := by
  constructor
  · rintro ⟨fuel, ends⟩
    rcases andThen_eq_some.mp ends with ⟨event, blocked, same⟩ | ⟨flow, unread, ended, same⟩
    · cases status with
      | ended => cases same
      | blocked =>
        cases same
        exact eval_holds blocked
    · cases status with
      | blocked => cases same
      | ended outcome =>
        simp only [Status.progress, Option.some.injEq, Progress.ended.injEq] at same
        obtain ⟨rfl, rfl⟩ := same
        obtain ⟨dialogue, read, talks⟩ := eval_holds ended
        exact ⟨dialogue, by simpa using read, flow, talks, rfl⟩
  · rintro ⟨dialogue, rfl, converses⟩
    cases status with
    | ended outcome =>
      obtain ⟨flow, talks, rfl⟩ := converses
      obtain ⟨fuel, ends⟩ := talks.eval
      have ends : eval program fuel (program fn).body env (dialogue.map Prod.snd) =
          some (.ended flow []) := by simpa using ends []
      exact ⟨fuel, by rw [call, ends]; rfl⟩
    | blocked event =>
      obtain ⟨fuel, ends⟩ := Talks.eval converses
      simp only at ends
      exact ⟨fuel, by rw [call, ends]; rfl⟩

end Routines
