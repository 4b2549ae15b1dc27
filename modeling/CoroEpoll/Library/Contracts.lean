import CoroEpoll.Library.Dialogue

/-! Rules for what a routine asks and how it ends, one for each construct of the language.

What is said of a dialogue is said through an observer, who remembers what matters of it and
expects some replies only.
-/

set_option autoImplicit false

namespace Routines

variable {L : Lang} {G : Type}

structure Observer (L : Lang) (G : Type) where
  /-- what is remembered after a question and its reply -/
  note : G → L.Event → L.Reply → G
  expects : G → L.Event → L.Reply → Prop

namespace Observer

variable (observer : Observer L G)

def after (g : G) : Dialogue L → G
  | [] => g
  | (event, reply) :: rest => after (observer.note g event reply) rest

def Expects (g : G) : Dialogue L → Prop
  | [] => True
  | (event, reply) :: rest =>
    observer.expects g event reply ∧ Expects (observer.note g event reply) rest

variable {observer}

theorem after_append (g : G) (first rest : Dialogue L) :
    observer.after g (first ++ rest) = observer.after (observer.after g first) rest := by
  induction first generalizing g with
  | nil => rfl
  | cons entry first ih => exact ih (observer.note g entry.1 entry.2)

theorem expects_append (g : G) (first rest : Dialogue L) :
    observer.Expects g (first ++ rest) ↔
      observer.Expects g first ∧ observer.Expects (observer.after g first) rest := by
  induction first generalizing g with
  | nil => simp [Expects, after]
  | cons entry first ih => simp only [List.cons_append, Expects, after, ih, and_assoc]

end Observer

def Result.Meets (fit : L.Event → G → Prop) (post : Flow L → G → Prop) (g : G) : Result L → Prop
  | .left flow => post flow g
  | .asks event => fit event g

/-- On every dialogue with expected replies the statement asks what is fit, and leaves as the
postcondition says. -/
def Meets (program : L.Fn → Routine L) (observer : Observer L G) (fit : L.Event → G → Prop)
    (stmt : Stmt L) (env : L.Env) (g : G) (post : Flow L → G → Prop) : Prop :=
  ∀ dialogue result, Talks program stmt env dialogue result → observer.Expects g dialogue →
    result.Meets fit post (observer.after g dialogue)

def Then (next : L.Env → G → Prop) (post : Flow L → G → Prop) : Flow L → G → Prop
  | .normal env, g => next env g
  | flow, g => post flow g

def Caught (catches : L.Error → L.Env → Option L.Env) (handler : L.Env → G → Prop)
    (post : Flow L → G → Prop) : Flow L → G → Prop
  | .threw error env, g =>
    match catches error env with
    | some env => handler env g
    | none => post (.threw error env) g
  | flow, g => post flow g

def Quietly (post : G → Prop) : Flow L → G → Prop
  | .threw _ _, _ => False
  | _, g => post g

def Returned (routine : Routine L) (store : Option L.Value → L.Env → L.Env) (env : L.Env)
    (post : Flow L → G → Prop) : Flow L → G → Prop :=
  fun flow g => post ((routine.outcome flow).into store env) g

namespace Meets

variable {program : L.Fn → Routine L} {observer : Observer L G} {fit : L.Event → G → Prop}
  {env : L.Env} {g : G} {post weaker : Flow L → G → Prop}

theorem mono {stmt : Stmt L} (meets : Meets program observer fit stmt env g post)
    (implies : ∀ flow g, post flow g → weaker flow g) :
    Meets program observer fit stmt env g weaker := by
  intro dialogue result talks expected
  have met := meets dialogue result talks expected
  cases result with
  | left flow => exact implies flow _ met
  | asks event => exact met

theorem skip (met : post (.normal env) g) : Meets program observer fit .skip env g post := by
  intro dialogue result talks expected
  cases talks with
  | skip => exact met
  | inside opens | leaves opens | goesOn opens => cases opens

theorem assign {change : L.Env → L.Env} (met : post (.normal (change env)) g) :
    Meets program observer fit (.assign change) env g post := by
  intro dialogue result talks expected
  cases talks with
  | assign => exact met
  | inside opens | leaves opens | goesOn opens => cases opens

theorem ret {value : L.Env → L.Value} (met : post (.returned (value env)) g) :
    Meets program observer fit (.ret value) env g post := by
  intro dialogue result talks expected
  cases talks with
  | ret => exact met
  | inside opens | leaves opens | goesOn opens => cases opens

theorem throw {error : L.Env → L.Error} (met : post (.threw (error env) env) g) :
    Meets program observer fit (.throw error) env g post := by
  intro dialogue result talks expected
  cases talks with
  | throw => exact met
  | inside opens | leaves opens | goesOn opens => cases opens

theorem branch {test : L.Env → Bool} {yes no : Stmt L}
    (whenTrue : test env = true → Meets program observer fit yes env g post)
    (whenFalse : test env = false → Meets program observer fit no env g post) :
    Meets program observer fit (.branch test yes no) env g post := by
  intro dialogue result talks expected
  cases talks with
  | branch talks =>
    cases holds : test env with
    | true =>
      rw [if_pos holds] at talks
      exact whenTrue holds dialogue result talks expected
    | false =>
      rw [if_neg (by simp [holds])] at talks
      exact whenFalse holds dialogue result talks expected
  | inside opens | leaves opens | goesOn opens => cases opens

theorem taken {test : L.Env → Bool} {yes no : Stmt L} (holds : test env = true)
    (meets : Meets program observer fit yes env g post) :
    Meets program observer fit (.branch test yes no) env g post :=
  branch (fun _ => meets) fun fails => by simp [holds] at fails

theorem untaken {test : L.Env → Bool} {yes no : Stmt L} (fails : test env = false)
    (meets : Meets program observer fit no env g post) :
    Meets program observer fit (.branch test yes no) env g post :=
  branch (fun holds => by simp [fails] at holds) fun _ => meets

theorem wait {event : L.Env → L.Event} {store : L.Reply → L.Env → L.Env} (asks : fit (event env) g)
    (met : ∀ reply, observer.expects g (event env) reply →
      post (.normal (store reply env)) (observer.note g (event env) reply)) :
    Meets program observer fit (.wait event store) env g post := by
  intro dialogue result talks expected
  cases talks with
  | asks => exact asks
  | told _ _ reply => exact met reply expected.1
  | inside opens | leaves opens | goesOn opens => cases opens

theorem call {fn : L.Fn} {argument : L.Env → L.Env} {store : Option L.Value → L.Env → L.Env}
    (body : Meets program observer fit (program fn).body (argument env) g
      (Returned (program fn) store env post)) :
    Meets program observer fit (.call fn argument store) env g post := by
  intro dialogue result talks expected
  cases talks with
  | callAsks talks => exact body dialogue _ talks expected
  | callEnds talks => exact body dialogue _ talks expected
  | inside opens | leaves opens | goesOn opens => cases opens

theorem seq {first rest : Stmt L}
    (meets : Meets program observer fit first env g
      (Then (fun env g => Meets program observer fit rest env g post) post)) :
    Meets program observer fit (.seq first rest) env g post := by
  intro dialogue result talks expected
  cases talks with
  | inside opens talks =>
    cases opens
    exact meets dialogue _ talks expected
  | @leaves _ _ _ _ _ flow opens talks taken =>
    cases opens
    cases flow with
    | normal env => cases taken
    | returned | threw => exact meets dialogue _ talks expected
  | @goesOn _ _ _ _ _ _ first' later flow _ opens talks taken next =>
    cases opens
    rw [Observer.expects_append] at expected
    have met := meets first' _ talks expected.1
    cases flow with
    | normal env =>
      cases taken
      rw [Observer.after_append]
      exact met later result next expected.2
    | returned | threw => cases taken

/-- By induction on the rounds: the invariant holds at the head of the loop. -/
theorem loop {test : L.Env → Bool} {body : Stmt L} (inv : L.Env → G → Prop) (holds : inv env g)
    (round : ∀ env g, inv env g → test env = true →
      Meets program observer fit body env g (Then inv post))
    (exits : ∀ env g, inv env g → test env = false → post (.normal env) g) :
    Meets program observer fit (.loop test body) env g post := by
  intro dialogue result talks expected
  generalize same : Stmt.loop test body = stmt at talks
  induction talks generalizing g with
  | done body finished =>
    cases same
    exact exits _ g holds finished
  | inside opens talks =>
    subst same
    obtain ⟨again, opens⟩ := Option.ite_none_right_eq_some.mp opens
    cases opens
    exact round _ g holds again _ _ talks expected
  | @leaves _ _ _ _ _ flow opens talks taken =>
    subst same
    obtain ⟨again, opens⟩ := Option.ite_none_right_eq_some.mp opens
    cases opens
    have met := round _ g holds again _ _ talks expected
    cases flow with
    | normal env => cases taken
    | returned | threw => exact met
  | @goesOn _ _ _ _ _ _ first later flow _ opens talks taken _ _ ih =>
    subst same
    obtain ⟨again, opens⟩ := Option.ite_none_right_eq_some.mp opens
    cases opens
    rw [Observer.expects_append] at expected
    have met := round _ g holds again _ _ talks expected.1
    cases flow with
    | normal env =>
      cases taken
      rw [Observer.after_append]
      exact ih met expected.2 rfl
    | returned | threw => cases taken
  | _ => cases same

theorem forever {body : Stmt L} (inv : L.Env → G → Prop) (holds : inv env g)
    (round : ∀ env g, inv env g → Meets program observer fit body env g (Then inv post)) :
    Meets program observer fit (.loop (fun _ => true) body) env g post :=
  loop inv holds (fun env g holds _ => round env g holds) fun _ _ _ left => by cases left

theorem attempt {body handler : Stmt L} {catches : L.Error → L.Env → Option L.Env}
    (meets : Meets program observer fit body env g
      (Caught catches (fun env g => Meets program observer fit handler env g post) post)) :
    Meets program observer fit (.attempt body catches handler) env g post := by
  intro dialogue result talks expected
  cases talks with
  | inside opens talks =>
    cases opens
    exact meets dialogue _ talks expected
  | @leaves _ _ _ _ _ flow opens talks taken =>
    cases opens
    have met := meets dialogue _ talks expected
    cases flow with
    | normal | returned => exact met
    | threw error env =>
      have uncaught := Option.map_eq_none_iff.mp taken
      simpa only [Result.Meets, Caught, uncaught] using met
  | @goesOn _ _ _ _ _ _ first later flow _ opens talks taken next =>
    cases opens
    rw [Observer.expects_append] at expected
    have met := meets first _ talks expected.1
    cases flow with
    | normal | returned => cases taken
    | threw error env =>
      obtain ⟨env', caught, entry⟩ := Option.map_eq_some_iff.mp taken
      cases entry
      simp only [Result.Meets, Caught, caught] at met
      rw [Observer.after_append]
      exact met later result next expected.2

end Meets

/-! ## Evaluation that always ends or blocks -/

section

variable (program : L.Fn → Routine L)

def ComesToRest (stmt : Stmt L) : Prop :=
  ∀ env replies, ∃ fuel progress, eval program fuel stmt env replies = some progress

def Inquires (stmt : Stmt L) : Prop :=
  ∀ env dialogue flow, Talks program stmt env dialogue (.left flow) → dialogue ≠ []

end

namespace Inquires

variable {program : L.Fn → Routine L}

theorem wait (event : L.Env → L.Event) (store : L.Reply → L.Env → L.Env) :
    Inquires program (.wait event store) := by
  intro env dialogue flow talks
  cases talks with
  | told => simp
  | leaves opens | goesOn opens => cases opens

theorem call {fn : L.Fn} (argument : L.Env → L.Env) (store : Option L.Value → L.Env → L.Env)
    (body : Inquires program (program fn).body) : Inquires program (.call fn argument store) := by
  intro env dialogue flow talks
  cases talks with
  | callEnds talks => exact body _ _ _ talks
  | leaves opens | goesOn opens => cases opens

theorem opens {stmt inner : Stmt L} (first : Inquires program inner)
    (opens : ∀ env, ∃ scope, stmt.opens env = some (inner, scope)) : Inquires program stmt := by
  intro env dialogue flow talks
  obtain ⟨scope, opened⟩ := opens env
  cases talks with
  | leaves opened' talks =>
    cases opened.symm.trans opened'
    exact first _ _ _ talks
  | goesOn opened' talks =>
    cases opened.symm.trans opened'
    exact List.append_ne_nil_of_left_ne_nil (first _ _ _ talks) _
  | skip | assign | branch | ret | throw | told | callEnds => cases opened
  | done body finished => simp [Stmt.opens, finished] at opened

theorem seq {first : Stmt L} (rest : Stmt L) (inquires : Inquires program first) :
    Inquires program (.seq first rest) :=
  inquires.opens fun _ => ⟨_, rfl⟩

theorem assign {rest : Stmt L} (change : L.Env → L.Env) (inquires : Inquires program rest) :
    Inquires program (.seq (.assign change) rest) := by
  intro env dialogue flow talks
  cases talks with
  | leaves opened talks taken =>
    cases opened
    cases talks with
    | assign => cases taken
    | leaves opened | goesOn opened => cases opened
  | goesOn opened talks taken next =>
    cases opened
    cases talks with
    | assign =>
      cases taken
      exact inquires _ _ _ next
    | leaves opened | goesOn opened => cases opened

theorem attempt {body : Stmt L} (catches : L.Error → L.Env → Option L.Env) (handler : Stmt L)
    (inquires : Inquires program body) : Inquires program (.attempt body catches handler) :=
  inquires.opens fun _ => ⟨_, rfl⟩

theorem loop {body : Stmt L} (inquires : Inquires program body) :
    Inquires program (.loop (fun _ => true) body) :=
  inquires.opens fun _ => ⟨_, rfl⟩

end Inquires

namespace ComesToRest

variable {program : L.Fn → Routine L}

theorem skip : ComesToRest program .skip :=
  fun _ _ => ⟨1, _, rfl⟩

theorem assign (change : L.Env → L.Env) : ComesToRest program (.assign change) :=
  fun _ _ => ⟨1, _, rfl⟩

theorem ret (value : L.Env → L.Value) : ComesToRest program (.ret value) :=
  fun _ _ => ⟨1, _, rfl⟩

theorem throw (error : L.Env → L.Error) : ComesToRest program (.throw error) :=
  fun _ _ => ⟨1, _, rfl⟩

theorem wait (event : L.Env → L.Event) (store : L.Reply → L.Env → L.Env) :
    ComesToRest program (.wait event store) := by
  intro env replies
  cases replies with
  | nil => exact ⟨1, _, rfl⟩
  | cons reply unread => exact ⟨1, _, rfl⟩

theorem branch (test : L.Env → Bool) {yes no : Stmt L} (whenTrue : ComesToRest program yes)
    (whenFalse : ComesToRest program no) : ComesToRest program (.branch test yes no) := by
  intro env replies
  cases holds : test env with
  | true =>
    obtain ⟨fuel, progress, ends⟩ := whenTrue env replies
    exact ⟨fuel + 1, progress, by simp [eval, holds, ends]⟩
  | false =>
    obtain ⟨fuel, progress, ends⟩ := whenFalse env replies
    exact ⟨fuel + 1, progress, by simp [eval, holds, ends]⟩

theorem opening {stmt inner : Stmt L} {env : L.Env} {scope : Scope L} {replies : List L.Reply}
    (opens : stmt.opens env = some (inner, scope)) (first : ComesToRest program inner)
    (later : ∀ flow unread next env', Holds program inner env replies (.ended flow unread) →
      scope.take flow = some (next, env') →
      ∃ fuel progress, eval program fuel next env' unread = some progress) :
    ∃ fuel progress, eval program fuel stmt env replies = some progress := by
  obtain ⟨fuel, progress, ends⟩ := first env replies
  cases progress with
  | blocked event => exact ⟨fuel + 1, .blocked event, by simp [eval_scoped opens, ends, andThen]⟩
  | ended flow unread =>
    cases taken : scope.take flow with
    | none =>
      exact ⟨fuel + 1, .ended flow unread, by simp [eval_scoped opens, ends, andThen, leave, taken]⟩
    | some entry =>
      obtain ⟨next, env'⟩ := entry
      obtain ⟨fuel', progress, rest⟩ := later flow unread next env' (eval_holds ends) taken
      refine ⟨max fuel fuel' + 1, progress, ?_⟩
      rw [eval_scoped opens, eval_mono_le (Nat.le_max_left fuel fuel') ends]
      simp only [andThen, leave, taken]
      exact eval_mono_le (Nat.le_max_right fuel fuel') rest

theorem seq {first rest : Stmt L} (starts : ComesToRest program first) (goesOn : ComesToRest program rest) :
    ComesToRest program (.seq first rest) := by
  intro env replies
  refine opening rfl starts fun flow unread next env' _ taken => ?_
  cases flow with
  | normal =>
    cases taken
    exact goesOn env' unread
  | returned | threw => cases taken

theorem attempt (catches : L.Error → L.Env → Option L.Env) {body handler : Stmt L}
    (starts : ComesToRest program body) (goesOn : ComesToRest program handler) :
    ComesToRest program (.attempt body catches handler) := by
  intro env replies
  refine opening rfl starts fun flow unread next env' _ taken => ?_
  cases flow with
  | threw =>
    obtain ⟨_, _, entry⟩ := Option.map_eq_some_iff.mp taken
    cases entry
    exact goesOn env' unread
  | normal | returned => cases taken

/-- Every round reads a reply, so that a loop has no more rounds than there are replies. -/
theorem loop (test : L.Env → Bool) {body : Stmt L} (round : ComesToRest program body)
    (reads : Inquires program body) : ComesToRest program (.loop test body) := by
  intro env replies
  generalize length : replies.length = size
  induction size using Nat.strongRecOn generalizing env replies with
  | _ size ih =>
    cases again : test env with
    | false => exact ⟨1, .ended (.normal env) replies, by simp [eval, again]⟩
    | true =>
      refine opening (if_pos again) round fun flow unread next env' holds taken => ?_
      obtain ⟨dialogue, read, talks⟩ := holds
      have some_read := List.length_pos_iff.mpr (reads _ _ _ talks)
      have fewer : unread.length < size := by
        rw [← length, ← read, List.length_append, List.length_map]
        omega
      cases flow with
      | normal =>
        cases taken
        exact ih unread.length fewer env' unread rfl
      | returned | threw => cases taken

theorem call {fn : L.Fn} (argument : L.Env → L.Env) (store : Option L.Value → L.Env → L.Env)
    (body : ComesToRest program (program fn).body) : ComesToRest program (.call fn argument store) := by
  intro env replies
  obtain ⟨fuel, progress, ends⟩ := body (argument env) replies
  cases progress with
  | blocked event => exact ⟨fuel + 1, .blocked event, by simp [eval, ends, andThen]⟩
  | ended flow unread => exact ⟨fuel + 1, _, by simp only [eval, ends, andThen]; rfl⟩

theorem direct {fn : L.Fn} (body : ComesToRest program (program fn).body) (env : L.Env)
    (replies : List L.Reply) :
    ∃ progress fuel, Routines.call program fuel fn env replies = some progress := by
  obtain ⟨fuel, progress, ends⟩ := body env replies
  cases progress with
  | blocked event => exact ⟨.blocked event, fuel, by rw [Routines.call, ends]; rfl⟩
  | ended flow unread =>
    exact ⟨.ended ((program fn).outcome flow) unread, fuel, by rw [Routines.call, ends]; rfl⟩

end ComesToRest

end Routines
