import CoroEpoll.Library.Contracts
import CoroEpoll.Library.Transition
import Mathlib.Data.List.Induction

/-! A routine that takes the steps of a machine: each reply that it is given stands for actions
of the machine.

The dialogues of such a routine are runs of the machine, and runs of the machine are dialogues
as far as the actions are the routine's own.
-/

set_option autoImplicit false

namespace Routines

variable {L : Lang} {program : L.Fn → Routine L} {stmt : Stmt L} {env : L.Env}

/-! ## Two dialogues of a statement -/

namespace Talks

theorem asked {dialogue : Dialogue L} {result : Result L}
    (talks : Talks program stmt env dialogue result) {first rest : Dialogue L} {event : L.Event}
    {reply : L.Reply} (cut : dialogue = first ++ (event, reply) :: rest) :
    Talks program stmt env first (.asks event) := by
  induction talks generalizing first rest with
  | skip | assign | ret | throw | done | asks => simp at cut
  | branch _ ih => exact .branch (ih cut)
  | told event' store reply' =>
    cases first with
    | nil =>
      cases cut
      exact .asks event' store
    | cons entry first => simp at cut
  | callAsks _ ih | callEnds _ ih => exact .callAsks (ih cut)
  | inside opens _ ih | leaves opens _ _ ih => exact .inside opens (ih cut)
  | @goesOn _ _ _ _ _ _ earliest latest _ _ opens talks taken _ ih ih' =>
    rcases List.append_eq_append_iff.mp cut with ⟨more, rfl, later⟩ | ⟨more, earlier, rest_eq⟩
    · exact .goesOn opens talks taken (ih' later)
    · cases more with
      | nil =>
        rw [List.append_nil] at earlier
        subst earlier
        have cut : latest = [] ++ (event, reply) :: rest := rest_eq.symm
        have next := ih' cut
        rw [← List.append_nil earliest]
        exact .goesOn opens talks taken next
      | cons entry more =>
        cases rest_eq
        exact .inside opens (ih earlier)

theorem unique {dialogue : Dialogue L} {result result' : Result L}
    (talks : Talks program stmt env dialogue result)
    (talks' : Talks program stmt env dialogue result') : result = result' := by
  obtain ⟨fuel, ends⟩ := talks.eval
  obtain ⟨more, ends'⟩ := talks'.eval
  cases result with
  | left flow =>
    have first := eval_mono_le (Nat.le_max_left fuel more) (ends [])
    cases result' with
    | left flow' =>
      have second := eval_mono_le (Nat.le_max_right fuel more) (ends' [])
      rw [first] at second
      cases second
      rfl
    | asks event' =>
      have second := eval_mono_le (Nat.le_max_right fuel more) ends'
      rw [List.append_nil, second] at first
      cases first
  | asks event =>
    have first := eval_mono_le (Nat.le_max_left fuel more) ends
    cases result' with
    | left flow' =>
      have second := eval_mono_le (Nat.le_max_right fuel more) (ends' [])
      rw [List.append_nil, first] at second
      cases second
    | asks event' =>
      have second := eval_mono_le (Nat.le_max_right fuel more) ends'
      rw [first] at second
      cases second
      rfl

/-- As far as two dialogues have the same replies they are the same: by induction on the
shorter one, from its end. -/
theorem agree {dialogue : Dialogue L} {result : Result L}
    (talks : Talks program stmt env dialogue result) {first : Dialogue L} {result' : Result L}
    (talks' : Talks program stmt env first result')
    (same : first.map Prod.snd <+: dialogue.map Prod.snd) : first <+: dialogue := by
  induction first using List.reverseRecOn generalizing result' with
  | nil => exact List.nil_prefix
  | append_singleton first entry ih =>
    obtain ⟨event, reply⟩ := entry
    have asks := talks'.asked rfl
    rw [List.map_append] at same
    obtain ⟨more, rfl⟩ := ih asks ((List.prefix_append _ _).trans same)
    rw [List.map_append, List.prefix_append_right_inj] at same
    cases more with
    | nil => simp at same
    | cons entry' more =>
      obtain ⟨event', reply'⟩ := entry'
      simp only [List.map_cons, List.map_nil, List.cons_prefix_cons, List.nil_prefix,
        and_true] at same
      cases asks.unique (talks.asked rfl)
      subst same
      exact ⟨more, by simp⟩

theorem extend {dialogue : Dialogue L} {event : L.Event}
    (talks : Talks program stmt env dialogue (.asks event)) (rests : ComesToRest program stmt)
    (reply : L.Reply) : ∃ result, Talks program stmt env (dialogue ++ [(event, reply)]) result := by
  -- what evaluation reads of the replies is all of them
  have whole : ∀ (other : Dialogue L) (result : Result L), Talks program stmt env other result →
      other.map Prod.snd = dialogue.map Prod.snd ++ [reply] →
      other = dialogue ++ [(event, reply)] := by
    intro other result talks' read
    obtain ⟨more, rfl⟩ := talks'.agree talks (read ▸ List.prefix_append _ _)
    rw [List.map_append, List.append_cancel_left_eq] at read
    cases more with
    | nil => cases read
    | cons entry more =>
      obtain ⟨event', reply'⟩ := entry
      simp only [List.map_cons, List.cons.injEq, List.map_eq_nil_iff] at read
      obtain ⟨rfl, rfl⟩ := read
      cases talks.unique (talks'.asked rfl)
      rfl
  obtain ⟨fuel, progress, ends⟩ := rests env (dialogue.map Prod.snd ++ [reply])
  have holds := eval_holds ends
  cases progress with
  | blocked event' =>
    obtain ⟨other, read, talks'⟩ := holds
    exact ⟨_, whole other _ talks' read ▸ talks'⟩
  | ended flow unread =>
    obtain ⟨other, read, talks'⟩ := holds
    cases unread using List.reverseRecOn with
    | nil =>
      rw [List.append_nil] at read
      exact ⟨_, whole other _ talks' read ▸ talks'⟩
    | append_singleton unread last =>
      -- it would have ended before it asked
      rw [← List.append_assoc] at read
      have before := (List.append_inj' read rfl).1
      obtain ⟨more, rfl⟩ := talks.agree talks' ⟨unread, before⟩
      cases more with
      | nil =>
        rw [List.append_nil] at talks
        cases talks.unique talks'
      | cons entry more => cases talks'.unique (talks.asked rfl)

end Talks

/-! ## Machines -/

section

variable {W Act : Type}

/-- The actions that a reply stands for; `none` when it is not expected. -/
abbrev Sense (L : Lang) (W Act : Type) := W → L.Event → L.Reply → Option (List Act)

variable (m : Transition.Machine W Act) (sense : Sense L W Act)

def follower : Observer L W where
  note w event reply := ((sense w event reply).bind (m.exec w)).getD w
  expects w event reply := ((sense w event reply).bind (m.exec w)).isSome = true

def acts : W → Dialogue L → List Act
  | _, [] => []
  | w, (event, reply) :: rest =>
    (sense w event reply).getD [] ++ acts ((follower m sense).note w event reply) rest

variable {m sense}

theorem follower_eq {w v : W} {event : L.Event} {reply : L.Reply} {actions : List Act}
    (means : sense w event reply = some actions) (replay : m.exec w actions = some v) :
    (follower m sense).expects w event reply ∧ (follower m sense).note w event reply = v := by
  simp [follower, means, replay]

theorem exec_acts {w : W} {dialogue : Dialogue L}
    (expected : (follower m sense).Expects w dialogue) :
    m.exec w (acts m sense w dialogue) = some ((follower m sense).after w dialogue) := by
  induction dialogue generalizing w with
  | nil => rfl
  | cons entry dialogue ih =>
    obtain ⟨event, reply⟩ := entry
    obtain ⟨now, later⟩ := expected
    obtain ⟨v, replay⟩ := Option.isSome_iff_exists.mp now
    obtain ⟨actions, means, replay⟩ := Option.bind_eq_some_iff.mp replay
    have rest := ih later
    rw [acts, means, Option.getD_some, Transition.Machine.exec_append, replay, Option.bind_some]
    rw [(follower_eq means replay).2] at rest ⊢
    rw [rest, Observer.after, (follower_eq means replay).2]

/-- Every run of the machine is a dialogue, as long as its actions are the routine's own: what
the routine asks has a reply for each of them, and there is none where it has ended. -/
theorem enacts (own : Act → Prop) {fit : L.Event → W → Prop} {post : Flow L → W → Prop} {w v : W}
    (rests : ComesToRest program stmt)
    (meets : Meets program (follower m sense) fit stmt env w post)
    (asks : ∀ event u a t, fit event u → own a → m.step u a = some t →
      ∃ reply, sense u event reply = some [a])
    (leaves : ∀ flow u a, post flow u → own a → m.step u a = none)
    {dialogue : Dialogue L} {result : Result L} (talks : Talks program stmt env dialogue result)
    (expected : (follower m sense).Expects w dialogue) {actions : List Act}
    (owns : ∀ a ∈ actions, own a)
    (replay : m.exec ((follower m sense).after w dialogue) actions = some v) :
    ∃ more result', Talks program stmt env (dialogue ++ more) result' ∧
      (follower m sense).Expects w (dialogue ++ more) ∧
      acts m sense ((follower m sense).after w dialogue) more = actions := by
  induction actions generalizing dialogue result with
  | nil => exact ⟨[], result, by rwa [List.append_nil], by rwa [List.append_nil], rfl⟩
  | cons a rest ih =>
    obtain ⟨u, step, later⟩ := Transition.Machine.exec_cons_eq_some.mp replay
    have met := meets dialogue result talks expected
    cases result with
    | left flow =>
      rw [leaves flow _ a met (owns a List.mem_cons_self)] at step
      cases step
    | asks event =>
      obtain ⟨reply, means⟩ := asks event _ a u met (owns a List.mem_cons_self) step
      have single : m.exec ((follower m sense).after w dialogue) [a] = some u := by
        rw [Transition.Machine.exec_cons step]
        rfl
      obtain ⟨expects, note⟩ := follower_eq means single
      obtain ⟨result', talks'⟩ := talks.extend rests reply
      have expected' := Observer.expects_append w dialogue [(event, reply)] |>.mpr
        ⟨expected, expects, trivial⟩
      have after : (follower m sense).after w (dialogue ++ [(event, reply)]) = u := by
        rw [Observer.after_append]
        exact note
      obtain ⟨more, result'', talks'', expected'', acts_eq⟩ := ih talks' expected'
        (fun b member => owns b (List.mem_cons_of_mem a member)) (after.symm ▸ later)
      rw [after] at acts_eq
      rw [List.append_assoc] at talks'' expected''
      refine ⟨(event, reply) :: more, result'', talks'', expected'', ?_⟩
      rw [acts, means, note, acts_eq]
      rfl

end

end Routines
