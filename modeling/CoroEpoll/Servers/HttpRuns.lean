import CoroEpoll.Servers.HttpSession
import CoroEpoll.Servers.Accepting

/-! The HTTP server on the coroutine machine: any number of connections on one loop, served in
any order.
-/

set_option autoImplicit false

namespace CoroEpoll.Servers.Http

open Routines Text CoroEpoll.Task

def wireOf (dialogue : Dialogue (net app)) : Wire Unit := outside.observer.after (.boot ()) dialogue

theorem client_progresses {files : Files} {s : World (net app)}
    (reached : (machine (code files)).Reachable s) {task : Spawned (net app)}
    (member : task ∈ s.tasks) (client : task.fn = .handleClient) {status : Status (net app)}
    (has : s.HasStatus (code files) task.handle status) :
    ∃ dialogue : Dialogue (net app), Held (code files) s task status dialogue ∧
      (outside.observer.Expects (.boot ()) dialogue →
        KeepsTo (Fit files task.env.socket) (Served files task.env.socket) (wireOf dialogue)
          status) :=
  (refines_of_reachable reached).dialogue_void member (by rw [client]; rfl) has
    (handleClient_meets rfl rfl rfl)

/-- However many tasks the loop has and in whatever order it serves them, each connection has a
dialogue of its own, in which it is sent the responses to its requests in their order. -/
theorem clients_served {files : Files} {s : World (net app)}
    (reached : (machine (code files)).Reachable s) :
    ∀ task ∈ s.tasks, task.fn = .handleClient → ∀ status,
      s.HasStatus (code files) task.handle status →
      ∃ dialogue : Dialogue (net app), Held (code files) s task status dialogue ∧
        (outside.observer.Expects (.boot ()) dialogue →
          KeepsTo (Fit files task.env.socket) (Served files task.env.socket) (wireOf dialogue)
            status) :=
  fun _ member client _ has => client_progresses reached member client has

def someFiles : Files := ⟨ascii "<html>", ascii "true"⟩

def someLocals : Locals Own := ⟨7, 0, [], 0, 0, [], .done, ⟨[], [], .empty⟩⟩

/-- A client asks `G` of the empty path, is sent the response, and is listened to again. -/
def onceRun : List (Act (net app)) :=
  .spawn Fn.handleClient someLocals :: List.replicate 21 .tick ++
  tells 3 [(.done, 7), (.bytes [71], 22)] ++ tells 4 [(.done, 7), (.bytes [32], 22)] ++
  tells 5 [(.done, 7), (.bytes [13], 22)] ++ tells 6 [(.done, 7), (.bytes [10], 38)] ++
  tells 8 [(.done, 7), (.bytes [13], 22)] ++ tells 9 [(.done, 7), (.bytes [10], 35)] ++
  tells 10 [(.done, 11), (.count 128, 31)] ++ tells 13 [(.done, 7)]

theorem onceRun_waits : ((machine (code someFiles)).exec (.boot (net app)) onceRun).any (fun s =>
    s.waitsAt 13 = some (0, .recv 7 1) &&
      (0, Fn.handleClient) ∈ s.tasks.map fun task => (task.handle, task.fn)) = true := by
  decide +kernel

theorem clients_served_once : ∃ s task,
    (machine (code someFiles)).exec (.boot (net app)) onceRun = some s ∧ task ∈ s.tasks ∧
      s.HasStatus (code someFiles) task.handle (.blocked (.recv 7 1)) ∧
      ∃ dialogue, Held (code someFiles) s task (.blocked (.recv 7 1)) dialogue ∧
        (outside.observer.Expects (.boot ()) dialogue →
          KeepsTo (L := net app) (Fit someFiles task.env.socket) (Served someFiles task.env.socket)
            (wireOf dialogue) (.blocked (.recv 7 1))) := by
  obtain ⟨s, task, replay, reached, member, client, waits⟩ := waits_of_run onceRun_waits
  exact ⟨s, task, replay, member, waits, clients_served reached task member client _ waits⟩

/-! ## The server gets back to its events -/

theorem inquires_readLine {files : Files} : Inquires (code files) readLine :=
  .assign _ (.loop (.seq _ (.call _ _ inquires_asyncRead)))

theorem comesToRest_readLine {files : Files} : ComesToRest (code files) readLine := by
  refine .seq (.assign _) (.loop _ (.seq (.call _ _ comesToRest_asyncRead) ?_) ?_)
  · exact .branch _ (.ret _) (.seq (.assign _) (.branch _ (.ret _) .skip))
  · exact .seq _ (.call _ _ inquires_asyncRead)

theorem inquires_nextLine {files : Files} : Inquires (code files) nextLine :=
  .call _ _ inquires_readLine

theorem comesToRest_nextLine {files : Files} : ComesToRest (code files) nextLine :=
  .call _ _ comesToRest_readLine

theorem inquires_parseRequest {files : Files} : Inquires (code files) parseRequest :=
  .assign _ (.seq _ inquires_nextLine)

theorem comesToRest_parseRequest {files : Files} : ComesToRest (code files) parseRequest := by
  refine .seq (.assign _) (.seq comesToRest_nextLine (.branch _ (.ret _) (.seq ?_ (.loop _ ?_ ?_))))
  · exact .branch _ (.assign _) (.throw _)
  · exact .seq comesToRest_nextLine (.branch _ (.ret _) (.assign _))
  · exact .seq _ inquires_nextLine

theorem comesToRest_handleClient {files : Files} : ComesToRest (code files) (handleClient files) := by
  refine .attempt _ (.loop _ (.seq (.call _ _ comesToRest_parseRequest) ?_) ?_) .skip
  · exact .branch _ (.ret _) (.seq (.assign _) (.call _ _ comesToRest_asyncWrite))
  · exact .seq _ (.call _ _ inquires_parseRequest)

/-- Whatever the outside answers, the loop gets back to where it waits for events. -/
theorem never_spins {files : Files} {s : World (net app)}
    (reached : (machine (code files)).Reachable s) : Settles (code files) s := by
  refine (refines_of_reachable reached).comesToRest fun task _ => ?_
  cases task.fn with
  | asyncRead => exact comesToRest_asyncRead
  | asyncWrite => exact comesToRest_asyncWrite
  | asyncAcceptFd => exact comesToRest_asyncAcceptFd
  | readLine => exact comesToRest_readLine
  | parseRequest => exact comesToRest_parseRequest
  | handleClient => exact comesToRest_handleClient
  | acceptAndHandle => exact comesToRest_acceptAndHandle rfl

theorem never_spins_once : ∃ s, (machine (code someFiles)).exec (.boot (net app)) onceRun = some s ∧
    Settles (code someFiles) s := by
  obtain ⟨s, _, replay, reached, _⟩ := waits_of_run onceRun_waits
  exact ⟨s, replay, never_spins reached⟩

end CoroEpoll.Servers.Http
