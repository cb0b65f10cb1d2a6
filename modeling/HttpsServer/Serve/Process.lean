import HttpsServer.Data.Fold
import HttpsServer.Data.Interleave
import HttpsServer.Dispatch.Agreement
import HttpsServer.Serve.Ownership

namespace HttpsServer.Serve

open Std
open HttpsServer.Data
open HttpsServer.Config
open HttpsServer.Dispatch

variable {Request : Type}

/-! The two servers of the process. Their callbacks run in any order, one at a
time, and the static members are the same for both. The threads of the source can
run two callbacks at once, and lock nothing; that is left out. -/

instance : Fintype Version where
  elems := {.http, .https}
  complete version := by cases version <;> decide

/-- An event of a server that finds the statics as the last callback of either
server has left them. -/
def Server.Turn (before : Server Request × Statics) (event : Event Request)
    (after : Server Request × Statics) : Prop :=
  Steps { before.1 with statics := before.2 } event after.1 ∧
    after.2 = after.1.statics

abbrev Process (Request : Type) := Together Version (Server Request) Statics

namespace Process

/-- The servers, in the order in which `main` constructs them. -/
def newProcess (statics : Statics) (handlerInfo : TreeMap Text Text compare)
    (memory : Version → CharArray maxLength) (config : NginxConfig) :
    Except Fault (Process Request × TreeMap Text Text compare) := do
  let (http, handlerInfo) ←
    Server.newServer .http statics handlerInfo (memory .http) config
  let (https, handlerInfo) ←
    Server.newServer .https statics handlerInfo (memory .https) config
  let server
    | .http => http
    | .https => https
  .ok (⟨server, statics⟩, handlerInfo)

/-- The label is the version of the server, with its event. -/
def Steps : Process Request → Version × Event Request → Process Request → Prop :=
  Together.Turns Server.Turn

theorem newProcess_server {statics : Statics}
    {info lastInfo : TreeMap Text Text compare}
    {memory : Version → CharArray maxLength} {config : NginxConfig}
    {process : Process Request}
    (constructed : newProcess statics info memory config =
      .ok (process, lastInfo)) (version : Version) :
    process.shared = statics ∧ ∃ before after,
      Server.newServer version statics before (memory version) config =
        .ok (process.component version, after) := by
  obtain ⟨⟨http, middleInfo⟩, first, constructed⟩ := Fold.bind_ok constructed
  obtain ⟨⟨https, finalInfo⟩, second, constructed⟩ := Fold.bind_ok constructed
  cases constructed
  cases version with
  | http => exact ⟨rfl, _, _, first⟩
  | https => exact ⟨rfl, _, _, second⟩

theorem newProcess_made {statics : Statics}
    {info middleInfo lastInfo : TreeMap Text Text compare}
    {memory : Version → CharArray maxLength} {config : NginxConfig}
    {http https : Server Request}
    (httpMade : Server.newServer .http statics info (memory .http) config =
      .ok (http, middleInfo))
    (httpsMade : Server.newServer .https statics middleInfo (memory .https)
      config = .ok (https, lastInfo)) :
    newProcess statics info memory config =
      .ok (⟨fun
        | .http => http
        | .https => https, statics⟩, lastInfo) := by
  rw [newProcess, httpMade]
  dsimp only [bind, Except.bind]
  rw [httpsMade]

/-- The servers are constructed when one dispatcher can be, and both have it. -/
theorem newProcess_ok {info middleInfo : TreeMap Text Text compare}
    {config : NginxConfig} {dispatcher : Dispatcher}
    (constructed : newDispatcher info config = .ok (dispatcher, middleInfo))
    (statics : Statics) (memory : Version → CharArray maxLength) :
    ∃ lastInfo, newProcess statics info memory config =
      .ok ((⟨fun version =>
        Server.startAccept ⟨version, dispatcher, statics, [], [], []⟩
          (memory version), statics⟩ : Process Request), lastInfo) := by
  obtain ⟨lastInfo, again⟩ := newDispatcher_agree constructed middleInfo
  refine ⟨lastInfo, ?_⟩
  rw [newProcess, Server.newServer, constructed]
  dsimp only [bind, Except.bind]
  rw [Server.newServer, again]
  dsimp only [bind, Except.bind]
  congr 2
  congr 1
  funext version
  cases version <;> rfl

end Process

/-! Each server on its own, with the counters of the other under way. -/

theorem Represents.withStatics {server : Server Request} {phases : List Phase}
    (represents : Represents server phases) (statics : Statics) :
    Represents { server with statics } phases :=
  ⟨represents.length, represents.inPhase, represents.accepting,
    represents.spawned⟩

theorem represents_amid {server next : Server Request} {event : Event Request}
    {phases : List Phase} (amid : Together.Amid Server.Turn server event next)
    (represents : Represents server phases) :
    ∃ after, Advances phases event.label after ∧ Represents next after := by
  obtain ⟨statics, last, step, _⟩ := amid
  exact represents_step step (represents.withStatics statics)

theorem represents_process {statics : Statics}
    {info lastInfo : TreeMap Text Text compare}
    {memory : Version → CharArray maxLength} {config : NginxConfig}
    {first last : Process Request} {events : List (Version × Event Request)}
    (constructed : Process.newProcess statics info memory config =
      .ok (first, lastInfo))
    (run : Run Process.Steps first events last) (version : Version) :
    ∃ phases, Run Advances [.waiting] ((own version events).map Event.label)
        phases ∧ Represents (last.component version) phases := by
  obtain ⟨_, _, _, made⟩ := Process.newProcess_server constructed version
  exact (Together.project run version).simulate Represents Event.label
    represents_amid (represents_newServer made)

theorem Represents.safe_run {server : Server Request} {phases : List Phase}
    {labels : List (SessionPtr × Signal)}
    (represents : Represents server phases)
    (advances : Run Advances [.waiting] labels phases) : Safe server := by
  have initial : LastWaits [.waiting] := by
    intro session
    cases session <;> simp
  have waits : LastWaits phases :=
    advances.preserves (fun step => step.lastWaits) initial
  have nonempty : phases ≠ [] :=
    advances.preserves (fun step _ => step.nonempty) (List.cons_ne_nil _ _)
  exact represents.safe waits nonempty

end HttpsServer.Serve
