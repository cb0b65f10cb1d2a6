import HttpsServer.Serve.Serving

namespace HttpsServer.Serve

open HttpsServer.Data
open HttpsServer.Dispatch

variable {Request : Type}

/-! Which callbacks come back. -/

/-- A callback that sends a response and comes back has one to send. -/
theorem handles_of_performed {dispatcher : Dispatcher} {world : World Request}
    {statics : Statics} {session : Session} {text : Text}
    {before after : Connection Request} (held : session.data.text? = some text)
    (performed : Performed before
      (session.sendResponse dispatcher world statics).1 after) :
    ∃ asked response lastStatics,
      Handles dispatcher world statics text asked response lastStatics := by
  unfold Session.sendResponse at performed
  rw [held] at performed
  dsimp only at performed
  cases accepts : world.put text with
  | none => exact ⟨_, _, _, .refused accepts⟩
  | some request =>
      rw [accepts] at performed
      dsimp only at performed
      cases routed : dispatcher.getRequestHandler (world.target request) with
      | none =>
          rw [routed] at performed
          cases performed <;> contradiction
      | some pointer =>
          rw [routed] at performed
          dsimp only at performed
          cases object : dispatcher.objects[pointer]? with
          | none =>
              rw [object] at performed
              cases performed <;> contradiction
          | some handler =>
              rw [object] at performed
              dsimp only at performed
              cases returns : world.handleRequest handler statics request with
              | none =>
                  rw [returns] at performed
                  cases performed <;> contradiction
              | some response =>
                  rw [returns] at performed
                  dsimp only at performed
                  cases connected : world.connected with
                  | false =>
                      rw [connected] at performed
                      cases performed <;> contradiction
                  | true =>
                      exact ⟨_, _, _,
                        .handled accepts routed object returns connected⟩

/-- A read comes back unless it brings the empty line and nothing can answer. -/
theorem Receiving.completes_iff {connection : Connection Request}
    {already chunk : Text} (receiving : Receiving connection already)
    (dispatcher : Dispatcher) (world : World Request) (statics : Statics)
    (nonempty : chunk ≠ []) (fits : Fits (already ++ chunk)) :
    (∃ next, Completes dispatcher (connection, statics)
      (.read already.length maxLength (some chunk) world) next) ↔
    (isEnded (already ++ chunk) = true → ∃ asked response lastStatics,
      Handles dispatcher world statics (already ++ chunk) asked response
        lastStatics) := by
  constructor
  · rintro ⟨⟨next, lastStatics⟩, completes⟩ ended
    obtain ⟨_, effect, called, performed⟩ := complete_iff.mp completes
    obtain ⟨after, holds, _, same⟩ :=
      receiving.callback dispatcher world statics nonempty fits.1 fits.2
    rw [same, if_pos ended] at called
    have sent : (after.sendResponse dispatcher world statics).1 = effect :=
      congrArg Prod.fst (Option.some.inj called)
    rw [← sent] at performed
    exact handles_of_performed (holds.text? fits.1 fits.2) performed
  · intro answered
    cases ended : isEnded (already ++ chunk) with
    | false =>
        obtain ⟨next, completes, _⟩ :=
          receiving.append dispatcher world statics nonempty fits.1 fits.2 ended
        exact ⟨_, completes⟩
    | true =>
        obtain ⟨asked, response, lastStatics, handles⟩ := answered ended
        obtain ⟨next, completes, _⟩ :=
          receiving.respond nonempty fits ended handles
        exact ⟨_, completes⟩

/-- Every other callback of a session comes back. -/
theorem completes_unread {connection : Connection Request}
    {completion : Completion Request}
    (outstanding : completion.operation ∈ connection.pending)
    (unread : ∀ offset length chunk world,
      completion ≠ .read offset length (some chunk) world)
    (dispatcher : Dispatcher) (statics : Statics) :
    ∃ next, Completes dispatcher (connection, statics) completion next := by
  cases completion with
  | handshake error =>
      cases error with
      | none => exact ⟨(_, _), complete_iff.mpr ⟨outstanding, _, rfl, .returned rfl⟩⟩
      | some error =>
          cases error <;>
            exact ⟨(_, _), complete_iff.mpr ⟨outstanding, _, rfl, .deleted rfl⟩⟩
  | read offset length received world =>
      cases received with
      | none => exact ⟨(_, _), complete_iff.mpr ⟨outstanding, _, rfl, .deleted rfl⟩⟩
      | some chunk => exact absurd rfl (unread offset length chunk world)
  | write error =>
      cases error with
      | false =>
          exact ⟨(_, _), complete_iff.mpr ⟨outstanding, _, rfl, .returned rfl⟩⟩
      | true => exact ⟨(_, _), complete_iff.mpr ⟨outstanding, _, rfl, .deleted rfl⟩⟩

theorem Process.step_complete_iff {process : Process Request}
    {version : Version} {session : SessionPtr} {connection : Connection Request}
    (found : (process.component version).connections[session]? =
      some connection) (completion : Completion Request) :
    (∃ after, Process.Steps process (version, .complete session completion)
      after) ↔
    ∃ next, Completes (process.component version).dispatcher
      (connection, process.shared) completion next := by
  constructor
  · rintro ⟨after, step⟩
    cases step with
    | turn moves =>
        obtain ⟨before, next, statics, present, completes, _⟩ :=
          steps_complete.mp moves.1
        dsimp only at present
        rw [found] at present
        cases present
        exact ⟨_, completes⟩
  · rintro ⟨⟨next, statics⟩, completes⟩
    obtain ⟨after, step, _⟩ := Process.step_complete found completes
    exact ⟨after, step⟩

end HttpsServer.Serve
