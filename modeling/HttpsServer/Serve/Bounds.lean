import HttpsServer.Serve.Reading

namespace HttpsServer.Serve

open HttpsServer.Data
open HttpsServer.Dispatch

variable {Request : Type}

/-! Which reads are issued with a region that lies inside `data_`. -/

/-- The read, if it is one, is issued with a region of `data_`. -/
def Call.inBounds : Call Request → Prop
  | .asyncReadSome _ offset length => offset + length ≤ maxLength
  | .asyncHandshake | .parserPut _ | .handleRequest _ _ | .asyncWrite _ _
  | .close _ => True

def Connection.InBounds (connection : Connection Request) : Prop :=
  ∀ call ∈ connection.calls, call.inBounds

/-- Unless the request is complete, `data_` starts with NUL after the read. -/
def ReadsAtOnce (session : Session) (completion : Completion Request) : Prop :=
  match completion with
  | .read offset length (some chunk) _ =>
      ∀ after text, session.receive offset length chunk = some after →
        after.data.text? = some text → isEnded text = true ∨ text = []
  | .read _ _ none _ | .handshake _ | .write _ => True

theorem inBounds_of_operation? {call : Call Request}
    (noOperation : call.operation? = none) : call.inBounds := by
  cases call with
  | asyncReadSome stream offset length => contradiction
  | asyncHandshake | asyncWrite => contradiction
  | parserPut | handleRequest | close => trivial

theorem sendResponse_inBounds (dispatcher : Dispatcher) (world : World Request)
    (statics : Statics) (session : Session) :
    ∀ call ∈ (session.sendResponse dispatcher world statics).1.calls,
      call.inBounds := by
  intro call member
  rcases sendResponse_cases dispatcher world statics session with
    ⟨crash, _, idle⟩ | ⟨before, response, effect, idle⟩
  · exact inBounds_of_operation? (idle call member)
  · rw [effect] at member
    rcases List.mem_append.mp member with member | member
    · exact inBounds_of_operation? (idle call member)
    · rw [List.mem_singleton.mp member]
      trivial

/-- The callback issues only reads inside `data_` exactly when it does not have to
append to a non-empty text. -/
theorem handleRead_inBounds_iff (dispatcher : Dispatcher)
    (world : World Request) (statics : Statics) (session : Session) :
    (∀ call ∈ (session.handleRead dispatcher world statics false).1.calls,
      call.inBounds) ↔
    ∀ text, session.data.text? = some text → isEnded text = true ∨ text = [] := by
  unfold Session.handleRead Session.endOfRequest
  rw [if_neg Bool.false_ne_true]
  cases received : session.data.text? with
  | none => simp
  | some text =>
      cases ended : isEnded text with
      | true =>
          simp only [Option.map_some, ended]
          refine iff_of_true
            (sendResponse_inBounds dispatcher world statics session) ?_
          intro other same
          cases same
          exact .inl ended
      | false =>
          simp only [Option.map_some, ended, Session.appendData, received]
          simp only [Call.inBounds, ended, List.mem_singleton, forall_eq,
            Option.some.injEq, forall_eq', Bool.false_eq_true, false_or]
          rw [← List.length_eq_zero_iff]
          omega

theorem callback_inBounds_iff {dispatcher : Dispatcher}
    {statics lastStatics : Statics} {session : Session}
    {completion : Completion Request} {effect : Effect Request}
    (called : completion.callback dispatcher statics session =
      some (effect, lastStatics)) :
    (∀ call ∈ effect.calls, call.inBounds) ↔
      ReadsAtOnce session completion := by
  cases completion with
  | handshake error =>
      cases called
      refine iff_of_true ?_ trivial
      match error with
      | none => simp [Session.handleHandshake, Call.inBounds]
      | some .httpRequest => simp [Session.handleHandshake]
      | some .other => simp [Session.handleHandshake]
  | write error =>
      cases called
      refine iff_of_true ?_ trivial
      cases error <;> simp [Session.handleWrite, Call.inBounds]
  | read offset length received world =>
      cases received with
      | none =>
          cases called
          exact iff_of_true (by simp) trivial
      | some chunk =>
          obtain ⟨after, store, handled⟩ := Option.map_eq_some_iff.mp called
          have handed := handleRead_inBounds_iff dispatcher world statics after
          rw [handled] at handed
          rw [handed, ReadsAtOnce]
          constructor
          · intro atOnce other text same
            rw [store] at same
            cases same
            exact atOnce text
          · intro atOnce text read
            exact atOnce after text store read

theorem completes_inBounds_iff {dispatcher : Dispatcher}
    {before after : Connection Request × Statics}
    {completion : Completion Request}
    (step : Completes dispatcher before completion after)
    (inside : before.1.InBounds) :
    after.1.InBounds ↔ ReadsAtOnce before.1.session completion := by
  obtain ⟨_, effect, called, performed⟩ := complete_iff.mp step
  rw [← callback_inBounds_iff called, Connection.InBounds, performed.calls]
  constructor
  · intro all call member
    exact all call (List.mem_append_right _ member)
  · intro added call member
    rcases List.mem_append.mp member with old | new
    · exact inside call old
    · exact added call new

theorem completes_inBounds {dispatcher : Dispatcher}
    {before after : Connection Request × Statics}
    {completion : Completion Request}
    (step : Completes dispatcher before completion after)
    (inside : after.1.InBounds) : before.1.InBounds := by
  obtain ⟨_, effect, _, performed⟩ := complete_iff.mp step
  intro call member
  apply inside
  rw [performed.calls]
  exact List.mem_append_left _ member

theorem start_inBounds {session : Session} {connection : Connection Request}
    (started : (Connection.allocated session).start = some connection) :
    connection.InBounds := by
  rw [Connection.start] at started
  have performed := perform_iff.mp started
  rw [Connection.InBounds, performed.calls, Connection.allocated,
    Session.start]
  cases session.version <;> simp [Call.inBounds]

/-- A session has issued only reads inside `data_` exactly when each of its reads
has completed the request or left an empty text. -/
theorem inBounds_iff {dispatcher : Dispatcher} {session : Session}
    {connection last : Connection Request} {statics lastStatics : Statics}
    {completions : List (Completion Request)}
    (started : (Connection.allocated session).start = some connection)
    (run : Run (Completes dispatcher) (connection, statics) completions
      (last, lastStatics)) :
    last.InBounds ↔
      Run (fun before completion after =>
        Completes dispatcher before completion after ∧
          ReadsAtOnce before.1.session completion)
        (connection, statics) completions (last, lastStatics) :=
  run.restrict_iff (fun state => state.1.InBounds)
    (fun state completion => ReadsAtOnce state.1.session completion)
    (fun step => completes_inBounds_iff step)
    (fun step => completes_inBounds step) (start_inBounds started)

/-! A first read of one byte. -/

theorem oneByte_run :
    ∃ connection last : Connection Text,
      (Connection.allocated (receivedSession [] (by decide))).start =
        some connection ∧
      Run (Completes ⟨[], ∅, 0⟩) (connection, ⟨0, ∅⟩)
        [.read 0 maxLength (some "G".toList) lineWorld] (last, ⟨0, ∅⟩) ∧
      .asyncReadSome connection.session.stream 1 maxLength ∈ last.calls := by
  obtain ⟨connection, started⟩ : ∃ connection : Connection Text,
      (Connection.allocated (receivedSession [] (by decide))).start =
        some connection := Connection.start_returns _
  have opened : Opened ⟨[], ∅, 0⟩ .http connection := .http rfl started
  obtain ⟨last, step, _, _, calls⟩ :=
    opened.receiving.1.append ⟨[], ∅, 0⟩ lineWorld ⟨0, ∅⟩
      (show "G".toList ≠ [] by decide) (by decide) (by decide) (by decide)
  refine ⟨connection, last, started, .single step, ?_⟩
  rw [calls]
  exact List.mem_append_right _ (List.mem_singleton_self _)

theorem not_inBounds_oneByte {stream : Stream} {connection : Connection Request}
    (issued : .asyncReadSome stream 1 maxLength ∈ connection.calls) :
    ¬ connection.InBounds := by
  intro inside
  have bound : 1 + maxLength ≤ maxLength := inside _ issued
  omega

theorem inBounds_iff_oneByte :
    ∃ connection last : Connection Text,
      (Connection.allocated (receivedSession [] (by decide))).start =
        some connection ∧
      Run (Completes ⟨[], ∅, 0⟩) (connection, ⟨0, ∅⟩)
        [.read 0 maxLength (some "G".toList) lineWorld] (last, ⟨0, ∅⟩) ∧
      ¬ last.InBounds ∧
      ¬ Run (fun before completion after =>
        Completes ⟨[], ∅, 0⟩ before completion after ∧
          ReadsAtOnce before.1.session completion)
        (connection, ⟨0, ∅⟩) [.read 0 maxLength (some "G".toList) lineWorld]
        (last, ⟨0, ∅⟩) := by
  obtain ⟨connection, last, started, run, issued⟩ := oneByte_run
  have outside := not_inBounds_oneByte issued
  refine ⟨connection, last, started, run, outside, fun restricted => ?_⟩
  exact outside ((inBounds_iff started run).mpr restricted)

theorem issued_outOfBounds :
    ∃ connection last : Connection Text,
      (Connection.allocated (receivedSession [] (by decide))).start =
        some connection ∧
      Run (Completes ⟨[], ∅, 0⟩) (connection, ⟨0, ∅⟩)
        [.read 0 maxLength (some "G".toList) lineWorld] (last, ⟨0, ∅⟩) ∧
      ¬ last.InBounds := by
  obtain ⟨connection, last, started, run, issued⟩ := oneByte_run
  exact ⟨connection, last, started, run, not_inBounds_oneByte issued⟩

end HttpsServer.Serve
