import HttpsServer.Config.TokenStream

namespace HttpsServer.Config

open HttpsServer.Data

/-! The parser's loop on the stream. -/

/-- Two lexers whose inputs are seen alike keep the loop in step. -/
theorem parseLoop_view {Source View : Type} (view : Source → View)
    {next : Source → TokenResult × Source} {nextView : View → TokenResult × View}
    (commutes : ∀ input,
      nextView (view input) = ((next input).1, view (next input).2))
    (calls : Nat) (input : Source) (state : ParseState) :
    parseLoop next calls input state =
      parseLoop nextView calls (view input) state := by
  induction calls generalizing input state with
  | zero => rfl
  | succ calls induction =>
      rw [parseLoop_succ, parseLoop_succ, commutes input]
      cases parseStep state (next input).1.1 (next input).1.2 with
      | again state => exact induction (next input).2 state
      | leave valid config => rfl
      | undefined => rfl

theorem parseLoop_nextToken (calls : Nat) (input : CharStream)
    (state : ParseState) :
    parseLoop nextToken calls input state =
      parseLoop parseToken calls input.remaining state :=
  parseLoop_view InputStream.remaining nextToken_remaining calls input state

/-- The stream version of `Parse`, on the stream. -/
def parseFrom (input : CharStream) (config : NginxConfig) : ParseResult :=
  parseLoop nextToken (input.unread.length + 1) input (.initial config)

theorem parseFrom_ofList (text : Text) (config : NginxConfig) :
    parseFrom (.ofList text) config = parse text config :=
  parseLoop_nextToken (text.length + 1) (.ofList text) (.initial config)

/-- Each call of `ParseToken` ends after at most one round more than there are
unread characters, and `Parse` after at most one call more. -/
theorem parse_terminates :
    (∀ (value : Text) (input : CharStream), ∃ result after,
      (∀ rounds, input.unread.length < rounds →
        parseTokenFrom rounds value input = some (result, after)) ∧
      after.contents = input.contents ∧ after.unread <:+ input.unread ∧
      (result.1 ≠ .eof → after.unread.length < input.unread.length)) ∧
    ∀ (input : CharStream) (config : NginxConfig), ∃ valid tree,
      ∀ calls, input.unread.length < calls →
        parseLoop nextToken calls input (.initial config) =
          .returned valid tree := by
  refine ⟨?_, ?_⟩
  · intro value input
    obtain ⟨result, after, returned, contents, suffix, shorter, _⟩ :=
      parseTokenFrom_returns value input
    exact ⟨result, after, returned, contents, suffix, shorter⟩
  · intro input config
    obtain ⟨statements⟩ := config
    obtain ⟨valid, tree, returned⟩ := parseLoop_returns
      (ParseState.represents_start statements) input.remaining
    refine ⟨valid, tree, ?_⟩
    intro calls enough
    rw [parseLoop_nextToken]
    exact returned calls (Nat.lt_of_le_of_lt input.remaining_length_le enough)

/-- A backslash as the last character, in a quote that is never closed. -/
theorem parse_terminates_unclosed :
    ∃ after, parseTokenFrom 4 [] (.ofList "'a\\".toList) =
        some ((.error, "'a".toList), after) ∧
      after.unread.length < 3 := by
  obtain ⟨result, after, returned, _, _, shorter⟩ :=
    parse_terminates.1 [] (.ofList "'a\\".toList)
  have computed : parseTokenFrom 4 [] (.ofList "'a\\".toList) =
      some ((.error, "'a".toList), ⟨"\\a'".toList, [], false⟩) := rfl
  have same := (returned 4 (by decide)).symm.trans computed
  cases same
  exact ⟨_, computed, shorter nofun⟩

end HttpsServer.Config
