import HttpsServer.Config.Port
import Mathlib.Data.List.TakeWhile

namespace HttpsServer.Config

open HttpsServer.Data

/-! The paths of the two keys of a config. -/

/-- The members of the parser that `GetKeyPath` writes, and that
`GetSSLPrivateKeyPath` and `GetSSLPublicKeyPath` return. -/
structure KeyPaths where
  sslPrivatePath : Text
  sslPublicPath : Text
deriving DecidableEq

/-- The members of a parser that has looked for no keys yet. -/
def KeyPaths.fresh : KeyPaths := ⟨[], []⟩

def privateKeyRoot : Text := "private_key_root".toList

def publicKeyRoot : Text := "public_key_root".toList

/-- What stands behind a keyword; none where `substr` throws, as there is no start
position. -/
def readKey (keyStatement : Text) (keyPos : Nat) : Option Text :=
  (Text.findFirst (!isBlank ·) keyStatement keyPos).map fun startPos =>
    Text.slice keyStatement startPos
      (Text.findFirst endsPort keyStatement startPos)

/-- One of the two paths after a statement, which keeps it unless it has the
keyword. -/
def readKeyPath (keyword keyStatement path : Text) : Option Text :=
  match Text.find keyword keyStatement with
  | none => some path
  | some keyPos => readKey keyStatement (keyPos + keyword.length)

def readKeyStatement (paths : KeyPaths) (statement : NginxConfigStatement) :
    Option KeyPaths := do
  let keyStatement := statement.toString 0
  let sslPrivatePath ←
    readKeyPath privateKeyRoot keyStatement paths.sslPrivatePath
  let sslPublicPath ← readKeyPath publicKeyRoot keyStatement paths.sslPublicPath
  some ⟨sslPrivatePath, sslPublicPath⟩

def getKeyPath (config : NginxConfig) (paths : KeyPaths) :
    Option (Bool × KeyPaths) := do
  let paths ← config.statements.foldlM readKeyStatement paths
  some (!(paths.sslPublicPath.isEmpty || paths.sslPrivatePath.isEmpty), paths)

/-! One statement. -/

theorem isKeyword_privateKeyRoot : IsKeyword privateKeyRoot :=
  isKeyword_of_all (by decide) (by decide)

theorem isKeyword_publicKeyRoot : IsKeyword publicKeyRoot :=
  isKeyword_of_all (by decide) (by decide)

theorem readKey_eq {keyStatement : Text} {keyPos : Nat}
    (someText : ∃ c ∈ keyStatement.drop keyPos, isBlank c = false) :
    readKey keyStatement keyPos =
      some (portText (keyStatement.drop keyPos)) := by
  rw [readKey]
  cases started : Text.findFirst (!isBlank ·) keyStatement keyPos with
  | none =>
      obtain ⟨c, member, notBlank⟩ := someText
      have blank := Text.findFirst_isNone.mp started c member
      rw [notBlank] at blank
      contradiction
  | some startPos =>
      have start := Text.drop_findFirst started
      simp only [Bool.not_not] at start
      rw [Option.map_some, Text.slice_findFirst, start, portText]

theorem readKeyPath_own {keyword : Text} (value path : Text) :
    readKeyPath keyword
        ((NginxConfigStatement.mk [keyword, value] none).toString 0) path =
      some (portText value) := by
  have printed : (NginxConfigStatement.mk [keyword, value] none).toString 0 =
      keyword ++ ' ' :: (value ++ ';' :: ['\n']) := by
    simp [NginxConfigStatement.toString, joinTokens, indentation]
  have found : Text.find keyword (keyword ++ ' ' :: (value ++ ';' :: ['\n'])) =
      some 0 := Text.find_leading _ _
  have someText : ∃ c ∈ (keyword ++ ' ' :: (value ++ ';' :: ['\n'])).drop
      (0 + keyword.length), isBlank c = false := by
    refine ⟨';', ?_, rfl⟩
    rw [Nat.zero_add, List.drop_left]
    simp
  rw [readKeyPath, printed, found]
  dsimp only
  rw [readKey_eq someText, Nat.zero_add, List.drop_left]
  exact congrArg some (portText_semicolon (' ' :: value) ['\n'])

theorem readKeyPath_other {keyword : Text} (isKeyword : IsKeyword keyword)
    {statement : NginxConfigStatement}
    (unmentioned : ∀ nested ∈ statement.withNested,
      ¬ nested.mentions keyword = true) (path : Text) :
    readKeyPath keyword (statement.toString 0) path = some path := by
  have missing : ¬ keyword <:+: statement.toString 0 := by
    rw [isKeyword.infix_toString]
    rintro ⟨nested, member, mentions⟩
    exact unmentioned nested member mentions
  rw [← Text.find_isSome, Option.not_isSome_iff_eq_none] at missing
  rw [readKeyPath, missing]

/-- What a statement does to the path of a keyword that stands in no other. -/
theorem readKeyPath_step {keyword value : Text} (isKeyword : IsKeyword keyword)
    {statement : NginxConfigStatement}
    (kind : statement = .mk [keyword, value] none ∨
      ∀ nested ∈ statement.withNested, ¬ nested.mentions keyword = true)
    (path : Text) :
    ∃ next, readKeyPath keyword (statement.toString 0) path = some next ∧
      (next = portText value ∨
        statement ≠ .mk [keyword, value] none ∧ next = path) := by
  rcases kind with rfl | unmentioned
  · exact ⟨_, readKeyPath_own value path, .inl rfl⟩
  · refine ⟨path, readKeyPath_other isKeyword unmentioned path,
      .inr ⟨?_, rfl⟩⟩
    rintro rfl
    exact unmentioned _ List.mem_cons_self (mentions_own keyword [value] none)

/-! All statements of a config in which each keyword stands once. -/

def NginxConfig.allTokens (config : NginxConfig) : List Text :=
  config.allStatements.flatMap NginxConfigStatement.tokens

/-- A statement gives the keyword its value, and no other token has the keyword
in it. -/
structure DeclaresOnce (config : NginxConfig) (keyword value : Text) : Prop where
  statement : .mk [keyword, value] none ∈ config.statements
  once : config.allTokens.countP
    (fun token => (Text.find keyword token).isSome) = 1

theorem allStatementsOf_eq (statements : List NginxConfigStatement) :
    allStatementsOf statements =
      statements.flatMap NginxConfigStatement.withNested := by
  induction statements with
  | nil => rfl
  | cons statement rest induction =>
      rw [allStatementsOf, induction, List.flatMap_cons]

theorem unmentioned_of_countP {keyword : Text}
    {statements : List NginxConfigStatement}
    (none_counted : ((allStatementsOf statements).flatMap
      NginxConfigStatement.tokens).countP
        (fun token => (Text.find keyword token).isSome) = 0)
    {statement : NginxConfigStatement} (member : statement ∈ statements) :
    ∀ nested ∈ statement.withNested, ¬ nested.mentions keyword = true := by
  intro nested inside mentions
  obtain ⟨token, isToken, found⟩ := List.any_eq_true.mp mentions
  rw [List.countP_eq_zero] at none_counted
  refine none_counted token ?_ found
  rw [allStatementsOf_eq, List.mem_flatMap]
  exact ⟨nested, List.mem_flatMap.mpr ⟨statement, member, inside⟩, isToken⟩

theorem DeclaresOnce.kinds {config : NginxConfig} {keyword value : Text}
    (declares : DeclaresOnce config keyword value) :
    ∀ statement ∈ config.statements,
      statement = .mk [keyword, value] none ∨
        ∀ nested ∈ statement.withNested, ¬ nested.mentions keyword = true := by
  obtain ⟨statements⟩ := config
  obtain ⟨before, after, position⟩ := List.append_of_mem declares.statement
  have once := declares.once
  rw [NginxConfig.statements_mk] at position
  subst position
  have itself : (Text.find keyword keyword).isSome = true :=
    (Text.find_isSome keyword keyword).mpr (List.infix_refl keyword)
  have counted : [keyword, value].countP
        (fun token => (Text.find keyword token).isSome) =
      [value].countP (fun token => (Text.find keyword token).isSome) + 1 :=
    List.countP_cons_of_pos itself
  rw [NginxConfig.allTokens, NginxConfig.allStatements, allStatementsOf_eq,
    List.flatMap_append, List.flatMap_cons, ← allStatementsOf_eq,
    ← allStatementsOf_eq, List.flatMap_append, List.flatMap_append,
    List.countP_append, List.countP_append, NginxConfigStatement.withNested,
    List.flatMap_singleton, NginxConfigStatement.tokens_mk, counted] at once
  intro statement member
  rcases List.mem_append.mp member with early | late
  · exact .inr (unmentioned_of_countP (by omega) early)
  · rcases List.mem_cons.mp late with rfl | late
    · exact .inl rfl
    · exact .inr (unmentioned_of_countP (by omega) late)

/-- The loop leaves the path of each keyword as it stands in its statement. -/
theorem readKeyStatements {privateRoot publicRoot : Text}
    {statements : List NginxConfigStatement}
    (privateKinds : ∀ statement ∈ statements,
      statement = .mk [privateKeyRoot, privateRoot] none ∨
        ∀ nested ∈ statement.withNested,
          ¬ nested.mentions privateKeyRoot = true)
    (publicKinds : ∀ statement ∈ statements,
      statement = .mk [publicKeyRoot, publicRoot] none ∨
        ∀ nested ∈ statement.withNested,
          ¬ nested.mentions publicKeyRoot = true) (paths : KeyPaths) :
    ∃ last, statements.foldlM readKeyStatement paths = some last ∧
      (last.sslPrivatePath = portText privateRoot ∨
        .mk [privateKeyRoot, privateRoot] none ∉ statements ∧
          last.sslPrivatePath = paths.sslPrivatePath) ∧
      (last.sslPublicPath = portText publicRoot ∨
        .mk [publicKeyRoot, publicRoot] none ∉ statements ∧
          last.sslPublicPath = paths.sslPublicPath) := by
  induction statements generalizing paths with
  | nil => exact ⟨paths, rfl, .inr ⟨List.not_mem_nil, rfl⟩,
      .inr ⟨List.not_mem_nil, rfl⟩⟩
  | cons statement rest induction =>
      obtain ⟨privatePath, privateRead, privateStep⟩ :=
        readKeyPath_step isKeyword_privateKeyRoot
          (privateKinds statement List.mem_cons_self) paths.sslPrivatePath
      obtain ⟨publicPath, publicRead, publicStep⟩ :=
        readKeyPath_step isKeyword_publicKeyRoot
          (publicKinds statement List.mem_cons_self) paths.sslPublicPath
      have read : readKeyStatement paths statement =
          some ⟨privatePath, publicPath⟩ := by
        simp [readKeyStatement, privateRead, publicRead]
      obtain ⟨last, run, privateRest, publicRest⟩ := induction
        (fun other member => privateKinds other (List.mem_cons_of_mem _ member))
        (fun other member => publicKinds other (List.mem_cons_of_mem _ member))
        ⟨privatePath, publicPath⟩
      refine ⟨last, ?_, ?_, ?_⟩
      · rw [List.foldlM_cons, read]
        exact run
      · grind
      · grind

/-! Which paths are read back whole. -/

/-- No character ends the path early, and none at its start is skipped. -/
structure IsKeyPath (path : Text) : Prop where
  unended : ∀ c ∈ path, endsPort c = false
  unskipped : ∀ first ∈ path.head?, isBlank first = false

theorem portText_eq_self_iff (path : Text) :
    portText path = path ↔ IsKeyPath path := by
  constructor
  · intro whole
    -- Nothing is taken away at either end.
    have shorter := (List.takeWhile_sublist (l := path.dropWhile isBlank)
      (!endsPort ·)).length_le
    have started : path.dropWhile isBlank = path := by
      refine (List.dropWhile_sublist isBlank).eq_of_length_le ?_
      rw [← portText, whole] at shorter
      exact shorter
    rw [portText, started, List.takeWhile_eq_self_iff] at whole
    refine ⟨fun c member => by simpa using whole c member, ?_⟩
    intro first isFirst
    obtain ⟨rest, rfl⟩ := List.head?_eq_some_iff.mp isFirst
    exact eq_false_of_ne_true
      (List.dropWhile_eq_self_iff.mp started (Nat.succ_pos _))
  · intro path_whole
    have started : path.dropWhile isBlank = path := by
      rw [List.dropWhile_eq_self_iff]
      intro nonempty
      cases path with
      | nil => exact absurd nonempty (Nat.lt_irrefl 0)
      | cons first rest =>
          exact ne_true_of_eq_false (path_whole.unskipped first rfl)
    rw [portText, started, List.takeWhile_eq_self_iff]
    intro c member
    simpa using path_whole.unended c member

/-- Both keys are found, and their paths are the values of the statements,
exactly when no character of a value ends it. -/
theorem getKeyPath_iff {config : NginxConfig} {privateRoot publicRoot : Text}
    (privateOnce : DeclaresOnce config privateKeyRoot privateRoot)
    (publicOnce : DeclaresOnce config publicKeyRoot publicRoot)
    (private_nonempty : privateRoot ≠ []) (public_nonempty : publicRoot ≠ []) :
    getKeyPath config KeyPaths.fresh = some (true, ⟨privateRoot, publicRoot⟩) ↔
      IsKeyPath privateRoot ∧ IsKeyPath publicRoot := by
  obtain ⟨last, run, privatePath, publicPath⟩ := readKeyStatements
    privateOnce.kinds publicOnce.kinds KeyPaths.fresh
  have privateRead := privatePath.resolve_right
    fun ⟨missing, _⟩ => missing privateOnce.statement
  have publicRead := publicPath.resolve_right
    fun ⟨missing, _⟩ => missing publicOnce.statement
  rw [← portText_eq_self_iff, ← portText_eq_self_iff, ← privateRead,
    ← publicRead]
  have result : getKeyPath config KeyPaths.fresh =
      some (!(last.sslPublicPath.isEmpty || last.sslPrivatePath.isEmpty),
        last) := by
    simp [getKeyPath, run]
  rw [result, Option.some.injEq, Prod.mk.injEq]
  constructor
  · rintro ⟨-, rfl⟩
    exact ⟨rfl, rfl⟩
  · rintro ⟨whole, publicWhole⟩
    obtain ⟨sslPrivatePath, sslPublicPath⟩ := last
    subst whole publicWhole
    simp [private_nonempty, public_nonempty]

def keyConfig (privateRoot publicRoot : Text) : NginxConfig :=
  .mk [.mk [privateKeyRoot, privateRoot] none,
    .mk [publicKeyRoot, publicRoot] none]

theorem getKeyPath_iff_roots :
    getKeyPath (keyConfig "privroot".toList "pubroot".toList) KeyPaths.fresh =
        some (true, ⟨"privroot".toList, "pubroot".toList⟩) ↔
      IsKeyPath "privroot".toList ∧ IsKeyPath "pubroot".toList :=
  getKeyPath_iff ⟨List.mem_cons_self, by decide⟩
    ⟨List.mem_cons_of_mem _ List.mem_cons_self, by decide⟩ (by decide)
    (by decide)

/-- A quoted path is cut at its blank, although both keys are found. -/
theorem getKeyPath_cut :
    parse ("private_key_root \"/my keys/key.pem\"; " ++
        "public_key_root /cert.pem;").toList (.mk []) =
      .returned true (keyConfig "/my keys/key.pem".toList "/cert.pem".toList) ∧
      DeclaresOnce (keyConfig "/my keys/key.pem".toList "/cert.pem".toList)
        privateKeyRoot "/my keys/key.pem".toList ∧
      DeclaresOnce (keyConfig "/my keys/key.pem".toList "/cert.pem".toList)
        publicKeyRoot "/cert.pem".toList ∧
      getKeyPath (keyConfig "/my keys/key.pem".toList "/cert.pem".toList)
          KeyPaths.fresh =
        some (true, ⟨"/my".toList, "/cert.pem".toList⟩) := by
  refine ⟨rfl, ⟨List.mem_cons_self, by decide⟩,
    ⟨List.mem_cons_of_mem _ List.mem_cons_self, by decide⟩, by decide⟩

end HttpsServer.Config
