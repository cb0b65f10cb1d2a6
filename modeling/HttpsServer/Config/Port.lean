import HttpsServer.Config.Printed

namespace HttpsServer.Config

open HttpsServer.Data

/-! The port numbers of a config. -/

inductive PortType where
  | http
  | https
deriving DecidableEq

/-- The word that is searched for in the printed statements. -/
def PortType.keyword : PortType → Text
  | .http => "listen".toList
  | .https => "ssl-port".toList

/-- A call returns a result and leaves `port_number`, or `stoi` throws in it. -/
inductive PortLookup where
  | returned (result : Bool) (portNumber : Int16)
  | raised
deriving DecidableEq

def digitsValue (digits : Text) : Nat :=
  Nat.ofDigitChars 10 digits 0

/-- `stoi` of decimal digits; `none` when no `int` has their value. -/
def stoi (digits : Text) : Option Nat :=
  if digitsValue digits ≤ 2147483647 then some (digitsValue digits) else none

def endsPort (c : Char) : Bool :=
  c = ' ' || c = '\t' || c = ';'

/-- What `port` is converted to, once it is known not to be empty. -/
def convertPort (port : Text) (portNumber : Int16) : PortLookup :=
  if port.any (!·.isDigit) then .returned false portNumber
  else
    match stoi port with
    | none => .raised
    | some intPort =>
        if intPort > 65535 then .returned false portNumber
        else .returned true (Int16.ofNat intPort)

/-- The rest of the loop body, once the keyword is found. -/
def readPort (portStatement : Text) (portPos : Nat) (portNumber : Int16) :
    PortLookup :=
  match Text.findFirst (!isBlank ·) portStatement portPos with
  -- Then the end position is `npos` too.
  | none => .returned false portNumber
  | some portStartPos =>
      let portEndPos := Text.findFirst endsPort portStatement portStartPos
      if portEndPos = some portStartPos then .returned false portNumber
      else
        convertPort (Text.slice portStatement portStartPos portEndPos)
          portNumber

def searchStatements (portType : PortType) (portNumber : Int16) :
    List NginxConfigStatement → PortLookup
  | [] => .returned false portNumber
  | statement :: rest =>
      let portStatement := statement.toString 0
      match Text.find portType.keyword portStatement with
      | none => searchStatements portType portNumber rest
      | some portPos =>
          readPort portStatement (portPos + portType.keyword.length) portNumber

def getPortNumber (config : NginxConfig) (portType : PortType)
    (portNumber : Int16) : PortLookup :=
  searchStatements portType portNumber config.statements

/-! What is read behind the keyword. -/

def portText (rest : Text) : Text :=
  (rest.dropWhile isBlank).takeWhile (!endsPort ·)

def portOf (port : Text) (portNumber : Int16) : PortLookup :=
  if port = [] then .returned false portNumber
  else convertPort port portNumber

theorem readPort_eq (portStatement : Text) (portPos : Nat)
    (portNumber : Int16) :
    readPort portStatement portPos portNumber =
      portOf (portText (portStatement.drop portPos)) portNumber := by
  rw [readPort]
  split
  next noStart =>
    have allBlank := List.findIdx_eq_length.mpr
      (Text.findFirst_isNone.mp noStart)
    rw [portText, List.dropWhile_eq_drop_findIdx_not, allBlank,
      List.drop_length]
    rfl
  next portStartPos started =>
    have start := Text.drop_findFirst started
    have noPort : Text.findFirst endsPort portStatement portStartPos =
          some portStartPos ↔
        Text.slice portStatement portStartPos
          (Text.findFirst endsPort portStatement portStartPos) = [] :=
      Text.findFirst_eq_start_iff (Text.findFirst_lt started)
    simp only [Bool.not_not] at start
    simp only [noPort, Text.slice_findFirst, portText, ← start, portOf]

/-- What the call makes of a text in which the keyword occurs. -/
def lookup (portType : PortType) (portNumber : Int16) (text : Text) :
    Option PortLookup :=
  (Text.behind portType.keyword text).map fun rest =>
    portOf (portText rest) portNumber

theorem searchStatements_eq (portType : PortType) (portNumber : Int16)
    (statements : List NginxConfigStatement) :
    searchStatements portType portNumber statements =
      (statements.findSome? fun statement =>
        lookup portType portNumber (statement.toString 0)).getD
          (.returned false portNumber) := by
  induction statements with
  | nil => rfl
  | cons statement rest induction =>
      rw [searchStatements, List.findSome?_cons, lookup, Text.behind]
      cases Text.find portType.keyword (statement.toString 0) with
      | none => exact induction
      | some portPos => exact readPort_eq _ _ _

/-! The printed statements, from the tokens of the statements in them. -/

theorem PortType.isKeyword (portType : PortType) : IsKeyword portType.keyword := by
  cases portType <;> exact isKeyword_of_all (by decide) (by decide)

theorem lookup_marks {portType : PortType} {portNumber : Int16} {marks : Text}
    (marked : marks.all isMark = true) (after : Text) :
    lookup portType portNumber (marks ++ after) =
      lookup portType portNumber after := by
  rw [lookup, Text.behind_append_of_outside portType.isKeyword.nonempty]
  · rfl
  · intro c member
    exact portType.isKeyword.outside (List.all_eq_true.mp marked c member)

theorem portText_semicolon (rest after : Text) :
    portText (rest ++ ';' :: after) = portText rest := by
  rw [portText, List.dropWhile_append, portText]
  split
  next blank =>
    rw [List.isEmpty_iff.mp blank]
    rfl
  next => exact Text.takeWhile_append_stop rfl _ _

theorem portOf_openBrace (rest after : Text) (portNumber : Int16) :
    portOf (portText (rest ++ ' ' :: '\x7b' :: after)) portNumber =
      portOf (portText rest) portNumber := by
  rw [portText, List.dropWhile_append, portText]
  split
  next blank =>
    rw [List.isEmpty_iff.mp blank]
    rfl
  next => rw [Text.takeWhile_append_stop rfl]

theorem lookup_append {portType : PortType} {portNumber : Int16} {c : Char}
    (mark : isMark c = true) {text after : Text}
    (ended : ∀ rest, portOf (portText (rest ++ c :: after)) portNumber =
      portOf (portText rest) portNumber) :
    lookup portType portNumber (text ++ c :: after) =
      (lookup portType portNumber text).or
        (lookup portType portNumber after) := by
  rw [lookup, Text.behind_append_cons portType.isKeyword.nonempty
    (portType.isKeyword.outside mark), lookup, lookup]
  cases Text.behind portType.keyword text with
  | none => rfl
  | some rest => exact congrArg some (ended rest)

theorem lookup_semicolon (portType : PortType) (portNumber : Int16)
    (text after : Text) :
    lookup portType portNumber (text ++ ';' :: after) =
      (lookup portType portNumber text).or
        (lookup portType portNumber after) := by
  apply lookup_append rfl
  intro rest
  rw [portText_semicolon]

theorem lookup_openBrace (portType : PortType) (portNumber : Int16)
    (text after : Text) :
    lookup portType portNumber (text ++ ' ' :: '\x7b' :: after) =
      (lookup portType portNumber text).or
        (lookup portType portNumber after) := by
  have brace : lookup portType portNumber ('\x7b' :: after) =
      lookup portType portNumber after :=
    @lookup_marks portType portNumber ['\x7b'] rfl after
  rw [← brace]
  apply lookup_append rfl
  intro rest
  exact portOf_openBrace rest after portNumber

def lookupTokens (portType : PortType) (portNumber : Int16)
    (statement : NginxConfigStatement) : Option PortLookup :=
  lookup portType portNumber (joinTokens statement.tokens)

mutual
/-- The call finds in the printed text what it finds in the tokens, those of each
statement before those of its block. -/
theorem lookup_statements (portType : PortType) (portNumber : Int16)
    (depth : Nat) :
    ∀ (statements : List NginxConfigStatement) (after : Text),
      lookup portType portNumber
          (statementsToString depth statements ++ after) =
        ((allStatementsOf statements).findSome?
          (lookupTokens portType portNumber)).or
            (lookup portType portNumber after)
  | [], _ => rfl
  | statement :: rest, after => by
      rw [statementsToString, List.append_assoc,
        lookup_statement portType portNumber depth statement,
        lookup_statements portType portNumber depth rest after,
        allStatementsOf, List.findSome?_append, Option.or_assoc]

theorem lookup_statement (portType : PortType) (portNumber : Int16)
    (depth : Nat) :
    ∀ (statement : NginxConfigStatement) (after : Text),
      lookup portType portNumber (statement.toString depth ++ after) =
        (statement.withNested.findSome?
          (lookupTokens portType portNumber)).or
            (lookup portType portNumber after)
  | .mk tokens none, after => by
      have printed :
          (NginxConfigStatement.mk tokens none).toString depth ++ after =
            indentation depth ++
              (joinTokens tokens ++ ';' :: ("\n".toList ++ after)) := by
        simp [NginxConfigStatement.toString]
      rw [printed, lookup_marks (isMark_indentation depth), lookup_semicolon,
        lookup_marks rfl, NginxConfigStatement.withNested,
        List.findSome?_singleton]
      rfl
  | .mk tokens (some (.mk inner)), after => by
      have printed : (NginxConfigStatement.mk tokens
            (some (.mk inner))).toString depth ++ after =
          indentation depth ++ (joinTokens tokens ++ ' ' :: '\x7b' ::
            ("\n".toList ++ (statementsToString (depth + 1) inner ++
              (indentation depth ++ ("\x7d\n".toList ++ after))))) := by
        simp [NginxConfigStatement.toString, NginxConfig.toString]
      rw [printed, lookup_marks (isMark_indentation depth), lookup_openBrace,
        lookup_marks rfl, lookup_statements portType portNumber (depth + 1) inner,
        lookup_marks (isMark_indentation depth), lookup_marks rfl,
        NginxConfigStatement.withNested, NginxConfig.allStatements,
        List.findSome?_cons, lookupTokens, NginxConfigStatement.tokens_mk]
      cases lookup portType portNumber (joinTokens tokens) with
      | none => rfl
      | some found => rfl
end

def NginxConfig.firstMention (keyword : Text) (config : NginxConfig) :
    Option NginxConfigStatement :=
  config.allStatements.find? fun statement => statement.mentions keyword

theorem lookup_isSome (portType : PortType) (portNumber : Int16)
    (text : Text) :
    (lookup portType portNumber text).isSome =
      (Text.find portType.keyword text).isSome := by
  rw [lookup, Text.behind, Option.isSome_map, Option.isSome_map]

theorem find_joinTokens (portType : PortType) (tokens : List Text) :
    (Text.find portType.keyword (joinTokens tokens)).isSome =
      tokens.any fun token => (Text.find portType.keyword token).isSome := by
  rw [Bool.eq_iff_iff, Text.find_isSome, portType.isKeyword.infix_joinTokens,
    List.any_eq_true]
  simp only [Text.find_isSome]

theorem lookupTokens_isSome (portType : PortType) (portNumber : Int16)
    (statement : NginxConfigStatement) :
    (lookupTokens portType portNumber statement).isSome =
      statement.mentions portType.keyword := by
  rw [lookupTokens, lookup_isSome, find_joinTokens]
  rfl

theorem findSome?_eq_bind {Item Found : Type} (find : Item → Option Found)
    (items : List Item) :
    items.findSome? find =
      (items.find? fun item => (find item).isSome).bind find := by
  induction items with
  | nil => rfl
  | cons item items induction =>
      rw [List.findSome?_cons, List.find?_cons]
      cases found : find item with
      | none => exact induction
      | some result => exact found.symm

theorem findSome?_statements (portType : PortType) (portNumber : Int16)
    (statements : List NginxConfigStatement) :
    (statements.findSome? fun statement =>
        lookup portType portNumber (statement.toString 0)) =
      (allStatementsOf statements).findSome?
        (lookupTokens portType portNumber) := by
  have nothing : lookup portType portNumber [] = none := by
    rw [lookup, Text.behind_nil portType.isKeyword.nonempty, Option.map_none]
  induction statements with
  | nil => rfl
  | cons statement rest induction =>
      have found := lookup_statement portType portNumber 0 statement []
      rw [List.append_nil, nothing, Option.or_none] at found
      rw [List.findSome?_cons, found, induction, allStatementsOf,
        List.findSome?_append]
      cases statement.withNested.findSome?
          (lookupTokens portType portNumber) with
      | none => rfl
      | some result => rfl

/-- The call reads the port number behind the first mention of the keyword. -/
theorem getPortNumber_eq (config : NginxConfig) (portType : PortType)
    (portNumber : Int16) :
    getPortNumber config portType portNumber =
      ((config.firstMention portType.keyword).bind
        (lookupTokens portType portNumber)).getD
          (.returned false portNumber) := by
  obtain ⟨statements⟩ := config
  rw [getPortNumber, searchStatements_eq, NginxConfig.statements_mk,
    findSome?_statements, findSome?_eq_bind, NginxConfig.firstMention,
    NginxConfig.allStatements]
  simp only [lookupTokens_isSome]

/-! Port numbers that are read back. -/

def IsNumber (port : Text) : Prop :=
  port ≠ [] ∧ ∀ c ∈ port, c.isDigit = true

instance (port : Text) : Decidable (IsNumber port) :=
  @instDecidableAnd _ _ inferInstance (List.decidableBAll _ port)

/-- What stands behind the first occurrence of the keyword, blanks aside and up to
the next blank or semicolon, is a number with this value. -/
def NumberFollows (keyword : Text) (value : Nat) (text : Text) : Prop :=
  ∃ rest, Text.behind keyword text = some rest ∧ IsNumber (portText rest) ∧
    digitsValue (portText rest) = value

theorem portOf_number {port : Text} (number : IsNumber port)
    (portNumber : Int16) :
    portOf port portNumber =
      if digitsValue port ≤ 65535 then
        .returned true (Int16.ofNat (digitsValue port))
      else if digitsValue port ≤ 2147483647 then .returned false portNumber
      else .raised := by
  have digits : ¬ (port.any (!·.isDigit)) = true := by
    simpa using number.2
  rw [portOf, if_neg number.1, convertPort, if_neg digits, stoi]
  by_cases fits : digitsValue port ≤ 65535
  · have fitsInt : digitsValue port ≤ 2147483647 := by omega
    rw [if_pos fits, if_pos fitsInt]
    exact if_neg (by omega)
  · rw [if_neg fits]
    by_cases fitsInt : digitsValue port ≤ 2147483647
    · rw [if_pos fitsInt, if_pos fitsInt]
      exact if_pos (by omega)
    · rw [if_neg fitsInt, if_neg fitsInt]

theorem portOf_notNumber {port : Text} (notNumber : ¬ IsNumber port)
    (portNumber : Int16) :
    portOf port portNumber = .returned false portNumber := by
  rw [portOf]
  split
  next => rfl
  next nonempty =>
    have other : port.any (!·.isDigit) = true := by
      apply Classical.byContradiction
      intro digits
      exact notNumber ⟨nonempty, by simpa using digits⟩
    rw [convertPort, if_pos other]

theorem int16_ofNat_injective {left right : Nat} (leftFits : left ≤ 65535)
    (rightFits : right ≤ 65535) (same : Int16.ofNat left = Int16.ofNat right) :
    left = right := by
  have bits := congrArg Int16.toBitVec same
  rw [Int16.toBitVec_ofNat', Int16.toBitVec_ofNat'] at bits
  have values := congrArg BitVec.toNat bits
  rw [BitVec.toNat_ofNat, BitVec.toNat_ofNat] at values
  omega

theorem portOf_eq_returned_iff {port : Text} {value : Nat} (fits : value ≤ 65535)
    (portNumber : Int16) :
    portOf port portNumber = .returned true (Int16.ofNat value) ↔
      IsNumber port ∧ digitsValue port = value := by
  constructor
  · intro read
    by_cases number : IsNumber port
    · rw [portOf_number number] at read
      split at read
      next portFits =>
        have same := (PortLookup.returned.inj read).2
        exact ⟨number, int16_ofNat_injective portFits fits same⟩
      next => split at read <;> cases read
    · rw [portOf_notNumber number] at read
      cases read
  · rintro ⟨number, rfl⟩
    rw [portOf_number number, if_pos fits]

theorem endsWord_of_isDigit {c : Char} (digit : c.isDigit = true) :
    endsWord c = false := by
  apply eq_false_of_ne_true
  intro ends
  simp only [endsWord, isBlank, Bool.or_eq_true, decide_eq_true_eq] at ends
  rcases ends with (((((rfl | rfl) | rfl) | rfl) | rfl) | rfl) | rfl <;>
    cases digit

theorem portText_word {word : Text} (unended : ∀ c ∈ word, endsWord c = false) :
    portText (' ' :: word) = word := by
  have kept : ∀ c ∈ word, (!endsPort c) = true := by
    intro c member
    have others := unended c member
    simp only [endsWord, isBlank, Bool.or_eq_false_iff] at others
    simp [endsPort, others]
  have start : (' ' :: word).dropWhile isBlank = word := by
    rw [List.dropWhile_cons_of_pos rfl]
    cases word with
    | nil => rfl
    | cons first word =>
        have others := unended first List.mem_cons_self
        simp only [endsWord, Bool.or_eq_false_iff] at others
        exact List.dropWhile_cons_of_neg (by simp [others])
  have whole : (word ++ []).takeWhile (!endsPort ·) =
      word ++ [].takeWhile (!endsPort ·) := List.takeWhile_append_of_pos kept
  rw [List.append_nil, List.takeWhile_nil, List.append_nil] at whole
  rw [portText, start, whole]

theorem lookupTokens_own (portType : PortType) (portNumber : Int16) {port : Text}
    (unended : ∀ c ∈ port, endsWord c = false) :
    lookupTokens portType portNumber (.mk [portType.keyword, port] none) =
      some (portOf port portNumber) := by
  have found : Text.behind portType.keyword (portType.keyword ++ ' ' :: port) =
      some (' ' :: port) := by
    cases portType <;> rfl
  have joined : joinTokens [portType.keyword, port] =
      portType.keyword ++ ' ' :: port := by
    simp [joinTokens]
  rw [lookupTokens, NginxConfigStatement.tokens_mk, joined, lookup, found,
    Option.map_some, portText_word unended]

theorem mentions_own (keyword : Text) (tokens : List Text)
    (childBlock : Option NginxConfig) :
    (NginxConfigStatement.mk (keyword :: tokens) childBlock).mentions keyword =
      true := by
  have itself : (Text.find keyword keyword).isSome = true :=
    (Text.find_isSome keyword keyword).mpr (List.infix_refl keyword)
  rw [NginxConfigStatement.mentions, NginxConfigStatement.tokens_mk,
    List.any_cons, itself]
  rfl

/-- The only statement of the keyword gives the port number exactly when no
statement before it mentions the keyword, or the first that does has the same
number behind it. -/
theorem getPortNumber_iff {config : NginxConfig} {portType : PortType}
    {port : Text}
    (only : config.allStatements.filter (fun statement =>
        statement.tokens.head? = some portType.keyword) =
      [.mk [portType.keyword, port] none])
    (number : IsNumber port) (fits : digitsValue port ≤ 65535)
    (portNumber : Int16) :
    getPortNumber config portType portNumber =
        .returned true (Int16.ofNat (digitsValue port)) ↔
      ∃ statement, config.firstMention portType.keyword = some statement ∧
        (statement = .mk [portType.keyword, port] none ∨
          NumberFollows portType.keyword (digitsValue port)
            (joinTokens statement.tokens)) := by
  have member : NginxConfigStatement.mk [portType.keyword, port] none ∈
      config.allStatements := by
    have listed : NginxConfigStatement.mk [portType.keyword, port] none ∈
        [NginxConfigStatement.mk [portType.keyword, port] none] :=
      List.mem_cons_self
    rw [← only] at listed
    exact (List.mem_filter.mp listed).1
  rw [getPortNumber_eq]
  cases found : config.firstMention portType.keyword with
  | none =>
      have unmentioned := List.find?_eq_none.mp found _ member
      exact absurd (mentions_own portType.keyword [port] none) unmentioned
  | some statement =>
      have mentions : statement.mentions portType.keyword = true :=
        List.find?_some found
      rw [← lookupTokens_isSome portType portNumber, lookupTokens, lookup,
        Option.isSome_map, Option.isSome_iff_exists] at mentions
      obtain ⟨rest, behind⟩ := mentions
      have read : lookupTokens portType portNumber statement =
          some (portOf (portText rest) portNumber) := by
        rw [lookupTokens, lookup, behind, Option.map_some]
      rw [Option.bind_some, read, Option.getD_some]
      constructor
      · intro returned
        obtain ⟨isNumber, same⟩ :=
          (portOf_eq_returned_iff fits portNumber).mp returned
        exact ⟨statement, rfl, .inr ⟨rest, behind, isNumber, same⟩⟩
      · intro first
        obtain ⟨found, equal, own | ⟨followed, follows, isNumber, same⟩⟩ := first
          <;> cases equal
        · subst own
          have unended : ∀ c ∈ port, endsWord c = false := fun c member =>
            endsWord_of_isDigit (number.2 c member)
          rw [lookupTokens_own portType portNumber unended] at read
          rw [← Option.some.inj read]
          exact (portOf_eq_returned_iff fits portNumber).mpr ⟨number, rfl⟩
        · cases behind.symm.trans follows
          exact (portOf_eq_returned_iff fits portNumber).mpr ⟨isNumber, same⟩

/-- The keyword may also stand in the tokens that come later. -/
theorem getPortNumber_listed :
    getPortNumber (.mk [.mk ["http".toList] (some (.mk [
          .mk ["listen".toList, "8080".toList] none,
          .mk ["root".toList, "/listen".toList] none]))]) .http 0 =
        .returned true (Int16.ofNat 8080) := by
  have number : IsNumber "8080".toList := by decide
  exact (getPortNumber_iff rfl number (by decide) 0).mpr ⟨_, rfl, .inl rfl⟩

/-- A location before the statement has the keyword in its path. -/
theorem getPortNumber_hidden :
    ∃ config : NginxConfig,
      parse "location /listen EchoHandler {} listen 80;".toList (.mk []) =
        .returned true config ∧
      config.allStatements.filter (fun statement =>
          statement.tokens.head? = some PortType.http.keyword) =
        [.mk [PortType.http.keyword, "80".toList] none] ∧
      getPortNumber config .http 0 = .returned false 0 ∧
      getPortNumber config .http 0 ≠ .returned true (Int16.ofNat 80) := by
  refine ⟨_, rfl, rfl, rfl, ?_⟩
  intro found
  contradiction

/-! A config of one statement. -/

def listenText (port : Text) : Text :=
  "listen ".toList ++ (port ++ ";".toList)

theorem parse_listen {port : Text} (plain : isPlainToken port = true) :
    parse (listenText port) (.mk []) =
      .returned true (.mk [.mk ["listen".toList, port] none]) := by
  have keyword : isPlainToken "listen".toList = true := by decide
  have lexes : Lexes (listenText port)
      [(.normal, "listen".toList), (.normal, port), (.statementEnd, [';'])]
      [] := by
    have first : parseToken (listenText port) =
        ((.normal, "listen".toList), ' ' :: (port ++ [';'])) :=
      parseToken_plain keyword rfl _
    have second : parseToken (' ' :: (port ++ [';'])) =
        ((.normal, port), [';']) :=
      (parseToken_blank rfl _).trans (parseToken_plain plain rfl [])
    exact .cons ⟨first, rfl⟩ (.cons ⟨second, rfl⟩ (.cons ⟨rfl, rfl⟩ (.nil [])))
  apply parse_derived lexes rfl
  exact (derives_iff _ _).mpr ⟨rfl, nofun, trivial⟩

/-- The call returns, and with the port number exactly if it is one. -/
def ReturnsInRange (port : Text) (portNumber : Int16) (called : PortLookup) :
    Prop :=
  ∃ result after, called = .returned result after ∧
    (result = true ↔ IsNumber port ∧ digitsValue port ≤ 65535) ∧
    after = if result then Int16.ofNat (digitsValue port) else portNumber

theorem isPlainToken_unended {token : Text} (plain : isPlainToken token = true)
    {c : Char} (member : c ∈ token) : endsWord c = false := by
  cases token with
  | nil => cases member
  | cons first rest =>
      simp only [isPlainToken, Bool.and_eq_true, List.all_eq_true] at plain
      have plainChar := plain.2 c member
      simp only [isPlainChar, Bool.and_eq_true, Bool.not_eq_true'] at plainChar
      exact plainChar.1

theorem portOf_returnsInRange_iff (port : Text) (portNumber : Int16) :
    ReturnsInRange port portNumber (portOf port portNumber) ↔
      ¬ (IsNumber port ∧ 2147483647 < digitsValue port) := by
  by_cases number : IsNumber port
  · rw [portOf_number number]
    by_cases fits : digitsValue port ≤ 65535
    · rw [if_pos fits]
      have returned : ReturnsInRange port portNumber
          (.returned true (Int16.ofNat (digitsValue port))) :=
        ⟨true, _, rfl, by simp [number, fits], rfl⟩
      have smaller : ¬ (IsNumber port ∧ 2147483647 < digitsValue port) := by
        omega
      exact iff_of_true returned smaller
    rw [if_neg fits]
    by_cases fitsInt : digitsValue port ≤ 2147483647
    · rw [if_pos fitsInt]
      have returned : ReturnsInRange port portNumber
          (.returned false portNumber) :=
        ⟨false, _, rfl, by simp [fits], rfl⟩
      have smaller : ¬ (IsNumber port ∧ 2147483647 < digitsValue port) := by
        omega
      exact iff_of_true returned smaller
    · rw [if_neg fitsInt]
      have raised : ¬ ReturnsInRange port portNumber .raised := by
        rintro ⟨_, _, returned, _⟩
        cases returned
      exact iff_of_false raised (not_not_intro ⟨number, by omega⟩)
  · rw [portOf_notNumber number]
    have returned : ReturnsInRange port portNumber (.returned false portNumber) :=
      ⟨false, _, rfl, by simp [number], rfl⟩
    exact iff_of_true returned fun large => number large.1

/-- A port is answered exactly when it is no number beyond the range of `int`. -/
theorem getPortNumber_listen_iff {port : Text}
    (plain : isPlainToken port = true) (portNumber : Int16) :
    ∃ config, parse (listenText port) (.mk []) = .returned true config ∧
      (ReturnsInRange port portNumber (getPortNumber config .http portNumber) ↔
        ¬ (IsNumber port ∧ 2147483647 < digitsValue port)) := by
  refine ⟨_, parse_listen plain, ?_⟩
  have found : (NginxConfig.mk [.mk ["listen".toList, port] none]).firstMention
      PortType.http.keyword = some (.mk [PortType.http.keyword, port] none) :=
    List.find?_cons_of_pos (mentions_own PortType.http.keyword [port] none)
  rw [getPortNumber_eq, found, Option.bind_some,
    lookupTokens_own .http portNumber fun c => isPlainToken_unended plain,
    Option.getD_some]
  exact portOf_returnsInRange_iff port portNumber

theorem getPortNumber_listen_padded :
    ∃ config, parse (listenText "000080".toList) (.mk []) =
        .returned true config ∧
      (ReturnsInRange "000080".toList 0 (getPortNumber config .http 0) ↔
        ¬ (IsNumber "000080".toList ∧
          2147483647 < digitsValue "000080".toList)) :=
  getPortNumber_listen_iff (by decide) 0

/-- Eleven digits make `stoi` throw, before the range check. -/
theorem getPortNumber_listen_raised :
    ∃ config, parse (listenText "99999999999".toList) (.mk []) =
        .returned true config ∧
      getPortNumber config .http 0 = .raised ∧
      ¬ ReturnsInRange "99999999999".toList 0
        (getPortNumber config .http 0) := by
  refine ⟨_, rfl, rfl, ?_⟩
  intro ⟨result, after, returned, _⟩
  contradiction

/-! The number that a config gives for a port. -/

/-- The number right behind the first mention of the keyword. -/
def declaredNumber? (portType : PortType) (config : NginxConfig) : Option Nat :=
  (config.firstMention portType.keyword).bind fun statement =>
    (Text.behind portType.keyword (joinTokens statement.tokens)).bind fun rest =>
      if IsNumber (portText rest) then some (digitsValue (portText rest)) else none

theorem getPortNumber_declared (config : NginxConfig) (portType : PortType)
    (portNumber : Int16) :
    getPortNumber config portType portNumber =
      match declaredNumber? portType config with
      | none => .returned false portNumber
      | some number =>
          if number ≤ 65535 then .returned true (Int16.ofNat number)
          else if number ≤ 2147483647 then .returned false portNumber
          else .raised := by
  rw [getPortNumber_eq, declaredNumber?]
  cases config.firstMention portType.keyword with
  | none => rfl
  | some statement =>
      simp only [Option.bind_some, lookupTokens, lookup]
      cases Text.behind portType.keyword (joinTokens statement.tokens) with
      | none => rfl
      | some rest =>
          simp only [Option.map_some, Option.getD_some, Option.bind_some]
          by_cases number : IsNumber (portText rest)
          · rw [if_pos number, portOf_number number]
          · rw [if_neg number, portOf_notNumber number]

theorem getPortNumber_true_iff {config : NginxConfig} {portType : PortType}
    {portNumber found : Int16} :
    getPortNumber config portType portNumber = .returned true found ↔
      ∃ number, declaredNumber? portType config = some number ∧
        number ≤ 65535 ∧ found = Int16.ofNat number := by
  rw [getPortNumber_declared]
  cases declaredNumber? portType config with
  | none => simp
  | some number =>
      by_cases fits : number ≤ 65535
      · simp [fits, eq_comm]
      · by_cases fitsInt : number ≤ 2147483647
        · simp [fits, fitsInt]
        · simp [fits, fitsInt]

theorem getPortNumber_false_iff {config : NginxConfig} {portType : PortType}
    {portNumber found : Int16} :
    getPortNumber config portType portNumber = .returned false found ↔
      found = portNumber ∧
        ∀ number, declaredNumber? portType config = some number →
          65535 < number ∧ number ≤ 2147483647 := by
  rw [getPortNumber_declared]
  cases declaredNumber? portType config with
  | none => simp [eq_comm]
  | some number =>
      by_cases fits : number ≤ 65535
      · simp [fits, Nat.not_lt_of_le fits]
      · by_cases fitsInt : number ≤ 2147483647
        · simp [fits, fitsInt, Nat.lt_of_not_le fits, eq_comm]
        · simp [fits, fitsInt]

end HttpsServer.Config
