import HttpsServer.Data.Text

namespace HttpsServer.Config

open HttpsServer.Data

mutual
/-- The parsed representation of the entire config. -/
inductive NginxConfig where
  | mk (statements : List NginxConfigStatement)

/-- The parsed representation of a single config statement; `none` is the
null `child_block_` of a statement ended by a semicolon. -/
inductive NginxConfigStatement where
  | mk (tokens : List Text) (childBlock : Option NginxConfig)
end

def NginxConfig.statements : NginxConfig → List NginxConfigStatement
  | .mk statements => statements

def NginxConfigStatement.tokens : NginxConfigStatement → List Text
  | .mk tokens _ => tokens

def NginxConfigStatement.childBlock : NginxConfigStatement → Option NginxConfig
  | .mk _ childBlock => childBlock

@[simp] theorem NginxConfig.statements_mk
    (statements : List NginxConfigStatement) :
    (NginxConfig.mk statements).statements = statements := rfl

@[simp] theorem NginxConfigStatement.tokens_mk
    (tokens : List Text) (childBlock : Option NginxConfig) :
    (NginxConfigStatement.mk tokens childBlock).tokens = tokens := rfl

@[simp] theorem NginxConfigStatement.childBlock_mk
    (tokens : List Text) (childBlock : Option NginxConfig) :
    (NginxConfigStatement.mk tokens childBlock).childBlock = childBlock := rfl

/-! Printing. -/

def indentation : Nat → Text
  | 0 => []
  | depth + 1 => ' ' :: ' ' :: indentation depth

/-- The tokens, each but the first after a blank. -/
def joinTokens : List Text → Text
  | [] => []
  | first :: rest => first ++ rest.flatMap fun token => ' ' :: token

mutual
def NginxConfig.toString (depth : Nat) : NginxConfig → Text
  | .mk statements => statementsToString depth statements

def statementsToString (depth : Nat) : List NginxConfigStatement → Text
  | [] => []
  | statement :: rest =>
      statement.toString depth ++ statementsToString depth rest

def NginxConfigStatement.toString (depth : Nat) :
    NginxConfigStatement → Text
  | .mk tokens (some childBlock) =>
      indentation depth ++ joinTokens tokens ++ " \x7b\n".toList ++
        childBlock.toString (depth + 1) ++ indentation depth ++
        "\x7d".toList ++ "\n".toList
  | .mk tokens none =>
      indentation depth ++ joinTokens tokens ++ ";".toList ++ "\n".toList
end

/-! A property of the token list of every statement, at every depth. -/

mutual
def NginxConfig.Every (property : List Text → Prop) : NginxConfig → Prop
  | .mk statements => EveryStatement property statements

def EveryStatement (property : List Text → Prop) :
    List NginxConfigStatement → Prop
  | [] => True
  | statement :: rest =>
      statement.Every property ∧ EveryStatement property rest

def NginxConfigStatement.Every (property : List Text → Prop) :
    NginxConfigStatement → Prop
  | .mk tokens none => property tokens
  | .mk tokens (some childBlock) =>
      property tokens ∧ childBlock.Every property
end

abbrev NginxConfig.Tokenized (config : NginxConfig) : Prop :=
  config.Every (· ≠ [])

theorem everyStatement_iff (property : List Text → Prop)
    (statements : List NginxConfigStatement) :
    EveryStatement property statements ↔
      ∀ statement ∈ statements, statement.Every property := by
  induction statements with
  | nil => simp [EveryStatement]
  | cons statement rest induction =>
      simp [EveryStatement, induction]

theorem everyStatement_append (property : List Text → Prop)
    (left right : List NginxConfigStatement) :
    EveryStatement property (left ++ right) ↔
      EveryStatement property left ∧ EveryStatement property right := by
  simp only [everyStatement_iff, List.mem_append]
  constructor
  · intro every
    exact ⟨fun statement member => every statement (.inl member),
      fun statement member => every statement (.inr member)⟩
  · rintro ⟨every, everyRight⟩ statement (member | member)
    · exact every statement member
    · exact everyRight statement member

theorem NginxConfigStatement.Every.tokens {property : List Text → Prop}
    {statement : NginxConfigStatement} (every : statement.Every property) :
    property statement.tokens := by
  match statement with
  | .mk tokens none => exact every
  | .mk tokens (some childBlock) => exact every.1

theorem NginxConfigStatement.Every.childBlock {property : List Text → Prop}
    {statement : NginxConfigStatement} (every : statement.Every property)
    {block : NginxConfig} (present : statement.childBlock = some block) :
    block.Every property := by
  match statement with
  | .mk tokens none => cases present
  | .mk tokens (some childBlock) =>
      cases present
      exact every.2

mutual
theorem NginxConfig.Every.imp {weaker stronger : List Text → Prop}
    (implies : ∀ tokens, stronger tokens → weaker tokens) :
    {config : NginxConfig} → config.Every stronger → config.Every weaker
  | .mk _, every => EveryStatement.imp implies every

theorem EveryStatement.imp {weaker stronger : List Text → Prop}
    (implies : ∀ tokens, stronger tokens → weaker tokens) :
    {statements : List NginxConfigStatement} →
    EveryStatement stronger statements → EveryStatement weaker statements
  | [], _ => trivial
  | _ :: _, every =>
      ⟨NginxConfigStatement.Every.imp implies every.1,
        EveryStatement.imp implies every.2⟩

theorem NginxConfigStatement.Every.imp {weaker stronger : List Text → Prop}
    (implies : ∀ tokens, stronger tokens → weaker tokens) :
    {statement : NginxConfigStatement} → statement.Every stronger →
    statement.Every weaker
  | .mk tokens none, every => implies tokens every
  | .mk tokens (some _), every =>
      ⟨implies tokens every.1, NginxConfig.Every.imp implies every.2⟩
end

/-! Pointers into a config under construction. -/

/-- A `NginxConfig*` into a tree, as the statement indices that lead from the
root to the config it points to. Statements are only ever appended and are held
by pointer, so a config keeps its position while the tree grows. -/
abbrev ConfigPtr := List Nat

def NginxConfig.deref : NginxConfig → ConfigPtr → Option (List NginxConfigStatement)
  | .mk statements, [] => some statements
  | .mk statements, index :: rest =>
      match statements[index]? with
      | some (.mk _ (some childBlock)) => childBlock.deref rest
      | _ => none

/-- Writes through a pointer; `none` when nothing is there to be written. -/
def NginxConfig.write
    (change : List NginxConfigStatement → Option (List NginxConfigStatement)) :
    NginxConfig → ConfigPtr → Option NginxConfig
  | .mk statements, [] => (change statements).map .mk
  | .mk statements, index :: rest =>
      match statements[index]? with
      | some (.mk tokens (some childBlock)) =>
          (childBlock.write change rest).map fun written =>
            .mk (statements.set index (.mk tokens (some written)))
      | _ => none

/-- `statements_.emplace_back(new NginxConfigStatement)`. -/
def emplaceStatement (statements : List NginxConfigStatement) :
    Option (List NginxConfigStatement) :=
  some (statements ++ [.mk [] none])

/-- `statements_.back()` changed in place; `none` on an empty vector. -/
def changeBack (change : NginxConfigStatement → NginxConfigStatement)
    (statements : List NginxConfigStatement) :
    Option (List NginxConfigStatement) :=
  match statements.getLast? with
  | none => none
  | some back => some (statements.dropLast ++ [change back])

/-- `tokens_.push_back(token)`. -/
def NginxConfigStatement.pushToken (token : Text) :
    NginxConfigStatement → NginxConfigStatement
  | .mk tokens childBlock => .mk (tokens ++ [token]) childBlock

/-- `child_block_.reset(new NginxConfig)`. -/
def NginxConfigStatement.resetChildBlock :
    NginxConfigStatement → NginxConfigStatement
  | .mk tokens _ => .mk tokens (some (.mk []))

@[simp] theorem changeBack_append (change : NginxConfigStatement → NginxConfigStatement)
    (before : List NginxConfigStatement) (back : NginxConfigStatement) :
    changeBack change (before ++ [back]) = some (before ++ [change back]) := by
  simp [changeBack]

theorem NginxConfig.write_append
    (change : List NginxConfigStatement → Option (List NginxConfigStatement))
    (config : NginxConfig) (outer inner : ConfigPtr) :
    config.write change (outer ++ inner) =
      config.write (fun statements =>
        ((NginxConfig.mk statements).write change inner).map
          NginxConfig.statements) outer := by
  induction outer generalizing config with
  | nil =>
      cases config with
      | mk statements =>
          simp only [List.nil_append, NginxConfig.write, Option.map_map]
          cases written : (NginxConfig.mk statements).write change inner with
          | none => rfl
          | some result => cases result; rfl
  | cons index outer induction =>
      cases config with
      | mk statements =>
          simp only [List.cons_append, NginxConfig.write]
          split
          next tokens childBlock found => rw [induction]
          next => rfl

end HttpsServer.Config
