import MattSql.LexerProofs

/-! # The parser

    `parser/parser.cpp`: recursive descent for statements, precedence climbing
    for expressions.

    The parser's position in its token vector is the pair of the tokens already
    consumed, last first, and the tokens from `current_` on.  `Peek` and
    `Previous` outside the vector are `undefined`.  The recursion over
    expressions carries fuel; `parseFuel` is enough for every token vector. -/

namespace MattSql

inductive UnaryOperator where
  | plus
  | minus
  | not
  deriving DecidableEq, Repr

inductive BinaryOperator where
  | add
  | subtract
  | multiply
  | divide
  | equal
  | notEqual
  | less
  | lessEqual
  | greater
  | greaterEqual
  | and
  | or
  deriving DecidableEq, Repr

/-- The expression nodes of `parser/ast.hpp`. -/
inductive Expression where
  | integerLiteral (value : Int64)
  | stringLiteral (value : Bytes)
  | booleanLiteral (value : Bool)
  | nullLiteral
  | columnRef (name : Bytes)
  | unary (op : UnaryOperator) (operand : Expression)
  | binary (left : Expression) (op : BinaryOperator) (right : Expression)
  | star
  deriving DecidableEq

structure SelectProjection where
  expression : Expression
  aliasName : Bytes := []
  deriving DecidableEq

inductive TypeName where
  | int
  | text
  | bool
  deriving DecidableEq

structure ColumnDefinition where
  name : Bytes
  type : TypeName
  deriving DecidableEq

/-- The statement nodes; an empty `tableName` of a SELECT means that FROM was
    left out. -/
inductive Statement where
  | select (projections : List SelectProjection) (tableName : Bytes)
      (predicate : Option Expression)
  | insert (tableName : Bytes) (values : List Expression)
  | createTable (tableName : Bytes) (columns : List ColumnDefinition)
  deriving DecidableEq

structure ParserState where
  consumed : List Token := []
  rest : List Token
  deriving DecidableEq

abbrev ParserM := StateT ParserState (Except Thrown)

def throwParseError {α : Type} (message : Bytes) (location : SourceLocation) : ParserM α :=
  fun _ => .error (.parseError message location)

/-- `Parser::Peek`. -/
def peek : ParserM Token := fun state =>
  match state.rest with
  | token :: _ => .ok (token, state)
  | [] => .error (.undefined (ascii "Peek"))

/-- `Parser::Previous`. -/
def previous : ParserM Token := fun state =>
  match state.consumed with
  | token :: _ => .ok (token, state)
  | [] => .error (.undefined (ascii "Previous"))

/-- `Parser::Advance`: the end-of-file token is never consumed. -/
def advance : ParserM Token := do
  let token ← peek
  if token.type ≠ .endOfFile then
    modify fun state => ⟨token :: state.consumed, state.rest.drop 1⟩
  previous

/-- `Parser::Check`. -/
def check (type : TokenType) : ParserM Bool := do
  return (← peek).type = type

/-- `Parser::Match`. -/
def matchToken (type : TokenType) : ParserM Bool := do
  if ← check type then
    let _ ← advance
    return true
  else
    return false

/-- `Parser::Consume`. -/
def consume (type : TokenType) (message : Bytes) : ParserM Token := do
  if ← check type then
    advance
  else
    throwParseError message (← peek).range.start

/-- `Parser::GetBinaryPrecedence`; `-1` for tokens that are no operator. -/
def getBinaryPrecedence : TokenType → Int
  | .or => 1
  | .and => 2
  | .equal | .notEqual | .less | .lessEqual | .greater | .greaterEqual => 4
  | .plus | .minus => 5
  | .star | .slash => 6
  | _ => -1

def kNotPrecedence : Int := 3

/-- `Parser::TokenToBinaryOperator`. -/
def tokenToBinaryOperator : TokenType → ParserM BinaryOperator
  | .plus => return .add
  | .minus => return .subtract
  | .star => return .multiply
  | .slash => return .divide
  | .equal => return .equal
  | .notEqual => return .notEqual
  | .less => return .less
  | .lessEqual => return .lessEqual
  | .greater => return .greater
  | .greaterEqual => return .greaterEqual
  | .and => return .and
  | .or => return .or
  | _ => fun _ => .error (.exception (ascii "token is not a binary operator"))

/-- `Parser::TokenToUnaryOperator`. -/
def tokenToUnaryOperator : TokenType → ParserM UnaryOperator
  | .plus => return .plus
  | .minus => return .minus
  | .not => return .not
  | _ => fun _ => .error (.exception (ascii "token is not a unary operator"))

/-- The number a run of decimal digits stands for. -/
def digitsValue (digits : Bytes) : Nat :=
  digits.foldl (fun value c => 10 * value + (c.toNat - 48)) 0

/-- `std::stoll` in base 10: blanks, a sign and the longest run of digits are
    read, the rest is ignored.  `none` is an exception: no digit, or a value
    outside the 64-bit range. -/
def stoll (text : Bytes) : Option Int64 :=
  let text := text.dropWhile isSpace
  let negative : Bool := text.head? = some 45
  let digits := (if text.head? = some 45 ∨ text.head? = some 43 then text.drop 1 else text)
    |>.takeWhile isDigit
  let value : Int := if negative then -digitsValue digits else digitsValue digits
  if digits = [] ∨ value < -2 ^ 63 ∨ 2 ^ 63 ≤ value then none
  else some (Int64.ofInt value)

/-- The loop of `unescape_sql_string` over what stands between the quotes. -/
def unescapeQuotes : Bytes → Bytes
  | [] => []
  | [c] => [c]
  | c :: d :: cs =>
    if c = 39 ∧ d = 39 then 39 :: unescapeQuotes cs else c :: unescapeQuotes (d :: cs)

/-- `unescape_sql_string`; `none` is its exception. -/
def unescapeSqlString (lexeme : Bytes) : Option Bytes :=
  if lexeme.length < 2 ∨ lexeme.head? ≠ some 39 ∨ lexeme.getLast? ≠ some 39 then none
  else some (unescapeQuotes ((lexeme.drop 1).dropLast))

def outOfFuel {α : Type} : ParserM α :=
  fun _ => .error (.undefined (ascii "parser does not end"))

/-- The loop over the dots of a column name. -/
def parseDottedName : Nat → Bytes → ParserM Bytes
  | 0, _ => outOfFuel
  | fuel + 1, name => do
    if ← matchToken .dot then
      let part ← consume .identifier (ascii "expected identifier after '.'")
      parseDottedName fuel (name ++ ascii "." ++ part.lexeme)
    else
      return name

/-- `min_precedence <= kNotPrecedence && Match(TokenType::Not)`. -/
def matchNot (minPrecedence : Int) : ParserM Bool :=
  if minPrecedence ≤ kNotPrecedence then matchToken .not else pure false

/-- `Match(TokenType::Plus) || Match(TokenType::Minus)`. -/
def matchSign : ParserM Bool := do
  if ← matchToken .plus then return true else matchToken .minus

mutual

/-- `Parser::ParseExpression`. -/
def parseExpression : Nat → Int → ParserM Expression
  | 0, _ => outOfFuel
  | fuel + 1, minPrecedence => do
    -- a NOT that may stand here takes its operand and returns at once
    if ← matchNot minPrecedence then
      let operand ← parseExpression fuel kNotPrecedence
      return .unary .not operand
    else
      let left ← parsePrefixExpression fuel
      parseBinaryLoop fuel minPrecedence left

/-- The loop of `Parser::ParseExpression`. -/
def parseBinaryLoop : Nat → Int → Expression → ParserM Expression
  | 0, _, _ => outOfFuel
  | fuel + 1, minPrecedence, left => do
    let precedence := getBinaryPrecedence (← peek).type
    if precedence < minPrecedence then
      return left
    else
      let operatorToken ← advance
      let right ← parseExpression fuel (precedence + 1)
      let op ← tokenToBinaryOperator operatorToken.type
      parseBinaryLoop fuel minPrecedence (.binary left op right)

/-- `Parser::ParsePrefixExpression`. -/
def parsePrefixExpression : Nat → ParserM Expression
  | 0 => outOfFuel
  | fuel + 1 => do
    if ← matchSign then
      let operatorType := (← previous).type
      let next ← peek
      if operatorType = .minus ∧ next.type = .integer
          ∧ next.lexeme = ascii "9223372036854775808" then
        let _ ← advance
        return .integerLiteral Int64.minValue
      else
        let operand ← parsePrefixExpression fuel
        let op ← tokenToUnaryOperator operatorType
        return .unary op operand
    else
      parsePrimaryExpression fuel

/-- `Parser::ParsePrimaryExpression`. -/
def parsePrimaryExpression : Nat → ParserM Expression
  | 0 => outOfFuel
  | fuel + 1 => do
    if ← matchToken .integer then
      let token ← previous
      match stoll token.lexeme with
      | some value => return .integerLiteral value
      | none => throwParseError (ascii "integer literal is out of range") token.range.start
    else if ← matchToken .string then
      let token ← previous
      match unescapeSqlString token.lexeme with
      | some value => return .stringLiteral value
      | none => throwParseError (ascii "malformed string literal") token.range.start
    else if ← matchToken .true then return .booleanLiteral true
    else if ← matchToken .false then return .booleanLiteral false
    else if ← matchToken .null then return .nullLiteral
    else if ← matchToken .star then return .star
    else if ← matchToken .identifier then
      let name := (← previous).lexeme
      return .columnRef (← parseDottedName fuel name)
    else if ← matchToken .leftParen then
      let expression ← parseExpression fuel 0
      let _ ← consume .rightParen (ascii "expected ')' after expression")
      return expression
    else if ← matchToken .invalid then
      let token ← previous
      throwParseError (ascii "invalid token: " ++ token.lexeme) token.range.start
    else
      throwParseError (ascii "expected expression") (← peek).range.start

end

/-- The rest of `Parser::ParseExpressionList` after its first expression. -/
def parseExpressionListLoop : Nat → List Expression → ParserM (List Expression)
  | 0, _ => outOfFuel
  | fuel + 1, expressions => do
    if ← matchToken .comma then
      let expression ← parseExpression fuel 0
      parseExpressionListLoop fuel (expressions ++ [expression])
    else
      return expressions

/-- `Parser::ParseExpressionList`. -/
def parseExpressionList (fuel : Nat) : ParserM (List Expression) := do
  let expression ← parseExpression fuel 0
  parseExpressionListLoop fuel [expression]

/-- An optional clause of one keyword and one name. -/
def parseOptionalName (keyword : TokenType) (message : Bytes) : ParserM Bytes := do
  if ← matchToken keyword then
    return (← consume .identifier message).lexeme
  else
    return []

/-- `Parser::ParseSelectProjectionList`. -/
def parseSelectProjectionList : Nat → List SelectProjection → ParserM (List SelectProjection)
  | 0, _ => outOfFuel
  | fuel + 1, projections => do
    let expression ← parseExpression fuel 0
    let aliasName ← parseOptionalName .as (ascii "expected alias after AS")
    let projections := projections ++ [⟨expression, aliasName⟩]
    if ← matchToken .comma then
      parseSelectProjectionList fuel projections
    else
      return projections

/-- The optional WHERE clause. -/
def parseOptionalPredicate (fuel : Nat) : ParserM (Option Expression) := do
  if ← matchToken .where then
    return some (← parseExpression fuel 0)
  else
    return none

/-- `Parser::ParseSelectStatement`. -/
def parseSelectStatement (fuel : Nat) : ParserM Statement := do
  let projections ← parseSelectProjectionList fuel []
  let tableName ← parseOptionalName .from (ascii "expected table name after FROM")
  let predicate ← parseOptionalPredicate fuel
  return .select projections tableName predicate

/-- `Parser::ParseInsertStatement`. -/
def parseInsertStatement (fuel : Nat) : ParserM Statement := do
  let _ ← consume .into (ascii "expected INTO after INSERT")
  let tableName ← consume .identifier (ascii "expected table name after INTO")
  let _ ← consume .values (ascii "expected VALUES after INSERT table name")
  let _ ← consume .leftParen (ascii "expected '(' before VALUES list")
  let values ← parseExpressionList fuel
  let _ ← consume .rightParen (ascii "expected ')' after VALUES list")
  return .insert tableName.lexeme values

/-- `Parser::ParseTypeName`. -/
def parseTypeName : ParserM TypeName := do
  let token ← consume .identifier (ascii "expected column type")
  let typeName := foldIdentifierKey token.lexeme
  if typeName = ascii "int" ∨ typeName = ascii "integer" then return .int
  else if typeName = ascii "text" then return .text
  else if typeName = ascii "bool" ∨ typeName = ascii "boolean" then return .bool
  else throwParseError (ascii "unknown column type: " ++ token.lexeme) token.range.start

/-- The loop over the column definitions. -/
def parseColumnDefinitions : Nat → List ColumnDefinition → ParserM (List ColumnDefinition)
  | 0, _ => outOfFuel
  | fuel + 1, columns => do
    let name ← consume .identifier (ascii "expected column name")
    let type ← parseTypeName
    let columns := columns ++ [⟨name.lexeme, type⟩]
    if ← matchToken .comma then
      parseColumnDefinitions fuel columns
    else
      return columns

/-- `Parser::ParseCreateTableStatement`. -/
def parseCreateTableStatement (fuel : Nat) : ParserM Statement := do
  let _ ← consume .table (ascii "expected TABLE after CREATE")
  let tableName ← consume .identifier (ascii "expected table name after CREATE TABLE")
  let _ ← consume .leftParen (ascii "expected '(' before column definitions")
  let columns ← parseColumnDefinitions fuel []
  let _ ← consume .rightParen (ascii "expected ')' after column definitions")
  return .createTable tableName.lexeme columns

/-- The statement keyword and what it starts. -/
def parseStatementBody (fuel : Nat) : ParserM Statement := do
  if ← matchToken .select then
    parseSelectStatement fuel
  else if ← matchToken .insert then
    parseInsertStatement fuel
  else if ← matchToken .create then
    parseCreateTableStatement fuel
  else if ← matchToken .invalid then
    let token ← previous
    throwParseError (ascii "invalid token: " ++ token.lexeme) token.range.start
  else
    throwParseError (ascii "expected SQL statement") (← peek).range.start

/-- What may follow a statement: one semicolon and the end. -/
def parseStatementEnd : ParserM Unit := do
  let _ ← matchToken .semicolon
  let token ← peek
  if token.type ≠ .endOfFile then
    throwParseError (ascii "expected end of statement") token.range.start
  else
    return ()

/-- `Parser::ParseStatement`. -/
def parseStatement (fuel : Nat) : ParserM Statement := do
  let statement ← parseStatementBody fuel
  parseStatementEnd
  return statement

/-- `Parser::Parser`: a missing end-of-file token is appended. -/
def parserTokens (tokens : List Token) : List Token :=
  match tokens.getLast? with
  | none => [⟨.endOfFile, [], {}⟩]
  | some last =>
    if last.type ≠ .endOfFile then
      tokens ++ [⟨.endOfFile, [], ⟨last.range.stop, last.range.stop⟩⟩]
    else tokens

/-- Enough fuel for a token vector of the given length: between two tokens the
    recursion goes at most four calls deep. -/
def parseFuel (tokens : List Token) : Nat := 4 * tokens.length + 4

/-- A parser built from the tokens, and its `ParseStatement`. -/
def parseTokens (tokens : List Token) : Except Thrown Statement :=
  let tokens := parserTokens tokens
  (·.1) <$> parseStatement (parseFuel tokens) { rest := tokens }

/-- `parse_sql`: both kinds of exception become a `ParseError` status. -/
def parseSql (sql : Bytes) : Result Statement :=
  match tokenize sql >>= parseTokens with
  | .ok statement => .ok statement
  | .error (.parseError message _) => errorResult .parseError message
  | .error (.exception what) => errorResult .parseError what
  | .error (.undefined operation) => errorResult .undefined operation

/-! ## Runs of the parser -/

/-- A sequenced parser succeeds exactly when both parts do. -/
theorem parser_bind_ok_iff {α β : Type} {m : ParserM α} {f : α → ParserM β}
    {s s' : ParserState} {b : β} :
    (m >>= f) s = .ok (b, s') ↔ ∃ a t, m s = .ok (a, t) ∧ f a t = .ok (b, s') := by
  show (m s >>= fun r => f r.1 r.2) = _ ↔ _
  cases hm : m s with
  | error e =>
      constructor
      · exact nofun
      · rintro ⟨a, t, h, -⟩
        exact nomatch h
  | ok r =>
      obtain ⟨a, t⟩ := r
      constructor
      · intro h
        exact ⟨a, t, rfl, h⟩
      · rintro ⟨a', t', heq, h⟩
        cases heq
        exact h

/-- A projection list that parses is not empty. -/
theorem parseSelectProjectionList_ne_nil {fuel : Nat} {given projections : List SelectProjection}
    {s s' : ParserState}
    (h : parseSelectProjectionList fuel given s = .ok (projections, s')) : projections ≠ [] := by
  induction fuel generalizing given s with
  | zero => exact nomatch h
  | succ fuel ih =>
      obtain ⟨expression, s₁, -, h⟩ := parser_bind_ok_iff.mp h
      obtain ⟨aliasName, s₂, -, h⟩ := parser_bind_ok_iff.mp h
      obtain ⟨more, s₃, -, h⟩ := parser_bind_ok_iff.mp h
      cases more with
      | true => exact ih h
      | false =>
          cases h
          exact List.append_ne_nil_of_right_ne_nil _ (List.cons_ne_nil _ _)

theorem parseInsertStatement_kind {fuel : Nat} {statement : Statement} {s s' : ParserState}
    (h : parseInsertStatement fuel s = .ok (statement, s')) :
    ∃ tableName values, statement = .insert tableName values := by
  obtain ⟨_, s₁, -, h⟩ := parser_bind_ok_iff.mp h
  obtain ⟨name, s₂, -, h⟩ := parser_bind_ok_iff.mp h
  obtain ⟨_, s₃, -, h⟩ := parser_bind_ok_iff.mp h
  obtain ⟨_, s₄, -, h⟩ := parser_bind_ok_iff.mp h
  obtain ⟨values, s₅, -, h⟩ := parser_bind_ok_iff.mp h
  obtain ⟨_, s₆, -, h⟩ := parser_bind_ok_iff.mp h
  cases h
  exact ⟨_, _, rfl⟩

theorem parseCreateTableStatement_kind {fuel : Nat} {statement : Statement}
    {s s' : ParserState} (h : parseCreateTableStatement fuel s = .ok (statement, s')) :
    ∃ tableName columns, statement = .createTable tableName columns := by
  obtain ⟨_, s₁, -, h⟩ := parser_bind_ok_iff.mp h
  obtain ⟨name, s₂, -, h⟩ := parser_bind_ok_iff.mp h
  obtain ⟨_, s₃, -, h⟩ := parser_bind_ok_iff.mp h
  obtain ⟨columns, s₄, -, h⟩ := parser_bind_ok_iff.mp h
  obtain ⟨_, s₅, -, h⟩ := parser_bind_ok_iff.mp h
  cases h
  exact ⟨_, _, rfl⟩

/-- A SELECT comes from the branch that parses SELECT. -/
theorem parseStatementBody_select_ne_nil {fuel : Nat} {projections : List SelectProjection}
    {tableName : Bytes} {predicate : Option Expression} {s s' : ParserState}
    (h : parseStatementBody fuel s = .ok (.select projections tableName predicate, s')) :
    projections ≠ [] := by
  obtain ⟨isSelect, s₁, -, h⟩ := parser_bind_ok_iff.mp h
  cases isSelect with
  | true =>
      obtain ⟨ps, s₂, hps, h⟩ := parser_bind_ok_iff.mp h
      obtain ⟨name, s₃, -, h⟩ := parser_bind_ok_iff.mp h
      obtain ⟨p, s₄, -, h⟩ := parser_bind_ok_iff.mp h
      cases h
      exact parseSelectProjectionList_ne_nil hps
  | false =>
      obtain ⟨isInsert, s₂, -, h⟩ := parser_bind_ok_iff.mp h
      cases isInsert with
      | true =>
          obtain ⟨_, _, heq⟩ := parseInsertStatement_kind h
          exact nomatch heq
      | false =>
          obtain ⟨isCreate, s₃, -, h⟩ := parser_bind_ok_iff.mp h
          cases isCreate with
          | true =>
              obtain ⟨_, _, heq⟩ := parseCreateTableStatement_kind h
              exact nomatch heq
          | false =>
              obtain ⟨isInvalid, s₄, -, h⟩ := parser_bind_ok_iff.mp h
              cases isInvalid with
              | true =>
                  obtain ⟨token, s₅, -, h⟩ := parser_bind_ok_iff.mp h
                  exact nomatch h
              | false =>
                  obtain ⟨token, s₅, -, h⟩ := parser_bind_ok_iff.mp h
                  exact nomatch h

theorem parseSql_ok_iff {sql : Bytes} {statement : Statement} :
    parseSql sql = .ok statement
      ↔ ∃ tokens, tokenize sql = .ok tokens ∧ parseTokens tokens = .ok statement := by
  rw [parseSql]
  cases htok : tokenize sql with
  | error e =>
      constructor
      · intro h
        cases e <;> exact nomatch h
      · rintro ⟨tokens, h, -⟩
        exact nomatch h
  | ok tokens =>
      rw [show (Except.ok tokens >>= parseTokens) = parseTokens tokens from rfl]
      constructor
      · intro h
        refine ⟨tokens, rfl, ?_⟩
        split at h
        · rename_i statement' heq
          cases h
          exact heq
        all_goals exact nomatch h
      · rintro ⟨tokens', heq, h⟩
        cases heq
        rw [h]

theorem parseSql_parseError {sql : Bytes} {tokens : List Token} {message : Bytes}
    {location : SourceLocation} (htokens : tokenize sql = .ok tokens)
    (hparse : parseTokens tokens = .error (.parseError message location)) :
    parseSql sql = .error ⟨.parseError, message⟩ := by
  have hboth : (tokenize sql >>= parseTokens) = .error (.parseError message location) := by
    rw [htokens]
    exact hparse
  rw [parseSql]
  rw [hboth]
  rfl

theorem parseTokens_ok_iff {tokens : List Token} {statement : Statement} :
    parseTokens tokens = .ok statement
      ↔ ∃ s, parseStatement (parseFuel (parserTokens tokens)) { rest := parserTokens tokens }
          = .ok (statement, s) := by
  unfold parseTokens
  dsimp only
  cases hst : parseStatement (parseFuel (parserTokens tokens))
      { rest := parserTokens tokens } with
  | error e => exact ⟨nofun, fun ⟨_, h⟩ => nomatch h⟩
  | ok r =>
      obtain ⟨statement', s⟩ := r
      constructor
      · intro h
        cases h
        exact ⟨s, rfl⟩
      · rintro ⟨s', h⟩
        cases h
        rfl

/-- A SELECT that parses has a projection. -/
theorem parseSql_select_ne_nil {sql : Bytes} {projections : List SelectProjection}
    {tableName : Bytes} {predicate : Option Expression}
    (h : parseSql sql = .ok (.select projections tableName predicate)) : projections ≠ [] := by
  obtain ⟨tokens, -, h⟩ := parseSql_ok_iff.mp h
  obtain ⟨s, h⟩ := parseTokens_ok_iff.mp h
  obtain ⟨body, s₁, hbody, h⟩ := parser_bind_ok_iff.mp h
  obtain ⟨_, s₂, -, h⟩ := parser_bind_ok_iff.mp h
  cases h
  exact parseStatementBody_select_ne_nil hbody

end MattSql
