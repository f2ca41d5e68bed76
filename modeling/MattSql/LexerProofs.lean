import Mathlib.Data.List.Basic
import MattSql.ValueProofs

/-! # The lexer

    `lexer/lexer.cpp`: trivia is skipped, a token start is marked, and one
    token is scanned from the first character on.

    A position in the input is the suffix that starts there together with its
    source location, so `input_.substr(start_, current_ - start_)` is what
    stands in front of the current suffix in the start suffix.  Character
    classes are those of the C locale. -/

namespace MattSql

inductive TokenType where
  | endOfFile
  | invalid
  | select
  | from
  | where
  | insert
  | into
  | values
  | create
  | table
  | drop
  | null
  | and
  | or
  | not
  | as
  | order
  | by
  | limit
  | true
  | false
  | identifier
  | integer
  | string
  | plus
  | minus
  | star
  | slash
  | equal
  | notEqual
  | less
  | lessEqual
  | greater
  | greaterEqual
  | leftParen
  | rightParen
  | comma
  | dot
  | semicolon
  deriving DecidableEq, Repr

/-- Lines and columns are 1-based, the offset is 0-based. -/
structure SourceLocation where
  line : Nat := 1
  column : Nat := 1
  offset : Nat := 0
  deriving DecidableEq, Repr

structure SourceRange where
  start : SourceLocation := {}
  stop : SourceLocation := {}
  deriving DecidableEq, Repr

structure Token where
  type : TokenType
  lexeme : Bytes
  range : SourceRange
  deriving DecidableEq, Repr

/-- What the frontend can throw: `ParseError`, or any other `std::exception`.
    `undefined` stands for an access outside a container or a loop that does
    not end; the source has no such outcome. -/
inductive Thrown where
  | parseError (message : Bytes) (location : SourceLocation)
  | exception (what : Bytes)
  | undefined (operation : Bytes)
  deriving DecidableEq, Repr

def kKeywords : List (Bytes × TokenType) :=
  [(ascii "select", .select), (ascii "from", .from),
    (ascii "where", .where), (ascii "insert", .insert),
    (ascii "into", .into), (ascii "values", .values),
    (ascii "create", .create), (ascii "table", .table),
    (ascii "drop", .drop), (ascii "null", .null),
    (ascii "and", .and), (ascii "or", .or),
    (ascii "not", .not), (ascii "as", .as),
    (ascii "order", .order), (ascii "by", .by),
    (ascii "limit", .limit), (ascii "true", .true),
    (ascii "false", .false)]

/-- `std::isspace`. -/
def isSpace (c : UInt8) : Bool := c = 32 ∨ (9 ≤ c ∧ c ≤ 13)

/-- `Lexer::IsAlpha`. -/
def isAlpha (c : UInt8) : Bool :=
  (65 ≤ c ∧ c ≤ 90) ∨ (97 ≤ c ∧ c ≤ 122) ∨ c = 95

/-- `Lexer::IsDigit`. -/
def isDigit (c : UInt8) : Bool := 48 ≤ c ∧ c ≤ 57

/-- `Lexer::IsAlphaNumeric`. -/
def isAlphaNumeric (c : UInt8) : Bool := isAlpha c || isDigit c

/-- `Lexer::LookupKeyword`. -/
def lookupKeyword (text : Bytes) : TokenType :=
  match kKeywords.find? fun entry => entry.1 = foldIdentifierKey text with
  | some entry => entry.2
  | none => .identifier

/-- The location after one more character. -/
def SourceLocation.after (location : SourceLocation) (c : UInt8) : SourceLocation :=
  if c = 10 then ⟨location.line + 1, 1, location.offset + 1⟩
  else ⟨location.line, location.column + 1, location.offset + 1⟩

/-- The lexer: the suffixes at the cursor and at the token start, with their
    locations. -/
structure Lexer where
  rest : Bytes
  location : SourceLocation := {}
  startRest : Bytes := []
  startLocation : SourceLocation := {}
  deriving DecidableEq

/-- `Lexer::Peek`; the end of the input reads as a zero byte. -/
def Lexer.peek (lexer : Lexer) : UInt8 := lexer.rest.headD 0

/-- `Lexer::PeekNext`. -/
def Lexer.peekNext (lexer : Lexer) : UInt8 := (lexer.rest.drop 1).headD 0

/-- `count` calls of `Lexer::Advance`. -/
def Lexer.advance (lexer : Lexer) (count : Nat) : Lexer :=
  { lexer with
    rest := lexer.rest.drop count
    location := (lexer.rest.take count).foldl SourceLocation.after lexer.location }

/-- `while (!IsAtEnd() && keep(Peek())) Advance();`; the loops without the end
    check have a test that the zero byte fails. -/
def Lexer.advanceWhile (lexer : Lexer) (keep : UInt8 → Bool) : Lexer :=
  lexer.advance (lexer.rest.takeWhile keep).length

/-- `Lexer::MarkTokenStart`. -/
def Lexer.markTokenStart (lexer : Lexer) : Lexer :=
  { lexer with startRest := lexer.rest, startLocation := lexer.location }

/-- How many characters a block comment runs on from its body to past its end;
    `none` when it does not end. -/
def blockCommentLength : Bytes → Option Nat
  | [] => none
  | [_] => none
  | c :: d :: cs =>
    if c = 42 ∧ d = 47 then some 2
    else (blockCommentLength (d :: cs)).map (· + 1)

/-- `Lexer::SkipTrivia`.  Each round of the loop consumes something, so as many
    rounds as there are characters are enough. -/
def Lexer.skipTrivia : Nat → Lexer → Except Thrown Lexer
  | 0, lexer =>
    if lexer.rest = [] then .ok lexer
    else .error (.undefined (ascii "SkipTrivia does not end"))
  | rounds + 1, lexer =>
    if lexer.rest = [] then .ok lexer
    else if isSpace lexer.peek then skipTrivia rounds (lexer.advance 1)
    else if lexer.peek = 45 ∧ lexer.peekNext = 45 then
      skipTrivia rounds ((lexer.advance 2).advanceWhile fun c => c ≠ 10 ∧ c ≠ 13)
    else if lexer.peek = 47 ∧ lexer.peekNext = 42 then
      match blockCommentLength (lexer.advance 2).rest with
      | none => .error (.exception (ascii "unterminated block comment"))
      | some length => skipTrivia rounds ((lexer.advance 2).advance length)
    else .ok lexer

/-- `Lexer::MakeToken` with the source slice as lexeme. -/
def Lexer.makeToken (lexer : Lexer) (type : TokenType) : Token :=
  { type := type
    lexeme := lexer.startRest.take (lexer.startRest.length - lexer.rest.length)
    range := ⟨lexer.startLocation, lexer.location⟩ }

/-- `Lexer::ScanIdentifierOrKeyword`. -/
def Lexer.scanIdentifierOrKeyword (lexer : Lexer) : Token × Lexer :=
  let lexer := lexer.advanceWhile isAlphaNumeric
  let text := lexer.startRest.take (lexer.startRest.length - lexer.rest.length)
  (lexer.makeToken (lookupKeyword text), lexer)

/-- `Lexer::ScanNumber`. -/
def Lexer.scanNumber (lexer : Lexer) : Token × Lexer :=
  let lexer := lexer.advanceWhile isDigit
  (lexer.makeToken .integer, lexer)

/-- How many characters a string runs on after its opening quote, and whether
    it ends with a quote that is not doubled. -/
def stringLength : Bytes → Nat × Bool
  | [] => (0, false)
  | [c] => (1, c = 39)
  | c :: d :: cs =>
    if c = 39 then
      if d = 39 then ((stringLength cs).1 + 2, (stringLength cs).2) else (1, true)
    else ((stringLength (d :: cs)).1 + 1, (stringLength (d :: cs)).2)

/-- `Lexer::ScanString`. -/
def Lexer.scanString (lexer : Lexer) : Token × Lexer :=
  let lexer := lexer.advance 1
  let (length, terminated) := stringLength lexer.rest
  let lexer := lexer.advance length
  (lexer.makeToken (if terminated then .string else .invalid), lexer)

/-- `Lexer::ScanOperatorOrPunctuation`. -/
def Lexer.scanOperatorOrPunctuation (lexer : Lexer) : Token × Lexer :=
  let character := lexer.peek
  let lexer := lexer.advance 1
  let make (type : TokenType) := (lexer.makeToken type, lexer)
  let makeTwo (type : TokenType) := ((lexer.advance 1).makeToken type, lexer.advance 1)
  -- `Match(expected)`
  let next (expected : UInt8) : Bool := lexer.rest.head? = some expected
  if character = 43 then make .plus
  else if character = 45 then make .minus
  else if character = 42 then make .star
  else if character = 47 then make .slash
  else if character = 61 then make .equal
  else if character = 33 then
    if next 61 then makeTwo .notEqual else make .invalid
  else if character = 60 then
    if next 61 then makeTwo .lessEqual
    else if next 62 then makeTwo .notEqual
    else make .less
  else if character = 62 then
    if next 61 then makeTwo .greaterEqual else make .greater
  else if character = 40 then make .leftParen
  else if character = 41 then make .rightParen
  else if character = 44 then make .comma
  else if character = 46 then make .dot
  else if character = 59 then make .semicolon
  else make .invalid

/-- `Lexer::ScanToken`. -/
def Lexer.scanToken (lexer : Lexer) : Token × Lexer :=
  if lexer.rest = [] then
    (⟨.endOfFile, [], ⟨lexer.startLocation, lexer.location⟩⟩, lexer)
  else if isAlpha lexer.peek then lexer.scanIdentifierOrKeyword
  else if isDigit lexer.peek then lexer.scanNumber
  else if lexer.peek = 39 then lexer.scanString
  else lexer.scanOperatorOrPunctuation

/-- The loop of `Lexer::Tokenize`; each token but the last consumes something. -/
def Lexer.tokenizeLoop : Nat → Lexer → Except Thrown (List Token)
  | 0, _ => .error (.undefined (ascii "Tokenize does not end"))
  | rounds + 1, lexer =>
    match lexer.skipTrivia lexer.rest.length with
    | .error thrown => .error thrown
    | .ok lexer =>
      let (token, lexer) := lexer.markTokenStart.scanToken
      if token.type = .endOfFile then .ok [token]
      else (token :: ·) <$> tokenizeLoop rounds lexer

/-- `Lexer::Tokenize`. -/
def tokenize (input : Bytes) : Except Thrown (List Token) :=
  Lexer.tokenizeLoop (input.length + 1) { rest := input }

end MattSql
