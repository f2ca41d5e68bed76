import MattSql.LeftNotProofs

/-! # Printed statements

    Statements printed with every operator application in parentheses, and read
    back by the lexer and the parser.

    In this print an expression is always one prefix expression, so no level has
    to be followed; what is left are the clauses, the lists with their commas and
    the tokens behind them that end an expression. -/

namespace MattSql

/-! ## The print -/

/-- The tokens of an expression, with every operator application in
    parentheses.  The smallest integer is a minus and its digits. -/
def Expression.printParens : Expression → List TokenKind
  | .integerLiteral value =>
    if value = Int64.minValue then
      [(.minus, ascii "-"), (.integer, ascii "9223372036854775808")]
    else [(.integer, decimalDigits value.toInt.toNat)]
  | .unary op operand => leftParenKind :: (op.kind :: operand.printParens) ++ [rightParenKind]
  | .binary left op right =>
    leftParenKind :: (left.printParens ++ op.kind :: right.printParens) ++ [rightParenKind]
  | e => e.print

def commaKind : TokenKind := (.comma, ascii ",")

def semicolonKind : TokenKind := (.semicolon, ascii ";")

/-- The given token runs with commas between them. -/
def separated : List (List TokenKind) → List TokenKind
  | [] => []
  | [item] => item
  | item :: next :: items => item ++ commaKind :: separated (next :: items)

/-- A keyword and a name, left out where the name is empty. -/
def optionalName (keyword : TokenKind) (name : Bytes) : List TokenKind :=
  if name = [] then [] else [keyword, (.identifier, name)]

def SelectProjection.print (projection : SelectProjection) : List TokenKind :=
  projection.expression.printParens ++ optionalName (.as, ascii "AS") projection.aliasName

def TypeName.kind : TypeName → TokenKind
  | .int => (.identifier, ascii "INT")
  | .text => (.identifier, ascii "TEXT")
  | .bool => (.identifier, ascii "BOOL")

def ColumnDefinition.print (column : ColumnDefinition) : List TokenKind :=
  [(.identifier, column.name), column.type.kind]

/-- The tokens of a WHERE clause, if there is one. -/
def optionalPredicate : Option Expression → List TokenKind
  | none => []
  | some predicate => (.where, ascii "WHERE") :: predicate.printParens

/-- The tokens of a statement. -/
def Statement.print : Statement → List TokenKind
  | .select projections tableName predicate =>
    (.select, ascii "SELECT") :: separated (projections.map SelectProjection.print)
      ++ (optionalName (.from, ascii "FROM") tableName ++ optionalPredicate predicate)
  | .insert tableName values =>
    [(.insert, ascii "INSERT"), (.into, ascii "INTO"), (.identifier, tableName),
        (.values, ascii "VALUES"), leftParenKind]
      ++ separated (values.map Expression.printParens) ++ [rightParenKind]
  | .createTable tableName columns =>
    [(.create, ascii "CREATE"), (.table, ascii "TABLE"), (.identifier, tableName), leftParenKind]
      ++ separated (columns.map ColumnDefinition.print) ++ [rightParenKind]

/-- The text of a statement, with a semicolon behind it or without. -/
def Statement.text (statement : Statement) (semicolon : Bool) : Bytes :=
  renderKinds (statement.print ++ if semicolon then [semicolonKind] else [])

example : Statement.text (.select [⟨.unary .minus (.integerLiteral (-9223372036854775808)),
      ascii "m"⟩, ⟨.star, []⟩] (ascii "t") (some (.unary .not (.columnRef (ascii "t.a"))))) true
    = ascii "SELECT ( - - 9223372036854775808 ) AS m , * FROM t WHERE ( NOT t . a ) ;" := by
  decide +kernel

/-! ## The image of the parser -/

/-- Integers from 0 on and the smallest one, names of identifiers that are no
    keywords, and every other node. -/
def Expression.InImage : Expression → Prop
  | .integerLiteral value => 0 ≤ value ∨ value = Int64.minValue
  | .columnRef name => ∀ part ∈ name.splitOn 46, IsIdentifier part
  | .unary _ operand => operand.InImage
  | .binary left _ right => left.InImage ∧ right.InImage
  | _ => True

/-- A name that may be left out. -/
def IsOptionalName (name : Bytes) : Prop := name = [] ∨ IsIdentifier name

/-- Lists are not empty, names are identifiers. -/
def Statement.InImage : Statement → Prop
  | .select projections tableName predicate =>
    projections ≠ []
      ∧ (∀ projection ∈ projections,
        projection.expression.InImage ∧ IsOptionalName projection.aliasName)
      ∧ IsOptionalName tableName ∧ ∀ e, predicate = some e → e.InImage
  | .insert tableName values =>
    IsIdentifier tableName ∧ values ≠ [] ∧ ∀ value ∈ values, value.InImage
  | .createTable tableName columns =>
    IsIdentifier tableName ∧ columns ≠ [] ∧ ∀ column ∈ columns, IsIdentifier column.name

/-! ## Reading expressions back -/

theorem readsPrefix_star : ReadsPrefix .star Expression.star.print := by
  refine readsPrefix_token ⟨by decide, by decide⟩ fun fuel token consumed rest hkind => ?_
  obtain ⟨type, lexeme, range⟩ := token
  obtain rfl : type = .star := congrArg Prod.fst hkind
  rfl

/-- The minus and the digits of the smallest integer are one literal. -/
theorem readsPrefix_minValue :
    ReadsPrefix (.integerLiteral Int64.minValue)
      [(.minus, ascii "-"), (.integer, ascii "9223372036854775808")] := by
  intro fuel tokens consumed rest hkinds _ hfuel
  obtain ⟨sign, tail, rfl, hsign, htail⟩ := List.map_eq_cons_iff.mp hkinds
  obtain ⟨digits, none, rfl, hdigits, hnone⟩ := List.map_eq_cons_iff.mp htail
  obtain rfl : none = [] := List.map_eq_nil_iff.mp hnone
  obtain ⟨fuel, rfl⟩ : ∃ n, fuel = n + 1 := ⟨fuel - 1, by omega⟩
  obtain ⟨signType, signLexeme, signRange⟩ := sign
  obtain ⟨digitsType, digitsLexeme, digitsRange⟩ := digits
  obtain ⟨rfl, rfl⟩ := Prod.mk.inj hsign
  obtain ⟨rfl, rfl⟩ := Prod.mk.inj hdigits
  rfl

/-- What makes a printed operand safe behind a NOT or a sign. -/
structure ReadsOperand (e : Expression) (kinds : List TokenKind) : Prop where
  signed : ReadsPrefix e kinds
  head : ∃ kind tail, kinds = kind :: tail ∧ kind.1 ≠ .not
    ∧ ¬(kind.1 = .integer ∧ kind.2 = ascii "9223372036854775808")

theorem ReadsOperand.left {e : Expression} {kinds : List TokenKind} (h : ReadsOperand e kinds)
    (level : Nat) : ReadsLeft level e kinds := by
  obtain ⟨hsigned, kind, tail, rfl, hnot, -⟩ := h
  exact hsigned.left hnot level

theorem ReadsOperand.whole {e : Expression} {kinds : List TokenKind} (h : ReadsOperand e kinds)
    (level : Nat) : ReadsWhole level e kinds :=
  (h.left level).whole (Nat.le_refl level)

/-- The first token tells. -/
theorem readsOperand_of_type {e : Expression} {type : TokenType} {lexeme : Bytes}
    {tail : List TokenKind} (h : ReadsPrefix e ((type, lexeme) :: tail)) (hnot : type ≠ .not)
    (hinteger : type ≠ .integer) : ReadsOperand e ((type, lexeme) :: tail) :=
  ⟨h, _, _, rfl, hnot, fun hkind => hinteger hkind.1⟩

theorem readsOperand_parens {e : Expression} {kinds : List TokenKind} (h : ReadsWhole 0 e kinds) :
    ReadsOperand e (leftParenKind :: kinds ++ [rightParenKind]) :=
  ⟨h.parens, leftParenKind, _, rfl, by decide, by decide⟩

/-- **PRINTED EXPRESSIONS ARE READ BACK** as prefix expressions, by induction on
    the expression. -/
theorem Expression.readsOperand {e : Expression} (h : e.InImage) :
    ReadsOperand e e.printParens := by
  induction e with
  | integerLiteral value =>
      -- the smallest integer is printed as the two tokens of the special case
      by_cases hmin : value = Int64.minValue
      · subst hmin
        exact readsOperand_of_type readsPrefix_minValue (by decide) (by decide)
      · rw [printParens, if_neg hmin]
        have hle : 0 ≤ value := h.resolve_right hmin
        have hlt : value.toInt.toNat < 2 ^ 63 := by
          have := Int64.toInt_lt value
          omega
        have hnot : TokenType.integer ≠ .not := by decide
        exact ⟨readsPrefix_integer hle, _, _, rfl, hnot, (PrintedKind.integer hlt).ne_minValue⟩
  | stringLiteral value =>
      exact readsOperand_of_type (readsPrefix_string value) (by decide) (by decide)
  | booleanLiteral value =>
      cases value with
      | true => exact readsOperand_of_type (readsPrefix_boolean true) (by decide) (by decide)
      | false => exact readsOperand_of_type (readsPrefix_boolean false) (by decide) (by decide)
  | nullLiteral => exact readsOperand_of_type readsPrefix_null (by decide) (by decide)
  | columnRef name =>
      obtain ⟨part, parts, hparts⟩ := List.exists_cons_of_ne_nil (List.splitOn_ne_nil 46 name)
      have hprint : (Expression.columnRef name).print = (.identifier, part) ::
          parts.flatMap fun part => [(.dot, ascii "."), (.identifier, part)] := by
        rw [print, hparts]
        rfl
      have hreads := readsPrefix_columnRef name
      rw [hprint] at hreads
      show ReadsOperand _ (Expression.columnRef name).print
      rw [hprint]
      exact readsOperand_of_type hreads (by decide) (by decide)
  | star => exact readsOperand_of_type readsPrefix_star (by decide) (by decide)
  | unary op operand ih =>
      have hoperand := ih h
      refine readsOperand_parens ?_
      by_cases hop : op = .not
      · subst hop
        exact (hoperand.whole 3).not (Nat.zero_le 3)
      · obtain ⟨hsigned, kind, tail, hkinds, hnot, hmin⟩ := hoperand
        rw [hkinds] at hsigned ⊢
        have hopKind : op.kind.1 ≠ .not := by
          cases op with
          | plus => decide
          | minus => decide
          | not => exact absurd rfl hop
        exact ((hsigned.sign hop hmin).left hopKind 0).whole (Nat.le_refl 0)
  | binary left op right ihLeft ihRight =>
      have hbinary := ((ihLeft h.1).left op.level).binary (Nat.le_refl _)
        ((ihRight h.2).whole (op.level + 1))
      exact readsOperand_parens (hbinary.whole (Nat.zero_le _))

/-! ## Reading clauses back -/

/-- A token of one of these types follows. -/
def Follows (types : List TokenType) (rest : List Token) : Prop :=
  ∃ token more, rest = token :: more ∧ token.type ∈ types

/-- The tokens are read as the value when one of the given types follows, with
    so much fuel more than four times the tokens. -/
def ReadsAs {α : Type} (slack : Nat) (parser : Nat → ParserM α) (value : α)
    (kinds : List TokenKind) (types : List TokenType) : Prop :=
  ∀ (fuel : Nat) (tokens consumed rest : List Token), tokens.map Token.kind = kinds →
    Follows types rest → 4 * kinds.length + slack ≤ fuel →
    parser fuel ⟨consumed, tokens ++ rest⟩ = .ok (value, ⟨tokens.reverse ++ consumed, rest⟩)

/-- The types a run of tokens can start with, or what follows it if it is
    empty. -/
def startTypes (kinds : List TokenKind) (types : List TokenType) : List TokenType :=
  match kinds with
  | [] => types
  | kind :: _ => [kind.1]

section Clauses

variable {α β : Type} {slack n : Nat} {types next : List TokenType} {kinds more : List TokenKind}

theorem follows_startTypes {tokens rest : List Token} (hkinds : tokens.map Token.kind = kinds)
    (hrest : Follows types rest) : Follows (startTypes kinds types) (tokens ++ rest) := by
  subst hkinds
  cases tokens with
  | nil => exact hrest
  | cons token tokens => exact ⟨token, tokens ++ rest, rfl, List.mem_singleton.mpr rfl⟩

theorem startTypes_cons_subset {kind : TokenKind} (h : kind.1 ∈ next) :
    startTypes (kind :: kinds) types ⊆ next := by
  intro type htype
  rw [List.mem_singleton.mp htype]
  exact h

theorem ReadsAs.pure (value : α) : ReadsAs slack (fun _ => Pure.pure value) value [] types := by
  intro fuel tokens consumed rest hkinds _ _
  obtain rfl : tokens = [] := List.map_eq_nil_iff.mp hkinds
  rfl

/-- Two parsers one after the other.  The tokens of the first one are fuel for
    the second. -/
theorem ReadsAs.bind {p : Nat → ParserM α} {q : α → Nat → ParserM β} {a : α} {b : β}
    (hp : ReadsAs slack p a kinds next) (hnext : startTypes more types ⊆ next)
    (hq : ReadsAs n (q a) b more types) (hle : n ≤ slack + 4 * kinds.length) :
    ReadsAs slack (fun fuel => p fuel >>= fun a => q a fuel) b (kinds ++ more) types := by
  intro fuel tokens consumed rest hkinds hrest hfuel
  obtain ⟨front, back, rfl, hfront, hback⟩ := List.map_eq_append_iff.mp hkinds
  rw [List.length_append] at hfuel
  obtain ⟨token, tail, heq, htype⟩ := follows_startTypes hback hrest
  have hfirst := hp fuel front consumed (back ++ rest) hfront ⟨token, tail, heq, hnext htype⟩
    (by omega)
  have hsecond := hq fuel back (front.reverse ++ consumed) rest hback hrest (by omega)
  show (p fuel >>= fun a => q a fuel) ⟨consumed, front ++ back ++ rest⟩ = _
  rw [List.append_assoc, parser_bind_eq hfirst, hsecond, List.reverse_append, List.append_assoc]

/-- A value that is wrapped at the end. -/
theorem ReadsAs.map {p : Nat → ParserM α} {a : α} (hp : ReadsAs slack p a kinds types) (f : α → β) :
    ReadsAs slack (fun fuel => p fuel >>= fun a => Pure.pure (f a)) (f a) kinds types := by
  intro fuel tokens consumed rest hkinds hrest hfuel
  exact parser_bind_eq (hp fuel tokens consumed rest hkinds hrest hfuel) _

/-- A token that has to be there. -/
theorem ReadsAs.consume {q : Token → Nat → ParserM β} {b : β} {type : TokenType}
    {lexeme message : Bytes} (hne : type ≠ .endOfFile)
    (hq : ∀ token : Token, token.lexeme = lexeme → ReadsAs n (q token) b more types)
    (hle : n ≤ slack + 4) :
    ReadsAs slack (fun fuel => MattSql.consume type message >>= fun token => q token fuel) b
      ((type, lexeme) :: more) types := by
  intro fuel tokens consumed rest hkinds hrest hfuel
  obtain ⟨token, back, rfl, htoken, hback⟩ := List.map_eq_cons_iff.mp hkinds
  rw [List.length_cons] at hfuel
  have hsecond := hq token (congrArg Prod.snd htoken) fuel back (token :: consumed) rest hback hrest
    (by omega)
  show (MattSql.consume type message >>= fun token => q token fuel)
    ⟨consumed, token :: back ++ rest⟩ = _
  rw [List.cons_append, parser_bind_eq (consume_hit (congrArg Prod.fst htoken) hne), hsecond]
  simp

/-- A token that is there. -/
theorem ReadsAs.matchHit {q : Bool → Nat → ParserM β} {b : β} {type : TokenType} {lexeme : Bytes}
    (hne : type ≠ .endOfFile) (hq : ReadsAs n (q true) b more types)
    (hle : n ≤ slack + 4) :
    ReadsAs slack (fun fuel => matchToken type >>= fun hit => q hit fuel) b
      ((type, lexeme) :: more) types := by
  intro fuel tokens consumed rest hkinds hrest hfuel
  obtain ⟨token, back, rfl, htoken, hback⟩ := List.map_eq_cons_iff.mp hkinds
  rw [List.length_cons] at hfuel
  have hsecond := hq fuel back (token :: consumed) rest hback hrest (by omega)
  show (matchToken type >>= fun hit => q hit fuel) ⟨consumed, token :: back ++ rest⟩ = _
  rw [List.cons_append, parser_bind_eq (matchToken_hit (congrArg Prod.fst htoken) hne), hsecond]
  simp

/-- A token that is not there. -/
theorem ReadsAs.matchMiss {q : Bool → Nat → ParserM β} {b : β} {type : TokenType}
    (hmiss : type ∉ startTypes kinds types) (hq : ReadsAs slack (q false) b kinds types) :
    ReadsAs slack (fun fuel => matchToken type >>= fun hit => q hit fuel) b kinds types := by
  intro fuel tokens consumed rest hkinds hrest hfuel
  have hsecond := hq fuel tokens consumed rest hkinds hrest hfuel
  obtain ⟨token, tail, heq, htype⟩ := follows_startTypes hkinds hrest
  have hne : token.type ≠ type := by
    intro h
    exact hmiss (h ▸ htype)
  show (matchToken type >>= fun hit => q hit fuel) ⟨consumed, tokens ++ rest⟩ = _
  rw [heq] at hsecond ⊢
  rw [parser_bind_eq (matchToken_miss hne), hsecond]

/-- One unit of fuel more for a recursive parser. -/
theorem ReadsAs.succ {p : Nat → ParserM α} {a : α}
    (h : ReadsAs slack (fun fuel => p (fuel + 1)) a kinds types) :
    ReadsAs (slack + 1) p a kinds types := by
  intro fuel tokens consumed rest hkinds hrest hfuel
  obtain ⟨fuel, rfl⟩ : ∃ n, fuel = n + 1 := ⟨fuel - 1, by omega⟩
  exact h fuel tokens consumed rest hkinds hrest (by omega)

theorem ReadsAs.follow {p : Nat → ParserM α} {a : α} (h : ReadsAs slack p a kinds types)
    (hsubset : next ⊆ types) : ReadsAs slack p a kinds next := by
  intro fuel tokens consumed rest hkinds hrest hfuel
  obtain ⟨token, more, heq, htype⟩ := hrest
  exact h fuel tokens consumed rest hkinds ⟨token, more, heq, hsubset htype⟩ hfuel

theorem ReadsAs.weaken {p : Nat → ParserM α} {a : α}
    (h : ReadsAs slack p a kinds types) (hle : slack ≤ n) : ReadsAs n p a kinds types :=
  fun fuel tokens consumed rest hkinds hrest hfuel =>
    h fuel tokens consumed rest hkinds hrest (by omega)

end Clauses

/-- The tokens that can follow an expression. -/
def expressionEnds : List TokenType :=
  [.as, .comma, .from, .where, .rightParen, .semicolon, .endOfFile]

theorem reads_expression {e : Expression} (h : e.InImage) :
    ReadsAs 4 (fun fuel => parseExpression fuel 0) e e.printParens expressionEnds := by
  intro fuel tokens consumed rest hkinds hrest hfuel
  obtain ⟨token, more, rfl, htype⟩ := hrest
  have hends : ∀ type ∈ expressionEnds, type ≠ .dot ∧ getBinaryPrecedence type < 0 := by decide
  obtain ⟨hdot, hprec⟩ := hends token.type htype
  exact (Expression.readsOperand h).whole 0 fuel tokens consumed (token :: more) hkinds
    ⟨token, more, rfl, hdot⟩ hprec hfuel

theorem reads_optionalName {keyword : TokenType} {lexeme message name : Bytes}
    {types : List TokenType} {slack : Nat} (hkeyword : keyword ≠ .endOfFile)
    (hmiss : keyword ∉ types) :
    ReadsAs slack (fun _ => parseOptionalName keyword message) name
      (optionalName (keyword, lexeme) name) types := by
  by_cases hname : name = []
  · rw [optionalName, if_pos hname, hname]
    exact .matchMiss hmiss (.pure [])
  · rw [optionalName, if_neg hname]
    refine .matchHit hkeyword (n := slack) ?_ (by omega)
    refine ReadsAs.consume (q := fun token _ => pure token.lexeme) (n := slack) (by decide)
      (fun token htoken => ?_) (by omega)
    rw [htoken]
    exact .pure name

theorem reads_optionalPredicate {predicate : Option Expression}
    (h : ∀ e, predicate = some e → e.InImage) :
    ReadsAs 4 parseOptionalPredicate predicate (optionalPredicate predicate)
      [.semicolon, .endOfFile] := by
  cases predicate with
  | none => exact .matchMiss (by decide) (.pure none)
  | some e =>
      have hends : [TokenType.semicolon, .endOfFile] ⊆ expressionEnds := by decide
      exact .matchHit (by decide) (((reads_expression (h e rfl)).follow hends).map some) (by decide)

/-! ## Lists -/

/-- A loop that reads one item and goes on behind a comma. -/
theorem reads_list {α : Type} {f : Nat → List α → ParserM (List α)} {item : Nat → ParserM α}
    {print : α → List TokenKind} {types : List TokenType}
    (hf : ∀ fuel given, f (fuel + 1) given = item fuel >>= fun a => matchToken .comma >>= fun more =>
      if more then f fuel (given ++ [a]) else pure (given ++ [a]))
    (hcomma : .comma ∉ types) {items : List α} (hne : items ≠ [])
    (hitem : ∀ a ∈ items, ReadsAs 4 item a (print a) (.comma :: types)) (given : List α) :
    ReadsAs 5 (fun fuel => f fuel given) (given ++ items) (separated (items.map print)) types := by
  induction items generalizing given with
  | nil => exact absurd rfl hne
  | cons a items ih =>
      have hfirst := hitem a List.mem_cons_self
      refine .succ ?_
      simp only [hf]
      -- a comma follows every item but the last
      cases items with
      | nil =>
          have hlast : ReadsAs 4 (fun fuel => matchToken .comma >>= fun more =>
              if more then f fuel (given ++ [a]) else pure (given ++ [a])) (given ++ [a]) [] types :=
            .matchMiss (q := fun more fuel => if more then f fuel (given ++ [a])
              else pure (given ++ [a])) hcomma (.pure _)
          have hreads := ReadsAs.bind (q := fun a fuel => matchToken .comma >>= fun more =>
            if more then f fuel (given ++ [a]) else pure (given ++ [a])) hfirst
            (List.subset_cons_self _ _) hlast (by omega)
          rwa [List.append_nil] at hreads
      | cons next items =>
          have hrest := ih (List.cons_ne_nil _ _)
            (fun b hb => hitem b (List.mem_cons_of_mem _ hb)) (given ++ [a])
          rw [List.append_assoc] at hrest
          have hmore : ReadsAs 4 (fun fuel => matchToken .comma >>= fun more =>
              if more then f fuel (given ++ [a]) else pure (given ++ [a])) (given ++ a :: next :: items)
              (commaKind :: separated ((next :: items).map print)) types :=
            .matchHit (q := fun more fuel => if more then f fuel (given ++ [a])
              else pure (given ++ [a])) (by decide) hrest (by decide)
          exact ReadsAs.bind (q := fun a fuel => matchToken .comma >>= fun more =>
            if more then f fuel (given ++ [a]) else pure (given ++ [a])) hfirst
            (startTypes_cons_subset List.mem_cons_self) hmore (by omega)

theorem reads_projectionList {projections : List SelectProjection} (hne : projections ≠ [])
    (h : ∀ projection ∈ projections,
      projection.expression.InImage ∧ IsOptionalName projection.aliasName) :
    ReadsAs 5 (fun fuel => parseSelectProjectionList fuel []) projections
      (separated (projections.map SelectProjection.print))
      [.from, .where, .semicolon, .endOfFile] := by
  have hf : ∀ fuel given, parseSelectProjectionList (fuel + 1) given
      = (parseExpression fuel 0 >>= fun expression =>
          parseOptionalName .as (ascii "expected alias after AS") >>= fun aliasName =>
            pure ⟨expression, aliasName⟩) >>= fun projection => matchToken .comma >>= fun more =>
          if more then parseSelectProjectionList fuel (given ++ [projection])
          else pure (given ++ [projection]) := by
    intro fuel given
    simp only [bind_assoc, pure_bind]
    rfl
  refine reads_list hf (by decide) hne (fun projection hmem => ?_) []
  have hname : ReadsAs 4 (fun _ => parseOptionalName .as (ascii "expected alias after AS") >>= fun aliasName =>
        pure (⟨projection.expression, aliasName⟩ : SelectProjection)) projection
      (optionalName (.as, ascii "AS") projection.aliasName)
      [.comma, .from, .where, .semicolon, .endOfFile] :=
    (reads_optionalName (by decide) (by decide)).map _
  refine (reads_expression (h projection hmem).1).bind ?_ hname (by omega)
  rw [optionalName]
  split
  · decide
  · exact startTypes_cons_subset (by decide)

/-- The values of an INSERT; behind each comma stands another one. -/
theorem reads_expressionListLoop {values : List Expression} (h : ∀ value ∈ values, value.InImage)
    (given : List Expression) :
    ReadsAs 5 (fun fuel => parseExpressionListLoop fuel given) (given ++ values)
      (values.flatMap fun value => commaKind :: value.printParens) [.rightParen] := by
  induction values generalizing given with
  | nil =>
      rw [List.append_nil]
      exact .succ (.matchMiss (by decide) (.pure given))
  | cons value values ih =>
      have hrest := ih (fun value hmem => h value (List.mem_cons_of_mem _ hmem)) (given ++ [value])
      rw [List.append_assoc] at hrest
      refine .succ (.matchHit (by decide) (n := 5) ?_ (by decide))
      refine ReadsAs.bind (q := fun value fuel => parseExpressionListLoop fuel (given ++ [value]))
        ((reads_expression (h value List.mem_cons_self)).weaken (by decide)) ?_ hrest (by omega)
      cases values with
      | nil => decide
      | cons next values => exact startTypes_cons_subset (by decide)

/-- Commas between items are commas in front of all items but the first. -/
theorem separated_cons (item : List TokenKind) (items : List (List TokenKind)) :
    separated (item :: items) = item ++ items.flatMap (commaKind :: ·) := by
  induction items generalizing item with
  | nil => rw [separated, List.flatMap_nil, List.append_nil]
  | cons next items ih =>
      rw [separated, ih next]
      rfl

theorem reads_expressionList {values : List Expression} (hne : values ≠ [])
    (h : ∀ value ∈ values, value.InImage) :
    ReadsAs 5 parseExpressionList values (separated (values.map Expression.printParens))
      [.rightParen] := by
  obtain ⟨value, values, rfl⟩ := List.exists_cons_of_ne_nil hne
  rw [List.map_cons, separated_cons, List.flatMap_map]
  refine ReadsAs.bind (q := fun value fuel => parseExpressionListLoop fuel [value])
    ((reads_expression (h value List.mem_cons_self)).weaken (by decide)) ?_
    (reads_expressionListLoop (fun value hmem => h value (List.mem_cons_of_mem _ hmem)) [value])
    (by omega)
  cases values with
  | nil => decide
  | cons next values => exact startTypes_cons_subset (by decide)

theorem reads_typeName (type : TypeName) {slack : Nat} {types : List TokenType} :
    ReadsAs slack (fun _ => parseTypeName) type [type.kind] types := by
  intro fuel tokens consumed rest hkinds _ _
  obtain ⟨token, none, rfl, htoken, hnone⟩ := List.map_eq_cons_iff.mp hkinds
  obtain rfl : none = [] := List.map_eq_nil_iff.mp hnone
  obtain ⟨tokenType, lexeme, range⟩ := token
  cases type with
  | int =>
      obtain ⟨rfl, rfl⟩ := Prod.mk.inj htoken
      rfl
  | text =>
      obtain ⟨rfl, rfl⟩ := Prod.mk.inj htoken
      rfl
  | bool =>
      obtain ⟨rfl, rfl⟩ := Prod.mk.inj htoken
      rfl

theorem reads_columnDefinitions {columns : List ColumnDefinition} (hne : columns ≠ []) :
    ReadsAs 5 (fun fuel => parseColumnDefinitions fuel []) columns
      (separated (columns.map ColumnDefinition.print)) [.rightParen] := by
  have hf : ∀ fuel given, parseColumnDefinitions (fuel + 1) given
      = (consume .identifier (ascii "expected column name") >>= fun name =>
          parseTypeName >>= fun type => pure ⟨name.lexeme, type⟩) >>= fun column =>
          matchToken .comma >>= fun more =>
            if more then parseColumnDefinitions fuel (given ++ [column])
            else pure (given ++ [column]) := by
    intro fuel given
    simp only [bind_assoc, pure_bind]
    rfl
  refine reads_list hf (by decide) hne (fun column _ => ?_) []
  refine ReadsAs.consume (q := fun name _ => parseTypeName >>= fun type =>
    pure (⟨name.lexeme, type⟩ : ColumnDefinition)) (n := 4) (by decide)
    (fun token htoken => ?_) (by decide)
  rw [htoken]
  exact (reads_typeName column.type).map fun type => (⟨column.name, type⟩ : ColumnDefinition)

/-! ## Statements -/

theorem reads_selectStatement {projections : List SelectProjection} {tableName : Bytes}
    {predicate : Option Expression} (h : (Statement.select projections tableName predicate).InImage) :
    ReadsAs 5 parseSelectStatement (.select projections tableName predicate)
      (separated (projections.map SelectProjection.print)
        ++ (optionalName (.from, ascii "FROM") tableName ++ optionalPredicate predicate))
      [.semicolon, .endOfFile] := by
  obtain ⟨hne, hprojections, -, hpredicate⟩ := h
  -- what can stand behind each clause: the later ones, or the end
  have hwhere : startTypes (optionalPredicate predicate) [.semicolon, .endOfFile]
      ⊆ [.where, .semicolon, .endOfFile] := by
    cases predicate with
    | none => decide
    | some e => exact startTypes_cons_subset (by decide)
  have hfrom : startTypes (optionalName (.from, ascii "FROM") tableName ++ optionalPredicate predicate)
      [.semicolon, .endOfFile] ⊆ [.from, .where, .semicolon, .endOfFile] := by
    rw [optionalName]
    split
    · exact fun type htype => List.mem_cons_of_mem _ (hwhere htype)
    · exact startTypes_cons_subset (by decide)
  have hlast := (reads_optionalPredicate hpredicate).map
    fun predicate => Statement.select projections tableName predicate
  have hname : ReadsAs 4 (fun _ => parseOptionalName .from (ascii "expected table name after FROM"))
      tableName (optionalName (.from, ascii "FROM") tableName)
      [.where, .semicolon, .endOfFile] := reads_optionalName (by decide) (by decide)
  have hmiddle := ReadsAs.bind (q := fun tableName fuel => parseOptionalPredicate fuel >>= fun predicate =>
    pure (Statement.select projections tableName predicate)) hname hwhere hlast (by omega)
  exact ReadsAs.bind (q := fun projections fuel => parseOptionalName .from
      (ascii "expected table name after FROM") >>= fun tableName =>
        parseOptionalPredicate fuel >>= fun predicate =>
          pure (Statement.select projections tableName predicate))
    (reads_projectionList hne hprojections) hfrom hmiddle (by omega)

theorem reads_insertStatement {tableName : Bytes} {values : List Expression}
    (h : (Statement.insert tableName values).InImage) :
    ReadsAs 5 parseInsertStatement (.insert tableName values)
      ([(.into, ascii "INTO"), (.identifier, tableName), (.values, ascii "VALUES"), leftParenKind]
        ++ separated (values.map Expression.printParens) ++ [rightParenKind])
      [.semicolon, .endOfFile] := by
  obtain ⟨-, hne, hvalues⟩ := h
  refine ReadsAs.consume (n := 5) (by decide) (fun _ _ => ?_) (by decide)
  refine ReadsAs.consume (n := 5) (by decide) (fun name hname => ?_) (by decide)
  refine ReadsAs.consume (n := 5) (by decide) (fun _ _ => ?_) (by decide)
  refine ReadsAs.consume (n := 5) (by decide) (fun _ _ => ?_) (by decide)
  have hclose : ReadsAs 5 (fun _ => consume .rightParen (ascii "expected ')' after VALUES list")
      >>= fun _ => pure (Statement.insert name.lexeme values)) (.insert tableName values)
      [rightParenKind] [.semicolon, .endOfFile] := by
    refine ReadsAs.consume (n := 5) (by decide) (fun _ _ => ?_) (by decide)
    rw [hname]
    exact .pure _
  exact ReadsAs.bind (q := fun values _ => consume .rightParen
      (ascii "expected ')' after VALUES list") >>= fun _ =>
        pure (Statement.insert name.lexeme values))
    (reads_expressionList hne hvalues) (startTypes_cons_subset (by decide)) hclose (by omega)

theorem reads_createTableStatement {tableName : Bytes} {columns : List ColumnDefinition}
    (h : (Statement.createTable tableName columns).InImage) :
    ReadsAs 5 parseCreateTableStatement (.createTable tableName columns)
      ([(.table, ascii "TABLE"), (.identifier, tableName), leftParenKind]
        ++ separated (columns.map ColumnDefinition.print) ++ [rightParenKind])
      [.semicolon, .endOfFile] := by
  obtain ⟨-, hne, -⟩ := h
  refine ReadsAs.consume (n := 5) (by decide) (fun _ _ => ?_) (by decide)
  refine ReadsAs.consume (n := 5) (by decide) (fun name hname => ?_) (by decide)
  refine ReadsAs.consume (n := 5) (by decide) (fun _ _ => ?_) (by decide)
  have hclose : ReadsAs 5 (fun _ => consume .rightParen
      (ascii "expected ')' after column definitions") >>= fun _ =>
        pure (Statement.createTable name.lexeme columns)) (.createTable tableName columns)
      [rightParenKind] [.semicolon, .endOfFile] := by
    refine ReadsAs.consume (n := 5) (by decide) (fun _ _ => ?_) (by decide)
    rw [hname]
    exact .pure _
  exact ReadsAs.bind (q := fun columns _ => consume .rightParen
      (ascii "expected ')' after column definitions") >>= fun _ =>
        pure (Statement.createTable name.lexeme columns))
    (reads_columnDefinitions hne) (startTypes_cons_subset (by decide)) hclose (by omega)

/-- **PRINTED STATEMENTS ARE READ BACK.** -/
theorem reads_statementBody {statement : Statement} (h : statement.InImage) :
    ReadsAs 5 parseStatementBody statement statement.print [.semicolon, .endOfFile] := by
  cases statement with
  | select projections tableName predicate =>
      exact .matchHit (by decide) (reads_selectStatement h) (by decide)
  | insert tableName values =>
      have hselect : TokenType.select ∉ [TokenType.insert] := by decide
      exact .matchMiss hselect (.matchHit (by decide) (reads_insertStatement h) (by decide))
  | createTable tableName columns =>
      have hselect : TokenType.select ∉ [TokenType.create] := by decide
      have hinsert : TokenType.insert ∉ [TokenType.create] := by decide
      refine .matchMiss hselect (.matchMiss hinsert ?_)
      exact .matchHit (by decide) (reads_createTableStatement h) (by decide)

/-- A semicolon or nothing, and the end of the file. -/
theorem reads_statementEnd (semicolon : Bool) :
    ReadsAs 5 (fun _ => parseStatementEnd) () (if semicolon then [semicolonKind] else [])
      [.endOfFile] := by
  have hlast : ReadsAs 5 (fun _ => peek >>= fun token => if token.type ≠ .endOfFile then
      throwParseError (ascii "expected end of statement") token.range.start
      else pure ()) () [] [.endOfFile] := by
    intro fuel tokens consumed rest hkinds hrest _
    obtain rfl : tokens = [] := List.map_eq_nil_iff.mp hkinds
    obtain ⟨token, more, rfl, htype⟩ := hrest
    have htype : token.type = .endOfFile := List.mem_singleton.mp htype
    have hpeek : peek ⟨consumed, token :: more⟩ = .ok (token, ⟨consumed, token :: more⟩) := rfl
    show (peek >>= _ : ParserM Unit) ⟨consumed, token :: more⟩ = _
    rw [parser_bind_eq hpeek, if_neg (not_not.mpr htype)]
    rfl
  cases semicolon with
  | true => exact .matchHit (q := fun _ _ => peek >>= fun token => if token.type ≠ .endOfFile then
      throwParseError (ascii "expected end of statement") token.range.start
      else pure ()) (by decide) hlast (by decide)
  | false => exact .matchMiss (q := fun _ _ => peek >>= fun token => if token.type ≠ .endOfFile then
      throwParseError (ascii "expected end of statement") token.range.start
      else pure ()) (by decide) hlast

theorem parseTokens_print {statement : Statement} (h : statement.InImage) {semicolon : Bool}
    {tokens : List Token}
    (hkinds : tokens.map Token.kind
      = (statement.print ++ if semicolon then [semicolonKind] else []) ++ [(.endOfFile, [])]) :
    parseTokens tokens = .ok statement := by
  obtain ⟨front, back, rfl, hfront, hback⟩ := List.map_eq_append_iff.mp hkinds
  obtain ⟨last, none, rfl, hlast, hnone⟩ := List.map_eq_cons_iff.mp hback
  obtain rfl : none = [] := List.map_eq_nil_iff.mp hnone
  have hlast : last.type = .endOfFile := congrArg Prod.fst hlast
  have hends : startTypes (if semicolon then [semicolonKind] else []) [.endOfFile]
      ⊆ [.semicolon, .endOfFile] := by
    cases semicolon <;> decide
  have hreads := ReadsAs.bind (q := fun statement _ => parseStatementEnd >>= fun _ => pure statement)
    (reads_statementBody h) hends ((reads_statementEnd semicolon).map fun _ => statement) (by omega)
  have htokens : parserTokens (front ++ [last]) = front ++ [last] := by
    rw [parserTokens, List.getLast?_concat]
    exact if_neg (not_not.mpr hlast)
  have hlength : front.length = (statement.print ++ if semicolon then [semicolonKind] else []).length := by
    rw [← hfront, List.length_map]
  have hrun := hreads (parseFuel (front ++ [last])) front [] [last] hfront
    ⟨last, [], rfl, List.mem_singleton.mpr hlast⟩ (by
      rw [parseFuel, ← hlength, List.length_append, List.length_singleton]
      omega)
  rw [parseTokens_ok_iff, htokens]
  exact ⟨_, hrun⟩

/-! ## The lexer on printed statements -/

theorem lexes_identifier {name : Bytes} (h : IsIdentifier name) : Lexes (.identifier, name) :=
  (PrintedKind.name h).lexes

/-- The tokens of an expression are tokens to the lexer. -/
theorem Expression.printParens_lexes {e : Expression} (h : e.InImage) :
    ∀ kind ∈ e.printParens, Lexes kind := by
  have hparens : ∀ kinds : List TokenKind, (∀ kind ∈ kinds, Lexes kind) →
      ∀ kind ∈ leftParenKind :: kinds ++ [rightParenKind], Lexes kind := by
    intro kinds hkinds
    refine List.forall_mem_append.mpr ⟨List.forall_mem_cons.mpr ⟨?_, hkinds⟩, ?_⟩
    · exact .symbol (by decide)
    · exact List.forall_mem_singleton.mpr (.symbol (by decide))
  have hprint : ∀ e : Expression, e.Printable → ∀ kind ∈ e.print, Lexes kind :=
    fun e he kind hkind => (e.print_printed he kind hkind).lexes
  induction e with
  | integerLiteral value =>
      by_cases hmin : value = Int64.minValue
      · rw [printParens, if_pos hmin]
        intro kind hkind
        rcases List.mem_cons.mp hkind with rfl | hkind
        · exact .symbol (by decide)
        · rw [List.mem_singleton.mp hkind]
          exact .number (by decide) (List.all_eq_true.mp (by decide))
      · rw [printParens, if_neg hmin]
        exact hprint (.integerLiteral value) (h.resolve_right hmin)
  | stringLiteral value => exact hprint (.stringLiteral value) trivial
  | booleanLiteral value => exact hprint (.booleanLiteral value) trivial
  | nullLiteral => exact hprint .nullLiteral trivial
  | columnRef name => exact hprint (.columnRef name) h
  | star =>
      intro kind hkind
      rw [List.mem_singleton.mp hkind]
      exact .symbol (by decide)
  | unary op operand ih =>
      refine hparens _ fun kind hkind => ?_
      rcases List.mem_cons.mp hkind with rfl | hkind
      · exact (PrintedKind.unary op).lexes
      · exact ih h kind hkind
  | binary left op right ihLeft ihRight =>
      refine hparens _ fun kind hkind => ?_
      rcases List.mem_append.mp hkind with hkind | hkind
      · exact ihLeft h.1 kind hkind
      · rcases List.mem_cons.mp hkind with rfl | hkind
        · exact (PrintedKind.binary op).lexes
        · exact ihRight h.2 kind hkind

theorem separated_lexes {items : List (List TokenKind)}
    (h : ∀ item ∈ items, ∀ kind ∈ item, Lexes kind) : ∀ kind ∈ separated items, Lexes kind := by
  cases items with
  | nil =>
      intro kind hkind
      cases hkind
  | cons item items =>
      intro kind hkind
      rw [separated_cons] at hkind
      rcases List.mem_append.mp hkind with hkind | hkind
      · exact h item List.mem_cons_self kind hkind
      · obtain ⟨other, hother, hkind⟩ := List.mem_flatMap.mp hkind
        rcases List.mem_cons.mp hkind with rfl | hkind
        · exact .symbol (by decide)
        · exact h other (List.mem_cons_of_mem _ hother) kind hkind

theorem optionalName_lexes {keyword : TokenKind} {name : Bytes} (hkeyword : Lexes keyword)
    (h : IsOptionalName name) : ∀ kind ∈ optionalName keyword name, Lexes kind := by
  intro kind hkind
  rw [optionalName] at hkind
  split at hkind
  · cases hkind
  · rename_i hname
    rcases List.mem_cons.mp hkind with rfl | hkind
    · exact hkeyword
    · rw [List.mem_singleton.mp hkind]
      exact lexes_identifier (h.resolve_left hname)

theorem TypeName.kind_lexes (type : TypeName) : Lexes type.kind := by
  cases type <;> exact lexes_keyword (by decide)

theorem Statement.print_lexes {statement : Statement} (h : statement.InImage) :
    ∀ kind ∈ statement.print, Lexes kind := by
  have hnil : ∀ kind ∈ ([] : List TokenKind), Lexes kind := by
    intro kind hkind
    cases hkind
  have hleft : Lexes leftParenKind := .symbol (by decide)
  have hright : ∀ kind ∈ [rightParenKind], Lexes kind :=
    List.forall_mem_singleton.mpr (.symbol (by decide))
  cases statement with
  | select projections tableName predicate =>
      obtain ⟨-, hprojections, htable, hpredicate⟩ := h
      refine List.forall_mem_cons.mpr ⟨lexes_keyword (by decide), List.forall_mem_append.mpr
        ⟨separated_lexes fun item hitem => ?_, List.forall_mem_append.mpr ⟨?_, ?_⟩⟩⟩
      · obtain ⟨projection, hmem, rfl⟩ := List.mem_map.mp hitem
        obtain ⟨hexpression, halias⟩ := hprojections projection hmem
        exact List.forall_mem_append.mpr ⟨Expression.printParens_lexes hexpression,
          optionalName_lexes (lexes_keyword (by decide)) halias⟩
      · exact optionalName_lexes (lexes_keyword (by decide)) htable
      · cases predicate with
        | none => exact hnil
        | some e =>
            exact List.forall_mem_cons.mpr ⟨lexes_keyword (by decide),
              Expression.printParens_lexes (hpredicate e rfl)⟩
  | insert tableName values =>
      obtain ⟨htable, -, hvalues⟩ := h
      have hhead : ∀ kind ∈ [(.insert, ascii "INSERT"), (.into, ascii "INTO"),
          (.identifier, tableName), (.values, ascii "VALUES"), leftParenKind], Lexes kind := by
        simp only [List.forall_mem_cons]
        exact ⟨lexes_keyword (by decide), lexes_keyword (by decide), lexes_identifier htable,
          lexes_keyword (by decide), hleft, hnil⟩
      refine List.forall_mem_append.mpr ⟨List.forall_mem_append.mpr
        ⟨hhead, separated_lexes fun item hitem => ?_⟩, hright⟩
      obtain ⟨value, hmem, rfl⟩ := List.mem_map.mp hitem
      exact Expression.printParens_lexes (hvalues value hmem)
  | createTable tableName columns =>
      obtain ⟨htable, -, hcolumns⟩ := h
      have hhead : ∀ kind ∈ [(.create, ascii "CREATE"), (.table, ascii "TABLE"),
          (.identifier, tableName), leftParenKind], Lexes kind := by
        simp only [List.forall_mem_cons]
        exact ⟨lexes_keyword (by decide), lexes_keyword (by decide), lexes_identifier htable,
          hleft, hnil⟩
      refine List.forall_mem_append.mpr ⟨List.forall_mem_append.mpr
        ⟨hhead, separated_lexes fun item hitem => ?_⟩, hright⟩
      obtain ⟨column, hmem, rfl⟩ := List.mem_map.mp hitem
      exact List.forall_mem_cons.mpr ⟨lexes_identifier (hcolumns column hmem),
        List.forall_mem_singleton.mpr column.type.kind_lexes⟩

/-- **PRINTING AND PARSING A STATEMENT** gives it back, with a semicolon behind
    it or without. -/
theorem parse_statementText {statement : Statement} (h : statement.InImage) (semicolon : Bool) :
    (tokenize (statement.text semicolon) >>= parseTokens) = .ok statement := by
  have hlexes : ∀ kind ∈ statement.print ++ (if semicolon then [semicolonKind] else []),
      Lexes kind := by
    intro kind hkind
    rcases List.mem_append.mp hkind with hkind | hkind
    · exact Statement.print_lexes h kind hkind
    · cases semicolon with
      | false => cases hkind
      | true =>
          rw [List.mem_singleton.mp hkind]
          exact .symbol (by decide)
  obtain ⟨tokens, htokenize, hkinds⟩ := tokenize_renderKinds hlexes
  rw [Statement.text, htokenize]
  exact parseTokens_print h hkinds

end MattSql
