import MattSql.PrecedenceProofs

/-! # NOT as a left operand

    What the parser returns from a printed expression that has a NOT as the
    left operand of an AND or OR: never the expression itself.

    The binary loop starts from a prefix expression, and there a NOT stands in
    parentheses only.  So the operators of whatever is returned stand at depths
    of parentheses that the fewest parentheses do not have. -/

namespace MattSql

/-! ## Depths -/

def isOperatorType : TokenType → Bool
  | .plus | .minus | .star | .slash | .equal | .notEqual | .less | .lessEqual | .greater
  | .greaterEqual | .and | .or | .not => true
  | _ => false

/-- The depths of parentheses at which the operators stand. -/
def operatorDepths : Nat → List TokenKind → List Nat
  | _, [] => []
  | depth, kind :: kinds =>
    if kind.1 = .leftParen then operatorDepths (depth + 1) kinds
    else if kind.1 = .rightParen then operatorDepths (depth - 1) kinds
    else if isOperatorType kind.1 then depth :: operatorDepths depth kinds
    else operatorDepths depth kinds

/-- The parentheses match, and the operators stand at these depths. -/
def HasDepths (kinds : List TokenKind) (depths : List Nat) : Prop :=
  ∀ (depth : Nat) (rest : List TokenKind),
    operatorDepths depth (kinds ++ rest)
      = depths.map (· + depth) ++ operatorDepths depth rest

theorem HasDepths.unique {kinds : List TokenKind} {depths depths' : List Nat}
    (h : HasDepths kinds depths) (h' : HasDepths kinds depths') : depths = depths' := by
  have heq := (h 0 []).symm.trans (h' 0 [])
  simpa [operatorDepths] using heq

theorem HasDepths.nil : HasDepths [] [] := fun _ _ => rfl

theorem HasDepths.append {kinds kinds' : List TokenKind} {depths depths' : List Nat}
    (h : HasDepths kinds depths) (h' : HasDepths kinds' depths') :
    HasDepths (kinds ++ kinds') (depths ++ depths') := by
  intro depth rest
  rw [List.append_assoc, h, h', List.map_append, List.append_assoc]

/-- Neither an operator nor a parenthesis. -/
theorem HasDepths.plain {kind : TokenKind} {kinds : List TokenKind} {depths : List Nat}
    (h : HasDepths kinds depths)
    (hkind : kind.1 ≠ .leftParen ∧ kind.1 ≠ .rightParen ∧ isOperatorType kind.1 = false) :
    HasDepths (kind :: kinds) depths := by
  intro depth rest
  rw [List.cons_append, operatorDepths, if_neg hkind.1, if_neg hkind.2.1,
    if_neg (by rw [hkind.2.2]; decide), h]

theorem HasDepths.operator {kind : TokenKind} {kinds : List TokenKind} {depths : List Nat}
    (h : HasDepths kinds depths) (hkind : isOperatorType kind.1 = true) :
    HasDepths (kind :: kinds) (0 :: depths) := by
  have hparens : kind.1 ≠ .leftParen ∧ kind.1 ≠ .rightParen := by
    constructor <;>
      · intro heq
        rw [heq] at hkind
        cases hkind
  intro depth rest
  rw [List.cons_append, operatorDepths, if_neg hparens.1, if_neg hparens.2, if_pos hkind, h]
  simp

theorem HasDepths.parens {opening closing : TokenKind} {kinds : List TokenKind}
    {depths : List Nat} (h : HasDepths kinds depths) (hopening : opening.1 = .leftParen)
    (hclosing : closing.1 = .rightParen) :
    HasDepths (opening :: kinds ++ [closing]) (depths.map (· + 1)) := by
  intro depth rest
  rw [List.cons_append, List.cons_append, List.append_assoc, operatorDepths, if_pos hopening, h,
    List.singleton_append, operatorDepths, if_neg (by rw [hclosing]; decide), if_pos hclosing,
    List.map_map, Nat.add_sub_cancel]
  congr 2
  funext n
  exact Nat.add_right_comm n depth 1

/-! ## Depths of a printed expression -/

/-- One deeper where parentheses are printed. -/
def depthsAt (level : Nat) (operand : Expression) (depths : List Nat) : List Nat :=
  if operand.level < level then depths.map (· + 1) else depths

def Expression.printDepths : Expression → List Nat
  | .unary op operand => 0 :: depthsAt op.level operand operand.printDepths
  | .binary left op right =>
    depthsAt op.level left left.printDepths
      ++ 0 :: depthsAt (op.level + 1) right right.printDepths
  | _ => []

theorem depthsAt_length (level : Nat) (operand : Expression) (depths : List Nat) :
    (depthsAt level operand depths).length = depths.length := by
  rw [depthsAt]
  split <;> simp

theorem depthsAt_eq_map (level : Nat) (operand : Expression) (depths : List Nat) :
    ∃ n, depthsAt level operand depths = depths.map (· + n) := by
  rw [depthsAt]
  split
  · exact ⟨1, rfl⟩
  · exact ⟨0, by simp⟩

theorem HasDepths.atLevel {operand : Expression} {kinds : List TokenKind} {depths : List Nat}
    (h : HasDepths kinds depths) (level : Nat) :
    HasDepths (atLevel level operand kinds) (depthsAt level operand depths) := by
  rw [MattSql.atLevel, depthsAt]
  split
  · exact h.parens rfl rfl
  · exact h

theorem nameKinds_hasDepths (parts : List Bytes) : HasDepths (nameKinds parts) [] := by
  cases parts with
  | nil => exact .nil
  | cons part parts =>
      have htail : HasDepths
          (parts.flatMap fun part => [(.dot, ascii "."), (.identifier, part)]) [] := by
        induction parts with
        | nil => exact .nil
        | cons part parts ih =>
            exact .plain (.plain ih ⟨nofun, nofun, rfl⟩) ⟨nofun, nofun, rfl⟩
      exact htail.plain ⟨nofun, nofun, rfl⟩

theorem Expression.print_hasDepths {e : Expression} (h : e.Printable) :
    HasDepths e.print e.printDepths := by
  induction e with
  | integerLiteral value => exact HasDepths.nil.plain ⟨nofun, nofun, rfl⟩
  | stringLiteral value => exact HasDepths.nil.plain ⟨nofun, nofun, rfl⟩
  | booleanLiteral value => cases value <;> exact HasDepths.nil.plain ⟨nofun, nofun, rfl⟩
  | nullLiteral => exact HasDepths.nil.plain ⟨nofun, nofun, rfl⟩
  | columnRef name => exact nameKinds_hasDepths _
  | unary op operand ih =>
      exact ((ih h).atLevel op.level).operator (by cases op <;> rfl)
  | binary left op right ihLeft ihRight =>
      exact ((ihLeft h.1).atLevel op.level).append
        (((ihRight h.2).atLevel (op.level + 1)).operator (by cases op <;> rfl))
  | star => cases h

/-! ## What the parser returns -/

/-- A NOT stands in parentheses. -/
def Guarded (e : Expression) (depths : List Nat) : Prop :=
  ∀ operand, e = .unary .not operand → depths.head? ≠ some 0

/-- The parser can return the expression from tokens whose operators stand at
    these depths.  Nothing is said about `*` and the smallest integer. -/
inductive Returned : Expression → List Nat → Prop
  | unprintable {e : Expression} (h : ¬e.Printable) (depths : List Nat) : Returned e depths
  | leaf {e : Expression} (h : e.level = 8) : Returned e []
  | unary {operand : Expression} {depths : List Nat} (op : UnaryOperator)
      (h : Returned operand depths) : Returned (.unary op operand) (0 :: depths)
  | binary {left right : Expression} {leftDepths rightDepths : List Nat} (op : BinaryOperator)
      (hleft : Returned left leftDepths) (hguarded : Guarded left leftDepths)
      (hright : Returned right rightDepths) :
      Returned (.binary left op right) (leftDepths ++ 0 :: rightDepths)
  | parens {e : Expression} {depths : List Nat} (h : Returned e depths) :
      Returned e (depths.map (· + 1))

/-- The tokens between two states of the parser have operators at these
    depths. -/
def Consumes (s s' : ParserState) (depths : List Nat) : Prop :=
  ∃ tokens, s.rest = tokens ++ s'.rest ∧ HasDepths (tokens.map Token.kind) depths

theorem Consumes.trans {s t s' : ParserState} {depths depths' : List Nat}
    (h : Consumes s t depths) (h' : Consumes t s' depths') :
    Consumes s s' (depths ++ depths') := by
  obtain ⟨tokens, hrest, hdepths⟩ := h
  obtain ⟨tokens', hrest', hdepths'⟩ := h'
  refine ⟨tokens ++ tokens', by rw [hrest, hrest', List.append_assoc], ?_⟩
  rw [List.map_append]
  exact hdepths.append hdepths'

/-- One more token at the front, neither an operator nor a parenthesis. -/
theorem Consumes.plain {s t s' : ParserState} {token : Token} {depths : List Nat}
    (hrest : s.rest = token :: t.rest) (h : Consumes t s' depths)
    (htype : token.type ≠ .leftParen ∧ token.type ≠ .rightParen
      ∧ isOperatorType token.type = false) : Consumes s s' depths := by
  obtain ⟨tokens, hmore, hdepths⟩ := h
  exact ⟨token :: tokens, by rw [hrest, hmore, List.cons_append], hdepths.plain htype⟩

/-- One more operator at the front. -/
theorem Consumes.operator {s t s' : ParserState} {token : Token} {depths : List Nat}
    (hrest : s.rest = token :: t.rest) (h : Consumes t s' depths)
    (htype : isOperatorType token.type = true) : Consumes s s' (0 :: depths) := by
  obtain ⟨tokens, hmore, hdepths⟩ := h
  exact ⟨token :: tokens, by rw [hrest, hmore, List.cons_append], hdepths.operator htype⟩

theorem Consumes.refl (s : ParserState) : Consumes s s [] := ⟨[], rfl, .nil⟩

/-- The token that a successful `Match` took. -/
theorem matchToken_true {type : TokenType} {s s' : ParserState}
    (h : matchToken type s = .ok (true, s')) (hne : type ≠ .endOfFile) :
    ∃ token, token.type = type ∧ s.rest = token :: s'.rest
      ∧ s'.consumed = token :: s.consumed := by
  obtain ⟨consumed, rest⟩ := s
  cases rest with
  | nil => cases h
  | cons token rest =>
      by_cases htype : token.type = type
      · rw [matchToken_hit htype hne] at h
        cases h
        exact ⟨token, htype, rfl, rfl⟩
      · rw [matchToken_miss htype] at h
        cases h

theorem matchToken_false {type : TokenType} {s s' : ParserState}
    (h : matchToken type s = .ok (false, s')) (hne : type ≠ .endOfFile) : s' = s := by
  obtain ⟨consumed, rest⟩ := s
  cases rest with
  | nil => cases h
  | cons token rest =>
      by_cases htype : token.type = type
      · rw [matchToken_hit htype hne] at h
        cases h
      · rw [matchToken_miss htype] at h
        cases h
        rfl

theorem consume_ok {type : TokenType} {message : Bytes} {token : Token} {s s' : ParserState}
    (h : consume type message s = .ok (token, s')) (hne : type ≠ .endOfFile) :
    token.type = type ∧ s.rest = token :: s'.rest := by
  obtain ⟨consumed, rest⟩ := s
  cases rest with
  | nil => cases h
  | cons first rest =>
      by_cases htype : first.type = type
      · rw [consume_hit htype hne] at h
        cases h
        exact ⟨htype, rfl⟩
      · rw [consume_miss htype] at h
        cases h

/-- The parts of a dotted name have no operators. -/
theorem parseDottedName_consumes {fuel : Nat} {name result : Bytes} {s s' : ParserState}
    (h : parseDottedName fuel name s = .ok (result, s')) : Consumes s s' [] := by
  induction fuel generalizing name s with
  | zero => cases h
  | succ fuel ih =>
      obtain ⟨more, s₁, hmatch, h⟩ := parser_bind_ok_iff.mp h
      cases more with
      | true =>
          obtain ⟨dot, hdot, hrest, -⟩ := matchToken_true hmatch (by decide)
          obtain ⟨part, s₂, hconsume, h⟩ := parser_bind_ok_iff.mp h
          obtain ⟨hpart, hrest'⟩ := consume_ok hconsume (by decide)
          exact .plain hrest (.plain hrest' (ih h) (by rw [hpart]; decide)) (by rw [hdot]; decide)
      | false =>
          cases matchToken_false hmatch (by decide)
          cases h
          exact .refl _

/-- What each function returns with the given fuel. -/
structure Sound (fuel : Nat) : Prop where
  expression : ∀ {minPrecedence : Int} {e : Expression} {s s' : ParserState},
    0 ≤ minPrecedence → parseExpression fuel minPrecedence s = .ok (e, s') →
    ∃ depths, Consumes s s' depths ∧ Returned e depths
  loop : ∀ {minPrecedence : Int} {left e : Expression} {s s' : ParserState} {depths : List Nat},
    0 ≤ minPrecedence → parseBinaryLoop fuel minPrecedence left s = .ok (e, s') →
    Returned left depths → Guarded left depths →
    ∃ more, Consumes s s' more ∧ Returned e (depths ++ more)
  signed : ∀ {e : Expression} {s s' : ParserState},
    parsePrefixExpression fuel s = .ok (e, s') →
    ∃ depths, Consumes s s' depths ∧ Returned e depths ∧ Guarded e depths
  primary : ∀ {e : Expression} {s s' : ParserState},
    parsePrimaryExpression fuel s = .ok (e, s') →
    ∃ depths, Consumes s s' depths ∧ Returned e depths ∧ Guarded e depths

theorem guarded_of_level {e : Expression} {depths : List Nat} (h : e.level ≠ 3) :
    Guarded e depths := fun _ heq => absurd (heq ▸ rfl) h

theorem guarded_parens (e : Expression) (depths : List Nat) :
    Guarded e (depths.map (· + 1)) := by
  intro operand _ hhead
  cases depths with
  | nil => cases hhead
  | cons depth depths => simp at hhead

/-- The first token of a primary expression decides what it is. -/
theorem parsePrimaryExpression_cases {fuel : Nat} {token : Token} {consumed rest : List Token}
    {e : Expression} {s' : ParserState}
    (h : parsePrimaryExpression (fuel + 1) ⟨consumed, token :: rest⟩ = .ok (e, s')) :
    (e.level = 8 ∧ token.type ≠ .leftParen ∧ token.type ≠ .rightParen
        ∧ isOperatorType token.type = false ∧ s'.rest = rest)
      ∨ (e = .star ∧ token.type = .star ∧ s'.rest = rest)
      ∨ (token.type = .identifier ∧ ∃ name, e = .columnRef name
        ∧ parseDottedName fuel token.lexeme ⟨token :: consumed, rest⟩ = .ok (name, s'))
      ∨ (token.type = .leftParen ∧ ∃ s₁ closing, closing.type = .rightParen
        ∧ parseExpression fuel 0 ⟨token :: consumed, rest⟩ = .ok (e, s₁)
        ∧ s₁.rest = closing :: s'.rest) := by
  -- a literal, a star, a name or a parenthesis; every other token throws
  cases htype : token.type
  case integer =>
      rw [parsePrimaryExpression, parser_bind_eq (matchToken_hit htype (by decide)), if_pos rfl,
        parser_bind_eq (previous_cons _ _)] at h
      refine .inl ?_
      cases hvalue : stoll token.lexeme with
      | none =>
          rw [hvalue] at h
          cases h
      | some value =>
          rw [hvalue] at h
          cases h
          exact ⟨rfl, by decide, by decide, rfl, rfl⟩
  case string =>
      rw [parsePrimaryExpression, parser_bind_eq (matchToken_miss (by rw [htype]; decide)),
        if_neg Bool.false_ne_true, parser_bind_eq (matchToken_hit htype (by decide)), if_pos rfl,
        parser_bind_eq (previous_cons _ _)] at h
      refine .inl ?_
      cases hvalue : unescapeSqlString token.lexeme with
      | none =>
          rw [hvalue] at h
          cases h
      | some value =>
          rw [hvalue] at h
          cases h
          exact ⟨rfl, by decide, by decide, rfl, rfl⟩
  case identifier =>
      rw [parsePrimaryExpression_identifier htype] at h
      obtain ⟨name, s₁, hname, h⟩ := parser_bind_ok_iff.mp h
      cases h
      exact .inr (.inr (.inl ⟨rfl, name, rfl, hname⟩))
  case leftParen =>
      rw [parsePrimaryExpression_leftParen htype] at h
      obtain ⟨inner, s₁, hinner, h⟩ := parser_bind_ok_iff.mp h
      obtain ⟨closing, s₂, hclosing, h⟩ := parser_bind_ok_iff.mp h
      cases h
      obtain ⟨hclosingType, hrest⟩ := consume_ok hclosing (by decide)
      exact .inr (.inr (.inr ⟨rfl, s₁, closing, hclosingType, hinner, hrest⟩))
  all_goals
    obtain ⟨type, lexeme, range⟩ := token
    cases htype
    first
      | cases h; exact .inl ⟨rfl, by decide, by decide, rfl, rfl⟩
      | cases h; exact .inr (.inl ⟨rfl, rfl, rfl⟩)
      | cases h

theorem not_printable_star : ¬Expression.star.Printable := id

theorem not_printable_minValue : ¬(Expression.integerLiteral Int64.minValue).Printable := by
  show ¬(0 : Int64) ≤ Int64.minValue
  decide

theorem sound_primary {fuel : Nat} (ih : Sound fuel) {e : Expression} {s s' : ParserState}
    (h : parsePrimaryExpression (fuel + 1) s = .ok (e, s')) :
    ∃ depths, Consumes s s' depths ∧ Returned e depths ∧ Guarded e depths := by
  obtain ⟨consumed, rest⟩ := s
  cases rest with
  | nil => cases h
  | cons token rest =>
      rcases parsePrimaryExpression_cases h with ⟨hlevel, hleft, hright, hoperator, hrest⟩
        | ⟨rfl, htype, hrest⟩ | ⟨htype, name, rfl, hname⟩
        | ⟨htype, s₁, closing, hclosing, hinner, hrest⟩
      · refine ⟨[], ?_, .leaf hlevel, guarded_of_level (by rw [hlevel]; decide)⟩
        exact .plain (by rw [← hrest]) (.refl s') ⟨hleft, hright, hoperator⟩
      · refine ⟨[0], ?_, .unprintable not_printable_star [0], guarded_of_level nofun⟩
        exact .operator (by rw [← hrest]) (.refl s') (by rw [htype]; rfl)
      · refine ⟨[], ?_, .leaf rfl, guarded_of_level nofun⟩
        exact .plain rfl (parseDottedName_consumes hname) (by rw [htype]; decide)
      · obtain ⟨depths, ⟨tokens, htokens, hdepths⟩, hreturned⟩ :=
          ih.expression (Int.le_refl 0) hinner
        refine ⟨depths.map (· + 1), ⟨token :: tokens ++ [closing], ?_, ?_⟩, hreturned.parens,
          guarded_parens e depths⟩
        · show token :: rest = _
          rw [show rest = _ from htokens, hrest]
          simp
        · rw [List.map_append]
          exact hdepths.parens htype hclosing

/-- What a prefix expression is: the smallest integer, a signed operand or a
    primary expression. -/
theorem parsePrefixExpression_cases {fuel : Nat} {token : Token} {consumed rest : List Token}
    {e : Expression} {s' : ParserState}
    (h : parsePrefixExpression (fuel + 1) ⟨consumed, token :: rest⟩ = .ok (e, s')) :
    (isOperatorType token.type = true ∧ e = .integerLiteral Int64.minValue
        ∧ ∃ digits, digits.type = .integer ∧ rest = digits :: s'.rest)
      ∨ (isOperatorType token.type = true ∧ ∃ op operand, op ≠ .not ∧ e = .unary op operand
        ∧ parsePrefixExpression fuel ⟨token :: consumed, rest⟩ = .ok (operand, s'))
      ∨ parsePrimaryExpression fuel ⟨consumed, token :: rest⟩ = .ok (e, s') := by
  by_cases htype : token.type = .plus ∨ token.type = .minus
  · have hoperator : isOperatorType token.type = true := by
      rcases htype with htype | htype <;> rw [htype] <;> rfl
    -- the sign is consumed either way
    have hsign : matchSign ⟨consumed, token :: rest⟩ = .ok (true, ⟨token :: consumed, rest⟩) := by
      by_cases hplus : token.type = .plus
      · rw [matchSign, parser_bind_eq (matchToken_hit hplus (by decide)), if_pos rfl]
        rfl
      · rw [matchSign, parser_bind_eq (matchToken_miss hplus), if_neg Bool.false_ne_true,
          matchToken_hit (htype.resolve_left hplus) (by decide)]
    rw [parsePrefixExpression, parser_bind_eq hsign, if_pos rfl,
      parser_bind_eq (previous_cons _ _)] at h
    obtain ⟨next, s₁, hpeek, h⟩ := parser_bind_ok_iff.mp h
    cases rest with
    | nil => cases hpeek
    | cons first rest =>
        cases hpeek
        split at h
        · rename_i hmin
          rw [parser_bind_eq (advance_cons (by rw [hmin.2.1]; decide))] at h
          cases h
          exact .inl ⟨hoperator, rfl, next, hmin.2.1, rfl⟩
        · obtain ⟨operand, s₂, hoperand, h⟩ := parser_bind_ok_iff.mp h
          obtain ⟨op, s₃, hop, h⟩ := parser_bind_ok_iff.mp h
          cases h
          have hopNot : op ≠ .not ∧ s' = s₂ := by
            rcases htype with htype | htype
            · rw [htype] at hop
              cases hop
              exact ⟨by decide, rfl⟩
            · rw [htype] at hop
              cases hop
              exact ⟨by decide, rfl⟩
          obtain ⟨hopNot, rfl⟩ := hopNot
          exact .inr (.inl ⟨hoperator, op, operand, hopNot, rfl, hoperand⟩)
  · rw [not_or] at htype
    rw [parsePrefixExpression_primary htype] at h
    exact .inr (.inr h)

theorem sound_signed {fuel : Nat} (ih : Sound fuel) {e : Expression} {s s' : ParserState}
    (h : parsePrefixExpression (fuel + 1) s = .ok (e, s')) :
    ∃ depths, Consumes s s' depths ∧ Returned e depths ∧ Guarded e depths := by
  obtain ⟨consumed, rest⟩ := s
  cases rest with
  | nil => cases h
  | cons token rest =>
      rcases parsePrefixExpression_cases h with ⟨hoperator, rfl, digits, hdigits, hrest⟩
        | ⟨hoperator, op, operand, hop, rfl, hoperand⟩ | hprimary
      · have hmore : Consumes ⟨token :: consumed, rest⟩ s' [] :=
          .plain hrest (.refl _) (by rw [hdigits]; decide)
        exact ⟨[0], .operator rfl hmore hoperator, .unprintable not_printable_minValue [0],
          guarded_of_level (by decide)⟩
      · obtain ⟨depths, hconsumes, hreturned, -⟩ := ih.signed hoperand
        refine ⟨0 :: depths, .operator rfl hconsumes hoperator, hreturned.unary op, ?_⟩
        intro operand' heq
        exact absurd (Expression.unary.inj heq).1 hop
      · exact ih.primary hprimary

theorem isOperatorType_of_precedence {type : TokenType} (h : 0 ≤ getBinaryPrecedence type) :
    isOperatorType type = true := by
  cases type <;> first | rfl | exact absurd h (by decide)

/-- What a round of the binary loop does: it stops, or it takes an operator and
    its right operand. -/
theorem parseBinaryLoop_cases {fuel : Nat} {minPrecedence : Int} {left e : Expression}
    {s s' : ParserState} (hmin : 0 ≤ minPrecedence)
    (h : parseBinaryLoop (fuel + 1) minPrecedence left s = .ok (e, s')) :
    (e = left ∧ s' = s)
      ∨ ∃ token consumed rest precedence right op s₁, s = ⟨consumed, token :: rest⟩
        ∧ isOperatorType token.type = true ∧ 0 ≤ precedence
        ∧ parseExpression fuel precedence ⟨token :: consumed, rest⟩ = .ok (right, s₁)
        ∧ parseBinaryLoop fuel minPrecedence (.binary left op right) s₁ = .ok (e, s') := by
  obtain ⟨next, s₁, hpeek, h⟩ := parser_bind_ok_iff.mp h
  obtain ⟨consumed, rest⟩ := s
  cases rest with
  | nil => cases hpeek
  | cons token rest =>
      cases hpeek
      split at h
      · cases h
        exact .inl ⟨rfl, rfl⟩
      · rename_i hprec
        have hle : 0 ≤ getBinaryPrecedence next.type := by omega
        have hoperator := isOperatorType_of_precedence hle
        have hne : next.type ≠ .endOfFile := by
          intro heq
          rw [heq] at hoperator
          cases hoperator
        rw [parser_bind_eq (advance_cons hne)] at h
        obtain ⟨right, s₂, hright, h⟩ := parser_bind_ok_iff.mp h
        obtain ⟨op, s₃, hop, hloop⟩ := parser_bind_ok_iff.mp h
        -- the conversion of the operator moves no token
        have hstate : s₃ = s₂ := by
          revert hop
          cases next.type <;> intro hop <;> cases hop <;> rfl
        subst hstate
        exact .inr ⟨next, consumed, rest, _, right, op, s₃, rfl, hoperator, by omega, hright, hloop⟩

theorem sound_loop {fuel : Nat} (ih : Sound fuel) {minPrecedence : Int} {left e : Expression}
    {s s' : ParserState} {depths : List Nat} (hmin : 0 ≤ minPrecedence)
    (h : parseBinaryLoop (fuel + 1) minPrecedence left s = .ok (e, s'))
    (hleft : Returned left depths) (hguarded : Guarded left depths) :
    ∃ more, Consumes s s' more ∧ Returned e (depths ++ more) := by
  rcases parseBinaryLoop_cases hmin h with ⟨rfl, rfl⟩
    | ⟨token, consumed, rest, precedence, right, op, s₁, rfl, hoperator, hprec, hright, hloop⟩
  · exact ⟨[], .refl _, by rwa [List.append_nil]⟩
  · obtain ⟨rightDepths, hconsumes, hreturned⟩ := ih.expression hprec hright
    obtain ⟨more, hmore, hresult⟩ := ih.loop hmin hloop (hleft.binary op hguarded hreturned)
      (guarded_of_level (by cases op <;> nofun))
    refine ⟨0 :: rightDepths ++ more, (Consumes.operator rfl hconsumes hoperator).trans hmore, ?_⟩
    rwa [List.append_assoc] at hresult

/-- What an expression starts with: a NOT and its operand, or a prefix
    expression from which the loop goes on. -/
theorem parseExpression_cases {fuel : Nat} {minPrecedence : Int} {e : Expression}
    {s s' : ParserState} (h : parseExpression (fuel + 1) minPrecedence s = .ok (e, s')) :
    (∃ token operand s₁, token.type = .not ∧ s.rest = token :: s₁.rest ∧ e = .unary .not operand
        ∧ parseExpression fuel kNotPrecedence s₁ = .ok (operand, s'))
      ∨ ∃ left s₁, parsePrefixExpression fuel s = .ok (left, s₁)
        ∧ parseBinaryLoop fuel minPrecedence left s₁ = .ok (e, s') := by
  obtain ⟨isNot, s₁, hmatch, hrun⟩ := parser_bind_ok_iff.mp h
  cases isNot with
  | true =>
      obtain ⟨token, htype, hrest, -⟩ : ∃ token, token.type = .not ∧ s.rest = token :: s₁.rest
          ∧ s₁.consumed = token :: s.consumed := by
        rw [matchNot] at hmatch
        split at hmatch
        · exact matchToken_true hmatch (by decide)
        · cases hmatch
      obtain ⟨operand, s₂, hoperand, hrun⟩ := parser_bind_ok_iff.mp hrun
      cases hrun
      exact .inl ⟨token, operand, s₁, htype, hrest, rfl, hoperand⟩
  | false =>
      obtain rfl : s₁ = s := by
        rw [matchNot] at hmatch
        split at hmatch
        · exact matchToken_false hmatch (by decide)
        · cases hmatch
          rfl
      obtain ⟨left, s₂, hleft, hloop⟩ := parser_bind_ok_iff.mp hrun
      exact .inr ⟨left, s₂, hleft, hloop⟩

theorem sound_expression {fuel : Nat} (ih : Sound fuel) {minPrecedence : Int} {e : Expression}
    {s s' : ParserState} (hmin : 0 ≤ minPrecedence)
    (h : parseExpression (fuel + 1) minPrecedence s = .ok (e, s')) :
    ∃ depths, Consumes s s' depths ∧ Returned e depths := by
  rcases parseExpression_cases h with ⟨token, operand, s₁, htype, hrest, rfl, hoperand⟩
    | ⟨left, s₁, hleft, hloop⟩
  · obtain ⟨depths, hconsumes, hreturned⟩ := ih.expression (by decide) hoperand
    exact ⟨0 :: depths, .operator hrest hconsumes (by rw [htype]; rfl), hreturned.unary .not⟩
  · obtain ⟨depths, hconsumes, hreturned, hguarded⟩ := ih.signed hleft
    obtain ⟨more, hmore, hresult⟩ := ih.loop hmin hloop hreturned hguarded
    exact ⟨depths ++ more, hconsumes.trans hmore, hresult⟩

/-- **WHAT THE PARSER RETURNS** comes from tokens with the operators at depths
    that `Returned` allows.  The induction is on the fuel, for the four
    functions at once. -/
theorem sound (fuel : Nat) : Sound fuel := by
  induction fuel with
  | zero =>
      exact ⟨fun _ h => (nomatch h), fun _ h => (nomatch h), fun h => (nomatch h),
        fun h => (nomatch h)⟩
  | succ fuel ih =>
      exact ⟨sound_expression ih, sound_loop ih, sound_signed ih, sound_primary ih⟩

/-! ## Depths decide -/

/-- As many depths as the printed expression has. -/
theorem Returned.length {e : Expression} {depths : List Nat} (h : Returned e depths)
    (hprintable : e.Printable) : depths.length = e.printDepths.length := by
  induction h with
  | unprintable h depths => exact absurd hprintable h
  | @leaf e h =>
      cases e with
      | unary op operand => cases op <;> cases h
      | binary left op right => cases op <;> cases h
      | _ => rfl
  | unary op h ih =>
      rw [Expression.printDepths, List.length_cons, List.length_cons, depthsAt_length,
        ih hprintable]
  | binary op hleft hguarded hright ihLeft ihRight =>
      rw [Expression.printDepths, List.length_append, List.length_append, List.length_cons,
        List.length_cons, depthsAt_length, depthsAt_length, ihLeft hprintable.1,
        ihRight hprintable.2]
  | parens h ih => rw [List.length_map, ih hprintable]

theorem map_add_map_add (depths : List Nat) (n : Nat) :
    (depths.map (· + n)).map (· + 1) = depths.map (· + (n + 1)) := by
  rw [List.map_map]
  rfl

theorem Returned.unary_inv {op : UnaryOperator} {operand : Expression} {depths : List Nat}
    (h : Returned (.unary op operand) depths) (hprintable : operand.Printable) :
    ∃ n inner, depths = (0 :: inner).map (· + n) ∧ Returned operand inner := by
  generalize he : Expression.unary op operand = e at h
  induction h with
  | unprintable h depths =>
      subst he
      exact absurd hprintable h
  | leaf h =>
      subst he
      cases op <;> cases h
  | unary op h =>
      cases he
      exact ⟨0, _, by simp, h⟩
  | binary op hleft hguarded hright => cases he
  | parens h ih =>
      obtain ⟨n, inner, rfl, hinner⟩ := ih he
      exact ⟨n + 1, inner, map_add_map_add _ n, hinner⟩

theorem Returned.binary_inv {op : BinaryOperator} {left right : Expression} {depths : List Nat}
    (h : Returned (.binary left op right) depths)
    (hprintable : left.Printable ∧ right.Printable) :
    ∃ n leftDepths rightDepths, depths = (leftDepths ++ 0 :: rightDepths).map (· + n)
      ∧ Returned left leftDepths ∧ Guarded left leftDepths ∧ Returned right rightDepths := by
  generalize he : Expression.binary left op right = e at h
  induction h with
  | unprintable h depths =>
      subst he
      exact absurd hprintable h
  | leaf h =>
      subst he
      cases op <;> cases h
  | unary op h => cases he
  | binary op hleft hguarded hright =>
      cases he
      exact ⟨0, _, _, by simp, hleft, hguarded, hright⟩
  | parens h ih =>
      obtain ⟨n, leftDepths, rightDepths, rfl, hleft, hguarded, hright⟩ := ih he
      exact ⟨n + 1, leftDepths, rightDepths, map_add_map_add _ n, hleft, hguarded, hright⟩

theorem map_add_injective {n : Nat} {depths depths' : List Nat}
    (h : depths.map (· + n) = depths'.map (· + n)) : depths = depths' :=
  List.map_injective_iff.mpr (fun _ _ heq => Nat.add_right_cancel heq) h

/-- **NO NOT IS LEFT.**  An expression that is returned from the depths of its
    print has no NOT as the left operand of an AND or OR: there the print has no
    parentheses, and the parser asks for them. -/
theorem Returned.noLeftNot {e : Expression} (hprintable : e.Printable) {n : Nat}
    (h : Returned e (e.printDepths.map (· + n))) : e.NoLeftNot := by
  induction e generalizing n with
  | unary op operand ih =>
      obtain ⟨m, inner, hdepths, hinner⟩ := h.unary_inv hprintable
      rw [Expression.printDepths, List.map_cons, List.map_cons] at hdepths
      obtain ⟨hhead, htail⟩ := List.cons.inj hdepths
      obtain rfl : n = m := Nat.add_left_cancel hhead
      obtain ⟨k, hk⟩ := depthsAt_eq_map op.level operand operand.printDepths
      rw [← map_add_injective htail, hk] at hinner
      exact ih hprintable hinner
  | binary left op right ihLeft ihRight =>
      obtain ⟨m, leftDepths, rightDepths, hdepths, hleft, hguarded, hright⟩ :=
        h.binary_inv hprintable
      -- the lengths agree, so the depths split at the operator
      have hlength : ((depthsAt op.level left left.printDepths).map (· + n)).length
          = (leftDepths.map (· + m)).length := by
        rw [List.length_map, List.length_map, depthsAt_length, hleft.length hprintable.1]
      rw [Expression.printDepths, List.map_append, List.map_append, List.map_cons,
        List.map_cons] at hdepths
      obtain ⟨hleftDepths, htail⟩ := List.append_inj hdepths hlength
      obtain ⟨hhead, hrightDepths⟩ := List.cons.inj htail
      obtain rfl : n = m := Nat.add_left_cancel hhead
      have hleftEq := map_add_injective hleftDepths
      obtain ⟨k, hk⟩ := depthsAt_eq_map op.level left left.printDepths
      obtain ⟨l, hl⟩ := depthsAt_eq_map (op.level + 1) right right.printDepths
      refine ⟨fun hop operand heq => ?_, ihLeft hprintable.1 (hk ▸ hleftEq ▸ hleft),
        ihRight hprintable.2 (hl ▸ map_add_injective hrightDepths ▸ hright)⟩
      refine hguarded operand heq ?_
      have hlevel : ¬left.level < op.level := by
        have hle := BinaryOperator.level_le_three_iff.mpr hop
        rw [Expression.level_eq_three_iff.mpr ⟨operand, heq⟩]
        omega
      rw [← hleftEq, depthsAt, if_neg hlevel, heq]
      rfl
  | _ => trivial

/-! ## The printed SELECT -/

/-- No printed token ends a projection or the statement. -/
theorem PrintedKind.type_notMem {kind : TokenKind} (h : PrintedKind kind) :
    kind.1 ∉ clauseTypes ∧ kind.1 ≠ .endOfFile := by
  cases h with
  | integer h => exact ⟨of_decide_eq_true rfl, nofun⟩
  | string s => exact ⟨of_decide_eq_true rfl, nofun⟩
  | name h => exact ⟨of_decide_eq_true rfl, nofun⟩
  | constant h =>
      simp only [List.mem_cons, List.not_mem_nil, or_false] at h
      rcases h with rfl | rfl | rfl <;> decide
  | unary op => cases op <;> decide
  | binary op => cases op <;> decide
  | punctuation h =>
      simp only [List.mem_cons, List.not_mem_nil, or_false] at h
      rcases h with rfl | rfl | rfl <;> decide

/-- A SELECT of one projection starts with parsing that projection. -/
theorem parseStatement_projection {fuel : Nat} {keyword : Token} {tokens : List Token}
    {statement : Statement} {s : ParserState} (hkeyword : keyword.type = .select)
    (h : parseStatement (fuel + 1) ⟨[], keyword :: tokens⟩ = .ok (statement, s)) :
    ∃ e consumed next rest,
      parseExpression fuel 0 ⟨[keyword], tokens⟩ = .ok (e, ⟨consumed, next :: rest⟩) := by
  obtain ⟨body, s₁, hbody, -⟩ := parser_bind_ok_iff.mp h
  rw [parseStatementBody, parser_bind_eq (matchToken_hit hkeyword (by decide)), if_pos rfl] at hbody
  obtain ⟨projections, s₂, hlist, -⟩ := parser_bind_ok_iff.mp hbody
  obtain ⟨e, ⟨consumed, rest⟩, hparse, hmore⟩ := parser_bind_ok_iff.mp hlist
  obtain ⟨aliasName, s₃, halias, -⟩ := parser_bind_ok_iff.mp hmore
  cases rest with
  | nil => cases halias
  | cons next rest => exact ⟨e, consumed, next, rest, hparse⟩

/-- A printed SELECT that is parsed as itself has no NOT as the left operand of
    an AND or OR. -/
theorem noLeftNot_of_parseTokens {e : Expression} (hprintable : e.Printable)
    {tokens : List Token}
    (hkinds : tokens.map Token.kind
      = (.select, ascii "SELECT") :: e.print ++ [(.endOfFile, [])])
    {projection : SelectProjection} {tableName : Bytes} {predicate : Option Expression}
    (h : parseTokens tokens = .ok (.select [projection] tableName predicate))
    (he : projection.expression = e) : e.NoLeftNot := by
  obtain ⟨keyword, printed, last, rfl, hkeyword, hprinted, hlast⟩ := selectTokens_cases hkinds
  rw [parseTokens_selectTokens hlast] at h
  obtain ⟨s, hstatement⟩ : ∃ s, parseStatement (4 * (printed.length + 2) + 3 + 1)
      ⟨[], keyword :: (printed ++ [last])⟩
        = .ok (.select [projection] tableName predicate, s) := by
    cases hrun : parseStatement (4 * (printed.length + 2) + 3 + 1)
        ⟨[], keyword :: (printed ++ [last])⟩ with
    | error thrown =>
        rw [hrun] at h
        cases h
    | ok result =>
        obtain ⟨statement, s⟩ := result
        rw [hrun] at h
        cases h
        exact ⟨s, rfl⟩
  obtain ⟨e', consumed, next, rest, hparse⟩ := parseStatement_projection hkeyword hstatement
  obtain ⟨depths, ⟨read, hread, hdepths⟩, hreturned⟩ := (sound _).expression (Int.le_refl 0) hparse
  have hread : printed ++ [last] = read ++ next :: rest := hread
  have hnext : next.type ∉ clauseTypes ∧ (next ∈ printed → next.type ≠ .endOfFile) := by
    have hprintedKinds : ∀ token ∈ printed, PrintedKind token.kind := fun token hmem =>
      e.print_printed hprintable _ (hprinted ▸ List.mem_map_of_mem hmem)
    refine ⟨?_, fun hmem => (hprintedKinds next hmem).type_notMem.2⟩
    have hmem : next ∈ printed ++ [last] := hread ▸ List.mem_append_right _ List.mem_cons_self
    rcases List.mem_append.mp hmem with hmem | hmem
    · exact (hprintedKinds next hmem).type_notMem.1
    · rw [List.mem_singleton.mp hmem, hlast]
      decide
  -- the statement ends there, so the projection took every printed token
  rw [parseStatement_select hkeyword hparse hnext.1] at hstatement
  split at hstatement
  · cases hstatement
  · rename_i hend
    cases hstatement
    obtain rfl : e' = e := he
    have hrest : rest = [] := by
      rcases List.eq_nil_or_concat' rest with hnil | ⟨init, final, rfl⟩
      · exact hnil
      · rw [← List.cons_append, ← List.append_assoc] at hread
        have hinit := (List.append_inj' hread rfl).1
        have hmem : next ∈ printed := hinit ▸ List.mem_append_right _ List.mem_cons_self
        exact absurd (not_not.mp hend) (hnext.2 hmem)
    subst hrest
    have hall : printed = read := (List.append_inj' hread rfl).1
    rw [← hall, hprinted] at hdepths
    rw [hdepths.unique (e'.print_hasDepths hprintable)] at hreturned
    refine Returned.noLeftNot hprintable (n := 0) ?_
    simpa using hreturned

/-- The expression of the only projection. -/
def onlyProjection : Except Thrown Statement → Option Expression
  | .ok (.select [projection] _ _) => some projection.expression
  | _ => none

theorem onlyProjection_eq_some {result : Except Thrown Statement} {e : Expression} :
    onlyProjection result = some e
      ↔ ∃ projection tableName predicate,
          result = .ok (.select [projection] tableName predicate) ∧ projection.expression = e := by
  constructor
  · intro h
    unfold onlyProjection at h
    split at h
    · rename_i projection tableName predicate
      exact ⟨projection, tableName, predicate, rfl, Option.some.inj h⟩
    · cases h
  · rintro ⟨projection, tableName, predicate, rfl, rfl⟩
    rfl

/-- **PRINTING AND PARSING.**  `SELECT` and a printed expression is read back as
    the expression exactly when no AND or OR in it has a NOT as its left
    operand: `ParseExpression` returns after a NOT without the binary loop. -/
theorem parse_print_iff {e : Expression} (h : e.Printable) :
    onlyProjection (tokenize (selectText e) >>= parseTokens) = some e ↔ e.NoLeftNot := by
  obtain ⟨tokens, htokenize, hkinds⟩ := tokenize_selectText h
  have hrun : (tokenize (selectText e) >>= parseTokens) = parseTokens tokens := by
    rw [htokenize]
    rfl
  rw [hrun]
  constructor
  · intro hparse
    obtain ⟨projection, tableName, predicate, hresult, he⟩ := onlyProjection_eq_some.mp hparse
    exact noLeftNot_of_parseTokens h hkinds hresult he
  · intro hnot
    rw [parseTokens_printed h hnot hkinds]
    rfl

/-- `NOT` on the right of `AND`, over a comparison of a dotted name. -/
theorem parse_print_right_not :
    let e := Expression.binary (.booleanLiteral true) .and
      (.unary .not (.binary (.columnRef (ascii "t.a")) .less (.integerLiteral 2)))
    e.Printable ∧ onlyProjection (tokenize (selectText e) >>= parseTokens) = some e := by
  intro e
  have hprintable : e.Printable := by
    refine ⟨trivial, ?_, ?_⟩
    · show ∀ part ∈ (ascii "t.a").splitOn 46, IsIdentifier part
      decide
    · show (0 : Int64) ≤ 2
      decide
  exact ⟨hprintable,
    (parse_print_iff hprintable).mpr ⟨fun _ => nofun, trivial, nofun, trivial, trivial⟩⟩

/-- A `NOT` on the left of `AND`: what stands before it is taken into the left
    operand. -/
theorem parse_print_left_not :
    let e := Expression.binary (.booleanLiteral true) .or
      (.binary (.unary .not (.booleanLiteral true)) .and (.booleanLiteral false))
    e.Printable ∧ selectText e = ascii "SELECT TRUE OR NOT TRUE AND FALSE"
      ∧ onlyProjection (tokenize (selectText e) >>= parseTokens)
        = some (.binary
            (.binary (.booleanLiteral true) .or (.unary .not (.booleanLiteral true))) .and
            (.booleanLiteral false))
      ∧ onlyProjection (tokenize (selectText e) >>= parseTokens) ≠ some e := by
  intro e
  exact ⟨⟨trivial, trivial, trivial⟩, by decide +kernel⟩

end MattSql
