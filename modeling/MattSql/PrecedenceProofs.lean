import MattSql.PrintProofs

/-! # Precedence

    What the parser makes of printed expressions.  The binary loop climbs along
    the left operands, so a printed expression is read in one of three ways: as
    a prefix expression, as the left operand the loop goes on from, or as a
    whole up to a token that binds weaker.

    A NOT is read as a whole only: `ParseExpression` returns at once after its
    operand, and nothing goes on from there. -/

namespace MattSql

/-! ## Runs on a given next token -/

section Tokens

variable {token : Token} {consumed rest : List Token}

/-- A sequenced parser goes on from where its first part stops. -/
theorem parser_bind_eq {α β : Type} {m : ParserM α} {s t : ParserState} {a : α}
    (h : m s = .ok (a, t)) (f : α → ParserM β) : (m >>= f) s = f a t := by
  show (m s >>= fun r => f r.1 r.2) = _
  rw [h]
  rfl

/-- A sequenced parser fails with its first part. -/
theorem parser_bind_error {α β : Type} {m : ParserM α} {s : ParserState} {thrown : Thrown}
    (h : m s = .error thrown) (f : α → ParserM β) : (m >>= f) s = .error thrown := by
  show (m s >>= fun r => f r.1 r.2) = _
  rw [h]
  rfl

/-- A parser that returns at once, in a state that may be written differently. -/
theorem parser_pure_eq {α : Type} (a : α) {s s' : ParserState} (h : s = s') :
    (pure a : ParserM α) s = .ok (a, s') := by
  subst h
  rfl

theorem check_cons (type : TokenType) :
    check type ⟨consumed, token :: rest⟩
      = .ok (decide (token.type = type), ⟨consumed, token :: rest⟩) := rfl

theorem previous_cons (consumed rest : List Token) :
    previous ⟨token :: consumed, rest⟩ = .ok (token, ⟨token :: consumed, rest⟩) := rfl

theorem advance_cons (h : token.type ≠ .endOfFile) :
    advance ⟨consumed, token :: rest⟩ = .ok (token, ⟨token :: consumed, rest⟩) := by
  obtain ⟨type, lexeme, range⟩ := token
  cases type
  case endOfFile => exact absurd rfl h
  all_goals rfl

theorem matchToken_hit {type : TokenType} (h : token.type = type) (hne : type ≠ .endOfFile) :
    matchToken type ⟨consumed, token :: rest⟩ = .ok (true, ⟨token :: consumed, rest⟩) := by
  rw [matchToken, parser_bind_eq (check_cons type), if_pos (decide_eq_true h),
    parser_bind_eq (advance_cons (h ▸ hne))]
  rfl

theorem matchToken_miss {type : TokenType} (h : token.type ≠ type) :
    matchToken type ⟨consumed, token :: rest⟩ = .ok (false, ⟨consumed, token :: rest⟩) := by
  rw [matchToken, parser_bind_eq (check_cons type), if_neg (by simpa using h)]
  rfl

theorem consume_hit {type : TokenType} {message : Bytes} (h : token.type = type)
    (hne : type ≠ .endOfFile) :
    consume type message ⟨consumed, token :: rest⟩ = .ok (token, ⟨token :: consumed, rest⟩) := by
  rw [consume, parser_bind_eq (check_cons type), if_pos (decide_eq_true h),
    advance_cons (h ▸ hne)]

theorem consume_miss {type : TokenType} {message : Bytes} (h : token.type ≠ type) :
    consume type message ⟨consumed, token :: rest⟩
      = .error (.parseError message token.range.start) := by
  rw [consume, parser_bind_eq (check_cons type), if_neg (by simpa using h)]
  rfl

/-- A NOT that is not there, or may not stand here, is not taken. -/
theorem matchNot_miss {minPrecedence : Int} (h : minPrecedence ≤ 3 → token.type ≠ .not) :
    matchNot minPrecedence ⟨consumed, token :: rest⟩ = .ok (false, ⟨consumed, token :: rest⟩) := by
  rw [matchNot]
  split
  · rename_i hle
    exact matchToken_miss (h hle)
  · rfl

theorem parsePrefixExpression_primary {fuel : Nat} (h : token.type ≠ .plus ∧ token.type ≠ .minus) :
    parsePrefixExpression (fuel + 1) ⟨consumed, token :: rest⟩
      = parsePrimaryExpression fuel ⟨consumed, token :: rest⟩ := by
  have hsign : matchSign ⟨consumed, token :: rest⟩ = .ok (false, ⟨consumed, token :: rest⟩) := by
    rw [matchSign, parser_bind_eq (matchToken_miss h.1), if_neg nofun, matchToken_miss h.2]
  rw [parsePrefixExpression, parser_bind_eq hsign, if_neg nofun]

theorem parsePrimaryExpression_leftParen {fuel : Nat} (h : token.type = .leftParen) :
    parsePrimaryExpression (fuel + 1) ⟨consumed, token :: rest⟩
      = (parseExpression fuel 0 >>= fun expression =>
          consume .rightParen (ascii "expected ')' after expression") >>= fun _ =>
            pure expression) ⟨token :: consumed, rest⟩ := by
  obtain ⟨type, lexeme, range⟩ := token
  cases h
  rfl

theorem parsePrimaryExpression_identifier {fuel : Nat} (h : token.type = .identifier) :
    parsePrimaryExpression (fuel + 1) ⟨consumed, token :: rest⟩
      = (parseDottedName fuel token.lexeme >>= fun name => pure (.columnRef name))
        ⟨token :: consumed, rest⟩ := by
  obtain ⟨type, lexeme, range⟩ := token
  cases h
  rfl

theorem parsePrimaryExpression_integer {fuel : Nat} (h : token.type = .integer) {value : Int64}
    (hvalue : stoll token.lexeme = some value) :
    parsePrimaryExpression (fuel + 1) ⟨consumed, token :: rest⟩
      = .ok (.integerLiteral value, ⟨token :: consumed, rest⟩) := by
  rw [parsePrimaryExpression, parser_bind_eq (matchToken_hit h (by decide)), if_pos rfl,
    parser_bind_eq (previous_cons _ _), hvalue]
  rfl

theorem parsePrimaryExpression_string {fuel : Nat} (h : token.type = .string) {value : Bytes}
    (hvalue : unescapeSqlString token.lexeme = some value) :
    parsePrimaryExpression (fuel + 1) ⟨consumed, token :: rest⟩
      = .ok (.stringLiteral value, ⟨token :: consumed, rest⟩) := by
  rw [parsePrimaryExpression, parser_bind_eq (matchToken_miss (by rw [h]; decide)), if_neg nofun,
    parser_bind_eq (matchToken_hit h (by decide)), if_pos rfl,
    parser_bind_eq (previous_cons _ _), hvalue]
  rfl

end Tokens

/-! ## Three ways to read an expression -/

/-- Something follows, and it does not go on with a dotted name. -/
def Ends (rest : List Token) : Prop := ∃ token more, rest = token :: more ∧ token.type ≠ .dot

/-- The precedence of the next token. -/
def nextPrecedence (rest : List Token) : Int :=
  match rest with
  | token :: _ => getBinaryPrecedence token.type
  | [] => -1

/-- The tokens are read as one prefix expression. -/
def ReadsPrefix (e : Expression) (kinds : List TokenKind) : Prop :=
  ∀ (fuel : Nat) (tokens consumed rest : List Token), tokens.map Token.kind = kinds →
    Ends rest → 4 * kinds.length + 3 ≤ fuel →
    parsePrefixExpression fuel ⟨consumed, tokens ++ rest⟩
      = .ok (e, ⟨tokens.reverse ++ consumed, rest⟩)

/-- The tokens are read as the left operand from which the binary loop goes on. -/
def ReadsLeft (level : Nat) (e : Expression) (kinds : List TokenKind) : Prop :=
  ∀ (fuel : Nat) (minPrecedence : Int) (tokens consumed rest : List Token),
    tokens.map Token.kind = kinds → minPrecedence ≤ level → Ends rest →
    nextPrecedence rest ≤ level → 4 * kinds.length + 4 ≤ fuel →
    ∃ fuel', fuel ≤ fuel' + kinds.length
      ∧ parseExpression fuel minPrecedence ⟨consumed, tokens ++ rest⟩
        = parseBinaryLoop fuel' minPrecedence e ⟨tokens.reverse ++ consumed, rest⟩

/-- The tokens are read as a whole where the given level is asked for. -/
def ReadsWhole (level : Nat) (e : Expression) (kinds : List TokenKind) : Prop :=
  ∀ (fuel : Nat) (tokens consumed rest : List Token), tokens.map Token.kind = kinds →
    Ends rest → nextPrecedence rest < level → 4 * kinds.length + 4 ≤ fuel →
    parseExpression fuel level ⟨consumed, tokens ++ rest⟩
      = .ok (e, ⟨tokens.reverse ++ consumed, rest⟩)

/-- The loop stops at a token that binds weaker. -/
theorem parseBinaryLoop_stop {fuel : Nat} {minPrecedence : Int} {e : Expression}
    {consumed rest : List Token} (hfuel : 0 < fuel) (hends : Ends rest)
    (hprec : nextPrecedence rest < minPrecedence) :
    parseBinaryLoop fuel minPrecedence e ⟨consumed, rest⟩ = .ok (e, ⟨consumed, rest⟩) := by
  obtain ⟨fuel, rfl⟩ := Nat.exists_eq_add_one_of_ne_zero hfuel.ne'
  obtain ⟨token, more, rfl, -⟩ := hends
  have hprec : getBinaryPrecedence token.type < minPrecedence := hprec
  show (if getBinaryPrecedence token.type < minPrecedence then _ else _ : ParserM Expression) _ = _
  rw [if_pos hprec]
  rfl

/-- The loop goes on at an operator that binds as strong as is asked for. -/
theorem parseBinaryLoop_step {fuel : Nat} {minPrecedence : Int} {left : Expression}
    {op : BinaryOperator} {token : Token} {consumed rest : List Token}
    (hkind : token.kind = op.kind) (hprec : minPrecedence ≤ op.level) :
    parseBinaryLoop (fuel + 1) minPrecedence left ⟨consumed, token :: rest⟩
      = (parseExpression fuel (op.level + 1 : Nat)
          >>= fun right => parseBinaryLoop fuel minPrecedence (.binary left op right))
        ⟨token :: consumed, rest⟩ := by
  obtain ⟨type, lexeme, range⟩ := token
  obtain rfl : type = op.kind.1 := congrArg Prod.fst hkind
  have hlevel : getBinaryPrecedence op.kind.1 = op.level := by cases op <;> rfl
  show (if getBinaryPrecedence op.kind.1 < minPrecedence then _ else _ : ParserM Expression) _ = _
  rw [if_neg (by rw [hlevel]; exact Int.not_lt.mpr hprec)]
  cases op <;> rfl

/-- A left operand is a whole when nothing stronger follows. -/
theorem ReadsLeft.whole {bound level : Nat} {e : Expression} {kinds : List TokenKind}
    (h : ReadsLeft bound e kinds) (hlevel : level ≤ bound) : ReadsWhole level e kinds := by
  intro fuel tokens consumed rest hkinds hends hprec hfuel
  have hle : (level : Int) ≤ bound := Int.ofNat_le.mpr hlevel
  obtain ⟨fuel', hfuel', heq⟩ :=
    h fuel level tokens consumed rest hkinds hle hends (by omega) hfuel
  rw [heq]
  exact parseBinaryLoop_stop (by omega) hends hprec

/-- A prefix expression is a left operand at every level. -/
theorem ReadsPrefix.left {e : Expression} {kind : TokenKind} {kinds : List TokenKind}
    (h : ReadsPrefix e (kind :: kinds)) (hnot : kind.1 ≠ .not) (level : Nat) :
    ReadsLeft level e (kind :: kinds) := by
  intro fuel minPrecedence tokens consumed rest hkinds _ hends _ hfuel
  rw [List.length_cons] at hfuel ⊢
  obtain ⟨fuel, rfl⟩ : ∃ n, fuel = n + 1 := ⟨fuel - 1, by omega⟩
  refine ⟨fuel, by omega, ?_⟩
  have hprefix := h fuel tokens consumed rest hkinds hends (by rw [List.length_cons]; omega)
  obtain ⟨token, tokens, rfl⟩ : ∃ token more, tokens = token :: more := by
    cases tokens with
    | nil => exact nomatch hkinds
    | cons token more => exact ⟨token, more, rfl⟩
  have htoken : token.type = kind.1 := congrArg Prod.fst (List.cons.inj hkinds).1
  rw [parseExpression, List.cons_append,
    parser_bind_eq (matchNot_miss fun _ => by rw [htoken]; exact hnot), if_neg nofun]
  exact parser_bind_eq hprefix _

/-- A whole in parentheses is a prefix expression. -/
theorem ReadsWhole.parens {e : Expression} {kinds : List TokenKind} (h : ReadsWhole 0 e kinds) :
    ReadsPrefix e (leftParenKind :: kinds ++ [rightParenKind]) := by
  intro fuel tokens consumed rest hkinds hends hfuel
  obtain ⟨opening, inner, rfl, hopening, hinner⟩ := List.map_eq_cons_iff.mp hkinds
  obtain ⟨inside, tail, rfl, hinside, htail⟩ := List.map_eq_append_iff.mp hinner
  obtain ⟨closing, none, rfl, hclosing, hnone⟩ := List.map_eq_cons_iff.mp htail
  obtain rfl : none = [] := List.map_eq_nil_iff.mp hnone
  have hopening : opening.type = .leftParen := congrArg Prod.fst hopening
  have hclosing : closing.type = .rightParen := congrArg Prod.fst hclosing
  simp only [List.length_cons, List.length_append, List.length_nil] at hfuel
  obtain ⟨fuel, rfl⟩ : ∃ n, fuel = n + 2 := ⟨fuel - 2, by omega⟩
  have hwhole := h fuel inside (opening :: consumed) (closing :: rest) hinside
    ⟨_, _, rfl, by rw [hclosing]; decide⟩
    (by rw [nextPrecedence, hclosing]; decide) (by omega)
  rw [show (opening :: (inside ++ [closing])) ++ rest = opening :: (inside ++ closing :: rest) by
      simp,
    parsePrefixExpression_primary (by rw [hopening]; decide),
    parsePrimaryExpression_leftParen hopening]
  refine (parser_bind_eq hwhole _).trans ?_
  rw [parser_bind_eq (consume_hit hclosing nofun)]
  exact parser_pure_eq _ (by simp)

/-- The dots of a name and the parts behind them. -/
theorem parseDottedName_parts {parts : List Bytes} {fuel : Nat} (hfuel : parts.length < fuel)
    {name : Bytes} {tokens consumed rest : List Token}
    (hkinds : tokens.map Token.kind
      = parts.flatMap fun part => [(.dot, ascii "."), (.identifier, part)])
    (hends : Ends rest) :
    parseDottedName fuel name ⟨consumed, tokens ++ rest⟩
      = .ok (name ++ parts.flatMap (fun part => 46 :: part), ⟨tokens.reverse ++ consumed, rest⟩) := by
  induction parts generalizing fuel name tokens consumed with
  | nil =>
      obtain ⟨fuel, rfl⟩ : ∃ n, fuel = n + 1 := ⟨fuel - 1, by omega⟩
      obtain rfl : tokens = [] := List.map_eq_nil_iff.mp hkinds
      obtain ⟨token, more, rfl, hdot⟩ := hends
      rw [parseDottedName, List.nil_append, parser_bind_eq (matchToken_miss hdot),
        if_neg Bool.false_ne_true, List.flatMap_nil, List.append_nil]
      rfl
  | cons part parts ih =>
      obtain ⟨fuel, rfl⟩ : ∃ n, fuel = n + 1 := ⟨fuel - 1, by omega⟩
      obtain ⟨dot, tail, rfl, hdot, htail⟩ := List.map_eq_cons_iff.mp hkinds
      obtain ⟨identifier, tokens, rfl, hidentifier, hkinds⟩ := List.map_eq_cons_iff.mp htail
      have hdot : dot.type = .dot := congrArg Prod.fst hdot
      have htype : identifier.type = .identifier := congrArg Prod.fst hidentifier
      have hlexeme : identifier.lexeme = part := congrArg Prod.snd hidentifier
      rw [parseDottedName, List.cons_append, parser_bind_eq (matchToken_hit hdot (by decide)),
        if_pos rfl, List.cons_append, parser_bind_eq (consume_hit htype (by decide)), hlexeme,
        ih (Nat.lt_of_succ_lt_succ hfuel) hkinds]
      have htext : ascii "." = [46] := by decide
      simp [htext]

/-- A literal that is one token. -/
theorem readsPrefix_token {e : Expression} {kind : TokenKind}
    (hsign : kind.1 ≠ .plus ∧ kind.1 ≠ .minus)
    (h : ∀ (fuel : Nat) (token : Token) (consumed rest : List Token), token.kind = kind →
      parsePrimaryExpression (fuel + 1) ⟨consumed, token :: rest⟩
        = .ok (e, ⟨token :: consumed, rest⟩)) : ReadsPrefix e [kind] := by
  intro fuel tokens consumed rest hkinds _ hfuel
  obtain ⟨token, none, rfl, hkind, hnone⟩ := List.map_eq_cons_iff.mp hkinds
  obtain rfl : none = [] := List.map_eq_nil_iff.mp hnone
  obtain ⟨fuel, rfl⟩ : ∃ n, fuel = n + 2 := ⟨fuel - 2, by simp at hfuel; omega⟩
  have htype : token.type = kind.1 := congrArg Prod.fst hkind
  rw [List.cons_append, parsePrefixExpression_primary (htype ▸ hsign), h _ _ _ _ hkind]
  rfl

theorem readsPrefix_integer {value : Int64} (h : 0 ≤ value) :
    ReadsPrefix (.integerLiteral value) (Expression.integerLiteral value).print := by
  have hvalue : stoll (decimalDigits value.toInt.toNat) = some value := by
    have hlt := Int64.toInt_lt value
    have hle : 0 ≤ value.toInt := by simpa [Int64.le_iff_toInt_le] using h
    rw [stoll_decimalDigits (by omega), Int.toNat_of_nonneg hle, Int64.ofInt_toInt]
  refine readsPrefix_token ⟨nofun, nofun⟩ fun fuel token consumed rest hkind => ?_
  refine parsePrimaryExpression_integer (congrArg Prod.fst hkind) ?_
  rw [show token.lexeme = _ from congrArg Prod.snd hkind]
  exact hvalue

theorem readsPrefix_string (value : Bytes) :
    ReadsPrefix (.stringLiteral value) (Expression.stringLiteral value).print := by
  refine readsPrefix_token ⟨nofun, nofun⟩ fun fuel token consumed rest hkind => ?_
  refine parsePrimaryExpression_string (congrArg Prod.fst hkind) ?_
  rw [show token.lexeme = _ from congrArg Prod.snd hkind]
  exact unescapeSqlString_quoteSqlString value

theorem readsPrefix_boolean (value : Bool) :
    ReadsPrefix (.booleanLiteral value) (Expression.booleanLiteral value).print := by
  cases value with
  | true =>
      refine readsPrefix_token ⟨nofun, nofun⟩ fun fuel token consumed rest hkind => ?_
      obtain ⟨type, lexeme, range⟩ := token
      obtain rfl : type = .true := congrArg Prod.fst hkind
      rfl
  | false =>
      refine readsPrefix_token ⟨nofun, nofun⟩ fun fuel token consumed rest hkind => ?_
      obtain ⟨type, lexeme, range⟩ := token
      obtain rfl : type = .false := congrArg Prod.fst hkind
      rfl

theorem readsPrefix_null : ReadsPrefix .nullLiteral Expression.nullLiteral.print := by
  refine readsPrefix_token ⟨nofun, nofun⟩ fun fuel token consumed rest hkind => ?_
  obtain ⟨type, lexeme, range⟩ := token
  obtain rfl : type = .null := congrArg Prod.fst hkind
  rfl

theorem readsPrefix_columnRef (name : Bytes) :
    ReadsPrefix (.columnRef name) (Expression.columnRef name).print := by
  intro fuel tokens consumed rest hkinds hends hfuel
  obtain ⟨part, parts, hparts⟩ := List.exists_cons_of_ne_nil (List.splitOn_ne_nil 46 name)
  have hname : part ++ parts.flatMap (fun part => 46 :: part) = name := by
    rw [← intercalate_cons_flatMap, ← hparts, List.intercalate_splitOn]
  rw [Expression.print, hparts] at hkinds hfuel
  obtain ⟨token, tokens, rfl, hkind, hkinds⟩ := List.map_eq_cons_iff.mp hkinds
  have htype : token.type = .identifier := congrArg Prod.fst hkind
  have hlexeme : token.lexeme = part := congrArg Prod.snd hkind
  have hlength : parts.length + 2 < fuel := by
    simp only [nameKinds, List.length_cons, List.length_flatMap, List.length_nil] at hfuel
    simp at hfuel
    omega
  obtain ⟨fuel, rfl⟩ : ∃ n, fuel = n + 2 := ⟨fuel - 2, by omega⟩
  rw [List.cons_append, parsePrefixExpression_primary (by rw [htype]; decide),
    parsePrimaryExpression_identifier htype,
    parser_bind_eq (parseDottedName_parts (by omega) hkinds hends), hlexeme, hname]
  exact parser_pure_eq _ (by simp)

/-! ## Operators -/

/-- A sign in front of something that is no part of the smallest integer. -/
theorem parsePrefixExpression_sign {fuel : Nat} {op : UnaryOperator} {token next : Token}
    {consumed rest : List Token} (hop : op ≠ .not) (hkind : token.kind = op.kind)
    (hnext : ¬(next.type = .integer ∧ next.lexeme = ascii "9223372036854775808")) :
    parsePrefixExpression (fuel + 1) ⟨consumed, token :: next :: rest⟩
      = (parsePrefixExpression fuel >>= fun operand => pure (.unary op operand))
        ⟨token :: consumed, next :: rest⟩ := by
  obtain ⟨type, lexeme, range⟩ := token
  obtain rfl : type = op.kind.1 := congrArg Prod.fst hkind
  have hguard : ¬(op.kind.1 = .minus ∧ next.type = .integer
      ∧ next.lexeme = ascii "9223372036854775808") := fun h => hnext h.2
  have hsign : matchSign ⟨consumed, ⟨op.kind.1, lexeme, range⟩ :: next :: rest⟩
      = .ok (true, ⟨⟨op.kind.1, lexeme, range⟩ :: consumed, next :: rest⟩) := by
    cases op with
    | not => exact absurd rfl hop
    | plus => rfl
    | minus => rfl
  rw [parsePrefixExpression, parser_bind_eq hsign, if_pos rfl, parser_bind_eq rfl,
    parser_bind_eq rfl, if_neg hguard]
  cases op <;> rfl

theorem ReadsPrefix.sign {op : UnaryOperator} {e : Expression} {kind : TokenKind}
    {kinds : List TokenKind} (h : ReadsPrefix e (kind :: kinds)) (hop : op ≠ .not)
    (hkind : ¬(kind.1 = .integer ∧ kind.2 = ascii "9223372036854775808")) :
    ReadsPrefix (.unary op e) (op.kind :: kind :: kinds) := by
  intro fuel tokens consumed rest hkinds hends hfuel
  obtain ⟨sign, tokens, rfl, hsign, hkinds⟩ := List.map_eq_cons_iff.mp hkinds
  obtain ⟨fuel, rfl⟩ : ∃ n, fuel = n + 1 := ⟨fuel - 1, by omega⟩
  have hoperand := h fuel tokens (sign :: consumed) rest hkinds hends
    (by simp only [List.length_cons] at hfuel ⊢; omega)
  obtain ⟨next, tokens, rfl, hnext, -⟩ := List.map_eq_cons_iff.mp hkinds
  have hguard : ¬(next.type = .integer ∧ next.lexeme = ascii "9223372036854775808") := by
    rw [← hnext] at hkind
    exact hkind
  rw [List.cons_append, List.cons_append, parsePrefixExpression_sign hop hsign hguard]
  refine (parser_bind_eq hoperand _).trans ?_
  exact parser_pure_eq _ (by simp)

/-- A NOT and its operand, where a NOT may stand. -/
theorem ReadsWhole.not {e : Expression} {kinds : List TokenKind} (h : ReadsWhole 3 e kinds)
    {level : Nat} (hlevel : level ≤ 3) :
    ReadsWhole level (.unary .not e) (UnaryOperator.not.kind :: kinds) := by
  intro fuel tokens consumed rest hkinds hends hprec hfuel
  obtain ⟨token, tokens, rfl, hkind, hkinds⟩ := List.map_eq_cons_iff.mp hkinds
  have htype : token.type = .not := congrArg Prod.fst hkind
  obtain ⟨fuel, rfl⟩ : ∃ n, fuel = n + 1 := ⟨fuel - 1, by omega⟩
  have hoperand := h fuel tokens (token :: consumed) rest hkinds hends (by omega)
    (by simp only [List.length_cons] at hfuel; omega)
  have hnot : matchNot level ⟨consumed, token :: (tokens ++ rest)⟩
      = .ok (true, ⟨token :: consumed, tokens ++ rest⟩) := by
    have hle : (level : Int) ≤ kNotPrecedence := Int.ofNat_le.mpr hlevel
    rw [matchNot, if_pos hle, matchToken_hit htype nofun]
  rw [parseExpression, List.cons_append, parser_bind_eq hnot, if_pos rfl]
  refine (parser_bind_eq hoperand _).trans ?_
  exact parser_pure_eq _ (by simp)

/-- The loop takes the operator after a left operand and reads the right one as
    a whole at the next level. -/
theorem ReadsLeft.binary {bound : Nat} {left right : Expression} {op : BinaryOperator}
    {leftKinds rightKinds : List TokenKind} (hleft : ReadsLeft bound left leftKinds)
    (hbound : op.level ≤ bound) (hright : ReadsWhole (op.level + 1) right rightKinds) :
    ReadsLeft op.level (.binary left op right) (leftKinds ++ op.kind :: rightKinds) := by
  intro fuel minPrecedence tokens consumed rest hkinds hmin hends hprec hfuel
  obtain ⟨leftTokens, tail, rfl, hleftKinds, htail⟩ := List.map_eq_append_iff.mp hkinds
  obtain ⟨token, rightTokens, rfl, htoken, hrightKinds⟩ := List.map_eq_cons_iff.mp htail
  have htype : token.type = op.kind.1 := congrArg Prod.fst htoken
  have hnext : Ends (token :: (rightTokens ++ rest)) :=
    ⟨_, _, rfl, by rw [htype]; cases op <;> exact nofun⟩
  have hlevel : nextPrecedence (token :: (rightTokens ++ rest)) = op.level := by
    rw [nextPrecedence, htype]
    cases op <;> rfl
  have hle : (op.level : Int) ≤ bound := Int.ofNat_le.mpr hbound
  rw [List.length_append, List.length_cons] at hfuel
  obtain ⟨fuel₁, hfuel₁, hloop⟩ := hleft fuel minPrecedence leftTokens consumed
    (token :: (rightTokens ++ rest)) hleftKinds (by omega) hnext (by omega) (by omega)
  obtain ⟨fuel₂, rfl⟩ : ∃ n, fuel₁ = n + 1 := ⟨fuel₁ - 1, by omega⟩
  have hwhole := hright fuel₂ rightTokens (token :: (leftTokens.reverse ++ consumed)) rest
    hrightKinds hends (by push_cast; omega) (by omega)
  refine ⟨fuel₂, by rw [List.length_append, List.length_cons]; omega, ?_⟩
  rw [List.append_assoc, List.cons_append, hloop, parseBinaryLoop_step htoken hmin,
    parser_bind_eq hwhole]
  simp

/-! ## Printed expressions -/

/-- A printed expression without parentheses around it. -/
structure ReadsBack (e : Expression) : Prop where
  /-- as a whole, where a level up to its own is asked for -/
  whole : ∀ level ≤ e.level, ReadsWhole level e e.print
  /-- as a left operand, unless it is a NOT -/
  left : e.level ≠ 3 → ReadsLeft e.level e e.print
  /-- as a prefix expression, when no binary operator is outermost -/
  signed : 7 ≤ e.level → ReadsPrefix e e.print

theorem atLevel_parens {level : Nat} {e : Expression} (h : e.level < level) :
    atLevel level e e.print = leftParenKind :: e.print ++ [rightParenKind] := if_pos h

theorem atLevel_bare {level : Nat} {e : Expression} (h : level ≤ e.level) :
    atLevel level e e.print = e.print := if_neg (Nat.not_lt.mpr h)

/-- In parentheses, if need be, as a prefix expression. -/
theorem ReadsBack.operandPrefix {e : Expression} (h : ReadsBack e) :
    ReadsPrefix e (atLevel 7 e e.print) := by
  by_cases hlevel : e.level < 7
  · rw [atLevel_parens hlevel]
    exact (h.whole 0 (Nat.zero_le _)).parens
  · rw [atLevel_bare (Nat.le_of_not_lt hlevel)]
    exact h.signed (Nat.le_of_not_lt hlevel)

/-- In parentheses, if need be, as a left operand. -/
theorem ReadsBack.operandLeft {e : Expression} (h : ReadsBack e) {level : Nat}
    (hnot : e.level = 3 → 3 < level) :
    ∃ bound, level ≤ bound ∧ ReadsLeft bound e (atLevel level e e.print) := by
  by_cases hlevel : e.level < level
  · rw [atLevel_parens hlevel]
    exact ⟨level, Nat.le_refl _, (h.whole 0 (Nat.zero_le _)).parens.left nofun level⟩
  · rw [atLevel_bare (Nat.le_of_not_lt hlevel)]
    refine ⟨e.level, Nat.le_of_not_lt hlevel, h.left fun heq => ?_⟩
    have hlt := hnot heq
    omega

/-- In parentheses, if need be, as a whole. -/
theorem ReadsBack.operandWhole {e : Expression} (h : ReadsBack e) (level : Nat) :
    ReadsWhole level e (atLevel level e e.print) := by
  by_cases hlevel : e.level < level
  · rw [atLevel_parens hlevel]
    exact ((h.whole 0 (Nat.zero_le _)).parens.left nofun level).whole (Nat.le_refl _)
  · rw [atLevel_bare (Nat.le_of_not_lt hlevel)]
    exact h.whole level (Nat.le_of_not_lt hlevel)

/-- A prefix expression that starts with no NOT is read back. -/
theorem readsBack_of_prefix {e : Expression} {kind : TokenKind} {kinds : List TokenKind}
    (hprint : e.print = kind :: kinds) (hnot : kind.1 ≠ .not) (h : ReadsPrefix e e.print) :
    ReadsBack e := by
  have hleft : ReadsLeft e.level e e.print := by
    rw [hprint] at h ⊢
    exact h.left hnot e.level
  exact ⟨fun level hlevel => hleft.whole hlevel, fun _ => hleft, fun _ => h⟩

/-- No AND or OR has a NOT as its left operand. -/
def Expression.NoLeftNot : Expression → Prop
  | .unary _ operand => operand.NoLeftNot
  | .binary left op right =>
    (op = .and ∨ op = .or → ∀ operand, left ≠ .unary .not operand)
      ∧ left.NoLeftNot ∧ right.NoLeftNot
  | _ => True

theorem Expression.level_eq_three_iff {e : Expression} :
    e.level = 3 ↔ ∃ operand, e = .unary .not operand := by
  cases e with
  | unary op operand => cases op <;> simp [Expression.level, UnaryOperator.level]
  | binary left op right => cases op <;> simp [Expression.level, BinaryOperator.level]
  | _ => simp [Expression.level]

theorem BinaryOperator.level_le_three_iff {op : BinaryOperator} :
    op.level ≤ 3 ↔ op = .and ∨ op = .or := by
  cases op <;> simp [BinaryOperator.level]

theorem Expression.print_ne_nil (e : Expression) : e.print ≠ [] := by
  cases e with
  | booleanLiteral value => cases value <;> exact nofun
  | columnRef name =>
      obtain ⟨part, parts, hparts⟩ := List.exists_cons_of_ne_nil (List.splitOn_ne_nil 46 name)
      rw [Expression.print, hparts]
      exact nofun
  | binary left op right => exact List.append_ne_nil_of_right_ne_nil _ (List.cons_ne_nil _ _)
  | _ => exact nofun

theorem atLevel_ne_nil (level : Nat) (e : Expression) : atLevel level e e.print ≠ [] := by
  unfold atLevel
  split
  · exact nofun
  · exact e.print_ne_nil

/-- **PRINTED EXPRESSIONS ARE READ BACK** when no AND or OR has a NOT as its
    left operand.  The induction is on the expression. -/
theorem Expression.readsBack {e : Expression} (hprintable : e.Printable) (h : e.NoLeftNot) :
    ReadsBack e := by
  induction e with
  | integerLiteral value =>
      exact readsBack_of_prefix rfl nofun (readsPrefix_integer hprintable)
  | stringLiteral value => exact readsBack_of_prefix rfl nofun (readsPrefix_string value)
  | booleanLiteral value =>
      cases value with
      | true => exact readsBack_of_prefix rfl nofun (readsPrefix_boolean true)
      | false => exact readsBack_of_prefix rfl nofun (readsPrefix_boolean false)
  | nullLiteral => exact readsBack_of_prefix rfl nofun readsPrefix_null
  | columnRef name =>
      obtain ⟨part, parts, hparts⟩ := List.exists_cons_of_ne_nil (List.splitOn_ne_nil 46 name)
      have hprint : (Expression.columnRef name).print = (.identifier, part) ::
          parts.flatMap fun part => [(.dot, ascii "."), (.identifier, part)] := by
        rw [Expression.print, hparts]
        rfl
      exact readsBack_of_prefix hprint nofun (readsPrefix_columnRef name)
  | unary op operand ih =>
      have hoperand := ih hprintable h
      by_cases hop : op = .not
      · subst hop
        refine ⟨fun level hlevel => ?_, fun hne => absurd rfl hne, fun hle => ?_⟩
        · exact (hoperand.operandWhole 3).not hlevel
        · exact absurd (show 7 ≤ 3 from hle) (by decide)
      · have hprefix := hoperand.operandPrefix
        -- a sign binds tighter than any binary operator
        have hlevel : op.level = 7 ∧ op.kind.1 ≠ .not := by
          cases op with
          | plus => exact ⟨rfl, nofun⟩
          | minus => exact ⟨rfl, nofun⟩
          | not => exact absurd rfl hop
        have hprinted := @atLevel_printed 7 operand _ (operand.print_printed hprintable)
        obtain ⟨kind, kinds, hkinds⟩ := List.exists_cons_of_ne_nil (atLevel_ne_nil 7 operand)
        have hprint : (Expression.unary op operand).print = op.kind :: kind :: kinds := by
          rw [Expression.print, hlevel.1, hkinds]
        rw [hkinds] at hprefix hprinted
        refine readsBack_of_prefix hprint hlevel.2 ?_
        rw [hprint]
        exact hprefix.sign hop (hprinted kind List.mem_cons_self).ne_minValue
  | binary left op right ihLeft ihRight =>
      obtain ⟨hnot, hleftNot, hrightNot⟩ := h
      have hleft := ihLeft hprintable.1 hleftNot
      have hright := ihRight hprintable.2 hrightNot
      -- a NOT on the left would take the operator into its operand
      have hguard : left.level = 3 → 3 < op.level := by
        intro hlevel
        by_contra hle
        obtain ⟨operand, hoperand⟩ := Expression.level_eq_three_iff.mp hlevel
        exact hnot (BinaryOperator.level_le_three_iff.mp (Nat.le_of_not_lt hle)) operand hoperand
      obtain ⟨bound, hbound, hreads⟩ := hleft.operandLeft hguard
      have hbinary := hreads.binary hbound (hright.operandWhole (op.level + 1))
      refine ⟨fun level hlevel => hbinary.whole hlevel, fun _ => hbinary, fun hle => ?_⟩
      have hlt : op.level < 7 := by cases op <;> decide
      exact absurd hle (Nat.not_le.mpr hlt)
  | star => exact nomatch hprintable

/-! ## The whole statement -/

/-- The tokens that end a projection or the statement. -/
def clauseTypes : List TokenType := [.as, .comma, .from, .where, .semicolon]

/-- What follows a single projection decides whether the statement ends there. -/
theorem parseStatement_select {fuel : Nat} {keyword next : Token} {e : Expression}
    {tokens consumed rest : List Token} (hkeyword : keyword.type = .select)
    (hparse : parseExpression fuel 0 ⟨[keyword], tokens⟩ = .ok (e, ⟨consumed, next :: rest⟩))
    (hnext : next.type ∉ clauseTypes) :
    parseStatement (fuel + 1) ⟨[], keyword :: tokens⟩
      = if next.type ≠ .endOfFile then
          .error (.parseError (ascii "expected end of statement") next.range.start)
        else .ok (.select [⟨e, []⟩] [] none, ⟨consumed, next :: rest⟩) := by
  simp only [clauseTypes, List.mem_cons, List.not_mem_nil, or_false, not_or] at hnext
  obtain ⟨has, hcomma, hfrom, hwhere, hsemicolon⟩ := hnext
  -- the next token starts none of the clauses that may follow
  have halias : parseOptionalName .as (ascii "expected alias after AS") ⟨consumed, next :: rest⟩
      = .ok ([], ⟨consumed, next :: rest⟩) := by
    rw [parseOptionalName, parser_bind_eq (matchToken_miss has), if_neg nofun]
    rfl
  have htable : parseOptionalName .from (ascii "expected table name after FROM")
      ⟨consumed, next :: rest⟩ = .ok ([], ⟨consumed, next :: rest⟩) := by
    rw [parseOptionalName, parser_bind_eq (matchToken_miss hfrom), if_neg nofun]
    rfl
  have hpredicate : parseOptionalPredicate (fuel + 1) ⟨consumed, next :: rest⟩
      = .ok (none, ⟨consumed, next :: rest⟩) := by
    rw [parseOptionalPredicate, parser_bind_eq (matchToken_miss hwhere), if_neg nofun]
    rfl
  have hlist : parseSelectProjectionList (fuel + 1) [] ⟨[keyword], tokens⟩
      = .ok ([⟨e, []⟩], ⟨consumed, next :: rest⟩) := by
    rw [parseSelectProjectionList, parser_bind_eq hparse, parser_bind_eq halias,
      parser_bind_eq (matchToken_miss hcomma), if_neg nofun]
    rfl
  have hselect : parseSelectStatement (fuel + 1) ⟨[keyword], tokens⟩
      = .ok (.select [⟨e, []⟩] [] none, ⟨consumed, next :: rest⟩) := by
    rw [parseSelectStatement, parser_bind_eq hlist, parser_bind_eq htable,
      parser_bind_eq hpredicate]
    rfl
  have hbody : parseStatementBody (fuel + 1) ⟨[], keyword :: tokens⟩
      = .ok (.select [⟨e, []⟩] [] none, ⟨consumed, next :: rest⟩) := by
    rw [parseStatementBody, parser_bind_eq (matchToken_hit hkeyword nofun), if_pos rfl, hselect]
  have hpeek : peek ⟨consumed, next :: rest⟩ = .ok (next, ⟨consumed, next :: rest⟩) := rfl
  rw [parseStatement, parser_bind_eq hbody]
  by_cases hend : next.type = .endOfFile
  · have hstop : parseStatementEnd ⟨consumed, next :: rest⟩
        = .ok ((), ⟨consumed, next :: rest⟩) := by
      rw [parseStatementEnd, parser_bind_eq (matchToken_miss hsemicolon), parser_bind_eq hpeek,
        if_neg (not_not.mpr hend)]
      rfl
    rw [parser_bind_eq hstop, if_neg (not_not.mpr hend)]
    rfl
  · have hstop : parseStatementEnd ⟨consumed, next :: rest⟩
        = .error (.parseError (ascii "expected end of statement") next.range.start) := by
      rw [parseStatementEnd, parser_bind_eq (matchToken_miss hsemicolon), parser_bind_eq hpeek,
        if_pos hend]
      rfl
    rw [if_pos hend]
    show (parseStatementEnd ⟨consumed, next :: rest⟩ >>= _) = _
    rw [hstop]
    rfl

/-- The tokens of a printed SELECT, one by one. -/
theorem selectTokens_cases {e : Expression} {tokens : List Token}
    (h : tokens.map Token.kind = (.select, ascii "SELECT") :: e.print ++ [(.endOfFile, [])]) :
    ∃ keyword printed last, tokens = keyword :: (printed ++ [last])
      ∧ keyword.type = .select ∧ printed.map Token.kind = e.print ∧ last.type = .endOfFile := by
  obtain ⟨keyword, tail, rfl, hkeyword, htail⟩ := List.map_eq_cons_iff.mp h
  obtain ⟨printed, ending, rfl, hprinted, hending⟩ := List.map_eq_append_iff.mp htail
  obtain ⟨last, none, rfl, hlast, hnone⟩ := List.map_eq_cons_iff.mp hending
  obtain rfl : none = [] := List.map_eq_nil_iff.mp hnone
  exact ⟨keyword, printed, last, rfl, congrArg Prod.fst hkeyword, hprinted,
    congrArg Prod.fst hlast⟩

/-- The end-of-file token is there already. -/
theorem parseTokens_selectTokens {keyword last : Token} {printed : List Token}
    (hlast : last.type = .endOfFile) :
    parseTokens (keyword :: (printed ++ [last]))
      = (·.1) <$> parseStatement (4 * (printed.length + 2) + 3 + 1)
          ⟨[], keyword :: (printed ++ [last])⟩ := by
  have htokens : parserTokens (keyword :: (printed ++ [last])) = keyword :: (printed ++ [last]) := by
    have hget : (keyword :: (printed ++ [last])).getLast? = some last := by
      rw [← List.cons_append, List.getLast?_concat]
    rw [parserTokens, hget]
    exact if_neg (not_not.mpr hlast)
  rw [parseTokens, htokens, parseFuel]
  simp

/-- **A PRINTED SELECT IS READ BACK** when no AND or OR has a NOT as its left
    operand. -/
theorem parseTokens_printed {e : Expression} (hprintable : e.Printable) (h : e.NoLeftNot)
    {tokens : List Token}
    (hkinds : tokens.map Token.kind
      = (.select, ascii "SELECT") :: e.print ++ [(.endOfFile, [])]) :
    parseTokens tokens = .ok (.select [⟨e, []⟩] [] none) := by
  obtain ⟨keyword, printed, last, rfl, hkeyword, hprinted, hlast⟩ := selectTokens_cases hkinds
  have hlength : printed.length = e.print.length := by rw [← hprinted, List.length_map]
  have hparse := (e.readsBack hprintable h).whole 0 (Nat.zero_le _)
    (4 * (printed.length + 2) + 3) printed [keyword] [last] hprinted
    ⟨_, _, rfl, by rw [hlast]; decide⟩ (by rw [nextPrecedence, hlast]; decide) (by omega)
  rw [parseTokens_selectTokens hlast,
    parseStatement_select hkeyword hparse (by rw [hlast]; decide), if_neg (not_not.mpr hlast)]
  rfl

end MattSql
