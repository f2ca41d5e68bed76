import MattSql.EngineProofs
import MattSql.FoldedNamesProofs
import MattSql.ParserImageProofs
import MattSql.ParserSafetyProofs

/-! # Letter case

    Two texts whose tokens differ only in the letter case of keywords and of
    names that are looked up get the same reply, up to the message of a
    failure, and leave the same database.

    The parser takes both token vectors through the same positions (`Alike`)
    and returns statements that are equal when the names they look up are
    folded.  The binder does not tell such statements apart. -/

namespace MattSql

open Fallible

/-! ## Tokens that differ in letter case -/

/-- Keywords and identifiers. -/
def TokenType.isWord (type : TokenType) : Bool :=
  type = .identifier ∨ type ∈ kKeywords.map (·.2)

/-- An identifier behind the given token is a name that the statement
    introduces: an alias, or the name of a new table or of one of its columns
    when the statement is a CREATE. -/
def introducesName (creates : Bool) (previous : Option TokenType) : Bool :=
  previous = some .as
    ∨ creates ∧ (previous = some .table ∨ previous = some .leftParen ∨ previous = some .comma)

/-- The same token up to the letter case of a word. -/
structure Token.Similar (t t' : Token) : Prop where
  type_eq : t.type = t'.type
  folded_eq : foldIdentifierKey t.lexeme = foldIdentifierKey t'.lexeme
  lexeme_eq : t.type.isWord = false → t.lexeme = t'.lexeme

/-- The tokens are the same up to the letter case of the words among them that
    introduce no name. -/
inductive Respelled (creates : Bool) : Option TokenType → List Token → List Token → Prop
  | nil (previous : Option TokenType) : Respelled creates previous [] []
  | cons {previous : Option TokenType} {t t' : Token} {ts ts' : List Token} (h : t.Similar t')
      (hname : introducesName creates previous = true → t.type = .identifier →
        t.lexeme = t'.lexeme)
      (hrest : Respelled creates (some t.type) ts ts') :
      Respelled creates previous (t :: ts) (t' :: ts')

instance (t t' : Token) : Decidable (t.Similar t') :=
  decidable_of_iff (t.type = t'.type ∧ foldIdentifierKey t.lexeme = foldIdentifierKey t'.lexeme
      ∧ (t.type.isWord = false → t.lexeme = t'.lexeme))
    ⟨fun h => ⟨h.1, h.2.1, h.2.2⟩, fun h => ⟨h.type_eq, h.folded_eq, h.lexeme_eq⟩⟩

theorem respelled_cons_iff {creates : Bool} {previous : Option TokenType} {t t' : Token}
    {ts ts' : List Token} :
    Respelled creates previous (t :: ts) (t' :: ts')
      ↔ t.Similar t'
        ∧ (introducesName creates previous = true → t.type = .identifier → t.lexeme = t'.lexeme)
        ∧ Respelled creates (some t.type) ts ts' := by
  constructor
  · intro h
    cases h with
    | cons hsim hname hrest => exact ⟨hsim, hname, hrest⟩
  · rintro ⟨hsim, hname, hrest⟩
    exact .cons hsim hname hrest

instance decidableRespelled (creates : Bool) : (previous : Option TokenType) →
    (ts ts' : List Token) → Decidable (Respelled creates previous ts ts')
  | previous, [], [] => .isTrue (.nil previous)
  | _, [], _ :: _ => .isFalse fun h => by cases h
  | _, _ :: _, [] => .isFalse fun h => by cases h
  | _, t :: ts, _ :: ts' =>
    have := decidableRespelled creates (some t.type) ts ts'
    decidable_of_iff' _ respelled_cons_iff

/-- Whether the tokens are those of a CREATE. -/
def creates (tokens : List Token) : Bool := tokens.head?.map Token.type = some .create

/-- Two texts whose tokens differ only in letter case. -/
def SameButCase (sql sql' : Bytes) : Prop :=
  ∃ tokens tokens', tokenize sql = .ok tokens ∧ tokenize sql' = .ok tokens'
    ∧ Respelled (creates tokens) none tokens tokens'

/-! ## Two parsers side by side -/

/-- The type of the token consumed last. -/
def ParserState.last (s : ParserState) : Option TokenType := s.consumed.head?.map Token.type

/-- Two parsers at the same position of respelled tokens. -/
structure Alike (creates : Bool) (s s' : ParserState) : Prop where
  consumed : Option.Rel Token.Similar s.consumed.head? s'.consumed.head?
  rest : Respelled creates s.last s.rest s'.rest

/-- Both parsers return, at the same position again and with related values, or
    both throw. -/
def Together {α : Type} (creates : Bool) (R : α → α → Prop) (m m' : ParserM α)
    (s s' : ParserState) : Prop :=
  Alike creates s s' → Agree m m' s s' fun a a' t t' => R a a' ∧ Alike creates t t'

section Rules

variable {α β : Type} {c : Bool} {s s' : ParserState} {R : α → α → Prop} {Q : β → β → Prop}

theorem Together.pure {a a' : α} (h : R a a') :
    Together c R (Pure.pure a : ParserM α) (Pure.pure a') s s' :=
  fun hs => Agree.pure ⟨h, hs⟩

theorem Together.throw (message message' : Bytes) (location location' : SourceLocation) :
    Together c R (throwParseError message location : ParserM α)
      (throwParseError message' location') s s' :=
  fun _ => Or.inr ⟨⟨_, rfl⟩, _, rfl⟩

theorem Together.bind {m m' : ParserM α} {f f' : α → ParserM β} (h : Together c R m m' s s')
    (hf : ∀ a a' t t', R a a' → Together c Q (f a) (f' a') t t') :
    Together c Q (m >>= f) (m' >>= f') s s' :=
  fun hs => (h hs).bind fun a a' t t' ⟨hr, ht⟩ => hf a a' t t' hr ht

/-- The tokens ahead of both, and the position behind them. -/
theorem Alike.advance {t t' : Token} {ts ts' : List Token} (h : Alike c s s')
    (hrest : s.rest = t :: ts) (hrest' : s'.rest = t' :: ts') :
    t.Similar t'
      ∧ (introducesName c s.last = true → t.type = .identifier → t.lexeme = t'.lexeme)
      ∧ Alike c ⟨t :: s.consumed, ts⟩ ⟨t' :: s'.consumed, ts'⟩ := by
  have hspelled := h.rest
  rw [hrest, hrest'] at hspelled
  obtain ⟨hsim, hname, hmore⟩ := respelled_cons_iff.mp hspelled
  exact ⟨hsim, hname, .some hsim, hmore⟩

/-- Both have a token ahead, or neither has. -/
theorem Alike.next (h : Alike c s s') :
    (∃ t t' ts ts', s.rest = t :: ts ∧ s'.rest = t' :: ts') ∨ s.rest = [] ∧ s'.rest = [] := by
  have hspelled := h.rest
  cases hs : s.rest with
  | nil =>
      rw [hs] at hspelled
      cases hs' : s'.rest with
      | nil => exact Or.inr ⟨rfl, rfl⟩
      | cons t' ts' =>
          rw [hs'] at hspelled
          cases hspelled
  | cons t ts =>
      rw [hs] at hspelled
      cases hs' : s'.rest with
      | nil =>
          rw [hs'] at hspelled
          cases hspelled
      | cons t' ts' => exact Or.inl ⟨t, t', ts, ts', rfl, rfl⟩

/-- A parser that looks at the next token first. -/
theorem Together.of_next {m m' : ParserM α}
    (hnil : ∀ consumed, ∃ e, m ⟨consumed, []⟩ = .error e)
    (hnil' : ∀ consumed, ∃ e, m' ⟨consumed, []⟩ = .error e)
    (h : ∀ t t' ts ts', s.rest = t :: ts → s'.rest = t' :: ts' → t.type = t'.type →
      Together c R m m' s s') : Together c R m m' s s' := by
  intro hs
  rcases hs.next with ⟨t, t', ts, ts', hrest, hrest'⟩ | ⟨hrest, hrest'⟩
  · exact h t t' ts ts' hrest hrest' (hs.advance hrest hrest').1.type_eq hs
  · obtain ⟨consumed, rest⟩ := s
    obtain ⟨consumed', rest'⟩ := s'
    cases hrest
    cases hrest'
    exact Or.inr ⟨hnil consumed, hnil' consumed'⟩

theorem Together.peek {f f' : Token → ParserM β}
    (hf : ∀ t t' ts ts', s.rest = t :: ts → s'.rest = t' :: ts' → t.Similar t' →
      Together c Q (f t) (f' t') s s') :
    Together c Q (MattSql.peek >>= f) (MattSql.peek >>= f') s s' := by
  refine Together.of_next (fun _ => ⟨_, rfl⟩) (fun _ => ⟨_, rfl⟩) ?_
  intro t t' ts ts' hrest hrest' _ hs
  have hpeek : MattSql.peek s = .ok (t, s) := by
    rw [MattSql.peek]
    rw [hrest]
  have hpeek' : MattSql.peek s' = .ok (t', s') := by
    rw [MattSql.peek]
    rw [hrest']
  rw [Agree]
  rw [parser_bind_eq hpeek, parser_bind_eq hpeek']
  exact hf t t' ts ts' hrest hrest' (hs.advance hrest hrest').1 hs

theorem Together.advance {f f' : Token → ParserM β} {t t' : Token} {ts ts' : List Token}
    (hrest : s.rest = t :: ts) (hrest' : s'.rest = t' :: ts') (htype : t.type ≠ .endOfFile)
    (hf : Together c Q (f t) (f' t') ⟨t :: s.consumed, ts⟩ ⟨t' :: s'.consumed, ts'⟩) :
    Together c Q (MattSql.advance >>= f) (MattSql.advance >>= f') s s' := by
  obtain ⟨consumed, rest⟩ := s
  obtain ⟨consumed', rest'⟩ := s'
  cases hrest
  cases hrest'
  intro hs
  obtain ⟨hsim, -, hnext⟩ := hs.advance rfl rfl
  rw [Agree]
  rw [parser_bind_eq (advance_cons htype), parser_bind_eq (advance_cons (hsim.type_eq ▸ htype))]
  exact hf hnext

theorem Together.previous {f f' : Token → ParserM β} {type : TokenType}
    (hlast : s.last = some type)
    (hf : ∀ t t' : Token, t.type = type → t.Similar t' → Together c Q (f t) (f' t') s s') :
    Together c Q (MattSql.previous >>= f) (MattSql.previous >>= f') s s' := by
  intro hs
  obtain ⟨consumed, rest⟩ := s
  obtain ⟨consumed', rest'⟩ := s'
  have hheads := hs.consumed
  cases consumed with
  | nil => cases hlast
  | cons t consumed =>
      cases consumed' with
      | nil => cases hheads
      | cons t' consumed' =>
          have hsim : t.Similar t' := by
            cases hheads with
            | some hsim => exact hsim
          rw [Agree]
          rw [parser_bind_eq (previous_cons _ _), parser_bind_eq (previous_cons _ _)]
          exact hf t t' (Option.some.inj hlast) hsim hs

/-- `Match` and the two ways to go on. -/
theorem Together.branch_at {type : TokenType} {yes no yes' no' : ParserM α}
    (htype : type ≠ .endOfFile)
    (hyes : ∀ (token : Token) (t t' : ParserState), s.rest = token :: t.rest →
      token.type = type → t.last = some type → Together c R yes yes' t t')
    (hno : Together c R no no' s s') :
    Together c R (matchToken type >>= fun hit => if hit = true then yes else no)
      (matchToken type >>= fun hit => if hit = true then yes' else no') s s' := by
  refine Together.of_next (fun _ => ⟨_, rfl⟩) (fun _ => ⟨_, rfl⟩) ?_
  intro t t' ts ts' hrest hrest' heq
  obtain ⟨consumed, rest⟩ := s
  obtain ⟨consumed', rest'⟩ := s'
  cases hrest
  cases hrest'
  by_cases h : t.type = type
  · intro hs
    rw [Agree]
    rw [parser_bind_eq (matchToken_hit h htype), parser_bind_eq (matchToken_hit (heq ▸ h) htype),
      if_pos rfl, if_pos rfl]
    exact hyes t _ _ rfl h (congrArg some h) (hs.advance rfl rfl).2.2
  · rw [Together, Agree]
    rw [parser_bind_eq (matchToken_miss h), parser_bind_eq (matchToken_miss (heq ▸ h)),
      if_neg Bool.false_ne_true, if_neg Bool.false_ne_true]
    exact hno

theorem Together.branch {type : TokenType} {yes no yes' no' : ParserM α}
    (htype : type ≠ .endOfFile)
    (hyes : ∀ t t' : ParserState, t.last = some type → Together c R yes yes' t t')
    (hno : Together c R no no' s s') :
    Together c R (matchToken type >>= fun hit => if hit = true then yes else no)
      (matchToken type >>= fun hit => if hit = true then yes' else no') s s' :=
  Together.branch_at htype (fun _ t t' _ _ hlast => hyes t t' hlast) hno

/-- The same for a sign. -/
theorem Together.sign {yes no yes' no' : ParserM α}
    (hyes : ∀ (t t' : ParserState) (type : TokenType), type = .plus ∨ type = .minus →
      t.last = some type → Together c R yes yes' t t')
    (hno : Together c R no no' s s') :
    Together c R (matchSign >>= fun hit => if hit = true then yes else no)
      (matchSign >>= fun hit => if hit = true then yes' else no') s s' := by
  rw [matchSign_bind, matchSign_bind]
  refine Together.branch (by decide) (fun t t' hlast => hyes t t' .plus (Or.inl rfl) hlast) ?_
  exact Together.branch (by decide) (fun t t' hlast => hyes t t' .minus (Or.inr rfl) hlast) hno

/-- `Consume` and what follows. -/
theorem Together.consume {type : TokenType} (message : Bytes) {f f' : Token → ParserM β}
    (htype : type ≠ .endOfFile)
    (hf : ∀ (token token' : Token) (t t' : ParserState), token.Similar token' →
      (introducesName c s.last = true → type = .identifier → token.lexeme = token'.lexeme) →
      t.last = some type → Together c Q (f token) (f' token') t t') :
    Together c Q (MattSql.consume type message >>= f) (MattSql.consume type message >>= f')
      s s' := by
  refine Together.of_next (fun _ => ⟨_, rfl⟩) (fun _ => ⟨_, rfl⟩) ?_
  intro t t' ts ts' hrest hrest' heq hs
  obtain ⟨hsim, hname, hnext⟩ := hs.advance hrest hrest'
  obtain ⟨consumed, rest⟩ := s
  obtain ⟨consumed', rest'⟩ := s'
  cases hrest
  cases hrest'
  by_cases h : t.type = type
  · rw [Agree]
    rw [parser_bind_eq (consume_hit h htype), parser_bind_eq (consume_hit (heq ▸ h) htype)]
    exact hf t t' _ _ hsim (fun hintro hid => hname hintro (h.trans hid)) (congrArg some h) hnext
  · exact Or.inr ⟨⟨_, parser_bind_error (consume_miss h) f⟩, _,
      parser_bind_error (consume_miss (heq ▸ h)) f'⟩

end Rules

/-! ## Expressions -/

/-- The same expression when column names are folded. -/
def Expression.Same (e e' : Expression) : Prop := e.folded = e'.folded

theorem Expression.Same.unary {e e' : Expression} (op : UnaryOperator) (h : e.Same e') :
    (Expression.unary op e).Same (.unary op e') := by
  unfold Expression.Same at h ⊢
  rw [Expression.folded, Expression.folded, h]

theorem Expression.Same.binary {l l' r r' : Expression} (op : BinaryOperator) (hl : l.Same l')
    (hr : r.Same r') : (Expression.binary l op r).Same (.binary l' op r') := by
  unfold Expression.Same at hl hr ⊢
  rw [Expression.folded, Expression.folded, hl, hr]

/-- Names that are equal when they are folded. -/
def SameName (name name' : Bytes) : Prop := foldIdentifierKey name = foldIdentifierKey name'

section Expressions

variable {c : Bool} {s s' : ParserState}

theorem parseDottedName_together (fuel : Nat) {name name' : Bytes} (h : SameName name name') :
    Together c SameName (parseDottedName fuel name) (parseDottedName fuel name') s s' := by
  induction fuel generalizing name name' s s' with
  | zero => exact fun _ => Or.inr ⟨⟨_, rfl⟩, _, rfl⟩
  | succ fuel ih =>
      rw [parseDottedName, parseDottedName]
      refine Together.branch (by decide) ?_ (Together.pure h)
      intro t t' _
      refine Together.consume _ (by decide) ?_
      intro part part' u u' hpart _ _
      refine ih ?_
      unfold SameName at h ⊢
      rw [foldIdentifierKey_append, foldIdentifierKey_append, foldIdentifierKey_append,
        foldIdentifierKey_append, h, hpart.folded_eq]

/-- The four functions of the recursion with the given fuel. -/
structure ExpressionsTogether (c : Bool) (fuel : Nat) : Prop where
  expression : ∀ (minPrecedence : Int) (s s' : ParserState), 0 ≤ minPrecedence →
    Together c Expression.Same (parseExpression fuel minPrecedence)
      (parseExpression fuel minPrecedence) s s'
  loop : ∀ (minPrecedence : Int) (left left' : Expression) (s s' : ParserState),
    0 ≤ minPrecedence → left.Same left' →
    Together c Expression.Same (parseBinaryLoop fuel minPrecedence left)
      (parseBinaryLoop fuel minPrecedence left') s s'
  signed : ∀ s s' : ParserState,
    Together c Expression.Same (parsePrefixExpression fuel) (parsePrefixExpression fuel) s s'
  primary : ∀ s s' : ParserState,
    Together c Expression.Same (parsePrimaryExpression fuel) (parsePrimaryExpression fuel) s s'

theorem primary_together {fuel : Nat} (ih : ExpressionsTogether c fuel) (s s' : ParserState) :
    Together c Expression.Same (parsePrimaryExpression (fuel + 1))
      (parsePrimaryExpression (fuel + 1)) s s' := by
  rw [parsePrimaryExpression]
  -- numbers and strings are no words: both sides read the same literal
  refine Together.branch (by decide) ?_ ?_
  · intro t t' hlast
    refine Together.previous hlast fun token token' htype hsim => ?_
    rw [← hsim.lexeme_eq (by rw [htype]; decide)]
    cases stoll token.lexeme with
    | some value => exact Together.pure rfl
    | none => exact Together.throw _ _ _ _
  refine Together.branch (by decide) ?_ ?_
  · intro t t' hlast
    refine Together.previous hlast fun token token' htype hsim => ?_
    rw [← hsim.lexeme_eq (by rw [htype]; decide)]
    cases unescapeSqlString token.lexeme with
    | some value => exact Together.pure rfl
    | none => exact Together.throw _ _ _ _
  refine Together.branch (by decide) (fun _ _ _ => Together.pure rfl) ?_
  refine Together.branch (by decide) (fun _ _ _ => Together.pure rfl) ?_
  refine Together.branch (by decide) (fun _ _ _ => Together.pure rfl) ?_
  refine Together.branch (by decide) (fun _ _ _ => Together.pure rfl) ?_
  -- a column name is read by its parts, which agree when folded
  refine Together.branch (by decide) ?_ ?_
  · intro t t' hlast
    refine Together.previous hlast fun token token' _ hsim => ?_
    refine (parseDottedName_together fuel hsim.folded_eq).bind ?_
    intro name name' u u' hname
    exact Together.pure (congrArg Expression.columnRef hname)
  refine Together.branch (by decide) ?_ ?_
  · intro t t' _
    refine (ih.expression 0 t t' (by decide)).bind fun e e' u u' he => ?_
    exact Together.consume _ (by decide) fun _ _ _ _ _ _ _ => Together.pure he
  refine Together.branch (by decide) ?_ ?_
  · intro t t' hlast
    exact Together.previous hlast fun _ _ _ _ => Together.throw _ _ _ _
  · exact Together.peek fun _ _ _ _ _ _ _ => Together.throw _ _ _ _

theorem signed_together {fuel : Nat} (ih : ExpressionsTogether c fuel) (s s' : ParserState) :
    Together c Expression.Same (parsePrefixExpression (fuel + 1))
      (parsePrefixExpression (fuel + 1)) s s' := by
  rw [parsePrefixExpression]
  refine Together.sign ?_ (ih.primary s s')
  intro t t' type htype hlast
  refine Together.previous hlast fun operator operator' hop hsim => ?_
  obtain ⟨op, hunary⟩ := tokenToUnaryOperator_of_sign htype
  dsimp only
  rw [← hsim.type_eq, hop, hunary]
  refine Together.peek fun next next' ts ts' hrest hrest' hnext => ?_
  -- the digits are no word, so they are spelled alike
  have hiff : (type = .minus ∧ next.type = .integer
        ∧ next.lexeme = ascii "9223372036854775808")
      ↔ (type = .minus ∧ next'.type = .integer
        ∧ next'.lexeme = ascii "9223372036854775808") := by
    rw [← hnext.type_eq]
    refine and_congr_right fun _ => and_congr_right fun hinteger => ?_
    rw [hnext.lexeme_eq (by rw [hinteger]; decide)]
  by_cases hmin : type = .minus ∧ next.type = .integer
      ∧ next.lexeme = ascii "9223372036854775808"
  · rw [if_pos hmin, if_pos (hiff.mp hmin)]
    exact Together.advance hrest hrest' (by rw [hmin.2.1]; decide) (Together.pure rfl)
  · rw [if_neg hmin, if_neg fun h => hmin (hiff.mpr h)]
    refine (ih.signed t t').bind fun operand operand' u u' hoperand => ?_
    rw [pure_bind, pure_bind]
    exact Together.pure (hoperand.unary op)

theorem loop_together {fuel : Nat} (ih : ExpressionsTogether c fuel) (minPrecedence : Int)
    (left left' : Expression) (s s' : ParserState) (hmin : 0 ≤ minPrecedence)
    (hleft : left.Same left') :
    Together c Expression.Same (parseBinaryLoop (fuel + 1) minPrecedence left)
      (parseBinaryLoop (fuel + 1) minPrecedence left') s s' := by
  rw [parseBinaryLoop, parseBinaryLoop]
  refine Together.peek fun token token' ts ts' hrest hrest' hsim => ?_
  dsimp only
  rw [← hsim.type_eq]
  -- the precedence depends on the type alone, so both loops stop together
  by_cases hlow : getBinaryPrecedence token.type < minPrecedence
  · rw [if_pos hlow, if_pos hlow]
    exact Together.pure hleft
  · rw [if_neg hlow, if_neg hlow]
    have hprecedence : 0 ≤ getBinaryPrecedence token.type := by omega
    obtain ⟨htype, op, hop⟩ := tokenToBinaryOperator_of_precedence hprecedence
    refine Together.advance hrest hrest' htype ?_
    refine (ih.expression _ _ _ (by omega)).bind fun right right' t t' hright => ?_
    rw [← hsim.type_eq, hop, pure_bind, pure_bind]
    exact ih.loop minPrecedence _ _ t t' hmin (hleft.binary op hright)

theorem expression_together {fuel : Nat} (ih : ExpressionsTogether c fuel) (minPrecedence : Int)
    (s s' : ParserState) (hmin : 0 ≤ minPrecedence) :
    Together c Expression.Same (parseExpression (fuel + 1) minPrecedence)
      (parseExpression (fuel + 1) minPrecedence) s s' := by
  rw [parseExpression]
  have hrest : Together c Expression.Same
      (parsePrefixExpression fuel >>= fun left => parseBinaryLoop fuel minPrecedence left)
      (parsePrefixExpression fuel >>= fun left => parseBinaryLoop fuel minPrecedence left)
      s s' := by
    refine (ih.signed s s').bind fun left left' t t' hleft => ?_
    exact ih.loop minPrecedence left left' t t' hmin hleft
  rw [matchNot]
  by_cases hnot : minPrecedence ≤ kNotPrecedence
  · rw [if_pos hnot]
    refine Together.branch (by decide) ?_ hrest
    intro t t' _
    refine (ih.expression kNotPrecedence t t' (by decide)).bind fun e e' u u' he => ?_
    exact Together.pure (he.unary .not)
  · rw [if_neg hnot, pure_bind, if_neg Bool.false_ne_true]
    exact hrest

theorem expressionsTogether (c : Bool) (fuel : Nat) : ExpressionsTogether c fuel := by
  -- induction on the fuel, for the four functions at once
  induction fuel with
  | zero =>
      exact ⟨fun _ _ _ _ _ => Or.inr ⟨⟨_, rfl⟩, _, rfl⟩,
        fun _ _ _ _ _ _ _ _ => Or.inr ⟨⟨_, rfl⟩, _, rfl⟩,
        fun _ _ _ => Or.inr ⟨⟨_, rfl⟩, _, rfl⟩, fun _ _ _ => Or.inr ⟨⟨_, rfl⟩, _, rfl⟩⟩
  | succ fuel ih =>
      exact ⟨expression_together ih, loop_together ih, signed_together ih, primary_together ih⟩

theorem parseExpression_together (fuel : Nat) :
    Together c Expression.Same (parseExpression fuel 0) (parseExpression fuel 0) s s' :=
  (expressionsTogether c fuel).expression 0 s s' (by decide)

end Expressions

/-! ## Statements -/

section Statements

variable {c : Bool} {s s' : ParserState} {fuel : Nat}

/-- The same statement when the names it looks up are folded. -/
def Statement.Same (statement statement' : Statement) : Prop :=
  statement.folded = statement'.folded

/-- A name behind a keyword; behind one that introduces names it is spelled
    alike. -/
theorem parseOptionalName_together {keyword : TokenType} (message : Bytes)
    (h : keyword ≠ .endOfFile) :
    Together c
      (fun name name' => SameName name name'
        ∧ (introducesName c (some keyword) = true → name = name'))
      (parseOptionalName keyword message) (parseOptionalName keyword message) s s' := by
  rw [parseOptionalName]
  refine Together.branch h ?_ (Together.pure ⟨rfl, fun _ => rfl⟩)
  intro t t' hlast
  refine Together.consume _ (by decide) ?_
  intro token token' u u' hsim hname _
  rw [hlast] at hname
  exact Together.pure ⟨hsim.folded_eq, fun hintro => hname hintro rfl⟩

theorem parseExpressionListLoop_together {given given' : List Expression}
    (h : given.map Expression.folded = given'.map Expression.folded) :
    Together c (fun es es' => es.map Expression.folded = es'.map Expression.folded)
      (parseExpressionListLoop fuel given) (parseExpressionListLoop fuel given') s s' := by
  induction fuel generalizing given given' s s' with
  | zero => exact fun _ => Or.inr ⟨⟨_, rfl⟩, _, rfl⟩
  | succ fuel ih =>
      rw [parseExpressionListLoop, parseExpressionListLoop]
      refine Together.branch (by decide) ?_ (Together.pure h)
      intro t t' _
      refine (parseExpression_together fuel).bind fun e e' u u' he => ?_
      refine ih ?_
      rw [Expression.Same] at he
      rw [List.map_append, List.map_append, h, List.map_singleton, List.map_singleton, he]

theorem parseSelectProjectionList_together {given given' : List SelectProjection}
    (h : given.map SelectProjection.folded = given'.map SelectProjection.folded) :
    Together c (fun ps ps' => ps.map SelectProjection.folded = ps'.map SelectProjection.folded)
      (parseSelectProjectionList fuel given) (parseSelectProjectionList fuel given') s s' := by
  induction fuel generalizing given given' s s' with
  | zero => exact fun _ => Or.inr ⟨⟨_, rfl⟩, _, rfl⟩
  | succ fuel ih =>
      rw [parseSelectProjectionList, parseSelectProjectionList]
      refine (parseExpression_together fuel).bind fun e e' t t' he => ?_
      refine (parseOptionalName_together _ (by decide)).bind fun name name' u u' hname => ?_
      obtain rfl : name = name' := hname.2 (by cases c <;> rfl)
      have hmore : (given ++ [(⟨e, name⟩ : SelectProjection)]).map SelectProjection.folded
          = (given' ++ [(⟨e', name⟩ : SelectProjection)]).map SelectProjection.folded := by
        rw [Expression.Same] at he
        rw [List.map_append, List.map_append, h, List.map_singleton, List.map_singleton,
          SelectProjection.folded, SelectProjection.folded]
        dsimp only
        rw [he]
      exact Together.branch (by decide) (fun _ _ _ => ih hmore) (Together.pure hmore)

theorem parseTypeName_together : Together c Eq parseTypeName parseTypeName s s' := by
  rw [parseTypeName]
  refine Together.consume _ (by decide) ?_
  intro token token' t t' hsim _ _
  dsimp only
  rw [← hsim.folded_eq]
  split
  · exact Together.pure rfl
  · split
    · exact Together.pure rfl
    · split
      · exact Together.pure rfl
      · exact Together.throw _ _ _ _

/-- Column names stand behind the parenthesis or a comma. -/
theorem parseColumnDefinitions_together (hc : c = true) (given : List ColumnDefinition)
    (hlast : s.last = some .leftParen ∨ s.last = some .comma) :
    Together c Eq (parseColumnDefinitions fuel given) (parseColumnDefinitions fuel given) s s' := by
  induction fuel generalizing given s s' with
  | zero => exact fun _ => Or.inr ⟨⟨_, rfl⟩, _, rfl⟩
  | succ fuel ih =>
      have hintro : introducesName c s.last = true := by
        rcases hlast with h | h
        · rw [h, hc]
          rfl
        · rw [h, hc]
          rfl
      rw [parseColumnDefinitions]
      refine Together.consume _ (by decide) ?_
      intro name name' t t' _ hname _
      rw [← hname hintro rfl]
      refine parseTypeName_together.bind fun type type' u u' htype => ?_
      subst htype
      exact Together.branch (by decide) (fun _ _ h => ih _ (Or.inr h)) (Together.pure rfl)

theorem parseSelectStatement_together :
    Together c Statement.Same (parseSelectStatement fuel) (parseSelectStatement fuel) s s' := by
  rw [parseSelectStatement]
  refine (parseSelectProjectionList_together rfl).bind fun ps ps' t t' hps => ?_
  refine (parseOptionalName_together _ (by decide)).bind fun name name' u u' hname => ?_
  have hwhere : Together c (fun p p' => p.map Expression.folded = p'.map Expression.folded)
      (parseOptionalPredicate fuel) (parseOptionalPredicate fuel) u u' := by
    rw [parseOptionalPredicate]
    refine Together.branch (by decide) ?_ (Together.pure rfl)
    intro v v' _
    refine (parseExpression_together fuel).bind fun e e' w w' he => ?_
    exact Together.pure (congrArg some he)
  refine hwhere.bind fun p p' v v' hp => Together.pure ?_
  rw [Statement.Same]
  rw [Statement.folded, Statement.folded, hps, hname.1, hp]

theorem parseInsertStatement_together :
    Together c Statement.Same (parseInsertStatement fuel) (parseInsertStatement fuel) s s' := by
  rw [parseInsertStatement]
  refine Together.consume _ (by decide) fun _ _ _ _ _ _ _ => ?_
  refine Together.consume _ (by decide) fun name name' t t' hname _ _ => ?_
  refine Together.consume _ (by decide) fun _ _ _ _ _ _ _ => ?_
  refine Together.consume _ (by decide) fun _ _ u u' _ _ _ => ?_
  have hlist : Together c (fun es es' => es.map Expression.folded = es'.map Expression.folded)
      (parseExpressionList fuel) (parseExpressionList fuel) u u' := by
    rw [parseExpressionList]
    refine (parseExpression_together fuel).bind fun e e' v v' he => ?_
    exact parseExpressionListLoop_together (congrArg (fun x => [x]) he)
  refine hlist.bind fun values values' v v' hvalues => ?_
  refine Together.consume _ (by decide) fun _ _ _ _ _ _ _ => Together.pure ?_
  rw [Statement.Same]
  rw [Statement.folded, Statement.folded, hname.folded_eq, hvalues]

theorem parseCreateTableStatement_together (hc : c = true) :
    Together c Statement.Same (parseCreateTableStatement fuel)
      (parseCreateTableStatement fuel) s s' := by
  rw [parseCreateTableStatement]
  refine Together.consume _ (by decide) fun _ _ s₁ s₁' _ _ hlast₁ => ?_
  refine Together.consume _ (by decide) fun name name' s₂ s₂' _ hname _ => ?_
  refine Together.consume _ (by decide) fun _ _ s₃ s₃' _ _ hlast₃ => ?_
  refine (parseColumnDefinitions_together hc [] (Or.inl hlast₃)).bind
    fun columns columns' s₄ s₄' hcolumns => ?_
  refine Together.consume _ (by decide) fun _ _ _ _ _ _ _ => Together.pure ?_
  subst hcolumns
  rw [hname (by rw [hlast₁, hc]; rfl) rfl]
  rfl

/-- The names of a CREATE are the ones that `Respelled` leaves alone. -/
theorem parseStatementBody_together (hc : c = creates s.rest) :
    Together c Statement.Same (parseStatementBody fuel) (parseStatementBody fuel) s s' := by
  rw [parseStatementBody]
  refine Together.branch (by decide) (fun _ _ _ => parseSelectStatement_together) ?_
  refine Together.branch (by decide) (fun _ _ _ => parseInsertStatement_together) ?_
  refine Together.branch_at (by decide) ?_ ?_
  · intro token t t' hrest htype _
    refine parseCreateTableStatement_together ?_
    rw [hc, hrest]
    exact decide_eq_true (congrArg some htype)
  refine Together.branch (by decide) ?_ ?_
  · intro t t' hlast
    exact Together.previous hlast fun _ _ _ _ => Together.throw _ _ _ _
  · exact Together.peek fun _ _ _ _ _ _ _ => Together.throw _ _ _ _

theorem parseStatementEnd_together :
    Together c Eq parseStatementEnd parseStatementEnd s s' := by
  have hmatch : Together c Eq (matchToken .semicolon) (matchToken .semicolon) s s' := by
    rw [← matchToken_bind]
    exact Together.branch (by decide) (fun _ _ _ => Together.pure rfl) (Together.pure rfl)
  rw [parseStatementEnd]
  refine hmatch.bind fun _ _ t t' _ => ?_
  refine Together.peek fun token token' _ _ _ _ hsim => ?_
  rw [← hsim.type_eq]
  split
  · exact Together.throw _ _ _ _
  · exact Together.pure rfl

theorem parseStatement_together (hc : c = creates s.rest) :
    Together c Statement.Same (parseStatement fuel) (parseStatement fuel) s s' := by
  rw [parseStatement]
  refine (parseStatementBody_together hc).bind fun statement statement' t t' hsame => ?_
  exact parseStatementEnd_together.bind fun _ _ _ _ _ => Together.pure hsame

end Statements

/-! ## Whole texts -/

theorem Respelled.length {c : Bool} {previous : Option TokenType} {ts ts' : List Token}
    (h : Respelled c previous ts ts') : ts.length = ts'.length := by
  induction h with
  | nil previous => rfl
  | cons h hname hrest ih => rw [List.length_cons, List.length_cons, ih]

/-- How a tokenized text parses. -/
theorem parseSql_of_run {sql : Bytes} {tokens : List Token} (htokens : tokenize sql = .ok tokens) :
    (∀ statement t, parseStatement (parseFuel tokens) { rest := tokens } = .ok (statement, t) →
        parseSql sql = .ok statement)
      ∧ ∀ thrown, parseStatement (parseFuel tokens) { rest := tokens } = .error thrown →
        ∃ message, parseSql sql = .error ⟨.parseError, message⟩ := by
  have hrun : parseTokens tokens = (·.1) <$> parseStatement (parseFuel tokens) { rest := tokens } := by
    rw [parseTokens]
    rw [parserTokens_tokenize htokens]
  constructor
  · intro statement t hok
    refine parseSql_ok_iff.mpr ⟨tokens, htokens, ?_⟩
    rw [hrun, hok]
    rfl
  · intro thrown herror
    have hparse : parseTokens tokens = .error thrown := by
      rw [hrun, herror]
      rfl
    have hkind := parseTokens_error hparse
    cases thrown with
    | parseError message location => exact ⟨message, parseSql_parseError htokens hparse⟩
    | exception what => cases hkind
    | undefined operation => cases hkind

/-- Respelled texts parse to statements that look up the same names, or are both
    refused. -/
theorem SameButCase.parseSql {sql sql' : Bytes} (h : SameButCase sql sql') :
    (∃ statement statement', parseSql sql = .ok statement ∧ parseSql sql' = .ok statement'
        ∧ statement.Same statement')
      ∨ (∃ message, parseSql sql = .error ⟨.parseError, message⟩)
        ∧ ∃ message, parseSql sql' = .error ⟨.parseError, message⟩ := by
  obtain ⟨tokens, tokens', htokens, htokens', hspelled⟩ := h
  have hfuel : parseFuel tokens' = parseFuel tokens := by
    unfold parseFuel
    rw [hspelled.length]
  obtain ⟨hok, herror⟩ := parseSql_of_run htokens
  obtain ⟨hok', herror'⟩ := parseSql_of_run htokens'
  rw [hfuel] at hok' herror'
  rcases @parseStatement_together _ { rest := tokens } { rest := tokens' } (parseFuel tokens) rfl
      ⟨.none, hspelled⟩ with
    ⟨statement, t, statement', t', hrun, hrun', hsame, -⟩ | ⟨⟨thrown, hrun⟩, thrown', hrun'⟩
  · exact Or.inl ⟨statement, statement', hok _ _ hrun, hok' _ _ hrun', hsame⟩
  · exact Or.inr ⟨herror _ hrun, herror' _ hrun'⟩

/-- **CASE INSENSITIVE**: texts whose tokens differ only in the letter case of
    keywords and of names that are looked up get the same status code and, when
    they succeed, the same result with the same column headers, and leave the
    same database. -/
theorem execute_case_insensitive (db : Database) {sql sql' : Bytes} (h : SameButCase sql sql') :
    statusCode (execute db sql).1 = statusCode (execute db sql').1
      ∧ okValue (execute db sql).1 = okValue (execute db sql').1
      ∧ (execute db sql).2 = (execute db sql').2 := by
  unfold execute executeIn
  rcases h.parseSql with
    ⟨statement, statement', hparse, hparse', hsame⟩ | ⟨⟨message, hparse⟩, message', hparse'⟩
  · rw [hparse, hparse']
    dsimp only
    have hget := db.catalog.getTable_fold
    have hbind : coded (bind db.catalog.getTable statement)
        = coded (bind db.catalog.getTable statement') := by
      rw [← bind_folded hget statement, ← bind_folded hget statement', hsame]
    rcases coded_cases hbind with ⟨bound, hbound, hbound'⟩ | ⟨st, st', hst, hst', hcode⟩
    · rw [hbound, hbound']
      exact ⟨rfl, rfl, rfl⟩
    · rw [hst, hst']
      exact ⟨congrArg some hcode, rfl, rfl⟩
  · rw [hparse, hparse']
    exact ⟨rfl, rfl, rfl⟩

/-- Mixed spellings of a query; the alias is spelled alike. -/
theorem execute_case_insensitive_notes :
    let db := engineAfter [ascii "CREATE TABLE Notes (Id INT, Body TEXT)",
      ascii "INSERT INTO notes VALUES (1, 'Ab')"]
    let sql := ascii "SELECT NOTES.id AS Nr FROM notes"
    let sql' := ascii "select Notes.ID as Nr from NOTES"
    SameButCase sql sql' ∧ okValue (execute db sql).1 = okValue (execute db sql').1 := by
  intro db sql sql'
  have hsame : SameButCase sql sql' :=
    ⟨(tokenize sql).toOption.getD [], (tokenize sql').toOption.getD [], by decide +kernel⟩
  exact ⟨hsame, (execute_case_insensitive db hsame).2.1⟩

end MattSql
