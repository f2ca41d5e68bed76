import MattSql.Library.FallibleProofs
import MattSql.PrecedenceProofs

/-! # The parser on arbitrary token vectors

    `Parser` may be built from any vector of tokens: empty, without an
    end-of-file token, with one in the middle.  Whatever it is given,
    `ParseStatement` ends, stays inside the vector, and returns a statement
    after all tokens before the first end-of-file token or throws a
    `ParseError`.

    `Parses` is the rule that every function of the parser is shown to follow:
    from a position with an end-of-file token ahead, it moves forward over
    other tokens only.  The position then still has one ahead, so that `Peek`
    stays in range, and each call that recurses has fewer tokens left. -/

namespace MattSql

open Fallible

/-- The failure that callers of the parser expect. -/
def Thrown.IsParseError : Thrown → Prop
  | .parseError _ _ => True
  | _ => False

/-- An end-of-file token is ahead. -/
def ParserState.Bounded (s : ParserState) : Prop := ∃ token ∈ s.rest, token.type = .endOfFile

/-- From `s` to `t` the parser consumed at least `count` tokens, none of them
    an end-of-file token. -/
def Moved (count : Nat) (s t : ParserState) : Prop :=
  ∃ used, count ≤ used.length ∧ s.rest = used ++ t.rest
    ∧ t.consumed = used.reverse ++ s.consumed ∧ ∀ token ∈ used, token.type ≠ .endOfFile

section Moved

variable {s t u : ParserState} {m n : Nat}

theorem Moved.refl (s : ParserState) : Moved 0 s s := ⟨[], Nat.le_refl _, rfl, rfl, nofun⟩

theorem Moved.mono (h : Moved m s t) (hle : n ≤ m) : Moved n s t := by
  obtain ⟨used, hlen, hrest, hconsumed, hused⟩ := h
  exact ⟨used, Nat.le_trans hle hlen, hrest, hconsumed, hused⟩

theorem Moved.trans (h : Moved m s t) (h' : Moved n t u) : Moved (m + n) s u := by
  obtain ⟨used, hlen, hrest, hconsumed, hused⟩ := h
  obtain ⟨used', hlen', hrest', hconsumed', hused'⟩ := h'
  refine ⟨used ++ used', ?_, ?_, ?_, ?_⟩
  · rw [List.length_append]
    omega
  · rw [hrest, hrest', List.append_assoc]
  · rw [hconsumed', hconsumed, List.reverse_append, List.append_assoc]
  · intro token hmem
    rcases List.mem_append.mp hmem with hmem | hmem
    · exact hused token hmem
    · exact hused' token hmem

/-- One token. -/
theorem Moved.one {token : Token} {consumed rest : List Token} (h : token.type ≠ .endOfFile) :
    Moved 1 ⟨consumed, token :: rest⟩ ⟨token :: consumed, rest⟩ := by
  refine ⟨[token], Nat.le_refl _, rfl, rfl, ?_⟩
  intro other hmem
  rw [List.mem_singleton.mp hmem]
  exact h

/-- The end-of-file token stays ahead. -/
theorem Moved.bounded (h : Moved n s t) (hs : s.Bounded) : t.Bounded := by
  obtain ⟨used, -, hrest, -, hused⟩ := h
  obtain ⟨token, hmem, htype⟩ := hs
  rw [hrest] at hmem
  rcases List.mem_append.mp hmem with hmem | hmem
  · exact absurd htype (hused token hmem)
  · exact ⟨token, hmem, htype⟩

theorem Moved.length (h : Moved n s t) : t.rest.length + n ≤ s.rest.length := by
  obtain ⟨used, hlen, hrest, -, -⟩ := h
  rw [hrest, List.length_append]
  omega

end Moved

/-- From a bounded position, the parser consumes at least `count` tokens before
    an end-of-file token and returns, or throws a `ParseError`. -/
def Parses {α : Type} (count : Nat) (m : ParserM α) (s : ParserState) : Prop :=
  s.Bounded → Finishes Thrown.IsParseError m s fun _ t => Moved count s t

section Rules

variable {α β : Type} {s : ParserState} {m : ParserM α} {f : α → ParserM β} {j n : Nat}

theorem Parses.pure (a : α) (s : ParserState) : Parses 0 (Pure.pure a : ParserM α) s :=
  fun _ => Finishes.pure (Moved.refl s)

theorem Parses.throw (message : Bytes) (location : SourceLocation) (s : ParserState) :
    Parses n (throwParseError message location : ParserM α) s :=
  fun _ => Or.inr ⟨_, rfl, trivial⟩

/-- There is no position without a token ahead. -/
theorem Parses.of_length (h : s.rest.length = 0) : Parses n m s := by
  rintro ⟨token, hmem, -⟩
  rw [List.length_eq_zero_iff.mp h] at hmem
  cases hmem

theorem Parses.bind (h : Parses j m s)
    (hf : ∀ a t, t.rest.length + j ≤ s.rest.length → Parses (n - j) (f a) t) :
    Parses n (m >>= f) s := by
  intro hs
  refine (h hs).bind fun a t hmoved => ?_
  exact (hf a t hmoved.length (hmoved.bounded hs)).mono fun _ _ hmore =>
    (hmoved.trans hmore).mono (by omega)

/-- A bounded position has a next token. -/
theorem Parses.next (h : ∀ token rest, s.rest = token :: rest → Parses n m s) : Parses n m s := by
  intro hs
  cases hrest : s.rest with
  | nil =>
      obtain ⟨token, hmem, -⟩ := hs
      rw [hrest] at hmem
      cases hmem
  | cons token rest => exact h token rest hrest hs

theorem Parses.peek {f : Token → ParserM β}
    (hf : ∀ token rest, s.rest = token :: rest → Parses n (f token) s) :
    Parses n (MattSql.peek >>= f) s := by
  refine Parses.next fun token rest hrest => ?_
  have hpeek : MattSql.peek s = .ok (token, s) := by
    rw [MattSql.peek]
    rw [hrest]
  rw [Parses, Finishes]
  rw [parser_bind_eq hpeek]
  exact hf token rest hrest

theorem Parses.previous {f : Token → ParserM β} {token : Token} {consumed : List Token}
    (h : s.consumed = token :: consumed) (hf : Parses n (f token) s) :
    Parses n (MattSql.previous >>= f) s := by
  have hprevious : MattSql.previous s = .ok (token, s) := by
    rw [MattSql.previous]
    rw [h]
  rw [Parses, Finishes]
  rw [parser_bind_eq hprevious]
  exact hf

/-- `Advance` at a token that is not the end-of-file token. -/
theorem Parses.advance {f : Token → ParserM β} {token : Token} {rest : List Token}
    (hrest : s.rest = token :: rest) (htype : token.type ≠ .endOfFile)
    (hf : Parses (n - 1) (f token) ⟨token :: s.consumed, rest⟩) :
    Parses n (MattSql.advance >>= f) s := by
  obtain ⟨consumed, rest'⟩ := s
  cases hrest
  intro hs
  have hone : Moved 1 ⟨consumed, token :: rest⟩ ⟨token :: consumed, rest⟩ := Moved.one htype
  rw [Finishes]
  rw [parser_bind_eq (advance_cons htype)]
  exact (hf (hone.bounded hs)).mono fun _ _ hmoved => (hone.trans hmoved).mono (by omega)

/-- `Match` and the two ways to go on. -/
theorem Parses.branch {type : TokenType} {yes no : ParserM α} (htype : type ≠ .endOfFile)
    (hyes : ∀ token t, token.type = type → t.consumed = token :: s.consumed →
      t.rest.length + 1 = s.rest.length → Parses (n - 1) yes t)
    (hno : Parses n no s) :
    Parses n (matchToken type >>= fun hit => if hit = true then yes else no) s := by
  refine Parses.next fun token rest hrest => ?_
  obtain ⟨consumed, rest'⟩ := s
  cases hrest
  by_cases h : token.type = type
  · intro hs
    have hone : Moved 1 ⟨consumed, token :: rest⟩ ⟨token :: consumed, rest⟩ :=
      Moved.one (h ▸ htype)
    rw [Finishes]
    rw [parser_bind_eq (matchToken_hit h htype), if_pos rfl]
    exact (hyes token _ h rfl rfl (hone.bounded hs)).mono fun _ _ hmoved =>
      (hone.trans hmoved).mono (by omega)
  · rw [Parses, Finishes]
    rw [parser_bind_eq (matchToken_miss h), if_neg Bool.false_ne_true]
    exact hno

/-- `Match` as a branch. -/
theorem matchToken_bind (type : TokenType) :
    (matchToken type >>= fun hit => if hit = true then pure true else pure false)
      = matchToken type := by
  refine Eq.trans (congrArg _ (funext fun hit => ?_)) (bind_pure _)
  cases hit with
  | true => rfl
  | false => rfl

/-- A sign is a plus, or else a minus. -/
theorem matchSign_bind (yes no : ParserM α) :
    (matchSign >>= fun hit => if hit = true then yes else no)
      = matchToken .plus >>= fun plus => if plus = true then yes
          else matchToken .minus >>= fun minus => if minus = true then yes else no := by
  rw [matchSign]
  rw [bind_assoc]
  refine congrArg _ (funext fun plus => ?_)
  cases plus with
  | true => rfl
  | false => rfl

/-- The same for a sign. -/
theorem Parses.sign {yes no : ParserM α}
    (hyes : ∀ token t, token.type = .plus ∨ token.type = .minus →
      t.consumed = token :: s.consumed → t.rest.length + 1 = s.rest.length → Parses (n - 1) yes t)
    (hno : Parses n no s) :
    Parses n (matchSign >>= fun hit => if hit = true then yes else no) s := by
  rw [matchSign_bind]
  refine Parses.branch (by decide) (fun token t h => hyes token t (Or.inl h)) ?_
  exact Parses.branch (by decide) (fun token t h => hyes token t (Or.inr h)) hno

theorem Parses.consume (type : TokenType) (message : Bytes) (htype : type ≠ .endOfFile)
    (s : ParserState) : Parses 1 (MattSql.consume type message) s := by
  refine Parses.next fun token rest hrest => ?_
  obtain ⟨consumed, rest'⟩ := s
  cases hrest
  intro hs
  by_cases h : token.type = type
  · exact Or.inl ⟨token, _, consume_hit h htype, Moved.one (h ▸ htype)⟩
  · exact Or.inr ⟨.parseError message token.range.start, consume_miss h, trivial⟩

end Rules

/-! ## Expressions -/

theorem parseDottedName_parses (fuel : Nat) (name : Bytes) (s : ParserState)
    (hfuel : 3 * s.rest.length ≤ fuel) : Parses 0 (parseDottedName fuel name) s := by
  induction fuel generalizing name s with
  | zero => exact Parses.of_length (by omega)
  | succ fuel ih =>
      rw [parseDottedName]
      refine Parses.branch (by decide) ?_ (Parses.pure name s)
      intro dot t _ _ hlen
      refine (Parses.consume _ _ (by decide) t).bind fun part u hlen' => ?_
      exact ih _ u (by omega)

/-- A token the loop takes for an operator is one. -/
theorem tokenToBinaryOperator_of_precedence {type : TokenType}
    (h : 0 ≤ getBinaryPrecedence type) :
    type ≠ .endOfFile ∧ ∃ op, tokenToBinaryOperator type = pure op := by
  cases type
  case plus | minus | star | slash | equal | notEqual | less | lessEqual | greater
      | greaterEqual | and | or => exact ⟨by decide, _, rfl⟩
  all_goals exact absurd h (by decide)

/-- What the four functions of the recursion do with the given fuel. -/
structure ParsesExpressions (fuel : Nat) : Prop where
  expression : ∀ (minPrecedence : Int) (s : ParserState), 0 ≤ minPrecedence →
    3 * s.rest.length ≤ fuel → Parses 1 (parseExpression fuel minPrecedence) s
  loop : ∀ (minPrecedence : Int) (left : Expression) (s : ParserState), 0 ≤ minPrecedence →
    3 * s.rest.length ≤ fuel → Parses 0 (parseBinaryLoop fuel minPrecedence left) s
  signed : ∀ s : ParserState, 3 * s.rest.length ≤ fuel + 1 →
    Parses 1 (parsePrefixExpression fuel) s
  primary : ∀ s : ParserState, 3 * s.rest.length ≤ fuel + 2 →
    Parses 1 (parsePrimaryExpression fuel) s

theorem primary_parses {fuel : Nat} (ih : ParsesExpressions fuel) (s : ParserState)
    (hfuel : 3 * s.rest.length ≤ fuel + 3) : Parses 1 (parsePrimaryExpression (fuel + 1)) s := by
  rw [parsePrimaryExpression]
  -- `stoll` and `unescape_sql_string` may throw, and the source catches it
  refine Parses.branch (by decide) ?_ ?_
  · intro token t _ hconsumed _
    refine Parses.previous hconsumed ?_
    cases stoll token.lexeme with
    | some value => exact Parses.pure _ t
    | none => exact Parses.throw _ _ t
  refine Parses.branch (by decide) ?_ ?_
  · intro token t _ hconsumed _
    refine Parses.previous hconsumed ?_
    cases unescapeSqlString token.lexeme with
    | some value => exact Parses.pure _ t
    | none => exact Parses.throw _ _ t
  refine Parses.branch (by decide) (fun _ t _ _ _ => Parses.pure _ t) ?_
  refine Parses.branch (by decide) (fun _ t _ _ _ => Parses.pure _ t) ?_
  refine Parses.branch (by decide) (fun _ t _ _ _ => Parses.pure _ t) ?_
  refine Parses.branch (by decide) (fun _ t _ _ _ => Parses.pure _ t) ?_
  refine Parses.branch (by decide) ?_ ?_
  · intro token t _ hconsumed hlen
    refine Parses.previous hconsumed ?_
    exact (parseDottedName_parses fuel _ t (by omega)).bind fun _ u _ => Parses.pure _ u
  refine Parses.branch (by decide) ?_ ?_
  · intro token t _ _ hlen
    refine (ih.expression 0 t (by decide) (by omega)).bind fun _ u _ => ?_
    exact (Parses.consume _ _ (by decide) u).bind fun _ v _ => Parses.pure _ v
  refine Parses.branch (by decide) ?_ ?_
  · intro token t _ hconsumed _
    exact Parses.previous hconsumed (Parses.throw _ _ t)
  · exact Parses.peek fun _ _ _ => Parses.throw _ _ s

theorem tokenToUnaryOperator_of_sign {type : TokenType} (h : type = .plus ∨ type = .minus) :
    ∃ op, tokenToUnaryOperator type = pure op := by
  rcases h with rfl | rfl
  · exact ⟨_, rfl⟩
  · exact ⟨_, rfl⟩

theorem signed_parses {fuel : Nat} (ih : ParsesExpressions fuel) (s : ParserState)
    (hfuel : 3 * s.rest.length ≤ fuel + 2) : Parses 1 (parsePrefixExpression (fuel + 1)) s := by
  rw [parsePrefixExpression]
  refine Parses.sign ?_ (ih.primary s hfuel)
  intro sign t hsign hconsumed hlen
  obtain ⟨op, hop⟩ := tokenToUnaryOperator_of_sign hsign
  refine Parses.previous hconsumed ?_
  refine Parses.peek fun next rest hrest => ?_
  split
  · rename_i hmin
    refine Parses.advance hrest ?_ (Parses.pure _ _)
    rw [hmin.2.1]
    decide
  · refine (ih.signed t (by omega)).bind fun operand u _ => ?_
    rw [hop, pure_bind]
    exact Parses.pure _ u

theorem loop_parses {fuel : Nat} (ih : ParsesExpressions fuel) (minPrecedence : Int)
    (left : Expression) (s : ParserState) (hmin : 0 ≤ minPrecedence)
    (hfuel : 3 * s.rest.length ≤ fuel + 1) :
    Parses 0 (parseBinaryLoop (fuel + 1) minPrecedence left) s := by
  rw [parseBinaryLoop]
  refine Parses.peek fun token rest hrest => ?_
  dsimp only
  by_cases hlow : getBinaryPrecedence token.type < minPrecedence
  · rw [if_pos hlow]
    exact Parses.pure left s
  · rw [if_neg hlow]
    -- a token with a precedence is an operator: the `logic_error` is out of reach
    have hlen : s.rest.length = rest.length + 1 := by rw [hrest, List.length_cons]
    have hprecedence : 0 ≤ getBinaryPrecedence token.type := by omega
    obtain ⟨htype, op, hop⟩ := tokenToBinaryOperator_of_precedence hprecedence
    refine Parses.advance hrest htype ?_
    refine (ih.expression _ _ (by omega) (by dsimp only; omega)).bind fun right t hlen' => ?_
    rw [hop, pure_bind]
    exact ih.loop minPrecedence _ t hmin (by dsimp only at hlen'; omega)

theorem expression_parses {fuel : Nat} (ih : ParsesExpressions fuel) (minPrecedence : Int)
    (s : ParserState) (hmin : 0 ≤ minPrecedence) (hfuel : 3 * s.rest.length ≤ fuel + 1) :
    Parses 1 (parseExpression (fuel + 1) minPrecedence) s := by
  rw [parseExpression]
  have hrest : Parses 1 (parsePrefixExpression fuel >>= fun left =>
      parseBinaryLoop fuel minPrecedence left) s := by
    refine (ih.signed s (by omega)).bind fun left t hlen => ?_
    exact ih.loop minPrecedence left t hmin (by omega)
  rw [matchNot]
  by_cases hnot : minPrecedence ≤ kNotPrecedence
  · rw [if_pos hnot]
    refine Parses.branch (by decide) ?_ hrest
    intro token t _ _ hlen
    exact (ih.expression kNotPrecedence t (by decide) (by omega)).bind
      fun _ u _ => Parses.pure _ u
  · rw [if_neg hnot, pure_bind, if_neg Bool.false_ne_true]
    exact hrest

theorem parsesExpressions (fuel : Nat) : ParsesExpressions fuel := by
  -- three units of fuel per token: each function passes on less than it got
  induction fuel with
  | zero =>
      exact ⟨fun _ _ _ h => Parses.of_length (by omega),
        fun _ _ _ _ h => Parses.of_length (by omega), fun _ h => Parses.of_length (by omega),
        fun _ h => Parses.of_length (by omega)⟩
  | succ fuel ih =>
      exact ⟨expression_parses ih, loop_parses ih, signed_parses ih, primary_parses ih⟩

/-! ## Statements -/

section Statements

variable {fuel : Nat} {s : ParserState}

theorem parseExpression_parses (hfuel : 3 * s.rest.length ≤ fuel) :
    Parses 1 (parseExpression fuel 0) s :=
  (parsesExpressions fuel).expression 0 s (by decide) hfuel

theorem parseOptionalName_parses {keyword : TokenType} (message : Bytes)
    (h : keyword ≠ .endOfFile) : Parses 0 (parseOptionalName keyword message) s := by
  rw [parseOptionalName]
  refine Parses.branch h ?_ (Parses.pure _ s)
  intro _ t _ _ _
  exact (Parses.consume _ _ (by decide) t).bind fun _ u _ => Parses.pure _ u

theorem parseExpressionListLoop_parses (given : List Expression)
    (hfuel : 3 * s.rest.length ≤ fuel) : Parses 0 (parseExpressionListLoop fuel given) s := by
  induction fuel generalizing given s with
  | zero => exact Parses.of_length (by omega)
  | succ fuel ih =>
      rw [parseExpressionListLoop]
      refine Parses.branch (by decide) ?_ (Parses.pure _ s)
      intro _ t _ _ hlen
      refine (parseExpression_parses (by omega)).bind fun e u hlen' => ?_
      exact ih _ (by omega)

theorem parseSelectProjectionList_parses (given : List SelectProjection)
    (hfuel : 3 * s.rest.length < fuel) : Parses 0 (parseSelectProjectionList fuel given) s := by
  induction fuel generalizing given s with
  | zero => omega
  | succ fuel ih =>
      rw [parseSelectProjectionList]
      refine (parseExpression_parses (by omega)).bind fun e t hlen => ?_
      refine (parseOptionalName_parses _ (by decide)).bind fun name u hlen' => ?_
      refine Parses.branch (by decide) ?_ (Parses.pure _ u)
      intro _ v _ _ hlen''
      exact ih _ (by omega)

theorem parseTypeName_parses (s : ParserState) : Parses 1 parseTypeName s := by
  rw [parseTypeName]
  refine (Parses.consume _ _ (by decide) s).bind fun token t _ => ?_
  dsimp only
  split
  · exact Parses.pure _ t
  · split
    · exact Parses.pure _ t
    · split
      · exact Parses.pure _ t
      · exact Parses.throw _ _ t

theorem parseColumnDefinitions_parses (given : List ColumnDefinition)
    (hfuel : s.rest.length < fuel) : Parses 0 (parseColumnDefinitions fuel given) s := by
  induction fuel generalizing given s with
  | zero => omega
  | succ fuel ih =>
      rw [parseColumnDefinitions]
      refine (Parses.consume _ _ (by decide) s).bind fun name t hlen => ?_
      refine (parseTypeName_parses t).bind fun type u hlen' => ?_
      refine Parses.branch (by decide) ?_ (Parses.pure _ u)
      intro _ v _ _ hlen''
      exact ih _ (by omega)

theorem parseSelectStatement_parses (hfuel : 3 * s.rest.length < fuel) :
    Parses 0 (parseSelectStatement fuel) s := by
  rw [parseSelectStatement]
  refine (parseSelectProjectionList_parses [] hfuel).bind fun ps t hlen => ?_
  refine (parseOptionalName_parses _ (by decide)).bind fun name u hlen' => ?_
  have hwhere : Parses 0 (parseOptionalPredicate fuel) u := by
    rw [parseOptionalPredicate]
    refine Parses.branch (by decide) ?_ (Parses.pure _ u)
    intro _ v _ _ hlen''
    exact (parseExpression_parses (by omega)).bind fun _ w _ => Parses.pure _ w
  exact hwhere.bind fun _ v _ => Parses.pure _ v

theorem parseInsertStatement_parses (hfuel : 3 * s.rest.length < fuel) :
    Parses 0 (parseInsertStatement fuel) s := by
  rw [parseInsertStatement]
  refine (Parses.consume _ _ (by decide) s).bind fun _ s₁ h₁ => ?_
  refine (Parses.consume _ _ (by decide) s₁).bind fun name s₂ h₂ => ?_
  refine (Parses.consume _ _ (by decide) s₂).bind fun _ s₃ h₃ => ?_
  refine (Parses.consume _ _ (by decide) s₃).bind fun _ s₄ h₄ => ?_
  have hlist : Parses 1 (parseExpressionList fuel) s₄ := by
    rw [parseExpressionList]
    refine (parseExpression_parses (by omega)).bind fun e s₅ h₅ => ?_
    exact parseExpressionListLoop_parses [e] (by omega)
  refine hlist.bind fun values s₅ _ => ?_
  exact (Parses.consume _ _ (by decide) s₅).bind fun _ s₆ _ => Parses.pure _ s₆

theorem parseCreateTableStatement_parses (hfuel : 3 * s.rest.length < fuel) :
    Parses 0 (parseCreateTableStatement fuel) s := by
  rw [parseCreateTableStatement]
  refine (Parses.consume _ _ (by decide) s).bind fun _ s₁ h₁ => ?_
  refine (Parses.consume _ _ (by decide) s₁).bind fun name s₂ h₂ => ?_
  refine (Parses.consume _ _ (by decide) s₂).bind fun _ s₃ h₃ => ?_
  refine (parseColumnDefinitions_parses [] (by omega)).bind fun columns s₄ _ => ?_
  exact (Parses.consume _ _ (by decide) s₄).bind fun _ s₅ _ => Parses.pure _ s₅

theorem parseStatementBody_parses (hfuel : 3 * s.rest.length < fuel) :
    Parses 0 (parseStatementBody fuel) s := by
  rw [parseStatementBody]
  refine Parses.branch (by decide) ?_ ?_
  · intro _ t _ _ hlen
    exact parseSelectStatement_parses (by omega)
  refine Parses.branch (by decide) ?_ ?_
  · intro _ t _ _ hlen
    exact parseInsertStatement_parses (by omega)
  refine Parses.branch (by decide) ?_ ?_
  · intro _ t _ _ hlen
    exact parseCreateTableStatement_parses (by omega)
  refine Parses.branch (by decide) ?_ ?_
  · intro _ t _ hconsumed _
    exact Parses.previous hconsumed (Parses.throw _ _ t)
  · exact Parses.peek fun _ _ _ => Parses.throw _ _ s

/-- The position after a whole statement: the end-of-file token is next. -/
def ParserState.AtEnd (s : ParserState) : Prop :=
  ∃ last rest, s.rest = last :: rest ∧ last.type = .endOfFile

theorem parseStatementEnd_finishes (hs : s.Bounded) :
    Finishes Thrown.IsParseError parseStatementEnd s fun _ t => Moved 0 s t ∧ t.AtEnd := by
  have hmatch : Parses 0 (matchToken .semicolon) s := by
    rw [← matchToken_bind]
    exact Parses.branch (by decide) (fun _ t _ _ _ => Parses.pure _ t) (Parses.pure _ s)
  rw [parseStatementEnd]
  refine (hmatch hs).bind fun _ t hmoved => ?_
  obtain ⟨consumed, rest⟩ := t
  cases rest with
  | nil =>
      obtain ⟨token, hmem, -⟩ := hmoved.bounded hs
      cases hmem
  | cons token rest =>
      by_cases hend : token.type = .endOfFile
      · refine Or.inl ⟨(), ⟨consumed, token :: rest⟩, ?_, hmoved, token, rest, rfl, hend⟩
        show (if token.type ≠ .endOfFile then _ else pure () : ParserM Unit) _ = _
        rw [if_neg (not_not.mpr hend)]
        rfl
      · refine Or.inr ⟨.parseError (ascii "expected end of statement") token.range.start, ?_,
          trivial⟩
        show (if token.type ≠ .endOfFile then _ else pure () : ParserM Unit) _ = _
        rw [if_pos hend]
        rfl

theorem parseStatement_finishes (hs : s.Bounded) (hfuel : 3 * s.rest.length < fuel) :
    Finishes Thrown.IsParseError (parseStatement fuel) s fun _ t => Moved 0 s t ∧ t.AtEnd := by
  unfold parseStatement
  refine (parseStatementBody_parses hfuel hs).bind fun statement t hmoved => ?_
  refine (parseStatementEnd_finishes (hmoved.bounded hs)).bind fun _ u ⟨hmore, hend⟩ => ?_
  exact Finishes.pure ⟨hmoved.trans hmore, hend⟩

end Statements

/-! ## Token vectors -/

/-- The constructor leaves the tokens before the first end-of-file token as
    they are, and makes sure that there is one. -/
theorem parserTokens_bounded (tokens : List Token) :
    ParserState.Bounded { rest := parserTokens tokens }
      ∧ (parserTokens tokens).takeWhile (·.type ≠ .endOfFile)
        = tokens.takeWhile (·.type ≠ .endOfFile) := by
  rw [parserTokens]
  cases hlast : tokens.getLast? with
  | none =>
      rw [List.getLast?_eq_none_iff] at hlast
      subst hlast
      exact ⟨⟨_, List.mem_singleton_self _, rfl⟩, rfl⟩
  | some last =>
      dsimp only
      by_cases hend : last.type = .endOfFile
      · rw [if_neg (not_not.mpr hend)]
        exact ⟨⟨last, List.mem_of_getLast? hlast, hend⟩, rfl⟩
      · rw [if_pos hend]
        refine ⟨⟨_, List.mem_append_right _ (List.mem_singleton_self _), rfl⟩, ?_⟩
        rw [List.takeWhile_append]
        split
        · rename_i hall
          rw [(List.takeWhile_sublist _).eq_of_length hall]
          exact List.append_nil tokens
        · rfl

/-- What the parser throws is a `ParseError`. -/
theorem parseTokens_error {tokens : List Token} {thrown : Thrown}
    (h : parseTokens tokens = .error thrown) : thrown.IsParseError := by
  have hfuel : 3 * (parserTokens tokens).length < parseFuel (parserTokens tokens) := by
    rw [parseFuel]
    omega
  unfold parseTokens at h
  dsimp only at h
  rcases parseStatement_finishes (parserTokens_bounded tokens).1 hfuel with
    ⟨statement, t, heq, -⟩ | ⟨e, heq, herror⟩
  · rw [heq] at h
    cases h
  · rw [heq] at h
    cases h
    exact herror

/-- How a parse of a token vector ends: with a statement, when the tokens before
    the first end-of-file token are consumed and the others are ahead, or with
    a `ParseError`. -/
inductive ParseOutcome (tokens : List Token) : Except Thrown (Statement × ParserState) → Prop
  | statement (statement : Statement) (state : ParserState)
      (hconsumed : state.consumed.reverse = tokens.takeWhile (·.type ≠ .endOfFile))
      (hrest : state.consumed.reverse ++ state.rest = parserTokens tokens) :
      ParseOutcome tokens (.ok (statement, state))
  | parseError (message : Bytes) (location : SourceLocation) :
      ParseOutcome tokens (.error (.parseError message location))

/-- **TOTAL PARSER**: on every token vector the parser ends, without an access
    outside the vector and without any exception but `ParseError`.  When it
    returns a statement it has consumed exactly the tokens before the first
    end-of-file token.  More fuel makes no difference to that. -/
theorem parseStatement_outcome (tokens : List Token) (extra : Nat) :
    ParseOutcome tokens
      (parseStatement (parseFuel (parserTokens tokens) + extra) { rest := parserTokens tokens }) := by
  obtain ⟨hbounded, hbefore⟩ := parserTokens_bounded tokens
  have hfuel : 3 * (parserTokens tokens).length < parseFuel (parserTokens tokens) + extra := by
    rw [parseFuel]
    omega
  rcases parseStatement_finishes hbounded hfuel with
    ⟨statement, t, heq, ⟨used, -, hrest, hconsumed, hused⟩, last, rest, hlast, hend⟩
    | ⟨e, heq, herror⟩
  · rw [heq]
    rw [List.append_nil] at hconsumed
    have hrev : t.consumed.reverse = used := by rw [hconsumed, List.reverse_reverse]
    dsimp only at hrest
    refine .statement statement t ?_ (by rw [hrev, hrest])
    rw [hrev, ← hbefore, hrest, hlast,
      List.takeWhile_append_of_pos (fun token hmem => decide_eq_true (hused token hmem)),
      List.takeWhile_cons_of_neg (by simpa using hend), List.append_nil]
  · rw [heq]
    cases e with
    | parseError message location => exact .parseError message location
    | exception what => cases herror
    | undefined operation => cases herror

end MattSql
