import MattSql.StatementPrintProofs

/-! # The image of the parser

    Whatever a SQL text is parsed to, it can be printed: names are identifiers
    and no keywords, integer literals are not negative but for the smallest one,
    and no list is empty.

    The lexer gives this for the tokens; the parser takes names and numbers from
    tokens only. -/

namespace MattSql

/-! ## Tokens of the lexer -/

/-- What the lexer promises of identifiers and integers. -/
structure Token.IsLexed (token : Token) : Prop where
  identifier : token.type = .identifier → IsIdentifier token.lexeme
  integer : token.type = .integer →
    token.lexeme ≠ [] ∧ ∀ c ∈ token.lexeme, isDigit c = true

/-- Operators are neither identifiers nor integers. -/
theorem symbolShape_notMem (c : UInt8) (next : Option UInt8) :
    (symbolShape c next).2 ∉ [TokenType.identifier, .integer] := by
  rw [symbolShape]
  repeat' (first
    | decide
    | refine iteInduction (motive := fun s : Nat × TokenType =>
        s.2 ∉ [TokenType.identifier, .integer]) (fun _ => ?_) (fun _ => ?_))

theorem takeWhile_eq_take (keep : UInt8 → Bool) (text : Bytes) :
    text.take (text.takeWhile keep).length = text.takeWhile keep :=
  (List.prefix_iff_eq_take.mp (List.takeWhile_prefix keep)).symm

/-- The token at the start of a text keeps the promise. -/
theorem tokenAt_isLexed (consumed text : Bytes) : (tokenAt consumed text).IsLexed := by
  cases text with
  | nil =>
      have htype : (tokenAt consumed []).type = .endOfFile := rfl
      exact ⟨fun h => absurd (htype.symm.trans h) (by decide),
        fun h => absurd (htype.symm.trans h) (by decide)⟩
  | cons c rest =>
      have hne : ∀ keep : UInt8 → Bool, keep c = true → (c :: rest).takeWhile keep ≠ [] := by
        intro keep hkeep
        rw [List.takeWhile_cons, if_pos hkeep]
        exact List.cons_ne_nil _ _
      have hall : ∀ keep : UInt8 → Bool, ∀ d ∈ (c :: rest).takeWhile keep, keep d = true :=
        fun keep => List.all_eq_true.mp List.all_takeWhile
      -- only words and numbers carry a promise
      by_cases halpha : isAlpha c = true
      · have hshape : tokenShape (c :: rest) = (((c :: rest).takeWhile isAlphaNumeric).length,
            lookupKeyword ((c :: rest).takeWhile isAlphaNumeric)) := by
          rw [tokenShape, if_pos halpha]
        have hword : isAlphaNumeric c = true := by rw [isAlphaNumeric, halpha]; rfl
        have hlexeme : (tokenAt consumed (c :: rest)).lexeme
            = (c :: rest).takeWhile isAlphaNumeric := by
          show (c :: rest).take (tokenShape (c :: rest)).1 = _
          rw [hshape, takeWhile_eq_take]
        have htype : (tokenAt consumed (c :: rest)).type
            = lookupKeyword ((c :: rest).takeWhile isAlphaNumeric) := congrArg Prod.snd hshape
        refine ⟨fun h => ?_, fun h => ?_⟩
        · rw [hlexeme]
          have hhead : ((c :: rest).takeWhile isAlphaNumeric).headD 0 = c := by
            rw [List.takeWhile_cons, if_pos hword]
            rfl
          exact ⟨hne _ hword, hhead.symm ▸ halpha, List.all_takeWhile, htype.symm.trans h⟩
        · exact absurd ((htype.symm.trans h) ▸ lookupKeyword_mem _) (by decide)
      by_cases hdigit : isDigit c = true
      · have hshape : tokenShape (c :: rest)
            = (((c :: rest).takeWhile isDigit).length, .integer) := by
          rw [tokenShape, if_neg halpha, if_pos hdigit]
        have hlexeme : (tokenAt consumed (c :: rest)).lexeme = (c :: rest).takeWhile isDigit := by
          show (c :: rest).take (tokenShape (c :: rest)).1 = _
          rw [hshape, takeWhile_eq_take]
        have htype : (tokenAt consumed (c :: rest)).type = .integer := congrArg Prod.snd hshape
        refine ⟨fun h => absurd (htype.symm.trans h) (by decide), fun _ => ?_⟩
        rw [hlexeme]
        exact ⟨hne _ hdigit, hall _⟩
      have hother : (tokenAt consumed (c :: rest)).type ∉ [TokenType.identifier, .integer] := by
        show (tokenShape (c :: rest)).2 ∉ _
        rw [tokenShape, if_neg halpha, if_neg hdigit]
        by_cases hquote : c = 39
        · rw [if_pos hquote]
          show (if (stringLength rest).2 then TokenType.string else .invalid) ∉ _
          cases (stringLength rest).2 <;> decide
        · rw [if_neg hquote]
          exact symbolShape_notMem c rest.head?
      exact ⟨fun h => absurd (h ▸ hother) (by decide), fun h => absurd (h ▸ hother) (by decide)⟩

theorem TilesFrom.isLexed {consumed text : Bytes} {tokens : List Token}
    (h : TilesFrom consumed text tokens) : ∀ token ∈ tokens, token.IsLexed := by
  induction h with
  | stop consumed h =>
      intro token htoken
      rw [List.mem_singleton.mp htoken]
      exact tokenAt_isLexed _ _
  | token h hstarts hrest ih =>
      intro token htoken
      rcases List.mem_cons.mp htoken with rfl | htoken
      · exact tokenAt_isLexed _ _
      · exact ih token htoken

/-- Digits are read as a number from 0 on. -/
theorem stoll_nonneg {digits : Bytes} (hne : digits ≠ []) (h : ∀ c ∈ digits, isDigit c = true)
    {value : Int64} (hvalue : stoll digits = some value) : 0 ≤ value := by
  rw [stoll_digits hne h] at hvalue
  split at hvalue
  · cases hvalue
  · rename_i hlt
    cases hvalue
    rw [Int64.le_iff_toInt_le, Int64.toInt_ofInt_of_le (by omega) (by omega)]
    exact Int.natCast_nonneg _

/-! ## Expressions -/

/-- The tokens ahead come from the lexer. -/
def ParserState.IsLexed (s : ParserState) : Prop := ∀ token ∈ s.rest, token.IsLexed

theorem ParserState.IsLexed.tail {s s' : ParserState} {token : Token} (h : s.IsLexed)
    (hrest : s.rest = token :: s'.rest) : token.IsLexed ∧ s'.IsLexed :=
  ⟨h token (hrest ▸ List.mem_cons_self), fun other hother =>
    h other (hrest ▸ List.mem_cons_of_mem _ hother)⟩

theorem ParserState.IsLexed.consumes {s s' : ParserState} {depths : List Nat} (h : s.IsLexed)
    (hconsumes : Consumes s s' depths) : s'.IsLexed := by
  obtain ⟨tokens, hrest, -⟩ := hconsumes
  exact fun token htoken => h token (hrest ▸ List.mem_append_right _ htoken)

theorem IsIdentifier.notMem_dot {part : Bytes} (h : IsIdentifier part) : 46 ∉ part := by
  intro hmem
  exact absurd (List.all_eq_true.mp h.2.2.1 46 hmem) (by decide)

/-- A dotted name is made of identifiers. -/
theorem parseDottedName_parts_of_ok {fuel : Nat} {parts : List Bytes} {result : Bytes}
    {s s' : ParserState} (h : parseDottedName fuel ([46].intercalate parts) s = .ok (result, s'))
    (hs : s.IsLexed) (hne : parts ≠ []) (hparts : ∀ part ∈ parts, IsIdentifier part) :
    ∀ part ∈ result.splitOn 46, IsIdentifier part := by
  induction fuel generalizing parts s with
  | zero => cases h
  | succ fuel ih =>
      obtain ⟨more, s₁, hmatch, h⟩ := parser_bind_ok_iff.mp h
      cases more with
      | true =>
          obtain ⟨dot, -, hrest, -⟩ := matchToken_true hmatch (by decide)
          obtain ⟨part, s₂, hconsume, h⟩ := parser_bind_ok_iff.mp h
          obtain ⟨hpart, hrest'⟩ := consume_ok hconsume (by decide)
          obtain ⟨hlexed, hs₂⟩ := (hs.tail hrest).2.tail hrest'
          have hname : [46].intercalate parts ++ ascii "." ++ part.lexeme
              = [46].intercalate (parts ++ [part.lexeme]) := by
            obtain ⟨first, parts, rfl⟩ := List.exists_cons_of_ne_nil hne
            have hdot : ascii "." = [46] := by decide
            rw [List.cons_append, intercalate_cons_flatMap, intercalate_cons_flatMap, hdot]
            simp
          rw [hname] at h
          refine ih h hs₂ (by simp) fun other hother => ?_
          rcases List.mem_append.mp hother with hother | hother
          · exact hparts other hother
          · rw [List.mem_singleton.mp hother]
            exact hlexed.identifier hpart
      | false =>
          cases h
          rw [List.splitOn_intercalate _ (fun part hpart => (hparts part hpart).notMem_dot) hne]
          exact hparts

/-- What each function returns from tokens of the lexer, with the given fuel. -/
structure ReturnsImage (fuel : Nat) : Prop where
  expression : ∀ {minPrecedence : Int} {e : Expression} {s s' : ParserState},
    0 ≤ minPrecedence → s.IsLexed → parseExpression fuel minPrecedence s = .ok (e, s') → e.InImage
  loop : ∀ {minPrecedence : Int} {left e : Expression} {s s' : ParserState},
    0 ≤ minPrecedence → s.IsLexed → left.InImage →
    parseBinaryLoop fuel minPrecedence left s = .ok (e, s') → e.InImage
  signed : ∀ {e : Expression} {s s' : ParserState}, s.IsLexed →
    parsePrefixExpression fuel s = .ok (e, s') → e.InImage
  primary : ∀ {e : Expression} {s s' : ParserState}, s.IsLexed →
    parsePrimaryExpression fuel s = .ok (e, s') → e.InImage

theorem returnsImage_primary {fuel : Nat} (ih : ReturnsImage fuel) {e : Expression}
    {s s' : ParserState} (hs : s.IsLexed)
    (h : parsePrimaryExpression (fuel + 1) s = .ok (e, s')) : e.InImage := by
  obtain ⟨consumed, rest⟩ := s
  cases rest with
  | nil => cases h
  | cons token rest =>
      obtain ⟨htoken, hrest⟩ : token.IsLexed ∧ ParserState.IsLexed ⟨token :: consumed, rest⟩ :=
        hs.tail rfl
      cases htype : token.type
      case integer =>
          rw [parsePrimaryExpression, parser_bind_eq (matchToken_hit htype (by decide)), if_pos rfl,
            parser_bind_eq (previous_cons _ _)] at h
          cases hvalue : stoll token.lexeme with
          | none =>
              rw [hvalue] at h
              cases h
          | some value =>
              rw [hvalue] at h
              cases h
              obtain ⟨hne, hdigits⟩ := htoken.integer htype
              exact .inl (stoll_nonneg hne hdigits hvalue)
      case string =>
          rw [parsePrimaryExpression, parser_bind_eq (matchToken_miss (by rw [htype]; decide)),
            if_neg Bool.false_ne_true, parser_bind_eq (matchToken_hit htype (by decide)), if_pos rfl,
            parser_bind_eq (previous_cons _ _)] at h
          cases hvalue : unescapeSqlString token.lexeme with
          | none =>
              rw [hvalue] at h
              cases h
          | some value =>
              rw [hvalue] at h
              cases h
              trivial
      case identifier =>
          rw [parsePrimaryExpression_identifier htype] at h
          obtain ⟨name, s₁, hname, h⟩ := parser_bind_ok_iff.mp h
          cases h
          -- the first part is a name of one part
          have hsingle : [46].intercalate [token.lexeme] = token.lexeme := by simp
          rw [← hsingle] at hname
          refine parseDottedName_parts_of_ok hname hrest (by simp) fun part hpart => ?_
          rw [List.mem_singleton.mp hpart]
          exact htoken.identifier htype
      case leftParen =>
          rw [parsePrimaryExpression_leftParen htype] at h
          obtain ⟨inner, s₁, hinner, h⟩ := parser_bind_ok_iff.mp h
          obtain ⟨closing, s₂, hclosing, h⟩ := parser_bind_ok_iff.mp h
          cases h
          exact ih.expression (Int.le_refl 0) hrest hinner
      all_goals
        obtain ⟨type, lexeme, range⟩ := token
        cases htype
        first
          | cases h; trivial
          | cases h

theorem returnsImage_signed {fuel : Nat} (ih : ReturnsImage fuel) {e : Expression}
    {s s' : ParserState} (hs : s.IsLexed)
    (h : parsePrefixExpression (fuel + 1) s = .ok (e, s')) : e.InImage := by
  obtain ⟨consumed, rest⟩ := s
  cases rest with
  | nil => cases h
  | cons token rest =>
      rcases parsePrefixExpression_cases h with ⟨-, rfl, -⟩ | ⟨-, op, operand, -, rfl, hoperand⟩
        | hprimary
      · exact .inr rfl
      · have hrest : ParserState.IsLexed ⟨token :: consumed, rest⟩ := (hs.tail rfl).2
        show operand.InImage
        exact ih.signed hrest hoperand
      · exact ih.primary hs hprimary

theorem returnsImage_loop {fuel : Nat} (ih : ReturnsImage fuel) {minPrecedence : Int}
    {left e : Expression} {s s' : ParserState} (hmin : 0 ≤ minPrecedence) (hs : s.IsLexed)
    (hleft : left.InImage) (h : parseBinaryLoop (fuel + 1) minPrecedence left s = .ok (e, s')) :
    e.InImage := by
  rcases parseBinaryLoop_cases hmin h with ⟨rfl, rfl⟩
    | ⟨token, consumed, rest, precedence, right, op, s₁, rfl, -, hprec, hright, hloop⟩
  · exact hleft
  · have hrest : ParserState.IsLexed ⟨token :: consumed, rest⟩ := (hs.tail rfl).2
    obtain ⟨depths, hconsumes, -⟩ := (sound fuel).expression hprec hright
    have hbinary : (Expression.binary left op right).InImage :=
      ⟨hleft, ih.expression hprec hrest hright⟩
    exact ih.loop hmin (hrest.consumes hconsumes) hbinary hloop

theorem returnsImage_expression {fuel : Nat} (ih : ReturnsImage fuel) {minPrecedence : Int}
    {e : Expression} {s s' : ParserState} (hmin : 0 ≤ minPrecedence) (hs : s.IsLexed)
    (h : parseExpression (fuel + 1) minPrecedence s = .ok (e, s')) : e.InImage := by
  rcases parseExpression_cases h with ⟨token, operand, s₁, -, hrest, rfl, hoperand⟩
    | ⟨left, s₁, hleft, hloop⟩
  · have hnot : 0 ≤ kNotPrecedence := by decide
    show operand.InImage
    exact ih.expression hnot (hs.tail hrest).2 hoperand
  · obtain ⟨depths, hconsumes, -, -⟩ := (sound fuel).signed hleft
    exact ih.loop hmin (hs.consumes hconsumes) (ih.signed hs hleft) hloop

/-- **PARSED EXPRESSIONS ARE IN THE IMAGE**, by induction on the fuel for the
    four functions at once. -/
theorem returnsImage (fuel : Nat) : ReturnsImage fuel := by
  induction fuel with
  | zero =>
      refine ⟨fun _ _ h => ?_, fun _ _ _ h => ?_, fun _ h => ?_, fun _ h => ?_⟩
      all_goals cases h
  | succ fuel ih =>
      exact ⟨returnsImage_expression ih, returnsImage_loop ih, returnsImage_signed ih,
        returnsImage_primary ih⟩

theorem parseExpression_inImage {fuel : Nat} {e : Expression} {s s' : ParserState}
    (hs : s.IsLexed) (h : parseExpression fuel 0 s = .ok (e, s')) : e.InImage ∧ s'.IsLexed := by
  obtain ⟨depths, hconsumes, -⟩ := (sound fuel).expression (Int.le_refl 0) h
  exact ⟨(returnsImage fuel).expression (Int.le_refl 0) hs h, hs.consumes hconsumes⟩

/-! ## Clauses and statements -/

theorem matchToken_isLexed {type : TokenType} {hit : Bool} {s s' : ParserState} (hs : s.IsLexed)
    (hne : type ≠ .endOfFile) (h : matchToken type s = .ok (hit, s')) : s'.IsLexed := by
  cases hit with
  | true =>
      obtain ⟨token, -, hrest, -⟩ := matchToken_true h hne
      exact (hs.tail hrest).2
  | false => exact matchToken_false h hne ▸ hs

theorem consume_isLexed {type : TokenType} {message : Bytes} {token : Token} {s s' : ParserState}
    (hs : s.IsLexed) (hne : type ≠ .endOfFile) (h : consume type message s = .ok (token, s')) :
    token.type = type ∧ token.IsLexed ∧ s'.IsLexed := by
  obtain ⟨htype, hrest⟩ := consume_ok h hne
  exact ⟨htype, hs.tail hrest⟩

theorem parseOptionalName_inImage {keyword : TokenType} {message name : Bytes}
    {s s' : ParserState} (hs : s.IsLexed) (hne : keyword ≠ .endOfFile)
    (h : parseOptionalName keyword message s = .ok (name, s')) :
    IsOptionalName name ∧ s'.IsLexed := by
  obtain ⟨hit, s₁, hmatch, h⟩ := parser_bind_ok_iff.mp h
  have hs₁ := matchToken_isLexed hs hne hmatch
  cases hit with
  | true =>
      obtain ⟨token, s₂, hconsume, h⟩ := parser_bind_ok_iff.mp h
      obtain ⟨htype, htoken, hs₂⟩ := consume_isLexed hs₁ (by decide) hconsume
      cases h
      exact ⟨.inr (htoken.identifier htype), hs₂⟩
  | false =>
      cases h
      exact ⟨.inl rfl, hs₁⟩

theorem parseSelectProjectionList_inImage {fuel : Nat} {given projections : List SelectProjection}
    {s s' : ParserState} (hs : s.IsLexed)
    (hgiven : ∀ projection ∈ given,
      projection.expression.InImage ∧ IsOptionalName projection.aliasName)
    (h : parseSelectProjectionList fuel given s = .ok (projections, s')) :
    (∀ projection ∈ projections,
      projection.expression.InImage ∧ IsOptionalName projection.aliasName) ∧ s'.IsLexed := by
  induction fuel generalizing given s with
  | zero => cases h
  | succ fuel ih =>
      obtain ⟨expression, s₁, hexpression, h⟩ := parser_bind_ok_iff.mp h
      obtain ⟨aliasName, s₂, halias, h⟩ := parser_bind_ok_iff.mp h
      obtain ⟨more, s₃, hmatch, h⟩ := parser_bind_ok_iff.mp h
      obtain ⟨himage, hs₁⟩ := parseExpression_inImage hs hexpression
      obtain ⟨hname, hs₂⟩ := parseOptionalName_inImage hs₁ (by decide) halias
      have hs₃ := matchToken_isLexed hs₂ (by decide) hmatch
      have hall : ∀ projection ∈ given ++ [⟨expression, aliasName⟩],
          projection.expression.InImage ∧ IsOptionalName projection.aliasName := by
        intro projection hmem
        rcases List.mem_append.mp hmem with hmem | hmem
        · exact hgiven projection hmem
        · rw [List.mem_singleton.mp hmem]
          exact ⟨himage, hname⟩
      cases more with
      | true => exact ih hs₃ hall h
      | false =>
          cases h
          exact ⟨hall, hs₃⟩

theorem parseExpressionListLoop_inImage {fuel : Nat} {given values : List Expression}
    {s s' : ParserState} (hs : s.IsLexed) (hgiven : ∀ value ∈ given, value.InImage)
    (h : parseExpressionListLoop fuel given s = .ok (values, s')) :
    given.length ≤ values.length ∧ ∀ value ∈ values, value.InImage := by
  induction fuel generalizing given s with
  | zero => cases h
  | succ fuel ih =>
      obtain ⟨more, s₁, hmatch, h⟩ := parser_bind_ok_iff.mp h
      have hs₁ := matchToken_isLexed hs (by decide) hmatch
      cases more with
      | true =>
          obtain ⟨value, s₂, hvalue, h⟩ := parser_bind_ok_iff.mp h
          obtain ⟨himage, hs₂⟩ := parseExpression_inImage hs₁ hvalue
          have hall : ∀ other ∈ given ++ [value], other.InImage := by
            intro other hmem
            rcases List.mem_append.mp hmem with hmem | hmem
            · exact hgiven other hmem
            · rw [List.mem_singleton.mp hmem]
              exact himage
          obtain ⟨hlength, hvalues⟩ := ih hs₂ hall h
          rw [List.length_append] at hlength
          exact ⟨Nat.le_trans (Nat.le_add_right _ _) hlength, hvalues⟩
      | false =>
          cases h
          exact ⟨Nat.le_refl _, hgiven⟩

theorem parseColumnDefinitions_inImage {fuel : Nat} {given columns : List ColumnDefinition}
    {s s' : ParserState} (hs : s.IsLexed)
    (hgiven : ∀ column ∈ given, IsIdentifier column.name)
    (h : parseColumnDefinitions fuel given s = .ok (columns, s')) :
    columns ≠ [] ∧ ∀ column ∈ columns, IsIdentifier column.name := by
  induction fuel generalizing given s with
  | zero => cases h
  | succ fuel ih =>
      obtain ⟨name, s₁, hname, h⟩ := parser_bind_ok_iff.mp h
      obtain ⟨htype, hlexed, hs₁⟩ := consume_isLexed hs (by decide) hname
      obtain ⟨type, s₂, hparse, h⟩ := parser_bind_ok_iff.mp h
      have hs₂ : s₂.IsLexed := by
        obtain ⟨token, s₃, hconsume, hparse⟩ := parser_bind_ok_iff.mp hparse
        obtain ⟨-, -, hs₃⟩ := consume_isLexed hs₁ (by decide) hconsume
        split at hparse
        · cases hparse
          exact hs₃
        split at hparse
        · cases hparse
          exact hs₃
        split at hparse
        · cases hparse
          exact hs₃
        · cases hparse
      obtain ⟨more, s₃, hmatch, h⟩ := parser_bind_ok_iff.mp h
      have hs₃ := matchToken_isLexed hs₂ (by decide) hmatch
      have hall : ∀ column ∈ given ++ [⟨name.lexeme, type⟩], IsIdentifier column.name := by
        intro column hmem
        rcases List.mem_append.mp hmem with hmem | hmem
        · exact hgiven column hmem
        · rw [List.mem_singleton.mp hmem]
          exact hlexed.identifier htype
      cases more with
      | true => exact ih hs₃ hall h
      | false =>
          cases h
          exact ⟨List.append_ne_nil_of_right_ne_nil _ (List.cons_ne_nil _ _), hall⟩

theorem parseSelectStatement_inImage {fuel : Nat} {statement : Statement} {s s' : ParserState}
    (hs : s.IsLexed) (h : parseSelectStatement fuel s = .ok (statement, s')) :
    statement.InImage := by
  obtain ⟨projections, s₁, hprojections, h⟩ := parser_bind_ok_iff.mp h
  obtain ⟨tableName, s₂, htable, h⟩ := parser_bind_ok_iff.mp h
  obtain ⟨predicate, s₃, hpredicate, h⟩ := parser_bind_ok_iff.mp h
  cases h
  obtain ⟨hall, hs₁⟩ := parseSelectProjectionList_inImage hs (by simp) hprojections
  obtain ⟨hname, hs₂⟩ := parseOptionalName_inImage hs₁ (by decide) htable
  refine ⟨parseSelectProjectionList_ne_nil hprojections, hall, hname, ?_⟩
  obtain ⟨hit, s₄, hmatch, h⟩ := parser_bind_ok_iff.mp hpredicate
  have hs₄ := matchToken_isLexed hs₂ (by decide) hmatch
  cases hit with
  | true =>
      obtain ⟨e, s₅, hparse, h⟩ := parser_bind_ok_iff.mp h
      cases h
      intro other heq
      cases heq
      exact (parseExpression_inImage hs₄ hparse).1
  | false =>
      cases h
      intro other heq
      cases heq

theorem parseInsertStatement_inImage {fuel : Nat} {statement : Statement} {s s' : ParserState}
    (hs : s.IsLexed) (h : parseInsertStatement fuel s = .ok (statement, s')) :
    statement.InImage := by
  obtain ⟨_, s₁, hinto, h⟩ := parser_bind_ok_iff.mp h
  obtain ⟨name, s₂, hname, h⟩ := parser_bind_ok_iff.mp h
  obtain ⟨_, s₃, hvalues, h⟩ := parser_bind_ok_iff.mp h
  obtain ⟨_, s₄, hopen, h⟩ := parser_bind_ok_iff.mp h
  obtain ⟨values, s₅, hlist, h⟩ := parser_bind_ok_iff.mp h
  obtain ⟨_, s₆, -, h⟩ := parser_bind_ok_iff.mp h
  cases h
  obtain ⟨-, -, hs₁⟩ := consume_isLexed hs (by decide) hinto
  obtain ⟨htype, hlexed, hs₂⟩ := consume_isLexed hs₁ (by decide) hname
  obtain ⟨-, -, hs₃⟩ := consume_isLexed hs₂ (by decide) hvalues
  obtain ⟨-, -, hs₄⟩ := consume_isLexed hs₃ (by decide) hopen
  obtain ⟨value, s₇, hvalue, hlist⟩ := parser_bind_ok_iff.mp hlist
  obtain ⟨himage, hs₇⟩ := parseExpression_inImage hs₄ hvalue
  obtain ⟨hlength, hall⟩ := parseExpressionListLoop_inImage hs₇
    (fun other hmem => List.mem_singleton.mp hmem ▸ himage) hlist
  exact ⟨hlexed.identifier htype, List.ne_nil_of_length_pos hlength, hall⟩

theorem parseCreateTableStatement_inImage {fuel : Nat} {statement : Statement}
    {s s' : ParserState} (hs : s.IsLexed)
    (h : parseCreateTableStatement fuel s = .ok (statement, s')) : statement.InImage := by
  obtain ⟨_, s₁, htable, h⟩ := parser_bind_ok_iff.mp h
  obtain ⟨name, s₂, hname, h⟩ := parser_bind_ok_iff.mp h
  obtain ⟨_, s₃, hopen, h⟩ := parser_bind_ok_iff.mp h
  obtain ⟨columns, s₄, hcolumns, h⟩ := parser_bind_ok_iff.mp h
  obtain ⟨_, s₅, -, h⟩ := parser_bind_ok_iff.mp h
  cases h
  obtain ⟨-, -, hs₁⟩ := consume_isLexed hs (by decide) htable
  obtain ⟨htype, hlexed, hs₂⟩ := consume_isLexed hs₁ (by decide) hname
  obtain ⟨-, -, hs₃⟩ := consume_isLexed hs₂ (by decide) hopen
  obtain ⟨hne, hall⟩ := parseColumnDefinitions_inImage hs₃ (by simp) hcolumns
  exact ⟨hlexed.identifier htype, hne, hall⟩

/-- **PARSED STATEMENTS ARE IN THE IMAGE.** -/
theorem parseStatementBody_inImage {fuel : Nat} {statement : Statement} {s s' : ParserState}
    (hs : s.IsLexed) (h : parseStatementBody fuel s = .ok (statement, s')) :
    statement.InImage := by
  obtain ⟨isSelect, s₁, hselect, h⟩ := parser_bind_ok_iff.mp h
  have hs₁ := matchToken_isLexed hs (by decide) hselect
  cases isSelect with
  | true => exact parseSelectStatement_inImage hs₁ h
  | false =>
      obtain ⟨isInsert, s₂, hinsert, h⟩ := parser_bind_ok_iff.mp h
      have hs₂ := matchToken_isLexed hs₁ (by decide) hinsert
      cases isInsert with
      | true => exact parseInsertStatement_inImage hs₂ h
      | false =>
          obtain ⟨isCreate, s₃, hcreate, h⟩ := parser_bind_ok_iff.mp h
          have hs₃ := matchToken_isLexed hs₂ (by decide) hcreate
          cases isCreate with
          | true => exact parseCreateTableStatement_inImage hs₃ h
          | false =>
              obtain ⟨isInvalid, s₄, -, h⟩ := parser_bind_ok_iff.mp h
              cases isInvalid with
              | true =>
                  obtain ⟨token, s₅, -, h⟩ := parser_bind_ok_iff.mp h
                  cases h
              | false =>
                  obtain ⟨token, s₅, -, h⟩ := parser_bind_ok_iff.mp h
                  cases h

/-- Tokens of the lexer end with the end of the file. -/
theorem parserTokens_tokenize {sql : Bytes} {tokens : List Token} (h : tokenize sql = .ok tokens) :
    parserTokens tokens = tokens := by
  obtain ⟨front, rfl, -⟩ := (tokenize_tilesFrom h).endOfFile
  rw [parserTokens, List.getLast?_concat]
  exact if_neg (not_not.mpr rfl)

theorem inImage_of_parse {sql : Bytes} {statement : Statement}
    (h : (tokenize sql >>= parseTokens) = .ok statement) : statement.InImage := by
  cases htokenize : tokenize sql with
  | error thrown =>
      rw [htokenize] at h
      cases h
  | ok tokens =>
      rw [htokenize] at h
      obtain ⟨s, h⟩ := parseTokens_ok_iff.mp h
      rw [parserTokens_tokenize htokenize] at h
      obtain ⟨body, s₁, hbody, h⟩ := parser_bind_ok_iff.mp h
      obtain ⟨_, s₂, -, h⟩ := parser_bind_ok_iff.mp h
      cases h
      have hs : ParserState.IsLexed { rest := tokens } := (tokenize_tilesFrom htokenize).isLexed
      exact parseStatementBody_inImage hs hbody

/-- **THE PARSER'S IMAGE IS PRINTED AND READ BACK.**  The statements that some
    text is parsed to are those in the image, and each of them, printed with
    every operator application in parentheses and with a semicolon or without,
    is parsed to itself. -/
theorem parse_printed_statement (statement : Statement) :
    ((∃ sql, (tokenize sql >>= parseTokens) = .ok statement) ↔ statement.InImage)
      ∧ (statement.InImage → ∀ semicolon : Bool,
        (tokenize (statement.text semicolon) >>= parseTokens) = .ok statement) := by
  refine ⟨⟨fun ⟨sql, h⟩ => inImage_of_parse h, fun h => ⟨_, parse_statementText h false⟩⟩, ?_⟩
  intro h semicolon
  exact parse_statementText h semicolon

end MattSql
