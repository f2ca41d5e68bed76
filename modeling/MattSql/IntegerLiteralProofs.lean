import MattSql.EngineProofs
import MattSql.StatementPrintProofs

/-! # Integer literals

    What `SELECT d` and `SELECT -d` answer for a string `d` of decimal digits.
    The sign and the digits are separate tokens, so the smallest integer is
    read through a case of its own in `ParsePrefixExpression`, which compares
    the digits with the text `9223372036854775808`.  Every other negative
    number is the negation of a literal that `std::stoll` reads.

    The value alone decides what is answered, except at `2^63` behind a minus:
    there the answer depends on the spelling. -/

namespace MattSql

open Fallible

/-- `SELECT`, a blank and the digits. -/
def selectNumber (blank d : Bytes) : Bytes := ascii "SELECT" ++ blank ++ d

/-- The same with a minus, and a gap behind it. -/
def selectNegated (blank gap d : Bytes) : Bytes := ascii "SELECT" ++ blank ++ 45 :: (gap ++ d)

/-! ## The tokens -/

section Lexing

variable {consumed blank gap d rest : Bytes} {tokens : List Token}

theorem trivia_of_spaces (h : ∀ c ∈ gap, isSpace c = true) (rest : Bytes) : Trivia gap rest := by
  induction gap with
  | nil => exact .nil rest
  | cons c gap ih =>
      exact .space (h c List.mem_cons_self) (ih fun x hx => h x (List.mem_cons_of_mem c hx))

/-- The digits at the end of a text. -/
theorem tilesFrom_digits (hgap : ∀ c ∈ gap, isSpace c = true) (hd : d ≠ [])
    (hdigits : ∀ c ∈ d, isDigit c = true) :
    ∃ number last, TilesFrom consumed (gap ++ d) [number, last] ∧ number.kind = (.integer, d)
      ∧ last.type = .endOfFile := by
  obtain ⟨c, cs, rfl⟩ := List.exists_cons_of_ne_nil hd
  have hc : isDigit c = true := hdigits c List.mem_cons_self
  have htake : (c :: cs).takeWhile isDigit = c :: cs := by
    simpa using takeWhile_gap hdigits (by decide) (Or.inl rfl)
  have hshape : tokenShape (c :: cs) = ((c :: cs).length, .integer) := by
    rw [tokenShape, if_neg (by rw [isAlpha_of_isDigit hc]; decide), if_pos hc, htake]
  have hstarts : StartsToken (c :: cs) :=
    startsToken_of_alphaNumeric (by rw [isAlphaNumeric, hc, Bool.or_true])
  refine ⟨tokenAt (consumed ++ gap) (c :: cs), tokenAt (consumed ++ gap ++ (c :: cs) ++ []) [],
    .token (trivia_of_spaces hgap _) hstarts ?_, ?_, rfl⟩
  · rw [hshape, List.take_length, List.drop_length]
    exact .stop _ (.nil _)
  · show ((tokenShape (c :: cs)).2, (c :: cs).take (tokenShape (c :: cs)).1) = _
    rw [hshape, List.take_length]

/-- The keyword in front of a blank. -/
theorem tilesFrom_select (hblank : blank ≠ []) (hspaces : ∀ c ∈ blank, isSpace c = true)
    (h : TilesFrom (ascii "SELECT") (blank ++ rest) tokens) :
    ∃ keyword, TilesFrom [] (ascii "SELECT" ++ blank ++ rest) (keyword :: tokens)
      ∧ keyword.type = .select := by
  obtain ⟨c, cs, rfl⟩ := List.exists_cons_of_ne_nil hblank
  have hc : isAlphaNumeric c = false := by
    have hspace := hspaces c List.mem_cons_self
    simp only [isAlphaNumeric, isAlpha, isDigit, isSpace, UInt8.le_iff_toNat_le,
      ← UInt8.toNat_inj, Bool.or_eq_false_iff, decide_eq_true_eq, decide_eq_false_iff_not,
      UInt8.reduceToNat] at hspace ⊢
    omega
  have htake : (ascii "SELECT" ++ (c :: cs) ++ rest).takeWhile isAlphaNumeric
      = ascii "SELECT" := by
    rw [List.append_assoc, List.takeWhile_append_of_pos (List.all_eq_true.mp (by decide)),
      List.cons_append,
      List.takeWhile_cons_of_neg (by rw [hc]; decide), List.append_nil]
  have hshape : tokenShape (ascii "SELECT" ++ (c :: cs) ++ rest) = (6, .select) := by
    show (((ascii "SELECT" ++ (c :: cs) ++ rest).takeWhile isAlphaNumeric).length,
      lookupKeyword ((ascii "SELECT" ++ (c :: cs) ++ rest).takeWhile isAlphaNumeric)) = _
    rw [htake]
    decide
  have hstarts : StartsToken (ascii "SELECT" ++ (c :: cs) ++ rest) :=
    startsToken_of_alphaNumeric (by decide)
  have htiles := @TilesFrom.token [] [] (ascii "SELECT" ++ (c :: cs) ++ rest) tokens (.nil _)
    hstarts (by rw [hshape]; exact h)
  exact ⟨_, htiles, congrArg Prod.snd hshape⟩

/-- A minus that no second one follows. -/
theorem tilesFrom_minus (hspaces : ∀ c ∈ blank, isSpace c = true) (hne : rest.headD 0 ≠ 45)
    (h : TilesFrom (consumed ++ blank ++ [45]) rest tokens) :
    ∃ sign, TilesFrom consumed (blank ++ 45 :: rest) (sign :: tokens)
      ∧ sign.kind = (.minus, ascii "-") := by
  have hshape : tokenShape (45 :: rest) = (1, .minus) := rfl
  refine ⟨tokenAt (consumed ++ blank) (45 :: rest), .token (trivia_of_spaces hspaces _) ?_ ?_, ?_⟩
  · exact ⟨List.cons_ne_nil _ _, rfl, fun hdash => hne hdash.2, fun hslash => by cases hslash.1⟩
  · rw [hshape]
    exact h
  · rfl

end Lexing

/-! ## The statements -/

section Parsing

variable {keyword first last : Token} {tokens : List Token}

/-- A SELECT of one expression that is read as a prefix expression. -/
theorem parseTokens_select_ok {e : Expression} {kind : TokenKind} {kinds : List TokenKind}
    (h : ReadsPrefix e (kind :: kinds)) (hnot : kind.1 ≠ .not)
    (hkeyword : keyword.type = .select) (hlast : last.type = .endOfFile)
    (hkinds : tokens.map Token.kind = kind :: kinds) :
    parseTokens (keyword :: (tokens ++ [last])) = .ok (.select [⟨e, []⟩] [] none) := by
  have hlength : tokens.length = (kind :: kinds).length := by rw [← hkinds, List.length_map]
  have hparse := ((h.left hnot 0).whole (Nat.le_refl 0)) (4 * (tokens.length + 2) + 3) tokens
    [keyword] [last] hkinds ⟨_, _, rfl, by rw [hlast]; decide⟩
    (by rw [nextPrecedence, hlast]; decide) (by omega)
  rw [parseTokens_selectTokens hlast,
    parseStatement_select hkeyword hparse (by rw [hlast]; decide), if_neg (not_not.mpr hlast)]
  rfl

/-- A SELECT whose expression is refused at its start. -/
theorem parseTokens_select_error {thrown : Thrown}
    (h : ∀ fuel, parsePrefixExpression (fuel + 3) ⟨[keyword], first :: tokens⟩ = .error thrown)
    (hnot : first.type ≠ .not) (hkeyword : keyword.type = .select)
    (hlast : (first :: tokens).getLast? = some last) (hend : last.type = .endOfFile) :
    parseTokens (keyword :: first :: tokens) = .error thrown := by
  have hlist : ∀ fuel, parseSelectProjectionList (fuel + 5) [] ⟨[keyword], first :: tokens⟩
      = .error thrown := by
    intro fuel
    refine parser_bind_error ?_ _
    rw [parseExpression, parser_bind_eq (matchNot_miss fun _ => hnot), if_neg Bool.false_ne_true]
    exact parser_bind_error (h fuel) _
  have hstatement : ∀ fuel, parseStatement (fuel + 5) ⟨[], keyword :: first :: tokens⟩
      = .error thrown := by
    intro fuel
    refine parser_bind_error ?_ _
    rw [parseStatementBody, parser_bind_eq (matchToken_hit hkeyword (by decide)), if_pos rfl]
    exact parser_bind_error (hlist fuel) _
  have htokens : parserTokens (keyword :: first :: tokens) = keyword :: first :: tokens := by
    rw [parserTokens, List.getLast?_cons_cons, hlast]
    exact if_neg (not_not.mpr hend)
  rw [parseTokens, htokens, parseFuel]
  show (·.1) <$> parseStatement (4 * (tokens.length + 2) + 4) _ = _
  rw [show 4 * (tokens.length + 2) + 4 = (4 * tokens.length + 7) + 5 by omega, hstatement]
  rfl

end Parsing

/-! ## The answers -/

/-- The answer is one row with the given integer, or a `ParseError` when there
    is none. -/
def AnswersInteger (reply : Result QueryResult) : Option Int → Prop
  | some n => ∃ columns value, reply = .ok ⟨columns, [[.integer value]]⟩ ∧ value.toInt = n
  | none => ∃ message, reply = .error ⟨.parseError, message⟩

/-- The integer that a statement should answer, when it is in range. -/
def inRange (n : Nat) (limit : Nat) (value : Int) : Option Int :=
  if n ≤ limit then some value else none

/-- Literals stand for their values: up to `2^63 - 1` without a sign, up to
    `2^63` behind a minus. -/
def LiteralsExact (db : Database) (blank gap d : Bytes) : Prop :=
  AnswersInteger (execute db (selectNumber blank d)).1
      (inRange (digitsValue d) (2 ^ 63 - 1) (digitsValue d))
    ∧ AnswersInteger (execute db (selectNegated blank gap d)).1
      (inRange (digitsValue d) (2 ^ 63) (-digitsValue d))

section Answers

variable {db : Database} {sql : Bytes} {tokens : List Token}

/-- A SELECT of one expression without a table answers with its value. -/
theorem execute_selectOne (hdb : db.Consistent) {e : Expression} {b : BoundExpression}
    {value : Value} (htokens : tokenize sql = .ok tokens)
    (hparse : parseTokens tokens = .ok (.select [⟨e, []⟩] [] none)) (hstar : e ≠ .star)
    (hbind : bindExpression none e = .ok b)
    (hvalue : ∀ context, evaluate context b = .ok value) :
    ∃ columns, (execute db sql).1 = .ok ⟨columns, [[value]]⟩ := by
  have hsql : parseSql sql = .ok (.select [⟨e, []⟩] [] none) :=
    parseSql_ok_iff.mpr ⟨tokens, htokens, hparse⟩
  have hbound : bind db.catalog.getTable (.select [⟨e, []⟩] [] none)
      = .ok (.select [b] [[]] {} none) := by
    show bindSelect _ _ _ _ = _
    rw [bindSelect, bindFrom, if_pos rfl, ok_bind, bindProjections, bindProjection, if_neg hstar,
      hbind]
    rfl
  obtain ⟨hselect, hfrom⟩ : SelectBound [b] [[]] {} none ∧ db.From {} := by
    cases hdb.boundIn hsql hbound with
    | select hselect hfrom => exact ⟨hselect, hfrom⟩
  refine ⟨outputNames [b] [[]], ?_⟩
  rw [execute_eq_runBound hsql hbound, hselect.run hdb hfrom]
  have hrow : ∀ context, evaluateExpressions [b] context = .ok [value] := by
    intro context
    rw [evaluateExpressions, List.mapM_cons, hvalue]
    rfl
  show selectReply _ _ _ _ _ = _
  rw [selectReply, keptRows, ok_bind, Database.sourceRows, if_pos rfl, projectRows,
    List.mapM_cons, hrow]
  rfl

/-- A text whose tokens are refused. -/
theorem execute_parseError {message : Bytes} {location : SourceLocation}
    (htokens : tokenize sql = .ok tokens)
    (hparse : parseTokens tokens = .error (.parseError message location)) :
    (execute db sql).1 = .error ⟨.parseError, message⟩ := by
  rw [execute, executeIn]
  rw [parseSql_parseError htokens hparse]

end Answers

section Literals

variable {blank gap d : Bytes}

/-- The tokens of `SELECT d`. -/
theorem tokenize_selectNumber (hblank : blank ≠ []) (hspaces : ∀ c ∈ blank, isSpace c = true)
    (hd : d ≠ []) (hdigits : ∀ c ∈ d, isDigit c = true) :
    ∃ keyword number last, tokenize (selectNumber blank d) = .ok [keyword, number, last]
      ∧ keyword.type = .select ∧ number.kind = (.integer, d) ∧ last.type = .endOfFile := by
  obtain ⟨number, last, htiles, hnumber, hlast⟩ := tilesFrom_digits hspaces hd hdigits
  obtain ⟨keyword, htiles, hkeyword⟩ := tilesFrom_select hblank hspaces htiles
  exact ⟨keyword, number, last, htiles.tokenize_eq, hkeyword, hnumber, hlast⟩

/-- The tokens of `SELECT -d`, whatever the gap. -/
theorem tokenize_selectNegated (hblank : blank ≠ []) (hspaces : ∀ c ∈ blank, isSpace c = true)
    (hgap : ∀ c ∈ gap, isSpace c = true) (hd : d ≠ []) (hdigits : ∀ c ∈ d, isDigit c = true) :
    ∃ keyword sign number last,
      tokenize (selectNegated blank gap d) = .ok [keyword, sign, number, last]
      ∧ keyword.type = .select ∧ sign.kind = (.minus, ascii "-") ∧ number.kind = (.integer, d)
      ∧ last.type = .endOfFile := by
  -- two minus signs would start a comment
  have hhead : (gap ++ d).headD 0 ≠ 45 := by
    cases gap with
    | nil =>
        obtain ⟨c, cs, rfl⟩ := List.exists_cons_of_ne_nil hd
        intro heq
        have hc := hdigits c List.mem_cons_self
        rw [show c = 45 from heq] at hc
        exact absurd hc (by decide)
    | cons c cs =>
        intro heq
        have hc := hgap c List.mem_cons_self
        rw [show c = 45 from heq] at hc
        exact absurd hc (by decide)
  obtain ⟨number, last, htiles, hnumber, hlast⟩ := tilesFrom_digits hgap hd hdigits
  obtain ⟨sign, htiles, hsign⟩ := tilesFrom_minus hspaces hhead htiles
  obtain ⟨keyword, htiles, hkeyword⟩ := tilesFrom_select hblank hspaces htiles
  exact ⟨keyword, sign, number, last, htiles.tokenize_eq, hkeyword, hsign, hnumber, hlast⟩

/-- Digits that `std::stoll` reads are an integer literal. -/
theorem readsPrefix_digits {value : Int64} (h : stoll d = some value) :
    ReadsPrefix (.integerLiteral value) [(.integer, d)] := by
  refine readsPrefix_token ⟨?_, ?_⟩ fun fuel token consumed rest hkind => ?_
  · intro hsign
    cases hsign
  · intro hsign
    cases hsign
  refine parsePrimaryExpression_integer (congrArg Prod.fst hkind) ?_
  rw [show token.lexeme = d from congrArg Prod.snd hkind]
  exact h

/-- Digits that `std::stoll` refuses are a `ParseError`. -/
theorem parsePrefixExpression_digits_error {number : Token} (hnumber : number.kind = (.integer, d))
    (h : stoll d = none) (fuel : Nat) (consumed rest : List Token) :
    parsePrefixExpression (fuel + 2) ⟨consumed, number :: rest⟩
      = .error (.parseError (ascii "integer literal is out of range") number.range.start) := by
  have htype : number.type = .integer := congrArg Prod.fst hnumber
  have hlexeme : number.lexeme = d := congrArg Prod.snd hnumber
  rw [parsePrefixExpression_primary (by rw [htype]; decide), parsePrimaryExpression,
    parser_bind_eq (matchToken_hit htype (by decide)), if_pos rfl,
    parser_bind_eq (previous_cons _ _), hlexeme, h]
  rfl

variable {db : Database}

theorem selectNumber_answers (hdb : db.Consistent) (hblank : blank ≠ [])
    (hspaces : ∀ c ∈ blank, isSpace c = true) (hd : d ≠ [])
    (hdigits : ∀ c ∈ d, isDigit c = true) :
    AnswersInteger (execute db (selectNumber blank d)).1
      (inRange (digitsValue d) (2 ^ 63 - 1) (digitsValue d)) := by
  obtain ⟨keyword, number, last, htokens, hkeyword, hnumber, hlast⟩ :=
    tokenize_selectNumber hblank hspaces hd hdigits
  rw [inRange]
  by_cases hle : digitsValue d ≤ 2 ^ 63 - 1
  · rw [if_pos hle]
    have hread : stoll d = some (Int64.ofInt (digitsValue d)) := by
      rw [stoll_digits hd hdigits, if_neg (by omega)]
    have hparse : parseTokens [keyword, number, last] = _ :=
      @parseTokens_select_ok keyword last [number] _ _ _ (readsPrefix_digits hread)
        (by intro hnot; cases hnot) hkeyword hlast (congrArg (fun k => [k]) hnumber)
    obtain ⟨columns, hreply⟩ := execute_selectOne hdb htokens hparse (by intro h; cases h) rfl
      (fun _ => rfl)
    exact ⟨columns, _, hreply, Int64.toInt_ofInt_of_le (by omega) (by omega)⟩
  · rw [if_neg hle]
    have hrefused : stoll d = none := by
      rw [stoll_digits hd hdigits, if_pos (by omega)]
    have hparse := parseTokens_select_error
      (fun fuel => parsePrefixExpression_digits_error hnumber hrefused (fuel + 1) [keyword] [last])
      (by rw [show number.type = .integer from congrArg Prod.fst hnumber]; decide) hkeyword rfl
      hlast
    exact ⟨_, execute_parseError htokens hparse⟩

/-- `SELECT -d` where the digits are not the text of the special case. -/
theorem selectNegated_answers (hdb : db.Consistent) (hblank : blank ≠ [])
    (hspaces : ∀ c ∈ blank, isSpace c = true) (hgap : ∀ c ∈ gap, isSpace c = true) (hd : d ≠ [])
    (hdigits : ∀ c ∈ d, isDigit c = true) (hne : d ≠ ascii "9223372036854775808") :
    AnswersInteger (execute db (selectNegated blank gap d)).1
      (inRange (digitsValue d) (2 ^ 63 - 1) (-digitsValue d)) := by
  obtain ⟨keyword, sign, number, last, htokens, hkeyword, hsign, hnumber, hlast⟩ :=
    tokenize_selectNegated hblank hspaces hgap hd hdigits
  rw [inRange]
  by_cases hle : digitsValue d ≤ 2 ^ 63 - 1
  · rw [if_pos hle]
    have hread : stoll d = some (Int64.ofInt (digitsValue d)) := by
      rw [stoll_digits hd hdigits, if_neg (by omega)]
    have htoInt : (Int64.ofInt (digitsValue d)).toInt = digitsValue d :=
      Int64.toInt_ofInt_of_le (by omega) (by omega)
    -- the digits stand for a number from 0 on, so the checked negation succeeds
    have hmin : Int64.ofInt (digitsValue d) ≠ Int64.minValue := by
      intro heq
      rw [heq] at htoInt
      have := Int64.toInt_minValue
      omega
    have hprefix : ReadsPrefix (.unary .minus (.integerLiteral (Int64.ofInt (digitsValue d))))
        [(.minus, ascii "-"), (.integer, d)] :=
      @ReadsPrefix.sign .minus _ _ _ (readsPrefix_digits hread) (by decide) fun h => hne h.2
    have hparse : parseTokens [keyword, sign, number, last] = _ :=
      @parseTokens_select_ok keyword last [sign, number] _ _ _ hprefix (by decide) hkeyword hlast
        (by rw [List.map_cons, List.map_cons, hsign, hnumber, List.map_nil])
    have hnegate : checkedIntegerNegate (Int64.ofInt (digitsValue d)) (ascii "unary minus")
        = .ok (-Int64.ofInt (digitsValue d)) := if_neg hmin
    have hvalue : ∀ context, evaluate context (.unary .integer .minus
          (makeTypedLiteral (.integer (Int64.ofInt (digitsValue d))) .integer))
        = .ok (.integer (-Int64.ofInt (digitsValue d))) := by
      intro context
      show (checkedIntegerNegate (Int64.ofInt (digitsValue d)) (ascii "unary minus") >>=
        fun negated => .ok (Value.integer negated)) = _
      rw [hnegate, ok_bind]
    obtain ⟨columns, hreply⟩ := execute_selectOne hdb htokens hparse (by intro h; cases h) rfl
      hvalue
    refine ⟨columns, _, hreply, ?_⟩
    rw [Int64.toInt_neg, htoInt]
    exact Int.bmod_eq_of_le (by omega) (by omega)
  · rw [if_neg hle]
    have hrefused : stoll d = none := by
      rw [stoll_digits hd hdigits, if_pos (by omega)]
    -- the special case compares the text, and this is another one
    have hguard : ¬(number.type = .integer ∧ number.lexeme = ascii "9223372036854775808") := by
      intro h
      exact hne ((congrArg Prod.snd hnumber).symm.trans h.2)
    have hprefix : ∀ fuel, parsePrefixExpression (fuel + 3) ⟨[keyword], [sign, number, last]⟩
        = .error (.parseError (ascii "integer literal is out of range") number.range.start) := by
      intro fuel
      rw [@parsePrefixExpression_sign _ .minus _ _ _ _ (by decide) hsign hguard]
      exact parser_bind_error
        (parsePrefixExpression_digits_error hnumber hrefused fuel [sign, keyword] [last]) _
    have hparse := parseTokens_select_error hprefix
      (by rw [show sign.type = .minus from congrArg Prod.fst hsign]; decide) hkeyword rfl hlast
    exact ⟨_, execute_parseError htokens hparse⟩

/-- The spelling of the special case. -/
theorem selectNegated_minValue (hdb : db.Consistent) (hblank : blank ≠ [])
    (hspaces : ∀ c ∈ blank, isSpace c = true) (hgap : ∀ c ∈ gap, isSpace c = true) :
    AnswersInteger (execute db (selectNegated blank gap (ascii "9223372036854775808"))).1
      (some (-2 ^ 63)) := by
  obtain ⟨keyword, sign, number, last, htokens, hkeyword, hsign, hnumber, hlast⟩ :=
    @tokenize_selectNegated blank gap (ascii "9223372036854775808") hblank hspaces hgap
      (by decide) (List.all_eq_true.mp (by decide))
  have hparse : parseTokens [keyword, sign, number, last] = _ :=
    @parseTokens_select_ok keyword last [sign, number] _ _ _ readsPrefix_minValue (by decide)
      hkeyword hlast (by rw [List.map_cons, List.map_cons, hsign, hnumber, List.map_nil])
  obtain ⟨columns, hreply⟩ := execute_selectOne hdb htokens hparse (by intro h; cases h) rfl
    (fun _ => rfl)
  exact ⟨columns, _, hreply, Int64.toInt_minValue⟩

end Literals

/-- **INTEGER LITERALS** answer with their value, whatever their spelling and
    the blanks behind the sign, exactly when the digits do not spell `2^63` in
    another way than `9223372036854775808`. -/
theorem integerLiterals_exact_iff (texts : List Bytes) {blank gap d : Bytes} (hblank : blank ≠ [])
    (hspaces : ∀ c ∈ blank ++ gap, isSpace c = true) (hd : d ≠ [])
    (hdigits : ∀ c ∈ d, isDigit c = true) :
    LiteralsExact (engineAfter texts) blank gap d
      ↔ (digitsValue d = 2 ^ 63 → d = ascii "9223372036854775808") := by
  have hdb := engineAfter_consistent texts
  have hblanks : ∀ c ∈ blank, isSpace c = true := fun c hc =>
    hspaces c (List.mem_append_left gap hc)
  have hgap : ∀ c ∈ gap, isSpace c = true := fun c hc =>
    hspaces c (List.mem_append_right blank hc)
  have hplain := selectNumber_answers hdb hblank hblanks hd hdigits
  by_cases hmin : d = ascii "9223372036854775808"
  · -- the special case of the parser
    subst hmin
    have hvalue : digitsValue (ascii "9223372036854775808") = 2 ^ 63 := by decide
    refine ⟨fun _ _ => rfl, fun _ => ⟨hplain, ?_⟩⟩
    rw [hvalue, inRange, if_pos (Nat.le_refl _)]
    exact selectNegated_minValue hdb hblank hblanks hgap
  · have hneg := selectNegated_answers hdb hblank hblanks hgap hd hdigits hmin
    by_cases hvalue : digitsValue d = 2 ^ 63
    · -- another spelling of `2^63`: refused
      rw [inRange, if_neg (by omega)] at hneg
      constructor
      · rintro ⟨-, hexact⟩ _
        rw [inRange, if_pos (by omega)] at hexact
        obtain ⟨message, herror⟩ := hneg
        obtain ⟨columns, value, hok, -⟩ := hexact
        cases hok.symm.trans herror
      · intro h
        exact absurd (h hvalue) hmin
    · refine ⟨fun _ h => absurd h hvalue, fun _ => ⟨hplain, ?_⟩⟩
      have hlimit : inRange (digitsValue d) (2 ^ 63) (-digitsValue d)
          = inRange (digitsValue d) (2 ^ 63 - 1) (-digitsValue d) := by
        unfold inRange
        by_cases hle : digitsValue d ≤ 2 ^ 63 - 1
        · rw [if_pos hle, if_pos (by omega)]
        · rw [if_neg hle, if_neg (by omega)]
      rw [hlimit]
      exact hneg

/-- Leading zeros and a line break behind the sign. -/
theorem integerLiterals_exact_iff_zeros :
    LiteralsExact (engineAfter []) (ascii " ") [10] (ascii "007") :=
  (integerLiterals_exact_iff [] (by decide) (List.all_eq_true.mp (by decide)) (by decide)
    (List.all_eq_true.mp (by decide))).mpr
    fun h => absurd h (by decide)

/-- A leading zero in front of `2^63` makes the negative literal a
    `ParseError`. -/
theorem negative_literal_leading_zero :
    digitsValue (ascii "09223372036854775808") = 2 ^ 63
      ∧ (execute {} (selectNegated (ascii " ") [] (ascii "09223372036854775808"))).1
        = errorResult .parseError (ascii "integer literal is out of range")
      ∧ ¬LiteralsExact {} (ascii " ") [] (ascii "09223372036854775808") := by
  have hreply : (execute {} (selectNegated (ascii " ") [] (ascii "09223372036854775808"))).1
      = errorResult .parseError (ascii "integer literal is out of range") := by
    decide +kernel
  refine ⟨by decide, hreply, ?_⟩
  rintro ⟨-, columns, value, hok, -⟩
  rw [hreply] at hok
  cases hok

end MattSql
