import MattSql.ParserProofs
import MattSql.TilingProofs

/-! # Printed expressions

    Expressions printed with the fewest parentheses, and what the lexer makes
    of the text: exactly the printed tokens.

    The levels are those of the grammar: OR, AND, NOT, comparisons, `+` and
    `-`, `*` and `/`, prefix signs.  An operand is put in parentheses when its
    level is below the one its place asks for; binary operators ask for their
    own level on the left and for the next one on the right. -/

namespace MattSql

/-- The token of a binary operator. -/
def BinaryOperator.kind : BinaryOperator → TokenKind
  | .add => (.plus, ascii "+")
  | .subtract => (.minus, ascii "-")
  | .multiply => (.star, ascii "*")
  | .divide => (.slash, ascii "/")
  | .equal => (.equal, ascii "=")
  | .notEqual => (.notEqual, ascii "<>")
  | .less => (.less, ascii "<")
  | .lessEqual => (.lessEqual, ascii "<=")
  | .greater => (.greater, ascii ">")
  | .greaterEqual => (.greaterEqual, ascii ">=")
  | .and => (.and, ascii "AND")
  | .or => (.or, ascii "OR")

/-- The token of a unary operator. -/
def UnaryOperator.kind : UnaryOperator → TokenKind
  | .plus => (.plus, ascii "+")
  | .minus => (.minus, ascii "-")
  | .not => (.not, ascii "NOT")

/-- OR < AND < comparisons < `+`, `-` < `*`, `/`. -/
def BinaryOperator.level : BinaryOperator → Nat
  | .or => 1
  | .and => 2
  | .equal | .notEqual | .less | .lessEqual | .greater | .greaterEqual => 4
  | .add | .subtract => 5
  | .multiply | .divide => 6

/-- NOT stands between AND and the comparisons, the signs above all binary
    operators. -/
def UnaryOperator.level : UnaryOperator → Nat
  | .not => 3
  | .plus | .minus => 7

def Expression.level : Expression → Nat
  | .unary op _ => op.level
  | .binary _ op _ => op.level
  | _ => 8

/-- The decimal digits of a number. -/
def decimalDigits (n : Nat) : Bytes :=
  if n < 10 then [UInt8.ofNat (48 + n)]
  else decimalDigits (n / 10) ++ [UInt8.ofNat (48 + n % 10)]

/-- Quotes inside a string are doubled. -/
def escapeQuotes : Bytes → Bytes
  | [] => []
  | c :: cs => if c = 39 then 39 :: 39 :: escapeQuotes cs else c :: escapeQuotes cs

/-- A string literal. -/
def quoteSqlString (s : Bytes) : Bytes := 39 :: escapeQuotes s ++ [39]

/-- The tokens of a dotted name. -/
def nameKinds : List Bytes → List TokenKind
  | [] => []
  | part :: parts =>
    (.identifier, part) :: parts.flatMap fun part => [(.dot, ascii "."), (.identifier, part)]

def leftParenKind : TokenKind := (.leftParen, ascii "(")

def rightParenKind : TokenKind := (.rightParen, ascii ")")

/-- The tokens of an operand where the given level is asked for. -/
def atLevel (level : Nat) (operand : Expression) (kinds : List TokenKind) : List TokenKind :=
  if operand.level < level then leftParenKind :: kinds ++ [rightParenKind] else kinds

/-- The tokens of an expression, with the fewest parentheses. -/
def Expression.print : Expression → List TokenKind
  | .integerLiteral value => [(.integer, decimalDigits value.toInt.toNat)]
  | .stringLiteral value => [(.string, quoteSqlString value)]
  | .booleanLiteral true => [(.true, ascii "TRUE")]
  | .booleanLiteral false => [(.false, ascii "FALSE")]
  | .nullLiteral => [(.null, ascii "NULL")]
  | .columnRef name => nameKinds (name.splitOn 46)
  | .unary op operand => op.kind :: atLevel op.level operand operand.print
  | .binary left op right =>
    atLevel op.level left left.print ++ op.kind :: atLevel (op.level + 1) right right.print
  | .star => [(.star, ascii "*")]

/-- A name that is no keyword. -/
def IsIdentifier (part : Bytes) : Prop :=
  part ≠ [] ∧ isAlpha (part.headD 0) = true ∧ part.all isAlphaNumeric = true
    ∧ lookupKeyword part = .identifier

instance : DecidablePred IsIdentifier := fun _ => inferInstanceAs (Decidable (_ ∧ _))

/-- Built from non-negative integers, strings, TRUE, FALSE, NULL and (dotted)
    names that are no keywords, with the prefix signs, NOT and the binary
    operators. -/
def Expression.Printable : Expression → Prop
  | .integerLiteral value => 0 ≤ value
  | .columnRef name => ∀ part ∈ name.splitOn 46, IsIdentifier part
  | .unary _ operand => operand.Printable
  | .binary left _ right => left.Printable ∧ right.Printable
  | .star => False
  | _ => True

/-- The text of a list of tokens: their lexemes with a space between them. -/
def renderKinds (kinds : List TokenKind) : Bytes := [32].intercalate (kinds.map (·.2))

/-- `SELECT` and the printed expression. -/
def selectText (e : Expression) : Bytes :=
  renderKinds ((.select, ascii "SELECT") :: e.print)

example : selectText (.binary (.unary .not (.booleanLiteral true)) .and (.booleanLiteral false))
    = ascii "SELECT NOT TRUE AND FALSE" := by decide

/-! ## The lexer on printed tokens -/

/-- The operator and punctuation tokens that are printed. -/
def symbolKinds : List TokenKind :=
  [(.plus, ascii "+"), (.minus, ascii "-"), (.star, ascii "*"), (.slash, ascii "/"),
    (.equal, ascii "="), (.notEqual, ascii "<>"), (.less, ascii "<"),
    (.lessEqual, ascii "<="), (.greater, ascii ">"), (.greaterEqual, ascii ">="),
    (.leftParen, ascii "("), (.rightParen, ascii ")"), (.dot, ascii "."),
    (.comma, ascii ","), (.semicolon, ascii ";")]

/-- What the text of a printed token looks like. -/
inductive Lexes : TokenKind → Prop
  | word {text : Bytes} (hne : text ≠ []) (hhead : isAlpha (text.headD 0) = true)
      (hall : ∀ c ∈ text, isAlphaNumeric c = true) : Lexes (lookupKeyword text, text)
  | number {text : Bytes} (hne : text ≠ []) (hall : ∀ c ∈ text, isDigit c = true) :
      Lexes (.integer, text)
  | string (s : Bytes) : Lexes (.string, quoteSqlString s)
  | symbol {kind : TokenKind} (h : kind ∈ symbolKinds) : Lexes kind

/-- What stands after a printed token: nothing, or a blank. -/
def Gap (rest : Bytes) : Prop := rest = [] ∨ ∃ more, rest = 32 :: more

/-- A test that a blank fails stops at a gap. -/
theorem takeWhile_gap {keep : UInt8 → Bool} {text rest : Bytes}
    (hall : ∀ c ∈ text, keep c = true) (hkeep : keep 32 = false) (hgap : Gap rest) :
    (text ++ rest).takeWhile keep = text := by
  rw [List.takeWhile_append_of_pos hall]
  rcases hgap with rfl | ⟨more, rfl⟩
  · simp
  · simp [hkeep]

/-- The token that is made once its text is consumed. -/
theorem makeToken_kind {lexer : Lexer} {text rest : Bytes} (type : TokenType)
    (hstart : lexer.startRest = text ++ rest) (hrest : lexer.rest = rest) :
    (lexer.makeToken type).kind = (type, text) := by
  simp [Lexer.makeToken, Token.kind, hstart, hrest]

/-- The lexer past a text that a loop accepts as a whole. -/
theorem advanceWhile_gap {lexer : Lexer} {keep : UInt8 → Bool} {text rest : Bytes}
    (hrest : lexer.rest = text ++ rest) (hall : ∀ c ∈ text, keep c = true)
    (hkeep : keep 32 = false) (hgap : Gap rest) : (lexer.advanceWhile keep).rest = rest := by
  simp [Lexer.advanceWhile, Lexer.advance, hrest, takeWhile_gap hall hkeep hgap]

/-- A string runs up to its closing quote. -/
theorem stringLength_escapeQuotes (s : Bytes) {rest : Bytes} (hgap : Gap rest) :
    stringLength (escapeQuotes s ++ 39 :: rest) = ((escapeQuotes s).length + 1, true) := by
  induction s with
  | nil =>
      rcases hgap with rfl | ⟨more, rfl⟩
      · rfl
      · rfl
  | cons c s ih =>
      by_cases hc : c = 39
      · rw [escapeQuotes, if_pos hc]
        show stringLength (39 :: 39 :: (escapeQuotes s ++ 39 :: rest)) = _
        rw [stringLength, if_pos rfl, if_pos rfl, ih]
        rfl
      · rw [escapeQuotes, if_neg hc]
        obtain ⟨d, ds, heq⟩ : ∃ d ds, escapeQuotes s ++ 39 :: rest = d :: ds := by
          cases escapeQuotes s with
          | nil => exact ⟨39, rest, rfl⟩
          | cons d ds => exact ⟨d, ds ++ 39 :: rest, rfl⟩
        rw [List.cons_append, heq, stringLength, if_neg hc, ← heq, ih]
        rfl

/-- Scanning a printed operator takes its characters. -/
theorem scanToken_symbol {lexer : Lexer} {kind : TokenKind} (h : kind ∈ symbolKinds)
    {rest : Bytes} (hrest : lexer.rest = kind.2 ++ rest) (hgap : Gap rest) :
    lexer.markTokenStart.scanToken
      = ((lexer.markTokenStart.advance kind.2.length).makeToken kind.1,
          lexer.markTokenStart.advance kind.2.length) := by
  obtain ⟨text, location, startRest, startLocation⟩ := lexer
  cases hrest
  simp only [symbolKinds, List.mem_cons, List.not_mem_nil, or_false] at h
  rcases hgap with rfl | ⟨more, rfl⟩ <;>
    rcases h with rfl | rfl | rfl | rfl | rfl | rfl | rfl | rfl | rfl | rfl | rfl | rfl | rfl |
      rfl | rfl <;>
    rfl

theorem isAlpha_of_isDigit {c : UInt8} (h : isDigit c = true) : isAlpha c = false := by
  simp only [isAlpha, isDigit, UInt8.le_iff_toNat_le, ← UInt8.toNat_inj, decide_eq_true_eq,
    decide_eq_false_iff_not, UInt8.reduceToNat] at h ⊢
  omega

/-- A printed token is scanned as itself, up to the gap behind it. -/
theorem scanToken_lexes {lexer : Lexer} {kind : TokenKind} (h : Lexes kind) {rest : Bytes}
    (hrest : lexer.rest = kind.2 ++ rest) (hgap : Gap rest) :
    ∃ token lexer', lexer.markTokenStart.scanToken = (token, lexer')
      ∧ token.kind = kind ∧ lexer'.rest = rest := by
  have hstart : lexer.markTokenStart.rest = kind.2 ++ rest := hrest
  -- one case per kind of token; the gap behind it stops the scanner's loop
  cases h with
  | @word text hne hhead hall =>
      have hadv := advanceWhile_gap hstart hall (by decide) hgap
      have hpeek : lexer.markTokenStart.peek = text.headD 0 := by
        cases text with
        | nil => exact absurd rfl hne
        | cons c text => simp [Lexer.peek, hstart]
      have hscan : lexer.markTokenStart.scanToken = lexer.markTokenStart.scanIdentifierOrKeyword := by
        rw [Lexer.scanToken, if_neg (by simp [hstart, hne]), hpeek, if_pos hhead]
      refine ⟨_, _, hscan, ?_, hadv⟩
      have hlexeme : (lexer.markTokenStart.advanceWhile isAlphaNumeric).startRest = text ++ rest :=
        hstart
      show ((lexer.markTokenStart.advanceWhile isAlphaNumeric).makeToken (lookupKeyword _)).kind = _
      rw [makeToken_kind _ hlexeme hadv, hlexeme, hadv]
      simp
  | @number text hne hall =>
      have hadv := advanceWhile_gap hstart hall (by decide) hgap
      obtain ⟨c, text, rfl⟩ := List.exists_cons_of_ne_nil hne
      have hdigit : isDigit c = true := hall c List.mem_cons_self
      have halpha : isAlpha c = false := isAlpha_of_isDigit hdigit
      have hscan : lexer.markTokenStart.scanToken = lexer.markTokenStart.scanNumber := by
        rw [Lexer.scanToken, if_neg (by simp [hstart]), Lexer.peek, hstart]
        simp [halpha, hdigit]
      exact ⟨_, _, hscan, makeToken_kind _ hstart hadv, hadv⟩
  | string s =>
      have hlength := stringLength_escapeQuotes s hgap
      have hbody : (lexer.markTokenStart.advance 1).rest = escapeQuotes s ++ 39 :: rest := by
        simp [Lexer.advance, hstart, quoteSqlString]
      have hscan : lexer.markTokenStart.scanToken = lexer.markTokenStart.scanString := by
        rw [Lexer.scanToken, if_neg (by simp [hstart, quoteSqlString]), Lexer.peek, hstart]
        rfl
      have hend : ((lexer.markTokenStart.advance 1).advance ((escapeQuotes s).length + 1)).rest
          = rest := by
        show ((lexer.markTokenStart.advance 1).rest).drop _ = rest
        rw [hbody]
        simp
      refine ⟨_, _, hscan.trans ?_, makeToken_kind _ hstart hend, hend⟩
      rw [Lexer.scanString, hbody, hlength]
      rfl
  | symbol h =>
      have hadv : (lexer.markTokenStart.advance kind.2.length).rest = rest := by
        simp [Lexer.advance, hstart]
      exact ⟨_, _, scanToken_symbol h hrest hgap, makeToken_kind _ hstart hadv, hadv⟩

/-- A first character that starts neither a blank nor a comment. -/
theorem startsToken_of_head {c : UInt8} {text : Bytes} (hspace : isSpace c = false)
    (hminus : c ≠ 45) (hslash : c ≠ 47) : StartsToken (c :: text) :=
  ⟨List.cons_ne_nil _ _, hspace, fun h => hminus h.1, fun h => hslash h.1⟩

theorem startsToken_of_alphaNumeric {c : UInt8} {text : Bytes} (h : isAlphaNumeric c = true) :
    StartsToken (c :: text) := by
  have hclass : isSpace c = false ∧ c ≠ 45 ∧ c ≠ 47 := by
    simp only [isAlphaNumeric, isAlpha, isDigit, isSpace, UInt8.le_iff_toNat_le,
      ← UInt8.toNat_inj, Bool.or_eq_true, decide_eq_true_eq, decide_eq_false_iff_not, ne_eq,
      UInt8.reduceToNat] at h ⊢
    omega
  exact startsToken_of_head hclass.1 hclass.2.1 hclass.2.2

theorem startsToken_lexes {kind : TokenKind} (h : Lexes kind) {rest : Bytes} (hgap : Gap rest) :
    StartsToken (kind.2 ++ rest) := by
  cases h with
  | @word text hne hhead hall =>
      obtain ⟨c, text, rfl⟩ := List.exists_cons_of_ne_nil hne
      exact startsToken_of_alphaNumeric (hall c List.mem_cons_self)
  | @number text hne hall =>
      obtain ⟨c, text, rfl⟩ := List.exists_cons_of_ne_nil hne
      exact startsToken_of_alphaNumeric (by simp [isAlphaNumeric, hall c List.mem_cons_self])
  | string s => exact startsToken_of_head (by decide) (by decide) (by decide)
  | symbol h =>
      simp only [symbolKinds, List.mem_cons, List.not_mem_nil, or_false] at h
      rcases hgap with rfl | ⟨more, rfl⟩ <;>
        rcases h with
          rfl | rfl | rfl | rfl | rfl | rfl | rfl | rfl | rfl | rfl | rfl | rfl | rfl | rfl | rfl <;>
        exact ⟨List.append_ne_nil_of_left_ne_nil (by decide) _, rfl, of_decide_eq_true rfl,
          of_decide_eq_true rfl⟩

/-- One blank is skipped. -/
theorem skipTrivia_blank {lexer : Lexer} {text : Bytes} (hrest : lexer.rest = 32 :: text)
    (h : StartsToken text) {rounds : Nat} (hrounds : 1 < rounds) :
    lexer.skipTrivia rounds = .ok (lexer.advance 1) := by
  obtain ⟨rounds, rfl⟩ := Nat.exists_eq_add_one_of_ne_zero (Nat.ne_of_gt (Nat.lt_of_succ_lt hrounds))
  have hadv : (lexer.advance 1).rest = text := by simp [Lexer.advance, hrest]
  rw [Lexer.skipTrivia, if_neg (by simp [hrest]), if_pos (by simp [Lexer.peek, hrest, isSpace])]
  exact skipTrivia_startsToken (by rw [hadv]; exact h) (Nat.lt_of_succ_lt_succ hrounds)

/-- The lexemes, each behind a blank. -/
def spacedKinds (kinds : List TokenKind) : Bytes := kinds.flatMap fun kind => 32 :: kind.2

theorem spacedKinds_gap (kinds : List TokenKind) : Gap (spacedKinds kinds) := by
  cases kinds with
  | nil => exact .inl rfl
  | cons kind kinds => exact .inr ⟨_, rfl⟩

/-- Pieces with a separator between them are the first piece and the others,
    each behind a separator. -/
theorem intercalate_cons_flatMap (separator : UInt8) (piece : Bytes) (pieces : List Bytes) :
    [separator].intercalate (piece :: pieces)
      = piece ++ pieces.flatMap fun piece => separator :: piece := by
  induction pieces generalizing piece with
  | nil => simp
  | cons next pieces ih =>
      rw [List.intercalate_cons_cons, ih]
      simp

/-- The text is the spaced lexemes without the first blank. -/
theorem renderKinds_eq_drop (kinds : List TokenKind) :
    renderKinds kinds = (spacedKinds kinds).drop 1 := by
  cases kinds with
  | nil => rfl
  | cons kind kinds =>
      rw [renderKinds, List.map_cons, intercalate_cons_flatMap]
      simp [spacedKinds, List.flatMap_map]

/-- Past the blank in front of a printed token. -/
theorem skipTrivia_spaced {lexer : Lexer} {kind : TokenKind} {kinds : List TokenKind}
    (h : Lexes kind)
    (hrest : lexer.rest = spacedKinds (kind :: kinds)
      ∨ lexer.rest = (spacedKinds (kind :: kinds)).drop 1) :
    ∃ lexer', lexer.skipTrivia lexer.rest.length = .ok lexer'
      ∧ lexer'.rest = kind.2 ++ spacedKinds kinds := by
  have hstarts : StartsToken (kind.2 ++ spacedKinds kinds) :=
    startsToken_lexes h (spacedKinds_gap kinds)
  have hlength : 0 < (kind.2 ++ spacedKinds kinds).length := List.length_pos_of_ne_nil hstarts.1
  have hcons : spacedKinds (kind :: kinds) = 32 :: (kind.2 ++ spacedKinds kinds) := by
    simp [spacedKinds]
  rw [hcons] at hrest
  rcases hrest with hrest | hrest
  · refine ⟨_, skipTrivia_blank hrest hstarts ?_, by simp [Lexer.advance, hrest]⟩
    rw [hrest, List.length_cons]
    exact Nat.succ_lt_succ hlength
  · rw [List.drop_one, List.tail_cons] at hrest
    exact ⟨_, skipTrivia_startsToken (by rw [hrest]; exact hstarts) (by rw [hrest]; exact hlength),
      hrest⟩

theorem Lexes.ne_endOfFile {kind : TokenKind} (h : Lexes kind) : kind.1 ≠ .endOfFile := by
  cases h with
  | word hne hhead hall => exact lookupKeyword_ne_endOfFile _
  | number hne hall => exact nofun
  | string s => exact nofun
  | symbol h =>
      revert h
      revert kind
      decide

/-- **THE LEXER READS PRINTED TOKENS BACK.**  The induction is on the tokens;
    each round of the loop skips the blank in front of one and scans it. -/
theorem tokenizeLoop_spaced {kinds : List TokenKind} (h : ∀ kind ∈ kinds, Lexes kind)
    {rounds : Nat} (hrounds : kinds.length < rounds) {lexer : Lexer}
    (hrest : lexer.rest = spacedKinds kinds ∨ lexer.rest = (spacedKinds kinds).drop 1) :
    ∃ tokens, lexer.tokenizeLoop rounds = .ok tokens
      ∧ tokens.map Token.kind = kinds ++ [(.endOfFile, [])] := by
  induction kinds generalizing rounds lexer with
  | nil =>
      obtain ⟨rounds, rfl⟩ := Nat.exists_eq_add_one_of_ne_zero (Nat.ne_of_gt hrounds)
      have hnil : lexer.rest = [] := by
        rcases hrest with h | h <;> exact h
      have hskip : lexer.skipTrivia lexer.rest.length = .ok lexer := by
        rw [hnil, List.length_nil, Lexer.skipTrivia, if_pos hnil]
      have hscan : lexer.markTokenStart.scanToken
          = (⟨.endOfFile, [], ⟨lexer.location, lexer.location⟩⟩, lexer.markTokenStart) := by
        rw [Lexer.scanToken, if_pos (show lexer.markTokenStart.rest = [] from hnil)]
        rfl
      refine ⟨[⟨.endOfFile, [], ⟨lexer.location, lexer.location⟩⟩], ?_, rfl⟩
      rw [Lexer.tokenizeLoop, hskip]
      dsimp only
      rw [hscan]
      rfl
  | cons kind kinds ih =>
      obtain ⟨rounds, rfl⟩ := Nat.exists_eq_add_one_of_ne_zero (Nat.ne_of_gt (Nat.zero_lt_of_lt hrounds))
      have hkind := h kind List.mem_cons_self
      obtain ⟨skipped, hskip, hskipped⟩ := skipTrivia_spaced hkind hrest
      obtain ⟨token, lexer', hscan, htoken, hrest'⟩ :=
        scanToken_lexes hkind hskipped (spacedKinds_gap kinds)
      obtain ⟨tokens, hloop, htokens⟩ :=
        ih (fun kind hmem => h kind (List.mem_cons_of_mem _ hmem)) (Nat.lt_of_succ_lt_succ hrounds)
          (.inl hrest')
      have htype : token.type ≠ .endOfFile := by
        rw [show token.type = kind.1 from congrArg Prod.fst htoken]
        exact hkind.ne_endOfFile
      refine ⟨token :: tokens, ?_, ?_⟩
      · rw [Lexer.tokenizeLoop, hskip]
        dsimp only
        rw [hscan]
        dsimp only
        rw [if_neg htype, hloop]
        rfl
      · rw [List.map_cons, htoken, htokens]
        rfl

/-- Every token has a blank and a character at least. -/
theorem length_le_spacedKinds {kinds : List TokenKind} (h : ∀ kind ∈ kinds, Lexes kind) :
    2 * kinds.length ≤ (spacedKinds kinds).length := by
  induction kinds with
  | nil => exact Nat.le_refl _
  | cons kind kinds ih =>
      have htail := ih fun kind hmem => h kind (List.mem_cons_of_mem _ hmem)
      have hne : kind.2 ≠ [] := by
        have hstarts := startsToken_lexes (h kind List.mem_cons_self) (.inl rfl)
        rw [List.append_nil] at hstarts
        exact hstarts.1
      have hpos := List.length_pos_of_ne_nil hne
      simp only [spacedKinds, List.flatMap_cons, List.length_append, List.length_cons] at htail ⊢
      omega

/-- Lexing a printed text gives its tokens and the end of the file. -/
theorem tokenize_renderKinds {kinds : List TokenKind} (h : ∀ kind ∈ kinds, Lexes kind) :
    ∃ tokens, tokenize (renderKinds kinds) = .ok tokens
      ∧ tokens.map Token.kind = kinds ++ [(.endOfFile, [])] := by
  have hlength : kinds.length < (renderKinds kinds).length + 1 := by
    have hle := length_le_spacedKinds h
    rw [renderKinds_eq_drop, List.length_drop]
    omega
  exact tokenizeLoop_spaced h hlength (.inr (renderKinds_eq_drop kinds))

/-! ## Printed literals and names -/

theorem decimalDigits_ne_nil (n : Nat) : decimalDigits n ≠ [] := by
  rw [decimalDigits]
  split <;> simp

theorem isDigit_ofNat {d : Nat} (h : d < 10) : isDigit (UInt8.ofNat (48 + d)) = true := by
  have hlt : 48 + d < 256 := by omega
  simp only [isDigit, UInt8.le_iff_toNat_le, UInt8.toNat_ofNat', decide_eq_true_eq,
    UInt8.reduceToNat, Nat.mod_eq_of_lt hlt]
  omega

theorem decimalDigits_isDigit (n : Nat) : ∀ c ∈ decimalDigits n, isDigit c = true := by
  induction n using decimalDigits.induct with
  | case1 n h =>
      rw [decimalDigits, if_pos h]
      intro c hc
      rw [List.mem_singleton] at hc
      subst hc
      exact isDigit_ofNat h
  | case2 n h ih =>
      rw [decimalDigits, if_neg h]
      intro c hc
      rcases List.mem_append.mp hc with hc | hc
      · exact ih c hc
      · rw [List.mem_singleton] at hc
        subst hc
        exact isDigit_ofNat (Nat.mod_lt n (by decide))

/-- The digits of a number stand for it. -/
theorem digitsValue_decimalDigits (n : Nat) : digitsValue (decimalDigits n) = n := by
  have hdigit : ∀ d : Nat, d < 10 → (UInt8.ofNat (48 + d)).toNat - 48 = d := by
    intro d hd
    rw [UInt8.toNat_ofNat', Nat.mod_eq_of_lt (by omega)]
    omega
  induction n using decimalDigits.induct with
  | case1 n h =>
      rw [decimalDigits, if_pos h]
      show 10 * 0 + ((UInt8.ofNat (48 + n)).toNat - 48) = n
      rw [hdigit n h]
      omega
  | case2 n h ih =>
      rw [decimalDigits, if_neg h, digitsValue, List.foldl_append, ← digitsValue, ih]
      show 10 * (n / 10) + ((UInt8.ofNat (48 + n % 10)).toNat - 48) = n
      rw [hdigit _ (Nat.mod_lt n (by decide))]
      omega

/-- `std::stoll` on digits alone. -/
theorem stoll_digits {digits : Bytes} (hne : digits ≠ []) (hall : ∀ c ∈ digits, isDigit c = true) :
    stoll digits = if 2 ^ 63 ≤ digitsValue digits then none
      else some (Int64.ofInt (digitsValue digits)) := by
  obtain ⟨c, cs, heq⟩ := List.exists_cons_of_ne_nil hne
  have hc : isDigit c = true := hall c (heq ▸ List.mem_cons_self)
  have hclass : isSpace c = false ∧ c ≠ 45 ∧ c ≠ 43 := by
    simp only [isDigit, isSpace, UInt8.le_iff_toNat_le, ← UInt8.toNat_inj, decide_eq_true_eq,
      decide_eq_false_iff_not, ne_eq, UInt8.reduceToNat] at hc ⊢
    omega
  obtain ⟨hspace, hminus, hplus⟩ := hclass
  have hdrop : digits.dropWhile isSpace = digits := by
    rw [heq, List.dropWhile_cons, if_neg (by rw [hspace]; decide)]
  have hhead : digits.head? = some c := by rw [heq]; rfl
  have htake : digits.takeWhile isDigit = digits := by
    simpa using takeWhile_gap hall (by decide) (.inl rfl)
  unfold stoll
  dsimp only
  rw [hdrop, hhead]
  simp only [Option.some.injEq, hminus, hplus, or_self, if_false, decide_false, htake, hne,
    false_or, Bool.false_eq_true]
  by_cases hbound : 2 ^ 63 ≤ digitsValue digits
  · rw [if_pos hbound, if_pos (by omega)]
  · rw [if_neg hbound, if_neg (by omega)]

/-- `std::stoll` reads printed numbers back. -/
theorem stoll_decimalDigits {n : Nat} (h : n < 2 ^ 63) :
    stoll (decimalDigits n) = some (Int64.ofInt n) := by
  rw [stoll_digits (decimalDigits_ne_nil n) (decimalDigits_isDigit n), digitsValue_decimalDigits,
    if_neg (Nat.not_le.mpr h)]

theorem unescapeQuotes_escapeQuotes (s : Bytes) : unescapeQuotes (escapeQuotes s) = s := by
  induction s with
  | nil => rfl
  | cons c s ih =>
      by_cases hc : c = 39
      · rw [escapeQuotes, if_pos hc, unescapeQuotes, if_pos ⟨rfl, rfl⟩, ih, hc]
      · rw [escapeQuotes, if_neg hc]
        cases heq : escapeQuotes s with
        | nil =>
            rw [heq] at ih
            rw [← ih]
            rfl
        | cons d ds =>
            rw [unescapeQuotes, if_neg (fun h => hc h.1), ← heq, ih]

/-- Printed strings are read back. -/
theorem unescapeSqlString_quoteSqlString (s : Bytes) :
    unescapeSqlString (quoteSqlString s) = some s := by
  have hlength : ¬(quoteSqlString s).length < 2 := by
    simp [quoteSqlString]
  have hlast : (quoteSqlString s).getLast? = some 39 := by
    simp [quoteSqlString, List.getLast?_append, List.getLast?_cons]
  rw [unescapeSqlString, if_neg (by simp only [not_or, not_not]; exact ⟨hlength, rfl, hlast⟩)]
  have hbody : ((quoteSqlString s).drop 1).dropLast = escapeQuotes s := by
    simp [quoteSqlString]
  rw [hbody, unescapeQuotes_escapeQuotes]

/-- The digits of the smallest integer are never printed. -/
theorem decimalDigits_ne_minValue {n : Nat} (h : n < 2 ^ 63) :
    decimalDigits n ≠ ascii "9223372036854775808" := by
  intro heq
  have hvalue := digitsValue_decimalDigits n
  rw [heq, show digitsValue (ascii "9223372036854775808") = 2 ^ 63 by decide] at hvalue
  omega

/-- The tokens that are printed for expressions. -/
inductive PrintedKind : TokenKind → Prop
  | integer {n : Nat} (h : n < 2 ^ 63) : PrintedKind (.integer, decimalDigits n)
  | string (s : Bytes) : PrintedKind (.string, quoteSqlString s)
  | constant {kind : TokenKind}
      (h : kind ∈ [(.true, ascii "TRUE"), (.false, ascii "FALSE"), (.null, ascii "NULL")]) :
      PrintedKind kind
  | name {part : Bytes} (h : IsIdentifier part) : PrintedKind (.identifier, part)
  | unary (op : UnaryOperator) : PrintedKind op.kind
  | binary (op : BinaryOperator) : PrintedKind op.kind
  | punctuation {kind : TokenKind} (h : kind ∈ [leftParenKind, rightParenKind, (.dot, ascii ".")]) :
      PrintedKind kind

theorem nameKinds_printed {parts : List Bytes} (h : ∀ part ∈ parts, IsIdentifier part) :
    ∀ kind ∈ nameKinds parts, PrintedKind kind := by
  cases parts with
  | nil => exact nofun
  | cons part parts =>
      intro kind hkind
      rcases List.mem_cons.mp hkind with rfl | hkind
      · exact .name (h part List.mem_cons_self)
      · obtain ⟨other, hother, hkind⟩ := List.mem_flatMap.mp hkind
        rcases List.mem_cons.mp hkind with rfl | hkind
        · exact .punctuation (by decide)
        · rw [List.mem_singleton] at hkind
          subst hkind
          exact .name (h other (List.mem_cons_of_mem _ hother))

theorem atLevel_printed {level : Nat} {operand : Expression} {kinds : List TokenKind}
    (h : ∀ kind ∈ kinds, PrintedKind kind) :
    ∀ kind ∈ atLevel level operand kinds, PrintedKind kind := by
  rw [atLevel]
  split
  · intro kind hkind
    rcases List.mem_append.mp hkind with hkind | hkind
    · rcases List.mem_cons.mp hkind with rfl | hkind
      · exact .punctuation (by decide)
      · exact h kind hkind
    · rw [List.mem_singleton] at hkind
      subst hkind
      exact .punctuation (by decide)
  · exact h

/-- Printable expressions are printed with these tokens. -/
theorem Expression.print_printed {e : Expression} (h : e.Printable) :
    ∀ kind ∈ e.print, PrintedKind kind := by
  induction e with
  | integerLiteral value =>
      rintro kind (_ | ⟨_, hkind⟩)
      · have hlt := Int64.toInt_lt value
        exact .integer (by omega)
      · exact nomatch hkind
  | stringLiteral value =>
      rintro kind (_ | ⟨_, hkind⟩)
      · exact .string value
      · exact nomatch hkind
  | booleanLiteral value =>
      intro kind hkind
      refine .constant ?_
      cases value with
      | true =>
          rw [List.mem_singleton.mp hkind]
          exact List.mem_cons_self
      | false =>
          rw [List.mem_singleton.mp hkind]
          exact List.mem_cons_of_mem _ List.mem_cons_self
  | nullLiteral =>
      intro kind hkind
      rw [List.mem_singleton.mp hkind]
      exact .constant (by decide)
  | columnRef name => exact nameKinds_printed h
  | unary op operand ih =>
      intro kind hkind
      rcases List.mem_cons.mp hkind with rfl | hkind
      · exact .unary op
      · exact atLevel_printed (ih h) kind hkind
  | binary left op right ihLeft ihRight =>
      intro kind hkind
      rcases List.mem_append.mp hkind with hkind | hkind
      · exact atLevel_printed (ihLeft h.1) kind hkind
      · rcases List.mem_cons.mp hkind with rfl | hkind
        · exact .binary op
        · exact atLevel_printed (ihRight h.2) kind hkind
  | star => exact nomatch h

/-- A keyword is a word. -/
theorem lexes_keyword {kind : TokenKind}
    (h : kind.2 ≠ [] ∧ isAlpha (kind.2.headD 0) = true ∧ kind.2.all isAlphaNumeric = true
      ∧ lookupKeyword kind.2 = kind.1) : Lexes kind := by
  obtain ⟨hne, hhead, hall, htype⟩ := h
  have hword := Lexes.word hne hhead (List.all_eq_true.mp hall)
  rwa [htype] at hword

/-- Every printed token is one that the lexer reads back. -/
theorem PrintedKind.lexes {kind : TokenKind} (h : PrintedKind kind) : Lexes kind := by
  cases h with
  | integer h => exact .number (decimalDigits_ne_nil _) (decimalDigits_isDigit _)
  | string s => exact .string s
  | constant h =>
      simp only [List.mem_cons, List.not_mem_nil, or_false] at h
      rcases h with rfl | rfl | rfl <;>
        exact lexes_keyword (by decide)
  | name h => exact lexes_keyword h
  | unary op =>
      cases op
      case not => exact lexes_keyword (by decide)
      all_goals exact .symbol (by decide)
  | binary op =>
      cases op
      case and => exact lexes_keyword (by decide)
      case or => exact lexes_keyword (by decide)
      all_goals exact .symbol (by decide)
  | punctuation h =>
      simp only [List.mem_cons, List.not_mem_nil, or_false] at h
      rcases h with rfl | rfl | rfl <;> exact .symbol (by decide)

/-- No printed token is the digits of the smallest integer, which a minus would
    be read together with. -/
theorem PrintedKind.ne_minValue {kind : TokenKind} (h : PrintedKind kind) :
    ¬(kind.1 = .integer ∧ kind.2 = ascii "9223372036854775808") := by
  rintro ⟨htype, htext⟩
  cases h with
  | integer h => exact decimalDigits_ne_minValue h htext
  | string s => exact nomatch htype
  | name h => exact nomatch htype
  | constant h =>
      simp only [List.mem_cons, List.not_mem_nil, or_false] at h
      rcases h with rfl | rfl | rfl <;> exact nomatch htype
  | unary op => cases op <;> exact nomatch htype
  | binary op => cases op <;> exact nomatch htype
  | punctuation h =>
      simp only [List.mem_cons, List.not_mem_nil, or_false] at h
      rcases h with rfl | rfl | rfl <;> exact nomatch htype

/-- **LEXING A PRINTED SELECT** gives the keyword, the printed tokens and the
    end of the file. -/
theorem tokenize_selectText {e : Expression} (h : e.Printable) :
    ∃ tokens, tokenize (selectText e) = .ok tokens
      ∧ tokens.map Token.kind
        = (.select, ascii "SELECT") :: e.print ++ [(.endOfFile, [])] := by
  refine tokenize_renderKinds fun kind hkind => ?_
  rcases List.mem_cons.mp hkind with rfl | hkind
  · exact lexes_keyword (by decide)
  · exact (e.print_printed h kind hkind).lexes

end MattSql
