import MattSql.TilingProofs

/-! # The statement splitter

    `main.cpp` cuts a script at the semicolons that end statements, with a
    scanner of its own: three flags say whether it is in a string, in a line
    comment or in a block comment.

    The splitter agrees with the lexer.  Both read trivia and tokens from left
    to right, so the comparison goes piece by piece: over trivia and over every
    token but a semicolon the splitter only moves on, and at a semicolon it
    stops. -/

namespace MattSql

/-! ## The model -/

/-- The flags of `find_statement_terminator`. -/
structure ScanFlags where
  inString : Bool := false
  inLineComment : Bool := false
  inBlockComment : Bool := false
  deriving DecidableEq, Repr

/-- What one round of the loop does: it returns, or it goes on with new flags
    and may have stepped over the next character. -/
inductive ScanStep where
  | found
  | next (flags : ScanFlags) (skip : Bool)
  deriving DecidableEq, Repr

/-- The body of the loop of `find_statement_terminator`. -/
def scanStep (flags : ScanFlags) (character next : UInt8) : ScanStep :=
  if flags.inString then
    if character = 39 ∧ next = 39 then .next flags true
    else if character = 39 then .next { flags with inString := false } false
    else .next flags false
  else if flags.inLineComment then
    if character = 10 ∨ character = 13 then .next { flags with inLineComment := false } false
    else .next flags false
  else if flags.inBlockComment then
    if character = 42 ∧ next = 47 then .next { flags with inBlockComment := false } true
    else .next flags false
  else if character = 39 then .next { flags with inString := true } false
  else if character = 45 ∧ next = 45 then .next { flags with inLineComment := true } true
  else if character = 47 ∧ next = 42 then .next { flags with inBlockComment := true } true
  else if character = 59 then .found
  else .next flags false

/-- The loop of `find_statement_terminator` from an index on; behind the last
    character the next one reads as a zero byte. -/
def terminatorLoop (flags : ScanFlags) (index : Nat) : Bytes → Option Nat
  | [] => none
  | [character] =>
    match scanStep flags character 0 with
    | .found => some (index + 1)
    | .next _ _ => none
  | character :: next :: rest =>
    match scanStep flags character next with
    | .found => some (index + 1)
    | .next flags false => terminatorLoop flags (index + 1) (next :: rest)
    | .next flags true => terminatorLoop flags (index + 2) rest

/-- `find_statement_terminator`; `npos` is `none`. -/
def findStatementTerminator (buffer : Bytes) : Option Nat := terminatorLoop {} 0 buffer

/-- `extract_statement`: the statement and the buffer that remains. -/
def extractStatement (buffer : Bytes) : Option (Bytes × Bytes) :=
  match findStatementTerminator buffer with
  | none => none
  | some stop => some (buffer.take stop, buffer.drop stop)

/-- `while (extract_statement(sql, statement))` for at most so many rounds: the
    statements in order, and the buffer that remains. -/
def extractStatements : Nat → Bytes → List Bytes × Bytes
  | 0, buffer => ([], buffer)
  | rounds + 1, buffer =>
    match extractStatement buffer with
    | none => ([], buffer)
    | some (statement, rest) =>
      (statement :: (extractStatements rounds rest).1, (extractStatements rounds rest).2)

/-! ## Rounds of the splitter -/

theorem terminatorLoop_found {flags : ScanFlags} {c : UInt8} {rest : Bytes}
    (h : scanStep flags c (rest.headD 0) = .found) (index : Nat) :
    terminatorLoop flags index (c :: rest) = some (index + 1) := by
  cases rest with
  | nil =>
      have h' : scanStep flags c 0 = .found := h
      simp [terminatorLoop, h']
  | cons d rest =>
      have h' : scanStep flags c d = .found := h
      simp [terminatorLoop, h']

theorem terminatorLoop_next {flags flags' : ScanFlags} {c : UInt8} (rest : Bytes)
    (h : scanStep flags c (rest.headD 0) = .next flags' false) (index : Nat) :
    terminatorLoop flags index (c :: rest) = terminatorLoop flags' (index + 1) rest := by
  cases rest with
  | nil =>
      have h' : scanStep flags c 0 = .next flags' false := h
      simp [terminatorLoop, h']
  | cons d rest =>
      have h' : scanStep flags c d = .next flags' false := h
      simp [terminatorLoop, h']

theorem terminatorLoop_skip {flags flags' : ScanFlags} {c d : UInt8} {rest : Bytes}
    (h : scanStep flags c d = .next flags' true) (index : Nat) :
    terminatorLoop flags index (c :: d :: rest) = terminatorLoop flags' (index + 2) rest := by
  simp [terminatorLoop, h]

/-- A character that means nothing to the splitter outside strings and
    comments. -/
def IsPlain (c : UInt8) : Prop := c ≠ 39 ∧ c ≠ 45 ∧ c ≠ 47 ∧ c ≠ 59

theorem scanStep_plain {c : UInt8} (h : IsPlain c) (next : UInt8) :
    scanStep {} c next = .next {} false := by
  obtain ⟨hquote, hdash, hslash, hsemicolon⟩ := h
  simp [scanStep, hquote, hdash, hslash, hsemicolon]

/-- Plain characters are passed. -/
theorem terminatorLoop_plain {text : Bytes} (h : ∀ c ∈ text, IsPlain c) (index : Nat)
    (rest : Bytes) :
    terminatorLoop {} index (text ++ rest) = terminatorLoop {} (index + text.length) rest := by
  induction text generalizing index with
  | nil => rfl
  | cons c text ih =>
      rw [List.cons_append, terminatorLoop_next _ (scanStep_plain (h c List.mem_cons_self) _),
        ih (fun c hc => h c (List.mem_cons_of_mem _ hc)), List.length_cons]
      congr 1
      omega

theorem isPlain_of_isSpace {c : UInt8} (h : isSpace c = true) : IsPlain c := by
  simp only [isSpace, IsPlain, UInt8.le_iff_toNat_le, ← UInt8.toNat_inj, decide_eq_true_eq, ne_eq,
    UInt8.reduceToNat] at h ⊢
  omega

theorem isPlain_of_isAlphaNumeric {c : UInt8} (h : isAlphaNumeric c = true) : IsPlain c := by
  simp only [isAlphaNumeric, isAlpha, isDigit, IsPlain, UInt8.le_iff_toNat_le, ← UInt8.toNat_inj,
    Bool.or_eq_true, decide_eq_true_eq, ne_eq, UInt8.reduceToNat] at h ⊢
  omega

/-- In a string the splitter runs to where the lexer ends it. -/
theorem terminatorLoop_string (text : Bytes) (index : Nat) :
    terminatorLoop { inString := true } index text
      = terminatorLoop {} (index + (stringLength text).1) (text.drop (stringLength text).1) := by
  -- the cases of the lexer's own recursion; a doubled quote goes on
  induction text using stringLength.induct generalizing index with
  | case1 => rfl
  | case2 c =>
      by_cases hc : c = 39
      · subst hc
        rfl
      · have hstep : scanStep { inString := true } c 0 = .next { inString := true } false := by
          simp [scanStep, hc]
        simp [terminatorLoop, stringLength, hstep]
  | case3 cs ih =>
      have hstep : scanStep { inString := true } 39 39 = .next { inString := true } true := rfl
      rw [terminatorLoop_skip hstep, ih, stringLength, if_pos rfl,
        if_pos rfl]
      show terminatorLoop {} _ _ = terminatorLoop {} _ (cs.drop _)
      congr 1
      show index + 2 + _ = index + (_ + 2)
      omega
  | case4 d cs hd =>
      have hstep : scanStep { inString := true } 39 d = .next {} false := by
        simp [scanStep, hd]
      rw [terminatorLoop_next (d :: cs) hstep, stringLength, if_pos rfl, if_neg hd]
      rfl
  | case5 c d cs hc ih =>
      have hstep : scanStep { inString := true } c d = .next { inString := true } false := by
        simp [scanStep, hc]
      rw [terminatorLoop_next (d :: cs) hstep, ih, stringLength, if_neg hc]
      show terminatorLoop {} _ _ = terminatorLoop {} _ ((d :: cs).drop _)
      congr 1
      show index + 1 + _ = index + (_ + 1)
      omega

/-- In a line comment the splitter runs to the end of the line. -/
theorem terminatorLoop_lineComment {body rest : Bytes} (hbody : ∀ c ∈ body, c ≠ 10 ∧ c ≠ 13)
    (hends : LineEnds rest) (index : Nat) :
    terminatorLoop { inLineComment := true } index (body ++ rest)
      = terminatorLoop {} (index + body.length) rest := by
  induction body generalizing index with
  | nil =>
      cases rest with
      | nil => rfl
      | cons c rest =>
          -- the line break leaves the comment here and is a blank outside
          have hc : c = 10 ∨ c = 13 := hends c rfl
          have hline : ∀ next, scanStep { inLineComment := true } c next = .next {} false := by
            intro next
            rcases hc with rfl | rfl <;> rfl
          have hplain : ∀ next, scanStep {} c next = .next {} false := by
            intro next
            rcases hc with rfl | rfl <;> rfl
          rw [List.nil_append, terminatorLoop_next _ (hline _), List.length_nil, Nat.add_zero,
            terminatorLoop_next _ (hplain _)]
  | cons c body ih =>
      obtain ⟨hlf, hcr⟩ := hbody c List.mem_cons_self
      have hstep : ∀ next, scanStep { inLineComment := true } c next
          = .next { inLineComment := true } false := by
        intro next
        simp [scanStep, hlf, hcr]
      rw [List.cons_append, terminatorLoop_next _ (hstep _),
        ih fun c hc => hbody c (List.mem_cons_of_mem _ hc), List.length_cons]
      congr 1
      omega

/-- In a block comment the splitter runs to where the lexer ends it; without an
    end nothing is found. -/
theorem terminatorLoop_blockComment (text : Bytes) (index : Nat) :
    terminatorLoop { inBlockComment := true } index text
      = (blockCommentLength text).bind fun length =>
        terminatorLoop {} (index + length) (text.drop length) := by
  induction text using blockCommentLength.induct generalizing index with
  | case1 => rfl
  | case2 c =>
      have hstep : scanStep { inBlockComment := true } c 0
          = .next { inBlockComment := true } false := by
        simp [scanStep]
      simp [terminatorLoop, blockCommentLength, hstep]
  | case3 c d cs h =>
      obtain ⟨rfl, rfl⟩ := h
      rfl
  | case4 c d cs h ih =>
      have hstep : scanStep { inBlockComment := true } c d
          = .next { inBlockComment := true } false := by
        simp [scanStep, h]
      rw [terminatorLoop_next (d :: cs) hstep, ih, blockCommentLength, if_neg h]
      cases blockCommentLength (d :: cs) with
      | none => rfl
      | some length =>
          show terminatorLoop {} _ _ = terminatorLoop {} _ ((d :: cs).drop _)
          congr 1
          show index + 1 + _ = index + (_ + 1)
          omega

/-- **TRIVIA IS PASSED**, by induction on the trivia. -/
theorem terminatorLoop_trivia {gap rest : Bytes} (h : Trivia gap rest) (index : Nat) :
    terminatorLoop {} index (gap ++ rest) = terminatorLoop {} (index + gap.length) rest := by
  induction h generalizing index with
  | nil rest => rfl
  | @space c text rest hspace h ih =>
      rw [List.cons_append, terminatorLoop_next _ (scanStep_plain (isPlain_of_isSpace hspace) _), ih,
        List.length_cons]
      congr 1
      omega
  | @lineComment body text rest hbody hends h ih =>
      have hstep : scanStep {} 45 45 = .next { inLineComment := true } true := rfl
      rw [List.append_assoc, List.cons_append, List.cons_append, terminatorLoop_skip hstep,
        terminatorLoop_lineComment hbody hends, ih]
      congr 1
      simp
      omega
  | @blockComment body text rest hbody h ih =>
      have hstep : scanStep {} 47 42 = .next { inBlockComment := true } true := rfl
      rw [List.append_assoc, List.cons_append, List.cons_append, terminatorLoop_skip hstep,
        List.cons_append, List.cons_append, terminatorLoop_blockComment,
        blockCommentLength_closed hbody]
      have hdrop : (body ++ 42 :: 47 :: (text ++ rest)).drop (body.length + 2) = text ++ rest := by
        simp
      show terminatorLoop {} (index + 2 + (body.length + 2))
        ((body ++ 42 :: 47 :: (text ++ rest)).drop (body.length + 2)) = _
      rw [hdrop, ih]
      congr 1
      simp
      omega

/-- In a comment without an end nothing is found. -/
theorem terminatorLoop_unterminatedComment {text : Bytes} (h : UnterminatedComment text)
    (index : Nat) : terminatorLoop {} index text = none := by
  obtain ⟨body, rfl, hunclosed⟩ := h
  have hstep : scanStep {} 47 42 = .next { inBlockComment := true } true := rfl
  rw [terminatorLoop_skip hstep, terminatorLoop_blockComment,
    blockCommentLength_unclosed hunclosed]
  rfl

/-- A semicolon is its character. -/
theorem symbolShape_semicolon {c : UInt8} {next : Option UInt8}
    (h : (symbolShape c next).2 = .semicolon) : c = 59 := by
  revert h
  rw [symbolShape]
  repeat' (first
    | exact fun h => absurd h (by decide)
    | refine iteInduction (motive := fun s : Nat × TokenType => s.2 = .semicolon → c = 59)
        (fun hc => ?_) (fun _ => ?_))
  exact fun _ => by assumption

/-- What the splitter does with an operator: it stops behind a semicolon and
    passes the others. -/
theorem terminatorLoop_symbol {c : UInt8} {rest : Bytes} (hstarts : StartsToken (c :: rest))
    (hquote : c ≠ 39) (index : Nat) :
    terminatorLoop {} index (c :: rest)
      = if (symbolShape c rest.head?).2 = .semicolon then
          some (index + (symbolShape c rest.head?).1)
        else terminatorLoop {} (index + (symbolShape c rest.head?).1)
          ((c :: rest).drop (symbolShape c rest.head?).1) := by
  obtain ⟨-, -, hdash, hcomment⟩ := hstarts
  by_cases hc : c = 59
  · subst hc
    rw [terminatorLoop_found rfl]
    rfl
  have hstep : scanStep {} c (rest.headD 0) = .next {} false := by
    have hdash' : ¬(c = 45 ∧ rest.headD 0 = 45) := hdash
    have hcomment' : ¬(c = 47 ∧ rest.headD 0 = 42) := hcomment
    rw [scanStep, if_neg (by decide), if_neg (by decide), if_neg (by decide), if_neg hquote,
      if_neg hdash', if_neg hcomment', if_neg hc]
  rw [if_neg fun h => hc (symbolShape_semicolon h), terminatorLoop_next rest hstep]
  rcases (symbolShape_cases c rest.head?).2 with hone | ⟨htwo, hnext⟩
  · rw [hone]
    rfl
  · -- the second character of an operator is `=` or `>`
    obtain ⟨d, tail, rfl⟩ : ∃ d tail, rest = d :: tail :=
      List.exists_cons_of_ne_nil (by rintro rfl; simp at hnext)
    have hplain : IsPlain d := by
      rcases hnext with hnext | hnext <;> cases hnext <;> exact ⟨by decide, by decide, by decide, by decide⟩
    rw [htwo, terminatorLoop_next tail (scanStep_plain hplain _)]
    rfl

/-- A word is passed. -/
theorem terminatorLoop_takeWhile {keep : UInt8 → Bool} (hkeep : ∀ c, keep c = true → IsPlain c)
    (text : Bytes) (index : Nat) :
    terminatorLoop {} index text = terminatorLoop {} (index + (text.takeWhile keep).length)
      (text.drop (text.takeWhile keep).length) := by
  have hplain : ∀ c ∈ text.takeWhile keep, IsPlain c :=
    fun c hc => hkeep c (List.all_eq_true.mp List.all_takeWhile c hc)
  have hpass := terminatorLoop_plain hplain index (text.dropWhile keep)
  rw [List.takeWhile_append_dropWhile] at hpass
  rw [hpass]
  congr 1
  have hdrop : (text.takeWhile keep ++ text.dropWhile keep).drop (text.takeWhile keep).length
      = text.dropWhile keep := List.drop_left' rfl
  rw [List.takeWhile_append_dropWhile] at hdrop
  exact hdrop.symm

theorem lookupKeyword_ne_semicolon (text : Bytes) : lookupKeyword text ≠ .semicolon := by
  intro h
  exact absurd (h ▸ lookupKeyword_mem text) (by decide)

/-- **A TOKEN IS PASSED**, and a semicolon stops the splitter behind it. -/
theorem terminatorLoop_token {text : Bytes} (hstarts : StartsToken text) (index : Nat) :
    terminatorLoop {} index text
      = if (tokenShape text).2 = .semicolon then some (index + (tokenShape text).1)
        else terminatorLoop {} (index + (tokenShape text).1) (text.drop (tokenShape text).1) := by
  obtain ⟨c, rest, rfl⟩ := List.exists_cons_of_ne_nil hstarts.1
  rw [tokenShape]
  by_cases halpha : isAlpha c = true
  · rw [if_pos halpha, if_neg (lookupKeyword_ne_semicolon _)]
    exact terminatorLoop_takeWhile (fun c => isPlain_of_isAlphaNumeric) _ _
  rw [if_neg halpha]
  by_cases hdigit : isDigit c = true
  · rw [if_pos hdigit, if_neg (show ¬TokenType.integer = .semicolon by decide)]
    refine terminatorLoop_takeWhile (fun c hc => isPlain_of_isAlphaNumeric ?_) _ _
    rw [isAlphaNumeric, hc, Bool.or_true]
  rw [if_neg hdigit]
  by_cases hquote : c = 39
  · subst hquote
    have hstep : ∀ next, scanStep {} 39 next = .next { inString := true } false := fun _ => rfl
    have htype : ¬(if (stringLength rest).2 then TokenType.string else .invalid) = .semicolon := by
      cases (stringLength rest).2 <;> decide
    rw [if_pos rfl, if_neg htype, terminatorLoop_next _ (hstep _), terminatorLoop_string]
    show terminatorLoop {} _ _ = terminatorLoop {} _ (rest.drop _)
    congr 1
    show index + 1 + _ = index + (_ + 1)
    omega
  · rw [if_neg hquote]
    exact terminatorLoop_symbol hstarts hquote index

/-! ## Where the lexer stops -/

/-- The lexer gets here from the start of the buffer before any semicolon. -/
def ReadsTo (buffer : Bytes) (lexer : Lexer) : Prop :=
  ∃ tokens, Produces { rest := buffer } tokens lexer ∧ ∀ token ∈ tokens, token.type ≠ .semicolon

/-- A semicolon comes next. -/
def SemicolonNext (lexer : Lexer) (semicolon : Token) : Prop :=
  semicolon.type = .semicolon ∧ ∃ next, lexer.nextToken = .ok (semicolon, next)

/-- The end of the input comes next. -/
def InputEnds (lexer : Lexer) : Prop :=
  ∃ eof next, lexer.nextToken = .ok (eof, next) ∧ eof.type = .endOfFile

/-- A string without a closing quote comes next. -/
def StringStops (lexer : Lexer) : Prop :=
  ∃ token next, lexer.nextToken = .ok (token, next) ∧ token.type = .invalid
    ∧ token.lexeme.head? = some 39

theorem foldl_after_offset (text : Bytes) (location : SourceLocation) :
    (text.foldl SourceLocation.after location).offset = location.offset + text.length := by
  induction text generalizing location with
  | nil => rfl
  | cons c text ih =>
      rw [List.foldl_cons, ih, List.length_cons, SourceLocation.after]
      split
      · show location.offset + 1 + _ = _
        omega
      · show location.offset + 1 + _ = _
        omega

theorem Lexer.advance_offset {lexer : Lexer} {count : Nat} (h : count ≤ lexer.rest.length) :
    (lexer.advance count).location.offset = lexer.location.offset + count := by
  show ((lexer.rest.take count).foldl SourceLocation.after lexer.location).offset = _
  rw [foldl_after_offset, List.length_take, Nat.min_eq_left h]

/-- One round moves text and offset together. -/
theorem nextToken_drop {lexer next : Lexer} {token : Token}
    (h : lexer.nextToken = .ok (token, next)) :
    ∃ count, next.rest = lexer.rest.drop count
      ∧ next.location.offset = lexer.location.offset + count
      ∧ token.range.stop.offset = lexer.location.offset + count := by
  rcases nextToken_cases lexer with ⟨-, hnext⟩ | ⟨gap, text, hrest, htrivia, hstops, hnext⟩
  · cases h.symm.trans hnext
  obtain ⟨rfl, rfl⟩ := Prod.mk.inj (Except.ok.inj (hnext.symm.trans h))
  have hle : gap.length + (tokenShape text).1 ≤ lexer.rest.length := by
    rw [hrest, List.length_append]
    rcases hstops with rfl | hstarts
    · exact Nat.le_refl _
    · exact Nat.add_le_add_left (tokenShape_length hstarts.1).2 _
  have hoffset := Lexer.advance_offset hle
  refine ⟨gap.length + (tokenShape text).1, ?_, ?_, hoffset⟩
  · rw [nextToken_rest hrest, hrest, ← List.drop_drop, List.drop_left' rfl]
  · rw [← hoffset, ← Lexer.advance_advance]
    rfl

/-- **THE SPLITTER BESIDE ONE ROUND OF THE LEXER.** -/
theorem terminatorLoop_nextToken {lexer next : Lexer} {token : Token}
    (h : lexer.nextToken = .ok (token, next)) :
    terminatorLoop {} lexer.location.offset lexer.rest
      = if token.type = .semicolon then some token.range.stop.offset
        else terminatorLoop {} next.location.offset next.rest := by
  rcases nextToken_cases lexer with ⟨-, hnext⟩ | ⟨gap, text, hrest, htrivia, hstops, hnext⟩
  · cases h.symm.trans hnext
  have hpair := Except.ok.inj (hnext.symm.trans h)
  obtain ⟨rfl, rfl⟩ := Prod.mk.inj hpair
  -- the token ends inside the text, so offsets and lengths go together
  have hle : (tokenShape text).1 ≤ text.length := by
    rcases hstops with rfl | hstarts
    · exact Nat.le_refl _
    · exact (tokenShape_length hstarts.1).2
  have hoffset : (lexer.advance (gap.length + (tokenShape text).1)).location.offset
      = lexer.location.offset + gap.length + (tokenShape text).1 := by
    rw [Lexer.advance_offset, Nat.add_assoc]
    rw [hrest, List.length_append]
    omega
  have hbehind : ((lexer.advance gap.length).markTokenStart.advance
      (tokenShape text).1).location.offset
      = lexer.location.offset + gap.length + (tokenShape text).1 := by
    rw [← hoffset, ← Lexer.advance_advance]
    rfl
  rw [nextToken_rest hrest, hbehind, hrest, terminatorLoop_trivia htrivia]
  dsimp only
  rw [hoffset]
  rcases hstops with rfl | hstarts
  · rfl
  · exact terminatorLoop_token hstarts _

/-- In front of a comment without an end nothing is found. -/
theorem terminatorLoop_commentStops {lexer : Lexer} (h : CommentStops lexer) (index : Nat) :
    terminatorLoop {} index lexer.rest = none := by
  obtain ⟨gap, rest, hrest, htrivia, hcomment⟩ := h
  rw [hrest, terminatorLoop_trivia htrivia, terminatorLoop_unterminatedComment hcomment]

/-- Over tokens that are no semicolons the splitter moves on. -/
theorem terminatorLoop_produces {lexer last : Lexer} {tokens : List Token}
    (h : Produces lexer tokens last) (htokens : ∀ token ∈ tokens, token.type ≠ .semicolon) :
    terminatorLoop {} lexer.location.offset lexer.rest
      = terminatorLoop {} last.location.offset last.rest := by
  induction h with
  | nil lexer => rfl
  | cons hnext htype h ih =>
      rw [terminatorLoop_nextToken hnext, if_neg (htokens _ List.mem_cons_self)]
      exact ih fun token htoken => htokens token (List.mem_cons_of_mem _ htoken)

theorem findStatementTerminator_readsTo {buffer : Bytes} {last : Lexer} (h : ReadsTo buffer last) :
    findStatementTerminator buffer = terminatorLoop {} last.location.offset last.rest := by
  obtain ⟨tokens, hproduces, htokens⟩ := h
  exact terminatorLoop_produces hproduces htokens

/-- A string without a closing quote takes the whole text. -/
theorem stringLength_unterminated {text : Bytes} (h : (stringLength text).2 = false) :
    (stringLength text).1 = text.length := by
  induction text using stringLength.induct with
  | case1 => rfl
  | case2 c => rfl
  | case3 cs ih =>
      rw [stringLength, if_pos rfl, if_pos rfl] at h ⊢
      show (stringLength cs).1 + 2 = cs.length + 2
      rw [ih h]
  | case4 d cs hd =>
      rw [stringLength, if_pos rfl, if_neg hd] at h
      cases h
  | case5 c d cs hc ih =>
      rw [stringLength, if_neg hc] at h ⊢
      show (stringLength (d :: cs)).1 + 1 = (d :: cs).length + 1
      rw [ih h]

/-- Behind a string without a closing quote the input ends. -/
theorem StringStops.inputEnds {lexer : Lexer} (h : StringStops lexer) :
    ∃ token next, lexer.nextToken = .ok (token, next) ∧ token.type = .invalid ∧ InputEnds next := by
  obtain ⟨token, next, h, htype, hlexeme⟩ := h
  rcases nextToken_cases lexer with ⟨-, hnext⟩ | ⟨gap, text, hrest, htrivia, hstops, hnext⟩
  · cases h.symm.trans hnext
  obtain ⟨rfl, rfl⟩ := Prod.mk.inj (Except.ok.inj (hnext.symm.trans h))
  refine ⟨_, _, h, htype, ?_⟩
  have htype' : (tokenShape text).2 = .invalid := htype
  have hlexeme' : (text.take (tokenShape text).1).head? = some 39 := hlexeme
  cases text with
  | nil => cases hlexeme'
  | cons c rest =>
      have hpos := (tokenShape_length (List.cons_ne_nil c rest)).1
      obtain ⟨count, hcount⟩ := Nat.exists_eq_add_one_of_ne_zero hpos.ne'
      rw [hcount, List.take_succ_cons, List.head?_cons] at hlexeme'
      cases hlexeme'
      have hshape : tokenShape (39 :: rest)
          = ((stringLength rest).1 + 1, if (stringLength rest).2 then .string else .invalid) := rfl
      have hopen : (stringLength rest).2 = false := by
        rw [hshape] at htype'
        cases hterminated : (stringLength rest).2 with
        | false => rfl
        | true =>
            rw [hterminated] at htype'
            cases htype'
      have hnil : ((lexer.advance gap.length).markTokenStart.advance
          (tokenShape (39 :: rest)).1).rest = [] := by
        rw [nextToken_rest hrest, hshape, stringLength_unterminated hopen]
        exact List.drop_length
      have hnil' := hnil.trans (List.append_nil []).symm
      exact ⟨_, _, nextToken_trivia hnil' (.nil []) (.inl rfl), rfl⟩

/-- Reading on ends in front of a semicolon, at the end of the input or in a
    comment without an end.  The induction is on the length of what is left. -/
theorem exists_readsTo (lexer : Lexer) :
    ∃ tokens last, Produces lexer tokens last ∧ (∀ token ∈ tokens, token.type ≠ .semicolon)
      ∧ ((∃ semicolon, SemicolonNext last semicolon) ∨ InputEnds last ∨ CommentStops last) := by
  induction hlength : lexer.rest.length using Nat.strongRecOn generalizing lexer with
  | _ length ih =>
    subst hlength
    rcases nextToken_cases lexer with ⟨hstops, -⟩ | ⟨gap, text, hrest, htrivia, hstops, hnext⟩
    · exact ⟨[], lexer, .nil lexer, by simp, .inr (.inr hstops)⟩
    rcases hstops with rfl | hstarts
    · exact ⟨[], lexer, .nil lexer, by simp, .inr (.inl ⟨_, _, hnext, rfl⟩)⟩
    by_cases hsemicolon : (tokenShape text).2 = .semicolon
    · exact ⟨[], lexer, .nil lexer, by simp, .inl ⟨_, hsemicolon, _, hnext⟩⟩
    · have htype := tokenShape_type hstarts.1
      obtain ⟨tokens, last, hproduces, htokens, hend⟩ :=
        ih _ (nextToken_shorter hnext htype) _ rfl
      refine ⟨_ :: tokens, last, .cons hnext htype hproduces, ?_, hend⟩
      intro token htoken
      rcases List.mem_cons.mp htoken with rfl | htoken
      · exact hsemicolon
      · exact htokens token htoken

theorem readsTo_extend {buffer : Bytes} {lexer next : Lexer} {token : Token}
    (h : ReadsTo buffer lexer) (hnext : lexer.nextToken = .ok (token, next))
    (heof : token.type ≠ .endOfFile) (hsemicolon : token.type ≠ .semicolon) :
    ReadsTo buffer next := by
  obtain ⟨tokens, hproduces, htokens⟩ := h
  refine ⟨tokens ++ [token], hproduces.append (.cons hnext heof (.nil next)), ?_⟩
  intro other hother
  rcases List.mem_append.mp hother with hother | hother
  · exact htokens other hother
  · rw [List.mem_singleton.mp hother]
    exact hsemicolon

/-- What the splitter finds at each of the places where the lexer stops. -/
theorem findStatementTerminator_semicolonNext {buffer : Bytes} {last : Lexer} {semicolon : Token}
    (h : ReadsTo buffer last) (hnext : SemicolonNext last semicolon) :
    findStatementTerminator buffer = some semicolon.range.stop.offset := by
  obtain ⟨htype, next, hnext⟩ := hnext
  rw [findStatementTerminator_readsTo h, terminatorLoop_nextToken hnext, if_pos htype]

theorem findStatementTerminator_inputEnds {buffer : Bytes} {last : Lexer}
    (h : ReadsTo buffer last) (hends : InputEnds last) : findStatementTerminator buffer = none := by
  obtain ⟨eof, next, hnext, htype⟩ := hends
  rw [findStatementTerminator_readsTo h, terminatorLoop_nextToken hnext,
    if_neg (by rw [htype]; decide)]
  rcases nextToken_cases last with ⟨-, hthrows⟩ | ⟨gap, text, hrest, htrivia, hstops, hok⟩
  · cases hnext.symm.trans hthrows
  obtain ⟨rfl, rfl⟩ := Prod.mk.inj (Except.ok.inj (hok.symm.trans hnext))
  rcases hstops with rfl | hstarts
  · rw [nextToken_rest hrest]
    rfl
  · exact absurd htype (tokenShape_type hstarts.1)

/-- **THE END OF A STATEMENT** is the end of the first semicolon the lexer
    produces. -/
theorem findStatementTerminator_some_iff (buffer : Bytes) (stop : Nat) :
    findStatementTerminator buffer = some stop
      ↔ ∃ last semicolon, ReadsTo buffer last ∧ SemicolonNext last semicolon
        ∧ semicolon.range.stop.offset = stop := by
  constructor
  · intro hfind
    obtain ⟨tokens, last, hproduces, htokens, hend⟩ := exists_readsTo { rest := buffer }
    have hreads : ReadsTo buffer last := ⟨tokens, hproduces, htokens⟩
    rcases hend with ⟨semicolon, hnext⟩ | hends | hstops
    · rw [findStatementTerminator_semicolonNext hreads hnext] at hfind
      exact ⟨last, semicolon, hreads, hnext, Option.some.inj hfind⟩
    · rw [findStatementTerminator_inputEnds hreads hends] at hfind
      cases hfind
    · rw [findStatementTerminator_readsTo hreads, terminatorLoop_commentStops hstops] at hfind
      cases hfind
  · rintro ⟨last, semicolon, hreads, hnext, rfl⟩
    exact findStatementTerminator_semicolonNext hreads hnext

/-- Nothing is found exactly when the lexer comes to the end of the input, to a
    string without a closing quote or to a comment without an end first. -/
theorem findStatementTerminator_none_iff (buffer : Bytes) :
    findStatementTerminator buffer = none
      ↔ ∃ last, ReadsTo buffer last ∧ (InputEnds last ∨ StringStops last ∨ CommentStops last) := by
  constructor
  · intro hfind
    obtain ⟨tokens, last, hproduces, htokens, hend⟩ := exists_readsTo { rest := buffer }
    have hreads : ReadsTo buffer last := ⟨tokens, hproduces, htokens⟩
    rcases hend with ⟨semicolon, hnext⟩ | hends | hstops
    · rw [findStatementTerminator_semicolonNext hreads hnext] at hfind
      cases hfind
    · exact ⟨last, hreads, .inl hends⟩
    · exact ⟨last, hreads, .inr (.inr hstops)⟩
  · rintro ⟨last, hreads, hends | hstring | hstops⟩
    · exact findStatementTerminator_inputEnds hreads hends
    · obtain ⟨token, next, hnext, htype, hends⟩ := hstring.inputEnds
      refine findStatementTerminator_inputEnds (readsTo_extend hreads hnext ?_ ?_) hends
      · rw [htype]
        decide
      · rw [htype]
        decide
    · rw [findStatementTerminator_readsTo hreads, terminatorLoop_commentStops hstops]

/-! ## Pieces -/

/-- The tokens at the start of a text, without their places, and the text behind
    them. -/
inductive Scans : Bytes → List TokenKind → Bytes → Prop
  | nil (text : Bytes) : Scans text [] text
  | cons {gap text rest : Bytes} {kinds : List TokenKind} (htrivia : Trivia gap text)
      (hstarts : StartsToken text) (h : Scans (text.drop (tokenShape text).1) kinds rest) :
      Scans (gap ++ text) (((tokenShape text).2, text.take (tokenShape text).1) :: kinds) rest

theorem Produces.scans {lexer last : Lexer} {tokens : List Token} (h : Produces lexer tokens last) :
    Scans lexer.rest (tokens.map Token.kind) last.rest := by
  induction h with
  | nil lexer => exact .nil lexer.rest
  | @cons lexer next last token tokens hnext htype h ih =>
      rcases nextToken_cases lexer with ⟨-, hthrows⟩ | ⟨gap, text, hrest, htrivia, hstops, hok⟩
      · cases hnext.symm.trans hthrows
      obtain ⟨rfl, rfl⟩ := Prod.mk.inj (Except.ok.inj (hok.symm.trans hnext))
      rcases hstops with rfl | hstarts
      · exact absurd rfl htype
      rw [nextToken_rest hrest] at ih
      rw [hrest]
      exact .cons htrivia hstarts ih

theorem Scans.produces {text rest : Bytes} {kinds : List TokenKind} (h : Scans text kinds rest)
    {lexer : Lexer} (hlexer : lexer.rest = text) :
    ∃ tokens last, Produces lexer tokens last ∧ tokens.map Token.kind = kinds
      ∧ last.rest = rest := by
  induction h generalizing lexer with
  | nil text => exact ⟨[], lexer, .nil lexer, rfl, hlexer⟩
  | cons htrivia hstarts h ih =>
      obtain ⟨tokens, last, hproduces, hkinds, hrest⟩ := ih (nextToken_rest hlexer _)
      refine ⟨_ :: tokens, last, .cons (nextToken_trivia hlexer htrivia (.inr hstarts))
        (tokenShape_type hstarts.1) hproduces, ?_, hrest⟩
      rw [List.map_cons, hkinds]
      rfl

/-- The text behind some tokens is a rest of the text, and a shorter one. -/
theorem Scans.split {text rest : Bytes} {kinds : List TokenKind} (h : Scans text kinds rest) :
    ∃ consumed, text = consumed ++ rest ∧ (kinds ≠ [] → consumed ≠ []) := by
  induction h with
  | nil text => exact ⟨[], rfl, fun h => absurd rfl h⟩
  | @cons gap text rest kinds htrivia hstarts h ih =>
      obtain ⟨consumed, heq, -⟩ := ih
      refine ⟨gap ++ text.take (tokenShape text).1 ++ consumed, ?_, fun _ hnil => ?_⟩
      · rw [List.append_assoc, List.append_assoc, ← heq, List.take_append_drop]
      · have hlength := tokenShape_length hstarts.1
        have hzero := congrArg List.length hnil
        simp only [List.length_append, List.length_take, List.length_nil] at hzero
        omega

theorem Scans.eq_of_nil {text rest : Bytes} (h : Scans text [] rest) : text = rest := by
  cases h
  rfl

theorem Trivia.restrict {gap text tail : Bytes} (h : Trivia gap (text ++ tail)) :
    Trivia gap text := by
  generalize hrest : text ++ tail = rest at h
  induction h with
  | nil rest => exact .nil text
  | space hspace h ih => exact .space hspace (ih hrest)
  | lineComment hbody hends h ih =>
      refine .lineComment hbody (fun c hc => hends c ?_) (ih hrest)
      rw [← hrest, ← List.append_assoc, List.head?_append, hc]
      rfl
  | blockComment hbody h ih => exact .blockComment hbody (ih hrest)

theorem StartsToken.restrict {text tail : Bytes} (h : StartsToken (text ++ tail))
    (hne : text ≠ []) : StartsToken text := by
  obtain ⟨-, hspace, hdash, hcomment⟩ := h
  obtain ⟨c, text, rfl⟩ := List.exists_cons_of_ne_nil hne
  cases text with
  | nil =>
      exact ⟨hne, hspace, fun h => absurd (show (0 : UInt8) = 45 from h.2) (by decide),
        fun h => absurd (show (0 : UInt8) = 42 from h.2) (by decide)⟩
  | cons d text => exact ⟨hne, hspace, hdash, hcomment⟩

/-- A loop that stops inside a text does not see what follows the text. -/
theorem takeWhile_restrict {keep : UInt8 → Bool} {text tail : Bytes}
    (h : ((text ++ tail).takeWhile keep).length < text.length) :
    (text ++ tail).takeWhile keep = text.takeWhile keep := by
  induction text with
  | nil => exact absurd h (Nat.not_lt_zero _)
  | cons c text ih =>
      rw [List.cons_append, List.takeWhile_cons] at h ⊢
      rw [List.takeWhile_cons]
      by_cases hc : keep c = true
      · rw [if_pos hc] at h ⊢
        rw [if_pos hc, ih (Nat.lt_of_succ_lt_succ h)]
      · rw [if_neg hc, if_neg hc]

/-- A string that ends inside a text does not see what follows the text. -/
theorem stringLength_restrict {text tail : Bytes}
    (h : (stringLength (text ++ tail)).1 < text.length) :
    stringLength (text ++ tail) = stringLength text := by
  induction text using stringLength.induct with
  | case1 => exact absurd h (Nat.not_lt_zero _)
  | case2 c =>
      cases tail with
      | nil => rfl
      | cons d tail =>
          exfalso
          revert h
          rw [List.cons_append, List.nil_append, stringLength]
          split_ifs <;> simp
  | case3 cs ih =>
      rw [List.cons_append, List.cons_append, stringLength, if_pos rfl, if_pos rfl] at h ⊢
      rw [ih (Nat.lt_of_succ_lt_succ (Nat.lt_of_succ_lt_succ h)), stringLength, if_pos rfl,
        if_pos rfl]
  | case4 d cs hd =>
      rw [List.cons_append, List.cons_append, stringLength, if_pos rfl, if_neg hd, stringLength,
        if_pos rfl, if_neg hd]
  | case5 c d cs hc ih =>
      rw [List.cons_append, List.cons_append, stringLength, if_neg hc] at h ⊢
      rw [← List.cons_append, ih (Nat.lt_of_succ_lt_succ h), stringLength, if_neg hc]

/-- **A TOKEN THAT ENDS INSIDE A TEXT** does not see what follows the text. -/
theorem tokenShape_restrict {text tail : Bytes}
    (h : (tokenShape (text ++ tail)).1 < text.length) :
    tokenShape (text ++ tail) = tokenShape text := by
  cases text with
  | nil => exact absurd h (Nat.not_lt_zero _)
  | cons c rest =>
      rw [List.cons_append, tokenShape] at h ⊢
      rw [tokenShape]
      by_cases halpha : isAlpha c = true
      · rw [if_pos halpha] at h ⊢
        rw [if_pos halpha, ← List.cons_append, takeWhile_restrict h]
      rw [if_neg halpha] at h ⊢
      rw [if_neg halpha]
      by_cases hdigit : isDigit c = true
      · rw [if_pos hdigit] at h ⊢
        rw [if_pos hdigit, ← List.cons_append, takeWhile_restrict h]
      rw [if_neg hdigit] at h ⊢
      rw [if_neg hdigit]
      by_cases hquote : c = 39
      · rw [if_pos hquote] at h ⊢
        rw [if_pos hquote, stringLength_restrict (Nat.lt_of_succ_lt_succ h)]
      · rw [if_neg hquote] at h ⊢
        rw [if_neg hquote]
        cases rest with
        | nil =>
            have hpos := (symbolShape_length c ([] ++ tail)).1
            exact absurd h (Nat.not_lt.mpr hpos)
        | cons d rest => rfl

/-- A semicolon token is the character. -/
theorem tokenShape_semicolon {text : Bytes} (h : (tokenShape text).2 = .semicolon) :
    ∃ rest, text = 59 :: rest ∧ (tokenShape text).1 = 1 := by
  cases text with
  | nil => cases h
  | cons c rest =>
      have hc : c = 59 := by
        rw [tokenShape] at h
        by_cases halpha : isAlpha c = true
        · rw [if_pos halpha] at h
          exact absurd h (lookupKeyword_ne_semicolon _)
        rw [if_neg halpha] at h
        by_cases hdigit : isDigit c = true
        · rw [if_pos hdigit] at h
          cases h
        rw [if_neg hdigit] at h
        by_cases hquote : c = 39
        · rw [if_pos hquote] at h
          cases hterminated : (stringLength rest).2 <;> rw [hterminated] at h <;> cases h
        · rw [if_neg hquote] at h
          exact symbolShape_semicolon h
      subst hc
      exact ⟨rest, rfl, rfl⟩

/-- **A PIECE IS READ ALONE.**  Tokens up to a semicolon are the tokens of the
    text that ends there: each token but the last ends before the piece does, and
    the semicolon looks at one character only. -/
theorem Scans.restrict {whole text rest : Bytes} {kinds front : List TokenKind} {lexeme : Bytes}
    (h : Scans whole kinds rest) (hwhole : whole = text ++ rest)
    (hkinds : kinds = front ++ [(.semicolon, lexeme)]) : Scans text kinds [] := by
  induction h generalizing text front with
  | nil text => simp at hkinds
  | @cons gap token rest kinds htrivia hstarts h ih =>
      obtain ⟨consumed, hconsumed, hne⟩ := h.split
      have hlength := tokenShape_length hstarts.1
      have htoken : token = token.take (tokenShape token).1 ++ consumed ++ rest := by
        rw [List.append_assoc, ← hconsumed, List.take_append_drop]
      have htext : text = gap ++ (token.take (tokenShape token).1 ++ consumed) := by
        refine List.append_cancel_right (hwhole.symm.trans ?_)
        rw [List.append_assoc, ← htoken]
      have htake : (token.take (tokenShape token).1).length = (tokenShape token).1 := by
        rw [List.length_take, Nat.min_eq_left hlength.2]
      -- the token reads the same without what comes after the piece
      have hshape : tokenShape (token.take (tokenShape token).1 ++ consumed) = tokenShape token := by
        cases front with
        | nil =>
            obtain ⟨hkind, -⟩ := List.cons.inj hkinds
            obtain ⟨more, hmore, hone⟩ := tokenShape_semicolon (congrArg Prod.fst hkind)
            rw [hone, hmore]
            rfl
        | cons first front =>
            have hkindsNe : kinds ≠ [] := by
              rw [(List.cons.inj hkinds).2]
              simp
            have hpos := List.length_pos_of_ne_nil (hne hkindsNe)
            have hlt : (tokenShape (token.take (tokenShape token).1 ++ consumed ++ rest)).1
                < (token.take (tokenShape token).1 ++ consumed).length := by
              rw [← htoken, List.length_append, htake]
              omega
            rw [← tokenShape_restrict hlt, ← htoken]
      have hstarts' : StartsToken (token.take (tokenShape token).1 ++ consumed) := by
        rw [htoken] at hstarts
        refine hstarts.restrict fun hnil => ?_
        have hzero := congrArg List.length hnil
        rw [List.length_append, htake, List.length_nil] at hzero
        omega
      have htrivia' : Trivia gap (token.take (tokenShape token).1 ++ consumed) := by
        rw [htoken] at htrivia
        exact htrivia.restrict
      have hrest : Scans ((token.take (tokenShape token).1 ++ consumed).drop
          (tokenShape (token.take (tokenShape token).1 ++ consumed)).1) kinds [] := by
        rw [hshape, List.drop_left' htake]
        cases front with
        | nil =>
            obtain ⟨-, rfl⟩ := List.cons.inj hkinds
            rw [List.self_eq_append_left.mp (h.eq_of_nil.symm.trans hconsumed)]
            exact .nil []
        | cons first front => exact ih hconsumed (List.cons.inj hkinds).2
      have hscans := Scans.cons htrivia' hstarts' hrest
      rw [hshape, List.take_left' htake, ← htext] at hscans
      exact hscans

/-- The text behind some tokens starts at the lexer's offset. -/
theorem Produces.rest_eq_drop {input : Bytes} {lexer last : Lexer} {tokens : List Token}
    (h : Produces lexer tokens last) (hlexer : lexer.rest = input.drop lexer.location.offset) :
    last.rest = input.drop last.location.offset := by
  induction h with
  | nil lexer => exact hlexer
  | cons hnext htype h ih =>
      obtain ⟨count, hrest, hoffset, -⟩ := nextToken_drop hnext
      refine ih ?_
      rw [hrest, hlexer, List.drop_drop, hoffset]

theorem nextToken_semicolon {lexer next : Lexer} {semicolon : Token}
    (h : lexer.nextToken = .ok (semicolon, next)) (htype : semicolon.type = .semicolon) :
    semicolon.kind = (.semicolon, ascii ";") := by
  rcases nextToken_cases lexer with ⟨-, hnext⟩ | ⟨gap, text, -, -, -, hnext⟩
  · cases h.symm.trans hnext
  obtain ⟨rfl, rfl⟩ := Prod.mk.inj (Except.ok.inj (hnext.symm.trans h))
  have htype' : (tokenShape text).2 = .semicolon := htype
  obtain ⟨rest, hrest, hone⟩ := tokenShape_semicolon htype'
  show ((tokenShape text).2, text.take (tokenShape text).1) = _
  rw [htype', hone, hrest]
  rfl

/-! ## Token sequences -/

/-- The types and lexemes of a text's tokens, without the end of the file. -/
def tokenKinds (text : Bytes) : Except Thrown (List TokenKind) :=
  (fun tokens => (tokens.map Token.kind).dropLast) <$> tokenize text

/-- Rounds that give no end of the file come first. -/
theorem Produces.tokenizeLoop {lexer last : Lexer} {tokens : List Token}
    (h : Produces lexer tokens last) {rounds : Nat} (hrounds : lexer.rest.length < rounds) :
    ∃ rounds', last.rest.length < rounds'
      ∧ lexer.tokenizeLoop rounds = (tokens ++ ·) <$> last.tokenizeLoop rounds' := by
  induction h generalizing rounds with
  | nil lexer =>
      refine ⟨rounds, hrounds, ?_⟩
      cases lexer.tokenizeLoop rounds <;> rfl
  | @cons lexer next last token tokens hnext htype h ih =>
      obtain ⟨rounds, rfl⟩ := Nat.exists_eq_add_one_of_ne_zero (Nat.ne_of_gt (Nat.zero_lt_of_lt hrounds))
      obtain ⟨rounds', hlt, hloop⟩ := ih (Nat.lt_of_lt_of_le (nextToken_shorter hnext htype)
        (Nat.le_of_lt_succ hrounds))
      refine ⟨rounds', hlt, ?_⟩
      rw [tokenizeLoop_next hnext, if_neg htype, hloop]
      cases last.tokenizeLoop rounds' <;> rfl

/-- The types and lexemes depend on the text alone. -/
theorem tokenizeLoop_kinds {lexer other : Lexer} (hrest : lexer.rest = other.rest)
    {rounds rounds' : Nat} (hrounds : lexer.rest.length < rounds)
    (hrounds' : other.rest.length < rounds') :
    List.map Token.kind <$> lexer.tokenizeLoop rounds
      = List.map Token.kind <$> other.tokenizeLoop rounds' := by
  induction rounds generalizing lexer other rounds' with
  | zero => exact absurd hrounds (Nat.not_lt_zero _)
  | succ rounds ih =>
      obtain ⟨rounds', rfl⟩ :=
        Nat.exists_eq_add_one_of_ne_zero (Nat.ne_of_gt (Nat.zero_lt_of_lt hrounds'))
      rcases nextToken_cases lexer with
        ⟨hstops, hnext⟩ | ⟨gap, text, hgap, htrivia, hends, hnext⟩
      · have hstops' : CommentStops other := by
          rw [CommentStops, ← hrest]
          exact hstops
        rw [tokenizeLoop_throws hnext, tokenizeLoop_throws (nextToken_commentStops hstops')]
      have hgap' : other.rest = gap ++ text := hrest ▸ hgap
      have hnext' := nextToken_trivia hgap' htrivia hends
      rw [tokenizeLoop_next hnext, tokenizeLoop_next hnext']
      rcases hends with rfl | hstarts
      · rfl
      have htype := tokenShape_type hstarts.1
      -- the locations differ, the types and lexemes do not
      have hmap : ∀ (token : Token) (result : Except Thrown (List Token)),
          List.map Token.kind <$> ((token :: ·) <$> result)
            = (token.kind :: ·) <$> (List.map Token.kind <$> result) := by
        intro token result
        cases result <;> rfl
      rw [if_neg htype, if_neg htype, hmap, hmap,
        ih ((nextToken_rest hgap _).trans (nextToken_rest hgap' _).symm)
          (Nat.lt_of_lt_of_le (nextToken_shorter hnext htype) (Nat.le_of_lt_succ hrounds))
          (Nat.lt_of_lt_of_le (nextToken_shorter hnext' htype) (Nat.le_of_lt_succ hrounds'))]
      rfl

theorem tokenizeLoop_ne_nil {lexer : Lexer} {rounds : Nat} {tokens : List Token}
    (h : lexer.tokenizeLoop rounds = .ok tokens) : tokens ≠ [] := by
  cases rounds with
  | zero => cases h
  | succ rounds =>
      rcases nextToken_cases lexer with ⟨-, hnext⟩ | ⟨gap, text, -, -, -, hnext⟩
      · rw [tokenizeLoop_throws hnext] at h
        cases h
      rw [tokenizeLoop_next hnext] at h
      split at h
      · cases h
        exact List.cons_ne_nil _ _
      · cases hloop : ((lexer.advance gap.length).markTokenStart.advance
            (tokenShape text).1).tokenizeLoop rounds with
        | error thrown =>
            rw [hloop] at h
            cases h
        | ok rest =>
            rw [hloop] at h
            cases h
            exact List.cons_ne_nil _ _

/-- The token sequence of a text is that of its first tokens and of the rest. -/
theorem tokenKinds_scans {text rest : Bytes} {kinds : List TokenKind} (h : Scans text kinds rest) :
    tokenKinds text = (kinds ++ ·) <$> tokenKinds rest := by
  have hstart : ({ rest := text } : Lexer).rest = text := rfl
  obtain ⟨tokens, last, hproduces, rfl, rfl⟩ := h.produces hstart
  obtain ⟨rounds, hrounds, hloop⟩ := hproduces.tokenizeLoop (Nat.lt_succ_self text.length)
  have hstart' : ({ rest := last.rest } : Lexer).rest = last.rest := rfl
  have hkinds := tokenizeLoop_kinds hstart' (Nat.lt_succ_self last.rest.length) hrounds
  have htokenize : tokenize text = (tokens ++ ·) <$> last.tokenizeLoop rounds := hloop
  rw [tokenKinds, tokenKinds, htokenize, tokenize]
  cases hlast : last.tokenizeLoop rounds with
  | error thrown =>
      rw [hlast] at hkinds
      cases hrest : ({ rest := last.rest } : Lexer).tokenizeLoop (last.rest.length + 1) with
      | error other =>
          rw [hrest] at hkinds
          exact congrArg Except.error (Except.error.inj hkinds).symm
      | ok result =>
          rw [hrest] at hkinds
          cases hkinds
  | ok result =>
      rw [hlast] at hkinds
      cases hrest : ({ rest := last.rest } : Lexer).tokenizeLoop (last.rest.length + 1) with
      | error other =>
          rw [hrest] at hkinds
          cases hkinds
      | ok other =>
          rw [hrest] at hkinds
          have hmap : other.map Token.kind = result.map Token.kind := Except.ok.inj hkinds
          have hne : result.map Token.kind ≠ [] := by
            simpa using tokenizeLoop_ne_nil hlast
          show Except.ok ((tokens ++ result).map Token.kind).dropLast
            = .ok (tokens.map Token.kind ++ (other.map Token.kind).dropLast)
          rw [hmap, List.map_append, List.dropLast_append_of_ne_nil hne]

/-! ## The script as pieces -/

/-- A statement with its semicolon. -/
def IsStatementKinds (kinds : List TokenKind) : Prop :=
  ∃ front, kinds = front ++ [(.semicolon, ascii ";")] ∧ ∀ kind ∈ front, kind.1 ≠ .semicolon

/-- **ONE EXTRACTION** cuts the buffer behind its first semicolon. -/
theorem extractStatement_some {buffer statement rest : Bytes}
    (h : extractStatement buffer = some (statement, rest)) :
    statement ++ rest = buffer ∧ statement ≠ [] ∧ ∃ kinds, IsStatementKinds kinds
      ∧ tokenKinds statement = .ok kinds
      ∧ tokenKinds buffer = (kinds ++ ·) <$> tokenKinds rest := by
  cases hfind : findStatementTerminator buffer with
  | none => simp [extractStatement, hfind] at h
  | some stop =>
      simp only [extractStatement, hfind, Option.some.injEq, Prod.mk.injEq] at h
      obtain ⟨rfl, rfl⟩ := h
      obtain ⟨last, semicolon, ⟨tokens, hproduces, htokens⟩, ⟨htype, next, hnext⟩, hstop⟩ :=
        (findStatementTerminator_some_iff buffer stop).mp hfind
      have heof : semicolon.type ≠ .endOfFile := by
        rw [htype]
        decide
      have hall := hproduces.append (.cons hnext heof (.nil next))
      -- the lexer behind the semicolon is where the splitter cuts
      have hrest : next.rest = buffer.drop stop := by
        obtain ⟨count, hdrop, -, hcount⟩ := nextToken_drop hnext
        rw [hdrop, hproduces.rest_eq_drop rfl, List.drop_drop, ← hcount, hstop]
      have hkind : semicolon.kind = (.semicolon, ascii ";") := nextToken_semicolon hnext htype
      have hscans : Scans buffer (tokens.map Token.kind ++ [(.semicolon, ascii ";")])
          (buffer.drop stop) := by
        have := hall.scans
        rwa [List.map_append, List.map_singleton, hkind, hrest] at this
      have hpiece := hscans.restrict (List.take_append_drop stop buffer).symm rfl
      refine ⟨List.take_append_drop stop buffer, ?_, _, ⟨_, rfl, ?_⟩, ?_, tokenKinds_scans hscans⟩
      · obtain ⟨consumed, heq, hne⟩ := hpiece.split
        rw [heq, List.append_nil]
        exact hne (by simp)
      · intro kind hkind
        obtain ⟨token, htoken, rfl⟩ := List.mem_map.mp hkind
        exact htokens token htoken
      · have hnil : tokenKinds [] = .ok [] := rfl
        rw [tokenKinds_scans hpiece, hnil]
        exact congrArg Except.ok (List.append_nil _)

/-- What repeated extraction makes of a buffer: statements, each with its one
    semicolon, and a rest in which no statement ends. -/
structure SplitsInto (buffer : Bytes) (statements : List Bytes) (rest : Bytes) : Prop where
  /-- Nothing is lost. -/
  concat : statements.flatten ++ rest = buffer
  /-- The loop has ended. -/
  done : extractStatement rest = none
  /-- Each statement has one semicolon, as its last token, and the tokens of the
      statements and of the rest are those of the buffer. -/
  kinds : ∃ parts : List (List TokenKind), statements.map tokenKinds = parts.map .ok
    ∧ (∀ part ∈ parts, IsStatementKinds part)
    ∧ tokenKinds buffer = (parts.flatten ++ ·) <$> tokenKinds rest

/-- The induction is on the rounds; a statement is never empty, so as many
    rounds as there are characters are enough. -/
theorem extractStatements_splitsInto {rounds : Nat} {buffer : Bytes}
    (h : buffer.length ≤ rounds) :
    SplitsInto buffer (extractStatements rounds buffer).1 (extractStatements rounds buffer).2 := by
  have hstop : ∀ buffer : Bytes, extractStatement buffer = none → SplitsInto buffer [] buffer := by
    intro buffer hnone
    refine ⟨rfl, hnone, [], rfl, by simp, ?_⟩
    cases tokenKinds buffer <;> rfl
  induction rounds generalizing buffer with
  | zero =>
      rw [List.length_eq_zero_iff.mp (Nat.le_zero.mp h)]
      exact hstop [] rfl
  | succ rounds ih =>
      rw [extractStatements]
      cases hextract : extractStatement buffer with
      | none => exact hstop buffer hextract
      | some pair =>
          obtain ⟨statement, rest⟩ := pair
          obtain ⟨hconcat, hne, kinds, hstatement, hpiece, hbuffer⟩ :=
            extractStatement_some hextract
          -- a statement is not empty, so a round is enough for it
          have hshorter : rest.length ≤ rounds := by
            have hpos := List.length_pos_of_ne_nil hne
            rw [← hconcat, List.length_append] at h
            omega
          obtain ⟨hrest, hdone, parts, hparts, hall, hkinds⟩ := ih hshorter
          refine ⟨?_, hdone, kinds :: parts, ?_, ?_, ?_⟩
          · rw [← hconcat]
            show (statement ++ (extractStatements rounds rest).1.flatten)
              ++ (extractStatements rounds rest).2 = _
            rw [List.append_assoc, hrest]
          · show tokenKinds statement :: (extractStatements rounds rest).1.map tokenKinds = _
            rw [hpiece, hparts]
            rfl
          · intro part hpart
            rcases List.mem_cons.mp hpart with rfl | hpart
            · exact hstatement
            · exact hall part hpart
          · rw [hbuffer, hkinds]
            show (kinds ++ ·) <$> ((parts.flatten ++ ·)
              <$> tokenKinds (extractStatements rounds rest).2) = _
            cases tokenKinds (extractStatements rounds rest).2 with
            | error thrown => rfl
            | ok last => exact congrArg Except.ok (List.append_assoc _ _ _).symm

/-- **THE SPLITTER AGREES WITH THE LEXER.**  A statement ends where the lexer's
    first semicolon ends, and none ends exactly when the lexer comes to the end
    of the input, to a string without a closing quote or to a comment without an
    end first; cutting again and again keeps the text and its tokens. -/
theorem splitter_agrees_with_lexer (script : Bytes) :
    (∀ stop, findStatementTerminator script = some stop
        ↔ ∃ last semicolon, ReadsTo script last ∧ SemicolonNext last semicolon
          ∧ semicolon.range.stop.offset = stop)
      ∧ (findStatementTerminator script = none
        ↔ ∃ last, ReadsTo script last
          ∧ (InputEnds last ∨ StringStops last ∨ CommentStops last))
      ∧ SplitsInto script (extractStatements script.length script).1
        (extractStatements script.length script).2 :=
  ⟨findStatementTerminator_some_iff script, findStatementTerminator_none_iff script,
    extractStatements_splitsInto (Nat.le_refl _)⟩

/-- A semicolon in a string or in a comment ends no statement. -/
example : extractStatements 20 (ascii "a ';' --;\n; /*;*/ b")
    = ([ascii "a ';' --;\n;"], ascii " /*;*/ b") := by decide

end MattSql
