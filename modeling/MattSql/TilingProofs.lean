import MattSql.LexerProofs

/-! # Tokens tile the input

    What the lexer leaves between two tokens is blanks and complete comments,
    and every token is the text between its two locations.

    Scanning moves the cursor over a text whose length and type depend on the
    text alone; `tokenShape` says which.  Trivia is a relation between a text
    and what follows it, since a line comment is complete where a line break or
    the end of the input follows. -/

namespace MattSql

/-- A token without its place in the text. -/
abbrev TokenKind := TokenType × Bytes

def Token.kind (token : Token) : TokenKind := (token.type, token.lexeme)

/-! ## Moving the cursor -/

theorem Lexer.advance_advance (lexer : Lexer) (m n : Nat) :
    (lexer.advance m).advance n = lexer.advance (m + n) := by
  obtain ⟨rest, location, startRest, startLocation⟩ := lexer
  simp [Lexer.advance, List.take_add]

/-- The token that is made after the cursor has moved from the token start. -/
theorem Lexer.makeToken_advance (lexer : Lexer) (type : TokenType) {count : Nat}
    (hcount : count ≤ lexer.rest.length) :
    (lexer.markTokenStart.advance count).makeToken type
      = ⟨type, lexer.rest.take count, ⟨lexer.location, (lexer.advance count).location⟩⟩ := by
  have hlength : lexer.rest.length - (lexer.rest.drop count).length = count := by
    rw [List.length_drop]
    omega
  show (⟨type, lexer.rest.take (lexer.rest.length - (lexer.rest.drop count).length), _⟩ : Token)
    = _
  rw [hlength]
  rfl

/-! ## The shape of the next token -/

/-- Length and type of an operator, given its first character and the next. -/
def symbolShape (c : UInt8) (next : Option UInt8) : Nat × TokenType :=
  if c = 43 then (1, .plus)
  else if c = 45 then (1, .minus)
  else if c = 42 then (1, .star)
  else if c = 47 then (1, .slash)
  else if c = 61 then (1, .equal)
  else if c = 33 then
    if next = some 61 then (2, .notEqual) else (1, .invalid)
  else if c = 60 then
    if next = some 61 then (2, .lessEqual)
    else if next = some 62 then (2, .notEqual)
    else (1, .less)
  else if c = 62 then
    if next = some 61 then (2, .greaterEqual) else (1, .greater)
  else if c = 40 then (1, .leftParen)
  else if c = 41 then (1, .rightParen)
  else if c = 44 then (1, .comma)
  else if c = 46 then (1, .dot)
  else if c = 59 then (1, .semicolon)
  else (1, .invalid)

/-- Length and type of the token at the start of a text. -/
def tokenShape : Bytes → Nat × TokenType
  | [] => (0, .endOfFile)
  | c :: rest =>
    if isAlpha c then
      (((c :: rest).takeWhile isAlphaNumeric).length,
        lookupKeyword ((c :: rest).takeWhile isAlphaNumeric))
    else if isDigit c then (((c :: rest).takeWhile isDigit).length, .integer)
    else if c = 39 then
      ((stringLength rest).1 + 1, if (stringLength rest).2 then .string else .invalid)
    else symbolShape c rest.head?

/-- The two-character operators end in `=` or `>`; all others are one character,
    and none is the end of the file. -/
theorem symbolShape_cases (c : UInt8) (next : Option UInt8) :
    (symbolShape c next).2 ≠ .endOfFile
      ∧ ((symbolShape c next).1 = 1
        ∨ (symbolShape c next).1 = 2 ∧ (next = some 61 ∨ next = some 62)) := by
  have hone : ∀ type : TokenType, type ≠ .endOfFile →
      ((1, type) : Nat × TokenType).2 ≠ .endOfFile ∧ (((1, type) : Nat × TokenType).1 = 1
        ∨ ((1, type) : Nat × TokenType).1 = 2 ∧ (next = some 61 ∨ next = some 62)) :=
    fun type h => ⟨h, .inl rfl⟩
  rw [symbolShape]
  repeat' (first
    | exact hone _ (by decide)
    | refine iteInduction (motive := fun s : Nat × TokenType => s.2 ≠ .endOfFile
        ∧ (s.1 = 1 ∨ s.1 = 2 ∧ (next = some 61 ∨ next = some 62))) (fun h => ?_) (fun _ => ?_))
  all_goals first
    | exact ⟨by decide, .inr ⟨rfl, .inl (by assumption)⟩⟩
    | exact ⟨by decide, .inr ⟨rfl, .inr (by assumption)⟩⟩

theorem symbolShape_length (c : UInt8) (rest : Bytes) :
    0 < (symbolShape c rest.head?).1 ∧ (symbolShape c rest.head?).1 ≤ rest.length + 1 := by
  rcases (symbolShape_cases c rest.head?).2 with h | ⟨h, hnext⟩
  · rw [h]
    exact ⟨Nat.one_pos, Nat.succ_le_succ (Nat.zero_le _)⟩
  · cases rest with
    | nil => simp at hnext
    | cons d rest =>
        rw [h]
        exact ⟨Nat.two_pos, Nat.succ_le_succ (Nat.succ_le_succ (Nat.zero_le _))⟩

theorem stringLength_le (text : Bytes) : (stringLength text).1 ≤ text.length := by
  induction text using stringLength.induct with
  | case1 => exact Nat.le_refl _
  | case2 c => exact Nat.le_refl _
  | case3 cs ih =>
      rw [stringLength, if_pos rfl, if_pos rfl]
      exact Nat.add_le_add_right ih 2
  | case4 d cs hd =>
      rw [stringLength, if_pos rfl, if_neg hd]
      exact Nat.succ_le_succ (Nat.zero_le _)
  | case5 c d cs h ih =>
      rw [stringLength, if_neg h]
      exact Nat.succ_le_succ ih

theorem lookupKeyword_mem (text : Bytes) :
    lookupKeyword text ∈ TokenType.identifier :: kKeywords.map (·.2) := by
  rw [lookupKeyword]
  split
  · rename_i entry hfind
    exact List.mem_cons_of_mem _ (List.mem_map_of_mem (List.mem_of_find?_eq_some hfind))
  · exact List.mem_cons_self

theorem lookupKeyword_ne_endOfFile (text : Bytes) : lookupKeyword text ≠ .endOfFile := by
  intro h
  exact absurd (h ▸ lookupKeyword_mem text) (by decide)

/-- A token takes something, and no more than there is. -/
theorem tokenShape_length {text : Bytes} (h : text ≠ []) :
    0 < (tokenShape text).1 ∧ (tokenShape text).1 ≤ text.length := by
  obtain ⟨c, rest, rfl⟩ := List.exists_cons_of_ne_nil h
  have htake : ∀ keep : UInt8 → Bool, keep c = true →
      0 < ((c :: rest).takeWhile keep).length
        ∧ ((c :: rest).takeWhile keep).length ≤ (c :: rest).length := by
    intro keep hkeep
    refine ⟨?_, (List.takeWhile_prefix keep).length_le⟩
    rw [List.takeWhile_cons, if_pos hkeep]
    exact Nat.succ_pos _
  rw [tokenShape]
  by_cases halpha : isAlpha c = true
  · rw [if_pos halpha]
    exact htake isAlphaNumeric (by rw [isAlphaNumeric, halpha]; rfl)
  rw [if_neg halpha]
  by_cases hdigit : isDigit c = true
  · rw [if_pos hdigit]
    exact htake isDigit hdigit
  rw [if_neg hdigit]
  by_cases hquote : c = 39
  · rw [if_pos hquote]
    exact ⟨Nat.succ_pos _, Nat.succ_le_succ (stringLength_le rest)⟩
  · rw [if_neg hquote]
    exact symbolShape_length c rest

/-- Only the end of the input gives the end of the file. -/
theorem tokenShape_type {text : Bytes} (h : text ≠ []) : (tokenShape text).2 ≠ .endOfFile := by
  obtain ⟨c, rest, rfl⟩ := List.exists_cons_of_ne_nil h
  rw [tokenShape]
  by_cases halpha : isAlpha c = true
  · rw [if_pos halpha]
    exact lookupKeyword_ne_endOfFile _
  rw [if_neg halpha]
  by_cases hdigit : isDigit c = true
  · rw [if_pos hdigit]
    show TokenType.integer ≠ .endOfFile
    decide
  rw [if_neg hdigit]
  by_cases hquote : c = 39
  · rw [if_pos hquote]
    show (if (stringLength rest).2 then _ else _) ≠ TokenType.endOfFile
    cases (stringLength rest).2 <;> decide
  · rw [if_neg hquote]
    exact (symbolShape_cases c _).1

/-- The operators are scanned by their shape. -/
theorem Lexer.scanOperatorOrPunctuation_eq (lexer : Lexer) :
    lexer.scanOperatorOrPunctuation
      = ((lexer.advance (symbolShape lexer.peek (lexer.rest.drop 1).head?).1).makeToken
          (symbolShape lexer.peek (lexer.rest.drop 1).head?).2,
        lexer.advance (symbolShape lexer.peek (lexer.rest.drop 1).head?).1) := by
  have hmake : ∀ shape : Nat × TokenType,
      ((lexer.advance shape.1).makeToken shape.2, lexer.advance shape.1)
        = (fun shape : Nat × TokenType =>
            ((lexer.advance shape.1).makeToken shape.2, lexer.advance shape.1)) shape :=
    fun _ => rfl
  rw [hmake]
  rw [Lexer.scanOperatorOrPunctuation, symbolShape]
  simp only [apply_ite (fun shape : Nat × TokenType =>
    ((lexer.advance shape.1).makeToken shape.2, lexer.advance shape.1)), decide_eq_true_eq,
    Lexer.advance_advance]
  rfl

/-- **SCANNING A TOKEN** moves the cursor over the token's text. -/
theorem Lexer.scanToken_eq (lexer : Lexer) :
    lexer.markTokenStart.scanToken
      = (⟨(tokenShape lexer.rest).2, lexer.rest.take (tokenShape lexer.rest).1,
          ⟨lexer.location, (lexer.advance (tokenShape lexer.rest).1).location⟩⟩,
        lexer.markTokenStart.advance (tokenShape lexer.rest).1) := by
  obtain ⟨text, location, startRest, startLocation⟩ := lexer
  cases text with
  | nil => rfl
  | cons c rest =>
      have hbound := (tokenShape_length (List.cons_ne_nil c rest)).2
      rw [← Lexer.makeToken_advance _ _ hbound]
      show (if c :: rest = [] then _ else if isAlpha c then _ else if isDigit c then _
        else if c = 39 then _ else _) = _
      rw [if_neg (List.cons_ne_nil c rest)]
      -- the cases of the scanner, in its order
      by_cases halpha : isAlpha c = true
      · -- the keyword is looked up in the text that is the lexeme
        have hshape : tokenShape (c :: rest) = (((c :: rest).takeWhile isAlphaNumeric).length,
            lookupKeyword ((c :: rest).takeWhile isAlphaNumeric)) := by
          rw [tokenShape, if_pos halpha]
        have htake : (c :: rest).take ((c :: rest).length
            - ((c :: rest).drop ((c :: rest).takeWhile isAlphaNumeric).length).length)
            = (c :: rest).takeWhile isAlphaNumeric := by
          have hle := (List.takeWhile_prefix isAlphaNumeric (l := c :: rest)).length_le
          rw [List.length_drop, Nat.sub_sub_self hle]
          exact (List.prefix_iff_eq_take.mp (List.takeWhile_prefix isAlphaNumeric)).symm
        rw [if_pos halpha, hshape]
        exact congrArg (fun text => (Lexer.makeToken _ (lookupKeyword text), _)) htake
      rw [if_neg halpha]
      by_cases hdigit : isDigit c = true
      · have hshape : tokenShape (c :: rest)
            = (((c :: rest).takeWhile isDigit).length, .integer) := by
          rw [tokenShape, if_neg halpha, if_pos hdigit]
        rw [if_pos hdigit, hshape]
        rfl
      rw [if_neg hdigit]
      by_cases hquote : c = 39
      · have hshape : tokenShape (c :: rest) = ((stringLength rest).1 + 1,
            if (stringLength rest).2 then .string else .invalid) := by
          rw [tokenShape, if_neg halpha, if_neg hdigit, if_pos hquote]
        rw [if_pos hquote, hshape, Nat.add_comm, ← Lexer.advance_advance]
        rfl
      · have hshape : tokenShape (c :: rest) = symbolShape c rest.head? := by
          rw [tokenShape, if_neg halpha, if_neg hdigit, if_neg hquote]
        rw [if_neg hquote, Lexer.scanOperatorOrPunctuation_eq, hshape]
        rfl

/-! ## Locations -/

/-- The location behind a text: lines and columns count from 1, a column from
    the last newline. -/
def locate (consumed : Bytes) : SourceLocation :=
  { line := 1 + consumed.count 10
    column := 1 + (consumed.reverse.takeWhile (· ≠ 10)).length
    offset := consumed.length }

theorem locate_concat (consumed : Bytes) (c : UInt8) :
    locate (consumed ++ [c]) = (locate consumed).after c := by
  by_cases hc : c = 10
  · subst hc
    simp [locate, SourceLocation.after, Nat.add_assoc]
  · simp [locate, SourceLocation.after, hc, Nat.add_assoc]

/-- Reading on character by character counts as the whole text does. -/
theorem foldl_after_locate (text consumed : Bytes) :
    text.foldl SourceLocation.after (locate consumed) = locate (consumed ++ text) := by
  induction text generalizing consumed with
  | nil => rw [List.append_nil]; rfl
  | cons c text ih =>
      rw [List.foldl_cons, ← locate_concat, ih, List.append_assoc]
      rfl

theorem Lexer.advance_location {lexer : Lexer} {consumed : Bytes}
    (h : lexer.location = locate consumed) (count : Nat) :
    (lexer.advance count).location = locate (consumed ++ lexer.rest.take count) := by
  show (lexer.rest.take count).foldl SourceLocation.after lexer.location = _
  rw [h, foldl_after_locate]

/-! ## Trivia -/

/-- A text in which no block comment ends. -/
def Unclosed (body : Bytes) : Prop := ¬[42, 47] <:+: body

/-- A line ends here: at a line feed, a carriage return or the end of the input. -/
def LineEnds (text : Bytes) : Prop := ∀ c, text.head? = some c → c = 10 ∨ c = 13

/-- A text of blanks and complete comments, in front of `rest`.  The body of a
    line comment has no line break, and the line ends behind it; the body of a
    block comment has no end of comment in it. -/
inductive Trivia : Bytes → Bytes → Prop
  | nil (rest : Bytes) : Trivia [] rest
  | space {c : UInt8} {text rest : Bytes} (hspace : isSpace c = true) (h : Trivia text rest) :
      Trivia (c :: text) rest
  | lineComment {body text rest : Bytes} (hbody : ∀ c ∈ body, c ≠ 10 ∧ c ≠ 13)
      (hends : LineEnds (text ++ rest)) (h : Trivia text rest) :
      Trivia (45 :: 45 :: body ++ text) rest
  | blockComment {body text rest : Bytes} (hbody : Unclosed body) (h : Trivia text rest) :
      Trivia (47 :: 42 :: body ++ 42 :: 47 :: text) rest

/-- The characters of a line comment, one after the other. -/
theorem noBreak_of_all {body : Bytes} (h : (body.all fun c => c ≠ 10 ∧ c ≠ 13) = true) :
    ∀ c ∈ body, c ≠ 10 ∧ c ≠ 13 :=
  fun c hc => of_decide_eq_true (List.all_eq_true.mp h c hc)

/-- No blank and no comment starts here. -/
def StartsToken (text : Bytes) : Prop :=
  text ≠ [] ∧ isSpace (text.headD 0) = false
    ∧ ¬(text.headD 0 = 45 ∧ (text.drop 1).headD 0 = 45)
    ∧ ¬(text.headD 0 = 47 ∧ (text.drop 1).headD 0 = 42)

/-- A block comment that never ends. -/
def UnterminatedComment (text : Bytes) : Prop := ∃ body, text = 47 :: 42 :: body ∧ Unclosed body

theorem unclosed_nil : Unclosed [] := by
  intro h
  have := h.length_le
  simp at this

theorem unclosed_cons {c : UInt8} {body : Bytes}
    (hhead : ¬(c = 42 ∧ body.head? = some 47)) (h : Unclosed body) : Unclosed (c :: body) := by
  intro hclosed
  rcases List.infix_cons_iff.mp hclosed with hstart | hlater
  · obtain ⟨tail, htail⟩ := hstart
    simp only [List.cons_append, List.nil_append, List.cons.injEq] at htail
    exact hhead ⟨htail.1.symm, by rw [← htail.2]; rfl⟩
  · exact h hlater

/-- What a block comment's length says about its text. -/
theorem blockCommentLength_cases (text : Bytes) :
    (blockCommentLength text = none ∧ Unclosed text)
      ∨ ∃ body tail, text = body ++ 42 :: 47 :: tail ∧ Unclosed body
        ∧ blockCommentLength text = some (body.length + 2) := by
  induction text using blockCommentLength.induct with
  | case1 => exact .inl ⟨rfl, unclosed_nil⟩
  | case2 c =>
      refine .inl ⟨rfl, unclosed_cons ?_ unclosed_nil⟩
      simp
  | case3 c d cs h =>
      obtain ⟨rfl, rfl⟩ := h
      exact .inr ⟨[], cs, rfl, unclosed_nil, rfl⟩
  | case4 c d cs h ih =>
      have hhead : ¬(c = 42 ∧ (d :: cs).head? = some 47) := by simpa using h
      rw [blockCommentLength, if_neg h]
      rcases ih with ⟨hnone, hunclosed⟩ | ⟨body, tail, heq, hunclosed, hsome⟩
      · rw [hnone]
        exact .inl ⟨rfl, unclosed_cons hhead hunclosed⟩
      · rw [hsome]
        refine .inr ⟨c :: body, tail, by rw [heq]; rfl, unclosed_cons ?_ hunclosed, rfl⟩
        rintro ⟨rfl, hbody⟩
        refine hhead ⟨rfl, ?_⟩
        rw [heq, List.head?_append, hbody]
        rfl

/-- A closed body is read up to its end. -/
theorem blockCommentLength_closed {body : Bytes} (h : Unclosed body) (tail : Bytes) :
    blockCommentLength (body ++ 42 :: 47 :: tail) = some (body.length + 2) := by
  induction body with
  | nil => rfl
  | cons c body ih =>
      have htail : Unclosed body := fun hclosed => h (hclosed.trans (List.infix_cons List.infix_rfl))
      obtain ⟨d, ds, heq⟩ : ∃ d ds, body ++ 42 :: 47 :: tail = d :: ds :=
        List.exists_cons_of_ne_nil (by simp)
      have hhead : ¬(c = 42 ∧ d = 47) := by
        rintro ⟨rfl, rfl⟩
        cases body with
        | nil => cases heq
        | cons e body =>
            rw [List.cons_append, List.cons.injEq] at heq
            exact h (heq.1 ▸ (List.prefix_append [42, 47] body).isInfix)
      rw [List.cons_append, heq, blockCommentLength, if_neg hhead, ← heq, ih htail]
      rfl

/-- Nothing ends an unclosed text. -/
theorem blockCommentLength_unclosed {text : Bytes} (h : Unclosed text) :
    blockCommentLength text = none := by
  rcases blockCommentLength_cases text with ⟨hnone, -⟩ | ⟨body, tail, heq, -, -⟩
  · exact hnone
  · refine absurd ?_ h
    rw [heq]
    exact (List.infix_append body [42, 47] tail).trans (by simp)

/-- Where trivia stops: at the end, at a token or in a comment without an end. -/
def TriviaStops (rest : Bytes) : Prop := rest = [] ∨ StartsToken rest ∨ UnterminatedComment rest

/-- Every text starts with trivia up to such a place. -/
theorem exists_trivia (text : Bytes) :
    ∃ gap rest, text = gap ++ rest ∧ Trivia gap rest ∧ TriviaStops rest := by
  -- induction on the length: a comment takes more than one character
  induction hlength : text.length using Nat.strongRecOn generalizing text with
  | _ length ih =>
    subst hlength
    cases text with
    | nil => exact ⟨[], [], rfl, .nil [], .inl rfl⟩
    | cons c text =>
      by_cases hspace : isSpace c = true
      · obtain ⟨gap, rest, heq, htrivia, hstops⟩ := ih text.length (Nat.lt_succ_self _) text rfl
        exact ⟨c :: gap, rest, by rw [heq]; rfl, .space hspace htrivia, hstops⟩
      by_cases hdash : c = 45 ∧ text.headD 0 = 45
      · -- the body of the line comment is what its loop accepts
        obtain ⟨rfl, hnext⟩ := hdash
        cases text with
        | nil => cases hnext
        | cons d text =>
          cases hnext
          have hsplit := List.takeWhile_append_dropWhile (p := fun c : UInt8 => c ≠ 10 ∧ c ≠ 13)
            (l := text)
          obtain ⟨gap, rest, heq, htrivia, hstops⟩ := ih
            (text.dropWhile fun c => c ≠ 10 ∧ c ≠ 13).length
            (Nat.lt_succ_of_le (Nat.le_succ_of_le (List.dropWhile_suffix _).length_le)) _ rfl
          refine ⟨45 :: 45 :: text.takeWhile (fun c => c ≠ 10 ∧ c ≠ 13) ++ gap, rest, ?_,
            .lineComment ?_ ?_ htrivia, hstops⟩
          · rw [List.append_assoc, ← heq]
            exact congrArg (45 :: 45 :: ·) hsplit.symm
          · intro c hc
            simpa using List.all_eq_true.mp List.all_takeWhile c hc
          · intro c hc
            rw [← heq] at hc
            have := List.head?_dropWhile_not (fun c : UInt8 => decide (c ≠ 10 ∧ c ≠ 13)) text
            rw [hc] at this
            simpa [or_iff_not_imp_left] using this
      by_cases hcomment : c = 47 ∧ text.headD 0 = 42
      · obtain ⟨rfl, hnext⟩ := hcomment
        cases text with
        | nil => cases hnext
        | cons d text =>
          cases hnext
          rcases blockCommentLength_cases text with ⟨-, hunclosed⟩ | ⟨body, tail, rfl, hbody, -⟩
          · exact ⟨[], _, rfl, .nil _, .inr (.inr ⟨text, rfl, hunclosed⟩)⟩
          · obtain ⟨gap, rest, rfl, htrivia, hstops⟩ := ih tail.length (by simp; omega) tail rfl
            refine ⟨47 :: 42 :: body ++ 42 :: 47 :: gap, rest, ?_, .blockComment hbody htrivia,
              hstops⟩
            simp
      · refine ⟨[], _, rfl, .nil _, .inr (.inl ⟨List.cons_ne_nil c text, ?_, ?_, ?_⟩)⟩
        · simpa using hspace
        · simpa using hdash
        · simpa using hcomment

/-- Nothing is skipped in front of a token. -/
theorem skipTrivia_startsToken {lexer : Lexer} (h : StartsToken lexer.rest) {rounds : Nat}
    (hrounds : 0 < rounds) : lexer.skipTrivia rounds = .ok lexer := by
  obtain ⟨hne, hspace, hdash, hcomment⟩ := h
  obtain ⟨rounds, rfl⟩ := Nat.exists_eq_add_one_of_ne_zero hrounds.ne'
  have hdash' : ¬(lexer.peek = 45 ∧ lexer.peekNext = 45) := hdash
  have hcomment' : ¬(lexer.peek = 47 ∧ lexer.peekNext = 42) := hcomment
  rw [Lexer.skipTrivia, if_neg hne, if_neg (by rw [Lexer.peek, hspace]; decide), if_neg hdash',
    if_neg hcomment']

theorem skipTrivia_nil {lexer : Lexer} (h : lexer.rest = []) (rounds : Nat) :
    lexer.skipTrivia rounds = .ok lexer := by
  cases rounds with
  | zero => rw [Lexer.skipTrivia, if_pos h]
  | succ rounds => rw [Lexer.skipTrivia, if_pos h]

theorem skipTrivia_unterminatedComment {lexer : Lexer} (h : UnterminatedComment lexer.rest)
    {rounds : Nat} (hrounds : 0 < rounds) :
    lexer.skipTrivia rounds = .error (.exception (ascii "unterminated block comment")) := by
  obtain ⟨body, hrest, hunclosed⟩ := h
  obtain ⟨rounds, rfl⟩ := Nat.exists_eq_add_one_of_ne_zero hrounds.ne'
  have hbody : (lexer.advance 2).rest = body := by simp [Lexer.advance, hrest]
  rw [Lexer.skipTrivia, if_neg (by simp [hrest]),
    if_neg (by simp [Lexer.peek, hrest, isSpace]), if_neg (by simp [Lexer.peek, hrest]),
    if_pos (by simp [Lexer.peek, Lexer.peekNext, hrest]), hbody,
    blockCommentLength_unclosed hunclosed]

/-- **TRIVIA IS SKIPPED.**  The induction is on the trivia; each round of the
    loop takes one blank or one comment. -/
theorem skipTrivia_trivia {gap rest : Bytes} (h : Trivia gap rest) {lexer : Lexer}
    (hrest : lexer.rest = gap ++ rest) {rounds : Nat} (hrounds : (gap ++ rest).length ≤ rounds) :
    ∃ rounds', rest.length ≤ rounds'
      ∧ lexer.skipTrivia rounds = (lexer.advance gap.length).skipTrivia rounds' := by
  induction h generalizing lexer rounds with
  | nil rest => exact ⟨rounds, hrounds, rfl⟩
  | @space c text rest hspace h ih =>
      obtain ⟨rounds, rfl⟩ : ∃ n, rounds = n + 1 :=
        Nat.exists_eq_add_one_of_ne_zero (by rintro rfl; simp at hrounds)
      have hadv : (lexer.advance 1).rest = text ++ rest := by simp [Lexer.advance, hrest]
      obtain ⟨rounds', hle, heq⟩ := ih hadv (Nat.le_of_succ_le_succ hrounds)
      refine ⟨rounds', hle, ?_⟩
      rw [Lexer.skipTrivia, if_neg (by simp [hrest]), if_pos (by simpa [Lexer.peek, hrest]), heq,
        Lexer.advance_advance, List.length_cons, Nat.add_comm]
  | @lineComment body text rest hbody hends h ih =>
      obtain ⟨rounds, rfl⟩ : ∃ n, rounds = n + 1 :=
        Nat.exists_eq_add_one_of_ne_zero (by rintro rfl; simp at hrounds)
      -- the loop stops at the end of the line, not before
      have hwhile : (body ++ (text ++ rest)).takeWhile (fun c => c ≠ 10 ∧ c ≠ 13) = body := by
        rw [List.takeWhile_append_of_pos (by simpa using hbody)]
        cases htail : text ++ rest with
        | nil => simp
        | cons c tail =>
            have hc : c = 10 ∨ c = 13 := hends c (by rw [htail]; rfl)
            rcases hc with rfl | rfl <;> simp
      have hstep : (lexer.advance 2).advanceWhile (fun c => c ≠ 10 ∧ c ≠ 13)
          = lexer.advance (2 + body.length) := by
        have hbodyRest : (lexer.advance 2).rest = body ++ (text ++ rest) := by
          simp [Lexer.advance, hrest]
        rw [Lexer.advanceWhile, hbodyRest, hwhile, Lexer.advance_advance]
      have hadv : (lexer.advance (2 + body.length)).rest = text ++ rest := by
        rw [← Lexer.advance_advance]
        simp [Lexer.advance, hrest]
      have hrounds' : (text ++ rest).length ≤ rounds := by
        simp at hrounds ⊢
        omega
      obtain ⟨rounds', hle, heq⟩ := ih hadv hrounds'
      refine ⟨rounds', hle, ?_⟩
      rw [Lexer.skipTrivia, if_neg (by simp [hrest]),
        if_neg (by simp [Lexer.peek, hrest, isSpace]),
        if_pos (by simp [Lexer.peek, Lexer.peekNext, hrest]), hstep, heq, Lexer.advance_advance]
      congr 2
      simp
      omega
  | @blockComment body text rest hbody h ih =>
      obtain ⟨rounds, rfl⟩ : ∃ n, rounds = n + 1 :=
        Nat.exists_eq_add_one_of_ne_zero (by rintro rfl; simp at hrounds)
      have hbodyRest : (lexer.advance 2).rest = body ++ 42 :: 47 :: (text ++ rest) := by
        simp [Lexer.advance, hrest]
      have hadv : ((lexer.advance 2).advance (body.length + 2)).rest = text ++ rest := by
        show ((lexer.advance 2).rest).drop (body.length + 2) = _
        rw [hbodyRest]
        simp
      have hrounds' : (text ++ rest).length ≤ rounds := by
        simp at hrounds ⊢
        omega
      obtain ⟨rounds', hle, heq⟩ := ih hadv hrounds'
      refine ⟨rounds', hle, ?_⟩
      rw [Lexer.skipTrivia, if_neg (by simp [hrest]),
        if_neg (by simp [Lexer.peek, hrest, isSpace]), if_neg (by simp [Lexer.peek, hrest]),
        if_pos (by simp [Lexer.peek, Lexer.peekNext, hrest]), hbodyRest,
        blockCommentLength_closed hbody]
      dsimp only
      rw [heq, Lexer.advance_advance, Lexer.advance_advance]
      congr 2
      simp
      omega

/-! ## Rounds of the loop -/

/-- One round of the loop of `Tokenize`: skip trivia, scan one token. -/
def Lexer.nextToken (lexer : Lexer) : Except Thrown (Token × Lexer) :=
  (fun lexer : Lexer => lexer.markTokenStart.scanToken) <$> lexer.skipTrivia lexer.rest.length

/-- The tokens that a number of rounds give, and the lexer behind them. -/
inductive Produces : Lexer → List Token → Lexer → Prop
  | nil (lexer : Lexer) : Produces lexer [] lexer
  | cons {lexer next last : Lexer} {token : Token} {tokens : List Token}
      (hnext : lexer.nextToken = .ok (token, next)) (htype : token.type ≠ .endOfFile)
      (h : Produces next tokens last) : Produces lexer (token :: tokens) last

theorem Produces.append {first middle last : Lexer} {front back : List Token}
    (hfront : Produces first front middle) (hback : Produces middle back last) :
    Produces first (front ++ back) last := by
  induction hfront with
  | nil lexer => exact hback
  | cons hnext htype h ih => exact .cons hnext htype (ih hback)

/-- A comment without an end starts where the lexer skips trivia. -/
def CommentStops (lexer : Lexer) : Prop :=
  ∃ gap rest, lexer.rest = gap ++ rest ∧ Trivia gap rest ∧ UnterminatedComment rest

/-- The token at the start of a text, behind what is consumed. -/
def tokenAt (consumed text : Bytes) : Token :=
  { type := (tokenShape text).2
    lexeme := text.take (tokenShape text).1
    range := ⟨locate consumed, locate (consumed ++ text.take (tokenShape text).1)⟩ }

/-- One round moves over the trivia and over the token behind it. -/
theorem nextToken_trivia {lexer : Lexer} {gap text : Bytes} (hrest : lexer.rest = gap ++ text)
    (htrivia : Trivia gap text) (hstops : text = [] ∨ StartsToken text) :
    lexer.nextToken = .ok
      (⟨(tokenShape text).2, text.take (tokenShape text).1,
        ⟨(lexer.advance gap.length).location,
          (lexer.advance (gap.length + (tokenShape text).1)).location⟩⟩,
      (lexer.advance gap.length).markTokenStart.advance (tokenShape text).1) := by
  obtain ⟨rounds, hle, heq⟩ :=
    skipTrivia_trivia htrivia hrest (Nat.le_of_eq (congrArg _ hrest.symm))
  have hadv : (lexer.advance gap.length).rest = text := by simp [Lexer.advance, hrest]
  have hskip : lexer.skipTrivia lexer.rest.length = .ok (lexer.advance gap.length) := by
    rcases hstops with rfl | hstarts
    · rw [heq, skipTrivia_nil hadv]
    · have hpos := Nat.lt_of_lt_of_le (List.length_pos_of_ne_nil hstarts.1) hle
      rw [heq, skipTrivia_startsToken (hadv ▸ hstarts) hpos]
  rw [Lexer.nextToken, hskip]
  show Except.ok (Lexer.scanToken _) = _
  rw [Lexer.scanToken_eq, hadv, Lexer.advance_advance]

/-- A comment without an end throws. -/
theorem nextToken_commentStops {lexer : Lexer} (h : CommentStops lexer) :
    lexer.nextToken = .error (.exception (ascii "unterminated block comment")) := by
  obtain ⟨gap, rest, hrest, htrivia, hcomment⟩ := h
  obtain ⟨rounds, hle, heq⟩ :=
    skipTrivia_trivia htrivia hrest (Nat.le_of_eq (congrArg _ hrest.symm))
  have hadv : (lexer.advance gap.length).rest = rest := by simp [Lexer.advance, hrest]
  have hpos : 0 < rounds := by
    obtain ⟨body, rfl, -⟩ := hcomment
    exact Nat.lt_of_lt_of_le (Nat.succ_pos _) hle
  rw [Lexer.nextToken, heq, skipTrivia_unterminatedComment (hadv ▸ hcomment) hpos]
  rfl

/-- **ONE ROUND** throws in a comment without an end, or it moves over trivia
    and a token. -/
theorem nextToken_cases (lexer : Lexer) :
    (CommentStops lexer
        ∧ lexer.nextToken = .error (.exception (ascii "unterminated block comment")))
      ∨ ∃ gap text, lexer.rest = gap ++ text ∧ Trivia gap text ∧ (text = [] ∨ StartsToken text)
        ∧ lexer.nextToken = .ok
          (⟨(tokenShape text).2, text.take (tokenShape text).1,
            ⟨(lexer.advance gap.length).location,
              (lexer.advance (gap.length + (tokenShape text).1)).location⟩⟩,
          (lexer.advance gap.length).markTokenStart.advance (tokenShape text).1) := by
  obtain ⟨gap, text, hrest, htrivia, hnil | hstarts | hcomment⟩ := exists_trivia lexer.rest
  · exact .inr ⟨gap, text, hrest, htrivia, .inl hnil, nextToken_trivia hrest htrivia (.inl hnil)⟩
  · exact .inr
      ⟨gap, text, hrest, htrivia, .inr hstarts, nextToken_trivia hrest htrivia (.inr hstarts)⟩
  · have hstops : CommentStops lexer := ⟨gap, text, hrest, htrivia, hcomment⟩
    exact .inl ⟨hstops, nextToken_commentStops hstops⟩

/-- The lexer behind a token. -/
theorem nextToken_rest {lexer : Lexer} {gap text : Bytes} (hrest : lexer.rest = gap ++ text)
    (count : Nat) :
    ((lexer.advance gap.length).markTokenStart.advance count).rest = text.drop count := by
  show (lexer.rest.drop gap.length).drop count = _
  rw [hrest, List.drop_left' rfl]

theorem nextToken_shorter {lexer next : Lexer} {token : Token}
    (h : lexer.nextToken = .ok (token, next)) (htype : token.type ≠ .endOfFile) :
    next.rest.length < lexer.rest.length := by
  rcases nextToken_cases lexer with ⟨-, hnext⟩ | ⟨gap, text, hrest, -, hstops, hnext⟩
  · cases h.symm.trans hnext
  obtain ⟨rfl, rfl⟩ := Prod.mk.inj (Except.ok.inj (hnext.symm.trans h))
  rcases hstops with rfl | hstarts
  · exact absurd rfl htype
  have hlength := tokenShape_length hstarts.1
  rw [nextToken_rest hrest, hrest, List.length_append, List.length_drop]
  omega

/-- The same with the locations of what is consumed. -/
theorem nextToken_located {lexer : Lexer} {consumed gap text : Bytes}
    (hlocation : lexer.location = locate consumed) (hrest : lexer.rest = gap ++ text)
    (count : Nat) :
    (lexer.advance gap.length).location = locate (consumed ++ gap)
      ∧ (lexer.advance (gap.length + count)).location
        = locate (consumed ++ gap ++ text.take count) := by
  have hgap : (lexer.advance gap.length).location = locate (consumed ++ gap) := by
    rw [Lexer.advance_location hlocation, hrest, List.take_left' rfl]
  have hadv : (lexer.advance gap.length).rest = text := by simp [Lexer.advance, hrest]
  refine ⟨hgap, ?_⟩
  rw [← Lexer.advance_advance, Lexer.advance_location hgap, hadv]

/-- One round of the loop. -/
theorem tokenizeLoop_next {lexer next : Lexer} {token : Token}
    (h : lexer.nextToken = .ok (token, next)) (rounds : Nat) :
    lexer.tokenizeLoop (rounds + 1) = if token.type = .endOfFile then .ok [token]
      else (token :: ·) <$> next.tokenizeLoop rounds := by
  rw [Lexer.tokenizeLoop]
  rw [Lexer.nextToken] at h
  cases hskip : lexer.skipTrivia lexer.rest.length with
  | error thrown =>
      rw [hskip] at h
      cases h
  | ok skipped =>
      rw [hskip] at h
      have hscan : skipped.markTokenStart.scanToken = (token, next) := Except.ok.inj h
      dsimp only
      rw [hscan]

theorem tokenizeLoop_throws {lexer : Lexer} {thrown : Thrown}
    (h : lexer.nextToken = .error thrown) (rounds : Nat) :
    lexer.tokenizeLoop (rounds + 1) = .error thrown := by
  rw [Lexer.tokenizeLoop]
  rw [Lexer.nextToken] at h
  cases hskip : lexer.skipTrivia lexer.rest.length with
  | error other =>
      rw [hskip] at h
      exact congrArg Except.error (Except.error.inj h)
  | ok skipped =>
      rw [hskip] at h
      cases h

/-- The tokens of a text behind what is consumed: gaps of trivia, and in each
    place the token that starts there. -/
inductive TilesFrom : Bytes → Bytes → List Token → Prop
  | stop (consumed : Bytes) {gap : Bytes} (h : Trivia gap []) :
      TilesFrom consumed gap [tokenAt (consumed ++ gap) []]
  | token {consumed gap text : Bytes} {tokens : List Token} (h : Trivia gap text)
      (hstarts : StartsToken text)
      (hrest : TilesFrom (consumed ++ gap ++ text.take (tokenShape text).1)
        (text.drop (tokenShape text).1) tokens) :
      TilesFrom consumed (gap ++ text) (tokenAt (consumed ++ gap) text :: tokens)

/-- **THE LOOP ENDS**: either with tokens that tile the text, or in a comment
    without an end.  The induction is on the rounds; a token takes something, so
    as many rounds as characters, and one for the end, are enough. -/
theorem tokenizeLoop_cases {rounds : Nat} {lexer : Lexer} {consumed : Bytes}
    (hrounds : lexer.rest.length < rounds) (hlocation : lexer.location = locate consumed) :
    (∃ tokens, lexer.tokenizeLoop rounds = .ok tokens ∧ TilesFrom consumed lexer.rest tokens)
      ∨ (lexer.tokenizeLoop rounds = .error (.exception (ascii "unterminated block comment"))
        ∧ ∃ tokens last, Produces lexer tokens last ∧ CommentStops last) := by
  induction rounds generalizing lexer consumed with
  | zero => exact absurd hrounds (Nat.not_lt_zero _)
  | succ rounds ih =>
      rcases nextToken_cases lexer with
        ⟨hstops, hnext⟩ | ⟨gap, text, hrest, htrivia, hends, hnext⟩
      · exact .inr ⟨tokenizeLoop_throws hnext rounds, [], lexer, .nil lexer, hstops⟩
      obtain ⟨hstart, hstop⟩ := nextToken_located hlocation hrest (tokenShape text).1
      rw [hstart, hstop, ← tokenAt] at hnext
      rw [tokenizeLoop_next hnext, hrest]
      -- the end of the file is a token as well, and ends the loop
      rcases hends with rfl | hstarts
      · have htype : (tokenAt (consumed ++ gap) []).type = .endOfFile := rfl
        rw [if_pos htype, List.append_nil]
        exact .inl ⟨_, rfl, .stop consumed htrivia⟩
      have htype : (tokenAt (consumed ++ gap) text).type ≠ .endOfFile := tokenShape_type hstarts.1
      have hnextRest := nextToken_rest hrest (tokenShape text).1
      have hnextLocation : ((lexer.advance gap.length).markTokenStart.advance
          (tokenShape text).1).location
          = locate (consumed ++ gap ++ text.take (tokenShape text).1) := by
        rw [← hstop, ← Lexer.advance_advance]
        rfl
      have hshorter := Nat.lt_of_lt_of_le (nextToken_shorter hnext htype)
        (Nat.le_of_lt_succ hrounds)
      rw [if_neg htype]
      rcases ih hshorter hnextLocation with
        ⟨tokens, hloop, htiles⟩ | ⟨hloop, tokens, last, hproduces, hstops⟩
      · rw [hloop]
        rw [hnextRest] at htiles
        exact .inl ⟨_, rfl, .token htrivia hstarts htiles⟩
      · rw [hloop]
        exact .inr ⟨rfl, _ :: tokens, last, .cons hnext htype hproduces, hstops⟩

/-- Where the lexer meets a comment without an end, the loop does not return. -/
theorem tokenizeLoop_commentStops {lexer last : Lexer} {tokens : List Token}
    (h : Produces lexer tokens last) (hstops : CommentStops last) (rounds : Nat) :
    ∀ result, lexer.tokenizeLoop rounds ≠ .ok result := by
  induction h generalizing rounds with
  | nil lexer =>
      intro result hloop
      cases rounds with
      | zero => cases hloop
      | succ rounds =>
          rw [tokenizeLoop_throws (nextToken_commentStops hstops)] at hloop
          cases hloop
  | @cons lexer next last token tokens hnext htype h ih =>
      intro result hloop
      cases rounds with
      | zero => cases hloop
      | succ rounds =>
          rw [tokenizeLoop_next hnext, if_neg htype] at hloop
          cases hrest : next.tokenizeLoop rounds with
          | error thrown =>
              rw [hrest] at hloop
              cases hloop
          | ok rest => exact ih hstops rounds rest hrest

/-! ## The tiling -/

/-- The text between two offsets. -/
def textBetween (input : Bytes) (start stop : Nat) : Bytes := (input.take stop).drop start

/-- Where the last of the tokens ends; the start of the input when there is none. -/
def endOffset (tokens : List Token) : Nat :=
  (tokens.getLast?.map fun token => token.range.stop.offset).getD 0

/-- The tokens of an input, with the trivia between them, are the input. -/
structure Tiling (input : Bytes) (tokens : List Token) : Prop where
  /-- The last token is the end of the file, at the end of the input, and no
      other one is. -/
  endOfFile : ∃ front eof, tokens = front ++ [eof] ∧ eof.type = .endOfFile ∧ eof.lexeme = []
    ∧ eof.range.start.offset = input.length ∧ ∀ token ∈ front, token.type ≠ .endOfFile
  /-- Every lexeme is the text between the token's two offsets. -/
  lexeme : ∀ token ∈ tokens, token.range.stop.offset ≤ input.length
    ∧ token.lexeme = textBetween input token.range.start.offset token.range.stop.offset
  /-- Only the end of the file is empty. -/
  nonempty : ∀ token ∈ tokens, token.type ≠ .endOfFile → token.lexeme ≠ []
  /-- Tokens stand in order and do not overlap. -/
  ordered : (∀ token ∈ tokens, token.range.start.offset ≤ token.range.stop.offset)
    ∧ tokens.Pairwise fun a b => a.range.stop.offset ≤ b.range.start.offset
  /-- In front of every token, up to the token before it, stands trivia. -/
  gaps : ∀ front token back, tokens = front ++ token :: back →
    Trivia (textBetween input (endOffset front) token.range.start.offset)
      (input.drop token.range.start.offset)
  /-- Lines and columns are those of the offset. -/
  locations : ∀ token ∈ tokens,
    token.range.start = locate (input.take token.range.start.offset)
      ∧ token.range.stop = locate (input.take token.range.stop.offset)

theorem textBetween_append (before middle after : Bytes) :
    textBetween (before ++ middle ++ after) before.length (before ++ middle).length = middle := by
  rw [textBetween, List.take_left' rfl, List.drop_left' rfl]

/-- Every token has a place in the text, behind what is consumed. -/
theorem TilesFrom.placed {consumed text : Bytes} {tokens : List Token}
    (h : TilesFrom consumed text tokens) :
    ∀ token ∈ tokens, ∃ before after, consumed ++ text = before ++ token.lexeme ++ after
      ∧ consumed.length ≤ before.length
      ∧ token.range = ⟨locate before, locate (before ++ token.lexeme)⟩
      ∧ (token.type ≠ .endOfFile → token.lexeme ≠ []) := by
  induction h with
  | @stop consumed gap h =>
      intro token htoken
      rw [List.mem_singleton] at htoken
      subst htoken
      refine ⟨consumed ++ gap, [], ?_, ?_, rfl, fun htype => absurd rfl htype⟩
      · rw [List.append_nil]
        exact (List.append_nil _).symm
      · rw [List.length_append]
        exact Nat.le_add_right _ _
  | @token consumed gap text tokens h hstarts hrest ih =>
      -- what is consumed grows by the gap and the token
      have hsplit : consumed ++ (gap ++ text)
          = consumed ++ gap ++ text.take (tokenShape text).1 ++ text.drop (tokenShape text).1 := by
        rw [List.append_assoc _ (text.take _), List.take_append_drop, List.append_assoc]
      intro token htoken
      rcases List.mem_cons.mp htoken with rfl | htoken
      · refine ⟨consumed ++ gap, text.drop (tokenShape text).1, hsplit, ?_, rfl, fun _ hnil => ?_⟩
        · rw [List.length_append]
          exact Nat.le_add_right _ _
        · have hlength := tokenShape_length hstarts.1
          have hzero := congrArg List.length (show text.take (tokenShape text).1 = [] from hnil)
          rw [List.length_take, List.length_nil] at hzero
          omega
      · obtain ⟨before, after, heq, hle, hrange⟩ := ih token htoken
        refine ⟨before, after, hsplit.trans heq, ?_, hrange⟩
        rw [List.length_append, List.length_append] at hle
        omega

/-- The end of the file comes last and only there. -/
theorem TilesFrom.endOfFile {consumed text : Bytes} {tokens : List Token}
    (h : TilesFrom consumed text tokens) :
    ∃ front, tokens = front ++ [tokenAt (consumed ++ text) []]
      ∧ ∀ token ∈ front, token.type ≠ .endOfFile := by
  induction h with
  | @stop consumed gap h => exact ⟨[], rfl, by simp⟩
  | @token consumed gap text tokens h hstarts hrest ih =>
      obtain ⟨front, htokens, hfront⟩ := ih
      refine ⟨tokenAt (consumed ++ gap) text :: front, ?_, ?_⟩
      · rw [htokens, List.append_assoc _ (text.take _), List.take_append_drop, List.append_assoc]
        rfl
      · intro token htoken
        rcases List.mem_cons.mp htoken with rfl | htoken
        · exact tokenShape_type hstarts.1
        · exact hfront token htoken

/-- Tokens start behind what is consumed and end before the next one starts. -/
theorem TilesFrom.ordered {consumed text : Bytes} {tokens : List Token}
    (h : TilesFrom consumed text tokens) :
    tokens.Pairwise fun a b => a.range.stop.offset ≤ b.range.start.offset := by
  induction h with
  | @stop consumed gap h => exact List.pairwise_singleton _ _
  | @token consumed gap text tokens h hstarts hrest ih =>
      refine List.pairwise_cons.mpr ⟨fun later hlater => ?_, ih⟩
      obtain ⟨before, after, -, hle, hrange, -⟩ := hrest.placed later hlater
      rw [hrange]
      exact hle

/-- In front of each token stands trivia, from the end of the token before it. -/
theorem TilesFrom.gaps {consumed text : Bytes} {tokens : List Token}
    (h : TilesFrom consumed text tokens) :
    ∀ front token back, tokens = front ++ token :: back →
      Trivia (textBetween (consumed ++ text)
          ((front.getLast?.map fun token => token.range.stop.offset).getD consumed.length)
          token.range.start.offset)
        ((consumed ++ text).drop token.range.start.offset) := by
  induction h with
  | @stop consumed gap h =>
      intro front token back heq
      cases front with
      | cons first front => simp at heq
      | nil =>
          cases heq
          show Trivia (textBetween (consumed ++ gap) consumed.length (consumed ++ gap).length)
            ((consumed ++ gap).drop (consumed ++ gap).length)
          have hslice := textBetween_append consumed gap []
          rw [List.append_nil] at hslice
          rw [hslice, List.drop_length]
          exact h
  | @token consumed gap text tokens h hstarts hrest ih =>
      intro front token back heq
      -- the gap of the first token is the one in front of it; later ones are the rest's
      cases front with
      | nil =>
          cases heq
          show Trivia (textBetween (consumed ++ (gap ++ text)) consumed.length (consumed ++ gap).length)
            ((consumed ++ (gap ++ text)).drop (consumed ++ gap).length)
          rw [← List.append_assoc, textBetween_append, List.drop_left' rfl]
          exact h
      | cons first front =>
          obtain ⟨rfl, htokens⟩ := List.cons.inj heq
          have hgap := ih front token back htokens
          rw [List.append_assoc _ (text.take _), List.take_append_drop, List.append_assoc] at hgap
          cases hlast : front.getLast? with
          | none =>
              rw [hlast] at hgap
              rw [List.getLast?_cons, hlast]
              exact hgap
          | some last =>
              rw [hlast] at hgap
              rw [List.getLast?_cons, hlast]
              exact hgap

theorem locate_offset (consumed : Bytes) : (locate consumed).offset = consumed.length := rfl

theorem tiling_of_tilesFrom {input : Bytes} {tokens : List Token}
    (h : TilesFrom [] input tokens) : Tiling input tokens where
  endOfFile := by
    obtain ⟨front, htokens, hfront⟩ := h.endOfFile
    exact ⟨front, _, htokens, rfl, rfl, rfl, hfront⟩
  lexeme := by
    intro token htoken
    obtain ⟨before, after, heq, -, hrange, -⟩ := h.placed token htoken
    rw [List.nil_append] at heq
    rw [hrange, locate_offset, locate_offset, heq, textBetween_append]
    exact ⟨(List.prefix_append _ after).length_le, rfl⟩
  nonempty := by
    intro token htoken
    obtain ⟨before, after, -, -, -, hne⟩ := h.placed token htoken
    exact hne
  ordered := by
    refine ⟨fun token htoken => ?_, h.ordered⟩
    obtain ⟨before, after, -, -, hrange, -⟩ := h.placed token htoken
    rw [hrange, locate_offset, locate_offset, List.length_append]
    exact Nat.le_add_right _ _
  gaps := h.gaps
  locations := by
    intro token htoken
    obtain ⟨before, after, heq, -, hrange, -⟩ := h.placed token htoken
    rw [List.nil_append] at heq
    rw [hrange, locate_offset, locate_offset, heq, List.take_left' rfl, List.append_assoc,
      List.take_left' rfl]
    exact ⟨rfl, rfl⟩

/-- Every input is tokenized, or a comment without an end is met. -/
theorem tokenize_cases (input : Bytes) :
    (∃ tokens, tokenize input = .ok tokens ∧ TilesFrom [] input tokens)
      ∨ (tokenize input = .error (.exception (ascii "unterminated block comment"))
        ∧ ∃ tokens last, Produces { rest := input } tokens last ∧ CommentStops last) :=
  tokenizeLoop_cases (Nat.lt_succ_self input.length) rfl

theorem tokenize_tilesFrom {input : Bytes} {tokens : List Token} (h : tokenize input = .ok tokens) :
    TilesFrom [] input tokens := by
  rcases tokenize_cases input with ⟨other, hok, htiles⟩ | ⟨herror, -⟩
  · rw [Except.ok.inj (h.symm.trans hok)]
    exact htiles
  · cases h.symm.trans herror

/-- Tokens that tile a text are the ones the loop returns. -/
theorem TilesFrom.tokenizeLoop_eq {consumed text : Bytes} {tokens : List Token}
    (h : TilesFrom consumed text tokens) {lexer : Lexer} (hrest : lexer.rest = text)
    (hlocation : lexer.location = locate consumed) {rounds : Nat} (hrounds : text.length < rounds) :
    lexer.tokenizeLoop rounds = .ok tokens := by
  induction h generalizing lexer rounds with
  | @stop consumed gap htrivia =>
      obtain ⟨rounds, rfl⟩ := Nat.exists_eq_add_one_of_ne_zero (Nat.ne_zero_of_lt hrounds)
      rw [← List.append_nil gap] at hrest
      have hnext := nextToken_trivia hrest htrivia (Or.inl rfl)
      obtain ⟨hstart, hstop⟩ := nextToken_located hlocation hrest (tokenShape []).1
      rw [hstart, hstop, ← tokenAt] at hnext
      rw [tokenizeLoop_next hnext]
      exact if_pos rfl
  | @token consumed gap text tokens htrivia hstarts _ ih =>
      obtain ⟨rounds, rfl⟩ := Nat.exists_eq_add_one_of_ne_zero (Nat.ne_zero_of_lt hrounds)
      have hnext := nextToken_trivia hrest htrivia (Or.inr hstarts)
      obtain ⟨hstart, hstop⟩ := nextToken_located hlocation hrest (tokenShape text).1
      rw [hstart, hstop, ← tokenAt] at hnext
      have htype : (tokenAt (consumed ++ gap) text).type ≠ .endOfFile := tokenShape_type hstarts.1
      have hnextRest := nextToken_rest hrest (tokenShape text).1
      have hshorter := nextToken_shorter hnext htype
      rw [hnextRest, hrest] at hshorter
      rw [tokenizeLoop_next hnext, if_neg htype, ih hnextRest ?_ (by omega)]
      · rfl
      · rw [← hstop, ← Lexer.advance_advance]
        rfl

theorem TilesFrom.tokenize_eq {input : Bytes} {tokens : List Token}
    (h : TilesFrom [] input tokens) : tokenize input = .ok tokens :=
  @TilesFrom.tokenizeLoop_eq [] input tokens h { rest := input } rfl rfl _
    (Nat.lt_succ_self input.length)

/-- **TOKENS TILE THE INPUT.**  Every input is tokenized or throws; tokens tile
    it, and what is thrown is the unterminated block comment, exactly when one
    starts where the lexer skips trivia. -/
theorem tokenize_tiling (input : Bytes) :
    (∀ tokens, tokenize input = .ok tokens → Tiling input tokens)
      ∧ (∀ thrown, tokenize input = .error thrown →
        thrown = .exception (ascii "unterminated block comment"))
      ∧ ((∃ thrown, tokenize input = .error thrown)
        ↔ ∃ tokens last, Produces { rest := input } tokens last ∧ CommentStops last) := by
  refine ⟨fun tokens hok => tiling_of_tilesFrom (tokenize_tilesFrom hok), ?_⟩
  rcases tokenize_cases input with ⟨tokens, hok, htiles⟩ | ⟨herror, hstops⟩
  · refine ⟨fun thrown hthrown => ?_, fun ⟨thrown, hthrown⟩ => ?_,
      fun ⟨produced, last, hproduces, hstops⟩ => ?_⟩
    · cases hthrown.symm.trans hok
    · cases hthrown.symm.trans hok
    · exact absurd hok (tokenizeLoop_commentStops hproduces hstops _ tokens)
  · exact ⟨fun thrown hthrown => Except.error.inj (hthrown.symm.trans herror), fun _ => hstops,
      fun _ => ⟨_, herror⟩⟩

/-- A comment opener inside a string is no trivia. -/
example : (tokenize (ascii "'/*' -- /*")).map (List.map Token.kind)
    = .ok [(.string, ascii "'/*'"), (.endOfFile, [])] := by decide

end MattSql
