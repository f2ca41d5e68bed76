import MattSql.SplitterProofs

/-! # Layout

    The same tokens with other blanks and comments between them.  A separator
    starts with a blank, so that no two lexemes run together; behind the blank
    it may have comments.

    A token that is scanned off the start of a text is scanned off its lexeme
    alone, when what follows the lexeme starts with a blank or is nothing
    (`tokenShape_relex`).  The only token that runs to the end of the input
    whatever stands there is the string without a closing quote, and it is the
    last one. -/

namespace MattSql

/-! ## Separators -/

/-- Blanks and complete comments, whatever follows; a line comment ends with its
    line break. -/
inductive CompleteTrivia : Bytes → Prop
  | nil : CompleteTrivia []
  | space {c : UInt8} {text : Bytes} (hspace : isSpace c = true) (h : CompleteTrivia text) :
      CompleteTrivia (c :: text)
  | lineComment {body text : Bytes} {c : UInt8} (hbody : ∀ c ∈ body, c ≠ 10 ∧ c ≠ 13)
      (hbreak : c = 10 ∨ c = 13) (h : CompleteTrivia text) :
      CompleteTrivia (45 :: 45 :: body ++ c :: text)
  | blockComment {body text : Bytes} (hbody : Unclosed body) (h : CompleteTrivia text) :
      CompleteTrivia (47 :: 42 :: body ++ 42 :: 47 :: text)

/-- What may stand between two tokens. -/
structure Separator where
  text : Bytes
  startsBlank : ∃ c rest, text = c :: rest ∧ isSpace c = true
  complete : CompleteTrivia text

/-- The lexemes in order, with separators between them. -/
def layOut (separators : Nat → Separator) : Nat → List Bytes → Bytes
  | _, [] => []
  | _, [lexeme] => lexeme
  | i, lexeme :: next :: lexemes =>
    lexeme ++ (separators i).text ++ layOut separators (i + 1) (next :: lexemes)

/-- A line comment between two letters. -/
def commentSeparator : Separator where
  text := ascii " -- ;\n"
  startsBlank := ⟨32, _, rfl, rfl⟩
  complete := .space rfl
    (@CompleteTrivia.lineComment (ascii " ;") [] 10 (noBreak_of_all rfl) (.inl rfl) .nil)

example : layOut (fun _ => commentSeparator) 0 [ascii "a", ascii "<", ascii "b"]
    = ascii "a -- ;\n< -- ;\nb" := by decide

/-- A line break is a blank as well as the end of a comment. -/
theorem CompleteTrivia.trivia {text : Bytes} (h : CompleteTrivia text) (rest : Bytes) :
    Trivia text rest := by
  induction h with
  | nil => exact .nil rest
  | space hspace h ih => exact .space hspace ih
  | @lineComment body text c hbody hbreak h ih =>
      have hspace : isSpace c = true := by
        rcases hbreak with rfl | rfl <;> rfl
      refine .lineComment hbody ?_ (.space hspace ih)
      intro d hd
      cases hd
      exact hbreak
  | blockComment hbody h ih => exact .blockComment hbody ih

/-! ## Scanning a lexeme alone -/

/-- Nothing, or something behind a blank. -/
def StartsBlank (tail : Bytes) : Prop := ∀ c, tail.head? = some c → isSpace c = true

theorem startsBlank_nil : StartsBlank [] := fun _ h => nomatch h

theorem Separator.startsBlank_append (separator : Separator) (rest : Bytes) :
    StartsBlank (separator.text ++ rest) := by
  obtain ⟨c, text, heq, hspace⟩ := separator.startsBlank
  intro d hd
  rw [heq] at hd
  cases hd
  exact hspace

theorem isAlphaNumeric_of_isSpace {c : UInt8} (h : isSpace c = true) :
    isAlphaNumeric c = false := by
  simp only [isAlphaNumeric, isAlpha, isDigit, isSpace, UInt8.le_iff_toNat_le, ← UInt8.toNat_inj,
    Bool.or_eq_false_iff, decide_eq_true_eq, decide_eq_false_iff_not, UInt8.reduceToNat] at h ⊢
  omega

theorem StartsBlank.head_ne {tail : Bytes} (h : StartsBlank tail) {c : UInt8}
    (hc : isSpace c = false) : tail.head? ≠ some c := by
  intro hhead
  exact absurd (h c hhead) (by rw [hc]; decide)

theorem StartsBlank.headD_ne {tail : Bytes} (h : StartsBlank tail) {c : UInt8}
    (hc : isSpace c = false) (hzero : c ≠ 0) : tail.headD 0 ≠ c := by
  cases tail with
  | nil => exact Ne.symm hzero
  | cons d tail => exact fun hd => h.head_ne hc (congrArg some hd)

/-- A loop that fails on blanks stops where it stopped. -/
theorem takeWhile_relex {keep : UInt8 → Bool} {tail : Bytes}
    (hkeep : ∀ c, isSpace c = true → keep c = false) (htail : StartsBlank tail) (text : Bytes) :
    (text.takeWhile keep ++ tail).takeWhile keep = text.takeWhile keep := by
  rw [List.takeWhile_append_of_pos (List.all_eq_true.mp List.all_takeWhile)]
  cases tail with
  | nil => exact List.append_nil _
  | cons c tail =>
      rw [List.takeWhile_cons_of_neg, List.append_nil]
      rw [hkeep c (htail c rfl)]
      exact Bool.false_ne_true

theorem stringLength_cons_ne_zero (c : UInt8) (cs : Bytes) : (stringLength (c :: cs)).1 ≠ 0 := by
  cases cs with
  | nil => exact Nat.one_ne_zero
  | cons d cs =>
      rw [stringLength]
      split
      · split
        · exact Nat.succ_ne_zero _
        · exact Nat.one_ne_zero
      · exact Nat.succ_ne_zero _

/-- A quote ends the string when no other one follows. -/
theorem stringLength_quote {tail : Bytes} (htail : tail.head? ≠ some 39) :
    stringLength (39 :: tail) = (1, true) := by
  cases tail with
  | nil => rfl
  | cons d tail =>
      have hd : d ≠ 39 := fun hd => htail (congrArg some hd)
      rw [stringLength, if_pos rfl, if_neg hd]

/-- A string with a closing quote ends where it ended; the quote is not doubled
    by what follows. -/
theorem stringLength_relex {text tail : Bytes} (h : (stringLength text).2 = true)
    (htail : tail.head? ≠ some 39) :
    stringLength (text.take (stringLength text).1 ++ tail) = stringLength text := by
  induction text using stringLength.induct with
  | case1 => cases h
  | case2 c =>
      have hc : c = 39 := of_decide_eq_true h
      subst hc
      exact stringLength_quote htail
  | case3 cs ih =>
      rw [stringLength, if_pos rfl, if_pos rfl] at h ⊢
      rw [List.take_succ_cons, List.take_succ_cons, List.cons_append, List.cons_append,
        stringLength, if_pos rfl, if_pos rfl, ih h]
  | case4 d cs hd =>
      rw [stringLength, if_pos rfl, if_neg hd]
      exact stringLength_quote htail
  | case5 c d cs hc ih =>
      rw [stringLength, if_neg hc] at h ⊢
      have hshape := ih h
      -- the rest of the string has a closing quote at least
      obtain ⟨count, hcount⟩ := Nat.exists_eq_add_one_of_ne_zero (stringLength_cons_ne_zero d cs)
      rw [hcount] at hshape ⊢
      rw [List.take_succ_cons, List.take_succ_cons, List.cons_append, List.cons_append,
        stringLength, if_neg hc]
      rw [List.take_succ_cons, List.cons_append] at hshape
      rw [hshape, hcount]

/-- An operator of one character stays one when no `=` or `>` follows. -/
theorem symbolShape_relex {c : UInt8} {next next' : Option UInt8} (h : (symbolShape c next).1 = 1)
    (hequal : next' ≠ some 61) (hgreater : next' ≠ some 62) :
    symbolShape c next' = symbolShape c next := by
  -- `!`, `<` and `>` are the operators that look at the next character
  by_cases hbang : c = 33
  · subst hbang
    have hnext : next ≠ some 61 := by
      rintro rfl
      cases h
    show (if next' = some 61 then _ else _) = if next = some 61 then _ else _
    rw [if_neg hequal, if_neg hnext]
  by_cases hless : c = 60
  · subst hless
    have hnext : next ≠ some 61 ∧ next ≠ some 62 := by
      constructor
      · rintro rfl
        cases h
      · rintro rfl
        cases h
    show (if next' = some 61 then _ else if next' = some 62 then _ else _)
      = if next = some 61 then _ else if next = some 62 then _ else _
    rw [if_neg hequal, if_neg hgreater, if_neg hnext.1, if_neg hnext.2]
  by_cases hmore : c = 62
  · subst hmore
    have hnext : next ≠ some 61 := by
      rintro rfl
      cases h
    show (if next' = some 61 then _ else _) = if next = some 61 then _ else _
    rw [if_neg hequal, if_neg hnext]
  · simp only [symbolShape, if_neg hbang, if_neg hless, if_neg hmore]

/-- An operator's shape depends on its own characters and on no blank. -/
theorem symbolShape_take {c : UInt8} {rest tail : Bytes} (htail : StartsBlank tail) :
    symbolShape c ((rest.take ((symbolShape c rest.head?).1 - 1)) ++ tail).head?
      = symbolShape c rest.head? := by
  rcases (symbolShape_cases c rest.head?).2 with hone | ⟨htwo, hnext⟩
  · rw [hone, List.take_zero, List.nil_append]
    exact symbolShape_relex hone (htail.head_ne rfl) (htail.head_ne rfl)
  · cases rest with
    | nil => rcases hnext with hnext | hnext <;> cases hnext
    | cons d rest =>
        rw [htwo]
        rfl

/-- A word is its first character and what the loop takes behind it, in the text
    and alone. -/
theorem word_relex {keep : UInt8 → Bool} {c : UInt8} {tail : Bytes} (hc : keep c = true)
    (hkeep : ∀ c, isSpace c = true → keep c = false) (htail : StartsBlank tail) (rest : Bytes) :
    ∃ word, (c :: rest).takeWhile keep = c :: word
      ∧ (c :: rest).take ((c :: rest).takeWhile keep).length = c :: word
      ∧ (c :: (word ++ tail)).takeWhile keep = c :: word := by
  have hword : (c :: rest).takeWhile keep = c :: rest.takeWhile keep :=
    List.takeWhile_cons_of_pos hc
  refine ⟨rest.takeWhile keep, hword, ?_, ?_⟩
  · rw [← List.prefix_iff_eq_take.mp (List.takeWhile_prefix keep), hword]
  · rw [List.takeWhile_cons_of_pos hc, takeWhile_relex hkeep htail]

/-- **A LEXEME IS SCANNED ALONE** as it was scanned off the text, in front of a
    blank, or at the end when it was the end of the text. -/
theorem tokenShape_relex {text tail : Bytes} (hne : text ≠ []) (htail : StartsBlank tail)
    (hlast : text.drop (tokenShape text).1 = [] → tail = []) :
    tokenShape (text.take (tokenShape text).1 ++ tail) = tokenShape text := by
  obtain ⟨c, rest, rfl⟩ := List.exists_cons_of_ne_nil hne
  rw [tokenShape] at hlast ⊢
  by_cases halpha : isAlpha c = true
  · have hkeep : isAlphaNumeric c = true := by rw [isAlphaNumeric, halpha, Bool.true_or]
    obtain ⟨word, hword, htake, halone⟩ :=
      word_relex hkeep (fun _ => isAlphaNumeric_of_isSpace) htail rest
    rw [if_pos halpha, htake, List.cons_append, tokenShape, if_pos halpha, halone, hword]
  rw [if_neg halpha] at hlast ⊢
  by_cases hdigit : isDigit c = true
  · obtain ⟨word, hword, htake, halone⟩ := word_relex hdigit (fun c hspace => by
      have hnone := isAlphaNumeric_of_isSpace hspace
      exact (Bool.or_eq_false_iff.mp hnone).2) htail rest
    rw [if_pos hdigit, htake, List.cons_append, tokenShape, if_neg halpha, if_pos hdigit, halone,
      hword]
  rw [if_neg hdigit] at hlast ⊢
  by_cases hquote : c = 39
  · rw [if_pos hquote] at hlast ⊢
    rw [List.take_succ_cons, List.cons_append, tokenShape, if_neg halpha, if_neg hdigit,
      if_pos hquote]
    cases hclosed : (stringLength rest).2 with
    | true => rw [stringLength_relex hclosed (htail.head_ne rfl), hclosed]
    | false =>
        -- without a closing quote the string is the end of the text
        have hlength := stringLength_unterminated hclosed
        rw [List.drop_succ_cons, hlength, List.drop_length] at hlast
        rw [hlast rfl, List.append_nil, hlength, List.take_length, hclosed, hlength]
  · rw [if_neg hquote] at hlast ⊢
    obtain ⟨count, hcount⟩ :=
      Nat.exists_eq_add_one_of_ne_zero (Nat.ne_of_gt (symbolShape_length c rest).1)
    have hshape := @symbolShape_take c rest tail htail
    rw [hcount, Nat.add_sub_cancel] at hshape
    rw [hcount, List.take_succ_cons, List.cons_append, tokenShape, if_neg halpha, if_neg hdigit,
      if_neg hquote, hshape]

/-- Alone it starts neither a blank nor a comment. -/
theorem startsToken_relex {text tail : Bytes} (h : StartsToken text) (htail : StartsBlank tail) :
    StartsToken (text.take (tokenShape text).1 ++ tail) := by
  obtain ⟨hne, hspace, hdash, hcomment⟩ := h
  obtain ⟨hpos, -⟩ := tokenShape_length hne
  obtain ⟨count, hcount⟩ := Nat.exists_eq_add_one_of_ne_zero (Nat.ne_of_gt hpos)
  obtain ⟨c, rest, rfl⟩ := List.exists_cons_of_ne_nil hne
  rw [hcount, List.take_succ_cons, List.cons_append]
  -- the second character is the one of the text, a blank or none
  have hsecond : ∀ d : UInt8, isSpace d = false → d ≠ 0 →
      (rest.take count ++ tail).headD 0 = d → rest.headD 0 = d := by
    intro d hblank hzero hhead
    cases count with
    | zero => exact absurd hhead (htail.headD_ne hblank hzero)
    | succ count =>
        cases rest with
        | nil => exact absurd hhead (htail.headD_ne hblank hzero)
        | cons e rest => exact hhead
  exact ⟨List.cons_ne_nil _ _, hspace,
    fun h => hdash ⟨h.1, hsecond 45 rfl (by decide) h.2⟩,
    fun h => hcomment ⟨h.1, hsecond 42 rfl (by decide) h.2⟩⟩

/-! ## The text laid out anew -/

/-- The lexemes of the tokens before the end of the file. -/
def lexemes (tokens : List Token) : List Bytes := tokens.dropLast.map Token.lexeme

theorem take_tokenShape_length {text : Bytes} (h : text ≠ []) :
    (text.take (tokenShape text).1).length = (tokenShape text).1 := by
  rw [List.length_take, Nat.min_eq_left (tokenShape_length h).2]

/-- A token scanned off a text, in front of what follows it now. -/
theorem Scans.cons_relex {gap text tail rest : Bytes} {kinds : List TokenKind}
    (hgap : Trivia gap (text.take (tokenShape text).1 ++ tail)) (hstarts : StartsToken text)
    (htail : StartsBlank tail) (hlast : text.drop (tokenShape text).1 = [] → tail = [])
    (h : Scans tail kinds rest) :
    Scans (gap ++ (text.take (tokenShape text).1 ++ tail))
      (((tokenShape text).2, text.take (tokenShape text).1) :: kinds) rest := by
  have hshape := tokenShape_relex hstarts.1 htail hlast
  have hlength := take_tokenShape_length hstarts.1
  have hscans := @Scans.cons gap _ rest kinds hgap (startsToken_relex hstarts htail)
    (by rwa [hshape, List.drop_left' hlength])
  rwa [hshape, List.take_left' hlength] at hscans

theorem TilesFrom.ne_nil {consumed text : Bytes} {tokens : List Token}
    (h : TilesFrom consumed text tokens) (hmore : tokens.dropLast ≠ []) : text ≠ [] := by
  cases h with
  | stop consumed h => exact absurd rfl hmore
  | token htrivia hstarts hrest => exact List.append_ne_nil_of_right_ne_nil _ hstarts.1

/-- **THE TOKENS OF A TEXT LAID OUT ANEW** scan as they did.  The induction is on
    the tiling of the text; each lexeme stands in front of its separator, and the
    last one at the end. -/
theorem TilesFrom.scans_layOut {consumed text : Bytes} {tokens : List Token}
    (h : TilesFrom consumed text tokens) (separators : Nat → Separator) (i : Nat) {gap : Bytes}
    (hgap : CompleteTrivia gap) (hstop : tokens.dropLast = [] → gap = []) :
    Scans (gap ++ layOut separators i (lexemes tokens)) (tokens.dropLast.map Token.kind) [] := by
  induction h generalizing i gap with
  | stop consumed h =>
      rw [hstop rfl]
      exact .nil []
  | @token consumed skipped text tokens htrivia hstarts hrest ih =>
      have htokens : tokens ≠ [] := by
        obtain ⟨front, rfl, -⟩ := hrest.endOfFile
        exact List.append_ne_nil_of_right_ne_nil _ (List.cons_ne_nil _ _)
      rw [lexemes, List.dropLast_cons_of_ne_nil htokens, List.map_cons, List.map_cons, ← lexemes]
      cases hfront : tokens.dropLast with
      | nil =>
          have hscans := Scans.cons_relex (hgap.trivia _) hstarts startsBlank_nil (fun _ => rfl)
            (.nil [])
          rw [List.append_nil] at hscans
          rw [lexemes, hfront]
          exact hscans
      | cons token front =>
          have hmore : tokens.dropLast ≠ [] := by
            rw [hfront]
            exact List.cons_ne_nil _ _
          have htail := ih (i + 1) (separators i).complete fun h => absurd h hmore
          have hscans := Scans.cons_relex (hgap.trivia _) hstarts
            ((separators i).startsBlank_append _) (fun h => absurd h (hrest.ne_nil hmore)) htail
          rw [hfront, lexemes, hfront] at hscans
          rw [lexemes, hfront, List.map_cons, layOut, List.append_assoc]
          exact hscans

/-- The end of the file comes last, with no text. -/
theorem tokenize_kinds {text : Bytes} {tokens : List Token} (h : tokenize text = .ok tokens) :
    tokens.map Token.kind = tokens.dropLast.map Token.kind ++ [(.endOfFile, [])] := by
  obtain ⟨front, rfl, -⟩ := (tokenize_tilesFrom h).endOfFile
  rw [List.dropLast_concat, List.map_append]
  rfl

/-- **LAYOUT DOES NOT MATTER.**  Whatever blanks and complete comments stand
    between the lexemes of an accepted text, the tokens have the same types and
    lexemes. -/
theorem layout_irrelevant (input : Bytes) (tokens : List Token) (h : tokenize input = .ok tokens)
    (separators : Nat → Separator) :
    ∃ tokens', tokenize (layOut separators 0 (lexemes tokens)) = .ok tokens'
      ∧ tokens'.map Token.kind = tokens.map Token.kind := by
  have hscans := (tokenize_tilesFrom h).scans_layOut separators 0 .nil fun _ => rfl
  have hkinds := tokenKinds_scans hscans
  rw [List.nil_append] at hkinds
  cases htokenize : tokenize (layOut separators 0 (lexemes tokens)) with
  | error thrown =>
      rw [tokenKinds, htokenize] at hkinds
      cases hkinds
  | ok tokens' =>
      refine ⟨tokens', rfl, ?_⟩
      rw [tokenKinds, htokenize] at hkinds
      have hsame : (tokens'.map Token.kind).dropLast = tokens.dropLast.map Token.kind ++ [] :=
        Except.ok.inj hkinds
      rw [tokenize_kinds htokenize, tokenize_kinds h, ← List.append_nil (tokens.dropLast.map _),
        ← hsame, List.map_dropLast]

/-- The layout of an input with an operator that is none and a string without
    an end. -/
theorem layout_irrelevant_invalid :
    ∃ tokens, tokenize (ascii "a -- ;\n< -- ;\n! -- ;\n= -- ;\n'x") = .ok tokens
      ∧ tokens.map Token.kind
        = [(.identifier, ascii "a"), (.less, ascii "<"), (.invalid, ascii "!"),
          (.equal, ascii "="), (.invalid, ascii "'x"), (.endOfFile, [])] := by
  have hinput : tokenize (ascii "a<!/**/= 'x")
      = .ok ((tokenize (ascii "a<!/**/= 'x")).toOption.getD []) := rfl
  exact layout_irrelevant (ascii "a<!/**/= 'x") _ hinput fun _ => commentSeparator

end MattSql
