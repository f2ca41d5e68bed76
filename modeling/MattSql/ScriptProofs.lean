import MattSql.CommandLineProofs
import MattSql.LayoutProofs
import MattSql.StatementPrintProofs

/-! # Scripts

    `run_sql_text` on scripts whose tokens are those of printed statements, each
    with its semicolon, in any layout.

    The splitter cuts such a script where its statements end, since pieces with
    one semicolon each are known from their concatenation; what `trim` removes
    are no tokens; and so each text that is executed parses to its statement
    (`script_runs_statements`). -/

namespace MattSql

open Extraction

/-! ## Statements without texts -/

/-- `DefaultSqlEngine::Execute` behind the parser. -/
def executeStatement (db : Database) (statement : Statement) : Result QueryResult × Database :=
  match bind db.catalog.getTable statement with
  | .error st => (.error st, db)
  | .ok bound => runBound {} bound db

/-- Statements are executed in order: whether all succeeded, and the session. -/
def executeStatements : Session → List Statement → Bool × Session
  | session, [] => (true, session)
  | session, statement :: statements =>
    let reply := executeStatement session.db statement
    let (ok, last) := executeStatements (session.report reply) statements
    ((okValue reply.1).isSome && ok, last)

theorem execute_eq_executeStatement {sql : Bytes} {statement : Statement}
    (h : parseSql sql = .ok statement) (db : Database) :
    execute db sql = executeStatement db statement := by
  rw [execute, executeIn, h]
  rfl

theorem executeTexts_eq {texts : List Bytes} {statements : List Statement}
    (h : List.Forall₂ (fun text statement => parseSql text = .ok statement) texts statements)
    (session : Session) : executeTexts session texts = executeStatements session statements := by
  induction h generalizing session with
  | nil => rfl
  | cons hparse _ ih =>
      rw [executeTexts, executeStatements, execute_eq_executeStatement hparse]
      dsimp only
      rw [ih]

/-! ## No semicolon in a statement -/

theorem mem_separated {items : List (List TokenKind)} {kind : TokenKind}
    (h : kind ∈ separated items) : kind = commaKind ∨ ∃ item ∈ items, kind ∈ item := by
  cases items with
  | nil => cases h
  | cons item items =>
      rw [separated_cons] at h
      rcases List.mem_append.mp h with h | h
      · exact .inr ⟨item, List.mem_cons_self, h⟩
      · obtain ⟨other, hother, h⟩ := List.mem_flatMap.mp h
        rcases List.mem_cons.mp h with rfl | h
        · exact .inl rfl
        · exact .inr ⟨other, List.mem_cons_of_mem _ hother, h⟩

theorem PrintedKind.ne_semicolon {kind : TokenKind} (h : PrintedKind kind) :
    kind.1 ≠ .semicolon := by
  cases h with
  | integer h => exact TokenType.noConfusion
  | string s => exact TokenType.noConfusion
  | constant h =>
      rcases List.mem_cons.mp h with rfl | h
      · decide
      · rcases List.mem_cons.mp h with rfl | h
        · decide
        · rw [List.mem_singleton.mp h]
          decide
  | name h => exact TokenType.noConfusion
  | unary op => cases op <;> decide
  | binary op => cases op <;> decide
  | punctuation h =>
      rcases List.mem_cons.mp h with rfl | h
      · decide
      · rcases List.mem_cons.mp h with rfl | h
        · decide
        · rw [List.mem_singleton.mp h]
          decide

theorem Expression.printParens_ne_semicolon {e : Expression} (h : e.InImage) :
    ∀ kind ∈ e.printParens, kind.1 ≠ .semicolon := by
  have hprint : ∀ e : Expression, e.Printable → ∀ kind ∈ e.print, kind.1 ≠ .semicolon :=
    fun e he kind hkind => (e.print_printed he kind hkind).ne_semicolon
  have hparens : ∀ kinds : List TokenKind, (∀ kind ∈ kinds, kind.1 ≠ .semicolon) →
      ∀ kind ∈ leftParenKind :: kinds ++ [rightParenKind], kind.1 ≠ .semicolon := by
    intro kinds hkinds
    exact List.forall_mem_append.mpr ⟨List.forall_mem_cons.mpr ⟨by decide, hkinds⟩,
      List.forall_mem_singleton.mpr (by decide)⟩
  induction e with
  | integerLiteral value =>
      by_cases hmin : value = Int64.minValue
      · rw [printParens, if_pos hmin]
        exact List.forall_mem_cons.mpr ⟨by decide, List.forall_mem_singleton.mpr (by decide)⟩
      · rw [printParens, if_neg hmin]
        exact hprint (.integerLiteral value) (h.resolve_right hmin)
  | stringLiteral value => exact hprint (.stringLiteral value) trivial
  | booleanLiteral value => exact hprint (.booleanLiteral value) trivial
  | nullLiteral => exact hprint .nullLiteral trivial
  | columnRef name => exact hprint (.columnRef name) h
  | star => exact List.forall_mem_singleton.mpr (by decide)
  | unary op operand ih =>
      exact hparens _ (List.forall_mem_cons.mpr ⟨(PrintedKind.unary op).ne_semicolon, ih h⟩)
  | binary left op right ihLeft ihRight =>
      exact hparens _ (List.forall_mem_append.mpr ⟨ihLeft h.1,
        List.forall_mem_cons.mpr ⟨(PrintedKind.binary op).ne_semicolon, ihRight h.2⟩⟩)

theorem separated_ne_semicolon {α : Type} {items : List α} {print : α → List TokenKind}
    (h : ∀ item ∈ items, ∀ kind ∈ print item, kind.1 ≠ .semicolon) :
    ∀ kind ∈ separated (items.map print), kind.1 ≠ .semicolon := by
  intro kind hkind
  rcases mem_separated hkind with rfl | ⟨item, hitem, hkind⟩
  · decide
  · obtain ⟨a, ha, rfl⟩ := List.mem_map.mp hitem
    exact h a ha kind hkind

theorem optionalName_ne_semicolon {keyword : TokenKind} (hkeyword : keyword.1 ≠ .semicolon)
    (name : Bytes) : ∀ kind ∈ optionalName keyword name, kind.1 ≠ .semicolon := by
  rw [optionalName]
  split
  · exact List.forall_mem_nil _
  · exact List.forall_mem_cons.mpr ⟨hkeyword, List.forall_mem_singleton.mpr TokenType.noConfusion⟩

theorem Statement.print_ne_semicolon {statement : Statement} (h : statement.InImage) :
    ∀ kind ∈ statement.print, kind.1 ≠ .semicolon := by
  cases statement with
  | select projections tableName predicate =>
      obtain ⟨-, hprojections, -, hpredicate⟩ := h
      refine List.forall_mem_append.mpr ⟨List.forall_mem_cons.mpr ⟨by decide,
        separated_ne_semicolon fun projection hprojection => ?_⟩,
        List.forall_mem_append.mpr ⟨optionalName_ne_semicolon (by decide) _, ?_⟩⟩
      · exact List.forall_mem_append.mpr
          ⟨Expression.printParens_ne_semicolon (hprojections projection hprojection).1,
            optionalName_ne_semicolon (by decide) _⟩
      · cases predicate with
        | none => exact nofun
        | some predicate =>
            rw [optionalPredicate]
            exact List.forall_mem_cons.mpr
              ⟨by decide, Expression.printParens_ne_semicolon (hpredicate predicate rfl)⟩
  | insert tableName values =>
      obtain ⟨-, -, hvalues⟩ := h
      refine List.forall_mem_append.mpr ⟨List.forall_mem_append.mpr ⟨?_,
        separated_ne_semicolon fun value hvalue =>
          Expression.printParens_ne_semicolon (hvalues value hvalue)⟩,
        List.forall_mem_singleton.mpr (by decide)⟩
      simp only [List.forall_mem_cons]
      exact ⟨by decide, by decide, TokenType.noConfusion, by decide, by decide, nofun⟩
  | createTable tableName columns =>
      refine List.forall_mem_append.mpr ⟨List.forall_mem_append.mpr ⟨?_,
        separated_ne_semicolon fun column _ => ?_⟩, List.forall_mem_singleton.mpr (by decide)⟩
      · simp only [List.forall_mem_cons]
        exact ⟨by decide, by decide, TokenType.noConfusion, by decide, nofun⟩
      · refine List.forall_mem_cons.mpr ⟨TokenType.noConfusion, List.forall_mem_singleton.mpr ?_⟩
        cases column.type <;> decide

/-- The tokens of a printed statement and its semicolon are one piece. -/
theorem Statement.print_delimited {statement : Statement} (h : statement.InImage) :
    Delimited (fun kind : TokenKind => kind.1 == .semicolon)
      (statement.print ++ [semicolonKind]) :=
  ⟨statement.print, semicolonKind, rfl, rfl,
    fun kind hkind => beq_eq_false_iff_ne.mpr (print_ne_semicolon h kind hkind)⟩

/-! ## What `trim` leaves -/

/-- A text with these tokens, up to trivia at its end. -/
theorem tokenKinds_ok {text : Bytes} {kinds : List TokenKind} (h : tokenKinds text = .ok kinds) :
    ∃ rest, Scans text kinds rest ∧ Trivia rest [] := by
  have hscans : ∀ {consumed text : Bytes} {tokens : List Token}, TilesFrom consumed text tokens →
      ∃ rest, Scans text (tokens.map Token.kind).dropLast rest ∧ Trivia rest [] := by
    intro consumed text tokens htiles
    induction htiles with
    | @stop consumed gap h => exact ⟨gap, .nil gap, h⟩
    | @token consumed gap text tokens h hstarts hrest ih =>
        obtain ⟨rest, hscans, hrest'⟩ := ih
        have hne : tokens.map Token.kind ≠ [] := by
          obtain ⟨front, rfl, -⟩ := hrest.endOfFile
          simp
        refine ⟨rest, ?_, hrest'⟩
        rw [List.map_cons, List.dropLast_cons_of_ne_nil hne]
        exact .cons h hstarts hscans
  cases htokens : tokenize text with
  | error thrown =>
      rw [tokenKinds, htokens] at h
      cases h
  | ok tokens =>
      rw [tokenKinds, htokens] at h
      cases h
      exact hscans (tokenize_tilesFrom htokens)

theorem tokenKinds_trivia {text : Bytes} (h : Trivia text []) : tokenKinds text = .ok [] := by
  rw [tokenKinds, (TilesFrom.stop [] h).tokenize_eq]
  rfl

theorem tokenKinds_of_scans {text rest : Bytes} {kinds : List TokenKind} (h : Scans text kinds rest)
    (hrest : Trivia rest []) : tokenKinds text = .ok kinds := by
  rw [tokenKinds_scans h, tokenKinds_trivia hrest]
  exact congrArg Except.ok (List.append_nil kinds)

theorem isSpace_of_isBlank {c : UInt8} (h : isBlank c = true) : isSpace c = true := by
  rw [isBlank, decide_eq_true_eq] at h
  rcases h with rfl | rfl | rfl | rfl <;> rfl

/-- Blanks in front of the first token are not scanned. -/
theorem Scans.dropWhile_blank {text rest : Bytes} {kinds : List TokenKind} (h : Scans text kinds rest)
    (hne : kinds ≠ []) : Scans (text.dropWhile isBlank) kinds rest := by
  cases h with
  | nil => exact absurd rfl hne
  | @cons gap text rest kinds htrivia hstarts h =>
      obtain ⟨c, text, rfl⟩ := List.exists_cons_of_ne_nil hstarts.1
      have hblank : ¬isBlank c = true := by
        intro hblank
        have hspace : isSpace c = false := hstarts.2.1
        rw [isSpace_of_isBlank hblank] at hspace
        cases hspace
      have hfront : (gap ++ c :: text).dropWhile isBlank = gap.dropWhile isBlank ++ c :: text := by
        rw [List.dropWhile_append]
        split
        · rename_i hempty
          rw [List.isEmpty_iff.mp hempty, List.dropWhile_cons_of_neg hblank]
          rfl
        · rfl
      rw [hfront]
      exact .cons htrivia.dropWhile_blank hstarts h

/-- No blank at the end. -/
def Solid (text : Bytes) : Prop := ∀ c, text.getLast? = some c → isBlank c = false

theorem solid_of_isAlphaNumeric {text : Bytes} (h : ∀ c ∈ text, isAlphaNumeric c = true) :
    Solid text := by
  intro c hc
  refine Bool.eq_false_iff.mpr fun hblank => ?_
  have hnone := isAlphaNumeric_of_isSpace (isSpace_of_isBlank hblank)
  rw [h c (List.mem_of_getLast? hc)] at hnone
  cases hnone

theorem Lexes.solid {kind : TokenKind} (h : Lexes kind) : Solid kind.2 := by
  cases h with
  | word hne hhead hall => exact solid_of_isAlphaNumeric hall
  | number hne hall =>
      exact solid_of_isAlphaNumeric fun c hc => by rw [isAlphaNumeric, hall c hc, Bool.or_true]
  | string s =>
      intro c hc
      have hlast : (quoteSqlString s).getLast? = some 39 := List.getLast?_concat
      obtain rfl : 39 = c := Option.some.inj (hlast.symm.trans hc)
      rfl
  | symbol h =>
      have hall : ∀ kind ∈ symbolKinds, kind.2.getLast?.all (fun c => !isBlank c) = true := by decide
      intro c hc
      have hkind := hall kind h
      rw [hc] at hkind
      exact (Bool.not_eq_true' _).mp hkind

theorem Trivia.of_append_blanks {text blanks : Bytes} (h : Trivia (text ++ blanks) [])
    (hblanks : ∀ c ∈ blanks, isBlank c = true) : Trivia text [] := by
  induction blanks using List.reverseRecOn with
  | nil => rwa [List.append_nil] at h
  | append_singleton blanks c ih =>
      rw [← List.append_assoc] at h
      obtain ⟨hfront, hc⟩ := List.forall_mem_append.mp hblanks
      exact ih (h.of_concat_blank rfl (hc c (List.mem_singleton.mpr rfl))) hfront

/-- Blanks behind the last token are not scanned.  The induction follows the
    tokens; each ends before the blanks do. -/
theorem Scans.of_append_blanks {whole text blanks rest : Bytes} {kinds : List TokenKind}
    (h : Scans whole kinds rest) (hwhole : whole = text ++ blanks) (hrest : Trivia rest [])
    (hsolid : ∀ kind ∈ kinds, Solid kind.2) (hblanks : ∀ c ∈ blanks, isBlank c = true) :
    ∃ rest', Scans text kinds rest' ∧ Trivia rest' [] := by
  induction h generalizing text with
  | nil whole =>
      subst hwhole
      exact ⟨text, .nil text, hrest.of_append_blanks hblanks⟩
  | @cons gap token rest kinds htrivia hstarts h ih =>
      obtain ⟨hlast, hsolid⟩ := List.forall_mem_cons.mp hsolid
      have hlength := take_tokenShape_length hstarts.1
      have hsplit : token = token.take (tokenShape token).1 ++ token.drop (tokenShape token).1 :=
        (List.take_append_drop _ _).symm
      have hne : token.take (tokenShape token).1 ≠ [] := by
        intro hnil
        have hpos := (tokenShape_length hstarts.1).1
        rw [hnil] at hlength
        exact absurd hlength.symm (Nat.ne_of_gt hpos)
      -- the blanks stand behind the token
      obtain ⟨more, htext, hmore⟩ : ∃ more, text = gap ++ (token.take (tokenShape token).1 ++ more)
          ∧ token.drop (tokenShape token).1 = more ++ blanks := by
        rw [hsplit, ← List.append_assoc] at hwhole
        rcases List.append_eq_append_iff.mp hwhole with
          ⟨more, htext, hmore⟩ | ⟨taken, htaken, hblank⟩
        · exact ⟨more, htext.trans (List.append_assoc _ _ _), hmore⟩
        · rcases List.eq_nil_or_concat' taken with rfl | ⟨front, c, rfl⟩
          · refine ⟨[], ?_, hblank.symm⟩
            rw [List.append_nil] at htaken
            rw [List.append_nil, htaken]
          · have hc : (token.take (tokenShape token).1).getLast? = some c := by
              have hend := congrArg List.getLast? htaken
              rwa [List.getLast?_append_of_ne_nil _ hne, ← List.append_assoc,
                List.getLast?_concat] at hend
            have hno := hblanks c (hblank ▸ List.mem_append_left _
              (List.mem_append_right _ (List.mem_singleton.mpr rfl)))
            rw [hlast c hc] at hno
            cases hno
      obtain ⟨rest', hscans, hrest'⟩ := ih hmore hrest hsolid
      refine ⟨rest', ?_, hrest'⟩
      rw [hsplit, hmore, ← List.append_assoc] at htrivia
      rw [htext]
      by_cases hnil : more = []
      · subst hnil
        exact .cons_relex htrivia.restrict hstarts startsBlank_nil (fun _ => rfl) hscans
      · -- the token ends inside what is left
        have hshape : tokenShape (token.take (tokenShape token).1 ++ more) = tokenShape token := by
          have hwhole : token = token.take (tokenShape token).1 ++ more ++ blanks := by
            rw [List.append_assoc, ← hmore, ← hsplit]
          have hpos := List.length_pos_of_ne_nil hnil
          have hlt : (tokenShape (token.take (tokenShape token).1 ++ more ++ blanks)).1
              < (token.take (tokenShape token).1 ++ more).length := by
            rw [← hwhole, List.length_append, hlength]
            omega
          rw [← tokenShape_restrict hlt, ← hwhole]
        have hstarts' : StartsToken (token.take (tokenShape token).1 ++ more) := by
          rw [hsplit, hmore, ← List.append_assoc] at hstarts
          exact hstarts.restrict (List.append_ne_nil_of_left_ne_nil hne _)
        have hcons := @Scans.cons gap _ rest' kinds htrivia.restrict hstarts'
          (by rwa [hshape, List.drop_left' hlength])
        rwa [hshape, List.take_left' hlength] at hcons

/-- **A TRIMMED TEXT** has the tokens it had. -/
theorem tokenKinds_trim {text : Bytes} {kinds : List TokenKind}
    (h : tokenKinds text = .ok kinds) (hne : kinds ≠ []) (hsolid : ∀ kind ∈ kinds, Solid kind.2) :
    tokenKinds (trim text) = .ok kinds := by
  obtain ⟨rest, hscans, hrest⟩ := tokenKinds_ok h
  obtain ⟨rest', hscans', hrest'⟩ := (hscans.dropWhile_blank hne).of_append_blanks
    (@List.rdropWhile_append_rtakeWhile _ isBlank _).symm hrest hsolid
    fun c hc => List.mem_rtakeWhile_imp hc
  exact tokenKinds_of_scans hscans' hrest'

/-! ## Statements from their tokens -/

/-- What parses as a statement does so in every text with its tokens. -/
theorem parseSql_tokenKinds {text : Bytes} {statement : Statement} (h : statement.InImage)
    {semicolon : Bool} (hkinds : tokenKinds text
      = .ok (statement.print ++ if semicolon then [semicolonKind] else [])) :
    parseSql text = .ok statement := by
  cases htokens : tokenize text with
  | error thrown =>
      rw [tokenKinds, htokens] at hkinds
      cases hkinds
  | ok tokens =>
      rw [tokenKinds, htokens] at hkinds
      have hfront : (tokens.map Token.kind).dropLast
          = statement.print ++ if semicolon then [semicolonKind] else [] := Except.ok.inj hkinds
      have hall := tokenize_kinds htokens
      rw [List.map_dropLast, hfront] at hall
      rw [parseSql, htokens, Fallible.ok_bind, parseTokens_print h hall]

theorem Statement.print_ne_nil (statement : Statement) : statement.print ≠ [] := by
  cases statement <;> exact List.cons_ne_nil _ _

/-- The text of a statement is executed, and parses. -/
theorem trimmedTexts_statement {text : Bytes} {statement : Statement} (h : statement.InImage)
    {semicolon : Bool} (hkinds : tokenKinds text
      = .ok (statement.print ++ if semicolon then [semicolonKind] else [])) :
    trimmedTexts [text] = [trim text] ∧ parseSql (trim text) = .ok statement := by
  have hne : statement.print ++ (if semicolon then [semicolonKind] else []) ≠ [] :=
    List.append_ne_nil_of_left_ne_nil statement.print_ne_nil _
  have hsolid : ∀ kind ∈ statement.print ++ (if semicolon then [semicolonKind] else []),
      Solid kind.2 := by
    refine List.forall_mem_append.mpr ⟨fun kind hkind => (statement.print_lexes h kind hkind).solid,
      ?_⟩
    cases semicolon with
    | false => exact nofun
    | true => exact List.forall_mem_singleton.mpr (Lexes.symbol (by decide)).solid
  have htrim := tokenKinds_trim hkinds hne hsolid
  refine ⟨trimmedTexts_singleton fun hnil => ?_, parseSql_tokenKinds h htrim⟩
  rw [hnil] at htrim
  exact hne (Except.ok.inj htrim).symm

theorem Produces.semicolonNext {lexer last : Lexer} {tokens : List Token}
    (h : Produces lexer tokens last) (hmem : ∃ token ∈ tokens, token.type = .semicolon) :
    ∃ front middle semicolon, Produces lexer front middle
      ∧ (∀ token ∈ front, token.type ≠ .semicolon) ∧ SemicolonNext middle semicolon := by
  induction h with
  | nil lexer =>
      obtain ⟨token, htoken, -⟩ := hmem
      cases htoken
  | @cons lexer next last token tokens hnext htype h ih =>
      by_cases hsemicolon : token.type = .semicolon
      · exact ⟨[], lexer, token, .nil lexer, nofun, hsemicolon, next, hnext⟩
      · obtain ⟨other, hother, hothers⟩ := hmem
        have hlater : other ∈ tokens := by
          rcases List.mem_cons.mp hother with rfl | hlater
          · exact absurd hothers hsemicolon
          · exact hlater
        obtain ⟨front, middle, semicolon, hproduces, hfront, hmiddle⟩ := ih ⟨other, hlater, hothers⟩
        exact ⟨token :: front, middle, semicolon, .cons hnext htype hproduces,
          List.forall_mem_cons.mpr ⟨hsemicolon, hfront⟩, hmiddle⟩

/-- Where no statement ends there is no semicolon. -/
theorem extractStatement_none_kinds {buffer : Bytes} {kinds : List TokenKind}
    (h : extractStatement buffer = none) (hkinds : tokenKinds buffer = .ok kinds) :
    ∀ kind ∈ kinds, kind.1 ≠ .semicolon := by
  obtain ⟨rest, hscans, -⟩ := tokenKinds_ok hkinds
  have hstart : ({ rest := buffer } : Lexer).rest = buffer := rfl
  obtain ⟨tokens, last, hproduces, rfl, -⟩ := hscans.produces hstart
  rintro _ hkind htype
  obtain ⟨token, htoken, rfl⟩ := List.mem_map.mp hkind
  obtain ⟨front, middle, semicolon, hfront, hnone, hnext⟩ :=
    hproduces.semicolonNext ⟨token, htoken, htype⟩
  rw [extractStatement, findStatementTerminator_semicolonNext ⟨front, hfront, hnone⟩ hnext] at h
  cases h

/-! ## The script -/

/-- The tokens of printed statements with their semicolons, and of one without. -/
def scriptKinds (statements : List Statement) (last : Option Statement) : List TokenKind :=
  (statements.map fun statement => statement.print ++ [semicolonKind]).flatten
    ++ last.elim [] Statement.print

/-- What the splitter makes of a script. -/
theorem extractAll_scriptKinds {script : Bytes} {statements : List Statement}
    {last : Option Statement} (himage : ∀ statement ∈ statements, statement.InImage)
    (hlast : ∀ statement, last = some statement → statement.InImage)
    (hkinds : tokenKinds script = .ok (scriptKinds statements last)) :
    List.Forall₂ (fun text (statement : Statement) =>
        tokenKinds text = .ok (statement.print ++ [semicolonKind]))
      (extractAll script).1 statements
      ∧ tokenKinds (extractAll script).2 = .ok (last.elim [] Statement.print) := by
  obtain ⟨-, hdone, parts, hparts, hall, hscript⟩ :=
    @extractStatements_splitsInto script.length script (Nat.le_refl _)
  rw [hkinds] at hscript
  cases hrest : tokenKinds (extractStatements script.length script).2 with
  | error thrown =>
      rw [hrest] at hscript
      cases hscript
  | ok kinds =>
      rw [hrest] at hscript
      have hnone := extractStatement_none_kinds hdone hrest
      have hlastNone : ∀ kind ∈ last.elim [] Statement.print, kind.1 ≠ .semicolon := by
        cases last with
        | none => exact nofun
        | some statement => exact Statement.print_ne_semicolon (hlast statement rfl)
      -- both cut the tokens behind the semicolons
      obtain ⟨hpieces, hkinds⟩ := @Delimited.flatten_append_inj _
        (fun kind : TokenKind => kind.1 == .semicolon) _ _ _ _
        (List.forall_mem_map.mpr fun statement h => Statement.print_delimited (himage statement h))
        (fun part hpart => by
          obtain ⟨front, rfl, hfront⟩ := hall part hpart
          exact ⟨front, _, rfl, rfl, fun kind h => beq_eq_false_iff_ne.mpr (hfront kind h)⟩)
        (fun kind h => beq_eq_false_iff_ne.mpr (hlastNone kind h))
        (fun kind h => beq_eq_false_iff_ne.mpr (hnone kind h)) (Except.ok.inj hscript)
      subst hpieces
      refine ⟨?_, hrest.trans (congrArg Except.ok hkinds.symm)⟩
      rw [List.map_map] at hparts
      rw [← List.forall₂_eq_eq_eq, List.forall₂_map_left_iff, List.forall₂_map_right_iff] at hparts
      exact hparts

theorem trimmedTexts_statements {texts : List Bytes} {statements : List Statement}
    (h : List.Forall₂ (fun text (statement : Statement) =>
      tokenKinds text = .ok (statement.print ++ [semicolonKind])) texts statements)
    (himage : ∀ statement ∈ statements, statement.InImage) :
    List.Forall₂ (fun text statement => parseSql text = .ok statement) (trimmedTexts texts)
      statements := by
  induction h with
  | nil => exact .nil
  | @cons text statement texts statements hkinds _ ih =>
      obtain ⟨hstatement, himage⟩ := List.forall_mem_cons.mp himage
      obtain ⟨htext, hparse⟩ := @trimmedTexts_statement text statement hstatement true hkinds
      rw [trimmedTexts_cons, htext]
      exact .cons hparse (ih himage)

/-- **A SCRIPT RUNS ITS STATEMENTS.**  However a script lays out the tokens of
    printed statements, the last one with a semicolon or without, running it is
    binding and running the statements in order: one more text fails when a
    comment or another space stands behind the last semicolon.  The shell leaves
    the same database when the script is typed in, unless a line of it is an exit
    command. -/
theorem script_runs_statements (session : Session) (script : Bytes) (statements : List Statement)
    (last : Option Statement) (himage : ∀ statement ∈ statements ++ last.toList, statement.InImage)
    (hkinds : tokenKinds script = .ok (scriptKinds statements last)) :
    (runSqlText session script
        = if last.isSome ∨ (extractAll script).2.all isBlank = true then
            executeStatements session (statements ++ last.toList)
          else
            (false, { (executeStatements session statements).2 with
              err := (executeStatements session statements).2.err ++ triviaError }))
      ∧ ∀ lines, shellText lines = script → (∀ line ∈ lines, isExitCommand line = false) →
        (runRepl lines).db = (executeStatements {} (statements ++ last.toList)).2.db := by
  obtain ⟨hstatements, hlast⟩ := List.forall_mem_append.mp himage
  obtain ⟨htexts, hrest⟩ := extractAll_scriptKinds hstatements
    (fun statement h => hlast statement (Option.mem_toList.mpr h)) hkinds
  have hparse := trimmedTexts_statements htexts hstatements
  have hrun : ∀ session : Session, runSqlText session script
      = if last.isSome ∨ (extractAll script).2.all isBlank = true then
          executeStatements session (statements ++ last.toList)
        else
          (false, { (executeStatements session statements).2 with
            err := (executeStatements session statements).2.err ++ triviaError }) := by
    intro session
    cases last with
    | none =>
        obtain ⟨rest, hscans, htrivia⟩ := tokenKinds_ok hrest
        rw [← hscans.eq_of_nil] at htrivia
        rw [runSqlText_trivia htrivia, executeTexts_eq hparse]
        simp
    | some statement =>
        obtain ⟨htext, hlast⟩ := @trimmedTexts_statement (extractAll script).2 statement
          (hlast statement (List.mem_singleton.mpr rfl)) false
          (hrest.trans (congrArg Except.ok (List.append_nil _).symm))
        rw [if_pos (.inl rfl), runSqlText_eq, executedTexts, trimmedTexts_append, htext]
        exact executeTexts_eq (List.rel_append hparse (.cons hlast .nil)) session
  refine ⟨hrun session, fun lines hlines hexit => ?_⟩
  rw [runRepl_db hexit, hlines, hrun {}]
  split
  · rfl
  · rename_i hnone
    cases last with
    | none => rw [Option.toList_none, List.append_nil]
    | some statement => exact absurd (.inl rfl) hnone

/-- Comments with semicolons, and a last statement without one. -/
theorem script_runs_statements_comments :
    runSqlText {} (ascii "SELECT TRUE;/* ; */\nSELECT 'a;' ; -- ;\n SELECT NULL -- end")
      = executeStatements {} [.select [⟨.booleanLiteral true, []⟩] [] none,
        .select [⟨.stringLiteral (ascii "a;"), []⟩] [] none,
        .select [⟨.nullLiteral, []⟩] [] none] := by
  have hrun := (script_runs_statements {}
    (ascii "SELECT TRUE;/* ; */\nSELECT 'a;' ; -- ;\n SELECT NULL -- end")
    [.select [⟨.booleanLiteral true, []⟩] [] none,
      .select [⟨.stringLiteral (ascii "a;"), []⟩] [] none]
    (some (.select [⟨.nullLiteral, []⟩] [] none)) ?_ ?_).1
  · rwa [if_pos (.inl rfl)] at hrun
  · refine List.forall_mem_cons.mpr ⟨?_, List.forall_mem_cons.mpr
      ⟨?_, List.forall_mem_singleton.mpr ?_⟩⟩ <;>
        exact ⟨List.cons_ne_nil _ _, List.forall_mem_singleton.mpr ⟨trivial, .inl rfl⟩, .inl rfl,
          nofun⟩
  · decide

end MattSql
