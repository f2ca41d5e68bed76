import Mathlib.Data.List.DropRight
import MattSql.EngineProofs
import MattSql.Library.ExtractionProofs
import MattSql.SplitterProofs

/-! # The command line

    `main.cpp`: scripts and the interactive shell.  A script is cut into
    statements, each is trimmed and executed, and what is left behind the last
    semicolon is executed too unless it is blank.

    `extraction_chunks` says that the statements do not depend on how the text
    arrives.  A script's run is the engine's run over the texts it hands over
    (`runSqlText_eq`), and the shell's is the script's over the lines it reads
    (`runRepl_db`); `trailing_trivia_iff` reads off the former what trivia behind
    the last statement does. -/

namespace MattSql

open Extraction

/-! ## Output -/

/-- `kErrorCodeNames`. -/
def errorCodeName : ErrorCode → Bytes
  | .invalidArgument => ascii "InvalidArgument"
  | .notFound => ascii "NotFound"
  | .alreadyExists => ascii "AlreadyExists"
  | .typeMismatch => ascii "TypeMismatch"
  | .parseError => ascii "ParseError"
  | .bindError => ascii "BindError"
  | .planError => ascii "PlanError"
  | .executionError => ascii "ExecutionError"
  | .ioError => ascii "IoError"
  | .corruption => ascii "Corruption"
  | .transactionConflict => ascii "TransactionConflict"
  | .notSupported => ascii "NotSupported"
  | .internal => ascii "Internal"
  | .undefined => ascii "Unknown"

/-- `FormatValue`. -/
def formatValue : Value → Bytes
  | .null => ascii "NULL"
  | .integer value => ascii (toString value.toInt)
  | .boolean value => if value then ascii "true" else ascii "false"
  | .text value => value

/-- A line of fields with tabs between them. -/
def printLine (fields : List Bytes) : Bytes := [9].intercalate fields ++ [10]

/-- `print_result`. -/
def printResult (result : QueryResult) : Bytes :=
  if result.columns = [] then ascii "OK\n"
  else printLine result.columns ++ result.rows.flatMap fun row => printLine (row.map formatValue)

/-- `Session`, with what was written to the two streams. -/
structure Session where
  db : Database := {}
  out : Bytes := []
  err : Bytes := []

/-- The reply to a statement is printed. -/
def Session.report (session : Session) (reply : Result QueryResult × Database) : Session :=
  match reply with
  | (.ok result, db) => { session with db, out := session.out ++ printResult result }
  | (.error st, db) =>
    { session with
      db
      err := session.err ++ ascii "error[" ++ errorCodeName st.code ++ ascii "]: " ++ st.message
        ++ [10] }

/-! ## Scripts -/

/-- The characters that `trim` removes. -/
def isBlank (c : UInt8) : Bool := c = 32 ∨ c = 9 ∨ c = 13 ∨ c = 10

/-- `trim`. -/
def trim (value : Bytes) : Bytes := (value.dropWhile isBlank).rdropWhile isBlank

/-- `run_statement`. -/
def runStatement (session : Session) (sql : Bytes) : Bool × Session :=
  let trimmed := trim sql
  if trimmed = [] then (true, session)
  else
    let reply := execute session.db trimmed
    ((okValue reply.1).isSome, session.report reply)

/-- The loop of `run_sql_text`, for at most so many rounds: success, the session
    and the text that remains. -/
def runStatements : Nat → Bool → Session → Bytes → Bool × Session × Bytes
  | 0, success, session, sql => (success, session, sql)
  | rounds + 1, success, session, sql =>
    match extractStatement sql with
    | none => (success, session, sql)
    | some (statement, rest) =>
      let (ok, session) := runStatement session statement
      runStatements rounds (ok && success) session rest

/-- `run_sql_text`. -/
def runSqlText (session : Session) (sql : Bytes) : Bool × Session :=
  let (success, session, sql) := runStatements sql.length true session sql
  if trim sql ≠ [] then
    let (ok, session) := runStatement session sql
    (ok && success, session)
  else (success, session)

/-! ## The shell -/

/-- `is_exit_command`. -/
def isExitCommand (value : Bytes) : Bool :=
  [ascii ".exit", ascii ".quit", ascii "exit", ascii "quit"].contains (trim value)

def prompt (buffer : Bytes) : Bytes :=
  if trim buffer = [] then ascii "mattsql> " else ascii "      -> "

/-- The loop of `run_repl` over the lines that are read; the input ends with
    them. -/
def replLoop (session : Session) (buffer : Bytes) : List Bytes → Session × Bytes
  | [] => ({ session with out := session.out ++ prompt buffer ++ [10] }, buffer)
  | line :: lines =>
    let session := { session with out := session.out ++ prompt buffer }
    if trim buffer = [] ∧ isExitCommand line then (session, buffer)
    else
      let buffer := buffer ++ line ++ [10]
      let (_, session, buffer) := runStatements buffer.length true session buffer
      replLoop session buffer lines

/-- `run_repl`. -/
def runRepl (lines : List Bytes) : Session :=
  let banner := ascii "MattSQL interactive shell. End statements with ';'. Type .quit to exit.\n"
  let (session, buffer) := replLoop { out := banner } [] lines
  if trim buffer ≠ [] then (runStatement session buffer).2 else session

/-! ## Chunks of text -/

/-- A semicolon is found outside strings and comments, whatever follows it. -/
theorem scanStep_found_iff {flags : ScanFlags} {c next : UInt8} :
    scanStep flags c next = .found ↔ flags = {} ∧ c = 59 := by
  obtain ⟨inString, inLineComment, inBlockComment⟩ := flags
  constructor
  · intro h
    rw [scanStep] at h
    split_ifs at h
    simp_all
  · rintro ⟨h, rfl⟩
    cases h
    rfl

/-- What is appended does not change where a statement ends.  The induction is
    on the scanner's own recursion; only the last character is looked at with a
    zero byte behind it, and there a semicolon is the only thing to find. -/
theorem terminatorLoop_append {flags : ScanFlags} {index stop : Nat} {text : Bytes}
    (h : terminatorLoop flags index text = some stop) :
    stop ≤ index + text.length
      ∧ ∀ tail, terminatorLoop flags index (text ++ tail) = some stop := by
  induction flags, index, text using terminatorLoop.induct with
  | case1 flags index => cases h
  | case2 flags index c hfound =>
      have hstop : index + 1 = stop := by
        rw [@terminatorLoop_found flags c [] hfound index] at h
        exact Option.some.inj h
      subst hstop
      exact ⟨Nat.le_refl _, fun tail =>
        terminatorLoop_found (scanStep_found_iff.mpr (scanStep_found_iff.mp hfound)) index⟩
  | case3 flags index c flags' skip hnext =>
      rw [terminatorLoop, hnext] at h
      cases h
  | case4 flags index c next rest hfound =>
      have hstop : index + 1 = stop := by
        rw [@terminatorLoop_found flags c (next :: rest) hfound index] at h
        exact Option.some.inj h
      subst hstop
      refine ⟨?_, fun tail =>
        @terminatorLoop_found flags c (next :: (rest ++ tail)) hfound index⟩
      rw [List.length_cons]
      omega
  | case5 flags index c next rest flags' hnext ih =>
      rw [terminatorLoop_next (next :: rest) hnext] at h
      obtain ⟨hle, happend⟩ := ih h
      refine ⟨?_, fun tail => ?_⟩
      · rw [List.length_cons]
        omega
      · rw [List.cons_append, List.cons_append, terminatorLoop_next (next :: (rest ++ tail)) hnext]
        exact happend tail
  | case6 flags index c next rest flags' hnext ih =>
      rw [terminatorLoop_skip hnext] at h
      obtain ⟨hle, happend⟩ := ih h
      refine ⟨?_, fun tail => ?_⟩
      · rw [List.length_cons, List.length_cons]
        omega
      · rw [List.cons_append, List.cons_append, terminatorLoop_skip hnext]
        exact happend tail

theorem extractStatement_advances : Advances extractStatement := by
  intro buffer statement rest h
  obtain ⟨hconcat, hne, -⟩ := extractStatement_some h
  have hpos := List.length_pos_of_ne_nil hne
  rw [← hconcat, List.length_append]
  omega

/-- **A STATEMENT THAT IS FOUND** is the same with more text behind it. -/
theorem extractStatement_stable : Stable extractStatement := by
  intro buffer statement rest tail h
  unfold extractStatement at h ⊢
  cases hfind : findStatementTerminator buffer with
  | none =>
      rw [hfind] at h
      cases h
  | some stop =>
      obtain ⟨hle, happend⟩ := terminatorLoop_append hfind
      rw [Nat.zero_add] at hle
      rw [hfind] at h
      cases h
      rw [findStatementTerminator, happend tail]
      dsimp only
      rw [List.take_append_of_le_length hle, List.drop_append_of_le_length hle]

/-- The loop of the splitter cuts pieces off the buffer. -/
theorem extractStatements_eq_drain (rounds : Nat) (buffer : Bytes) :
    extractStatements rounds buffer = drain extractStatement rounds buffer := by
  induction rounds generalizing buffer with
  | zero => rfl
  | succ rounds ih =>
      rw [extractStatements, drain]
      cases extractStatement buffer with
      | none => rfl
      | some pair =>
          dsimp only
          rw [ih]

/-- `extract_statement` until it returns false: the statements and the buffer
    that remains. -/
def extractAll (buffer : Bytes) : List Bytes × Bytes := extractStatements buffer.length buffer

/-- One chunk arrives: it is appended to the buffer, and statements are
    extracted until none is complete. -/
def appendChunk (collected : List Bytes × Bytes) (chunk : Bytes) : List Bytes × Bytes :=
  let (statements, rest) := extractAll (collected.2 ++ chunk)
  (collected.1 ++ statements, rest)

theorem extractAll_eq_drainAll : extractAll = drainAll extractStatement :=
  funext fun buffer => extractStatements_eq_drain buffer.length buffer

theorem appendChunk_eq_drainChunk : appendChunk = drainChunk extractStatement := by
  funext collected chunk
  rw [appendChunk, extractAll_eq_drainAll]
  rfl

/-- **EXTRACTION DOES NOT DEPEND ON THE CHUNKS.**  Extracting after each chunk
    gives the statements, and leaves the buffer, of extracting from the whole
    text, and no statement is left in that buffer. -/
theorem extraction_chunks (chunks : List Bytes) :
    chunks.foldl appendChunk ([], []) = extractAll chunks.flatten
      ∧ extractStatement (extractAll chunks.flatten).2 = none := by
  rw [appendChunk_eq_drainChunk, extractAll_eq_drainAll]
  exact ⟨drainChunks_flatten extractStatement_advances extractStatement_stable chunks,
    drainAll_done extractStatement_advances chunks.flatten⟩

/-- A doubled quote and a comment that are cut in two. -/
example : [ascii "a 'x'", ascii "'; y'; b /", ascii "* ; */ ;c"].foldl appendChunk ([], [])
    = ([ascii "a 'x''; y';", ascii " b /* ; */ ;"], ascii "c") := by decide

/-! ## A script as a run of the engine -/

/-- The trimmed texts that are not empty. -/
def trimmedTexts (texts : List Bytes) : List Bytes := (texts.map trim).filter (· ≠ [])

/-- The texts that a script hands over to the engine. -/
def executedTexts (sql : Bytes) : List Bytes :=
  trimmedTexts ((extractAll sql).1 ++ [(extractAll sql).2])

/-- Texts are executed in order: whether all succeeded, and the session. -/
def executeTexts : Session → List Bytes → Bool × Session
  | session, [] => (true, session)
  | session, text :: texts =>
    let reply := execute session.db text
    let (ok, last) := executeTexts (session.report reply) texts
    ((okValue reply.1).isSome && ok, last)

theorem Session.report_db (session : Session) (reply : Result QueryResult × Database) :
    (session.report reply).db = reply.2 := by
  obtain ⟨result, db⟩ := reply
  cases result <;> rfl

theorem executeTexts_db (session : Session) (texts : List Bytes) :
    (executeTexts session texts).2.db = Run.final execute session.db texts := by
  induction texts generalizing session with
  | nil => rfl
  | cons text texts ih =>
      rw [executeTexts]
      dsimp only
      rw [ih, Session.report_db]
      rfl

theorem executeTexts_append (session : Session) (texts more : List Bytes) :
    executeTexts session (texts ++ more)
      = ((executeTexts session texts).1
          && (executeTexts (executeTexts session texts).2 more).1,
        (executeTexts (executeTexts session texts).2 more).2) := by
  induction texts generalizing session with
  | nil => rfl
  | cons text texts ih =>
      rw [List.cons_append, executeTexts, executeTexts]
      dsimp only
      rw [ih, Bool.and_assoc]

theorem trimmedTexts_append (texts more : List Bytes) :
    trimmedTexts (texts ++ more) = trimmedTexts texts ++ trimmedTexts more := by
  rw [trimmedTexts, List.map_append, List.filter_append]
  rfl

theorem trimmedTexts_cons (text : Bytes) (texts : List Bytes) :
    trimmedTexts (text :: texts) = trimmedTexts [text] ++ trimmedTexts texts :=
  trimmedTexts_append [text] texts

theorem trimmedTexts_blank {text : Bytes} (h : trim text = []) : trimmedTexts [text] = [] := by
  rw [trimmedTexts, List.map_singleton, h]
  rfl

theorem trimmedTexts_singleton {text : Bytes} (h : trim text ≠ []) :
    trimmedTexts [text] = [trim text] :=
  List.filter_cons_of_pos (decide_eq_true h)

theorem executeTexts_singleton (session : Session) (text : Bytes) :
    executeTexts session [text]
      = ((okValue (execute session.db text).1).isSome,
        session.report (execute session.db text)) := by
  show ((okValue (execute session.db text).1).isSome && true, _) = _
  rw [Bool.and_true]

theorem runStatement_eq (session : Session) (sql : Bytes) :
    runStatement session sql = executeTexts session (trimmedTexts [sql]) := by
  rw [runStatement]
  by_cases hblank : trim sql = []
  · rw [trimmedTexts_blank hblank, hblank]
    rfl
  · rw [if_neg hblank, trimmedTexts_singleton hblank, executeTexts_singleton]

/-- The loop runs the statements that it extracts. -/
theorem runStatements_eq (rounds : Nat) (success : Bool) (session : Session) (sql : Bytes) :
    runStatements rounds success session sql
      = ((executeTexts session (trimmedTexts (extractStatements rounds sql).1)).1 && success,
        (executeTexts session (trimmedTexts (extractStatements rounds sql).1)).2,
        (extractStatements rounds sql).2) := by
  induction rounds generalizing success session sql with
  | zero => rfl
  | succ rounds ih =>
      rw [runStatements, extractStatements]
      cases extractStatement sql with
      | none => rfl
      | some pair =>
          dsimp only
          rw [ih, runStatement_eq, trimmedTexts_cons pair.1 (extractStatements rounds pair.2).1,
            executeTexts_append]
          dsimp only
          rw [← Bool.and_assoc, Bool.and_comm (executeTexts _ (trimmedTexts [pair.1])).1]

/-- **A SCRIPT'S RUN** is the engine's run over the texts it hands over. -/
theorem runSqlText_eq (session : Session) (sql : Bytes) :
    runSqlText session sql = executeTexts session (executedTexts sql) := by
  rw [runSqlText, runStatements_eq, executedTexts, trimmedTexts_append, executeTexts_append,
    Bool.and_true]
  show (if trim (extractAll sql).2 ≠ [] then _ else _) = _
  by_cases hblank : trim (extractAll sql).2 = []
  · rw [if_neg (not_not_intro hblank), trimmedTexts_blank hblank]
    show _ = ((executeTexts session _).1 && true, _)
    rw [Bool.and_true]
    rfl
  · rw [if_pos hblank]
    dsimp only
    rw [runStatement_eq, Bool.and_comm]
    rfl

theorem runSqlText_db (session : Session) (sql : Bytes) :
    (runSqlText session sql).2.db = Run.final execute session.db (executedTexts sql) := by
  rw [runSqlText_eq, executeTexts_db]

/-! ## The shell as a run of the engine -/

/-- What the shell reads: each line with its line break. -/
def shellText (lines : List Bytes) : Bytes := lines.flatMap (· ++ [10])

/-- The loop executes the statements of the text, and keeps what remains. -/
theorem replLoop_eq {lines : List Bytes} (hexit : ∀ line ∈ lines, isExitCommand line = false)
    (session : Session) {buffer : Bytes} (hbuffer : extractStatement buffer = none) :
    (replLoop session buffer lines).1.db
        = Run.final execute session.db
          (trimmedTexts (extractAll (buffer ++ shellText lines)).1)
      ∧ (replLoop session buffer lines).2 = (extractAll (buffer ++ shellText lines)).2 := by
  rw [extractAll_eq_drainAll]
  -- after each line no statement is left in the buffer
  induction lines generalizing session buffer with
  | nil =>
      rw [shellText, List.flatMap_nil, List.append_nil, drainAll_none hbuffer]
      exact ⟨rfl, rfl⟩
  | cons line lines ih =>
      have hgo : ¬(trim buffer = [] ∧ isExitCommand line = true) := by
        rintro ⟨-, hline⟩
        rw [hexit line List.mem_cons_self] at hline
        cases hline
      have htext : buffer ++ shellText (line :: lines)
          = buffer ++ line ++ [10] ++ shellText lines := by
        rw [shellText, List.flatMap_cons, List.append_assoc, List.append_assoc, List.append_assoc]
        rfl
      rw [replLoop]
      dsimp only
      rw [if_neg hgo, runStatements_eq, extractStatements_eq_drain, htext,
        drainAll_append extractStatement_advances extractStatement_stable, trimmedTexts_append,
        Run.final_append]
      have hrest := drainAll_done extractStatement_advances (buffer ++ line ++ [10])
      obtain ⟨hdb, hkept⟩ := ih (fun line hline => hexit line (List.mem_cons_of_mem _ hline))
        (executeTexts { session with out := session.out ++ prompt buffer }
          (trimmedTexts (drainAll extractStatement (buffer ++ line ++ [10])).1)).2 hrest
      rw [executeTexts_db] at hdb
      exact ⟨hdb, hkept⟩

/-- **THE SHELL AND A SCRIPT** of the same lines, none of them an exit command,
    leave the same database. -/
theorem runRepl_db {lines : List Bytes} (hexit : ∀ line ∈ lines, isExitCommand line = false) :
    (runRepl lines).db = (runSqlText {} (shellText lines)).2.db := by
  rw [runSqlText_db, executedTexts, trimmedTexts_append, Run.final_append, runRepl]
  dsimp only
  obtain ⟨hdb, hkept⟩ := replLoop_eq hexit
    { out := ascii "MattSQL interactive shell. End statements with ';'. Type .quit to exit.\n" }
    (show extractStatement [] = none from rfl)
  rw [List.nil_append] at hdb hkept
  rw [hkept, ← hdb]
  by_cases hblank : trim (extractAll (shellText lines)).2 = []
  · rw [if_neg (not_not_intro hblank), trimmedTexts_blank hblank]
    rfl
  · rw [if_pos hblank, runStatement_eq, executeTexts_db]

/-! ## Trivia behind the last statement -/

/-- Blanks in front of trivia are trivia. -/
theorem Trivia.spaces_append {blanks text rest : Bytes}
    (hblanks : ∀ c ∈ blanks, isSpace c = true) (h : Trivia text rest) :
    Trivia (blanks ++ text) rest := by
  induction blanks with
  | nil => exact h
  | cons c blanks ih =>
      exact .space (hblanks c List.mem_cons_self)
        (ih fun d hd => hblanks d (List.mem_cons_of_mem c hd))

/-- Trivia that starts with a blank is trivia behind it. -/
theorem Trivia.tail_of_blank {c : UInt8} {text rest : Bytes} (hc : isBlank c = true)
    (h : Trivia (c :: text) rest) : Trivia text rest := by
  generalize hwhole : c :: text = whole at h
  cases h with
  | nil rest => cases hwhole
  | space hspace h =>
      cases hwhole
      exact h
  | lineComment hbody hends h =>
      cases hwhole
      exact absurd hc (by decide)
  | blockComment hbody h =>
      cases hwhole
      exact absurd hc (by decide)

theorem Trivia.dropWhile_blank {text rest : Bytes} (h : Trivia text rest) :
    Trivia (text.dropWhile isBlank) rest := by
  induction text with
  | nil => exact h
  | cons c text ih =>
      by_cases hc : isBlank c = true
      · rw [List.dropWhile_cons_of_pos hc]
        exact ih (h.tail_of_blank hc)
      · rw [List.dropWhile_cons_of_neg hc]
        exact h

theorem concat_inj {start front : Bytes} {c d : UInt8} (h : start ++ [d] = front ++ [c]) :
    start = front ∧ d = c :=
  ⟨(List.append_inj' h rfl).1, List.singleton_inj.mp (List.append_inj' h rfl).2⟩

/-- Without a blank at its end trivia is trivia: where the blank ended a line
    comment, the end of the text does. -/
theorem Trivia.of_concat_blank {text front : Bytes} {c : UInt8} (h : Trivia text [])
    (htext : text = front ++ [c]) (hc : isBlank c = true) : Trivia front [] := by
  generalize hrest : ([] : Bytes) = rest at h
  induction h generalizing front with
  | nil rest =>
      exact absurd htext.symm (List.append_ne_nil_of_right_ne_nil _ (List.cons_ne_nil _ _))
  | @space d text rest hspace h ih =>
      subst hrest
      cases front with
      | nil => exact .nil []
      | cons e front =>
          rw [List.cons_append] at htext
          obtain ⟨hd, htail⟩ := List.cons.inj htext
          exact .space (hd ▸ hspace) (ih htail rfl)
  | @lineComment body text rest hbody hends h ih =>
      subst hrest
      rcases List.eq_nil_or_concat' text with rfl | ⟨text, d, rfl⟩
      · -- the blank is the last character of the comment's body
        rw [List.append_nil] at htext
        rcases List.eq_nil_or_concat' body with rfl | ⟨body, d, rfl⟩
        · obtain ⟨-, rfl⟩ := @concat_inj [45] front c 45 htext
          exact absurd hc (by decide)
        · obtain ⟨rfl, -⟩ := @concat_inj (45 :: 45 :: body) front c d htext
          have hcomment := @Trivia.lineComment body [] []
            (fun c hc => hbody c (List.mem_append_left _ hc)) (fun _ h => nomatch h) (.nil [])
          rwa [List.append_nil] at hcomment
      · rw [← List.append_assoc] at htext
        obtain ⟨rfl, rfl⟩ := concat_inj htext
        refine .lineComment hbody ?_ (ih rfl rfl)
        intro e he
        refine hends e ?_
        cases text with
        | nil => cases he
        | cons f text => exact he
  | @blockComment body text rest hbody h ih =>
      subst hrest
      rcases List.eq_nil_or_concat' text with rfl | ⟨text, d, rfl⟩
      · have hslash : (47 :: 42 :: body ++ [42]) ++ [47] = front ++ [c] := by
          rw [← htext, List.append_assoc]
          rfl
        obtain ⟨-, rfl⟩ := concat_inj hslash
        exact absurd hc (by decide)
      · have hblank : (47 :: 42 :: body ++ 42 :: 47 :: text) ++ [d] = front ++ [c] := by
          rw [← htext, List.append_assoc]
          rfl
        obtain ⟨rfl, rfl⟩ := concat_inj hblank
        exact .blockComment hbody (ih rfl rfl)

theorem Trivia.trim {text : Bytes} (h : Trivia text []) : Trivia (MattSql.trim text) [] := by
  have hfront := h.dropWhile_blank
  rw [MattSql.trim]
  generalize text.dropWhile isBlank = text at hfront
  induction text using List.reverseRecOn with
  | nil => exact .nil []
  | append_singleton text c ih =>
      by_cases hc : isBlank c = true
      · rw [List.rdropWhile_concat_pos _ _ _ hc]
        exact ih (hfront.of_concat_blank rfl hc)
      · rw [List.rdropWhile_concat_neg _ _ _ hc]
        exact hfront

/-- The reply to a text without a statement. -/
theorem execute_trivia {text : Bytes} (h : Trivia text []) (db : Database) :
    execute db text = (errorResult .parseError (ascii "expected SQL statement"), db) := by
  have htokens := (TilesFrom.stop [] h).tokenize_eq
  have hparse : parseSql text = errorResult .parseError (ascii "expected SQL statement") := by
    rw [parseSql, htokens]
    rfl
  rw [execute, executeIn]
  rw [hparse]
  rfl

/-- Trivia holds no statement. -/
theorem extractAll_trivia {text : Bytes} (h : Trivia text []) : extractAll text = ([], text) := by
  have hfind : findStatementTerminator text = none := by
    have hloop := terminatorLoop_trivia h 0
    rw [List.append_nil] at hloop
    rw [findStatementTerminator, hloop]
    rfl
  rw [extractAll_eq_drainAll]
  refine drainAll_none ?_
  rw [extractStatement, hfind]

theorem trim_eq_nil_iff {text : Bytes} : trim text = [] ↔ text.all isBlank = true := by
  rw [trim, List.rdropWhile_eq_nil_iff, List.all_eq_true]
  constructor
  · intro h c hc
    rw [← List.takeWhile_append_dropWhile (p := isBlank) (l := text)] at hc
    rcases List.mem_append.mp hc with hfront | hback
    · exact List.mem_takeWhile_imp hfront
    · exact h c hback
  · intro h c hc
    exact h c ((List.dropWhile_suffix isBlank).subset hc)

/-- What the shell writes when there is no statement in a text. -/
def triviaError : Bytes := ascii "error[ParseError]: expected SQL statement\n"

theorem executeTexts_trivia {text : Bytes} (h : Trivia text []) (session : Session) :
    executeTexts session [text] = (false, { session with err := session.err ++ triviaError }) := by
  rw [executeTexts_singleton, execute_trivia h]
  refine Prod.ext rfl ?_
  show Session.mk session.db session.out _ = Session.mk session.db session.out _
  congr 1
  simp only [List.append_assoc]
  rfl

/-- A script with trivia behind its last statement: the trivia is one more text
    to execute when `trim` leaves something of it. -/
theorem runSqlText_trivia {session : Session} {sql : Bytes} (h : Trivia (extractAll sql).2 []) :
    runSqlText session sql
      = if (extractAll sql).2.all isBlank = true then
          executeTexts session (trimmedTexts (extractAll sql).1)
        else
          (false, { (executeTexts session (trimmedTexts (extractAll sql).1)).2 with
            err := (executeTexts session (trimmedTexts (extractAll sql).1)).2.err
              ++ triviaError }) := by
  rw [runSqlText_eq, executedTexts, trimmedTexts_append, executeTexts_append]
  by_cases hblank : trim (extractAll sql).2 = []
  · rw [if_pos (trim_eq_nil_iff.mp hblank), trimmedTexts_blank hblank]
    show ((executeTexts session _).1 && true, _) = _
    rw [Bool.and_true]
    rfl
  · rw [if_neg (mt trim_eq_nil_iff.mpr hblank), trimmedTexts_singleton hblank,
      executeTexts_trivia h.trim, Bool.and_false]

/-- A script whose last statement is terminated: behind the last semicolon stands
    only what the lexer takes for whitespace. -/
structure EndsStatement (sql : Bytes) : Prop where
  statements : (extractAll sql).1 ≠ []
  spaces : ∀ c ∈ (extractAll sql).2, isSpace c = true

instance (sql : Bytes) : Decidable (EndsStatement sql) :=
  decidable_of_iff ((extractAll sql).1 ≠ [] ∧ (extractAll sql).2.all isSpace = true)
    ⟨fun h => ⟨h.1, List.all_eq_true.mp h.2⟩, fun h => ⟨h.1, List.all_eq_true.mpr h.2⟩⟩

theorem EndsStatement.trivia {sql tail : Bytes} (h : EndsStatement sql) (htail : Trivia tail []) :
    Trivia ((extractAll sql).2 ++ tail) [] :=
  htail.spaces_append h.spaces

/-- What follows the last semicolon is all that grows. -/
theorem extractAll_append {sql tail : Bytes} (h : Trivia ((extractAll sql).2 ++ tail) []) :
    extractAll (sql ++ tail) = ((extractAll sql).1, (extractAll sql).2 ++ tail) := by
  have htrivia := extractAll_trivia h
  rw [extractAll_eq_drainAll] at htrivia ⊢
  rw [drainAll_append extractStatement_advances extractStatement_stable, htrivia, List.append_nil]

/-- **TRIVIA BEHIND THE LAST STATEMENT.**  No statement is added and the database
    is the same.  The run is the same exactly when `trim` takes all of the tail
    away, or when it already left some of the script's own whitespace; the script
    still succeeds exactly when it did and `trim` takes all of the tail away. -/
theorem trailing_trivia_iff (session : Session) (sql tail : Bytes) (h : EndsStatement sql)
    (htail : Trivia tail []) :
    (extractAll (sql ++ tail)).1 = (extractAll sql).1
      ∧ (runSqlText session (sql ++ tail)).2.db = (runSqlText session sql).2.db
      ∧ (runSqlText session (sql ++ tail)).1
        = ((runSqlText session sql).1 && tail.all isBlank)
      ∧ (runSqlText session (sql ++ tail) = runSqlText session sql
        ↔ (∀ c ∈ tail, isBlank c = true) ∨ ∃ c ∈ (extractAll sql).2, isBlank c = false) := by
  have hall := extractAll_append (h.trivia htail)
  have hrun := @runSqlText_trivia session sql (by
    have htrivia := h.trivia (.nil [])
    rwa [List.append_nil] at htrivia)
  have hrun' := @runSqlText_trivia session (sql ++ tail) (by
    rw [hall]
    exact h.trivia htail)
  rw [hall] at hrun'
  refine ⟨by rw [hall], ?_⟩
  generalize executeTexts session (trimmedTexts (extractAll sql).1) = done at hrun hrun'
  rw [List.all_append] at hrun'
  by_cases hown : (extractAll sql).2.all isBlank = true
  · rw [if_pos hown] at hrun
    have hnone : ¬∃ c ∈ (extractAll sql).2, isBlank c = false := by
      rintro ⟨c, hc, hblank⟩
      exact absurd (List.all_eq_true.mp hown c hc) (by rw [hblank]; decide)
    by_cases hblank : tail.all isBlank = true
    · -- all of the tail goes, and the runs are the same
      rw [if_pos (Bool.and_eq_true_iff.mpr ⟨hown, hblank⟩), ← hrun] at hrun'
      rw [hrun', hblank, Bool.and_true]
      exact ⟨rfl, rfl, iff_of_true rfl (.inl (List.all_eq_true.mp hblank))⟩
    · -- what is left of the tail is one more text, which fails
      rw [if_neg fun hmore => hblank (Bool.and_eq_true_iff.mp hmore).2] at hrun'
      rw [hrun', hrun, Bool.eq_false_iff.mpr hblank, Bool.and_false]
      refine ⟨rfl, rfl, iff_of_false (fun heq => ?_)
        (not_or_intro (mt List.all_eq_true.mpr hblank) hnone)⟩
      have herr : done.2.err ++ triviaError = done.2.err := congrArg (fun run => run.2.err) heq
      exact absurd (List.append_right_eq_self.mp herr) (by decide)
  · -- the script fails already, in its own whitespace
    rw [if_neg hown] at hrun
    rw [if_neg fun hmore => hown (Bool.and_eq_true_iff.mp hmore).1, ← hrun] at hrun'
    have hleft : ∃ c ∈ (extractAll sql).2, isBlank c = false := by
      by_contra hnone
      refine hown (List.all_eq_true.mpr fun c hc => ?_)
      exact eq_true_of_ne_false fun hblank => hnone ⟨c, hc, hblank⟩
    rw [hrun', hrun]
    exact ⟨rfl, (Bool.false_and _).symm, iff_of_true rfl (.inr hleft)⟩

theorem trailing_trivia_blanks :
    runSqlText {} (ascii "SELECT 1;" ++ ascii " \t\r\n") = runSqlText {} (ascii "SELECT 1;") :=
  (trailing_trivia_iff {} (ascii "SELECT 1;") (ascii " \t\r\n") (by decide)
    (.space rfl (.space rfl (.space rfl (.space rfl (.nil [])))))).2.2.2.mpr
      (.inl (List.all_eq_true.mp rfl))

/-- **A COMMENT AT THE END** makes a script fail. -/
theorem trailing_comment_fails :
    EndsStatement (ascii "SELECT 1;") ∧ Trivia (ascii " -- done") []
      ∧ (runSqlText {} (ascii "SELECT 1;")).1 = true
      ∧ (runSqlText {} (ascii "SELECT 1;" ++ ascii " -- done")).1 = false := by
  refine ⟨by decide, ?_, by decide, by decide⟩
  exact .space rfl (@Trivia.lineComment (ascii " done") [] [] (noBreak_of_all rfl)
    (fun _ h => nomatch h) (.nil []))

end MattSql
