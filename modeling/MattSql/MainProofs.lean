import MattSql.ScriptProofs

/-! # The main program

    `main` of `main.cpp`: SQL files, SQL text as arguments, the shell, or SQL
    text on the standard input.

    Whatever a script comes from, the main program hands a list of texts to one
    engine and reports the replies in order; its exit code tells whether
    anything was reported on the error stream (`main_reports`).  Files that end
    behind a statement are one script, and the shell does what a pipe does
    (`main_sources_agree`). -/

namespace MattSql

open Extraction Fallible

/-! ## The model -/

/-- What comes of reading a file: it does not open, it goes bad behind the bytes
    that could be read (a directory, behind none), or its contents. -/
inductive FileRead where
  | unopened
  | bad (sql : Bytes)
  | contents (sql : Bytes)
  deriving DecidableEq

/-- `is_sql_file_path`. -/
def isSqlFilePath (value : Bytes) : Bool :=
  if value.length < 4 then false
  else
    let extension := value.drop (value.length - 4)
    extension[0]? = some 46 && (extension[1]? = some 115 || extension[1]? = some 83)
      && (extension[2]? = some 113 || extension[2]? = some 81)
      && (extension[3]? = some 108 || extension[3]? = some 76)

/-- `all_arguments_are_sql_files`. -/
def allArgumentsAreSqlFiles (arguments : List Bytes) : Bool := arguments.all isSqlFilePath

/-- The report on a file that does not open. -/
def fileError (path : Bytes) : Bytes := ascii "error: unable to open SQL file: " ++ path ++ [10]

/-- `run_sql_file`.  Its report on a file that goes bad is never made: a failure
    to read is noted on the `sql` that `input.rdbuf()` is streamed to, and
    `input.bad()` stays false. -/
def runSqlFile (files : Bytes → FileRead) (session : Session) (path : Bytes) : Bool × Session :=
  match files path with
  | .unopened => (false, { session with err := session.err ++ fileError path })
  | .bad sql => runSqlText session sql
  | .contents sql => runSqlText session sql

/-- The loop of `main` over the files. -/
def runSqlFiles (files : Bytes → FileRead) : Bool → Session → List Bytes → Bool × Session
  | success, session, [] => (success, session)
  | success, session, path :: paths =>
    let (ok, session) := runSqlFile files session path
    runSqlFiles files (ok && success) session paths

/-- `std::getline` until it fails: the lines of an input. -/
def inputLines : Bytes → List Bytes
  | [] => []
  | c :: input =>
    if c = 10 then [] :: inputLines input
    else
      match inputLines input with
      | [] => [[c]]
      | line :: lines => (c :: line) :: lines

/-- The exit code of a script. -/
def exitCode (run : Bool × Session) : Nat × Session := (if run.1 then 0 else 1, run.2)

/-- `main`, with the file system, whether the standard input is a terminal, and
    what there is to read from it. -/
def main (files : Bytes → FileRead) (tty : Bool) (input : Bytes) (arguments : List Bytes) :
    Nat × Session :=
  if arguments ≠ [] then
    if allArgumentsAreSqlFiles arguments then exitCode (runSqlFiles files true {} arguments)
    else exitCode (runSqlText {} ([32].intercalate arguments))
  else if tty then (0, runRepl (inputLines input))
  else exitCode (runSqlText {} input)

/-! ## What is reported -/

/-- What a reply adds to the standard output. -/
def printedOut : Result QueryResult → Bytes
  | .ok result => printResult result
  | .error _ => []

/-- What a reply adds to the error stream. -/
def printedErr : Result QueryResult → Bytes
  | .ok _ => []
  | .error st => ascii "error[" ++ errorCodeName st.code ++ ascii "]: " ++ st.message ++ [10]

theorem Session.report_eq (session : Session) (reply : Result QueryResult × Database) :
    session.report reply
      = ⟨reply.2, session.out ++ printedOut reply.1, session.err ++ printedErr reply.1⟩ := by
  obtain ⟨result, db⟩ := reply
  cases result with
  | ok result =>
      show (⟨_, _, session.err⟩ : Session) = ⟨_, _, session.err ++ []⟩
      rw [List.append_nil]
      rfl
  | error st =>
      show (⟨_, session.out, _⟩ : Session) = ⟨_, session.out ++ [], _⟩
      rw [List.append_nil, printedErr]
      simp only [List.append_assoc]

/-- A failing reply is reported. -/
theorem printedErr_eq_nil_iff {reply : Result QueryResult} :
    printedErr reply = [] ↔ (okValue reply).isSome = true := by
  cases reply with
  | ok result => exact iff_of_true rfl rfl
  | error st =>
      refine iff_of_false (fun h => ?_) Bool.false_ne_true
      exact absurd (List.append_eq_nil_iff.mp h).2 (List.cons_ne_nil _ _)

/-- The replies to texts. -/
def repliesTo (db : Database) (texts : List Bytes) : List (Result QueryResult) :=
  (Run.trace execute db texts).map (·.2)

theorem repliesTo_append (db : Database) (texts more : List Bytes) :
    repliesTo db (texts ++ more)
      = repliesTo db texts ++ repliesTo (Run.final execute db texts) more := by
  rw [repliesTo, Run.trace_append, List.map_append]
  rfl

theorem repliesTo_cons (db : Database) (text : Bytes) (texts : List Bytes) :
    repliesTo db (text :: texts)
      = (execute db text).1 :: repliesTo (execute db text).2 texts := rfl

/-- Texts are executed, and the replies reported in order. -/
theorem executeTexts_eq_replies (session : Session) (texts : List Bytes) :
    executeTexts session texts
      = ((repliesTo session.db texts).all fun reply => (okValue reply).isSome,
        ⟨Run.final execute session.db texts,
          session.out ++ (repliesTo session.db texts).flatMap printedOut,
          session.err ++ (repliesTo session.db texts).flatMap printedErr⟩) := by
  induction texts generalizing session with
  | nil =>
      show (true, session) = (true, ⟨session.db, session.out ++ [], session.err ++ []⟩)
      rw [List.append_nil, List.append_nil]
  | cons text texts ih =>
      rw [executeTexts, repliesTo_cons]
      dsimp only
      rw [ih, Session.report_eq, List.flatMap_cons, List.flatMap_cons, List.all_cons]
      dsimp only
      rw [List.append_assoc, List.append_assoc]
      rfl

/-- A run over texts: they are executed in order, every reply is reported, and
    the run is a success when nothing was reported on the error stream, that is,
    when every file opens and every text is answered. -/
structure Reports (session : Session) (texts : List Bytes) (opens : Prop)
    (run : Bool × Session) : Prop where
  db : run.2.db = Run.final execute session.db texts
  out : run.2.out = session.out ++ (repliesTo session.db texts).flatMap printedOut
  err : ∃ reports, run.2.err = session.err ++ reports ∧ (run.1 = true ↔ reports = [])
  success : run.1 = true
    ↔ opens ∧ ∀ reply ∈ repliesTo session.db texts, ∃ result, reply = .ok result

theorem runSqlText_reports (session : Session) (sql : Bytes) :
    Reports session (executedTexts sql) True (runSqlText session sql) := by
  rw [runSqlText_eq, executeTexts_eq_replies]
  refine ⟨rfl, rfl, ⟨_, rfl, ?_⟩, ?_⟩
  · rw [List.all_eq_true, List.flatMap_eq_nil_iff]
    exact forall₂_congr fun _ _ => printedErr_eq_nil_iff.symm
  · rw [List.all_eq_true, true_and]
    refine forall₂_congr fun reply _ => ?_
    rw [Option.isSome_iff_exists]
    exact exists_congr fun _ => okValue_eq_some_iff

/-- Runs over texts and then over more. -/
theorem Reports.append {session : Session} {texts more : List Bytes} {opens opens' : Prop}
    {run run' : Bool × Session} (h : Reports session texts opens run)
    (h' : Reports run.2 more opens' run') :
    Reports session (texts ++ more) (opens ∧ opens') (run'.1 && run.1, run'.2) := by
  have hreplies : repliesTo session.db (texts ++ more)
      = repliesTo session.db texts ++ repliesTo run.2.db more := by
    rw [repliesTo_append, h.db]
  refine ⟨?_, ?_, ?_, ?_⟩
  · rw [Run.final_append, ← h.db]
    exact h'.db
  · rw [hreplies, List.flatMap_append, ← List.append_assoc, ← h.out]
    exact h'.out
  · obtain ⟨reports, herr, hnil⟩ := h.err
    obtain ⟨reports', herr', hnil'⟩ := h'.err
    refine ⟨reports ++ reports', ?_, ?_⟩
    · rw [herr', herr, List.append_assoc]
    · rw [Bool.and_eq_true, hnil, hnil', List.append_eq_nil_iff]
      exact and_comm
  · rw [hreplies, List.forall_mem_append, Bool.and_eq_true, h.success, h'.success]
    exact ⟨fun ⟨⟨hr', hs'⟩, hr, hs⟩ => ⟨⟨hr, hr'⟩, hs, hs'⟩,
      fun ⟨⟨hr, hr'⟩, hs, hs'⟩ => ⟨⟨hr', hs'⟩, hr, hs⟩⟩

/-- The texts of a file, as far as it can be read. -/
def fileTexts (files : Bytes → FileRead) (path : Bytes) : List Bytes :=
  match files path with
  | .unopened => []
  | .bad sql => executedTexts sql
  | .contents sql => executedTexts sql

theorem fileError_ne_nil (path : Bytes) : fileError path ≠ [] :=
  List.append_ne_nil_of_right_ne_nil _ (List.cons_ne_nil _ _)

theorem runSqlFile_reports (files : Bytes → FileRead) (session : Session) (path : Bytes) :
    Reports session (fileTexts files path) (files path ≠ .unopened)
      (runSqlFile files session path) := by
  have hopened : ∀ {sql : Bytes}, files path ≠ .unopened →
      Reports session (executedTexts sql) (files path ≠ .unopened) (runSqlText session sql) := by
    intro sql hopens
    have hrun := runSqlText_reports session sql
    exact ⟨hrun.db, hrun.out, hrun.err,
      hrun.success.trans (and_congr_left fun _ => iff_of_true trivial hopens)⟩
  rw [fileTexts, runSqlFile]
  cases hfile : files path with
  | unopened =>
      exact ⟨rfl, (List.append_nil _).symm,
        ⟨_, rfl, iff_of_false Bool.false_ne_true (fileError_ne_nil path)⟩,
        iff_of_false Bool.false_ne_true fun h => h.1 rfl⟩
  | bad sql =>
      rw [hfile] at hopened
      exact hopened fun h => by cases h
  | contents sql =>
      rw [hfile] at hopened
      exact hopened fun h => by cases h

theorem runSqlFiles_success (files : Bytes → FileRead) (success : Bool) (session : Session)
    (paths : List Bytes) :
    runSqlFiles files success session paths
      = ((runSqlFiles files true session paths).1 && success,
        (runSqlFiles files true session paths).2) := by
  induction paths generalizing success session with
  | nil => rfl
  | cons path paths ih =>
      rw [runSqlFiles, runSqlFiles]
      dsimp only
      rw [ih, ih ((runSqlFile files session path).1 && true), Bool.and_true, Bool.and_assoc]

theorem runSqlFiles_reports (files : Bytes → FileRead) (session : Session) (paths : List Bytes) :
    Reports session (paths.flatMap (fileTexts files))
      (∀ path ∈ paths, files path ≠ .unopened)
      (runSqlFiles files true session paths) := by
  induction paths generalizing session with
  | nil =>
      exact ⟨rfl, (List.append_nil _).symm, ⟨[], (List.append_nil _).symm, iff_of_true rfl rfl⟩,
        iff_of_true rfl ⟨List.forall_mem_nil _, List.forall_mem_nil _⟩⟩
  | cons path paths ih =>
      have hrun := (runSqlFile_reports files session path).append (ih _)
      rw [runSqlFiles]
      dsimp only
      rw [runSqlFiles_success, Bool.and_true, List.forall_mem_cons, List.flatMap_cons]
      exact hrun

/-- The texts that `main` hands to the engine when it is no shell. -/
def mainTexts (files : Bytes → FileRead) (input : Bytes) (arguments : List Bytes) : List Bytes :=
  if arguments = [] then executedTexts input
  else if allArgumentsAreSqlFiles arguments then arguments.flatMap (fileTexts files)
  else executedTexts ([32].intercalate arguments)

theorem exitCode_eq_zero_iff {run : Bool × Session} : (exitCode run).1 = 0 ↔ run.1 = true := by
  obtain ⟨success, session⟩ := run
  cases success
  · exact iff_of_false Nat.one_ne_zero Bool.false_ne_true
  · exact iff_of_true rfl rfl

/-- Unless it is a shell, `main` runs its texts and returns whether that was a
    success. -/
theorem main_eq_exitCode (files : Bytes → FileRead) (tty : Bool) (input : Bytes)
    (arguments : List Bytes) (hscript : arguments ≠ [] ∨ tty = false) :
    ∃ run, main files tty input arguments = exitCode run
      ∧ Reports {} (mainTexts files input arguments) (allArgumentsAreSqlFiles arguments = true →
          ∀ path ∈ arguments, files path ≠ .unopened) run := by
  have htext : ∀ {opens : Prop} (sql : Bytes), opens →
      Reports {} (executedTexts sql) opens (runSqlText {} sql) := by
    intro opens sql hopens
    have hrun := runSqlText_reports {} sql
    exact ⟨hrun.db, hrun.out, hrun.err,
      hrun.success.trans (and_congr_left fun _ => iff_of_true trivial hopens)⟩
  rw [main, mainTexts]
  by_cases harguments : arguments = []
  · subst harguments
    rw [if_neg (not_not_intro rfl), if_pos rfl,
      if_neg (Bool.eq_false_iff.mp (hscript.resolve_left (not_not_intro rfl)))]
    exact ⟨_, rfl, htext input fun _ => List.forall_mem_nil _⟩
  · rw [if_pos harguments, if_neg harguments]
    by_cases hall : allArgumentsAreSqlFiles arguments = true
    · rw [if_pos hall, if_pos hall]
      have hrun := runSqlFiles_reports files {} arguments
      exact ⟨_, rfl, hrun.db, hrun.out, hrun.err,
        hrun.success.trans (and_congr_left fun _ => ⟨fun h _ => h, fun h => h hall⟩)⟩
    · rw [if_neg hall, if_neg hall]
      exact ⟨_, rfl, htext _ fun h => absurd h hall⟩

/-- **THE MAIN PROGRAM REPORTS.**  Unless it is a shell, it leaves the database
    of a fresh engine after its texts, prints the results of those that are
    answered, in order, and its exit code is zero exactly when the error stream
    is empty: exactly when every file opens and every text is answered.  A file
    that goes bad counts as the text that could be read. -/
theorem main_reports (files : Bytes → FileRead) (tty : Bool) (input : Bytes)
    (arguments : List Bytes) (hscript : arguments ≠ [] ∨ tty = false) :
    let run := main files tty input arguments
    let replies := repliesTo {} (mainTexts files input arguments)
    run.2.db = engineAfter (mainTexts files input arguments)
      ∧ run.2.out = replies.flatMap printedOut
      ∧ (run.1 = 0 ↔ run.2.err = [])
      ∧ (run.1 = 0 ↔ (allArgumentsAreSqlFiles arguments = true →
          ∀ path ∈ arguments, files path ≠ .unopened)
        ∧ ∀ reply ∈ replies, ∃ result, reply = .ok result) := by
  obtain ⟨run, hmain, hrun⟩ := main_eq_exitCode files tty input arguments hscript
  obtain ⟨reports, herr, hsuccess⟩ := hrun.err
  intro run' replies
  have hrun' : run' = exitCode run := hmain
  have herr' : run'.2.err = reports := by
    rw [hrun']
    exact herr
  refine ⟨?_, ?_, ?_, ?_⟩
  · rw [hrun']
    exact hrun.db
  · rw [hrun']
    exact hrun.out
  · rw [herr', hrun', exitCode_eq_zero_iff, hsuccess]
  · rw [hrun', exitCode_eq_zero_iff]
    exact hrun.success

-- a directory is a file that goes bad at once: nothing is reported
example : (main (fun _ => .bad []) false [] [ascii "d.sql"]).1 = 0 := by decide +kernel

/-- A statement that fails, and a file that is not there. -/
theorem main_reports_missing_file :
    let files : Bytes → FileRead := fun path =>
      if path = ascii "a.sql" then .contents (ascii "SELECT 1; SELECT x;") else .unopened
    let run := main files false [] [ascii "a.sql", ascii "b.sql"]
    run.2.out = ascii "expr1\n1\n" ∧ (run.1 = 0 ↔ run.2.err = []) := by
  intro files run
  obtain ⟨-, hout, herr, -⟩ := main_reports files false [] [ascii "a.sql", ascii "b.sql"]
    (.inl (List.cons_ne_nil _ _))
  exact ⟨hout.trans (by decide +kernel), herr⟩

/-! ## Texts behind and in front of blanks -/

/-- Indices are counted from where the scan starts. -/
theorem terminatorLoop_shift (flags : ScanFlags) (index offset : Nat) (text : Bytes) :
    terminatorLoop flags (index + offset) text
      = (terminatorLoop flags index text).map (· + offset) := by
  induction flags, index, text using terminatorLoop.induct with
  | case1 flags index => rfl
  | case2 flags index c hfound =>
      rw [@terminatorLoop_found flags c [] hfound, @terminatorLoop_found flags c [] hfound,
        Option.map_some]
      congr 1
      omega
  | case3 flags index c flags' skip hnext =>
      rw [terminatorLoop, terminatorLoop, hnext]
      rfl
  | case4 flags index c next rest hfound =>
      rw [@terminatorLoop_found flags c (next :: rest) hfound,
        @terminatorLoop_found flags c (next :: rest) hfound, Option.map_some]
      congr 1
      omega
  | case5 flags index c next rest flags' hnext ih =>
      rw [terminatorLoop_next (next :: rest) hnext, terminatorLoop_next (next :: rest) hnext, ← ih,
        Nat.add_right_comm]
  | case6 flags index c next rest flags' hnext ih =>
      rw [terminatorLoop_skip hnext, terminatorLoop_skip hnext, ← ih, Nat.add_right_comm]

/-- Blanks in front of a statement go with it. -/
theorem extractStatement_blanks {blanks : Bytes} (hblanks : ∀ c ∈ blanks, isBlank c = true)
    (sql : Bytes) :
    extractStatement (blanks ++ sql)
      = (extractStatement sql).map fun pair => (blanks ++ pair.1, pair.2) := by
  have htrivia : Trivia blanks sql := by
    have hspaces := Trivia.spaces_append (fun c hc => isSpace_of_isBlank (hblanks c hc)) (.nil sql)
    rwa [List.append_nil] at hspaces
  rw [extractStatement, extractStatement, findStatementTerminator, findStatementTerminator,
    terminatorLoop_trivia htrivia, terminatorLoop_shift]
  cases terminatorLoop {} 0 sql with
  | none => rfl
  | some stop =>
      dsimp only [Option.map]
      rw [Nat.add_comm, List.take_length_add_append, List.drop_length_add_append]

theorem trim_blanks_append {blanks : Bytes} (hblanks : ∀ c ∈ blanks, isBlank c = true)
    (sql : Bytes) : trim (blanks ++ sql) = trim sql := by
  rw [trim, trim, List.dropWhile_append_of_pos hblanks]

theorem trim_append_blanks {blanks : Bytes} (hblanks : ∀ c ∈ blanks, isBlank c = true)
    (sql : Bytes) : trim (sql ++ blanks) = trim sql := by
  have hback : ∀ text : Bytes, (text ++ blanks).rdropWhile isBlank = text.rdropWhile isBlank := by
    intro text
    rw [List.rdropWhile, List.reverse_append,
      List.dropWhile_append_of_pos fun c hc => hblanks c (List.mem_reverse.mp hc)]
    rfl
  by_cases hall : ∀ c ∈ sql, isBlank c = true
  · rw [trim_blanks_append hall, trim_eq_nil_iff.mpr (List.all_eq_true.mpr hblanks),
      trim_eq_nil_iff.mpr (List.all_eq_true.mpr hall)]
  · have hne : sql.dropWhile isBlank ≠ [] := fun h => hall (List.dropWhile_eq_nil_iff.mp h)
    rw [trim, trim, List.dropWhile_append, if_neg fun h => hne (List.isEmpty_iff.mp h), hback]

/-- Blanks in front of a script are no text. -/
theorem executedTexts_blanks {blanks : Bytes} (hblanks : ∀ c ∈ blanks, isBlank c = true)
    (sql : Bytes) : executedTexts (blanks ++ sql) = executedTexts sql := by
  rw [executedTexts, executedTexts, extractAll_eq_drainAll]
  have hextract := extractStatement_blanks hblanks sql
  cases hnext : extractStatement sql with
  | none =>
      rw [hnext] at hextract
      rw [drainAll_none hnext, drainAll_none hextract]
      show trimmedTexts [_] = trimmedTexts [_]
      rw [trimmedTexts, trimmedTexts, List.map_singleton, List.map_singleton,
        trim_blanks_append hblanks]
  | some pair =>
      rw [hnext] at hextract
      rw [drainAll_some extractStatement_advances hnext,
        drainAll_some extractStatement_advances hextract]
      dsimp only
      rw [List.cons_append, List.cons_append, trimmedTexts_cons, trimmedTexts_cons pair.1]
      congr 1
      rw [trimmedTexts, trimmedTexts, List.map_singleton, List.map_singleton,
        trim_blanks_append hblanks]

/-- A script that ends behind a statement, and another one. -/
theorem executedTexts_append {sql : Bytes} (hends : (extractAll sql).2.all isBlank = true)
    (more : Bytes) : executedTexts (sql ++ more) = executedTexts sql ++ executedTexts more := by
  have hmore := executedTexts_blanks (List.all_eq_true.mp hends) more
  rw [executedTexts, executedTexts, extractAll_eq_drainAll] at hmore ⊢
  rw [extractAll_eq_drainAll] at hends
  rw [drainAll_append extractStatement_advances extractStatement_stable]
  dsimp only
  rw [List.append_assoc, trimmedTexts_append, hmore,
    trimmedTexts_append (drainAll extractStatement sql).1 [_],
    trimmedTexts_blank (trim_eq_nil_iff.mpr hends), List.append_nil, executedTexts,
    extractAll_eq_drainAll]

/-! ## One script from several sources -/

/-- A line break ends no statement. -/
theorem extractStatement_lineBreak {sql : Bytes} (h : extractStatement sql = none) :
    extractStatement (sql ++ [10]) = none := by
  have hbreak : ∀ (flags : ScanFlags) (index : Nat), terminatorLoop flags index [10] = none := by
    intro flags index
    rw [terminatorLoop]
    cases hstep : scanStep flags 10 0 with
    | found => exact absurd (scanStep_found_iff.mp hstep).2 (by decide)
    | next flags skip => rfl
  have hloop : ∀ {flags : ScanFlags} {index : Nat} {text : Bytes},
      terminatorLoop flags index text = none → terminatorLoop flags index (text ++ [10]) = none := by
    intro flags index text h
    induction flags, index, text using terminatorLoop.induct with
    | case1 flags index => exact hbreak flags index
    | case2 flags index c hfound =>
        rw [@terminatorLoop_found flags c [] hfound] at h
        cases h
    | case3 flags index c flags' skip hnext =>
        rw [List.singleton_append, terminatorLoop]
        cases hstep : scanStep flags c 10 with
        | found =>
            have hfound : scanStep flags c 0 = .found :=
              scanStep_found_iff.mpr (scanStep_found_iff.mp hstep)
            rw [hnext] at hfound
            cases hfound
        | next flags' skip =>
            cases skip with
            | false => exact hbreak flags' _
            | true => rfl
    | case4 flags index c next rest hfound =>
        rw [@terminatorLoop_found flags c (next :: rest) hfound] at h
        cases h
    | case5 flags index c next rest flags' hnext ih =>
        rw [terminatorLoop_next (next :: rest) hnext] at h
        rw [List.cons_append, List.cons_append, terminatorLoop_next (next :: (rest ++ [10])) hnext]
        exact ih h
    | case6 flags index c next rest flags' hnext ih =>
        rw [terminatorLoop_skip hnext] at h
        rw [List.cons_append, List.cons_append, terminatorLoop_skip hnext]
        exact ih h
  have hfind : findStatementTerminator sql = none := by
    rw [extractStatement] at h
    cases hfind : findStatementTerminator sql with
    | none => rfl
    | some stop =>
        rw [hfind] at h
        cases h
  rw [extractStatement, findStatementTerminator, hloop hfind]

/-- A line break behind a script changes nothing. -/
theorem executedTexts_lineBreak (sql : Bytes) : executedTexts (sql ++ [10]) = executedTexts sql := by
  rw [executedTexts, executedTexts, extractAll_eq_drainAll,
    drainAll_append extractStatement_advances extractStatement_stable,
    drainAll_none (extractStatement_lineBreak (drainAll_done extractStatement_advances sql)),
    List.append_nil, trimmedTexts_append, trimmedTexts_append]
  congr 1
  rw [trimmedTexts, trimmedTexts, List.map_singleton, List.map_singleton,
    trim_append_blanks (List.forall_mem_singleton.mpr rfl)]

/-- The lines of an input make up the input, but for the break behind the last
    one. -/
theorem shellText_inputLines (input : Bytes) :
    shellText (inputLines input) = input ∨ shellText (inputLines input) = input ++ [10] := by
  induction input with
  | nil => exact .inl rfl
  | cons c input ih =>
      rw [inputLines]
      by_cases hc : c = 10
      · rw [if_pos hc, hc]
        exact ih.imp (congrArg (10 :: ·)) (congrArg (10 :: ·))
      · rw [if_neg hc]
        cases hlines : inputLines input with
        | nil =>
            rw [hlines] at ih
            rcases ih with hnil | hnil
            · rw [← hnil]
              exact .inr rfl
            · exact absurd hnil.symm (List.append_ne_nil_of_right_ne_nil _ (List.cons_ne_nil _ _))
        | cons line lines =>
            rw [hlines] at ih
            exact ih.imp (congrArg (c :: ·)) (congrArg (c :: ·))

/-- Files that can be read are run as their texts. -/
theorem runSqlFiles_contents {files : Bytes → FileRead} {paths scripts : List Bytes}
    (hread : List.Forall₂ (fun path sql => files path = .contents sql) paths scripts)
    (session : Session) :
    runSqlFiles files true session paths
      = executeTexts session (scripts.flatMap executedTexts) := by
  induction hread generalizing session with
  | nil => rfl
  | @cons path sql paths scripts hfile _ ih =>
      rw [runSqlFiles, runSqlFile, hfile]
      dsimp only
      rw [runSqlFiles_success, ih, runSqlText_eq, List.flatMap_cons, executeTexts_append,
        Bool.and_true, Bool.and_comm]

/-- Scripts that end behind a statement are one script. -/
theorem executedTexts_flatten {scripts : List Bytes}
    (hends : ∀ sql ∈ scripts.dropLast, (extractAll sql).2.all isBlank = true) :
    executedTexts scripts.flatten = scripts.flatMap executedTexts := by
  induction scripts with
  | nil => rfl
  | cons sql scripts ih =>
      cases scripts with
      | nil =>
          rw [List.flatten_singleton, List.flatMap_singleton]
      | cons more scripts =>
          rw [List.dropLast_cons_of_ne_nil (List.cons_ne_nil _ _)] at hends
          obtain ⟨hsql, hrest⟩ := List.forall_mem_cons.mp hends
          rw [List.flatten_cons, executedTexts_append hsql, List.flatMap_cons, ih hrest]

/-- **WHERE A SCRIPT COMES FROM** does not matter.  Files that can be read, each
    but the last ending behind a statement, are run as one script is that is
    piped in, and what is piped in leaves the database that it leaves when it is
    typed into the shell, unless a line of it is an exit command. -/
theorem main_sources_agree (files : Bytes → FileRead) (tty : Bool) (input : Bytes)
    {paths scripts : List Bytes} (hne : paths ≠ []) (hpaths : allArgumentsAreSqlFiles paths = true)
    (hread : List.Forall₂ (fun path sql => files path = .contents sql) paths scripts)
    (hends : ∀ sql ∈ scripts.dropLast, (extractAll sql).2.all isBlank = true) :
    main files tty input paths = main files false scripts.flatten []
      ∧ ((∀ line ∈ inputLines scripts.flatten, isExitCommand line = false) →
        (main files true scripts.flatten []).2.db = (main files tty input paths).2.db) := by
  have hpiped : main files false scripts.flatten [] = exitCode (runSqlText {} scripts.flatten) :=
    rfl
  have hfiles : main files tty input paths = main files false scripts.flatten [] := by
    rw [hpiped, main, if_pos hne, if_pos hpaths, runSqlFiles_contents hread, runSqlText_eq,
      executedTexts_flatten hends]
  refine ⟨hfiles, fun hexit => ?_⟩
  rw [hfiles, hpiped]
  show (runRepl (inputLines scripts.flatten)).db = (runSqlText {} scripts.flatten).2.db
  rw [runRepl_db hexit, runSqlText_db, runSqlText_db]
  rcases shellText_inputLines scripts.flatten with h | h
  · rw [h]
  · rw [h, executedTexts_lineBreak]

/-- Two files, the first with a line break behind its statement. -/
theorem main_sources_agree_two_files :
    let files : Bytes → FileRead := fun path =>
      if path = ascii "a.sql" then .contents (ascii "CREATE TABLE t (a INT);\n")
      else if path = ascii "b.SQL" then .contents (ascii "SELECT a FROM t") else .unopened
    main files false [] [ascii "a.sql", ascii "b.SQL"]
        = main files false (ascii "CREATE TABLE t (a INT);\nSELECT a FROM t") []
      ∧ (main files true (ascii "CREATE TABLE t (a INT);\nSELECT a FROM t") []).2.db
        = (main files false [] [ascii "a.sql", ascii "b.SQL"]).2.db := by
  intro files
  obtain ⟨hfiles, hshell⟩ := @main_sources_agree files false []
    [ascii "a.sql", ascii "b.SQL"]
    [ascii "CREATE TABLE t (a INT);\n", ascii "SELECT a FROM t"] (List.cons_ne_nil _ _)
    (by decide) (.cons (by decide) (.cons (by decide) .nil))
    (List.forall_mem_singleton.mpr (by decide))
  exact ⟨hfiles, hshell (by decide)⟩

end MattSql
