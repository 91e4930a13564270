import Munch.CommandLine
import Munch.Proofs.EndOfInput
import Munch.Proofs.OpenedFiles

/-!
# What the command line shows

The program takes the tokens of its source one by one and prints and counts each as it comes. What it
shows in the end is the list of the tokens of the file and the counts of that list, and its records are
the diagnostics of the file between its opening and its closing (`CommandLine.run_shows_tokens`).
-/

namespace Munch

lemma Lexeme.isInvalid_token (config : Config) (location : Location) (l : Lexeme) :
    (l.token config location).isInvalid =
      ((l.diagnostic? config location).map (·.code == "L001")).getD false := by
  by_cases hlong : config.limit < l.chars.length
  · have hkind : (l.token config location).kind ≠ .invalid := by
      rcases kind_of_long hlong with h | h <;> simp [token, h]
    rw [diagnostic?_of_long hlong, Token.isInvalid, beq_false_of_ne hkind]
    rfl
  · by_cases hinvalid : l.kind config = .invalid
    · obtain ⟨x, rfl⟩ := eq_symbol_of_invalid hinvalid
      rw [diagnostic?_of_invalid hinvalid, Token.isInvalid, token, hinvalid]
      rfl
    · rw [diagnostic?_of_valid (Nat.le_of_not_lt hlong) hinvalid, Token.isInvalid, token,
        beq_false_of_ne hinvalid]
      rfl

lemma Lexeme.location_of_diagnostic? {config : Config} {location : Location} {l : Lexeme} {d : Diagnostic}
    (h : l.diagnostic? config location = some d) : d.location = location := by
  unfold diagnostic? at h
  split at h
  · obtain rfl := Option.some.inj h
    rfl
  · split at h
    · split at h
      · obtain rfl := Option.some.inj h
        rfl
      · cases h
    · cases h

lemma Refusal.message_ne_empty (reason : Refusal) : reason.message ≠ "" := by
  cases reason with
  | fault f => cases f <;> decide
  | unknownEncoding name =>
    change "unknown encoding: " ++ name ≠ ""
    simp
  | binaryCodec name =>
    change "'" ++ name ++ "' is not a text encoding; use codecs.open() to handle arbitrary codecs" ≠ ""
    simp

/-- A refusal always comes with its reason. -/
lemma OpenError.message_refused (path : String) (reason : Refusal) :
    (refused path reason : OpenError).message = "cannot open source '" ++ path ++ "': " ++ reason.message := by
  change refusalText path reason.message = _
  unfold refusalText
  rw [Text.given?_some, if_neg reason.message_ne_empty, ← String.append_assoc]
  congr 1
  rw [String.append_assoc]
  congr 1

/-- The line that the log has for a diagnostic of a source, to the letter. -/
def Diagnostic.logLine (source : String) (d : Diagnostic) : String :=
  (if d.code = "L001" then "minilex.lexer.scanners.symbol" else "minilex.lexer.core") ++ ": DEBUG: " ++
    (if source = "" then "" else source ++ ":") ++ toString d.location.line ++ ":" ++
    toString d.location.column ++ ": " ++ d.severity ++ " " ++ d.code ++ ": " ++ d.message ++ "\n"

/-- The lines of the log of a source, from its opening to its closing. -/
def logLines (source : String) (diagnostics : List Diagnostic) : String :=
  "minilex.session: DEBUG: Opened source " ++ source ++ "\n" ++
    String.join (diagnostics.map (Diagnostic.logLine source)) ++
    "minilex.session: DEBUG: Closed source " ++ (if source = "" then "<string>" else source) ++ "\n"

namespace Record

lemma render_opened (path : String) :
    (opened path).render = "minilex.session: DEBUG: Opened source " ++ path := by
  have hbegins : Channel.session.name ++ ": DEBUG: " ++ "Opened source " =
      "minilex.session: DEBUG: Opened source " := by decide
  rw [← hbegins, String.append_assoc]
  rfl

lemma render_closed (source : String) :
    (closed (some source)).render =
      "minilex.session: DEBUG: Closed source " ++ if source = "" then "<string>" else source := by
  have hbegins : Channel.session.name ++ ": DEBUG: " ++ "Closed source " =
      "minilex.session: DEBUG: Closed source " := by decide
  have hname : (Text.given? (some source)).getD "<string>" = if source = "" then "<string>" else source := by
    rw [Text.given?_some]
    split <;> rfl
  rw [← hbegins, ← hname, String.append_assoc]
  rfl

lemma render_ofDiagnostic {d : Diagnostic} {source : String} (h : d.location.source = some source) :
    (ofDiagnostic d).render ++ "\n" = d.logLine source := by
  have hchannel : (ofDiagnostic d).channel.name =
      if d.code = "L001" then "minilex.lexer.scanners.symbol" else "minilex.lexer.core" := by
    have hsymbols : Channel.symbols.name = "minilex.lexer.scanners.symbol" := by decide
    have hscanner : Channel.scanner.name = "minilex.lexer.core" := by decide
    rw [← hsymbols, ← hscanner, ofDiagnostic]
    split <;> rfl
  have hplace : d.location.render = (if source = "" then "" else source ++ ":") ++
      toString d.location.line ++ ":" ++ toString d.location.column := by
    rw [Location.render, h, Text.given?_some]
    by_cases hsource : source = "" <;> simp [hsource, Position.render, String.append_assoc]
  have hmessage : (ofDiagnostic d).message = d.render := rfl
  rw [render, hchannel, hmessage, Diagnostic.render, hplace]
  unfold Diagnostic.logLine
  simp only [String.append_assoc]

end Record

namespace Session

variable {s : Session}

lemma drain_of_eof (h : s.next.1.kind = .eof) : s.drain = ([s.next.1], s.next.2) := by
  rw [drain, Scanner.drain_of_eof h]
  rfl

lemma drain_of_ne_eof (h : s.next.1.kind ≠ .eof) :
    s.drain =
      let others := s.next.2.1.drain
      (s.next.1 :: others.1, others.2.1, s.next.2.2 ++ others.2.2) := by
  rw [drain, Scanner.drain_of_ne_eof h]
  rfl

/-- A new session records what it has to say, in order, and nothing else. -/
theorem log_drain (config : Config) (c : Cursor) :
    (start config c).drain.2.2 =
      (start config c).drain.2.1.diagnostics.map .ofDiagnostic := by
  obtain ⟨pieces, tail, hcut⟩ := exists_cut c.rest
  simp only [drain, start, diagnostics, Scanner.drain_of_cut hcut]
  simp [Scanner.diagnostics, Scanner.notes, Scanner.start]

/-- It says of as many characters that they are invalid as it gives invalid tokens. -/
theorem countP_diagnostics_drain (config : Config) (c : Cursor) :
    (start config c).drain.2.1.diagnostics.countP (·.code == "L001") =
      (start config c).drain.1.countP Token.isInvalid := by
  obtain ⟨pieces, tail, hcut⟩ := exists_cut c.rest
  have heof (s : Scanner) (c : Cursor) : (s.eof c).isInvalid = false := rfl
  have hsaid : (fun o : Occurrence =>
      ((o.diagnostic? config c.position c.source).map (·.code == "L001")).getD false) =
        fun o => (o.token config c.position c.source).isInvalid := by
    funext o
    exact (o.lexeme.isInvalid_token config _).symm
  simp only [drain, start, diagnostics, Scanner.drain_of_cut hcut]
  simp only [Scanner.diagnostics, Scanner.notes, Scanner.start, List.append_nil, List.reverse_reverse,
    List.countP_filterMap, hsaid, List.countP_append, List.countP_map, List.countP_singleton, heof]
  rfl

/-- What it says is about its own source. -/
theorem source_of_mem_diagnostics {config : Config} {c : Cursor} {d : Diagnostic}
    (h : d ∈ (start config c).drain.2.1.diagnostics) : d.location.source = c.source := by
  obtain ⟨pieces, tail, hcut⟩ := exists_cut c.rest
  simp only [drain, start, diagnostics, Scanner.drain_of_cut hcut, Scanner.diagnostics, Scanner.notes,
    Scanner.start, List.append_nil, List.reverse_reverse] at h
  obtain ⟨o, -, ho⟩ := List.mem_filterMap.mp h
  rw [o.lexeme.location_of_diagnostic? ho]
  rfl

end Session

namespace CommandLine

theorem Tally.addAll_eq (quiet : Bool) (n : Tally) (s : Session) :
    n.addAll quiet s = (s.drain.1.foldl (Tally.add quiet) n, s.drain.2) := by
  induction hn : s.cursor.rest.length using Nat.strong_induction_on generalizing n s with
  | _ k ih =>
    subst hn
    by_cases heof : s.next.1.kind = .eof
    · rw [addAll_of_eof heof, Session.drain_of_eof heof]
      rfl
    · have hrest := ih _ (Scanner.rest_scan_lt heof) (n.add quiet s.next.1) s.next.2.1 rfl
      rw [addAll_of_ne_eof heof, hrest, Session.drain_of_ne_eof heof]
      rfl

lemma unlines_cons (line : String) (lines : List String) :
    unlines (line :: lines) = line ++ "\n" ++ unlines lines := by
  simp [unlines]

theorem Tally.foldl_add (quiet : Bool) (n : Tally) (tokens : List Token) :
    tokens.foldl (Tally.add quiet) n =
      ⟨n.printed ++ (if quiet then "" else unlines (tokens.map Token.listing)),
        n.tokens + tokens.length, n.invalid + tokens.countP Token.isInvalid⟩ := by
  induction tokens generalizing n with
  | nil => cases quiet <;> simp [unlines]
  | cons t tokens ih =>
    rw [List.foldl_cons, ih]
    cases quiet <;> cases h : t.isInvalid <;>
      simp [add, h, unlines_cons, String.append_assoc] <;> omega

/-- What a run writes of the tokens and the diagnostics of its source, to the letter. -/
structure Outcome.Shows (o : Outcome) (quiet verbose : Bool) (source : String) (tokens : List Token)
    (diagnostics : List Diagnostic) : Prop where
  status_eq : o.status = .ok 0
  stdout_eq : o.stdout = if quiet then "" else String.join (tokens.map fun t =>
    toString t.position.line ++ ":" ++ toString t.position.column ++ "\t" ++ t.kind.name ++ "\t" ++
      Text.quote t.text ++ "\n")
  stderr_eq : o.stderr = (if verbose then logLines source diagnostics else "") ++
    source ++ ": " ++ toString tokens.length ++ " tokens, " ++
      toString (tokens.countP Token.isInvalid) ++ " invalid\n"

variable {fs : FileSystem} {config : Config} {source : String} {s : Session}

/-- A source that opens is shown as the tokens of the file. -/
theorem scanSource_of_ok (h : (Session.openFile fs config source).1 = .ok s) (options : Options) :
    scanSource fs source options config =
      { status := .ok 0
        stdout := if options.quiet then "" else unlines (s.drain.1.map Token.listing)
        stderr := options.showLog
            (.opened source :: s.drain.2.1.diagnostics.map .ofDiagnostic ++ [.closed (some source)]) ++
          (source ++ ": " ++ toString s.drain.1.length ++ " tokens, " ++
            toString (s.drain.1.countP Token.isInvalid) ++ " invalid\n") } := by
  have hopen : Session.openFile fs config source = (.ok s, [.opened source]) := Session.opens_of_openFile h
  obtain ⟨text, -, rfl⟩ := Session.Opens.eq_start hopen
  have hclosing : (Session.start config { rest := text, source := some source }).drain.2.1.close.2 =
      [.closed (some source)] := by
    obtain ⟨pieces, tail, hcut⟩ := exists_cut text
    simp only [Session.drain, Session.start, Session.close, Scanner.drain_of_cut (c := ⟨text, _, _, _, _⟩) hcut]
    rfl
  simp only [scanSource, hopen, Tally.addAll_eq, Tally.foldl_add, Session.log_drain, hclosing,
    Tally.summary, String.empty_append, Nat.zero_add]
  rfl

lemma showLog_records {diagnostics : List Diagnostic}
    (h : ∀ d ∈ diagnostics, d.location.source = some source) (options : Options) :
    options.showLog (.opened source :: diagnostics.map .ofDiagnostic ++ [.closed (some source)]) =
      if options.verbose then logLines source diagnostics else "" := by
  have hlines : ((diagnostics.map Record.ofDiagnostic).map Record.render).map (· ++ "\n") =
      diagnostics.map (Diagnostic.logLine source) := by
    rw [List.map_map, List.map_map]
    exact List.map_congr_left fun d hd => Record.render_ofDiagnostic (h d hd)
  unfold Options.showLog logLines
  rw [← hlines]
  simp only [unlines, List.cons_append, List.map_cons, List.map_append, List.map_nil, String.join_cons,
    String.join_append, String.join_nil, Record.render_opened, Record.render_closed, String.append_assoc,
    String.append_empty]

theorem shows_scanSource (h : (Session.openFile fs config source).1 = .ok s) (options : Options) :
    (scanSource fs source options config).Shows options.quiet options.verbose source s.drain.1
      s.drain.2.1.diagnostics := by
  have hsource : ∀ d ∈ s.drain.2.1.diagnostics, d.location.source = some source := by
    obtain ⟨text, -, rfl⟩ := (Session.opens_of_openFile h).eq_start
    exact fun d => Session.source_of_mem_diagnostics
  rw [scanSource_of_ok h, showLog_records hsource]
  constructor
  · rfl
  · rw [unlines, List.map_map]
    rfl
  · simp only [String.append_assoc]

/-- A source that is refused is an error, under its own path. -/
lemma scanSource_of_refused {path : String} {reason : Refusal}
    (h : (Session.openFile fs config source).1 = .error (.refused path reason)) (options : Options) :
    scanSource fs source options config = ⟨.ok 1, "",
      "minilex: error: cannot open source '" ++ path ++ "': " ++ reason.message ++ "\n"⟩ := by
  have hline : errorLine (OpenError.refused path reason : OpenError).message =
      "minilex: error: cannot open source '" ++ path ++ "': " ++ reason.message ++ "\n" := by
    have hbegins : program ++ ": error: " ++ "cannot open source '" =
        "minilex: error: cannot open source '" := by decide
    rw [OpenError.message_refused, errorLine, ← hbegins]
    simp only [String.append_assoc]
  simp only [scanSource, Session.openFile_of_error h, Options.showLog, List.map_nil, unlines,
    String.join_nil, ite_self, String.empty_append, hline]

/-- Any other failure ends the run without a status, and nothing is shown. -/
lemma scanSource_of_error {e : OpenError} (h : (Session.openFile fs config source).1 = .error e)
    (he : ∀ reason, e ≠ .refused source reason) (options : Options) :
    scanSource fs source options config = ⟨.error e, "", ""⟩ := by
  have hlog : options.showLog [] = "" := by
    unfold Options.showLog
    exact ite_self ""
  cases e with
  | refused path reason =>
    obtain rfl := Session.path_eq_of_refused h
    exact absurd rfl (he reason)
  | _ => simp only [scanSource, Session.openFile_of_error h, hlog]

lemma tokenizeFile_of_ok (h : (Session.openFile fs config source).1 = .ok s) :
    (tokenizeFile fs config source).1 = .ok s.drain.1 := by
  have hopen : Session.openFile fs config source = (.ok s, [.opened source]) := Session.opens_of_openFile h
  simp only [tokenizeFile, hopen]
  rfl

lemma step_tokenizeFile (fs : FileSystem) (w : Workspace) (config : Config) (path : String)
    {tokens : List Token} (h : (tokenizeFile fs config path).1 = .ok tokens) :
    (w.step fs (.tokenizeFile path (some config.toEntries))).1.result =
      .ok (.texts (tokens.map Token.render)) := by
  have hconfig : w.config (some config.toEntries) = .ok config := Config.ofEntries_toEntries config
  rcases hfile : tokenizeFile fs config path with ⟨made, log⟩
  rw [hfile] at h
  dsimp only at h
  subst h
  simp only [Workspace.step, Workspace.withConfig, hconfig, hfile]
  rfl

lemma scanSource_quiet (options : Options) (quiet : Bool) :
    (scanSource fs source { options with quiet } config).status =
        (scanSource fs source options config).status ∧
      (scanSource fs source { options with quiet } config).stderr =
        (scanSource fs source options config).stderr := by
  rcases hopen : Session.openFile fs config source with ⟨made, log⟩
  cases made with
  | ok s =>
    have hs : (Session.openFile fs config source).1 = .ok s := by rw [hopen]
    rw [scanSource_of_ok hs, scanSource_of_ok hs]
    exact ⟨rfl, rfl⟩
  | error e =>
    simp only [scanSource, hopen]
    cases e <;> exact ⟨rfl, rfl⟩

lemma scanSource_verbose (options : Options) (verbose : Bool) :
    (scanSource fs source { options with verbose } config).status =
        (scanSource fs source options config).status ∧
      (scanSource fs source { options with verbose } config).stdout =
        (scanSource fs source options config).stdout := by
  simp only [scanSource]
  rcases Session.openFile fs config source with ⟨s | e, log⟩
  · cases s <;> exact ⟨rfl, rfl⟩
  · exact ⟨rfl, rfl⟩

lemma run_of_parse {args : List String} {options : Options} (hparse : parse args = .ok (source, options))
    (hconfig : options.config = .ok config) : run fs args = scanSource fs source options config := by
  simp only [run, hparse, hconfig]

/-- A run looks at no path but the one it opens. -/
theorem run_congr {fs' : FileSystem} {args : List String}
    (h : ∀ source ∈ opened? args, fs' source = fs source) : run fs' args = run fs args := by
  cases hparse : parse args with
  | error stop =>
    simp only [run, hparse]
    cases stop <;> rfl
  | ok found =>
    obtain ⟨source, options⟩ := found
    cases hconfig : options.config with
    | error e => simp only [run, hparse, hconfig]
    | ok config =>
      have hopened : opened? args = some source := by simp only [opened?, hparse, hconfig]
      have hsource : fs' source = fs source := h source hopened
      rw [run_of_parse hparse hconfig, run_of_parse hparse hconfig]
      simp only [scanSource, Session.openFile_congr hsource]

/-- A run shows the tokens that the file has under the configuration of its command line, which are
those that the library gives for it whatever configuration is active there. It ends with the counts of
these tokens and tells of its records only if it is asked to. A source that is refused is an error, and
nothing is shown. -/
theorem run_shows_tokens (fs : FileSystem) (args : List String) (source : String)
    (options : Options) (limit : Nat) (encoding : String) (hlimit : 0 < limit)
    (hparse : parse args = .ok (source, options)) (hoption : options.limit = .int limit)
    (hencoding : options.encoding = .text encoding) :
    let config : Config := ⟨limit, .bool options.separators, .text encoding, hlimit⟩
    let outcome := run fs args
    (∀ path reason, (Session.openFile fs config source).1 = .error (.refused path reason) →
      path = source ∧ outcome = ⟨.ok 1, "",
        "minilex: error: cannot open source '" ++ source ++ "': " ++ reason.message ++ "\n"⟩) ∧
    (∀ s, (Session.openFile fs config source).1 = .ok s →
      ∃ front last, (tokenizeFile fs config source).1 = .ok (front ++ [last]) ∧
        (∀ t ∈ front, t.kind ≠ .eof) ∧ last.kind = .eof ∧
        (∀ w : Workspace, (w.step fs (.tokenizeFile source (some config.toEntries))).1.result =
          .ok (.texts ((front ++ [last]).map Token.render))) ∧
        let tokens := front ++ [last]
        let diagnostics := s.finish.2.1.diagnostics
        outcome.Shows options.quiet options.verbose source tokens diagnostics ∧
        diagnostics.countP (·.code == "L001") = tokens.countP Token.isInvalid) ∧
    (∀ args' quiet, parse args' = .ok (source, { options with quiet }) →
      (run fs args').status = outcome.status ∧ (run fs args').stderr = outcome.stderr) ∧
    (∀ args' verbose, parse args' = .ok (source, { options with verbose }) →
      (run fs args').status = outcome.status ∧ (run fs args').stdout = outcome.stdout) := by
  intro config outcome
  have hconfig (options' : Options) (hlimit' : options'.limit = options.limit)
      (hseparators : options'.separators = options.separators)
      (hencoding' : options'.encoding = options.encoding) : options'.config = .ok config := by
    simp [Options.config, Config.make, Config.limit?, hlimit', hseparators, hencoding', hoption, hencoding,
      hlimit, config]
  have houtcome : outcome = scanSource fs source options config :=
    run_of_parse hparse (hconfig options rfl rfl rfl)
  refine ⟨?_, ?_, ?_, ?_⟩
  · intro path reason hrefused
    obtain rfl := Session.path_eq_of_refused hrefused
    exact ⟨rfl, houtcome.trans (scanSource_of_refused hrefused options)⟩
  · intro s hs
    obtain ⟨⟨front, last, htokens, hfront, hlast⟩, -⟩ := s.scanner.drain_ends s.cursor
    have hdrain : s.drain.1 = front ++ [last] := htokens
    have hfile : (tokenizeFile fs config source).1 = .ok (front ++ [last]) := by
      rw [tokenizeFile_of_ok hs, hdrain]
    refine ⟨front, last, hfile, hfront, hlast, fun w => step_tokenizeFile fs w config source hfile, ?_⟩
    have hshows := shows_scanSource hs options
    obtain ⟨text, -, rfl⟩ := (Session.opens_of_openFile hs).eq_start
    have hcount := Session.countP_diagnostics_drain config { rest := text, source := some source }
    rw [hdrain] at hshows hcount
    rw [houtcome]
    exact ⟨hshows, hcount⟩
  · intro args' quiet hparse'
    rw [houtcome, run_of_parse hparse' (hconfig _ rfl rfl rfl)]
    exact scanSource_quiet options quiet
  · intro args' verbose hparse'
    rw [houtcome, run_of_parse hparse' (hconfig _ rfl rfl rfl)]
    exact scanSource_verbose options verbose

/-- A keyword and a character that no lexeme has, with the records asked for. -/
theorem run_shows_tokens_of_verbose_run :
    let outcome := run (fun _ => .ok (.ok [0x69, 0x66, 0x20, 0x40])) ["-v", "f"]
    outcome.status = .ok 0 ∧
      outcome.stdout = "1:0\tKEYWORD\t'if'\n1:3\tINVALID\t'@'\n1:4\tEOF\t''\n" ∧
      outcome.stderr = "minilex.session: DEBUG: Opened source f\n" ++
        "minilex.lexer.scanners.symbol: DEBUG: f:1:3: error L001: invalid character '@'\n" ++
        "minilex.session: DEBUG: Closed source f\n" ++ "f: 3 tokens, 1 invalid\n" := by
  intro outcome
  let s : Session := .start default { rest := ['i', 'f', ' ', '@'], source := some "f" }
  have hdrain : s.drain.1 = [⟨.keyword, "if", ⟨⟨1, 0⟩, some "f"⟩⟩,
        ⟨.invalid, "@", ⟨⟨1, 3⟩, some "f"⟩⟩, ⟨.eof, "", ⟨⟨1, 4⟩, some "f"⟩⟩] ∧
      s.finish.2.1.diagnostics = [.invalidCharacter '@' ⟨⟨1, 3⟩, some "f"⟩] := by
    rw [Session.finish, Session.drain_of_ne_eof (by decide)]
    dsimp only
    rw [Session.drain_of_ne_eof (by decide)]
    dsimp only
    rw [Session.drain_of_eof (by decide)]
    exact ⟨rfl, rfl⟩
  have hflag : Arg.ofString "-v" = .option .short .verbose none := by decide
  have hplace : Arg.ofString "f" = .positional := by decide
  have hparse : parse ["-v", "f"] = .ok ("f", { source := some "f", verbose := true }) := by
    simp [parse, ambiguity?, readArgs, hflag, hplace, Opt.takesValue, Options.set, Options.addPositional,
      bind, Except.bind]
  obtain ⟨front, last, htokens, -, -, -, hshows, -⟩ :=
    (run_shows_tokens (fun _ => .ok (.ok [0x69, 0x66, 0x20, 0x40])) ["-v", "f"] "f"
      { source := some "f", verbose := true } 256 "utf-8" (by decide) hparse rfl rfl).2.1 s rfl
  have hlist : front ++ [last] = s.drain.1 := Except.ok.inj (htokens.symm.trans (tokenizeFile_of_ok rfl))
  rw [hlist, hdrain.1, hdrain.2] at hshows
  refine ⟨hshows.status_eq, hshows.stdout_eq.trans ?_, hshows.stderr_eq.trans ?_⟩
  · decide +kernel
  · decide +kernel

end CommandLine

end Munch
