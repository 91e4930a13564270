import Munch.CommandLine.Parse
import Munch.Session

/-!
# The command line

The program scans one source. It takes the tokens one after another, prints each on a line of its own
and counts them, and prints a summary to the other stream. Its status is 0 when the source was opened,
whatever was found in it, 1 when the source was refused and 2 when the command line was wrong.
-/

namespace Munch.CommandLine

/-- What a run of the program leaves behind. A source whose encoding or path makes no sense to the
file system ends it without a status. -/
structure Outcome where
  status : Except OpenError Nat
  stdout : String := ""
  stderr : String := ""

def Options.config (options : Options) : Except InvalidLimit Config :=
  Config.make options.limit (.bool options.separators) options.encoding

/-- The records as they are shown, if they are asked for. -/
def Options.showLog (options : Options) (log : List Record) : String :=
  if options.verbose then unlines (log.map Record.render) else ""

structure Tally where
  printed : String := ""
  tokens : Nat := 0
  invalid : Nat := 0

namespace Tally

def add (quiet : Bool) (n : Tally) (t : Token) : Tally :=
  { printed := if quiet then n.printed else n.printed ++ t.listing ++ "\n"
    tokens := n.tokens + 1
    invalid := if t.isInvalid then n.invalid + 1 else n.invalid }

/-- Takes the tokens of a session through the end of input. -/
def addAll (quiet : Bool) (n : Tally) (s : Session) : Tally × Session × List Record :=
  match _h : s.next with
  | (token, s', log) =>
    if _more : token.kind = .eof then (n.add quiet token, s', log)
    else
      let (last, s'', others) := addAll quiet (n.add quiet token) s'
      (last, s'', log ++ others)
termination_by s.cursor.rest.length
decreasing_by
  have := Scanner.rest_scan_lt (s := s.scanner) (c := s.cursor)
  rw [Session.next, Prod.mk.injEq, Prod.mk.injEq] at _h
  obtain ⟨rfl, rfl, -⟩ := _h
  exact this _more

theorem addAll_of_eof {quiet : Bool} {n : Tally} {s : Session} (h : s.next.1.kind = .eof) :
    n.addAll quiet s = (n.add quiet s.next.1, s.next.2) := by
  rw [addAll]
  split
  next token s' log hs =>
    simp only [hs] at h ⊢
    rw [dif_pos h]

theorem addAll_of_ne_eof {quiet : Bool} {n : Tally} {s : Session} (h : s.next.1.kind ≠ .eof) :
    n.addAll quiet s =
      let others := addAll quiet (n.add quiet s.next.1) s.next.2.1
      (others.1, others.2.1, s.next.2.2 ++ others.2.2) := by
  rw [addAll]
  split
  next token s' log hs =>
    simp only [hs] at h ⊢
    rw [dif_neg h]

def summary (n : Tally) (source : String) : String :=
  source ++ ": " ++ toString n.tokens ++ " tokens, " ++ toString n.invalid ++ " invalid\n"

end Tally

def scanSource (fs : FileSystem) (source : String) (options : Options) (config : Config) : Outcome :=
  match Session.openFile fs config source with
  | (.ok s, opening) =>
    let (n, s, log) := Tally.addAll options.quiet {} s
    let (_, closing) := s.close
    { status := .ok 0
      stdout := n.printed
      stderr := options.showLog (opening ++ log ++ closing) ++ n.summary source }
  | (.error (.refused path reason), log) =>
    { status := .ok 1
      stderr := options.showLog log ++ errorLine (OpenError.refused path reason).message }
  | (.error e, log) => { status := .error e, stderr := options.showLog log }

/-- The path that a run opens, if it gets so far. -/
def opened? (args : List String) : Option String :=
  match parse args with
  | .error _ => none
  | .ok (source, options) =>
    match options.config with
    | .error _ => none
    | .ok _ => some source

def run (fs : FileSystem) (args : List String) : Outcome :=
  match parse args with
  | .error .help => { status := .ok 0, stdout := help }
  | .error .version => { status := .ok 0, stdout := program ++ " " ++ version ++ "\n" }
  | .error (.error e) => { status := .ok 2, stderr := e.report }
  | .ok (source, options) =>
    match options.config with
    | .error e => { status := .ok 2, stderr := (UsageError.config e).report }
    | .ok config => scanSource fs source options config

end Munch.CommandLine
