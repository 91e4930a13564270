import Munch.Opening
import Munch.Scanner

/-!
# Sessions

A session is a scanner with a cursor of its own: it is opened, gives tokens and is closed. Closing
writes a record the first time and does nothing later. Closed or at the end of input, a session goes
on giving the same token.
-/

namespace Munch

/-- Closes a cursor and records it, unless it is closed already. -/
def Cursor.release (c : Cursor) : Cursor × List Record :=
  if c.closed then (c, []) else (c.close, [.closed c.source])

theorem Cursor.closed_release (c : Cursor) : c.release.1.closed = true := by
  unfold release; split <;> simp_all [close]

@[simp] theorem Cursor.release_release (c : Cursor) : c.release.1.release = (c.release.1, []) := by
  simp [release.eq_def c.release.1, closed_release]

/-- A scanner and the cursor that it reads. -/
structure Session where
  scanner : Scanner
  cursor : Cursor

namespace Session

def start (config : Config) (c : Cursor) : Session := ⟨.start config c, c⟩

def ofText (config : Config) (text : String) (source : Option String := none) : Session :=
  start config (.ofText text source)

/-- Opens the file at a path, and records that. The configuration also gives the encoding. -/
def attempt {ε : Type} (codecs : Codecs ε) (fs : FileSystem) (config : Config) (path : String) :
    Except (OpenError ε) Session × List Record :=
  match (Cursor.attempt codecs fs path config.encoding).result with
  | .ok c => (.ok (start config c), [.opened path])
  | .error e => (.error e, [])

def openFile (fs : FileSystem) (config : Config) (path : String) :
    Except OpenError Session × List Record :=
  attempt .builtIn fs config path

theorem openFile_eq (fs : FileSystem) (config : Config) (path : String) :
    openFile fs config path =
      match Cursor.openFile fs path config.encoding with
      | .ok c => (.ok (start config c), [.opened path])
      | .error e => (.error e, []) := by
  unfold openFile attempt Cursor.openFile
  cases (Cursor.attempt .builtIn fs path config.encoding).result <;> rfl

def next (s : Session) : Token × Session × List Record :=
  let scan := s.scanner.scan s.cursor
  (scan.token, ⟨scan.scanner, scan.cursor⟩, scan.log)

/-- All tokens through the first end of input. -/
def drain (s : Session) : List Token × Session × List Record :=
  let scans := s.scanner.drain s.cursor
  (scans.tokens, ⟨scans.scanner, scans.cursor⟩, scans.log)

def close (s : Session) : Session × List Record :=
  ({ s with cursor := s.cursor.release.1 }, s.cursor.release.2)

def diagnostics (s : Session) : List Diagnostic := s.scanner.diagnostics

def render (s : Session) : String :=
  let name := (Text.given? s.cursor.source).getD "<string>"
  let state := if s.cursor.closed then "closed" else s.cursor.position.render
  "Session(" ++ Text.quote name ++ ", " ++ state ++ ")"

def finish (s : Session) : List Token × Session × List Record :=
  let (tokens, s, log) := s.drain
  let (s, closing) := s.close
  (tokens, s, log ++ closing)

@[simp] theorem close_close (s : Session) : s.close.1.close = (s.close.1, []) := by
  simp [close]

theorem closed_close (s : Session) : s.close.1.cursor.closed = true :=
  s.cursor.closed_release

/-- Opens a session for each path, in order. When a path fails, what was opened before it is closed
again, the last one first, and no later path is tried. -/
def openFiles (fs : FileSystem) (config : Config) : List String →
    Except OpenError (List Session) × List Record
  | [] => (.ok [], [])
  | path :: paths =>
    match openFile fs config path with
    | (.error e, log) => (.error e, log)
    | (.ok s, log) =>
      match openFiles fs config paths with
      | (.ok rest, more) => (.ok (s :: rest), log ++ more)
      | (.error e, more) => (.error e, log ++ more ++ s.close.2)

end Session

def tokenize (config : Config) (text : String) (source : Option String := none) :
    List Token × Session × List Record :=
  (Session.ofText config text source).finish

def tokenizeFile (fs : FileSystem) (config : Config) (path : String) :
    Except OpenError (List Token) × List Record :=
  match Session.openFile fs config path with
  | (.ok s, log) => let (tokens, _, more) := s.finish; (.ok tokens, log ++ more)
  | (.error e, log) => (.error e, log)

end Munch
