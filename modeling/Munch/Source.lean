import Munch.Session

/-!
# Sources that are shared

One cursor may be read by any number of scanners and sessions, in turns. A source is a cursor
together with all of them, and `act` is everything that can happen to it. Nothing outside a source
is touched by its actions.
-/

namespace Munch

/-- A cursor and the scanners that read it. -/
structure Source where
  cursor : Cursor
  /-- In the order in which they were attached. -/
  scanners : List Scanner := []

namespace Source

inductive Action where
  | advance
  | attach (config : Config)
  | scan (number : Nat)
  | closeCursor
  /-- The cursor is closed by a session, which records it. -/
  | closeSession

def Action.closes : Action → Bool
  | .closeCursor | .closeSession => true
  | .advance | .attach _ | .scan _ => false

inductive Yield where
  | nothing
  | char (c : Option Char)
  | token (t : Token)
  deriving DecidableEq, Repr

structure Step where
  yield : Yield
  source : Source
  log : List Record

def update (s : Source) (number : Nat) (scanner : Scanner) (c : Cursor) : Source :=
  ⟨c, s.scanners.set number scanner⟩

/-- The session that the scanner with this number makes with the cursor. -/
def session? (s : Source) (number : Nat) : Option Session :=
  s.scanners[number]?.map (⟨·, s.cursor⟩)

/-- One action. A number that no scanner has does nothing. -/
def act (s : Source) : Action → Step
  | .advance => ⟨.char s.cursor.advance.1, { s with cursor := s.cursor.advance.2 }, []⟩
  | .attach config =>
    ⟨.nothing, { s with scanners := s.scanners ++ [.start config s.cursor] }, []⟩
  | .scan number =>
    match s.scanners[number]? with
    | none => ⟨.nothing, s, []⟩
    | some scanner =>
      let scan := scanner.scan s.cursor
      ⟨.token scan.token, s.update number scan.scanner scan.cursor, scan.log⟩
  | .closeCursor => ⟨.nothing, { s with cursor := s.cursor.close }, []⟩
  | .closeSession => ⟨.nothing, { s with cursor := s.cursor.release.1 }, s.cursor.release.2⟩

def run (s : Source) : List Action → List Yield × Source × List Record
  | [] => ([], s, [])
  | a :: rest =>
    let step := s.act a
    let (yields, last, log) := step.source.run rest
    (step.yield :: yields, last, step.log ++ log)

/-- What an action does to the stream. A session leaves a cursor alone that is closed. -/
def streamEvents (s : Source) : Action → List StreamEvent
  | .closeCursor => s.cursor.closing
  | .closeSession => if s.cursor.closed then [] else s.cursor.closing
  | .advance | .attach _ | .scan _ => []

def allStreamEvents (s : Source) : List Action → List StreamEvent
  | [] => []
  | a :: rest => s.streamEvents a ++ (s.act a).source.allStreamEvents rest

def drain (s : Source) (number : Nat) : List Token × Source × List Record :=
  match s.scanners[number]? with
  | none => ([], s, [])
  | some scanner =>
    let scans := scanner.drain s.cursor
    (scans.tokens, s.update number scans.scanner scans.cursor, scans.log)

def ofSession (s : Session) : Source := ⟨s.cursor, [s.scanner]⟩

theorem act_scan {s : Source} {number : Nat} {scanner : Scanner}
    (h : s.scanners[number]? = some scanner) :
    s.act (.scan number) =
      ⟨.token (scanner.scan s.cursor).token,
        s.update number (scanner.scan s.cursor).scanner (scanner.scan s.cursor).cursor,
        (scanner.scan s.cursor).log⟩ := by
  simp only [act, h]

theorem act_scan_of_none {s : Source} {number : Nat} (h : s.scanners[number]? = none) :
    s.act (.scan number) = ⟨.nothing, s, []⟩ := by
  simp only [act, h]

@[simp] theorem run_nil (s : Source) : s.run [] = ([], s, []) := rfl

def reads (yields : List Yield) : List (Option Char) :=
  yields.filterMap fun | .char c => some c | _ => none

def tokens (yields : List Yield) : List Token :=
  yields.filterMap fun | .token t => some t | _ => none

end Source

end Munch
