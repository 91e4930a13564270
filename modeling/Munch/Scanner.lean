import Munch.Cursor
import Munch.Lexeme
import Munch.Log

/-!
# Scanners

A scanner turns what a cursor has left into tokens. It holds its configuration, what it has to say
so far and whether it has found a lexeme yet, but no part of the text, so any number of scanners may
take turns on one cursor. `scan` gives one token; `drain` gives all up to the end of input, where
every further scan gives the same token again.
-/

namespace Munch

structure Scanner where
  config : Config
  /-- Where the cursor was when the scanner was made. -/
  origin : Position
  emitted : Bool := false
  /-- The diagnostics made so far, the latest first. -/
  found : List Diagnostic := []

structure Scan where
  token : Token
  scanner : Scanner
  cursor : Cursor
  log : List Record

structure Scans where
  tokens : List Token
  scanner : Scanner
  cursor : Cursor
  log : List Record

namespace Scanner

def start (config : Config) (c : Cursor) : Scanner := { config, origin := c.position }

/-- The diagnostics made so far, in the order of the source. -/
def diagnostics (s : Scanner) : List Diagnostic := s.found.reverse

/-- The token for the end of input: at the cursor, or where the scanner began if it has found
nothing but blanks. -/
def eof (s : Scanner) (c : Cursor) : Token :=
  ⟨.eof, "", (if s.emitted then c.position else s.origin).of c.source⟩

def note (s : Scanner) (found : Option Diagnostic) : Scanner :=
  { s with emitted := true, found := found.toList ++ s.found }

/-- Skips blanks and takes the lexeme after them. -/
def scan (s : Scanner) (c : Cursor) : Scan :=
  let c := c.skip .whitespace
  match Lexeme.read? c.rest with
  | none => ⟨s.eof c, s, c, []⟩
  | some l =>
    let location := c.position.of c.source
    let found := l.diagnostic? s.config location
    ⟨l.token s.config location, s.note found, c.consume l.chars.length,
      found.toList.map .ofDiagnostic⟩

@[simp] theorem diagnostics_note (s : Scanner) (found : Option Diagnostic) :
    (s.note found).diagnostics = s.diagnostics ++ found.toList := by
  cases found <;> simp [note, diagnostics]

theorem scan_of_none {s : Scanner} {c : Cursor}
    (h : Lexeme.read? (c.skip .whitespace).rest = none) :
    s.scan c = ⟨s.eof (c.skip .whitespace), s, c.skip .whitespace, []⟩ := by
  simp only [scan, h]

theorem scan_of_some {s : Scanner} {c : Cursor} {l : Lexeme}
    (h : Lexeme.read? (c.skip .whitespace).rest = some l) :
    s.scan c =
      let location := (c.skip .whitespace).position.of c.source
      let found := l.diagnostic? s.config location
      ⟨l.token s.config location, s.note found, (c.skip .whitespace).consume l.chars.length,
        found.toList.map .ofDiagnostic⟩ := by
  simp only [scan, h, Cursor.source_skip]

/-- A token of another kind than the end of input uses up some of the text. -/
theorem rest_scan_lt {s : Scanner} {c : Cursor} (h : (s.scan c).token.kind ≠ .eof) :
    (s.scan c).cursor.rest.length < c.rest.length := by
  cases hl : Lexeme.read? (c.skip .whitespace).rest with
  | none => simp [scan_of_none hl, eof] at h
  | some l =>
    have skipped : (c.skip .whitespace).rest.length ≤ c.rest.length := by simp [Cursor.skip]
    have whole := congrArg List.length (Lexeme.chars_append_drop_of_read? hl)
    have nonempty := List.length_pos_iff.mpr (Lexeme.chars_ne_nil_of_read? hl)
    simp only [List.length_append, List.length_drop] at whole
    simp only [scan_of_some hl, Cursor.rest_consume, List.length_drop]
    omega

/-- Takes tokens until the end of input is reached; that token comes last. -/
def drain (s : Scanner) (c : Cursor) : Scans :=
  match _h : s.scan c with
  | ⟨token, s', c', log⟩ =>
    if _more : token.kind = .eof then ⟨[token], s', c', log⟩
    else
      let others := drain s' c'
      ⟨token :: others.tokens, others.scanner, others.cursor, log ++ others.log⟩
termination_by c.rest.length
decreasing_by
  have := rest_scan_lt (s := s) (c := c)
  rw [_h] at this
  exact this _more

def scans : Nat → Scanner → Cursor → Scans
  | 0, s, c => ⟨[], s, c, []⟩
  | n + 1, s, c =>
    let one := s.scan c
    let others := scans n one.scanner one.cursor
    ⟨one.token :: others.tokens, others.scanner, others.cursor, one.log ++ others.log⟩

theorem drain_of_eof {s : Scanner} {c : Cursor} (h : (s.scan c).token.kind = .eof) :
    s.drain c =
      ⟨[(s.scan c).token], (s.scan c).scanner, (s.scan c).cursor, (s.scan c).log⟩ := by
  rw [drain]
  split
  next token s' c' log hs =>
    simp only [hs] at h ⊢
    rw [dif_pos h]

theorem drain_of_ne_eof {s : Scanner} {c : Cursor} (h : (s.scan c).token.kind ≠ .eof) :
    s.drain c =
      let others := (s.scan c).scanner.drain (s.scan c).cursor
      ⟨(s.scan c).token :: others.tokens, others.scanner, others.cursor,
        (s.scan c).log ++ others.log⟩ := by
  rw [drain]
  split
  next token s' c' log hs =>
    simp only [hs] at h ⊢
    rw [dif_neg h]

end Scanner

end Munch
