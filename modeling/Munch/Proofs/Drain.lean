import Mathlib.Data.Nat.Init
import Munch.Proofs.Occurrence
import Munch.Session

/-!
# What a scanner makes of a text

A scan takes the first piece of the cut of what its cursor has left, and a drain takes all of them.
So the tokens and diagnostics of a text are those of the occurrences of its lexemes
(`tokenize_of_cut`), whatever the configuration is.
-/

namespace Munch

lemma Cursor.skip_eq_consume (c : Cursor) (k : CharClass) :
    c.skip k = c.consume (c.rest.takeWhile k.holds).length := rfl

section Said

variable (config : Config) (q : Position) (source : Option String) (p : Piece) (ps : List Piece)

lemma map_token_cons :
    (occurrences [] (p :: ps)).map (·.token config q source) =
      p.lexeme.token config ((q.after p.blanks).of source) ::
        (occurrences [] ps).map (·.token config (q.after p.chars) source) := by
  rw [occurrences_cons, List.map_cons, List.map_map]
  congr 1
  apply List.map_congr_left
  intro o _
  exact Occurrence.token_within config p.chars q source o

lemma filterMap_diagnostic?_cons :
    (occurrences [] (p :: ps)).filterMap (·.diagnostic? config q source) =
      (p.lexeme.diagnostic? config ((q.after p.blanks).of source)).toList ++
        (occurrences [] ps).filterMap (·.diagnostic? config (q.after p.chars) source) := by
  have hmore : ((occurrences [] ps).map (Occurrence.within p.chars)).filterMap
      (·.diagnostic? config q source) =
        (occurrences [] ps).filterMap (·.diagnostic? config (q.after p.chars) source) := by
    rw [List.filterMap_map]
    congr 1
    funext o
    exact Occurrence.diagnostic?_within config p.chars q source o
  rw [occurrences_cons, List.filterMap_cons, hmore, Occurrence.diagnostic?, Occurrence.location]
  cases p.lexeme.diagnostic? config ((q.after p.blanks).of source) <;> rfl

end Said

namespace Scanner

variable {c : Cursor} {p : Piece} {ps : List Piece} {tail : List Char}

/-- The scanner after the lexemes of these occurrences, in a text that began at `q`. -/
def notes (s : Scanner) (q : Position) (source : Option String) (os : List Occurrence) : Scanner :=
  { s with
    emitted := s.emitted || !os.isEmpty
    found := (os.filterMap (·.diagnostic? s.config q source)).reverse ++ s.found }

@[simp] lemma notes_nil (s : Scanner) (q : Position) (source : Option String) :
    s.notes q source [] = s := by
  cases s
  simp [notes]

lemma notes_cons (s : Scanner) (q : Position) (source : Option String) (p : Piece)
    (ps : List Piece) :
    s.notes q source (occurrences [] (p :: ps)) =
      (s.note (p.lexeme.diagnostic? s.config ((q.after p.blanks).of source))).notes
        (q.after p.chars) source (occurrences [] ps) := by
  rw [notes, notes, filterMap_diagnostic?_cons, occurrences_cons]
  simp only [note, List.isEmpty_cons, Bool.not_false, Bool.or_true, Bool.true_or,
    List.reverse_append, List.append_assoc]
  cases p.lexeme.diagnostic? s.config ((q.after p.blanks).of source) <;> rfl

theorem scan_of_blanks (h : Cut c.rest [] tail) (s : Scanner) :
    s.scan c = ⟨s.eof (c.consume c.rest.length), s, c.consume c.rest.length, []⟩ := by
  have hskip : c.skip .whitespace = c.consume c.rest.length := by
    rw [Cursor.skip_eq_consume, List.takeWhile_eq_self_iff.mpr h.of_nil.1]
  have hnone : Lexeme.read? (c.skip .whitespace).rest = none := by
    rw [Cursor.rest_skip, h.read?_nil]
  rw [scan_of_none hnone, hskip]

theorem scan_of_piece (h : Cut c.rest (p :: ps) tail) (s : Scanner) :
    s.scan c =
      let location := (c.position.after p.blanks).of c.source
      let found := p.lexeme.diagnostic? s.config location
      ⟨p.lexeme.token s.config location, s.note found, c.consume p.chars.length,
        found.toList.map .ofDiagnostic⟩ := by
  obtain ⟨hw, hread⟩ := h.read?_cons
  have hsome : Lexeme.read? (c.skip .whitespace).rest = some p.lexeme := by
    rw [Cursor.rest_skip, hread]
  have hblanks : c.rest.take p.blanks.length = p.blanks := by
    have htake := congrArg (List.take p.blanks.length) h.drop_cons.1
    rwa [List.take_take, Piece.chars, List.length_append, Nat.min_eq_left (Nat.le_add_right _ _),
      List.take_left] at htake
  have hposition : (c.skip .whitespace).position = c.position.after p.blanks := by
    rw [Cursor.skip_eq_consume, hw, Cursor.position_consume, hblanks]
  have hcursor : (c.skip .whitespace).consume p.lexeme.chars.length =
      c.consume p.chars.length := by
    rw [Cursor.skip_eq_consume, hw, Cursor.consume_consume, Piece.chars, List.length_append]
  rw [scan_of_some hsome, hposition, hcursor]

theorem drain_of_cut (h : Cut c.rest ps tail) (s : Scanner) :
    s.drain c =
      let os := occurrences [] ps
      let last := s.notes c.position c.source os
      ⟨os.map (·.token s.config c.position c.source) ++ [last.eof (c.consume c.rest.length)], last,
        c.consume c.rest.length,
        (os.filterMap (·.diagnostic? s.config c.position c.source)).map .ofDiagnostic⟩ := by
  induction ps generalizing c s with
  | nil =>
    have hscan := scan_of_blanks h s
    have heof : (s.scan c).token.kind = .eof := by rw [hscan, eof]
    rw [drain_of_eof heof, hscan]
    simp
  | cons p ps ih =>
    have hscan := scan_of_piece h s
    have hmore : (s.scan c).token.kind ≠ .eof := by
      rw [hscan]
      exact p.lexeme.kind_ne_eof s.config
    obtain ⟨hchars, hrest⟩ := h.drop_cons
    have hlength : p.chars.length + (c.rest.length - p.chars.length) = c.rest.length :=
      Nat.add_sub_of_le h.length_chars_le
    rw [drain_of_ne_eof hmore, hscan, ih hrest]
    simp only [Cursor.position_consume, Cursor.source_consume, Cursor.rest_consume, hchars,
      List.length_drop, Cursor.consume_consume, hlength, notes_cons, map_token_cons,
      filterMap_diagnostic?_cons, List.map_append, List.cons_append]
    rfl

lemma drain_eq_scans (s : Scanner) (c : Cursor) :
    s.drain c = s.scans (s.drain c).tokens.length c := by
  induction hn : c.rest.length using Nat.strong_induction_on generalizing s c with
  | _ n ih =>
    by_cases heof : (s.scan c).token.kind = .eof
    · rw [drain_of_eof heof]
      simp [scans]
    · subst hn
      have hrest := ih _ (rest_scan_lt heof) (s.scan c).scanner (s.scan c).cursor rfl
      rw [drain_of_ne_eof heof]
      simp only [List.length_cons, scans, ← hrest]

lemma length_scans (s : Scanner) (c : Cursor) (n : Nat) : (s.scans n c).tokens.length = n := by
  induction n generalizing s c with
  | zero => rfl
  | succ n ih => rw [scans, List.length_cons, ih]

end Scanner

/-- The tokens of a text but for the end of input. -/
def lexemeTokens (config : Config) (text : String) (source : Option String := none) :
    List Token :=
  (tokenize config text source).1.filter fun t => !t.isEof

def diagnostics (config : Config) (text : String) (source : Option String := none) :
    List Diagnostic :=
  (tokenize config text source).2.1.diagnostics

section Texts

variable {text : String} {ps : List Piece} {tail : List Char}

/-- The tokens of a text are those of its lexemes, and the end of input: at the end of the text, or
at its start if it has no lexeme. -/
theorem tokenize_of_cut (h : Cut text.toList ps tail) (config : Config) (source : Option String) :
    (tokenize config text source).1 =
      (occurrences [] ps).map (·.token config .start source) ++
        [⟨.eof, "", (if ps = [] then .start else Position.start.after text.toList).of source⟩] := by
  have hdrain := Scanner.drain_of_cut (c := .ofText text source) h
    (.start config (.ofText text source))
  have hempty : (occurrences [] ps).isEmpty = decide (ps = []) := by
    cases ps <;> rfl
  simp only [tokenize, Session.finish, Session.drain, Session.ofText, Session.start, hdrain]
  simp only [Scanner.notes, Scanner.start, Scanner.eof, Cursor.ofText, Cursor.position_consume,
    Cursor.source_consume, List.take_length, Bool.false_or, hempty]
  by_cases hps : ps = [] <;> simp [hps]

lemma lexemeTokens_of_cut (h : Cut text.toList ps tail) (config : Config)
    (source : Option String) :
    lexemeTokens config text source =
      (occurrences [] ps).map (·.token config .start source) := by
  rw [lexemeTokens, tokenize_of_cut h, List.filter_append]
  have hkeep : ((occurrences [] ps).map (·.token config .start source)).filter
      (fun t => !t.isEof) = (occurrences [] ps).map (·.token config .start source) := by
    apply List.filter_eq_self.mpr
    intro t ht
    obtain ⟨o, -, rfl⟩ := List.mem_map.mp ht
    simp [Token.isEof, Occurrence.kind_token_ne_eof]
  rw [hkeep]
  simp [Token.isEof]

lemma spellings_of_cut (h : Cut text.toList ps tail) (config : Config) (source : Option String) :
    (lexemeTokens config text source).map Token.spelling =
      ps.map fun p => p.lexeme.spelling config := by
  have hlexemes := congrArg (List.map (Lexeme.spelling config)) (map_lexeme_occurrences [] ps)
  rw [List.map_map, List.map_map] at hlexemes
  rw [lexemeTokens_of_cut h, List.map_map]
  exact hlexemes

lemma diagnostics_of_cut (h : Cut text.toList ps tail) (config : Config)
    (source : Option String) :
    diagnostics config text source =
      (occurrences [] ps).filterMap (·.diagnostic? config .start source) := by
  have hdrain := Scanner.drain_of_cut (c := .ofText text source) h
    (.start config (.ofText text source))
  simp only [diagnostics, tokenize, Session.finish, Session.drain, Session.ofText, Session.start,
    Session.close, Session.diagnostics, hdrain]
  simp [Scanner.diagnostics, Scanner.notes, Scanner.start, Cursor.ofText]

end Texts

end Munch
