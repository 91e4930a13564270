import Munch.Proofs.Cut
import Munch.Scanner

/-!
# Occurrences of lexemes

An occurrence is a lexeme together with all of the text before it. That text gives the place of the
lexeme both as a number of characters and as a line and a column, so everything that a scanner says
of a lexeme can be read off its occurrence.
-/

namespace Munch

/-- The kind and the text of a token. -/
structure Spelling where
  kind : TokenKind
  text : String
  deriving DecidableEq, Repr

def Token.spelling (t : Token) : Spelling := ⟨t.kind, t.text⟩

def Lexeme.spelling (config : Config) (l : Lexeme) : Spelling := ⟨l.kind config, l.kept config⟩

/-- The same remark on another place. -/
def Diagnostic.relocate (f : Location → Location) (d : Diagnostic) : Diagnostic :=
  { d with location := f d.location }

/-- What is said of a lexeme depends on its place only by naming it. -/
lemma Lexeme.diagnostic?_relocate (config : Config) (f : Location → Location) (location : Location)
    (l : Lexeme) :
    l.diagnostic? config (f location) =
      (l.diagnostic? config location).map (Diagnostic.relocate f) := by
  unfold diagnostic?
  by_cases htrunc : l.truncated config = true
  · rw [if_pos htrunc, if_pos htrunc]
    rfl
  · rw [if_neg htrunc, if_neg htrunc]
    cases l with
    | word run => rfl
    | number run => rfl
    | symbol c =>
      by_cases hinvalid : (symbol c).kind config = .invalid
      · simp only [hinvalid, if_true]
        rfl
      · simp only [hinvalid, if_false]
        rfl

/-- A lexeme in a text, with all that stands before it. -/
structure Occurrence where
  before : List Char
  lexeme : Lexeme
  deriving DecidableEq, Repr

namespace Occurrence

def through (o : Occurrence) : List Char := o.before ++ o.lexeme.chars

/-- The same lexeme in a text that has `front` in front. -/
def within (front : List Char) (o : Occurrence) : Occurrence :=
  { o with before := front ++ o.before }

def location (p : Position) (source : Option String) (o : Occurrence) : Location :=
  (p.after o.before).of source

def token (config : Config) (p : Position) (source : Option String) (o : Occurrence) : Token :=
  o.lexeme.token config (o.location p source)

def diagnostic? (config : Config) (p : Position) (source : Option String) (o : Occurrence) :
    Option Diagnostic :=
  o.lexeme.diagnostic? config (o.location p source)

@[simp] lemma before_within (front : List Char) (o : Occurrence) :
    (o.within front).before = front ++ o.before := rfl

@[simp] lemma lexeme_within (front : List Char) (o : Occurrence) :
    (o.within front).lexeme = o.lexeme := rfl

lemma location_within (front : List Char) (p : Position) (source : Option String)
    (o : Occurrence) : (o.within front).location p source = o.location (p.after front) source := by
  rw [location, before_within, Position.after_append, location]

lemma token_within (config : Config) (front : List Char) (p : Position) (source : Option String)
    (o : Occurrence) :
    (o.within front).token config p source = o.token config (p.after front) source := by
  rw [token, location_within, lexeme_within, token]

lemma diagnostic?_within (config : Config) (front : List Char) (p : Position)
    (source : Option String) (o : Occurrence) :
    (o.within front).diagnostic? config p source =
      o.diagnostic? config (p.after front) source := by
  rw [diagnostic?, location_within, lexeme_within, diagnostic?]

lemma kind_token_ne_eof (config : Config) (p : Position) (source : Option String)
    (o : Occurrence) : (o.token config p source).kind ≠ .eof :=
  o.lexeme.kind_ne_eof config

end Occurrence

/-- The occurrences of the lexemes of pieces that stand right after `front`. -/
def occurrences (front : List Char) : List Piece → List Occurrence
  | [] => []
  | p :: ps => ⟨front ++ p.blanks, p.lexeme⟩ :: occurrences (front ++ p.chars) ps

@[simp] lemma occurrences_nil (front : List Char) : occurrences front [] = [] := rfl

@[simp] lemma length_occurrences (front : List Char) (ps : List Piece) :
    (occurrences front ps).length = ps.length := by
  induction ps generalizing front with
  | nil => rfl
  | cons p ps ih => rw [occurrences, List.length_cons, List.length_cons, ih]

lemma occurrences_take (front : List Char) (ps : List Piece) (n : Nat) :
    occurrences front (ps.take n) = (occurrences front ps).take n := by
  induction ps generalizing front n with
  | nil => rw [List.take_nil, occurrences_nil, List.take_nil]
  | cons p ps ih =>
    cases n with
    | zero => rfl
    | succ n => rw [List.take_succ_cons, occurrences, occurrences, ih, List.take_succ_cons]

lemma map_lexeme_occurrences (front : List Char) (ps : List Piece) :
    (occurrences front ps).map Occurrence.lexeme = ps.map Piece.lexeme := by
  induction ps generalizing front with
  | nil => rfl
  | cons p ps ih => rw [occurrences, List.map_cons, List.map_cons, ih]

lemma exists_piece_of_mem {front : List Char} {ps : List Piece} {o : Occurrence}
    (h : o ∈ occurrences front ps) : ∃ p ∈ ps, p.lexeme = o.lexeme := by
  have hlexeme := List.mem_map_of_mem (f := Occurrence.lexeme) h
  rwa [map_lexeme_occurrences, List.mem_map] at hlexeme

lemma occurrences_append (a b : List Char) (ps : List Piece) :
    occurrences (a ++ b) ps = (occurrences b ps).map (Occurrence.within a) := by
  induction ps generalizing b with
  | nil => rfl
  | cons p ps ih =>
    rw [occurrences, occurrences, List.append_assoc, List.append_assoc, ih, List.map_cons]
    rfl

lemma occurrences_eq_map (front : List Char) (ps : List Piece) :
    occurrences front ps = (occurrences [] ps).map (Occurrence.within front) := by
  rw [← occurrences_append, List.append_nil]

lemma occurrences_cons (p : Piece) (ps : List Piece) :
    occurrences [] (p :: ps) =
      ⟨p.blanks, p.lexeme⟩ :: (occurrences [] ps).map (Occurrence.within p.chars) := by
  rw [occurrences, List.nil_append, List.nil_append, occurrences_eq_map]

lemma occurrences_append_pieces (front : List Char) (ps qs : List Piece) :
    occurrences front (ps ++ qs) =
      occurrences front ps ++ occurrences (front ++ ps.flatMap Piece.chars) qs := by
  induction ps generalizing front with
  | nil => simp
  | cons p ps ih =>
    rw [List.cons_append, occurrences, occurrences, ih, List.flatMap_cons, List.append_assoc,
      List.cons_append]

end Munch
