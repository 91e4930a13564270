import Mathlib.Data.List.Forall2
import Munch.Proofs.Drain

/-!
# Maximal munch

The one cut of a text decides its tokens. A configuration only decides how much of a lexeme is kept
and what it is called, and the rule for that is written down in `Lexeme.HasKind`.
-/

namespace Munch

namespace Lexeme

/-- The kinds of tokens that stand for a lexeme. A word is a keyword by its full text, and only if
all of it is kept. -/
inductive HasKind (config : Config) : Lexeme → TokenKind → Prop
  | keyword {run : List Char} (whole : run.length ≤ config.limit)
      (reserved : String.ofList run ∈ keywords) : HasKind config (word run) .keyword
  | identifier {run : List Char}
      (other : ¬ (run.length ≤ config.limit ∧ String.ofList run ∈ keywords)) :
      HasKind config (word run) .identifier
  | number {run : List Char} : HasKind config (number run) .number
  | operator {c : Char} (mem : c ∈ CharClass.operators) : HasKind config (symbol c) .operator
  | separator {c : Char} (noOperator : c ∉ CharClass.operators)
      (enabled : config.separators.truth = true) (mem : c ∈ CharClass.separators) :
      HasKind config (symbol c) .separator
  | invalid {c : Char} (noOperator : c ∉ CharClass.operators)
      (noSeparator : ¬ (config.separators.truth = true ∧ c ∈ CharClass.separators)) :
      HasKind config (symbol c) .invalid

lemma hasKind_kind (config : Config) (l : Lexeme) : l.HasKind config (l.kind config) := by
  cases l with
  | word run =>
    by_cases h : run.length ≤ config.limit ∧ String.ofList run ∈ keywords
    · have hk : (word run).kind config = .keyword := by
        simp [kind, h.1, isKeyword_iff.mpr h.2]
      rw [hk]
      exact .keyword h.1 h.2
    · have hk : (word run).kind config = .identifier := by
        simp [kind, isKeyword_iff]
        simpa using h
      rw [hk]
      exact .identifier h
  | number run => exact .number
  | symbol c =>
    by_cases hop : c ∈ CharClass.operators
    · have hk : (symbol c).kind config = .operator := by simp [kind, CharClass.holds, hop]
      rw [hk]
      exact .operator hop
    · by_cases hsep : config.separators.truth = true ∧ c ∈ CharClass.separators
      · have hk : (symbol c).kind config = .separator := by
          simp [kind, CharClass.holds, Config.separates, hop, hsep.1, hsep.2]
        rw [hk]
        exact .separator hop hsep.1 hsep.2
      · have hk : (symbol c).kind config = .invalid := by
          simp only [kind, CharClass.holds, Config.separates, List.contains_iff_mem, hop, hsep,
            Bool.and_eq_true, if_false]
        rw [hk]
        exact .invalid hop hsep

end Lexeme

lemma forall₂_occurrences {R : Piece → Occurrence → Prop}
    (h : ∀ (p : Piece) (front : List Char), R p ⟨front ++ p.blanks, p.lexeme⟩) (front : List Char)
    (ps : List Piece) : List.Forall₂ R ps (occurrences front ps) := by
  induction ps generalizing front with
  | nil => exact .nil
  | cons p ps ih => exact .cons (h p front) (ih _)

/-- There is one way to cut a text into blanks and lexemes that cannot go on. The tokens of the
text are one for each lexeme in order, with its first characters up to the limit and the kind that
its full run has, and one more for the end of input. -/
theorem tokenize_maximal_munch (config : Config) (text : String) (source : Option String) :
    (∃! cut : List Piece × List Char, Cut text.toList cut.1 cut.2) ∧
      ∀ pieces tail, Cut text.toList pieces tail →
        ∃ tokens last, (tokenize config text source).1 = tokens ++ [last] ∧
          tokens.length = pieces.length ∧
          List.Forall₂ (fun p t =>
            t.text = String.ofList (p.lexeme.chars.take config.limit) ∧
              p.lexeme.HasKind config t.kind) pieces tokens ∧
          last.kind = .eof ∧ last.text = "" := by
  obtain ⟨pieces, tail, hcut⟩ := exists_cut text.toList
  constructor
  · refine ⟨(pieces, tail), hcut, ?_⟩
    rintro ⟨pieces', tail'⟩ hcut'
    obtain ⟨rfl, rfl⟩ := hcut.unique hcut'
    rfl
  · intro pieces tail h
    refine ⟨_, _, tokenize_of_cut h config source, by simp, ?_, rfl, rfl⟩
    rw [List.forall₂_map_right_iff]
    apply forall₂_occurrences
    intro p front
    exact ⟨rfl, p.lexeme.hasKind_kind config⟩

end Munch
