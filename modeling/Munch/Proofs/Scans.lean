import Munch.Proofs.Advances
import Munch.Proofs.Drain

/-!
# What some scans make of a text

Scans that stop short of a drain give the first lexemes of the text and leave the cursor right after the last
of them. Scans past the end of input give it again and again (`Scanner.scans_of_cut`).
-/

namespace Munch

namespace Scanner

variable {c : Cursor} {p : Piece} {ps : List Piece} {tail : List Char}

lemma scans_of_blanks (h : Cut c.rest [] tail) (s : Scanner) (n : Nat) :
    s.scans (n + 1) c =
      ⟨List.replicate (n + 1) (s.eof (c.consume c.rest.length)), s, c.consume c.rest.length, []⟩ := by
  induction n generalizing c tail with
  | zero =>
    rw [scans, scan_of_blanks h]
    rfl
  | succ n ih =>
    have hnothing : (c.consume c.rest.length).rest = [] := by
      rw [Cursor.rest_consume, List.drop_length]
    have hblank : Cut (c.consume c.rest.length).rest [] [] := by
      rw [hnothing]
      exact .blanks (by simp [Blank])
    have hstay : (c.consume c.rest.length).consume (c.consume c.rest.length).rest.length =
        c.consume c.rest.length := by
      rw [Cursor.consume_consume, hnothing]
      rfl
    rw [scans, scan_of_blanks h, ih hblank, hstay]
    rfl

/-- Each scan gives a lexeme while there is one, and then the end of input. -/
theorem scans_of_cut (h : Cut c.rest ps tail) (s : Scanner) (n : Nat) :
    s.scans n c =
      let os := occurrences [] (ps.take n)
      let last := s.notes c.position c.source os
      let reached := c.consume
        (if n ≤ ps.length then ((ps.take n).flatMap Piece.chars).length else c.rest.length)
      ⟨os.map (·.token s.config c.position c.source) ++
          List.replicate (n - ps.length) (last.eof reached), last, reached,
        (os.filterMap (·.diagnostic? s.config c.position c.source)).map .ofDiagnostic⟩ := by
  induction ps generalizing c s n with
  | nil =>
    cases n with
    | zero => simp [scans, c.consume_zero]
    | succ n =>
      rw [scans_of_blanks h]
      simp
  | cons p ps ih =>
    cases n with
    | zero => simp [scans, c.consume_zero]
    | succ n =>
      obtain ⟨hchars, hrest⟩ := h.drop_cons
      have hlength : p.chars.length + (c.rest.length - p.chars.length) = c.rest.length :=
        Nat.add_sub_of_le h.length_chars_le
      have hreached : p.chars.length +
          (if n ≤ ps.length then ((ps.take n).flatMap Piece.chars).length
            else c.rest.length - p.chars.length) =
          if n + 1 ≤ ps.length + 1 then (((p :: ps).take (n + 1)).flatMap Piece.chars).length
            else c.rest.length := by
        by_cases hn : n ≤ ps.length
        · rw [if_pos hn, if_pos (Nat.succ_le_succ hn), List.take_succ_cons, List.flatMap_cons,
            List.length_append]
        · rw [if_neg hn, if_neg (by omega), hlength]
      rw [scans, scan_of_piece h, ih hrest]
      simp only [Cursor.position_consume, Cursor.source_consume, Cursor.rest_consume, hchars,
        List.length_drop, Cursor.consume_consume, hreached, notes_cons, map_token_cons,
        filterMap_diagnostic?_cons, List.map_append, List.cons_append, List.length_cons,
        List.take_succ_cons, Nat.add_sub_add_right]
      rfl

/-- A new scanner ends where it was made until it has found a lexeme. -/
lemma eof_notes (config : Config) (c d : Cursor) (q : Position) (source : Option String)
    (os : List Occurrence) :
    ((start config c).notes q source os).eof d =
      ⟨.eof, "", (if os = [] then c.position else d.position).of d.source⟩ := by
  cases os <;> simp [notes, start, eof]

/-- What a new scanner makes of a text, by its pieces. -/
lemma scans_start (h : Cut c.rest ps tail) (config : Config) (n : Nat) :
    let os := occurrences [] (ps.take n)
    let reached := c.consume
      (if n ≤ ps.length then ((ps.take n).flatMap Piece.chars).length else c.rest.length)
    let ending : Token := ⟨.eof, "", (if os = [] then c.position else reached.position).of c.source⟩
    let scans := (start config c).scans n c
    scans.tokens = os.map (·.token config c.position c.source) ++ List.replicate (n - ps.length) ending ∧
      scans.cursor = reached ∧ scans.scanner.eof reached = ending ∧
      scans.scanner.diagnostics = os.filterMap (·.diagnostic? config c.position c.source) := by
  intro os reached ending scans
  have hscans : scans = _ := scans_of_cut h (start config c) n
  have hending : ((start config c).notes c.position c.source os).eof reached = ending :=
    eof_notes config c reached c.position c.source os
  rw [hscans]
  refine ⟨?_, rfl, hending, ?_⟩
  · rw [← hending]
    rfl
  · simp [diagnostics, notes, start, os]

/-- Scans take from what a drain gives, and past its end of input that is given again. -/
theorem tokens_scans (s : Scanner) (c : Cursor) (n : Nat) :
    ∃ tokens ending, (s.drain c).tokens = tokens ++ [ending] ∧
      (s.scans n c).tokens = (tokens ++ List.replicate n ending).take n := by
  obtain ⟨ps, tail, hcut⟩ := exists_cut c.rest
  refine ⟨_, _, congrArg Scans.tokens (drain_of_cut hcut s), ?_⟩
  rw [scans_of_cut hcut, List.take_append, List.length_map, length_occurrences, List.take_replicate,
    Nat.min_eq_left (Nat.sub_le n ps.length), ← List.map_take, ← occurrences_take]
  by_cases hn : n ≤ ps.length
  · rw [Nat.sub_eq_zero_of_le hn]
    rfl
  · rw [List.take_of_length_le (Nat.le_of_not_le hn), if_neg hn]

end Scanner

end Munch
