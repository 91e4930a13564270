import Munch.Proofs.Closing
import Munch.Proofs.Gluing

/-!
# Readers that begin in the middle

A reader holds no part of the text, so one that is made where others have stopped reads the rest as a text of
its own: what it gives and says of the rest is moved to where it began (`Scanner.drain_start`), wherever
that is, also within a word or between a carriage return and a line feed (`Source.drain_midway`).
-/

namespace Munch

section Rest

variable (config : Config) (base : Position) (source : Option String) (os : List Occurrence)

lemma map_token_based :
    os.map (·.token config base source) =
      (os.map (·.token config .start source)).map (Token.shift base) := by
  rw [List.map_map]
  apply List.map_congr_left
  intro o _
  exact o.token_shift config base source

lemma filterMap_diagnostic?_based :
    os.filterMap (·.diagnostic? config base source) =
      (os.filterMap (·.diagnostic? config .start source)).map (Diagnostic.shift base) := by
  rw [List.map_filterMap]
  congr 1
  funext o
  exact o.diagnostic?_shift config base source

end Rest

namespace Scanner

/-- A reader ends at the end of what it was made for, or where it was made if there is no lexeme. -/
lemma eof_notes_start (config : Config) (c : Cursor) (ps : List Piece) :
    ((start config c).notes c.position c.source (occurrences [] ps)).eof (c.consume c.rest.length) =
      Token.shift c.position
        ⟨.eof, "", (if ps = [] then .start else Position.start.after c.rest).of c.source⟩ := by
  rw [eof_notes, Token.shift, Location.shift, Position.toPosition_of, Cursor.source_consume]
  congr 2
  cases ps with
  | nil => exact (Position.shift_start c.position).symm
  | cons p ps =>
    rw [if_neg (by simp [occurrences_cons]), if_neg (List.cons_ne_nil p ps), Position.start_after,
      Position.shift_endOf, Cursor.position_consume, List.take_length]

/-- Whatever a cursor has left is read like a text in memory, and moved to where the cursor stands. -/
theorem drain_start (config : Config) (c : Cursor) :
    let rest := String.ofList c.rest
    let drained := (start config c).drain c
    drained.tokens = (tokenize config rest c.source).1.map (Token.shift c.position) ∧
    drained.scanner.diagnostics =
      (Munch.diagnostics config rest c.source).map (Diagnostic.shift c.position) := by
  intro rest drained
  obtain ⟨ps, tail, hcut⟩ := exists_cut c.rest
  have hrest : rest.toList = c.rest := String.toList_ofList
  have hcut' : Cut rest.toList ps tail := by rwa [hrest]
  have hdrained : drained = _ := drain_of_cut hcut (start config c)
  constructor
  · rw [hdrained, tokenize_of_cut hcut', hrest, List.map_append, List.map_singleton,
      ← map_token_based, ← eof_notes_start]
    rfl
  · rw [hdrained, diagnostics_of_cut hcut', ← filterMap_diagnostic?_based]
    simp [diagnostics, notes, start]

end Scanner

namespace Source

lemma cursor_run_advances (s : Source) (n : Nat) :
    (s.run (List.replicate n .advance)).2.1.cursor = s.cursor.consume n := by
  induction n generalizing s with
  | zero => exact s.cursor.consume_zero.symm
  | succ n ih =>
    have hrest := ih (s.act .advance).source
    rw [Nat.add_comm n 1, ← Cursor.consume_consume, Nat.add_comm 1 n]
    exact hrest

lemma drain_attach (s : Source) (config : Config) :
    (s.act (.attach config)).source.drain s.scanners.length =
      let drained := (Scanner.start config s.cursor).drain s.cursor
      (drained.tokens, ⟨drained.cursor, s.scanners ++ [drained.scanner]⟩, drained.log) := by
  have hnew : (s.scanners ++ [Scanner.start config s.cursor])[s.scanners.length]? =
      some (.start config s.cursor) := List.getElem?_concat_length
  have hset (reader : Scanner) : (s.scanners ++ [Scanner.start config s.cursor]).set s.scanners.length reader =
      s.scanners ++ [reader] := by
    rw [List.set_append_right _ _ (Nat.le_refl _), Nat.sub_self]
    rfl
  simp only [act, drain, hnew, update, hset]

/-- A reader that is made anywhere in a text reads what is left like a text of its own: its tokens, with the
end of input, and its diagnostics are those of the rest, moved to where the reader was made. -/
theorem drain_midway (config : Config) (text : String) (source : Option String) (k : Nat)
    (hk : k ≤ text.toList.length) :
    (∃ actions : List Action, (∀ a ∈ actions, a.closes = false) ∧
      ((ofText text source).run actions).2.1.cursor.offset = k) ∧
    ∀ actions : List Action, (∀ a ∈ actions, a.closes = false) →
      let s := ((ofText text source).run actions).2.1
      let base := s.cursor.position
      let rest := String.ofList (text.toList.drop k)
      let drained := (s.act (.attach config)).source.drain s.scanners.length
      s.cursor.offset = k →
        drained.1 = (tokenize config rest source).1.map (Token.shift base) ∧
        (∃ reader, drained.2.1.scanners[s.scanners.length]? = some reader ∧
          reader.diagnostics = (diagnostics config rest source).map (Diagnostic.shift base)) ∧
        (Blank (text.toList.drop k) → drained.1 = [⟨.eof, "", base.of source⟩]) := by
  constructor
  · refine ⟨List.replicate k .advance, ?_, ?_⟩
    · intro a ha
      rw [List.eq_of_mem_replicate ha]
      rfl
    · rw [cursor_run_advances, Cursor.offset_consume]
      exact (Nat.zero_add _).trans (Nat.min_eq_left hk)
  · intro actions hreads s base rest drained hoffset
    have hread : s.cursor.HasRead text.toList ((ofText text source).allAdvances actions).reduceOption :=
      hasRead_run (s := ofText text source) (Cursor.hasRead_ofText text source) actions
    have hopen : s.cursor.closed = false :=
      closed_run (s := ofText text source) hreads
    have hsource : s.cursor.source = source := source_run (ofText text source) actions
    have hrest : s.cursor.rest = text.toList.drop k := by
      rw [hread.text_eq hopen, ← hoffset, hread.offset_eq, List.drop_left]
    have hdrained : drained = _ := s.drain_attach config
    obtain ⟨htokens, hsaid⟩ := Scanner.drain_start config s.cursor
    rw [hrest, hsource] at htokens hsaid
    have hgiven : drained.1 = (tokenize config rest source).1.map (Token.shift base) := by
      rw [hdrained]
      exact htokens
    refine ⟨hgiven, ⟨_, ?_, hsaid⟩, ?_⟩
    · rw [hdrained]
      exact List.getElem?_concat_length
    · intro hblank
      have hcut : Cut rest.toList [] (text.toList.drop k) := by
        rw [show rest.toList = text.toList.drop k from String.toList_ofList]
        exact .blanks hblank
      rw [hgiven, tokenize_of_cut hcut]
      simp [Token.shift, Location.shift, Position.of]

/-- A reader that is made within a number, of which the cursor has read the first digit already. -/
theorem drain_midway_of_number :
    1 ≤ "12ab\nif".toList.length ∧
    let s := ((ofText "12ab\nif").run [.attach default, .advance]).2.1
    ((s.act (.attach default)).source.drain 1).1 =
      (tokenize default "2ab\nif").1.map (Token.shift ⟨1, 1⟩) := by
  refine ⟨by decide, ?_⟩
  have hmidway := (drain_midway default "12ab\nif" none 1 (by decide)).2 [.attach default, .advance]
    (by simp [Action.closes]) rfl
  exact hmidway.1

end Source

end Munch
