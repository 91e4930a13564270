import Mathlib.Data.List.Forall2
import Munch.Proofs.Drain
import Munch.Proofs.Lines

/-!
# Tokens and the places they point at

Each token but the last stands for a run of the text, in full or in part. The runs lie apart and
hold every character that is no blank. Line and column of a token lead to its run, and the next
token comes after the whole of it.
-/

namespace Munch

namespace Occurrence

/-- The lexeme stands at its place in the text, and goes on there as far as it can. -/
def StandsIn (text : List Char) (o : Occurrence) : Prop :=
  o.lexeme.WellFormed ∧ ∃ more, text = o.through ++ more ∧ ¬ o.lexeme.Joins more

lemma newline_not_mem_chars {l : Lexeme} (h : l.WellFormed) : '\n' ∉ l.chars := by
  intro hmem
  exact absurd (h.not_whitespace _ hmem) (by decide)

lemma position_token (config : Config) (source : Option String) (o : Occurrence) :
    (o.token config .start source).position = .endOf o.before :=
  Position.start_after o.before

/-- Whatever comes after a lexeme is placed after the whole of it. -/
lemma position_past_lexeme {o : Occurrence} (h : o.lexeme.WellFormed) (past : List Char) :
    (Position.endOf o.before).line < (Position.endOf (o.through ++ past)).line ∨
      (Position.endOf (o.through ++ past)).line = (Position.endOf o.before).line ∧
        (Position.endOf o.before).column + o.lexeme.chars.length ≤
          (Position.endOf (o.through ++ past)).column := by
  have hend : (Position.endOf o.before).after o.lexeme.chars =
      ⟨(Position.endOf o.before).line,
        (Position.endOf o.before).column + o.lexeme.chars.length⟩ :=
    Position.after_of_not_mem _ (newline_not_mem_chars h)
  have hpast := Position.le_after ((Position.endOf o.before).after o.lexeme.chars) past
  rw [← Position.start_after (o.through ++ past), through, Position.after_append,
    Position.after_append, Position.start_after]
  rw [hend] at hpast ⊢
  exact hpast

end Occurrence

section Runs

variable {rest tail : List Char} {ps : List Piece}

lemma prefix_before_occurrences (front : List Char) (ps : List Piece) :
    ∀ o ∈ occurrences front ps, front <+: o.before := by
  intro o ho
  rw [occurrences_eq_map, List.mem_map] at ho
  obtain ⟨u, -, rfl⟩ := ho
  exact List.prefix_append front u.before

lemma pairwise_occurrences (front : List Char) (ps : List Piece) :
    (occurrences front ps).Pairwise fun o u => o.through <+: u.before := by
  induction ps generalizing front with
  | nil => exact .nil
  | cons p ps ih =>
    refine .cons ?_ (ih _)
    intro u hu
    have hbefore := prefix_before_occurrences _ _ u hu
    rwa [Piece.chars, ← List.append_assoc] at hbefore

lemma Cut.standsIn (h : Cut rest ps tail) (front : List Char) :
    ∀ o ∈ occurrences front ps, o.StandsIn (front ++ rest) := by
  induction h generalizing front with
  | blanks hw => simp
  | @piece w rest tail l ps hw hl hj more ih =>
    intro o ho
    rw [occurrences, List.mem_cons] at ho
    rcases ho with rfl | ho
    · refine ⟨hl, rest, ?_, hj⟩
      simp [Occurrence.through]
    · have hrest := ih (front ++ (w ++ l.chars)) o ho
      rwa [List.append_assoc, List.append_assoc] at hrest

lemma Cut.exists_run (h : Cut rest ps tail) (front : List Char) {k : Nat} {c : Char}
    (hk : rest[k]? = some c) (hc : CharClass.whitespace.holds c = false) :
    ∃ o ∈ occurrences front ps,
      o.before.length ≤ front.length + k ∧ front.length + k < o.through.length := by
  induction h generalizing front k with
  | @blanks w hw =>
    rw [hw c (List.mem_of_getElem? hk)] at hc
    exact absurd hc (by decide)
  | @piece w rest tail l ps hw hl hj more ih =>
    have hblank : w.length ≤ k := by
      by_contra hlt
      rw [List.getElem?_append_left (by omega)] at hk
      rw [hw c (List.mem_of_getElem? hk)] at hc
      exact absurd hc (by decide)
    rw [List.getElem?_append_right hblank] at hk
    by_cases hrun : k - w.length < l.chars.length
    · refine ⟨_, List.mem_cons_self, ?_⟩
      simp only [Occurrence.through, List.length_append]
      omega
    · rw [List.getElem?_append_right (by omega)] at hk
      obtain ⟨o, ho, hfrom, hto⟩ := ih (front ++ (w ++ l.chars)) hk
      refine ⟨o, List.mem_cons_of_mem _ ho, ?_⟩
      simp only [List.length_append] at hfrom hto
      omega

lemma Cut.existsUnique_run (h : Cut rest ps tail) {k : Nat} {c : Char} (hk : rest[k]? = some c)
    (hc : CharClass.whitespace.holds c = false) :
    ∃! i : Nat, ∃ o, (occurrences [] ps)[i]? = some o ∧
      o.before.length ≤ k ∧ k < o.through.length := by
  obtain ⟨o, ho, hfrom, hto⟩ := h.exists_run [] hk hc
  rw [List.length_nil, Nat.zero_add] at hfrom hto
  obtain ⟨i, hi⟩ := List.getElem?_of_mem ho
  have hapart : ∀ (i j : Nat) (o u : Occurrence), (occurrences [] ps)[i]? = some o →
      (occurrences [] ps)[j]? = some u → k < o.through.length → u.before.length ≤ k →
      j ≤ i := by
    intro i j o u hi hj ho hu
    by_contra hlt
    obtain ⟨hi', rfl⟩ := List.getElem?_eq_some_iff.mp hi
    obtain ⟨hj', rfl⟩ := List.getElem?_eq_some_iff.mp hj
    have hle := (List.pairwise_iff_getElem.mp (pairwise_occurrences [] ps) i j hi' hj'
      (by omega)).length_le
    omega
  refine ⟨i, ⟨o, hi, hfrom, hto⟩, ?_⟩
  rintro j ⟨u, hj, hfrom', hto'⟩
  have hij := hapart i j o u hi hj hto hfrom'
  have hji := hapart j i u o hj hi hto' hfrom
  omega

end Runs

/-- Line and column of a token point at a run of a text. -/
structure Token.PointsAt (text : List Char) (t : Token) (run : Occurrence) : Prop where
  position_eq : t.position = .endOf run.before
  one_le_line : 1 ≤ t.position.line
  line_le : t.position.line ≤ (lines text).length
  column_nonneg : 0 ≤ t.position.column
  /-- All of the run is found on that line from that column on, and so is what the token keeps. -/
  found : ∃ line, (lines text)[(t.position.line - 1).toNat]? = some line ∧
    run.lexeme.chars <+: line.drop t.position.column.toNat ∧
    t.text.toList <+: line.drop t.position.column.toNat

lemma Occurrence.pointsAt {text : List Char} {o : Occurrence} (h : o.StandsIn text)
    (config : Config) (source : Option String) :
    (o.token config .start source).PointsAt text o := by
  obtain ⟨hl, more, rfl, -⟩ := h
  have hposition := o.position_token config source
  have hline : (Position.endOf o.before).line = 1 + o.before.count '\n' := rfl
  have hcolumn : (Position.endOf o.before).column = (lastLine o.before).length := rfl
  have hfound := getElem?_lines_append o.before (o.lexeme.chars ++ more)
  have hrun : ∀ c ∈ o.lexeme.chars, (c != '\n') = true := by
    intro c hc
    rw [bne_iff_ne]
    rintro rfl
    exact newline_not_mem_chars hl hc
  rw [List.takeWhile_append_of_pos hrun] at hfound
  refine ⟨hposition, ?_, ?_, ?_, ?_⟩
  · rw [hposition, hline]
    omega
  · rw [hposition, hline, length_lines, through, List.append_assoc, List.count_append]
    omega
  · rw [hposition, hcolumn]
    omega
  · rw [hposition, hline, hcolumn]
    refine ⟨lastLine o.before ++ (o.lexeme.chars ++ more.takeWhile (· != '\n')), ?_, ?_⟩
    · rw [show (1 + (o.before.count '\n' : Int) - 1).toNat = o.before.count '\n' by omega,
        through, List.append_assoc]
      exact hfound
    · rw [Int.toNat_natCast, List.drop_left]
      refine ⟨List.prefix_append _ _, ?_⟩
      rw [token, Lexeme.token, Lexeme.kept, String.toList_ofList]
      exact (List.take_prefix _ _).trans (List.prefix_append _ _)

/-- The token after a run, which may be the end of input, comes after the whole of the run. -/
lemma next_token_past_run {text : String} {ps : List Piece} {tail : List Char}
    (hcut : Cut text.toList ps tail) (config : Config) (source : Option String) (last : Token)
    (hlast : ps ≠ [] → last.position = .endOf text.toList) (i : Nat) (run : Occurrence)
    (t u : Token) (hrun : (occurrences [] ps)[i]? = some run)
    (ht : ((occurrences [] ps).map (·.token config .start source) ++ [last])[i]? = some t)
    (hu : ((occurrences [] ps).map (·.token config .start source) ++ [last])[i + 1]? = some u) :
    t.position.line < u.position.line ∨ u.position.line = t.position.line ∧
      t.position.column + run.lexeme.chars.length ≤ u.position.column := by
  obtain ⟨hi, hget⟩ := List.getElem?_eq_some_iff.mp hrun
  obtain ⟨hl, more, hmore, -⟩ := hcut.standsIn [] run (hget ▸ List.getElem_mem hi)
  have htoken : t.position = .endOf run.before := by
    rw [List.getElem?_append_left (by simpa using hi), List.getElem?_map, hrun, Option.map_some,
      Option.some_inj] at ht
    rw [← ht, Occurrence.position_token]
  have hpast : ∃ past, u.position = .endOf (run.through ++ past) := by
    by_cases hnext : i + 1 < (occurrences [] ps).length
    · rw [List.getElem?_append_left (by simpa using hnext), List.getElem?_map,
        List.getElem?_eq_getElem hnext, Option.map_some, Option.some_inj] at hu
      obtain ⟨past, hbefore⟩ := List.pairwise_iff_getElem.mp (pairwise_occurrences [] ps) i (i + 1)
        hi hnext (by omega)
      refine ⟨past, ?_⟩
      rw [← hu, Occurrence.position_token, ← hbefore, hget]
    · rw [List.getElem?_append_right (by simpa using hnext), List.length_map,
        show i + 1 - (occurrences [] ps).length = 0 by omega, List.getElem?_cons_zero,
        Option.some_inj] at hu
      refine ⟨more, ?_⟩
      rw [← hu, hlast, ← hmore, List.nil_append]
      rintro rfl
      exact absurd hi (by simp)
  obtain ⟨past, hposition⟩ := hpast
  rw [htoken, hposition]
  exact Occurrence.position_past_lexeme hl past

/-- Positions are exact: each token but the last points at its run, the next token comes after the
whole run, the runs lie apart and hold every character but blanks, and the end of input is at the
end of the text unless nothing was found. -/
theorem tokenize_positions (config : Config) (text : String) (source : Option String) :
    ∃ (runs : List Occurrence) (tokens : List Token) (last : Token),
      (tokenize config text source).1 = tokens ++ [last] ∧
      (∀ t ∈ tokens, t.kind ≠ .eof) ∧ last.kind = .eof ∧
      List.Forall₂ (fun run t => run.StandsIn text.toList ∧ t.PointsAt text.toList run ∧
        t.text.toList = run.lexeme.chars.take config.limit) runs tokens ∧
      (∀ (i : Nat) (run : Occurrence) (t u : Token), runs[i]? = some run →
        (tokens ++ [last])[i]? = some t → (tokens ++ [last])[i + 1]? = some u →
        t.position.line < u.position.line ∨ u.position.line = t.position.line ∧
          t.position.column + run.lexeme.chars.length ≤ u.position.column) ∧
      runs.Pairwise (fun run next => run.through.length ≤ next.before.length) ∧
      (∀ (k : Nat) (c : Char), text.toList[k]? = some c →
        CharClass.whitespace.holds c = false →
        ∃! i : Nat, ∃ run, runs[i]? = some run ∧
          run.before.length ≤ k ∧ k < run.through.length) ∧
      last.position = if tokens = [] then ⟨1, 0⟩ else .endOf text.toList := by
  obtain ⟨ps, tail, hcut⟩ := exists_cut text.toList
  have hstands : ∀ o ∈ occurrences [] ps, o.StandsIn text.toList := hcut.standsIn []
  have hempty : (occurrences [] ps).map (·.token config .start source) = [] ↔ ps = [] := by
    rw [List.map_eq_nil_iff, ← List.length_eq_zero_iff, length_occurrences,
      List.length_eq_zero_iff]
  refine ⟨occurrences [] ps, _, _, tokenize_of_cut hcut config source, ?_, rfl, ?_, ?_, ?_,
    fun k c hk hc => hcut.existsUnique_run hk hc, ?_⟩
  · intro t ht
    obtain ⟨o, -, rfl⟩ := List.mem_map.mp ht
    exact o.kind_token_ne_eof config .start source
  · rw [List.forall₂_map_right_iff, List.forall₂_same]
    intro o ho
    exact ⟨hstands o ho, Occurrence.pointsAt (hstands o ho) config source,
      String.toList_ofList⟩
  · apply next_token_past_run hcut
    intro hne
    rw [if_neg hne]
    exact Position.start_after text.toList
  · exact (pairwise_occurrences [] ps).imp List.IsPrefix.length_le
  · simp only [hempty]
    by_cases hps : ps = []
    · rw [if_pos hps, if_pos hps]
      rfl
    · rw [if_neg hps, if_neg hps]
      exact Position.start_after text.toList

end Munch
