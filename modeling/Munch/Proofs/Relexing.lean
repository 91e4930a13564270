import Munch.Proofs.MaximalMunch

/-!
# Writing tokens and reading them again

A kind and a text are well-formed if a token can have them and is read again as itself. Well-formed
texts with blanks between them are read as what they are (`Laid.cut`), and so is what a scanner kept
of any lexeme, but for a word cut to a reserved one.
-/

namespace Munch

namespace Spelling

/-- A kind with a text of that kind, all of which is kept. -/
inductive WellFormed (config : Config) : Spelling → Prop
  | keyword {text : String} (reserved : text ∈ keywords) (whole : text.length ≤ config.limit) :
      WellFormed config ⟨.keyword, text⟩
  | identifier {text : String} (shape : (Lexeme.word text.toList).WellFormed)
      (whole : text.length ≤ config.limit) (other : text ∉ keywords) :
      WellFormed config ⟨.identifier, text⟩
  | number {text : String} (nonempty : 1 ≤ text.length) (whole : text.length ≤ config.limit)
      (digits : ∀ c ∈ text.toList, CharClass.digit.holds c = true) :
      WellFormed config ⟨.number, text⟩
  | operator {c : Char} (mem : c ∈ CharClass.operators) :
      WellFormed config ⟨.operator, String.singleton c⟩
  | separator {c : Char} (enabled : config.separators.truth = true)
      (mem : c ∈ CharClass.separators) : WellFormed config ⟨.separator, String.singleton c⟩
  | invalid {c : Char} (noBlank : CharClass.whitespace.holds c = false)
      (noIdentifier : CharClass.identifierChar.holds c = false)
      (noOperator : c ∉ CharClass.operators)
      (noSeparator : ¬ (config.separators.truth = true ∧ c ∈ CharClass.separators)) :
      WellFormed config ⟨.invalid, String.singleton c⟩

/-- The spelling that is read where this one is written: an identifier that spells a reserved word
is read as that word. -/
def recalled (s : Spelling) : Spelling :=
  if s.kind = .identifier ∧ s.text ∈ keywords then { s with kind := .keyword } else s

@[simp] lemma text_recalled (s : Spelling) : s.recalled.text = s.text := by
  unfold recalled
  split <;> rfl

def lexeme (s : Spelling) : Lexeme :=
  match s.kind, s.text.toList with
  | .keyword, run => .word run
  | .identifier, run => .word run
  | .number, run => .number run
  | _, c :: _ => .symbol c
  | _, [] => .word []

end Spelling

namespace CharClass

lemma not_identifierChar_iff {c : Char} :
    identifierChar.holds c = false ↔
      identifierStart.holds c = false ∧ digit.holds c = false := by
  simp only [holds, Bool.or_eq_false_iff]

lemma wellFormed_of_mark {c : Char} (h : c ∈ operators ++ separators) :
    (Lexeme.symbol c).WellFormed := by
  have hall : (operators ++ separators).all (fun d =>
      !whitespace.holds d && !identifierStart.holds d && !digit.holds d) = true := by decide
  have hc := List.all_eq_true.mp hall c h
  simp only [Bool.and_eq_true, Bool.not_eq_true'] at hc
  exact ⟨hc.1.1, hc.1.2, hc.2⟩

lemma not_operator_of_separator {c : Char} (h : c ∈ separators) : c ∉ operators := by
  have hall : separators.all (fun d => !operators.contains d) = true := by decide
  have hc := List.all_eq_true.mp hall c h
  simpa using hc

end CharClass

namespace Lexeme

variable {config : Config} {l : Lexeme}

lemma HasKind.eq_kind {k : TokenKind} (h : l.HasKind config k) : k = l.kind config := by
  have hkind := l.hasKind_kind config
  generalize l.kind config = k' at hkind
  cases h with
  | keyword whole reserved =>
    cases hkind with
    | keyword => rfl
    | identifier other => exact absurd ⟨whole, reserved⟩ other
  | identifier other =>
    cases hkind with
    | keyword whole reserved => exact absurd ⟨whole, reserved⟩ other
    | identifier => rfl
  | number =>
    cases hkind
    rfl
  | operator mem => cases hkind <;> first | rfl | contradiction
  | separator noOperator enabled mem =>
    cases hkind with
    | operator hmem => exact absurd hmem noOperator
    | separator => rfl
    | invalid _ noSeparator => exact absurd ⟨enabled, mem⟩ noSeparator
  | invalid noOperator noSeparator =>
    cases hkind with
    | operator hmem => exact absurd hmem noOperator
    | separator _ enabled mem => exact absurd ⟨enabled, mem⟩ noSeparator
    | invalid => rfl

lemma kept_of_fits (h : l.chars.length ≤ config.limit) : l.kept config = String.ofList l.chars := by
  rw [kept, List.take_of_length_le h]

end Lexeme

namespace Spelling

variable {config : Config} {s : Spelling}

lemma wellFormed_word_of_keyword {text : String} (h : text ∈ keywords) :
    (Lexeme.word text.toList).WellFormed := by
  have hall : keywords.all (fun k => k.toList.head?.any CharClass.identifierStart.holds &&
      k.toList.all CharClass.identifierChar.holds) = true := by decide
  have htext := List.all_eq_true.mp hall text h
  rw [Bool.and_eq_true, Option.any_eq_true, List.all_eq_true] at htext
  exact htext

lemma lexeme_singleton {k : TokenKind} (hk : k ≠ .keyword ∧ k ≠ .identifier ∧ k ≠ .number)
    (c : Char) : lexeme ⟨k, String.singleton c⟩ = .symbol c := by
  cases k <;> simp_all [lexeme]

/-- A well-formed spelling is written as a lexeme that is kept in full and has its kind. -/
theorem WellFormed.lexeme (h : s.WellFormed config) :
    s.lexeme.WellFormed ∧ s.lexeme.chars = s.text.toList ∧
      s.lexeme.chars.length ≤ config.limit ∧ s.lexeme.HasKind config s.kind := by
  cases h with
  | @keyword text reserved whole =>
    refine ⟨wellFormed_word_of_keyword reserved, rfl, whole, .keyword whole ?_⟩
    rwa [String.ofList_toList]
  | @identifier text shape whole other =>
    refine ⟨shape, rfl, whole, .identifier ?_⟩
    rw [String.ofList_toList]
    exact fun hkeyword => other hkeyword.2
  | @number text nonempty whole digits =>
    have hne : text.toList ≠ [] := List.ne_nil_of_length_pos nonempty
    exact ⟨⟨hne, digits⟩, rfl, whole, .number⟩
  | @operator c mem =>
    have hl := CharClass.wellFormed_of_mark (List.mem_append_left CharClass.separators mem)
    rw [lexeme_singleton (by decide), String.toList_singleton]
    exact ⟨hl, rfl, Lexeme.length_symbol_le config c, .operator mem⟩
  | @separator c enabled mem =>
    have hl := CharClass.wellFormed_of_mark (List.mem_append_right CharClass.operators mem)
    have hother := CharClass.not_operator_of_separator mem
    rw [lexeme_singleton (by decide), String.toList_singleton]
    exact ⟨hl, rfl, Lexeme.length_symbol_le config c, .separator hother enabled mem⟩
  | @invalid c noBlank noIdentifier noOperator noSeparator =>
    have hl : (Lexeme.symbol c).WellFormed :=
      ⟨noBlank, CharClass.not_identifierChar_iff.mp noIdentifier⟩
    rw [lexeme_singleton (by decide), String.toList_singleton]
    exact ⟨hl, rfl, Lexeme.length_symbol_le config c, .invalid noOperator noSeparator⟩

lemma WellFormed.spelling_lexeme (h : s.WellFormed config) : s.lexeme.spelling config = s := by
  obtain ⟨-, hchars, hfits, hkind⟩ := h.lexeme
  rw [Lexeme.spelling, ← hkind.eq_kind, Lexeme.kept_of_fits hfits, hchars, String.ofList_toList]

end Spelling

namespace Lexeme

variable {config : Config} {l : Lexeme}

/-- The first characters of a word are a word, as there is at least one of them. -/
lemma wellFormed_word_take {run : List Char} (h : (word run).WellFormed) :
    (word (run.take config.limit)).WellFormed := by
  obtain ⟨⟨c, hc, hstart⟩, hrun⟩ := h
  refine ⟨⟨c, ?_, hstart⟩, fun d hd => hrun d (List.mem_of_mem_take hd)⟩
  rw [List.head?_take, if_neg (Nat.pos_iff_ne_zero.mp config.limit_pos)]
  exact hc

/-- What is kept of a lexeme is well-formed, once a word cut to a reserved one is taken for it. -/
theorem WellFormed.recalled (h : l.WellFormed) (config : Config) :
    (l.spelling config).recalled.WellFormed config := by
  have hshort : (l.kept config).length ≤ config.limit := by
    rw [length_kept]
    exact Nat.min_le_left _ _
  have hkind := l.hasKind_kind config
  unfold spelling
  generalize l.kind config = k at hkind
  cases hkind with
  | @keyword run whole reserved =>
    have hkept : (word run).kept config = String.ofList run := kept_of_fits whole
    rw [Spelling.recalled, if_neg (by simp)]
    exact .keyword (hkept ▸ reserved) hshort
  | @identifier run other =>
    by_cases hreserved : (word run).kept config ∈ keywords
    · rw [Spelling.recalled, if_pos ⟨rfl, hreserved⟩]
      exact .keyword hreserved hshort
    · rw [Spelling.recalled, if_neg (fun h => hreserved h.2)]
      refine .identifier ?_ hshort hreserved
      rw [kept, String.toList_ofList]
      exact wellFormed_word_take h
  | @number run =>
    have hlong : 1 ≤ ((number run).kept config).length := by
      rw [length_kept]
      exact Nat.le_min.mpr ⟨config.limit_pos, List.length_pos_iff.mpr h.1⟩
    rw [Spelling.recalled, if_neg (by simp)]
    refine .number hlong hshort ?_
    intro c hc
    rw [kept, String.toList_ofList] at hc
    exact h.2 c (List.mem_of_mem_take hc)
  | @operator c mem =>
    rw [Spelling.recalled, if_neg (by simp), kept_of_fits (length_symbol_le config c)]
    exact .operator mem
  | @separator c noOperator enabled mem =>
    rw [Spelling.recalled, if_neg (by simp), kept_of_fits (length_symbol_le config c)]
    exact .separator enabled mem
  | @invalid c noOperator noSeparator =>
    rw [Spelling.recalled, if_neg (by simp), kept_of_fits (length_symbol_le config c)]
    exact .invalid h.1 (CharClass.not_identifierChar_iff.mpr h.2) noOperator noSeparator

end Lexeme

/-- Spellings, each with the blanks in front of it, and the blanks after the last of them. -/
structure Laid where
  parts : List (List Char × Spelling)
  tail : List Char

namespace Laid

/-- What is written: the blanks and the texts. The kinds do not show. -/
def text (d : Laid) : String :=
  String.ofList (d.parts.flatMap (fun p => p.1 ++ p.2.text.toList) ++ d.tail)

def spellings (d : Laid) : List Spelling := d.parts.map (·.2)

/-- Blanks stand between any two texts. There may be none before the first and after the last. -/
structure Spaced (d : Laid) : Prop where
  blank : ∀ p ∈ d.parts, Blank p.1
  apart : ∀ p ∈ d.parts.tail, p.1 ≠ []
  tail_blank : Blank d.tail

def pieces (d : Laid) : List Piece := d.parts.map fun p => ⟨p.1, p.2.lexeme⟩

end Laid

lemma Lexeme.not_joins_of_blank (l : Lexeme) {w rest : List Char} (hw : Blank w)
    (h : w = [] → rest = []) : ¬ l.Joins (w ++ rest) := by
  cases w with
  | nil =>
    rw [h rfl]
    exact l.not_joins_nil
  | cons c w => exact l.not_joins_of_blank_head (hw c List.mem_cons_self) (w ++ rest)

/-- Lexemes with blanks between them are the cut of what they make together. -/
theorem Cut.of_pieces {ps : List Piece} {tail : List Char} (hblank : ∀ p ∈ ps, Blank p.blanks)
    (hlexeme : ∀ p ∈ ps, p.lexeme.WellFormed) (hapart : ∀ p ∈ ps.tail, p.blanks ≠ [])
    (htail : Blank tail) : Cut (ps.flatMap Piece.chars ++ tail) ps tail := by
  induction ps with
  | nil => exact .blanks htail
  | cons p ps ih =>
    rw [List.forall_mem_cons] at hblank hlexeme
    have hmore := ih hblank.2 hlexeme.2 fun q hq => hapart q (List.mem_of_mem_tail hq)
    have hstop : ¬ p.lexeme.Joins (ps.flatMap Piece.chars ++ tail) := by
      cases ps with
      | nil =>
        rw [List.flatMap_nil, List.nil_append, ← List.append_nil tail]
        exact p.lexeme.not_joins_of_blank htail fun _ => rfl
      | cons q ps =>
        have hq : q.blanks ≠ [] := hapart q List.mem_cons_self
        rw [List.flatMap_cons, Piece.chars, List.append_assoc, List.append_assoc]
        exact p.lexeme.not_joins_of_blank (hblank.2 q List.mem_cons_self) (absurd · hq)
    rw [List.flatMap_cons, Piece.chars, List.append_assoc, List.append_assoc]
    exact .piece hblank.1 hlexeme.1 hstop hmore

namespace Laid

variable {config : Config} {d : Laid}

theorem cut (hspaced : d.Spaced) (hformed : ∀ s ∈ d.spellings, s.WellFormed config) :
    Cut d.text.toList d.pieces d.tail := by
  have hlexeme : ∀ p ∈ d.parts, p.2.lexeme.WellFormed ∧ p.2.lexeme.chars = p.2.text.toList := by
    intro p hp
    obtain ⟨hl, hchars, -⟩ := (hformed p.2 (List.mem_map_of_mem hp)).lexeme
    exact ⟨hl, hchars⟩
  have hchars : d.pieces.flatMap Piece.chars =
      d.parts.flatMap fun p => p.1 ++ p.2.text.toList := by
    rw [pieces, List.flatMap_map]
    apply List.flatMap_congr
    intro p hp
    rw [Piece.chars, (hlexeme p hp).2]
  rw [text, String.toList_ofList, ← hchars]
  apply Cut.of_pieces
  · intro p hp
    obtain ⟨q, hq, rfl⟩ := List.mem_map.mp hp
    exact hspaced.blank q hq
  · intro p hp
    obtain ⟨q, hq, rfl⟩ := List.mem_map.mp hp
    exact (hlexeme q hq).1
  · intro p hp
    rw [pieces, ← List.map_tail] at hp
    obtain ⟨q, hq, rfl⟩ := List.mem_map.mp hp
    exact hspaced.apart q hq
  · exact hspaced.tail_blank

lemma spellings_pieces (hformed : ∀ s ∈ d.spellings, s.WellFormed config) :
    d.pieces.map (fun p => p.lexeme.spelling config) = d.spellings := by
  rw [pieces, spellings, List.map_map]
  apply List.map_congr_left
  intro p hp
  exact (hformed p.2 (List.mem_map_of_mem hp)).spelling_lexeme

end Laid

/-- Of lexemes that are kept in full there is something to say only where they are invalid. -/
lemma forall₂_invalid {config : Config} {source : Option String} {os : List Occurrence} (p : Position)
    (hfits : ∀ o ∈ os, o.lexeme.chars.length ≤ config.limit) :
    List.Forall₂ (fun t d => ∃ c, t.text = String.singleton c ∧ d = .invalidCharacter c t.location)
      ((os.map (·.token config p source)).filter Token.isInvalid)
      (os.filterMap (·.diagnostic? config p source)) := by
  induction os with
  | nil => exact .nil
  | cons o os ih =>
    rw [List.forall_mem_cons] at hfits
    by_cases hinvalid : o.lexeme.kind config = .invalid
    · obtain ⟨c, hc⟩ := Lexeme.eq_symbol_of_invalid hinvalid
      have hkeep : (o.token config p source).isInvalid = true := beq_iff_eq.mpr hinvalid
      have hsaid : o.diagnostic? config p source =
          some (.invalidCharacter c (o.location p source)) := by
        rw [hc] at hinvalid
        rw [Occurrence.diagnostic?, hc, Lexeme.diagnostic?_of_invalid hinvalid]
      rw [List.map_cons, List.filter_cons_of_pos hkeep, List.filterMap_cons_some hsaid]
      refine .cons ⟨c, ?_, rfl⟩ (ih hfits.2)
      change o.lexeme.kept config = String.singleton c
      rw [hc]
      exact Lexeme.kept_of_fits (Lexeme.length_symbol_le config c)
    · have hdrop : ¬ (o.token config p source).isInvalid = true :=
        fun h => hinvalid (beq_iff_eq.mp h)
      have hsilent : o.diagnostic? config p source = none :=
        Lexeme.diagnostic?_of_valid hfits.1 hinvalid
      rw [List.map_cons, List.filter_cons_of_neg hdrop, List.filterMap_cons_none hsilent]
      exact ih hfits.2

/-- Well-formed spellings with blanks between them are read as themselves, with a diagnostic for each
invalid character and no other. The texts kept of the tokens of any text, with blanks between them,
are read with the same kinds, but that an identifier cut to a reserved word is read as that word. -/
theorem tokenize_laid (config : Config) (source : Option String) :
    (∀ d : Laid, d.Spaced → (∀ s ∈ d.spellings, s.WellFormed config) →
      ∃ tokens last, (tokenize config d.text source).1 = tokens ++ [last] ∧
        tokens.map Token.spelling = d.spellings ∧ last.kind = .eof ∧ last.text = "" ∧
        List.Forall₂
          (fun t said => ∃ c, t.text = String.singleton c ∧ said = .invalidCharacter c t.location)
          (tokens.filter Token.isInvalid) (diagnostics config d.text source)) ∧
    ∀ (text : String) (d : Laid), d.Spaced →
      d.spellings = (lexemeTokens config text source).map Token.spelling →
      (lexemeTokens config d.text source).map Token.spelling =
        (lexemeTokens config text source).map fun t => t.spelling.recalled := by
  constructor
  · intro d hspaced hformed
    have hcut := Laid.cut hspaced hformed
    refine ⟨_, _, tokenize_of_cut hcut config source, ?_, rfl, rfl, ?_⟩
    · rw [← lexemeTokens_of_cut hcut, spellings_of_cut hcut, Laid.spellings_pieces hformed]
    · rw [diagnostics_of_cut hcut]
      apply forall₂_invalid
      intro o ho
      obtain ⟨p, hp, hpo⟩ := exists_piece_of_mem ho
      obtain ⟨q, hq, rfl⟩ := List.mem_map.mp hp
      rw [← hpo]
      exact (hformed q.2 (List.mem_map_of_mem hq)).lexeme.2.2.1
  · intro text d hspaced hkept
    -- the kinds do not show in what is written, so it may as well be the recalled spellings
    let d' : Laid := ⟨d.parts.map fun p => (p.1, p.2.recalled), d.tail⟩
    have hspellings : d'.spellings = d.spellings.map Spelling.recalled := by
      simp only [d', Laid.spellings, List.map_map]
      rfl
    have htext : d'.text = d.text := by
      simp only [d', Laid.text, List.flatMap_map, Spelling.text_recalled]
    have hspaced' : d'.Spaced := by
      constructor
      · intro p hp
        obtain ⟨q, hq, rfl⟩ := List.mem_map.mp hp
        exact hspaced.blank q hq
      · intro p hp
        rw [← List.map_tail] at hp
        obtain ⟨q, hq, rfl⟩ := List.mem_map.mp hp
        exact hspaced.apart q hq
      · exact hspaced.tail_blank
    have hformed : ∀ s ∈ d'.spellings, s.WellFormed config := by
      obtain ⟨ps, tail, hcut⟩ := exists_cut text.toList
      rw [hspellings, hkept, spellings_of_cut hcut]
      intro s hs
      obtain ⟨t, ht, rfl⟩ := List.mem_map.mp hs
      obtain ⟨p, hp, rfl⟩ := List.mem_map.mp ht
      exact (hcut.wellFormed_of_mem p hp).recalled config
    have hcut := Laid.cut hspaced' hformed
    rw [← htext, spellings_of_cut hcut, Laid.spellings_pieces hformed, hspellings, hkept,
      List.map_map]
    rfl

end Munch
