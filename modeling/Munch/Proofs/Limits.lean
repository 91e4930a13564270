import Mathlib.Data.List.Forall2
import Munch.Proofs.Drain

/-!
# Scans under a smaller limit

A limit decides how much of a lexeme is kept, and not where the lexeme ends. Two scanners that differ
in their limits go over a text in step (`Scanner.InStep`): each scan leaves the same cursor, and its
token under the smaller limit is the other one cut short. A lexeme that is cut under the larger limit is
also cut under the smaller one, and both say how long it was.
-/

namespace Munch

/-- The same settings with a limit that is no larger. -/
structure Config.Narrows (small large : Config) : Prop where
  limit_le : small.limit ≤ large.limit
  separators_eq : small.separators = large.separators
  encoding_eq : small.encoding = large.encoding

/-- The token `t`, cut to a limit. A keyword that loses some of its text is an identifier. -/
structure Token.Cuts (limit : Nat) (u t : Token) : Prop where
  location_eq : u.location = t.location
  text_eq : u.text.toList = t.text.toList.take limit
  kind_eq : u.kind = if t.kind = .keyword ∧ limit < t.text.length then .identifier else t.kind

/-- The diagnostics `es`, made under the limit `m`, name the same invalid characters as `ds`, made under
the limit `n`, and tell the same lengths of all that is cut in `ds`. -/
structure Echoes (m n : Nat) (es ds : List Diagnostic) : Prop where
  invalid_eq : es.filter (·.code = "L001") = ds.filter (·.code = "L001")
  truncated : ∀ d ∈ ds, d.code = "L002" → ∃ consumed : Nat,
    d = .lexemeTruncated consumed n d.location ∧ .lexemeTruncated consumed m d.location ∈ es

namespace Echoes

variable {m n : Nat} {es ds es' ds' : List Diagnostic}

lemma refl_of_invalid (h : ∀ d ∈ ds, d.code = "L001") : Echoes m n ds ds := by
  constructor
  · rfl
  · intro d hd hcode
    rw [h d hd] at hcode
    exact absurd hcode (by decide)

lemma nil_of_truncated (h : ∀ e ∈ es, e.code = "L002") : Echoes m n es [] := by
  constructor
  · rw [List.filter_nil, List.filter_eq_nil_iff]
    intro e he
    rw [h e he]
    decide
  · intro d hd
    exact absurd hd (by simp)

lemma truncated_both (consumed : Nat) (location : Location) :
    Echoes m n [.lexemeTruncated consumed m location] [.lexemeTruncated consumed n location] := by
  constructor
  · rfl
  · intro d hd _
    rw [List.mem_singleton] at hd
    subst hd
    exact ⟨consumed, rfl, List.mem_singleton_self _⟩

lemma append (h : Echoes m n es ds) (h' : Echoes m n es' ds') :
    Echoes m n (es ++ es') (ds ++ ds') := by
  constructor
  · rw [List.filter_append, List.filter_append, h.invalid_eq, h'.invalid_eq]
  · intro d hd hcode
    rcases List.mem_append.mp hd with hd | hd
    · obtain ⟨consumed, hsaid, hmem⟩ := h.truncated d hd hcode
      exact ⟨consumed, hsaid, List.mem_append_left es' hmem⟩
    · obtain ⟨consumed, hsaid, hmem⟩ := h'.truncated d hd hcode
      exact ⟨consumed, hsaid, List.mem_append_right es hmem⟩

end Echoes

namespace Lexeme

variable {small large : Config}

lemma kind_narrow (h : small.Narrows large) (l : Lexeme) :
    l.kind small =
      if l.kind large = .keyword ∧ small.limit < (l.kept large).length then .identifier
      else l.kind large := by
  have hle := h.limit_le
  have hseparates : small.separates = large.separates := congrArg Value.truth h.separators_eq
  rw [length_kept]
  cases l with
  | word run =>
    rw [kind_word, kind_word, chars]
    by_cases hlarge : run.length ≤ large.limit ∧ isKeyword (String.ofList run) = true
    · rw [if_pos hlarge, Nat.min_eq_right hlarge.1]
      by_cases hsmall : run.length ≤ small.limit
      · rw [if_pos ⟨hsmall, hlarge.2⟩, if_neg]
        omega
      · rw [if_neg fun hkeyword => hsmall hkeyword.1, if_pos ⟨rfl, Nat.lt_of_not_le hsmall⟩]
    · have hsmall : ¬ (run.length ≤ small.limit ∧ isKeyword (String.ofList run) = true) :=
        fun hkeyword => hlarge ⟨hkeyword.1.trans hle, hkeyword.2⟩
      rw [if_neg hlarge, if_neg hsmall, ite_self]
  | number run => rfl
  | symbol x =>
    have hsame : (symbol x).kind small = (symbol x).kind large := by
      rw [kind, kind, hseparates]
    have hshort : ¬ small.limit < min large.limit (symbol x).chars.length := by
      have hwhole := length_symbol_le small x
      omega
    rw [hsame, if_neg fun hkeyword => hshort hkeyword.2]

lemma kind_eq_invalid_iff (h : small.Narrows large) {l : Lexeme} :
    l.kind small = .invalid ↔ l.kind large = .invalid := by
  rw [kind_narrow h]
  by_cases hlost : l.kind large = .keyword ∧ small.limit < (l.kept large).length
  · rw [if_pos hlost, hlost.1]
    simp
  · rw [if_neg hlost]

theorem token_cuts (h : small.Narrows large) (location : Location) (l : Lexeme) :
    (l.token small location).Cuts small.limit (l.token large location) := by
  constructor
  · rfl
  · change (l.kept small).toList = (l.kept large).toList.take small.limit
    rw [kept, kept, String.toList_ofList, String.toList_ofList, List.take_take,
      Nat.min_eq_left h.limit_le]
  · exact l.kind_narrow h

theorem diagnostic?_echoes (h : small.Narrows large) (location : Location) (l : Lexeme) :
    Echoes small.limit large.limit (l.diagnostic? small location).toList
      (l.diagnostic? large location).toList := by
  have hle := h.limit_le
  by_cases hlarge : large.limit < l.chars.length
  · have hsmall : small.limit < l.chars.length := by omega
    rw [diagnostic?_of_long hlarge, diagnostic?_of_long hsmall]
    exact Echoes.truncated_both l.chars.length location
  · by_cases hinvalid : l.kind large = .invalid
    · have hinvalid' := (kind_eq_invalid_iff h).mpr hinvalid
      obtain ⟨x, rfl⟩ := eq_symbol_of_invalid hinvalid
      rw [diagnostic?_of_invalid hinvalid, diagnostic?_of_invalid hinvalid']
      apply Echoes.refl_of_invalid
      intro d hd
      rw [Option.toList_some, List.mem_singleton] at hd
      rw [hd]
      rfl
    · -- nothing is said under the larger limit, and under the smaller at most that it is cut
      rw [diagnostic?_of_valid (Nat.le_of_not_lt hlarge) hinvalid]
      apply Echoes.nil_of_truncated
      intro e he
      by_cases hsmall : small.limit < l.chars.length
      · rw [diagnostic?_of_long hsmall, Option.toList_some, List.mem_singleton] at he
        rw [he]
        rfl
      · have hvalid : l.kind small ≠ .invalid := mt (kind_eq_invalid_iff h).mp hinvalid
        rw [diagnostic?_of_valid (Nat.le_of_not_lt hsmall) hvalid] at he
        exact absurd he (by simp)

end Lexeme

/-- Two scanners that have done the same under two limits. -/
structure Scanner.InStep (small large : Config) (s t : Scanner) : Prop where
  small_eq : s.config = small
  large_eq : t.config = large
  origin_eq : s.origin = t.origin
  emitted_eq : s.emitted = t.emitted
  echoes : Echoes small.limit large.limit s.diagnostics t.diagnostics

/-- The scans of two scanners under two limits, token by token. -/
structure Scans.InStep (small large : Config) (a b : Scans) : Prop where
  tokens : List.Forall₂ (Token.Cuts small.limit) a.tokens b.tokens
  scanner : Scanner.InStep small large a.scanner b.scanner
  cursor_eq : a.cursor = b.cursor

namespace Scanner.InStep

variable {small large : Config} {s t : Scanner}

lemma start (small large : Config) (c : Cursor) :
    InStep small large (.start small c) (.start large c) := by
  have hnothing : ∀ config : Config, (Scanner.start config c).diagnostics = [] := fun _ => rfl
  constructor
  · rfl
  · rfl
  · rfl
  · rfl
  · rw [hnothing, hnothing]
    exact Echoes.refl_of_invalid (by simp)

lemma note (h : InStep small large s t) {found' found : Option Diagnostic}
    (hfound : Echoes small.limit large.limit found'.toList found.toList) :
    InStep small large (s.note found') (t.note found) := by
  constructor
  · exact h.small_eq
  · exact h.large_eq
  · exact h.origin_eq
  · rfl
  · rw [diagnostics_note, diagnostics_note]
    exact h.echoes.append hfound

lemma eof_cuts (h : InStep small large s t) (c : Cursor) :
    (s.eof c).Cuts small.limit (t.eof c) := by
  constructor
  · rw [eof, eof, h.origin_eq, h.emitted_eq]
  · exact List.take_nil.symm
  · rfl

/-- Two scanners in step take one lexeme each, and the same one. -/
theorem scan (h : InStep small large s t) (hconfig : small.Narrows large) (c : Cursor) :
    (s.scan c).token.Cuts small.limit (t.scan c).token ∧
      InStep small large (s.scan c).scanner (t.scan c).scanner ∧
      (s.scan c).cursor = (t.scan c).cursor := by
  cases hread : Lexeme.read? (c.skip .whitespace).rest with
  | none =>
    rw [scan_of_none hread, scan_of_none hread]
    exact ⟨h.eof_cuts (c.skip .whitespace), h, rfl⟩
  | some l =>
    rw [scan_of_some hread, scan_of_some hread, h.small_eq, h.large_eq]
    refine ⟨Lexeme.token_cuts hconfig _ l, ?_, rfl⟩
    exact h.note (Lexeme.diagnostic?_echoes hconfig _ l)

theorem scans (h : InStep small large s t) (hconfig : small.Narrows large) (n : Nat) (c : Cursor) :
    (s.scans n c).InStep small large (t.scans n c) := by
  induction n generalizing s t c with
  | zero =>
    constructor
    · exact .nil
    · exact h
    · rfl
  | succ n ih =>
    obtain ⟨htoken, hscanner, hcursor⟩ := h.scan hconfig c
    have hothers := ih hscanner (s.scan c).cursor
    rw [Scanner.scans, Scanner.scans, ← hcursor]
    constructor
    · exact .cons htoken hothers.tokens
    · exact hothers.scanner
    · exact hothers.cursor_eq

theorem drain (h : InStep small large s t) (hconfig : small.Narrows large) (c : Cursor) :
    (s.drain c).InStep small large (t.drain c) := by
  obtain ⟨pieces, tail, hcut⟩ := exists_cut c.rest
  -- how many scans there are depends on the cut of the text only
  have hlength : (s.drain c).tokens.length = (t.drain c).tokens.length := by
    rw [drain_of_cut hcut, drain_of_cut hcut]
    simp
  rw [s.drain_eq_scans c, t.drain_eq_scans c, hlength]
  exact h.scans hconfig _ c

end Scanner.InStep

/-- Under a smaller limit a text gives as many tokens, at the same places, with their texts cut short;
a keyword that loses some of its text is an identifier, and every other token keeps its kind. After any
number of scans the cursor stands where it stands under the larger limit. The same characters are
invalid, and what is cut under the larger limit is cut, with the same length, under the smaller. -/
theorem tokenize_smaller_limit {small large : Config} (h : small.Narrows large) (text : String)
    (source : Option String) :
    let c := Cursor.ofText text source
    List.Forall₂ (Token.Cuts small.limit) (tokenize small text source).1
      (tokenize large text source).1 ∧
    (∀ n, ((Scanner.start small c).scans n c).cursor = ((Scanner.start large c).scans n c).cursor) ∧
    (diagnostics small text source).filter (·.code = "L001") =
      (diagnostics large text source).filter (·.code = "L001") ∧
    ∀ d ∈ diagnostics large text source, d.code = "L002" → ∃ consumed : Nat,
      d = .lexemeTruncated consumed large.limit d.location ∧
        .lexemeTruncated consumed small.limit d.location ∈ diagnostics small text source := by
  intro c
  have hstart := Scanner.InStep.start small large c
  have hdrain := hstart.drain h c
  refine ⟨hdrain.tokens, ?_, hdrain.scanner.echoes.invalid_eq, hdrain.scanner.echoes.truncated⟩
  intro n
  exact (hstart.scans h n c).cursor_eq

/-- A keyword that is cut, and a character that is invalid whatever the limit is. -/
theorem tokenize_smaller_limit_of_while :
    ({ limit := 2 } : Config).Narrows default ∧
    List.Forall₂ (Token.Cuts 2) (tokenize { limit := 2 } "while @" none).1
      (tokenize default "while @" none).1 ∧
    (diagnostics { limit := 2 } "while @" none).filter (·.code = "L001") =
      (diagnostics default "while @" none).filter (·.code = "L001") := by
  have hnarrows : ({ limit := 2 } : Config).Narrows default := ⟨by decide, rfl, rfl⟩
  have hboth := tokenize_smaller_limit hnarrows "while @" none
  exact ⟨hnarrows, hboth.1, hboth.2.2.1⟩

end Munch
