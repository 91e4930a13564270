import Munch.Proofs.Listing

/-!
# Rendered diagnostics are unambiguous

A source may have any name, and it stands unquoted in front of a rendered diagnostic. What is rendered is
therefore read from its end: the last word tells which character or limit is meant, and what is in front of
it can be taken off piece by piece (`diagnostic_render_eq_iff`).
-/

namespace Munch

/-- Both parts of a text are known that is cut at the last place where some character stands. -/
lemma append_inj_of_last {x : Char} {mark a b u v : String} (hmark : mark.toList = [x])
    (hu : x ∉ u.toList) (hv : x ∉ v.toList) (h : a ++ mark ++ u = b ++ mark ++ v) : a = b ∧ u = v := by
  have hchars : a.toList ++ x :: u.toList = b.toList ++ x :: v.toList := by
    have hlist := congrArg String.toList h
    simpa only [String.toList_append, hmark, List.append_assoc, List.singleton_append] using hlist
  have hsplit := congrArg (List.splitOn x) hchars
  rw [List.splitOn_append_cons_self, List.splitOn_append_cons_self, List.splitOn_eq_singleton hu,
    List.splitOn_eq_singleton hv] at hsplit
  obtain ⟨-, hlast⟩ := List.append_inj' hsplit rfl
  rw [(List.cons.inj hlast).1] at hchars
  exact ⟨String.toList_injective (List.append_cancel_right hchars),
    String.toList_injective (List.cons.inj hlast).1⟩

/-- So are a text and an integer behind a mark that no integer is written with. -/
lemma append_toString_inj {x : Char} {mark a b : String} {m n : Int} (hmark : mark.toList = [x])
    (hdigit : x.isDigit = false) (hminus : x ≠ '-') (h : a ++ mark ++ toString m = b ++ mark ++ toString n) :
    a = b ∧ m = n := by
  obtain ⟨hfront, hlast⟩ := append_inj_of_last hmark (not_mem_toString hdigit hminus m)
    (not_mem_toString hdigit hminus n) h
  exact ⟨hfront, toString_int_inj (congrArg String.toList hlast)⟩

namespace Location

/-- The name of a source, if it has one, with a colon behind it. -/
def namePart (l : Location) : String := (Text.given? l.source).elim "" (· ++ ":")

lemma render_eq (l : Location) :
    l.render = l.namePart ++ toString l.line ++ ":" ++ toString l.column := by
  unfold render namePart
  cases Text.given? l.source <;> simp [Position.render, String.append_assoc]

lemma ne_append_line (m n : Int) (name : String) : toString m ≠ name ++ ":" ++ toString n := by
  intro h
  have hcolon : ':' ∉ (toString m).toList := not_mem_toString rfl (by decide) m
  apply hcolon
  rw [h, String.toList_append, String.toList_append]
  exact List.mem_append_left _ (List.mem_append_right _ List.mem_cons_self)

/-- A name with a colon behind it is seen to be there, as the number of a line has no colon. -/
lemma namePart_inj {l m : Location} (h : l.namePart ++ toString l.line = m.namePart ++ toString m.line) :
    l.line = m.line ∧ Text.given? l.source = Text.given? m.source := by
  unfold namePart at h
  cases hl : Text.given? l.source <;> cases hm : Text.given? m.source <;>
    simp only [hl, hm, Option.elim_none, Option.elim_some, String.empty_append] at h
  case none.none => exact ⟨toString_int_inj (congrArg String.toList h), rfl⟩
  case none.some name => exact absurd h (ne_append_line l.line m.line name)
  case some.none name => exact absurd h.symm (ne_append_line m.line l.line name)
  case some.some name other =>
    obtain ⟨rfl, hline⟩ := append_toString_inj rfl rfl (by decide) h
    exact ⟨hline, rfl⟩

/-- A rendered location tells the position and the name of the source. -/
theorem render_eq_iff {l m : Location} :
    l.render = m.render ↔
      l.line = m.line ∧ l.column = m.column ∧ Text.given? l.source = Text.given? m.source := by
  constructor
  · intro h
    rw [render_eq, render_eq] at h
    obtain ⟨hfront, hcolumn⟩ := append_toString_inj rfl rfl (by decide) h
    obtain ⟨hline, hsource⟩ := namePart_inj hfront
    exact ⟨hline, hcolumn, hsource⟩
  · rintro ⟨hline, hcolumn, hsource⟩
    rw [render_eq, render_eq, namePart, namePart, hline, hcolumn, hsource]

end Location

/-- What a diagnostic is about: a character that begins no lexeme, or a lexeme that was cut. -/
inductive Finding where
  | invalid (c : Char)
  | truncated (consumed limit : Int)
  deriving DecidableEq

namespace Finding

/-- The diagnostic of a finding at some place. -/
def diagnostic : Finding → Location → Diagnostic
  | invalid c => .invalidCharacter c
  | truncated consumed limit => .lexemeTruncated consumed limit

/-- The last word that is said of a finding. Of a space that is shown it is the second mark. -/
def lastWord : Finding → String
  | invalid c => if c = ' ' then "'" else Diagnostic.showChar c
  | truncated _ limit => toString limit

/-- What is said of a finding before the last word. -/
def opening : Finding → String
  | invalid c => ": error L001: invalid character" ++ if c = ' ' then " " ++ "'" else ""
  | truncated consumed _ =>
    ": warning L002: lexeme of" ++ " " ++ toString consumed ++ " characters truncated to"

lemma render_eq (f : Finding) (l : Location) :
    (f.diagnostic l).render = l.render ++ f.opening ++ " " ++ f.lastWord := by
  cases f with
  | invalid c =>
    have hparts : ": error L001: invalid character" =
      ": " ++ "error" ++ " " ++ "L001" ++ ": " ++ "invalid character" := rfl
    have hword : "invalid character " = "invalid character" ++ " " := rfl
    unfold diagnostic Diagnostic.render Diagnostic.invalidCharacter opening lastWord
    dsimp only
    rw [hparts, hword]
    split
    next hc =>
      have hshown : Diagnostic.showChar ' ' = "'" ++ " " ++ "'" := by decide +kernel
      rw [hc, hshown]
      simp only [String.append_assoc]
    next => simp only [String.append_assoc, String.empty_append]
  | truncated consumed limit =>
    have hparts : ": warning L002: lexeme of" =
      ": " ++ "warning" ++ " " ++ "L002" ++ ": " ++ "lexeme of" := rfl
    have hword : "lexeme of " = "lexeme of" ++ " " := rfl
    have hlast : " characters truncated to " = " characters truncated to" ++ " " := rfl
    unfold diagnostic Diagnostic.render Diagnostic.lexemeTruncated opening lastWord
    dsimp only
    rw [hparts, hword, hlast]
    simp only [String.append_assoc]

/-- What is shown of a character is no single mark and begins like no number. -/
lemma exists_showChar (c : Char) :
    ∃ x ∈ ['\'', '"', 'U'], ∃ rest ≠ [], (Diagnostic.showChar c).toList = x :: rest := by
  unfold Diagnostic.showChar
  split
  · rw [Text.quote, String.toList_ofList]
    refine ⟨Text.quoteMark (String.singleton c).toList, ?_, _, ?_, rfl⟩
    · rcases Text.quoteMark_eq (String.singleton c).toList with h | h <;> rw [h] <;> decide
    · simp
  · obtain ⟨width, -, hlabel⟩ := Text.toList_codePointLabel c
    exact ⟨'U', by decide, _, List.cons_ne_nil _ _, hlabel⟩

lemma space_not_mem_showChar {c : Char} (hc : c ≠ ' ') : ' ' ∉ (Diagnostic.showChar c).toList := by
  have halphabet : Text.escapeAlphabet.all (fun x => x != ' ' && x.toUpper != ' ') = true := by decide
  have hletter {x : Char} (hx : x ∈ Text.escapeAlphabet) : x ≠ ' ' ∧ x.toUpper ≠ ' ' := by
    simpa using List.all_eq_true.mp halphabet x hx
  unfold Diagnostic.showChar
  split
  · rw [Text.quote, String.toList_ofList, String.toList_singleton]
    intro h
    have hmark : ' ' ≠ Text.quoteMark [c] := by
      rcases Text.quoteMark_eq [c] with h | h <;> rw [h] <;> decide
    simp only [Text.quoteChars, List.flatMap_singleton, List.mem_cons, List.mem_append, List.not_mem_nil,
      or_false, hmark, false_or] at h
    rcases Text.mem_escape (Text.isPrintable_quoteMark [c]) h with ⟨h, -⟩ | h
    · exact hc h.symm
    · exact (hletter h).1 rfl
  · obtain ⟨width, -, hlabel⟩ := Text.toList_codePointLabel c
    rw [hlabel]
    intro h
    simp only [List.mem_cons, List.mem_map] at h
    rcases h with h | h | ⟨x, hx, h⟩
    · exact absurd h (by decide)
    · exact absurd h (by decide)
    · exact (hletter (Text.hexDigits_subset _ _ hx)).2 h

lemma space_not_mem_lastWord (f : Finding) : ' ' ∉ f.lastWord.toList := by
  cases f with
  | invalid c =>
    rw [lastWord]
    split
    next => decide
    next hc => exact space_not_mem_showChar hc
  | truncated consumed limit => exact not_mem_toString rfl (by decide) limit

lemma eq_of_lastWord {c d : Char} (h : (invalid c).lastWord = (invalid d).lastWord) : c = d := by
  have hmark (c : Char) : Diagnostic.showChar c ≠ "'" := by
    obtain ⟨x, -, rest, hrest, hshown⟩ := exists_showChar c
    intro h
    rw [h] at hshown
    exact hrest (List.cons.inj hshown).2.symm
  rw [lastWord, lastWord] at h
  split at h <;> split at h
  next hc hd => rw [hc, hd]
  next => exact absurd h.symm (hmark d)
  next => exact absurd h (hmark c)
  next => exact Diagnostic.showChar_injective h

lemma lastWord_ne (c : Char) (consumed limit : Int) :
    (invalid c).lastWord ≠ (truncated consumed limit).lastWord := by
  intro h
  obtain ⟨x, hx, rest, hbegins⟩ :
      ∃ x ∈ ['\'', '"', 'U'], ∃ rest, (invalid c).lastWord.toList = x :: rest := by
    rw [lastWord]
    split
    next => exact ⟨'\'', by decide, [], rfl⟩
    next =>
      obtain ⟨x, hx, rest, -, hshown⟩ := exists_showChar c
      exact ⟨x, hx, rest, hshown⟩
  have hnumeric : x.isDigit = true ∨ x = '-' := by
    rw [h, lastWord] at hbegins
    exact numeric_of_mem_toString (hbegins ▸ List.mem_cons_self)
  have hmarks : ['\'', '"', 'U'].all (fun x => !x.isDigit && x != '-') = true := by decide
  have hmark := List.all_eq_true.mp hmarks x hx
  rcases hnumeric with hdigit | rfl
  · simp [hdigit] at hmark
  · exact absurd hmark (by decide)

/-- What is rendered tells the finding and how the location is rendered. -/
lemma render_inj {f g : Finding} {l m : Location} (h : (f.diagnostic l).render = (g.diagnostic m).render) :
    f = g ∧ l.render = m.render := by
  rw [render_eq, render_eq] at h
  obtain ⟨hfront, hlast⟩ := append_inj_of_last rfl f.space_not_mem_lastWord g.space_not_mem_lastWord h
  cases f with
  | invalid c =>
    cases g with
    | invalid d =>
      obtain rfl := eq_of_lastWord hlast
      exact ⟨rfl, (String.append_left_inj _).mp hfront⟩
    | truncated consumed limit => exact absurd hlast (lastWord_ne c consumed limit)
  | truncated consumed limit =>
    cases g with
    | invalid d => exact absurd hlast.symm (lastWord_ne d consumed limit)
    | truncated consumed' limit' =>
      unfold opening at hfront
      simp only [← String.append_assoc] at hfront
      obtain ⟨hplace, rfl⟩ := append_toString_inj rfl rfl (by decide) ((String.append_left_inj _).mp hfront)
      rw [toString_int_inj (congrArg String.toList hlast)]
      exact ⟨rfl, (String.append_left_inj _).mp hplace⟩

end Finding

/-- Two diagnostics are rendered alike exactly if they say the same of the same place: code, severity, line
and column, the name of the source, and the character or the two numbers. A source with an empty name counts
as one without a name. -/
theorem diagnostic_render_eq_iff (f g : Finding) (l m : Location) :
    (f.diagnostic l).render = (g.diagnostic m).render ↔
      (f.diagnostic l).code = (g.diagnostic m).code ∧
      (f.diagnostic l).severity = (g.diagnostic m).severity ∧
      l.line = m.line ∧ l.column = m.column ∧ Text.given? l.source = Text.given? m.source ∧ f = g := by
  constructor
  · intro h
    obtain ⟨rfl, hplace⟩ := Finding.render_inj h
    obtain ⟨hline, hcolumn, hsource⟩ := Location.render_eq_iff.mp hplace
    cases f <;> exact ⟨rfl, rfl, hline, hcolumn, hsource, rfl⟩
  · rintro ⟨-, -, hline, hcolumn, hsource, rfl⟩
    rw [Finding.render_eq, Finding.render_eq, Location.render_eq_iff.mpr ⟨hline, hcolumn, hsource⟩]

end Munch
