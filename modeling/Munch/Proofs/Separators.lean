import Munch.Proofs.Quoting
import Munch.Proofs.Relexing
import Munch.Proofs.Scans

/-!
# Separators under either name

Whether separators are enabled decides what a separator is called and whether it is complained of. It moves
no cursor and touches no other token, as no separator is an operator or begins a word or a number
(`scans_relabelled`).
-/

namespace Munch

/-- The same settings with another value for separators. -/
def Config.withSeparators (config : Config) (v : Value) : Config := { config with separators := v }

/-- The token `u` is `t`, but that a separator, which is invalid in `t`, has a kind of its own. -/
structure Token.Relabels (u t : Token) : Prop where
  text_eq : u.text = t.text
  location_eq : u.location = t.location
  kind_of_separator : CharClass.separator.holdsText t.text = true → t.kind = .invalid ∧ u.kind = .separator
  kind_eq : CharClass.separator.holdsText t.text = false → u.kind = t.kind

/-- What is said is that a separator is no valid character. -/
def Diagnostic.TellsOfSeparator (d : Diagnostic) : Prop :=
  ∃ x ∈ CharClass.separators, d = .invalidCharacter x d.location

instance : DecidablePred Diagnostic.TellsOfSeparator := fun d =>
  inferInstanceAs (Decidable (∃ x ∈ CharClass.separators, d = .invalidCharacter x d.location))

namespace Diagnostic

lemma tellsOfSeparator_invalidCharacter_iff {x : Char} {location : Location} :
    (invalidCharacter x location).TellsOfSeparator ↔ x ∈ CharClass.separators := by
  constructor
  · rintro ⟨y, hy, hsaid⟩
    have hmessage := congrArg Diagnostic.message hsaid
    have hshown : showChar x = showChar y := (String.append_right_inj _).mp hmessage
    rwa [showChar_injective hshown]
  · intro hx
    exact ⟨x, hx, rfl⟩

lemma not_tellsOfSeparator_of_code {d : Diagnostic} (h : d.code = "L002") : ¬ d.TellsOfSeparator := by
  rintro ⟨x, -, hsaid⟩
  have hcode : "L002" = "L001" := h.symm.trans (congrArg Diagnostic.code hsaid)
  exact absurd hcode (by decide)

end Diagnostic

namespace Lexeme

variable {a b config : Config} {v w : Value} {location : Location} {l : Lexeme}

lemma token_congr (hlimit : a.limit = b.limit) (hkind : l.kind a = l.kind b) :
    l.token a location = l.token b location := by
  rw [token, token, hkind, kept, kept, hlimit]

lemma diagnostic?_congr (hlimit : a.limit = b.limit) (hkind : l.kind a = l.kind b) :
    l.diagnostic? a location = l.diagnostic? b location := by
  have htruncated : l.truncated a = l.truncated b := by
    rw [truncated, truncated, hlimit]
  unfold diagnostic?
  rw [htruncated, hlimit, hkind]

lemma kind_of_separator {x : Char} (hx : x ∈ CharClass.separators) (config : Config) :
    (symbol x).kind config = if config.separates then .separator else .invalid := by
  have hoperator : CharClass.operator.holds x = false := by
    simpa [CharClass.holds] using CharClass.not_operator_of_separator hx
  have hseparator : CharClass.separator.holds x = true := List.contains_iff_mem.mpr hx
  rw [kind, hoperator, hseparator, Bool.and_true]
  rfl

lemma kind_of_disabled {x : Char} (hx : x ∈ CharClass.separators) (hv : v.truth = false) (config : Config) :
    (symbol x).kind (config.withSeparators v) = .invalid := by
  have hseparates : (config.withSeparators v).separates = false := hv
  rw [kind_of_separator hx, hseparates]
  rfl

lemma kind_of_enabled {x : Char} (hx : x ∈ CharClass.separators) (hw : w.truth = true) (config : Config) :
    (symbol x).kind (config.withSeparators w) = .separator := by
  have hseparates : (config.withSeparators w).separates = true := hw
  rw [kind_of_separator hx, hseparates]
  rfl

/-- The value for separators makes no difference to the other lexemes. -/
lemma kind_of_other (h : ∀ x ∈ CharClass.separators, l ≠ symbol x) (v : Value) :
    l.kind (config.withSeparators v) = l.kind config := by
  cases l with
  | word run => rfl
  | number run => rfl
  | symbol x =>
    have hseparator : CharClass.separator.holds x = false := by
      rw [← Bool.not_eq_true]
      exact fun hx => h x (List.contains_iff_mem.mp hx) rfl
    rw [kind, kind, hseparator, Bool.and_false, Bool.and_false]

/-- Only the truth of the value counts. -/
lemma kind_of_truth_eq (h : v.truth = w.truth) (l : Lexeme) :
    l.kind (config.withSeparators v) = l.kind (config.withSeparators w) := by
  have hseparates : (config.withSeparators v).separates = (config.withSeparators w).separates := h
  cases l with
  | word run => rfl
  | number run => rfl
  | symbol x => rw [kind, kind, hseparates]

lemma holdsText_kept_iff (h : l.WellFormed) (config : Config) :
    CharClass.separator.holdsText (l.kept config) = true ↔ ∃ x ∈ CharClass.separators, l = symbol x := by
  constructor
  · intro hholds
    rw [CharClass.holdsText, kept, String.toList_ofList] at hholds
    split at hholds
    case h_2 => exact absurd hholds (by simp)
    case h_1 x hx =>
      have hmem : x ∈ CharClass.separators := List.contains_iff_mem.mp hholds
      have hhead : l.chars.head? = some x := by
        have hkept := congrArg List.head? hx
        rwa [List.head?_take, if_neg (Nat.pos_iff_ne_zero.mp config.limit_pos)] at hkept
      -- a separator begins neither a word nor a number
      obtain ⟨-, hstart, hdigit⟩ :=
        CharClass.wellFormed_of_mark (List.mem_append_right CharClass.operators hmem)
      cases l with
      | word run =>
        obtain ⟨c, hc, hbegins⟩ := h.1
        rw [chars, hc] at hhead
        rw [Option.some.inj hhead, hstart] at hbegins
        exact absurd hbegins (by decide)
      | number run =>
        have hdigits := h.2 x (List.mem_of_mem_head? hhead)
        rw [hdigit] at hdigits
        exact absurd hdigits (by decide)
      | symbol y =>
        rw [chars, List.head?_cons, Option.some_inj] at hhead
        exact ⟨x, hmem, by rw [hhead]⟩
  · rintro ⟨x, hx, rfl⟩
    rw [CharClass.holdsText, kept_of_fits (length_symbol_le config x), String.toList_ofList]
    exact List.contains_iff_mem.mpr hx

theorem token_relabels (h : l.WellFormed) (hv : v.truth = false) (hw : w.truth = true) :
    (l.token (config.withSeparators w) location).Relabels (l.token (config.withSeparators v) location) := by
  constructor
  · rfl
  · rfl
  · intro hholds
    obtain ⟨x, hx, rfl⟩ := (holdsText_kept_iff h (config.withSeparators v)).mp hholds
    exact ⟨kind_of_disabled hx hv config, kind_of_enabled hx hw config⟩
  · intro hholds
    have hother : ∀ x ∈ CharClass.separators, l ≠ symbol x := by
      intro x hx hl
      have hseparator := (holdsText_kept_iff h (config.withSeparators v)).mpr ⟨x, hx, hl⟩
      exact absurd (hseparator.symm.trans hholds) (by decide)
    exact (kind_of_other hother w).trans (kind_of_other hother v).symm

lemma not_tellsOfSeparator {d : Diagnostic} (h : ∀ x ∈ CharClass.separators, l ≠ symbol x)
    (hd : l.diagnostic? config location = some d) : ¬ d.TellsOfSeparator := by
  by_cases hlong : config.limit < l.chars.length
  · rw [diagnostic?_of_long hlong] at hd
    obtain rfl := Option.some.inj hd
    exact Diagnostic.not_tellsOfSeparator_of_code rfl
  · by_cases hinvalid : l.kind config = .invalid
    · obtain ⟨y, rfl⟩ := eq_symbol_of_invalid hinvalid
      rw [diagnostic?_of_invalid hinvalid] at hd
      obtain rfl := Option.some.inj hd
      rw [Diagnostic.tellsOfSeparator_invalidCharacter_iff]
      exact fun hy => h y hy rfl
    · rw [diagnostic?_of_valid (Nat.le_of_not_lt hlong) hinvalid] at hd
      exact absurd hd (by simp)

theorem diagnostic?_enabled (hv : v.truth = false) (hw : w.truth = true) (location : Location) (l : Lexeme) :
    l.diagnostic? (config.withSeparators w) location =
      (l.diagnostic? (config.withSeparators v) location).filter (¬ ·.TellsOfSeparator) := by
  by_cases hseparator : ∃ x ∈ CharClass.separators, l = symbol x
  · obtain ⟨x, hx, rfl⟩ := hseparator
    have hsilent : (symbol x).diagnostic? (config.withSeparators w) location = none := by
      apply diagnostic?_of_valid (length_symbol_le _ x)
      rw [kind_of_enabled hx hw config]
      decide
    have hseparator : (Diagnostic.invalidCharacter x location).TellsOfSeparator :=
      Diagnostic.tellsOfSeparator_invalidCharacter_iff.mpr hx
    rw [hsilent, diagnostic?_of_invalid (kind_of_disabled hx hv config), Option.filter_some,
      if_neg (by simpa using hseparator)]
  · push Not at hseparator
    have hsame : l.diagnostic? (config.withSeparators w) location =
        l.diagnostic? (config.withSeparators v) location :=
      diagnostic?_congr rfl ((kind_of_other hseparator w).trans (kind_of_other hseparator v).symm)
    rw [hsame]
    cases hd : l.diagnostic? (config.withSeparators v) location with
    | none => rfl
    | some d =>
      rw [Option.filter_some, if_pos (by simpa using not_tellsOfSeparator hseparator hd)]

end Lexeme

/-- Two values for separators that are both true, or both false, make no difference at all. Where they are
enabled, any number of scans leaves the cursor where it is left where they are not, and gives the same tokens,
but that each separator has a kind of its own and is not invalid. What is said is the same, but for what is
said of separators. -/
theorem scans_relabelled (config : Config) (v w : Value) (text : String) (source : Option String) (n : Nat) :
    let c := Cursor.ofText text source
    let a := (Scanner.start (config.withSeparators v) c).scans n c
    let b := (Scanner.start (config.withSeparators w) c).scans n c
    (v.truth = w.truth → b.tokens = a.tokens ∧ b.cursor = a.cursor ∧
      b.scanner.diagnostics = a.scanner.diagnostics) ∧
    (v.truth = false → w.truth = true → b.cursor = a.cursor ∧
      List.Forall₂ Token.Relabels b.tokens a.tokens ∧
      b.scanner.diagnostics = a.scanner.diagnostics.filter (¬ ·.TellsOfSeparator) ∧
      b.scanner.diagnostics.filter (·.code = "L002") = a.scanner.diagnostics.filter (·.code = "L002")) := by
  intro c a b
  obtain ⟨ps, tail, hcut⟩ := exists_cut c.rest
  obtain ⟨htokens, hcursor, -, hsaid⟩ := Scanner.scans_start hcut (config.withSeparators v) n
  obtain ⟨htokens', hcursor', -, hsaid'⟩ := Scanner.scans_start hcut (config.withSeparators w) n
  have hplace : b.cursor = a.cursor := hcursor'.trans hcursor.symm
  constructor
  · intro hsame
    refine ⟨?_, hplace, ?_⟩
    · rw [htokens, htokens']
      congr 1
      apply List.map_congr_left
      intro o _
      exact Lexeme.token_congr rfl (Lexeme.kind_of_truth_eq hsame.symm o.lexeme)
    · rw [hsaid, hsaid']
      apply List.filterMap_congr
      intro o _
      exact Lexeme.diagnostic?_congr rfl (Lexeme.kind_of_truth_eq hsame.symm o.lexeme)
  · intro hv hw
    have hfiltered : b.scanner.diagnostics = a.scanner.diagnostics.filter (¬ ·.TellsOfSeparator) := by
      rw [hsaid, hsaid', List.filter_filterMap]
      apply List.filterMap_congr
      intro o _
      exact Lexeme.diagnostic?_enabled hv hw _ o.lexeme
    refine ⟨hplace, ?_, hfiltered, ?_⟩
    · rw [htokens, htokens']
      apply List.rel_append
      · rw [List.forall₂_map_left_iff, List.forall₂_map_right_iff, List.forall₂_same]
        intro o ho
        obtain ⟨p, hp, hlexeme⟩ := exists_piece_of_mem ho
        have hformed := hcut.wellFormed_of_mem p (List.mem_of_mem_take hp)
        rw [hlexeme] at hformed
        exact Lexeme.token_relabels hformed hv hw
      · have hempty : CharClass.separator.holdsText "" = false := by decide
        rw [List.forall₂_same]
        intro t ht
        rw [List.eq_of_mem_replicate ht]
        exact ⟨rfl, rfl, fun hholds => absurd (hempty.symm.trans hholds) (by decide), fun _ => rfl⟩
    · rw [hfiltered, List.filter_filter]
      apply List.filter_congr
      intro d _
      by_cases hcode : d.code = "L002"
      · simp [hcode, Diagnostic.not_tellsOfSeparator_of_code hcode]
      · simp [hcode]

/-- A bracket and a character that is invalid under either configuration. -/
theorem scans_relabelled_of_bracket :
    let c := Cursor.ofText "f(@"
    let a := (Scanner.start ((default : Config).withSeparators .null) c).scans 4 c
    let b := (Scanner.start ((default : Config).withSeparators (.int 2)) c).scans 4 c
    a.tokens.map (·.kind) = [.identifier, .invalid, .invalid, .eof] ∧
      List.Forall₂ Token.Relabels b.tokens a.tokens ∧
      b.scanner.diagnostics = a.scanner.diagnostics.filter (¬ ·.TellsOfSeparator) := by
  intro c a b
  have hboth := (scans_relabelled default .null (.int 2) "f(@" none 4).2 rfl rfl
  exact ⟨by decide +kernel, hboth.2.1, hboth.2.2.1⟩

end Munch
