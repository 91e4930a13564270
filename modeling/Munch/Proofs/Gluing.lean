import Munch.Proofs.Drain
import Munch.Proofs.Lines

/-!
# Putting texts together

Two texts put together have the lexemes of the first and then those of the second, moved to where
the second begins, unless the last lexeme of the first goes on into the second (`Joined`). Then
those two grow together, and there are fewer.
-/

namespace Munch

def Location.shift (base : Position) (l : Location) : Location :=
  { l with toPosition := base.shift l.toPosition }

def Token.shift (base : Position) (t : Token) : Token :=
  { t with location := t.location.shift base }

def Diagnostic.shift (base : Position) (d : Diagnostic) : Diagnostic :=
  { d with location := d.location.shift base }

/-- The last lexeme of a text ends where the text ends, and would go on into the next text. -/
def Joined (a b : List Char) : Prop := ∃ ps p, Cut a (ps ++ [p]) [] ∧ p.lexeme.Joins b

lemma Lexeme.diagnostic?_shift (config : Config) (base : Position) (location : Location)
    (l : Lexeme) :
    l.diagnostic? config (location.shift base) =
      (l.diagnostic? config location).map (Diagnostic.shift base) :=
  l.diagnostic?_relocate config (Location.shift base) location

namespace Occurrence

section Based

variable (config : Config) (base : Position) (source : Option String) (o : Occurrence)

/-- In a text that begins elsewhere everything is found moved by that place. -/
lemma location_shift : o.location base source = (o.location .start source).shift base := by
  rw [location, location, Position.start_after, ← Position.shift_endOf]
  rfl

lemma token_shift : o.token config base source = (o.token config .start source).shift base := by
  rw [token, location_shift]
  rfl

lemma diagnostic?_shift :
    o.diagnostic? config base source =
      (o.diagnostic? config .start source).map (Diagnostic.shift base) := by
  rw [diagnostic?, location_shift, Lexeme.diagnostic?_shift]
  rfl

end Based

lemma token_within_shift (config : Config) (a : List Char) (source : Option String)
    (o : Occurrence) :
    (o.within a).token config .start source = (o.token config .start source).shift (.endOf a) := by
  rw [token_within, token_shift, Position.start_after]

lemma diagnostic?_within_shift (config : Config) (a : List Char) (source : Option String)
    (o : Occurrence) :
    (o.within a).diagnostic? config .start source =
      (o.diagnostic? config .start source).map (Diagnostic.shift (.endOf a)) := by
  rw [diagnostic?_within, diagnostic?_shift, Position.start_after]

end Occurrence

section Shifted

variable (config : Config) (a : List Char) (source : Option String) (ps : List Piece)

lemma map_token_shift :
    (occurrences a ps).map (·.token config .start source) =
      ((occurrences [] ps).map (·.token config .start source)).map (Token.shift (.endOf a)) := by
  rw [occurrences_eq_map, List.map_map, List.map_map]
  apply List.map_congr_left
  intro o _
  exact o.token_within_shift config a source

lemma filterMap_diagnostic?_shift :
    (occurrences a ps).filterMap (·.diagnostic? config .start source) =
      ((occurrences [] ps).filterMap (·.diagnostic? config .start source)).map
        (Diagnostic.shift (.endOf a)) := by
  rw [occurrences_eq_map, List.filterMap_map, List.map_filterMap]
  congr 1
  funext o
  exact o.diagnostic?_within_shift config a source

end Shifted

lemma not_joined_of_blank_boundary {a b : List Char}
    (h : (∃ c ∈ a.getLast?, CharClass.whitespace.holds c = true) ∨
      ∃ c ∈ b.head?, CharClass.whitespace.holds c = true) : ¬ Joined a b := by
  rintro ⟨ps, p, hcut, hjoins⟩
  rcases h with ⟨c, hc, hblank⟩ | ⟨c, hc, hblank⟩
  · have hl : p.lexeme.WellFormed := hcut.wellFormed_of_mem p (by simp)
    have hlast : a.getLast? = p.lexeme.chars.getLast? := by
      rw [hcut.text_eq, List.append_nil, List.flatMap_append, List.flatMap_singleton, Piece.chars,
        ← List.append_assoc, List.getLast?_append_of_ne_nil _ hl.chars_ne_nil]
    rw [hlast] at hc
    rw [hl.not_whitespace c (List.mem_of_getLast? hc)] at hblank
    exact absurd hblank (by decide)
  · cases b with
    | nil => simp at hc
    | cons d b =>
      obtain rfl : d = c := by simpa using hc
      exact p.lexeme.not_joins_of_blank_head hblank b hjoins

namespace Cut

/-- Where nothing grows together, the cuts of two texts make one cut of the whole. -/
theorem append {a b w v : List Char} {ps qs : List Piece} (ha : Cut a ps w) (hb : Cut b qs v)
    (hj : ¬ Joined a b) :
    ∃ rs t, Cut (a ++ b) rs t ∧
      ∀ front, occurrences front rs = occurrences front ps ++ occurrences (front ++ a) qs := by
  induction ha with
  | @blanks w hw =>
    cases hb with
    | blanks hv =>
      refine ⟨[], w ++ b, .blanks ?_, fun front => rfl⟩
      exact fun c hc => (List.mem_append.mp hc).elim (hw c) (hv c)
    | @piece u rest tail l qs hu hl hjl more =>
      -- the last blanks of the first text come in front of the first blanks of the second
      refine ⟨⟨w ++ u, l⟩ :: qs, v, ?_, ?_⟩
      · rw [← List.append_assoc]
        exact .piece (fun c hc => (List.mem_append.mp hc).elim (hw c) (hu c)) hl hjl more
      · intro front
        simp only [occurrences, Piece.chars, List.append_assoc, List.nil_append]
  | @piece w rest tail l ps hw hl hjl more ih =>
    have hrest : ¬ Joined rest b := by
      rintro ⟨ps', p, hcut, hjoins⟩
      exact hj ⟨⟨w, l⟩ :: ps', p, .piece hw hl hjl hcut, hjoins⟩
    have hstop : ¬ l.Joins (rest ++ b) := by
      by_cases hempty : rest = []
      · subst hempty
        intro hjoins
        exact hj ⟨[], ⟨w, l⟩, .piece hw hl hjl (.blanks (by simp [Blank])), hjoins⟩
      · rwa [l.joins_append_of_ne_nil hempty]
    obtain ⟨rs, t, hcut, hoccurrences⟩ := ih hrest
    refine ⟨⟨w, l⟩ :: rs, t, ?_, ?_⟩
    · rw [List.append_assoc, List.append_assoc]
      exact .piece hw hl hstop hcut
    · intro front
      simp only [occurrences, hoccurrences, Piece.chars, List.append_assoc, List.cons_append]

end Cut

namespace Lexeme

def extend (more : List Char) : Lexeme → Lexeme
  | word run => word (run ++ more)
  | number run => number (run ++ more)
  | symbol c => symbol c

variable {l : Lexeme} {more : List Char}

@[simp] lemma takes_extend (l : Lexeme) (more : List Char) : (l.extend more).takes = l.takes := by
  cases l <;> rfl

lemma chars_extend (h : ∀ c ∈ more, l.takes c = true) :
    (l.extend more).chars = l.chars ++ more := by
  cases l with
  | word run => rfl
  | number run => rfl
  | symbol d =>
    cases more with
    | nil => rfl
    | cons c more => exact absurd (h c List.mem_cons_self) (by simp [takes])

lemma wellFormed_extend (hl : l.WellFormed) (h : ∀ c ∈ more, l.takes c = true) :
    (l.extend more).WellFormed := by
  cases l with
  | word run =>
    obtain ⟨⟨c, hc, hstart⟩, hrun⟩ := hl
    refine ⟨⟨c, ?_, hstart⟩, ?_⟩
    · rw [List.head?_append, Option.mem_def.mp hc]
      rfl
    · exact fun c hc => (List.mem_append.mp hc).elim (hrun c) (h c)
  | number run =>
    refine ⟨by simp [hl.1], ?_⟩
    exact fun c hc => (List.mem_append.mp hc).elim (hl.2 c) (h c)
  | symbol c => exact hl

end Lexeme

lemma Cut.ne_nil_of_concat {text tail : List Char} {ps : List Piece} {p : Piece}
    (h : Cut text (ps ++ [p]) tail) : text ≠ [] := by
  have hl : p.lexeme.WellFormed := h.wellFormed_of_mem p (by simp)
  rintro rfl
  have htext := h.text_eq
  simp [Piece.chars, hl.chars_ne_nil] at htext

lemma Cut.extend {a x : List Char} {ps : List Piece} {p : Piece} (h : Cut a (ps ++ [p]) [])
    (hx : ∀ c ∈ x, p.lexeme.takes c = true) :
    Cut (a ++ x) (ps ++ [⟨p.blanks, p.lexeme.extend x⟩]) [] := by
  induction ps generalizing a with
  | nil =>
    obtain ⟨hw, hl, rest, -, rfl, more⟩ := h.of_cons
    obtain rfl : rest = [] := more.of_nil.2
    have hcut := Cut.piece hw (Lexeme.wellFormed_extend hl hx)
      ((p.lexeme.extend x).not_joins_nil) (.blanks (w := []) (by simp [Blank]))
    rw [Lexeme.chars_extend hx] at hcut
    simpa using hcut
  | cons q ps ih =>
    obtain ⟨hw, hl, rest, hj, rfl, more⟩ := h.of_cons
    have hstop : ¬ q.lexeme.Joins (rest ++ x) := by
      rwa [q.lexeme.joins_append_of_ne_nil more.ne_nil_of_concat]
    rw [List.append_assoc, List.append_assoc]
    exact .piece hw hl hstop (ih more)

lemma not_joined_nil (b : List Char) : ¬ Joined [] b := by
  rintro ⟨ps, p, hcut, -⟩
  exact hcut.ne_nil_of_concat rfl

lemma Cut.not_joined {a b : List Char} {ps : List Piece} {p : Piece} (h : Cut a (ps ++ [p]) [])
    (hb : ∀ c ∈ b.head?, p.lexeme.takes c = false) : ¬ Joined a b := by
  rintro ⟨ps', p', hcut, c, hc, htakes⟩
  have hpieces := (h.unique hcut).1
  obtain ⟨-, hp⟩ := List.append_inj' hpieces rfl
  rw [List.singleton_inj] at hp
  subst hp
  rw [hb c hc] at htakes
  exact absurd htakes (by decide)

lemma not_joined_takeWhile (l : Lexeme) (b : List Char) :
    ¬ Joined (b.takeWhile l.takes) (b.dropWhile l.takes) := by
  have hstop := head?_dropWhile_false l.takes b
  have htaken : ∀ c ∈ b.takeWhile l.takes, l.takes c = true :=
    fun c hc => List.mem_takeWhile_imp hc
  cases l with
  | word run =>
    rintro ⟨ps, p, -, c, hc, htakes⟩
    have hword := Lexeme.identifierChar_of_takes htakes
    rw [show CharClass.identifierChar.holds c = false from hstop c hc] at hword
    exact absurd hword (by decide)
  | number run =>
    by_cases hempty : b.takeWhile (Lexeme.number run).takes = []
    · rw [hempty]
      exact not_joined_nil _
    · have hcut := Cut.piece (w := []) (l := .number (b.takeWhile (Lexeme.number run).takes))
        (by simp [Blank]) ⟨hempty, htaken⟩ (Lexeme.not_joins_nil _)
        (.blanks (w := []) (by simp [Blank]))
      rw [List.nil_append, List.append_nil, ← List.nil_append [_]] at hcut
      exact hcut.not_joined hstop
  | symbol d =>
    have hempty : b.takeWhile (Lexeme.symbol d).takes = [] := by
      cases b <;> rfl
    rw [hempty]
    exact not_joined_nil _

/-- At a joined boundary the last lexeme of the first text goes on, the lexemes before it stay, and
those after it are fewer than the second text had. -/
theorem Cut.append_joined {a b v : List Char} {ps qs : List Piece} {p : Piece}
    (ha : Cut a (ps ++ [p]) []) (hb : Cut b qs v) (hj : p.lexeme.Joins b) :
    ∃ rs t l more, Cut (a ++ b) rs t ∧
      occurrences [] rs =
        occurrences [] ps ++ ⟨ps.flatMap Piece.chars ++ p.blanks, l⟩ :: more ∧
      more.length < qs.length := by
  let x := b.takeWhile p.lexeme.takes
  let y := b.dropWhile p.lexeme.takes
  have hsplit : x ++ y = b := List.takeWhile_append_dropWhile
  have htaken : ∀ c ∈ x, p.lexeme.takes c = true := fun c hc => List.mem_takeWhile_imp hc
  have hgrown : Cut (a ++ x) (ps ++ [⟨p.blanks, p.lexeme.extend x⟩]) [] := ha.extend htaken
  have hstop : ¬ Joined (a ++ x) y := by
    apply hgrown.not_joined
    rw [Lexeme.takes_extend]
    exact head?_dropWhile_false p.lexeme.takes b
  -- the whole and the second text both break after what the last lexeme takes, and go on alike
  obtain ⟨xs, xt, hx⟩ := exists_cut x
  obtain ⟨ys, yt, hy⟩ := exists_cut y
  obtain ⟨rs, t, hcut, hrs⟩ := hgrown.append hy hstop
  obtain ⟨bs, bt, hcut', hbs⟩ := hx.append hy (not_joined_takeWhile p.lexeme b)
  rw [List.append_assoc, hsplit] at hcut
  rw [hsplit] at hcut'
  obtain ⟨rfl, rfl⟩ := hb.unique hcut'
  have hxs : xs ≠ [] := by
    rintro rfl
    obtain ⟨c, hc, htakes⟩ := hj
    cases b with
    | nil => simp at hc
    | cons d b =>
      obtain rfl : d = c := by simpa using hc
      have hmem : d ∈ x := by
        simp only [x, List.takeWhile_cons_of_pos htakes, List.mem_cons, true_or]
      have hblank := hx.of_nil.1 d hmem
      rw [CharClass.not_whitespace_of_identifierChar
        (Lexeme.identifierChar_of_takes htakes)] at hblank
      exact absurd hblank (by decide)
  refine ⟨rs, t, p.lexeme.extend x, occurrences (a ++ x) ys, hcut, ?_, ?_⟩
  · rw [hrs, occurrences_append_pieces, List.append_assoc]
    rfl
  · have hlength := congrArg List.length (hbs [])
    have hpos := List.length_pos_iff.mpr hxs
    rw [List.length_append, length_occurrences, length_occurrences, length_occurrences] at hlength
    rw [length_occurrences]
    omega

/-- Texts can be put together where the last lexeme of the first does not go on into the second:
tokens and diagnostics of the second follow those of the first, moved by the end of the first.
Otherwise the last lexeme of the first begins where it did, all before it stay as they are, and
there are fewer tokens than in the parts. -/
theorem tokenize_append (config : Config) (a b : String) (source : Option String) :
    ((∃ c ∈ a.toList.getLast?, CharClass.whitespace.holds c = true) ∨
        (∃ c ∈ b.toList.head?, CharClass.whitespace.holds c = true) →
      ¬ Joined a.toList b.toList) ∧
    (¬ Joined a.toList b.toList →
      lexemeTokens config (a ++ b) source =
          lexemeTokens config a source ++
            (lexemeTokens config b source).map (Token.shift (.endOf a.toList)) ∧
        diagnostics config (a ++ b) source =
          diagnostics config a source ++
            (diagnostics config b source).map (Diagnostic.shift (.endOf a.toList))) ∧
    (Joined a.toList b.toList →
      ∃ first last next more,
        lexemeTokens config a source = first ++ [last] ∧
        lexemeTokens config (a ++ b) source = first ++ next :: more ∧
        next.position = last.position ∧
        (lexemeTokens config (a ++ b) source).length <
          (lexemeTokens config a source).length + (lexemeTokens config b source).length) := by
  obtain ⟨ps, w, ha⟩ := exists_cut a.toList
  obtain ⟨qs, v, hb⟩ := exists_cut b.toList
  have htext : (a ++ b).toList = a.toList ++ b.toList := String.toList_append
  refine ⟨not_joined_of_blank_boundary, ?_, ?_⟩
  · intro hj
    obtain ⟨rs, t, hcut, hoccurrences⟩ := ha.append hb hj
    rw [← htext] at hcut
    have hrs := hoccurrences []
    rw [List.nil_append] at hrs
    constructor
    · rw [lexemeTokens_of_cut hcut, lexemeTokens_of_cut ha, lexemeTokens_of_cut hb, hrs,
        List.map_append, map_token_shift config a.toList]
    · rw [diagnostics_of_cut hcut, diagnostics_of_cut ha, diagnostics_of_cut hb, hrs,
        List.filterMap_append, filterMap_diagnostic?_shift config a.toList]
  · rintro ⟨ps', p, hcut', hjoins⟩
    obtain ⟨rfl, rfl⟩ := ha.unique hcut'
    obtain ⟨rs, t, l, more, hcut, hrs, hfewer⟩ := ha.append_joined hb hjoins
    rw [← htext] at hcut
    have hlast : occurrences [] (ps' ++ [p]) =
        occurrences [] ps' ++ [⟨ps'.flatMap Piece.chars ++ p.blanks, p.lexeme⟩] := by
      rw [occurrences_append_pieces]
      rfl
    rw [lexemeTokens_of_cut hcut, lexemeTokens_of_cut ha, lexemeTokens_of_cut hb, hrs, hlast,
      List.map_append, List.map_append, List.map_cons, List.map_cons, List.map_nil]
    refine ⟨_, _, _, _, rfl, rfl, rfl, ?_⟩
    simp only [List.length_append, List.length_cons, List.length_map, List.length_nil,
      length_occurrences]
    omega

end Munch
