import Mathlib
import Munch.Proofs.CommandLineOutput
import Munch.Proofs.Quoting

/-!
# A listing determines its tokens

Integers are written without a colon, and everything in a listing but its tabs and line feeds is printable.
So the lines of a listing, and the fields of a line, are where they seem to be, and no two lists of tokens are
shown alike (`listing_determines_tokens`).
-/

namespace Munch

lemma isDigit_of_mem_repr {n : Nat} {x : Char} (h : x ∈ n.repr.toList) : x.isDigit = true := by
  rw [Nat.repr_eq_ofList_toDigits, String.toList_ofList] at h
  exact Nat.isDigit_of_mem_toDigits (by decide) (by decide) h

/-- An integer is written with digits and a minus sign. -/
lemma numeric_of_mem_toString {n : Int} {x : Char} (h : x ∈ (toString n).toList) :
    x.isDigit = true ∨ x = '-' := by
  change x ∈ n.repr.toList at h
  rw [Int.repr_eq_if] at h
  split at h
  · exact Or.inl (isDigit_of_mem_repr h)
  · rw [String.toList_append, List.mem_append] at h
    rcases h with h | h
    · exact Or.inr (List.mem_singleton.mp h)
    · exact Or.inl (isDigit_of_mem_repr h)

lemma not_mem_toString {x : Char} (hdigit : x.isDigit = false) (hminus : x ≠ '-') (n : Int) :
    x ∉ (toString n).toList := by
  intro h
  rcases numeric_of_mem_toString h with h | h
  · rw [hdigit] at h
    exact absurd h (by decide)
  · exact hminus h

lemma toString_int_inj {m n : Int} (h : (toString m).toList = (toString n).toList) : m = n :=
  Int.repr_inj.mp (String.toList_injective h)

namespace Position

lemma toList_render (p : Position) :
    p.render.toList = (toString p.line).toList ++ ':' :: (toString p.column).toList := by
  simp [render]

lemma splitOn_render (p : Position) :
    p.render.toList.splitOn ':' = [(toString p.line).toList, (toString p.column).toList] := by
  rw [toList_render, List.splitOn_append_cons_self_of_not_mem (not_mem_toString rfl (by decide) _),
    List.splitOn_eq_singleton (not_mem_toString rfl (by decide) _)]

theorem render_injective {p q : Position} (h : p.render.toList = q.render.toList) : p = q := by
  have hparts := congrArg (List.splitOn ':') h
  rw [splitOn_render, splitOn_render, List.cons.injEq, List.cons.injEq] at hparts
  cases p
  cases q
  rw [Position.mk.injEq]
  exact ⟨toString_int_inj hparts.1, toString_int_inj hparts.2.1⟩

lemma isPrintable_of_mem_render {p : Position} {x : Char} (h : x ∈ p.render.toList) :
    Text.isPrintable x = true := by
  have hnumeric {n : Int} (hx : x ∈ (toString n).toList) : Text.isPrintable x = true := by
    rcases numeric_of_mem_toString hx with hdigit | rfl
    · rw [Char.isDigit_iff_toNat] at hdigit
      have hzero : '0'.toNat = 48 := rfl
      have hnine : '9'.toNat = 57 := rfl
      apply Text.isPrintable_of_graphic
      simp only [Text.isGraphic, Bool.and_eq_true, decide_eq_true_eq]
      omega
    · exact Text.isPrintable_of_graphic (by decide)
  rw [toList_render, List.mem_append, List.mem_cons] at h
  rcases h with h | rfl | h
  · exact hnumeric h
  · exact Text.isPrintable_of_graphic (by decide)
  · exact hnumeric h

end Position

lemma TokenKind.isPrintable_of_mem_name {k : TokenKind} {x : Char} (h : x ∈ k.name.toList) :
    Text.isPrintable x = true := by
  have hall : k.name.toList.all Text.isGraphic = true := by
    cases k <;> decide +kernel
  exact Text.isPrintable_of_graphic (List.all_eq_true.mp hall x h)

/-- The characters that end a line for some reader of texts. -/
def Text.lineBreaks : List Char :=
  ['\n', '\r', '\x0b', '\x0c', '\x1c', '\x1d', '\x1e', '\x1f', '\u0085', '\u2028', '\u2029']

lemma Text.not_isPrintable_of_break {x : Char} (h : x = '\t' ∨ x ∈ Text.lineBreaks) :
    Text.isPrintable x = false := by
  have hall : ('\t' :: Text.lineBreaks).all (fun x => !Text.isPrintable x) = true := by decide +kernel
  simpa using List.all_eq_true.mp hall x (List.mem_cons.mpr h)

namespace Token

/-- What a listing shows of a token: all of it but the name of its source. -/
def shown (t : Token) : TokenKind × String × Int × Int :=
  (t.kind, t.text, t.position.line, t.position.column)

/-- The three fields of the line of a token. -/
def fields (t : Token) : List (List Char) :=
  [t.position.render.toList, t.kind.name.toList, (Text.quote t.text).toList]

lemma toList_listing (t : Token) :
    t.listing.toList = t.position.render.toList ++ '\t' :: (t.kind.name.toList ++ '\t' ::
      (Text.quote t.text).toList) := by
  simp [listing]

lemma isPrintable_of_mem_fields {t : Token} {field : List Char} (hfield : field ∈ t.fields) {x : Char}
    (h : x ∈ field) : Text.isPrintable x = true := by
  simp only [fields, List.mem_cons, List.not_mem_nil, or_false] at hfield
  rcases hfield with rfl | rfl | rfl
  · exact Position.isPrintable_of_mem_render h
  · exact TokenKind.isPrintable_of_mem_name h
  · rw [Text.quote, String.toList_ofList] at h
    exact Text.isPrintable_of_mem_quoteChars h

lemma not_mem_field {t : Token} {field : List Char} (hfield : field ∈ t.fields) {x : Char}
    (hx : Text.isPrintable x = false) : x ∉ field := by
  intro h
  rw [isPrintable_of_mem_fields hfield h] at hx
  exact absurd hx (by decide)

/-- A line is split at its tabs into its fields. -/
theorem splitOn_listing (t : Token) : t.listing.toList.splitOn '\t' = t.fields := by
  have htab {field : List Char} (hfield : field ∈ t.fields) : '\t' ∉ field :=
    not_mem_field hfield (Text.not_isPrintable_of_break (Or.inl rfl))
  rw [toList_listing, List.splitOn_append_cons_self_of_not_mem (htab (by simp [fields])),
    List.splitOn_append_cons_self_of_not_mem (htab (by simp [fields])),
    List.splitOn_eq_singleton (htab (by simp [fields]))]
  rfl

lemma count_tab_listing (t : Token) : t.listing.toList.count '\t' = 2 := by
  have hfield {field : List Char} (h : field ∈ t.fields) : field.count '\t' = 0 :=
    List.count_eq_zero.mpr (not_mem_field h (Text.not_isPrintable_of_break (Or.inl rfl)))
  rw [toList_listing, List.count_append, List.count_cons_self, List.count_append, List.count_cons_self,
    hfield (by simp [fields]), hfield (by simp [fields]), hfield (by simp [fields])]

lemma not_mem_listing_of_break {x : Char} (h : x ∈ Text.lineBreaks) (t : Token) : x ∉ t.listing.toList := by
  have hx := Text.not_isPrintable_of_break (Or.inr h)
  have htab : x ≠ '\t' := by
    rintro rfl
    exact absurd h (by decide)
  rw [toList_listing, List.mem_append, List.mem_cons, List.mem_append, List.mem_cons]
  rintro (hmem | hmem | hmem | hmem | hmem)
  · exact not_mem_field (t := t) (by simp [fields]) hx hmem
  · exact htab hmem
  · exact not_mem_field (t := t) (by simp [fields]) hx hmem
  · exact htab hmem
  · exact not_mem_field (t := t) (by simp [fields]) hx hmem

/-- A line shows its token and nothing else. -/
theorem listing_eq_iff {t u : Token} : t.listing = u.listing ↔ t.shown = u.shown := by
  constructor
  · intro h
    have hfields := congrArg (fun line => line.toList.splitOn '\t') h
    simp only [splitOn_listing, fields, List.cons.injEq, and_true] at hfields
    obtain ⟨hposition, hname, hquote⟩ := hfields
    rw [shown, shown, TokenKind.name_injective (String.toList_injective hname),
      Text.quote_injective (String.toList_injective hquote), Position.render_injective hposition]
  · intro h
    simp only [shown, Prod.mk.injEq] at h
    obtain ⟨hkind, htext, hline, hcolumn⟩ := h
    simp only [listing, Position.render, hkind, htext, hline, hcolumn]

end Token

namespace CommandLine

/-- A text of lines is split at its line feeds into the lines. Nothing follows the last one. -/
theorem splitOn_unlines {lines : List String} (h : ∀ line ∈ lines, '\n' ∉ line.toList) :
    (unlines lines).toList.splitOn '\n' = lines.map String.toList ++ [[]] := by
  induction lines with
  | nil => rfl
  | cons line lines ih =>
    have htext : (unlines (line :: lines)).toList = line.toList ++ '\n' :: (unlines lines).toList := by
      simp [unlines_cons]
    rw [htext, List.splitOn_append_cons_self_of_not_mem (h line List.mem_cons_self),
      ih fun other hother => h other (List.mem_cons_of_mem line hother)]
    rfl

lemma splitOn_listing_lines (tokens : List Token) :
    (unlines (tokens.map Token.listing)).toList.splitOn '\n' =
      tokens.map (fun t => t.listing.toList) ++ [[]] := by
  rw [splitOn_unlines, List.map_map]
  · rfl
  · intro line hline
    obtain ⟨t, -, rfl⟩ := List.mem_map.mp hline
    exact t.not_mem_listing_of_break (by decide)

lemma map_eq_map_congr {α β γ : Type} {f : α → β} {g : α → γ} (h : ∀ t u, f t = f u ↔ g t = g u)
    (a b : List α) : a.map f = b.map f ↔ a.map g = b.map g := by
  rw [← List.forall₂_eq_eq_eq, ← List.forall₂_eq_eq_eq]
  simp only [List.forall₂_map_left_iff, List.forall₂_map_right_iff, h]

lemma unlines_listing_eq_iff {tokens others : List Token} :
    unlines (tokens.map Token.listing) = unlines (others.map Token.listing) ↔
      tokens.map Token.shown = others.map Token.shown := by
  constructor
  · intro h
    have hsplit := congrArg (fun text => text.toList.splitOn '\n') h
    simp only [splitOn_listing_lines] at hsplit
    have hchars (t u : Token) : t.listing.toList = u.listing.toList ↔ t.shown = u.shown :=
      String.toList_inj.trans Token.listing_eq_iff
    exact (map_eq_map_congr hchars tokens others).mp (List.append_cancel_right hsplit)
  · intro h
    rw [(map_eq_map_congr (fun _ _ => Token.listing_eq_iff) tokens others).mpr h]

/-- What the program prints for a list of tokens is a line for each of them. The line feeds of the whole
are those between the lines, and the tabs of a line those between its position, its kind and its quoted
text. No line has another break in it and no two texts are quoted alike, so what is printed determines the
kinds, texts and positions of the tokens. -/
theorem listing_determines_tokens :
    (∀ tokens : List Token, (tokens.foldl (Tally.add false) {}).printed =
      unlines (tokens.map Token.listing)) ∧
    (∀ tokens others : List Token,
      unlines (tokens.map Token.listing) = unlines (others.map Token.listing) ↔
        tokens.map Token.shown = others.map Token.shown) ∧
    (∀ tokens : List Token, (unlines (tokens.map Token.listing)).toList.splitOn '\n' =
      tokens.map (fun t => t.listing.toList) ++ [[]]) ∧
    (∀ t : Token, t.listing.toList.splitOn '\t' =
      [t.position.render.toList, t.kind.name.toList, (Text.quote t.text).toList]) ∧
    (∀ t : Token, (∀ x ∈ Text.lineBreaks, x ∉ t.listing.toList) ∧ t.listing.toList.count '\t' = 2) ∧
    Function.Injective Text.quote := by
  refine ⟨fun tokens => ?_, fun tokens others => unlines_listing_eq_iff, splitOn_listing_lines,
    Token.splitOn_listing, fun t => ⟨fun x hx => t.not_mem_listing_of_break hx, t.count_tab_listing⟩,
    Text.quote_injective⟩
  rw [Tally.foldl_add]
  simp

end CommandLine

end Munch
