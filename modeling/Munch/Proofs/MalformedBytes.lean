import Munch.Proofs.ByteRuns
import Munch.Proofs.FileText
import Munch.Proofs.Gluing

/-!
# Files of any bytes

A file can be read whatever its bytes are. Its runs of ASCII bytes have the lexemes that they would
have as texts of their own, and the runs of other bytes between them are refused character by
character (`Portion.Reads`): no class of characters reaches beyond ASCII, so nothing grows over the
end of a run.
-/

namespace Munch

open Encoding (beyond runs asciiText Alternates RunText)

def Token.inAscii (t : Token) : Bool := t.text.toList.all fun c => c.toNat < 0x80

/-- A token for a character beyond ASCII, with the diagnostic that refuses it. -/
def Refused (t : Token) (d : Diagnostic) : Prop :=
  t.kind = .invalid ∧
    ∃ c : Char, 0x80 ≤ c.toNat ∧ t.text = String.singleton c ∧ d = .invalidCharacter c t.location

/-- Tokens that follow each other, and what is said of them. -/
structure Portion where
  tokens : List Token
  said : List Diagnostic

/-- What a run of bytes gives. -/
inductive Portion.Reads (config : Config) (source : Option String) : List UInt8 → Portion → Prop
  | ascii {run : List UInt8} (base : Position) (h : ∀ b ∈ run, beyond b = false) :
      Reads config source run
        ⟨(lexemeTokens config (String.ofList (asciiText run)) source).map (Token.shift base),
          (diagnostics config (String.ofList (asciiText run)) source).map (Diagnostic.shift base)⟩
  | beyond {run : List UInt8} {tokens : List Token} {said : List Diagnostic}
      (h : ∀ b ∈ run, beyond b = true) (nonempty : 1 ≤ tokens.length)
      (most : tokens.length ≤ run.length) (refused : List.Forall₂ Refused tokens said) :
      Reads config source run ⟨tokens, said⟩

lemma Cut.mem_text {text tail : List Char} {ps : List Piece} (h : Cut text ps tail) {p : Piece}
    (hp : p ∈ ps) : ∀ c ∈ p.lexeme.chars, c ∈ text := by
  intro c hc
  rw [h.text_eq]
  exact List.mem_append_left _ (List.mem_flatMap_of_mem hp (List.mem_append_right _ hc))

/-- A lexeme that goes on does so from ASCII to ASCII. -/
lemma not_joined_of_beyond {a b : List Char}
    (h : (∀ c ∈ a, 0x80 ≤ c.toNat) ∨ ∀ c ∈ b.head?, 0x80 ≤ c.toNat) : ¬ Joined a b := by
  rintro ⟨ps, p, hcut, c, hc, htakes⟩
  rcases h with h | h
  · have hl : p.lexeme.WellFormed := hcut.wellFormed_of_mem p (by simp)
    have hchars : ∀ d ∈ p.lexeme.chars, CharClass.identifierChar.holds d = true := by
      cases hp : p.lexeme with
      | word run =>
        rw [hp] at hl
        exact hl.2
      | number run =>
        rw [hp] at hl
        exact fun d hd => CharClass.identifierChar_of_digit (hl.2 d hd)
      | symbol d =>
        rw [hp] at htakes
        exact absurd htakes (by simp [Lexeme.takes])
    obtain ⟨d, hd⟩ := List.exists_mem_of_ne_nil _ hl.chars_ne_nil
    have hlow := CharClass.lt_of_holds (hchars d hd)
    have hhigh := h d (hcut.mem_text (by simp) d hd)
    omega
  · have hlow := CharClass.lt_of_holds (Lexeme.identifierChar_of_takes htakes)
    have hhigh := h c hc
    omega

lemma not_holds_of_beyond {c : Char} (hc : 0x80 ≤ c.toNat) (k : CharClass) :
    k.holds c = false := by
  rw [← Bool.not_eq_true]
  intro h
  have hlow := CharClass.lt_of_holds h
  omega

lemma cut_of_beyond {text : List Char} (h : ∀ c ∈ text, 0x80 ≤ c.toNat) :
    Cut text (text.map fun c => ⟨[], .symbol c⟩) [] := by
  induction text with
  | nil => exact .blanks (by simp [Blank])
  | cons c text ih =>
    rw [List.forall_mem_cons] at h
    have hl : (Lexeme.symbol c).WellFormed :=
      ⟨not_holds_of_beyond h.1 _, not_holds_of_beyond h.1 _, not_holds_of_beyond h.1 _⟩
    exact .piece (w := []) (by simp [Blank]) hl (by simp [Lexeme.Joins, Lexeme.takes]) (ih h.2)

def portion (config : Config) (source : Option String) (os : List Occurrence) : Portion :=
  ⟨os.map (·.token config .start source), os.filterMap (·.diagnostic? config .start source)⟩

section Portions

variable {config : Config} {source : Option String}

lemma forall₂_refused {os : List Occurrence}
    (h : ∀ o ∈ os, ∃ c, o.lexeme = .symbol c ∧ 0x80 ≤ c.toNat) :
    List.Forall₂ Refused (portion config source os).tokens (portion config source os).said := by
  induction os with
  | nil => exact .nil
  | cons o os ih =>
    rw [List.forall_mem_cons] at h
    obtain ⟨⟨c, hc, hbeyond⟩, hrest⟩ := h
    have hinvalid : (Lexeme.symbol c).kind config = .invalid := by
      simp [Lexeme.kind, not_holds_of_beyond hbeyond]
    have hsaid : o.diagnostic? config .start source =
        some (.invalidCharacter c (o.location .start source)) := by
      rw [Occurrence.diagnostic?, hc, Lexeme.diagnostic?_of_invalid hinvalid]
    have hkept : (Lexeme.symbol c).kept config = String.singleton c := by
      rw [Lexeme.kept, List.take_of_length_le (Lexeme.length_symbol_le config c)]
      rfl
    rw [portion, List.map_cons, List.filterMap_cons_some hsaid]
    refine .cons ⟨?_, c, hbeyond, ?_, rfl⟩ (ih hrest)
    · rw [Occurrence.token, hc]
      exact hinvalid
    · rw [Occurrence.token, hc]
      exact hkept

lemma reads_of_cut {run : List UInt8} {text tail : List Char} {ps : List Piece}
    (hrun : RunText run text) (hcut : Cut text ps tail) (front : List Char) :
    Portion.Reads config source run (portion config source (occurrences front ps)) := by
  cases hrun with
  | ascii h =>
    have htext : Cut (String.ofList (asciiText run)).toList ps tail := by
      rwa [String.toList_ofList]
    have hreads : Portion.Reads config source run _ := .ascii (.endOf front) h
    rw [lexemeTokens_of_cut htext, diagnostics_of_cut htext] at hreads
    rw [portion, map_token_shift, filterMap_diagnostic?_shift]
    exact hreads
  | beyond h nonempty most each =>
    obtain ⟨rfl, -⟩ := hcut.unique (cut_of_beyond each)
    have hlength : (portion config source (occurrences front
        (text.map fun c => ⟨[], .symbol c⟩))).tokens.length = text.length := by
      rw [portion, List.length_map, length_occurrences, List.length_map]
    refine .beyond h (hlength ▸ nonempty) (hlength ▸ most) (forall₂_refused ?_)
    intro o ho
    obtain ⟨p, hp, hpo⟩ := exists_piece_of_mem ho
    obtain ⟨c, hc, rfl⟩ := List.mem_map.mp hp
    exact ⟨c, hpo.symm, each c hc⟩

lemma beyond_of_head? {rs : List (List UInt8)} {texts : List (List Char)} (hrs : Alternates rs)
    (htexts : List.Forall₂ RunText rs texts) (h : ∀ b ∈ rs.flatten.head?, beyond b = true) :
    ∀ c ∈ texts.flatten.head?, 0x80 ≤ c.toNat := by
  cases htexts with
  | nil => simp
  | @cons run text rs texts hrun htexts =>
    cases hrs with
    | cons side nonempty same turn more =>
      obtain ⟨b, rest, rfl⟩ := List.exists_cons_of_ne_nil nonempty
      have hb : beyond b = true := h b rfl
      cases hrun with
      | ascii hascii =>
        rw [hascii b List.mem_cons_self] at hb
        exact absurd hb (by decide)
      | beyond _ nonempty' most each =>
        intro c hc
        rw [List.flatten_cons, List.head?_append_of_ne_nil _ (List.ne_nil_of_length_pos nonempty')]
          at hc
        exact each c (List.mem_of_mem_head? hc)

theorem exists_portions (config : Config) (source : Option String) {rs : List (List UInt8)}
    {texts : List (List Char)} (hrs : Alternates rs)
    (htexts : List.Forall₂ RunText rs texts) :
    ∃ ps tail, Cut texts.flatten ps tail ∧ ∀ front, ∃ portions,
      List.Forall₂ (Portion.Reads config source) rs portions ∧
      portion config source (occurrences front ps) =
        ⟨portions.flatMap Portion.tokens, portions.flatMap Portion.said⟩ := by
  induction hrs generalizing texts with
  | nil =>
    cases htexts
    exact ⟨[], [], .blanks (by simp [Blank]), fun front => ⟨[], .nil, rfl⟩⟩
  | @cons run rs side nonempty same turn more ih =>
    cases htexts with
    | @cons _ text _ texts hrun htexts =>
      obtain ⟨ps, w, hcut⟩ := exists_cut text
      obtain ⟨qs, v, hmore, hportions⟩ := ih htexts
      have happart : ¬ Joined text texts.flatten := by
        apply not_joined_of_beyond
        cases hrun with
        | ascii hascii =>
          right
          refine beyond_of_head? more htexts fun b hb => ?_
          obtain ⟨d, hd⟩ := List.exists_mem_of_ne_nil _ nonempty
          rw [turn b hb, ← same d hd, hascii d hd]
          rfl
        | beyond _ _ _ each => exact .inl each
      obtain ⟨us, t, hwhole, hoccurrences⟩ := hcut.append hmore happart
      refine ⟨us, t, hwhole, fun front => ?_⟩
      -- the cut of the rest holds wherever the rest stands; only the places depend on the front
      obtain ⟨portions, hreads, hrest⟩ := hportions (front ++ text)
      refine ⟨_, .cons (reads_of_cut hrun hcut front) hreads, ?_⟩
      obtain ⟨htokens, hsaid⟩ := Portion.mk.inj hrest
      rw [hoccurrences, portion, List.map_append, List.filterMap_append, htokens, hsaid]
      rfl

end Portions

lemma flatMap_splitOnP_ascii {α : Type} {f : List UInt8 → List α} (hf : f [] = [])
    {run rest : List UInt8} (hrun : ∀ b ∈ run, beyond b = false)
    (hrest : ∀ b ∈ rest.head?, beyond b = true) :
    ((run ++ rest).splitOnP beyond).flatMap f = f run ++ (rest.splitOnP beyond).flatMap f := by
  cases rest with
  | nil => simp [List.splitOnP_eq_singleton hrun, List.splitOnP_nil, hf]
  | cons b rest =>
    have hb : beyond b = true := hrest b rfl
    rw [List.splitOnP_append_cons run rest hb, List.splitOnP_eq_singleton hrun,
      List.splitOnP_cons_eq_if_modifyHead, if_pos hb, List.flatMap_append, List.flatMap_cons,
      List.flatMap_cons, hf]
    simp

lemma flatMap_splitOnP_beyond {α : Type} {f : List UInt8 → List α} (hf : f [] = [])
    {run rest : List UInt8} (hrun : ∀ b ∈ run, beyond b = true) :
    ((run ++ rest).splitOnP beyond).flatMap f = (rest.splitOnP beyond).flatMap f := by
  induction run with
  | nil => rfl
  | cons b run ih =>
    rw [List.forall_mem_cons] at hrun
    rw [List.cons_append, List.splitOnP_cons_eq_if_modifyHead, if_pos hrun.1, List.flatMap_cons,
      hf, List.nil_append, ih hrun.2]

def asciiSpellings (config : Config) (bytes : List UInt8) : List Spelling :=
  (lexemeTokens config (String.ofList (asciiText bytes))).map Token.spelling

lemma asciiSpellings_nil (config : Config) : asciiSpellings config [] = [] := by
  have hcut : Cut (String.ofList (asciiText [])).toList [] [] := by
    rw [String.toList_ofList]
    exact .blanks (by simp [Blank, asciiText])
  rw [asciiSpellings, spellings_of_cut hcut]
  rfl

section Remaining

variable {config : Config} {source : Option String}

lemma inAscii_of_mem {run : List UInt8} (h : ∀ b ∈ run, beyond b = false) :
    ∀ t ∈ lexemeTokens config (String.ofList (asciiText run)) source, t.inAscii = true := by
  obtain ⟨ps, tail, hcut⟩ := exists_cut (String.ofList (asciiText run)).toList
  rw [lexemeTokens_of_cut hcut]
  intro t ht
  obtain ⟨o, ho, rfl⟩ := List.mem_map.mp ht
  obtain ⟨p, hp, hpo⟩ := exists_piece_of_mem ho
  rw [Token.inAscii, List.all_eq_true]
  intro c hc
  rw [Occurrence.token, Lexeme.token, Lexeme.kept, String.toList_ofList, ← hpo] at hc
  have hmem := hcut.mem_text hp c (List.mem_of_mem_take hc)
  rw [String.toList_ofList, asciiText] at hmem
  obtain ⟨b, hb, rfl⟩ := List.mem_map.mp hmem
  have hlow := Encoding.not_beyond_iff.mp (h b hb)
  rw [decide_eq_true_iff, Encoding.toNat_ofNat (by omega)]
  exact hlow

lemma not_inAscii_of_refused {t : Token} {d : Diagnostic} (h : Refused t d) :
    t.inAscii = false := by
  obtain ⟨-, c, hc, htext, -⟩ := h
  rw [Token.inAscii, htext, String.toList_singleton, List.all_cons, List.all_nil, Bool.and_true,
    decide_eq_false_iff_not]
  omega

lemma filter_refused {tokens : List Token} {said : List Diagnostic}
    (h : List.Forall₂ Refused tokens said) : tokens.filter Token.inAscii = [] := by
  induction h with
  | nil => rfl
  | cons hrefused hrest ih =>
    rw [List.filter_cons_of_neg (by rw [not_inAscii_of_refused hrefused]; decide), ih]

lemma filter_ascii {run : List UInt8} (base : Position) (h : ∀ b ∈ run, beyond b = false) :
    (((lexemeTokens config (String.ofList (asciiText run)) source).map
      (Token.shift base)).filter Token.inAscii).map Token.spelling = asciiSpellings config run := by
  obtain ⟨ps, tail, hcut⟩ := exists_cut (String.ofList (asciiText run)).toList
  have hkeep : ∀ t ∈ (lexemeTokens config (String.ofList (asciiText run)) source).map
      (Token.shift base), t.inAscii = true := by
    intro t ht
    obtain ⟨u, hu, rfl⟩ := List.mem_map.mp ht
    exact inAscii_of_mem h u hu
  have hspellings := spellings_of_cut hcut config source
  rw [List.filter_eq_self.mpr hkeep, List.map_map, asciiSpellings, spellings_of_cut hcut,
    ← hspellings]
  rfl

theorem filter_portions {rs : List (List UInt8)} {portions : List Portion} (hrs : Alternates rs)
    (hreads : List.Forall₂ (Portion.Reads config source) rs portions) :
    ((portions.flatMap Portion.tokens).filter Token.inAscii).map Token.spelling =
      (rs.flatten.splitOnP beyond).flatMap (asciiSpellings config) := by
  induction hrs generalizing portions with
  | nil =>
    cases hreads
    simp [List.splitOnP_nil, asciiSpellings_nil]
  | @cons run rs side nonempty same turn more ih =>
    cases hreads with
    | @cons _ p _ portions hp hreads =>
      rw [List.flatMap_cons, List.filter_append, List.map_append, ih hreads, List.flatten_cons]
      cases hp with
      | ascii base h =>
        have hturn : ∀ b ∈ rs.flatten.head?, beyond b = true := by
          intro b hb
          obtain ⟨d, hd⟩ := List.exists_mem_of_ne_nil _ nonempty
          rw [turn b hb, ← same d hd, h d hd]
          rfl
        rw [filter_ascii base h, flatMap_splitOnP_ascii (asciiSpellings_nil config) h hturn]
      | beyond h _ _ refused =>
        rw [filter_refused refused, flatMap_splitOnP_beyond (asciiSpellings_nil config) h]
        rfl

end Remaining

lemma count_asciiText {run : List UInt8} (h : ∀ b ∈ run, beyond b = false) :
    (asciiText run).count '\n' = run.count 0x0A := by
  induction run with
  | nil => rfl
  | cons b run ih =>
    rw [List.forall_mem_cons] at h
    have hlow := Encoding.not_beyond_iff.mp h.1
    have hfeed : Char.ofNat b.toNat = '\n' ↔ b = 0x0A := by
      constructor
      · intro hc
        have hnat := congrArg Char.toNat hc
        rw [Encoding.toNat_ofNat (by omega)] at hnat
        exact UInt8.toNat_inj.mp hnat
      · rintro rfl
        rfl
    have hrest := ih h.2
    rw [asciiText] at hrest ⊢
    rw [List.map_cons, List.count_cons, List.count_cons, hrest]
    simp only [beq_iff_eq, hfeed]

lemma count_runText {run : List UInt8} {text : List Char} (h : RunText run text) :
    text.count '\n' = run.count 0x0A := by
  cases h with
  | ascii h => exact count_asciiText h
  | beyond h nonempty most each =>
    rw [List.count_eq_zero_of_not_mem, List.count_eq_zero_of_not_mem]
    · intro hmem
      exact absurd (h _ hmem) (by decide)
    · intro hmem
      exact absurd (each _ hmem) (by decide)

lemma count_runTexts {rs : List (List UInt8)} {texts : List (List Char)}
    (h : List.Forall₂ RunText rs texts) : texts.flatten.count '\n' = rs.flatten.count 0x0A := by
  induction h with
  | nil => rfl
  | cons hrun hrest ih =>
    rw [List.flatten_cons, List.flatten_cons, List.count_append, List.count_append,
      count_runText hrun, ih]

end Munch
