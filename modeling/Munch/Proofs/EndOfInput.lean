import Munch.Proofs.CursorRuns
import Munch.Proofs.Drain
import Munch.Proofs.SourceActions

/-!
# The end of input

A scan that gives anything else reads a character that is no blank, so a drain comes to an end
(`Scanner.length_drain_le`). At the end a reader stays: whatever else is done to the source, it goes on
giving the same token and says nothing more (`Source.Spent`).
-/

namespace Munch

/-- The number of characters that are no blanks. -/
def nonblanks (text : List Char) : Nat := text.countP fun x => !CharClass.whitespace.holds x

namespace Scanner

variable {s : Scanner} {c : Cursor}

lemma exists_scan_reads (s : Scanner) (c : Cursor) :
    ∃ chars, (s.scanByAdvances c).2 = chars.map some ∧ c.rest = chars ++ (s.scan c).cursor.rest := by
  obtain ⟨n, hcursor, hadvances⟩ := s.scanByAdvances_eq c
  refine ⟨c.rest.take n, ?_, ?_⟩
  · rw [hadvances]
  · rw [hcursor, Cursor.rest_consume, List.take_append_drop]

theorem scan_reads_nonblank (h : (s.scan c).token.kind ≠ .eof) :
    ∃ x, some x ∈ (s.scanByAdvances c).2 ∧ CharClass.whitespace.holds x = false := by
  obtain ⟨chars, hadvances, hrest⟩ := s.exists_scan_reads c
  obtain ⟨pieces, tail, hcut⟩ := exists_cut c.rest
  cases pieces with
  | nil =>
    rw [scan_of_blanks hcut] at h
    exact absurd rfl h
  | cons p pieces =>
    have hl : p.lexeme.WellFormed := hcut.of_cons.2.1
    have hleft : (s.scan c).cursor.rest = c.rest.drop p.chars.length := by
      rw [scan_of_piece hcut, Cursor.rest_consume]
    -- what the advances return is the first piece, as what is left is the same
    have hchars : chars = p.chars := by
      have hwhole : chars ++ c.rest.drop p.chars.length =
          c.rest.take p.chars.length ++ c.rest.drop p.chars.length := by
        rw [← hleft, ← hrest, hleft, List.take_append_drop]
      rw [List.append_cancel_right hwhole, hcut.drop_cons.1]
    obtain ⟨x, hx⟩ := List.exists_mem_of_ne_nil _ hl.chars_ne_nil
    refine ⟨x, ?_, hl.not_whitespace x hx⟩
    rw [hadvances, hchars, Piece.chars]
    exact List.mem_map_of_mem (List.mem_append_right p.blanks hx)

theorem nonblanks_scan_lt (h : (s.scan c).token.kind ≠ .eof) :
    nonblanks (s.scan c).cursor.rest < nonblanks c.rest := by
  obtain ⟨chars, hadvances, hrest⟩ := s.exists_scan_reads c
  obtain ⟨x, hx, hnonblank⟩ := scan_reads_nonblank h
  have hmem : x ∈ chars := by
    rw [hadvances, List.mem_map] at hx
    obtain ⟨y, hy, heq⟩ := hx
    rwa [Option.some.inj heq] at hy
  have hpos : 0 < nonblanks chars := by
    unfold nonblanks
    rw [List.countP_pos_iff]
    exact ⟨x, hmem, by rw [hnonblank]; rfl⟩
  have hsum : nonblanks c.rest = nonblanks chars + nonblanks (s.scan c).cursor.rest := by
    unfold nonblanks
    rw [hrest, List.countP_append]
  omega

theorem length_drain_le (s : Scanner) (c : Cursor) :
    (s.drain c).tokens.length ≤ nonblanks c.rest + 1 := by
  -- the blanks left may be many, so the induction is on the other characters
  induction hn : nonblanks c.rest using Nat.strong_induction_on generalizing s c with
  | _ n ih =>
    by_cases heof : (s.scan c).token.kind = .eof
    · rw [drain_of_eof heof, List.length_singleton]
      omega
    · have hless := nonblanks_scan_lt heof
      rw [hn] at hless
      have hothers := ih _ hless (s.scan c).scanner (s.scan c).cursor rfl
      rw [drain_of_ne_eof heof, List.length_cons]
      omega

/-- A drain gives tokens of lexemes and then one end of input, and leaves nothing. -/
theorem drain_ends (s : Scanner) (c : Cursor) :
    (∃ tokens last, (s.drain c).tokens = tokens ++ [last] ∧ (∀ t ∈ tokens, t.kind ≠ .eof) ∧
      last.kind = .eof) ∧
    (s.drain c).cursor.exhausted = true := by
  obtain ⟨pieces, tail, hcut⟩ := exists_cut c.rest
  rw [drain_of_cut hcut]
  constructor
  · refine ⟨_, _, rfl, ?_, rfl⟩
    intro t ht
    obtain ⟨o, -, rfl⟩ := List.mem_map.mp ht
    exact o.kind_token_ne_eof s.config c.position c.source
  · rw [Cursor.exhausted_iff, Cursor.rest_consume, List.drop_length]

lemma scan_of_nil (h : c.rest = []) (s : Scanner) : s.scan c = ⟨s.eof c, s, c, []⟩ := by
  have hskip : c.skip .whitespace = c := Cursor.consume_of_nil h _
  have hnone : Lexeme.read? (c.skip .whitespace).rest = none := by
    rw [hskip, h, Lexeme.read?_nil]
  rw [scan_of_none hnone, hskip]

lemma scan_of_eof (h : (s.scan c).token.kind = .eof) :
    (s.scan c).cursor.rest = [] ∧ (s.scan c).scanner = s ∧
      s.eof (s.scan c).cursor = (s.scan c).token := by
  cases hread : Lexeme.read? (c.skip .whitespace).rest with
  | none =>
    rw [scan_of_none hread]
    exact ⟨Lexeme.read?_eq_none_iff.mp hread, rfl, rfl⟩
  | some l =>
    rw [scan_of_some hread] at h
    exact absurd h (l.kind_ne_eof s.config)

end Scanner

namespace Source

/-- What of the text is still to be read. A cursor that is closed has nothing left. -/
def unread (text : List Char) (s : Source) : List Char :=
  if s.cursor.closed then [] else text.drop s.cursor.offset

/-- The reader with this number has nothing left to read, and this is its end of input. -/
structure Spent (number : Nat) (reader : Scanner) (last : Token) (s : Source) : Prop where
  reader_eq : s.scanners[number]? = some reader
  rest_eq : s.cursor.rest = []
  eof_eq : reader.eof s.cursor = last

variable {text read : List Char} {s : Source} {number : Nat} {reader : Scanner} {last : Token}

lemma rest_eq_unread (h : s.cursor.HasRead text read) : s.cursor.rest = s.unread text := by
  unfold unread
  cases hclosed : s.cursor.closed with
  | true =>
    rw [if_pos rfl]
    exact h.rest_of_closed hclosed
  | false =>
    rw [if_neg (by decide), h.offset_eq, h.text_eq hclosed, List.drop_left]

lemma scan_of_exhausted (h : s.cursor.rest = []) (number : Nat) :
    (s.act (.scan number)).source = s := by
  cases hreader : s.scanners[number]? with
  | none => rw [act_scan_of_none hreader]
  | some reader =>
    rw [act_scan hreader, Scanner.scan_of_nil h]
    exact update_self hreader s.cursor

namespace Spent

theorem act (h : s.Spent number reader last) (a : Action) :
    (s.act a).source.Spent number reader last := by
  have hcursor : (s.act a).source.cursor.rest = [] ∧
      reader.eof (s.act a).source.cursor = reader.eof s.cursor := by
    rcases s.act_moves a with ⟨n, hmove, -⟩ | ⟨hmove, -⟩
    · rw [hmove, Cursor.consume_of_nil h.rest_eq]
      exact ⟨h.rest_eq, rfl⟩
    · rw [hmove]
      exact ⟨rfl, rfl⟩
  have hreader : (s.act a).source.scanners[number]? = some reader := by
    cases a with
    | attach config =>
      obtain ⟨hnumber, -⟩ := List.getElem?_eq_some_iff.mp h.reader_eq
      exact (List.getElem?_append_left hnumber).trans h.reader_eq
    | scan other =>
      rw [scan_of_exhausted h.rest_eq]
      exact h.reader_eq
    | _ => exact h.reader_eq
  exact ⟨hreader, hcursor.1, hcursor.2.trans h.eof_eq⟩

theorem run (h : s.Spent number reader last) (actions : List Action) :
    (s.run actions).2.1.Spent number reader last := by
  induction actions generalizing s with
  | nil => exact h
  | cons a actions ih => exact ih (h.act a)

lemma scan_eq (h : s.Spent number reader last) :
    s.act (.scan number) = ⟨.token last, s, []⟩ := by
  rw [act_scan h.reader_eq, Scanner.scan_of_nil h.rest_eq, h.eof_eq,
    update_self h.reader_eq s.cursor]

lemma of_scan (h : s.scanners[number]? = some reader)
    (heof : (reader.scan s.cursor).token.kind = .eof) :
    (s.act (.scan number)).source.Spent number reader (reader.scan s.cursor).token := by
  obtain ⟨hrest, hsame, hlast⟩ := Scanner.scan_of_eof heof
  rw [act_scan h, hsame]
  constructor
  · exact getElem?_update h reader (reader.scan s.cursor).cursor
  · exact hrest
  · exact hlast

end Spent

/-- Whatever was done to the source, a scan that does not reach the end of input reads a character that
is no blank, so a drain takes no more scans than such characters are left and one. It gives the end of
input once, as the last token, and leaves nothing. A reader that has given the end of input goes on
giving it, unchanged and without a word, whatever is done in between. -/
theorem drain_ends_for_good (text : String) (source : Option String) (actions : List Action)
    (number : Nat) (reader : Scanner)
    (h : ((ofText text source).run actions).2.1.scanners[number]? = some reader) :
    let s := ((ofText text source).run actions).2.1
    let one := reader.scan s.cursor
    let drained := reader.drain s.cursor
    (one.token.kind ≠ .eof → ∃ x, some x ∈ s.advances (.scan number) ∧
      CharClass.whitespace.holds x = false) ∧
    (∃ n ≤ nonblanks (s.unread text.toList) + 1,
      drained.tokens.length = n ∧ drained = reader.scans n s.cursor) ∧
    (∃ tokens last, drained.tokens = tokens ++ [last] ∧ (∀ t ∈ tokens, t.kind ≠ .eof) ∧
      last.kind = .eof) ∧
    drained.cursor.exhausted = true ∧
    (one.token.kind = .eof → ∀ more,
      let later := ((s.act (.scan number)).source.run more).2.1
      later.scanners[number]? = some reader ∧
        later.act (.scan number) = ⟨.token one.token, later, []⟩) := by
  intro s one drained
  have hread : s.cursor.HasRead text.toList ((ofText text source).allAdvances actions).reduceOption :=
    hasRead_run (s := ofText text source) (Cursor.hasRead_ofText text source) actions
  obtain ⟨hshape, hexhausted⟩ := reader.drain_ends s.cursor
  refine ⟨?_, ?_, hshape, hexhausted, ?_⟩
  · intro hmore
    rw [advances_scan h]
    exact Scanner.scan_reads_nonblank hmore
  · refine ⟨drained.tokens.length, ?_, rfl, reader.drain_eq_scans s.cursor⟩
    rw [← rest_eq_unread hread]
    exact reader.length_drain_le s.cursor
  · intro heof more later
    have hspent : later.Spent number reader one.token := (Spent.of_scan h heof).run more
    exact ⟨hspent.reader_eq, hspent.scan_eq⟩

/-- A reader whose cursor was closed in the middle of a text stays where it was. -/
theorem drain_ends_for_good_of_closed :
    let s := ((ofText "ab c").run [.attach default, .scan 0, .closeCursor]).2.1
    ∃ reader, s.scanners[0]? = some reader ∧
      (∃ n ≤ 1, (reader.drain s.cursor).tokens.length = n ∧
        reader.drain s.cursor = reader.scans n s.cursor) ∧
      ∀ more,
        let later := (s.run more).2.1
        later.scanners[0]? = some reader ∧
          later.act (.scan 0) = ⟨.token ⟨.eof, "", ⟨⟨1, 2⟩, none⟩⟩, later, []⟩ := by
  refine ⟨_, rfl, ?_⟩
  have hends := drain_ends_for_good "ab c" none [.attach default, .scan 0, .closeCursor] 0 _ rfl
  exact ⟨hends.2.1, hends.2.2.2.2 rfl⟩

end Source

end Munch
