import Mathlib.Data.List.Forall2
import Munch.Proofs.CursorRuns
import Munch.Proofs.Positions
import Munch.Proofs.SourceActions

/-!
# What a reader says of its tokens

A scan says something of a token that is invalid or was cut short, and nothing else. `Explained` writes
down what it says, to the letter, and what it logs. The diagnostics of a reader are what its scans have
said, one after another and in the order of the text (`Source.diagnostics_exact`).
-/

namespace Munch

/-- One place comes before another in a text. -/
def Location.Before (l m : Location) : Prop :=
  l.line < m.line ∨ l.line = m.line ∧ l.column < m.column

/-- A token stands for a run that begins where the token says and goes on as far as it can. -/
structure Token.StandsFor (text : List Char) (source : Option String) (limit : Nat) (t : Token)
    (run : Occurrence) : Prop where
  standsIn : run.StandsIn text
  location_eq : t.location = (Position.endOf run.before).of source
  text_eq : t.text.toList = run.lexeme.chars.take limit

/-- A token with the records written for it, and the diagnostic that was made if there was one. -/
inductive Explained (text : List Char) (source : Option String) (limit : Nat) :
    Token × List Record → Option Diagnostic → Prop
  | ending {t : Token} (kind_eq : t.kind = .eof) : Explained text source limit (t, []) none
  | silent {t : Token} {run : Occurrence} (stands : t.StandsFor text source limit run)
      (kind_ne_eof : t.kind ≠ .eof) (kind_ne_invalid : t.kind ≠ .invalid)
      (whole : run.lexeme.chars.length ≤ limit) : Explained text source limit (t, []) none
  | invalid {t : Token} {before : List Char} {x : Char} {d : Diagnostic} {r : Record}
      (stands : t.StandsFor text source limit ⟨before, .symbol x⟩) (kind_eq : t.kind = .invalid)
      (said : d = ⟨"L001", "invalid character " ++ Diagnostic.showChar x, t.location, "error"⟩)
      (written : r.render = "minilex.lexer.scanners.symbol: DEBUG: " ++ d.render) :
      Explained text source limit (t, [r]) (some d)
  | truncated {t : Token} {run : Occurrence} {d : Diagnostic} {r : Record}
      (stands : t.StandsFor text source limit run)
      (kind_eq : t.kind = .identifier ∨ t.kind = .number)
      (long : limit < run.lexeme.chars.length)
      (said : d = ⟨"L002", "lexeme of " ++ toString run.lexeme.chars.length ++
        " characters truncated to " ++ toString limit, t.location, "warning"⟩)
      (written : r.render = "minilex.lexer.core: DEBUG: " ++ d.render) :
      Explained text source limit (t, [r]) (some d)

namespace Lexeme

variable {config : Config} {location : Location} {l : Lexeme}

theorem explained {text : List Char} {source : Option String} {before : List Char}
    (h : (l.token config location).StandsFor text source config.limit ⟨before, l⟩) :
    Explained text source config.limit
      (l.token config location, (l.diagnostic? config location).toList.map .ofDiagnostic)
      (l.diagnostic? config location) := by
  by_cases hlong : config.limit < l.chars.length
  · rw [diagnostic?_of_long hlong]
    exact .truncated h (kind_of_long hlong) hlong rfl (Record.render_lexemeTruncated _ _ location)
  · by_cases hinvalid : l.kind config = .invalid
    · obtain ⟨x, rfl⟩ := eq_symbol_of_invalid hinvalid
      rw [diagnostic?_of_invalid hinvalid]
      exact .invalid h hinvalid rfl (Record.render_invalidCharacter x location)
    · have hwhole : l.chars.length ≤ config.limit := Nat.le_of_not_lt hlong
      rw [diagnostic?_of_valid hwhole hinvalid]
      exact .silent h (l.kind_ne_eof config) hinvalid hwhole

end Lexeme

lemma Explained.location_eq {text : List Char} {source : Option String} {limit : Nat} {t : Token}
    {log : List Record} {d : Diagnostic} (h : Explained text source limit (t, log) (some d)) :
    d.location = t.location := by
  cases h with
  | invalid stands kind_eq said written => rw [said]
  | truncated stands kind_eq long said written => rw [said]

/-- Something was said of a run of the text between two places. -/
def SaidBetween (text : List Char) (start stop : Nat) (d : Diagnostic) : Prop :=
  ∃ run : Occurrence, run.StandsIn text ∧ start ≤ run.before.length ∧ run.through.length ≤ stop ∧
    d.location.toPosition = .endOf run.before

lemma Cursor.HasRead.standsIn {text read tail : List Char} {c : Cursor} {p : Piece}
    {pieces : List Piece} (h : c.HasRead text read) (hcut : Cut c.rest (p :: pieces) tail) :
    (⟨read ++ p.blanks, p.lexeme⟩ : Occurrence).StandsIn text := by
  obtain ⟨-, hl, more, hstop, hrest, -⟩ := hcut.of_cons
  refine ⟨hl, more, ?_, hstop⟩
  cases hclosed : c.closed with
  | true =>
    -- a cursor that is closed has no piece left
    have hnothing := hrest.symm.trans (h.rest_of_closed hclosed)
    rw [List.append_eq_nil_iff, List.append_eq_nil_iff] at hnothing
    exact absurd hnothing.2.1 hl.chars_ne_nil
  | false =>
    rw [h.text_eq hclosed, hrest, Occurrence.through]
    simp only [List.append_assoc]

namespace Scanner

variable {text read : List Char} {c : Cursor}

theorem scan_explained (h : c.HasRead text read) (s : Scanner) :
    ∃ found, Explained text c.source s.config.limit ((s.scan c).token, (s.scan c).log) found ∧
      (s.scan c).scanner.config = s.config ∧
      (s.scan c).scanner.diagnostics = s.diagnostics ++ found.toList ∧
      ∀ d ∈ found, SaidBetween text c.offset (s.scan c).cursor.offset d := by
  obtain ⟨pieces, tail, hcut⟩ := exists_cut c.rest
  cases pieces with
  | nil =>
    rw [scan_of_blanks hcut]
    exact ⟨none, .ending rfl, rfl, by simp, by simp⟩
  | cons p pieces =>
    have hstands := h.standsIn hcut
    have hposition : c.position.after p.blanks = .endOf (read ++ p.blanks) := by
      rw [h.position_eq, Position.endOf_after]
    have htoken : (p.lexeme.token s.config ((c.position.after p.blanks).of c.source)).StandsFor text
        c.source s.config.limit ⟨read ++ p.blanks, p.lexeme⟩ := by
      constructor
      · exact hstands
      · rw [hposition]
        rfl
      · exact String.toList_ofList
    have hexplained := Lexeme.explained htoken
    rw [scan_of_piece hcut]
    refine ⟨_, hexplained, rfl, s.diagnostics_note _, ?_⟩
    intro d hd
    rw [Option.mem_def.mp hd] at hexplained
    refine ⟨_, hstands, ?_, ?_, ?_⟩
    · rw [h.offset_eq, List.length_append]
      omega
    · have hlength := congrArg List.length hcut.drop_cons.1
      rw [List.length_take, Piece.chars, List.length_append] at hlength
      rw [Occurrence.through, Cursor.offset_consume, h.offset_eq, Piece.chars]
      simp only [List.length_append]
      omega
    · rw [hexplained.location_eq]
      exact hposition

end Scanner

lemma SaidBetween.before {text : List Char} {start middle stop : Nat} {d e : Diagnostic}
    (hd : SaidBetween text start middle d) (he : SaidBetween text middle stop e) :
    d.location.Before e.location := by
  obtain ⟨run, ⟨hl, more, htext, -⟩, -, hstop, hposition⟩ := hd
  obtain ⟨next, ⟨-, more', htext', -⟩, hstart, -, hposition'⟩ := he
  have hfront : run.through <+: text := by
    rw [htext]
    exact List.prefix_append run.through more
  have hfront' : next.before <+: text := by
    rw [htext', Occurrence.through, List.append_assoc]
    exact List.prefix_append next.before _
  -- the first run ends where the second begins or before, so its place is smaller
  obtain ⟨past, hpast⟩ := List.prefix_of_prefix_length_le hfront hfront' (hstop.trans hstart)
  have hlength := List.length_pos_iff.mpr hl.chars_ne_nil
  have hplace := Occurrence.position_past_lexeme hl past
  rw [hpast, ← hposition, ← hposition'] at hplace
  unfold Location.Before
  omega

/-- A reader has said what its scans so far explain, in order and of what is already read. -/
structure Scanner.Accounts (text : List Char) (source : Option String) (offset : Nat)
    (past : List (Token × List Record)) (reader : Scanner) : Prop where
  explained : ∃ said, List.Forall₂ (Explained text source reader.config.limit) past said ∧
    reader.diagnostics = said.reduceOption
  behind : ∀ d ∈ reader.diagnostics, SaidBetween text 0 offset d
  increasing : reader.diagnostics.Pairwise fun d e => d.location.Before e.location

namespace Scanner.Accounts

variable {text read : List Char} {source : Option String} {offset : Nat}
  {past : List (Token × List Record)} {reader : Scanner} {c : Cursor}

lemma start (text : List Char) (source : Option String) (offset : Nat) (config : Config)
    (c : Cursor) : (Scanner.start config c).Accounts text source offset [] := by
  have hnothing : (Scanner.start config c).diagnostics = [] := rfl
  constructor
  · exact ⟨[], .nil, hnothing⟩
  · simp [hnothing]
  · simp [hnothing]

lemma later (h : reader.Accounts text source offset past) {offset' : Nat}
    (hle : offset ≤ offset') : reader.Accounts text source offset' past := by
  constructor
  · exact h.explained
  · intro d hd
    obtain ⟨run, hstands, hstart, hstop, hposition⟩ := h.behind d hd
    exact ⟨run, hstands, hstart, hstop.trans hle, hposition⟩
  · exact h.increasing

theorem scan (h : reader.Accounts text c.source c.offset past) (hread : c.HasRead text read) :
    (reader.scan c).scanner.Accounts text c.source (reader.scan c).cursor.offset
      (past ++ [((reader.scan c).token, (reader.scan c).log)]) := by
  obtain ⟨found, hexplained, hconfig, hdiagnostics, hfound⟩ := reader.scan_explained hread
  obtain ⟨said, hpast, hsaid⟩ := h.explained
  have hle : c.offset ≤ (reader.scan c).cursor.offset := by
    obtain ⟨n, hcursor, -⟩ := reader.scanByAdvances_eq c
    rw [hcursor]
    exact (Cursor.Precedes.consume c n).offset_le
  constructor
  · refine ⟨said ++ [found], ?_, ?_⟩
    · rw [hconfig]
      exact List.rel_append hpast (.cons hexplained .nil)
    · rw [hdiagnostics, hsaid, List.reduceOption_append, List.reduceOption_singleton]
  · intro d hd
    rw [hdiagnostics, List.mem_append, Option.mem_toList] at hd
    rcases hd with hd | hd
    · exact (h.later hle).behind d hd
    · obtain ⟨run, hstands, -, hstop, hposition⟩ := hfound d hd
      exact ⟨run, hstands, Nat.zero_le _, hstop, hposition⟩
  · rw [hdiagnostics, List.pairwise_append]
    refine ⟨h.increasing, ?_, ?_⟩
    · cases found <;> simp
    · intro d hd e he
      exact (h.behind d hd).before (hfound e (Option.mem_toList.mp he))

end Scanner.Accounts

namespace Source

/-- What an action gives and writes, if it is a scan of the reader with this number. -/
def scanBy (number : Nat) (s : Source) (a : Action) : List (Token × List Record) :=
  match a, (s.act a).yield with
  | .scan other, .token t => if other = number then [(t, (s.act a).log)] else []
  | _, _ => []

/-- What the scans of the reader with this number give and write in a run. -/
def scansBy (number : Nat) (s : Source) : List Action → List (Token × List Record)
  | [] => []
  | a :: rest => s.scanBy number a ++ (s.act a).source.scansBy number rest

/-- Every reader accounts for what it gave before. -/
structure Told (text : List Char) (source : Option String)
    (past : Nat → List (Token × List Record)) (s : Source) : Prop where
  hasRead : ∃ read, s.cursor.HasRead text read
  source_eq : s.cursor.source = source
  readers : ∀ (number : Nat) (reader : Scanner), s.scanners[number]? = some reader →
    reader.Accounts text source s.cursor.offset (past number)
  others : ∀ number, s.scanners[number]? = none → past number = []

variable {text : List Char} {source : Option String} {past : Nat → List (Token × List Record)}
  {s : Source}

lemma source_act (s : Source) (a : Action) : (s.act a).source.cursor.source = s.cursor.source := by
  rcases s.act_moves a with ⟨n, hcursor, -⟩ | ⟨hcursor, -⟩
  · rw [hcursor, Cursor.source_consume]
  · rw [hcursor]
    rfl

lemma scanBy_scan {other : Nat} {reader : Scanner} (h : s.scanners[other]? = some reader)
    (number : Nat) :
    s.scanBy number (.scan other) =
      if other = number then [((reader.scan s.cursor).token, (reader.scan s.cursor).log)] else [] := by
  unfold scanBy
  rw [act_scan h]

lemma scanBy_scan_of_none {other : Nat} (h : s.scanners[other]? = none) (number : Nat) :
    s.scanBy number (.scan other) = [] := by
  unfold scanBy
  rw [act_scan_of_none h]

namespace Told

lemma ofText (text : String) (source : Option String) :
    (Source.ofText text source).Told text.toList source fun _ => [] := by
  constructor
  · exact ⟨[], Cursor.hasRead_ofText text source⟩
  · rfl
  · intro number reader hreader
    simp [Source.ofText] at hreader
  · intro number _
    rfl

/-- Where no reader is made and none scans, all of them stay as they are. -/
lemma keep (h : s.Told text source past) {a : Action}
    (hscanners : (s.act a).source.scanners = s.scanners)
    (hnone : ∀ number, s.scanBy number a = []) :
    (s.act a).source.Told text source fun number => past number ++ s.scanBy number a := by
  obtain ⟨read, hread⟩ := h.hasRead
  have hle := (s.precedes_act a).offset_le
  constructor
  · exact ⟨_, hasRead_act hread a⟩
  · rw [source_act, h.source_eq]
  · intro number reader hreader
    rw [hscanners] at hreader
    rw [hnone number, List.append_nil]
    exact (h.readers number reader hreader).later hle
  · intro number hnumber
    rw [hscanners] at hnumber
    rw [hnone number, List.append_nil]
    exact h.others number hnumber

lemma attach (h : s.Told text source past) (config : Config) :
    (s.act (.attach config)).source.Told text source
      fun number => past number ++ s.scanBy number (.attach config) := by
  have hnone : ∀ number, s.scanBy number (.attach config) = [] := fun _ => rfl
  constructor
  · exact h.hasRead
  · exact h.source_eq
  · intro number reader hreader
    rw [hnone number, List.append_nil]
    simp only [Source.act] at hreader
    -- the new reader has made no scans, and the old ones have not changed
    by_cases hold : number < s.scanners.length
    · rw [List.getElem?_append_left hold] at hreader
      exact h.readers number reader hreader
    · rw [List.getElem?_append_right (Nat.le_of_not_lt hold)] at hreader
      have hnew : reader = .start config s.cursor := by
        have hmem := List.mem_of_getElem? hreader
        exact List.mem_singleton.mp hmem
      rw [h.others number (List.getElem?_eq_none (Nat.le_of_not_lt hold)), hnew]
      exact Scanner.Accounts.start text source s.cursor.offset config s.cursor
  · intro number hnumber
    rw [hnone number, List.append_nil]
    simp only [Source.act] at hnumber
    rw [List.getElem?_eq_none_iff, List.length_append] at hnumber
    exact h.others number (List.getElem?_eq_none (by omega))

lemma scan (h : s.Told text source past) {other : Nat} {reader : Scanner}
    (hreader : s.scanners[other]? = some reader) :
    (s.act (.scan other)).source.Told text source
      fun number => past number ++ s.scanBy number (.scan other) := by
  obtain ⟨read, hread⟩ := h.hasRead
  have hle := (s.precedes_act (.scan other)).offset_le
  constructor
  · exact ⟨_, hasRead_act hread (.scan other)⟩
  · rw [source_act, h.source_eq]
  · intro number used hused
    rw [scanBy_scan hreader]
    rw [act_scan hreader] at hused hle ⊢
    by_cases hnumber : other = number
    · subst hnumber
      rw [getElem?_update hreader, Option.some_inj] at hused
      have haccounts := h.readers other reader hreader
      rw [← h.source_eq] at haccounts ⊢
      rw [if_pos rfl, ← hused]
      exact haccounts.scan hread
    · have hsame := List.getElem?_set_ne (a := (reader.scan s.cursor).scanner) (l := s.scanners)
        hnumber
      rw [if_neg hnumber, List.append_nil]
      exact (h.readers number used (hsame.symm.trans hused)).later hle
  · intro number hnumber
    rw [scanBy_scan hreader]
    rw [act_scan hreader, List.getElem?_eq_none_iff, update, List.length_set] at hnumber
    have hnone : s.scanners[number]? = none := List.getElem?_eq_none hnumber
    have hne : other ≠ number := by
      rintro rfl
      rw [hreader] at hnone
      exact absurd hnone (by simp)
    rw [if_neg hne, List.append_nil]
    exact h.others number hnone

theorem act (h : s.Told text source past) (a : Action) :
    (s.act a).source.Told text source fun number => past number ++ s.scanBy number a := by
  cases a with
  | attach config => exact h.attach config
  | scan other =>
    cases hreader : s.scanners[other]? with
    | none => exact h.keep (by rw [act_scan_of_none hreader]) (scanBy_scan_of_none hreader)
    | some reader => exact h.scan hreader
  | _ => exact h.keep rfl fun _ => rfl

theorem run (h : s.Told text source past) (actions : List Action) :
    (s.run actions).2.1.Told text source fun number => past number ++ s.scansBy number actions := by
  induction actions generalizing s past with
  | nil =>
    simp only [scansBy, List.append_nil]
    exact h
  | cons a actions ih =>
    have hrest := ih (h.act a)
    simp only [List.append_assoc] at hrest
    exact hrest

end Told

end Source

end Munch
