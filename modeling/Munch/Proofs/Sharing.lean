import Munch.Proofs.Drain
import Munch.Proofs.Lines
import Munch.Proofs.SourceActions

/-!
# Readers that share a cursor

A history tells which readers were made for a cursor and which tokens they gave, in order. Readers
hold no part of the text, so the lexemes go to whoever asks next: the one at place `n` of the
history is the one at place `n` of the text, named and kept as its reader is configured.
-/

namespace Munch

/-- What is told of a cursor that is shared. -/
inductive Event where
  /-- A reader with this configuration was made while the cursor stood at this place. -/
  | made (config : Config) (place : Position)
  /-- The reader with this number gave this token. -/
  | took (number : Nat) (token : Token)

/-- Configuration and birthplace of every reader, by their numbers. -/
def readers (es : List Event) : List (Config × Position) :=
  es.filterMap fun
    | .made config place => some (config, place)
    | .took _ _ => none

/-- The tokens but for the ends of input, each with the number of its reader. -/
def takenLexemes (es : List Event) : List (Nat × Token) :=
  es.filterMap fun
    | .made _ _ => none
    | .took number t => if t.kind = .eof then none else some (number, t)

/-- The token that a reader has to give after some events: the lexeme that comes next in the text,
or the end of input once all of them were taken. -/
structure Due (text : String) (source : Option String) (es : List Event) (number : Nat)
    (config : Config) (place : Position) (t : Token) : Prop where
  reader : (readers es)[number]? = some (config, place)
  lexeme : t.kind ≠ .eof →
    (lexemeTokens config text source)[(takenLexemes es).length]? = some t
  spent : t.kind = .eof → (takenLexemes es).length = (lexemeTokens config text source).length
  ending : t.kind = .eof → (∃ u, (number, u) ∈ takenLexemes es) →
    t.position = .endOf text.toList
  idle : t.kind = .eof → (¬ ∃ u, (number, u) ∈ takenLexemes es) → t.position = place

section Events

variable (es : List Event)

lemma readers_made (config : Config) (place : Position) :
    readers (es ++ [.made config place]) = readers es ++ [(config, place)] := by
  simp [readers]

lemma readers_took (number : Nat) (t : Token) :
    readers (es ++ [.took number t]) = readers es := by
  simp [readers]

lemma takenLexemes_made (config : Config) (place : Position) :
    takenLexemes (es ++ [.made config place]) = takenLexemes es := by
  simp [takenLexemes]

lemma takenLexemes_eof (number : Nat) {t : Token} (h : t.kind = .eof) :
    takenLexemes (es ++ [.took number t]) = takenLexemes es := by
  simp [takenLexemes, h]

lemma takenLexemes_lexeme (number : Nat) {t : Token} (h : t.kind ≠ .eof) :
    takenLexemes (es ++ [.took number t]) = takenLexemes es ++ [(number, t)] := by
  simp [takenLexemes, h]

end Events

namespace Cursor

/-- The cursor stands after `front`, where these occurrences have passed and these pieces are yet to
come. -/
structure Stands (text : String) (source : Option String) (front : List Char)
    (passed : List Occurrence) (pieces : List Piece) (c : Cursor) : Prop where
  source_eq : c.source = source
  text_eq : text.toList = front ++ c.rest
  position_eq : c.position = .endOf front
  rest_cut : ∃ tail, Cut c.rest pieces tail
  text_cut : ∃ all tail, Cut text.toList all tail ∧
    occurrences [] all = passed ++ occurrences front pieces

/-- The first `n` lexemes of the text have passed and the others are left. -/
def Passed (text : String) (source : Option String) (n : Nat) (c : Cursor) : Prop :=
  ∃ front passed pieces, c.Stands text source front passed pieces ∧ passed.length = n

variable {text : String} {source : Option String} {c : Cursor}

lemma passed_ofText (text : String) (source : Option String) :
    (Cursor.ofText text source).Passed text source 0 := by
  obtain ⟨pieces, tail, hcut⟩ := exists_cut text.toList
  have hstart : (Cursor.ofText text source).Stands text source [] [] pieces :=
    { source_eq := rfl
      text_eq := rfl
      position_eq := rfl
      rest_cut := ⟨tail, hcut⟩
      text_cut := ⟨pieces, tail, hcut, rfl⟩ }
  exact ⟨[], [], pieces, hstart, rfl⟩

section Stands

variable {front : List Char} {passed : List Occurrence} {p : Piece} {pieces : List Piece}

lemma Stands.lexemeTokens_eq (h : c.Stands text source front passed pieces) (config : Config) :
    lexemeTokens config text source =
      (passed ++ occurrences front pieces).map (·.token config .start source) := by
  obtain ⟨all, tail, hcut, heq⟩ := h.text_cut
  rw [lexemeTokens_of_cut hcut, heq]

/-- Past its last blanks a cursor stands at the end of the text. -/
lemma Stands.consume_blanks (h : c.Stands text source front passed []) :
    (c.consume c.rest.length).Stands text source text.toList passed [] ∧
      (c.consume c.rest.length).position = .endOf text.toList := by
  obtain ⟨all, tail, hcut, heq⟩ := h.text_cut
  have hposition : (c.consume c.rest.length).position = .endOf text.toList := by
    rw [position_consume, List.take_length, h.position_eq, h.text_eq, Position.endOf_after]
  have hrest : (c.consume c.rest.length).rest = [] := by
    rw [rest_consume, List.drop_length]
  refine ⟨?_, hposition⟩
  constructor
  · exact h.source_eq
  · rw [hrest, List.append_nil]
  · exact hposition
  · refine ⟨[], ?_⟩
    rw [hrest]
    exact .blanks (by simp [Blank])
  · exact ⟨all, tail, hcut, heq⟩

/-- Past its next piece a cursor has one more lexeme behind it. -/
lemma Stands.consume_piece (h : c.Stands text source front passed (p :: pieces)) :
    (c.consume p.chars.length).Stands text source (front ++ p.chars)
      (passed ++ [⟨front ++ p.blanks, p.lexeme⟩]) pieces := by
  obtain ⟨tail, hrest⟩ := h.rest_cut
  obtain ⟨all, allTail, hcut, heq⟩ := h.text_cut
  obtain ⟨hchars, hmore⟩ := hrest.drop_cons
  have hsplit : p.chars ++ c.rest.drop p.chars.length = c.rest := by
    have hjoin := List.take_append_drop p.chars.length c.rest
    rwa [hchars] at hjoin
  constructor
  · exact h.source_eq
  · rw [rest_consume, List.append_assoc, hsplit, h.text_eq]
  · rw [position_consume, hchars, h.position_eq, Position.endOf_after]
  · exact ⟨tail, hmore⟩
  · refine ⟨all, allTail, hcut, ?_⟩
    rw [heq, occurrences, List.append_assoc, List.singleton_append]

end Stands

variable {n : Nat}

/-- A scan of a cursor gives the next lexeme of the text, whatever happened before, or the end of
input. -/
theorem Passed.scan (h : c.Passed text source n) (s : Scanner) :
    ((s.scan c).token.kind ≠ .eof ∧
      (lexemeTokens s.config text source)[n]? = some (s.scan c).token ∧
      (∃ found, (s.scan c).scanner = s.note found) ∧
      (s.scan c).cursor.Passed text source (n + 1)) ∨
    ((s.scan c).token.kind = .eof ∧ n = (lexemeTokens s.config text source).length ∧
      (s.scan c).token.position = (if s.emitted then .endOf text.toList else s.origin) ∧
      (s.scan c).scanner = s ∧ (s.scan c).cursor.Passed text source n) := by
  obtain ⟨front, passed, pieces, hstands, hn⟩ := h
  obtain ⟨tail, hrest⟩ := hstands.rest_cut
  cases pieces with
  | nil =>
    right
    obtain ⟨hnext, hposition⟩ := hstands.consume_blanks
    rw [Scanner.scan_of_blanks hrest, hstands.lexemeTokens_eq]
    refine ⟨rfl, by simp [hn], ?_, rfl, _, _, _, hnext, hn⟩
    simp only [Scanner.eof, Position.toPosition_of, hposition, Token.position]
  | cons p pieces =>
    left
    have hnext := hstands.consume_piece
    have hlocation : c.position.after p.blanks = Position.start.after (front ++ p.blanks) := by
      rw [hstands.position_eq, ← Position.start_after, Position.after_append]
    rw [Scanner.scan_of_piece hrest, hstands.lexemeTokens_eq]
    refine ⟨p.lexeme.kind_ne_eof s.config, ?_, ⟨_, rfl⟩, _, _, _, hnext, by simp [hn]⟩
    subst hn
    rw [occurrences, List.map_append, List.getElem?_append_right (by simp), List.length_map,
      Nat.sub_self, List.map_cons, List.getElem?_cons_zero, hstands.source_eq, hlocation]
    rfl

end Cursor

namespace Source

/-- Readers are made and take tokens. Nothing else is done to the source. -/
def Action.Pulls : Action → Prop
  | .attach _ | .scan _ => True
  | .advance | .closeCursor | .closeSession => False

def event? (s : Source) : Action → Option Event
  | .attach config => some (.made config s.cursor.position)
  | .scan number =>
    match (s.act (.scan number)).yield with
    | .token t => some (.took number t)
    | _ => none
  | _ => none

def events (s : Source) : List Action → List Event
  | [] => []
  | a :: rest => (s.event? a).toList ++ (s.act a).source.events rest

/-- After these events every reader is as it was made, but for having found something, and the
cursor has moved over as many lexemes as were taken. -/
structure Shared (text : String) (source : Option String) (es : List Event) (s : Source) :
    Prop where
  passed : s.cursor.Passed text source (takenLexemes es).length
  readers_eq : readers es = s.scanners.map fun reader => (reader.config, reader.origin)
  emitted : ∀ j, (∃ t, (j, t) ∈ takenLexemes es) ↔
    ∃ reader, s.scanners[j]? = some reader ∧ reader.emitted = true

variable {text : String} {source : Option String} {es : List Event} {s : Source}

lemma shared_ofText (text : String) (source : Option String) :
    Shared text source [] { cursor := .ofText text source } := by
  constructor
  · exact Cursor.passed_ofText text source
  · rfl
  · simp [takenLexemes]

lemma Shared.attach (h : s.Shared text source es) (config : Config) :
    (s.act (.attach config)).source.Shared text source
      (es ++ [.made config s.cursor.position]) := by
  constructor
  · rw [takenLexemes_made]
    exact h.passed
  · rw [readers_made, h.readers_eq]
    simp [act, Scanner.start]
  · intro j
    rw [takenLexemes_made, h.emitted]
    simp only [act]
    -- a number that is new belongs to a reader that has found nothing, or to none
    by_cases hj : j < s.scanners.length
    · rw [List.getElem?_append_left hj]
    · have hnone : s.scanners[j]? = none := List.getElem?_eq_none (Nat.le_of_not_lt hj)
      rw [List.getElem?_append_right (Nat.le_of_not_lt hj), hnone]
      cases j - s.scanners.length <;> simp [Scanner.start]

lemma Shared.reader_eq (h : s.Shared text source es) {j : Nat} {reader : Scanner}
    (hreader : s.scanners[j]? = some reader) :
    (readers es)[j]? = some (reader.config, reader.origin) := by
  rw [h.readers_eq, List.getElem?_map, hreader, Option.map_some]

lemma Shared.emitted_iff (h : s.Shared text source es) {j : Nat} {reader : Scanner}
    (hreader : s.scanners[j]? = some reader) :
    (∃ t, (j, t) ∈ takenLexemes es) ↔ reader.emitted = true := by
  rw [h.emitted, hreader]
  simp

lemma Shared.took_lexeme (h : s.Shared text source es) {j : Nat} {reader : Scanner}
    (hreader : s.scanners[j]? = some reader) (found : Option Diagnostic) {t : Token}
    (ht : t.kind ≠ .eof) {c : Cursor}
    (hc : c.Passed text source ((takenLexemes es).length + 1)) :
    (s.update j (reader.note found) c).Shared text source (es ++ [.took j t]) := by
  constructor
  · rw [takenLexemes_lexeme es j ht, List.length_append]
    exact hc
  · have hsame : (readers es).set j (reader.config, reader.origin) = readers es :=
      set_of_getElem? (h.reader_eq hreader)
    rw [readers_took, update, List.map_set, ← h.readers_eq]
    exact hsame.symm
  · intro k
    rw [takenLexemes_lexeme es j ht]
    by_cases hk : k = j
    · subst hk
      have hnew := getElem?_update hreader (reader.note found) c
      rw [hnew]
      simp [Scanner.note]
    · have hold : (s.update j (reader.note found) c).scanners[k]? = s.scanners[k]? :=
        List.getElem?_set_ne (Ne.symm hk)
      rw [hold, ← h.emitted]
      simp [hk]

lemma Shared.took_eof (h : s.Shared text source es) {j : Nat} {reader : Scanner}
    (hreader : s.scanners[j]? = some reader) {t : Token} (ht : t.kind = .eof) {c : Cursor}
    (hc : c.Passed text source (takenLexemes es).length) :
    (s.update j reader c).Shared text source (es ++ [.took j t]) := by
  rw [update_self hreader]
  constructor
  · rw [takenLexemes_eof es j ht]
    exact hc
  · rw [readers_took]
    exact h.readers_eq
  · rw [takenLexemes_eof es j ht]
    exact h.emitted

theorem Shared.scan (h : s.Shared text source es) {j : Nat} {reader : Scanner}
    (hreader : s.scanners[j]? = some reader) :
    Due text source es j reader.config reader.origin (reader.scan s.cursor).token ∧
      (s.update j (reader.scan s.cursor).scanner (reader.scan s.cursor).cursor).Shared text source
        (es ++ [.took j (reader.scan s.cursor).token]) := by
  have hnumber := h.reader_eq hreader
  have hemitted := h.emitted_iff hreader
  rcases h.passed.scan reader with ⟨hkind, hlexeme, ⟨found, hnote⟩, hnext⟩ |
    ⟨hkind, hspent, hposition, hsame, hnext⟩
  · constructor
    · exact
        { reader := hnumber
          lexeme := fun _ => hlexeme
          spent := fun heof => absurd heof hkind
          ending := fun heof => absurd heof hkind
          idle := fun heof => absurd heof hkind }
    · rw [hnote]
      exact h.took_lexeme hreader found hkind hnext
  · constructor
    · constructor
      · exact hnumber
      · exact fun hmore => absurd hkind hmore
      · exact fun _ => hspent
      · intro _ htook
        rw [hposition, if_pos (hemitted.mp htook)]
      · intro _ hidle
        rw [hposition, if_neg (fun he => hidle (hemitted.mpr he))]
    · rw [hsame]
      exact h.took_eof hreader hkind hnext

theorem Shared.act (h : s.Shared text source es) {a : Action} (ha : a.Pulls) :
    (s.act a).source.Shared text source (es ++ (s.event? a).toList) ∧
      ∀ number t, s.event? a = some (.took number t) →
        ∃ config place, Due text source es number config place t := by
  cases a with
  | attach config =>
    refine ⟨h.attach config, ?_⟩
    intro number t htook
    simp [event?] at htook
  | scan j =>
    cases hreader : s.scanners[j]? with
    | none =>
      simp only [event?, Source.act, hreader, Option.toList_none, List.append_nil]
      exact ⟨h, by simp⟩
    | some reader =>
      obtain ⟨hdue, hnext⟩ := h.scan hreader
      simp only [event?, Source.act, hreader, Option.toList_some]
      refine ⟨hnext, ?_⟩
      intro number t htook
      simp only [Option.some_inj, Event.took.injEq] at htook
      obtain ⟨rfl, rfl⟩ := htook
      exact ⟨_, _, hdue⟩
  | _ => exact absurd ha id

theorem Shared.run (h : s.Shared text source es) (actions : List Action)
    (hpulls : ∀ a ∈ actions, a.Pulls) :
    (s.run actions).2.1.Shared text source (es ++ s.events actions) := by
  induction actions generalizing s es with
  | nil =>
    rw [events, List.append_nil]
    exact h
  | cons a actions ih =>
    rw [List.forall_mem_cons] at hpulls
    have hrest := ih (h.act hpulls.1).1 hpulls.2
    rw [List.append_assoc] at hrest
    exact hrest

/-- Every token of a run of actions is due when it is given. -/
theorem Shared.due_of_events (h : s.Shared text source es) (actions : List Action)
    (hpulls : ∀ a ∈ actions, a.Pulls) {before after : List Event} {number : Nat} {t : Token}
    (hevents : s.events actions = before ++ .took number t :: after) :
    ∃ config place, Due text source (es ++ before) number config place t := by
  induction actions generalizing s es before with
  | nil => simp [events] at hevents
  | cons a actions ih =>
    rw [List.forall_mem_cons] at hpulls
    obtain ⟨hnext, hdue⟩ := h.act hpulls.1
    rw [events] at hevents
    cases hevent : s.event? a with
    | none =>
      rw [hevent] at hevents hnext
      rw [Option.toList_none, List.append_nil] at hnext
      exact ih hnext hpulls.2 hevents
    | some e =>
      rw [hevent] at hevents hnext
      -- the token is the first thing told, or it is told later
      cases before with
      | nil =>
        simp only [Option.toList_some, List.singleton_append, List.nil_append,
          List.cons.injEq] at hevents
        rw [List.append_nil]
        exact hdue number t (hevent.trans (congrArg some hevents.1))
      | cons e' before =>
        simp only [Option.toList_some, List.cons_append, List.cons.injEq] at hevents
        obtain ⟨rfl, hmore⟩ := hevents
        have hlater := ih hnext hpulls.2 hmore
        rwa [Option.toList_some, List.append_assoc, List.singleton_append] at hlater

end Source

end Munch
