import Munch.Proofs.EndOfInput
import Munch.Proofs.Positions
import Munch.Proofs.Scans
import Munch.Proofs.SourceRecords

/-!
# Closing a source early

A close gives up what is left and moves nothing, so a reader whose cursor is closed ends right after the last
lexeme that it took (`Token.EndsAfter`). Of many closes the first one releases the stream, and the others do
nothing (`Source.first_close`).
-/

namespace Munch

/-- The end of input `last` is what comes after these tokens of a text if nothing more is read: the one that
was given already, or one right after the full run of the last token, or at the start of the text. -/
structure Token.EndsAfter (config : Config) (text : String) (source : Option String) (taken : List Token)
    (last : Token) : Prop where
  kind_eq : last.kind = .eof
  text_eq : last.text = ""
  source_eq : last.location.source = source
  of_nil : taken = [] → last.position = ⟨1, 0⟩
  of_eof : ∀ t ∈ taken, t.kind = .eof → last = t
  of_lexeme : ∀ t, taken.getLast? = some t → t.kind ≠ .eof →
    ∃ run : Occurrence, run.StandsIn text.toList ∧ t = run.token config .start source ∧
      last.position = .endOf run.through

lemma through_of_getLast? {front : List Char} {ps : List Piece} {o : Occurrence}
    (h : (occurrences front ps).getLast? = some o) : o.through = front ++ ps.flatMap Piece.chars := by
  rcases List.eq_nil_or_concat ps with rfl | ⟨qs, p, rfl⟩
  · exact absurd h (by simp)
  · rw [List.concat_eq_append, occurrences_append_pieces, occurrences, occurrences_nil, List.getLast?_concat,
      Option.some_inj] at h
    rw [← h, Occurrence.through, List.concat_eq_append, List.flatMap_append, List.flatMap_singleton,
      Piece.chars]
    simp only [List.append_assoc]

lemma Cut.take_pieces {text tail : List Char} {ps : List Piece} (h : Cut text ps tail) (n : Nat) :
    text.take ((ps.take n).flatMap Piece.chars).length = (ps.take n).flatMap Piece.chars := by
  have htext : text = (ps.take n).flatMap Piece.chars ++ ((ps.drop n).flatMap Piece.chars ++ tail) := by
    rw [← List.append_assoc, ← List.flatMap_append, List.take_append_drop]
    exact h.text_eq
  conv_lhs => rw [htext]
  exact List.take_left

/-- Wherever a new reader of a text stops, it ends there. -/
theorem Scanner.endsAfter_scans (config : Config) (text : String) (source : Option String) (n : Nat) :
    let c := Cursor.ofText text source
    let scans := (start config c).scans n c
    (scans.scanner.eof scans.cursor).EndsAfter config text source scans.tokens := by
  intro c scans
  obtain ⟨ps, tail, hcut⟩ := exists_cut c.rest
  obtain ⟨htokens, hcursor, hending, -⟩ := scans_start hcut config n
  rw [hcursor, hending, htokens]
  constructor
  · rfl
  · rfl
  · rfl
  · intro hnone
    have hos : occurrences [] (ps.take n) = [] := List.map_eq_nil_iff.mp (List.append_eq_nil_iff.mp hnone).1
    rw [if_pos hos]
    rfl
  · intro t ht heof
    rcases List.mem_append.mp ht with ht | ht
    · obtain ⟨o, -, rfl⟩ := List.mem_map.mp ht
      exact absurd heof (o.kind_token_ne_eof config c.position c.source)
    · exact (List.eq_of_mem_replicate ht).symm
  · intro t ht hmore
    by_cases hn : n ≤ ps.length
    · rw [Nat.sub_eq_zero_of_le hn, List.replicate_zero, List.append_nil, List.getLast?_map,
        Option.map_eq_some_iff] at ht
      obtain ⟨o, ho, rfl⟩ := ht
      have hsome : occurrences [] (ps.take n) ≠ [] := by
        intro hos
        simp [hos] at ho
      have hmem : o ∈ occurrences [] ps := by
        have htaken := List.mem_of_getLast? ho
        rw [occurrences_take] at htaken
        exact List.mem_of_mem_take htaken
      refine ⟨o, hcut.standsIn [] o hmem, rfl, ?_⟩
      rw [if_neg hsome, if_pos hn, through_of_getLast? ho, List.nil_append, ← Position.start_after]
      change c.position.after (c.rest.take _) = _
      rw [hcut.take_pieces]
      rfl
    · -- past the last lexeme the tokens are all ends of input
      have hlong : n - ps.length ≠ 0 := by omega
      rw [List.getLast?_append, List.getLast?_replicate, if_neg hlong, Option.some_or, Option.some_inj] at ht
      rw [← ht] at hmore
      exact absurd rfl hmore

namespace Source

variable {s : Source} {a : Action} {actions : List Action}

lemma source_close (hopen : s.cursor.closed = false) (ha : a.closes = true) :
    (s.act a).source = ⟨s.cursor.close, s.scanners⟩ := by
  cases a with
  | closeCursor => rfl
  | closeSession => simp [act, Cursor.release, hopen]
  | _ => exact absurd ha (by simp [Action.closes])

/-- A close leaves everything where it is. -/
lemma close_moves_nothing (s : Source) (ha : a.closes = true) :
    (s.act a).source.cursor.position = s.cursor.position ∧
      (s.act a).source.cursor.offset = s.cursor.offset ∧ (s.act a).source.scanners = s.scanners := by
  cases a with
  | closeCursor => exact ⟨rfl, rfl, rfl⟩
  | closeSession =>
    simp only [act, Cursor.release]
    split <;> exact ⟨rfl, rfl, trivial⟩
  | _ => exact absurd ha (by simp [Action.closes])

lemma log_closeSession (hopen : s.cursor.closed = false) :
    (s.act .closeSession).log = [.closed s.cursor.source] := by
  rw [act, Cursor.release, hopen, if_neg (by decide)]

lemma spent_close {number : Nat} {reader : Scanner} (hopen : s.cursor.closed = false)
    (hreader : s.scanners[number]? = some reader) (ha : a.closes = true) :
    (s.act a).source.Spent number reader (reader.eof s.cursor) := by
  rw [source_close hopen ha]
  exact ⟨hreader, rfl, rfl⟩

lemma closed_act (ha : a.closes = false) : (s.act a).source.cursor.closed = s.cursor.closed := by
  cases a with
  | advance => exact Cursor.closed_consume s.cursor 1
  | attach config => rfl
  | scan number => exact s.closed_scan number
  | _ => exact absurd ha (by simp [Action.closes])

lemma closed_run (h : ∀ a ∈ actions, a.closes = false) :
    (s.run actions).2.1.cursor.closed = s.cursor.closed := by
  induction actions generalizing s with
  | nil => rfl
  | cons a actions ih =>
    rw [List.forall_mem_cons] at h
    exact (ih h.2).trans (closed_act h.1)

/-- After some scans and a close a reader goes on giving one end of input, whatever is done then. -/
theorem scan_of_close {number : Nat} {reader : Scanner} (hopen : s.cursor.closed = false)
    (hreader : s.scanners[number]? = some reader) (n : Nat) (ha : a.closes = true) (more : List Action) :
    let scans := reader.scans n s.cursor
    let pulled := (s.run (List.replicate n (.scan number))).2.1
    let later := ((pulled.act a).source.run more).2.1
    later.act (.scan number) = ⟨.token (scans.scanner.eof scans.cursor), later, []⟩ := by
  intro scans pulled later
  have hpulled : pulled = s.update number scans.scanner scans.cursor :=
    congrArg (·.2.1) (run_scans hreader n)
  have hstill : pulled.cursor.closed = false := by
    refine (closed_run ?_).trans hopen
    intro b hb
    rw [List.eq_of_mem_replicate hb]
    rfl
  have hused : pulled.scanners[number]? = some scans.scanner := by
    rw [hpulled]
    exact getElem?_update hreader scans.scanner scans.cursor
  have hends : scans.scanner.eof pulled.cursor = scans.scanner.eof scans.cursor := by
    rw [hpulled]
    rfl
  have hspent : later.Spent number scans.scanner (scans.scanner.eof pulled.cursor) :=
    (spent_close hstill hused ha).run more
  rw [hends] at hspent
  exact hspent.scan_eq

lemma allStreamEvents_append (s : Source) (as bs : List Action) :
    s.allStreamEvents (as ++ bs) = s.allStreamEvents as ++ (s.run as).2.1.allStreamEvents bs := by
  induction as generalizing s with
  | nil => rfl
  | cons a as ih =>
    rw [List.cons_append, allStreamEvents, allStreamEvents, ih, List.append_assoc]
    rfl

lemma streamEvents_close (hopen : s.cursor.closed = false) (ha : a.closes = true) :
    s.streamEvents a = [.released] := by
  cases a with
  | closeCursor => simp [streamEvents, Cursor.closing, hopen]
  | closeSession => simp [streamEvents, Cursor.closing, hopen]
  | _ => exact absurd ha (by simp [Action.closes])

lemma allStreamEvents_of_open (h : ∀ a ∈ actions, a.closes = false) : s.allStreamEvents actions = [] := by
  induction actions generalizing s with
  | nil => rfl
  | cons a actions ih =>
    rw [List.forall_mem_cons] at h
    have hnow : s.streamEvents a = [] := by
      cases a <;> first | rfl | exact absurd h.1 (by simp [Action.closes])
    rw [allStreamEvents, hnow, ih h.2, List.nil_append]

lemma allStreamEvents_of_closed (h : s.cursor.closed = true) (actions : List Action) :
    s.allStreamEvents actions = [] := by
  induction actions generalizing s with
  | nil => rfl
  | cons a actions ih =>
    have hnow : s.streamEvents a = [] := by
      cases a <;> simp [streamEvents, Cursor.closing, h]
    rw [allStreamEvents, hnow, ih ((s.precedes_act a).closed h), List.nil_append]

/-- Of all closes the first one releases the stream, and is recorded if it is a session that closes. -/
theorem first_close (hopen : s.cursor.closed = false) {before : List Action} {first : Action}
    (hbefore : ∀ a ∈ before, a.closes = false) (hfirst : first.closes = true) (after : List Action) :
    s.allStreamEvents (before ++ first :: after) = [.released] ∧
      openings (s.run (before ++ first :: after)).2.2 = openings ((s.run before).2.1.act first).log := by
  have hstill : (s.run before).2.1.cursor.closed = false := (closed_run hbefore).trans hopen
  have hclosed : ((s.run before).2.1.act first).source.cursor.closed = true := by
    rw [source_close hstill hfirst]
    rfl
  constructor
  · rw [allStreamEvents_append, allStreamEvents_of_open hbefore, List.nil_append, allStreamEvents,
      streamEvents_close hstill hfirst, allStreamEvents_of_closed hclosed]
    rfl
  · have hquiet : openings (s.run before).2.2 = [] := by
      have hcursor : .closeCursor ∉ before := fun hmem => absurd (hbefore _ hmem) (by decide)
      rw [openings_run hopen hcursor, hstill, if_neg (by decide)]
    rw [run_append_log, openings_append, hquiet, List.nil_append, log_run_cons, openings_append,
      openings_run_of_closed hclosed, List.append_nil]

/-- What a session gives before it is closed are the first tokens of the text, with the end of input over and
over if there are not so many. Closed, by itself or otherwise, it gives one end of input for good. Among the
closes of a source the first one releases the stream, none moves anything or says anything of the text, and a
record is written only if the first is that of a session. -/
theorem close_early (config : Config) (text : String) (source : Option String) (k : Nat) :
    (let pulled := (ofSession (.ofText config text source)).run (List.replicate k (.scan 0))
      ∃ lexemes ending last, (tokenize config text source).1 = lexemes ++ [ending] ∧
        tokens pulled.1 = (lexemes ++ List.replicate k ending).take k ∧
        last.EndsAfter config text source (tokens pulled.1) ∧
        ∀ close : Action, close.closes = true → ∀ more,
          let later := ((pulled.2.1.act close).source.run more).2.1
          later.act (.scan 0) = ⟨.token last, later, []⟩) ∧
    ∀ s : Source, (∀ a : Action, a.closes = true →
        (s.act a).source.cursor.position = s.cursor.position ∧
          (s.act a).source.cursor.offset = s.cursor.offset ∧ (s.act a).source.scanners = s.scanners) ∧
      (s.cursor.closed = false → ∀ actions : List Action, (∃ a ∈ actions, a.closes = true) →
        s.allStreamEvents actions = [.released] ∧
        ∃ before first after, actions = before ++ first :: after ∧ (∀ a ∈ before, a.closes = false) ∧
          (s.run before).2.1.streamEvents first = [.released] ∧
          (first = .closeCursor ∧ openings (s.run actions).2.2 = [] ∨
            first = .closeSession ∧ ((s.run before).2.1.act first).log = [.closed s.cursor.source] ∧
              openings (s.run actions).2.2 = [.closed s.cursor.source])) := by
  constructor
  · intro pulled
    let c := Cursor.ofText text source
    let scans := (Scanner.start config c).scans k c
    have hreader : (ofSession (.ofText config text source)).scanners[0]? = some (.start config c) := rfl
    have htokens : tokens pulled.1 = scans.tokens := by
      rw [show pulled = _ from run_scans hreader k]
      exact tokens_map_token scans.tokens
    obtain ⟨lexemes, ending, hdrain, htaken⟩ := (Scanner.start config c).tokens_scans c k
    refine ⟨lexemes, ending, scans.scanner.eof scans.cursor, hdrain, htokens.trans htaken, ?_, ?_⟩
    · rw [htokens]
      exact Scanner.endsAfter_scans config text source k
    · intro close hclose more
      exact scan_of_close rfl hreader k hclose more
  · intro s
    refine ⟨fun a ha => s.close_moves_nothing ha, ?_⟩
    intro hopen actions hcloses
    obtain ⟨first, hfind⟩ := Option.isSome_iff_exists.mp (List.find?_isSome.mpr hcloses)
    obtain ⟨hfirst, before, after, rfl, hbefore⟩ := List.find?_eq_some_iff_append.mp hfind
    simp only [Bool.not_eq_true'] at hbefore
    have hstill : (s.run before).2.1.cursor.closed = false := (closed_run hbefore).trans hopen
    obtain ⟨hreleased, hrecorded⟩ := first_close hopen hbefore hfirst after
    refine ⟨hreleased, before, first, after, rfl, hbefore, streamEvents_close hstill hfirst, ?_⟩
    rw [hrecorded]
    cases first with
    | closeCursor => exact .inl ⟨rfl, rfl⟩
    | closeSession =>
      have hlog : ((s.run before).2.1.act .closeSession).log = [.closed s.cursor.source] := by
        rw [log_closeSession hstill, source_run]
      refine .inr ⟨rfl, hlog, ?_⟩
      rw [hlog]
      rfl
    | _ => exact absurd hfirst (by simp [Action.closes])

/-- A session that is closed before it has skipped the blanks, after its cursor was. -/
theorem close_early_of_cursor_first :
    let s := ofSession (.ofText default " ab" (some "f"))
    (∃ last : Token, last.position = ⟨1, 0⟩ ∧ ∀ more,
      let later := ((s.act .closeCursor).source.run more).2.1
      later.act (.scan 0) = ⟨.token last, later, []⟩) ∧
    s.allStreamEvents [.closeCursor, .scan 0, .closeSession] = [.released] := by
  intro s
  obtain ⟨⟨_, _, last, -, -, hends, hlater⟩, hcloses⟩ := close_early default " ab" (some "f") 0
  refine ⟨⟨last, hends.of_nil rfl, hlater .closeCursor rfl⟩, ?_⟩
  exact ((hcloses s).2 rfl _ ⟨.closeCursor, List.mem_cons_self, rfl⟩).1

example : tokens ((ofSession (.ofText { limit := 1 } "abc d")).run [.scan 0, .closeSession, .scan 0]).1 =
    [⟨.identifier, "a", ⟨⟨1, 0⟩, none⟩⟩, ⟨.eof, "", ⟨⟨1, 3⟩, none⟩⟩] := by cbv

end Source

end Munch
