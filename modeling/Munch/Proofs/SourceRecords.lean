import Munch.Proofs.ExactDiagnostics
import Munch.Proofs.Growth
import Munch.Proofs.OpenedFiles
import Munch.Proofs.SharedRuns

/-!
# Records of one source

The log of a run tells of many sources. `Workspace.written` says which record of a step tells of which
source, and the records of one source are exactly those of the actions that are done to it
(`Workspace.told_run`). Among them a source that no one closes but sessions has one record of its closing,
and that only if it is closed (`Source.openings_run`).
-/

namespace Munch

namespace Source

variable {s : Source}

lemma log_run_cons (s : Source) (a : Action) (actions : List Action) :
    (s.run (a :: actions)).2.2 = (s.act a).log ++ ((s.act a).source.run actions).2.2 := rfl

lemma run_append_log (s : Source) (as bs : List Action) :
    (s.run (as ++ bs)).2.2 = (s.run as).2.2 ++ ((s.run as).2.1.run bs).2.2 := by
  induction as generalizing s with
  | nil => rfl
  | cons a as ih =>
    rw [List.cons_append, log_run_cons, log_run_cons, ih, List.append_assoc]
    rfl

lemma log_run_if (s : Source) (p : Prop) [Decidable p] (as : List Action) :
    (s.run (if p then as else [])).2.2 = if p then (s.run as).2.2 else [] := by
  by_cases hp : p
  · rw [if_pos hp, if_pos hp]
  · rw [if_neg hp, if_neg hp]
    rfl

lemma log_run_eq_nil {actions : List Action} (h : ∀ a ∈ actions, ∀ s : Source, (s.act a).log = []) :
    (s.run actions).2.2 = [] := by
  induction actions generalizing s with
  | nil => rfl
  | cons a actions ih =>
    rw [List.forall_mem_cons] at h
    rw [log_run_cons, h.1 s, List.nil_append]
    exact ih h.2

lemma drain_log (s : Source) (j : Nat) :
    (s.run (List.replicate (s.drain j).1.length (.scan j))).2.2 = (s.drain j).2.2 := by
  cases h : s.scanners[j]? with
  | none => simp [drain, h]
  | some scanner =>
    have hdrain : s.drain j = ((scanner.drain s.cursor).tokens,
        s.update j (scanner.drain s.cursor).scanner (scanner.drain s.cursor).cursor,
        (scanner.drain s.cursor).log) := by
      simp only [drain, h]
    rw [hdrain, run_scans h, ← Scanner.drain_eq_scans]

lemma log_scan_of_no_token {j : Nat} (h : ¬ ∃ t, (s.act (.scan j)).yield = .token t) :
    (s.act (.scan j)).log = [] := by
  cases hreader : s.scanners[j]? with
  | none => rw [act_scan_of_none hreader]
  | some scanner =>
    rw [act_scan hreader] at h
    exact absurd ⟨_, rfl⟩ h

lemma source_run (s : Source) (actions : List Action) :
    (s.run actions).2.1.cursor.source = s.cursor.source := by
  induction actions generalizing s with
  | nil => rfl
  | cons a actions ih => exact (ih (s.act a).source).trans (s.source_act a)

/-- The records that tell of the opening and closing of sources. -/
def openings (log : List Record) : List Record := log.filter (·.channel = .session)

lemma openings_append (log more : List Record) : openings (log ++ more) = openings log ++ openings more :=
  List.filter_append log more

lemma openings_scan (s : Source) (j : Nat) : openings (s.act (.scan j)).log = [] := by
  have hsaid (d : Diagnostic) : (Record.ofDiagnostic d).channel ≠ .session := by
    rw [Record.ofDiagnostic]
    split <;> simp
  cases hreader : s.scanners[j]? with
  | none =>
    rw [act_scan_of_none hreader]
    rfl
  | some scanner =>
    rw [act_scan hreader, openings, List.filter_eq_nil_iff]
    intro r hr
    cases hread : Lexeme.read? (s.cursor.skip .whitespace).rest with
    | none => simp [Scanner.scan_of_none hread] at hr
    | some l =>
      rw [Scanner.scan_of_some hread] at hr
      obtain ⟨d, -, rfl⟩ := List.mem_map.mp hr
      simpa using hsaid d

lemma closed_scan (s : Source) (j : Nat) :
    (s.act (.scan j)).source.cursor.closed = s.cursor.closed := by
  cases hreader : s.scanners[j]? with
  | none => rw [act_scan_of_none hreader]
  | some scanner =>
    obtain ⟨n, hcursor, -⟩ := scanner.scanByAdvances_eq s.cursor
    rw [act_scan hreader, update, hcursor, Cursor.closed_consume]

/-- An action tells of a closing only if it is the one that closes. -/
lemma openings_act {a : Action} (ha : a ≠ .closeCursor) :
    openings (s.act a).log =
      if s.cursor.closed = false ∧ (s.act a).source.cursor.closed = true then [.closed s.cursor.source]
      else [] := by
  cases a with
  | advance => simp [act, openings, Cursor.advance]
  | attach config => simp [act, openings]
  | scan j =>
    rw [openings_scan, closed_scan, if_neg]
    rintro ⟨hopen, hclosed⟩
    simp [hopen] at hclosed
  | closeCursor => exact absurd rfl ha
  | closeSession =>
    cases hclosed : s.cursor.closed <;>
      simp [act, Cursor.release, hclosed, openings, Record.closed, Cursor.close]

/-- Nothing that is done to a closed source is recorded. -/
lemma openings_act_of_closed (h : s.cursor.closed = true) (a : Action) : openings (s.act a).log = [] := by
  by_cases ha : a = .closeCursor
  · subst ha
    rfl
  · rw [openings_act ha, if_neg]
    rintro ⟨hopen, -⟩
    simp [h] at hopen

lemma openings_run_of_closed (h : s.cursor.closed = true) (actions : List Action) :
    openings (s.run actions).2.2 = [] := by
  induction actions generalizing s with
  | nil => rfl
  | cons a actions ih =>
    rw [log_run_cons, openings_append, openings_act_of_closed h, List.nil_append]
    exact ih ((s.precedes_act a).closed h)

/-- Sessions record once that they close a source, when it is open before and closed after. -/
theorem openings_run (h : s.cursor.closed = false) {actions : List Action}
    (hactions : .closeCursor ∉ actions) :
    openings (s.run actions).2.2 =
      if (s.run actions).2.1.cursor.closed = true then [.closed s.cursor.source] else [] := by
  induction actions generalizing s with
  | nil => simp [h, openings]
  | cons a actions ih =>
    rw [List.mem_cons, not_or] at hactions
    have hnow := openings_act (s := s) (Ne.symm hactions.1)
    have hlast : (s.run (a :: actions)).2.1 = ((s.act a).source.run actions).2.1 := rfl
    rw [log_run_cons, openings_append, hlast]
    -- past the action that closes, closing again records nothing
    cases hclosed : (s.act a).source.cursor.closed with
    | true =>
      have hends := ((s.act a).source.precedes_run actions).closed hclosed
      rw [hnow, if_pos ⟨h, hclosed⟩, openings_run_of_closed hclosed, if_pos hends]
      rfl
    | false =>
      rw [hnow, if_neg fun hcloses => by simp [hclosed] at hcloses, List.nil_append, ih hclosed hactions.2,
        source_act]

end Source

namespace Workspace

/-- The source that the records of a step tell of, if the step works on one that there is. -/
def about (w : Workspace) : Step → Option Nat
  | .close id =>
    match w.object? id with
    | some (.cursor i) | some (.session i _) => some i
    | _ => none
  | st => (w.asked? st).map Prod.fst

def closingRecords (w : Workspace) : List (Nat × Nat) → List (Option Nat × Record)
  | [] => []
  | (i, _) :: rest =>
    w.closingRecords rest ++
      (w.closeSessions rest).1.sources[i]?.elim [] fun s => (s.act .closeSession).log.map (some i, ·)

/-- The records of a step, each with the number of the source that it tells of. Sources that are not kept
have no number. -/
def written (fs : FileSystem) (w : Workspace) : Step → List (Option Nat × Record)
  | .openSession _ path settings =>
    match w.config settings with
    | .ok config => (Session.openFile fs config path).2.map (some w.sources.length, ·)
    | .error _ => []
  | .openBatch _ paths _ settings =>
    match w.config settings with
    | .ok config =>
      match Session.openFiles fs config paths with
      | (.ok _, _) => (paths.zipIdx w.sources.length).map fun p => (some p.2, .opened p.1)
      | (.error _, log) => log.map (none, ·)
    | .error _ => []
  | .closeBatch id _ =>
    match w.object? id with
    | some (.batch members) => w.closingRecords members
    | _ => []
  | st => (w.step fs st).1.log.map (w.about st, ·)

def writtenAll (fs : FileSystem) (w : Workspace) : List Step → List (Option Nat × Record)
  | [] => []
  | st :: rest => w.written fs st ++ (w.step fs st).2.writtenAll fs rest

/-- The records that tell of the source numbered `i`. -/
def told (i : Nat) (records : List (Option Nat × Record)) : List Record :=
  records.filterMap fun p => if p.1 = some i then some p.2 else none

section Told

variable {i k : Nat} {log : List Record} {records : List (Option Nat × Record)}

lemma told_append (i : Nat) (records more : List (Option Nat × Record)) :
    told i (records ++ more) = told i records ++ told i more := List.filterMap_append

lemma told_map_self (i : Nat) (log : List Record) : told i (log.map (some i, ·)) = log := by
  simp [told]

lemma told_map_of_ne {label : Option Nat} (h : label ≠ some i) (log : List Record) :
    told i (log.map (label, ·)) = [] := by
  simp [told, h]

lemma told_opened_of_lt {n : Nat} (h : i < n) (paths : List String) :
    told i ((paths.zipIdx n).map fun p => (some p.2, .opened p.1)) = [] := by
  induction paths generalizing n with
  | nil => rfl
  | cons path paths ih =>
    have hne : some n ≠ some i := by simpa using Nat.ne_of_gt h
    rw [List.zipIdx_cons, List.map_cons, told, List.filterMap_cons, if_neg hne]
    exact ih (Nat.lt_succ_of_lt h)

lemma told_opened (n k : Nat) (paths : List String) :
    told (n + k) ((paths.zipIdx n).map fun p => (some p.2, .opened p.1)) =
      (paths[k]?.map .opened).toList := by
  induction paths generalizing n k with
  | nil => rfl
  | cons path paths ih =>
    rw [List.zipIdx_cons, List.map_cons, told, List.filterMap_cons]
    cases k with
    | zero =>
      have hlater := told_opened_of_lt (Nat.lt_succ_self n) paths
      rw [told] at hlater
      simp [hlater]
    | succ k =>
      have hne : some n ≠ some (n + (k + 1)) := by simp
      have hlater := ih (n + 1) k
      rw [Nat.add_right_comm, Nat.add_assoc, told] at hlater
      rw [if_neg hne]
      exact hlater

end Told

variable {w : Workspace} {fs : FileSystem} {i k : Nat} {s : Source} {st : Step}

lemma log_onReader {α : Type} (id : String) (f : Nat → Source → α × Source × List Record)
    (result : α → Result) :
    (w.onReader id f result).1.log =
      (w.reader? id).elim [] fun (k, j) => w.sources[k]?.elim [] fun s => (f j s).2.2 := by
  unfold onReader
  cases w.reader? id with
  | none => rfl
  | some reader =>
    simp only [bind, Option.bind, onSource, Option.elim_some]
    cases w.sources[reader.1]? <;> rfl

lemma log_closeWith (w : Workspace) (k : Nat) (how : Source.Action) (id : String) :
    (step.closeWith w k how id).1.log = w.sources[k]?.elim [] fun s => (s.act how).log := by
  unfold step.closeWith onSource
  cases w.sources[k]? <;> rfl

lemma log_finish (w : Workspace) (shown : Option String) (result : Result) (log : List Record) :
    (iterNext.finish shown w result log).1.log = log := by
  unfold iterNext.finish
  cases shown with
  | none => rfl
  | some other =>
    dsimp only
    split <;> rfl

/-- What a step records of the source that it works on are the records of its actions. -/
lemma log_about (h : w.about st = some k) :
    (w.step fs st).1.log = w.sources[k]?.elim [] fun s => (s.run (w.actions k st)).2.2 := by
  cases st with
  | scan id times =>
    simp only [about, asked?, Option.map_eq_some_iff] at h
    obtain ⟨⟨k', j⟩, hreader, rfl⟩ := h
    simp only [step, log_onReader, actions, hreader, Option.elim_some, if_true]
  | drain id =>
    simp only [about, asked?, Option.map_eq_some_iff] at h
    obtain ⟨⟨k', j⟩, hreader, rfl⟩ := h
    simp only [step, log_onReader, actions, hreader, Option.elim_some]
    cases hs : w.sources[k']? with
    | none => rfl
    | some s =>
      simp only [if_true, Option.elim_some]
      exact (s.drain_log j).symm
  | close id =>
    simp only [about] at h
    simp only [step, actions]
    cases hobject : w.object? id with
    | none => simp [hobject] at h
    | some object =>
      cases object with
      | cursor i =>
        obtain rfl : i = k := by simpa [hobject] using h
        simp only [log_closeWith, if_true, Source.log_run_cons, Source.run_nil, List.append_nil]
      | session i j =>
        obtain rfl : i = k := by simpa [hobject] using h
        simp only [log_closeWith, if_true, Source.log_run_cons, Source.run_nil, List.append_nil]
      | _ => simp [hobject] at h
  | iterNext id shown =>
    simp only [about, asked?] at h
    simp only [step, iterNext, actions]
    cases hobject : w.object? id with
    | none => simp [hobject] at h
    | some object =>
      cases object with
      | iterator i j finished =>
        obtain rfl : i = k := by simpa [hobject] using h
        cases finished with
        | true =>
          dsimp only
          rw [log_finish]
          cases w.sources[i]? <;> rfl
        | false =>
          simp only [onSource, if_true]
          cases hs : w.sources[i]? with
          | none => rfl
          | some s =>
            simp only [Option.map_some, Option.elim_some, Source.log_run_cons, Source.run_nil,
              List.append_nil]
            by_cases htoken : ∃ t, (s.act (.scan j)).yield = .token t
            · obtain ⟨t, ht⟩ := htoken
              simp only [ht, log_finish]
            · rw [Source.log_scan_of_no_token htoken]
              cases hyield : (s.act (.scan j)).yield with
              | token t => exact absurd ⟨t, hyield⟩ htoken
              | _ => rfl
      | _ => simp [hobject] at h
  | _ => simp [about, asked?] at h

/-- What is done to another source by a step is not recorded. -/
lemma log_actions_of_ne (h : w.about st ≠ some i) (hst : ∀ id ids, st ≠ .closeBatch id ids) (s : Source) :
    (s.run (w.actions i st)).2.2 = [] := by
  apply Source.log_run_eq_nil
  intro a ha s
  cases does_of_mem_actions ha with
  | advance => rfl
  | attach => rfl
  | scan j hasked =>
    cases st with
    | close id => exact absurd hasked (by simp [asked?])
    | _ => exact absurd (congrArg (Option.map Prod.fst) hasked) h
  | closeCursor id heq hcursor =>
    rw [heq, about, hcursor] at h
    exact absurd rfl h
  | closeSession id j heq hsession =>
    rw [heq, about, hsession] at h
    exact absurd rfl h
  | closeMember id ids heq => exact absurd heq (hst id ids)

lemma told_closingRecords (h : w.sources[i]? = some s) (members : List (Nat × Nat)) :
    told i (w.closingRecords members) = (s.run (closings i members)).2.2 := by
  induction members with
  | nil => rfl
  | cons member members ih =>
    obtain ⟨k, j⟩ := member
    have hrest := sources_closeSessions h members
    rw [closingRecords, told_append, ih, closings, Source.run_append_log, Source.log_run_if]
    by_cases hk : k = i
    · subst hk
      rw [hrest, if_pos rfl, Option.elim_some, told_map_self, Source.log_run_cons, Source.run_nil,
        List.append_nil]
    · rw [if_neg hk]
      cases (w.closeSessions members).1.sources[k]? with
      | none => rfl
      | some s' =>
        rw [Option.elim_some, told_map_of_ne (by simpa using hk)]

/-- Of a source that is there a step tells just what its actions record. -/
theorem told_step (h : w.sources[i]? = some s) (fs : FileSystem) (st : Step) :
    told i (w.written fs st) = (s.run (w.actions i st)).2.2 := by
  obtain ⟨hi, -⟩ := List.getElem?_eq_some_iff.mp h
  have hold : ∀ st, (∀ id ids, st ≠ .closeBatch id ids) →
      told i ((w.step fs st).1.log.map (w.about st, ·)) = (s.run (w.actions i st)).2.2 := by
    intro st hst
    by_cases habout : w.about st = some i
    · rw [habout, told_map_self, log_about habout, h, Option.elim_some]
    · rw [told_map_of_ne habout, log_actions_of_ne habout hst]
  cases st with
  | openSession id path settings =>
    have hnew : some w.sources.length ≠ some i := by simpa using Nat.ne_of_gt hi
    simp only [written]
    cases w.config settings with
    | ok config => exact told_map_of_ne hnew _
    | error e => rfl
  | openBatch id paths ids settings =>
    simp only [written]
    cases w.config settings with
    | ok config =>
      dsimp only
      rcases Session.openFiles fs config paths with ⟨e | sessions, log⟩
      · exact told_map_of_ne (Option.some_ne_none i).symm log
      · exact told_opened_of_lt hi paths
    | error e => rfl
  | closeBatch id ids =>
    simp only [written, actions]
    cases w.object? id with
    | none => rfl
    | some object =>
      cases object with
      | batch members => exact told_closingRecords h members
      | _ => rfl
  | _ => exact hold _ (by simp)

lemma told_closingRecords_of_none (h : w.sources.length ≤ i) (members : List (Nat × Nat)) :
    told i (w.closingRecords members) = [] := by
  induction members with
  | nil => rfl
  | cons member members ih =>
    obtain ⟨k, j⟩ := member
    rw [closingRecords, told_append, ih, List.nil_append]
    by_cases hk : k = i
    · rw [hk, List.getElem?_eq_none ((Worked.closeSessions w members).length_eq ▸ h)]
      rfl
    · cases (w.closeSessions members).1.sources[k]? with
      | none => rfl
      | some s' => exact told_map_of_ne (by simpa using hk) _

/-- A step tells nothing of sources that are still to be made. -/
theorem told_step_of_none (h : (w.step fs st).2.sources.length ≤ i) : told i (w.written fs st) = [] := by
  have hle : w.sources.length ≤ i := (length_le_step fs w st).trans h
  have hold : told i ((w.step fs st).1.log.map (w.about st, ·)) = [] := by
    by_cases habout : w.about st = some i
    · rw [log_about habout, List.getElem?_eq_none hle]
      rfl
    · exact told_map_of_ne habout _
  -- what a session or a batch adds is numbered below the new length
  cases st with
  | openSession id path settings =>
    simp only [written, step, withConfig] at h ⊢
    cases hconfig : w.config settings with
    | ok config =>
      rw [hconfig] at h
      dsimp only at h ⊢
      rcases hopen : Session.openFile fs config path with ⟨e | session, log⟩
      · rw [Session.log_of_openFile_error hopen]
        rfl
      · simp only [hopen, reply, (Gains.addSession w id session).length_eq, List.length_singleton] at h
        exact told_map_of_ne (by simpa using Nat.ne_of_lt h) log
    | error e => rfl
  | openBatch id paths ids settings =>
    simp only [written, step, withConfig] at h ⊢
    cases hconfig : w.config settings with
    | ok config =>
      rw [hconfig] at h
      dsimp only at h ⊢
      rcases hopen : Session.openFiles fs config paths with ⟨e | sessions, log⟩
      · exact told_map_of_ne (Option.some_ne_none i).symm log
      · have hlength := (Session.opens_of_openFiles hopen).length_eq
        simp only [hopen, reply, (Gains.addBatch w id sessions ids).length_eq, List.length_map] at h
        rw [← hlength] at h
        obtain ⟨k, rfl⟩ := Nat.exists_eq_add_of_le hle
        rw [told_opened, List.getElem?_eq_none (Nat.le_of_add_le_add_left h)]
        rfl
    | error e => rfl
  | closeBatch id ids =>
    simp only [written]
    cases w.object? id with
    | none => rfl
    | some object =>
      cases object with
      | batch members => exact told_closingRecords_of_none hle members
      | _ => rfl
  | _ => exact hold

theorem told_run (h : w.sources[i]? = some s) (fs : FileSystem) (steps : List Step) :
    told i (w.writtenAll fs steps) = (s.run (w.allActions fs i steps)).2.2 := by
  induction steps generalizing w s with
  | nil => rfl
  | cons st steps ih =>
    rw [writtenAll, told_append, told_step h, ih (sources_step h fs st), allActions, Source.run_append_log]

lemma length_le_run (fs : FileSystem) (w : Workspace) (steps : List Step) :
    w.sources.length ≤ (w.run fs steps).2.sources.length := by
  induction steps generalizing w with
  | nil => exact Nat.le_refl _
  | cons st steps ih => exact (length_le_step fs w st).trans (ih (w.step fs st).2)

lemma told_run_of_none {steps : List Step} (h : (w.run fs steps).2.sources.length ≤ i) :
    told i (w.writtenAll fs steps) = [] := by
  induction steps generalizing w with
  | nil => rfl
  | cons st steps ih =>
    have hstep := (length_le_run fs (w.step fs st).2 steps).trans h
    rw [writtenAll, told_append, told_step_of_none hstep, List.nil_append]
    exact ih h

lemma writtenAll_append (fs : FileSystem) (w : Workspace) (before after : List Step) :
    w.writtenAll fs (before ++ after) =
      w.writtenAll fs before ++ (w.run fs before).2.writtenAll fs after := by
  induction before generalizing w with
  | nil => rfl
  | cons st before ih =>
    rw [List.cons_append, writtenAll, writtenAll, ih, List.append_assoc]
    rfl

lemma map_snd_label (label : Option Nat) (log : List Record) :
    (log.map (label, ·)).map Prod.snd = log := by
  rw [List.map_map]
  exact List.map_id log

lemma log_closeSessions_cons (w : Workspace) (k j : Nat) (members : List (Nat × Nat)) :
    (w.closeSessions ((k, j) :: members)).2 = (w.closeSessions members).2 ++
      (w.closeSessions members).1.sources[k]?.elim [] fun s => (s.act .closeSession).log := by
  simp only [closeSessions, onSource]
  cases (w.closeSessions members).1.sources[k]? with
  | none => exact (List.append_nil _).symm
  | some s => rfl

lemma map_snd_closingRecords (w : Workspace) (members : List (Nat × Nat)) :
    (w.closingRecords members).map Prod.snd = (w.closeSessions members).2 := by
  induction members with
  | nil => rfl
  | cons member members ih =>
    obtain ⟨k, j⟩ := member
    rw [closingRecords, List.map_append, ih, log_closeSessions_cons]
    cases (w.closeSessions members).1.sources[k]? with
    | none => rfl
    | some s => rw [Option.elim_some, Option.elim_some, map_snd_label]

lemma map_snd_written (fs : FileSystem) (w : Workspace) (st : Step) :
    (w.written fs st).map Prod.snd = (w.step fs st).1.log := by
  cases st with
  | openSession id path settings =>
    simp only [written, step, withConfig]
    cases w.config settings with
    | ok config =>
      dsimp only
      rw [map_snd_label]
      rcases Session.openFile fs config path with ⟨e | s, log⟩ <;> rfl
    | error e => rfl
  | openBatch id paths ids settings =>
    simp only [written, step, withConfig]
    cases w.config settings with
    | ok config =>
      dsimp only
      rcases hopen : Session.openFiles fs config paths with ⟨e | sessions, log⟩
      · exact map_snd_label none log
      · rw [Session.openFiles_of_opens (Session.opens_of_openFiles hopen), Prod.mk.injEq] at hopen
        have hpaths := congrArg (List.map Record.opened) (List.zipIdx_map_fst w.sources.length paths)
        rw [List.map_map] at hpaths
        rw [← hopen.2, List.map_map]
        exact hpaths
    | error e => rfl
  | closeBatch id ids =>
    simp only [written, step]
    cases w.object? id with
    | none => rfl
    | some object =>
      cases object with
      | batch members =>
        dsimp only
        rw [map_snd_closingRecords]
        cases (w.closeSessions members).1.renderSessions ids <;> rfl
      | _ => rfl
  | _ => exact map_snd_label _ _

/-- Every record of a run tells of some source or of one that was not kept, and of one only. -/
theorem map_snd_writtenAll (fs : FileSystem) (w : Workspace) (steps : List Step) :
    (w.writtenAll fs steps).map Prod.snd = (w.run fs steps).1.flatMap Reply.log := by
  induction steps generalizing w with
  | nil => rfl
  | cons st steps ih =>
    rw [writtenAll, List.map_append, map_snd_written, ih]
    rfl

end Workspace

end Munch
