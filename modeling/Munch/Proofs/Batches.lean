import Munch.Proofs.Programs
import Munch.Proofs.SourceRecords

/-!
# Batches of files

A batch opens all its files or none. If it opens, its sessions are closed in any case when the block is left,
the last one first, and every one of them has told once that it was opened and once that it was closed
(`Workspace.batch_all_or_nothing`).
-/

namespace Munch

namespace Workspace

variable {w : Workspace} {fs : FileSystem} {i n : Nat} {s : Source} {paths ids : List String}
  {id path : String} {settings : Settings} {config : Config} {sessions : List Session}
  {members : List (Nat × Nat)}

/-- Names for cursors stand for sources that there are. -/
def Numbered (w : Workspace) : Prop := ∀ p ∈ w.objects, ∀ i, p.2 = .cursor i → i < w.sources.length

lemma Numbered.step (h : w.Numbered) (fs : FileSystem) (st : Step) : (w.step fs st).2.Numbered := by
  obtain ⟨new, hobjects, hnew⟩ := objects_step fs w st
  intro p hp i hcursor
  rw [hobjects, List.mem_append] at hp
  rcases hp with hp | hp
  · exact ((hnew p hp).2 i hcursor).2
  · exact (h p hp i hcursor).trans_le (length_le_step fs w st)

lemma Numbered.run (h : w.Numbered) (fs : FileSystem) (steps : List Step) : (w.run fs steps).2.Numbered := by
  induction steps generalizing w with
  | nil => exact h
  | cons st steps ih => exact ih (h.step fs st)

/-- No name stands for the cursor of this source, so nothing but a session can close it. -/
structure Sealed (w : Workspace) (i : Nat) : Prop where
  lt_length : i < w.sources.length
  no_cursor : ∀ p ∈ w.objects, p.2 ≠ .cursor i

namespace Sealed

lemma step (h : w.Sealed i) (fs : FileSystem) (st : Step) : (w.step fs st).2.Sealed i := by
  obtain ⟨new, hobjects, hnew⟩ := objects_step fs w st
  constructor
  · exact h.lt_length.trans_le (length_le_step fs w st)
  · intro p hp hcursor
    rw [hobjects, List.mem_append] at hp
    rcases hp with hp | hp
    · exact Nat.not_le_of_lt h.lt_length ((hnew p hp).2 i hcursor).1
    · exact h.no_cursor p hp hcursor

lemma object?_ne (h : w.Sealed i) (id : String) : w.object? id ≠ some (.cursor i) := by
  intro hobject
  obtain ⟨before, after, heq, -⟩ := List.lookup_eq_some_iff.mp hobject
  exact h.no_cursor (id, .cursor i) (heq ▸ List.mem_append_right _ List.mem_cons_self) rfl

lemma not_mem_actions (h : w.Sealed i) (st : Step) : .closeCursor ∉ w.actions i st := by
  intro hmem
  cases does_of_mem_actions hmem with
  | closeCursor id _ hcursor => exact h.object?_ne id hcursor

lemma not_mem_allActions (h : w.Sealed i) (fs : FileSystem) (steps : List Step) :
    .closeCursor ∉ w.allActions fs i steps := by
  induction steps generalizing w with
  | nil => exact List.not_mem_nil
  | cons st steps ih =>
    rw [allActions, List.mem_append, not_or]
    exact ⟨h.not_mem_actions st, ih (h.step fs st)⟩

/-- A source that was open and is closed after a run has one record of that. -/
lemma openings_told (h : w.Sealed i) (hs : w.sources[i]? = some s) (hopen : s.cursor.closed = false)
    {steps : List Step} (hclosed : (s.run (w.allActions fs i steps)).2.1.cursor.closed = true) :
    Source.openings (told i (w.writtenAll fs steps)) = [.closed s.cursor.source] := by
  rw [told_run hs, Source.openings_run hopen (h.not_mem_allActions fs steps), if_pos hclosed]

end Sealed

def isOpen (w : Workspace) (i : Nat) : Bool := w.sources[i]?.any fun s => !s.cursor.closed

lemma closings_eq_nil (h : i ∉ members.map Prod.fst) : closings i members = [] := by
  induction members with
  | nil => rfl
  | cons member members ih =>
    rw [List.map_cons, List.mem_cons, not_or] at h
    rw [closings, ih h.2, if_neg (Ne.symm h.1), List.nil_append]

lemma sources_closeSessions_of_not_mem (w : Workspace) (h : i ∉ members.map Prod.fst) :
    (w.closeSessions members).1.sources[i]? = w.sources[i]? := by
  cases hs : w.sources[i]? with
  | some s => rw [sources_closeSessions hs, closings_eq_nil h, Source.run_nil]
  | none =>
    rw [List.getElem?_eq_none_iff] at hs ⊢
    rwa [(Worked.closeSessions w members).length_eq]

lemma closed_run_closings (h : i ∈ members.map Prod.fst) (s : Source) :
    (s.run (closings i members)).2.1.cursor.closed = true := by
  induction members with
  | nil => exact absurd h List.not_mem_nil
  | cons member members ih =>
    rw [closings, Source.run_append_source, Source.run_if]
    rw [List.map_cons, List.mem_cons] at h
    by_cases hk : member.1 = i
    · rw [if_pos hk]
      exact Cursor.closed_release _
    · rw [if_neg hk]
      exact ih (h.resolve_left (Ne.symm hk))

/-- The sessions of a batch, if `count` of them were numbered from `n` on. -/
def numbered (n count : Nat) : List (Nat × Nat) := (List.range' n count).map (·, 0)

lemma map_fst_numbered (n count : Nat) : (numbered n count).map Prod.fst = List.range' n count := by
  rw [numbered, List.map_map]
  exact List.map_id _

/-- What is recorded when the sessions of a batch are closed: those that are open, the last one first. -/
lemma log_closeSessions
    (h : ∀ p ∈ paths.zipIdx n, ∃ s, w.sources[p.2]? = some s ∧ s.cursor.source = some p.1) :
    (w.closeSessions (numbered n paths.length)).2 =
      ((paths.zipIdx n).reverse.filter (w.isOpen ·.2)).map fun p => .closed (some p.1) := by
  induction paths generalizing n with
  | nil => rfl
  | cons path paths ih =>
    rw [List.zipIdx_cons, List.forall_mem_cons] at h
    obtain ⟨⟨s, hs, hsource⟩, hrest⟩ := h
    have hfirst : n ∉ (numbered (n + 1) paths.length).map Prod.fst := by
      rw [map_fst_numbered, List.mem_range'_1]
      omega
    have hcons : numbered n (path :: paths).length = (n, 0) :: numbered (n + 1) paths.length := by
      rw [numbered, List.length_cons, List.range'_succ]
      rfl
    -- the sessions behind the first one are closed before it, and are other sources
    rw [hcons, log_closeSessions_cons, ih hrest, sources_closeSessions_of_not_mem w hfirst, hs,
      List.zipIdx_cons, List.reverse_cons, List.filter_append, List.map_append, Option.elim_some]
    congr 1
    cases hclosed : s.cursor.closed <;>
      simp [isOpen, hs, hclosed, hsource, Source.act, Cursor.release]

lemma snd_addBatch (w : Workspace) (sessions : List Session) (ids : List String) :
    (w.addBatch sessions ids).2 = numbered w.sources.length sessions.length := by
  induction sessions generalizing w ids with
  | nil => rfl
  | cons s sessions ih =>
    rw [numbered, List.length_cons, List.range'_succ, List.map_cons]
    cases ids with
    | nil =>
      refine congrArg (List.cons _) ((ih (w.addSource (.ofSession s)) []).trans ?_)
      rw [addSource, List.length_append, List.length_singleton, numbered]
    | cons id ids =>
      refine congrArg (List.cons _) ((ih (w.addSession id s) ids).trans ?_)
      rw [addSession, name, addSource, List.length_append, List.length_singleton, numbered]

lemma object?_addBatch_of_not_mem (h : id ∉ ids) (w : Workspace) (sessions : List Session) :
    (w.addBatch sessions ids).1.object? id = w.object? id := by
  obtain ⟨new, hobjects, hnew⟩ := objects_addBatch w sessions ids
  apply object?_of_append hobjects
  rintro p hp rfl
  exact h (hnew p hp).1

/-- The names of a batch stand for its sessions in order. Of one that is given twice the last use counts. -/
lemma object?_addBatch {k : Nat} (hid : ids[k]? = some id) (hlast : id ∉ ids.drop (k + 1))
    (w : Workspace) (hk : k < sessions.length) :
    (w.addBatch sessions ids).1.object? id = some (.session (w.sources.length + k) 0) := by
  induction sessions generalizing w ids k with
  | nil => exact absurd hk (Nat.not_lt_zero k)
  | cons s sessions ih =>
    cases ids with
    | nil => exact absurd hid (by simp)
    | cons first ids =>
      cases k with
      | zero =>
        obtain rfl := Option.some.inj hid
        refine (object?_addBatch_of_not_mem hlast (w.addSession first s) sessions).trans ?_
        exact List.lookup_cons_self
      | succ k =>
        have hrest : ids[k]? = some id := hid
        have hfresh : id ∉ ids.drop (k + 1) := hlast
        refine (ih hrest hfresh (w.addSession first s) (Nat.lt_of_succ_lt_succ hk)).trans ?_
        rw [addSession, name, addSource, List.length_append, List.length_singleton, Nat.add_assoc,
          Nat.add_comm 1 k]

/-- In the second workspace the batch is open. Its sessions are the last sources, one for each path, and have
the names that were given for them. -/
structure HandsOver (fs : FileSystem) (config : Config) (id : String) (paths ids : List String)
    (sessions : List Session) (w w' : Workspace) : Prop where
  opens : List.Forall₂ (Session.Opens fs config) paths sessions
  active_eq : w'.active = w.active
  sources_eq : w'.sources = w.sources ++ sessions.map .ofSession
  batch_eq : w'.object? id = some (.batch (numbered w.sources.length paths.length))
  session_eq : ∀ k name, ids[k]? = some name → k < paths.length → name ∉ id :: ids.drop (k + 1) →
    w'.object? name = some (.session (w.sources.length + k) 0)

lemma step_openBatch (hconfig : w.config settings = .ok config)
    (hopens : List.Forall₂ (Session.Opens fs config) paths sessions) (id : String) (ids : List String) :
    (w.step fs (.openBatch id paths ids settings)).1 =
        ⟨.ok (.texts (sessions.map Session.render)), none, paths.map .opened⟩ ∧
      HandsOver fs config id paths ids sessions w (w.step fs (.openBatch id paths ids settings)).2 := by
  simp only [step, withConfig, hconfig, Session.openFiles_of_opens hopens]
  refine ⟨rfl, ?_⟩
  constructor
  · exact hopens
  · exact active_addBatch w sessions ids
  · exact sources_addBatch w sessions ids
  · rw [hopens.length_eq, ← snd_addBatch w sessions ids]
    exact List.lookup_cons_self
  · intro k name hname hk hlast
    rw [List.mem_cons, not_or] at hlast
    refine (Mirrors.object?_name _ _ _ _).trans ?_
    rw [if_neg hlast.1]
    exact object?_addBatch hname hlast.2 w (hopens.length_eq ▸ hk)

lemma sealed_openBatch (hw : w.Numbered) (hconfig : w.config settings = .ok config)
    (hopens : List.Forall₂ (Session.Opens fs config) paths sessions) (id : String) (ids : List String)
    {k : Nat} (hk : k < paths.length) :
    (w.step fs (.openBatch id paths ids settings)).2.Sealed (w.sources.length + k) := by
  simp only [step, withConfig, hconfig, Session.openFiles_of_opens hopens]
  obtain ⟨new, hobjects, hnew⟩ := objects_addBatch w sessions ids
  constructor
  · change _ < (w.addBatch sessions ids).1.sources.length
    rw [sources_addBatch, List.length_append, List.length_map, ← hopens.length_eq]
    exact Nat.add_lt_add_left hk _
  · change ∀ p ∈ (id, _) :: (w.addBatch sessions ids).1.objects, p.2 ≠ _
    rw [hobjects, List.forall_mem_cons, List.forall_mem_append]
    refine ⟨by simp, ?_, ?_⟩
    · intro p hp
      obtain ⟨-, i, j, hsession⟩ := hnew p hp
      simp [hsession]
    · intro p hp hcursor
      exact Nat.not_lt_of_le (Nat.le_add_right _ k) (hw p hp _ hcursor)

lemma told_openBatch (hconfig : w.config settings = .ok config)
    (hopens : List.Forall₂ (Session.Opens fs config) paths sessions) (id : String) (ids : List String)
    {k : Nat} (hpath : paths[k]? = some path) :
    told (w.sources.length + k) (w.written fs (.openBatch id paths ids settings)) = [.opened path] := by
  simp only [written, hconfig, Session.openFiles_of_opens hopens]
  rw [told_opened, hpath]
  rfl

lemma HandsOver.source_eq {w' : Workspace} (h : HandsOver fs config id paths ids sessions w w') {k : Nat}
    (hpath : paths[k]? = some path) :
    ∃ text, w'.sources[w.sources.length + k]? =
      some (.ofSession (.start config { rest := text, source := some path })) := by
  obtain ⟨s, hs, hopens⟩ := Session.opens_getElem? h.opens hpath
  obtain ⟨text, -, rfl⟩ := hopens.eq_start
  refine ⟨text, ?_⟩
  rw [h.sources_eq, List.getElem?_append_right (Nat.le_add_right _ _), Nat.add_sub_cancel_left,
    List.getElem?_map, hs, Option.map_some]

lemma step_closeBatch (h : w.object? id = some (.batch members)) (fs : FileSystem) :
    w.step fs (.closeBatch id []) =
      (⟨.ok (.texts []), none, (w.closeSessions members).2⟩, (w.closeSessions members).1) := by
  simp only [step, h]
  rfl

/-- When a batch was left its sources are closed and stay closed. -/
lemma closed_of_closeBatch (hs : w.sources[i]? = some s) (hbatch : w.object? id = some (.batch members))
    (hi : i ∈ members.map Prod.fst) (fs : FileSystem) (later : List Step) :
    ∃ s', (w.run fs (.closeBatch id [] :: later)).2.sources[i]? = some s' ∧ s'.cursor.closed = true := by
  have hleft : (w.step fs (.closeBatch id [])).2.sources[i]? = some (s.run (closings i members)).2.1 := by
    rw [step_closeBatch hbatch]
    exact sources_closeSessions hs members
  refine ⟨_, sources_run hleft fs later, ?_⟩
  exact (Source.precedes_run _ _).closed (closed_run_closings hi s)

/-- A closed session on a file has nothing left. -/
lemma exhausted_of_closed {text : List Char} {source : Option String} {actions : List Source.Action}
    (hs : s = .ofSession (.start config { rest := text, source }))
    (h : (s.run actions).2.1.cursor.closed = true) : (s.run actions).2.1.cursor.exhausted = true := by
  have hstart : s.cursor.HasRead text [] := by
    rw [hs]
    constructor
    · exact List.nil_prefix
    · rfl
    · rfl
    · exact fun _ => rfl
    · exact fun hclosed => absurd hclosed (by simp [Source.ofSession, Session.start])
  exact Cursor.exhausted_iff.mpr ((Source.hasRead_run hstart actions).rest_of_closed h)

lemma withConfig_of_opening {e : OpenError} {k : Config → Reply × Workspace}
    (h : (w.withConfig settings k).1.result = .error (.opening e)) :
    ∃ config, (k config).1.result = .error (.opening e) ∧ w.withConfig settings k = k config := by
  unfold withConfig at h ⊢
  cases hconfig : w.config settings with
  | ok config =>
    rw [hconfig] at h
    exact ⟨config, h, rfl⟩
  | error e => simp [hconfig, fail] at h

lemma result_attach_ne {e : OpenError} (id cursor : String) (config : Config) (object : Nat → Nat → Object) :
    (w.attach id cursor config object).1.result ≠ .error (.opening e) := by
  unfold attach
  dsimp only
  split <;> simp [reply, fail]

/-- A step that is to open one file and cannot leaves nothing behind, and records nothing. -/
theorem step_of_unopened {e : OpenError} {st : Step}
    (hst : ∀ id paths ids settings, st ≠ .openBatch id paths ids settings)
    (h : (w.step fs st).1.result = .error (.opening e)) :
    w.step fs st = (⟨.error (.opening e), none, []⟩, w) := by
  cases st with
  | openCursor id path encoding =>
    simp only [step] at h ⊢
    cases hopen : Cursor.openFile fs path encoding with
    | ok c => simp [hopen, reply] at h
    | error e' =>
      obtain rfl : e' = e := by simpa [hopen, fail] using h
      rfl
  | openSession id path settings =>
    obtain ⟨config, hresult, hsame⟩ := withConfig_of_opening h
    rw [step, hsame]
    rcases hopen : Session.openFile fs config path with ⟨e' | s, log⟩
    · obtain rfl : e' = e := by simpa [hopen, fail] using hresult
      rw [Session.log_of_openFile_error hopen]
      rfl
    · simp [hopen, reply] at hresult
  | tokenizeFile path settings =>
    obtain ⟨config, hresult, hsame⟩ := withConfig_of_opening h
    rw [step, hsame]
    unfold Munch.tokenizeFile at hresult ⊢
    rcases hopen : Session.openFile fs config path with ⟨e' | s, log⟩
    · obtain rfl : e' = e := by simpa [hopen, fail] using hresult
      rw [Session.log_of_openFile_error hopen]
      rfl
    · simp [hopen, reply] at hresult
  | openBatch id paths ids settings => exact absurd rfl (hst id paths ids settings)
  -- the other steps do not read files, and fail with other errors
  | newScanner id cursor settings =>
    obtain ⟨config, hresult, -⟩ := withConfig_of_opening h
    exact absurd hresult (result_attach_ne id cursor config .scanner)
  | sessionOver id cursor settings =>
    obtain ⟨config, hresult, -⟩ := withConfig_of_opening h
    exact absurd hresult (result_attach_ne id cursor config .session)
  | newSession | tokenize | setConfig | enterScope =>
    obtain ⟨config, hresult, -⟩ := withConfig_of_opening h
    simp [setActive, reply] at hresult
  | newCursor | activeConfig | resetConfig | threadConfig => simp [step, setActive, reply] at h
  | advance | scan | drain | inspect | iterate | leaveScope =>
    simp only [step, onReader] at h
    split at h <;> simp [setActive, reply, fail] at h
  | close id =>
    simp only [step, step.closeWith] at h
    split at h <;> try split at h
    all_goals simp [reply, fail] at h
  | closeBatch id ids =>
    simp only [step] at h
    split at h <;> try split at h
    all_goals simp [reply, fail] at h
  | iterNext id shown =>
    have hfinish : ∀ w result log, (iterNext.finish shown w result log).1.result ≠ .error (.opening e) := by
      intro w result log
      unfold iterNext.finish
      cases shown with
      | none => simp [reply]
      | some other =>
        dsimp only
        split <;> simp [reply, fail]
    simp only [step, iterNext] at h
    split at h
    · exact absurd h (hfinish _ _ _)
    · split at h
      · exact absurd h (hfinish _ _ _)
      · simp [fail] at h
    · simp [fail] at h

/-- The first path of a batch that does not open decides what happens: what was opened before it is closed
again, the last one first, and what comes after it is not looked at. -/
theorem step_openBatch_of_error {e : OpenError} {before : List String}
    (hconfig : w.config settings = .ok config)
    (hbefore : List.Forall₂ (Session.Opens fs config) before sessions)
    (herror : Session.openFile fs config path = (.error e, [])) (fs' : FileSystem)
    (hfs : ∀ p ∈ before ++ [path], fs' p = fs p) (id : String) (after ids : List String) :
    w.step fs' (.openBatch id (before ++ path :: after) ids settings) =
      (⟨.error (.opening e), none,
        before.map .opened ++ before.reverse.map fun p => .closed (some p)⟩, w) := by
  have hopens : List.Forall₂ (Session.Opens fs' config) before sessions :=
    Session.forall₂_opens_congr hbefore fun p hp => hfs p (List.mem_append_left _ hp)
  have hfails : Session.openFile fs' config path = (.error e, []) := by
    rw [Session.openFile_congr (hfs path (by simp)), herror]
  simp only [step, withConfig, hconfig, Session.openFiles_of_error hopens hfails,
    Session.flatMap_close hopens]
  rfl

section Blocks

variable {w' : Workspace} {body : Program} {k : Nat}

/-- The sessions of a batch are still its members when the body of its block ends. -/
lemma HandsOver.batch_eq_of_body (h : HandsOver fs config id paths ids sessions w w')
    (hbody : id ∉ body.gives) :
    (w'.run fs (body.course fs w').steps).2.object? id =
      some (.batch (numbered w.sources.length paths.length)) := by
  rw [Program.object?_course hbody, h.batch_eq]

/-- Closing a batch records those of its sessions that are open then. -/
lemma HandsOver.log_closeSessions (h : HandsOver fs config id paths ids sessions w w') (steps : List Step) :
    ((w'.run fs steps).2.closeSessions (numbered w.sources.length paths.length)).2 =
      ((paths.zipIdx w.sources.length).reverse.filter ((w'.run fs steps).2.isOpen ·.2)).map
        fun p => .closed (some p.1) := by
  apply Workspace.log_closeSessions
  intro p hp
  rw [List.mem_zipIdx_iff_le_and_getElem?_sub] at hp
  obtain ⟨k, hk⟩ := Nat.exists_eq_add_of_le hp.1
  rw [hk, Nat.add_sub_cancel_left] at hp
  obtain ⟨text, hsource⟩ := h.source_eq hp.2
  refine ⟨_, hk ▸ sources_run hsource fs steps, ?_⟩
  rw [Source.source_run]
  rfl

/-- Every session of a batch that is left ends closed and exhausted, and has told of its opening and of its
closing. -/
lemma HandsOver.member_told (h : HandsOver fs config id paths ids sessions w w')
    (hpath : paths[k]? = some path) (hsealed : w'.Sealed (w.sources.length + k)) {steps : List Step}
    (hbatch : (w'.run fs steps).2.object? id = some (.batch (numbered w.sources.length paths.length)))
    (later : List Step) :
    (∃ s, (w'.run fs (steps ++ .closeBatch id [] :: later)).2.sources[w.sources.length + k]? = some s ∧
      s.cursor.closed = true ∧ s.cursor.exhausted = true) ∧
    Source.openings (told (w.sources.length + k) (w'.writtenAll fs (steps ++ .closeBatch id [] :: later))) =
      [.closed (some path)] := by
  obtain ⟨text, hsource⟩ := h.source_eq hpath
  obtain ⟨hk, -⟩ := List.getElem?_eq_some_iff.mp hpath
  have hmember : w.sources.length + k ∈ (numbered w.sources.length paths.length).map Prod.fst := by
    rw [map_fst_numbered, List.mem_range'_1]
    omega
  have hlast := sources_run hsource fs (steps ++ .closeBatch id [] :: later)
  obtain ⟨s, hs, hclosed⟩ := closed_of_closeBatch (sources_run hsource fs steps) hbatch hmember fs later
  rw [workspace_run_append] at hlast
  obtain rfl := Option.some.inj (hs.symm.trans hlast)
  constructor
  · rw [workspace_run_append]
    exact ⟨_, hs, hclosed, exhausted_of_closed rfl hclosed⟩
  · rw [hsealed.openings_told hsource rfl hclosed]
    rfl

end Blocks

end Workspace

end Munch
