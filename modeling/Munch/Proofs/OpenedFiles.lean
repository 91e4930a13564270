import Mathlib.Data.List.Forall2
import Munch.Session

/-!
# Files that are opened

A session on a file is new and open, and a file that is refused leaves nothing behind. A batch of files
opens them all in order or fails with the first one that is refused; then what was opened is closed again,
the last one first, and what comes after in the list makes no difference (`openFiles_cases`).
-/

namespace Munch

section Refused

variable {ε : Type} {codecs : Codecs ε} {fs : FileSystem} {path path' name : String} {encoding : Value}
  {reason : Refusal}

lemma encodingName_ne_refused : encodingName encoding ≠ .error (.refused path reason : OpenError ε) := by
  intro h
  unfold encodingName at h
  split at h
  · split at h <;> cases h
  · cases h
  · cases h

lemma path_eq_of_openStream (h : (openStream codecs fs path encoding).result = .error (.refused path' reason)) :
    path' = path := by
  unfold openStream at h
  split at h
  next e hname =>
    cases h
    exact absurd hname encodingName_ne_refused
  next name hname =>
    split at h
    · cases h
    · split at h
      · cases h
        rfl
      · split at h <;> cases h
        rfl

lemma path_eq_of_read {s : Stream ε} (h : (s.read path).result = .error (.refused path' reason)) :
    path' = path := by
  unfold Stream.read at h
  split at h
  · cases h
    rfl
  · split at h <;> cases h

/-- A path is refused under its own name. -/
theorem Codecs.path_eq_of_refused
    (h : (codecs.read fs path encoding).result = .error (.refused path' reason)) : path' = path := by
  unfold Codecs.read at h
  split at h
  next e stream hopen =>
    have he : e = .refused path' reason := Except.error.inj h
    exact path_eq_of_openStream (congrArg Opening.result (he ▸ hopen))
  next => exact path_eq_of_read h

end Refused

namespace Session

variable {fs fs' : FileSystem} {config : Config} {path : String} {s : Session} {e : OpenError}

lemma openFile_of_error (h : (openFile fs config path).1 = .error e) :
    openFile fs config path = (.error e, []) := by
  rw [openFile_eq] at h ⊢
  cases hopen : Cursor.openFile fs path config.encoding with
  | error e' =>
    simp only [hopen, Except.error.injEq] at h ⊢
    subst h
    rfl
  | ok c => simp [hopen] at h

lemma path_eq_of_refused {path' : String} {reason : Refusal}
    (h : (openFile fs config path).1 = .error (.refused path' reason)) : path' = path := by
  rw [openFile_eq, Cursor.openFile_eq] at h
  cases hread : readSource fs path config.encoding with
  | error e =>
    rw [hread] at h
    cases h
    exact Codecs.path_eq_of_refused hread
  | ok text =>
    rw [hread] at h
    cases h

/-- A file that does not open is not recorded. -/
lemma log_of_openFile_error {log : List Record} (h : openFile fs config path = (.error e, log)) :
    log = [] := by
  rw [openFile_of_error (congrArg Prod.fst h), Prod.mk.injEq] at h
  exact h.2.symm

/-- What opening a path gives is decided by that path alone. -/
lemma openFile_congr (h : fs' path = fs path) : openFile fs' config path = openFile fs config path := by
  simp only [openFile_eq, Cursor.openFile_eq, readSource, Codecs.read, openStream, h]

/-- The path opens, and this is the session on its file. -/
def Opens (fs : FileSystem) (config : Config) (path : String) (s : Session) : Prop :=
  openFile fs config path = (.ok s, [.opened path])

lemma opens_of_openFile (h : (openFile fs config path).1 = .ok s) : Opens fs config path s := by
  rw [Opens, openFile_eq]
  rw [openFile_eq] at h
  cases hopen : Cursor.openFile fs path config.encoding with
  | error e => simp [hopen] at h
  | ok c =>
    simp only [hopen, Except.ok.injEq] at h ⊢
    rw [h]

lemma Opens.congr (h : Opens fs config path s) (hfs : fs' path = fs path) : Opens fs' config path s :=
  (openFile_congr hfs).trans h

/-- A session on a file is new. The file is decoded with the encoding of the configuration. -/
lemma Opens.eq_start (h : Opens fs config path s) :
    ∃ text, readSource fs path config.encoding = .ok text ∧
      s = start config { rest := text, source := some path } := by
  rw [Opens, openFile_eq] at h
  cases hopen : Cursor.openFile fs path config.encoding with
  | error e => simp [hopen] at h
  | ok c =>
    obtain ⟨text, hread, rfl⟩ := Cursor.eq_of_openFile hopen
    simp only [hopen, Prod.mk.injEq, Except.ok.injEq] at h
    exact ⟨text, hread, h.1.symm⟩

/-- A session that was just opened records that it is closed. -/
lemma Opens.close (h : Opens fs config path s) :
    s.close.2 = [.closed (some path)] ∧ s.close.1.cursor.closed = true ∧
      s.close.1.cursor.exhausted = true := by
  obtain ⟨text, -, rfl⟩ := h.eq_start
  exact ⟨rfl, rfl, rfl⟩

section Batches

variable {paths before after : List String} {sessions : List Session}

lemma forall₂_opens_congr (h : List.Forall₂ (Opens fs config) paths sessions)
    (hfs : ∀ path ∈ paths, fs' path = fs path) : List.Forall₂ (Opens fs' config) paths sessions := by
  have hboth := (List.forall₂_and_left paths sessions).mpr ⟨hfs, h⟩
  exact hboth.imp fun path s hpath => hpath.2.congr hpath.1

theorem openFiles_of_opens (h : List.Forall₂ (Opens fs config) paths sessions) :
    openFiles fs config paths = (.ok sessions, paths.map .opened) := by
  induction h with
  | nil => rfl
  | cons hpath _ ih =>
    rw [openFiles, hpath, ih]
    rfl

/-- The first path that does not open ends a batch. -/
theorem openFiles_of_error (h : List.Forall₂ (Opens fs config) before sessions)
    (herror : openFile fs config path = (.error e, [])) (after : List String) :
    openFiles fs config (before ++ path :: after) =
      (.error e, before.map .opened ++ sessions.reverse.flatMap (·.close.2)) := by
  induction h with
  | nil =>
    rw [List.nil_append, openFiles, herror]
    rfl
  | @cons first s before sessions hfirst _ ih =>
    rw [List.cons_append, openFiles, hfirst, ih]
    simp [List.flatMap_append]

theorem openFiles_cases (fs : FileSystem) (config : Config) (paths : List String) :
    (∃ sessions, List.Forall₂ (Opens fs config) paths sessions) ∨
    ∃ before path after sessions e, paths = before ++ path :: after ∧
      List.Forall₂ (Opens fs config) before sessions ∧
      openFile fs config path = (.error e, []) := by
  induction paths with
  | nil => exact .inl ⟨[], .nil⟩
  | cons first paths ih =>
    rcases hmade : (openFile fs config first).1 with e | s
    · exact .inr ⟨[], first, paths, [], e, rfl, .nil, openFile_of_error hmade⟩
    · have hfirst : Opens fs config first s := opens_of_openFile hmade
      rcases ih with ⟨sessions, hall⟩ | ⟨before, path, after, sessions, e, rfl, hbefore, herror⟩
      · exact .inl ⟨s :: sessions, .cons hfirst hall⟩
      · exact .inr ⟨first :: before, path, after, s :: sessions, e, rfl, .cons hfirst hbefore, herror⟩

lemma opens_of_openFiles {log : List Record} (h : openFiles fs config paths = (.ok sessions, log)) :
    List.Forall₂ (Opens fs config) paths sessions := by
  rcases openFiles_cases fs config paths with
    ⟨opened, hopened⟩ | ⟨before, path, after, opened, e, rfl, hbefore, herror⟩
  · rw [openFiles_of_opens hopened, Prod.mk.injEq, Except.ok.injEq] at h
    exact h.1 ▸ hopened
  · rw [openFiles_of_error hbefore herror] at h
    simp at h

lemma exists_opens_of_mem (h : List.Forall₂ (Opens fs config) paths sessions) (hs : s ∈ sessions) :
    ∃ path, Opens fs config path s := by
  induction h with
  | nil => exact absurd hs List.not_mem_nil
  | cons hpath _ ih =>
    rcases List.mem_cons.mp hs with rfl | hs
    · exact ⟨_, hpath⟩
    · exact ih hs

lemma opens_getElem? (h : List.Forall₂ (Opens fs config) paths sessions) {k : Nat}
    (hpath : paths[k]? = some path) : ∃ s, sessions[k]? = some s ∧ Opens fs config path s := by
  induction h generalizing k with
  | nil => simp at hpath
  | cons hfirst _ ih =>
    cases k with
    | zero =>
      obtain rfl := Option.some.inj hpath
      exact ⟨_, rfl, hfirst⟩
    | succ k => exact ih hpath

lemma flatMap_close (h : List.Forall₂ (Opens fs config) paths sessions) :
    sessions.reverse.flatMap (·.close.2) = paths.reverse.map fun path => .closed (some path) := by
  induction h with
  | nil => rfl
  | cons hpath _ ih => simp [hpath.close.1, ih]

end Batches

end Session

end Munch
