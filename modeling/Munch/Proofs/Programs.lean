import Munch.Proofs.Growth

/-!
# Programs

Steps are put together to programs, with blocks that are entered and left. A step that fails raises, and
what is raised ends everything up to the next `attempt`; but a block that was entered is left in any case.
`Program.course` lists the steps that are taken in this way.
-/

namespace Munch

/-- What ends a program early: the failure of a step, or something that the program raises itself. -/
inductive Raised where
  | failure (e : Failure)
  | thrown (what : String)

inductive Program where
  | skip
  | step (st : Step)
  | raise (what : String)
  | seq (p q : Program)
  /-- What the program raises is forgotten. -/
  | attempt (p : Program)
  /-- The body runs with another active configuration. -/
  | scope (id : String) (settings : Settings) (body : Program)
  /-- The body runs with a batch of files open. -/
  | batch (id : String) (paths ids : List String) (settings : Settings) (body : Program)

/-- The steps that were taken, and what was raised in the end. -/
structure Course where
  steps : List Step
  raised : Option Raised := none

/-- A block that cannot be entered has no body. One that was entered is left however its body ends. -/
def Course.block (fs : FileSystem) (w : Workspace) (enter leave : Step) (body : Workspace → Course) :
    Course :=
  match (w.step fs enter).1.result with
  | .error e => ⟨[enter], some (.failure e)⟩
  | .ok _ =>
    let inside := body (w.step fs enter).2
    ⟨enter :: (inside.steps ++ [leave]), inside.raised⟩

/-- A step that enters or leaves a scope. -/
def Step.Scopes : Step → Prop
  | .enterScope _ _ | .leaveScope _ => True
  | _ => False

namespace Program

def course (fs : FileSystem) : Program → Workspace → Course
  | skip, _ => ⟨[], none⟩
  | step st, w =>
    ⟨[st], match (w.step fs st).1.result with
      | .ok _ => none
      | .error e => some (.failure e)⟩
  | raise what, _ => ⟨[], some (.thrown what)⟩
  | seq p q, w =>
    let first := p.course fs w
    match first.raised with
    | some _ => first
    | none =>
      let second := q.course fs (w.run fs first.steps).2
      ⟨first.steps ++ second.steps, second.raised⟩
  | attempt p, w => ⟨(p.course fs w).steps, none⟩
  | scope id settings body, w =>
    .block fs w (.enterScope id settings) (.leaveScope id) (body.course fs)
  | batch id paths ids settings body, w =>
    .block fs w (.openBatch id paths ids settings) (.closeBatch id []) (body.course fs)

/-- The names whose meaning a program may change. -/
def gives : Program → List String
  | skip | raise _ => []
  | step st => st.gives
  | seq p q => p.gives ++ q.gives
  | attempt p => p.gives
  | scope id _ body => id :: body.gives
  | batch id _ ids _ body => id :: ids ++ body.gives

/-- Scopes are entered and left by blocks only, and the body of a block keeps its hands off the name of
the block. -/
def Nested : Program → Prop
  | skip | raise _ => True
  | step st => ¬ st.Scopes
  | seq p q => p.Nested ∧ q.Nested
  | attempt p => p.Nested
  | scope id _ body | batch id _ _ _ body => id ∉ body.gives ∧ body.Nested

end Program

variable {fs : FileSystem} {w : Workspace} {enter leave st : Step} {body : Workspace → Course}

lemma Course.block_of_error {e : Failure} (h : (w.step fs enter).1.result = .error e) :
    block fs w enter leave body = ⟨[enter], some (.failure e)⟩ := by
  rw [block, h]

lemma Course.block_of_ok {r : Result} (h : (w.step fs enter).1.result = .ok r) :
    block fs w enter leave body =
      ⟨enter :: ((body (w.step fs enter).2).steps ++ [leave]), (body (w.step fs enter).2).raised⟩ := by
  rw [block, h]

lemma Course.mem_block (h : st ∈ (block fs w enter leave body).steps) :
    st = enter ∨ st = leave ∨ st ∈ (body (w.step fs enter).2).steps := by
  cases hresult : (w.step fs enter).1.result with
  | error e =>
    rw [block_of_error hresult] at h
    exact Or.inl (List.mem_singleton.mp h)
  | ok r =>
    rw [block_of_ok hresult, List.mem_cons, List.mem_append, List.mem_singleton] at h
    rcases h with h | h | h
    · exact Or.inl h
    · exact Or.inr (Or.inr h)
    · exact Or.inr (Or.inl h)

namespace Program

variable {p q : Program}

lemma course_seq_of_raised {e : Raised} (h : (p.course fs w).raised = some e) :
    (p.seq q).course fs w = p.course fs w := by
  rw [course, h]

lemma course_seq (h : (p.course fs w).raised = none) :
    (p.seq q).course fs w =
      let second := q.course fs (w.run fs (p.course fs w).steps).2
      ⟨(p.course fs w).steps ++ second.steps, second.raised⟩ := by
  rw [course, h]

/-- A program gives no names but its own. -/
lemma gives_of_mem_course (hst : st ∈ (p.course fs w).steps) : st.gives ⊆ p.gives := by
  induction p generalizing w with
  | skip => exact absurd hst List.not_mem_nil
  | step st' =>
    obtain rfl : st = st' := List.mem_singleton.mp hst
    exact fun _ h => h
  | raise what => exact absurd hst List.not_mem_nil
  | seq p q ihp ihq =>
    cases hraised : (p.course fs w).raised with
    | some e =>
      rw [course_seq_of_raised hraised] at hst
      exact List.Subset.trans (ihp hst) (List.subset_append_left _ _)
    | none =>
      rw [course_seq hraised, List.mem_append] at hst
      rcases hst with hst | hst
      · exact List.Subset.trans (ihp hst) (List.subset_append_left _ _)
      · exact List.Subset.trans (ihq hst) (List.subset_append_right _ _)
  | attempt p ih => exact ih hst
  | scope id settings body ih =>
    rcases Course.mem_block hst with rfl | rfl | hst
    · exact List.cons_subset_cons id (List.nil_subset _)
    · exact List.cons_subset_cons id (List.nil_subset _)
    · exact List.subset_cons_of_subset id (ih hst)
  | batch id paths ids settings body ih =>
    rcases Course.mem_block hst with rfl | rfl | hst
    · exact List.subset_append_left _ _
    · exact List.nil_subset _
    · exact List.Subset.trans (ih hst) (List.subset_append_right _ _)

/-- What a program does not name means the same after it as before. -/
lemma object?_course {id : String} (h : id ∉ p.gives) :
    (w.run fs (p.course fs w).steps).2.object? id = w.object? id :=
  Workspace.object?_run fun _ hst hid => h (gives_of_mem_course hst hid)

end Program

end Munch
