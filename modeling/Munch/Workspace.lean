import Munch.Workspace.Step

/-!
# Runs

A workspace holds the sources of a run, the names given to things and the active configuration.
`step` does one step of a run, `run` many. A configuration is looked at before anything else is
done, and a step that fails to make something leaves an older thing of that name in place.
-/

namespace Munch

/-- What a name stands for. Things are told apart by the numbers of their source and of their
scanner on it. -/
inductive Object where
  | cursor (source : Nat)
  | scanner (source number : Nat)
  | session (source number : Nat)
  | iterator (source number : Nat) (finished : Bool)
  | batch (members : List (Nat × Nat))
  /-- The configuration to go back to when the scope is left. -/
  | scope (before : Config) (left : Bool)

structure Workspace where
  sources : List Source := []
  /-- The latest name first. -/
  objects : List (String × Object) := []
  active : Config := default

namespace Workspace

def object? (w : Workspace) (id : String) : Option Object := w.objects.lookup id

def name (w : Workspace) (id : String) (o : Object) : Workspace :=
  { w with objects := (id, o) :: w.objects }

def cursor? (w : Workspace) (id : String) : Option Nat :=
  match w.object? id with
  | some (.cursor i) => some i
  | _ => none

def reader? (w : Workspace) (id : String) : Option (Nat × Nat) :=
  match w.object? id with
  | some (.scanner i j) => some (i, j)
  | some (.session i j) => some (i, j)
  | _ => none

def view? (w : Workspace) (id : String) : Option View :=
  match w.object? id with
  | some (.cursor i) => w.sources[i]?.map (.cursor ·.cursor)
  | some (.scanner i j) => do
    let session ← (← w.sources[i]?).session? j
    return .scanner session.scanner session.cursor
  | some (.session i j) => do return .session (← (← w.sources[i]?).session? j)
  | _ => none

def config (w : Workspace) : Settings → Except InvalidLimit Config
  | some entries => Config.ofEntries entries
  | none => .ok w.active

def addSource (w : Workspace) (s : Source) : Workspace := { w with sources := w.sources ++ [s] }

def onSource {α : Type} (w : Workspace) (i : Nat) (f : Source → α × Source × List Record) :
    Option (α × Workspace × List Record) :=
  w.sources[i]?.map fun s =>
    let (a, s, log) := f s
    (a, { w with sources := w.sources.set i s }, log)

def reply (w : Workspace) (result : Result) (shown : Option String) (log : List Record := []) :
    Reply × Workspace :=
  (⟨.ok result, shown.bind w.view?, log⟩, w)

def fail (w : Workspace) (e : Failure) (log : List Record := []) : Reply × Workspace :=
  (⟨.error e, none, log⟩, w)

def withConfig (w : Workspace) (settings : Settings) (k : Config → Reply × Workspace) :
    Reply × Workspace :=
  match w.config settings with
  | .ok config => k config
  | .error e => w.fail (.config e)

/-- Attaches a scanner to the cursor of a source and names it. -/
def attach (w : Workspace) (id cursor : String) (config : Config) (object : Nat → Nat → Object) :
    Reply × Workspace :=
  let made := do
    let i ← w.cursor? cursor
    let s ← w.sources[i]?
    let (_, w, _) ← w.onSource i fun s => ((), (s.act (.attach config)).source, [])
    return w.name id (object i s.scanners.length)
  match made with
  | some w => w.reply .done (some id)
  | none => w.fail (.noObject cursor)

def addSession (w : Workspace) (id : String) (s : Session) : Workspace :=
  (w.addSource (.ofSession s)).name id (.session w.sources.length 0)

/-- A scanner or session does something; `id` is the thing to show afterwards. -/
def onReader {α : Type} (w : Workspace) (id : String)
    (f : Nat → Source → α × Source × List Record) (result : α → Result) : Reply × Workspace :=
  let used := do
    let (i, j) ← w.reader? id
    w.onSource i (f j)
  match used with
  | some (a, w, log) => w.reply (result a) (some id) log
  | none => w.fail (.noObject id)

/-- Closes sessions, the last one first. -/
def closeSessions (w : Workspace) : List (Nat × Nat) → Workspace × List Record
  | [] => (w, [])
  | (i, _) :: rest =>
    let (w, log) := w.closeSessions rest
    match w.onSource i (fun s => let r := s.act .closeSession; ((), r.source, r.log)) with
    | some (_, w, closing) => (w, log ++ closing)
    | none => (w, log)

/-- Adds the sessions of a batch, under the names given for them. Sessions without a name belong to
the batch as well. -/
def addBatch (w : Workspace) : List Session → List String → Workspace × List (Nat × Nat)
  | [], _ => (w, [])
  | s :: rest, ids =>
    let member := (w.sources.length, 0)
    let w := match ids with
      | id :: _ => w.addSession id s
      | [] => w.addSource (.ofSession s)
    let (w, members) := w.addBatch rest ids.tail
    (w, member :: members)

/-- The sessions with these names, rendered; or the first name that no session has. -/
def renderSessions (w : Workspace) : List String → Except String (List String)
  | [] => .ok []
  | id :: rest => do
    match w.view? id with
    | some (.session s) => return s.render :: (← w.renderSessions rest)
    | _ => .error id

/-- One step of an iterator. Once it has given the end of input it is finished. -/
def iterNext (w : Workspace) (id : String) (shown : Option String) : Reply × Workspace :=
  match w.object? id with
  | some (.iterator _ _ true) => finish w .stopped []
  | some (.iterator i j false) =>
    match w.onSource i fun s => let r := s.act (.scan j); (r.yield, r.source, r.log) with
    | some (.token t, w, log) => finish (w.name id (.iterator i j t.isEof)) (.token t) log
    | _ => w.fail (.noObject id)
  | _ => w.fail (.noObject id)
where
  finish (w : Workspace) (result : Result) (log : List Record) : Reply × Workspace :=
    match shown with
    | some other =>
      if (w.view? other).isSome then w.reply result shown log else w.fail (.noObject other) log
    | none => w.reply result none log

def setActive (w : Workspace) (config : Config) : Reply × Workspace :=
  { w with active := config }.reply (.text config.render) none

def step (fs : FileSystem) (w : Workspace) : Step → Reply × Workspace
  | .newCursor id text source =>
    ((w.addSource { cursor := .ofText text source }).name id (.cursor w.sources.length)).reply
      .done (some id)
  | .openCursor id path encoding =>
    match Cursor.openFile fs path encoding with
    | .ok c =>
      ((w.addSource { cursor := c }).name id (.cursor w.sources.length)).reply .done (some id)
    | .error e => w.fail (.opening e)
  | .newScanner id cursor settings =>
    w.withConfig settings fun config => w.attach id cursor config .scanner
  | .newSession id text source settings =>
    w.withConfig settings fun config =>
      (w.addSession id (.ofText config text source)).reply .done (some id)
  | .sessionOver id cursor settings =>
    w.withConfig settings fun config => w.attach id cursor config .session
  | .openSession id path settings =>
    w.withConfig settings fun config =>
      match Session.openFile fs config path with
      | (.ok s, log) => (w.addSession id s).reply .done (some id) log
      | (.error e, log) => w.fail (.opening e) log
  | .advance id times =>
    let used := do
      let i ← w.cursor? id
      w.onSource i fun s =>
        let (yields, s, log) := s.run (List.replicate times .advance)
        (Source.reads yields, s, log)
    match used with
    | some (chars, w, log) => w.reply (.chars chars) (some id) log
    | none => w.fail (.noObject id)
  | .scan id times =>
    w.onReader id (fun j s =>
      let (yields, s, log) := s.run (List.replicate times (.scan j))
      (Source.tokens yields, s, log)) .tokens
  | .drain id => w.onReader id (fun j s => s.drain j) .tokens
  | .close id =>
    match w.object? id with
    | some (.cursor i) => closeWith i .closeCursor id
    | some (.session i _) => closeWith i .closeSession id
    | _ => w.fail (.noObject id)
  | .inspect id =>
    match w.view? id with
    | some _ => w.reply .done (some id)
    | none => w.fail (.noObject id)
  | .iterate id reader =>
    match w.reader? reader with
    | some (i, j) => (w.name id (.iterator i j false)).reply .done (some reader)
    | none => w.fail (.noObject reader)
  | .iterNext id shown => w.iterNext id shown
  | .openBatch id paths ids settings =>
    w.withConfig settings fun config =>
      match Session.openFiles fs config paths with
      | (.ok sessions, log) =>
        let (w, members) := w.addBatch sessions ids
        (w.name id (.batch members)).reply (.texts (sessions.map Session.render)) none log
      | (.error e, log) => w.fail (.opening e) log
  | .closeBatch id ids =>
    match w.object? id with
    | some (.batch members) =>
      let (w, log) := w.closeSessions members
      match w.renderSessions ids with
      | .ok texts => w.reply (.texts texts) none log
      | .error other => w.fail (.noObject other) log
    | _ => w.fail (.noObject id)
  | .tokenize text source settings =>
    w.withConfig settings fun config =>
      let (tokens, _, log) := Munch.tokenize config text source
      w.reply (.texts (tokens.map Token.render)) none log
  | .tokenizeFile path settings =>
    w.withConfig settings fun config =>
      match Munch.tokenizeFile fs config path with
      | (.ok tokens, log) => w.reply (.texts (tokens.map Token.render)) none log
      | (.error e, log) => w.fail (.opening e) log
  | .activeConfig => w.reply (.text w.active.render) none
  | .setConfig settings => w.withConfig settings w.setActive
  | .resetConfig => w.setActive default
  | .enterScope id settings =>
    w.withConfig settings fun config => (w.name id (.scope w.active false)).setActive config
  | .leaveScope id =>
    match w.object? id with
    | some (.scope before false) => (w.name id (.scope before true)).setActive before
    | some (.scope _ true) => w.setActive w.active
    | _ => w.fail (.noObject id)
  | .threadConfig => w.reply (.text (default : Config).render) none
where
  closeWith (i : Nat) (how : Source.Action) (id : String) : Reply × Workspace :=
    match w.onSource i fun s => let r := s.act how; ((), r.source, r.log) with
    | some (_, w, log) => w.reply .done (some id) log
    | none => w.fail (.noObject id)

def run (fs : FileSystem) (w : Workspace) : List Step → List Reply × Workspace
  | [] => ([], w)
  | s :: rest =>
    let (reply, w) := w.step fs s
    let (replies, w) := w.run fs rest
    (reply :: replies, w)

end Workspace

end Munch
