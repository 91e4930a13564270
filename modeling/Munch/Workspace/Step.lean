import Munch.Source

/-!
# Steps of a run

A run works on cursors, scanners, sessions and the active configuration, and gives each thing that
it makes a name. These are the steps of a run and the replies to them.
-/

namespace Munch

/-- The entries of a configuration, or nothing where the active one is meant. -/
abbrev Settings := Option (List (String × Value))

/-- One step of a run. A step that makes something says first what to call it. -/
inductive Step where
  | newCursor (id text : String) (source : Option String)
  | openCursor (id path : String) (encoding : Value)
  | newScanner (id cursor : String) (config : Settings)
  | newSession (id text : String) (source : Option String) (config : Settings)
  | sessionOver (id cursor : String) (config : Settings)
  | openSession (id path : String) (config : Settings)
  | advance (id : String) (times : Nat)
  | scan (id : String) (times : Nat)
  | drain (id : String)
  | close (id : String)
  | inspect (id : String)
  | iterate (id reader : String)
  /-- One step of an iterator, and a look at something else if asked for. -/
  | iterNext (id : String) (shown : Option String)
  /-- Opens a batch of files, all or none. -/
  | openBatch (id : String) (paths ids : List String) (config : Settings)
  | closeBatch (id : String) (ids : List String)
  | tokenize (text : String) (source : Option String) (config : Settings)
  | tokenizeFile (path : String) (config : Settings)
  | activeConfig
  | setConfig (config : Settings)
  | resetConfig
  /-- Makes a configuration active until the scope is left. -/
  | enterScope (id : String) (config : Settings)
  | leaveScope (id : String)
  | threadConfig

inductive Failure where
  /-- No step has made anything of this name that the step could use. -/
  | noObject (id : String)
  | config (e : InvalidLimit)
  | opening (e : OpenError)

def Failure.message : Failure → String
  | noObject id => id
  | config e => e.message
  | opening e => e.message

inductive Result where
  | done
  | chars (cs : List (Option Char))
  | tokens (ts : List Token)
  | token (t : Token)
  | stopped
  | text (s : String)
  | texts (ss : List String)

inductive View where
  | cursor (c : Cursor)
  | scanner (s : Scanner) (c : Cursor)
  | session (s : Session)

/-- The reply to a step. Also a step that fails may have written records. -/
structure Reply where
  result : Except Failure Result
  view : Option View := none
  log : List Record := []

end Munch
