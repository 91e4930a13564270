import Munch.Cursor
import Munch.Encoding.Name
import Munch.FileSystem
import Munch.Text.Given
import Munch.Value

/-!
# Opening a file as a source

A source is read with the codec of the encoding that is asked for. Checks come in a fixed order: the
encoding as a value, the path as a text, the path in the file system, the name of the encoding, the
first read, and last what the codec needs of the bytes. Opening takes the codecs as an argument;
`Codecs.builtIn` are those of the encodings that are defined here.
-/

namespace Munch

inductive Refusal where
  | fault (f : Fault)
  | unknownEncoding (name : String)
  | binaryCodec (name : String)
  deriving DecidableEq, Repr

def Refusal.message : Refusal → String
  | fault f => f.message
  | unknownEncoding name => "unknown encoding: " ++ name
  | binaryCodec name =>
    "'" ++ name ++ "' is not a text encoding; use codecs.open() to handle arbitrary codecs"

/-- UTF-16 without a given order finds no mark to tell the order from. -/
structure MissingMark where
  deriving DecidableEq, Repr

/-- Why a source could not be opened, where a codec may fail for a reason `ε` of its own. -/
inductive OpenError (ε : Type := MissingMark) where
  | encodingType (v : Value)
  | nulInEncoding
  | nulInPath
  | refused (path : String) (reason : Refusal)
  | undecodable (why : ε)

@[match_pattern] abbrev OpenError.missingMark : OpenError := .undecodable {}

/-- That a source was refused, with the reason if one is given. The path stands as it is. -/
def refusalText (path : String) (reason : Option String) : String :=
  "cannot open source '" ++ path ++ "'" ++
    match Text.given? reason with
    | some text => ": " ++ text
    | none => ""

def OpenError.message : OpenError → String
  | encodingType v => "open() argument 'encoding' must be str or None, not " ++ v.typeName
  | nulInEncoding => "embedded null character"
  | nulInPath => "embedded null byte"
  | refused path reason => refusalText path reason.message
  | missingMark => "UTF-16 stream does not start with BOM"

/-- The text of the bytes of a file, unless the first read fails. -/
abbrev Decoder (ε : Type) := List UInt8 → Except ε (List Char)

def Encoding.decoder (e : Encoding) : Decoder MissingMark := fun bytes =>
  match e.decode? bytes with
  | some text => .ok text
  | none => .error {}

abbrev Codecs (ε : Type) := String → Encoding.Codec (Decoder ε)

namespace Codecs

variable {ε : Type}

def builtIn : Codecs MissingMark := fun name =>
  match Encoding.ofName name with
  | .text e => .text e.decoder
  | .binary => .binary
  | .unknown => .unknown

def find (codecs : Codecs ε) (name : String) : Except Refusal (Decoder ε) :=
  match codecs name with
  | .text decode => .ok decode
  | .binary => .error (.binaryCodec name)
  | .unknown => .error (.unknownEncoding name)

end Codecs

/-- The outcome of opening a source, with what was done to the stream of its file. -/
structure Opening (ε α : Type) where
  result : Except (OpenError ε) α
  stream : List StreamEvent

def Opening.map {ε α β : Type} (f : α → β) (o : Opening ε α) : Opening ε β :=
  { result := o.result.map f, stream := o.stream }

structure Stream (ε : Type) where
  contents : Contents
  decode : Decoder ε

variable {ε : Type}

/-- The name of the encoding that a value asks for. Null asks for that of the environment. -/
def encodingName : Value → Except (OpenError ε) String
  | .text name => if name.toList.contains '\x00' then .error .nulInEncoding else .ok name
  | .null => .ok "locale"
  | v => .error (.encodingType v)

def openStream (codecs : Codecs ε) (fs : FileSystem) (path : String) (encoding : Value) :
    Opening ε (Stream ε) :=
  match encodingName encoding with
  | .error e => ⟨.error e, []⟩
  | .ok name =>
    if path.toList.contains '\x00' then ⟨.error .nulInPath, []⟩
    else
      match fs path with
      | .error fault => ⟨.error (.refused path (.fault fault)), []⟩
      | .ok contents =>
        -- the encoding is looked up only now, with the file open already
        match codecs.find name with
        | .error reason => ⟨.error (.refused path reason), [.opened, .released]⟩
        | .ok decode => ⟨.ok { contents, decode }, [.opened]⟩

section Proper

variable {path name : String}

theorem encodingName_of_not_mem (h : '\x00' ∉ name.toList) :
    (encodingName (.text name) : Except (OpenError ε) String) = .ok name := by
  rw [encodingName, if_neg (by simpa using h)]

theorem openStream_of_proper (hname : '\x00' ∉ name.toList) (hpath : '\x00' ∉ path.toList)
    (codecs : Codecs ε) (fs : FileSystem) :
    openStream codecs fs path (.text name) =
      match fs path with
      | .error fault => ⟨.error (.refused path (.fault fault)), []⟩
      | .ok contents =>
        match codecs.find name with
        | .error reason => ⟨.error (.refused path reason), [.opened, .released]⟩
        | .ok decode => ⟨.ok { contents, decode }, [.opened]⟩ := by
  have hplain : ¬ path.toList.contains '\x00' = true := by simpa using hpath
  rw [openStream, encodingName_of_not_mem hname]
  exact if_neg hplain

end Proper

/-- Reads a stream from its start. One that cannot be read is released. -/
def Stream.read (s : Stream ε) (path : String) : Opening ε (List Char) :=
  match s.contents with
  | .error fault => ⟨.error (.refused path (.fault fault)), [.released]⟩
  | .ok bytes =>
    match s.decode bytes with
    | .ok text => ⟨.ok text, []⟩
    -- the stream is left as it is, with nobody to release it later
    | .error why => ⟨.error (.undecodable why), []⟩

def Codecs.read (codecs : Codecs ε) (fs : FileSystem) (path : String) (encoding : Value) :
    Opening ε (List Char) :=
  match openStream codecs fs path encoding with
  | ⟨.error e, stream⟩ => ⟨.error e, stream⟩
  | ⟨.ok s, stream⟩ => ⟨(s.read path).result, stream ++ (s.read path).stream⟩

def readSource (fs : FileSystem) (path : String) (encoding : Value) :
    Except OpenError (List Char) :=
  (Codecs.builtIn.read fs path encoding).result

namespace Cursor

def attempt (codecs : Codecs ε) (fs : FileSystem) (path : String) (encoding : Value) :
    Opening ε Cursor :=
  (codecs.read fs path encoding).map fun text => { rest := text, source := some path }

def openFile (fs : FileSystem) (path : String) (encoding : Value) : Except OpenError Cursor :=
  (attempt .builtIn fs path encoding).result

theorem openFile_eq (fs : FileSystem) (path : String) (encoding : Value) :
    openFile fs path encoding =
      (readSource fs path encoding).map fun text => { rest := text, source := some path } := rfl

theorem eq_of_openFile {fs : FileSystem} {path : String} {encoding : Value} {c : Cursor}
    (h : openFile fs path encoding = .ok c) :
    ∃ text, readSource fs path encoding = .ok text ∧ c = { rest := text, source := some path } := by
  rw [openFile_eq] at h
  cases read : readSource fs path encoding with
  | error e => simp [read, Except.map] at h
  | ok text =>
    refine ⟨text, rfl, ?_⟩
    simpa [read, Except.map, eq_comm] using h

end Cursor

end Munch
