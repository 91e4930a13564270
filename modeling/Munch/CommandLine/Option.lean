import Munch.Numeral

/-!
# Options and how they are recognised

An option is known by its spellings. A long one may be cut short as long as no other option begins
with what is left, and may have a value attached after an equals sign. What looks like an option is
one, unless it is a negative number or holds a space.
-/

namespace Munch.CommandLine

inductive Opt where
  | help
  | quiet
  | limit
  | separators
  | encoding
  | verbose
  | version
  deriving DecidableEq, Repr

namespace Opt

def spellings : List (String × Opt) :=
  [("-h", help), ("--help", help), ("-q", quiet), ("--quiet", quiet),
   ("--max-lexeme-length", limit), ("--separators", separators), ("--encoding", encoding),
   ("-v", verbose), ("--verbose", verbose), ("--version", version)]

def takesValue : Opt → Bool
  | limit => true
  | encoding => true
  | _ => false

def label (o : Opt) : String :=
  "/".intercalate ((spellings.filter (·.2 == o)).map (·.1))

def ofSpelling? (spelling : List Char) : Option Opt := spellings.lookup (String.ofList spelling)

def ofLetter? (letter : Char) : Option Opt := ofSpelling? ['-', letter]

/-- The options that have a spelling with this beginning. -/
def candidates (beginning : List Char) : List (String × Opt) :=
  spellings.filter fun (spelling, _) => beginning.isPrefixOf spelling.toList

end Opt

/-- The two forms of an option: a dash and a letter, or two dashes and a name. -/
inductive Form where
  | short
  | long
  deriving DecidableEq, Repr

inductive Arg where
  | positional
  /-- An option in its short or long form, with what is attached to it. -/
  | option (form : Form) (o : Opt) (attached : Option (List Char))
  | unknown
  | ambiguous (spellings : List String)
  deriving DecidableEq, Repr

namespace Arg

def splitValue (text : List Char) : List Char × Option (List Char) :=
  match text.dropWhile (· != '=') with
  | [] => (text, none)
  | _ :: value => (text.takeWhile (· != '='), some value)

def areDigits (text : List Char) : Bool :=
  !text.isEmpty && text.all fun c => (Numeral.digit? c).isSome

/-- Digits, or digits with a point that has at least one behind it. One line feed may follow. -/
def isUnsigned (text : List Char) : Bool :=
  let text := if text.getLast? == some '\n' then text.dropLast else text
  match text.dropWhile (· != '.') with
  | [] => areDigits text
  | _ :: places =>
    let whole := text.takeWhile (· != '.')
    (whole.isEmpty || areDigits whole) && areDigits places

/-- What is left when no option matches: numbers and what holds a space are not meant as options. -/
def other (text : List Char) : Arg :=
  if isUnsigned (text.drop 1) || text.contains ' ' then positional else unknown

/-- A long option by one spelling or the beginning of it. -/
def ofLong (text : List Char) : Arg :=
  let (name, value) := splitValue text
  match Opt.ofSpelling? name with
  | some o => option .long o value
  | none =>
    match Opt.candidates name with
    | [] => other text
    | [(_, o)] => option .long o value
    | several => ambiguous (several.map (·.1))

/-- A short option. Anything may be attached to its letter, with an equals sign or without one. -/
def ofShort (letter : Char) (tail : List Char) : Arg :=
  match Opt.ofLetter? letter, tail with
  | some o, [] => option .short o none
  | some o, '=' :: value => option .short o (some value)
  | some o, _ => option .short o (some tail)
  | none, _ => other ('-' :: letter :: tail)

def ofString (text : String) : Arg :=
  match text.toList with
  | '-' :: '-' :: rest => ofLong ('-' :: '-' :: rest)
  | '-' :: letter :: tail => ofShort letter tail
  | _ => positional

end Arg

end Munch.CommandLine
