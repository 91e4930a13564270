import Munch.CommandLine.Usage

/-!
# Reading a command line

Arguments are read from left to right, and the first one that ends the program does so. Before that,
all arguments up to the marker `--` are looked at for one that begins several options.
-/

namespace Munch.CommandLine

structure Options where
  source : Option String := none
  quiet : Bool := false
  separators : Bool := false
  verbose : Bool := false
  limit : Value := .int 256
  encoding : Value := .text "utf-8"
  /-- Arguments that have no place. -/
  extras : List String := []

instance : Inhabited Options := ⟨{}⟩

/-- Why reading ends before the last argument, or why its result is no use. -/
inductive Stop where
  | help
  | version
  | error (e : UsageError)

namespace Options

/-- An option without a value acts when it is reached. -/
def set (options : Options) : Opt → Except Stop Options
  | .help => .error .help
  | .version => .error .version
  | .quiet => .ok { options with quiet := true }
  | .separators => .ok { options with separators := true }
  | .verbose => .ok { options with verbose := true }
  | .limit => .ok options
  | .encoding => .ok options

def setAll (options : Options) : List Opt → Except Stop Options
  | [] => .ok options
  | o :: rest => do (← options.set o).setAll rest

def assign (options : Options) (o : Opt) (value : String) : Except Stop Options :=
  match o with
  | .limit =>
    match Numeral.int? value with
    | some n => .ok { options with limit := .int n }
    | none => .error (.error (.invalidInt o value))
  | .encoding => .ok { options with encoding := .text value }
  | _ => .ok options

/-- An option that has a value attached. The marker `--` is taken for no value at all, and the list
of no values stands. -/
def assignAttached (options : Options) (o : Opt) (value : String) : Except Stop Options :=
  if value = "--" then
    match o with
    | .limit => .ok { options with limit := .list [] }
    | .encoding => .ok { options with encoding := .list [] }
    | _ => .ok options
  else options.assign o value

def addPositional (options : Options) (arg : String) : Options :=
  match options.source with
  | none => { options with source := some arg }
  | some _ => { options with extras := options.extras ++ [arg] }

/-- What follows the marker `--` is positional. The marker itself is superfluous after the source,
unless it stands right behind it. -/
def addRest (options : Options) (behindSource : Bool) (rest : List String) : Options :=
  match options.source with
  | none => rest.foldl addPositional options
  | some _ =>
    let rest := if behindSource then rest else "--" :: rest
    { options with extras := options.extras ++ rest }

end Options

/-- The short options that are joined to one: each letter is an option without a value. -/
def joined (o : Opt) : List Char → Except UsageError (List Opt)
  | [] => .ok [o]
  | letter :: rest =>
    match Opt.ofLetter? letter with
    | some next => (joined next rest).map (o :: ·)
    | none => .error (.ignoredValue o (String.ofList (letter :: rest)))

def readAttached (options : Options) (form : Form) (o : Opt) (value : List Char) :
    Except Stop Options :=
  if o.takesValue then options.assignAttached o (String.ofList value)
  else if form = .short ∧ value ≠ [] then
    match joined o value with
    | .ok opts => options.setAll opts
    | .error e => .error (.error e)
  else .error (.error (.ignoredValue o (String.ofList value)))

/-- Reads arguments from left to right. -/
def readArgs (options : Options) : List String → Except Stop Options
  | [] => .ok options
  | arg :: rest =>
    if arg = "--" then .ok (options.addRest false rest)
    else
      match Arg.ofString arg with
      | .positional =>
        match options.source, rest with
        | none, "--" :: more => .ok ((options.addPositional arg).addRest true more)
        | _, _ => readArgs (options.addPositional arg) rest
      | .unknown => readArgs { options with extras := options.extras ++ [arg] } rest
      | .ambiguous spellings => .error (.error (.ambiguous arg spellings))
      | .option form o (some value) =>
        (readAttached options form o value).bind (readArgs · rest)
      | .option _ o none =>
        if o.takesValue then
          -- the value is the next argument, if that is positional
          match rest with
          | value :: more =>
            if value ≠ "--" ∧ Arg.ofString value = .positional then
              (options.assign o value).bind (readArgs · more)
            else .error (.error (.missingValue o))
          | [] => .error (.error (.missingValue o))
        else (options.set o).bind (readArgs · rest)

/-- The first argument before the marker `--` that begins several options. -/
def ambiguity? : List String → Option UsageError
  | [] => none
  | arg :: rest =>
    if arg = "--" then none
    else
      match Arg.ofString arg with
      | .ambiguous spellings => some (.ambiguous arg spellings)
      | _ => ambiguity? rest

def parse (args : List String) : Except Stop (String × Options) :=
  match ambiguity? args with
  | some e => .error (.error e)
  | none => do
    let options ← readArgs {} args
    match options.source, options.extras with
    | none, _ => .error (.error .missingSource)
    | some source, [] => .ok (source, options)
    | some _, extras => .error (.error (.unrecognized extras))

end Munch.CommandLine
