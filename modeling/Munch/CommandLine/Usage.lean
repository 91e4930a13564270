import Munch.CommandLine.Option
import Munch.Config

/-!
# What the command line says about itself

Usage, help and version, and the errors in a command line. Every text here ends with a line feed.
-/

namespace Munch.CommandLine

def program : String := "minilex"

def version : String := "0.1.0"

/-- A text of lines, each with its line feed. -/
def unlines (lines : List String) : String := String.join (lines.map (· ++ "\n"))

def usage : String := unlines
  ["usage: " ++ program ++ " [-h] [-q] [--max-lexeme-length N] [--separators]",
   "               [--encoding ENCODING] [-v] [--version]",
   "               source"]

def help : String := usage ++ unlines
  ["",
   "Scan a source file and print its token stream.",
   "",
   "positional arguments:",
   "  source                Path to the source file",
   "",
   "options:",
   "  -h, --help            show this help message and exit",
   "  -q, --quiet           Drain the token stream without printing tokens",
   "  --max-lexeme-length N",
   "                        Truncate stored lexemes to N characters (default: 256)",
   "  --separators          Emit SEPARATOR tokens for ( ) \x7b \x7d [ ] ; , instead of",
   "                        INVALID",
   "  --encoding ENCODING   Source file encoding (default: utf-8)",
   "  -v, --verbose         Log scanner diagnostics to stderr",
   "  --version             show program's version number and exit"]

inductive UsageError where
  | ambiguous (arg : String) (spellings : List String)
  | ignoredValue (o : Opt) (value : String)
  | missingValue (o : Opt)
  | invalidInt (o : Opt) (value : String)
  | missingSource
  | unrecognized (args : List String)
  | config (e : InvalidLimit)

def UsageError.message : UsageError → String
  | ambiguous arg spellings =>
    "ambiguous option: " ++ arg ++ " could match " ++ ", ".intercalate spellings
  | ignoredValue o value =>
    "argument " ++ o.label ++ ": ignored explicit argument " ++ Text.quote value
  | missingValue o => "argument " ++ o.label ++ ": expected one argument"
  | invalidInt o value => "argument " ++ o.label ++ ": invalid int value: " ++ Text.quote value
  | missingSource => "the following arguments are required: source"
  | unrecognized args => "unrecognized arguments: " ++ " ".intercalate args
  | config e => e.message

def errorLine (message : String) : String := program ++ ": error: " ++ message ++ "\n"

/-- A wrong command line is answered by the usage and the error. -/
def UsageError.report (e : UsageError) : String := usage ++ errorLine e.message

end Munch.CommandLine
