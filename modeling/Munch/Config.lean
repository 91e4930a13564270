import Munch.Value

/-!
# Configuration of a scanner

The limit on kept text is positive in every configuration, by its type. `ofEntries` reads a
configuration from the entries of a dictionary: it refuses a limit that is no positive integer
(`make_eq_error_iff`) and nothing else, and looks only at the entries it knows.
-/

namespace Munch

/-- How a scanner keeps and names what it finds, and how a source is decoded. The last two settings
are kept as they were given. -/
structure Config where
  limit : Nat := 256
  /-- Whether separators get a kind of their own, by the truth of the value. -/
  separators : Value := .bool false
  encoding : Value := .text "utf-8"
  limit_pos : 0 < limit := by decide

inductive InvalidLimit where
  | notPositive (value : Value)
  /-- The value cannot be written into the message, and nothing else is reported. -/
  | unwritable

namespace InvalidLimit

def ofValue (v : Value) : InvalidLimit := if v.writable then notPositive v else unwritable

def message : InvalidLimit → String
  | notPositive v => "max_lexeme_length must be a positive integer, got " ++ v.render
  | unwritable =>
    "Exceeds the limit (" ++ toString Numeral.maxDigits ++ " digits) for integer string conversion; " ++
      "use sys.set_int_max_str_digits() to increase the limit"

end InvalidLimit

namespace Config

instance : Inhabited Config := ⟨{}⟩

/-- The limit that a value stands for: a positive integer. A truth value is not one. -/
def limit? : Value → Option { n : Nat // 0 < n }
  | .int n => if h : 0 < n.toNat then some ⟨n.toNat, h⟩ else none
  | _ => none

def make (limit separators encoding : Value) : Except InvalidLimit Config :=
  match limit? limit with
  | some ⟨n, h⟩ => .ok ⟨n, separators, encoding, h⟩
  | none => .error (.ofValue limit)

def entry (entries : List (String × Value)) (key : String) (default : Value) : Value :=
  (entries.lookup key).getD default

/-- The configuration that a dictionary describes. Entries with other keys are passed over. -/
def ofEntries (entries : List (String × Value)) : Except InvalidLimit Config :=
  make (entry entries "max_lexeme_length" (.int 256)) (entry entries "separators_enabled" (.bool false))
    (entry entries "encoding" (.text "utf-8"))

def toEntries (c : Config) : List (String × Value) :=
  [("max_lexeme_length", .int c.limit), ("separators_enabled", c.separators),
    ("encoding", c.encoding)]

def separates (c : Config) : Bool := c.separators.truth

def isDefault (c : Config) : Bool :=
  c.limit == 256 && c.separators.isZero && (match c.encoding with | .text s => s == "utf-8" | _ => false)

def render (c : Config) : String :=
  "LexConfig(max_lexeme_length=" ++ toString c.limit ++ ", separators_enabled=" ++ c.separators.render
    ++ ", encoding=" ++ c.encoding.render ++ ")"

theorem limit?_eq_none_iff {v : Value} : limit? v = none ↔ ∀ n : Int, v = .int n → n ≤ 0 := by
  cases v <;> simp [limit?]

theorem make_eq_error_iff {limit separators encoding : Value} {e : InvalidLimit} :
    make limit separators encoding = .error e ↔
      e = .ofValue limit ∧ ∀ n : Int, limit = .int n → n ≤ 0 := by
  rw [← limit?_eq_none_iff]
  cases h : limit? limit <;> simp [make, h, eq_comm]

theorem ofEntries_toEntries (c : Config) : ofEntries c.toEntries = .ok c := by
  have := c.limit_pos
  simp [ofEntries, toEntries, entry, List.lookup_cons, make, limit?, this]

end Config

end Munch
