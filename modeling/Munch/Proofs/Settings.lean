import Munch.Proofs.LimitsInForce
import Munch.Proofs.PlainNumerals

/-!
# Settings survive any spelling

A setting may be spelled in several ways: by letters joined to one argument, by the name of an option or by a
beginning of that name, with a value that may itself look like anything. Each spelling is recognised as what
it is meant for (`readArgs_argument`), so any list of settings is read as what it asks for, where the last
word counts (`settings_read`).
-/

namespace Munch.CommandLine

namespace Opt

/-- The name of an option in its long form. -/
def longName : Opt → String
  | help => "help"
  | quiet => "quiet"
  | limit => "max-lexeme-length"
  | separators => "separators"
  | encoding => "encoding"
  | verbose => "verbose"
  | version => "version"

/-- A long form of an option without its dashes: its name, or some first letters of it that no other name
begins with. -/
structure LongForm (o : Opt) where
  name : List Char
  means : name = o.longName.toList ∨
    name ≠ [] ∧ name <+: o.longName.toList ∧ ∀ other, other ≠ o → ¬ name <+: other.longName.toList

/-- A name with the two dashes in front. -/
def dashed (name : List Char) : List Char := '-' :: '-' :: name

lemma spelling_cases {spelling : String} {o : Opt} (h : (spelling, o) ∈ spellings) :
    spelling.toList = dashed o.longName.toList ∨ ∃ letter, letter ≠ '-' ∧ spelling.toList = ['-', letter] := by
  simp only [spellings, List.mem_cons, Prod.mk.injEq, List.not_mem_nil, or_false] at h
  rcases h with ⟨rfl, rfl⟩ | ⟨rfl, rfl⟩ | ⟨rfl, rfl⟩ | ⟨rfl, rfl⟩ | ⟨rfl, rfl⟩ | ⟨rfl, rfl⟩ | ⟨rfl, rfl⟩ |
    ⟨rfl, rfl⟩ | ⟨rfl, rfl⟩ | ⟨rfl, rfl⟩
  case inl => exact Or.inr ⟨'h', by decide, rfl⟩
  case inr.inr.inl => exact Or.inr ⟨'q', by decide, rfl⟩
  case inr.inr.inr.inr.inr.inr.inr.inl => exact Or.inr ⟨'v', by decide, rfl⟩
  all_goals exact Or.inl rfl

lemma ofSpelling?_longName (o : Opt) : ofSpelling? (dashed o.longName.toList) = some o := by
  cases o <;> decide

/-- A name in full is recognised as the option that has it. -/
lemma eq_longName_of_ofSpelling? {name : List Char} {o : Opt} (h : ofSpelling? (dashed name) = some o) :
    name = o.longName.toList := by
  rw [ofSpelling?, List.lookup_eq_some_iff] at h
  obtain ⟨before, after, hsplit, -⟩ := h
  have hmem : (String.ofList (dashed name), o) ∈ spellings := by
    rw [hsplit]
    exact List.mem_append_right before List.mem_cons_self
  rcases spelling_cases hmem with hlong | ⟨letter, hletter, hshort⟩
  · rw [String.toList_ofList] at hlong
    exact (List.cons.inj (List.cons.inj hlong).2).2
  · rw [String.toList_ofList] at hshort
    exact absurd (List.cons.inj (List.cons.inj hshort).2).1.symm hletter

/-- A beginning that one name alone has leaves that option to choose from. -/
lemma candidates_dashed {name : List Char} {o : Opt} (hname : name <+: o.longName.toList)
    (halone : ∀ other, other ≠ o → ¬ name <+: other.longName.toList) :
    ∃ spelling, candidates (dashed name) = [(spelling, o)] := by
  have hbegins (other : Opt) : name.isPrefixOf other.longName.toList = (other == o) := by
    rw [Bool.eq_iff_iff, List.isPrefixOf_iff_prefix, beq_iff_eq]
    constructor
    · intro h
      by_contra hother
      exact halone other hother h
    · rintro rfl
      exact hname
  have hfilter : candidates (dashed name) =
      spellings.filter fun p => p.1.toList == dashed p.2.longName.toList && p.2 == o := by
    apply List.filter_congr
    rintro ⟨spelling, other⟩ hmem
    rcases spelling_cases hmem with hlong | ⟨letter, hletter, hshort⟩
    · simp [hlong, dashed, hbegins]
    · have hsecond : ('-' == letter) = false := beq_false_of_ne hletter.symm
      have hfirst : (letter == '-') = false := beq_false_of_ne hletter
      simp [hshort, dashed, List.isPrefixOf, hsecond, hfirst]
  rw [hfilter]
  cases o <;> exact ⟨_, rfl⟩

lemma LongForm.equals_not_mem {o : Opt} (s : LongForm o) : '=' ∉ dashed s.name := by
  have hname : s.name <+: o.longName.toList := by
    rcases s.means with h | ⟨-, h, -⟩
    · exact h ▸ List.prefix_refl _
    · exact h
  have hall : '=' ∉ o.longName.toList := by cases o <;> decide
  intro h
  simp only [dashed, List.mem_cons] at h
  rcases h with h | h | h
  · exact absurd h (by decide)
  · exact absurd h (by decide)
  · exact hall (hname.subset h)

end Opt

namespace Arg

open Opt

lemma splitValue_of_not_mem {text : List Char} (h : '=' ∉ text) : splitValue text = (text, none) := by
  have hkeep : text.dropWhile (· != '=') = [] := by
    rw [List.dropWhile_eq_nil_iff]
    rintro x hx
    simpa using ne_of_mem_of_not_mem hx h
  rw [splitValue, hkeep]

lemma splitValue_append {text : List Char} (h : '=' ∉ text) (value : List Char) :
    splitValue (text ++ '=' :: value) = (text, some value) := by
  have hname : ∀ x ∈ text, (x != '=') = true := fun x hx => by simpa using ne_of_mem_of_not_mem hx h
  rw [splitValue, List.dropWhile_append_of_pos hname, List.takeWhile_append_of_pos hname]
  simp

/-- A long form is recognised, with whatever is attached to it. -/
lemma ofLong_longForm {o : Opt} (s : LongForm o) {text : List Char} {value : Option (List Char)}
    (h : splitValue text = (dashed s.name, value)) : ofLong text = .option .long o value := by
  rw [ofLong, h]
  dsimp only
  cases hexact : ofSpelling? (dashed s.name) with
  | some other =>
    have hname := eq_longName_of_ofSpelling? hexact
    change option .long other value = option .long o value
    rcases s.means with hfull | ⟨-, -, halone⟩
    · rw [hfull, ofSpelling?_longName, Option.some_inj] at hexact
      rw [hexact]
    · by_cases hother : other = o
      · rw [hother]
      -- a name in full begins with itself, so no other option has this one
      · exact absurd (hname ▸ List.prefix_refl _) (halone other hother)
  | none =>
    rcases s.means with hfull | ⟨-, hname, halone⟩
    · rw [hfull, ofSpelling?_longName] at hexact
      exact absurd hexact (by simp)
    · obtain ⟨spelling, hcandidates⟩ := candidates_dashed hname halone
      rw [hcandidates]

lemma ofString_longForm {o : Opt} (s : LongForm o) :
    ofString (String.ofList (dashed s.name)) = .option .long o none := by
  rw [← ofLong_longForm s (splitValue_of_not_mem s.equals_not_mem)]
  simp [ofString, dashed]

lemma ofString_longForm_value {o : Opt} (s : LongForm o) (value : List Char) :
    ofString (String.ofList (dashed s.name ++ '=' :: value)) = .option .long o (some value) := by
  rw [← ofLong_longForm s (splitValue_append s.equals_not_mem value)]
  simp [ofString, dashed]

end Arg

/-- A beginning of a name, with a value that looks like an option. -/
example : Arg.ofString "--max=-3" = .option .long .limit (some ['-', '3']) := by decide

/-- What can be turned on. -/
inductive Flag where
  | quiet
  | verbose
  | separators
  deriving DecidableEq

/-- The option that turns a flag on. -/
def Flag.opt : Flag → Opt
  | quiet => .quiet
  | verbose => .verbose
  | separators => .separators

/-- The letters that may be joined behind one dash. -/
inductive Letter where
  | q
  | v

namespace Letter

def char : Letter → Char
  | q => 'q'
  | v => 'v'

def flag : Letter → Flag
  | q => .quiet
  | v => .verbose

end Letter

/-- A setting in one of its spellings. -/
inductive Setting where
  | letters (first : Letter) (others : List Letter)
  | flag (f : Flag) (name : f.opt.LongForm)
  | limit (name : Opt.limit.LongForm) (n : Numeral.Plain)
  | encoding (name : Opt.encoding.LongForm) (value : String) (value_ne : value ≠ "--")

namespace Setting

/-- A setting as it is typed. -/
def argument : Setting → String
  | letters first others => String.ofList ('-' :: first.char :: others.map Letter.char)
  | flag _ name => String.ofList (Opt.dashed name.name)
  | limit name n => String.ofList (Opt.dashed name.name ++ '=' :: n.text)
  | encoding name value _ => String.ofList (Opt.dashed name.name ++ '=' :: value.toList)

/-- The flags that a setting turns on. -/
def flags : Setting → List Flag
  | letters first others => (first :: others).map Letter.flag
  | flag f _ => [f]
  | _ => []

def limit? : Setting → Option Int
  | limit _ n => some n.value
  | _ => none

def encoding? : Setting → Option String
  | encoding _ value _ => some value
  | _ => none

end Setting

namespace Options

def turnOn (options : Options) : Flag → Options
  | .quiet => { options with quiet := true }
  | .verbose => { options with verbose := true }
  | .separators => { options with separators := true }

/-- What a setting changes. -/
def apply (options : Options) (s : Setting) : Options :=
  let options := s.flags.foldl turnOn options
  { options with
    limit := (s.limit?.map Value.int).getD options.limit
    encoding := (s.encoding?.map Value.text).getD options.encoding }

/-- What a list of settings asks for. -/
def asked (settings : List Setting) : Options :=
  { quiet := settings.any (·.flags.contains .quiet)
    verbose := settings.any (·.flags.contains .verbose)
    separators := settings.any (·.flags.contains .separators)
    limit := .int ((settings.filterMap Setting.limit?).getLast?.getD 256)
    encoding := .text ((settings.filterMap Setting.encoding?).getLast?.getD "utf-8") }

lemma set_opt (options : Options) (f : Flag) : options.set f.opt = .ok (options.turnOn f) := by
  cases f <;> rfl

lemma setAll_opts (options : Options) (flags : List Flag) :
    options.setAll (flags.map Flag.opt) = .ok (flags.foldl turnOn options) := by
  induction flags generalizing options with
  | nil => rfl
  | cons f flags ih =>
    rw [List.map_cons, setAll, set_opt]
    exact ih (options.turnOn f)

lemma foldl_turnOn (options : Options) (flags : List Flag) :
    flags.foldl turnOn options =
      { options with
        quiet := options.quiet || flags.contains .quiet
        verbose := options.verbose || flags.contains .verbose
        separators := options.separators || flags.contains .separators } := by
  induction flags generalizing options with
  | nil => simp
  | cons f flags ih =>
    rw [List.foldl_cons, ih]
    cases f <;> simp [turnOn]

/-- The last setting is the one that counts. -/
lemma asked_concat (settings : List Setting) (s : Setting) :
    asked (settings ++ [s]) = (asked settings).apply s := by
  unfold apply
  rw [foldl_turnOn]
  cases s <;> simp [asked, Setting.flags, Setting.limit?, Setting.encoding?]

lemma foldl_apply (settings : List Setting) : settings.foldl apply {} = asked settings := by
  induction settings using List.reverseRecOn with
  | nil => rfl
  | append_singleton settings s ih => rw [List.foldl_concat, ih, asked_concat]

end Options

lemma ofLetter?_char (l : Letter) : Opt.ofLetter? l.char = some l.flag.opt := by
  cases l <;> decide

lemma joined_chars (o : Opt) (letters : List Letter) :
    joined o (letters.map Letter.char) = .ok (o :: letters.map (·.flag.opt)) := by
  induction letters generalizing o with
  | nil => rfl
  | cons l letters ih =>
    simp only [List.map_cons, joined, ofLetter?_char, ih]
    rfl

lemma takesValue_flag (f : Flag) : f.opt.takesValue = false := by cases f <;> rfl

variable {arg : String} {form : Form} {o : Opt} {attached : Option (List Char)} {value : List Char}

/-- What is recognised as an option is not the marker, which begins several of them. -/
lemma ne_marker_of_option (h : Arg.ofString arg = .option form o attached) : arg ≠ "--" := by
  rintro rfl
  have hseveral : Arg.ofString "--" =
      .ambiguous ["--help", "--quiet", "--max-lexeme-length", "--separators", "--encoding", "--verbose",
        "--version"] := by decide
  rw [hseveral] at h
  exact Arg.noConfusion h

lemma readArgs_attached (h : Arg.ofString arg = .option form o (some value)) (options : Options)
    (rest : List String) :
    readArgs options (arg :: rest) = (readAttached options form o value).bind (readArgs · rest) := by
  rw [readArgs.eq_def]
  simp only [if_neg (ne_marker_of_option h), h]

lemma readArgs_alone (h : Arg.ofString arg = .option form o none) (ho : o.takesValue = false)
    (options : Options) (rest : List String) :
    readArgs options (arg :: rest) = (options.set o).bind (readArgs · rest) := by
  rw [readArgs.eq_def]
  simp [ne_marker_of_option h, h, ho]

lemma ambiguity?_option (h : Arg.ofString arg = .option form o attached) (rest : List String) :
    ambiguity? (arg :: rest) = ambiguity? rest := by
  rw [ambiguity?, if_neg (ne_marker_of_option h), h]

/-- Letters that are joined: the first is recognised, and the others are attached to it. -/
lemma ofString_letters (first : Letter) (others : List Letter) :
    Arg.ofString (Setting.letters first others).argument = .option .short first.flag.opt
      (if others = [] then none else some (others.map Letter.char)) := by
  have hshort : Arg.ofString (Setting.letters first others).argument =
      Arg.ofShort first.char (others.map Letter.char) := by
    cases first <;> simp [Setting.argument, Arg.ofString, Letter.char]
  rw [hshort]
  unfold Arg.ofShort
  rw [ofLetter?_char]
  cases others with
  | nil => rfl
  | cons l others => cases l <;> rfl

/-- Every setting is recognised as an option. -/
lemma ofString_argument (s : Setting) :
    ∃ form o attached, Arg.ofString s.argument = .option form o attached := by
  cases s with
  | letters first others => exact ⟨_, _, _, ofString_letters first others⟩
  | flag f name => exact ⟨_, _, _, Arg.ofString_longForm name⟩
  | limit name n => exact ⟨_, _, _, Arg.ofString_longForm_value name n.text⟩
  | encoding name value _ => exact ⟨_, _, _, Arg.ofString_longForm_value name value.toList⟩

/-- A setting is read as what it changes, in whatever spelling and with anything behind it. -/
theorem readArgs_argument (options : Options) (s : Setting) (rest : List String) :
    readArgs options (s.argument :: rest) = readArgs (options.apply s) rest := by
  cases s with
  | letters first others =>
    have hletters := ofString_letters first others
    by_cases hothers : others = []
    · subst hothers
      rw [readArgs_alone hletters (takesValue_flag _), options.set_opt]
      rfl
    -- the other letters are attached to the first and taken for options there
    · rw [if_neg hothers] at hletters
      have hattached : others.map Letter.char ≠ [] := by simpa using hothers
      have hflags : options.setAll (first.flag.opt :: others.map (·.flag.opt)) =
          .ok (options.apply (.letters first others)) := by
        have hopts := options.setAll_opts (Setting.letters first others).flags
        rwa [Setting.flags, List.map_map] at hopts
      have hread : readAttached options .short first.flag.opt (others.map Letter.char) =
          .ok (options.apply (.letters first others)) := by
        rw [readAttached, takesValue_flag, if_neg Bool.false_ne_true, if_pos ⟨rfl, hattached⟩, joined_chars]
        exact hflags
      rw [readArgs_attached hletters, hread]
      rfl
  | flag f name =>
    rw [Setting.argument, readArgs_alone (Arg.ofString_longForm name) (takesValue_flag f), options.set_opt]
    rfl
  | limit name n =>
    have hmarker : String.ofList n.text ≠ "--" := by
      intro h
      have hread := n.int?_text
      have hnone : Numeral.int? "--" = none := by decide
      rw [h, hnone] at hread
      exact absurd hread (by simp)
    have hassigned : readAttached options .long .limit n.text = .ok (options.apply (.limit name n)) := by
      simp only [readAttached, Opt.takesValue, if_true, Options.assignAttached, hmarker, if_false,
        Options.assign, n.int?_text]
      rfl
    rw [Setting.argument, readArgs_attached (Arg.ofString_longForm_value name n.text), hassigned]
    rfl
  | encoding name value value_ne =>
    have hassigned : readAttached options .long .encoding value.toList =
        .ok (options.apply (.encoding name value value_ne)) := by
      simp only [readAttached, Opt.takesValue, if_true, Options.assignAttached, String.ofList_toList,
        value_ne, if_false, Options.assign]
      rfl
    rw [Setting.argument, readArgs_attached (Arg.ofString_longForm_value name value.toList), hassigned]
    rfl

lemma ambiguity?_settings (settings : List Setting) (source : String) :
    ambiguity? (settings.map Setting.argument ++ ["--", source]) = none := by
  induction settings with
  | nil => rfl
  | cons s settings ih =>
    obtain ⟨form, o, attached, hs⟩ := ofString_argument s
    exact (ambiguity?_option hs _).trans ih

lemma readArgs_settings (options : Options) (settings : List Setting) (source : String) :
    readArgs options (settings.map Setting.argument ++ ["--", source]) =
      .ok ((settings.foldl Options.apply options).addRest false [source]) := by
  induction settings generalizing options with
  | nil => rfl
  | cons s settings ih => exact (readArgs_argument options s _).trans (ih (options.apply s))

/-- Settings before a source are read as what they ask for. -/
theorem parse_settings (settings : List Setting) (source : String) :
    parse (settings.map Setting.argument ++ ["--", source]) =
      .ok (source, { Options.asked settings with source := some source }) := by
  have hread := readArgs_settings {} settings source
  rw [Options.foldl_apply] at hread
  rw [parse, ambiguity?_settings, hread]
  rfl

/-- A limit below 1 is reported as it was given. -/
lemma report_limit (n : Int) : (UsageError.config (.notPositive (.int n))).report =
    "usage: minilex [-h] [-q] [--max-lexeme-length N] [--separators]\n" ++
    "               [--encoding ENCODING] [-v] [--version]\n" ++
    "               source\n" ++
    ("minilex: error: max_lexeme_length must be a positive integer, got " ++ toString n ++ "\n") := by
  have husage : usage = "usage: minilex [-h] [-q] [--max-lexeme-length N] [--separators]\n" ++
      "               [--encoding ENCODING] [-v] [--version]\n" ++ "               source\n" := by
    decide +kernel
  have hbegins : program ++ ": error: " ++ "max_lexeme_length must be a positive integer, got " =
      "minilex: error: max_lexeme_length must be a positive integer, got " := by decide
  change usage ++ (program ++ ": error: " ++
    ("max_lexeme_length must be a positive integer, got " ++ (Value.int n).render) ++ "\n") = _
  rw [Value.render, ← hbegins, ← husage]
  simp only [String.append_assoc]

/-- Settings in any number, order and spelling, with a marker and a source behind them, are read without an
error. A flag is on exactly if some setting turns it on, and the last limit and the last encoding count, or
256 and UTF-8 where none is given. If the limit is positive, the source is opened with these settings, and no
other path is looked at: the run shows what a session on it gives, or fails as opening it fails. If the limit
is not positive, that alone is reported, and nothing is opened. -/
theorem settings_read (settings : List Setting) (source : String) :
    let args := settings.map Setting.argument ++ ["--", source]
    let limit := (settings.filterMap Setting.limit?).getLast?.getD 256
    let encoding := (settings.filterMap Setting.encoding?).getLast?.getD "utf-8"
    ∃ options : Options, parse args = .ok (source, options) ∧
      (options.quiet = true ↔ ∃ s ∈ settings, Flag.quiet ∈ s.flags) ∧
      (options.verbose = true ↔ ∃ s ∈ settings, Flag.verbose ∈ s.flags) ∧
      (options.separators = true ↔ ∃ s ∈ settings, Flag.separators ∈ s.flags) ∧
      options.limit = .int limit ∧ options.encoding = .text encoding ∧
      (∀ hlimit : 1 ≤ limit, opened? args = some source ∧ ∀ fs,
        let config : Config := ⟨limit.toNat, .bool options.separators, .text encoding, by omega⟩
        let made := (Session.openFile fs config source).1
        let outcome := run fs args
        (∀ s, made = .ok s →
          outcome.Shows options.quiet options.verbose source s.drain.1 s.drain.2.1.diagnostics) ∧
        (∀ reason, made = .error (.refused source reason) → outcome =
          ⟨.ok 1, "", "minilex: error: cannot open source '" ++ source ++ "': " ++ reason.message ++ "\n"⟩) ∧
        (∀ e, made = .error e → (∀ reason, e ≠ .refused source reason) → outcome = ⟨.error e, "", ""⟩) ∧
        ∀ fs', fs' source = fs source → run fs' args = outcome) ∧
      (limit < 1 → opened? args = none ∧ ∀ fs, run fs args = ⟨.ok 2, "",
        "usage: minilex [-h] [-q] [--max-lexeme-length N] [--separators]\n" ++
        "               [--encoding ENCODING] [-v] [--version]\n" ++
        "               source\n" ++
        ("minilex: error: max_lexeme_length must be a positive integer, got " ++ toString limit ++ "\n")⟩) := by
  intro args limit encoding
  have hparse : parse args = .ok (source, { Options.asked settings with source := some source }) :=
    parse_settings settings source
  refine ⟨_, hparse, by simp [Options.asked], by simp [Options.asked], by simp [Options.asked],
    rfl, rfl, fun hlimit => ?_, fun hlimit => ?_⟩
  · have hmade : Config.limit? (.int limit) = some ⟨limit.toNat, by omega⟩ := dif_pos (by omega)
    have hconfig : Options.config { Options.asked settings with source := some source } =
        .ok ⟨limit.toNat, .bool (Options.asked settings).separators, .text encoding, by omega⟩ := by
      simp only [Options.config, Options.asked, Config.make]
      rw [hmade]
    have hopened : opened? args = some source := by simp only [opened?, hparse, hconfig]
    refine ⟨hopened, fun fs => ?_⟩
    have hrun : run fs args = scanSource fs source _ _ := run_of_parse hparse hconfig
    refine ⟨fun s hs => ?_, fun reason hrefused => ?_, fun e he hother => ?_, fun fs' hfs => ?_⟩
    · rw [hrun]
      exact shows_scanSource hs _
    · rw [hrun]
      exact scanSource_of_refused hrefused _
    · rw [hrun]
      exact scanSource_of_error he hother _
    · apply run_congr
      rintro path hpath
      obtain rfl := Option.some.inj (hopened.symm.trans hpath)
      exact hfs
  · have himproper : Config.Improper (.int limit) := by
      rintro ⟨n, hn, heq⟩
      have := Value.int.inj heq
      omega
    have hconfig : Options.config { Options.asked settings with source := some source } =
        .error (.ofValue (.int limit)) := Config.make_of_improper himproper _ _
    refine ⟨by simp only [opened?, hparse, hconfig], fun fs => ?_⟩
    rw [run_of_improper hparse himproper]
    exact congrArg (Outcome.mk (.ok 2) "") (report_limit limit)

end Munch.CommandLine
