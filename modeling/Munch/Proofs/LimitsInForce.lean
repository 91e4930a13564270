import Munch.Proofs.CommandLineOutput
import Munch.Proofs.ReadableValues
import Munch.Proofs.ReaderConfigs
import Munch.Proofs.SharedRuns

/-!
# Limits that are in force

A dictionary with a limit that is no positive integer is refused, and what is refused changes nothing. So
in a run every configuration that is active, waits to be restored or belongs to a reader is the default one
or was accepted from some step (`Workspace.inForce_run`), and no reader gives a token beyond its limit.
-/

namespace Munch

namespace InvalidLimit

variable {v v' : Value}

lemma notPositive_eq_ofValue_iff : notPositive v = ofValue v' ↔ v = v' ∧ v.Readable := by
  rw [ofValue, Value.readable_iff_writable]
  split
  next h =>
    rw [notPositive.injEq]
    exact ⟨fun he => ⟨he, he ▸ h⟩, And.left⟩
  next h => exact ⟨fun he => (nomatch he), fun ⟨he, hv⟩ => absurd (he ▸ hv) h⟩

lemma unwritable_eq_ofValue_iff : unwritable = ofValue v ↔ ¬ v.Readable := by
  rw [ofValue, Value.readable_iff_writable]
  split <;> simp_all

end InvalidLimit

namespace Config

variable {entries entries' : List (String × Value)} {limit separators encoding : Value} {config : Config}

def keys : List String := ["max_lexeme_length", "separators_enabled", "encoding"]

/-- The entries with keys that a configuration knows. -/
def known (entries : List (String × Value)) : List (String × Value) :=
  entries.filter fun p => keys.contains p.1

/-- The configuration has what the dictionary gives, and the defaults for what it does not give. -/
structure Describes (entries : List (String × Value)) (config : Config) : Prop where
  limit_eq : .int config.limit = (entries.lookup "max_lexeme_length").getD (.int 256)
  separators_eq : config.separators = (entries.lookup "separators_enabled").getD (.bool false)
  encoding_eq : config.encoding = (entries.lookup "encoding").getD (.text "utf-8")

/-- Not an integer, or one below 1. A truth value is not an integer. -/
def Improper (limit : Value) : Prop := ¬ ∃ n : Int, 1 ≤ n ∧ limit = .int n

lemma make_of_improper (h : Improper limit) (separators encoding : Value) :
    make limit separators encoding = .error (.ofValue limit) := by
  rw [make_eq_error_iff]
  refine ⟨rfl, fun n hn => ?_⟩
  by_contra hpos
  exact h ⟨n, by omega, hn⟩

lemma improper_of_make {e : InvalidLimit} (h : make limit separators encoding = .error e) :
    e = .ofValue limit ∧ Improper limit := by
  obtain ⟨he, hlimit⟩ := make_eq_error_iff.mp h
  refine ⟨he, ?_⟩
  rintro ⟨n, hpos, hn⟩
  have := hlimit n hn
  omega

lemma eq_int_of_limit? {n : { n : Nat // 0 < n }} (h : limit? limit = some n) : limit = .int n.1 := by
  cases limit with
  | int k =>
    by_cases hpos : 0 < k.toNat
    · rw [limit?, dif_pos hpos, Option.some_inj] at h
      rw [← h, Int.toNat_of_nonneg (by omega)]
    · rw [limit?, dif_neg hpos] at h
      simp at h
  | _ => simp [limit?] at h

lemma eq_of_make (h : make limit separators encoding = .ok config) :
    limit = .int config.limit ∧ config.separators = separators ∧ config.encoding = encoding := by
  unfold make at h
  split at h
  next n hpos hlimit =>
    obtain rfl := Except.ok.inj h
    exact ⟨eq_int_of_limit? hlimit, rfl, rfl⟩
  next => simp at h

lemma lookup_known {key : String} (hkey : key ∈ keys) (entries : List (String × Value)) :
    (known entries).lookup key = entries.lookup key := by
  induction entries with
  | nil => rfl
  | cons p entries ih =>
    obtain ⟨key', v⟩ := p
    by_cases hsame : key = key'
    · subst hsame
      have hkeep : keys.contains key = true := List.contains_iff_mem.mpr hkey
      rw [known, List.filter_cons, if_pos hkeep, List.lookup_cons_self, List.lookup_cons_self]
    · have hskip : ∀ rest : List (String × Value), ((key', v) :: rest).lookup key = rest.lookup key := by
        intro rest
        rw [List.lookup_cons, beq_false_of_ne hsame]
      rw [hskip, ← ih, known, List.filter_cons]
      split
      · exact hskip _
      · rfl

/-- Entries with other keys make no difference, wherever they stand. -/
theorem ofEntries_congr (h : known entries' = known entries) : ofEntries entries' = ofEntries entries := by
  have hlookup : ∀ key ∈ keys, entries'.lookup key = entries.lookup key := by
    intro key hkey
    rw [← lookup_known hkey, h, lookup_known hkey]
  rw [keys, List.forall_mem_cons, List.forall_mem_cons, List.forall_mem_singleton] at hlookup
  obtain ⟨hlimit, hseparators, hencoding⟩ := hlookup
  simp only [ofEntries, entry, hlimit, hseparators, hencoding]

lemma describes_of_ofEntries (h : ofEntries entries = .ok config) : Describes entries config := by
  obtain ⟨hlimit, hseparators, hencoding⟩ := eq_of_make h
  exact ⟨hlimit.symm, hseparators, hencoding⟩

/-- A dictionary is refused exactly for an improper limit that it gives. -/
theorem ofEntries_error_iff {e : InvalidLimit} :
    ofEntries entries = .error e ↔
      ∃ v, entries.lookup "max_lexeme_length" = some v ∧ Improper v ∧ e = .ofValue v := by
  constructor
  · intro h
    obtain ⟨he, himproper⟩ := improper_of_make h
    cases hlookup : entries.lookup "max_lexeme_length" with
    | none =>
      -- the default is proper
      rw [entry, hlookup] at himproper
      exact absurd ⟨256, by decide, rfl⟩ himproper
    | some v =>
      rw [entry, hlookup] at he himproper
      exact ⟨v, rfl, himproper, he⟩
  · rintro ⟨v, hlookup, himproper, rfl⟩
    rw [ofEntries, entry, hlookup]
    exact make_of_improper himproper _ _

lemma exists_describes (entries : List (String × Value))
    (h : ∀ v, entries.lookup "max_lexeme_length" = some v → ¬ Improper v) :
    ∃ config, ofEntries entries = .ok config ∧ Describes entries config := by
  cases hmade : ofEntries entries with
  | ok config => exact ⟨config, rfl, describes_of_ofEntries hmade⟩
  | error e =>
    obtain ⟨v, hlookup, himproper, -⟩ := ofEntries_error_iff.mp hmade
    exact absurd himproper (h v hlookup)

/-- The error names the value that was given, if that can be written. -/
lemma ofEntries_eq_notPositive_iff {v : Value} :
    ofEntries entries = .error (.notPositive v) ↔
      entries.lookup "max_lexeme_length" = some v ∧ Improper v ∧ v.Readable := by
  rw [ofEntries_error_iff]
  constructor
  · rintro ⟨v', hlookup, himproper, he⟩
    obtain ⟨rfl, hreadable⟩ := InvalidLimit.notPositive_eq_ofValue_iff.mp he
    exact ⟨hlookup, himproper, hreadable⟩
  · rintro ⟨hlookup, himproper, hreadable⟩
    exact ⟨v, hlookup, himproper, InvalidLimit.notPositive_eq_ofValue_iff.mpr ⟨rfl, hreadable⟩⟩

lemma ofEntries_eq_unwritable_iff :
    ofEntries entries = .error .unwritable ↔
      ∃ v, entries.lookup "max_lexeme_length" = some v ∧ Improper v ∧ ¬ v.Readable := by
  simp only [ofEntries_error_iff, InvalidLimit.unwritable_eq_ofValue_iff]

lemma readable_of_lookup {key : String} {v : Value} (h : ∀ p ∈ entries, p.2.Readable)
    (hlookup : entries.lookup key = some v) : v.Readable := by
  obtain ⟨before, after, rfl, -⟩ := List.lookup_eq_some_iff.mp hlookup
  exact h (key, v) (List.mem_append_right before List.mem_cons_self)

end Config

/-- A token keeps some text, but no more than the limit, unless it is the end of input. -/
structure Token.Within (limit : Nat) (t : Token) : Prop where
  bounds : t.kind ≠ .eof → 1 ≤ t.text.length ∧ t.text.length ≤ limit
  empty_iff : t.text = "" ↔ t.kind = .eof

lemma Lexeme.within_token {l : Lexeme} (h : l.chars ≠ []) (config : Config) (location : Location) :
    (l.token config location).Within config.limit := by
  have hlength : (l.token config location).text.length = min config.limit l.chars.length :=
    l.length_kept config
  have hpos := config.limit_pos
  have hchars := List.length_pos_iff.mpr h
  constructor
  · intro _
    omega
  · refine iff_of_false ?_ (l.kind_ne_eof config)
    intro hempty
    rw [hempty, String.length_empty] at hlength
    omega

namespace Scanner

lemma within_scan (s : Scanner) (c : Cursor) : (s.scan c).token.Within s.config.limit := by
  cases hread : Lexeme.read? (c.skip .whitespace).rest with
  | none =>
    rw [scan_of_none hread]
    exact ⟨fun hkind => absurd rfl hkind, iff_of_true rfl rfl⟩
  | some l =>
    rw [scan_of_some hread]
    exact Lexeme.within_token (Lexeme.chars_ne_nil_of_read? hread) s.config _

theorem within_scans (s : Scanner) (c : Cursor) (n : Nat) :
    ∀ t ∈ (s.scans n c).tokens, t.Within s.config.limit := by
  induction n generalizing s c with
  | zero => exact fun t ht => absurd ht List.not_mem_nil
  | succ n ih =>
    have hrest := ih (s.scan c).scanner (s.scan c).cursor
    rw [config_scan] at hrest
    exact List.forall_mem_cons.mpr ⟨s.within_scan c, hrest⟩

lemma within_drain (s : Scanner) (c : Cursor) : ∀ t ∈ (s.drain c).tokens, t.Within s.config.limit := by
  rw [drain_eq_scans]
  exact s.within_scans c _

end Scanner

/-- A token that was taken is within the limit of the reader that took it. -/
lemma Source.within_of_took {s : Source} {j : Nat} {t : Token} {actions : List Source.Action}
    (h : .took j t ∈ s.events actions) (hplain : ∀ a ∈ actions, a.config? = none) :
    ∃ config, s.configs[j]? = some config ∧ t.Within config.limit := by
  induction actions generalizing s with
  | nil => exact absurd h List.not_mem_nil
  | cons a actions ih =>
    rw [List.forall_mem_cons] at hplain
    rw [events, List.mem_append, Option.mem_toList] at h
    rcases h with hnow | hlater
    · cases a with
      | scan k =>
        cases hreader : s.scanners[k]? with
        | none => simp [event?, act, hreader] at hnow
        | some reader =>
          simp only [event?, act, hreader] at hnow
          obtain ⟨rfl, rfl⟩ := Event.took.inj (Option.some.inj hnow)
          refine ⟨reader.config, ?_, reader.within_scan s.cursor⟩
          rw [configs, List.getElem?_map, hreader, Option.map_some]
      | _ => simp [event?] at hnow
    · obtain ⟨config, hconfig, hwithin⟩ := ih hlater hplain.2
      rw [configs_act_eq, hplain.1, Option.toList_none, List.append_nil] at hconfig
      exact ⟨config, hconfig, hwithin⟩

namespace Workspace

/-- Every configuration that is active, waits to be restored or belongs to a reader. -/
structure InForce (P : Config → Prop) (w : Workspace) : Prop where
  active : P w.active
  restored : ∀ id before left, (id, .scope before left) ∈ w.objects → P before
  readers : ∀ i j reader, w.scanner? i j = some reader → P reader.config

/-- The default configuration, or one that a step gives and that is accepted. -/
def Accepted (steps : List Step) (config : Config) : Prop :=
  config = default ∨ ∃ st ∈ steps, ∃ entries,
    st.settings? = some (some entries) ∧ Config.ofEntries entries = .ok config

lemma Accepted.mono {steps more : List Step} {config : Config} (h : Accepted steps config)
    (hsteps : steps ⊆ more) : Accepted more config := by
  rcases h with rfl | ⟨st, hst, hgiven⟩
  · exact Or.inl rfl
  · exact Or.inr ⟨st, hsteps hst, hgiven⟩

variable {P Q : Config → Prop} {fs : FileSystem} {w : Workspace} {st : Step}

lemma accepted_of_config {steps : List Step} {settings : Settings} {config : Config}
    (hactive : Accepted steps w.active) (hst : st ∈ steps) (hsettings : st.settings? = some settings)
    (hconfig : w.config settings = .ok config) : Accepted steps config := by
  cases settings with
  | none =>
    obtain rfl := Except.ok.inj hconfig
    exact hactive
  | some entries => exact Or.inr ⟨st, hst, entries, hsettings, hconfig⟩

lemma InForce.imp (h : w.InForce P) (hPQ : ∀ config, P config → Q config) : w.InForce Q :=
  ⟨hPQ _ h.active, fun id before left hmem => hPQ _ (h.restored id before left hmem),
    fun i j reader hreader => hPQ _ (h.readers i j reader hreader)⟩

lemma inForce_start (steps : List Step) : ({} : Workspace).InForce (Accepted steps) :=
  ⟨Or.inl rfl, fun _ _ _ hmem => absurd hmem List.not_mem_nil, fun _ _ _ h => absurd h (by simp [scanner?])⟩

theorem InForce.step (h : w.InForce P) (hdefault : P default)
    (hmeant : ∀ settings config, st.settings? = some settings → w.config settings = .ok config →
      P config) : (w.step fs st).2.InForce P := by
  have hreaders : ∀ i j reader, (w.step fs st).2.scanner? i j = some reader → P reader.config := by
    intro i j reader hreader
    cases hold : w.scanner? i j with
    | none =>
      obtain ⟨settings, hsettings, hconfig⟩ := config_of_made hold hreader
      exact hmeant settings reader.config hsettings hconfig
    | some old =>
      obtain ⟨later, hlater, hsame⟩ := config_kept hold fs [st]
      obtain rfl : later = reader := Option.some.inj (hlater.symm.trans hreader)
      exact hsame ▸ h.readers i j old hold
  by_cases hst : st.Configures
  · have hconfigured := configured_step fs w hst
    generalize (w.step fs st).2 = w' at hconfigured hreaders ⊢
    cases hconfigured with
    | kept => exact h
    | set settings config hsettings hconfig =>
      exact ⟨hmeant settings config hsettings hconfig, h.restored, hreaders⟩
    | reset => exact ⟨hdefault, h.restored, hreaders⟩
    | entered id settings config hid hsettings hconfig =>
      refine ⟨hmeant settings config hsettings hconfig, ?_, hreaders⟩
      intro id' before left hmem
      rcases List.mem_cons.mp hmem with heq | hmem
      · obtain ⟨-, rfl, -⟩ : _ ∧ before = w.active ∧ _ := by simpa using heq
        exact h.active
      · exact h.restored id' before left hmem
    | left id before hid hscope =>
      obtain ⟨l₁, l₂, hobjects, -⟩ := List.lookup_eq_some_iff.mp hscope
      have hbefore : P before := h.restored id before false (by simp [hobjects])
      refine ⟨hbefore, ?_, hreaders⟩
      intro id' before' left hmem
      rcases List.mem_cons.mp hmem with heq | hmem
      · obtain ⟨-, rfl, -⟩ : _ ∧ before' = before ∧ _ := by simpa using heq
        exact hbefore
      · exact h.restored id' before' left hmem
  · have hgains := gains_step fs w hst
    obtain ⟨new, hobjects, hnew⟩ := hgains.objects_eq
    refine ⟨hgains.active_eq ▸ h.active, ?_, hreaders⟩
    intro id before left hmem
    rw [hobjects, List.mem_append] at hmem
    rcases hmem with hmem | hmem
    · exact absurd rfl ((hnew _ hmem).2.1 before left)
    · exact h.restored id before left hmem

theorem inForce_run (fs : FileSystem) {all : List Step} (h : w.InForce (Accepted all)) {steps : List Step}
    (hsteps : ∀ st ∈ steps, st ∈ all) : (w.run fs steps).2.InForce (Accepted all) := by
  induction steps generalizing w with
  | nil => exact h
  | cons st steps ih =>
    rw [List.forall_mem_cons] at hsteps
    refine ih (h.step (Or.inl rfl) ?_) hsteps.2
    intro settings config hsettings hconfig
    exact accepted_of_config h.active hsteps.1 hsettings hconfig

lemma tokens_withConfig {settings : Settings} {k : Config → Reply × Workspace}
    (hk : ∀ config, (k config).1.tokens = []) : (w.withConfig settings k).1.tokens = [] := by
  unfold withConfig
  cases w.config settings with
  | ok config => exact hk config
  | error e => rfl

lemma tokens_attach (w : Workspace) (id cursor : String) (config : Config)
    (object : Nat → Nat → Object) : (w.attach id cursor config object).1.tokens = [] := by
  unfold attach
  cases w.cursor? cursor with
  | none => rfl
  | some k =>
    simp only [bind, Option.bind]
    cases w.sources[k]? with
    | none => rfl
    | some s =>
      dsimp only
      cases w.onSource k fun s => ((), (s.act (.attach config)).source, []) <;> rfl

lemma tokens_closeWith (w : Workspace) (k : Nat) (how : Source.Action) (id : String) :
    (step.closeWith w k how id).1.tokens = [] := by
  unfold step.closeWith
  cases w.onSource k fun s => ((), (s.act how).source, (s.act how).log) <;> rfl

lemma tokens_onReader_of_none {id : String} (h : ∀ i j, w.reader? id = some (i, j) → w.sources[i]? = none)
    (f : Nat → Source → List Token × Source × List Record) :
    (w.onReader id f .tokens).1.tokens = [] := by
  unfold onReader
  cases hreader : w.reader? id with
  | none => rfl
  | some reader =>
    obtain ⟨i, j⟩ := reader
    simp only [bind, Option.bind, onSource, h i j hreader, Option.map_none]
    rfl

/-- Only scans, drains and iterators give tokens, and only of sources that there are. -/
lemma given_eq_nil (h : ∀ i j, w.asked? st = some (i, j) → w.sources[i]? = none) :
    w.given fs st = [] := by
  cases st with
  | openCursor id path encoding =>
    simp only [given, step]
    cases Cursor.openFile fs path encoding <;> rfl
  | newScanner id cursor settings => exact tokens_withConfig fun config => tokens_attach w id cursor config _
  | newSession id text source settings => exact tokens_withConfig fun config => rfl
  | sessionOver id cursor settings => exact tokens_withConfig fun config => tokens_attach w id cursor config _
  | openSession id path settings =>
    apply tokens_withConfig
    intro config
    rcases Session.openFile fs config path with ⟨e | s, log⟩ <;> rfl
  | advance id times =>
    simp only [given, step]
    cases w.cursor? id with
    | none => rfl
    | some k =>
      simp only [bind, Option.bind]
      cases w.onSource k fun s =>
          (Source.reads (s.run (List.replicate times .advance)).1,
            (s.run (List.replicate times .advance)).2.1,
            (s.run (List.replicate times .advance)).2.2) <;> rfl
  | scan id times => exact tokens_onReader_of_none h _
  | drain id => exact tokens_onReader_of_none h _
  | close id =>
    simp only [given, step]
    cases w.object? id with
    | none => rfl
    | some object =>
      cases object with
      | cursor k => exact tokens_closeWith w k _ id
      | session k j => exact tokens_closeWith w k _ id
      | _ => rfl
  | inspect id =>
    simp only [given, step]
    cases w.view? id <;> rfl
  | iterate id reader =>
    simp only [given, step]
    cases w.reader? reader <;> rfl
  | iterNext id shown =>
    simp only [asked?] at h
    simp only [given, step, iterNext]
    cases hobject : w.object? id with
    | none => rfl
    | some object =>
      rw [hobject] at h
      cases object with
      | iterator k j finished =>
        cases finished with
        | true => rfl
        | false =>
          simp only [onSource, h k j rfl, Option.map_none]
          rfl
      | _ => rfl
  | openBatch id paths ids settings =>
    apply tokens_withConfig
    intro config
    rcases Session.openFiles fs config paths with ⟨e | sessions, log⟩ <;> rfl
  | closeBatch id ids =>
    simp only [given, step]
    cases w.object? id with
    | none => rfl
    | some object =>
      cases object with
      | batch members =>
        dsimp only
        cases (w.closeSessions members).1.renderSessions ids <;> rfl
      | _ => rfl
  | tokenize text source settings => exact tokens_withConfig fun config => rfl
  | tokenizeFile path settings =>
    apply tokens_withConfig
    intro config
    rcases Munch.tokenizeFile fs config path with ⟨e | tokens, log⟩ <;> rfl
  | setConfig settings => exact tokens_withConfig fun config => rfl
  | enterScope id settings => exact tokens_withConfig fun config => rfl
  | leaveScope id =>
    simp only [given, step]
    cases w.object? id with
    | none => rfl
    | some object =>
      cases object with
      | scope before left => cases left <;> rfl
      | _ => rfl
  | _ => rfl

theorem given_within {t : Token} (h : t ∈ w.given fs st) :
    ∃ i j reader, w.asked? st = some (i, j) ∧ w.scanner? i j = some reader ∧
      t.Within reader.config.limit := by
  by_cases hread : ∀ i j, w.asked? st = some (i, j) → w.sources[i]? = none
  · rw [given_eq_nil hread] at h
    exact absurd h List.not_mem_nil
  push Not at hread
  obtain ⟨i, j, hasked, hsource⟩ := hread
  obtain ⟨s, hs⟩ := Option.ne_none_iff_exists'.mp hsource
  have hkind : st.Pulls ∧ st.settings? = none ∧ w.events fs i st = (w.given fs st).map (.took j) := by
    cases st with
    | scan id times => simp [Step.Pulls, Step.settings?, events, hasked]
    | drain id => simp [Step.Pulls, Step.settings?, events, hasked]
    | iterNext id shown => simp [Step.Pulls, Step.settings?, events, hasked]
    | _ => simp [asked?] at hasked
  obtain ⟨hpulls, hsettings, hevents⟩ := hkind
  -- no reader is made by the step, so the one that is asked has its configuration from before
  have htook : .took j t ∈ s.events (w.actions i st) := by
    rw [← events_eq hs fs hpulls, hevents]
    exact List.mem_map_of_mem h
  have hplain : ∀ a ∈ w.actions i st, a.config? = none := by
    intro a ha
    cases a with
    | attach config =>
      obtain ⟨settings, hgiven, -⟩ := settings_of_attach ha
      rw [hsettings] at hgiven
      exact absurd hgiven (by simp)
    | _ => rfl
  obtain ⟨config, hconfig, hwithin⟩ := Source.within_of_took htook hplain
  rw [Source.configs, List.getElem?_map, Option.map_eq_some_iff] at hconfig
  obtain ⟨reader, hreader, rfl⟩ := hconfig
  exact ⟨i, j, reader, hasked, (scanner?_eq hs j).trans hreader, hwithin⟩

end Workspace

namespace CommandLine

variable {options : Options}

lemma run_of_improper {fs : FileSystem} {args : List String} {source : String}
    (hparse : parse args = .ok (source, options)) (h : Config.Improper options.limit) :
    run fs args = ⟨.ok 2, "", (UsageError.config (.notPositive options.limit)).report⟩ := by
  have hmessage : InvalidLimit.notPositive options.limit = .ofValue options.limit :=
    InvalidLimit.notPositive_eq_ofValue_iff.mpr ⟨rfl, readable_limit_of_parse hparse⟩
  have hconfig : options.config = .error (.ofValue options.limit) := Config.make_of_improper h _ _
  simp only [run, hparse, hconfig, hmessage]

lemma exists_config (h : ¬ Config.Improper options.limit) :
    ∃ config, options.config = .ok config ∧ options.limit = .int config.limit := by
  cases hconfig : options.config with
  | ok config => exact ⟨config, rfl, (Config.eq_of_make hconfig).1⟩
  | error e => exact absurd (Config.improper_of_make hconfig).2 h

end CommandLine

end Munch
