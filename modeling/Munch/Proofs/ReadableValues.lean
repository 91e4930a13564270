import Mathlib.Data.Nat.Digits.Lemmas
import Munch.CommandLine.Parse
import Munch.Proofs.PlainNumerals

/-!
# Values that can be read

An integer is read from a numeral of at most `Numeral.maxDigits` digits, so not every integer can be read
(`Numeral.exists_int?_iff`). Those that can, and the values that are made of them, are the ones that can be
written into a message as well (`Value.readable_iff_writable`). A limit from the command line is one.
-/

namespace Munch

namespace Numeral

lemma digit?_lt {c : Char} {d : Nat} (h : digit? c = some d) : d < 10 := by
  obtain ⟨z, hz, rfl⟩ := Option.map_eq_some_iff.mp h
  have hbound := List.find?_some hz
  simp only [Bool.and_eq_true, decide_eq_true_eq] at hbound
  omega

lemma digits?_lt {text : List Char} {ds : List Nat} (h : digits? text = some ds) : ∀ d ∈ ds, d < 10 := by
  -- a digit and what is read behind it, with or without an underscore between them
  have hcons {c : Char} {rest : List Char} {ds : List Nat}
      (h : (do return (← digit? c) :: (← digits? rest) : Option (List Nat)) = some ds)
      (ih : ∀ ds, digits? rest = some ds → ∀ d ∈ ds, d < 10) : ∀ d ∈ ds, d < 10 := by
    obtain ⟨d, hd, h⟩ := Option.bind_eq_some_iff.mp h
    obtain ⟨others, hothers, h⟩ := Option.bind_eq_some_iff.mp h
    obtain rfl := Option.some.inj h
    exact List.forall_mem_cons.mpr ⟨digit?_lt hd, ih others hothers⟩
  induction text using digits?.induct generalizing ds with
  | case1 => simp [digits?] at h
  | case2 c =>
    obtain ⟨d, hd, rfl⟩ := Option.map_eq_some_iff.mp h
    simpa using digit?_lt hd
  | case3 c rest ih => exact hcons h fun ds hds => ih hds
  | case4 c rest hne hunderscore ih =>
    rw [digits?] at h
    · exact hcons h fun ds hds => ih hds
    · exact hne
    · exact hunderscore

lemma nat?_lt {text : List Char} {n : Nat} (h : nat? text = some n) : n < 10 ^ maxDigits := by
  obtain ⟨ds, hds, h⟩ := Option.bind_eq_some_iff.mp h
  split at h
  next hlength =>
    obtain rfl := Option.some.inj h
    rw [Plain.ofDigits_eq]
    have hlt := Nat.ofDigits_lt_base_pow_length (b := 10) (l := ds.reverse) (by decide)
      fun d hd => digits?_lt hds d (List.mem_reverse.mp hd)
    rw [List.length_reverse] at hlt
    exact hlt.trans_le (Nat.pow_le_pow_right (by decide) hlength)
  next => simp at h

/-- An integer other than zero in its own digits. -/
lemma Plain.exists_value {n : Int} (hn : n ≠ 0) (h : n.natAbs < 10 ^ maxDigits) :
    ∃ p : Plain, p.value = n := by
  let ds := (Nat.digits 10 n.natAbs).reverse
  have hne : ds ≠ [] := by
    simpa [ds, Nat.digits_ne_nil_iff_ne_zero] using hn
  have hlength : ds.length ≤ maxDigits := by
    rw [List.length_reverse]
    exact (Nat.digits_length_le_iff (by decide) n.natAbs).mpr h
  have hvals : (ds.map (Fin.ofNat 10)).map Fin.val = ds := by
    rw [List.map_map]
    refine (List.map_congr_left fun d hd => ?_).trans (List.map_id ds)
    exact Nat.mod_eq_of_lt (Nat.digits_lt_base (by decide) (List.mem_reverse.mp hd))
  let p : Plain := ⟨n < 0, ds.map (Fin.ofNat 10), by simpa using hne, by rwa [List.length_map]⟩
  have hsize : p.size = n.natAbs := by
    rw [size, hvals, List.reverse_reverse, Nat.ofDigits_digits]
  refine ⟨p, ?_⟩
  rw [value, hsize]
  by_cases hsign : n < 0
  · simp only [p, hsign, decide_true, if_true]
    omega
  · simp only [p, hsign, decide_false, Bool.false_eq_true, if_false]
    omega

/-- The integers that have a numeral are those of few enough digits. -/
theorem exists_int?_iff {n : Int} : (∃ text, int? text = some n) ↔ n.natAbs < 10 ^ maxDigits := by
  constructor
  · rintro ⟨text, h⟩
    unfold int? at h
    dsimp only at h
    split at h
    all_goals
      obtain ⟨k, hk, rfl⟩ := Option.map_eq_some_iff.mp h
      simpa using nat?_lt hk
  · intro h
    by_cases hn : n = 0
    · exact ⟨"0", hn ▸ by decide⟩
    · obtain ⟨p, rfl⟩ := Plain.exists_value hn h
      exact ⟨_, p.int?_text⟩

end Numeral

namespace Value

/-- The values that data files give: every integer in one has a numeral that it is read from. -/
inductive Readable : Value → Prop where
  | null : Readable .null
  | bool (b : Bool) : Readable (.bool b)
  | int {n : Int} (numeral : String) (h : Numeral.int? numeral = some n) : Readable (.int n)
  | float (x : Float) : Readable (.float x)
  | text (s : String) : Readable (.text s)
  | list {items : List Value} (h : ∀ v ∈ items, Readable v) : Readable (.list items)
  | dict {entries : List (String × Value)} (h : ∀ p ∈ entries, Readable p.2) : Readable (.dict entries)

lemma writable_int_iff {n : Int} : writable (.int n) = true ↔ n.natAbs < 10 ^ Numeral.maxDigits := by
  rw [writable, decide_eq_true_iff, Nat.length_toDigits_le_iff (by decide) (by decide)]

lemma writableItems_iff {items : List Value} :
    writableItems items = true ↔ ∀ v ∈ items, v.writable = true := by
  induction items with
  | nil => simp [writableItems]
  | cons v items ih => simp [writableItems, ih]

lemma writableEntries_iff {entries : List (String × Value)} :
    writableEntries entries = true ↔ ∀ p ∈ entries, p.2.writable = true := by
  induction entries with
  | nil => simp [writableEntries]
  | cons p entries ih => simp [writableEntries, ih]

lemma Readable.writable {v : Value} (h : v.Readable) : v.writable = true := by
  induction h with
  | int numeral h => exact writable_int_iff.mpr (Numeral.exists_int?_iff.mp ⟨numeral, h⟩)
  | list _ ih =>
    rw [Value.writable]
    exact writableItems_iff.mpr ih
  | dict _ ih =>
    rw [Value.writable]
    exact writableEntries_iff.mpr ih
  | _ => simp only [Value.writable]

lemma readable_of_writable (v : Value) (h : v.writable = true) : v.Readable := by
  -- `v` is kept beside its form, as the recursion into lists and dictionaries is measured by it
  cases heq : v with
  | null => exact .null
  | bool b => exact .bool b
  | int n =>
    rw [heq, writable_int_iff] at h
    obtain ⟨numeral, hn⟩ := Numeral.exists_int?_iff.mpr h
    exact .int numeral hn
  | float x => exact .float x
  | text s => exact .text s
  | list items =>
    rw [heq, writable, writableItems_iff] at h
    exact .list fun member hmember => readable_of_writable member (h member hmember)
  | dict entries =>
    rw [heq, writable, writableEntries_iff] at h
    exact .dict fun p hp => readable_of_writable p.2 (h p hp)
termination_by sizeOf v
decreasing_by
  · have := List.sizeOf_lt_of_mem hmember
    rw [heq, list.sizeOf_spec]
    omega
  · have hentry : sizeOf p.2 < sizeOf p := by
      rw [Prod.mk.sizeOf_spec]
      omega
    have := List.sizeOf_lt_of_mem hp
    rw [heq, dict.sizeOf_spec]
    omega

/-- What can be read can be written, and nothing else can. -/
theorem readable_iff_writable {v : Value} : v.Readable ↔ v.writable = true :=
  ⟨Readable.writable, readable_of_writable v⟩

lemma readable_int_iff {n : Int} : (int n).Readable ↔ n.natAbs < 10 ^ Numeral.maxDigits := by
  rw [readable_iff_writable, writable_int_iff]

end Value

namespace CommandLine

lemma exists_of_bind_eq_ok {ε α β : Type} {x : Except ε α} {f : α → Except ε β} {b : β}
    (h : x.bind f = .ok b) : ∃ a, x = .ok a ∧ f a = .ok b := by
  cases x with
  | error e => cases h
  | ok a => exact ⟨a, rfl, h⟩

variable {options options' : Options} {o : Opt} {value : String}

namespace Options

lemma limit_set (h : options.set o = .ok options') : options'.limit = options.limit := by
  cases o <;> cases h <;> rfl

lemma limit_setAll {opts : List Opt} (h : options.setAll opts = .ok options') :
    options'.limit = options.limit := by
  induction opts generalizing options with
  | nil =>
    cases h
    rfl
  | cons o opts ih =>
    obtain ⟨next, hset, h⟩ := exists_of_bind_eq_ok h
    exact (ih h).trans (limit_set hset)

lemma limit_addPositional (options : Options) (arg : String) :
    (options.addPositional arg).limit = options.limit := by
  unfold addPositional
  split <;> rfl

lemma limit_addRest (options : Options) (behindSource : Bool) (rest : List String) :
    (options.addRest behindSource rest).limit = options.limit := by
  have hfold : (rest.foldl addPositional options).limit = options.limit := by
    induction rest generalizing options with
    | nil => rfl
    | cons arg rest ih => exact (ih (options.addPositional arg)).trans (limit_addPositional options arg)
  unfold addRest
  split
  · exact hfold
  · rfl

/-- A limit that is assigned is read from its value. -/
lemma readable_assign (h : options.assign o value = .ok options') (hlimit : options.limit.Readable) :
    options'.limit.Readable := by
  unfold assign at h
  split at h
  · split at h
    next n hn =>
      cases h
      exact .int value hn
    next => cases h
  · cases h
    exact hlimit
  · cases h
    exact hlimit

lemma readable_assignAttached (h : options.assignAttached o value = .ok options')
    (hlimit : options.limit.Readable) : options'.limit.Readable := by
  unfold assignAttached at h
  split at h
  · split at h
    · cases h
      exact .list fun v hv => absurd hv List.not_mem_nil
    · cases h
      exact hlimit
    · cases h
      exact hlimit
  · exact readable_assign h hlimit

end Options

lemma readable_readAttached {form : Form} {attached : List Char}
    (h : readAttached options form o attached = .ok options') (hlimit : options.limit.Readable) :
    options'.limit.Readable := by
  unfold readAttached at h
  split at h
  · exact Options.readable_assignAttached h hlimit
  · split at h
    · split at h
      · exact Options.limit_setAll h ▸ hlimit
      · cases h
    · cases h

lemma readable_readArgs {args : List String} (h : readArgs options args = .ok options')
    (hlimit : options.limit.Readable) : options'.limit.Readable := by
  fun_induction readArgs options args
  case case1 options =>
    cases h
    exact hlimit
  case case2 options rest =>
    cases h
    exact options.limit_addRest false rest ▸ hlimit
  case case3 options arg _ _ more _ =>
    cases h
    rw [Options.limit_addRest, Options.limit_addPositional]
    exact hlimit
  case case4 ih => exact ih h (by rwa [Options.limit_addPositional])
  case case5 ih => exact ih h hlimit
  case case6 => cases h
  case case7 ih =>
    obtain ⟨next, hread, h⟩ := exists_of_bind_eq_ok h
    exact ih next h (readable_readAttached hread hlimit)
  case case8 ih =>
    obtain ⟨next, hassign, h⟩ := exists_of_bind_eq_ok h
    exact ih next h (Options.readable_assign hassign hlimit)
  case case9 => cases h
  case case10 => cases h
  case case11 ih =>
    obtain ⟨next, hset, h⟩ := exists_of_bind_eq_ok h
    exact ih next h (Options.limit_set hset ▸ hlimit)

/-- Whatever limit a command line asks for was read from it. -/
theorem readable_limit_of_parse {args : List String} {source : String}
    (h : parse args = .ok (source, options)) : options.limit.Readable := by
  unfold parse at h
  split at h
  · cases h
  · obtain ⟨found, hread, h⟩ := exists_of_bind_eq_ok h
    split at h
    · cases h
    · cases h
      exact readable_readArgs hread (.int "256" (by decide))
    · cases h

end CommandLine

end Munch
