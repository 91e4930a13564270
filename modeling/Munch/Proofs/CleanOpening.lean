import Munch.Proofs.OpenedFiles

/-!
# How opening fails

A source that does not open is refused with a reason, under the path that was asked for, and no stream is
left open. For any codecs that holds for all arguments without a NUL character and all files that the codec
decodes (`Cursor.attempt_clean`). A file whose first read ends in an error of the codec is refused without
its path, and its stream is never released (`Cursor.attempt_of_failsToDecode`). Among the built-in codecs
only UTF-16 without a given order fails so, for want of a mark (`failsToDecode_builtIn_iff`).
-/

namespace Munch

variable {ε : Type}

/-- Every stream that was opened was released again. -/
def Settled (events : List StreamEvent) : Prop := events.count .opened = events.count .released

/-- Opening gave a source that stands at its start, or refused the path and left no stream open. -/
structure Opening.Clean (path : String) (o : Opening ε Cursor) : Prop where
  opened : ∀ c, o.result = .ok c → c.position = ⟨1, 0⟩ ∧ c.offset = 0 ∧ c.closed = false ∧
    c.source = some path ∧ o.stream = [.opened]
  refused : ∀ e, o.result = .error e → (∃ reason, e = .refused path reason) ∧ Settled o.stream

/-- The file at the path can be read and its encoding is that of a codec, which has an error of its own
for these bytes. -/
def FailsToDecode (codecs : Codecs ε) (fs : FileSystem) (path name : String) (why : ε) : Prop :=
  ∃ decode bytes, codecs name = .text decode ∧ fs path = .ok (.ok bytes) ∧ decode bytes = .error why

/-- The file at the path can be read, is to be decoded as UTF-16 of either order, and has no mark to tell
the order from. -/
structure LacksMark (fs : FileSystem) (path name : String) : Prop where
  encoding_eq : Encoding.ofName name = .text .utf16
  unmarked : ∃ bytes, fs path = .ok (.ok bytes) ∧ 2 ≤ bytes.length ∧
    ∀ order, ¬ Encoding.Utf16.mark order <+: bytes

namespace Codecs

lemma find_eq_ok_iff {codecs : Codecs ε} {name : String} {decode : Decoder ε} :
    codecs.find name = .ok decode ↔ codecs name = .text decode := by
  unfold find
  cases codecs name <;> simp

lemma builtIn_eq_text_iff {name : String} {decode : Decoder MissingMark} :
    builtIn name = .text decode ↔ ∃ e, Encoding.ofName name = .text e ∧ e.decoder = decode := by
  unfold builtIn
  cases Encoding.ofName name <;> simp

end Codecs

lemma Encoding.decoder_eq_error_iff {e : Encoding} {bytes : List UInt8} {why : MissingMark} :
    e.decoder bytes = .error why ↔ e.decode? bytes = none := by
  unfold decoder
  cases e.decode? bytes <;> simp

/-- Of the built-in codecs only one has an error, and only for a missing mark. -/
theorem failsToDecode_builtIn_iff {fs : FileSystem} {path name : String} {why : MissingMark} :
    FailsToDecode .builtIn fs path name why ↔ LacksMark fs path name := by
  constructor
  · rintro ⟨decode, bytes, hcodec, hfile, herror⟩
    obtain ⟨e, hencoding, rfl⟩ := Codecs.builtIn_eq_text_iff.mp hcodec
    have hdecode := Encoding.decoder_eq_error_iff.mp herror
    obtain ⟨rfl, hlong, hmarks⟩ := Encoding.decode?_eq_none_iff.mp hdecode
    exact ⟨hencoding, bytes, hfile, hlong, hmarks⟩
  · rintro ⟨hencoding, bytes, hfile, hlong, hmarks⟩
    have hdecode : Encoding.utf16.decode? bytes = none :=
      Encoding.decode?_eq_none_iff.mpr ⟨rfl, hlong, hmarks⟩
    refine ⟨Encoding.utf16.decoder, bytes, ?_, hfile, Encoding.decoder_eq_error_iff.mpr hdecode⟩
    exact Codecs.builtIn_eq_text_iff.mpr ⟨.utf16, hencoding, rfl⟩

namespace Opening.Clean

variable {path : String}

lemma of_ok (text : List Char) :
    Clean path (⟨.ok { rest := text, source := some path }, [.opened]⟩ : Opening ε Cursor) := by
  constructor
  · intro c hc
    obtain rfl := Except.ok.inj hc
    exact ⟨rfl, rfl, rfl, rfl, rfl⟩
  · intro e he
    exact absurd he (by simp)

lemma of_refused (reason : Refusal) {stream : List StreamEvent} (h : Settled stream) :
    Clean path (⟨.error (.refused path reason), stream⟩ : Opening ε Cursor) := by
  constructor
  · intro c hc
    exact absurd hc (by simp)
  · intro e he
    exact ⟨⟨reason, (Except.error.inj he).symm⟩, h⟩

/-- Any other error is not clean. -/
lemma not_of_error {o : Opening ε Cursor} {e : OpenError ε} (ho : o.result = .error e)
    (he : ∀ reason, e ≠ .refused path reason) : ¬ o.Clean path := by
  intro hclean
  obtain ⟨⟨reason, hreason⟩, -⟩ := hclean.refused e ho
  exact he reason hreason

end Opening.Clean

namespace Cursor

variable {path name : String}

theorem attempt_of_nul_in_name (codecs : Codecs ε) (fs : FileSystem) (path : String)
    (h : '\x00' ∈ name.toList) : attempt codecs fs path (.text name) = ⟨.error .nulInEncoding, []⟩ := by
  have hname : (encodingName (.text name) : Except (OpenError ε) String) = .error .nulInEncoding := by
    rw [encodingName, if_pos (by simpa using h)]
  rw [attempt, Codecs.read, openStream, hname]
  rfl

theorem attempt_of_nul_in_path (codecs : Codecs ε) (fs : FileSystem) (hname : '\x00' ∉ name.toList)
    (h : '\x00' ∈ path.toList) : attempt codecs fs path (.text name) = ⟨.error .nulInPath, []⟩ := by
  have hpath : path.toList.contains '\x00' = true := by simpa using h
  rw [attempt, Codecs.read, openStream, encodingName_of_not_mem hname]
  simp only [if_pos hpath]
  rfl

section Proper

variable {codecs : Codecs ε} {fs : FileSystem} (hname : '\x00' ∉ name.toList)
  (hpath : '\x00' ∉ path.toList)
include hname hpath

theorem attempt_of_failsToDecode {why : ε} (h : FailsToDecode codecs fs path name why) :
    attempt codecs fs path (.text name) = ⟨.error (.undecodable why), [.opened]⟩ := by
  obtain ⟨decode, bytes, hcodec, hfile, herror⟩ := h
  have hfind := Codecs.find_eq_ok_iff.mpr hcodec
  rw [attempt, Codecs.read, openStream_of_proper hname hpath, hfile]
  simp only [hfind, Stream.read, herror]
  rfl

theorem attempt_clean (h : ∀ why, ¬ FailsToDecode codecs fs path name why) :
    (attempt codecs fs path (.text name)).Clean path := by
  rw [attempt, Codecs.read, openStream_of_proper hname hpath]
  cases hfile : fs path with
  | error fault => exact .of_refused (.fault fault) rfl
  | ok contents =>
    simp only
    cases hfind : codecs.find name with
    | error reason => exact .of_refused reason rfl
    | ok decode =>
      cases contents with
      | error fault => exact .of_refused (.fault fault) rfl
      | ok bytes =>
        cases hdecode : decode bytes with
        | ok text =>
          simp only [Stream.read, hdecode]
          exact .of_ok text
        | error why =>
          exact absurd ⟨decode, bytes, Codecs.find_eq_ok_iff.mp hfind, hfile, hdecode⟩ (h why)

end Proper

end Cursor

lemma Session.fst_attempt (codecs : Codecs ε) (fs : FileSystem) (config : Config) (path : String) :
    (attempt codecs fs config path).1 =
      (Cursor.attempt codecs fs path config.encoding).result.map (start config) := by
  unfold attempt
  cases (Cursor.attempt codecs fs path config.encoding).result <;> rfl

lemma tokenizeFile_eq_error_iff {fs : FileSystem} {config : Config} {path : String} {e : OpenError} :
    (tokenizeFile fs config path).1 = .error e ↔
      (Cursor.attempt .builtIn fs path config.encoding).result = .error e := by
  change _ ↔ Cursor.openFile fs path config.encoding = .error e
  rw [tokenizeFile, Session.openFile_eq]
  cases Cursor.openFile fs path config.encoding <;> simp

/-- Whatever codecs there are, opening goes by the book exactly when neither the name of the encoding nor
the path has a NUL character and the first read ends in no error of the codec: it gives a source at its
start, or refuses the path that was asked for with every stream released. What it does otherwise is another
failure each time, and where the codec fails the stream stays open. Sessions come of the same opening.
Among the built-in codecs that failure is a missing mark, and all tokens of a file fail as opening does. -/
theorem opening_clean_iff (codecs : Codecs ε) (fs : FileSystem) (config : Config) (path name : String) :
    let settings := { config with encoding := .text name }
    let o := Cursor.attempt codecs fs path (.text name)
    (o.Clean path ↔ '\x00' ∉ name.toList ∧ '\x00' ∉ path.toList ∧
      ∀ why, ¬ FailsToDecode codecs fs path name why) ∧
    ('\x00' ∈ name.toList → o = ⟨.error .nulInEncoding, []⟩) ∧
    ('\x00' ∉ name.toList → '\x00' ∈ path.toList → o = ⟨.error .nulInPath, []⟩) ∧
    ('\x00' ∉ name.toList → '\x00' ∉ path.toList → ∀ why, FailsToDecode codecs fs path name why →
      o = ⟨.error (.undecodable why), [.opened]⟩) ∧
    (Session.attempt codecs fs settings path).1 = o.result.map (Session.start settings) ∧
    (∀ why, FailsToDecode .builtIn fs path name why ↔ LacksMark fs path name) ∧
    ∀ e, (tokenizeFile fs settings path).1 = .error e ↔
      (Cursor.attempt .builtIn fs path (.text name)).result = .error e := by
  intro settings o
  refine ⟨⟨?_, ?_⟩, Cursor.attempt_of_nul_in_name codecs fs path, Cursor.attempt_of_nul_in_path codecs fs,
    fun hname hpath why => Cursor.attempt_of_failsToDecode hname hpath,
    Session.fst_attempt codecs fs settings path, fun why => failsToDecode_builtIn_iff,
    fun e => tokenizeFile_eq_error_iff⟩
  · intro hclean
    have hname : '\x00' ∉ name.toList := fun h =>
      Opening.Clean.not_of_error (congrArg _ (Cursor.attempt_of_nul_in_name codecs fs path h)) (by simp)
        hclean
    have hpath : '\x00' ∉ path.toList := fun h =>
      Opening.Clean.not_of_error (congrArg _ (Cursor.attempt_of_nul_in_path codecs fs hname h)) (by simp)
        hclean
    refine ⟨hname, hpath, fun why h => ?_⟩
    exact Opening.Clean.not_of_error (congrArg _ (Cursor.attempt_of_failsToDecode hname hpath h)) (by simp)
      hclean
  · rintro ⟨hname, hpath, hdecodes⟩
    exact Cursor.attempt_clean hname hpath hdecodes

/-- A file of two letters in UTF-16 without a mark: the failure does not name the path, and the stream is
left open. -/
theorem not_clean_of_missing_mark :
    let o := Cursor.attempt .builtIn (fun _ => .ok (.ok [0x69, 0x00, 0x66, 0x00])) "f.src" (.text "utf-16")
    o.result = .error .missingMark ∧ o.stream = [.opened] ∧ ¬ o.Clean "f.src" := by
  intro o
  have ho : o = ⟨.error .missingMark, [.opened]⟩ := by cbv
  exact ⟨by rw [ho], by rw [ho], Opening.Clean.not_of_error (congrArg _ ho) (by simp)⟩

end Munch
