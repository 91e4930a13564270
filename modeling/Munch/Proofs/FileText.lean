import Mathlib.Data.Nat.Init
import Munch.Proofs.Drain
import Munch.Proofs.RoundTrip

/-!
# Texts in files

A file that holds a text in some encoding is scanned like the text itself. Opened by any name of its
encoding, it gives a session on that very text (`openFile_of_decode?`), and where a text comes from
shows in the places of its tokens and diagnostics and nowhere else (`Scanner.drain_inSource`).
-/

namespace Munch

def Location.inSource (source : Option String) (l : Location) : Location := { l with source }

def Token.inSource (source : Option String) (t : Token) : Token :=
  { t with location := t.location.inSource source }

def Diagnostic.inSource (source : Option String) (d : Diagnostic) : Diagnostic :=
  d.relocate (Location.inSource source)

def Cursor.inSource (source : Option String) (c : Cursor) : Cursor := { c with source }

def Scanner.inSource (source : Option String) (s : Scanner) : Scanner :=
  { s with found := s.found.map (Diagnostic.inSource source) }

namespace Scanner

variable (source : Option String) (s : Scanner) (c : Cursor)

lemma diagnostics_inSource :
    (s.inSource source).diagnostics = s.diagnostics.map (Diagnostic.inSource source) := by
  unfold diagnostics inSource
  exact List.map_reverse.symm

lemma note_inSource (found : Option Diagnostic) :
    (s.inSource source).note (found.map (Diagnostic.inSource source)) =
      (s.note found).inSource source := by
  cases found <;> rfl

/-- A scan takes the same lexeme, whatever its source is called. -/
theorem scan_inSource :
    ((s.inSource source).scan (c.inSource source)).token = (s.scan c).token.inSource source ∧
      ((s.inSource source).scan (c.inSource source)).scanner =
        (s.scan c).scanner.inSource source ∧
      ((s.inSource source).scan (c.inSource source)).cursor =
        (s.scan c).cursor.inSource source := by
  have hskip : (c.inSource source).skip .whitespace = (c.skip .whitespace).inSource source := rfl
  cases hread : Lexeme.read? (c.skip .whitespace).rest with
  | none =>
    have hread' : Lexeme.read? ((c.inSource source).skip .whitespace).rest = none := hread
    rw [scan_of_none hread, scan_of_none hread', hskip]
    exact ⟨rfl, rfl, rfl⟩
  | some l =>
    have hread' : Lexeme.read? ((c.inSource source).skip .whitespace).rest = some l := hread
    rw [scan_of_some hread, scan_of_some hread', hskip]
    refine ⟨rfl, ?_, rfl⟩
    have hfound := l.diagnostic?_relocate s.config (Location.inSource source)
      ((c.skip .whitespace).position.of c.source)
    exact (congrArg (s.inSource source).note hfound).trans (s.note_inSource source _)

theorem scans_inSource (n : Nat) :
    ((s.inSource source).scans n (c.inSource source)).tokens =
        (s.scans n c).tokens.map (Token.inSource source) ∧
      ((s.inSource source).scans n (c.inSource source)).scanner =
        (s.scans n c).scanner.inSource source := by
  induction n generalizing s c with
  | zero => exact ⟨rfl, rfl⟩
  | succ n ih =>
    obtain ⟨htoken, hscanner, hcursor⟩ := s.scan_inSource source c
    obtain ⟨htokens, hlast⟩ := ih (s.scan c).scanner (s.scan c).cursor
    simp only [scans, htoken, hscanner, hcursor, htokens, hlast, List.map_cons, and_self]

theorem drain_inSource :
    ((s.inSource source).drain (c.inSource source)).tokens =
        (s.drain c).tokens.map (Token.inSource source) ∧
      ((s.inSource source).drain (c.inSource source)).scanner =
        (s.drain c).scanner.inSource source := by
  induction hn : c.rest.length using Nat.strong_induction_on generalizing s c with
  | _ n ih =>
    obtain ⟨htoken, hscanner, hcursor⟩ := s.scan_inSource source c
    have hkind : ((s.inSource source).scan (c.inSource source)).token.kind =
        (s.scan c).token.kind := by
      rw [htoken]
      rfl
    by_cases heof : (s.scan c).token.kind = .eof
    · rw [drain_of_eof heof, drain_of_eof (hkind.trans heof), htoken, hscanner]
      exact ⟨rfl, rfl⟩
    · obtain ⟨htokens, hlast⟩ :=
        ih _ (hn ▸ rest_scan_lt heof) (s.scan c).scanner (s.scan c).cursor rfl
      rw [drain_of_ne_eof heof, drain_of_ne_eof (hkind.trans_ne heof), htoken, hscanner, hcursor]
      simp only [htokens, hlast, List.map_cons, and_self]

end Scanner

namespace Encoding

/-- The usual name of an encoding. -/
def title : Encoding → String
  | utf8 => "utf-8"
  | utf8Marked => "utf-8-sig"
  | utf16 => "utf-16"
  | utf16Of .little => "utf-16-le"
  | utf16Of .big => "utf-16-be"
  | latin1 => "latin-1"
  | ascii => "ascii"

/-- A name to ask for an encoding by: the usual one, or another spelling of it. -/
def Named (e : Encoding) (name : String) : Prop :=
  name = e.title ∨ ofName name = .text e ∧ '\x00' ∉ name.toList

variable {e : Encoding} {name : String}

lemma ofName_title (e : Encoding) : ofName e.title = .text e ∧ '\x00' ∉ e.title.toList := by
  cases e with
  | utf16Of order => cases order <;> decide
  | _ => decide

lemma Named.ofName_eq (h : e.Named name) : ofName name = .text e ∧ '\x00' ∉ name.toList := by
  rcases h with rfl | h
  · exact ofName_title e
  · exact h

end Encoding

section Opening

variable {fs : FileSystem} {config : Config} {path name : String} {e : Encoding}
  {bytes : List UInt8} {text : String}

lemma readSource_of_decode? {chars : List Char} (hname : e.Named name)
    (hpath : '\x00' ∉ path.toList) (hfile : fs path = .ok (.ok bytes))
    (hdecode : e.decode? bytes = some chars) :
    readSource fs path (.text name) = .ok chars := by
  obtain ⟨hcodec, hnul⟩ := hname.ofName_eq
  have hfind : Codecs.builtIn.find name = .ok e.decoder := by
    rw [Codecs.find, Codecs.builtIn, hcodec]
  have htext : e.decoder bytes = .ok chars := by rw [Encoding.decoder, hdecode]
  rw [readSource, Codecs.read, openStream_of_proper hnul hpath, hfile]
  simp only [hfind, Stream.read, htext]

/-- A session on a file is a session on the text that the file holds. -/
theorem openFile_of_decode? (hconfig : config.encoding = .text name) (hname : e.Named name)
    (hpath : '\x00' ∉ path.toList) (hfile : fs path = .ok (.ok bytes))
    (hdecode : e.decode? bytes = some text.toList) :
    Session.openFile fs config path =
      (.ok (.ofText config text (some path)), [.opened path]) := by
  have hread := readSource_of_decode? hname hpath hfile hdecode
  have hopen : Cursor.openFile fs path config.encoding = .ok (.ofText text (some path)) := by
    rw [Cursor.openFile_eq, hconfig, hread]
    rfl
  simp only [Session.openFile_eq, hopen]
  rfl

lemma tokenizeFile_of_openFile {log : List Record}
    (h : Session.openFile fs config path = (.ok (.ofText config text (some path)), log)) :
    (tokenizeFile fs config path).1 = .ok (tokenize config text (some path)).1 := by
  simp only [tokenizeFile, h]
  rfl

/-- A file that holds the encoding of a text gives the tokens and diagnostics of that text, with the
path as their source: all at once, and after any number of tokens. The session reads the text itself,
with its line ends and marks. -/
theorem tokenizeFile_of_encoded (source : Option String) (order : Encoding.ByteOrder)
    (hconfig : config.encoding = .text name) (hname : e.Named name)
    (hpath : '\x00' ∉ path.toList) (hfile : fs path = .ok (.ok bytes))
    (hbytes : e.encode? order text.toList = some bytes) :
    (tokenizeFile fs config path).1 =
        .ok ((tokenize config text source).1.map (Token.inSource (some path))) ∧
      ∃ session, (Session.openFile fs config path).1 = .ok session ∧
        session.cursor.rest = text.toList ∧
        session.finish.2.1.diagnostics =
          (diagnostics config text source).map (Diagnostic.inSource (some path)) ∧
        ∀ n, let taken := session.scanner.scans n session.cursor
          let plain := (Session.ofText config text source).scanner.scans n (.ofText text source)
          taken.tokens = plain.tokens.map (Token.inSource (some path)) ∧
            taken.scanner.diagnostics =
              plain.scanner.diagnostics.map (Diagnostic.inSource (some path)) := by
  have hopen := openFile_of_decode? hconfig hname hpath hfile (Encoding.decode?_of_encode? hbytes)
  let plain := Session.ofText config text source
  obtain ⟨htokens, hscanner⟩ := plain.scanner.drain_inSource (some path) plain.cursor
  refine ⟨?_, .ofText config text (some path), ?_, rfl, ?_, ?_⟩
  · rw [tokenizeFile_of_openFile hopen]
    exact congrArg Except.ok htokens
  · rw [hopen]
  · exact (congrArg Scanner.diagnostics hscanner).trans (Scanner.diagnostics_inSource _ _)
  · intro n
    obtain ⟨htokens, hscanner⟩ := plain.scanner.scans_inSource (some path) plain.cursor n
    exact ⟨htokens,
      (congrArg Scanner.diagnostics hscanner).trans (Scanner.diagnostics_inSource _ _)⟩

end Opening

/-- A mark that belongs to the text stays, behind the one that tells the order of the bytes. -/
theorem tokenizeFile_of_encoded_with_two_marks :
    let bytes : List UInt8 := [0xFE, 0xFF, 0xFE, 0xFF, 0x00, 0x0D, 0x00, 0x0A, 0xD8, 0x3D, 0xDE, 0x00]
    let config : Config := { encoding := .text "utf-16" }
    Encoding.utf16.encode? .big "\ufeff\r\n😀".toList = some bytes ∧
      (tokenizeFile (fun _ => .ok (.ok bytes)) config "f").1 =
        .ok ((tokenize config "\ufeff\r\n😀").1.map (Token.inSource (some "f"))) := by
  intro bytes config
  have hbytes : Encoding.utf16.encode? .big "\ufeff\r\n😀".toList = some bytes := by decide
  exact ⟨hbytes,
    (tokenizeFile_of_encoded none .big rfl (.inl rfl) (by decide) rfl hbytes).1⟩

end Munch
