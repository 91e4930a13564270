import Munch.Encoding

/-!
# Names of encodings

A name is matched by its letters, digits and points; case does not matter, and whatever stands
between them counts as one underscore. Some names belong to codecs that do not make text of bytes.
A codec of a system that is not among those here is unknown to `ofName`.
-/

namespace Munch.Encoding

/-- What a name stands for. A codec that makes text is given by a `δ`. -/
inductive Codec (δ : Type) where
  | text (codec : δ)
  | binary
  | unknown
  deriving DecidableEq, Repr

/-- The part of a name that is left is read with a gap before it or without one; a gap shows only
between two characters that count. -/
def canonicalChars (started gap : Bool) : List Char → List Char
  | [] => []
  | c :: rest =>
    if c.isAlphanum || c == '.' then
      let shown := c.toLower :: canonicalChars true false rest
      if gap && started then '_' :: shown else shown
    else canonicalChars started true rest

def canonical (name : String) : String := String.ofList (canonicalChars false false name.toList)

def codecs : List (String × Codec Encoding) :=
  [("utf_8", .text .utf8), ("utf_8_sig", .text .utf8Marked), ("utf_16", .text .utf16),
   ("utf_16_le", .text (.utf16Of .little)), ("utf_16_be", .text (.utf16Of .big)),
   ("latin_1", .text .latin1), ("iso8859_1", .text .latin1), ("ascii", .text .ascii),
   ("hex_codec", .binary), ("rot_13", .binary), ("base64_codec", .binary), ("bz2_codec", .binary),
   ("quopri_codec", .binary), ("uu_codec", .binary), ("zlib_codec", .binary)]

def aliases : List (String × List String) :=
  [("utf_8", ["cp65001", "u8", "utf", "utf8", "utf8_ucs2", "utf8_ucs4"]),
   ("utf_16", ["u16", "utf16"]),
   ("utf_16_le", ["unicodelittleunmarked", "utf_16le"]),
   ("utf_16_be", ["unicodebigunmarked", "utf_16be"]),
   ("latin_1", ["8859", "cp819", "csisolatin1", "ibm819", "iso8859", "iso8859_1", "iso_8859_1",
     "iso_8859_1_1987", "iso_ir_100", "l1", "latin", "latin1"]),
   ("ascii", ["646", "ansi_x3.4_1968", "ansi_x3.4_1986", "ansi_x3_4_1968", "cp367", "csascii",
     "ibm367", "iso646_us", "iso_646.irv_1991", "iso_ir_6", "us", "us_ascii"]),
   ("hex_codec", ["hex"]),
   ("rot_13", ["rot13"]),
   ("base64_codec", ["base64", "base_64"]),
   ("bz2_codec", ["bz2"]),
   ("quopri_codec", ["quopri", "quoted_printable", "quotedprintable"]),
   ("uu_codec", ["uu"]),
   ("zlib_codec", ["zip", "zlib"])]

def unalias? (name : String) : Option String := (aliases.find? (·.2.contains name)).map (·.1)

/-- The codec with a name. An alias may have points for its underscores. `locale` names the
encoding of the environment, UTF-8, and only in this spelling. -/
def ofName (name : String) : Codec Encoding :=
  if name = "locale" then .text .utf8
  else
    let plain := canonical name
    let pointless := String.ofList (plain.toList.map fun c => if c = '.' then '_' else c)
    let own := ((unalias? plain).or (unalias? pointless)).getD plain
    (codecs.lookup own).getD .unknown

end Munch.Encoding
