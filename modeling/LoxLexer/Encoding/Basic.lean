import LoxLexer.Encoding.Utf16
import LoxLexer.Encoding.Utf8

/-!
# Encodings by name

Bytes are decoded by the encoding that a name stands for.  Names are compared
in lower case, any run of other characters than letters, digits and points
counting as one underscore.  The codecs of the registry have names of their own
and others beside them; in the others a point may stand for an underscore.  What
a name stands for that is none of these is up to the platform, and goes with the
name.  A name that holds a NUL is refused whatever the bytes are; but for that,
no bytes are the empty text in every encoding, known or not.

    '\x00' ∉ e.name → e.decode [] = .ok []                      (decode_nil)
-/

namespace LoxLexer

namespace Encoding

inductive Codec
  | utf8
  /-- UTF-8 with an optional signature in front. -/
  | utf8Signed
  | latin1
  | ascii
  /-- UTF-16 in the order of its byte order mark. -/
  | utf16
  | utf16Ordered (order : Utf16.Order)
  /-- A transformation of bytes, which yields no text. -/
  | transform
  /-- The encoding that refuses everything. -/
  | undefined
  deriving DecidableEq, Repr

inductive DecodeError
  /-- A name that holds a NUL. -/
  | nulInName
  | malformed (m : Malformed)
  | unknownEncoding (name : Text)
  | notText (name : Text)
  | refused (name : Text)
  /-- What a codec of the platform says of bytes that it cannot decode, or of its name. -/
  | complaint (message : Text)
  /-- Any other condition of such a codec, in its own words. -/
  | other (message : Text)
  deriving DecidableEq, Repr

/-- The codecs of a platform, by name. -/
abbrev Codecs := Text → Bytes → Except DecodeError Text

end Encoding

/-- The name of an encoding, and what bytes are under this name if the registry does not have
it. -/
structure Encoding where
  name : Text
  other : Bytes → Except Encoding.DecodeError Text

namespace Encoding

def ofCodecs (codecs : Codecs) (name : Text) : Encoding := ⟨name, codecs name⟩

/-- No codecs but those of the registry. -/
def noCodecs : Codecs := fun name _ => .error (.unknownEncoding name)

/-- An encoding of the registry, by name. -/
def named (name : Text) : Encoding := ofCodecs noCodecs name

/-! ## Names -/

/-- What `normalName` gives for the rest of a name; `gap` tells of characters that were skipped. -/
def normalNameFrom (started gap : Bool) : Text → Text
  | [] => []
  | c :: t =>
    if c.isAlphanum || c = '.' then
      if started && gap then '_' :: c.toLower :: normalNameFrom true false t
      else c.toLower :: normalNameFrom true false t
    else normalNameFrom started true t

def normalName (name : Text) : Text := normalNameFrom false false name

/-- A codec with its own name and its other names, all in normal form. -/
structure Registered where
  codec : Codec
  name : String
  others : List String
  deriving Repr

def registry : List Registered :=
  [⟨.utf8, "utf_8", ["utf8", "u8", "utf", "cp65001", "utf8_ucs2", "utf8_ucs4"]⟩,
   ⟨.utf8Signed, "utf_8_sig", []⟩,
   ⟨.latin1, "latin_1", ["latin1", "latin", "l1", "iso_8859_1", "iso8859_1", "iso8859", "8859",
     "iso_8859_1_1987", "iso_ir_100", "cp819", "ibm819", "csisolatin1"]⟩,
   ⟨.ascii, "ascii", ["us_ascii", "us", "646", "ansi_x3.4_1968", "ansi_x3_4_1968",
     "ansi_x3.4_1986", "cp367", "ibm367", "csascii", "iso646_us", "iso_646.irv_1991",
     "iso_ir_6"]⟩,
   ⟨.utf16, "utf_16", ["utf16", "u16"]⟩,
   ⟨.utf16Ordered .little, "utf_16_le", ["utf_16le", "unicodelittleunmarked"]⟩,
   ⟨.utf16Ordered .big, "utf_16_be", ["utf_16be", "unicodebigunmarked"]⟩,
   ⟨.transform, "hex_codec", ["hex"]⟩,
   ⟨.undefined, "undefined", []⟩]

/-- Underscores for points. -/
def withoutPoints (name : Text) : Text := name.map fun c => if c = '.' then '_' else c

/-- Whether a codec goes by a name in normal form. -/
def Registered.goesBy (r : Registered) (name : Text) : Bool :=
  r.name.toList = name ||
    r.others.any fun o => o.toList = name || o.toList = withoutPoints name

def Codec.ofName? (name : Text) : Option Codec :=
  (registry.find? (·.goesBy (normalName name))).map (·.codec)

/-! ## Decoding -/

/-- What `decodeAscii` gives behind the characters in `acc`, which are held last one first. -/
def decodeAsciiFrom : (position : Nat) → (acc : Text) → Bytes → Except Malformed Text
  | _, acc, [] => .ok acc.reverse
  | position, acc, b :: bs =>
    if b < 0x80 then decodeAsciiFrom (position + 1) (Char.ofNat b.toNat :: acc) bs
    else .error ⟨"ascii".toList, .outsideAscii, position, 1, b⟩

def decodeAscii (bs : Bytes) : Except Malformed Text := decodeAsciiFrom 0 [] bs

/-- Every byte is the character of that number. -/
def decodeLatin1 (bs : Bytes) : Text := bs.map fun b => Char.ofNat b.toNat

def Codec.decode (codec : Codec) (name : Text) (bs : Bytes) : Except DecodeError Text :=
  match codec with
  | utf8 => (Utf8.decode bs).mapError .malformed
  | utf8Signed =>
    match bs with
    | 0xEF :: 0xBB :: 0xBF :: rest => (Utf8.decode rest).mapError .malformed
    | bs => (Utf8.decode bs).mapError .malformed
  | latin1 => .ok (decodeLatin1 bs)
  | ascii => (decodeAscii bs).mapError .malformed
  | utf16 => (Utf16.decode bs).mapError .malformed
  | utf16Ordered order => (Utf16.decodeOrdered order bs).mapError .malformed
  | transform => .error (.notText name)
  | undefined => .error (.refused name)

def decode (e : Encoding) (bs : Bytes) : Except DecodeError Text :=
  if '\x00' ∈ e.name then .error .nulInName
  else if bs = [] then .ok []
  else
    match Codec.ofName? e.name with
    | some codec => codec.decode e.name bs
    | none => e.other bs

/-- The most bytes that a message shows of the name of a transformation. -/
def shownNameSize : Nat := 400

def DecodeError.message : DecodeError → Text
  | nulInName => "embedded null character".toList
  | malformed m => m.message
  | unknownEncoding name => "unknown encoding: ".toList ++ name
  | notText name =>
    "'".toList ++ Utf8.clip shownNameSize name ++
      "' is not a text encoding; use codecs.decode() to handle arbitrary codecs".toList
  | refused name =>
    "decoding with '".toList ++ name ++
      "' codec failed (UnicodeError: undefined encoding)".toList
  | complaint m => m
  | other m => m

/-! ## Lemmas -/

/-- No bytes are the empty text. -/
theorem decode_nil {e : Encoding} (h : '\x00' ∉ e.name) : e.decode [] = .ok [] := by
  rw [decode, if_neg h, if_pos rfl]

end Encoding

end LoxLexer
