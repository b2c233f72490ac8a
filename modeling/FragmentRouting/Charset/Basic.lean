import FragmentRouting.Charset.Utf8
import FragmentRouting.Text.CodePoints

namespace FragmentRouting

namespace Windows1252

/-- The bytes that differ from Latin-1 and stand for a character. -/
def typographic : List (Nat × Nat) := [
  (0x80, 0x20AC), (0x82, 0x201A), (0x83, 0x0192), (0x84, 0x201E), (0x85, 0x2026), (0x86, 0x2020),
  (0x87, 0x2021), (0x88, 0x02C6), (0x89, 0x2030), (0x8A, 0x0160), (0x8B, 0x2039), (0x8C, 0x0152),
  (0x8E, 0x017D), (0x91, 0x2018), (0x92, 0x2019), (0x93, 0x201C), (0x94, 0x201D), (0x95, 0x2022),
  (0x96, 0x2013), (0x97, 0x2014), (0x98, 0x02DC), (0x99, 0x2122), (0x9A, 0x0161), (0x9B, 0x203A),
  (0x9C, 0x0153), (0x9E, 0x017E), (0x9F, 0x0178)]

/-- Whether a code point is the same in this set and in Latin-1. -/
def isCommon (n : Nat) : Bool := n < 0x80 || 0xA0 ≤ n && n < 0x100

def encodeChar? (c : Char) : Option UInt8 :=
  if isCommon c.toNat then some (.ofNat c.toNat)
  else (typographic.find? (·.2 == c.toNat)).map fun (b, _) => .ofNat b

def decodeByte? (b : UInt8) : Option Char :=
  if isCommon b.toNat then some (.ofNat b.toNat)
  else (typographic.find? (·.1 == b.toNat)).map fun (_, n) => .ofNat n

end Windows1252

inductive Charset where
  | utf8
  | latin1
  | ascii
  | windows1252
  deriving DecidableEq, Repr

namespace Charset

/-- A name without regard to case, with each run of other characters between ASCII letters, digits
and points turned into one underscore. -/
def normalizeName (name : Text) : Text := go false [] name
where
  /-- Goes on after `kept`, the part so far in reverse, and says whether separators are due. -/
  go (separated : Bool) (kept : Text) : Text → Text
    | [] => kept.reverse
    | c :: rest =>
      if c.isAlphanum || c == '.' then
        go false (c.toLower :: if separated && !kept.isEmpty then '_' :: kept else kept) rest
      else go true kept rest

def names : List (Charset × List Text) := [
  (.utf8, ["utf_8", "utf8", "u8", "utf", "utf8_ucs2", "utf8_ucs4", "cp65001"].map String.toList),
  (.latin1, ["latin_1", "latin1", "latin", "l1", "8859", "cp819", "csisolatin1", "ibm819",
    "iso8859", "iso8859_1", "iso_8859_1", "iso_8859_1_1987", "iso_ir_100"].map String.toList),
  (.ascii, ["ascii", "us_ascii", "us", "646", "ansi_x3.4_1968", "ansi_x3_4_1968", "ansi_x3.4_1986",
    "cp367", "csascii", "ibm367", "iso646_us", "iso_646.irv_1991", "iso_ir_6"].map String.toList),
  (.windows1252, ["cp1252", "1252", "windows_1252"].map String.toList)]

/-- The set with a name, which cannot hold a null character. In all names but the first of a set,
points count as underscores. -/
def ofName? (name : Text) : Option Charset :=
  let normal := normalizeName name
  let unpointed := normal.map fun c => if c = '.' then '_' else c
  if name.contains '\x00' then none
  else (names.find? fun (_, known) =>
    known.contains normal || known.tail.contains unpointed).map (·.1)

def codecName : Charset → Text
  | .utf8 => "utf-8".toList
  | .latin1 => "latin-1".toList
  | .ascii => "ascii".toList
  | .windows1252 => "charmap".toList

def encodeChar? : Charset → Char → Option (List UInt8)
  | .utf8, c => some (Utf8.encodeChar c)
  | .latin1, c => if c.toNat < 256 then some [.ofNat c.toNat] else none
  | .ascii, c => if c.toNat < 128 then some [.ofNat c.toNat] else none
  | .windows1252, c => (Windows1252.encodeChar? c).map ([·])

/-- The first run of letters that a set does not have, and its position. -/
structure Unencodable where
  charset : Charset
  codes : CodePoints
  position : Nat
  deriving DecidableEq, Repr

section Alphabet

variable {α : Type} [Alphabet α]

def encodeLetter? (charset : Charset) (a : α) : Option (List UInt8) :=
  (Alphabet.char? a).bind charset.encodeChar?

def encodeFrom (charset : Charset) : Nat → List α → Except Unencodable (List UInt8)
  | _, [] => .ok []
  | position, a :: rest =>
    match charset.encodeLetter? a with
    | some bytes => (encodeFrom charset (position + 1) rest).map (bytes ++ ·)
    | none =>
      let run := a :: rest.takeWhile fun b => (charset.encodeLetter? b).isNone
      .error ⟨charset, run.map Alphabet.code, position⟩

def encode (charset : Charset) (t : List α) : Except Unencodable (List UInt8) :=
  encodeFrom charset 0 t

end Alphabet

inductive Undecodable where
  | utf8 (flaw : Utf8.Flaw)
  | notAscii
  | unassigned
  /-- A character set of the platform gives a reason of its own. -/
  | other (reason : Text)
  deriving DecidableEq, Repr

def Undecodable.reason : Undecodable → Text
  | .utf8 .badStart => "invalid start byte".toList
  | .utf8 .badContinuation => "invalid continuation byte".toList
  | .utf8 .truncated => "unexpected end of data".toList
  | .notAscii => "ordinal not in range(128)".toList
  | .unassigned => "character maps to <undefined>".toList
  | .other reason => reason

def Unencodable.reason (flaw : Unencodable) : Text :=
  match flaw.charset with
  | .utf8 => "surrogates not allowed".toList
  | .latin1 => "ordinal not in range(256)".toList
  | .ascii => "ordinal not in range(128)".toList
  | .windows1252 => "character maps to <undefined>".toList

def decode (charset : Charset) (bytes : List UInt8) : Except Undecodable Text :=
  match charset with
  | .utf8 => (Utf8.decode bytes).mapError .utf8
  | .latin1 => .ok (bytes.map fun b => .ofNat b.toNat)
  | .ascii => bytes.mapM fun b =>
      if b.toNat < 128 then .ok (.ofNat b.toNat) else .error .notAscii
  | .windows1252 => bytes.mapM fun b =>
      match Windows1252.decodeByte? b with
      | some c => .ok c
      | none => .error .unassigned

end Charset

end FragmentRouting
