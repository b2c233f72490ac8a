import FragmentRouting.Text.Quoted

namespace FragmentRouting.Json

inductive Flaw where
  | byteOrderMark
  | expectedValue
  | expectedName
  | expectedColon
  | expectedComma
  | extraData
  | unclosedString
  | controlCharacter
  | badEscape
  | badUnicodeEscape
  deriving DecidableEq, Repr

inductive Container where
  | list
  | map
  deriving DecidableEq, Repr

def Container.name : Container → Text
  | .list => "array".toList
  | .map => "object".toList

def Flaw.reason : Flaw → Text
  | .byteOrderMark => "Unexpected UTF-8 BOM (decode using utf-8-sig)".toList
  | .expectedValue => "Expecting value".toList
  | .expectedName => "Expecting property name enclosed in double quotes".toList
  | .expectedColon => "Expecting ':' delimiter".toList
  | .expectedComma => "Expecting ',' delimiter".toList
  | .extraData => "Extra data".toList
  | .unclosedString => "Unterminated string starting at".toList
  | .controlCharacter => "Invalid control character at".toList
  | .badEscape => "Invalid \\escape".toList
  | .badUnicodeEscape => "Invalid \\uXXXX escape".toList

def Flaw.message (flaw : Flaw) (document : Text) (position : Nat) : Text :=
  let (line, column) := Text.lineColumn document position
  flaw.reason ++ ": line ".toList ++ Text.ofNat line ++ " column ".toList ++ Text.ofNat column ++
    " (char ".toList ++ Text.ofNat position ++ [')']

end FragmentRouting.Json
