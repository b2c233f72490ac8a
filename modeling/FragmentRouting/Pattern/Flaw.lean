import FragmentRouting.Text.Quoted

namespace FragmentRouting.Pattern

inductive Flaw where
  | nothingToRepeat
  | multipleRepeat
  | unclosedGroup
  | unopenedGroup
  | unclosedClass
  | badRange (shown : Text)
  | badEscape (shown : Text)
  | danglingEscape
  | unknownExtension (shown : Text)
  | unfinishedExtension
  | repeatBounds
  deriving DecidableEq, Repr

def Flaw.reason : Flaw → Text
  | .nothingToRepeat => "nothing to repeat".toList
  | .multipleRepeat => "multiple repeat".toList
  | .unclosedGroup => "missing ), unterminated subpattern".toList
  | .unopenedGroup => "unbalanced parenthesis".toList
  | .unclosedClass => "unterminated character set".toList
  | .badRange shown => "bad character range ".toList ++ shown
  | .badEscape shown => "bad escape ".toList ++ shown
  | .danglingEscape => "bad escape (end of pattern)".toList
  | .unknownExtension shown => "unknown extension ?".toList ++ shown
  | .unfinishedExtension => "unexpected end of pattern".toList
  | .repeatBounds => "min repeat greater than max repeat".toList

structure SyntaxFault where
  flaw : Flaw
  position : Nat
  source : Text
  deriving DecidableEq, Repr

def SyntaxFault.message (fault : SyntaxFault) : Text :=
  let place := fault.flaw.reason ++ " at position ".toList ++ Text.ofNat fault.position
  if fault.source.contains '\n' then
    let (line, column) := Text.lineColumn fault.source fault.position
    place ++ " (line ".toList ++ Text.ofNat line ++ ", column ".toList ++ Text.ofNat column ++ [')']
  else place

end FragmentRouting.Pattern
