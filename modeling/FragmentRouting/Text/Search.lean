import FragmentRouting.Text.Basic

namespace FragmentRouting.Text

/-- Occurrences of a non-empty `shape`, after the next `covered` characters. -/
def occurrencesFrom (shape : Text) : Nat → Text → Nat
  | _, [] => 0
  | covered + 1, _ :: t => occurrencesFrom shape covered t
  | 0, c :: t =>
    if shape.isPrefixOf (c :: t) then occurrencesFrom shape (shape.length - 1) t + 1
    else occurrencesFrom shape 0 t

/-- How often `shape` occurs in a text. The empty text occurs before each character and at the
end. -/
def occurrences (shape t : Text) : Nat :=
  if shape.isEmpty then t.length + 1 else occurrencesFrom shape 0 t

/-- Replaces occurrences of a non-empty `shape`, after dropping the next `covered` characters. -/
def replaceFrom (shape replacement : Text) : Nat → Text → Text
  | _, [] => []
  | covered + 1, _ :: t => replaceFrom shape replacement covered t
  | 0, c :: t =>
    if shape.isPrefixOf (c :: t) then
      replacement ++ replaceFrom shape replacement (shape.length - 1) t
    else c :: replaceFrom shape replacement 0 t

def replaceAll (shape replacement t : Text) : Text :=
  if shape.isEmpty then replacement ++ t.flatMap fun c => c :: replacement
  else replaceFrom shape replacement 0 t

/-- Splits at occurrences of a non-empty delimiter, after dropping the next `covered`
characters. -/
def splitFrom (delimiter : Text) : Nat → Text → List Text
  | _, [] => [[]]
  | covered + 1, _ :: t => splitFrom delimiter covered t
  | 0, c :: t =>
    if delimiter.isPrefixOf (c :: t) then [] :: splitFrom delimiter (delimiter.length - 1) t
    else (splitFrom delimiter 0 t).modifyHead (c :: ·)

def splitAtAll (delimiter t : Text) : List Text := splitFrom delimiter 0 t

def occursIn (shape : Text) : Text → Bool
  | [] => shape.isEmpty
  | c :: t => shape.isPrefixOf (c :: t) || occursIn shape t

end FragmentRouting.Text
