import FragmentRouting.Pattern.Match
import FragmentRouting.Text.Property
import FragmentRouting.Text.Search

/-!
The host's reading of a template: named tokens match one segment, splats any text, parenthesised
parts are optional, and all else stands for itself but for stars, which repeat, and parentheses
without a partner, which group.
-/
namespace FragmentRouting.Template

def isSpecial (c : Char) : Bool :=
  Text.isBlank c ||
    ['-', '\x7b', '\x7d', '[', ']', '+', '?', '.', ',', '\\', '^', '$', '|', '#'].contains c

def escapeChar (c : Char) : Text := if isSpecial c then ['\\', c] else [c]

/-- What a named token becomes: a group of one or more characters other than a slash. -/
def namedShape : Text := ['(', '[', '^', '/', ']', '+', ')']

/-- What a splat becomes: a group of any characters, as few as possible. -/
def splatShape : Text := ['(', '.', '*', '?', ')']

def hostShape : TokenKind → Text
  | .named => namedShape
  | .splat => splatShape

/-- Whether a closing parenthesis comes before the end of the line. -/
def closes : List Piece → Bool
  | [] => false
  | .literal c :: rest => if c = ')' then true else if c = '\n' then false else closes rest
  | .token _ :: rest => closes rest

/-- The source of some pieces, `inside` an optional part or not. An opening parenthesis outside
starts an optional part if it closes on its line; inside, the next closing one ends it. -/
def sourceFrom (shape : TokenKind → Text) : Bool → List Piece → Text
  | _, [] => []
  | inside, .token t :: rest => shape t.kind ++ sourceFrom shape inside rest
  | inside, .literal c :: rest =>
    if c = '(' ∧ inside = false ∧ closes rest = true then
      '(' :: '?' :: ':' :: sourceFrom shape true rest
    else if c = ')' ∧ inside = true then ')' :: '?' :: sourceFrom shape false rest
    else escapeChar c ++ sourceFrom shape inside rest

def hostSource (template : Text) : Text :=
  '^' :: (sourceFrom hostShape false (pieces template) ++ ['$'])

abbrev Host := Text → Except Fault Matcher

def standardHost : Host := fun template => Matcher.ofSource (hostSource template)

def fixedHost (source : Text) : Host := fun _ => Matcher.ofSource source

end FragmentRouting.Template
