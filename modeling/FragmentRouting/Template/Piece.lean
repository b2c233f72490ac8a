import FragmentRouting.Text.Property

namespace FragmentRouting.Template

/-- A named token stands for one segment, a splat for any number of them. -/
inductive TokenKind where
  | named
  | splat
  deriving DecidableEq, Repr

namespace TokenKind

def marker : TokenKind → Char
  | .named => ':'
  | .splat => '*'

def ofMarker? : Char → Option TokenKind
  | ':' => some .named
  | '*' => some .splat
  | _ => none

def name : TokenKind → Text
  | .named => "named".toList
  | .splat => "splat".toList

end TokenKind

structure Token where
  kind : TokenKind
  name : Text
  deriving DecidableEq, Repr

def Token.text (token : Token) : Text := token.kind.marker :: token.name

inductive Piece where
  | literal (c : Char)
  | token (token : Token)
  deriving DecidableEq, Repr

def Piece.text : Piece → Text
  | .literal c => [c]
  | .token t => t.text

def Piece.token? : Piece → Option Token
  | .literal _ => none
  | .token t => some t

/-- The pieces of a template. A marker with word characters after it takes all of them as its name;
any other character is literal. -/
def pieces : Text → List Piece
  | [] => []
  | c :: rest =>
    match TokenKind.ofMarker? c with
    | none => .literal c :: pieces rest
    | some kind =>
      match rest.takeWhile Text.isWord with
      | [] => .literal c :: pieces rest
      | name => .token ⟨kind, name⟩ :: (pieces rest).drop name.length

def tokens (template : Text) : List Token := (pieces template).filterMap Piece.token?

def countKind (kind : TokenKind) (tokens : List Token) : Nat := tokens.countP (·.kind == kind)

end FragmentRouting.Template
