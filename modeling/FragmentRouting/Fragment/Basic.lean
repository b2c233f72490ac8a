import FragmentRouting.Codec.Basic
import FragmentRouting.Template.Narrowing
import FragmentRouting.Text.Property

namespace FragmentRouting.Fragment

/-- A fragment without a leading `#`, without a leading slash if asked, and without blanks at its
end. -/
def normalize (stripSlash : Bool) (fragment : Text) : Text :=
  let bare := Text.dropLead '#' fragment
  Text.trimEnd (if stripSlash then Text.dropLead '/' bare else bare)

/-- A path with a query: after an ampersand if the path has a question mark already. -/
def appendQuery (path query : Text) : Text :=
  if query.isEmpty then path
  else path ++ (if path.contains '?' then '&' else '?') :: query

/-- A capture as a parameter; a group that took no part gives null. -/
def parameter : Option Text → Value
  | none => .null
  | some t => .text t

/-- The parameters of some captures: a last one that starts with a question mark is replaced by the
map that it encodes. -/
def decode (codec : Codec) (captures : List Value) : Except Raised (List Value) × List Notice :=
  match captures.getLast? with
  | some (.text ('?' :: query)) =>
    let (params, notices) := codec.deserialize query
    (params.map fun params => captures.dropLast ++ [params.toValue], notices)
  | _ => (.ok captures, [])

def extract (codec : Codec) (matcher : Matcher) (path : Text) :
    Except Raised (Option (List Value)) × List Notice :=
  match matcher.captures? path with
  | none => (.ok none, [])
  | some captures =>
    let (params, notices) := decode codec (captures.map parameter)
    (params.map some, notices)

end FragmentRouting.Fragment
