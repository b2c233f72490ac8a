import FragmentRouting.Fragment.Build
import FragmentRouting.Proofs.Except
import FragmentRouting.Proofs.Fragment.Extract
import FragmentRouting.Proofs.OrderedMap
import FragmentRouting.Proofs.Template.Filling
import FragmentRouting.Proofs.Wire.Pairs

/-!
Fragments built from a template lead back to their query. However the texts of the values are
divided among the tokens when the fragment is matched, the last parameter is the map that was
appended as a query.
-/
namespace FragmentRouting

namespace Fragment

open OrderedMap (Distinct)
open Template (Fills Piece Token Spells mark_not_mem_of_admits pieces tokens)

def filled : List Token → List Value → List (Token × Value)
  | [], _ => []
  | t :: rest, values => (t, values.head?.getD .null) :: filled rest values.tail

/-- The values that a map has for tokens; each token takes its entry out of the map. -/
def lookedUp : List Token → List (Value × Value) → List Value
  | [], _ => []
  | t :: rest, entries =>
    (OrderedMap.find? (.text t.name) entries).getD .null ::
      lookedUp rest (OrderedMap.erase (.text t.name) entries)

/-- What a map has beyond the tokens of a template. -/
def leftover (ts : List Token) (entries : List (Value × Value)) : List (Value × Value) :=
  entries.filter fun entry => !ts.any fun t => entry.1 == .text t.name

/-- Whether the texts of values suit the kinds of the tokens that they fill. -/
def Suits (codec : Codec) (pairs : List (Token × Value)) : Prop :=
  ∀ pair ∈ pairs, ∀ text ∈ (pathText codec pair.2).toOption, pair.1.kind.Admits text

theorem leftover_nil (entries : List (Value × Value)) : leftover [] entries = entries :=
  List.filter_eq_self.mpr fun _ _ => rfl

theorem leftover_cons (t : Token) (ts : List Token) {entries : List (Value × Value)}
    (distinct : Distinct entries) :
    leftover ts (OrderedMap.erase (.text t.name) entries) = leftover (t :: ts) entries := by
  rw [OrderedMap.erase_eq_filter (Value.exact_text t.name) distinct, leftover, leftover,
    List.filter_filter]
  apply List.filter_congr
  intro entry _
  rw [List.any_cons, Bool.not_or, Bool.and_comm]

/-- Filling by name is filling in order with the values looked up. -/
theorem fillByName_eq (codec : Codec) (ps : List Piece) {entries : List (Value × Value)}
    (distinct : Distinct entries) :
    fillByName codec ps entries =
      (fillInOrder codec ps (lookedUp (ps.filterMap Piece.token?) entries)).map fun path =>
        (path, leftover (ps.filterMap Piece.token?) entries) := by
  induction ps generalizing entries with
  | nil => exact congrArg (fun left => Except.ok ([], left)) (leftover_nil entries).symm
  | cons p rest ih =>
      cases p with
      | literal c =>
          have names : (Piece.literal c :: rest).filterMap Piece.token? =
              rest.filterMap Piece.token? := rfl
          rw [fillByName, ih distinct, names, fillInOrder]
          cases fillInOrder codec rest (lookedUp (rest.filterMap Piece.token?) entries) with
          | error fault => rfl
          | ok path => rfl
      | token t =>
          have names : (Piece.token t :: rest).filterMap Piece.token? =
              t :: rest.filterMap Piece.token? := rfl
          rw [fillByName, ih (OrderedMap.distinct_erase (Value.exact_text t.name) distinct), names,
            lookedUp, fillInOrder,
            leftover_cons t _ distinct]
          simp only [List.head?_cons, Option.getD_some, List.tail_cons]
          cases pathText codec ((OrderedMap.find? (.text t.name) entries).getD .null) with
          | error fault => rfl
          | ok text =>
              cases fillInOrder codec rest (lookedUp (rest.filterMap Piece.token?)
                  (OrderedMap.erase (.text t.name) entries)) with
              | error fault => rfl
              | ok path => rfl

/-- Filling a template in order is filling it with the texts of the values. -/
theorem fills_of_fillInOrder {codec : Codec} {ps : List Piece} {values : List Value} {path : Text}
    (suits : Suits codec (filled (ps.filterMap Piece.token?) values))
    (h : fillInOrder codec ps values = .ok path) :
    ∃ texts, (filled (ps.filterMap Piece.token?) values).mapM (pathText codec ·.2) = .ok texts ∧
      Fills ps texts path := by
  induction ps generalizing values path with
  | nil =>
      rw [← Except.ok.inj h]
      exact ⟨[], rfl, .nil⟩
  | cons p rest ih =>
      cases p with
      | literal c =>
          obtain ⟨others, rested, same⟩ := bind_eq_ok_iff.mp h
          rw [← Except.ok.inj same]
          obtain ⟨texts, formatted, fills⟩ := ih suits rested
          exact ⟨texts, formatted, .literal fills⟩
      | token t =>
          obtain ⟨text, here, h⟩ := bind_eq_ok_iff.mp h
          obtain ⟨others, rested, same⟩ := bind_eq_ok_iff.mp h
          rw [← Except.ok.inj same]
          obtain ⟨first, suits⟩ := List.forall_mem_cons.mp suits
          have admits : t.kind.Admits text := by
            apply first text
            rw [here]
            rfl
          obtain ⟨texts, formatted, fills⟩ := ih suits rested
          refine ⟨text :: texts, ?_, .token admits fills⟩
          exact mapM_eq_ok_iff.mpr (.cons here (mapM_eq_ok_iff.mp formatted))

theorem mark_not_mem_of_spells {ps : List Piece} {path : Text} (plain : .literal '?' ∉ ps)
    (spells : Spells ps path) : '?' ∉ path := by
  induction spells with
  | nil => exact List.not_mem_nil
  | literal opening closing others ih =>
      rw [List.mem_cons, not_or] at plain ⊢
      exact ⟨fun same => plain.1 (congrArg Piece.literal same), ih plain.2⟩
  | token admits others ih =>
      rw [List.mem_append, not_or]
      exact ⟨mark_not_mem_of_admits admits, ih fun mark => plain (List.mem_cons_of_mem _ mark)⟩
  | taken first inside others ihInside ih =>
      rw [List.mem_append, not_or]
      refine ⟨ihInside fun mark => plain ?_, ih fun mark => plain ?_⟩
      · exact List.mem_cons_of_mem _ (List.mem_append_left _ mark)
      · exact List.mem_cons_of_mem _ (List.mem_append_right _ (List.mem_cons_of_mem _ mark))
  | skipped first others ih =>
      refine ih fun mark => plain ?_
      exact List.mem_cons_of_mem _ (List.mem_append_right _ (List.mem_cons_of_mem _ mark))

theorem serialize_nil (codec : Codec) : codec.serialize [] = .ok [] := rfl

theorem appendQuery_of_not_mem {path query : Text} (unmarked : '?' ∉ path) (some_ : query ≠ []) :
    appendQuery path query = path ++ '?' :: query := by
  rw [appendQuery, if_neg fun empty => some_ (List.isEmpty_iff.mp empty),
    if_neg fun mark => unmarked (List.contains_iff_mem.mp mark)]

theorem appendQuery_of_mem {path query : Text} (marked : '?' ∈ path) (some_ : query ≠ []) :
    appendQuery path query = path ++ '&' :: query := by
  rw [appendQuery, if_neg fun empty => some_ (List.isEmpty_iff.mp empty),
    if_pos (List.contains_iff_mem.mpr marked)]

theorem withQuery_eq_ok {codec : Codec} {path : Text} {entries : List (Value × Value)}
    {fragment : Text} (h : withQuery codec path entries = .ok fragment) :
    ∃ query, codec.serialize entries = .ok query ∧ fragment = appendQuery path query := by
  unfold withQuery at h
  split at h
  next empty =>
      rw [List.isEmpty_iff.mp empty]
      exact ⟨[], serialize_nil codec, (Except.ok.inj h).symm⟩
  next =>
      obtain ⟨query, serialized, same⟩ := bind_eq_ok_iff.mp h
      exact ⟨query, serialized, (Except.ok.inj same).symm⟩

theorem not_mem_of_serialize {codec : Codec} {entries : List (Value × Value)} {query : Text}
    (h : codec.serialize entries = .ok query) {c : Char} (special : Wire.isFramed c = false) :
    c ∉ query := by
  obtain ⟨pairs, _, written⟩ := bind_eq_ok_iff.mp h
  intro member
  rw [Wire.isFramed_of_mem_writePairs written c member] at special
  exact Bool.false_ne_true special.symm

/-- Whether the parameters of a fragment are one for each token of a template and at last the map
that some entries encode, or null if they encode nothing. -/
def Recovers (codec : Codec) (template : Text) (matcher : Matcher) (fragment : Text)
    (entries : List (Value × Value)) : Prop :=
  ∃ (query : Text) (front : List Value), codec.serialize entries = .ok query ∧
    front.length = (tokens template).length ∧
    (extract codec matcher fragment).1 =
      if query.isEmpty then .ok (some (front ++ [.null]))
      else (codec.deserialize query).1.map fun map => some (front ++ [map.toValue])

/-- A spelled path with a query, whatever the codec of the query. -/
theorem recovers_of_spells (codec : Codec) {template : Text} (plain : '?' ∉ template)
    (balanced : Template.unnested false template = true)
    (stars : Template.starsNamed template = true) {compiled : Template.Compiled}
    (fresh : (Template.compileFresh Template.standardHost {} template).1 = .ok compiled)
    {path : Text} (spells : Spells (pieces template) path) {entries : List (Value × Value)}
    {query : Text} (serialized : codec.serialize entries = .ok query) :
    Recovers codec template compiled.matcher (appendQuery path query) entries := by
  obtain ⟨ps, regular, spelled, slots, compiles⟩ := Template.compileFresh_spelled balanced stars
  obtain ⟨parts, unqueried, narrow⟩ := Template.compiled_unqueried plain fresh
  obtain ⟨alone, queried⟩ := Template.captures?_of_language regular ((spelled path).mpr spells)
  have same := Except.ok.inj (fresh.symm.trans compiles)
  have size : (Pattern.seqAll parts).slots = (tokens template).length := by
    rw [← Nat.add_right_cancel_iff, ← Template.slots_narrowed, ← narrow, same]
    exact slots
  have unmarked : '?' ∉ path := by
    apply mark_not_mem_of_spells _ spells
    exact fun mark => plain (Template.mem_of_literal_mem_pieces mark)
  have matches_ (p : Text) : compiled.matcher.captures? p =
      (Template.narrowed (.start :: ps)).captures? p := by
    rw [same]
    rfl
  rw [← matches_] at alone
  by_cases empty : query.isEmpty = true
  · obtain ⟨front, length, extracted⟩ := extract_plain codec unqueried narrow unmarked alone
    refine ⟨query, front, serialized, length.trans size, ?_⟩
    rw [appendQuery, if_pos empty, if_pos empty, extracted]
  · have line : '\n' ∉ query := not_mem_of_serialize serialized (by decide)
    have appended := appendQuery_of_not_mem unmarked fun same => empty (List.isEmpty_iff.mpr same)
    have matched := queried query line
    rw [← matches_] at matched
    obtain ⟨front, length, extracted⟩ :=
      extract_query codec unqueried narrow unmarked line matched
    refine ⟨query, front, serialized, length.trans size, ?_⟩
    rw [appended, if_neg empty, extracted]

/-- Fragments built in either way match the template that they were built from, and what was
appended as a query is the last parameter. -/
theorem build_recovers_query (codec : Codec) (template : Text) (mark : '?' ∉ template)
    (opening : '(' ∉ template) (closing : ')' ∉ template)
    (stars : Template.starsNamed template = true) :
    ∃ object, (({} : Template.Compiler).compile template).1 = .ok object ∧
      (∀ values entries fragment, fromValues codec template values entries = .ok fragment →
        Suits codec (filled (tokens template) values) →
          Recovers codec template object.compiled.matcher fragment entries) ∧
      (∀ entries fragment, Distinct entries →
        fromParams codec template entries = .ok fragment →
        Suits codec (filled (tokens template) (lookedUp (tokens template) entries)) →
          Recovers codec template object.compiled.matcher fragment
            (leftover (tokens template) entries)) := by
  have balanced := Template.unnested_of_not_mem opening closing
  obtain ⟨ps, _, _, _, fresh⟩ := Template.compileFresh_spelled balanced stars
  obtain ⟨object, compiled, same⟩ :=
    map_eq_ok_iff.mp ((Template.compile_default template).trans fresh)
  rw [← same] at fresh
  have spells {values : List Value} {path : Text}
      (suits : Suits codec (filled (tokens template) values))
      (h : fillInOrder codec (pieces template) values = .ok path) :
      Spells (pieces template) path := by
    obtain ⟨texts, _, fills⟩ := fills_of_fillInOrder suits h
    exact fills.spells (fun member => opening (Template.mem_of_literal_mem_pieces member))
      (fun member => closing (Template.mem_of_literal_mem_pieces member))
  refine ⟨object, compiled, ?_, ?_⟩
  · intro values entries fragment built suits
    obtain ⟨path, rendered, queried⟩ := bind_eq_ok_iff.mp built
    obtain ⟨query, serialized, rfl⟩ := withQuery_eq_ok queried
    exact recovers_of_spells codec mark balanced stars fresh (spells suits rendered) serialized
  · intro entries fragment distinct built suits
    rw [fromParams, fillByName_eq codec _ distinct] at built
    obtain ⟨⟨path, left⟩, rendered, queried⟩ := bind_eq_ok_iff.mp built
    obtain ⟨path', inOrder, pair⟩ := map_eq_ok_iff.mp rendered
    obtain ⟨rfl, rfl⟩ := Prod.mk.inj pair
    obtain ⟨query, serialized, rfl⟩ := withQuery_eq_ok queried
    exact recovers_of_spells codec mark balanced stars fresh (spells suits inOrder) serialized

def pageTemplate : Text := "page/:id*rest".toList

def pageEntries : List (Value × Value) :=
  [(.text "id".toList, .int 9), (.text "show".toList, .bool true),
    (.text "rest".toList, .text "/a\n:id".toList)]

theorem build_recovers_query_page :
    '?' ∉ pageTemplate ∧ '(' ∉ pageTemplate ∧ ')' ∉ pageTemplate ∧
      Template.starsNamed pageTemplate = true ∧
      ∃ object, (({} : Template.Compiler).compile pageTemplate).1 = .ok object ∧
        Recovers ⟨.json, {}, .logging⟩ pageTemplate object.compiled.matcher "page/9".toList [] ∧
        Recovers ⟨.json, {}, .logging⟩ pageTemplate object.compiled.matcher
          "page/9/a\n:id?show=true".toList (leftover (tokens pageTemplate) pageEntries) := by
  have mark : '?' ∉ pageTemplate := by decide
  have opening : '(' ∉ pageTemplate := by decide
  have closing : ')' ∉ pageTemplate := by decide
  have stars : Template.starsNamed pageTemplate = true := by decide +kernel
  obtain ⟨object, compiled, inOrder, byName⟩ :=
    build_recovers_query ⟨.json, {}, .logging⟩ pageTemplate mark opening closing stars
  refine ⟨mark, opening, closing, stars, object, compiled, ?_, ?_⟩
  · apply inOrder [.int 9] [] "page/9".toList
    · decide +kernel
    · unfold Suits
      decide +kernel
  · apply byName pageEntries "page/9/a\n:id?show=true".toList
    · unfold Distinct
      decide +kernel
    · decide +kernel
    · unfold Suits
      decide +kernel

end Fragment

end FragmentRouting
