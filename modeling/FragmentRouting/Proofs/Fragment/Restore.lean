import FragmentRouting.Proofs.Fragment.Link
import FragmentRouting.Proofs.Template.Words

/-!
Which fragments lead back to the query that they were built with. Building copies parentheses, and
takes a question mark that is there already for the start of a query. In matching, parentheses stand
for nothing, what they enclose may be missing, and a question mark of the template is one of its
characters. So without a question mark the query comes back only where the filled template happens
to be one of its own words.
-/
namespace FragmentRouting.Fragment

open OrderedMap (keys)
open Template (Fills Forest Splits compileFresh lexemes pieces standardHost tokens)

/-- The last parameter of a path that is a word alone or a word with a query. -/
def lastParameter (codec : Codec) : Option Text → Except Raised Value
  | none => .ok .null
  | some query => (codec.deserialize query).1.map Params.toValue

/-- Whether the last parameter of a fragment is a map with each entry that a query carries. -/
def Restores (codec : Codec) (matcher : Matcher) (fragment query : Text) : Prop :=
  ∃ values found map, (extract codec matcher fragment).1 = .ok (some values) ∧
    values.getLast? = some (Params.toValue found) ∧ (codec.deserialize query).1 = .ok map ∧
    ∀ entry ∈ map, entry ∈ found

/-- Whether a path is matched where it splits into one of some words and a query, and nowhere
else, with the last parameter of such a split. -/
def ReadsSplit (codec : Codec) (matcher : Matcher) (words : Language Char) (path : Text) : Prop :=
  (∀ found, ¬ Splits words path found) ∧ (extract codec matcher path).1 = .ok none ∨
    ∃ found front, Splits words path found ∧
      (extract codec matcher path).1 =
        (lastParameter codec found).map fun last => some (front ++ [last])

/-- The paths that a template knows, and the last parameter that they give. -/
theorem extract_words (codec : Codec) {template : Text} {compiled : Template.Compiled}
    (fresh : (compileFresh standardHost {} template).1 = .ok compiled) :
    ∃ forest : Forest, lexemes false (pieces template) = forest.lexemes ∧
      ∀ path : Text, path.getLast? ≠ some '\n' →
        ReadsSplit codec compiled.matcher forest.words path := by
  obtain ⟨forest, same, knows⟩ := Template.compiled_words fresh
  refine ⟨forest, same, fun path ended => ?_⟩
  obtain ⟨matched, splits⟩ := knows path ended
  cases captured : compiled.matcher.captures? path with
  | none =>
      refine .inl ⟨fun found split => ?_, extract_eq_none_iff.mpr captured⟩
      rw [captured] at matched
      exact Bool.false_ne_true (matched.mpr ⟨found, split⟩)
  | some captures =>
      obtain ⟨found, split, last⟩ := splits captures captured
      refine .inr ⟨found, captures.dropLast.map parameter, split, ?_⟩
      rw [extract_of_captures? captured]
      cases found with
      | none =>
          obtain ⟨front, rfl⟩ := List.getLast?_eq_some_iff.mp last
          rw [decode_plain codec last, List.dropLast_concat, List.map_append]
          rfl
      | some query =>
          rw [decode_concat codec last, lastParameter]
          cases (codec.deserialize query).1 <;> rfl

/-- Parameters that suit the tokens of a template and leave some for a query, none of which is a
text that would be read as an item of a list. -/
structure Supplies (codec : Codec) (template : Text) (params : Params) : Prop where
  distinct : (keys params).Nodup
  suits : Suits codec (filled (tokens template) (lookedUp (tokens template) params.entries))
  others : beyond (tokens template) params ≠ []
  unsuffixed : ∀ key v, (key, v) ∈ beyond (tokens template) params → v.items? = none →
    ¬ Codec.listSuffix <:+ key

/-- The parts of a fragment: the path is the template, filled with the texts of the values for its
tokens, and the query carries the other parameters. -/
structure Composed (codec : Codec) (template : Text) (params : Params)
    (fragment path query : Text) : Prop where
  fills : ∃ texts,
    (filled (tokens template) (lookedUp (tokens template) params.entries)).mapM
      (pathText codec ·.2) = .ok texts ∧ Fills (pieces template) texts path
  serialized : codec.serialize (beyond (tokens template) params).entries = .ok query
  carries : ∃ carried, (beyond (tokens template) params).carried = .ok carried ∧
    (codec.deserialize query).1 = .ok (Params.ofCarried carried)
  nonempty : query ≠ []
  joined : fragment = path ++ (if '?' ∈ template then '&' else '?') :: query

section Built

variable {codec : Codec} {template : Text}

/-- A filled template has the question marks of the template. -/
theorem mark_mem_iff_of_fills {texts : List Text} {path : Text}
    (fills : Fills (pieces template) texts path) : '?' ∈ path ↔ '?' ∈ template := by
  rw [← List.count_pos_iff, fills.count_mark, List.count_pos_iff]
  refine ⟨Template.mem_of_literal_mem_pieces, fun mark => ?_⟩
  exact Template.literal_mem_pieces mark (fun kind => by cases kind <;> decide) (by decide)

theorem composed_of_fromParams (bracket : codec.layout = .bracket)
    (utf8 : Wire.IsUtf8 codec.settings.encoding) {params : Params}
    (supplies : Supplies codec template params) {fragment : Text}
    (built : fromParams codec template params.entries = .ok fragment) :
    ∃ path query, Composed codec template params fragment path query := by
  obtain ⟨layout, settings, sink⟩ := codec
  obtain rfl : layout = .bracket := bracket
  obtain ⟨texts, path, query, formatted, fills, serialized, same⟩ :=
    fills_of_fromParams supplies.distinct supplies.suits built
  have distinct : (keys (beyond (tokens template) params)).Nodup :=
    supplies.distinct.sublist (List.filter_sublist.map _)
  obtain ⟨carried, carries, parsed⟩ :=
    Codec.parse_of_serialize_bracket utf8 distinct supplies.unsuffixed serialized
  have some_ : query ≠ [] := by
    intro nothing
    rw [nothing] at parsed
    exact supplies.others (eq_nil_of_parse_nil sink utf8 carries parsed)
  refine ⟨path, query, ⟨texts, formatted, fills⟩, serialized, ⟨carried, carries, ?_⟩, some_, ?_⟩
  · rw [Codec.deserialize_of_parse parsed]
  · rw [same, appendQuery, if_neg fun empty => some_ (List.isEmpty_iff.mp empty)]
    simp only [List.contains_iff_mem, mark_mem_iff_of_fills fills]

section Words

variable {forest : Forest} (same : lexemes false (pieces template) = forest.lexemes)

include same

theorem mark_not_mem_of_words (plain : '?' ∉ template) : ∀ u ∈ forest.words, '?' ∉ u := by
  intro u inside mark
  rcases Template.literal_or_token_of_words same inside mark with ⟨listed, _⟩ | token
  · exact plain (Template.mem_of_literal_mem_pieces listed)
  · obtain ⟨t, v, _, admits, inside⟩ := token
    exact Template.mark_not_mem_of_admits admits inside

theorem not_mem_words_of_opening {texts : List Text} {path : Text}
    (fills : Fills (pieces template) texts path) (opening : '(' ∈ template)
    (untokened : tokens template = []) : path ∉ forest.words := by
  have literals := Template.pieces_untokened untokened
  have copied : '(' ∈ path := by
    refine fills.mem_of_literal ?_
    rw [literals]
    exact List.mem_map_of_mem opening
  intro inside
  rcases Template.literal_or_token_of_words same inside copied with ⟨_, other⟩ | token
  · exact other rfl
  · obtain ⟨t, _, listed, _⟩ := token
    rw [literals] at listed
    obtain ⟨_, _, equal⟩ := List.mem_map.mp listed
    cases equal

theorem count_mark_of_fills (opening : '(' ∉ template)
    (stars : Template.starsNamed template = true) {texts : List Text} {path : Text}
    (fills : Fills (pieces template) texts path) :
    ∀ u ∈ forest.words, u.count '?' = path.count '?' := by
  intro u inside
  have unopened : .literal '(' ∉ pieces template :=
    fun member => opening (Template.mem_of_literal_mem_pieces member)
  have unstarred := Template.star_not_mem_pieces stars
  rw [fills.count_mark, Template.count_mark_of_lexemes same unopened unstarred inside]

end Words

/-- Where a fragment splits in one way only, into a path and its query, it matches and leads back if
the path is a word. -/
theorem restores_iff_of_splits {matcher : Matcher} {words : Language Char} {path query : Text}
    {fragment : Text} {map : Params} (given : (codec.deserialize query).1 = .ok map)
    (reads : ReadsSplit codec matcher words fragment)
    (only : ∀ found, Splits words fragment found ↔ path ∈ words ∧ found = some query) :
    ((extract codec matcher fragment).1 ≠ .ok none ↔ path ∈ words) ∧
      (Restores codec matcher fragment query ↔ path ∈ words) := by
  rcases reads with ⟨none_, missed⟩ | ⟨found, front, split, extracted⟩
  · have outside : path ∉ words := fun inside => none_ _ ((only _).mpr ⟨inside, rfl⟩)
    refine ⟨iff_of_false (fun matched => matched missed) outside, iff_of_false ?_ outside⟩
    rintro ⟨_, _, _, extracted, -⟩
    cases missed.symm.trans extracted
  · obtain ⟨inside, rfl⟩ := (only found).mp split
    rw [lastParameter, given] at extracted
    refine ⟨iff_of_true ?_ inside, iff_of_true ?_ inside⟩
    · rw [extracted]
      exact nofun
    · exact ⟨_, map, map, extracted, List.getLast?_concat, given, fun _ member => member⟩

/-- A fragment matches where it splits into a word of the template and a query, and its last
parameter is read off such a split. Without a question mark in the template that is where the filled
template is a word, and only there the query comes back; if the template is nothing but text with a
parenthesis, it never is a word. With a question mark in it and nothing optional or repeated,
whatever matches has lost the query. -/
theorem build_restores_iff (bracket : codec.layout = .bracket)
    (utf8 : Wire.IsUtf8 codec.settings.encoding) {object : Template.Object}
    (compiled : (({} : Template.Compiler).compile template).1 = .ok object) {params : Params}
    (supplies : Supplies codec template params) {fragment : Text}
    (built : fromParams codec template params.entries = .ok fragment) :
    ∃ (forest : Forest) (path query : Text),
      lexemes false (pieces template) = forest.lexemes ∧
        Composed codec template params fragment path query ∧
        ReadsSplit codec object.compiled.matcher forest.words fragment ∧
        ('?' ∉ template →
          ((extract codec object.compiled.matcher fragment).1 ≠ .ok none ↔
            path ∈ forest.words) ∧
          (Restores codec object.compiled.matcher fragment query ↔ path ∈ forest.words)) ∧
        ('?' ∉ template → '(' ∈ template → tokens template = [] →
          (extract codec object.compiled.matcher fragment).1 = .ok none) ∧
        ('?' ∈ template → '(' ∉ template → Template.starsNamed template = true →
          (extract codec object.compiled.matcher fragment).1 = .ok none ∨
            ∃ front,
              (extract codec object.compiled.matcher fragment).1 =
                .ok (some (front ++ [.null]))) := by
  have fresh := (Template.compile_default template).symm.trans (congrArg _ compiled)
  obtain ⟨forest, same, knows⟩ := extract_words codec fresh
  obtain ⟨path, query, composed⟩ := composed_of_fromParams bracket utf8 supplies built
  obtain ⟨texts, _, fills⟩ := composed.fills
  have line : '\n' ∉ query := not_mem_of_serialize composed.serialized (by decide)
  have single : '?' ∉ query := not_mem_of_serialize composed.serialized (by decide)
  -- The query holds no line feed, so the fragment ends with none, and no question mark, so without
  -- one in the template the only split is before the query.
  have ended : fragment.getLast? ≠ some '\n' := by
    rw [composed.joined, List.getLast?_append_of_ne_nil _ (List.cons_ne_nil _ _),
      List.getLast?_cons_of_ne_nil composed.nonempty]
    exact fun last => line (List.mem_of_getLast? last)
  have reads := knows fragment ended
  refine ⟨forest, path, query, same, composed, reads, ?_⟩
  have only (plain : '?' ∉ template) (found : Option Text) :
      Splits forest.words fragment found ↔ path ∈ forest.words ∧ found = some query := by
    rw [composed.joined, if_neg plain]
    exact Template.splits_query_iff (mark_not_mem_of_words same plain)
      (fun mark => plain ((mark_mem_iff_of_fills fills).mp mark)) single line
  obtain ⟨_, _, given⟩ := composed.carries
  have unmarked (plain : '?' ∉ template) := restores_iff_of_splits given reads (only plain)
  refine ⟨unmarked, fun plain opening untokened => ?_, fun mark opening stars => ?_⟩
  · have outside := not_mem_words_of_opening same fills opening untokened
    exact not_not.mp (outside ∘ (unmarked plain).1.mp)
  · rcases reads with ⟨_, missed⟩ | ⟨found, front, split, extracted⟩
    · exact .inl missed
    · have count (u : Text) (inside : u ∈ forest.words) : u.count '?' = fragment.count '?' := by
        rw [composed.joined, if_pos mark, count_mark_of_fills same opening stars fills u inside,
          List.count_append, List.count_cons_of_ne (by decide),
          List.count_eq_zero_of_not_mem single]
        rfl
      rw [Template.eq_none_of_splits count split] at extracted
      exact .inr ⟨front, extracted⟩

end Built

def searchTemplate : Text := "search?sort=:sort".toList

def searchParams : Params := [("sort".toList, .text "asc".toList), ("q".toList, .text "x".toList)]

def searchFragment : Text := "search?sort=asc&q=x".toList

theorem supplies_search : Supplies ⟨.bracket, {}, .logging⟩ searchTemplate searchParams where
  distinct := by decide
  suits := by
    unfold Suits
    decide +kernel
  others := List.ne_nil_of_length_pos (by decide +kernel)
  unsuffixed := unsuffixed_beyond _ (by decide +kernel)

theorem build_restores_iff_search :
    let codec : Codec := ⟨.bracket, {}, .logging⟩
    codec.layout = .bracket ∧ Wire.IsUtf8 codec.settings.encoding ∧
      Supplies codec searchTemplate searchParams ∧
      fromParams codec searchTemplate searchParams.entries = .ok searchFragment ∧
      ∃ object values, (({} : Template.Compiler).compile searchTemplate).1 = .ok object ∧
        (extract codec object.compiled.matcher searchFragment).1 = .ok (some values) ∧
        values.getLast? = some .null := by
  intro codec
  have built : fromParams codec searchTemplate searchParams.entries = .ok searchFragment := by
    decide +kernel
  have matched : (({} : Template.Compiler).compile searchTemplate).1.toOption.any
      fun object => (object.compiled.matcher.captures? searchFragment).isSome := by
    decide +kernel
  cases compiled : (({} : Template.Compiler).compile searchTemplate).1 with
  | error fault =>
      rw [compiled] at matched
      cases matched
  | ok object =>
      rw [compiled] at matched
      have accepted : (object.compiled.matcher.captures? searchFragment).isSome = true := matched
      obtain ⟨_, _, _, _, _, _, _, _, loses⟩ :=
        build_restores_iff rfl Codec.isUtf8_default compiled supplies_search built
      have stars : Template.starsNamed searchTemplate = true := by decide +kernel
      rcases loses (by decide) (by decide) stars with missed | ⟨front, extracted⟩
      · rw [extract_eq_none_iff] at missed
        rw [missed] at accepted
        cases accepted
      · exact ⟨rfl, Codec.isUtf8_default, supplies_search, built, object, _, rfl, extracted,
          List.getLast?_concat⟩

def allTemplate : Text := "docs(/all)".toList

def allParams : Params := [("x".toList, .text "1".toList)]

def allFragment : Text := "docs(/all)?x=1".toList

theorem supplies_all : Supplies ⟨.bracket, {}, .logging⟩ allTemplate allParams where
  distinct := by decide
  suits := by
    unfold Suits
    decide +kernel
  others := List.ne_nil_of_length_pos (by decide +kernel)
  unsuffixed := unsuffixed_beyond _ (by decide +kernel)

/-- The parentheses are copied, so the template does not know its own fragment. -/
theorem not_restores_all :
    let codec : Codec := ⟨.bracket, {}, .logging⟩
    Supplies codec allTemplate allParams ∧
      fromParams codec allTemplate allParams.entries = .ok allFragment ∧
      ∃ object, (({} : Template.Compiler).compile allTemplate).1 = .ok object ∧
        (extract codec object.compiled.matcher allFragment).1 = .ok none ∧
        ∀ query, ¬ Restores codec object.compiled.matcher allFragment query := by
  intro codec
  have built : fromParams codec allTemplate allParams.entries = .ok allFragment := by
    decide +kernel
  have missed : (({} : Template.Compiler).compile allTemplate).1.toOption.any
      fun object => (object.compiled.matcher.captures? allFragment).isNone := by
    decide +kernel
  cases compiled : (({} : Template.Compiler).compile allTemplate).1 with
  | error fault =>
      rw [compiled] at missed
      cases missed
  | ok object =>
      rw [compiled] at missed
      have nothing : (extract codec object.compiled.matcher allFragment).1 = .ok none :=
        extract_eq_none_iff.mpr (Option.isNone_iff_eq_none.mp missed)
      refine ⟨supplies_all, built, object, rfl, nothing, fun query restores => ?_⟩
      obtain ⟨_, _, _, extracted, _⟩ := restores
      cases nothing.symm.trans extracted

end FragmentRouting.Fragment
