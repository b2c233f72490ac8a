import FragmentRouting.Proofs.Router.Run
import FragmentRouting.Proofs.Router.Search
import FragmentRouting.Proofs.Template.Compiled

namespace FragmentRouting

namespace Fragment

theorem normalize_suffix (stripSlash : Bool) {path : Text} (trimmed : Text.trimEnd path = path) :
    Text.trimEnd (normalize stripSlash path) = normalize stripSlash path ∧
      normalize stripSlash path <:+ path := by
  have bare := Text.dropLead_suffix '#' path
  have stripped := (Text.dropLead_suffix '/' (Text.dropLead '#' path)).trans bare
  cases stripSlash with
  | true =>
      have same := Text.trimEnd_of_suffix trimmed stripped
      simp only [normalize, if_true, same]
      exact ⟨trivial, stripped⟩
  | false =>
      have same := Text.trimEnd_of_suffix trimmed bare
      simp only [normalize, Bool.false_eq_true, if_false, same]
      exact ⟨trivial, bare⟩

theorem normalize_append_query (stripSlash : Bool) {path : Text}
    (trimmed : Text.trimEnd path = path) (query : Text) :
    normalize stripSlash (path ++ '?' :: query) =
      normalize stripSlash path ++ '?' :: Text.trimEnd query := by
  have shown : Text.isBlank '?' = false := by decide
  have bare := Text.dropLead_suffix '#' path
  have stripped := (Text.dropLead_suffix '/' (Text.dropLead '#' path)).trans bare
  cases stripSlash with
  | true =>
      simp only [normalize, if_true]
      rw [Text.dropLead_append (by decide), Text.dropLead_append (by decide),
        Text.trimEnd_append shown, Text.trimEnd_of_suffix trimmed stripped]
  | false =>
      simp only [normalize, Bool.false_eq_true, if_false]
      rw [Text.dropLead_append (by decide), Text.trimEnd_append shown,
        Text.trimEnd_of_suffix trimmed bare]

end Fragment

namespace Router

variable {stripSlash : Bool} {codec : Codec} {router : Router}

theorem extract_of_sound {host : Template.Host} (sound : router.Sound stripSlash codec host)
    (matcher : Matcher) (fragment : Text) :
    router.extract matcher fragment = Fragment.extract codec matcher fragment := by
  obtain ⟨compiler, queries, _⟩ := sound.support
  rw [extract, queries]

/-- A query at the end of a fragment has no influence on its route, and on its parameters no more
than that the last one is the query's map and not null. -/
theorem find_append_query (stripSlash : Bool) (codec : Codec) (commands : List Command)
    (unqueried : ∀ route ∈
      ((withQueries stripSlash codec Template.standardHost).replay commands).routes,
        '?' ∉ route.template)
    (path : Text) (plain : '?' ∉ path) (trimmed : Text.trimEnd path = path)
    (query : Text) (line : '\n' ∉ query) :
    let router := (withQueries stripSlash codec Template.standardHost).replay commands
    (router.find path).1 = .ok none ∧ (router.find (path ++ '?' :: query)).1 = .ok none ∨
      ∃ route params, (router.find path).1 = .ok (some ⟨route, params ++ [.null]⟩) ∧
        (router.find (path ++ '?' :: query)).1 =
          (codec.deserialize (Text.trimEnd query)).1.map fun map =>
            some ⟨route, params ++ [map.toValue]⟩ := by
  intro router
  have sound : router.Sound stripSlash codec Template.standardHost :=
    sound_withQueries.replay commands
  let bare := Fragment.normalize stripSlash path
  let suffix := Text.trimEnd query
  obtain ⟨bareTrimmed, bareSuffix⟩ := Fragment.normalize_suffix stripSlash trimmed
  have barePlain : '?' ∉ bare := fun mark => plain (bareSuffix.subset mark)
  have bareLine : '\n' ∉ suffix := fun feed =>
    line ((Text.trimEnd_prefix query).subset feed)
  have narrow (route : Route) (member : route ∈ router.routes) :
      ∃ parts, Template.Unqueried parts ∧ route.matcher.pattern = Template.narrowed parts := by
    obtain ⟨object, fresh, matcher⟩ := sound.routes route member
    rw [matcher]
    exact Template.compiled_unqueried (unqueried route member) fresh
  -- A route accepts both paths or neither, so both searches end at the same entry of the table.
  have first : router.routes.find? (·.matcher.accepts (bare ++ '?' :: suffix)) =
      router.routes.find? (·.matcher.accepts bare) := by
    apply List.find?_congr
    intro route member
    obtain ⟨parts, apart, narrow⟩ := narrow route member
    have alike := Fragment.captures?_append_query_eq_none_iff apart narrow barePlain bareTrimmed
      bareLine
    rw [Bool.eq_iff_iff, Matcher.accepts, Matcher.accepts, ← Option.ne_none_iff_isSome,
      ← Option.ne_none_iff_isSome]
    exact not_congr alike
  rw [find_eq, find_eq, sound.strips, Fragment.normalize_append_query stripSlash trimmed, first]
  cases found : router.routes.find? (·.matcher.accepts bare) with
  | none => exact .inl ⟨rfl, rfl⟩
  | some route =>
      obtain ⟨parts, apart, narrow⟩ := narrow route (List.mem_of_find?_eq_some found)
      have accepted := (List.find?_eq_some_iff_append.mp found).1
      obtain ⟨captures, matched⟩ := Option.isSome_iff_exists.mp accepted
      obtain ⟨front, without, with_⟩ := Fragment.extract_append_query codec apart narrow barePlain
        bareTrimmed bareLine matched
      refine .inr ⟨route, front, ?_, ?_⟩
      · change (router.outcomeAt bare route).1 = _
        rw [outcomeAt, extract_of_sound sound, without]
        rfl
      · change (router.outcomeAt (bare ++ '?' :: suffix) route).1 = _
        rw [outcomeAt, extract_of_sound sound, with_]
        cases (codec.deserialize suffix).1 <;> rfl

def pageCommands : List Command :=
  [.add { template := "files/*path".toList, name := "files".toList },
    .add { template := "page/:id".toList }, .remove "files".toList]

theorem find_append_query_page :
    let codec : Codec := ⟨.bracket, {}, .logging⟩
    let router := (withQueries true codec Template.standardHost).replay pageCommands
    (∀ route ∈ router.routes, '?' ∉ route.template) ∧
      '?' ∉ "#/page/9".toList ∧ Text.trimEnd "#/page/9".toList = "#/page/9".toList ∧
      '\n' ∉ "show=true ".toList ∧
      ∃ route params,
        (router.find "#/page/9".toList).1 = .ok (some ⟨route, params ++ [.null]⟩) ∧
        (router.find ("#/page/9".toList ++ '?' :: "show=true ".toList)).1 =
          (codec.deserialize (Text.trimEnd "show=true ".toList)).1.map fun map =>
            some ⟨route, params ++ [map.toValue]⟩ := by
  intro codec router
  have unqueried : ∀ route ∈ router.routes, '?' ∉ route.template := by
    decide +kernel
  have plain : '?' ∉ "#/page/9".toList := by decide
  have trimmed : Text.trimEnd "#/page/9".toList = "#/page/9".toList := by decide +kernel
  have line : '\n' ∉ "show=true ".toList := by decide
  refine ⟨unqueried, plain, trimmed, line, ?_⟩
  have matched : (router.find "#/page/9".toList).1.toOption.join.isSome = true := by
    decide +kernel
  rcases find_append_query true codec pageCommands unqueried _ plain trimmed _ line with
    ⟨missed, _⟩ | found
  · rw [missed] at matched
    cases matched
  · exact found

end Router

end FragmentRouting
