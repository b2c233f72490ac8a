import FragmentRouting.Proofs.Codec.Bracket
import FragmentRouting.Proofs.Fragment.Build
import FragmentRouting.Proofs.Template.Segments

namespace FragmentRouting

theorem Params.find?_entries (key : Text) (params : Params) :
    OrderedMap.find? (.text key) params.entries = OrderedMap.find? key params := by
  induction params with
  | nil => rfl
  | cons entry params ih =>
      change (if entry.1 == key then _ else OrderedMap.find? _ (Params.entries params)) = _
      rw [ih]
      rfl

namespace Fragment

open OrderedMap (Distinct keys)
open Template (Fills Piece Segmented Token narrowed piecePatterns pieces queryRun tokens)

def valueFor (params : Params) (t : Token) : Value := (OrderedMap.find? t.name params).getD .null

/-- The parameters that are not for any of some tokens. -/
def beyond (ts : List Token) (params : Params) : Params :=
  params.filter fun entry => !ts.any fun t => entry.1 == t.name

/-- Whether links of a template can lead back to some parameters: each token has a name of its own
and a value whose text suits it, and none of the other values is a text that would be read as an
item of a list. -/
structure Linkable (codec : Codec) (template : Text) (params : Params) : Prop where
  segmented : Segmented template
  names : ((tokens template).map Token.name).Nodup
  distinct : (keys params).Nodup
  supplied : ∀ t ∈ tokens template, ∃ v, (t.name, v) ∈ params ∧
    ∀ text ∈ (pathText codec v).toOption, t.kind.Admits text
  unsuffixed : ∀ key v, (key, v) ∈ beyond (tokens template) params → v.items? = none →
    ¬ Codec.listSuffix <:+ key

/-- What a link stands for: the texts of the values for its tokens, and what a query carries of the
other parameters, or null if there are none. -/
def linked (codec : Codec) (template : Text) (params : Params) : Except Fault (List Value) := do
  let texts ← (tokens template).mapM fun t => pathText codec (valueFor params t)
  let others := beyond (tokens template) params
  let carried ← others.carried
  return texts.map .text ++ [if others.isEmpty then .null else (Params.ofCarried carried).toValue]

theorem distinct_entries {params : Params} (distinct : (keys params).Nodup) :
    Distinct params.entries := by
  have apart : params.Pairwise fun a b => a.1 ≠ b.1 := List.pairwise_map.mp distinct
  refine List.pairwise_map.mpr (apart.imp fun {a b} differs => ?_)
  change (a.1 == b.1) = false
  exact beq_eq_false_iff_ne.mpr differs

/-- If no key ends in the suffix of lists, neither does one of the other parameters. -/
theorem unsuffixed_beyond (ts : List Token) {params : Params}
    (plain : ∀ entry ∈ params, ¬ Codec.listSuffix <:+ entry.1) (key : Text) (v : Value)
    (member : (key, v) ∈ beyond ts params) (_ : v.items? = none) : ¬ Codec.listSuffix <:+ key :=
  plain (key, v) (List.mem_of_mem_filter member)

theorem leftover_entries (ts : List Token) (params : Params) :
    leftover ts params.entries = (beyond ts params).entries := List.filter_map

theorem ofArguments_params (codec : Codec) (template : Text) (params : Params) :
    ofArguments codec template [params.toValue] = fromParams codec template params.entries := by
  have texts : (Value.map params.entries).isQueryMap = true := by
    refine List.all_eq_true.mpr fun entry member => ?_
    obtain ⟨param, _, rfl⟩ := List.mem_map.mp member
    rfl
  exact (if_pos texts).trans (if_pos rfl)

theorem lookedUp_of_nodup {ts : List Token} (names : (ts.map Token.name).Nodup)
    (entries : List (Value × Value)) :
    lookedUp ts entries =
      ts.map fun t => (OrderedMap.find? (.text t.name) entries).getD .null := by
  induction ts generalizing entries with
  | nil => rfl
  | cons t ts ih =>
      obtain ⟨new, names⟩ := List.nodup_cons.mp names
      rw [lookedUp, ih names, List.map_cons]
      refine congrArg (_ :: ·) (List.map_congr_left fun other member => ?_)
      have differs : other.name ≠ t.name := fun same => new (same ▸ List.mem_map_of_mem member)
      rw [OrderedMap.find?_erase_of_ne (Value.exact_text other.name)
        fun same => differs (Value.text.inj same).symm]

theorem filled_map (ts : List Token) (f : Token → Value) :
    filled ts (ts.map f) = ts.map fun t => (t, f t) := by
  induction ts with
  | nil => rfl
  | cons t ts ih => exact congrArg _ ih

theorem filled_entries {ts : List Token} (names : (ts.map Token.name).Nodup) (params : Params) :
    filled ts (lookedUp ts params.entries) = ts.map fun t => (t, valueFor params t) := by
  simp only [lookedUp_of_nodup names, Params.find?_entries]
  exact filled_map ts (valueFor params)

theorem Linkable.suits {codec : Codec} {template : Text} {params : Params}
    (linkable : Linkable codec template params) :
    Suits codec ((tokens template).map fun t => (t, valueFor params t)) := by
  intro pair member
  obtain ⟨t, listed, rfl⟩ := List.mem_map.mp member
  obtain ⟨v, given, admits⟩ := linkable.supplied t listed
  have value : valueFor params t = v := by
    rw [valueFor, OrderedMap.find?_of_mem linkable.distinct given]
    rfl
  change ∀ text ∈ (pathText codec (valueFor params t)).toOption, _
  rw [value]
  exact admits

/-- A fragment that parameters are built into is the template, filled with the texts of the values,
and the query of the other parameters. -/
theorem fills_of_fromParams {codec : Codec} {template : Text} {params : Params}
    (distinct : (keys params).Nodup)
    (suits : Suits codec (filled (tokens template) (lookedUp (tokens template) params.entries)))
    {fragment : Text} (built : fromParams codec template params.entries = .ok fragment) :
    ∃ texts path query,
      (filled (tokens template) (lookedUp (tokens template) params.entries)).mapM
          (pathText codec ·.2) = .ok texts ∧
        Fills (pieces template) texts path ∧
        codec.serialize (beyond (tokens template) params).entries = .ok query ∧
        fragment = appendQuery path query := by
  rw [fromParams, fillByName_eq codec _ (distinct_entries distinct)] at built
  obtain ⟨⟨path, left⟩, rendered, queried⟩ := bind_eq_ok_iff.mp built
  obtain ⟨path', inOrder, pair⟩ := map_eq_ok_iff.mp rendered
  obtain ⟨rfl, rfl⟩ := Prod.mk.inj pair
  obtain ⟨query, serialized, same⟩ := withQuery_eq_ok queried
  change codec.serialize (leftover (tokens template) params.entries) = .ok query at serialized
  rw [leftover_entries] at serialized
  obtain ⟨texts, formatted, fills⟩ := fills_of_fillInOrder suits inOrder
  exact ⟨texts, path', query, formatted, fills, serialized, same⟩

theorem Linkable.fills {codec : Codec} {template : Text} {params : Params}
    (linkable : Linkable codec template params) {fragment : Text}
    (built : fromParams codec template params.entries = .ok fragment) :
    ∃ texts path query,
      (tokens template).mapM (fun t => pathText codec (valueFor params t)) = .ok texts ∧
      Fills (pieces template) texts path ∧
      codec.serialize (beyond (tokens template) params).entries = .ok query ∧
      fragment = appendQuery path query := by
  have values := filled_entries linkable.names params
  have suits : Suits codec (filled (tokens template) (lookedUp (tokens template) params.entries)) :=
    values ▸ linkable.suits
  obtain ⟨texts, path, query, formatted, others⟩ :=
    fills_of_fromParams linkable.distinct suits built
  rw [values, List.mapM_map] at formatted
  exact ⟨texts, path, query, formatted, others⟩

section Filled

variable (codec : Codec) {ps : List Piece} {texts : List Text} {path : Text}
  (fills : Fills ps texts path) (unique : ∀ others, Fills ps others path → others = texts)
  (unmarked : '?' ∉ path) {matcher : Matcher}
  (pattern : matcher.pattern = narrowed (.start :: piecePatterns queryRun 0 ps))

include fills unique unmarked pattern

theorem extract_of_fills (ended : path.getLast? ≠ some '\n') :
    (extract codec matcher path).1 = .ok (some (texts.map .text ++ [.null])) := by
  have matched := Template.captures?_of_fills fills unique unmarked ended
  rw [← captures?_narrowed pattern] at matched
  rw [extract_of_captures? matched, decode_plain codec List.getLast?_concat, List.map_append,
    List.map_map]
  rfl

theorem extract_query_of_fills (plain : .literal '?' ∉ ps) {query : Text} (line : '\n' ∉ query) :
    (extract codec matcher (path ++ '?' :: query)).1 =
      (codec.deserialize query).1.map fun map => some (texts.map .text ++ [map.toValue]) := by
  have matched := Template.captures?_query_of_fills fills unique plain unmarked line
  rw [← captures?_narrowed pattern] at matched
  rw [extract_of_captures? matched, decode_concat codec List.getLast?_concat,
    List.dropLast_concat, List.map_map]
  cases (codec.deserialize query).1 <;> rfl

end Filled

section Bracket

variable {settings : Codec.Settings} (sink : Sink) (utf8 : Wire.IsUtf8 settings.encoding)

include utf8

theorem eq_nil_of_parse_nil {params : Params} {carried : OrderedMap Text Carried}
    (carries : params.carried = .ok carried)
    (parsed : Codec.parse (α := Char) ⟨.bracket, settings, sink⟩ [] =
      .ok (Params.ofCarried carried)) :
    params = [] := by
  have framed : ∀ pair ∈ ([] : List (Wire.Pair Text)), pair.2 = none → pair.1 ≠ [] :=
    List.forall_mem_nil _
  have nothing : Codec.parse (α := Char) ⟨.bracket, settings, sink⟩ [] = .ok [] :=
    Codec.parse_bracket sink utf8 framed
  have none_ : Params.ofCarried carried = [] := Except.ok.inj (parsed.symm.trans nothing)
  have keys_ := Params.keys_carried carries
  rw [List.map_eq_nil_iff.mp none_] at keys_
  exact List.map_eq_nil_iff.mp keys_.symm

/-- A link matches its template, and its parameters are what the link stands for. -/
theorem extract_link {template : Text} {params : Params}
    (linkable : Linkable ⟨.bracket, settings, sink⟩ template params) {fragment : Text}
    (built : fromParams ⟨.bracket, settings, sink⟩ template params.entries = .ok fragment)
    (trimmed : Text.trimEnd fragment = fragment) {compiled : Template.Compiled}
    (fresh : (Template.compileFresh Template.standardHost {} template).1 = .ok compiled) :
    ∃ values, linked ⟨.bracket, settings, sink⟩ template params = .ok values ∧
      (extract ⟨.bracket, settings, sink⟩ compiled.matcher fragment).1 =
        .ok (some values) := by
  obtain ⟨texts, path, query, formatted, fills, serialized, rfl⟩ :=
    linkable.fills built
  have ordinary := linkable.segmented.ordinary
  have plain : .literal '?' ∉ pieces template := fun mark => (ordinary _ mark).2 rfl
  have unmarked : '?' ∉ path := by
    apply mark_not_mem_of_spells plain
    exact fills.spells (fun opening => (ordinary _ opening).1.1 rfl)
      (fun closing => (ordinary _ closing).1.2.1 rfl)
  have unique (others : List Text) (filled : Fills (pieces template) others path) :
      others = texts := linkable.segmented.fills_unique filled fills
  have compiles := Template.compileFresh_pieces fun p member => (ordinary p member).1
  have pattern : compiled.matcher.pattern =
      narrowed (.start :: piecePatterns queryRun 0 (pieces template)) := by
    rw [Except.ok.inj (fresh.symm.trans compiles)]
  have others : (keys (beyond (tokens template) params)).Nodup :=
    linkable.distinct.sublist (List.filter_sublist.map _)
  obtain ⟨carried, carries, parsed⟩ :=
    Codec.parse_of_serialize_bracket utf8 others linkable.unsuffixed serialized
  have stands : linked ⟨.bracket, settings, sink⟩ template params = .ok (texts.map .text ++
      [if (beyond (tokens template) params).isEmpty then .null
        else (Params.ofCarried carried).toValue]) := by
    simp only [linked, formatted, ok_bind, carries]
    rfl
  refine ⟨_, stands, ?_⟩
  -- Without leftovers no query was appended, and the last capture is unset.
  by_cases empty : beyond (tokens template) params = []
  · rw [empty] at serialized ⊢
    have nothing : query = [] := Except.ok.inj serialized.symm
    rw [nothing] at trimmed ⊢
    have ended : path.getLast? ≠ some '\n' := Text.getLast?_ne_of_trimEnd trimmed (by decide)
    exact extract_of_fills _ fills unique unmarked pattern ended
  · have some_ : query ≠ [] := by
      intro nothing
      rw [nothing] at parsed
      exact empty (eq_nil_of_parse_nil sink utf8 carries parsed)
    have line : '\n' ∉ query := not_mem_of_serialize serialized (by decide)
    rw [appendQuery_of_not_mem unmarked some_,
      extract_query_of_fills _ fills unique unmarked pattern plain line,
      Codec.deserialize_of_parse parsed, if_neg fun isEmpty => empty (List.isEmpty_iff.mp isEmpty)]
    rfl

end Bracket

end Fragment

end FragmentRouting
