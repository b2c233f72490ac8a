import FragmentRouting.Codec.Registry
import FragmentRouting.Proofs.Charset.Utf8
import FragmentRouting.Proofs.Except

/-!
Texts of the caller as code points. Whatever consists of characters is written the same, whether
they stand as characters or as code points; half a surrogate pair cannot be written at all.
-/
namespace FragmentRouting

/-! ### Letters -/

namespace CodePoint

theorem code_ofChar (c : Char) : Alphabet.code (ofChar c) = c.toNat := by
  have valid : c.toNat < 0xD800 ∨ 0xDFFF < c.toNat ∧ c.toNat < 0x110000 := c.valid
  exact Nat.mod_eq_of_lt (by omega)

theorem isSurrogate_eq_false_iff (n : Nat) :
    CodePoints.isSurrogate n = false ↔ n < 0xD800 ∨ 0xDFFF < n := by
  simp only [CodePoints.isSurrogate, CodePoints.isHighSurrogate, CodePoints.isLowSurrogate,
    Bool.or_eq_false_iff, Bool.and_eq_false_iff, decide_eq_false_iff_not]
  omega

theorem char?_ofChar (c : Char) : Alphabet.char? (ofChar c) = some c := by
  have code : (ofChar c).val = c.toNat := code_ofChar c
  have whole : CodePoints.isSurrogate (ofChar c).val = false := by
    rw [code, isSurrogate_eq_false_iff]
    exact c.valid.imp_right And.left
  refine (if_neg (ne_true_of_eq_false whole)).trans ?_
  rw [code, Char.ofNat_toNat]

theorem eq_ofChar {p : CodePoint} {c : Char} (h : Alphabet.char? p = some c) : p = ofChar c := by
  obtain ⟨whole, same⟩ := Option.ite_none_left_eq_some.mp h
  have valid : p.val.isValidChar := by
    rcases (isSurrogate_eq_false_iff p).mp (eq_false_of_ne_true whole) with low | high
    · exact .inl low
    · exact .inr ⟨high, p.isLt⟩
  have code : c.toNat = p.val := by
    rw [← Option.some.inj same, Char.toNat_ofNat, if_pos valid]
  exact Fin.ext (code.symm.trans (code_ofChar c).symm)

end CodePoint

theorem codes_ofText (t : Text) :
    (Alphabet.ofText t : List CodePoint).map Alphabet.code = t.map Alphabet.code := by
  refine List.map_map.trans (List.map_congr_left fun c _ => ?_)
  exact CodePoint.code_ofChar c

theorem joinWith_ofText (separator : Text) (parts : List Text) :
    Text.joinWith (Alphabet.ofText separator) (parts.map Alphabet.ofText) =
      (Alphabet.ofText (Text.joinWith separator parts) : List CodePoint) := by
  induction parts with
  | nil => rfl
  | cons part parts ih =>
      cases parts with
      | nil =>
          simp only [List.map_cons, List.map_nil, Text.joinWith, List.intercalate_singleton]
      | cons second parts =>
          simp only [List.map_cons, Text.joinWith, List.intercalate_cons_cons] at ih ⊢
          rw [ih]
          simp only [Alphabet.ofText, List.map_append]

/-! ### Character sets -/

namespace Charset

variable (charset : Charset)

theorem encodeLetter?_ofChar (c : Char) :
    charset.encodeLetter? (CodePoint.ofChar c) = charset.encodeLetter? c := by
  rw [encodeLetter?, CodePoint.char?_ofChar]
  rfl

theorem encodeFrom_ofText (position : Nat) (t : Text) :
    charset.encodeFrom position (Alphabet.ofText t : List CodePoint) =
      charset.encodeFrom position t := by
  induction t generalizing position with
  | nil => rfl
  | cons c t ih =>
      have rest : charset.encodeFrom (position + 1) (t.map CodePoint.ofChar) =
          charset.encodeFrom (position + 1) t := ih (position + 1)
      have missing : (fun d => (charset.encodeLetter? (CodePoint.ofChar d)).isNone) =
          fun d => (charset.encodeLetter? d).isNone :=
        funext fun d => congrArg Option.isNone (charset.encodeLetter?_ofChar d)
      have run : (t.map CodePoint.ofChar).takeWhile (fun b => (charset.encodeLetter? b).isNone) =
          Alphabet.ofText (t.takeWhile fun b => (charset.encodeLetter? b).isNone) := by
        rw [List.takeWhile_map, Function.comp_def, missing]
        rfl
      change charset.encodeFrom position (CodePoint.ofChar c :: t.map CodePoint.ofChar) = _
      simp only [encodeFrom, encodeLetter?_ofChar, rest, run, List.map_cons, codes_ofText,
        CodePoint.code_ofChar]
      rfl

theorem exists_eq_ofText {position : Nat} {t : List CodePoint} {bytes : List UInt8}
    (h : charset.encodeFrom position t = .ok bytes) : ∃ s : Text, t = Alphabet.ofText s := by
  induction t generalizing position bytes with
  | nil => exact ⟨[], rfl⟩
  | cons p t ih =>
      unfold encodeFrom at h
      split at h
      next own found =>
          obtain ⟨c, char, -⟩ := Option.bind_eq_some_iff.mp found
          obtain ⟨others, rest, -⟩ := map_eq_ok_iff.mp h
          obtain ⟨s, rfl⟩ := ih rest
          exact ⟨c :: s, congrArg (· :: _) (CodePoint.eq_ofChar char)⟩
      next => cases h

/-- A text can be written in UTF-8 if and only if it consists of characters. -/
theorem exists_encode_utf8_iff {t : List CodePoint} :
    (∃ bytes, Charset.utf8.encode t = .ok bytes) ↔ ∃ s : Text, t = Alphabet.ofText s := by
  constructor
  · rintro ⟨bytes, written⟩
    exact exists_eq_ofText .utf8 written
  · rintro ⟨s, rfl⟩
    exact ⟨_, (encodeFrom_ofText .utf8 0 s).trans (encodeFrom_utf8 0 s)⟩

end Charset

/-! ### Values -/

namespace Value

mutual

/-- A value with its texts in code points. -/
def spelled : Value → Value CodePoint
  | .null => .null
  | .bool b => .bool b
  | .int n => .int n
  | .float x => .float x
  | .text t => .text (Alphabet.ofText t)
  | .bytes b => .bytes b
  | .date d => .date d
  | .moment m => .moment m
  | .list items => .list (spelledItems items)
  | .tuple items => .tuple (spelledItems items)
  | .set members => .set (spelledItems members)
  | .map entries => .map (spelledEntries entries)

def spelledItems : List Value → List (Value CodePoint)
  | [] => []
  | item :: rest => item.spelled :: spelledItems rest

def spelledEntries : List (Value × Value) → List (Value CodePoint × Value CodePoint)
  | [] => []
  | (key, value) :: rest => (key.spelled, value.spelled) :: spelledEntries rest

end

theorem spelledItems_eq_map (items : List Value) : spelledItems items = items.map spelled := by
  induction items with
  | nil => rfl
  | cons item items ih => rw [spelledItems, ih, List.map_cons]

theorem items?_spelled (v : Value) : v.spelled.items? = v.items?.map (List.map spelled) := by
  cases v with
  | list items => exact congrArg some (spelledItems_eq_map items)
  | tuple items => exact congrArg some (spelledItems_eq_map items)
  | _ => rfl

mutual

theorem shown_spelled : ∀ v : Value, v.spelled.shown = v.shown
  | .null | .int _ | .float _ | .bytes _ | .date _ | .moment _ => by simp only [spelled, shown]
  | .bool true => by simp only [spelled, shown]
  | .bool false => by simp only [spelled, shown]
  | .text t => by simp only [spelled, shown, codes_ofText]
  | .list items => by simp only [spelled, shown, shownItems_spelled items]
  | .tuple items => by simp only [spelled, shown, shownItems_spelled items]
  | .set members => by simp only [spelled, shown, shownItems_spelled members]
  | .map entries => by simp only [spelled, shown, shownEntries_spelled entries]

theorem shownItems_spelled :
    ∀ items : List Value, shownItems (spelledItems items) = shownItems items
  | [] => rfl
  | item :: rest => by
      simp only [spelledItems, shownItems, shown_spelled item, shownItems_spelled rest]

theorem shownEntries_spelled :
    ∀ entries : List (Value × Value), shownEntries (spelledEntries entries) = shownEntries entries
  | [] => rfl
  | (key, value) :: rest => by
      simp only [spelledEntries, shownEntries, shown_spelled key, shown_spelled value,
        shownEntries_spelled rest]

end

theorem plain_spelled (v : Value) :
    v.spelled.plain = v.plain.map (Alphabet.ofText (α := CodePoint)) := by
  have written (words : Except Fault Text) :
      (do return Alphabet.ofText (← words) : Except Fault (List CodePoint)) =
        Except.map Alphabet.ofText (do return Alphabet.ofText (α := Char) (← words)) := by
    cases words <;> rfl
  have same := shown_spelled v
  cases v with
  | text t => rfl
  | date d => rfl
  | moment m => rfl
  | _ =>
      rw [spelled] at same ⊢
      rw [plain, same]
      · exact written _
      all_goals exact nofun

theorem format_spelled (v : Value) :
    v.spelled.format = v.format.map (Alphabet.ofText (α := CodePoint)) := by
  have same := plain_spelled v
  cases v with
  | null => rfl
  | bool b => cases b <;> rfl
  | _ => exact same

theorem formatAll_spelled (items : List Value) :
    formatAll (items.map spelled) =
      (formatAll items).map (List.map (Alphabet.ofText (α := CodePoint))) :=
  mapM_image format_spelled items

end Value

/-! ### Queries -/

namespace Wire

variable (encoding : Encoding)

theorem Transcoder.encode_ofText (t : Text) (transcoder : Transcoder) :
    transcoder.encode (Alphabet.ofText t : List CodePoint) = transcoder.encode t := by
  cases transcoder with
  | known charset => exact congrArg (Except.mapError _) (charset.encodeFrom_ofText 0 t)
  | foreign charset => exact congrArg charset.encode (codes_ofText t)

theorem quote_ofText (t : Text) :
    quote encoding (Alphabet.ofText t : List CodePoint) = quote encoding t := by
  have empty : (Alphabet.ofText t : List CodePoint).isEmpty = t.isEmpty := by
    cases t <;> rfl
  simp only [quote, empty, Transcoder.encode_ofText]

theorem quoteKey_spelled (key : Value) : quoteKey encoding key.spelled = quoteKey encoding key := by
  rcases encoding with ⟨setting, others⟩
  cases key with
  | text t => exact quote_ofText _ t
  | _ => cases setting <;> rfl

def spelledPair (pair : Pair Value) : Pair (Value CodePoint) CodePoint :=
  (pair.1.spelled, pair.2.map Alphabet.ofText)

theorem spelledPair_values (key : Value) (ts : List Text) :
    (ts.map Alphabet.ofText).map (fun t => (key.spelled, some t)) =
      (ts.map fun t => (key, some t)).map spelledPair := by
  rw [List.map_map, List.map_map]
  rfl

theorem writePairs_spelled (pairs : List (Pair Value)) :
    writePairs encoding (pairs.map spelledPair) = writePairs encoding pairs := by
  have each : writePair encoding ∘ spelledPair = writePair encoding := by
    funext pair
    rcases pair with ⟨key, _ | value⟩
    · exact quoteKey_spelled encoding key
    · simp only [Function.comp_apply, writePair, spelledPair, Option.map_some, quoteKey_spelled,
        quote_ofText]
  simp only [writePairs, List.mapM_map, each]

end Wire

/-! ### JSON -/

namespace Json

theorem writeText_ofText (t : Text) :
    writeText (Alphabet.ofText t : List CodePoint) = writeText t := by
  have letter : (fun c => writeLetter (CodePoint.ofChar c)) = writeLetter := by
    funext c
    rw [writeLetter, CodePoint.char?_ofChar]
    rfl
  have letters : (t.map CodePoint.ofChar).flatMap writeLetter = t.flatMap writeLetter := by
    rw [List.flatMap_map, letter]
  exact congrArg (fun inner => '"' :: (inner ++ ['"'])) letters

theorem writeKey_spelled (key : Value) : writeKey key.spelled = writeKey key := by
  cases key with
  | text t => exact congrArg Except.ok (writeText_ofText t)
  | bool b => cases b <;> rfl
  | _ => rfl

mutual

theorem write_spelled : ∀ (nesting : Nat) (v : Value), write nesting v.spelled = write nesting v
  | _, .text t => by simp only [Value.spelled, write, writeText_ofText]
  | _, .list items => by simp only [Value.spelled, write, writeItems_spelled _ items]
  | _, .tuple items => by simp only [Value.spelled, write, writeItems_spelled _ items]
  | _, .map entries => by simp only [Value.spelled, write, writeEntries_spelled _ entries]
  | _, .bool true | _, .bool false => rfl
  | _, .null | _, .int _ | _, .float _ | _, .bytes _ | _, .date _ | _, .moment _ | _, .set _ => rfl

theorem writeItems_spelled : ∀ (nesting : Nat) (items : List Value),
    writeItems nesting (Value.spelledItems items) = writeItems nesting items
  | _, [] => rfl
  | nesting, item :: rest => by
      simp only [Value.spelledItems, writeItems, write_spelled nesting item,
        writeItems_spelled nesting rest]

theorem writeEntries_spelled : ∀ (nesting : Nat) (entries : List (Value × Value)),
    writeEntries nesting (Value.spelledEntries entries) = writeEntries nesting entries
  | _, [] => rfl
  | nesting, (key, value) :: rest => by
      simp only [Value.spelledEntries, writeEntries, writeKey_spelled key,
        write_spelled nesting value, writeEntries_spelled nesting rest]

end

end Json

/-! ### Layouts -/

namespace Codec

/-- Whether two layouts make the same pairs, one of characters and one of code points. -/
def Layout.Spells (layout : Layout) (layout' : Layout CodePoint) : Prop :=
  ∀ settings (key v : Value), layout'.encode settings key.spelled v.spelled =
    (layout.encode settings key v).map (List.map Wire.spelledPair)

theorem spells_standard : Layout.Spells .standard .standard := by
  intro settings key v
  change encodeRepeated key.spelled v.spelled = (encodeRepeated key v).map _
  unfold encodeRepeated
  rw [Value.items?_spelled, Value.format_spelled]
  cases v.items? with
  | none => cases v.format <;> rfl
  | some items =>
      simp only [Option.map_some, Value.formatAll_spelled]
      cases Value.formatAll items with
      | error fault => rfl
      | ok ts => exact congrArg Except.ok (Wire.spelledPair_values key ts)

theorem joinItems_spelled (settings : Settings) (items : List Value) :
    joinItems settings (items.map Value.spelled) =
      (joinItems settings items).map (Alphabet.ofText (α := CodePoint)) := by
  unfold joinItems
  rw [Value.formatAll_spelled]
  cases settings.arrayDelimiter with
  | text delimiter =>
      cases Value.formatAll items with
      | error fault => rfl
      | ok ts => exact congrArg Except.ok (joinWith_ofText delimiter ts)
  | bytes b =>
      match Value.formatAll items with
      | .error fault => rfl
      | .ok [] => cases settings.encoding.setting <;> rfl
      | .ok (t :: ts) => cases settings.encoding.setting <;> rfl
  | _ => rfl

theorem spells_delimited : Layout.Spells .delimited .delimited := by
  intro settings key v
  change encodeJoined settings key.spelled v.spelled = (encodeJoined settings key v).map _
  unfold encodeJoined
  rw [Value.items?_spelled, Value.format_spelled]
  cases v.items? with
  | none => cases v.format <;> rfl
  | some items =>
      simp only [Option.map_some, joinItems_spelled]
      cases joinItems settings items <;> rfl

theorem suffixed_spelled (key : Value) :
    suffixed key.spelled = (suffixed key).map Value.spelled := by
  cases key with
  | text t => simp only [Value.spelled, suffixed, Except.map, Alphabet.ofText, List.map_append]
  | _ => rfl

theorem spells_bracket : Layout.Spells .bracket .bracket := by
  intro settings key v
  change encodeBracket key.spelled v.spelled = (encodeBracket key v).map _
  unfold encodeBracket
  rw [Value.items?_spelled, Value.format_spelled, suffixed_spelled]
  match v.items? with
  | none => cases v.format <;> rfl
  | some [] => cases suffixed key <;> rfl
  | some (item :: rest) =>
      have formatted := Value.formatAll_spelled (item :: rest)
      simp only [Option.map_some, List.map_cons] at formatted ⊢
      rw [formatted]
      cases suffixed key with
      | error fault => rfl
      | ok key =>
          cases Value.formatAll (item :: rest) with
          | error fault => rfl
          | ok ts => exact congrArg Except.ok (Wire.spelledPair_values key ts)

theorem spells_json : Layout.Spells .json .json := by
  intro settings key v
  have written (words : Except Fault Text) :
      (do return [(key.spelled, some (Alphabet.ofText (α := CodePoint) (← words)))]) =
        Except.map (List.map Wire.spelledPair)
          (do return [(key, some (Alphabet.ofText (← words)))]) := by
    cases words <;> rfl
  change (do return [(key.spelled, some (Alphabet.ofText (← Json.write _ v.spelled)))]) = _
  rw [Json.write_spelled]
  exact written _

theorem spells_builtIn :
    List.Forall₂ (fun entry entry' => entry.1 = entry'.1 ∧ Layout.Spells entry.2 entry'.2)
      Registry.builtIn Registry.builtIn :=
  .cons ⟨rfl, spells_standard⟩ <| .cons ⟨rfl, spells_delimited⟩ <|
    .cons ⟨rfl, spells_bracket⟩ <| .cons ⟨rfl, spells_json⟩ .nil

def spelledParams (params : List (Value × Value)) : List (Value CodePoint × Value CodePoint) :=
  params.map fun (key, v) => (key.spelled, v.spelled)

variable {layout : Layout} {layout' : Layout CodePoint}

theorem encodePairs_spelled (spells : layout.Spells layout') (settings : Settings) (sink : Sink)
    (params : List (Value × Value)) :
    encodePairs ⟨layout', settings, sink⟩ (spelledParams params) =
      (encodePairs ⟨layout, settings, sink⟩ params).map (List.map Wire.spelledPair) := by
  induction params with
  | nil => rfl
  | cons entry params ih =>
      rcases entry with ⟨key, v⟩
      have first := spells settings key v
      change encodePairs _ ((key.spelled, v.spelled) :: spelledParams params) = _
      cases v with
      | map entries =>
          simp only [encodePairs, Value.spelled, Value.shown_spelled]
          cases key.shown <;> rfl
      | _ =>
          simp only [Value.spelled] at first
          simp only [encodePairs, Value.spelled, first, ih]
          cases layout.encode settings key _ with
          | error fault => rfl
          | ok own =>
              cases encodePairs ⟨layout, settings, sink⟩ params with
              | error fault => rfl
              | ok others => exact congrArg Except.ok List.map_append.symm

/-- Parameters of characters have the same query as their code points have. -/
theorem serialize_spelled (spells : layout.Spells layout') (settings : Settings) (sink : Sink)
    (params : List (Value × Value)) :
    serialize ⟨layout', settings, sink⟩ (spelledParams params) =
      serialize ⟨layout, settings, sink⟩ params := by
  rw [serialize, encodePairs_spelled spells, serialize]
  cases encodePairs ⟨layout, settings, sink⟩ params with
  | error fault => rfl
  | ok pairs => exact Wire.writePairs_spelled settings.encoding pairs

end Codec

end FragmentRouting
