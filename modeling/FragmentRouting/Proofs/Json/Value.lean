import FragmentRouting.Proofs.Codec.Carried
import FragmentRouting.Proofs.Json.Number
import FragmentRouting.Proofs.Json.Text

/-!
Values in JSON. A text denotes a value if the reader takes exactly this text for it, whatever comes
behind. Names, numerals and quoted texts denote their values, and lists and maps are denoted by what
denotes their parts, with commas between them.
-/
namespace FragmentRouting

namespace Json

/-- Whether a character can start a value: it is no blank, no closing bracket and no byte order
mark. -/
def Opens (c : Char) : Prop :=
  isSpace c = false ∧ c ≠ ']' ∧ c ≠ '\x7d' ∧ c ≠ '\ufeff'

instance (c : Char) : Decidable (Opens c) := inferInstanceAs (Decidable (_ ∧ _))

/-- Whether a text denotes a value where `depth` lists and maps may stand inside each other. -/
structure Denotes (depth : Nat) (text : Text) (v : Value) : Prop where
  opens : ∃ c rest, text = c :: rest ∧ Opens c
  reads : ∀ fuel rest, text.length ≤ fuel → EndsNumeral rest →
    readValue depth fuel (text ++ rest) = .ok (v, rest)

variable {depth : Nat}

theorem skipSpace_of_opens {c : Char} (opens : Opens c) (rest : Text) :
    skipSpace (c :: rest) = c :: rest :=
  List.dropWhile_cons_of_neg (Bool.eq_false_iff.mp opens.1)

theorem Denotes.skipSpace {text : Text} {v : Value} (denotes : Denotes depth text v) (rest : Text) :
    skipSpace (text ++ rest) = text ++ rest := by
  obtain ⟨c, others, rfl, opens⟩ := denotes.opens
  exact skipSpace_of_opens opens (others ++ rest)

theorem denotes_cons {c : Char} {t : Text} {v : Value} (opens : Opens c)
    (reads : ∀ fuel rest, t.length ≤ fuel → EndsNumeral rest →
      readValue depth (fuel + 1) (c :: (t ++ rest)) = .ok (v, rest)) :
    Denotes depth (c :: t) v where
  opens := ⟨c, t, rfl, opens⟩
  reads := by
    intro fuel rest enough ends
    cases fuel with
    | zero => exact absurd enough (Nat.not_succ_le_zero _)
    | succ fuel => exact reads fuel rest (Nat.le_of_succ_le_succ enough) ends

theorem denotes_text (t : Text) : Denotes depth (writeText t) (.text t) := by
  apply denotes_cons (by decide)
  intro fuel rest _ _
  rw [List.append_assoc, List.singleton_append, readValue, readString_writeText]
  rfl

theorem denotes_bare {c : Char} {t : Text} {v : Value} (opens : Opens c) (text : c ≠ '"')
    (list : c ≠ '[') (map : c ≠ '\x7b')
    (reads : ∀ rest, EndsNumeral rest →
      readNamed? (c :: (t ++ rest)) = some (v, rest) ∨
        readNamed? (c :: (t ++ rest)) = none ∧
          readNumber? (c :: (t ++ rest)) = some (.ok (v, rest))) :
    Denotes depth (c :: t) v := by
  apply denotes_cons opens
  intro fuel rest _ ends
  rw [readValue]
  · rcases reads rest ends with named | ⟨unnamed, number⟩
    · rw [named]
    · rw [unnamed, number]
      rfl
  · exact fun _ same => text (List.cons.inj same).1
  · exact fun _ same => list (List.cons.inj same).1
  · exact fun _ same => map (List.cons.inj same).1

theorem denotes_null : Denotes depth "null".toList .null :=
  denotes_bare (by decide) (by decide) (by decide) (by decide) fun _ _ => .inl rfl

theorem denotes_bool (b : Bool) :
    Denotes depth (if b then "true".toList else "false".toList) (.bool b) := by
  cases b with
  | true => exact denotes_bare (by decide) (by decide) (by decide) (by decide) fun _ _ => .inl rfl
  | false => exact denotes_bare (by decide) (by decide) (by decide) (by decide) fun _ _ => .inl rfl

theorem ne_of_isDigit {d c : Char} (digit : d.isDigit = true) (other : c.isDigit = false) :
    d ≠ c := by
  rintro rfl
  exact Bool.false_ne_true (other.symm.trans digit)

theorem opens_of_isDigit {d : Char} (digit : d.isDigit = true) : Opens d := by
  refine ⟨?_, ne_of_isDigit digit rfl, ne_of_isDigit digit rfl, ne_of_isDigit digit rfl⟩
  simp only [isSpace, Bool.or_eq_false_iff, beq_eq_false_iff_ne, and_assoc]
  exact ⟨ne_of_isDigit digit rfl, ne_of_isDigit digit rfl, ne_of_isDigit digit rfl,
    ne_of_isDigit digit rfl⟩

theorem readNamed?_digit {d : Char} (digit : d.isDigit = true) (rest : Text) :
    readNamed? (d :: rest) = none ∧ readNamed? ('-' :: d :: rest) = none := by
  have other (c : Char) (letter : c.isDigit = false) : (c == d) = false :=
    beq_eq_false_iff_ne.mpr (ne_of_isDigit digit letter).symm
  have names : named = [(['n', 'u', 'l', 'l'], .null), (['t', 'r', 'u', 'e'], .bool true),
      (['f', 'a', 'l', 's', 'e'], .bool false), (['N', 'a', 'N'], .float .nan),
      (['I', 'n', 'f', 'i', 'n', 'i', 't', 'y'], .float (.infinite false)),
      (['-', 'I', 'n', 'f', 'i', 'n', 'i', 't', 'y'], .float (.infinite true))] := rfl
  constructor
  · simp only [readNamed?, names, List.find?_cons, List.find?_nil, List.isPrefixOf,
      other 'n' rfl, other 't' rfl, other 'f' rfl, other 'N' rfl, other 'I' rfl, other '-' rfl,
      Bool.false_and, Option.map_none]
  · simp [readNamed?, names, List.isPrefixOf, other 'I' rfl]

theorem denotes_int {n : Int} (small : n.natAbs < 10 ^ digitLimit) :
    Denotes depth (Text.ofInt n) (.int n) := by
  cases n with
  | ofNat n =>
      obtain ⟨d, ds, digits, digit⟩ := Text.ofNat_eq_cons n
      have spelled : Text.ofInt (.ofNat n) = d :: ds := digits
      rw [spelled]
      apply denotes_bare (opens_of_isDigit digit) (ne_of_isDigit digit rfl)
        (ne_of_isDigit digit rfl) (ne_of_isDigit digit rfl)
      intro rest ends
      have number := readNumber?_ofInt small ends
      rw [spelled] at number
      exact .inr ⟨(readNamed?_digit digit _).1, number⟩
  | negSucc n =>
      obtain ⟨d, ds, digits, digit⟩ := Text.ofNat_eq_cons (n + 1)
      have spelled : Text.ofInt (.negSucc n) = '-' :: d :: ds := congrArg ('-' :: ·) digits
      rw [spelled]
      apply denotes_bare (by decide) (by decide) (by decide) (by decide)
      intro rest ends
      have number := readNumber?_ofInt small ends
      rw [spelled] at number
      exact .inr ⟨(readNamed?_digit digit _).2, number⟩

theorem joinWith_cons_cons (c : Char) (first second : Text) (parts : List Text) :
    Text.joinWith [c] (first :: second :: parts) =
      first ++ c :: Text.joinWith [c] (second :: parts) := by
  rw [Text.joinWith, List.intercalate_cons_cons, List.append_assoc]
  rfl

theorem exists_joinWith_cons (c : Char) (first : Text) (parts : List Text) :
    ∃ more, Text.joinWith [c] (first :: parts) = first ++ more := by
  cases parts with
  | nil => exact ⟨[], rfl⟩
  | cons second parts => exact ⟨_, joinWith_cons_cons c first second parts⟩

theorem opens_joinWith {text : Text} (opens : ∃ c rest, text = c :: rest ∧ Opens c)
    (texts : List Text) : ∃ c rest, Text.joinWith [','] (text :: texts) = c :: rest ∧ Opens c := by
  obtain ⟨c, t, rfl, opens⟩ := opens
  obtain ⟨more, begins⟩ := exists_joinWith_cons ',' (c :: t) texts
  exact ⟨c, t ++ more, begins, opens⟩

theorem skipSpace_joinWith {text : Text} (opens : ∃ c rest, text = c :: rest ∧ Opens c)
    (texts : List Text) (rest : Text) :
    skipSpace (Text.joinWith [','] (text :: texts) ++ rest) =
      Text.joinWith [','] (text :: texts) ++ rest := by
  obtain ⟨c, t, begins, opens⟩ := opens_joinWith opens texts
  rw [begins]
  exact skipSpace_of_opens opens (t ++ rest)

theorem endsNumeral_cons {c : Char} (mark : c ∈ [',', ']', '\x7d']) (rest : Text) :
    EndsNumeral (c :: rest) := by
  have stops : c.isDigit = false ∧ c ≠ '.' ∧ c ≠ 'e' ∧ c ≠ 'E' := by
    simp only [List.mem_cons, List.not_mem_nil, or_false] at mark
    rcases mark with rfl | rfl | rfl
    · decide
    · decide
    · decide
  intro d first
  rw [← Option.some.inj first]
  exact stops

theorem skipSpace_comma (rest : Text) : skipSpace (',' :: rest) = ',' :: rest := rfl

/-- Texts of items with commas between them read as the items. Each item takes fuel for one more
than its own characters, and the comma in front of it has it. -/
theorem readItems_joinWith {texts : List Text} {items : List Value}
    (denote : List.Forall₂ (Denotes depth) texts items) (some_ : texts ≠ []) :
    ∀ fuel rest, (Text.joinWith [','] texts).length < fuel →
      readItems depth fuel (Text.joinWith [','] texts ++ ']' :: rest) = .ok (items, rest) := by
  induction denote with
  | nil => exact absurd rfl some_
  | @cons text item texts items first others ih =>
      intro fuel rest enough
      obtain ⟨fuel, rfl⟩ : ∃ k, fuel = k + 1 := Nat.exists_eq_add_one.mpr (Nat.zero_lt_of_lt enough)
      cases others with
      | nil =>
          have alone : Text.joinWith [','] [text] = text := List.append_nil text
          rw [alone] at enough ⊢
          rw [readItems, first.reads fuel _ (Nat.le_of_lt_succ enough)
            (endsNumeral_cons (by decide) rest)]
          rfl
      | @cons text' item' texts items second others =>
          rw [joinWith_cons_cons] at enough ⊢
          rw [List.length_append, List.length_cons] at enough
          have shown := skipSpace_joinWith second.opens texts (']' :: rest)
          have others := ih (List.cons_ne_nil _ _) fuel rest (by omega)
          rw [List.append_assoc, List.cons_append, readItems, first.reads fuel _ (by omega)
            (endsNumeral_cons (by decide) _), ok_bind]
          simp only [skipSpace_comma, shown, others, ok_bind]
          rfl

theorem denotes_list {texts : List Text} {items : List Value}
    (denote : List.Forall₂ (Denotes depth) texts items) :
    Denotes (depth + 1) ('[' :: (Text.joinWith [','] texts ++ [']'])) (.list items) := by
  apply denotes_cons (by decide)
  intro fuel rest enough _
  rw [List.length_append, List.length_singleton] at enough
  rw [List.append_assoc, List.singleton_append, readValue]
  cases denote with
  | nil => rfl
  | @cons text item texts items first others =>
      have read := readItems_joinWith (.cons first others) (List.cons_ne_nil _ _) fuel rest enough
      obtain ⟨c, t, begins, opens⟩ := opens_joinWith first.opens texts
      rw [begins, List.cons_append] at read ⊢
      rw [skipSpace_of_opens opens]
      split
      next same => exact absurd (List.cons.inj same).1 opens.2.1
      next =>
          rw [read]
          rfl

/-- Whether a text denotes an entry of a map: its name, a colon and its value. -/
def DenotesMember (depth : Nat) (text : Text) (entry : Text × Value) : Prop :=
  ∃ value, Denotes depth value entry.2 ∧ text = writeText entry.1 ++ ':' :: value

theorem DenotesMember.opens {text : Text} {entry : Text × Value}
    (member : DenotesMember depth text entry) : ∃ c rest, text = c :: rest ∧ Opens c := by
  obtain ⟨value, _, rfl⟩ := member
  exact ⟨'"', _, rfl, by decide⟩

theorem writeText_append (name rest : Text) :
    writeText name ++ rest = '"' :: (name.flatMap writeLetter ++ '"' :: rest) := by
  rw [writeText, List.cons_append, List.append_assoc, List.singleton_append]

theorem readMembers_member {text : Text} {entry : Text × Value}
    (member : DenotesMember depth text entry) {before : Params}
    (fresh : entry.1 ∉ OrderedMap.keys before) {fuel : Nat} (enough : text.length ≤ fuel) {c : Char}
    (mark : c ∈ [',', ']', '\x7d']) (rest : Text) :
    readMembers depth (fuel + 1) before.entries (text ++ c :: rest) =
      match skipSpace (c :: rest) with
      | '\x7d' :: rest => .ok ((before ++ [entry]).entries, rest)
      | ',' :: rest => readMembers depth fuel (before ++ [entry]).entries (skipSpace rest)
      | rest => .error (.flaw .expectedComma rest.length) := by
  obtain ⟨value, denotes, rfl⟩ := member
  rw [List.length_append, List.length_cons] at enough
  have colon (rest : Text) : skipSpace (':' :: rest) = ':' :: rest := rfl
  rw [List.append_assoc, List.cons_append, writeText_append, readMembers, readString_writeText]
  simp only [ok_bind, colon, denotes.skipSpace,
    denotes.reads fuel _ (by omega) (endsNumeral_cons mark rest)]
  rw [Params.insert_entries, OrderedMap.insert_of_not_mem fresh]
  rfl

/-- Members with commas between them read, up to the closing brace, as their entries. -/
theorem readMembers_joinWith {texts : List Text} {params : Params}
    (denote : List.Forall₂ (DenotesMember depth) texts params) (some_ : texts ≠ []) :
    ∀ fuel (before : Params) rest, (Text.joinWith [','] texts).length < fuel →
      (OrderedMap.keys (before ++ params)).Nodup →
      readMembers depth fuel before.entries (Text.joinWith [','] texts ++ '\x7d' :: rest) =
        .ok ((before ++ params).entries, rest) := by
  induction denote with
  | nil => exact absurd rfl some_
  | @cons text entry texts params first others ih =>
      intro fuel before rest enough distinct
      obtain ⟨fuel, rfl⟩ : ∃ k, fuel = k + 1 := Nat.exists_eq_add_one.mpr (Nat.zero_lt_of_lt enough)
      have fresh : entry.1 ∉ OrderedMap.keys before := by
        rw [OrderedMap.keys, List.map_append, List.map_cons] at distinct
        exact fun known => (List.nodup_append.mp distinct).2.2 _ known _ List.mem_cons_self rfl
      cases others with
      | nil =>
          have alone : Text.joinWith [','] [text] = text := List.append_nil text
          rw [alone] at enough ⊢
          exact readMembers_member first fresh (Nat.le_of_lt_succ enough) (by decide) rest
      | @cons text' entry' texts params second others =>
          rw [joinWith_cons_cons] at enough ⊢
          rw [List.length_append, List.length_cons] at enough
          rw [List.append_assoc, List.cons_append, readMembers_member first fresh (by omega)
            (by decide), skipSpace_comma]
          have shown := skipSpace_joinWith second.opens texts ('\x7d' :: rest)
          have split : before ++ entry :: entry' :: params =
              (before ++ [entry]) ++ entry' :: params := List.append_cons _ _ _
          rw [split] at distinct ⊢
          have others := ih (List.cons_ne_nil _ _) fuel (before ++ [entry]) rest (by omega) distinct
          exact (congrArg (readMembers depth fuel _) shown).trans others

/-- Denoted entries denote a map, between braces, if no two have the same name. -/
theorem denotes_map {texts : List Text} {params : Params}
    (denote : List.Forall₂ (DenotesMember depth) texts params)
    (distinct : (OrderedMap.keys params).Nodup) :
    Denotes (depth + 1) ('\x7b' :: (Text.joinWith [','] texts ++ ['\x7d'])) params.toValue := by
  apply denotes_cons (by decide)
  intro fuel rest enough _
  rw [List.length_append, List.length_singleton] at enough
  rw [List.append_assoc, List.singleton_append, readValue]
  cases denote with
  | nil => rfl
  | @cons text entry texts params first others =>
      have read := readMembers_joinWith (.cons first others) (List.cons_ne_nil _ _) fuel [] rest
        enough distinct
      obtain ⟨c, t, begins, opens⟩ := opens_joinWith first.opens texts
      rw [begins, List.cons_append] at read ⊢
      rw [skipSpace_of_opens opens]
      split
      next same => exact absurd (List.cons.inj same).1 opens.2.2.1
      next =>
          have start : ([] : List (Value × Value)) = Params.entries [] := rfl
          rw [start, read]
          rfl

end Json

end FragmentRouting
