import FragmentRouting.Proofs.Charset.Boundary
import FragmentRouting.Proofs.Except
import FragmentRouting.Proofs.Wire.Percent

/-!
Which texts can be read in UTF-8: those in which every percent sign starts an escape and the bytes
that they stand for are valid. Reading goes by parts, keys, values and runs of ASCII characters, but
none of these cuts divides an escape or the bytes of a character, so that one condition on the whole
text decides.
-/
namespace FragmentRouting.Wire

/-- Whether a text starts with two hexadecimal digits. -/
def StartsHex (t : Text) : Prop :=
  ∃ a b rest, t = a :: b :: rest ∧ (Text.hexValue? a).isSome ∧ (Text.hexValue? b).isSome

/-- Whether two hexadecimal digits follow every percent sign. -/
def Escaped (t : Text) : Prop := ∀ before after, t = before ++ '%' :: after → StartsHex after

theorem escaped_nil : Escaped [] := by
  intro before after h
  exact absurd h.symm (List.append_ne_nil_of_right_ne_nil _ (List.cons_ne_nil _ _))

theorem escaped_cons_iff {c : Char} {t : Text} :
    Escaped (c :: t) ↔ (c = '%' → StartsHex t) ∧ Escaped t := by
  constructor
  · intro h
    refine ⟨?_, fun before after same => h (c :: before) after (congrArg (c :: ·) same)⟩
    rintro rfl
    exact h [] t rfl
  · rintro ⟨here, others⟩ before after same
    cases before with
    | nil =>
        obtain ⟨rfl, rfl⟩ := List.cons.inj same
        exact here rfl
    | cons d before => exact others before after (List.cons.inj same).2

theorem startsHex_cons_cons_iff {a b : Char} {t : Text} :
    StartsHex (a :: b :: t) ↔ (Text.hexValue? a).isSome ∧ (Text.hexValue? b).isSome := by
  constructor
  · rintro ⟨a', b', t', same, digits⟩
    cases same
    exact digits
  · intro digits
    exact ⟨a, b, t, rfl, digits⟩

theorem badEscapeFrom_percent_iff (offset : Nat) (t : Text) :
    badEscapeFrom offset ('%' :: t) = none ↔
      StartsHex t ∧ badEscapeFrom (offset + 1) t = none := by
  match t with
  | [] => exact ⟨nofun, fun h => absurd h.1 nofun⟩
  | [a] => exact ⟨nofun, fun h => absurd h.1 nofun⟩
  | a :: b :: rest =>
      rw [startsHex_cons_cons_iff, ← Bool.and_eq_true, badEscapeFrom]
      split
      next digits => exact (and_iff_right digits).symm
      next other => exact iff_of_false (Option.some_ne_none offset) fun h => other h.1

theorem badEscapeFrom_eq_none_iff (offset : Nat) (t : Text) :
    badEscapeFrom offset t = none ↔ Escaped t := by
  induction t generalizing offset with
  | nil => exact ⟨fun _ => escaped_nil, fun _ => rfl⟩
  | cons c t ih =>
      rw [escaped_cons_iff]
      by_cases percent : c = '%'
      · rw [percent, badEscapeFrom_percent_iff, ih]
        exact and_congr_left' ⟨fun here _ => here, fun here => here rfl⟩
      · rw [badEscapeFrom_cons_ne percent, ih]
        exact (and_iff_right fun same => absurd same percent).symm

/-- The bytes that a written text stands for: an escape gives its byte, any other character its own
bytes. -/
def octets : Text → List UInt8
  | '%' :: a :: b :: rest =>
    match Text.hexValue? a, Text.hexValue? b with
    | some high, some low => .ofNat (high * 16 + low) :: octets rest
    | _, _ => Utf8.encodeChar '%' ++ octets (a :: b :: rest)
  | c :: rest => Utf8.encodeChar c ++ octets rest
  | [] => []

/-- Cases on how a text starts: with an escape or with another character. -/
theorem escape_induction {motive : Text → Prop} (nil : motive [])
    (escape : ∀ a b high low rest, Text.hexValue? a = some high → Text.hexValue? b = some low →
      motive rest → motive ('%' :: a :: b :: rest))
    (other : ∀ c rest, (c = '%' → ¬ StartsHex rest) → motive rest → motive (c :: rest))
    (t : Text) : motive t := by
  induction t using octets.induct with
  | case1 a b rest high low digits' digits ih => exact escape a b high low rest digits digits' ih
  | case2 a b rest bad ih =>
      apply other '%' (a :: b :: rest) _ ih
      intro _ digits
      obtain ⟨first, second⟩ := startsHex_cons_cons_iff.mp digits
      obtain ⟨high, first⟩ := Option.isSome_iff_exists.mp first
      obtain ⟨low, second⟩ := Option.isSome_iff_exists.mp second
      exact bad high low first second
  | case3 c rest short ih =>
      apply other c rest _ ih
      rintro rfl ⟨a, b, t, rfl, _⟩
      exact short a b t rfl rfl
  | case4 => exact nil

theorem octets_escape {a b : Char} {high low : Nat} (first : Text.hexValue? a = some high)
    (second : Text.hexValue? b = some low) (rest : Text) :
    octets ('%' :: a :: b :: rest) = .ofNat (high * 16 + low) :: octets rest := by
  rw [octets, first, second]

theorem octets_cons {c : Char} {rest : Text} (other : c = '%' → ¬ StartsHex rest) :
    octets (c :: rest) = Utf8.encodeChar c ++ octets rest := by
  rw [octets.eq_def]
  split
  next a b t same =>
      obtain ⟨rfl, rfl⟩ := List.cons.inj same
      split
      next first second =>
          refine absurd (startsHex_cons_cons_iff.mpr ?_) (other rfl)
          rw [first, second]
          exact ⟨rfl, rfl⟩
      next => rfl
  next same =>
      obtain ⟨rfl, rfl⟩ := List.cons.inj same
      rfl
  next empty => cases empty

theorem octets_plain {t : Text} (h : '%' ∉ t) : octets t = Utf8.encode t := by
  induction t with
  | nil => rfl
  | cons c t ih =>
      rw [List.mem_cons, not_or] at h
      rw [octets_cons fun same => absurd same.symm h.1, ih h.2]
      rfl

/-- Whether an escape starts in one text and ends in the next. -/
def Straddles (u v : Text) : Prop :=
  ∃ before digits, u = before ++ '%' :: digits ∧ digits.length < 2 ∧ StartsHex (digits ++ v)

theorem Straddles.cons {u v : Text} (h : Straddles u v) (c : Char) : Straddles (c :: u) v := by
  obtain ⟨before, digits, rfl, short, hex⟩ := h
  exact ⟨c :: before, digits, rfl, short, hex⟩

theorem not_straddles_cons {c : Char} (noDigit : Text.hexValue? c = none) (u v : Text) :
    ¬ Straddles u (c :: v) := by
  have other : ¬ (Text.hexValue? c).isSome = true := by
    rw [noDigit]
    exact Bool.false_ne_true
  rintro ⟨before, digits, -, short, hex⟩
  match digits, short with
  | [], _ =>
      obtain ⟨a, b, rest, same, digit, _⟩ := hex
      rw [← (List.cons.inj same).1] at digit
      exact other digit
  | [a], _ => exact other (startsHex_cons_cons_iff.mp hex).2

theorem startsHex_append_iff {u v : Text} (whole : ¬ Straddles ('%' :: u) v) :
    StartsHex (u ++ v) ↔ StartsHex u := by
  constructor
  · intro hex
    have long : ¬ u.length < 2 := fun short => whole ⟨[], u, rfl, short, hex⟩
    match u, long with
    | [], long => exact absurd (by decide) long
    | [a], long => exact absurd (Nat.lt_succ_self 1) long
    | a :: b :: u, _ =>
        rw [List.cons_append, List.cons_append, startsHex_cons_cons_iff] at hex
        exact startsHex_cons_cons_iff.mpr hex
  · rintro ⟨a, b, rest, rfl, digits⟩
    exact startsHex_cons_cons_iff.mpr digits

/-- Where no escape is cut, the escapes of a text are those of its parts. -/
theorem escaped_append_iff {u v : Text} (whole : ¬ Straddles u v) :
    Escaped (u ++ v) ↔ Escaped u ∧ Escaped v := by
  induction u with
  | nil => exact (and_iff_right escaped_nil).symm
  | cons d u ih =>
      have here : (d = '%' → StartsHex (u ++ v)) ↔ (d = '%' → StartsHex u) := by
        refine imp_congr_right fun percent => startsHex_append_iff ?_
        rwa [percent] at whole
      rw [List.cons_append, escaped_cons_iff, escaped_cons_iff, here,
        ih fun across => whole (across.cons d), and_assoc]

theorem octets_append {u v : Text} (whole : ¬ Straddles u v) :
    octets (u ++ v) = octets u ++ octets v := by
  induction u using escape_induction with
  | nil => rfl
  | escape a b high low rest first second ih =>
      have whole' : ¬ Straddles rest v := fun across => whole (((across.cons b).cons a).cons '%')
      rw [octets_escape first second]
      exact (octets_escape first second _).trans
        (congrArg (.ofNat (high * 16 + low) :: ·) (ih whole'))
  | other d rest alone ih =>
      have alone' : d = '%' → ¬ StartsHex (rest ++ v) := by
        rintro rfl
        rw [startsHex_append_iff whole]
        exact alone rfl
      rw [List.cons_append, octets_cons alone', octets_cons alone,
        ih fun across => whole (across.cons d), List.append_assoc]

/-- Whether a character has no part in any escape. -/
structure Separates (c : Char) : Prop where
  percent : c ≠ '%'
  digit : Text.hexValue? c = none

namespace Separates

variable {c : Char}

theorem escaped_append_iff (separates : Separates c) (u v : Text) :
    Escaped (u ++ c :: v) ↔ Escaped u ∧ Escaped v := by
  rw [Wire.escaped_append_iff (not_straddles_cons separates.digit u v), escaped_cons_iff,
    and_iff_right fun same => absurd same separates.percent]

theorem octets_append (separates : Separates c) (u v : Text) :
    octets (u ++ c :: v) = octets u ++ (Utf8.encodeChar c ++ octets v) := by
  rw [Wire.octets_append (not_straddles_cons separates.digit u v),
    octets_cons fun same => absurd same separates.percent]

end Separates

/-- Whether a text can be read: escapes are complete and the bytes are those of a text. -/
structure Readable (t : Text) : Prop where
  escaped : Escaped t
  valid : Utf8.Valid (octets t)

theorem readable_nil : Readable [] := ⟨escaped_nil, [], rfl⟩

theorem readable_append_iff {c : Char} (separates : Separates c) (u v : Text) :
    Readable (u ++ c :: v) ↔ Readable u ∧ Readable v := by
  have valid : Utf8.Valid (octets (u ++ c :: v)) ↔
      Utf8.Valid (octets u) ∧ Utf8.Valid (octets v) := by
    rw [separates.octets_append, Utf8.valid_cut_iff]
  constructor
  · rintro ⟨escaped, bytes⟩
    obtain ⟨left, right⟩ := (separates.escaped_append_iff u v).mp escaped
    obtain ⟨before, after⟩ := valid.mp bytes
    exact ⟨⟨left, before⟩, ⟨right, after⟩⟩
  · rintro ⟨left, right⟩
    exact ⟨(separates.escaped_append_iff u v).mpr ⟨left.escaped, right.escaped⟩,
      valid.mpr ⟨left.valid, right.valid⟩⟩

end FragmentRouting.Wire
