import FragmentRouting.Proofs.Charset.Utf8
import FragmentRouting.Proofs.Except

/-!
Which bytes are valid in UTF-8. The reader accepts the bytes of texts and no others. No character's
bytes start where another's go on, so that bytes are cut at a character in one way only: what stands
before it and what stands behind it are valid on their own. The standard library agrees on all of
this.
-/
namespace FragmentRouting.Utf8

/-- Whether bytes are those of a text. -/
def Valid (bytes : List UInt8) : Prop := ∃ t, encode t = bytes

theorem toNat_ofNat_codePoint {n : Nat} (valid : n < 0xD800 ∨ 0xDFFF < n ∧ n < 0x110000) :
    (Char.ofNat n).toNat = n := by
  rw [Char.toNat_ofNat]
  exact if_pos valid

theorem exists_of_decodeFrom_inside {low high acc owed : Nat} {bytes : List UInt8} {t : Text}
    (h : decodeFrom (.inside owed low high acc) bytes = .ok t) :
    ∃ n rest, bytes = .ofNat n :: rest ∧ low ≤ n ∧ n ≤ high ∧
      (match owed with
        | 0 => (decodeFrom .start rest).map (Char.ofNat (acc * 64 + (n - 0x80)) :: ·)
        | owed + 1 =>
          decodeFrom (.inside owed 0x80 0xBF (acc * 64 + (n - 0x80))) rest) = .ok t := by
  cases bytes with
  | nil => exact absurd h nofun
  | cons b rest =>
      rw [decodeFrom] at h
      split at h
      next bounds =>
          refine ⟨b.toNat, rest, ?_, bounds.1, bounds.2, h⟩
          rw [UInt8.ofNat_toNat]
      next => cases h

theorem ofLead?_cases {n : Nat} {state : State} (h : State.ofLead? n = some state) :
    (0xC2 ≤ n ∧ n < 0xE0 ∧ state = .inside 0 0x80 0xBF (n - 0xC0)) ∨
      (0xE0 ≤ n ∧ n < 0xF0 ∧ ∃ low high, state = .inside 1 low high (n - 0xE0) ∧
        low = (if n = 0xE0 then 0xA0 else 0x80) ∧ high = if n = 0xED then 0x9F else 0xBF) ∨
      (0xF0 ≤ n ∧ n < 0xF5 ∧ ∃ low high, state = .inside 2 low high (n - 0xF0) ∧
        low = (if n = 0xF0 then 0x90 else 0x80) ∧ high = if n = 0xF4 then 0x8F else 0xBF) := by
  unfold State.ofLead? at h
  split at h
  next => exact absurd h nofun
  next below =>
      split at h
      next above => exact .inl ⟨by omega, above, (Option.some.inj h).symm⟩
      next below =>
          split at h
          next above =>
              exact .inr (.inl ⟨by omega, above, _, _, (Option.some.inj h).symm, rfl, rfl⟩)
          next below =>
              split at h
              next above =>
                  exact .inr (.inr ⟨by omega, above, _, _, (Option.some.inj h).symm, rfl, rfl⟩)
              next => exact absurd h nofun

theorem encodeChar_two {n : Nat} (low : 0x80 ≤ n) (high : n < 0x800) :
    encodeChar (Char.ofNat n) = [.ofNat (0xC0 + n / 64), .ofNat (0x80 + n % 64)] := by
  rw [encodeChar, toNat_ofNat_codePoint (by omega)]
  rw [if_neg (by omega), if_pos high]

theorem encodeChar_three {n : Nat} (low : 0x800 ≤ n) (high : n < 0x10000)
    (valid : n < 0xD800 ∨ 0xDFFF < n) :
    encodeChar (Char.ofNat n) =
      [.ofNat (0xE0 + n / 4096), .ofNat (0x80 + n / 64 % 64), .ofNat (0x80 + n % 64)] := by
  rw [encodeChar, toNat_ofNat_codePoint (by omega)]
  rw [if_neg (by omega), if_neg (by omega), if_pos high]

theorem encodeChar_four {n : Nat} (low : 0x10000 ≤ n) (high : n < 0x110000) :
    encodeChar (Char.ofNat n) =
      [.ofNat (0xF0 + n / 262144), .ofNat (0x80 + n / 4096 % 64), .ofNat (0x80 + n / 64 % 64),
        .ofNat (0x80 + n % 64)] := by
  rw [encodeChar, toNat_ofNat_codePoint (by omega)]
  rw [if_neg (by omega), if_neg (by omega), if_neg (by omega)]

theorem exists_of_decodeFrom_start {b : UInt8} {bytes : List UInt8} {t : Text}
    (h : decodeFrom .start (b :: bytes) = .ok t) :
    ∃ c rest u, b :: bytes = encodeChar c ++ rest ∧ t = c :: u ∧
      decodeFrom .start rest = .ok u := by
  have byte : b = .ofNat b.toNat := UInt8.ofNat_toNat.symm
  have small : b.toNat < 0x100 := b.toNat_lt
  generalize b.toNat = n at byte small
  rw [byte] at h ⊢
  by_cases ascii : n < 0x80
  · rw [decodeFrom_ascii ascii] at h
    obtain ⟨u, read, rfl⟩ := map_eq_ok_iff.mp h
    have same := toNat_ofNat_codePoint (n := n) (by omega)
    refine ⟨Char.ofNat n, bytes, u, ?_, rfl, read⟩
    rw [encodeChar_ascii (by rw [same]; exact ascii), same]
    rfl
  cases lead : State.ofLead? n with
  | none =>
      simp only [decodeFrom, toNat_ofNat_byte small, ascii, if_false, lead] at h
      cases h
  | some state =>
      rw [decodeFrom_lead ⟨by omega, small⟩ lead] at h
      obtain ⟨low, high, rfl⟩ | ⟨low, high, l, u, rfl, least, most⟩ |
        ⟨low, high, l, u, rfl, least, most⟩ := ofLead?_cases lead
      · obtain ⟨n₁, rest, rfl, low₁, high₁, h⟩ := exists_of_decodeFrom_inside h
        obtain ⟨u, read, rfl⟩ := map_eq_ok_iff.mp h
        refine ⟨_, rest, u, ?_, rfl, read⟩
        rw [encodeChar_two (by omega) (by omega)]
        have first : 0xC0 + ((n - 0xC0) * 64 + (n₁ - 0x80)) / 64 = n := by omega
        have second : 0x80 + ((n - 0xC0) * 64 + (n₁ - 0x80)) % 64 = n₁ := by omega
        rw [first, second]
        rfl
      · obtain ⟨n₁, rest, rfl, low₁, high₁, h⟩ := exists_of_decodeFrom_inside h
        obtain ⟨n₂, rest, rfl, low₂, high₂, h⟩ := exists_of_decodeFrom_inside h
        obtain ⟨u, read, rfl⟩ := map_eq_ok_iff.mp h
        refine ⟨_, rest, u, ?_, rfl, read⟩
        have first : n₁ ≤ 0xBF ∧ 0x80 ≤ n₁ ∧ (n = 0xE0 → 0xA0 ≤ n₁) ∧ (n = 0xED → n₁ ≤ 0x9F) := by
          split at least <;> split at most <;> omega
        generalize value : ((n - 0xE0) * 64 + (n₁ - 0x80)) * 64 + (n₂ - 0x80) = v
        rw [encodeChar_three (by omega) (by omega) (by omega)]
        have first : 0xE0 + v / 4096 = n := by omega
        have second : 0x80 + v / 64 % 64 = n₁ := by omega
        have third : 0x80 + v % 64 = n₂ := by omega
        rw [first, second, third]
        rfl
      · obtain ⟨n₁, rest, rfl, low₁, high₁, h⟩ := exists_of_decodeFrom_inside h
        obtain ⟨n₂, rest, rfl, low₂, high₂, h⟩ := exists_of_decodeFrom_inside h
        obtain ⟨n₃, rest, rfl, low₃, high₃, h⟩ := exists_of_decodeFrom_inside h
        obtain ⟨u, read, rfl⟩ := map_eq_ok_iff.mp h
        refine ⟨_, rest, u, ?_, rfl, read⟩
        have first : n₁ ≤ 0xBF ∧ 0x80 ≤ n₁ ∧ (n = 0xF0 → 0x90 ≤ n₁) ∧ (n = 0xF4 → n₁ ≤ 0x8F) := by
          split at least <;> split at most <;> omega
        generalize value :
          (((n - 0xF0) * 64 + (n₁ - 0x80)) * 64 + (n₂ - 0x80)) * 64 + (n₃ - 0x80) = v
        rw [encodeChar_four (by omega) (by omega)]
        have first : 0xF0 + v / 262144 = n := by omega
        have second : 0x80 + v / 4096 % 64 = n₁ := by omega
        have third : 0x80 + v / 64 % 64 = n₂ := by omega
        have fourth : 0x80 + v % 64 = n₃ := by omega
        rw [first, second, third, fourth]
        rfl

theorem encodeChar_ne_nil (c : Char) : encodeChar c ≠ [] := by
  unfold encodeChar
  dsimp only
  split
  · exact List.cons_ne_nil _ _
  split
  · exact List.cons_ne_nil _ _
  split
  · exact List.cons_ne_nil _ _
  · exact List.cons_ne_nil _ _

/-- The reader accepts the bytes of a text for that text, and no others. -/
theorem decode_eq_ok_iff {bytes : List UInt8} {t : Text} :
    decode bytes = .ok t ↔ encode t = bytes := by
  constructor
  · unfold decode
    intro h
    -- A character takes one to four bytes, so the induction is on the number of bytes.
    induction size : bytes.length using Nat.strongRecOn generalizing bytes t with
    | _ n shorter =>
        cases bytes with
        | nil =>
            rw [← Except.ok.inj h]
            rfl
        | cons b bytes =>
            obtain ⟨c, rest, u, split, rfl, read⟩ := exists_of_decodeFrom_start h
            have less : rest.length < n := by
              have whole := congrArg List.length split
              have some_ := List.length_pos_of_ne_nil (encodeChar_ne_nil c)
              rw [List.length_append] at whole
              omega
            rw [split, encode, List.flatMap_cons, ← encode, shorter _ less read rfl]
  · rintro rfl
    exact decode_encode t

def Continues (b : UInt8) : Prop := 0x80 ≤ b.toNat ∧ b.toNat ≤ 0xBF

theorem encodeChar_eq_cons (c : Char) :
    ∃ lead tail, encodeChar c = lead :: tail ∧ ¬ Continues lead ∧ ∀ b ∈ tail, Continues b := by
  have valid := codePoint_valid c
  have goesOn (n : Nat) : Continues (.ofNat (0x80 + n % 64)) := by
    rw [Continues, toNat_ofNat_byte (by omega)]
    omega
  have starts {n : Nat} (byte : n < 0x100) (outside : n < 0x80 ∨ 0xBF < n) :
      ¬ Continues (.ofNat n) := by
    rw [Continues, toNat_ofNat_byte byte]
    omega
  have more {n : Nat} {bytes : List UInt8} (others : ∀ b ∈ bytes, Continues b) :
      ∀ b ∈ UInt8.ofNat (0x80 + n % 64) :: bytes, Continues b :=
    List.forall_mem_cons.mpr ⟨goesOn n, others⟩
  unfold encodeChar
  dsimp only
  split
  · exact ⟨_, _, rfl, starts (by omega) (by omega), nofun⟩
  split
  · exact ⟨_, _, rfl, starts (by omega) (by omega), more nofun⟩
  split
  · exact ⟨_, _, rfl, starts (by omega) (by omega), more (more nofun)⟩
  · exact ⟨_, _, rfl, starts (by omega) (by omega), more (more (more nofun))⟩

theorem encode_eq_cut {t : Text} {c : Char} {before after : List UInt8}
    (h : encode t = before ++ (encodeChar c ++ after)) :
    ∃ u v, t = u ++ c :: v ∧ encode u = before ∧ encode v = after := by
  obtain ⟨lead, tail, form, starts, _⟩ := encodeChar_eq_cons c
  induction t generalizing before with
  | nil =>
      rw [form] at h
      exact absurd h.symm (List.append_ne_nil_of_right_ne_nil _ (List.cons_ne_nil _ _))
  | cons d t ih =>
      have further {more : List UInt8} (others : encode t = more ++ (encodeChar c ++ after)) :
          ∃ u v, d :: t = u ++ c :: v ∧ encode u = encodeChar d ++ more ∧ encode v = after := by
        obtain ⟨u, v, rfl, front, back⟩ := ih others
        exact ⟨d :: u, v, rfl, congrArg (encodeChar d ++ ·) front, back⟩
      rcases List.append_eq_append_iff.mp h with ⟨more, rfl, others⟩ | ⟨more, inside, others⟩
      · exact further others
      · cases before with
        | nil =>
            have whole : decodeFrom .start (encodeChar c ++ after) = .ok (d :: t) := by
              rw [← List.nil_append (encodeChar c ++ after), ← h]
              exact decode_encode (d :: t)
            rw [decodeFrom_encodeChar] at whole
            obtain ⟨u, read, same⟩ := map_eq_ok_iff.mp whole
            obtain ⟨rfl, rfl⟩ := List.cons.inj same
            exact ⟨[], u, rfl, rfl, decode_eq_ok_iff.mp read⟩
        | cons b before =>
            cases more with
            | nil =>
                rw [List.append_nil] at inside
                rw [← inside, ← List.append_nil (encodeChar d)]
                exact further others.symm
            | cons x more =>
                -- The bytes of one character would start inside of another's.
                obtain ⟨lead', tail', form', _, goOn⟩ := encodeChar_eq_cons d
                rw [form', List.cons_append] at inside
                rw [form] at others
                have member : x ∈ tail' := by
                  rw [(List.cons.inj inside).2]
                  exact List.mem_append_right before List.mem_cons_self
                rw [(List.cons.inj others).1] at starts
                exact absurd (goOn x member) starts

/-- What stands before a character and behind it is valid on its own. -/
theorem valid_cut_iff {c : Char} {before after : List UInt8} :
    Valid (before ++ (encodeChar c ++ after)) ↔ Valid before ∧ Valid after := by
  constructor
  · rintro ⟨t, h⟩
    obtain ⟨u, v, -, front, back⟩ := encode_eq_cut h
    exact ⟨⟨u, front⟩, ⟨v, back⟩⟩
  · rintro ⟨⟨u, rfl⟩, ⟨v, rfl⟩⟩
    refine ⟨u ++ c :: v, ?_⟩
    rw [encode, List.flatMap_append, List.flatMap_cons]
    rfl

/-- A character is written with the bytes that the standard library has for it. -/
theorem encodeChar_eq_utf8EncodeChar (c : Char) : encodeChar c = String.utf8EncodeChar c := by
  have valid := codePoint_valid c
  have value : c.val.toNat = c.toNat := rfl
  unfold encodeChar String.utf8EncodeChar
  rw [value]
  generalize c.toNat = n at valid
  dsimp only
  by_cases one : n < 0x80
  · rw [if_pos one, if_pos (show n ≤ 0x7F by omega)]
  by_cases two : n < 0x800
  · have lead : n / 64 % 32 + 192 = 0xC0 + n / 64 := by omega
    rw [if_neg one, if_pos two, if_neg (show ¬ n ≤ 0x7F by omega),
      if_pos (show n ≤ 0x7FF by omega), lead, Nat.add_comm 128]
  by_cases three : n < 0x10000
  · have lead : n / 4096 % 16 + 224 = 0xE0 + n / 4096 := by omega
    rw [if_neg one, if_neg two, if_pos three, if_neg (show ¬ n ≤ 0x7F by omega),
      if_neg (show ¬ n ≤ 0x7FF by omega), if_pos (show n ≤ 0xFFFF by omega), lead,
      Nat.add_comm 128, Nat.add_comm 128]
  · have lead : n / 262144 % 8 + 240 = 0xF0 + n / 262144 := by omega
    rw [if_neg one, if_neg two, if_neg three, if_neg (show ¬ n ≤ 0x7F by omega),
      if_neg (show ¬ n ≤ 0x7FF by omega), if_neg (show ¬ n ≤ 0xFFFF by omega), lead,
      Nat.add_comm 128, Nat.add_comm 128, Nat.add_comm 128]

theorem toByteArray_encode (t : Text) : (encode t).toByteArray = t.utf8Encode := by
  have same : encodeChar = String.utf8EncodeChar := funext encodeChar_eq_utf8EncodeChar
  rw [encode, same, List.utf8Encode]

theorem utf8Decode?_eq_some_iff {bytes : List UInt8} {t : Text} :
    bytes.toByteArray.utf8Decode? = some t.toArray ↔ encode t = bytes := by
  constructor
  · intro h
    have decodes : bytes.toByteArray.utf8Decode?.isSome = true := Option.isSome_of_eq_some h
    have back := ByteArray.utf8Encode_get_utf8Decode? (h := decodes)
    simp only [h, Option.get_some] at back
    rwa [← toByteArray_encode, List.toByteArray_inj] at back
  · rintro rfl
    rw [toByteArray_encode]
    exact List.utf8Decode?_utf8Encode

theorem isValidUTF8_iff {bytes : List UInt8} :
    bytes.toByteArray.IsValidUTF8 ↔ Valid bytes := by
  constructor
  · rintro ⟨t, same⟩
    rw [← toByteArray_encode, List.toByteArray_inj] at same
    exact ⟨t, same.symm⟩
  · rintro ⟨t, rfl⟩
    exact ⟨t, toByteArray_encode t⟩

end FragmentRouting.Utf8
