import FragmentRouting.Proofs.Pattern.Token

/-!
How far the reader of tokens looks ahead. A token is known once what follows it is known to start
with an opening parenthesis or a dollar sign; so a text can be exchanged behind such a place without
a change to the tokens before it.
-/
namespace FragmentRouting.Pattern

/-- Whether a text starts with a character that completes no token before it. -/
def Opens (t : Text) : Prop := t.head? = some '(' ∨ t.head? = some '$'

/-- Whether two texts are the same up to a place from which both open. -/
def Alike (t t' : Text) : Prop :=
  ∃ u v v', t = u ++ v ∧ t' = u ++ v' ∧ Opens v ∧ Opens v'

theorem Opens.alike {t t' : Text} (opens : Opens t) (opens' : Opens t') : Alike t t' :=
  ⟨[], t, t', rfl, rfl, opens, opens'⟩

theorem Opens.head?_ne {t : Text} (opens : Opens t) {c : Char} (opening : c ≠ '(')
    (dollar : c ≠ '$') : t.head? ≠ some c := by
  intro same
  rcases opens with first | first
  · exact opening (Option.some.inj (same.symm.trans first))
  · exact dollar (Option.some.inj (same.symm.trans first))

namespace Alike

variable {t t' : Text}

theorem append (alike : Alike t t') (w : Text) : Alike (w ++ t) (w ++ t') := by
  obtain ⟨u, v, v', rfl, rfl, opens, opens'⟩ := alike
  exact ⟨w ++ u, v, v', (List.append_assoc _ _ _).symm, (List.append_assoc _ _ _).symm, opens,
    opens'⟩

theorem head?_iff (alike : Alike t t') {c : Char} (opening : c ≠ '(') (dollar : c ≠ '$') :
    t.head? = some c ↔ t'.head? = some c := by
  obtain ⟨u, v, v', rfl, rfl, opens, opens'⟩ := alike
  cases u with
  | nil => exact iff_of_false (opens.head?_ne opening dollar) (opens'.head?_ne opening dollar)
  | cons d u => rfl

theorem cases (alike : Alike t t') :
    (Opens t ∧ Opens t') ∨ ∃ c r r', t = c :: r ∧ t' = c :: r' ∧ Alike r r' := by
  obtain ⟨u, v, v', rfl, rfl, opens, opens'⟩ := alike
  cases u with
  | nil => exact .inl ⟨opens, opens'⟩
  | cons c u => exact .inr ⟨c, u ++ v, u ++ v', rfl, rfl, (opens.alike opens').append u⟩

theorem of_takeWhile {p : Char → Bool} (opening : p '(' = false) (dollar : p '$' = false)
    (alike : Alike t t') :
    t.takeWhile p = t'.takeWhile p ∧
      Alike (t.drop (t.takeWhile p).length) (t'.drop (t.takeWhile p).length) := by
  obtain ⟨u, v, v', rfl, rfl, opens, opens'⟩ := alike
  have nothing {v : Text} (opens : Opens v) : v.takeWhile p = [] := by
    cases v with
    | nil => rfl
    | cons c v =>
        refine List.takeWhile_cons_of_neg ?_
        rcases opens with first | first
        · rw [Option.some.inj first, opening]
          exact Bool.false_ne_true
        · rw [Option.some.inj first, dollar]
          exact Bool.false_ne_true
  induction u with
  | nil =>
      rw [List.nil_append, List.nil_append, nothing opens, nothing opens']
      exact ⟨rfl, opens.alike opens'⟩
  | cons d u ih =>
      rw [List.cons_append, List.cons_append]
      by_cases holds : p d = true
      · rw [List.takeWhile_cons_of_pos holds, List.takeWhile_cons_of_pos holds]
        exact ⟨congrArg (d :: ·) ih.1, ih.2⟩
      · rw [List.takeWhile_cons_of_neg holds, List.takeWhile_cons_of_neg holds]
        exact ⟨rfl, (opens.alike opens').append (d :: u)⟩

end Alike

theorem quantifierOf_eq (least : Nat) (bound : Option Nat) (taken : Nat) (t : Text) :
    quantifierOf least bound taken t =
      if t.head? = some '?' then (.quantifier least bound .fewer, taken + 1)
      else if t.head? = some '+' then (.quantifier least bound .most, taken + 1)
      else (.quantifier least bound .more, taken) := by
  unfold quantifierOf
  split
  · rfl
  · rfl
  next fewer most =>
      rw [if_neg, if_neg]
      · intro first
        obtain ⟨rest, rfl⟩ := List.head?_eq_some_iff.mp first
        exact most rest rfl
      · intro first
        obtain ⟨rest, rfl⟩ := List.head?_eq_some_iff.mp first
        exact fewer rest rfl

theorem quantifierOf_alike {t t' : Text} (alike : Alike t t') (least : Nat) (bound : Option Nat)
    (taken : Nat) : quantifierOf least bound taken t = quantifierOf least bound taken t' := by
  rw [quantifierOf_eq, quantifierOf_eq]
  simp only [alike.head?_iff (c := '?') (by decide) (by decide),
    alike.head?_iff (c := '+') (by decide) (by decide)]

theorem le_quantifierOf (least : Nat) (bound : Option Nat) (taken : Nat) (t : Text) :
    taken ≤ (quantifierOf least bound taken t).2 := by
  rw [quantifierOf_eq]
  split
  · exact Nat.le_succ taken
  split
  · exact Nat.le_succ taken
  · exact Nat.le_refl taken

theorem readBounds?_eq (t : Text) :
    readBounds? t =
      let low := t.takeWhile Char.isDigit
      let behind := t.drop low.length
      let high := behind.tail.takeWhile Char.isDigit
      let least := (Text.toNat? 10 low).getD 0
      if behind.head? = some '\x7d' then
        if low.isEmpty then none else some (least, some least, low.length + 1)
      else if behind.head? = some ',' ∧ (behind.tail.drop high.length).head? = some '\x7d' then
        some (least, Text.toNat? 10 high, low.length + high.length + 2)
      else none := by
  rw [readBounds?]
  simp only
  generalize t.drop _ = behind
  split
  · rfl
  next rest =>
      have other : ¬ (',' :: rest).head? = some '\x7d' := fun same =>
        absurd (Option.some.inj same) (by decide)
      rw [if_neg other, List.tail_cons]
      split
      next same => rw [if_pos ⟨rfl, congrArg List.head? same⟩]
      next open_ =>
          rw [if_neg]
          rintro ⟨_, first⟩
          obtain ⟨others, same⟩ := List.head?_eq_some_iff.mp first
          exact open_ others same
  next brace comma =>
      rw [if_neg, if_neg]
      · rintro ⟨first, _⟩
        obtain ⟨rest, rfl⟩ := List.head?_eq_some_iff.mp first
        exact comma rest rfl
      · intro first
        obtain ⟨rest, rfl⟩ := List.head?_eq_some_iff.mp first
        exact brace rest rfl

theorem readBounds?_alike {t t' : Text} (alike : Alike t t') : readBounds? t = readBounds? t' := by
  have digits {t t' : Text} (alike : Alike t t') := alike.of_takeWhile (p := Char.isDigit) rfl rfl
  obtain ⟨low, behind⟩ := digits alike
  rw [readBounds?_eq, readBounds?_eq, ← low]
  simp only
  generalize t.drop _ = x at behind
  generalize t'.drop _ = x' at behind
  have brace {t t' : Text} (alike : Alike t t') :=
    alike.head?_iff (c := '\x7d') (by decide) (by decide)
  rcases behind.cases with ⟨opens, opens'⟩ | ⟨c, r, r', rfl, rfl, rest⟩
  · simp only [opens.head?_ne (c := '\x7d') (by decide) (by decide),
      opens'.head?_ne (c := '\x7d') (by decide) (by decide),
      opens.head?_ne (c := ',') (by decide) (by decide),
      opens'.head?_ne (c := ',') (by decide) (by decide), false_and, if_false]
  · obtain ⟨high, others⟩ := digits rest
    simp only [List.head?_cons, List.tail_cons, ← high, brace others]

/-- How a member of a class is written. -/
inductive Written : Text → ClassItem → Prop
  | plain {c : Char} (other : c ≠ '\\') : Written [c] (.range c c)
  | escaped {c : Char} {item : ClassItem} (escape : escapedItem? c = some item) :
      Written ['\\', c] item
  | backspace : Written ['\\', 'b'] (.range '\x08' '\x08')

theorem Written.member? {u : Text} {item : ClassItem} (written : Written u item) (y : Text) :
    member? (u ++ y) = some (.item item u, u.length) := by
  cases written with
  | plain other =>
      rw [List.singleton_append, Pattern.member?]
      · rfl
      · exact fun same _ => other same
      · exact fun _ _ same _ => other same
  | escaped escape =>
      rw [List.cons_append, List.cons_append, Pattern.member?, escape]
      rfl
  | backspace => rfl

theorem written_of_member? {t : Text} {item : ClassItem} {shown : Text} {width : Nat}
    (read : member? t = some (.item item shown, width)) :
    Written shown item ∧ width = shown.length ∧ ∃ y, t = shown ++ y := by
  unfold Pattern.member? at read
  split at read
  · cases read
  · cases read
  next c rest =>
      split at read
      next escape =>
          cases read
          exact ⟨.escaped escape, rfl, rest, rfl⟩
      next =>
          split at read
          next same =>
              cases read
              rw [same]
              exact ⟨.backspace, rfl, rest, rfl⟩
          next => cases read
  next c rest dangling escape =>
      cases read
      refine ⟨.plain ?_, rfl, rest, rfl⟩
      rintro rfl
      cases rest with
      | nil => exact dangling rfl rfl
      | cons d rest => exact escape d rest rfl rfl

/-- How the members of a class are written, after some that come first, up to its closing bracket.
A bracket in the first place is a member. -/
inductive Members (negated : Bool) : List ClassItem → Text → CharClass → Prop
  | close {first : ClassItem} {items : List ClassItem} :
      Members negated (first :: items) [']'] ⟨(first :: items).reverse, negated⟩
  | dashed {items : List ClassItem} {u : Text} {low : ClassItem} (written : Written u low)
      (inside : items = [] ∨ u.head? ≠ some ']') :
      Members negated items (u ++ ['-', ']']) ⟨(.range '-' '-' :: low :: items).reverse, negated⟩
  | ranged {items : List ClassItem} {u v x : Text} {low high item : ClassItem} {cls : CharClass}
      (written : Written u low) (inside : items = [] ∨ u.head? ≠ some ']')
      (written' : Written v high) (between : v.head? ≠ some ']')
      (range : rangeOf low high (u ++ '-' :: v) = .ok item)
      (others : Members negated (item :: items) x cls) :
      Members negated items (u ++ '-' :: (v ++ x)) cls
  | single {items : List ClassItem} {u x : Text} {low : ClassItem} {cls : CharClass}
      (written : Written u low) (inside : items = [] ∨ u.head? ≠ some ']')
      (alone : x.head? ≠ some '-') (others : Members negated (low :: items) x cls) :
      Members negated items (u ++ x) cls

theorem readMembers_step {negated : Bool} {fuel : Nat} {items : List ClassItem}
    {taken last : Nat} {t : Text} {cls : CharClass}
    (read : readMembers negated (fuel + 1) items taken t = .ok (cls, last)) :
    (∃ x y, t = x ++ y ∧ last = taken + x.length ∧ Members negated items x cls) ∨
      ∃ u rest items', t = u ++ rest ∧
        readMembers negated fuel items' (taken + u.length) rest = .ok (cls, last) ∧
        ∀ x y, rest = x ++ y → Members negated items' x cls →
          Members negated items (u ++ x) cls := by
  unfold readMembers at read
  split at read
  next rest first items =>
      cases read
      exact .inl ⟨[']'], rest, rfl, rfl, .close⟩
  next other =>
      split at read
      · cases read
      · cases read
      next low shown width member =>
          obtain ⟨written, rfl, rest, rfl⟩ := written_of_member? member
          rw [List.drop_left] at read
          have inside : items = [] ∨ shown.head? ≠ some ']' := by
            cases items with
            | nil => exact .inl rfl
            | cons first items =>
                right
                intro bracket
                obtain ⟨more, rfl⟩ := List.head?_eq_some_iff.mp bracket
                exact other _ _ _ rfl rfl
          split at read
          · cases read
          next behind =>
              cases read
              refine .inl ⟨_, behind, (List.append_assoc shown ['-', ']'] behind).symm, ?_,
                .dashed written inside⟩
              rw [List.length_append]
              rfl
          next rest alone closed =>
              split at read
              · cases read
              · cases read
              next high shown' width member' =>
                  obtain ⟨written', rfl, rest, rfl⟩ := written_of_member? member'
                  rw [List.drop_left] at read
                  split at read
                  next item range =>
                      have between : shown'.head? ≠ some ']' := by
                        intro bracket
                        obtain ⟨more, rfl⟩ := List.head?_eq_some_iff.mp bracket
                        exact closed _ rfl
                      have width : taken + shown.length + 1 + shown'.length =
                          taken + (shown ++ '-' :: shown').length := by
                        rw [List.length_append, List.length_cons]
                        omega
                      rw [width] at read
                      refine .inr ⟨shown ++ '-' :: shown', rest, _, ?_, read, ?_⟩
                      · rw [List.append_assoc, List.cons_append]
                      · intro x y _ others
                        rw [List.append_assoc, List.cons_append]
                        exact .ranged written inside written' between range others
                  next => cases read
          next alone =>
              refine .inr ⟨shown, rest, _, rfl, read, ?_⟩
              rintro x y rfl others
              refine .single written inside ?_ others
              intro dash
              obtain ⟨more, rfl⟩ := List.head?_eq_some_iff.mp dash
              exact alone _ rfl

theorem members_of_readMembers {negated : Bool} {fuel : Nat} {items : List ClassItem}
    {taken last : Nat} {t : Text} {cls : CharClass}
    (read : readMembers negated fuel items taken t = .ok (cls, last)) :
    ∃ x y, t = x ++ y ∧ last = taken + x.length ∧ Members negated items x cls := by
  induction fuel generalizing items taken t with
  | zero => cases read
  | succ fuel ih =>
      rcases readMembers_step read with closed | ⟨u, _, items', rfl, read, goesOn⟩
      · exact closed
      · obtain ⟨x, y, rfl, rfl, members⟩ := ih read
        refine ⟨u ++ x, y, (List.append_assoc u x y).symm, ?_, goesOn x y rfl members⟩
        rw [List.length_append, Nat.add_assoc]

theorem Written.ne_nil {u : Text} {item : ClassItem} (written : Written u item) : u ≠ [] := by
  cases written with
  | plain | escaped | backspace => exact List.cons_ne_nil _ _

theorem Members.ne_nil {negated : Bool} {items : List ClassItem} {x : Text} {cls : CharClass}
    (members : Members negated items x cls) : x ≠ [] := by
  cases members with
  | close => exact List.cons_ne_nil _ _
  | dashed written | ranged written | single written =>
      exact List.append_ne_nil_of_left_ne_nil written.ne_nil _

theorem Written.stays {items : List ClassItem} {u : Text} {low : ClassItem}
    (written : Written u low) (inside : items = [] ∨ u.head? ≠ some ']') (y : Text) :
    ∀ rest first more, u ++ y = ']' :: rest → items = first :: more → False := by
  rintro rest first more bracket rfl
  refine inside.elim (List.cons_ne_nil _ _) fun other => other ?_
  rw [← List.head?_append_of_ne_nil u written.ne_nil, bracket]
  rfl

theorem Members.readMembers {negated : Bool} {items : List ClassItem} {x : Text} {cls : CharClass}
    (members : Members negated items x cls) (taken : Nat) {fuel : Nat} (enough : x.length < fuel)
    (y : Text) :
    readMembers negated fuel items taken (x ++ y) = .ok (cls, taken + x.length) := by
  induction members generalizing taken fuel with
  | close =>
      cases fuel with
      | zero => exact absurd enough (Nat.not_lt_zero _)
      | succ fuel => rfl
  | @dashed items u low written inside =>
      cases fuel with
      | zero => exact absurd enough (Nat.not_lt_zero _)
      | succ fuel =>
          rw [List.append_assoc, Pattern.readMembers, written.member?, List.length_append]
          case x_6 => exact written.stays inside _
          simp only [List.drop_left]
          rfl
  | @ranged items u v x low high item cls written inside written' between range others ih =>
      cases fuel with
      | zero => exact absurd enough (Nat.not_lt_zero _)
      | succ fuel =>
          rw [List.append_assoc, Pattern.readMembers, written.member?]
          case x_6 => exact written.stays inside _
          simp only [List.drop_left, List.cons_append, List.append_assoc]
          split
          next alone =>
              have nothing : v ++ (x ++ y) = [] := (List.cons.inj alone).2
              exact absurd (List.append_eq_nil_iff.mp nothing).1 written'.ne_nil
          next closed =>
              exact absurd (List.cons.inj closed).2 fun same =>
                written'.stays (.inr between) _ _ low [] same rfl
          next rest _ _ same =>
              simp only [List.length_append, List.length_cons] at enough ⊢
              rw [← (List.cons.inj same).2, written'.member?]
              simp only [range, List.drop_left]
              rw [ih _ (by omega)]
              congr 2
              omega
          next other => exact absurd rfl (other _)
  | @single items u x low cls written inside alone others ih =>
      cases fuel with
      | zero => exact absurd enough (Nat.not_lt_zero _)
      | succ fuel =>
          rw [List.append_assoc, Pattern.readMembers, written.member?]
          case x_6 => exact written.stays inside _
          simp only [List.drop_left]
          have bare (rest : Text) : x ++ y ≠ '-' :: rest := by
            intro dash
            apply alone
            rw [← List.head?_append_of_ne_nil x others.ne_nil, dash]
            rfl
          split
          next same => exact absurd same (bare _)
          next same => exact absurd same (bare _)
          next same => exact absurd same (bare _)
          next =>
              have shown := List.length_pos_of_ne_nil written.ne_nil
              rw [List.length_append] at enough ⊢
              rw [ih _ (by omega), Nat.add_assoc]

/-- How a class is written behind its opening bracket. -/
inductive Enclosed : Text → CharClass → Prop
  | listed {x : Text} {cls : CharClass} (plain : x.head? ≠ some '^')
      (members : Members false [] x cls) : Enclosed x cls
  | excluded {x : Text} {cls : CharClass} (members : Members true [] x cls) :
      Enclosed ('^' :: x) cls

/-- Whether a token can be part of a pattern. -/
def Token.Sound (token : Token) : Prop := ∀ flaw, token ≠ .flawed flaw

theorem Token.Sound.ne {token : Token} (sound : token.Sound) {flaw : Flaw}
    {offset offset' taken taken' : Nat} :
    (Token.flawed flaw, offset', taken') ≠ (token, offset, taken) := fun same =>
  sound flaw (congrArg Prod.fst same).symm

theorem enclosed_of_readClass {t : Text} {token : Token} {offset taken : Nat}
    (read : readClass t = (token, offset, taken)) (sound : token.Sound) :
    ∃ x y cls, t = x ++ y ∧ taken = x.length ∧ token = .one cls ∧ offset = 0 ∧ Enclosed x cls := by
  unfold readClass at read
  split at read
  next negated body before start =>
      split at read
      next cls last enclosed =>
          obtain ⟨x, y, rfl, rfl, members⟩ := members_of_readMembers enclosed
          cases read
          split at start
          next =>
              cases start
              exact ⟨_, y, cls, rfl, Nat.add_comm _ _, rfl, rfl, .excluded members⟩
          next plain =>
              cases start
              refine ⟨x, y, cls, rfl, Nat.zero_add _, rfl, rfl, .listed ?_ members⟩
              intro caret
              obtain ⟨rest, rfl⟩ := List.head?_eq_some_iff.mp caret
              exact plain _ rfl
      · exact absurd read sound.ne
      · exact absurd read sound.ne

theorem Enclosed.readClass {x : Text} {cls : CharClass} (enclosed : Enclosed x cls) (y : Text) :
    readClass (x ++ y) = (.one cls, 0, x.length) := by
  have enough (x : Text) : x.length < (x ++ y).length + 1 := by
    rw [List.length_append]
    omega
  unfold Pattern.readClass
  cases enclosed with
  | listed plain members =>
      split
      next negated body before start =>
          split at start
          next rest caret =>
              refine absurd ?_ plain
              rw [← List.head?_append_of_ne_nil x members.ne_nil, caret]
              rfl
          next =>
              cases start
              rw [members.readMembers 0 (enough x), Nat.zero_add]
  | @excluded x _ members =>
      have read := members.readMembers 1 (enough x) y
      simp only [List.cons_append, read, List.length_cons, Nat.add_comm]

section Alike

variable {w t t' : Text} {token : Token} {offset : Nat}

theorem tokenAt_escape_append (sound : token.Sound)
    (read : tokenAt '\\' (w ++ t) = (token, offset, w.length)) :
    tokenAt '\\' (w ++ t') = (token, offset, w.length) := by
  cases w with
  | nil =>
      simp only [tokenAt] at read
      split at read
      · exact absurd read sound.ne
      split at read
      · exact absurd (congrArg (·.2.2) read) Nat.one_ne_zero
      · exact absurd read sound.ne
  | cons d w => exact read

variable (alike : Alike t t') (sound : token.Sound)

include alike sound

theorem tokenAt_opening_alike (read : tokenAt '(' (w ++ t) = (token, offset, w.length)) :
    tokenAt '(' (w ++ t') = (token, offset, w.length) := by
  by_cases mark : (w ++ t).head? = some '?'
  · obtain ⟨rest, same⟩ := List.head?_eq_some_iff.mp mark
    match rest with
    | [] =>
        rw [same] at read
        exact absurd read sound.ne
    | d :: rest =>
        by_cases colon : d = ':'
        · rw [same, colon] at read
          have width : 2 = w.length := congrArg (·.2.2) read
          obtain ⟨a, b, rfl⟩ := List.length_eq_two.mp width.symm
          rw [colon] at same
          cases same
          exact read
        · rw [same] at read
          simp only [tokenAt] at read
          exact absurd read sound.ne
  · rw [tokenAt_opening mark] at read
    rw [tokenAt_opening]
    · exact read
    · exact mt ((alike.append w).head?_iff (by decide) (by decide)).mpr mark

theorem tokenAt_brace_alike (read : tokenAt '\x7b' (w ++ t) = (token, offset, w.length)) :
    tokenAt '\x7b' (w ++ t') = (token, offset, w.length) := by
  have bounds := readBounds?_alike (alike.append w)
  have quantifier {least taken : Nat} {bound : Option Nat}
      (width : (quantifierOf least bound taken ((w ++ t).drop taken)).2 = w.length) :
      quantifierOf least bound taken ((w ++ t').drop taken) =
        quantifierOf least bound taken ((w ++ t).drop taken) := by
    have inside : taken ≤ w.length := width ▸ le_quantifierOf least bound taken _
    rw [List.drop_append_of_le_length inside, List.drop_append_of_le_length inside]
    exact (quantifierOf_alike (alike.append _) least bound taken).symm
  simp only [tokenAt, ← bounds] at read ⊢
  split at read
  · exact read
  · split at read
    · exact absurd read sound.ne
    next ordered =>
        rw [quantifier (congrArg (·.2.2) read), if_neg ordered]
        exact read
  · rw [quantifier (congrArg (·.2.2) read)]
    exact read

/-- A token stays as it is if what follows it is exchanged for a text that is alike. -/
theorem tokenAt_alike {c : Char} (read : tokenAt c (w ++ t) = (token, offset, w.length)) :
    tokenAt c (w ++ t') = (token, offset, w.length) := by
  have both := alike.append w
  have whole := read
  unfold tokenAt at read
  split at read
  case h_6 => exact tokenAt_opening_alike alike sound whole
  case h_7 | h_8 | h_9 =>
    rw [quantifierOf_alike both] at read
    exact read
  case h_10 => exact tokenAt_brace_alike alike sound whole
  case h_11 =>
    obtain ⟨x, y, cls, split, width, rfl, rfl, enclosed⟩ := enclosed_of_readClass read sound
    obtain ⟨rfl, _⟩ := List.append_inj split width
    exact enclosed.readClass t'
  case h_12 => exact tokenAt_escape_append sound whole
  case h_13 =>
    unfold tokenAt
    split
    case h_13 => exact read
    all_goals exact absurd rfl ‹_›
  all_goals exact read

end Alike

end FragmentRouting.Pattern
