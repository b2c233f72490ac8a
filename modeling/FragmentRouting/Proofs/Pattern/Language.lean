import FragmentRouting.Proofs.Pattern.Progress
import Mathlib

/-!
The language of a pattern without anchors, and that backtracking finds it: a pattern leads from one
place to another exactly if the text between them is in its language. The order in which rounds are
tried decides which place comes first and never which places are found.
-/
namespace FragmentRouting.Pattern

open Computability

/-- Whether a pattern looks at nothing but the characters it passes over, and tries every number of
rounds that its repeats allow. -/
def Regular : Pattern → Prop
  | .empty | .one _ => True
  | .start | .finish => False
  | .seq p q | .choice p q => Regular p ∧ Regular q
  | .group _ p => Regular p
  | .repeated _ _ preference p => preference ≠ .most ∧ Regular p

/-- The texts that a regular pattern covers. -/
def language : Pattern → Language Char
  | .empty | .start | .finish => 1
  | .one cls => {u : Text | ∃ c, cls.contains c = true ∧ u = [c]}
  | .seq p q => p.language * q.language
  | .choice p q => p.language + q.language
  | .group _ p => p.language
  | .repeated least none _ p => p.language ^ least * p.language∗
  | .repeated least (some bound) _ p => p.language ^ least * (1 + p.language) ^ (bound - least)

/-- Whether the places reached lie behind the texts of a language. -/
structure Reads (w : Ways) (l : Language Char) : Prop where
  sound : Along (fun s s' => ∃ u ∈ l, s.rest = u ++ s'.rest) w
  complete : ∀ {s : Place} {u v : Text}, u ∈ l → s.rest = u ++ v → ∃ s' ∈ w s, s'.rest = v

theorem append_mem_kstar {l : Language Char} {u v : Text} (hu : u ∈ l∗) (hv : v ∈ l∗) :
    u ++ v ∈ l∗ := by
  rw [← kstar_mul_kstar l]
  exact Language.append_mem_mul hu hv

theorem chained_kstar (l : Language Char) :
    Chained (fun s s' => ∃ u ∈ l∗, s.rest = u ++ s'.rest) where
  refl s := ⟨[], Language.nil_mem_kstar l, rfl⟩
  trans := by
    rintro s s' s'' ⟨u, hu, first⟩ ⟨v, hv, second⟩
    refine ⟨u ++ v, append_mem_kstar hu hv, ?_⟩
    rw [first, second, List.append_assoc]

/-- A word of a power of `l`, with the empty words between its factors left out. -/
theorem exists_words_of_mem_pow {l : Language Char} {u : Text} {n : Nat}
    (h : u ∈ (1 + l) ^ n) :
    ∃ words : List Text, words.length ≤ n ∧ u = words.flatten ∧ ∀ x ∈ words, x ∈ l ∧ x ≠ [] := by
  obtain ⟨factors, rfl, rfl, inside⟩ := Language.mem_pow.mp h
  refine ⟨factors.filter fun x => !x.isEmpty, List.length_filter_le _ _,
    List.flatten_filter_not_isEmpty.symm, ?_⟩
  intro x member
  obtain ⟨factor, nonempty⟩ := List.mem_filter.mp member
  have nonempty : x ≠ [] := by simpa using nonempty
  rcases (Language.mem_add _ _ _).mp (inside x factor) with empty | inl
  · exact absurd ((Language.mem_one x).mp empty) nonempty
  · exact ⟨inl, nonempty⟩

section Rounds

variable {w w' : Ways} {l l' : Language Char}

theorem Reads.seq (hw : Reads w l) (hw' : Reads w' l') :
    Reads (fun s => (w s).flatMap w') (l * l') where
  sound := by
    intro s s' member
    obtain ⟨s₁, first, second⟩ := List.mem_flatMap.mp member
    obtain ⟨u, hu, before⟩ := hw.sound s s₁ first
    obtain ⟨v, hv, between⟩ := hw'.sound s₁ s' second
    refine ⟨u ++ v, Language.append_mem_mul hu hv, ?_⟩
    rw [before, between, List.append_assoc]
  complete := by
    intro s u v inside text
    obtain ⟨a, ha, b, hb, rfl⟩ := Language.mem_mul.mp inside
    rw [List.append_assoc] at text
    obtain ⟨s₁, first, rest⟩ := hw.complete ha text
    obtain ⟨s', second, rest'⟩ := hw'.complete hb rest
    exact ⟨s', List.mem_flatMap.mpr ⟨s₁, first, second⟩, rest'⟩

theorem reads_here : Reads (fun s => [s]) 1 where
  sound := by
    intro s s' member
    rw [List.mem_singleton.mp member]
    exact ⟨[], Language.nil_mem_one, rfl⟩
  complete := by
    intro s u v inside text
    rw [(Language.mem_one u).mp inside] at text
    exact ⟨s, List.mem_singleton_self s, text⟩

theorem Reads.exactWays (hw : Reads w l) (count : Nat) :
    Reads (exactWays w count) (l ^ count) := by
  induction count with
  | zero =>
      rw [pow_zero]
      exact reads_here
  | succ count ih =>
      rw [pow_succ']
      exact hw.seq ih

theorem Place.Precedes.covered {s s' : Place} {u : Text} (h : s.Precedes s')
    (text : s.rest = u ++ s'.rest) : s.rest.take (s'.position - s.position) = u := by
  obtain ⟨passed, text', position⟩ := h
  have same : passed = u := List.append_cancel_right (text'.symm.trans text)
  rw [position, Nat.add_sub_cancel_left, same, text, List.take_left]

theorem Place.Precedes.advanced {s s' : Place} {u : Text} (h : s.Precedes s')
    (text : s.rest = u ++ s'.rest) (nonempty : u ≠ []) : s.position < s'.position := by
  obtain ⟨passed, text', position⟩ := h
  have same : passed = u := List.append_cancel_right (text'.symm.trans text)
  have := List.length_pos_of_ne_nil nonempty
  rw [position, same]
  omega

theorem Reads.round (hw : Reads w l) (ahead : Along Place.Precedes w) {again : Ways}
    {s : Place} {x v v' : Text} (inside : x ∈ l) (nonempty : x ≠ []) (text : s.rest = x ++ v)
    (onward : ∀ s₁, s₁.rest = v → ∃ s' ∈ again s₁, s'.rest = v') :
    ∃ s' ∈ (w s).flatMap fun s₁ => if s.position < s₁.position then again s₁ else [s₁],
      s'.rest = v' := by
  obtain ⟨s₁, first, rest⟩ := hw.complete inside text
  obtain ⟨s', others, rest'⟩ := onward s₁ rest
  rw [← rest] at text
  have advanced := (ahead s s₁ first).advanced text nonempty
  refine ⟨s', List.mem_flatMap.mpr ⟨s₁, first, ?_⟩, rest'⟩
  rw [if_pos advanced]
  exact others

theorem loopWays_complete (hw : Reads w l) (ahead : Along Place.Precedes w) (moreFirst : Bool)
    {words : List Text} (inside : ∀ x ∈ words, x ∈ l ∧ x ≠ []) {v : Text} (room : Nat) {s : Place}
    (enough : s.rest.length ≤ room) (text : s.rest = words.flatten ++ v) :
    ∃ s' ∈ loopWays moreFirst w room s, s'.rest = v := by
  induction words generalizing room s with
  | nil =>
      refine ⟨s, ?_, text⟩
      cases room with
      | zero => exact mem_ordered.mpr (.inr rfl)
      | succ room => exact mem_ordered.mpr (.inr rfl)
  | cons x words ih =>
      obtain ⟨⟨hx, nonempty⟩, others⟩ := List.forall_mem_cons.mp inside
      have shown := List.length_pos_of_ne_nil nonempty
      rw [List.flatten_cons, List.append_assoc] at text
      have size := congrArg List.length text
      rw [List.length_append] at size
      cases room with
      | zero => omega
      | succ room =>
          have onward (s₁ : Place) (rest : s₁.rest = words.flatten ++ v) :
              ∃ s' ∈ loopWays moreFirst w room s₁, s'.rest = v := by
            apply ih others room _ rest
            rw [rest]
            omega
          obtain ⟨s', member, rest⟩ := hw.round ahead hx nonempty text onward
          exact ⟨s', mem_ordered.mpr (.inl member), rest⟩

theorem Reads.loop (hw : Reads w l) (ahead : Along Place.Precedes w) (moreFirst : Bool) :
    Reads (fun s => loopWays moreFirst w s.rest.length s) l∗ where
  sound := by
    have once : Along (fun s s' => ∃ u ∈ l∗, s.rest = u ++ s'.rest) w := by
      intro s s' member
      obtain ⟨u, hu, text⟩ := hw.sound s s' member
      exact ⟨u, le_kstar (a := l) hu, text⟩
    intro s s' member
    exact (chained_kstar l).loopWays once moreFirst _ s s' member
  complete := by
    intro s u v inside text
    obtain ⟨words, rfl, members⟩ := Language.mem_kstar_iff_exists_nonempty.mp inside
    exact loopWays_complete hw ahead moreFirst members _ (Nat.le_refl _) text

theorem mem_pow_succ {u : Text} {n : Nat} (h : u ∈ (1 + l) ^ n) : u ∈ (1 + l) ^ (n + 1) := by
  rw [pow_succ']
  have shorter : [] ++ u ∈ (1 + l) * (1 + l) ^ n := by
    apply Language.append_mem_mul
    · exact (Language.mem_add _ _ _).mpr (.inl Language.nil_mem_one)
    · exact h
  exact shorter

theorem nil_mem_pow (n : Nat) : [] ∈ (1 + l) ^ n := by
  induction n with
  | zero => exact Language.nil_mem_one
  | succ n ih => exact mem_pow_succ ih

theorem boundedWays_sound (hw : Reads w l) (moreFirst : Bool) (bound : Nat) :
    Along (fun s s' => ∃ u ∈ (1 + l) ^ bound, s.rest = u ++ s'.rest)
      (boundedWays moreFirst w bound) := by
  induction bound with
  | zero => exact reads_here.sound
  | succ bound ih =>
      intro s s' member
      rcases mem_ordered.mp member with member | rfl
      · obtain ⟨s₁, first, member⟩ := List.mem_flatMap.mp member
        obtain ⟨u, hu, text⟩ := hw.sound s s₁ first
        have hu : u ∈ 1 + l := (Language.mem_add _ _ _).mpr (.inr hu)
        split at member
        · obtain ⟨v, hv, rest⟩ := ih s₁ s' member
          refine ⟨u ++ v, ?_, ?_⟩
          · rw [pow_succ']
            exact Language.append_mem_mul hu hv
          · rw [text, rest, List.append_assoc]
        · rw [List.mem_singleton.mp member]
          refine ⟨u ++ [], ?_, ?_⟩
          · rw [pow_succ']
            exact Language.append_mem_mul hu (nil_mem_pow bound)
          · rw [text, List.append_nil]
      · exact ⟨[], nil_mem_pow _, rfl⟩

theorem boundedWays_complete (hw : Reads w l) (ahead : Along Place.Precedes w) (moreFirst : Bool)
    {words : List Text} (inside : ∀ x ∈ words, x ∈ l ∧ x ≠ []) {v : Text} (bound : Nat) {s : Place}
    (enough : words.length ≤ bound) (text : s.rest = words.flatten ++ v) :
    ∃ s' ∈ boundedWays moreFirst w bound s, s'.rest = v := by
  induction words generalizing bound s with
  | nil =>
      refine ⟨s, ?_, text⟩
      cases bound with
      | zero => exact List.mem_singleton_self s
      | succ bound => exact mem_ordered.mpr (.inr rfl)
  | cons x words ih =>
      obtain ⟨⟨hx, nonempty⟩, others⟩ := List.forall_mem_cons.mp inside
      rw [List.flatten_cons, List.append_assoc] at text
      cases bound with
      | zero => exact absurd enough (Nat.not_succ_le_zero _)
      | succ bound =>
          have fewer : words.length ≤ bound := Nat.le_of_succ_le_succ enough
          have onward (s₁ : Place) (rest : s₁.rest = words.flatten ++ v) :
              ∃ s' ∈ boundedWays moreFirst w bound s₁, s'.rest = v :=
            ih others bound fewer rest
          obtain ⟨s', member, rest⟩ := hw.round ahead hx nonempty text onward
          exact ⟨s', mem_ordered.mpr (.inl member), rest⟩

theorem Reads.bounded (hw : Reads w l) (ahead : Along Place.Precedes w) (moreFirst : Bool)
    (bound : Nat) : Reads (boundedWays moreFirst w bound) ((1 + l) ^ bound) where
  sound := boundedWays_sound hw moreFirst bound
  complete := by
    intro s u v inside text
    obtain ⟨words, few, rfl, members⟩ := exists_words_of_mem_pow inside
    exact boundedWays_complete hw ahead moreFirst members bound few text

end Rounds

/-- Backtracking finds the language of a pattern, no more and no less. -/
theorem reads_language {p : Pattern} (regular : Regular p) : Reads p.ways p.language := by
  induction p with
  | empty => exact reads_here
  | one cls =>
      constructor
      · intro s s' member
        rw [ways] at member
        split at member
        next => exact absurd member List.not_mem_nil
        next c rest text =>
            split at member
            next inside =>
                rw [List.mem_singleton.mp member]
                exact ⟨[c], ⟨c, inside, rfl⟩, text⟩
            next => exact absurd member List.not_mem_nil
      · rintro s u v ⟨c, inside, rfl⟩ text
        refine ⟨{ s with position := s.position + 1, rest := v }, ?_, rfl⟩
        rw [ways, text]
        simp only [List.cons_append, List.nil_append, inside, if_true, List.mem_singleton]
  | start => exact regular.elim
  | finish => exact regular.elim
  | seq p q ihp ihq => exact (ihp regular.1).seq (ihq regular.2)
  | choice p q ihp ihq =>
      constructor
      · intro s s' member
        rcases List.mem_append.mp member with member | member
        · obtain ⟨u, hu, text⟩ := (ihp regular.1).sound s s' member
          exact ⟨u, (Language.mem_add _ _ _).mpr (.inl hu), text⟩
        · obtain ⟨u, hu, text⟩ := (ihq regular.2).sound s s' member
          exact ⟨u, (Language.mem_add _ _ _).mpr (.inr hu), text⟩
      · intro s u v inside text
        rcases (Language.mem_add _ _ _).mp inside with inside | inside
        · obtain ⟨s', member, rest⟩ := (ihp regular.1).complete inside text
          exact ⟨s', List.mem_append_left _ member, rest⟩
        · obtain ⟨s', member, rest⟩ := (ihq regular.2).complete inside text
          exact ⟨s', List.mem_append_right _ member, rest⟩
  | group slot p ih =>
      constructor
      · intro s s' member
        obtain ⟨s₁, reached, rfl⟩ := List.mem_map.mp member
        exact (ih regular).sound s s₁ reached
      · intro s u v inside text
        obtain ⟨s', member, rest⟩ := (ih regular).complete inside text
        exact ⟨_, List.mem_map_of_mem member, rest⟩
  | repeated least bound preference p ih =>
      have body := ih regular.2
      have ahead := ways_precedes p
      cases preference with
      | most => exact absurd rfl regular.1
      | more =>
          cases bound with
          | none => exact (body.exactWays least).seq (body.loop ahead true)
          | some bound => exact (body.exactWays least).seq (body.bounded ahead true _)
      | fewer =>
          cases bound with
          | none => exact (body.exactWays least).seq (body.loop ahead false)
          | some bound => exact (body.exactWays least).seq (body.bounded ahead false _)

/-- A place that a pattern without slots leads to is found by any other such pattern whose language
has the text between. -/
theorem mem_ways_of_language {p q : Pattern} (regular : Regular p) (regular' : Regular q)
    (slotless : SlotsIn (fun _ => False) p) (slotless' : SlotsIn (fun _ => False) q) {s s' : Place}
    (member : s' ∈ p.ways s)
    (inside : ∀ u ∈ p.language, s.rest = u ++ s'.rest → u ∈ q.language) : s' ∈ q.ways s := by
  obtain ⟨u, covered, text⟩ := (reads_language regular).sound s s' member
  obtain ⟨s₁, member₁, rest⟩ := (reads_language regular').complete (inside u covered text) text
  obtain ⟨passed, text', position⟩ := ways_precedes p s s' member
  obtain ⟨passed₁, text₁, position₁⟩ := ways_precedes q s s₁ member₁
  have captures := ways_captures slotless s s' member
  have captures₁ := ways_captures slotless' s s₁ member₁
  have same : passed₁ = passed := by
    rw [rest, text'] at text₁
    exact (List.append_cancel_right text₁).symm
  have place : s₁.position = s'.position := by
    rw [position₁, position, same]
  have equal : s₁ = s' :=
    (Place.mk.injEq s₁.position s₁.rest s₁.captures s'.position s'.rest s'.captures).mpr
      ⟨place, rest, captures₁.trans captures.symm⟩
  exact equal ▸ member₁

/-- A group around a pattern without slots captures the text that is passed over. -/
theorem ways_group {p : Pattern} (regular : Regular p) (slotless : SlotsIn (fun _ => False) p)
    (slot : Nat) :
    Along (fun s s' => ∃ u ∈ p.language, s.rest = u ++ s'.rest ∧
      s'.captures = s.captures.set slot (some u)) (Pattern.group slot p).ways := by
  intro s s' member
  obtain ⟨s₁, reached, rfl⟩ := List.mem_map.mp member
  obtain ⟨u, inside, text⟩ := (reads_language regular).sound s s₁ reached
  have covered := (ways_precedes p s s₁ reached).covered text
  refine ⟨u, inside, text, ?_⟩
  change s₁.captures.set slot (some (s.rest.take (s₁.position - s.position))) = _
  rw [covered, ways_captures slotless s s₁ reached]

theorem regular_seqAll {ps : List Pattern} : Regular (seqAll ps) ↔ ∀ p ∈ ps, Regular p := by
  induction ps with
  | nil => exact ⟨nofun, fun _ => trivial⟩
  | cons p ps ih =>
      rw [List.forall_mem_cons, ← ih]
      cases ps with
      | nil => exact (and_iff_left trivial).symm
      | cons q ps => rfl

theorem language_seqAll_cons (p : Pattern) (ps : List Pattern) :
    (seqAll (p :: ps)).language = p.language * (seqAll ps).language := by
  cases ps with
  | nil => exact (mul_one p.language).symm
  | cons q ps => rfl

end FragmentRouting.Pattern
