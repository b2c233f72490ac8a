import FragmentRouting.Proofs.Pattern.Numbering
import FragmentRouting.Proofs.Template.Inclusion
import FragmentRouting.Proofs.Template.Narrowable

/-!
The host's source and the narrowed one, read in lockstep. What keeps away from queries is read in
the same way in both, and a shape adds a run to each; so the two patterns have the same build, and
differ in the runs of tokens only.
-/
namespace FragmentRouting.Template

open Computability
open Pattern (Group Level Part Reader Regular Stops choiceAll seqAll)

/-! ### Patterns of the same build -/

/-- Whether the second pattern is the first with the runs of tokens narrowed. -/
inductive Narrows : Pattern → Pattern → Prop
  | empty : Narrows .empty .empty
  | one {cls : CharClass} (stops : cls.contains '?' = false) : Narrows (.one cls) (.one cls)
  | seq {p p' q q' : Pattern} (first : Narrows p p') (second : Narrows q q') :
      Narrows (.seq p q) (.seq p' q')
  | choice {p p' q q' : Pattern} (first : Narrows p p') (second : Narrows q q') :
      Narrows (.choice p q) (.choice p' q')
  | group {p p' : Pattern} (slot : Nat) (body : Narrows p p') :
      Narrows (.group slot p) (.group slot p')
  | repeated {p p' : Pattern} (least : Nat) (bound : Option Nat) {preference : Preference}
      (backtracks : preference ≠ .most) (body : Narrows p p') :
      Narrows (.repeated least bound preference p) (.repeated least bound preference p')
  | token (slot : Nat) (t : Token) :
      Narrows (piecePattern hostRun slot (.token t)) (piecePattern queryRun slot (.token t))

section Within

variable {l l' m m' : Language Char}

theorem Within.refl (l : Language Char) : Within l l := fun _ inside _ => inside

theorem Within.add (first : Within l l') (second : Within m m') : Within (l + m) (l' + m') := by
  intro u inside plain
  rcases (Language.mem_add _ _ _).mp inside with inside | inside
  · exact (Language.mem_add _ _ _).mpr (.inl (first u inside plain))
  · exact (Language.mem_add _ _ _).mpr (.inr (second u inside plain))

theorem Within.pow (h : Within l l') (n : Nat) : Within (l ^ n) (l' ^ n) := by
  induction n with
  | zero =>
      rw [pow_zero, pow_zero]
      exact .refl 1
  | succ n ih =>
      rw [pow_succ, pow_succ]
      exact ih.mul h

end Within

namespace Narrows

variable {p q : Pattern}

theorem regular (narrows : Narrows p q) : Regular p ∧ Regular q := by
  induction narrows with
  | empty => exact ⟨trivial, trivial⟩
  | one stops => exact ⟨trivial, trivial⟩
  | seq first second ih ih' | choice first second ih ih' =>
      exact ⟨⟨ih.1, ih'.1⟩, ih.2, ih'.2⟩
  | group slot body ih => exact ih
  | repeated least bound backtracks body ih => exact ⟨⟨backtracks, ih.1⟩, backtracks, ih.2⟩
  | token slot t =>
      exact ⟨regular_piecePattern hostRun_preference slot (.token t),
        regular_piecePattern queryRun_preference slot (.token t)⟩

theorem stops (narrows : Narrows p q) : Stops '?' q := by
  induction narrows with
  | empty => trivial
  | one stops => exact stops
  | seq first second ih ih' | choice first second ih ih' => exact ⟨ih, ih'⟩
  | group slot body ih => exact ih
  | repeated least bound backtracks body ih => exact ⟨backtracks, ih⟩
  | token slot t => exact ⟨queryRun_preference t.kind, queryRun_mark t.kind⟩

/-- What the host's pattern covers without a question mark, the narrowed one covers. -/
theorem within (narrows : Narrows p q) : Within p.language q.language := by
  induction narrows with
  | empty => exact .refl _
  | one stops => exact .refl _
  | seq first second ih ih' => exact ih.mul ih'
  | choice first second ih ih' => exact ih.add ih'
  | group slot body ih => exact ih
  | repeated least bound backtracks body ih =>
      cases bound with
      | none => exact (ih.pow least).mul ih.any
      | some bound => exact (ih.pow least).mul (ih.optional.pow (bound - least))
  | token slot t => exact within_piece slot (.token t)

theorem seqAll {ps qs : List Pattern} (narrows : List.Forall₂ Narrows ps qs) :
    Narrows (seqAll ps) (seqAll qs) := by
  induction narrows with
  | nil => exact .empty
  | @cons p q ps qs first others ih =>
      cases others with
      | nil => exact first
      | cons second others => exact .seq first ih

theorem choiceAll {ps qs : List Pattern} (narrows : List.Forall₂ Narrows ps qs) :
    Narrows (choiceAll ps) (choiceAll qs) := by
  induction narrows with
  | nil => exact .empty
  | @cons p q ps qs first others ih =>
      cases others with
      | nil => exact first
      | cons second others => exact .choice first ih

end Narrows

/-! ### Readers in lockstep -/

/-- Whether two parts can be repeated or not alike, and the second narrows the first. -/
inductive PartNarrows : Part → Part → Prop
  | plain {p q : Pattern} (narrows : Narrows p q) : PartNarrows (.plain p) (.plain q)
  | repeated {p q : Pattern} (narrows : Narrows p q) : PartNarrows (.repeated p) (.repeated q)

theorem PartNarrows.pattern {part part' : Part} (narrows : PartNarrows part part') :
    Narrows part.pattern part'.pattern := by
  cases narrows with
  | plain narrows | repeated narrows => exact narrows

/-- Whether two readers have as many groups open and the second has narrowed parts. At the outside
there is the first anchor, and no choice. -/
inductive Lockstep : Nat → Level → List Group → Level → List Group → Prop
  | outside {parts parts' : List Part} (narrows : List.Forall₂ PartNarrows parts parts') :
      Lockstep 0 ⟨[], parts ++ [.anchor .start]⟩ [] ⟨[], parts' ++ [.anchor .start]⟩ []
  | inside {depth opened opened' : Nat} {level level' : Level} {groups groups' : List Group}
      {choices choices' : List Pattern} {parts parts' : List Part} (slot : Option Nat)
      (around : Lockstep depth level groups level' groups')
      (finished : List.Forall₂ Narrows choices choices')
      (narrows : List.Forall₂ PartNarrows parts parts') :
      Lockstep (depth + 1) ⟨choices, parts⟩ (⟨opened, slot, level⟩ :: groups) ⟨choices', parts'⟩
        (⟨opened', slot, level'⟩ :: groups')

theorem narrows_patterns {parts parts' : List Part}
    (narrows : List.Forall₂ PartNarrows parts parts') :
    List.Forall₂ Narrows (parts.reverse.map Part.pattern) (parts'.reverse.map Part.pattern) := by
  rw [List.forall₂_map_left_iff, List.forall₂_map_right_iff, List.forall₂_reverse_iff]
  exact narrows.imp fun _ _ => PartNarrows.pattern

namespace Lockstep

variable {depth : Nat} {level level' : Level} {groups groups' : List Group}

theorem push (lockstep : Lockstep depth level groups level' groups') {part part' : Part}
    (narrows : PartNarrows part part') :
    Lockstep depth (level.push part) groups (level'.push part') groups' := by
  cases lockstep with
  | outside others => exact .outside (.cons narrows others)
  | inside slot around finished others =>
      exact .inside slot around finished (.cons narrows others)

theorem last {choices : List Pattern} {p : Pattern} {parts : List Part}
    (lockstep : Lockstep depth ⟨choices, .plain p :: parts⟩ groups level' groups') :
    ∃ choices' q parts', level' = ⟨choices', .plain q :: parts'⟩ ∧ Narrows p q ∧
      ∀ {part part' : Part}, PartNarrows part part' →
        Lockstep depth ⟨choices, part :: parts⟩ groups ⟨choices', part' :: parts'⟩ groups' := by
  generalize same : (⟨choices, .plain p :: parts⟩ : Level) = level at lockstep
  cases lockstep with
  | outside narrows =>
      cases narrows with
      | nil => cases same
      | cons first others =>
          cases same
          cases first with
          | plain first => exact ⟨_, _, _, rfl, first, fun h => .outside (.cons h others)⟩
  | inside slot around finished narrows =>
      cases narrows with
      | nil => cases same
      | cons first others =>
          cases same
          cases first with
          | plain first =>
              exact ⟨_, _, _, rfl, first, fun h => .inside slot around finished (.cons h others)⟩

end Lockstep

theorem narrows_level {choices choices' : List Pattern} {parts parts' : List Part}
    (finished : List.Forall₂ Narrows choices choices')
    (narrows : List.Forall₂ PartNarrows parts parts') :
    Narrows (Level.pattern ⟨choices, parts⟩) (Level.pattern ⟨choices', parts'⟩) := by
  have current : List.Forall₂ Narrows (Level.current ⟨choices, parts⟩ :: choices)
      (Level.current ⟨choices', parts'⟩ :: choices') :=
    .cons (.seqAll (narrows_patterns narrows)) finished
  exact .choiceAll (List.forall₂_reverse_iff.mpr current)

/-- Whether two readers are in lockstep and have given out as many slots. -/
structure Together (depth : Nat) (r r' : Reader) : Prop where
  levels : Lockstep depth r.level r.groups r'.level r'.groups
  slots : r.slots = r'.slots

namespace Together

variable {depth depth' : Nat} {r r' r₁ : Reader}

theorem push (h : Together depth r r') {part part' : Part} (narrows : PartNarrows part part') :
    Together depth (r.push part) (r'.push part') :=
  ⟨h.levels.push narrows, h.slots⟩

theorem close (h : Together depth r r') (open_ : depth ≠ 0) (closed : r.close = .ok r₁) :
    ∃ r₁', r'.close = .ok r₁' ∧ Together (depth - 1) r₁ r₁' := by
  obtain ⟨level, groups, slots⟩ := r
  obtain ⟨level', groups', slots'⟩ := r'
  obtain ⟨levels, same⟩ := h
  cases levels with
  | outside => exact absurd rfl open_
  | inside slot around finished narrows =>
      have body := narrows_level finished narrows
      rw [← Except.ok.inj closed]
      cases slot with
      | none => exact ⟨_, rfl, around.push (.plain body), same⟩
      | some slot => exact ⟨_, rfl, around.push (.plain (.group slot body)), same⟩

theorem quantify (h : Together depth r r') {least : Nat} {bound : Option Nat}
    {preference : Preference} (backtracks : preference ≠ .most)
    (quantified : r.quantify least bound preference = .ok r₁) :
    ∃ r₁', r'.quantify least bound preference = .ok r₁' ∧ Together depth r₁ r₁' := by
  obtain ⟨⟨choices, parts⟩, groups, slots⟩ := r
  cases parts with
  | nil => cases quantified
  | cons part parts =>
      cases part with
      | anchor p => cases quantified
      | repeated p => cases quantified
      | plain p =>
          obtain ⟨level', groups', slots'⟩ := r'
          obtain ⟨choices', q, parts', rfl, narrows, others⟩ := h.levels.last
          rw [← Except.ok.inj quantified]
          exact ⟨_, rfl, others (.repeated (.repeated least bound backtracks narrows)), h.slots⟩

theorem step (h : Together depth r r') {token : Pattern.Token}
    (keeps : depthAfter? depth token = some depth') {position : Nat}
    (read : r.step (token, position) = .ok r₁) (position' : Nat) :
    ∃ r₁', r'.step (token, position') = .ok r₁' ∧ Together depth' r₁ r₁' := by
  cases token with
  | one cls =>
      rw [depthAfter?] at keeps
      split at keeps
      · cases keeps
      next plain =>
          cases keeps
          rw [← Except.ok.inj read]
          exact ⟨_, rfl, h.push (.plain (.one (Bool.eq_false_iff.mpr plain)))⟩
  | opening captures =>
      cases keeps
      rw [← Except.ok.inj read]
      refine ⟨_, rfl, ?_, ?_⟩
      · change Lockstep (depth + 1) {} (⟨position, if captures then some r.slots else none, _⟩ :: _)
          {} (⟨position', if captures then some r'.slots else none, _⟩ :: _)
        rw [h.slots]
        exact .inside _ h.levels .nil .nil
      · change (if captures then r.slots + 1 else r.slots) =
          if captures then r'.slots + 1 else r'.slots
        rw [h.slots]
  | closing =>
      rw [depthAfter?] at keeps
      split at keeps
      · cases keeps
      next open_ =>
          cases keeps
          obtain ⟨r₁', closed, together⟩ := h.close open_ (mapError_eq_ok_iff.mp read)
          exact ⟨r₁', mapError_eq_ok_iff.mpr closed, together⟩
  | bar =>
      rw [depthAfter?] at keeps
      split at keeps
      · cases keeps
      next open_ =>
          cases keeps
          obtain ⟨level, groups, slots⟩ := r
          obtain ⟨level', groups', slots'⟩ := r'
          obtain ⟨levels, same⟩ := h
          cases levels with
          | outside => exact absurd rfl open_
          | inside slot around finished narrows =>
              rw [← Except.ok.inj read]
              have current := Narrows.seqAll (narrows_patterns narrows)
              exact ⟨_, rfl, .inside slot around (.cons current finished) .nil, same⟩
  | quantifier least bound preference =>
      rw [depthAfter?] at keeps
      split at keeps
      · cases keeps
      next backtracks =>
          cases keeps
          obtain ⟨r₁', quantified, together⟩ := h.quantify backtracks (mapError_eq_ok_iff.mp read)
          exact ⟨r₁', mapError_eq_ok_iff.mpr quantified, together⟩
  | start => cases keeps
  | finish => cases keeps
  | flawed flaw => cases keeps

theorem shape (h : Together depth r r') (kind : TokenKind)
    {located located' : List (Pattern.Token × Nat)}
    (host : located.map Prod.fst = (hostRun kind).kinds)
    (query : located'.map Prod.fst = (queryRun kind).kinds) :
    ∃ r₁ r₁', located.foldlM Reader.step r = .ok r₁ ∧
      located'.foldlM Reader.step r' = .ok r₁' ∧ Together depth r₁ r₁' := by
  let p := Piece.token ⟨kind, []⟩
  have first := adds_piece hostRun (p := p) r.slots r.level r.groups located host
  have second := adds_piece queryRun (p := p) r'.slots r'.level r'.groups located' query
  refine ⟨_, _, first, second, h.levels.push (.plain ?_), congrArg (· + 1) h.slots⟩
  rw [h.slots]
  exact .token r'.slots ⟨kind, []⟩

theorem run {elements : List Element} (suited : Suited depth elements) (h : Together depth r r')
    {located located' : List (Pattern.Token × Nat)}
    (host : located.map Prod.fst = elements.flatMap (Element.kinds hostRun))
    (query : located'.map Prod.fst = elements.flatMap (Element.kinds queryRun))
    (read : located.foldlM Reader.step r = .ok r₁) :
    ∃ r₁', located'.foldlM Reader.step r' = .ok r₁' ∧ Together 0 r₁ r₁' := by
  induction elements generalizing depth r r' located located' with
  | nil =>
      rw [List.map_eq_nil_iff.mp host] at read
      rw [List.map_eq_nil_iff.mp query]
      cases read
      exact ⟨r', rfl, suited ▸ h⟩
  | cons e rest ih =>
      rw [List.flatMap_cons] at host query
      cases e with
      | shape kind =>
          obtain ⟨here, others, rfl, hereKinds, otherKinds⟩ := List.map_eq_append_iff.mp host
          obtain ⟨here', others', rfl, hereKinds', otherKinds'⟩ := List.map_eq_append_iff.mp query
          obtain ⟨r₂, r₂', first, second, together⟩ := h.shape kind hereKinds hereKinds'
          rw [List.foldlM_append, first] at read
          rw [List.foldlM_append, second]
          exact ih suited together otherKinds otherKinds' read
      | other first more token =>
          obtain ⟨_, _, depth', keeps, suited⟩ := suited
          obtain ⟨⟨_, position⟩, others, rfl, rfl, otherKinds⟩ := List.map_eq_cons_iff.mp host
          obtain ⟨⟨_, position'⟩, others', rfl, rfl, otherKinds'⟩ := List.map_eq_cons_iff.mp query
          rw [List.foldlM_cons] at read ⊢
          obtain ⟨r₂, first, read⟩ := bind_eq_ok_iff.mp read
          obtain ⟨r₂', second, together⟩ := h.step keeps first position'
          rw [second]
          exact ih suited together otherKinds otherKinds' read

end Together

/-! ### Narrowed sources -/

theorem pattern_outside (parts : List Part) :
    (⟨[], parts ++ [.anchor .start]⟩ : Level).pattern =
      seqAll (.start :: parts.reverse.map Part.pattern) := by
  rw [Level.pattern_of_choices rfl, Level.patterns, List.reverse_append]
  rfl

theorem finish_outside {kinds : List Pattern.Token} {slots slots' : Nat} {more : List Part}
    (adds : Pattern.Adds kinds slots more slots') (parts : List Part)
    {located : List (Pattern.Token × Nat)} (same : located.map Prod.fst = kinds) :
    (located.foldlM Reader.step ⟨⟨[], parts ++ [.anchor .start]⟩, [], slots⟩).bind Reader.finish =
      .ok (seqAll (.start :: (parts.reverse.map Part.pattern ++ more.map Part.pattern))) := by
  have whole := pattern_outside (more.reverse ++ parts)
  rw [List.append_assoc, List.reverse_append, List.reverse_reverse, List.map_append] at whole
  rw [adds _ _ located same]
  exact congrArg Except.ok whole

/-- A source that is made for narrowing is read after it as before, up to the runs of its tokens
and the group for the query. -/
theorem parse_narrow {elements : List Element} (suited : Suited 0 elements) {p : Pattern}
    (read : Pattern.parse ('^' :: written hostShape elements ['$']) = .ok p) :
    ∃ ps qs, List.Forall₂ Narrows ps qs ∧ p = seqAll (.start :: (ps ++ [.finish])) ∧
      Pattern.parse (narrow {} ('^' :: written hostShape elements ['$'])) =
        .ok (narrowed (.start :: qs)) := by
  obtain ⟨front, back, fronts, backs, parsed⟩ := Pattern.parse_anchored (kinds_host suited)
  obtain ⟨front', back', fronts', backs', parsed'⟩ := Pattern.parse_anchored (kinds_narrowed suited)
  obtain ⟨r, run, finished⟩ := (parsed p).mp read
  have starts : Together 0 (Reader.push (.anchor .start) {}) (Reader.push (.anchor .start) {}) :=
    ⟨.outside .nil, rfl⟩
  have begun : (Reader.push (.anchor .start) {}).Numbered := Reader.numbered_empty.push rfl
  obtain ⟨r', run', together⟩ := starts.run suited fronts fronts' run
  have numbered := begun.run run'
  obtain ⟨level, groups, slots⟩ := r
  obtain ⟨level', groups', slots'⟩ := r'
  obtain ⟨levels, _⟩ := together
  cases levels with
  | @outside parts parts' narrows =>
      refine ⟨_, _, narrows_patterns narrows, ?_, ?_⟩
      · have whole := finish_outside (.finish (n := slots)) parts backs
        exact Except.ok.inj (finished.symm.trans whole)
      · have whole := finish_outside ((adds_queryKinds slots').append .finish) parts' backs'
        have size : (seqAll (.start :: parts'.reverse.map Part.pattern)).slots = slots' := by
          rw [← pattern_outside, Level.slots_pattern]
          exact numbered
        refine (parsed' _).mpr ⟨_, run', whole.trans ?_⟩
        rw [narrowed, size]
        rfl

end FragmentRouting.Template
