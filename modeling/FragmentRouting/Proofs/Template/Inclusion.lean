import FragmentRouting.Proofs.Template.Acceptance
import FragmentRouting.Proofs.Template.Forest

namespace FragmentRouting.Template

open Computability
open Pattern (Place Regular reads_language seqAll ways_start)

/-- Whether a text may stand for a token of some kind in the host's pattern. -/
def TokenKind.HostAdmits : TokenKind → Text → Prop
  | .named, v => v ≠ [] ∧ '/' ∉ v
  | .splat, v => '\n' ∉ v

theorem mem_language_hostToken {t : Token} {slot : Nat} {u : Text} :
    u ∈ (piecePattern hostRun slot (.token t)).language ↔ t.kind.HostAdmits u := by
  have covers : u ∈ (Pattern.repeated (hostRun t.kind).least none (hostRun t.kind).preference
      (.one (hostRun t.kind).cls)).language ↔ _ := mem_language_run
  have outside (d : Char) : (∀ c ∈ u, c ≠ d) ↔ d ∉ u :=
    ⟨fun h member => h d member rfl, fun h c member same => h (same ▸ member)⟩
  refine covers.trans ?_
  cases t.kind with
  | named =>
      simp only [hostRun, TokenKind.HostAdmits, CharClass.other_contains_iff, outside]
      exact and_congr_left' List.length_pos_iff
  | splat =>
      simp only [hostRun, TokenKind.HostAdmits, CharClass.exceptLineFeed,
        CharClass.other_contains_iff, outside]
      exact and_iff_right (Nat.zero_le _)

theorem TokenKind.HostAdmits.admits {kind : TokenKind} {v : Text} (h : kind.HostAdmits v)
    (plain : '?' ∉ v) : kind.Admits v := by
  cases kind with
  | named => exact ⟨h.2, plain⟩
  | splat => exact plain

/-- Whether the texts of a language that have no question mark are in another one. -/
def Within (l l' : Language Char) : Prop := ∀ u ∈ l, '?' ∉ u → u ∈ l'

section Within

variable {l l' m m' : Language Char}

theorem Within.mul (first : Within l l') (second : Within m m') : Within (l * m) (l' * m') := by
  rintro _ ⟨u, hu, v, hv, rfl⟩ plain
  have plain : '?' ∉ u ∧ '?' ∉ v := not_or.mp fun h => plain (List.mem_append.mpr h)
  exact Language.append_mem_mul (first u hu plain.1) (second v hv plain.2)

theorem Within.optional (h : Within l l') : Within (1 + l) (1 + l') := by
  intro u inside plain
  rcases (Language.mem_add _ _ _).mp inside with nothing | inside
  · exact (Language.mem_add _ _ _).mpr (.inl nothing)
  · exact (Language.mem_add _ _ _).mpr (.inr (h u inside plain))

theorem Within.any (h : Within l l') : Within l∗ l'∗ := by
  intro u inside plain
  obtain ⟨words, rfl, members⟩ := Language.mem_kstar.mp inside
  refine Language.mem_kstar.mpr ⟨words, rfl, fun word listed => ?_⟩
  exact h word (members word listed) fun mark => plain (List.mem_flatten.mpr ⟨word, listed, mark⟩)

end Within

theorem Within.applied {p q : Pattern} (h : Within p.language q.language) (quantity : Quantity) :
    Within (quantity.applied p).language (quantity.applied q).language := by
  cases quantity with
  | once => exact h
  | optional =>
      have once (p : Pattern) : (Quantity.optional.applied p).language = 1 + p.language := by
        rw [Quantity.applied, Pattern.language, pow_zero, one_mul, Nat.sub_zero, pow_one]
      rw [once, once]
      exact h.optional
  | any =>
      have rounds (p : Pattern) : (Quantity.any.applied p).language = p.language∗ := by
        rw [Quantity.applied, Pattern.language, pow_zero, one_mul]
      rw [rounds, rounds]
      exact h.any

theorem within_piece (slot : Nat) (p : Piece) :
    Within (piecePattern hostRun slot p).language (piecePattern queryRun slot p).language := by
  intro u inside plain
  cases p with
  | literal c => exact inside
  | token t => exact mem_language_token.mpr ((mem_language_hostToken.mp inside).admits plain)

theorem language_groupPattern (captures : Bool) (slot : Nat) (body : List Pattern) :
    (groupPattern captures slot body).language = (seqAll body).language := by
  cases captures with
  | true => rfl
  | false => rfl

theorem Within.group {ps qs : List Pattern}
    (h : Within (seqAll ps).language (seqAll qs).language) (captures : Bool) (slot : Nat) :
    Within (groupPattern captures slot ps).language (groupPattern captures slot qs).language := by
  rw [language_groupPattern, language_groupPattern]
  exact h

/-- What the host's pattern of a forest covers, the narrowed one covers. -/
theorem within_patterns (forest : Forest) (slot : Nat) :
    Within (seqAll (forest.patterns hostRun slot)).language
      (seqAll (forest.patterns queryRun slot)).language := by
  induction forest generalizing slot with
  | nil => exact fun u inside _ => inside
  | piece p quantity rest ih =>
      rw [Forest.patterns, Forest.patterns, Pattern.language_seqAll_cons,
        Pattern.language_seqAll_cons]
      exact ((within_piece slot p).applied quantity).mul (ih _)
  | group captures quantity body rest ihBody ihRest =>
      have group := (ihBody (slot + captures.toNat)).group captures slot
      rw [Forest.patterns, Forest.patterns, Pattern.language_seqAll_cons,
        Pattern.language_seqAll_cons]
      exact (group.applied quantity).mul (ihRest _)

section Regular

variable {run : TokenKind → Run} (backtracks : ∀ kind, (run kind).preference ≠ .most)

theorem regular_applied {p : Pattern} (regular : Regular p) (quantity : Quantity) :
    Regular (quantity.applied p) := by
  cases quantity with
  | once => exact regular
  | optional => exact ⟨nofun, regular⟩
  | any => exact ⟨nofun, regular⟩

include backtracks

theorem regular_patterns (forest : Forest) (slot : Nat) :
    Regular (seqAll (forest.patterns run slot)) := by
  induction forest generalizing slot with
  | nil => trivial
  | piece p quantity rest ih =>
      have here := regular_applied (regular_piecePattern backtracks slot p) quantity
      exact Pattern.regular_seqAll.mpr
        (List.forall_mem_cons.mpr ⟨here, Pattern.regular_seqAll.mp (ih _)⟩)
  | group captures quantity body rest ihBody ihRest =>
      have group : Regular
          (groupPattern captures slot (body.patterns run (slot + captures.toNat))) := by
        cases captures with
        | true => exact ihBody _
        | false => exact ihBody _
      exact Pattern.regular_seqAll.mpr (List.forall_mem_cons.mpr
        ⟨regular_applied group quantity, Pattern.regular_seqAll.mp (ihRest _)⟩)

end Regular

theorem isSome_captures?_anchored {ps : List Pattern} {path : Text} :
    ((seqAll (.start :: (ps ++ [.finish]))).captures? path).isSome = true ↔
      ∃ s ∈ (seqAll ps).ways (Place.ofText (seqAll ps).slots path),
        s.rest = [] ∨ s.rest = ['\n'] := by
  rw [Pattern.captures?_anchored, Option.isSome_map, List.find?_isSome]
  exact exists_congr fun s => and_congr_right fun _ => decide_eq_true_iff

/-- A path without a question mark that the host's pattern of a template accepts is accepted by the
compiled template. -/
theorem accepts_of_host {template : Text} {host : Matcher} {compiled : Compiled}
    (hosted : standardHost template = .ok host)
    (fresh : (compileFresh standardHost {} template).1 = .ok compiled) {path : Text}
    (plain : '?' ∉ path) (accepted : host.accepts path = true) :
    compiled.matcher.accepts path = true := by
  obtain ⟨forest, _, pattern, rfl⟩ := compileFresh_forest fresh
  rw [Except.ok.inj (hosted.symm.trans pattern)] at accepted
  obtain ⟨s, reached, ends⟩ := isSome_captures?_anchored.mp accepted
  obtain ⟨u, inside, text⟩ :=
    (reads_language (regular_patterns hostRun_preference forest 0)).sound _ s reached
  have text : path = u ++ s.rest := text
  have plain : '?' ∉ u ∧ '?' ∉ s.rest := by
    rw [text, List.mem_append, not_or] at plain
    exact plain
  have covered := within_patterns forest 0 u inside plain.1
  refine isSome_captures?_narrowed.mpr ?_
  obtain ⟨s', reached', rest⟩ :=
    (reads_language (regular_patterns queryRun_preference forest 0)).complete
      (s := Place.ofText forest.queryPattern.slots path) covered text
  refine ⟨s', ?_, ?_⟩
  · rw [ways_start]
    exact reached'
  · have unmarked : s'.rest.head? ≠ some '?' := by
      rw [rest]
      exact fun mark => plain.2 (List.mem_of_head? mark)
    rw [ways_queryEnd_plain _ unmarked, Pattern.ways, rest, if_pos ends]
    exact List.cons_ne_nil s' []

end FragmentRouting.Template
