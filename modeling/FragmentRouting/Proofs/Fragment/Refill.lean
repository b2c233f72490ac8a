import FragmentRouting.Fragment.Build
import FragmentRouting.Proofs.Template.Captures

namespace FragmentRouting.Fragment

open Template (Fills Piece)

theorem fillInOrder_of_fills (codec : Codec) {ps : List Piece} {values : List Text} {u : Text}
    (fills : Fills ps values u) : fillInOrder codec ps (values.map .text) = .ok u := by
  induction fills with
  | nil => rfl
  | literal others ih =>
      rw [fillInOrder, ih]
      rfl
  | @token t rest v values u admits others ih =>
      have here : pathText codec (.text v) = .ok v := rfl
      rw [fillInOrder, List.map_cons, List.head?_cons, Option.getD_some, here, ok_bind,
        List.tail_cons, ih]
      rfl

/-- A template without parentheses, whose stars all start tokens, compiles. Of a path that it
matches, all captures but the last are texts, and the template filled with them, with the last one
behind if there is one, is the path, up to one line feed at its end. -/
theorem captures_refill (codec : Codec) (template : Text) (opening : '(' ∉ template)
    (closing : ')' ∉ template) (stars : Template.starsNamed template = true) :
    ∃ object, (({} : Template.Compiler).compile template).1 = .ok object ∧
      ∀ path captures, object.compiled.matcher.captures? path = some captures →
        ∃ (values : List Text) (last : Option Text) (text : Text),
          captures = values.map some ++ [last] ∧
          fromValues codec template (values.map .text) [] = .ok text ∧
          (path = text ++ last.getD [] ∨ path = text ++ last.getD [] ++ ['\n']) := by
  have fresh := Template.compileFresh_pieces (Template.plain_of_not_mem opening closing stars)
  obtain ⟨object, compiled, same⟩ :=
    map_eq_ok_iff.mp ((Template.compile_default template).trans fresh)
  refine ⟨object, compiled, fun path captures matched => ?_⟩
  rw [same] at matched
  obtain ⟨values, u, query, rest, fills, split, whole, ends⟩ :=
    Template.fills_of_captures? matched
  have filled : fromValues codec template (values.map .text) [] = .ok u := by
    rw [fromValues, fillInOrder_of_fills codec fills]
    rfl
  refine ⟨values, _, u, split, filled, ?_⟩
  rcases ends with rfl | rfl
  · left
    rw [whole, List.append_nil]
  · exact .inr whole

def refillTemplate : Text := "find?:q*rest.".toList

theorem captures_refill_find :
    '(' ∉ refillTemplate ∧ ')' ∉ refillTemplate ∧ Template.starsNamed refillTemplate = true ∧
      ∃ object, (({} : Template.Compiler).compile refillTemplate).1 = .ok object ∧
        ∃ captures, object.compiled.matcher.captures? "find?a/b..?q=1\n".toList = some captures ∧
          ∃ (values : List Text) (last : Option Text) (text : Text),
            captures = values.map some ++ [last] ∧
            fromValues ⟨.bracket, {}, .logging⟩ refillTemplate (values.map .text) [] = .ok text ∧
            ("find?a/b..?q=1\n".toList = text ++ last.getD [] ∨
              "find?a/b..?q=1\n".toList = text ++ last.getD [] ++ ['\n']) := by
  have opening : '(' ∉ refillTemplate := by decide
  have closing : ')' ∉ refillTemplate := by decide
  have stars : Template.starsNamed refillTemplate = true := by decide +kernel
  have matched : (({} : Template.Compiler).compile refillTemplate).1.toOption.bind
      (·.compiled.matcher.captures? "find?a/b..?q=1\n".toList) =
        some [some "a".toList, some "/b.".toList, some "?q=1".toList] := by
    decide +kernel
  obtain ⟨object, compiled, refill⟩ :=
    captures_refill ⟨.bracket, {}, .logging⟩ refillTemplate opening closing stars
  rw [compiled] at matched
  exact ⟨opening, closing, stars, object, compiled, _, matched, refill _ _ matched⟩

end FragmentRouting.Fragment
