import FragmentRouting.Proofs.Fragment.Link
import FragmentRouting.Proofs.Router.Query

namespace FragmentRouting

theorem Fragment.normalize_of_head? {stripSlash : Bool} {fragment : Text}
    (hash : fragment.head? ≠ some '#') (slash : stripSlash = true → fragment.head? ≠ some '/')
    (trimmed : Text.trimEnd fragment = fragment) : normalize stripSlash fragment = fragment := by
  rw [normalize, Text.dropLead_of_head? hash]
  cases stripSlash with
  | true => exact (congrArg Text.trimEnd (Text.dropLead_of_head? (slash rfl))).trans trimmed
  | false => exact trimmed

namespace Router

open Template (Segmented Token tokens)

/-- A link of a route whose template is a list of segments leads back to the route and to what the
link stands for. -/
theorem find_link (stripSlash : Bool) (settings : Codec.Settings) (sink : Sink)
    (utf8 : Wire.IsUtf8 settings.encoding) (commands : List Command) :
    let codec : Codec := ⟨.bracket, settings, sink⟩
    let router := (withQueries stripSlash codec Template.standardHost).replay commands
    ∀ before route after, router.routes = before ++ route :: after →
      ∀ params, Fragment.Linkable codec route.template params →
        ∀ fragment, Fragment.ofArguments codec route.template [params.toValue] = .ok fragment →
          fragment.head? ≠ some '#' → (stripSlash = true → fragment.head? ≠ some '/') →
          Text.trimEnd fragment = fragment →
          (∀ earlier ∈ before,
            (router.extract earlier.matcher (Fragment.normalize stripSlash fragment)).1 =
              .ok none) →
          ∃ values, Fragment.linked codec route.template params = .ok values ∧
            (router.find fragment).1 = .ok (some ⟨route, values⟩) := by
  intro codec router before route after table params linkable fragment built hash slash trimmed
    first
  have sound : router.Sound stripSlash codec Template.standardHost :=
    sound_withQueries.replay commands
  have bare := Fragment.normalize_of_head? hash slash trimmed
  have member : route ∈ router.routes := by
    rw [table]
    exact List.mem_append_right before List.mem_cons_self
  obtain ⟨compiled, fresh, matcher⟩ := sound.routes route member
  rw [Fragment.ofArguments_params] at built
  obtain ⟨values, stands, extracted⟩ :=
    Fragment.extract_link sink utf8 linkable built trimmed fresh
  rw [← matcher, ← extract_of_sound sound] at extracted
  have accepted : route.matcher.accepts fragment = true := router.accepts_of_extract extracted
  -- An earlier route that extracts nothing does not match either, so the search reaches this one.
  have found : router.routes.find? (·.matcher.accepts fragment) = some route := by
    refine List.find?_eq_some_iff_append.mpr ⟨accepted, before, after, table, ?_⟩
    intro earlier listed
    have missed := first earlier listed
    rw [bare] at missed
    rw [router.accepts_of_extract missed]
    rfl
  refine ⟨values, stands, ?_⟩
  rw [find_eq, sound.strips, bare, found]
  change (router.outcomeAt fragment route).1 = _
  rw [outcomeAt, extracted]
  rfl

def filesTemplate : Text := "files/:owner/at:/*path".toList

def filesCommands : List Command :=
  [.add { template := "page/:id".toList }, .add { template := filesTemplate }]

def filesParams : Params := [
  ("path".toList, .text "a/b\n:c".toList),
  ("tags".toList, .list [.text "a".toList, .int 2]),
  ("owner".toList, .text []),
  ("show".toList, .bool true)]

def filesLink : Text := "files//at:/a/b\n:c?tags%5B%5D=a&tags%5B%5D=2&show=true".toList

theorem segmented_files : Segmented filesTemplate := by
  have files : Template.Segment "files".toList := .literal (by decide +kernel) (by simp)
  have owner : Template.Segment (Token.text ⟨.named, "owner".toList⟩) :=
    .named ⟨by decide, List.all_eq_true.mp (by decide +kernel)⟩
  have marker : Template.Segment "at:".toList := .literal (by decide +kernel) (by simp)
  have path : Segmented (Token.text ⟨.splat, "path".toList⟩) :=
    .splat ⟨by decide, List.all_eq_true.mp (by decide +kernel)⟩
  exact .slash files (.slash owner (.slash marker path))

theorem linkable_files : Fragment.Linkable ⟨.bracket, {}, .logging⟩ filesTemplate filesParams where
  segmented := segmented_files
  names := by decide +kernel
  distinct := by decide
  supplied := by
    have listed : tokens filesTemplate =
        [⟨.named, "owner".toList⟩, ⟨.splat, "path".toList⟩] := by
      decide +kernel
    rw [listed]
    refine List.forall_mem_cons.mpr ⟨?_, List.forall_mem_singleton.mpr ?_⟩
    · exact ⟨.text [], by simp [filesParams], by decide +kernel⟩
    · exact ⟨.text "a/b\n:c".toList, by simp [filesParams], by decide +kernel⟩
  unsuffixed := Fragment.unsuffixed_beyond _ (by decide +kernel)

theorem find_link_files :
    let codec : Codec := ⟨.bracket, {}, .logging⟩
    let router := (withQueries true codec Template.standardHost).replay filesCommands
    Wire.IsUtf8 ({} : Codec.Settings).encoding ∧
      Fragment.Linkable codec filesTemplate filesParams ∧
      Fragment.ofArguments codec filesTemplate [filesParams.toValue] = .ok filesLink ∧
      filesLink.head? ≠ some '#' ∧ filesLink.head? ≠ some '/' ∧
      Text.trimEnd filesLink = filesLink ∧
      ∃ earlier route, router.routes = [earlier, route] ∧ route.template = filesTemplate ∧
        (router.extract earlier.matcher (Fragment.normalize true filesLink)).1 = .ok none ∧
        ∃ values, Fragment.linked codec filesTemplate filesParams = .ok values ∧
          (router.find filesLink).1 = .ok (some ⟨route, values⟩) := by
  intro codec router
  have built : Fragment.ofArguments codec filesTemplate [filesParams.toValue] = .ok filesLink := by
    decide +kernel
  have hash : filesLink.head? ≠ some '#' := by decide
  have slash : filesLink.head? ≠ some '/' := by decide
  have trimmed : Text.trimEnd filesLink = filesLink := by decide +kernel
  have shape : router.routes.map (·.template) = ["page/:id".toList, filesTemplate] := by
    decide +kernel
  have missed : router.routes.head?.all fun route =>
      !route.matcher.accepts (Fragment.normalize true filesLink) := by
    decide +kernel
  obtain ⟨page, rest, table, _, behind⟩ := List.map_eq_cons_iff.mp shape
  obtain ⟨files, others, rfl, template, nothing⟩ := List.map_eq_cons_iff.mp behind
  rw [List.map_eq_nil_iff.mp nothing] at table
  rw [table] at missed
  have passed : (router.extract page.matcher (Fragment.normalize true filesLink)).1 = .ok none :=
    congrArg Prod.fst (router.extract_of_rejects ((Bool.not_eq_true' _).mp missed))
  refine ⟨Codec.isUtf8_default, linkable_files, built, hash, slash, trimmed, page, files, table,
    template, passed, ?_⟩
  have linkable := linkable_files
  rw [← template] at linkable built ⊢
  exact find_link true {} .logging Codec.isUtf8_default filesCommands [page] files [] table
    filesParams linkable filesLink built hash (fun _ => slash) trimmed
    (List.forall_mem_singleton.mpr passed)

end Router

end FragmentRouting
