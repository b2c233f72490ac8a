import FragmentRouting.Proofs.Settings.Precedence

/-!
Of which kinds the settings of an environment are. A variable becomes a truth value if its text
spells one and a text otherwise, whatever field it is for, so the kinds are right exactly if the
variables for the one field that takes a truth value, and no others, spell one.
-/
namespace FragmentRouting.Settings

/-- The kind of value that a field is for. -/
def Field.kind : Field → Value.Kind
  | .codec | .arrayDelimiter | .encoding => .text
  | .stripLeadingSlash => .bool

def WellTyped (settings : Settings) : Prop := ∀ field, (settings.get field).kind = field.kind

theorem wellTyped_default : WellTyped {} := by
  intro field
  cases field <;> rfl

/-- Whether a text is the word for a truth value, in any case. -/
def SpellsTruth (t : Text) : Prop :=
  Text.lower t = "true".toList ∨ Text.lower t = "false".toList

theorem kind_variableValue (t : Text) :
    (SpellsTruth t ∧ (variableValue t).kind = .bool) ∨
      (¬ SpellsTruth t ∧ (variableValue t).kind = .text) := by
  rw [variableValue]
  split
  next isTrue => exact .inl ⟨.inl isTrue, rfl⟩
  split
  next _ isFalse => exact .inl ⟨.inr isFalse, rfl⟩
  next notTrue notFalse => exact .inr ⟨not_or.mpr ⟨notTrue, notFalse⟩, rfl⟩

theorem Field.kind_mem (field : Field) : field.kind ∈ [Value.Kind.text, .bool] := by
  cases field <;> decide

theorem kind_variableValue_eq_iff (t : Text) (field : Field) :
    (variableValue t).kind = field.kind ↔ (SpellsTruth t ↔ field.kind = .bool) := by
  rcases kind_variableValue t with ⟨spells, kind⟩ | ⟨other, kind⟩
  · rw [kind, iff_true_left spells, eq_comm]
  · rw [kind, iff_false_left other]
    cases field <;> decide

section Environment

variable {lead : Text} {field : Field} {variable_ : Text × Text}

/-- Whether a variable is for a field: its name is the prefix and then the name of the field in any
case. -/
def IsFor (lead : Text) (field : Field) (variable_ : Text × Text) : Prop :=
  ∃ rest, variable_.1 = lead ++ rest ∧ Text.lower rest = field.name

theorem settingOf?_of_isFor (named : IsFor lead field variable_) :
    settingOf? lead variable_ = some (.text field.name, variableValue variable_.2) := by
  obtain ⟨rest, name, same⟩ := named
  rw [← Prod.eta variable_]
  refine settingOf?_eq_some (t := rest) ?_ same rfl
  rw [name, List.isPrefixOf?_eq_some_iff_append_eq]

theorem key_ne_of_not_isFor (other : ¬ IsFor lead field variable_) {entry : Value × Value}
    (made : settingOf? lead variable_ = some entry) : entry.1 ≠ .text field.name := by
  rw [settingOf?, Option.map_eq_some_iff] at made
  obtain ⟨rest, starts, rfl⟩ := made
  intro same
  rw [List.isPrefixOf?_eq_some_iff_append_eq] at starts
  exact other ⟨rest, starts.symm, Value.text.inj same⟩

theorem get_ofEnvironment_eq (lead : Text) (environment : Environment) (field : Field) :
    (ofEnvironment lead environment).get field =
      (OrderedMap.find? (.text field.name) (variableEntries lead environment).reverse).getD
        field.default := by
  rw [ofEnvironment, get_ofMap, find?_environmentMap]

/-- A field of an environment's settings has its default, or the value of the last variable that is
for it. -/
theorem get_ofEnvironment (lead : Text) (environment : Environment) (field : Field) :
    ((∀ variable_ ∈ environment, ¬ IsFor lead field variable_) ∧
        (ofEnvironment lead environment).get field = ({} : Settings).get field) ∨
      ∃ variable_, IsLast (IsFor lead field) environment variable_ ∧
        (ofEnvironment lead environment).get field = variableValue variable_.2 := by
  rw [get_ofEnvironment_eq]
  induction environment using List.reverseRecOn with
  | nil => exact .inl ⟨List.forall_mem_nil _, rfl⟩
  | append_singleton environment next ih =>
      rw [variableEntries, List.filterMap_append, ← variableEntries, List.reverse_append,
        OrderedMap.find?_append]
      by_cases named : IsFor lead field next
      · refine .inr ⟨next, isLast_concat named, ?_⟩
        rw [List.filterMap_cons_some (settingOf?_of_isFor named), List.filterMap_nil,
          List.reverse_singleton, OrderedMap.find?_cons, if_pos (Value.beq_text_iff.mpr rfl)]
        rfl
      · have missed : OrderedMap.find? (.text field.name)
            ([next].filterMap (settingOf? lead)).reverse = none := by
          rw [OrderedMap.find?_eq_none_iff]
          intro entry member same
          obtain ⟨variable_, listed, made⟩ := List.mem_filterMap.mp (List.mem_reverse.mp member)
          rw [List.mem_singleton.mp listed] at made
          exact key_ne_of_not_isFor named made (Value.beq_text_iff.mp same)
        rw [missed, Option.none_or]
        refine ih.imp ?_ ?_
        · rintro ⟨none, default⟩
          exact ⟨List.forall_mem_append.mpr ⟨none, List.forall_mem_singleton.mpr named⟩, default⟩
        · rintro ⟨last, isLast, value⟩
          exact ⟨last, isLast.concat named, value⟩

end Environment

theorem load_none (readers : Readers) (lead : Text) (environment : Environment) :
    (load readers none lead environment).1 = .ok (ofEnvironment lead environment) := by
  change Except.ok (ofMap (OrderedMap.update ({} : Settings).toMap _)) = _
  congr 1
  refine ext_get fun field => ?_
  rw [get_ofMap_update, ofEnvironment, get_ofMap]
  rfl

/-- What an environment alone gives always loads, and each field is a text or a truth value. They
are the kinds that the fields are for exactly if, of the last variables for the fields, those for a
truth value spell one and the others do not. -/
theorem ofEnvironment_wellTyped_iff (readers : Readers) (lead : Text) (environment : Environment) :
    (load readers none lead environment).1 = .ok (ofEnvironment lead environment) ∧
      (∀ field, ((ofEnvironment lead environment).get field).kind ∈ [.text, .bool]) ∧
      ((ofEnvironment lead environment).WellTyped ↔
        ∀ field variable_, IsLast (IsFor lead field) environment variable_ →
          (SpellsTruth variable_.2 ↔ field.kind = .bool)) := by
  refine ⟨load_none readers lead environment, fun field => ?_, ?_, ?_⟩
  · rcases get_ofEnvironment lead environment field with ⟨_, default⟩ | ⟨variable_, _, value⟩
    · rw [default, wellTyped_default field]
      exact field.kind_mem
    · rw [value]
      rcases kind_variableValue variable_.2 with ⟨_, kind⟩ | ⟨_, kind⟩ <;> rw [kind] <;> decide
  · intro typed field variable_ last
    rcases get_ofEnvironment lead environment field with ⟨none, _⟩ | ⟨variable_', last', value⟩
    · obtain ⟨before, after, rfl, named, _⟩ := last
      exact absurd named (none _ (List.mem_append_right before List.mem_cons_self))
    · rw [last.unique last', ← kind_variableValue_eq_iff, ← value]
      exact typed field
  · intro suited field
    rcases get_ofEnvironment lead environment field with ⟨_, default⟩ | ⟨variable_, last, value⟩
    · rw [default]
      exact wellTyped_default field
    · rw [value, kind_variableValue_eq_iff]
      exact suited field variable_ last

/-- A delimiter that spells a truth value becomes one. -/
theorem not_wellTyped_environment :
    (∀ readers : Readers,
        (load readers none usualPrefix [("ROADQUERY_ARRAY_DELIMITER".toList, "true".toList)]).1 =
          .ok { arrayDelimiter := .bool true }) ∧
      ofEnvironment usualPrefix [("ROADQUERY_ARRAY_DELIMITER".toList, "true".toList)] =
        { arrayDelimiter := .bool true } ∧
      ¬ WellTyped { arrayDelimiter := .bool true } := by
  have truth : variableValue "true".toList = .bool true := by
    rw [variableValue, if_pos (by decide +kernel)]
  have enters : settingOf? usualPrefix ("ROADQUERY_ARRAY_DELIMITER".toList, "true".toList) =
      some (.text "array_delimiter".toList, .bool true) :=
    settingOf?_eq_some (t := "ARRAY_DELIMITER".toList) (by decide) (by decide +kernel) truth
  have alone : ofEnvironment usualPrefix [("ROADQUERY_ARRAY_DELIMITER".toList, "true".toList)] =
      { arrayDelimiter := .bool true } := by
    rw [ofEnvironment, environmentMap, List.filterMap_cons_some enters, List.filterMap_nil]
    rfl
  refine ⟨fun readers => ?_, alone, fun typed => ?_⟩
  · rw [load_none, alone]
  · cases typed .arrayDelimiter

end FragmentRouting.Settings
