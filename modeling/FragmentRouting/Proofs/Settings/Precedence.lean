import FragmentRouting.Proofs.Except
import FragmentRouting.Proofs.OrderedMap
import FragmentRouting.Settings.Source

/-!
Which value a setting has after all sources were read. The defaults, the entries of a file, the
variables of the environment and the entries of later updates form one sequence; each field has the
value that comes last in it with the name of the field, and what has other keys counts for nothing.
-/
namespace FragmentRouting.Settings

open OrderedMap (Exact find? find?_append find?_filter find?_ofEntries find?_reverse find?_update)

/-! ### The last entry for a key -/

def IsLast {α : Type} (p : α → Prop) (items : List α) (item : α) : Prop :=
  ∃ before after, items = before ++ item :: after ∧ p item ∧ ∀ later ∈ after, ¬ p later

section IsLast

variable {α : Type} {p : α → Prop} {items : List α} {item other : α}

theorem isLast_concat (holds : p item) : IsLast p (items ++ [item]) item :=
  ⟨items, [], rfl, holds, List.forall_mem_nil _⟩

theorem IsLast.concat (last : IsLast p items item) (fails : ¬ p other) :
    IsLast p (items ++ [other]) item := by
  obtain ⟨before, after, rfl, holds, others⟩ := last
  refine ⟨before, after ++ [other], ?_, holds, ?_⟩
  · rw [List.append_assoc, List.cons_append]
  · exact List.forall_mem_append.mpr ⟨others, List.forall_mem_singleton.mpr fails⟩

theorem IsLast.unique (last : IsLast p items item) (last' : IsLast p items other) :
    item = other := by
  obtain ⟨before, after, rfl, holds, others⟩ := last
  obtain ⟨before', after', same, holds', others'⟩ := last'
  rcases List.append_eq_append_iff.mp same with ⟨between, rfl, rest⟩ | ⟨between, rfl, rest⟩
  · cases between with
    | nil => exact (List.cons.inj rest).1
    | cons _ between =>
        have listed : other ∈ after := by
          rw [(List.cons.inj rest).2]
          exact List.mem_append_right _ List.mem_cons_self
        exact absurd holds' (others _ listed)
  · cases between with
    | nil => exact (List.cons.inj rest).1.symm
    | cons _ between =>
        have listed : item ∈ after' := by
          rw [(List.cons.inj rest).2]
          exact List.mem_append_right _ List.mem_cons_self
        exact absurd holds (others' _ listed)

end IsLast

/-- Whether a value comes with the last of some entries whose key is the name of a field. -/
def LastFor (field : Field) (entries : List (Value × Value)) (value : Value) : Prop :=
  IsLast (·.1 = .text field.name) entries (.text field.name, value)

theorem find?_reverse_eq_some_iff {key : Value} (exact_ : Exact key)
    {entries : List (Value × Value)} {value : Value} :
    find? key entries.reverse = some value ↔ IsLast (·.1 = key) entries (key, value) := by
  constructor
  · intro found
    induction entries using List.reverseRecOn with
    | nil => cases found
    | append_singleton entries entry ih =>
        rw [List.reverse_concat, OrderedMap.find?_cons] at found
        split at found
        next same =>
            have named : entry = (key, value) :=
              Prod.ext ((exact_ entry.1).1.mp same) (Option.some.inj found)
            rw [named]
            exact isLast_concat rfl
        next other => exact (ih found).concat fun same => other ((exact_ entry.1).1.mpr same)
  · rintro ⟨before, after, rfl, -, others⟩
    have nothing : find? key after.reverse = none := by
      rw [OrderedMap.find?_eq_none_iff]
      intro later member same
      exact others later (List.mem_reverse.mp member) ((exact_ later.1).1.mp same)
    rw [List.reverse_append, List.reverse_cons, List.append_assoc, find?_append, nothing,
      Option.none_or, List.singleton_append, OrderedMap.find?_cons,
      if_pos ((exact_ key).1.mpr rfl)]

/-! ### Fields -/

def Field.default (field : Field) : Value := ({} : Settings).get field

theorem isFieldName_iff {key : Value} :
    isFieldName key = true ↔ ∃ field : Field, key = .text field.name := by
  rw [isFieldName, List.any_eq_true]
  constructor
  · rintro ⟨field, -, same⟩
    exact ⟨field, ((Value.exact_text field.name) key).2.mp same⟩
  · rintro ⟨field, rfl⟩
    refine ⟨field, ?_, ((Value.exact_text field.name) _).2.mpr rfl⟩
    cases field <;> decide

theorem ext_get {settings other : Settings} (same : ∀ field, settings.get field = other.get field) :
    settings = other := by
  obtain ⟨codec, arrayDelimiter, encoding, stripLeadingSlash⟩ := settings
  rw [Settings.mk.injEq]
  exact ⟨same .codec, same .arrayDelimiter, same .encoding, same .stripLeadingSlash⟩

theorem get_ofArguments (arguments : List (Value × Value)) (field : Field) :
    (ofArguments arguments).get field =
      (find? (.text field.name) arguments).getD field.default := by
  cases field <;> rfl

theorem find?_filter_isFieldName (field : Field) (entries : List (Value × Value)) :
    find? (.text field.name) (entries.filter fun entry => isFieldName entry.1) =
      find? (.text field.name) entries :=
  find?_filter fun _ same => isFieldName_iff.mpr ⟨field, Value.beq_text_iff.mp same⟩

/-- A map gives each field the value that comes last for it, or its default. -/
theorem get_ofMap (data : List (Value × Value)) (field : Field) :
    (ofMap data).get field = (find? (.text field.name) data.reverse).getD field.default := by
  rw [ofMap, get_ofArguments, find?_ofEntries (Value.exact_text _), ← List.filter_reverse,
    find?_filter_isFieldName]

theorem ofMap_filter (data : List (Value × Value)) :
    ofMap (data.filter fun entry => isFieldName entry.1) = ofMap data := by
  refine ext_get fun field => ?_
  rw [get_ofMap, get_ofMap, ← List.filter_reverse, find?_filter_isFieldName]

theorem find?_toMap (settings : Settings) (field : Field) :
    find? (.text field.name) settings.toMap = some (settings.get field) := by
  cases field <;> rfl

/-- An update on top of settings has the last word where it has an entry for a field. -/
theorem get_ofMap_update (settings : Settings) (entries : List (Value × Value)) (field : Field) :
    (ofMap (OrderedMap.update settings.toMap entries)).get field =
      (find? (.text field.name) entries.reverse).getD (settings.get field) := by
  have own : OrderedMap.Distinct settings.toMap := OrderedMap.distinct_ofEntries _
  have distinct := OrderedMap.distinct_update own entries
  rw [get_ofMap, find?_reverse (Value.exact_text _) distinct,
    find?_update (Value.exact_text _), find?_toMap]
  cases find? (.text field.name) entries.reverse <;> rfl

/-! ### What settings reflect -/

/-- Whether each field has the value that is found for it in some entries in reverse. -/
def Reflects (settings : Settings) (entries : List (Value × Value)) : Prop :=
  ∀ field : Field, find? (.text field.name) entries.reverse = some (settings.get field)

namespace Reflects

variable {settings : Settings} {entries : List (Value × Value)}

theorem ofMap {defaults : List (Value × Value)} (reflects : ({} : Settings).Reflects defaults)
    (data : List (Value × Value)) : (ofMap data).Reflects (defaults ++ data) := by
  intro field
  rw [List.reverse_append, find?_append, reflects field, get_ofMap]
  cases find? (.text field.name) data.reverse <;> rfl

theorem update (reflects : settings.Reflects entries) (more : List (Value × Value)) :
    (Settings.ofMap (OrderedMap.update settings.toMap more)).Reflects (entries ++ more) := by
  intro field
  rw [List.reverse_append, find?_append, reflects field, get_ofMap_update]
  cases find? (.text field.name) more.reverse <;> rfl

/-- Any number of updates. -/
theorem foldlM_merge (reflects : settings.Reflects entries) {updates : List Value}
    {given : List (List (Value × Value))} (readable : updates.mapM updateEntries = .ok given) :
    ∃ merged : Settings, updates.foldlM merge settings = .ok merged ∧
      merged.Reflects (entries ++ given.flatten) := by
  have each := mapM_eq_ok_iff.mp readable
  clear readable
  induction each generalizing settings entries with
  | nil =>
      refine ⟨settings, rfl, ?_⟩
      rw [List.flatten_nil, List.append_nil]
      exact reflects
  | @cons update more updates given first others ih =>
      obtain ⟨merged, run, last⟩ := ih (reflects.update more)
      refine ⟨merged, ?_, ?_⟩
      · rw [List.foldlM_cons, merge, first]
        exact run
      · rw [List.flatten_cons, ← List.append_assoc]
        exact last

theorem congr {other : Settings} {entries' : List (Value × Value)}
    (reflects : settings.Reflects entries) (reflects' : other.Reflects entries')
    (same : ∀ field : Field,
      find? (.text field.name) entries.reverse = find? (.text field.name) entries'.reverse) :
    settings = other :=
  ext_get fun field =>
    Option.some.inj ((reflects field).symm.trans ((same field).trans (reflects' field)))

theorem get_eq_iff (reflects : settings.Reflects entries) {field : Field} {value : Value} :
    settings.get field = value ↔ LastFor field entries value := by
  rw [LastFor, ← find?_reverse_eq_some_iff (Value.exact_text _), reflects field,
    Option.some.injEq]

end Reflects

/-! ### Sources -/

def defaultEntries : List (Value × Value) :=
  [(.text (Field.name .codec), .text "bracket".toList),
    (.text (Field.name .arrayDelimiter), .text "|".toList),
    (.text (Field.name .encoding), .text "utf-8".toList),
    (.text (Field.name .stripLeadingSlash), .bool true)]

theorem reflects_default : ({} : Settings).Reflects defaultEntries := by
  intro field
  cases field <;> rfl

/-- The entries of a settings file: those of the map that its document is. There are none without a
file, where it is missing or of an unknown format, and where a YAML document holds nothing. -/
inductive FileEntries (readers : Readers) : Option File → List (Value × Value) → Prop
  | none : FileEntries readers none []
  | missing {name : Text} : FileEntries readers (some ⟨name, none⟩) []
  | unknown {name document : Text} (format : Format.ofName? name = none) :
      FileEntries readers (some ⟨name, some document⟩) []
  | json {name document : Text} {entries : List (Value × Value)}
      (format : Format.ofName? name = some .json)
      (read : readJson readers (normalizeLines document) = .ok (.map entries)) :
      FileEntries readers (some ⟨name, some document⟩) entries
  | yaml {name document : Text} {entries : List (Value × Value)}
      (format : Format.ofName? name = some .yaml)
      (read : readers.yaml (normalizeLines document) = .ok (.map entries)) :
      FileEntries readers (some ⟨name, some document⟩) entries
  | unset {name document : Text} {value : Value} (format : Format.ofName? name = some .yaml)
      (read : readers.yaml (normalizeLines document) = .ok value)
      (nothing : value.truthy = false) :
      FileEntries readers (some ⟨name, some document⟩) []

theorem ofFile_eq {readers : Readers} {file : File} {entries : List (Value × Value)}
    (read : FileEntries readers (some file) entries) :
    (ofFile readers file).1 = .ok (ofMap entries) := by
  cases read with
  | missing => rfl
  | unknown format =>
      simp only [ofFile, format]
      rfl
  | json format read =>
      simp only [ofFile, format, ofJson, read]
      rfl
  | yaml format read =>
      simp only [ofFile, format, ofYaml, read]
      cases entries with
      | nil => rfl
      | cons entry entries => rfl
  | unset format read nothing =>
      simp only [ofFile, format, ofYaml, read, ok_bind, nothing, Bool.false_eq_true, if_false]
      rfl

def variableEntries (lead : Text) (environment : Environment) : List (Value × Value) :=
  environment.filterMap (settingOf? lead)

/-- To merge the map of an environment is to merge what its variables enter. -/
theorem find?_environmentMap (lead : Text) (environment : Environment) (field : Field) :
    find? (.text field.name) (environmentMap lead environment).reverse =
      find? (.text field.name) (variableEntries lead environment).reverse := by
  rw [environmentMap, find?_reverse (Value.exact_text _) (OrderedMap.distinct_ofEntries _),
    find?_ofEntries (Value.exact_text _)]
  rfl

/-! ### All sources -/

theorem load_reflects {readers : Readers} {file : Option File} {entries : List (Value × Value)}
    (read : FileEntries readers file entries) (lead : Text) (environment : Environment) :
    ∃ settings : Settings, (load readers file lead environment).1 = .ok settings ∧
      settings.Reflects (defaultEntries ++ entries ++ variableEntries lead environment) := by
  have base : ∃ settings : Settings, (load readers file lead environment).1 =
        .ok (ofMap (OrderedMap.update settings.toMap (environmentMap lead environment))) ∧
      settings.Reflects (defaultEntries ++ entries) := by
    cases file with
    | none =>
        cases read
        exact ⟨{}, rfl, (List.append_nil defaultEntries).symm ▸ reflects_default⟩
    | some file =>
        refine ⟨ofMap entries, ?_, reflects_default.ofMap entries⟩
        rw [load]
        simp only [ofFile_eq read]
        rfl
  obtain ⟨settings, loaded, reflects⟩ := base
  refine ⟨_, loaded, fun field => ?_⟩
  have here := reflects.update (environmentMap lead environment) field
  rw [List.reverse_append, find?_append, find?_environmentMap] at here
  rw [List.reverse_append, find?_append, here]

/-- Settings that are loaded and then updated any number of times have in each field the last value
that comes with the name of the field, from the defaults over the file and the environment to the
last update, and entries with other keys have no part in it. -/
theorem load_merge_last {readers : Readers} {file : Option File} {entries : List (Value × Value)}
    (read : FileEntries readers file entries) (lead : Text) (environment : Environment)
    {updates : List Value} {given : List (List (Value × Value))}
    (readable : updates.mapM updateEntries = .ok given) :
    ∃ settings,
      ((load readers file lead environment).1 >>= updates.foldlM merge) = .ok settings ∧
      (∀ field value, settings.get field = value ↔
        LastFor field (defaultEntries ++ entries ++ variableEntries lead environment ++
          given.flatten) value) ∧
      settings = ofMap ((entries ++ variableEntries lead environment ++ given.flatten).filter
        fun entry => isFieldName entry.1) := by
  obtain ⟨loaded, same, reflects⟩ := load_reflects read lead environment
  obtain ⟨settings, run, last⟩ := reflects.foldlM_merge readable
  refine ⟨settings, ?_, fun field value => last.get_eq_iff, ?_⟩
  · rw [same]
    exact run
  · rw [ofMap_filter]
    refine last.congr (reflects_default.ofMap _) fun field => ?_
    rw [List.append_assoc, List.append_assoc, ← List.append_assoc entries]

def deploymentDocument : Text := "codec: json\ndebug: true\n".toList

def deploymentFile : File := ⟨"roadquery.yaml".toList, some deploymentDocument⟩

def deploymentReaders : Readers := .ofLimits 1000 500

def deploymentEnvironment : Environment :=
  [("ROADQUERY_Array_Delimiter".toList, ";".toList), ("ROADQUERY_PORT".toList, "80".toList),
    ("ROADQUERY_STRIP_LEADING_SLASH".toList, "FALSE".toList)]

def deploymentUpdate : List (Value × Value) := [(.text "codec".toList, .text "standard".toList)]

def deploymentEntries : List (Value × Value) :=
  [(.text "codec".toList, .text "json".toList), (.text "debug".toList, .bool true)]

def isDeployment : Except Yaml.Flaw Value → Bool
  | .ok (.map [(.text codec, .text json), (.text debug, .bool true)]) =>
    codec == "codec".toList && json == "json".toList && debug == "debug".toList
  | _ => false

theorem eq_of_isDeployment {result : Except Yaml.Flaw Value} (same : isDeployment result = true) :
    result = .ok (.map deploymentEntries) := by
  unfold isDeployment at same
  split at same
  next =>
      simp only [Bool.and_eq_true, beq_iff_eq] at same
      obtain ⟨⟨rfl, rfl⟩, rfl⟩ := same
      rfl
  next => cases same

theorem read_deployment :
    deploymentReaders.yaml (normalizeLines deploymentDocument) =
      .ok (.map deploymentEntries) := by
  have lines : normalizeLines deploymentDocument = deploymentDocument := by decide
  have read : isDeployment (Yaml.read 500 deploymentDocument) = true := by decide +kernel
  have reads (document : Text) :
      deploymentReaders.yaml document = (Yaml.read 500 document).mapError .yaml := rfl
  rw [lines, reads, mapError_eq_ok_iff]
  exact eq_of_isDeployment read

theorem settingOf?_eq_some {lead name t key word : Text} {value : Value}
    (starts : lead.isPrefixOf? name = some t) (lower : Text.lower t = key)
    (means : variableValue word = value) :
    settingOf? lead (name, word) = some (.text key, value) := by
  rw [settingOf?, starts, ← lower, ← means]
  rfl

theorem variableEntries_deployment :
    variableEntries usualPrefix deploymentEnvironment =
      [(.text "array_delimiter".toList, .text ";".toList),
        (.text "port".toList, .text "80".toList),
        (.text "strip_leading_slash".toList, .bool false)] := by
  have plain {text : Text} (isTrue : Text.lower text ≠ "true".toList)
      (isFalse : Text.lower text ≠ "false".toList) : variableValue text = .text text := by
    rw [variableValue, if_neg isTrue, if_neg isFalse]
  have delimiter : settingOf? usualPrefix ("ROADQUERY_Array_Delimiter".toList, ";".toList) =
      some (.text "array_delimiter".toList, .text ";".toList) :=
    settingOf?_eq_some (t := "Array_Delimiter".toList) (by decide) (by decide +kernel)
      (plain (by decide +kernel) (by decide +kernel))
  have port : settingOf? usualPrefix ("ROADQUERY_PORT".toList, "80".toList) =
      some (.text "port".toList, .text "80".toList) :=
    settingOf?_eq_some (t := "PORT".toList) (by decide) (by decide +kernel)
      (plain (by decide +kernel) (by decide +kernel))
  have truth : variableValue "FALSE".toList = .bool false := by
    rw [variableValue, if_neg (by decide +kernel), if_pos (by decide +kernel)]
  have strip : settingOf? usualPrefix ("ROADQUERY_STRIP_LEADING_SLASH".toList, "FALSE".toList) =
      some (.text "strip_leading_slash".toList, .bool false) :=
    settingOf?_eq_some (t := "STRIP_LEADING_SLASH".toList) (by decide) (by decide +kernel) truth
  rw [variableEntries, deploymentEnvironment, List.filterMap_cons_some delimiter,
    List.filterMap_cons_some port, List.filterMap_cons_some strip, List.filterMap_nil]

theorem load_merge_last_deployment :
    FileEntries deploymentReaders (some deploymentFile) deploymentEntries ∧
      [Value.map deploymentUpdate].mapM updateEntries = .ok [deploymentUpdate] ∧
      ∃ settings,
        ((load deploymentReaders (some deploymentFile) usualPrefix deploymentEnvironment).1 >>=
          [Value.map deploymentUpdate].foldlM merge) = .ok settings ∧
        (∀ field value, settings.get field = value ↔
          LastFor field (defaultEntries ++ deploymentEntries ++
            variableEntries usualPrefix deploymentEnvironment ++ [deploymentUpdate].flatten)
            value) ∧
        settings = ⟨.text "standard".toList, .text [';'], .text "utf-8".toList, .bool false⟩ := by
  have format : Format.ofName? deploymentFile.name = some .yaml := by decide
  have read := FileEntries.yaml format read_deployment
  have given : [Value.map deploymentUpdate].mapM updateEntries = .ok [deploymentUpdate] := rfl
  obtain ⟨settings, run, last, whole⟩ :=
    load_merge_last read usualPrefix deploymentEnvironment given
  refine ⟨read, given, settings, run, last, whole.trans ?_⟩
  rw [variableEntries_deployment]
  rfl

end FragmentRouting.Settings
