import FragmentRouting.Proofs.Json.Value

namespace FragmentRouting

mutual

/-- A value with lists for its tuples, also inside of lists and maps. -/
def Value.untupled : Value → Value
  | .list items => .list (untupledItems items)
  | .tuple items => .list (untupledItems items)
  | .map entries => .map (untupledEntries entries)
  | v => v

def Value.untupledItems : List Value → List Value
  | [] => []
  | item :: rest => untupled item :: untupledItems rest

def Value.untupledEntries : List (Value × Value) → List (Value × Value)
  | [] => []
  | (key, value) :: rest => (key, untupled value) :: untupledEntries rest

end

/-- Parameters with lists for the tuples in their values. -/
def Params.untupled (params : Params) : Params := params.map fun (key, v) => (key, v.untupled)

theorem Params.keys_untupled (params : Params) :
    OrderedMap.keys params.untupled = OrderedMap.keys params := by
  rw [OrderedMap.keys, untupled, List.map_map]
  rfl

theorem Value.untupled_toValue (params : Params) :
    params.toValue.untupled = params.untupled.toValue := by
  have entries : untupledEntries params.entries = params.untupled.entries := by
    induction params with
    | nil => rfl
    | cons entry params ih => exact congrArg ((.text entry.1, entry.2.untupled) :: ·) ih
  exact congrArg Value.map entries

namespace Json

/-- The values that JSON carries where `depth` lists, tuples and maps may stand inside each other:
null, booleans, integers within the digit limit and texts, and lists, tuples and maps of such
values, the names of a map being texts and distinct. -/
inductive Travels : Nat → Value → Prop where
  | null {depth : Nat} : Travels depth .null
  | bool {depth : Nat} (b : Bool) : Travels depth (.bool b)
  | int {depth : Nat} {n : Int} (small : n.natAbs < 10 ^ digitLimit) : Travels depth (.int n)
  | text {depth : Nat} (t : Text) : Travels depth (.text t)
  | list {depth : Nat} {items : List Value} (each : ∀ item ∈ items, Travels depth item) :
    Travels (depth + 1) (.list items)
  | tuple {depth : Nat} {items : List Value} (each : ∀ item ∈ items, Travels depth item) :
    Travels (depth + 1) (.tuple items)
  | map {depth : Nat} {params : Params} (distinct : (OrderedMap.keys params).Nodup)
    (each : ∀ entry ∈ params, Travels depth entry.2) : Travels (depth + 1) params.toValue

variable {depth : Nat}

/-- Whether a value is written as a text that denotes it, with lists for its tuples. -/
def Written (depth : Nat) (v : Value) : Prop :=
  ∃ text, write depth v = .ok text ∧ Denotes depth text v.untupled

theorem writeItems_of_written {items : List Value} (each : ∀ item ∈ items, Written depth item) :
    ∃ texts, writeItems depth items = .ok texts ∧
      List.Forall₂ (Denotes depth) texts (Value.untupledItems items) := by
  induction items with
  | nil => exact ⟨[], rfl, .nil⟩
  | cons item items ih =>
      obtain ⟨⟨text, written, denotes⟩, each⟩ := List.forall_mem_cons.mp each
      obtain ⟨texts, others, denote⟩ := ih each
      refine ⟨text :: texts, ?_, .cons denotes denote⟩
      rw [writeItems, written, others]
      rfl

theorem writeEntries_of_written {params : Params} (each : ∀ entry ∈ params, Written depth entry.2) :
    ∃ texts, writeEntries depth params.entries = .ok texts ∧
      List.Forall₂ (DenotesMember depth) texts params.untupled := by
  induction params with
  | nil => exact ⟨[], rfl, .nil⟩
  | cons entry params ih =>
      obtain ⟨⟨text, written, denotes⟩, each⟩ := List.forall_mem_cons.mp each
      obtain ⟨texts, others, denote⟩ := ih each
      refine ⟨(writeText entry.1 ++ ':' :: text) :: texts, ?_, .cons ⟨text, denotes, rfl⟩ denote⟩
      have first : Params.entries (entry :: params) =
          (.text entry.1, entry.2) :: Params.entries params := rfl
      rw [first, writeEntries, written, others]
      rfl

/-- By induction over the value: its parts are written, and what is written denotes them. -/
theorem Travels.written {v : Value} (travels : Travels depth v) : Written depth v := by
  induction travels with
  | null => exact ⟨_, rfl, denotes_null⟩
  | bool b =>
      refine ⟨_, ?_, denotes_bool b⟩
      cases b with
      | true => rfl
      | false => rfl
  | @int depth n small =>
      refine ⟨Text.ofInt n, ?_, denotes_int small⟩
      simp only [write, writeScalar?, Option.getD_some, Value.integerText, Nat.pow_eq,
        if_neg small.not_ge]
  | text t => exact ⟨writeText t, rfl, denotes_text t⟩
  | list each ih =>
      obtain ⟨texts, written, denote⟩ := writeItems_of_written ih
      refine ⟨_, ?_, denotes_list denote⟩
      rw [write, deeper, ok_bind, written]
      rfl
  | tuple each ih =>
      obtain ⟨texts, written, denote⟩ := writeItems_of_written ih
      refine ⟨_, ?_, denotes_list denote⟩
      rw [write, deeper, ok_bind, written]
      rfl
  | @map depth params distinct each ih =>
      obtain ⟨texts, written, denote⟩ := writeEntries_of_written ih
      rw [← Params.keys_untupled] at distinct
      refine ⟨_, ?_, Value.untupled_toValue params ▸ denotes_map denote distinct⟩
      have entries : params.toValue = .map params.entries := rfl
      rw [entries, write, deeper, ok_bind, written]
      rfl

theorem Denotes.read {text : Text} {v : Value} (denotes : Denotes depth text v) :
    read depth text = .ok v := by
  have none_ : EndsNumeral [] := fun _ first => nomatch first
  have shown := denotes.skipSpace []
  have value := denotes.reads (2 * text.length + 2) [] (by omega) none_
  rw [List.append_nil] at shown value
  unfold Json.read
  split
  next =>
    obtain ⟨c, others, same, opens⟩ := denotes.opens
    exact absurd (List.cons.inj same).1.symm opens.2.2.2
  next =>
    simp only [shown, value, ok_bind]
    rfl

/-- What is written for a value reads as the value, with lists for its tuples. -/
theorem read_write {v : Value} (travels : Travels depth v) :
    ∃ text, write depth v = .ok text ∧ read depth text = .ok v.untupled := by
  obtain ⟨text, written, denotes⟩ := travels.written
  exact ⟨text, written, denotes.read⟩

end Json

end FragmentRouting
