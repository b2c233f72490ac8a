import FragmentRouting.Codec.Basic
import FragmentRouting.Proofs.Except
import FragmentRouting.Proofs.OrderedMap

namespace FragmentRouting

/-- A text or a list of texts. -/
inductive Carried where
  | text (t : Text)
  | list (ts : List Text)
  deriving DecidableEq, Repr

def Carried.value : Carried → Value
  | .text t => .text t
  | .list ts => .list (ts.map .text)

/-- What a query carries of a value, if the value or each of its items has a text. -/
def Value.carried (v : Value) : Except Fault Carried :=
  match v.items? with
  | some items => (Value.formatAll items).map .list
  | none => v.format.map .text

theorem Value.carried_cases {v : Value} {w : Carried} (h : v.carried = .ok w) :
    (∃ t, v.items? = none ∧ v.format = .ok t ∧ w = .text t) ∨
      ∃ items ts, v.items? = some items ∧ formatAll items = .ok ts ∧ w = .list ts := by
  unfold carried at h
  split at h
  next items multi =>
      obtain ⟨ts, formatted, same⟩ := map_eq_ok_iff.mp h
      exact .inr ⟨items, ts, multi, formatted, same.symm⟩
  next scalar =>
      obtain ⟨t, formatted, same⟩ := map_eq_ok_iff.mp h
      exact .inl ⟨t, scalar, formatted, same.symm⟩

theorem Value.items?_of_carried_text {v : Value} {t : Text} (h : v.carried = .ok (.text t)) :
    v.items? = none := by
  obtain ⟨_, scalar, -, -⟩ | ⟨items, ts, -, -, same⟩ := carried_cases h
  · exact scalar
  · cases same

theorem Value.exists_text_of_carried {v : Value} {w : Carried} (h : v.carried = .ok w)
    (scalar : v.items? = none) : ∃ t, w = .text t := by
  obtain ⟨t, -, -, same⟩ | ⟨items, ts, multi, -, -⟩ := carried_cases h
  · exact ⟨t, same⟩
  · cases scalar.symm.trans multi

theorem Value.formatAll_text (ts : List Text) : formatAll (ts.map .text) = .ok ts := by
  rw [formatAll, List.mapM_map]
  exact (mapM_ok fun t _ => rfl).trans (congrArg _ (List.map_id' ts))

theorem Carried.carried_value (w : Carried) : w.value.carried = .ok w := by
  cases w with
  | text t => rfl
  | list ts => exact map_eq_ok_iff.mpr ⟨ts, Value.formatAll_text ts, rfl⟩

theorem Carried.value_injective {v w : Carried} (same : v.value = w.value) : v = w := by
  have carried := v.carried_value
  rw [same, w.carried_value] at carried
  exact (Except.ok.inj carried).symm

theorem Carried.kind_value (w : Carried) : w.value.kind ≠ .map := by
  cases w with
  | text t => exact nofun
  | list ts => exact nofun

namespace Params

def entries (params : Params) : List (Value × Value) := params.map fun (k, v) => (.text k, v)

theorem insert_entries (key : Text) (v : Value) (params : Params) :
    OrderedMap.insert (.text key) v params.entries = entries (OrderedMap.insert key v params) := by
  induction params with
  | nil => rfl
  | cons entry params ih =>
      have same : (Value.text entry.1 == Value.text key) = (entry.1 == key) := rfl
      simp only [entries, List.map_cons, OrderedMap.insert, same] at ih ⊢
      split
      next => rfl
      next => rw [ih, List.map_cons]

def carried (params : Params) : Except Fault (OrderedMap Text Carried) :=
  params.mapM fun (k, v) => v.carried.map (k, ·)

def ofCarried (carried : OrderedMap Text Carried) : Params := carried.map fun (k, w) => (k, w.value)

theorem carried_ofCarried (carried : OrderedMap Text Carried) :
    (ofCarried carried).carried = .ok carried := by
  rw [Params.carried, ofCarried, List.mapM_map]
  refine (mapM_ok fun entry _ => ?_).trans (congrArg _ (List.map_id' carried))
  exact map_eq_ok_iff.mpr ⟨entry.2, entry.2.carried_value, rfl⟩

theorem kind_ofCarried (carried : OrderedMap Text Carried) :
    ∀ entry ∈ ofCarried carried, entry.2.kind ≠ .map := by
  intro entry member
  obtain ⟨w, -, rfl⟩ := List.mem_map.mp member
  exact w.2.kind_value

theorem keys_carried {params : Params} {carried : OrderedMap Text Carried}
    (h : params.carried = .ok carried) : OrderedMap.keys carried = OrderedMap.keys params := by
  induction mapM_eq_ok_iff.mp h with
  | nil => rfl
  | cons first rest ih =>
      obtain ⟨w, -, rfl⟩ := map_eq_ok_iff.mp first
      simp only [OrderedMap.keys, List.map_cons, List.cons.injEq, true_and]
      exact ih (mapM_eq_ok_iff.mpr rest)

theorem text_carried_iff {params : Params} {carried : OrderedMap Text Carried}
    (h : params.carried = .ok carried) (key : Text) :
    (∃ t, (key, Carried.text t) ∈ carried) ↔ ∃ v, (key, v) ∈ params ∧ v.items? = none := by
  constructor
  · rintro ⟨t, ht⟩
    obtain ⟨⟨k, v⟩, hv, same⟩ := exists_argument_of_mapM h ht
    obtain ⟨w, hw, pair⟩ := map_eq_ok_iff.mp same
    cases pair
    exact ⟨v, hv, Value.items?_of_carried_text hw⟩
  · rintro ⟨v, hv, scalar⟩
    obtain ⟨_, hmem, same⟩ := exists_result_of_mapM h hv
    obtain ⟨w, hw, rfl⟩ := map_eq_ok_iff.mp same
    obtain ⟨t, rfl⟩ := Value.exists_text_of_carried hw scalar
    exact ⟨t, hmem⟩

end Params

end FragmentRouting
