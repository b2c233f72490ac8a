import FragmentRouting.Codec.Basic
import FragmentRouting.Proofs.Codec.Carried
import FragmentRouting.Proofs.Wire.Pairs

/-!
What the layouts of texts and lists of texts have in common. An entry has its pairs; on the way back
every pair counts under some key and makes a new value of the one that stands there. From what a
scheme says of single entries and pairs follows what becomes of whole queries.
-/
namespace FragmentRouting.Codec

open OrderedMap (keys)

def keyed (pair : Wire.Pair Text) : Wire.Pair Value := (.text pair.1, pair.2)

theorem isUtf8_default : Wire.IsUtf8 ({} : Settings).encoding := by
  intro decoding
  have known : Charset.ofName? "utf-8".toList = some .utf8 := by decide +kernel
  simp only [Wire.charsetOf, known]

theorem encodePairs_cons (codec : Codec) (key : Text) {v : Value} (params : Params)
    (notMap : v.kind ≠ .map) :
    codec.encodePairs (Params.entries ((key, v) :: params)) = (do
      let first ← codec.layout.encode codec.settings (.text key) v
      let others ← codec.encodePairs params.entries
      return first ++ others) := by
  cases v with
  | map entries => exact absurd rfl notMap
  | _ => rfl

/-- Parameters are written only if none is a map and the layout writes each of them. Their pairs
come in the order of the parameters. -/
theorem forall₂_of_encodePairs {codec : Codec} {params : Params} {pairs : List (Wire.Pair Value)}
    (h : codec.encodePairs params.entries = .ok pairs) :
    ∃ written : List (List (Wire.Pair Value)),
      List.Forall₂ (fun entry own => entry.2.kind ≠ .map ∧
        codec.layout.encode codec.settings (.text entry.1) entry.2 = .ok own) params written ∧
      pairs = written.flatten := by
  induction params generalizing pairs with
  | nil => exact ⟨[], .nil, (Except.ok.inj h).symm⟩
  | cons entry params ih =>
      rcases entry with ⟨key, v⟩
      have notMap : v.kind ≠ .map := by
        cases v with
        | map entries =>
            obtain ⟨shown, _, thrown⟩ := bind_eq_ok_iff.mp h
            cases thrown
        | _ => exact nofun
      rw [encodePairs_cons codec key params notMap] at h
      obtain ⟨first, here, h⟩ := bind_eq_ok_iff.mp h
      obtain ⟨others, rest, h⟩ := bind_eq_ok_iff.mp h
      obtain ⟨written, each, rfl⟩ := ih rest
      exact ⟨first :: written, .cons ⟨notMap, here⟩ each, (Except.ok.inj h).symm⟩

theorem entry_of_encodePairs {codec : Codec} {params : Params} {pairs : List (Wire.Pair Value)}
    (h : codec.encodePairs params.entries = .ok pairs) :
    ∀ entry ∈ params, entry.2.kind ≠ .map ∧
      ∃ written, codec.layout.encode codec.settings (.text entry.1) entry.2 = .ok written := by
  obtain ⟨written, each, -⟩ := forall₂_of_encodePairs h
  clear h
  induction each with
  | nil => exact List.forall_mem_nil _
  | cons first _ ih => exact List.forall_mem_cons.mpr ⟨⟨first.1, _, first.2⟩, ih⟩

/-- The pairs of an entry, the key under which a pair counts, and the value that it makes of the one
that stands there. -/
structure Scheme where
  pairs : Text × Carried → List (Wire.Pair Text)
  key : Wire.Pair Text → Text
  value : Wire.Pair Text → Option Value → Value

namespace Scheme

variable (scheme : Scheme)

def take (params : Params) (pair : Wire.Pair Text) : Params :=
  OrderedMap.insert (scheme.key pair)
    (scheme.value pair (OrderedMap.find? (scheme.key pair) params)) params

def read (pairs : List (Wire.Pair Text)) : Params := pairs.foldl scheme.take []

def gather (pairs : List (Wire.Pair Text)) (old : Option Value) : Option Value :=
  pairs.foldl (fun old pair => some (scheme.value pair old)) old

/-- Whether the pairs of an entry give the entry back. -/
structure Restores (entry : Text × Carried) : Prop where
  key : ∀ pair ∈ scheme.pairs entry, scheme.key pair = entry.1
  value : scheme.gather (scheme.pairs entry) none = some entry.2.value

/-- Whether a value under a key is one that can be written and read back. -/
def Canonical (key : Text) (v : Value) : Prop :=
  ∃ carried : Carried, carried.value = v ∧ scheme.Restores (key, carried)

/-- Whether a layout follows a scheme. Its pairs are such that framing keeps them, and pairs make
canonical values of canonical ones. -/
structure Describes (settings : Settings) (layout : Layout) : Prop where
  encode : ∀ key v carried, v.carried = .ok carried →
    layout.encode settings (.text key) v = .ok ((scheme.pairs (key, carried)).map keyed)
  decode : ∀ pairs, layout.decode settings pairs = .ok (scheme.read pairs)
  framed : ∀ entry, ∀ pair ∈ scheme.pairs entry, pair.2 = none → pair.1 ≠ []
  closed : ∀ pair old, (∀ v, old = some v → scheme.Canonical (scheme.key pair) v) →
    scheme.Canonical (scheme.key pair) (scheme.value pair old)

variable {scheme}

theorem foldl_take_same {key : Text} {pairs : List (Wire.Pair Text)} {v : Value} {params : Params}
    (some_ : pairs ≠ []) (same : ∀ pair ∈ pairs, scheme.key pair = key)
    (result : scheme.gather pairs (OrderedMap.find? key params) = some v) :
    pairs.foldl scheme.take params = OrderedMap.insert key v params := by
  induction pairs generalizing params with
  | nil => exact absurd rfl some_
  | cons pair pairs ih =>
      obtain ⟨rfl, same⟩ := List.forall_mem_cons.mp same
      cases pairs with
      | nil =>
          rw [← Option.some.inj result]
          rfl
      | cons second pairs =>
          rw [List.foldl_cons, ih (List.cons_ne_nil _ _) same, take, OrderedMap.insert_insert]
          rw [take, OrderedMap.find?_insert]
          exact result

theorem Restores.foldl_take {entry : Text × Carried} (restores : scheme.Restores entry)
    {params : Params} (fresh : entry.1 ∉ keys params) :
    (scheme.pairs entry).foldl scheme.take params = params ++ [(entry.1, entry.2.value)] := by
  have some_ : scheme.pairs entry ≠ [] := by
    intro empty
    have value := restores.value
    rw [empty] at value
    cases value
  rw [foldl_take_same some_ restores.key, OrderedMap.insert_of_not_mem fresh]
  rw [OrderedMap.find?_of_not_mem fresh]
  exact restores.value

theorem foldl_take_entries {carried : OrderedMap Text Carried} {params : Params}
    (fresh : ∀ key ∈ keys carried, key ∉ keys params) (distinct : (keys carried).Nodup)
    (restored : ∀ entry ∈ carried, scheme.Restores entry) :
    (carried.flatMap scheme.pairs).foldl scheme.take params =
      params ++ Params.ofCarried carried := by
  induction carried generalizing params with
  | nil => exact (List.append_nil params).symm
  | cons entry carried ih =>
      obtain ⟨new, distinct⟩ := List.nodup_cons.mp distinct
      obtain ⟨first, restored⟩ := List.forall_mem_cons.mp restored
      obtain ⟨here, fresh⟩ := List.forall_mem_cons.mp fresh
      have fresh' : ∀ k ∈ keys carried, k ∉ keys (params ++ [(entry.1, entry.2.value)]) := by
        intro k hk
        simp only [keys, List.map_append, List.map_cons, List.map_nil, List.mem_append,
          List.mem_singleton, not_or]
        exact ⟨fresh k hk, ne_of_mem_of_not_mem hk new⟩
      rw [List.flatMap_cons, List.foldl_append, first.foldl_take here, ih fresh' distinct restored,
        List.append_assoc]
      rfl

/-- Entries that are given back one by one are given back together. -/
theorem read_pairs {carried : OrderedMap Text Carried} (distinct : (keys carried).Nodup)
    (restored : ∀ entry ∈ carried, scheme.Restores entry) :
    scheme.read (carried.flatMap scheme.pairs) = Params.ofCarried carried :=
  foldl_take_entries (fun _ _ => List.not_mem_nil) distinct restored

/-- Whether keys are distinct and values canonical. -/
structure Settled (scheme : Scheme) (params : Params) : Prop where
  distinct : (keys params).Nodup
  canonical : ∀ entry ∈ params, scheme.Canonical entry.1 entry.2

theorem Settled.exists_carried {params : Params} (settled : scheme.Settled params) :
    ∃ carried, Params.ofCarried carried = params ∧ ∀ entry ∈ carried, scheme.Restores entry := by
  have canonical := settled.canonical
  clear settled
  induction params with
  | nil => exact ⟨[], rfl, List.forall_mem_nil _⟩
  | cons entry params ih =>
      rcases entry with ⟨key, v⟩
      obtain ⟨⟨first, rfl, restores⟩, others⟩ := List.forall_mem_cons.mp canonical
      obtain ⟨carried, rfl, restored⟩ := ih others
      exact ⟨(key, first) :: carried, rfl, List.forall_mem_cons.mpr ⟨restores, restored⟩⟩

variable {settings : Settings} {layout : Layout}

theorem Describes.settled_take (describes : scheme.Describes settings layout) {params : Params}
    (settled : scheme.Settled params) (pair : Wire.Pair Text) :
    scheme.Settled (scheme.take params pair) where
  distinct := OrderedMap.nodup_keys_insert settled.distinct _ _
  canonical entry member := by
    rcases OrderedMap.mem_insert member with rfl | member
    · apply describes.closed
      intro v found
      exact settled.canonical _ (OrderedMap.mem_of_find? found)
    · exact settled.canonical entry member

theorem Describes.settled_read (describes : scheme.Describes settings layout)
    (pairs : List (Wire.Pair Text)) : scheme.Settled (scheme.read pairs) := by
  have run {params : Params} (settled : scheme.Settled params) :
      scheme.Settled (pairs.foldl scheme.take params) := by
    induction pairs generalizing params with
    | nil => exact settled
    | cons pair pairs ih => exact ih (describes.settled_take settled pair)
  exact run ⟨List.nodup_nil, List.forall_mem_nil _⟩

/-- Entries are given back together only if each of them is given back. -/
theorem Describes.read_pairs_iff (describes : scheme.Describes settings layout)
    {carried : OrderedMap Text Carried} (distinct : (keys carried).Nodup) :
    scheme.read (carried.flatMap scheme.pairs) = Params.ofCarried carried ↔
      ∀ entry ∈ carried, scheme.Restores entry := by
  refine ⟨fun same entry member => ?_, read_pairs distinct⟩
  have settled := describes.settled_read (carried.flatMap scheme.pairs)
  rw [same] at settled
  obtain ⟨w, value, restores⟩ := settled.canonical _ (List.mem_map_of_mem member)
  rw [Carried.value_injective value] at restores
  exact restores

variable (sink : Sink)

theorem Describes.encodePairs (describes : scheme.Describes settings layout) {params : Params}
    (flat : ∀ entry ∈ params, entry.2.kind ≠ .map) {carried : OrderedMap Text Carried}
    (h : params.carried = .ok carried) :
    Codec.encodePairs ⟨layout, settings, sink⟩ params.entries =
      .ok ((carried.flatMap scheme.pairs).map keyed) := by
  induction mapM_eq_ok_iff.mp h with
  | nil => rfl
  | @cons entry _ params _ first rest ih =>
      rcases entry with ⟨key, v⟩
      obtain ⟨w, hw, rfl⟩ := map_eq_ok_iff.mp first
      obtain ⟨notMap, flat⟩ := List.forall_mem_cons.mp flat
      have written := describes.encode key v w hw
      have others := ih flat (mapM_eq_ok_iff.mpr rest)
      rw [encodePairs_cons _ key params notMap, written, others, List.flatMap_cons, List.map_append]
      rfl

theorem Describes.serialize (describes : scheme.Describes settings layout)
    (utf8 : Wire.IsUtf8 settings.encoding) {params : Params}
    (flat : ∀ entry ∈ params, entry.2.kind ≠ .map) {carried : OrderedMap Text Carried}
    (h : params.carried = .ok carried) :
    Codec.serialize ⟨layout, settings, sink⟩ params.entries =
      .ok (Text.joinWith ['&'] ((carried.flatMap scheme.pairs).map Wire.utf8Pair)) := by
  simp only [Codec.serialize, describes.encodePairs sink flat h, ok_bind]
  exact Wire.writePairs_utf8 utf8 _

theorem Describes.parse (describes : scheme.Describes settings layout)
    (utf8 : Wire.IsUtf8 settings.encoding) (carried : OrderedMap Text Carried) :
    Codec.parse ⟨layout, settings, sink⟩
        (Text.joinWith ['&'] ((carried.flatMap scheme.pairs).map Wire.utf8Pair)) =
      .ok (scheme.read (carried.flatMap scheme.pairs)) := by
  have framed : ∀ pair ∈ carried.flatMap scheme.pairs, pair.2 = none → pair.1 ≠ [] := by
    intro pair hpair
    obtain ⟨entry, -, hpair⟩ := List.mem_flatMap.mp hpair
    exact describes.framed entry pair hpair
  simp only [Codec.parse, split, Wire.readPairs_utf8 utf8 framed, ok_bind]
  exact describes.decode _

/-- What was read can be written, and what is written of it reads the same. -/
theorem Describes.rewrites (describes : scheme.Describes settings layout)
    (utf8 : Wire.IsUtf8 settings.encoding) {query : Text} {params : Params}
    (h : Codec.parse ⟨layout, settings, sink⟩ query = .ok params) :
    ∃ canonical, Codec.serialize ⟨layout, settings, sink⟩ params.entries = .ok canonical ∧
      Codec.parse ⟨layout, settings, sink⟩ canonical = .ok params := by
  obtain ⟨pairs, -, h⟩ := bind_eq_ok_iff.mp h
  have settled : scheme.Settled params := by
    rw [← Except.ok.inj ((describes.decode pairs).symm.trans h)]
    exact describes.settled_read pairs
  obtain ⟨carried, rfl, restored⟩ := settled.exists_carried
  have formatted := Params.carried_ofCarried carried
  have flat := Params.kind_ofCarried carried
  have distinct : (keys carried).Nodup := by
    rw [Params.keys_carried formatted]
    exact settled.distinct
  refine ⟨_, describes.serialize sink utf8 flat formatted, ?_⟩
  rw [describes.parse sink utf8 carried, read_pairs distinct restored]

end Scheme

end FragmentRouting.Codec
