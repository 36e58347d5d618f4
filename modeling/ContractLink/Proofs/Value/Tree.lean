import ContractLink.Registry.Handler
import ContractLink.Proofs.Wire.Types
/-!
Values as trees. The children of a list or dictionary are its elements; the nodes, the payload, the
written lengths and the nesting of a value are given by recursion on the tree, without a registry.
-/
namespace ContractLink

namespace Value

/-- The elements of a list or dictionary. -/
def children : Value → List Value
  | list items => items
  | dict entries => entries.map (·.2)
  | _ => []

theorem sizeOf_lt_of_mem_children {child value : Value} (h : child ∈ value.children) :
    sizeOf child < sizeOf value := by
  cases value with
  | list items =>
    have part : sizeOf child < sizeOf items := List.sizeOf_lt_of_mem h
    simp only [list.sizeOf_spec]
    omega
  | dict entries =>
    obtain ⟨⟨key, value⟩, mem, rfl⟩ := List.mem_map.mp h
    have part := List.sizeOf_lt_of_mem mem
    simp only [dict.sizeOf_spec, Prod.mk.sizeOf_spec] at part ⊢
    omega
  | _ => cases h

/-- What passes from the children of each value to the value holds of all values. -/
theorem childInduction {P : Value → Prop} (step : ∀ value, (∀ c ∈ value.children, P c) → P value)
    (value : Value) : P value :=
  step value fun c mem =>
    have := sizeOf_lt_of_mem_children mem
    childInduction step c
termination_by sizeOf value

mutual

/-- The value and everything inside it: a node before its elements, the elements of a list in order
and those of a dictionary in the order of its entries, which is that of the keys. -/
def nodes : Value → List Value
  | list items => list items :: nodesOfItems items
  | dict entries => dict entries :: nodesOfEntries entries
  | value => [value]

def nodesOfItems : List Value → List Value
  | [] => []
  | value :: rest => nodes value ++ nodesOfItems rest

def nodesOfEntries : List (String × Value) → List Value
  | [] => []
  | (_, value) :: rest => nodes value ++ nodesOfEntries rest

end

theorem nodesOfItems_eq_flatMap (items : List Value) : nodesOfItems items = items.flatMap nodes := by
  induction items with
  | nil => rfl
  | cons value rest ih => rw [nodesOfItems, ih, List.flatMap_cons]

theorem nodesOfEntries_eq_flatMap (entries : List (String × Value)) :
    nodesOfEntries entries = (entries.map (·.2)).flatMap nodes := by
  induction entries with
  | nil => rfl
  | cons entry rest ih => rw [nodesOfEntries, ih, List.map_cons, List.flatMap_cons]

theorem nodes_eq (value : Value) : value.nodes = value :: value.children.flatMap nodes := by
  cases value with
  | list items => rw [nodes, nodesOfItems_eq_flatMap, children]
  | dict entries => rw [nodes, nodesOfEntries_eq_flatMap, children]
  | _ => rfl

mutual

/-- The payload that the handler of its own kind makes of a value. -/
def payload : Value → Bytes
  | nil => []
  | integer v => v.toBytes
  | bytes data => data
  | text s => Bytes.ofText s
  | bool b => [if b then 1 else 0]
  | address a => a.toBytes
  | list items => Handler.listFormat.encode (typedItems items)
  | dict entries => Handler.dictFormat.encode (typedEntries entries)
  | custom _ data => data

def typedItems : List Value → List TypedBytes
  | [] => []
  | value :: rest => ⟨value.kind.tag, payload value⟩ :: typedItems rest

def typedEntries : List (String × Value) → List (String × TypedBytes)
  | [] => []
  | (key, value) :: rest => (key, ⟨value.kind.tag, payload value⟩) :: typedEntries rest

end

/-- The value as it travels, its payload under the tag of its kind. -/
def typed (value : Value) : TypedBytes := ⟨value.kind.tag, value.payload⟩

/-- An entry of a dictionary as it travels. -/
def typedEntry (entry : String × Value) : String × TypedBytes := (entry.1, entry.2.typed)

theorem typedItems_eq_map (items : List Value) : typedItems items = items.map typed := by
  induction items with
  | nil => rfl
  | cons value rest ih => rw [typedItems, ih, List.map_cons, typed]

theorem typedEntries_eq_map (entries : List (String × Value)) :
    typedEntries entries = entries.map typedEntry := by
  induction entries with
  | nil => rfl
  | cons entry rest ih => rw [typedEntries, ih, List.map_cons, typedEntry, typed]

theorem payload_list (items : List Value) :
    (list items).payload = Handler.listFormat.encode (items.map typed) := by
  rw [payload, typedItems_eq_map]

theorem payload_dict (entries : List (String × Value)) :
    (dict entries).payload = Handler.dictFormat.encode (entries.map typedEntry) := by
  rw [payload, typedEntries_eq_map]

/-- The lengths that the payload of a list or dictionary has itself: the number of elements, and
the size of every key and of every element's payload. -/
def ownLengths : Value → List Nat
  | list items => Handler.listFormat.lengths (items.map typed)
  | dict entries => Handler.dictFormat.lengths (entries.map typedEntry)
  | _ => []

mutual

/-- The lengths written anywhere in the payload. -/
def lengths : Value → List Nat
  | list items => ownLengths (list items) ++ lengthsOfItems items
  | dict entries => ownLengths (dict entries) ++ lengthsOfEntries entries
  | _ => []

def lengthsOfItems : List Value → List Nat
  | [] => []
  | value :: rest => lengths value ++ lengthsOfItems rest

def lengthsOfEntries : List (String × Value) → List Nat
  | [] => []
  | (_, value) :: rest => lengths value ++ lengthsOfEntries rest

end

theorem lengthsOfItems_eq_flatMap (items : List Value) :
    lengthsOfItems items = items.flatMap lengths := by
  induction items with
  | nil => rfl
  | cons value rest ih => rw [lengthsOfItems, ih, List.flatMap_cons]

theorem lengthsOfEntries_eq_flatMap (entries : List (String × Value)) :
    lengthsOfEntries entries = (entries.map (·.2)).flatMap lengths := by
  induction entries with
  | nil => rfl
  | cons entry rest ih => rw [lengthsOfEntries, ih, List.map_cons, List.flatMap_cons]

theorem lengths_eq (value : Value) :
    value.lengths = value.ownLengths ++ value.children.flatMap lengths := by
  cases value with
  | list items => rw [lengths, lengthsOfItems_eq_flatMap, children]
  | dict entries => rw [lengths, lengthsOfEntries_eq_flatMap, children]
  | _ => rfl

/-- Every length in the payload is one that is read. -/
def Readable (value : Value) : Prop := ∀ n ∈ value.lengths, n ≤ Format.maxLength

/-- Every length in the payload fits the eight bytes that are written for it. -/
def Expressible (value : Value) : Prop := ∀ n ∈ value.lengths, n < 2 ^ 64

instance (value : Value) : Decidable value.Readable := inferInstanceAs (Decidable (∀ n ∈ _, _))

theorem Readable.expressible {value : Value} (h : value.Readable) : value.Expressible :=
  fun n mem => Nat.lt_of_le_of_lt (h n mem) (by decide)

theorem forall_mem_lengths {value : Value} {p : Nat → Prop} :
    (∀ n ∈ value.lengths, p n) ↔
      (∀ n ∈ value.ownLengths, p n) ∧ ∀ c ∈ value.children, ∀ n ∈ c.lengths, p n := by
  rw [lengths_eq, List.forall_mem_append]
  simp only [List.mem_flatMap, forall_exists_index, and_imp]
  exact and_congr_right' ⟨fun h c mem n inside => h n c mem inside,
    fun h n c mem inside => h c mem n inside⟩

theorem length_payload_mem_ownLengths {child value : Value} (mem : child ∈ value.children) :
    child.payload.length ∈ value.ownLengths := by
  have own := child.typed.length_data_mem_lengths
  cases value with
  | list items =>
    have item : child.typed ∈ items.map typed := List.mem_map_of_mem mem
    exact List.mem_cons_of_mem _ (List.mem_flatMap.mpr ⟨_, item, own⟩)
  | dict entries =>
    obtain ⟨entry, inside, rfl⟩ := List.mem_map.mp mem
    have item : typedEntry entry ∈ entries.map typedEntry := List.mem_map_of_mem inside
    exact List.mem_cons_of_mem _
      (List.mem_flatMap.mpr ⟨_, item, List.mem_append_right _ own⟩)
  | _ => cases mem

theorem le_length_payload_of_mem_ownLengths {value : Value} {n : Nat} (mem : n ∈ value.ownLengths) :
    n ≤ value.payload.length := by
  cases value with
  | list items =>
    rw [payload_list]
    exact TypedBytes.lawful_format.list.le_length_encode mem
  | dict entries =>
    rw [payload_dict]
    exact (Format.lawful_text.pair TypedBytes.lawful_format).list.le_length_encode mem
  | _ => cases mem

/-- No length in a payload is above the size of the payload. -/
theorem le_length_payload {value : Value} {n : Nat} (mem : n ∈ value.lengths) :
    n ≤ value.payload.length := by
  induction value using childInduction generalizing n with
  | step value ih =>
    rw [lengths_eq] at mem
    rcases List.mem_append.mp mem with own | inner
    · exact le_length_payload_of_mem_ownLengths own
    · obtain ⟨child, inside, below⟩ := List.mem_flatMap.mp inner
      have part := le_length_payload_of_mem_ownLengths (length_payload_mem_ownLengths inside)
      exact Nat.le_trans (ih child inside below) part

theorem readable_of_length_payload_le {value : Value}
    (short : value.payload.length ≤ Format.maxLength) : value.Readable :=
  fun _ mem => Nat.le_trans (le_length_payload mem) short

mutual

/-- How deep lists and dictionaries lie in one another; nothing in a scalar, a custom value or an
empty list or dictionary. -/
def nesting : Value → Nat
  | list items => nestingOfItems items
  | dict entries => nestingOfEntries entries
  | _ => 0

/-- One more than the deepest item. -/
def nestingOfItems : List Value → Nat
  | [] => 0
  | value :: rest => max (nesting value + 1) (nestingOfItems rest)

def nestingOfEntries : List (String × Value) → Nat
  | [] => 0
  | (_, value) :: rest => max (nesting value + 1) (nestingOfEntries rest)

end

theorem nestingOfItems_le_iff {items : List Value} {n : Nat} :
    nestingOfItems items ≤ n ↔ ∀ c ∈ items, c.nesting < n := by
  induction items with
  | nil => simp [nestingOfItems]
  | cons value rest ih =>
    rw [nestingOfItems, Nat.max_le, ih, List.forall_mem_cons, Nat.succ_le_iff]

theorem nestingOfEntries_eq (entries : List (String × Value)) :
    nestingOfEntries entries = nestingOfItems (entries.map (·.2)) := by
  induction entries with
  | nil => rfl
  | cons entry rest ih => rw [nestingOfEntries, ih, List.map_cons, nestingOfItems]

theorem nesting_le_iff {value : Value} {n : Nat} :
    value.nesting ≤ n ↔ ∀ c ∈ value.children, c.nesting < n := by
  cases value with
  | list items => rw [nesting, nestingOfItems_le_iff, children]
  | dict entries => rw [nesting, nestingOfEntries_eq, nestingOfItems_le_iff, children]
  | _ => simp [nesting, children]

theorem orderedItems_iff {items : List Value} :
    OrderedItems items ↔ ∀ c ∈ items, Ordered c := by
  induction items with
  | nil => simp [OrderedItems]
  | cons value rest ih => rw [OrderedItems, ih, List.forall_mem_cons]

theorem orderedEntries_iff {entries : List (String × Value)} :
    OrderedEntries entries ↔ ∀ c ∈ entries.map (·.2), Ordered c := by
  induction entries with
  | nil => simp [OrderedEntries]
  | cons entry rest ih => rw [OrderedEntries, ih, List.map_cons, List.forall_mem_cons]

theorem Ordered.children {value : Value} (h : value.Ordered) : ∀ c ∈ value.children, c.Ordered := by
  cases value with
  | list items => exact orderedItems_iff.mp h
  | dict entries => exact orderedEntries_iff.mp h.2
  | _ => exact fun c mem => absurd mem List.not_mem_nil

end Value

end ContractLink
