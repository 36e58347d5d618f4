import ContractLink.Registry.Handler
import ContractLink.Proofs.Traversal
/-!
Building a dictionary entry by entry. Entries of distinct keys may come in any order, and are all in
the dictionary they build; entries whose keys increase are that dictionary. Reading the entries of a
payload is a traversal followed by this building, as long as no key comes twice.
-/
namespace ContractLink

namespace Dict

variable {α : Type} {key : String} {value : α} {entries dict : List (String × α)}

theorem isSome_find?_iff : (find? key entries).isSome ↔ key ∈ entries.map (·.1) := by
  simp [find?]

theorem mem_keys_insert {k : String} :
    k ∈ (insert key value entries).map (·.1) ↔ k = key ∨ k ∈ entries.map (·.1) := by
  induction entries with
  | nil => simp [insert]
  | cons head rest ih =>
    obtain ⟨l, v⟩ := head
    simp only [insert]
    split
    · simp
    · split
      next same => simp [same]
      next => rw [List.map_cons, List.mem_cons, ih, List.map_cons, List.mem_cons, or_left_comm]

/-- Keys that are not in a dictionary are not in it after another key has been put in. -/
theorem fresh_insert {keys : List String} (new : key ∉ keys)
    (fresh : ∀ k ∈ keys, k ∉ dict.map (·.1)) :
    ∀ k ∈ keys, k ∉ (insert key value dict).map (·.1) := by
  intro k mem inside
  rcases mem_keys_insert.mp inside with rfl | inside
  · exact new mem
  · exact fresh k mem inside

theorem insert_of_forall_lt (above : ∀ k ∈ entries.map (·.1), k < key) :
    insert key value entries = entries ++ [(key, value)] := by
  induction entries with
  | nil => rfl
  | cons head rest ih =>
    obtain ⟨before, rest_before⟩ := List.forall_mem_cons.mp above
    have notBefore : ¬key < head.1 := fun h => String.lt_irrefl _ (String.lt_trans h before)
    have other : key ≠ head.1 := fun same => String.lt_irrefl _ (same ▸ before)
    simp only [insert, if_neg notBefore, if_neg other, ih rest_before, List.cons_append]

theorem increasing_iff_keys : Increasing entries ↔ (entries.map (·.1)).Pairwise (· < ·) :=
  List.pairwise_map.symm

theorem nodup_keys (h : Increasing entries) : (entries.map (·.1)).Nodup := by
  refine List.nodup_iff_pairwise_ne.mpr ((increasing_iff_keys.mp h).imp fun less same => ?_)
  exact String.lt_irrefl _ (same ▸ less)

theorem foldl_insert_of_increasing (h : Increasing (dict ++ entries)) :
    entries.foldl (fun dict entry => insert entry.1 entry.2 dict) dict = dict ++ entries := by
  induction entries generalizing dict with
  | nil => simp
  | cons entry rest ih =>
    obtain ⟨-, -, before⟩ := List.pairwise_append.mp h
    have above : ∀ k ∈ dict.map (·.1), k < entry.1 := by
      intro k mem
      obtain ⟨e, inside, rfl⟩ := List.mem_map.mp mem
      exact before e inside entry List.mem_cons_self
    rw [List.foldl_cons, insert_of_forall_lt above, ih (by simpa using h)]
    simp

/-- A dictionary builds itself. -/
theorem ofList_of_increasing (h : Increasing entries) : ofList entries = entries :=
  foldl_insert_of_increasing (show Increasing ([] ++ entries) from h)

/-- A new key adds its entry and leaves the others. -/
theorem insert_perm (fresh : key ∉ entries.map (·.1)) :
    (insert key value entries).Perm ((key, value) :: entries) := by
  induction entries with
  | nil => exact .refl _
  | cons head rest ih =>
    obtain ⟨other, later⟩ := not_or.mp (mt List.mem_cons.mpr fresh)
    simp only [insert, if_neg other]
    split
    · exact .refl _
    · exact ((ih later).cons head).trans (.swap ..)

theorem foldl_insert_perm (nodup : (entries.map (·.1)).Nodup)
    (fresh : ∀ k ∈ entries.map (·.1), k ∉ dict.map (·.1)) :
    (entries.foldl (fun dict entry => insert entry.1 entry.2 dict) dict).Perm
      (entries ++ dict) := by
  induction entries generalizing dict with
  | nil => exact .refl _
  | cons entry rest ih =>
    obtain ⟨new, nodup⟩ := List.nodup_cons.mp nodup
    obtain ⟨absent, fresh⟩ := List.forall_mem_cons.mp fresh
    have front : (insert entry.1 entry.2 dict).Perm (entry :: dict) := insert_perm absent
    have moved := (front.append_left rest).trans List.perm_middle
    exact (ih nodup (fresh_insert new fresh)).trans moved

/-- Entries of distinct keys make a dictionary of just these entries. -/
theorem ofList_perm (nodup : (entries.map (·.1)).Nodup) : (ofList entries).Perm entries := by
  have perm : (ofList entries).Perm (entries ++ []) :=
    foldl_insert_perm nodup fun k _ => List.not_mem_nil
  rwa [List.append_nil] at perm

theorem find?_eq_some_iff (nodup : (entries.map (·.1)).Nodup) :
    find? key entries = some value ↔ (key, value) ∈ entries := by
  simp only [find?, Option.map_eq_some_iff, find?_key_eq_some_iff nodup]
  constructor
  · rintro ⟨entry, ⟨mem, rfl⟩, rfl⟩
    exact mem
  · exact fun mem => ⟨_, ⟨mem, rfl⟩, rfl⟩

/-- Dictionaries with the same value under each key are the same. -/
theorem ext {other : List (String × α)} (increasing : Increasing entries)
    (increasing' : Increasing other)
    (same : ∀ key value, find? key entries = some value ↔ find? key other = some value) :
    entries = other := by
  have nodup := nodup_keys increasing
  have nodup' := nodup_keys increasing'
  have mem : ∀ entry, entry ∈ entries ↔ entry ∈ other := fun ⟨key, value⟩ => by
    rw [← find?_eq_some_iff nodup, same, find?_eq_some_iff nodup']
  have perm : entries.Perm other :=
    (List.perm_ext_iff_of_nodup nodup.of_map nodup'.of_map).mpr mem
  refine perm.eq_of_pairwise (fun e f _ _ less more => ?_) increasing increasing'
  exact absurd (String.lt_trans less more) (String.lt_irrefl _)

theorem mem_of_mem_ofList {e : String × α} (h : e ∈ ofList entries) : e ∈ entries := by
  suffices ∀ dict, e ∈ entries.foldl (fun dict entry => insert entry.1 entry.2 dict) dict →
      e ∈ entries ∨ e ∈ dict from (this [] h).resolve_right List.not_mem_nil
  clear h
  induction entries with
  | nil => exact fun dict h => .inr h
  | cons entry rest ih =>
    intro dict h
    rcases ih _ h with mem | mem
    · exact .inl (List.mem_cons_of_mem _ mem)
    · rcases mem_insert mem with rfl | mem
      · exact .inl List.mem_cons_self
      · exact .inr mem

end Dict

namespace Handler

variable {element : UInt8 → Bytes → Except CodecError Value} {tag : UInt8}
  {dict : List (String × Value)} {entry : String × TypedBytes}

/-- Reads the value of an entry and keeps the key. -/
def readEntry (element : UInt8 → Bytes → Except CodecError Value) (entry : String × TypedBytes) :
    Except CodecError (String × Value) :=
  (fun value => (entry.1, value)) <$> element entry.2.tag entry.2.data

theorem readEntry_eq_ok_iff {key : String} {value : Value} :
    readEntry element entry = .ok (key, value) ↔
      entry.1 = key ∧ element entry.2.tag entry.2.data = .ok value := by
  cases read : element entry.2.tag entry.2.data <;> simp [readEntry, read, Functor.map, Except.map]

theorem keys_of_forall₂_readEntry {entries : List (String × TypedBytes)}
    {read : List (String × Value)}
    (h : List.Forall₂ (fun entry found => readEntry element entry = .ok found) entries read) :
    read.map (·.1) = entries.map (·.1) := by
  induction h with
  | nil => rfl
  | cons head _ ih =>
    obtain ⟨value, -, rfl⟩ := of_map_eq_ok head
    rw [List.map_cons, List.map_cons, ih]

theorem addEntry_of_fresh (fresh : entry.1 ∉ dict.map (·.1)) :
    addEntry element tag dict entry =
      (fun read => Dict.insert read.1 read.2 dict) <$> readEntry element entry := by
  have absent : ¬(Dict.find? entry.1 dict).isSome := fun h => fresh (Dict.isSome_find?_iff.mp h)
  unfold addEntry readEntry
  cases element entry.2.tag entry.2.data with
  | error e => rfl
  | ok value =>
    show (if (Dict.find? entry.1 dict).isSome then _ else _) = _
    rw [if_neg absent]
    rfl

theorem fresh_of_addEntry_ok {result : List (String × Value)}
    (h : addEntry element tag dict entry = .ok result) : entry.1 ∉ dict.map (·.1) := by
  intro present
  unfold addEntry at h
  cases read : element entry.2.tag entry.2.data with
  | error e => rw [read] at h; cases h
  | ok value =>
    rw [read] at h
    change (if (Dict.find? entry.1 dict).isSome then _ else _) = _ at h
    rw [if_pos (Dict.isSome_find?_iff.mpr present)] at h
    cases h

/-- With distinct keys, the entries are read in order and then put together. -/
theorem foldlM_addEntry {entries : List (String × TypedBytes)}
    (nodup : (entries.map (·.1)).Nodup)
    (fresh : ∀ k ∈ entries.map (·.1), k ∉ dict.map (·.1)) :
    entries.foldlM (addEntry element tag) dict =
      (fun read => read.foldl (fun dict entry => Dict.insert entry.1 entry.2 dict) dict) <$>
        entries.mapM (readEntry element) := by
  induction entries generalizing dict with
  | nil => rfl
  | cons entry rest ih =>
    obtain ⟨new, nodup⟩ := List.nodup_cons.mp nodup
    obtain ⟨absent, fresh⟩ := List.forall_mem_cons.mp fresh
    rw [List.foldlM_cons, List.mapM_cons, addEntry_of_fresh absent]
    cases read : readEntry element entry with
    | error e => rfl
    | ok found =>
      obtain ⟨value, -, rfl⟩ := of_map_eq_ok read
      apply (ih nodup (Dict.fresh_insert new fresh)).trans
      cases rest.mapM (readEntry element) <;> rfl

/-- Entries are put together only when no key comes twice. -/
theorem nodup_of_foldlM_addEntry_ok {entries : List (String × TypedBytes)}
    {result : List (String × Value)} (h : entries.foldlM (addEntry element tag) dict = .ok result) :
    (entries.map (·.1)).Nodup ∧ ∀ k ∈ entries.map (·.1), k ∉ dict.map (·.1) := by
  induction entries generalizing dict with
  | nil => simp
  | cons entry rest ih =>
    rw [List.foldlM_cons] at h
    cases added : addEntry element tag dict entry with
    | error e => rw [added] at h; cases h
    | ok next =>
      rw [added] at h
      obtain ⟨nodup, later⟩ := ih h
      have absent := fresh_of_addEntry_ok added
      rw [addEntry_of_fresh absent] at added
      obtain ⟨read, found, rfl⟩ := of_map_eq_ok added
      obtain ⟨value, -, rfl⟩ := of_map_eq_ok found
      refine ⟨List.nodup_cons.mpr ⟨fun mem => ?_, nodup⟩, List.forall_mem_cons.mpr ⟨absent, ?_⟩⟩
      · exact later _ mem (Dict.mem_keys_insert.mpr (.inl rfl))
      · exact fun k mem inside => later k mem (Dict.mem_keys_insert.mpr (.inr inside))

/-- The entries of a payload make the dictionary of what is read for them. -/
theorem of_foldlM_addEntry_ok {entries : List (String × TypedBytes)}
    {result : List (String × Value)} (h : entries.foldlM (addEntry element tag) [] = .ok result) :
    (entries.map (·.1)).Nodup ∧
      ∃ read, entries.mapM (readEntry element) = .ok read ∧ result = Dict.ofList read := by
  obtain ⟨nodup, fresh⟩ := nodup_of_foldlM_addEntry_ok h
  rw [foldlM_addEntry nodup fresh] at h
  obtain ⟨read, traversed, rfl⟩ := of_map_eq_ok h
  exact ⟨nodup, read, traversed, rfl⟩

end Handler

end ContractLink
