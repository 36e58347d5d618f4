import ContractLink.Proofs.Registry.Depth
/-!
Reading a dictionary. The entries of a payload are read in order into a dictionary, whose keys after
each of them are those of the entries before. Main statement: a payload is read exactly when its keys
differ and all its values are read, in any order to the same dictionary, and else it fails at the
first entry whose value is not read or whose key came before.
-/
namespace ContractLink

namespace Handler

variable {element : UInt8 → Bytes → Except CodecError Value} {tag : UInt8} {e : CodecError}
  {entries before after other : List (String × TypedBytes)} {entry : String × TypedBytes}

/-- The entries make a dictionary: no key comes twice, and the value of each is read. -/
structure Admits (element : UInt8 → Bytes → Except CodecError Value)
    (entries : List (String × TypedBytes)) : Prop where
  distinct : (entries.map (·.1)).Nodup
  read : ∀ entry ∈ entries, ∃ value, element entry.2.tag entry.2.data = .ok value

/-- Why an entry cannot follow those before it. Its value is read before its key is looked up. -/
inductive Spoils (element : UInt8 → Bytes → Except CodecError Value) (tag : UInt8)
    (before : List (String × TypedBytes)) (entry : String × TypedBytes) : CodecError → Prop
  | unread {e : CodecError} (failed : element entry.2.tag entry.2.data = .error e) :
      Spoils element tag before entry e
  | repeated {value : Value} (read : element entry.2.tag entry.2.data = .ok value)
      (earlier : entry.1 ∈ before.map (·.1)) :
      Spoils element tag before entry (.invalidPayload tag (.duplicateKey entry.1))

theorem Admits.of_perm (admits : Admits element entries) (perm : other.Perm entries) :
    Admits element other where
  distinct := (perm.map _).nodup_iff.mpr admits.distinct
  read entry mem := admits.read entry (perm.mem_iff.mp mem)

/-- Entries that make a dictionary are read one by one and put together. -/
theorem Admits.exists_read (admits : Admits element entries) (tag : UInt8) :
    ∃ read, List.Forall₂ (fun entry found => readEntry element entry = .ok found) entries read ∧
      entries.foldlM (addEntry element tag) [] = .ok (Dict.ofList read) := by
  cases traversed : entries.mapM (readEntry element) with
  | error e =>
    obtain ⟨entry, mem, e, failed⟩ := exists_mapM_eq_error_iff.mp ⟨e, traversed⟩
    obtain ⟨value, read⟩ := admits.read entry mem
    rw [readEntry_eq_ok_iff.mpr ⟨rfl, read⟩] at failed
    cases failed
  | ok read =>
    refine ⟨read, forall₂_of_mapM_ok traversed, ?_⟩
    rw [foldlM_addEntry admits.distinct fun k _ inside => absurd inside List.not_mem_nil, traversed]
    rfl

theorem addEntry_of_spoils {dict : List (String × Value)}
    (keys : ∀ key, key ∈ dict.map (·.1) ↔ key ∈ before.map (·.1))
    (spoils : Spoils element tag before entry e) : addEntry element tag dict entry = .error e := by
  cases spoils with
  | unread failed => simp [addEntry, failed, bind, Except.bind]
  | repeated read earlier =>
    have present := Dict.isSome_find?_iff.mpr ((keys _).mpr earlier)
    simp [addEntry, read, present, bind, Except.bind, throw, throwThe, MonadExceptOf.throw]

/-- The first entry that cannot follow those before it gives the error. -/
theorem foldlM_addEntry_of_spoils (admits : Admits element before)
    (spoils : Spoils element tag before entry e) :
    (before ++ entry :: after).foldlM (addEntry element tag) [] = .error e := by
  obtain ⟨read, pairs, built⟩ := admits.exists_read tag
  have same := keys_of_forall₂_readEntry pairs
  have keys : ∀ key, key ∈ (Dict.ofList read).map (·.1) ↔ key ∈ before.map (·.1) := fun key => by
    rw [← same]
    exact ((Dict.ofList_perm (same ▸ admits.distinct)).map _).mem_iff
  have stops := addEntry_of_spoils keys spoils
  simp [List.foldlM_append, built, stops, bind, Except.bind]

theorem exists_spoils (tag : UInt8) (admits : Admits element before)
    (broken : ¬Admits element (before ++ [entry])) : ∃ e, Spoils element tag before entry e := by
  cases read : element entry.2.tag entry.2.data with
  | error e => exact ⟨e, .unread read⟩
  | ok value =>
    by_cases earlier : entry.1 ∈ before.map (·.1)
    · exact ⟨_, .repeated read earlier⟩
    refine absurd ⟨?_, ?_⟩ broken
    · rw [List.map_append, List.map_singleton, ← List.concat_eq_append]
      exact admits.distinct.concat earlier
    · exact List.forall_mem_append.mpr ⟨admits.read, List.forall_mem_singleton.mpr ⟨value, read⟩⟩

theorem foldlM_addEntry_eq_error_iff :
    entries.foldlM (addEntry element tag) [] = .error e ↔ ∃ before entry after,
      entries = before ++ entry :: after ∧ Admits element before ∧
        Spoils element tag before entry e := by
  refine eq_error_iff_first_break ⟨List.nodup_nil, nofun⟩ (fun admits => ?_)
    (fun before entry => exists_spoils tag) ?_
  · obtain ⟨read, -, built⟩ := admits.exists_read tag
    exact ⟨_, built⟩
  · rintro before entry after e rfl admits spoils
    exact foldlM_addEntry_of_spoils admits spoils

/-- The dictionary holds what is read for the entries, each under its key. -/
theorem find?_ofList_iff {read : List (String × Value)} {key : String} {value : Value}
    (nodup : (entries.map (·.1)).Nodup)
    (pairs : List.Forall₂ (fun entry found => readEntry element entry = .ok found) entries read) :
    Dict.find? key (Dict.ofList read) = some value ↔
      ∃ typed, (key, typed) ∈ entries ∧ element typed.tag typed.data = .ok value := by
  have distinct : (read.map (·.1)).Nodup := keys_of_forall₂_readEntry pairs ▸ nodup
  rw [Dict.find?_eq_some_iff (Dict.nodup_keys (Dict.increasing_ofList read)),
    (Dict.ofList_perm distinct).mem_iff]
  constructor
  · intro mem
    obtain ⟨⟨k, typed⟩, inside, found⟩ := exists_of_forall₂ pairs _ mem
    obtain ⟨rfl, inner⟩ := readEntry_eq_ok_iff.mp found
    exact ⟨typed, inside, inner⟩
  · rintro ⟨typed, inside, inner⟩
    obtain ⟨found, mem, same⟩ := exists_of_forall₂ pairs.flip _ inside
    have expected : readEntry element (key, typed) = .ok (key, value) :=
      readEntry_eq_ok_iff.mpr ⟨rfl, inner⟩
    rw [expected] at same
    exact Except.ok.inj same ▸ mem

/-- What entries are put together to, whatever their order. -/
theorem foldlM_addEntry_eq_ok_iff {dict : List (String × Value)} :
    entries.foldlM (addEntry element tag) [] = .ok dict ↔
      Admits element entries ∧ Dict.Increasing dict ∧ ∀ key value,
        Dict.find? key dict = some value ↔
          ∃ typed, (key, typed) ∈ entries ∧ element typed.tag typed.data = .ok value := by
  constructor
  · intro built
    obtain ⟨nodup, read, traversed, rfl⟩ := of_foldlM_addEntry_ok built
    refine ⟨⟨nodup, fun entry mem => ?_⟩, Dict.increasing_ofList read, fun key value => ?_⟩
    · obtain ⟨⟨key, value⟩, found⟩ := exists_ok_of_mapM_ok traversed entry mem
      exact ⟨value, (readEntry_eq_ok_iff.mp found).2⟩
    · exact find?_ofList_iff nodup (forall₂_of_mapM_ok traversed)
  · rintro ⟨admits, increasing, holds⟩
    obtain ⟨read, pairs, built⟩ := admits.exists_read tag
    have same : Dict.ofList read = dict :=
      Dict.ext (Dict.increasing_ofList read) increasing fun key value =>
        (find?_ofList_iff admits.distinct pairs).trans (holds key value).symm
    rw [built, same]

theorem readable_dictFormat_of_perm (readable : dictFormat.Readable entries)
    (perm : other.Perm entries) : dictFormat.Readable other := by
  obtain ⟨count, inside⟩ := (Format.readable_list ..).mp readable
  exact (Format.readable_list ..).mpr
    ⟨perm.length_eq.trans_le count, fun entry mem => inside entry (perm.mem_iff.mp mem)⟩

end Handler

namespace Registry

variable {registry : Registry} {depth : Nat} {entries : List (String × TypedBytes)}

theorem decodeAt_encode_dictFormat
    (found : registry.handler? TypeTag.dict.code = some .dict) (shallow : depth ≤ maxNesting)
    (readable : Handler.dictFormat.Readable entries) :
    registry.decodeAt depth TypeTag.dict.code (Handler.dictFormat.encode entries) =
      .dict <$> entries.foldlM
        (Handler.addEntry (registry.decodeAt (depth + 1)) TypeTag.dict.code) [] := by
  have parsed := Handler.lawful_dictFormat.decodeAll_encode readable.expressible
  rw [if_pos readable] at parsed
  rw [decodeAt_of_le shallow, found]
  show Handler.decode .dict _ _ _ = _
  rw [Handler.decode_dict, parsed]
  rfl

theorem decodeAt_dict_eq_ok_iff (found : registry.handler? TypeTag.dict.code = some .dict)
    (shallow : depth ≤ maxNesting) (readable : Handler.dictFormat.Readable entries)
    {value : Value} :
    registry.decodeAt depth TypeTag.dict.code (Handler.dictFormat.encode entries) = .ok value ↔
      Handler.Admits (registry.decodeAt (depth + 1)) entries ∧
        ∃ dict, value = .dict dict ∧ Dict.Increasing dict ∧ ∀ key inner,
          Dict.find? key dict = some inner ↔ ∃ typed, (key, typed) ∈ entries ∧
            registry.decodeAt (depth + 1) typed.tag typed.data = .ok inner := by
  rw [decodeAt_encode_dictFormat found shallow readable]
  constructor
  · intro done
    obtain ⟨dict, folded, rfl⟩ := of_map_eq_ok done
    obtain ⟨admits, increasing, holds⟩ := Handler.foldlM_addEntry_eq_ok_iff.mp folded
    exact ⟨admits, dict, rfl, increasing, holds⟩
  · rintro ⟨admits, dict, rfl, increasing, holds⟩
    rw [Handler.foldlM_addEntry_eq_ok_iff.mpr ⟨admits, increasing, holds⟩]
    rfl

/-- A payload of entries is read as a dictionary exactly when no key comes twice and the value of each
entry is read one level further down. The dictionary then has just these keys and values, so it is
the same for the entries in any order. Else the first entry that is not read, or is read and repeats
an earlier key, gives the error. -/
theorem decodeAt_dict_entries (registry : Registry)
    (found : registry.handler? TypeTag.dict.code = some .dict) (depth : Nat)
    (shallow : depth ≤ maxNesting) (entries : List (String × TypedBytes))
    (readable : Handler.dictFormat.Readable entries) :
    let element := registry.decodeAt (depth + 1)
    let read (entries : List (String × TypedBytes)) :=
      registry.decodeAt depth TypeTag.dict.code (Handler.dictFormat.encode entries)
    ((∃ value, read entries = .ok value) ↔ Handler.Admits element entries) ∧
      (∀ value, read entries = .ok value →
        (∃ dict, value = .dict dict ∧ Dict.Increasing dict ∧ ∀ key inner,
          Dict.find? key dict = some inner ↔
            ∃ typed, (key, typed) ∈ entries ∧ element typed.tag typed.data = .ok inner) ∧
        ∀ other, other.Perm entries → read other = .ok value) ∧
      ∀ e, read entries = .error e ↔ ∃ before entry after,
        entries = before ++ entry :: after ∧ Handler.Admits element before ∧
          Handler.Spoils element TypeTag.dict.code before entry e := by
  intro element read
  refine ⟨⟨fun ⟨value, done⟩ => ((decodeAt_dict_eq_ok_iff found shallow readable).mp done).1,
    fun admits => ?_⟩, fun value done => ?_, fun e => ?_⟩
  · obtain ⟨values, -, folded⟩ := admits.exists_read TypeTag.dict.code
    refine ⟨.dict (Dict.ofList values), ?_⟩
    exact (decodeAt_encode_dictFormat found shallow readable).trans (by rw [folded]; rfl)
  · obtain ⟨admits, holds⟩ := (decodeAt_dict_eq_ok_iff found shallow readable).mp done
    refine ⟨holds, fun other perm => ?_⟩
    have again := Handler.readable_dictFormat_of_perm readable perm
    refine (decodeAt_dict_eq_ok_iff found shallow again).mpr ⟨admits.of_perm perm, ?_⟩
    simpa only [perm.mem_iff] using holds
  · rw [← Handler.foldlM_addEntry_eq_error_iff]
    show registry.decodeAt .. = _ ↔ _
    rw [decodeAt_encode_dictFormat found shallow readable, map_eq_error_iff]

/-- The entries come in the wrong order. One more of a key that is there is refused for its value,
which is read first. -/
theorem decodeAt_dict_entries_unsorted :
    let entries : List (String × TypedBytes) :=
      [("b", ⟨11, [5]⟩), ("a", ⟨2, Handler.listFormat.encode []⟩)]
    let last : String × TypedBytes := ("b", ⟨13, []⟩)
    let value : Value := .dict [("a", .list []), ("b", .integer 5)]
    let read (entries : List (String × TypedBytes)) :=
      standard.decodeAt 63 TypeTag.dict.code (Handler.dictFormat.encode entries)
    read entries = .ok value ∧ read entries.reverse = .ok value ∧
      read (entries ++ [last]) = .error (.unknownTag 13) := by
  intro entries last value read
  have done : read entries = .ok value := by decide +kernel
  obtain ⟨admits, same, -⟩ :=
    decodeAt_dict_entries standard rfl 63 (by decide) entries (by decide)
  obtain ⟨-, -, refused⟩ :=
    decodeAt_dict_entries standard rfl 63 (by decide) (entries ++ [last]) (by decide)
  have unknown : standard.decodeAt 64 13 [] = .error (.unknownTag 13) := rfl
  refine ⟨done, (same value done).2 _ entries.reverse_perm, (refused _).mpr ?_⟩
  exact ⟨entries, last, [], rfl, admits.mp ⟨value, done⟩, .unread unknown⟩

end Registry

end ContractLink
