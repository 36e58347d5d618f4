/-!
Dictionaries as lists of entries whose keys increase. Keys are ordered by code points, which is
also the order of their UTF-8 bytes.
-/
namespace ContractLink

namespace Dict

variable {α : Type}

def Increasing (entries : List (String × α)) : Prop := entries.Pairwise (·.1 < ·.1)

/-- Puts a value under a key, in place of one already there. -/
def insert (key : String) (value : α) : List (String × α) → List (String × α)
  | [] => [(key, value)]
  | (k, v) :: rest =>
    if key < k then (key, value) :: (k, v) :: rest
    else if key = k then (key, value) :: rest
    else (k, v) :: insert key value rest

def find? (key : String) (entries : List (String × α)) : Option α :=
  (entries.find? (·.1 = key)).map (·.2)

/-- A later entry of the same key counts. -/
def ofList (entries : List (String × α)) : List (String × α) :=
  entries.foldl (fun dict entry => insert entry.1 entry.2 dict) []

theorem mem_insert {key : String} {value : α} {entries : List (String × α)} {e : String × α}
    (h : e ∈ insert key value entries) : e = (key, value) ∨ e ∈ entries := by
  induction entries with
  | nil => simpa [insert] using h
  | cons head rest ih =>
    simp only [insert] at h
    split at h
    · simpa using h
    · split at h
      · rcases List.mem_cons.mp h with h | h <;> simp [h]
      · rcases List.mem_cons.mp h with h | h
        · simp [h]
        · rcases ih h with h | h <;> simp [h]

theorem increasing_insert {key : String} {value : α} {entries : List (String × α)}
    (h : Increasing entries) : Increasing (insert key value entries) := by
  induction entries with
  | nil => simp [Increasing, insert]
  | cons head rest ih =>
    obtain ⟨k, v⟩ := head
    obtain ⟨first, tail⟩ := List.pairwise_cons.mp h
    simp only [insert]
    split
    · next before =>
      refine List.pairwise_cons.mpr ⟨fun e he => ?_, h⟩
      rcases List.mem_cons.mp he with rfl | he
      · exact before
      · exact String.lt_trans before (first e he)
    · next notBefore =>
      split
      · next same => exact List.pairwise_cons.mpr ⟨fun e he => same ▸ first e he, tail⟩
      · next other =>
        refine List.pairwise_cons.mpr ⟨fun e he => ?_, ih tail⟩
        rcases mem_insert he with rfl | he
        · exact Std.lt_of_le_of_ne (String.not_lt.mp notBefore) (Ne.symm other)
        · exact first e he

theorem increasing_ofList (entries : List (String × α)) : Increasing (ofList entries) := by
  suffices ∀ dict : List (String × α), Increasing dict →
      Increasing (entries.foldl (fun dict entry => insert entry.1 entry.2 dict) dict) from
    this [] List.Pairwise.nil
  induction entries with
  | nil => exact fun _ h => h
  | cons e rest ih => exact fun dict h => ih _ (increasing_insert h)

end Dict

end ContractLink
