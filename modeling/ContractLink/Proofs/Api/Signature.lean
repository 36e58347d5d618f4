import ContractLink.Proofs.Api.Serialized
import Mathlib.Data.List.Basic
/-!
Event signatures. The name of an event is any text, so a signature is taken apart from its end: the
types have no parenthesis among them. Main statement: a signature is that of one name and of one
list of types, and the events of an API have signatures of their own.
-/
namespace ContractLink

/-- A list is split in one way at the last place where an element stands. -/
theorem append_cons_inj_of_last {α : Type} {a : α} {front front' back back' : List α}
    (last : a ∉ back) (last' : a ∉ back') (same : front ++ a :: back = front' ++ a :: back') :
    front = front' ∧ back = back' := by
  rcases List.append_eq_append_iff.mp same with ⟨between, rfl, rest⟩ | ⟨between, rfl, rest⟩
  all_goals
    cases between with
    | nil => simpa [eq_comm] using rest
    | cons b between =>
      obtain ⟨rfl, rfl⟩ := List.cons.inj rest
      simp at last last'

namespace TypeTag

theorem find?_name (t : TypeTag) : all.find? (·.name = t.name) = some t := by cases t <;> rfl

theorem name_injective : Function.Injective name := by
  intro t u same
  have found := find?_name t
  rw [same, find?_name] at found
  exact (Option.some.inj found).symm

theorem isAlpha_of_mem_name (t : TypeTag) : ∀ c ∈ t.name.toList, c.isAlpha := by
  have letters : t.name.toList.all Char.isAlpha = true := by cases t <;> decide
  exact List.all_eq_true.mp letters

theorem name_ne_empty (t : TypeTag) : t.name ≠ "" := by cases t <;> decide

/-- The types as a signature has them. -/
def names (types : List TypeTag) : String := ",".intercalate (types.map name)

theorem isAlpha_of_mem_names {types : List TypeTag} :
    ∀ c ∈ (names types).toList, c ≠ ',' → c.isAlpha := by
  induction types with
  | nil => simp [names]
  | cons t rest ih =>
    intro c mem other
    cases rest with
    | nil =>
      rw [names, List.map_singleton, String.intercalate_singleton] at mem
      exact t.isAlpha_of_mem_name c mem
    | cons u rest =>
      have parts : c ∈ t.name.toList ∨ c = ',' ∨ c ∈ (names (u :: rest)).toList := by
        simpa [names, String.toList_append, or_assoc] using mem
      rcases parts with own | comma | later
      · exact t.isAlpha_of_mem_name c own
      · exact absurd comma other
      · exact ih c later other

theorem splitOn_names {types : List TypeTag} (some : types ≠ []) :
    (names types).toList.splitOn ',' = types.map (·.name.toList) := by
  have separate : ∀ part ∈ types.map (·.name.toList), ',' ∉ part := by
    intro part mem comma
    obtain ⟨t, -, rfl⟩ := List.mem_map.mp mem
    exact absurd (t.isAlpha_of_mem_name _ comma) (by decide)
  have parts : (names types).toList = [','].intercalate (types.map (·.name.toList)) := by
    rw [names, String.toList_intercalate, List.map_map]
    rfl
  rw [parts, List.splitOn_intercalate _ separate (by simpa using some)]

/-- No types and one type differ because no type has the empty name. -/
theorem filter_splitOn_names (types : List TypeTag) :
    ((names types).toList.splitOn ',').filter (· ≠ []) = types.map (·.name.toList) := by
  cases types with
  | nil => rfl
  | cons t rest =>
    rw [splitOn_names (List.cons_ne_nil t rest), List.filter_eq_self]
    intro part mem
    obtain ⟨u, -, rfl⟩ := List.mem_map.mp mem
    simpa using u.name_ne_empty

theorem names_injective : Function.Injective names := by
  intro types types' same
  have parts := filter_splitOn_names types
  rw [same, filter_splitOn_names] at parts
  have inj : Function.Injective fun t : TypeTag => t.name.toList :=
    fun t u same => name_injective (String.toList_inj.mp same)
  exact (List.map_injective_iff.mpr inj parts).symm

end TypeTag

namespace EventDecl

theorem toList_signature (e : EventDecl) : e.signature.toList =
    (e.name.toList ++ '(' :: (TypeTag.names (e.params.map (·.type))).toList) ++ [')'] := by
  simp [signature, TypeTag.names, String.toList_append, Function.comp_def]

theorem signature_eq_iff {e f : EventDecl} :
    e.signature = f.signature ↔ e.name = f.name ∧ e.params.map (·.type) = f.params.map (·.type) := by
  constructor
  · intro same
    have lists := congrArg String.toList same
    rw [toList_signature, toList_signature] at lists
    have last (types : List TypeTag) : '(' ∉ (TypeTag.names types).toList :=
      fun mem => absurd (TypeTag.isAlpha_of_mem_names _ mem (by decide)) (by decide)
    obtain ⟨names, types⟩ :=
      append_cons_inj_of_last (last _) (last _) (List.append_cancel_right lists)
    exact ⟨String.toList_inj.mp names, TypeTag.names_injective (String.toList_inj.mp types)⟩
  · rintro ⟨name, types⟩
    apply String.toList_inj.mp
    rw [toList_signature, toList_signature, name, types]

end EventDecl

namespace Api

theorem WellFormed.signatures_nodup {api : Api} (h : api.WellFormed) :
    (api.events.map (·.signature)).Nodup := by
  have names := List.pairwise_map.mp h.events_nodup
  apply List.pairwise_map.mpr
  exact names.imp fun distinct same => distinct (EventDecl.signature_eq_iff.mp same).1

/-- Two events have one signature exactly when they have one name and, in their order, the same
types, whatever the names are. So the events of an API that is built or read have signatures of
their own. -/
theorem signature_identifies :
    (∀ e f : EventDecl, e.signature = f.signature ↔
      e.name = f.name ∧ e.params.map (·.type) = f.params.map (·.type)) ∧
    (∀ edits, ((edited edits).events.map (·.signature)).Nodup) ∧
    ∀ bytes api, deserialize bytes = .ok api → (api.events.map (·.signature)).Nodup := by
  refine ⟨fun e f => EventDecl.signature_eq_iff, fun edits => ?_, fun bytes api read => ?_⟩
  · exact (wellFormed_foldl_next wellFormed_empty edits).signatures_nodup
  · exact (of_deserialize_ok read).2.1.signatures_nodup

/-- Three events, two of them with names that look like a signature; a fourth has the name of the
first and is refused. Another declaration of the first has its signature. -/
theorem signature_identifies_lookalikes :
    let api := edited [.addEvent "Log" 0 1 [("id", .integer), ("to", .address)],
      .addEvent "Log(int" 0 0 [("to", .address)], .addEvent "Log(int,Address)" 0 0 [],
      .addEvent "Log" 0 0 []]
    let other : EventDecl :=
      ⟨"Log", 1, 0, [{ name := "a", type := .integer }, { name := "b", type := .address }]⟩
    api.events.map (·.signature) =
        ["Log(int,Address)", "Log(int(Address)", "Log(int,Address)()"] ∧
      api.events.head?.map (·.signature) = some other.signature ∧
      (api.events.map (·.signature)).Nodup ∧ deserialize api.serialize = .ok api := by
  intro api other
  obtain ⟨identifies, -, read⟩ := signature_identifies
  let first : EventDecl :=
    ⟨"Log", 0, 1, [{ name := "id", type := .integer }, { name := "to", type := .address }]⟩
  have same : first.signature = other.signature := (identifies first other).mpr ⟨rfl, rfl⟩
  have bytes : deserialize api.serialize = .ok api := by decide +kernel
  exact ⟨by decide +kernel, congrArg some same, read _ api bytes, bytes⟩

end Api

end ContractLink
