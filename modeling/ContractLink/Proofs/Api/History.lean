import ContractLink.Proofs.Api.WellFormed
/-!
What an API keeps of the edits it has seen. Its methods are those of the accepted edits, one behind
the other. Main statement: a look-up finds an accepted method whatever is tried after it, and finds
nothing else.
-/
namespace ContractLink

namespace Method

theorem function?_eq_some_iff {m : Method} {f : FunctionDecl} :
    m.function? = some f ↔ m = function f := by
  cases m <;> simp [function?]

theorem event?_eq_some_iff {m : Method} {e : EventDecl} : m.event? = some e ↔ m = event e := by
  cases m <;> simp [event?]

theorem fallback?_eq_some_iff {m : Method} {flags : UInt32} :
    m.fallback? = some flags ↔ m = fallback flags := by
  cases m <;> simp [fallback?]

end Method

namespace Api

variable {api added : Api} {method : Method} {edits : List Edit}

/-- The look-up of the method's kind, under its name if it has one, gives just this method. -/
def Finds (api : Api) : Method → Prop
  | .function f => api.function? f.name = some f
  | .event e => api.event? e.name = some e
  | .fallback flags => api.fallback? = some flags

theorem mem_functions_iff {f : FunctionDecl} : f ∈ api.functions ↔ .function f ∈ api.methods := by
  simp [functions, Method.function?_eq_some_iff]

theorem mem_events_iff {e : EventDecl} : e ∈ api.events ↔ .event e ∈ api.methods := by
  simp [events, Method.event?_eq_some_iff]

theorem mem_fallbacks_iff {flags : UInt32} :
    flags ∈ api.fallbacks ↔ .fallback flags ∈ api.methods := by
  simp [fallbacks, Method.fallback?_eq_some_iff]

theorem WellFormed.function?_eq_some_iff (h : api.WellFormed) {name : String} {f : FunctionDecl} :
    api.function? name = some f ↔ .function f ∈ api.methods ∧ f.name = name := by
  rw [function?, find?_key_eq_some_iff h.functions_nodup, mem_functions_iff]

theorem WellFormed.event?_eq_some_iff (h : api.WellFormed) {name : String} {e : EventDecl} :
    api.event? name = some e ↔ .event e ∈ api.methods ∧ e.name = name := by
  rw [event?, find?_key_eq_some_iff h.events_nodup, mem_events_iff]

/-- There is no second fallback that the first could hide. -/
theorem WellFormed.fallback?_eq_some_iff (h : api.WellFormed) {flags : UInt32} :
    api.fallback? = some flags ↔ .fallback flags ∈ api.methods := by
  have single := h.length_fallbacks
  rw [← mem_fallbacks_iff, fallback?, ← List.head?_filterMap, ← fallbacks]
  generalize api.fallbacks = all at single ⊢
  rcases all with _ | ⟨first, _ | ⟨second, rest⟩⟩
  · simp
  · simp [eq_comm]
  · simp at single

/-- In a well-formed API no method hides another of its kind, let alone one of another kind. -/
theorem WellFormed.finds_iff (h : api.WellFormed) : api.Finds method ↔ method ∈ api.methods := by
  cases method with
  | function f => exact h.function?_eq_some_iff.trans (and_iff_left rfl)
  | event e => exact h.event?_eq_some_iff.trans (and_iff_left rfl)
  | fallback flags => exact h.fallback?_eq_some_iff

/-- The methods of the edits that are accepted, in the order of the edits. -/
def accepted (api : Api) : List Edit → List Method
  | [] => []
  | edit :: rest =>
    match edit.apply api with
    | .ok added => edit.proposed :: added.accepted rest
    | .error _ => api.accepted rest

theorem methods_of_apply_ok {edit : Edit} (ok : edit.apply api = .ok added) :
    added.methods = api.methods ++ [edit.proposed] := by
  rw [edit.apply_eq_push] at ok
  obtain ⟨-, -, rfl⟩ := push_eq_ok_iff.mp ok
  rfl

/-- An edit that is accepted adds its method, one that is refused adds nothing. -/
theorem methods_foldl_next (api : Api) (edits : List Edit) :
    (edits.foldl Edit.next api).methods = api.methods ++ api.accepted edits := by
  induction edits generalizing api with
  | nil => simp [accepted]
  | cons edit rest ih =>
    rw [List.foldl_cons, ih, accepted]
    cases answer : edit.apply api with
    | error e => rw [Edit.next_of_refused answer]
    | ok added =>
      rw [Edit.next_of_added answer, methods_of_apply_ok answer, List.append_assoc,
        List.singleton_append]

theorem methods_edited (edits : List Edit) : (edited edits).methods = accepted {} edits :=
  methods_foldl_next {} edits

/-- What has been added stays, whatever is tried after it. -/
theorem proposed_mem_methods_edited {before after : List Edit} {edit : Edit}
    (ok : edit.apply (edited before) = .ok added) :
    edit.proposed ∈ (edited (before ++ edit :: after)).methods := by
  have later : edited (before ++ edit :: after) = after.foldl Edit.next added := by
    rw [edited, List.foldl_append, List.foldl_cons, ← edited, Edit.next_of_added ok]
  rw [later, methods_foldl_next, methods_of_apply_ok ok]
  simp

/-- The methods are those of the accepted edits, in their order. Once an edit has been accepted, its
method is found under its name, or as the fallback, whatever edits come after it, and no other
method is found; what no accepted edit has brought is reported absent. -/
theorem edited_history (edits : List Edit) :
    let api := edited edits
    let history := accepted {} edits
    api.methods = history ∧
    (∀ before edit after added, edits = before ++ edit :: after →
      edit.apply (edited before) = .ok added → api.Finds edit.proposed) ∧
    (∀ method, api.Finds method → method ∈ history) ∧
    (∀ name, (∀ f, .function f ∈ history → f.name ≠ name) → api.function? name = none) ∧
    (∀ name, (∀ e, .event e ∈ history → e.name ≠ name) → api.event? name = none) ∧
    ((∀ flags, .fallback flags ∉ history) → api.fallback? = none) := by
  intro api history
  have formed : api.WellFormed := wellFormed_foldl_next wellFormed_empty edits
  have methods : api.methods = history := methods_edited edits
  rw [← methods]
  refine ⟨rfl, ?_, fun method => formed.finds_iff.mp, fun name absent => ?_,
    fun name absent => ?_, fun absent => ?_⟩
  · rintro before edit after added rfl ok
    exact formed.finds_iff.mpr (proposed_mem_methods_edited ok)
  · rw [Option.eq_none_iff_forall_ne_some]
    intro f found
    obtain ⟨mem, named⟩ := formed.function?_eq_some_iff.mp found
    exact absent f mem named
  · rw [Option.eq_none_iff_forall_ne_some]
    intro e found
    obtain ⟨mem, named⟩ := formed.event?_eq_some_iff.mp found
    exact absent e mem named
  · rw [Option.eq_none_iff_forall_ne_some]
    intro flags found
    exact absent flags (formed.fallback?_eq_some_iff.mp found)

/-- A function, an event of the same name and a fallback are each found after a second function of
that name and a second fallback have been refused. -/
theorem edited_history_shared_name :
    let hello : FunctionDecl := ⟨"hello", 0, [{ name := "msg", type := .text }], [.text]⟩
    let function : Edit := .addFunction "hello" 0 [("msg", .text)] [.text]
    let event : Edit := .addEvent "hello" 0 0 []
    let refused : List Edit := [.addFunction "hello" 1 [] [], .addFallback 0]
    let api := edited (function :: event :: .addFallback 4 :: refused)
    api.methods = [.function hello, .event ⟨"hello", 0, 0, []⟩, .fallback 4] ∧
      api.function? "hello" = some hello ∧ api.event? "hello" = some ⟨"hello", 0, 0, []⟩ ∧
      api.fallback? = some 4 ∧ api.function? "Hello" = none := by
  intro hello function event refused api
  obtain ⟨methods, found, -, absent, -⟩ :=
    edited_history (function :: event :: .addFallback 4 :: refused)
  have history : accepted {} (function :: event :: .addFallback 4 :: refused) =
      [.function hello, .event ⟨"hello", 0, 0, []⟩, .fallback 4] := by decide +kernel
  have foundFunction : api.Finds function.proposed :=
    found [] function _ (edited [function]) rfl (by decide +kernel)
  have foundEvent : api.Finds event.proposed :=
    found [function] event _ (edited [function, event]) rfl (by decide +kernel)
  have foundFallback : api.Finds (.fallback 4) :=
    found [function, event] (.addFallback 4) _ (edited [function, event, .addFallback 4]) rfl
      (by decide +kernel)
  refine ⟨methods.trans history, foundFunction, foundEvent, foundFallback, absent _ ?_⟩
  rw [history]
  intro f mem
  obtain rfl : f = hello := by simpa using mem
  decide

end Api

end ContractLink
