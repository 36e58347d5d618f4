import ContractLink.Api.Basic
import ContractLink.Proofs.Traversal
import Mathlib.Data.List.Nodup
/-!
Well-formed APIs, said without regard to the order in which methods are added. Main statement: an
API that is built is always well-formed, and a method is refused exactly when the methods with it
are not.
-/
namespace ContractLink

theorem firstRepeat?_eq_none_iff {seen names : List String} :
    firstRepeat? seen names = none ↔ names.Nodup ∧ ∀ name ∈ names, name ∉ seen := by
  induction names generalizing seen with
  | nil => simp [firstRepeat?]
  | cons name rest ih =>
    rw [firstRepeat?, List.nodup_cons, List.forall_mem_cons]
    split
    next known => simp [known]
    next new =>
      rw [ih]
      constructor
      · rintro ⟨nodup, fresh⟩
        refine ⟨⟨fun again => fresh name again List.mem_cons_self, nodup⟩, new, ?_⟩
        exact fun other mem known => fresh other mem (List.mem_cons_of_mem _ known)
      · rintro ⟨⟨once, nodup⟩, -, fresh⟩
        refine ⟨nodup, fun other mem known => ?_⟩
        rcases List.mem_cons.mp known with rfl | known
        · exact once mem
        · exact fresh other mem known

namespace FunctionDecl

structure WellFormed (f : FunctionDecl) : Prop where
  named : f.name ≠ ""
  inputs_nodup : (f.inputs.map (·.name)).Nodup
  /-- No required input follows an optional one. -/
  optional_last : f.inputs.Pairwise fun before after => before.isOptional → after.isOptional
  tag_default : ∀ p ∈ f.inputs, ∀ typed ∈ p.default?, typed.tag = p.type.code

theorem misplacedOptional?_eq_none_iff {f : FunctionDecl} :
    f.misplacedOptional? = none ↔
      f.inputs.Pairwise fun before after => before.isOptional → after.isOptional := by
  unfold misplacedOptional?
  induction f.inputs with
  | nil => simp
  | cons p rest ih =>
    rw [List.pairwise_cons]
    by_cases optional : p.isOptional = true
    · have behind : rest.all Param.isOptional ↔
          (∀ q ∈ rest, p.isOptional → q.isOptional) ∧
            rest.Pairwise fun before after => before.isOptional → after.isOptional := by
        rw [List.all_eq_true]
        refine ⟨fun all => ⟨fun q mem _ => all q mem, ?_⟩, fun h q mem => h.1 q mem optional⟩
        exact List.pairwise_of_forall_mem_list fun _ _ q mem _ => all q mem
      rw [← behind]
      simp [optional]
    · simpa [optional] using ih

theorem wrongDefault_eq_false_iff {p : Param} :
    wrongDefault p = false ↔ ∀ typed ∈ p.default?, typed.tag = p.type.code := by
  unfold wrongDefault
  cases p.default? <;> simp

theorem fault?_eq_none_iff {f : FunctionDecl} : f.fault? = none ↔ f.WellFormed := by
  unfold fault?
  split
  next unnamed => exact iff_of_false (Option.some_ne_none _) fun h => h.named unnamed
  next named =>
    have names : firstRepeat? [] (f.inputs.map (·.name)) = none ↔
        (f.inputs.map (·.name)).Nodup := by
      simp [firstRepeat?_eq_none_iff]
    have defaults : f.inputs.find? wrongDefault = none ↔
        ∀ p ∈ f.inputs, ∀ typed ∈ p.default?, typed.tag = p.type.code := by
      simp only [List.find?_eq_none, Bool.not_eq_true, wrongDefault_eq_false_iff]
    simp only [Option.orElse_eq_orElse, Option.orElse_eq_or, Option.or_eq_none_iff,
      Option.map_eq_none_iff, names, misplacedOptional?_eq_none_iff, defaults]
    exact ⟨fun ⟨nodup, last, tags⟩ => ⟨named, nodup, last, tags⟩,
      fun h => ⟨h.inputs_nodup, h.optional_last, h.tag_default⟩⟩

end FunctionDecl

namespace EventDecl

structure WellFormed (e : EventDecl) : Prop where
  named : e.name ≠ ""
  params_nodup : (e.params.map (·.name)).Nodup
  indexed_le : e.indexed.toNat ≤ e.params.length
  no_default : ∀ p ∈ e.params, p.default? = none

theorem fault?_eq_none_iff {e : EventDecl} : e.fault? = none ↔ e.WellFormed := by
  unfold fault?
  split
  next unnamed => exact iff_of_false (Option.some_ne_none _) fun h => h.named unnamed
  next named =>
    have names : firstRepeat? [] (e.params.map (·.name)) = none ↔
        (e.params.map (·.name)).Nodup := by
      simp [firstRepeat?_eq_none_iff]
    have defaults : e.params.find? Param.isOptional = none ↔ ∀ p ∈ e.params, p.default? = none := by
      simp [List.find?_eq_none, Param.isOptional]
    have count (fault : DescriptorFault) :
        (if e.params.length < e.indexed.toNat then some fault else none) = none ↔
          e.indexed.toNat ≤ e.params.length := by
      simp
    simp only [Option.orElse_eq_orElse, Option.orElse_eq_or, Option.or_eq_none_iff,
      Option.map_eq_none_iff, names, count, defaults]
    exact ⟨fun ⟨nodup, indexed, plain⟩ => ⟨named, nodup, indexed, plain⟩,
      fun h => ⟨h.params_nodup, h.indexed_le, h.no_default⟩⟩

end EventDecl

namespace Method

def WellFormed : Method → Prop
  | function f => f.WellFormed
  | fallback _ => True
  | event e => e.WellFormed

theorem fault?_eq_none_iff {m : Method} : m.fault? = none ↔ m.WellFormed := by
  cases m with
  | function f => exact f.fault?_eq_none_iff
  | fallback flags => exact iff_of_true rfl trivial
  | event e => exact e.fault?_eq_none_iff

end Method

/-- The error is about a descriptor, and not about the bytes it is read from. -/
def ApiError.IsInvalid (e : ApiError) : Prop := ∃ fault, e = .invalid fault

namespace Api

variable {api : Api} {method : Method}

/-- The flags of every fallback. -/
def fallbacks (api : Api) : List UInt32 := api.methods.filterMap Method.fallback?

/-- Every method is well-formed; functions and events have names of their own among themselves, and
there is at most one fallback. The order of the methods does not matter. -/
structure WellFormed (api : Api) : Prop where
  methods : ∀ m ∈ api.methods, m.WellFormed
  functions_nodup : (api.functions.map (·.name)).Nodup
  events_nodup : (api.events.map (·.name)).Nodup
  length_fallbacks : api.fallbacks.length ≤ 1

theorem WellFormed.of_perm {other : Api} (perm : api.methods.Perm other.methods)
    (h : api.WellFormed) : other.WellFormed where
  methods m mem := h.methods m (perm.mem_iff.mpr mem)
  functions_nodup := ((perm.filterMap _).map _).nodup_iff.mp h.functions_nodup
  events_nodup := ((perm.filterMap _).map _).nodup_iff.mp h.events_nodup
  length_fallbacks := (perm.filterMap Method.fallback?).length_eq ▸ h.length_fallbacks

theorem WellFormed.of_sublist {other : Api} (part : other.methods.Sublist api.methods)
    (h : api.WellFormed) : other.WellFormed where
  methods m mem := h.methods m (part.subset mem)
  functions_nodup := ((part.filterMap _).map _).nodup h.functions_nodup
  events_nodup := ((part.filterMap _).map _).nodup h.events_nodup
  length_fallbacks := Nat.le_trans (part.filterMap _).length_le h.length_fallbacks

theorem wellFormed_empty : ({} : Api).WellFormed :=
  ⟨List.forall_mem_nil _, List.nodup_nil, List.nodup_nil, Nat.zero_le _⟩

theorem fallback?_eq_none_iff : api.fallback? = none ↔ api.fallbacks = [] := by
  simp [fallback?, fallbacks]

theorem function?_eq_none_iff {name : String} :
    api.function? name = none ↔ name ∉ api.functions.map (·.name) := by
  simp [function?]

theorem event?_eq_none_iff {name : String} :
    api.event? name = none ↔ name ∉ api.events.map (·.name) := by
  simp [event?]

theorem clash?_eq_none_iff :
    api.clash? method = none ↔
      (∀ f ∈ method.function?, f.name ∉ api.functions.map (·.name)) ∧
      (∀ e ∈ method.event?, e.name ∉ api.events.map (·.name)) ∧
      (method.fallback?.isSome → api.fallbacks = []) := by
  cases method with
  | function f =>
    simp [clash?, Method.function?, Method.event?, Method.fallback?, function?_eq_none_iff]
  | event e =>
    simp [clash?, Method.function?, Method.event?, Method.fallback?, event?_eq_none_iff]
  | fallback flags =>
    simp [clash?, Method.function?, Method.event?, Method.fallback?, fallback?_eq_none_iff]

/-- With one more method there is one more of a kind, if the method is of that kind. -/
theorem filterMap_methods_concat {α : Type} (api : Api) (method : Method)
    (kind? : Method → Option α) :
    (api.methods ++ [method]).filterMap kind? =
      api.methods.filterMap kind? ++ (kind? method).toList := by
  cases found : kind? method <;> simp [found]

/-- Names of a kind stay distinct when the name of the new method, if it is of that kind, is none of
them. -/
theorem nodup_names_concat_iff {α : Type} {kind? : Method → Option α} {name : α → String}
    (nodup : ((api.methods.filterMap kind?).map name).Nodup) :
    (((api.methods ++ [method]).filterMap kind?).map name).Nodup ↔
      ∀ a ∈ kind? method, name a ∉ (api.methods.filterMap kind?).map name := by
  rw [filterMap_methods_concat]
  cases kind? method with
  | none => simpa using nodup
  | some a =>
    rw [Option.toList_some, List.map_append, List.map_singleton, ← List.concat_eq_append,
      List.nodup_concat]
    simp [nodup]

/-- With one more method, that method is well-formed and clashes with none of the others. -/
theorem WellFormed.concat_iff (h : api.WellFormed) :
    (⟨api.methods ++ [method]⟩ : Api).WellFormed ↔
      method.WellFormed ∧ api.clash? method = none := by
  have functions : ((⟨api.methods ++ [method]⟩ : Api).functions.map (·.name)).Nodup ↔
      ∀ f ∈ method.function?, f.name ∉ api.functions.map (·.name) :=
    nodup_names_concat_iff h.functions_nodup
  have events : ((⟨api.methods ++ [method]⟩ : Api).events.map (·.name)).Nodup ↔
      ∀ e ∈ method.event?, e.name ∉ api.events.map (·.name) :=
    nodup_names_concat_iff h.events_nodup
  have fallbacks : (⟨api.methods ++ [method]⟩ : Api).fallbacks.length ≤ 1 ↔
      (method.fallback?.isSome → api.fallbacks = []) := by
    have most := h.length_fallbacks
    rw [fallbacks, filterMap_methods_concat, ← fallbacks, List.length_append,
      ← List.length_eq_zero_iff]
    cases method.fallback? <;> simp
    all_goals omega
  rw [clash?_eq_none_iff, ← functions, ← events, ← fallbacks]
  constructor
  · intro whole
    exact ⟨whole.methods method (by simp), whole.functions_nodup, whole.events_nodup,
      whole.length_fallbacks⟩
  · rintro ⟨formed, functions, events, fallbacks⟩
    refine ⟨fun m mem => ?_, functions, events, fallbacks⟩
    rcases List.mem_append.mp mem with old | new
    · exact h.methods m old
    · exact List.mem_singleton.mp new ▸ formed

theorem run_insert (method : Method) (api : Api) : (insert method).run api =
    match method.fault? <|> api.clash? method with
    | some fault => .error (.invalid fault) api
    | none => .ok () ⟨api.methods ++ [method]⟩ := by
  simp only [insert, EStateM.run_bind, EStateM.run_get]
  cases method.fault? <|> api.clash? method <;> rfl

theorem push_eq (api : Api) (method : Method) : api.push method =
    match method.fault? <|> api.clash? method with
    | some fault => .error (.invalid fault)
    | none => .ok ⟨api.methods ++ [method]⟩ := by
  unfold push Change.result
  rw [run_insert]
  cases method.fault? <|> api.clash? method <;> rfl

theorem Change.left_of_result_ok {change : Change} {added : Api}
    (ok : change.result api = .ok added) :
    change.left api = added := by
  unfold result at ok
  unfold left
  split at ok
  · exact Except.ok.inj ok
  · cases ok

/-- Nothing has been added when a method is refused. -/
theorem left_insert_of_refused {e : ApiError} (refused : api.push method = .error e) :
    (insert method).left api = api := by
  rw [push_eq] at refused
  unfold Change.left
  rw [run_insert]
  cases found : method.fault? <|> api.clash? method with
  | some fault => rfl
  | none =>
    rw [found] at refused
    cases refused

/-- A method is added, behind the others, if it is well-formed and clashes with none of them. -/
theorem push_eq_ok_iff {added : Api} : api.push method = .ok added ↔
    method.WellFormed ∧ api.clash? method = none ∧ ⟨api.methods ++ [method]⟩ = added := by
  rw [← Method.fault?_eq_none_iff, ← and_assoc, ← Option.or_eq_none_iff, push_eq,
    Option.orElse_eq_orElse, Option.orElse_eq_or]
  split
  next fault found => simp [found]
  next none => simp [none]

/-- To a well-formed API a method is added exactly when the methods are well-formed with it. -/
theorem WellFormed.settles_push (h : api.WellFormed) (method : Method) :
    Settles (WellFormed ⟨api.methods ++ [method]⟩) ApiError.IsInvalid ⟨api.methods ++ [method]⟩
      (api.push method) := by
  have sound : (method.fault? <|> api.clash? method) = none ↔
      WellFormed ⟨api.methods ++ [method]⟩ := by
    rw [h.concat_iff, ← Method.fault?_eq_none_iff, Option.orElse_eq_orElse, Option.orElse_eq_or,
      Option.or_eq_none_iff]
  rw [push_eq]
  split
  next fault found =>
    have ill : ¬WellFormed ⟨api.methods ++ [method]⟩ := by
      rw [← sound, found]
      exact Option.some_ne_none fault
    exact ⟨fun formed => absurd formed ill, fun _ => ⟨_, rfl, fault, rfl⟩⟩
  next none => exact ⟨fun _ => rfl, fun ill => absurd (sound.mp none) ill⟩

/-- The first method that is refused decides; what comes behind it cannot mend the list. -/
theorem WellFormed.settles_foldlM_push (h : api.WellFormed) (methods : List Method) :
    Settles (WellFormed ⟨api.methods ++ methods⟩) ApiError.IsInvalid ⟨api.methods ++ methods⟩
      (methods.foldlM push api) := by
  induction methods generalizing api with
  | nil =>
    rw [List.append_nil]
    exact ⟨fun _ => rfl, fun ill => absurd h ill⟩
  | cons method rest ih =>
    have pushed := h.settles_push method
    have split : api.methods ++ method :: rest = (api.methods ++ [method]) ++ rest := by simp
    rw [List.foldlM_cons, split]
    by_cases formed : WellFormed ⟨api.methods ++ [method]⟩
    · rw [pushed.ok formed]
      exact ih formed
    · have ill : ¬WellFormed ⟨(api.methods ++ [method]) ++ rest⟩ := fun whole =>
        formed (whole.of_sublist (List.sublist_append_left _ rest))
      obtain ⟨e, failed, invalid⟩ := pushed.error formed
      rw [failed]
      exact ⟨fun whole => absurd whole ill, fun _ => ⟨e, rfl, invalid⟩⟩

theorem settles_validated (api : Api) :
    Settles api.WellFormed ApiError.IsInvalid api api.validated :=
  wellFormed_empty.settles_foldlM_push api.methods

/-- One attempt to add a method. -/
inductive Edit where
  | addFunction (name : String) (flags : UInt32) (inputs : List (String × TypeTag))
      (outputs : List TypeTag)
  | addEvent (name : String) (flags : UInt32) (indexed : UInt64) (params : List (String × TypeTag))
  | addFallback (flags : UInt32)
  | push (method : Method)

namespace Edit

def change : Edit → Change
  | addFunction name flags inputs outputs => insertFunction name flags inputs outputs
  | addEvent name flags indexed params => insertEvent name flags indexed params
  | addFallback flags => insertFallback flags
  | push method => insert method

def apply (api : Api) (edit : Edit) : Except ApiError Api := edit.change.result api

/-- The API after the attempt. -/
def next (api : Api) (edit : Edit) : Api := edit.change.left api

/-- The method that it tries to add. -/
def proposed : Edit → Method
  | addFunction name flags inputs outputs =>
    .function ⟨name, flags, inputs.map required, outputs⟩
  | addEvent name flags indexed params => .event ⟨name, flags, indexed, params.map required⟩
  | addFallback flags => .fallback flags
  | push method => method

theorem change_eq_insert (edit : Edit) : edit.change = insert edit.proposed := by
  cases edit <;> rfl

theorem apply_eq_push (edit : Edit) (api : Api) : edit.apply api = api.push edit.proposed := by
  rw [apply, change_eq_insert]
  rfl

theorem next_of_refused {edit : Edit} {e : ApiError} (refused : edit.apply api = .error e) :
    edit.next api = api := by
  rw [apply_eq_push] at refused
  rw [next, change_eq_insert, left_insert_of_refused refused]

theorem next_of_added {edit : Edit} {added : Api} (ok : edit.apply api = .ok added) :
    edit.next api = added :=
  Change.left_of_result_ok ok

theorem wellFormed_next (h : api.WellFormed) (edit : Edit) : (edit.next api).WellFormed := by
  have pushed := h.settles_push edit.proposed
  rw [← edit.apply_eq_push] at pushed
  by_cases formed : WellFormed ⟨api.methods ++ [edit.proposed]⟩
  · rwa [next_of_added (pushed.ok formed)]
  · obtain ⟨e, refused, -⟩ := pushed.error formed
    rwa [next_of_refused refused]

end Edit

/-- The API after one edit after another, from no methods on. -/
def edited (edits : List Edit) : Api := edits.foldl Edit.next {}

theorem wellFormed_foldl_next (h : api.WellFormed) (edits : List Edit) :
    (edits.foldl Edit.next api).WellFormed := by
  induction edits generalizing api with
  | nil => exact h
  | cons edit rest ih => exact ih (edit.wellFormed_next h)

/-- Whatever edits are tried, the API is well-formed. To a well-formed API a method is added, behind
the others, exactly when the methods are well-formed with it; otherwise it is refused and the API is
what it was. Methods are accepted together exactly when they are well-formed, and so in every order
or in none. -/
theorem edited_wellFormed :
    (∀ edits, (edited edits).WellFormed) ∧
    (∀ (api : Api) (method : Method), api.WellFormed →
      let extended : Api := ⟨api.methods ++ [method]⟩
      (api.push method = .ok extended ↔ extended.WellFormed) ∧
      (¬extended.WellFormed → (∃ fault, api.push method = .error (.invalid fault)) ∧
        (Edit.push method).next api = api)) ∧
    (∀ api : Api, (api.validated = .ok api ↔ api.WellFormed) ∧
      (¬api.WellFormed → ∃ fault, api.validated = .error (.invalid fault))) ∧
    ∀ api other : Api, api.methods.Perm other.methods →
      (api.validated = .ok api ↔ other.validated = .ok other) := by
  refine ⟨wellFormed_foldl_next wellFormed_empty, ?_, ?_, ?_⟩
  · intro api method formed extended
    have pushed := formed.settles_push method
    refine ⟨pushed.eq_ok_iff, fun ill => ?_⟩
    obtain ⟨_, refused, fault, rfl⟩ := pushed.error ill
    exact ⟨⟨fault, refused⟩, Edit.next_of_refused refused⟩
  · intro api
    refine ⟨api.settles_validated.eq_ok_iff, fun ill => ?_⟩
    obtain ⟨_, refused, fault, rfl⟩ := api.settles_validated.error ill
    exact ⟨fault, refused⟩
  · intro api other perm
    rw [api.settles_validated.eq_ok_iff, other.settles_validated.eq_ok_iff]
    exact ⟨.of_perm perm, .of_perm perm.symm⟩

/-- Of four edits the second and the last are refused. An event may share the name of a function, a
second function may not. -/
theorem edited_wellFormed_hello :
    let api := edited [.addFunction "hello" 0 [("msg", .text)] [.text],
      .addEvent "sent" 0 2 [("msg", .text)], .addFallback 4, .addFallback 0]
    let withEvent : Api := ⟨api.methods ++ [.event ⟨"hello", 0, 0, []⟩]⟩
    let withFunction : Api := ⟨api.methods ++ [.function ⟨"hello", 1, [], []⟩]⟩
    api.methods.length = 2 ∧ api.WellFormed ∧ withEvent.WellFormed ∧ ¬withFunction.WellFormed ∧
      (∃ fault, api.push (.function ⟨"hello", 1, [], []⟩) = .error (.invalid fault)) ∧
      (Api.mk api.methods.reverse).validated = .ok ⟨api.methods.reverse⟩ := by
  intro api withEvent withFunction
  obtain ⟨formed, added, accepted, order⟩ := edited_wellFormed
  have whole : api.WellFormed := formed _
  have more : withEvent.WellFormed := (added api _ whole).1.mp (by decide +kernel)
  have clash : ¬withFunction.WellFormed := fun two =>
    absurd ((added api _ whole).1.mpr two) (by decide +kernel)
  exact ⟨by decide +kernel, whole, more, clash, ((added api _ whole).2 clash).1,
    (order api _ (List.reverse_perm _).symm).mp ((accepted api).1.mpr whole)⟩

end Api

end ContractLink
