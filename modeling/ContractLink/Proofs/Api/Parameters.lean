import ContractLink.Proofs.Api.Serialized
import Mathlib.Data.List.DropRight
import Mathlib.Data.List.Pairwise
/-!
How the parameters of a method fall into two parts. The optional inputs of a function are counted
from the last input back, but they are checked from the first of them on. Main statement: in a
function that is accepted both see the same inputs, with the required ones before them, and the
parameters of every event are its indexed ones and the others behind them.
-/
namespace ContractLink

variable {α : Type}

/-- The items before a place of a list and those behind it. No place is past the end. -/
def splitAt? (items : List α) (place : Nat) : Option (List α × List α) :=
  if place ≤ items.length then some (items.take place, items.drop place) else none

theorem splitAt?_eq_some_iff {items front back : List α} {place : Nat} :
    splitAt? items place = some (front, back) ↔ items = front ++ back ∧ front.length = place := by
  unfold splitAt?
  constructor
  · intro split
    split at split
    next within =>
      obtain ⟨rfl, rfl⟩ := Prod.mk.inj (Option.some.inj split)
      exact ⟨(List.take_append_drop place items).symm, List.length_take_of_le within⟩
    next => cases split
  · rintro ⟨rfl, rfl⟩
    rw [if_pos (by simp), List.take_left, List.drop_left]

/-- Items with a property are followed only by such items exactly when none of them stands before
the run of them at the end. -/
theorem pairwise_imp_iff_rdropWhile {p : α → Bool} {items : List α} :
    items.Pairwise (fun before after => p before → p after) ↔
      ∀ item ∈ items.rdropWhile p, ¬p item := by
  constructor
  · intro ordered item mem holds
    have front := ordered.sublist (List.rdropWhile_prefix p items).sublist
    have last := List.rdropWhile_last_not p items (List.ne_nil_of_mem mem)
    have follows := front.rel_getLast_of_rel_getLast_getLast mem id
    exact last (follows holds)
  · intro plain
    rw [← List.rdropWhile_append_rtakeWhile (p := p) (l := items), List.pairwise_append]
    refine ⟨?_, ?_, ?_⟩
    · exact List.pairwise_of_forall_mem_list fun item mem _ _ holds => absurd holds (plain item mem)
    · exact List.pairwise_of_forall_mem_list fun _ _ item mem _ => List.mem_rtakeWhile_imp mem
    · exact fun item mem _ _ holds => absurd holds (plain item mem)

namespace FunctionDecl

variable {f : FunctionDecl}

theorem length_rtakeWhile_inputs (f : FunctionDecl) :
    (f.inputs.rtakeWhile Param.isOptional).length = f.optionalCount := by
  rw [List.rtakeWhile, List.length_reverse, optionalCount]

/-- An input with a default may be left out, or a required one comes behind it. -/
theorem countP_inputs (f : FunctionDecl) :
    f.inputs.countP Param.isOptional =
      (f.inputs.rdropWhile Param.isOptional).countP Param.isOptional + f.optionalCount := by
  have run : (f.inputs.rtakeWhile Param.isOptional).countP Param.isOptional = f.optionalCount := by
    rw [List.countP_eq_length.mpr fun _ mem => List.mem_rtakeWhile_imp mem,
      length_rtakeWhile_inputs]
  rw [← run, ← List.countP_append, List.rdropWhile_append_rtakeWhile]

theorem misplacedOptional?_eq_none_iff_rdropWhile :
    f.misplacedOptional? = none ↔ ∀ p ∈ f.inputs.rdropWhile Param.isOptional, ¬p.isOptional := by
  rw [misplacedOptional?_eq_none_iff, pairwise_imp_iff_rdropWhile]

theorem optionalCount_eq_countP_iff :
    f.optionalCount = f.inputs.countP Param.isOptional ↔ f.misplacedOptional? = none := by
  rw [misplacedOptional?_eq_none_iff_rdropWhile, ← List.countP_eq_zero, countP_inputs]
  omega

theorem length_rdropWhile_inputs (f : FunctionDecl) :
    (f.inputs.rdropWhile Param.isOptional).length = f.inputs.length - f.optionalCount := by
  have whole := congrArg List.length
    (List.rdropWhile_append_rtakeWhile (p := Param.isOptional) (l := f.inputs))
  rw [List.length_append, length_rtakeWhile_inputs] at whole
  omega

/-- Where no input is misplaced, the inputs before the run at the end are the required ones. -/
theorem exists_split_inputs (placed : f.misplacedOptional? = none) :
    ∃ required optional, f.inputs = required ++ optional ∧
      required.length = f.inputs.length - f.optionalCount ∧ optional.length = f.optionalCount ∧
      (∀ p ∈ required, p.default? = none) ∧ ∀ p ∈ optional, p.default? ≠ none := by
  refine ⟨f.inputs.rdropWhile Param.isOptional, f.inputs.rtakeWhile Param.isOptional,
    List.rdropWhile_append_rtakeWhile.symm, f.length_rdropWhile_inputs, f.length_rtakeWhile_inputs,
    fun p mem => ?_, fun p mem => ?_⟩
  · simpa [Param.isOptional] using misplacedOptional?_eq_none_iff_rdropWhile.mp placed p mem
  · have optional : p.isOptional := List.mem_rtakeWhile_imp mem
    exact Option.isSome_iff_ne_none.mp optional

theorem WellFormed.misplacedOptional?_eq_none (h : f.WellFormed) : f.misplacedOptional? = none :=
  misplacedOptional?_eq_none_iff.mpr h.optional_last

end FunctionDecl

namespace EventDecl

/-- No more parameters are indexed than there are, so there always is a place to split them at. -/
theorem splitAt?_params (e : EventDecl) :
    splitAt? e.params (min e.indexed.toNat e.params.length) =
      some (e.indexedParams, e.dataParams) :=
  splitAt?_eq_some_iff.mpr ⟨(List.take_append_drop _ _).symm, List.length_take⟩

theorem WellFormed.length_indexedParams {e : EventDecl} (h : e.WellFormed) :
    e.indexedParams.length = e.indexed.toNat := List.length_take_of_le h.indexed_le

end EventDecl

namespace Method

/-- Some edit has added the method to some API, or some bytes are read as an API that has it. -/
def Accepted (method : Method) : Prop :=
  (∃ edit api added, Api.Edit.apply api edit = .ok added ∧ edit.proposed = method) ∨
    ∃ bytes api, Api.deserialize bytes = .ok api ∧ method ∈ api.methods

theorem Accepted.wellFormed {method : Method} (h : method.Accepted) : method.WellFormed := by
  rcases h with ⟨edit, api, added, ok, rfl⟩ | ⟨bytes, api, read, mem⟩
  · rw [edit.apply_eq_push] at ok
    exact (Api.push_eq_ok_iff.mp ok).1
  · exact (Api.of_deserialize_ok read).2.1.methods method mem

/-- The optional inputs counted from the end are all there are exactly when no input is misplaced.
So the inputs of a function that is accepted are required ones and then optional ones, as many of
these as are counted. The parameters of an event, accepted or not, can be split behind as many as it
says are indexed, or behind all if it says more, and are its indexed ones and its others in their
order; if it is accepted it has as many indexed ones as it says. -/
theorem parameters_divided :
    (∀ f : FunctionDecl, f.optionalCount = f.inputs.countP (·.default?.isSome) ↔
      f.misplacedOptional? = none) ∧
    (∀ f : FunctionDecl, (function f).Accepted →
      f.optionalCount = f.inputs.countP (·.default?.isSome) ∧
      ∃ required optional, f.inputs = required ++ optional ∧
        required.length = f.inputs.length - f.optionalCount ∧ optional.length = f.optionalCount ∧
        (∀ p ∈ required, p.default? = none) ∧ ∀ p ∈ optional, p.default? ≠ none) ∧
    (∀ e : EventDecl, e.indexedParams ++ e.dataParams = e.params ∧
      splitAt? e.params (min e.indexed.toNat e.params.length) =
        some (e.indexedParams, e.dataParams)) ∧
    ∀ e : EventDecl, (event e).Accepted → e.indexedParams.length = e.indexed.toNat := by
  refine ⟨fun f => f.optionalCount_eq_countP_iff, fun f accepted => ?_, fun e => ?_,
    fun e accepted => ?_⟩
  · have formed : f.WellFormed := accepted.wellFormed
    have placed := formed.misplacedOptional?_eq_none
    exact ⟨FunctionDecl.optionalCount_eq_countP_iff.mpr placed, f.exists_split_inputs placed⟩
  · have split := e.splitAt?_params
    exact ⟨(splitAt?_eq_some_iff.mp split).1.symm, split⟩
  · have formed : e.WellFormed := accepted.wellFormed
    exact formed.length_indexedParams

/-- A function that is added with two optional inputs behind a required one, and its inputs with an
optional one first; an event that is read with one of two parameters indexed, and its parameters
with the largest number said to be indexed. -/
theorem parameters_divided_transfer :
    let payee : Param := { name := "payee", type := .address }
    let amount : Param := { name := "amount", type := .integer, default? := some ⟨11, [5]⟩ }
    let memo : Param := { name := "memo", type := .text, default? := some ⟨4, []⟩ }
    let sent : Param := { name := "sent", type := .integer }
    let transfer : FunctionDecl := ⟨"transfer", 2, [payee, amount, memo], []⟩
    let mixed : FunctionDecl := ⟨"transfer", 2, [amount, payee, memo], []⟩
    let log : EventDecl := ⟨"Log", 0, 1, [payee, sent]⟩
    let forged : EventDecl := ⟨"Log", 0, 0xffffffffffffffff, [payee, sent]⟩
    (function transfer).Accepted ∧ transfer.optionalCount = 2 ∧
      transfer.optionalCount = transfer.inputs.countP (·.default?.isSome) ∧
      (∃ required optional, [payee, amount, memo] = required ++ optional ∧ required.length = 1 ∧
        optional.length = 2 ∧ (∀ p ∈ required, p.default? = none) ∧
        ∀ p ∈ optional, p.default? ≠ none) ∧
      mixed.optionalCount ≠ mixed.inputs.countP (·.default?.isSome) ∧
      (event log).Accepted ∧ log.indexedParams.length = 1 ∧
      splitAt? [payee, sent] 2 = some (forged.indexedParams, forged.dataParams) := by
  intro payee amount memo sent transfer mixed log forged
  obtain ⟨counted, inputs, params, indexed⟩ := parameters_divided
  have added : (function transfer).Accepted :=
    .inl ⟨.push (.function transfer), {}, ⟨[.function transfer]⟩, by decide +kernel, rfl⟩
  have read : (event log).Accepted :=
    .inr ⟨Api.serialize ⟨[.event log]⟩, ⟨[.event log]⟩, by decide +kernel, by simp⟩
  have misplaced : mixed.misplacedOptional? ≠ none := by decide
  exact ⟨added, rfl, (inputs transfer added).1, (inputs transfer added).2,
    fun same => misplaced ((counted mixed).mp same), read, indexed log read, (params forged).2⟩

end Method

end ContractLink
