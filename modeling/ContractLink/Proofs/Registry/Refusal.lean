import ContractLink.Proofs.Registry.Standard
/-!
What decides that a value is not written. The nodes of a value are looked at each before its
elements, and the first that its registry has no fitting handler for gives the error.
-/
namespace ContractLink

namespace Handler

/-- The handler is one for values of the kind, of any width. -/
def Serves (handler : Handler) : Kind → Prop
  | .builtin tag => handler.kind? = some tag
  | .custom _ => handler.kind? = none

/-- A handler of the kind can only be of another width. -/
theorem suits_of_serves {handler : Handler} {value : Value} (serves : handler.Serves value.kind)
    (wide : ∀ width, handler = .custom (some width) → value.payload.length = width) :
    handler.Suits value := by
  cases handler with
  | custom width =>
    cases value with
    | custom tag data => exact fun w given => wide w (congrArg custom given)
    | _ => cases serves
  | _ => cases value <;> first | trivial | cases serves

end Handler

namespace Registry

variable {registry : Registry} {value node : Value} {e : CodecError}

/-- The registry has a handler that suits the node. -/
def Handles (registry : Registry) (node : Value) : Prop :=
  ∃ handler, registry.handler? node.kind.tag = some handler ∧ handler.Suits node

/-- Why a node is refused, whatever is inside it. -/
inductive Refuses (registry : Registry) : Value → CodecError → Prop
  /-- No handler of its kind stands under the tag of the kind. -/
  | unsupported {node : Value}
      (foreign : ∀ handler, registry.handler? node.kind.tag = some handler →
        ¬handler.Serves node.kind) :
      Refuses registry node (.unsupported node.kind)
  | wrongWidth {tag : UInt8} {data : Bytes} {width : Nat}
      (found : registry.handler? tag = some (.custom (some width))) (other : data.length ≠ width) :
      Refuses registry (.custom tag data) (.invalidPayload tag (.wrongWidth width data.length))

theorem exists_refuses (unhandled : ¬registry.Handles node) : ∃ e, registry.Refuses node e := by
  by_cases foreign : ∀ handler, registry.handler? node.kind.tag = some handler →
      ¬handler.Serves node.kind
  · exact ⟨_, .unsupported foreign⟩
  push Not at foreign
  obtain ⟨handler, found, serves⟩ := foreign
  have unsuited : ¬handler.Suits node := fun suits => unhandled ⟨handler, found, suits⟩
  have narrow := mt (Handler.suits_of_serves serves) unsuited
  push Not at narrow
  obtain ⟨width, rfl, other⟩ := narrow
  cases node with
  | custom tag data => exact ⟨_, .wrongWidth found other⟩
  | _ => cases serves

theorem covers_iff : registry.Covers value ↔ ∀ node ∈ value.nodes, registry.Handles node := by
  induction value using Value.childInduction with
  | step value ih =>
    rw [Value.nodes_eq, List.forall_mem_cons]
    simp only [List.mem_flatMap, forall_exists_index, and_imp]
    constructor
    · rintro ⟨found, suits, children⟩
      exact ⟨⟨_, found, suits⟩, fun node c mem inside => (ih c mem).mp (children c mem) node inside⟩
    · rintro ⟨⟨handler, found, suits⟩, inside⟩
      exact .node found suits fun c mem => (ih c mem).mpr fun node => inside node c mem

theorem payload_of_foreign {handler : Handler} (foreign : ¬handler.Serves value.kind) :
    registry.payload handler value = .error (.unsupported value.kind) := by
  cases handler <;> cases value <;> first | rfl | exact absurd rfl foreign

theorem encode_of_refuses (refuses : registry.Refuses node e) : registry.encode node = .error e := by
  cases refuses with
  | unsupported foreign =>
    cases found : registry.handler? node.kind.tag with
    | none => simp [encode, found]
    | some handler =>
      rw [encode_of_found found, payload_of_foreign (foreign handler found)]
      rfl
  | @wrongWidth tag data width found other =>
    have found : registry.handler? (Value.custom tag data).kind.tag = some (.custom (some width)) :=
      found
    rw [encode_of_found found]
    simp [payload, Handler.checkWidth, other, bind, Except.bind, Functor.map, Except.map]

/-- A handler that suits the value passes the error of its first child that has one on. -/
theorem payload_of_child_refused {handler : Handler} (suits : handler.Suits value) {c : Value}
    {before after : List Value} (split : value.children = before ++ c :: after)
    (written : ∀ x ∈ before, ∃ t, registry.encode x = .ok t) (failed : registry.encode c = .error e) :
    registry.payload handler value = .error e := by
  cases value with
  | list items =>
    cases handler <;> try cases suits
    obtain rfl : items = before ++ c :: after := split
    simp only [payload, encodeItems_eq_mapM, mapM_eq_error written failed]
    rfl
  | dict entries =>
    cases handler <;> try cases suits
    obtain ⟨front, back, rfl, rfl, rest⟩ := List.map_eq_append_iff.mp split
    obtain ⟨entry, back, rfl, rfl, rfl⟩ := List.map_eq_cons_iff.mp rest
    have passed : ∀ x ∈ front, ∃ b,
        (fun typed => (x.1, typed)) <$> registry.encode x.2 = Except.ok b := by
      intro x mem
      obtain ⟨t, encoded⟩ := written x.2 (List.mem_map_of_mem mem)
      exact ⟨(x.1, t), by rw [encoded]; rfl⟩
    simp only [payload, encodeEntries_eq_mapM, mapM_eq_error passed (map_eq_error_iff.mpr failed)]
    rfl
  | _ => exact absurd split.symm (List.append_ne_nil_of_right_ne_nil _ (List.cons_ne_nil _ _))

/-- The first node that is refused gives the error. It stands in one child, and the children before
that one are handled as a whole. -/
theorem encode_of_first_refused {before after : List Value}
    (split : value.nodes = before ++ node :: after) (handled : ∀ n ∈ before, registry.Handles n)
    (refuses : registry.Refuses node e) : registry.encode value = .error e := by
  induction value using Value.childInduction generalizing before after with
  | step value ih =>
    rw [Value.nodes_eq] at split
    cases before with
    | nil =>
      obtain ⟨rfl, -⟩ := List.cons.inj split
      exact encode_of_refuses refuses
    | cons first before =>
      obtain ⟨rfl, inside⟩ := List.cons.inj split
      obtain ⟨⟨handler, found, suits⟩, handled⟩ := List.forall_mem_cons.mp handled
      obtain ⟨front, c, back, inner, rest, children, rfl, own⟩ := exists_split_of_flatMap inside
      obtain ⟨passed, inner_handled⟩ := List.forall_mem_append.mp handled
      have failed : registry.encode c = .error e := ih c (by simp [children]) own inner_handled
      have written : ∀ x ∈ front, ∃ t, registry.encode x = .ok t := by
        intro x mem
        have covers : registry.Covers x := covers_iff.mpr fun n part =>
          passed n (List.mem_flatMap.mpr ⟨x, mem, part⟩)
        exact ⟨x.typed, encode_eq_ok_iff.mpr ⟨covers, rfl⟩⟩
      rw [encode_of_found found, payload_of_child_refused suits children written failed]
      rfl

theorem encode_eq_error_iff : registry.encode value = .error e ↔
    ∃ before node after, value.nodes = before ++ node :: after ∧
      (∀ n ∈ before, registry.Handles n) ∧ registry.Refuses node e := by
  refine eq_error_iff_first_break (P := fun nodes => ∀ n ∈ nodes, registry.Handles n) nofun
    (fun handled => ⟨_, encode_eq_ok_iff.mpr ⟨covers_iff.mpr handled, rfl⟩⟩)
    (fun before node handled stops => exists_refuses fun handles => stops ?_)
    fun before node after e split handled refuses => encode_of_first_refused split handled refuses
  exact List.forall_mem_append.mpr ⟨handled, List.forall_mem_singleton.mpr handles⟩

theorem standard_handles_iff : standard.Handles node ↔ ∀ tag data, node ≠ .custom tag data := by
  constructor
  · rintro ⟨handler, found, suits⟩ tag data rfl
    obtain ⟨kind, builtin, -⟩ := standard_builtin _ _ found
    cases suits.kind_eq builtin
  · intro builtin
    have serves : ∀ kind, node.kind = .builtin kind → standard.Handles node := by
      intro kind own
      obtain ⟨handler, found, reads⟩ := standard_handler? kind
      refine ⟨handler, by rw [own]; exact found, Handler.suits_of_serves (by rw [own]; exact reads) ?_⟩
      rintro width rfl
      cases reads
    cases node with
    | custom tag data => exact absurd rfl (builtin tag data)
    | _ => exact serves _ rfl

/-- A value is written exactly when the registry has, for each of its nodes, a handler that suits it
under the tag of its kind. Else the error is that of the first node that has none, a node coming
before its elements. The standard registry writes a value exactly when nothing in it is custom,
whatever the tag. -/
theorem encode_by_nodes (registry : Registry) (value : Value) :
    ((∃ typed, registry.encode value = .ok typed) ↔
        ∀ node ∈ value.nodes, registry.Handles node) ∧
      (∀ e, registry.encode value = .error e ↔ ∃ before node after,
        value.nodes = before ++ node :: after ∧ (∀ n ∈ before, registry.Handles n) ∧
          registry.Refuses node e) ∧
      ((∃ typed, standard.encode value = .ok typed) ↔
        ∀ tag data, Value.custom tag data ∉ value.nodes) := by
  have written : ∀ registry : Registry, (∃ typed, registry.encode value = .ok typed) ↔
      ∀ node ∈ value.nodes, registry.Handles node := fun registry => by
    simp only [encode_eq_ok_iff, exists_and_left, exists_eq, and_true, covers_iff]
  refine ⟨written registry, fun e => encode_eq_error_iff, (written standard).trans ?_⟩
  simp only [standard_handles_iff]
  exact ⟨fun builtin tag data mem => builtin _ mem tag data rfl,
    fun none node mem tag data same => none tag data (same ▸ mem)⟩

/-- Of two nodes that are refused, the one under the smaller key decides. -/
theorem encode_by_nodes_two_refused :
    let registry := standard.register 12 (.custom (some 2))
    let wide : Value := .custom 12 [1, 2, 3]
    let value : Value := .dict [("a", .list [.integer 1, wide]), ("b", .custom 13 [])]
    registry.encode value = .error (.invalidPayload 12 (.wrongWidth 2 3)) ∧
      ¬∃ typed, standard.encode value = .ok typed := by
  intro registry wide value
  obtain ⟨-, refused, standard⟩ := encode_by_nodes registry value
  have handled : ∀ n ∈ [value, .list [.integer 1, wide], .integer 1], registry.Handles n := by
    simp only [List.forall_mem_cons]
    exact ⟨⟨.dict, rfl, trivial⟩, ⟨.list, rfl, trivial⟩, ⟨.integer, rfl, trivial⟩, nofun⟩
  have first : registry.Refuses wide (.invalidPayload 12 (.wrongWidth 2 3)) :=
    .wrongWidth rfl (by decide)
  refine ⟨(refused _).mpr ⟨_, wide, [.custom 13 []], rfl, handled, first⟩, fun written => ?_⟩
  exact standard.mp written 12 [1, 2, 3] (by decide)

end Registry

end ContractLink
