import Mathlib.Data.List.Forall2
import Mathlib.Data.List.Induction
import Mathlib.Data.List.Nodup
/-!
Traversals that stop at the first error: what a traversal gives when what it does to each element
is known, what a finished traversal says of each element, which element the error comes from, and
when two traversals end alike. A search stops at the first element that it is for.
-/
namespace ContractLink

variable {ε α β : Type}

/-- The result is the value exactly when the condition holds, and else an error of the sort. -/
structure Settles (good : Prop) (sort : ε → Prop) (value : α) (result : Except ε α) : Prop where
  ok : good → result = .ok value
  error : ¬good → ∃ e, result = .error e ∧ sort e

namespace Settles

variable {good : Prop} {sort : ε → Prop} {value : α} {result : Except ε α}

theorem eq_ok_iff (h : Settles good sort value result) : result = .ok value ↔ good := by
  refine ⟨fun eq => ?_, h.ok⟩
  by_contra bad
  obtain ⟨e, failed, -⟩ := h.error bad
  rw [eq] at failed
  cases failed

theorem of_eq_error (h : Settles good sort value result) {e : ε} (failed : result = .error e) :
    ¬good ∧ sort e := by
  have bad : ¬good := fun holds => by
    rw [h.ok holds] at failed
    cases failed
  obtain ⟨other, same, isSort⟩ := h.error bad
  rw [failed] at same
  exact ⟨bad, Except.error.inj same ▸ isSort⟩

theorem congr (h : Settles good sort value result) {good' : Prop} (iff : good ↔ good') :
    Settles good' sort value result :=
  ⟨fun holds => h.ok (iff.mpr holds), fun fails => h.error fun holds => fails (iff.mp holds)⟩

theorem map (h : Settles good sort value result) (f : α → β) :
    Settles good sort (f value) (f <$> result) where
  ok holds := by rw [h.ok holds]; rfl
  error fails := by
    obtain ⟨e, failed, isSort⟩ := h.error fails
    exact ⟨e, by rw [failed]; rfl, isSort⟩

theorem mapError (h : Settles good sort value result) {ε' : Type} {sort' : ε' → Prop} {f : ε → ε'}
    (into : ∀ e, sort e → sort' (f e)) : Settles good sort' value (result.mapError f) where
  ok holds := by rw [h.ok holds]; rfl
  error fails := by
    obtain ⟨e, failed, isSort⟩ := h.error fails
    exact ⟨f e, by rw [failed]; rfl, into e isSort⟩

/-- One step after another; the second may rely on the first. -/
theorem bind (h : Settles good sort value result) {next : α → Except ε β} {good' : Prop} {b : β}
    (second : Settles good' sort b (next value)) :
    Settles (good ∧ good') sort b (result >>= next) where
  ok holds := by
    rw [h.ok holds.1]
    exact second.ok holds.2
  error fails := by
    by_cases first : good
    · obtain ⟨e, failed, isSort⟩ := second.error fun rest => fails ⟨first, rest⟩
      exact ⟨e, by rw [h.ok first]; exact failed, isSort⟩
    · obtain ⟨e, failed, isSort⟩ := h.error first
      exact ⟨e, by rw [failed]; rfl, isSort⟩

theorem mapM_cons {f : α → Except ε β} {x : α} {xs : List α} {y : β} {ys : List β} {rest : Prop}
    (head : Settles good sort y (f x)) (tail : Settles rest sort ys (xs.mapM f)) :
    Settles (good ∧ rest) sort (y :: ys) ((x :: xs).mapM f) := by
  rw [List.mapM_cons]
  exact head.bind (tail.map (y :: ·))

/-- A traversal settles when each of its steps does. -/
theorem mapM {f : α → Except ε β} {g : α → β} {holds : α → Prop} {xs : List α}
    (each : ∀ x ∈ xs, Settles (holds x) sort (g x) (f x)) :
    Settles (∀ x ∈ xs, holds x) sort (xs.map g) (xs.mapM f) := by
  induction xs with
  | nil => exact ⟨fun _ => rfl, fun fails => absurd (List.forall_mem_nil _) fails⟩
  | cons x xs ih =>
    have head := each x List.mem_cons_self
    have tail := ih fun y mem => each y (List.mem_cons_of_mem _ mem)
    exact (head.mapM_cons tail).congr List.forall_mem_cons.symm

/-- What each step settles on may be told by another traversal of the same list. -/
theorem mapM_of_forall₂ {f : α → Except ε β} {holds : β → Prop} {xs : List α} {ys : List β}
    (each : List.Forall₂ (fun x y => Settles (holds y) sort y (f x)) xs ys) :
    Settles (∀ y ∈ ys, holds y) sort ys (xs.mapM f) := by
  induction each with
  | nil => exact ⟨fun _ => rfl, fun fails => absurd (List.forall_mem_nil _) fails⟩
  | cons head _ tail => exact (head.mapM_cons tail).congr List.forall_mem_cons.symm

end Settles

/-- The result is the other one, or the other one is an error that excuses it. -/
def Follows (excused : ε → Prop) (result other : Except ε α) : Prop :=
  result = other ∨ ∃ e, other = .error e ∧ excused e

namespace Follows

variable {excused : ε → Prop} {result other : Except ε α}

theorem refl (result : Except ε α) : Follows excused result result := .inl rfl

theorem eq (h : Follows excused result other) (firm : ∀ e, other = .error e → ¬excused e) :
    result = other := by
  rcases h with same | ⟨e, failed, excuse⟩
  · exact same
  · exact absurd excuse (firm e failed)

theorem bind (h : Follows excused result other) {next next' : α → Except ε β}
    (rest : ∀ a, Follows excused (next a) (next' a)) :
    Follows excused (result >>= next) (other >>= next') := by
  rcases h with rfl | ⟨e, rfl, excuse⟩
  · cases result with
    | error e => exact .refl _
    | ok a => exact rest a
  · exact .inr ⟨e, rfl, excuse⟩

theorem map (h : Follows excused result other) (f : α → β) :
    Follows excused (f <$> result) (f <$> other) := by
  rcases h with rfl | ⟨e, rfl, excuse⟩
  · exact .refl _
  · exact .inr ⟨e, rfl, excuse⟩

/-- Traversals that do alike to each element meet the same first error. -/
theorem mapM {f g : α → Except ε β} {xs : List α}
    (each : ∀ x ∈ xs, Follows excused (f x) (g x)) :
    Follows excused (xs.mapM f) (xs.mapM g) := by
  induction xs with
  | nil => exact .refl _
  | cons x xs ih =>
    rw [List.mapM_cons, List.mapM_cons]
    have tail := ih fun y mem => each y (List.mem_cons_of_mem _ mem)
    exact (each x List.mem_cons_self).bind fun y => tail.bind fun ys => .refl _

theorem foldlM {f g : β → α → Except ε β} (each : ∀ b x, Follows excused (f b x) (g b x)) (b : β)
    (xs : List α) : Follows excused (xs.foldlM f b) (xs.foldlM g b) := by
  induction xs generalizing b with
  | nil => exact .refl _
  | cons x xs ih =>
    rw [List.foldlM_cons, List.foldlM_cons]
    exact (each b x).bind ih

end Follows

theorem mapM_eq_ok_map {f : α → Except ε β} {g : α → β} {xs : List α}
    (each : ∀ x ∈ xs, f x = .ok (g x)) : xs.mapM f = .ok (xs.map g) := by
  induction xs with
  | nil => rfl
  | cons x xs ih =>
    have tail := ih fun y mem => each y (List.mem_cons_of_mem _ mem)
    rw [List.mapM_cons, each x List.mem_cons_self, tail]
    rfl

theorem forall₂_of_mapM_ok {f : α → Except ε β} {xs : List α} {ys : List β}
    (h : xs.mapM f = .ok ys) : List.Forall₂ (fun x y => f x = .ok y) xs ys := by
  induction xs generalizing ys with
  | nil =>
    obtain rfl := Except.ok.inj h
    exact .nil
  | cons x xs ih =>
    rw [List.mapM_cons] at h
    cases head : f x with
    | error e => rw [head] at h; cases h
    | ok y =>
      cases tail : xs.mapM f with
      | error e => rw [head, tail] at h; cases h
      | ok rest =>
        rw [head, tail] at h
        obtain rfl := Except.ok.inj h
        exact .cons head (ih tail)

theorem exists_of_forall₂ {R : α → β → Prop} {xs : List α} {ys : List β}
    (h : List.Forall₂ R xs ys) : ∀ y ∈ ys, ∃ x ∈ xs, R x y := by
  induction h with
  | nil => exact fun y mem => absurd mem List.not_mem_nil
  | @cons x y xs ys head _ ih =>
    refine List.forall_mem_cons.mpr ⟨⟨x, List.mem_cons_self, head⟩, fun z mem => ?_⟩
    obtain ⟨w, inside, related⟩ := ih z mem
    exact ⟨w, List.mem_cons_of_mem x inside, related⟩

theorem exists_ok_of_mapM_ok {f : α → Except ε β} {xs : List α} {ys : List β}
    (h : xs.mapM f = .ok ys) : ∀ x ∈ xs, ∃ y, f x = .ok y := by
  intro x mem
  obtain ⟨y, -, eq⟩ := exists_of_forall₂ (forall₂_of_mapM_ok h).flip x mem
  exact ⟨y, eq⟩

/-- A traversal fails exactly when one of its steps does. -/
theorem exists_mapM_eq_error_iff {f : α → Except ε β} {xs : List α} :
    (∃ e, xs.mapM f = .error e) ↔ ∃ x ∈ xs, ∃ e, f x = .error e := by
  induction xs with
  | nil => simp [pure, Except.pure]
  | cons x xs ih =>
    rw [List.mapM_cons, List.exists_mem_cons_iff, ← ih]
    cases f x with
    | error e => simp [bind, Except.bind]
    | ok y => cases xs.mapM f <;> simp [bind, Except.bind, pure, Except.pure]

/-- A traversal fails with the error of the first step that does. -/
theorem mapM_eq_error {f : α → Except ε β} {before after : List α} {x : α} {e : ε}
    (passes : ∀ y ∈ before, ∃ b, f y = .ok b) (fails : f x = .error e) :
    (before ++ x :: after).mapM f = .error e := by
  induction before with
  | nil => simp [List.mapM_cons, fails, bind, Except.bind]
  | cons y before ih =>
    obtain ⟨⟨b, passed⟩, rest⟩ := List.forall_mem_cons.mp passes
    simp [List.mapM_cons, passed, ih rest, bind, Except.bind]

/-- What holds of no elements but not of a list stops to hold at one of its elements. -/
theorem exists_first_break {P : List α → Prop} (empty : P []) {xs : List α} (broken : ¬P xs) :
    ∃ before x after, xs = before ++ x :: after ∧ P before ∧ ¬P (before ++ [x]) := by
  induction xs using List.reverseRecOn with
  | nil => exact absurd empty broken
  | append_singleton front last ih =>
    by_cases whole : P front
    · exact ⟨front, last, [], rfl, whole, broken⟩
    · obtain ⟨before, x, after, rfl, holds, stops⟩ := ih whole
      exact ⟨before, x, after ++ [last], by simp, holds, stops⟩

/-- A check of the elements in order fails just as the first of them that stops it says, when what
passes holds of the elements before it and no longer with it. -/
theorem eq_error_iff_first_break {P : List α → Prop} {Stops : List α → α → ε → Prop} {xs : List α}
    {result : Except ε β} (empty : P []) (passes : P xs → ∃ b, result = .ok b)
    (breaks : ∀ before x, P before → ¬P (before ++ [x]) → ∃ e, Stops before x e)
    (stops : ∀ before x after e, xs = before ++ x :: after → P before → Stops before x e →
      result = .error e) {e : ε} :
    result = .error e ↔ ∃ before x after, xs = before ++ x :: after ∧ P before ∧ Stops before x e := by
  constructor
  · intro failed
    have broken : ¬P xs := by
      intro whole
      obtain ⟨b, passed⟩ := passes whole
      rw [passed] at failed
      cases failed
    obtain ⟨before, x, after, split, holds, broke⟩ := exists_first_break empty broken
    obtain ⟨other, stopped⟩ := breaks before x holds broke
    rw [stops before x after other split holds stopped] at failed
    obtain rfl := Except.error.inj failed
    exact ⟨before, x, after, split, holds, stopped⟩
  · rintro ⟨before, x, after, split, holds, stopped⟩
    exact stops before x after e split holds stopped

/-- An element of a concatenation stands in one of its parts, behind the parts before that. -/
theorem exists_split_of_flatMap {f : α → List β} {xs : List α} {before after : List β} {y : β}
    (split : xs.flatMap f = before ++ y :: after) :
    ∃ front x back inner rest, xs = front ++ x :: back ∧ before = front.flatMap f ++ inner ∧
      f x = inner ++ y :: rest := by
  induction xs generalizing before with
  | nil => simp at split
  | cons x xs ih =>
    have later : ∀ inner, before = f x ++ inner → xs.flatMap f = inner ++ y :: after →
        ∃ front z back inner rest, x :: xs = front ++ z :: back ∧
          before = front.flatMap f ++ inner ∧ f z = inner ++ y :: rest := by
      rintro inner rfl behind
      obtain ⟨front, z, back, inner, rest, rfl, rfl, found⟩ := ih behind
      exact ⟨x :: front, z, back, inner, rest, rfl, by simp, found⟩
    rw [List.flatMap_cons, List.append_eq_append_iff] at split
    rcases split with ⟨inner, passed, behind⟩ | ⟨rest, found, behind⟩
    · exact later inner passed behind
    · cases rest with
      | nil => exact later [] (by simpa using found.symm) (by simpa using behind.symm)
      | cons z rest =>
        obtain ⟨rfl, -⟩ := List.cons.inj behind
        exact ⟨[], x, xs, before, rest, rfl, rfl, found⟩

/-- Mapping back gives the list again when, of each element, it gives the element again. -/
theorem map_eq_iff_of_forall₂ {R : α → β → Prop} {g : β → α} {good : α → Prop} {xs : List α}
    {ys : List β} (h : List.Forall₂ R xs ys) (each : ∀ x y, R x y → (g y = x ↔ good x)) :
    ys.map g = xs ↔ ∀ x ∈ xs, good x := by
  induction h with
  | nil => simp
  | cons head _ ih => rw [List.map_cons, List.cons.injEq, ih, each _ _ head, List.forall_mem_cons]

/-- Lists with the same images are the same when no two of their elements have one image. -/
theorem eq_of_map_eq_map {f : α → β} {xs ys : List α} (same : xs.map f = ys.map f)
    (each : ∀ x ∈ xs, ∀ y ∈ ys, f x = f y → x = y) : xs = ys := by
  induction xs generalizing ys with
  | nil => exact (List.map_eq_nil_iff.mp same.symm).symm
  | cons x xs ih =>
    obtain ⟨y, rest, rfl, head, tail⟩ := List.map_eq_cons_iff.mp same.symm
    have heads := each x List.mem_cons_self y List.mem_cons_self head.symm
    have tails := ih tail.symm fun a mem b mem' =>
      each a (List.mem_cons_of_mem _ mem) b (List.mem_cons_of_mem _ mem')
    rw [heads, tails]

/-- Of elements with distinct keys, a search for a key finds the one that has it. -/
theorem find?_key_eq_some_iff {κ : Type} [DecidableEq κ] {key : α → κ} {xs : List α} {k : κ} {x : α}
    (nodup : (xs.map key).Nodup) : xs.find? (key · = k) = some x ↔ x ∈ xs ∧ key x = k := by
  constructor
  · intro found
    exact ⟨List.mem_of_find?_eq_some found, by simpa using List.find?_some found⟩
  · rintro ⟨mem, rfl⟩
    cases found : xs.find? (key · = key x) with
    | none => simpa using List.find?_eq_none.mp found x mem
    | some first =>
      have same : key first = key x := by simpa using List.find?_some found
      rw [List.inj_on_of_nodup_map nodup (List.mem_of_find?_eq_some found) mem same]

/-- What can be read back is written in one way only. -/
theorem eq_of_reads_back {read : β → Except ε α} {write : α → β}
    (back : ∀ a, read (write a) = .ok a) {a b : α} (same : write a = write b) : a = b := by
  have reads := back a
  rw [same, back] at reads
  exact (Except.ok.inj reads).symm

theorem map_eq_error_iff {f : α → β} {result : Except ε α} {e : ε} :
    f <$> result = .error e ↔ result = .error e := by
  cases result <;> simp [Functor.map, Except.map]

theorem exists_map_eq_error_iff {f : α → β} {result : Except ε α} :
    (∃ e, f <$> result = .error e) ↔ ∃ e, result = .error e := by
  simp only [map_eq_error_iff]

theorem of_map_eq_ok {f : α → β} {result : Except ε α} {b : β} (h : f <$> result = .ok b) :
    ∃ a, result = .ok a ∧ f a = b := by
  cases result with
  | error e => cases h
  | ok a => exact ⟨a, rfl, Except.ok.inj h⟩

theorem bind_eq_ok_iff {result : Except ε α} {next : α → Except ε β} {b : β} :
    result >>= next = .ok b ↔ ∃ a, result = .ok a ∧ next a = .ok b := by
  constructor
  · intro h
    cases result with
    | error e => cases h
    | ok a => exact ⟨a, rfl, h⟩
  · rintro ⟨a, rfl, rest⟩
    exact rest

theorem of_bind_eq_ok {result : Except ε α} {next : α → Except ε β} {b : β}
    (h : result >>= next = .ok b) : ∃ a, result = .ok a ∧ next a = .ok b := bind_eq_ok_iff.mp h

theorem mapError_eq_ok_iff {ε' : Type} {result : Except ε α} {f : ε → ε'} {a : α} :
    result.mapError f = .ok a ↔ result = .ok a := by
  cases result <;> simp [Except.mapError]

theorem bind_mapError_eq_ok_iff {ε' : Type} {result : Except ε α} {f : ε → ε'}
    {next : α → Except ε' β} {b : β} :
    result.mapError f >>= next = .ok b ↔ ∃ a, result = .ok a ∧ next a = .ok b := by
  simp only [bind_eq_ok_iff, mapError_eq_ok_iff]

theorem of_bind_mapError_ok {ε' : Type} {result : Except ε α} {f : ε → ε'}
    {next : α → Except ε' β} {b : β} (h : result.mapError f >>= next = .ok b) :
    ∃ a, result = .ok a ∧ next a = .ok b := bind_mapError_eq_ok_iff.mp h

end ContractLink
