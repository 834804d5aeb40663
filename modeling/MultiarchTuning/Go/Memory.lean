import Mathlib.Data.List.Sort
import Mathlib.Logic.Function.Basic

namespace MultiarchTuning

/-!
# Go memory — heaps, maps and slices

The parts of Go's memory model that the operator's code relies on, written once so that the
models of `system_config` and of the webhook share them:

* `Heap α` — the objects of one type that pointers (`*T`) and map values refer to.
  `Heap.alloc` hands out addresses in increasing order, so an address is also the object's
  creation time.
* `GoMap κ ν` — a `map[κ]ν` kept by value inside one struct: `none` is the `nil` map, which
  reads as empty (`GoMap.get?`), ignores `delete`, and panics on a write (`GoMap.set` is
  `none`).
* `MapRef` with `Heap.mapGet` / `Heap.mapSet` — a map value that may be copied (a field of
  a struct passed by value): the copies share one map object of the heap.
* `spliceOut` — `append(s[:i], s[i+1:]...)`, which writes into the backing array of `s`.
  `take_spliceOut` says what the new slice holds; the rest of the array keeps a stale
  element, which a `range` over the old slice still reads.  `spliceOut_append_replicate`
  follows the array over repeated splices: what stands behind the slice is copies of its
  last element.
-/

/-! ### The heap -/

/-- The objects of type `α`: `objs a` is the object at address `a`.  Addresses from `next`
    on are not allocated yet. -/
structure Heap (α : Type) where
  objs : Nat → α
  next : Nat

namespace Heap

variable {α : Type}

/-- The heap with nothing allocated. -/
def empty [Inhabited α] : Heap α := ⟨fun _ => default, 0⟩

/-- `*p`. -/
def read (h : Heap α) (a : Nat) : α := h.objs a

/-- `*p = x`. -/
def write (h : Heap α) (a : Nat) (x : α) : Heap α := { h with objs := Function.update h.objs a x }

/-- `&T{...}` or a composite literal of a map: a fresh address holding `x`. -/
def alloc (h : Heap α) (x : α) : Nat × Heap α :=
  (h.next, { objs := Function.update h.objs h.next x, next := h.next + 1 })

@[simp] theorem read_write (h : Heap α) (a b : Nat) (x : α) :
    (h.write a x).read b = if b = a then x else h.read b := by
  simp only [read, write, Function.update_apply]

@[simp] theorem next_write (h : Heap α) (a : Nat) (x : α) : (h.write a x).next = h.next := rfl

@[simp] theorem alloc_fst (h : Heap α) (x : α) : (h.alloc x).1 = h.next := rfl

@[simp] theorem next_alloc (h : Heap α) (x : α) : (h.alloc x).2.next = h.next + 1 := rfl

@[simp] theorem read_alloc (h : Heap α) (x : α) (b : Nat) :
    (h.alloc x).2.read b = if b = h.next then x else h.read b := by
  simp only [read, alloc, Function.update_apply]

/-- Allocation leaves every allocated object as it was. -/
theorem read_alloc_of_lt (h : Heap α) (x : α) {b : Nat} (hb : b < h.next) :
    (h.alloc x).2.read b = h.read b := by
  simp only [read_alloc, Nat.ne_of_lt hb, if_false]

end Heap

/-! ### Maps held by value -/

/-- A Go `map[κ]ν` stored in the one struct that owns it: `none` is the `nil` map. -/
abbrev GoMap (κ ν : Type) := Option (κ → Option ν)

namespace GoMap

variable {κ ν : Type}

/-- `make(map[κ]ν)`, or the literal `map[κ]ν{}`. -/
def make : GoMap κ ν := some fun _ => none

/-- `v, ok := m[k]`: a `nil` map reads as empty. -/
def get? (m : GoMap κ ν) (k : κ) : Option ν := m.bind fun f => f k

/-- `m[k] = v`; `none` is the panic of a write into a `nil` map. -/
def set [DecidableEq κ] (m : GoMap κ ν) (k : κ) (v : ν) : Option (GoMap κ ν) :=
  m.map fun f => some (Function.update f k (some v))

/-- `delete(m, k)`, which does nothing on a `nil` map. -/
def delete [DecidableEq κ] (m : GoMap κ ν) (k : κ) : GoMap κ ν := m.map fun f => Function.update f k none

@[simp] theorem get?_make (k : κ) : (make : GoMap κ ν).get? k = none := rfl

@[simp] theorem get?_none (k : κ) : GoMap.get? (none : GoMap κ ν) k = none := rfl

@[simp] theorem get?_delete [DecidableEq κ] (m : GoMap κ ν) (k k' : κ) :
    (m.delete k).get? k' = if k' = k then none else m.get? k' := by
  cases m <;> by_cases h : k' = k <;> simp [get?, delete, h]

@[simp] theorem isSome_delete [DecidableEq κ] (m : GoMap κ ν) (k : κ) : (m.delete k).isSome = m.isSome := by
  cases m <;> rfl

/-- A write succeeds exactly on a map that is not `nil`, and then reads back. -/
theorem set_eq_some [DecidableEq κ] {m : GoMap κ ν} {k : κ} {v : ν} {m' : GoMap κ ν} :
    m.set k v = some m' ↔
      m.isSome ∧ m'.isSome ∧ ∀ k', m'.get? k' = if k' = k then some v else m.get? k' := by
  cases m with
  | none => simp [set]
  | some f =>
    cases m' with
    | none => simp [set]
    | some f' =>
      simp only [set, Option.map_some', Option.some.injEq, Option.isSome_some, true_and, get?,
        Option.some_bind]
      constructor
      · rintro rfl k'
        simp only [Function.update_apply]
      · intro h
        funext k'
        simp only [h, Function.update_apply]

end GoMap

/-! ### Maps shared by reference -/

/-- A map value that can be copied: `none` is `nil`, `some a` the map object at `a`. -/
abbrev MapRef := Option Nat

namespace Heap

variable {κ ν : Type} [DecidableEq κ]

/-- `v, ok := m[k]` for a map value `m` whose object lives on the heap `h`. -/
def mapGet (h : Heap (κ → Option ν)) (m : MapRef) (k : κ) : Option ν := m.bind fun a => h.read a k

/-- `m[k] = v` through the map value `m`; `none` is the panic of a write into a `nil` map. -/
def mapSet (h : Heap (κ → Option ν)) (m : MapRef) (k : κ) (v : ν) : Option (Heap (κ → Option ν)) :=
  m.map fun a => h.write a (Function.update (h.read a) k (some v))

@[simp] theorem next_mapSet {h h' : Heap (κ → Option ν)} {m : MapRef} {k : κ} {v : ν}
    (hs : h.mapSet m k v = some h') : h'.next = h.next := by
  obtain ⟨a, -, rfl⟩ := Option.map_eq_some'.mp hs
  rfl

end Heap

/-! ### Slices -/

section Slice

variable {α : Type}

/-- `append(s[:i], s[i+1:]...)` for the slice `s` made of the first `len` elements of its
    backing array `buf`.  The result fits in the capacity of `s[:i]`, so `append` writes into
    `buf` itself: the elements after `i` move one place left and the old last element of `s`
    stays behind at index `len - 1`.  This is the new content of `buf`; the new slice is its
    first `len - 1` elements. -/
def spliceOut (buf : List α) (len i : Nat) : List α :=
  buf.take i ++ (buf.take len).drop (i + 1) ++ buf.drop (len - 1)

/-- The new slice is the old one with its `i`-th element erased. -/
theorem take_spliceOut {s buf : List α} (hs : s <+: buf) {i : Nat} (hi : i < s.length) :
    (spliceOut buf s.length i).take (s.length - 1) = s.eraseIdx i := by
  obtain ⟨t, rfl⟩ := hs
  have hlen : (s.take i ++ s.drop (i + 1)).length = s.length - 1 := by
    simp only [List.length_append, List.length_take, List.length_drop]; omega
  rw [spliceOut, List.take_append_of_le_length (Nat.le_of_lt hi), List.take_left' rfl,
    List.take_left' hlen, List.eraseIdx_eq_take_drop_succ]

/-- The whole array after the splice: the new slice, then what stood from index `len - 1` on. -/
theorem spliceOut_eq_eraseIdx_append {s buf : List α} (hs : s <+: buf) {i : Nat}
    (hi : i < s.length) : spliceOut buf s.length i = s.eraseIdx i ++ buf.drop (s.length - 1) := by
  obtain ⟨t, rfl⟩ := hs
  rw [spliceOut, List.take_append_of_le_length (Nat.le_of_lt hi), List.take_left' rfl,
    List.eraseIdx_eq_take_drop_succ]

/-- A splice out of a slice whose array holds copies of its last element `z` behind it leaves
    one more copy of `z` behind. -/
theorem spliceOut_append_replicate {s t : List α} {y z : α} (hz : (y :: t).getLast? = some z)
    (k : Nat) :
    spliceOut (s ++ y :: t ++ List.replicate k z) (s ++ y :: t).length s.length =
      s ++ t ++ List.replicate (k + 1) z := by
  obtain ⟨u, hu⟩ := List.getLast?_eq_some_iff.mp hz
  have hdrop : (s ++ y :: t ++ List.replicate k z).drop ((s ++ y :: t).length - 1) =
      List.replicate (k + 1) z := by
    rw [hu, show s ++ (u ++ [z]) ++ List.replicate k z = (s ++ u) ++ List.replicate (k + 1) z by
      simp [List.replicate_succ], List.drop_left' (by simp)]
  rw [spliceOut_eq_eraseIdx_append (List.prefix_append _ _) (by simp), hdrop,
    List.eraseIdx_append_of_length_le le_rfl, Nat.sub_self]
  rfl

end Slice

/-! ### Searching a slice by pointer equality -/

section Search

variable {α : Type} [DecidableEq α]

/-- The `for i, r := range s { if r == x { ... } }` search stops at the first occurrence. -/
theorem findIdx?_beq_append {l₁ l₂ : List α} {x : α} (hx : x ∉ l₁) (n : Nat) :
    (l₁ ++ x :: l₂).findIdx? (· == x) n = some (n + l₁.length) := by
  induction l₁ generalizing n with
  | nil => simp [List.findIdx?_cons]
  | cons y ys ih =>
    simp only [List.mem_cons, not_or] at hx
    simp only [List.cons_append, List.findIdx?_cons, beq_iff_eq, Ne.symm hx.1, if_false,
      ih hx.2 (n + 1), List.length_cons]
    rw [Nat.add_comm ys.length 1, Nat.add_assoc]

end Search

end MultiarchTuning
