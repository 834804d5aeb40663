import MultiarchTuning.SystemConfig.Registries
import Mathlib.Data.List.Chain

namespace MultiarchTuning

/-!
# System config — the cleanup loop

`cleanupAllRegistryConfIfEmpty` ranges over `Registries` while its body splices entries out
of the same backing array.  The `range` runs over the indices of the slice as it was, and
each iteration reads the array as the splices have left it: after a removal at index `i` the
next entry has moved to `i`, and the loop goes on at `i + 1` without reading it.

* `foldl_cleanupAllStep_induction` — the loop one index at a time: an invariant of the index
  and the loop state that one iteration keeps holds after all of them.
* `cleanupAllRegistryConfIfEmpty_induction` — every iteration is a cleanup of some location,
  so a property kept by every cleanup holds after the loop.
* `cleanupAllRegistryConfIfEmpty_sublist` — hence the loop keeps the slice and the map in
  agreement, removes only empty entries, and keeps every other entry in its order.
* `cleanupAllRegistryConfIfEmpty_registries_eq_keeps` — what the loop leaves on every
  agreeing configuration: an empty entry goes and the entry after it is passed over
  (`skipAfterRemoval`), and the last entry, read again behind the slice, goes if it is empty
  (`cleanupAllKeeps`).
* `cleanupAllRegistryConfIfEmpty_removes_all_iff` — hence the loop removes every empty entry
  exactly when no two adjacent entries are empty, but for the last two;
  `cleanupAllRegistryConfIfEmpty_eq_filter` — in particular when no two adjacent entries are
  empty at all.  `cleanupAll_keeps_empty_successor` shows that a condition is needed.
-/

namespace RegistriesConf

variable {rsc : RegistriesConf} {mem : Heap RegistryConf}

/-! ### The splice seen through the backing array -/

/-- Inside the `range` loop, a cleanup gives the struct it gives on its own: the splice's new
    slice does not depend on the array beyond `Registries`. -/
theorem cleanupRegistryConfIfEmptyIn_fst {buf : List Nat} (hbuf : rsc.registries <+: buf)
    (r : String) :
    (rsc.cleanupRegistryConfIfEmptyIn mem buf r).1 = rsc.cleanupRegistryConfIfEmpty mem r := by
  unfold cleanupRegistryConfIfEmpty cleanupRegistryConfIfEmptyIn
  split
  · rfl
  · split
    · dsimp only
      split
      · rfl
      · rename_i i hi
        have hlt := (List.findIdx?_eq_some_iff_getElem.mp hi).1
        simp only [take_spliceOut hbuf hlt, take_spliceOut (List.prefix_refl _) hlt]
    · rfl

/-- After a cleanup `Registries` is still the front of the backing array. -/
theorem prefix_cleanupRegistryConfIfEmptyIn {buf : List Nat} (hbuf : rsc.registries <+: buf)
    (r : String) :
    (rsc.cleanupRegistryConfIfEmptyIn mem buf r).1.registries <+:
      (rsc.cleanupRegistryConfIfEmptyIn mem buf r).2 := by
  unfold cleanupRegistryConfIfEmptyIn
  split
  · exact hbuf
  · split
    · dsimp only
      split
      · exact hbuf
      · exact List.take_prefix _ _
    · exact hbuf

theorem cleanupAllStep_of_getElem? {st : RegistriesConf × List Nat} {i registry : Nat}
    (h : st.2[i]? = some registry) :
    cleanupAllStep mem st i =
      st.1.cleanupRegistryConfIfEmptyIn mem st.2 (mem.read registry).location := by
  simp only [cleanupAllStep, h]

/-! ### The whole loop -/

/-- **The loop, one index at a time.**  An invariant of the loop index and the loop state
    that every iteration keeps holds after the iterations at `i, …, i + k - 1`. -/
theorem foldl_cleanupAllStep_induction (I : Nat → RegistriesConf × List Nat → Prop)
    (hstep : ∀ i st, I i st → I (i + 1) (cleanupAllStep mem st i)) (k : Nat) :
    ∀ i st, I i st → I (i + k) ((List.range' i k).foldl (cleanupAllStep mem) st) := by
  induction k with
  | zero => exact fun _ _ h => h
  | succ k ih =>
    intro i st h
    rw [show i + (k + 1) = i + 1 + k by omega]
    exact ih (i + 1) _ (hstep i st h)

theorem cleanupAllRegistryConfIfEmpty_eq_foldl :
    rsc.cleanupAllRegistryConfIfEmpty mem =
      ((List.range' 0 rsc.registries.length).foldl (cleanupAllStep mem)
        (rsc, rsc.registries)).1 := by
  rw [cleanupAllRegistryConfIfEmpty, List.range_eq_range']

/-- Every iteration of the `range` loop is a cleanup of some location; so whatever it reads
    from the shifted array, a property kept by every cleanup holds after the loop. -/
theorem cleanupAllRegistryConfIfEmpty_induction (P : RegistriesConf → Prop) (h₀ : P rsc)
    (hstep : ∀ rsc' r, P rsc' → P (rsc'.cleanupRegistryConfIfEmpty mem r)) :
    P (rsc.cleanupAllRegistryConfIfEmpty mem) := by
  rw [cleanupAllRegistryConfIfEmpty_eq_foldl]
  refine (foldl_cleanupAllStep_induction (fun _ st => P st.1 ∧ st.1.registries <+: st.2)
    (fun i st h => ?_) _ 0 _ ⟨h₀, List.prefix_refl _⟩).1
  unfold cleanupAllStep
  split
  · exact ⟨cleanupRegistryConfIfEmptyIn_fst h.2 _ ▸ hstep _ _ h.1,
      prefix_cleanupRegistryConfIfEmptyIn h.2 _⟩
  · exact h

/-- The loop removes only empty entries, and keeps the others in their order. -/
theorem registries_cleanupAllRegistryConfIfEmpty (hA : rsc.Agree mem) :
    List.Sublist (rsc.cleanupAllRegistryConfIfEmpty mem).registries rsc.registries ∧
      ∀ rc ∈ rsc.registries, (mem.read rc).isEmpty = false →
        rc ∈ (rsc.cleanupAllRegistryConfIfEmpty mem).registries := by
  refine (cleanupAllRegistryConfIfEmpty_induction
    (fun c => c.Agree mem ∧ List.Sublist c.registries rsc.registries ∧
      ∀ rc ∈ rsc.registries, (mem.read rc).isEmpty = false → rc ∈ c.registries)
    ⟨hA, List.Sublist.refl _, fun _ h _ => h⟩ fun c r ⟨hc, hsub, hkeep⟩ => ?_).2
  refine ⟨hc.cleanupRegistryConfIfEmpty r,
    (registries_cleanupRegistryConfIfEmpty_sublist hc r).trans hsub, fun x hx hne => ?_⟩
  rcases cleanupRegistryConfIfEmpty_cases hc r with h | ⟨rc, l₁, l₂, -, hempty, hsplit, h⟩
  · rw [h]; exact hkeep x hx hne
  · -- the entry removed is empty, so it is not `x`
    have hx' := hkeep x hx hne
    rw [hsplit, List.mem_append, List.mem_cons] at hx'
    rw [h, List.mem_append]
    rcases hx' with hx' | rfl | hx'
    exacts [.inl hx', absurd hempty (by simp [hne]), .inr hx']

/-- **What the loop always does.**  On an agreeing configuration the loop keeps the
    agreement and removes only empty entries: `Registries` becomes a sublist of what it was
    that still holds every non-empty entry. -/
theorem cleanupAllRegistryConfIfEmpty_sublist (hA : rsc.Agree mem) :
    (rsc.cleanupAllRegistryConfIfEmpty mem).Agree mem ∧
      List.Sublist (rsc.cleanupAllRegistryConfIfEmpty mem).registries rsc.registries ∧
      ∀ rc ∈ rsc.registries, (mem.read rc).isEmpty = false →
        rc ∈ (rsc.cleanupAllRegistryConfIfEmpty mem).registries :=
  ⟨cleanupAllRegistryConfIfEmpty_induction (·.Agree mem) hA fun _ r h =>
    h.cleanupRegistryConfIfEmpty r, registries_cleanupAllRegistryConfIfEmpty hA⟩

/-- The entries `a`, `b` and `c` of `cleanupAll_keeps_empty_successor`: `a` and `b` empty,
    `c` with a mirror. -/
theorem cleanupAllRegistryConfIfEmpty_sublist_abc :
    let mem := (((Heap.empty.alloc (newRegistryConf "a")).2.alloc (newRegistryConf "b")).2.alloc
      { newRegistryConf "c" with mirrors := [⟨"mirror.example.com"⟩] }).2
    let rsc := { defaultRegistriesConf with
                 registries := [0, 1, 2]
                 registriesMap := some (locationIndex mem [0, 1, 2]) }
    rsc.Agree mem ∧ (rsc.cleanupAllRegistryConfIfEmpty mem).Agree mem ∧
      List.Sublist (rsc.cleanupAllRegistryConfIfEmpty mem).registries rsc.registries ∧
      ∀ rc ∈ rsc.registries, (mem.read rc).isEmpty = false →
        rc ∈ (rsc.cleanupAllRegistryConfIfEmpty mem).registries := by
  intro mem rsc
  have hA : rsc.Agree mem := agree_of_locationIndex (by decide) rfl
  exact ⟨hA, cleanupAllRegistryConfIfEmpty_sublist hA⟩

/-! ### What the loop keeps on every configuration

Splices shift the live entries left and leave copies of the slice's last entry `z` behind
them, so the array is always the live entries followed by copies of `z`.  While entries
remain to examine the index points at the first of them (`Examining`); afterwards it runs
over copies of `z` (`Examined`), and reads `z` once more. -/

/-- What the loop does while its index is within the live entries: walking the slice, an
    empty entry is removed, and the entry that the splice moves under the index is passed
    over. -/
def skipAfterRemoval (mem : Heap RegistryConf) : List Nat → List Nat
  | [] => []
  | rc :: rest =>
    if (mem.read rc).isEmpty then
      match rest with
      | [] => []
      | next :: rest => next :: skipAfterRemoval mem rest
    else rc :: skipAfterRemoval mem rest

/-- The entries that `cleanupAllRegistryConfIfEmpty` keeps of the slice `L`: those that
    `skipAfterRemoval` keeps, but the last entry of `L` if it is empty.  Every splice leaves a
    copy of that entry behind the live part of the array, and the iterations past the live
    entries read it again. -/
def cleanupAllKeeps (mem : Heap RegistryConf) (L : List Nat) : List Nat :=
  (skipAfterRemoval mem L).filter fun rc => !((mem.read rc).isEmpty && L.getLast? == some rc)

@[simp] theorem skipAfterRemoval_nil : skipAfterRemoval mem [] = [] := rfl

theorem skipAfterRemoval_of_keep {rc : Nat} (h : (mem.read rc).isEmpty = false) (rest : List Nat) :
    skipAfterRemoval mem (rc :: rest) = rc :: skipAfterRemoval mem rest := by
  cases rest <;> simp [skipAfterRemoval, h]

theorem skipAfterRemoval_singleton_of_isEmpty {rc : Nat} (h : (mem.read rc).isEmpty = true) :
    skipAfterRemoval mem [rc] = [] := by
  simp [skipAfterRemoval, h]

theorem skipAfterRemoval_cons_cons_of_isEmpty {rc : Nat} (h : (mem.read rc).isEmpty = true)
    (next : Nat) (rest : List Nat) :
    skipAfterRemoval mem (rc :: next :: rest) = next :: skipAfterRemoval mem rest := by
  simp [skipAfterRemoval, h]

/-- With the last entry `z` of `L` kept by `skipAfterRemoval` or not empty, the loop's result
    is `skipAfterRemoval`'s. -/
theorem cleanupAllKeeps_of_not {L : List Nat} {z : Nat} (hz : L.getLast? = some z)
    (h : ¬(z ∈ skipAfterRemoval mem L ∧ (mem.read z).isEmpty = true)) :
    cleanupAllKeeps mem L = skipAfterRemoval mem L := by
  refine List.filter_eq_self.mpr fun rc hrc => ?_
  rw [hz]
  by_cases hrz : rc = z
  · subst hrz; simpa using fun hE => h ⟨hrc, hE⟩
  · simp [Ne.symm hrz]

/-- With `skipAfterRemoval` ending in the empty last entry `z` of `L`, the loop's result is
    the rest. -/
theorem cleanupAllKeeps_of_last {L R : List Nat} {z : Nat} (hz : L.getLast? = some z)
    (hS : skipAfterRemoval mem L = R ++ [z]) (hzR : z ∉ R) (hE : (mem.read z).isEmpty = true) :
    cleanupAllKeeps mem L = R := by
  rw [cleanupAllKeeps, hS, List.filter_append, hz]
  have hR : R.filter (fun rc => !((mem.read rc).isEmpty && some z == some rc)) = R :=
    List.filter_eq_self.mpr fun rc hrc => by simp [Ne.symm (ne_of_mem_of_not_mem hrc hzR)]
  rw [hR]
  simp [hE]

theorem not_mem_cleanupAllKeeps {L : List Nat} {z : Nat} (hz : L.getLast? = some z)
    (hE : (mem.read z).isEmpty = true) : z ∉ cleanupAllKeeps mem L := by
  simp [cleanupAllKeeps, hz, hE]

/-- A sublist of a duplicate-free list ending in `z` that holds `z` ends in it too. -/
theorem eq_append_of_mem_sublist {R L : List Nat} {z : Nat} (hsub : List.Sublist R L)
    (hL : L.Nodup) (hz : L.getLast? = some z) (hzR : z ∈ R) :
    ∃ R', R = R' ++ [z] ∧ z ∉ R' := by
  obtain ⟨L', rfl⟩ := List.getLast?_eq_some_iff.mp hz
  obtain ⟨R₁, R₂, rfl, h₁, h₂⟩ := List.sublist_append_iff.mp hsub
  have hzL' : z ∉ L' := by simpa using (List.nodup_append.mp hL).2.2
  have hzR₁ : z ∉ R₁ := fun h => hzL' (h₁.subset h)
  rcases List.sublist_singleton.mp h₂ with rfl | rfl
  · simp [hzR₁] at hzR
  · exact ⟨R₁, rfl, hzR₁⟩

/-- A removal from a slice whose array holds copies of its last entry `z` behind it: the
    entry leaves the slice and the map, and one more copy of `z` stays behind. -/
theorem cleanupRegistryConfIfEmptyIn_of_stale {r : String} {y z k : Nat} {K D : List Nat}
    (hget : rsc.getRegistryConf r = some y) (hempty : (mem.read y).isEmpty = true)
    (hsplit : rsc.registries = K ++ y :: D) (hnot : y ∉ K) (hz : (y :: D).getLast? = some z) :
    rsc.cleanupRegistryConfIfEmptyIn mem (rsc.registries ++ List.replicate k z) r =
      ({ rsc with registriesMap := rsc.registriesMap.delete r, registries := K ++ D },
        K ++ D ++ List.replicate (k + 1) z) := by
  have hfind : rsc.registries.findIdx? (· == y) = some K.length := by
    rw [hsplit, findIdx?_beq_append hnot 0, Nat.zero_add]
  simp only [cleanupRegistryConfIfEmptyIn, hget, hempty, if_true, hfind]
  rw [hsplit, spliceOut_append_replicate hz, List.take_left' (by simp)]

/-- Entries remain to be examined: the index points at `y`, the first of them. -/
def Examining (mem : Heap RegistryConf) (L R : List Nat) (i : Nat) : Prop :=
  ∃ K T y D, L = T ++ y :: D ∧ R = K ++ y :: D ∧ i = K.length ∧
    skipAfterRemoval mem L = K ++ skipAfterRemoval mem (y :: D)

/-- Every entry has been examined and the index is past the live entries.  These are what
    `skipAfterRemoval` keeps, with a read of the last entry `z` still to come if it would
    remove it, or they are what `cleanupAllKeeps` keeps. -/
def Examined (mem : Heap RegistryConf) (L R : List Nat) (z i : Nat) : Prop :=
  R.length ≤ i ∧
    ((R = skipAfterRemoval mem L ∧ (z ∈ R → (mem.read z).isEmpty = true → i < L.length)) ∨
      R = cleanupAllKeeps mem L)

/-- The invariant of the loop at index `i` on the slice `L`, whose last entry is `z`: the
    live entries are a sublist of `L`, followed in the array by copies of `z`. -/
structure KeepsInv (mem : Heap RegistryConf) (L : List Nat) (z i : Nat)
    (st : RegistriesConf × List Nat) : Prop where
  agree : st.1.Agree mem
  sub : List.Sublist st.1.registries L
  stale : st.2 = st.1.registries ++ List.replicate (L.length - st.1.registries.length) z
  phase : Examining mem L st.1.registries i ∨ Examined mem L st.1.registries z i

section Keeps

variable {L : List Nat} {z i : Nat} {st : RegistriesConf × List Nat}
  (hL : (L.map fun rc => (mem.read rc).location).Nodup) (hz : L.getLast? = some z)
include hL hz

/-- **Step lemma, entries to examine.**  The iteration reads the first entry not examined.
    If it is kept, the index moves on with it; if it is removed, the next entry moves under
    the index and is passed over. -/
theorem KeepsInv.step_examining (hI : KeepsInv mem L z i st)
    (hex : Examining mem L st.1.registries i) :
    KeepsInv mem L z (i + 1) (cleanupAllStep mem st i) := by
  obtain ⟨K, T, y, D, hLsplit, hR, hi, hS⟩ := hex
  have hyK : y ∉ K := fun h =>
    (List.nodup_append.mp (hR ▸ hI.sub.nodup (hL.of_map _))).2.2 h (List.mem_cons_self _ _)
  have hlast : (y :: D).getLast? = some z := by
    rwa [hLsplit, List.getLast?_append_of_ne_nil _ (List.cons_ne_nil _ _)] at hz
  have hlen : (K ++ y :: D).length ≤ L.length := hR ▸ hI.sub.length_le
  have hread : st.2[i]? = some y := by
    rw [hI.stale, hR, hi, List.append_assoc, List.getElem?_append_right le_rfl, Nat.sub_self,
      List.cons_append, List.getElem?_cons_zero]
  have hget : st.1.getRegistryConf (mem.read y).location = some y :=
    (hI.agree.getRegistryConf_eq_some _ _).mpr ⟨by rw [hR]; simp, rfl⟩
  rw [cleanupAllStep_of_getElem? hread]
  cases hE : (mem.read y).isEmpty
  case false =>
    rw [cleanupRegistryConfIfEmptyIn_of_keep fun rc h => by cases hget ▸ h; exact hE]
    refine ⟨hI.agree, hI.sub, hI.stale, ?_⟩
    rw [skipAfterRemoval_of_keep hE] at hS
    cases D with
    | nil =>
      -- `y` was the last entry, and it is not empty
      have hyz : y = z := by simpa using hlast
      exact .inr ⟨by simp [hR, hi], .inl ⟨by simp [hR, hS],
        fun _ hEz => absurd (hyz ▸ hEz) (by simp [hE])⟩⟩
    | cons w D =>
      exact .inl ⟨K ++ [y], T ++ [y], w, D, by simp [hLsplit], by simp [hR], by simp [hi],
        by simp [hS]⟩
  case true =>
    have hk : L.length - st.1.registries.length + 1 = L.length - (K ++ D).length := by
      simp only [hR, List.length_append, List.length_cons] at hlen ⊢; omega
    rw [hI.stale, cleanupRegistryConfIfEmptyIn_of_stale hget hE hR hyK hlast]
    refine ⟨hI.agree.erase hR, ((List.sublist_cons_self y D).append_left K).trans (hR ▸ hI.sub),
      by dsimp only; rw [hk], ?_⟩
    cases D with
    | nil =>
      -- `y` was the last entry: the copy of it behind the slice is read later
      have hyz : y = z := by simpa using hlast
      rw [skipAfterRemoval_singleton_of_isEmpty hE] at hS
      exact .inr ⟨by simp [hi], .inl ⟨by simp [hS],
        fun hzK => absurd (hyz ▸ by simpa using hzK) hyK⟩⟩
    | cons w D =>
      rw [skipAfterRemoval_cons_cons_of_isEmpty hE] at hS
      cases D with
      | nil =>
        exact .inr ⟨by simp [hi], .inl ⟨by simp [hS], fun _ _ => by simp at hlen; omega⟩⟩
      | cons v D =>
        exact .inl ⟨K ++ [w], T ++ [y, w], v, D, by simp [hLsplit], by simp, by simp [hi],
          by simp [hS]⟩

/-- **Step lemma, entries examined.**  The iteration reads a copy of `z` behind the live
    entries, or nothing past the array; it removes `z` if `z` is live and empty. -/
theorem KeepsInv.step_examined (hI : KeepsInv mem L z i st)
    (hex : Examined mem L st.1.registries z i) :
    KeepsInv mem L z (i + 1) (cleanupAllStep mem st i) := by
  obtain ⟨hle, hst⟩ := hex
  by_cases hi : i < L.length
  case neg =>
    have hnone : st.2[i]? = none := List.getElem?_eq_none (by rw [hI.stale]; simp; omega)
    simp only [cleanupAllStep, hnone]
    exact ⟨hI.agree, hI.sub, hI.stale, .inr ⟨by omega,
      hst.imp_left fun h => ⟨h.1, fun hzR hE => absurd (h.2 hzR hE) hi⟩⟩⟩
  case pos =>
    have hread : st.2[i]? = some z := by
      rw [hI.stale, List.getElem?_append_right hle, List.getElem?_replicate_of_lt (by omega)]
    rw [cleanupAllStep_of_getElem? hread]
    by_cases hdel : z ∈ st.1.registries ∧ (mem.read z).isEmpty = true
    case neg =>
      -- `z` is gone or not empty: nothing is removed
      rw [cleanupRegistryConfIfEmptyIn_of_keep fun rc h => ?_, Prod.mk.eta]
      · exact ⟨hI.agree, hI.sub, hI.stale, .inr ⟨by omega,
          hst.imp_left fun h => ⟨h.1, fun hzR hE => absurd ⟨hzR, hE⟩ hdel⟩⟩⟩
      · obtain ⟨hrc, hloc⟩ := (hI.agree.getRegistryConf_eq_some _ _).mp h
        obtain rfl := List.inj_on_of_nodup_map hL (hI.sub.subset hrc)
          (List.mem_of_getLast?_eq_some hz) hloc
        simpa using fun hE => hdel ⟨hrc, hE⟩
    case pos =>
      -- the live, empty `z` is read again and removed
      obtain ⟨hzR, hE⟩ := hdel
      have hRS : st.1.registries = skipAfterRemoval mem L :=
        (hst.resolve_right fun h => not_mem_cleanupAllKeeps hz hE (h ▸ hzR)).1
      obtain ⟨R', hR', hzR'⟩ := eq_append_of_mem_sublist hI.sub (hL.of_map _) hz hzR
      have hget : st.1.getRegistryConf (mem.read z).location = some z :=
        (hI.agree.getRegistryConf_eq_some _ _).mpr ⟨hzR, rfl⟩
      have hlen : st.1.registries.length ≤ L.length := hI.sub.length_le
      rw [hI.stale,
        cleanupRegistryConfIfEmptyIn_of_stale hget hE hR' hzR' (List.getLast?_singleton z)]
      refine ⟨hI.agree.erase hR', ?_, ?_, .inr ⟨by simp [hR'] at hle ⊢; omega,
        .inr (by simpa using (cleanupAllKeeps_of_last hz (hRS ▸ hR') hzR' hE).symm)⟩⟩
      · simpa using (List.sublist_append_left R' [z]).trans (hR' ▸ hI.sub)
      · simp only [hR', List.length_append, List.length_singleton, List.append_nil] at hlen ⊢
        congr 2; omega

theorem KeepsInv.step (hI : KeepsInv mem L z i st) :
    KeepsInv mem L z (i + 1) (cleanupAllStep mem st i) :=
  hI.phase.elim (hI.step_examining hL hz) (hI.step_examined hL hz)

end Keeps

/-- The loop from the first index to the last, through `KeepsInv`. -/
theorem foldl_cleanupAllStep_registries (hA : rsc.Agree mem) :
    ((List.range' 0 rsc.registries.length).foldl (cleanupAllStep mem)
      (rsc, rsc.registries)).1.registries = cleanupAllKeeps mem rsc.registries := by
  cases hz : rsc.registries.getLast? with
  | none =>
    rw [List.getLast?_eq_none_iff] at hz
    simp [hz, cleanupAllKeeps]
  | some z =>
    obtain ⟨y, D, hyD⟩ :=
      @List.exists_cons_of_ne_nil _ rsc.registries fun h => by simp [h] at hz
    have hfin := foldl_cleanupAllStep_induction (KeepsInv mem rsc.registries z)
      (fun _ _ h => h.step hA.nodup hz) rsc.registries.length 0 (rsc, rsc.registries)
      ⟨hA, List.Sublist.refl _, by simp,
        .inl ⟨[], [], y, D, hyD, hyD, rfl, by rw [hyD]; rfl⟩⟩
    rcases hfin.phase with ⟨K, -, y, D, -, hR, hi, -⟩ | ⟨-, ⟨hR, hpend⟩ | hR⟩
    · -- the index has passed every entry, so none is left to examine
      have hlen := hR ▸ hfin.sub.length_le
      simp at hlen
      omega
    · rw [hR, cleanupAllKeeps_of_not hz fun ⟨hzR, hE⟩ =>
        absurd (hpend (hR ▸ hzR) hE) (by omega)]
    · exact hR

/-- **What the loop keeps, on every agreeing configuration.**  Walking `Registries`, the loop
    removes an empty entry and passes over the entry after it, and at the end it removes the
    last entry if it is empty, read again from the copies the splices left behind it:
    `cleanupAllRegistryConfIfEmpty` leaves exactly `cleanupAllKeeps`. -/
theorem cleanupAllRegistryConfIfEmpty_registries_eq_keeps (hA : rsc.Agree mem) :
    (rsc.cleanupAllRegistryConfIfEmpty mem).registries = cleanupAllKeeps mem rsc.registries := by
  rw [cleanupAllRegistryConfIfEmpty_eq_foldl]
  exact foldl_cleanupAllStep_registries hA

/-- The entries `a` with a mirror, then `b` and `c` empty: `b` goes, `c` moves under the index
    and is passed over, and the copy of `c` behind the slice is read at the last index, which
    removes `c` after all. -/
theorem cleanupAllRegistryConfIfEmpty_registries_eq_keeps_abc :
    let mem := (((Heap.empty.alloc
      { newRegistryConf "a" with mirrors := [⟨"mirror.example.com"⟩] }).2.alloc
      (newRegistryConf "b")).2.alloc (newRegistryConf "c")).2
    let rsc := { defaultRegistriesConf with
                 registries := [0, 1, 2]
                 registriesMap := some (locationIndex mem [0, 1, 2]) }
    rsc.Agree mem ∧
      (rsc.cleanupAllRegistryConfIfEmpty mem).registries = cleanupAllKeeps mem rsc.registries := by
  intro mem rsc
  have hA : rsc.Agree mem := agree_of_locationIndex (by decide) rfl
  exact ⟨hA, cleanupAllRegistryConfIfEmpty_registries_eq_keeps hA⟩


/-! ### When the loop removes every empty entry -/

/-- The walk removes every empty entry exactly when no two adjacent entries are empty: an
    empty entry right after a removed one is passed over. -/
theorem skipAfterRemoval_eq_filter_iff (L : List Nat) :
    skipAfterRemoval mem L = L.filter (fun rc => !(mem.read rc).isEmpty) ↔
      L.Chain' fun a b => (mem.read a).isEmpty = false ∨ (mem.read b).isEmpty = false := by
  induction L using skipAfterRemoval.induct mem with
  | case1 => simp
  | case2 x hx => simp [skipAfterRemoval_singleton_of_isEmpty hx, hx]
  | case3 x hx y rest ih =>
    rw [skipAfterRemoval_cons_cons_of_isEmpty hx, List.chain'_cons,
      List.filter_cons_of_neg (by simp [hx])]
    cases hy : (mem.read y).isEmpty
    case false =>
      rw [List.filter_cons_of_pos (by simp [hy]), List.cons_inj_right, ih]
      simp [hy, List.chain'_cons']
    case true =>
      -- the empty `y` is passed over, and stays
      refine iff_of_false (fun h => ?_) (by simp [hx, hy])
      have hmem := h ▸ List.mem_cons_self y (skipAfterRemoval mem rest)
      simp [hy] at hmem
  | case4 x rest hx ih =>
    rw [skipAfterRemoval_of_keep (by simpa using hx), List.filter_cons_of_pos (by simpa using hx),
      List.cons_inj_right, ih]
    simp [List.chain'_cons', show (mem.read x).isEmpty = false by simpa using hx]

/-- An empty last entry `z` that the walk removes, or passes over and then reads again, is
    removed: what remains is the walk over the entries before it. -/
theorem cleanupAllKeeps_append_singleton {L : List Nat} {z : Nat}
    (hz : (mem.read z).isEmpty = true) (hzL : z ∉ L) :
    cleanupAllKeeps mem (L ++ [z]) = skipAfterRemoval mem L := by
  rw [cleanupAllKeeps, List.getLast?_concat]
  induction L using skipAfterRemoval.induct mem with
  | case1 => simp [skipAfterRemoval_singleton_of_isEmpty hz]
  | case2 x hx =>
    simp [skipAfterRemoval_cons_cons_of_isEmpty hx, skipAfterRemoval_singleton_of_isEmpty hx, hz]
  | case3 x hx y rest ih =>
    simp only [List.mem_cons, not_or] at hzL
    rw [List.cons_append, List.cons_append, skipAfterRemoval_cons_cons_of_isEmpty hx,
      skipAfterRemoval_cons_cons_of_isEmpty hx, List.filter_cons_of_pos (by simp [hzL.2.1]),
      ih hzL.2.2]
  | case4 x rest hx ih =>
    simp only [List.mem_cons, not_or] at hzL
    rw [List.cons_append, skipAfterRemoval_of_keep (by simpa using hx),
      skipAfterRemoval_of_keep (by simpa using hx), List.filter_cons_of_pos (by simp [hzL.1]),
      ih hzL.2]

/-- `cleanupAllKeeps` keeps only the non-empty entries exactly when no two adjacent entries
    are empty, but for the last two. -/
theorem cleanupAllKeeps_eq_filter_iff {L : List Nat} (hL : L.Nodup) :
    cleanupAllKeeps mem L = L.filter (fun rc => !(mem.read rc).isEmpty) ↔
      L.dropLast.Chain' fun a b =>
        (mem.read a).isEmpty = false ∨ (mem.read b).isEmpty = false := by
  rcases List.eq_nil_or_concat L with rfl | ⟨L, z, rfl⟩
  · simp [cleanupAllKeeps]
  · simp only [List.concat_eq_append, List.dropLast_concat] at hL ⊢
    cases hz : (mem.read z).isEmpty
    case false =>
      -- a non-empty last entry stays, and it is in no empty pair
      rw [cleanupAllKeeps_of_not (List.getLast?_concat L) (by simp [hz]),
        skipAfterRemoval_eq_filter_iff]
      simp [List.chain'_append, hz]
    case true =>
      have hzL : z ∉ L := by simpa using (List.nodup_append.mp hL).2.2
      rw [cleanupAllKeeps_append_singleton hz hzL]
      simpa [hz] using skipAfterRemoval_eq_filter_iff L

/-- **When the loop removes every empty entry.**  On an agreeing configuration,
    `cleanupAllRegistryConfIfEmpty` leaves exactly the non-empty entries if and only if no two
    adjacent entries of `Registries` are empty, except the last two. -/
theorem cleanupAllRegistryConfIfEmpty_removes_all_iff (hA : rsc.Agree mem) :
    (rsc.cleanupAllRegistryConfIfEmpty mem).registries =
        rsc.registries.filter (fun rc => !(mem.read rc).isEmpty) ↔
      rsc.registries.dropLast.Chain' fun a b =>
        (mem.read a).isEmpty = false ∨ (mem.read b).isEmpty = false := by
  rw [cleanupAllRegistryConfIfEmpty_eq_foldl, foldl_cleanupAllStep_registries hA]
  exact cleanupAllKeeps_eq_filter_iff (hA.nodup.of_map _)

/-- The entries `a` with a mirror, then `b` and `c` empty: the only adjacent empty entries are
    the last two, and both go. -/
theorem cleanupAllRegistryConfIfEmpty_removes_all_iff_abc :
    let mem := (((Heap.empty.alloc
      { newRegistryConf "a" with mirrors := [⟨"mirror.example.com"⟩] }).2.alloc
      (newRegistryConf "b")).2.alloc (newRegistryConf "c")).2
    let rsc := { defaultRegistriesConf with
                 registries := [0, 1, 2]
                 registriesMap := some (locationIndex mem [0, 1, 2]) }
    rsc.Agree mem ∧
      ((rsc.cleanupAllRegistryConfIfEmpty mem).registries =
          rsc.registries.filter (fun rc => !(mem.read rc).isEmpty) ↔
        rsc.registries.dropLast.Chain' fun a b =>
          (mem.read a).isEmpty = false ∨ (mem.read b).isEmpty = false) := by
  intro mem rsc
  have hA : rsc.Agree mem := agree_of_locationIndex (by decide) rfl
  exact ⟨hA, cleanupAllRegistryConfIfEmpty_removes_all_iff hA⟩

/-- **Without two adjacent empty entries the loop removes every empty entry.**  On an
    agreeing configuration whose `Registries` has no two adjacent empty entries,
    `cleanupAllRegistryConfIfEmpty` leaves exactly the non-empty entries, in their order,
    with the map in agreement. -/
theorem cleanupAllRegistryConfIfEmpty_eq_filter (hA : rsc.Agree mem)
    (hadj : rsc.registries.Chain' fun a b =>
      (mem.read a).isEmpty = false ∨ (mem.read b).isEmpty = false) :
    (rsc.cleanupAllRegistryConfIfEmpty mem).registries =
        rsc.registries.filter (fun rc => !(mem.read rc).isEmpty) ∧
      (rsc.cleanupAllRegistryConfIfEmpty mem).Agree mem := by
  refine ⟨?_, cleanupAllRegistryConfIfEmpty_induction (·.Agree mem) hA fun _ r h =>
    h.cleanupRegistryConfIfEmpty r⟩
  rw [cleanupAllRegistryConfIfEmpty_eq_foldl, foldl_cleanupAllStep_registries hA,
    cleanupAllKeeps_eq_filter_iff (hA.nodup.of_map _)]
  exact hadj.infix (List.dropLast_prefix _).isInfix

/-- The entries `a`, `b` and `c` with a mirror given to `b` instead: the empty `a` and `c` are
    not adjacent, and both go. -/
theorem cleanupAllRegistryConfIfEmpty_eq_filter_abc :
    let mem := (((Heap.empty.alloc (newRegistryConf "a")).2.alloc
      { newRegistryConf "b" with mirrors := [⟨"mirror.example.com"⟩] }).2.alloc
      (newRegistryConf "c")).2
    let rsc := { defaultRegistriesConf with
                 registries := [0, 1, 2]
                 registriesMap := some (locationIndex mem [0, 1, 2]) }
    rsc.Agree mem ∧
      rsc.registries.Chain' (fun a b =>
        (mem.read a).isEmpty = false ∨ (mem.read b).isEmpty = false) ∧
      (rsc.cleanupAllRegistryConfIfEmpty mem).registries =
        rsc.registries.filter (fun rc => !(mem.read rc).isEmpty) ∧
      (rsc.cleanupAllRegistryConfIfEmpty mem).Agree mem := by
  intro mem rsc
  have hA : rsc.Agree mem := agree_of_locationIndex (by decide) rfl
  have hadj : rsc.registries.Chain' fun a b =>
      (mem.read a).isEmpty = false ∨ (mem.read b).isEmpty = false := by
    simp only [rsc, List.chain'_cons, List.chain'_singleton, and_true]
    decide
  exact ⟨hA, hadj, cleanupAllRegistryConfIfEmpty_eq_filter hA hadj⟩

end RegistriesConf

end MultiarchTuning
