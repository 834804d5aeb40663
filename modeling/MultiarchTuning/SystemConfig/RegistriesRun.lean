import MultiarchTuning.SystemConfig.CleanupAll
import MultiarchTuning.SystemConfig.RegistriesSpec

namespace MultiarchTuning

/-!
# System config — runs over the registries configuration

The configuration starts as `defaultRegistriesConf` and is then changed by any sequence of
`RegistriesOp`s: getting or creating an entry, writing the fields other than `Location`
through an entry's pointer, and the two cleanups.  The pointer written through may be any
address at all, which covers every entry a caller was ever handed.

* `RegistriesState.Inv` — the invariant: the map is not `nil`, it agrees with `Registries`
  (`RegistriesConf.Agree`), and `Registries` is ordered by creation time, which is the
  allocation order of the heap.
* `RegistriesState.entries` / `RegistriesState.absOp` — the entries the pointers of
  `Registries` lead to, and the operation of `RegistriesSpec` a step stands for.
* `RegistriesState.Inv.step` / `RegistriesState.Inv.run` — no step panics, every step keeps
  the invariant, and every step acts on the entries as its abstract operation; so every run
  does.
* `registries_invariant` — hence every run from the default configuration succeeds, and
  after it the two structures represent one insertion-ordered map, on which
  `getRegistryConfOrCreate` returns the existing entry or creates and appends one.
* `registries_refine` — the code refines `RegistriesSpec`: after every run the entries are
  a list the abstract operations reach, and every next step of the code is an abstract step.
* `getRegistryConfOrCreate_then_cleanup` — after every run, getting or creating the entry of
  a location and then cleaning it up is the cleanup alone, on the struct and on the entries.
* `cleanupAll_keeps_empty_successor` — on a reachable configuration, the aliased `range`
  of `cleanupAllRegistryConfIfEmpty` skips the entry that follows a removed one.
-/

/-- What the code filling `registries.conf` does to it. -/
inductive RegistriesOp
  | getRegistryConfOrCreate (registry : String)
  /-- Writes through the pointer `rc` every field but `Location`. -/
  | setFields (rc : Nat) (prefix_ : String) (mirrors : List Mirror)
      (blocked allowed insecure : Option Bool)
  | cleanupRegistryConfIfEmpty (registry : String)
  | cleanupAllRegistryConfIfEmpty

/-- The configuration with the heap its pointers refer to. -/
structure RegistriesState where
  conf : RegistriesConf
  mem : Heap RegistryConf

namespace RegistriesState

/-- `defaultRegistriesConf()` before any entry is allocated. -/
def init : RegistriesState := ⟨defaultRegistriesConf, Heap.empty⟩

/-- One operation; `none` is a panic. -/
def step (s : RegistriesState) : RegistriesOp → Option RegistriesState
  | .getRegistryConfOrCreate r =>
    (s.conf.getRegistryConfOrCreate s.mem r).map fun res => ⟨res.2.1, res.2.2⟩
  | .setFields rc p ms b a i =>
    some { s with
      mem := s.mem.write rc
        { s.mem.read rc with prefix_ := p, mirrors := ms, blocked := b, allowed := a, insecure := i } }
  | .cleanupRegistryConfIfEmpty r => some { s with conf := s.conf.cleanupRegistryConfIfEmpty s.mem r }
  | .cleanupAllRegistryConfIfEmpty => some { s with conf := s.conf.cleanupAllRegistryConfIfEmpty s.mem }

/-- A run of operations, stopped by the first panic. -/
def run (s : RegistriesState) : List RegistriesOp → Option RegistriesState
  | [] => some s
  | op :: ops => (s.step op).bind fun s' => s'.run ops

/-- The entries of the configuration, read through the pointers of `Registries`. -/
def entries (s : RegistriesState) : List RegistryConf := s.conf.registries.map s.mem.read

/-- The abstract operation `op` performs in `s`.  A write through a pointer writes the entry
    of the pointer's location when the pointer is to an entry of `Registries`, and no entry
    otherwise. -/
def absOp (s : RegistriesState) : RegistriesOp → RegistriesSpec.Op
  | .getRegistryConfOrCreate r => .getOrCreate r
  | .setFields rc p ms b a i =>
    if rc ∈ s.conf.registries then .setFields (s.mem.read rc).location p ms b a i else .skip
  | .cleanupRegistryConfIfEmpty r => .cleanup r
  | .cleanupAllRegistryConfIfEmpty => .cleanupAll

/-- The invariant of every reachable configuration. -/
structure Inv (s : RegistriesState) : Prop where
  map_isSome : s.conf.registriesMap.isSome
  agree : s.conf.Agree s.mem
  sorted : s.conf.registries.Sorted (· < ·)
  lt_next : ∀ rc ∈ s.conf.registries, rc < s.mem.next

variable {s : RegistriesState}

theorem inv_init : init.Inv where
  map_isSome := rfl
  agree := ⟨List.nodup_nil, fun r rc => by simp [init, defaultRegistriesConf,
    RegistriesConf.getRegistryConf]⟩
  sorted := List.sorted_nil
  lt_next := fun _ h => absurd h (List.not_mem_nil _)

theorem reachable_init : RegistriesSpec.Reachable init.entries := .nil

/-- A cleanup keeps the invariant: it only drops entries and keys. -/
theorem Inv.cleanupRegistryConfIfEmpty (hI : s.Inv) (r : String) :
    (⟨s.conf.cleanupRegistryConfIfEmpty s.mem r, s.mem⟩ : RegistriesState).Inv := by
  have hsub := RegistriesConf.registries_cleanupRegistryConfIfEmpty_sublist hI.agree r
  exact ⟨by simpa using hI.map_isSome, hI.agree.cleanupRegistryConfIfEmpty r,
    hI.sorted.sublist hsub, fun rc h => hI.lt_next rc (hsub.subset h)⟩

/-! ### The entries under each operation -/

/-- A new entry is appended at the next address, which no entry has. -/
theorem map_read_alloc {L : List Nat} {mem : Heap RegistryConf} (hnext : ∀ p ∈ L, p < mem.next)
    (x : RegistryConf) : (L ++ [mem.next]).map (mem.alloc x).2.read = L.map mem.read ++ [x] := by
  rw [List.map_append, List.map_congr_left fun p hp => Heap.read_alloc_of_lt mem x (hnext p hp)]
  simp

/-- A write through the pointer to an entry writes the entry of its location. -/
theorem map_read_write_of_mem {rsc : RegistriesConf} {mem : Heap RegistryConf}
    (hA : rsc.Agree mem) {rc : Nat} (hrc : rc ∈ rsc.registries) (p : String) (ms : List Mirror)
    (b a i : Option Bool) :
    rsc.registries.map (mem.write rc
        { mem.read rc with prefix_ := p, mirrors := ms, blocked := b, allowed := a,
                           insecure := i }).read =
      RegistriesSpec.setFields (rsc.registries.map mem.read) (mem.read rc).location p ms b a i := by
  rw [RegistriesSpec.setFields, List.map_map]
  refine List.map_congr_left fun q hq => ?_
  by_cases hq' : q = rc
  · subst hq'; simp
  · simp only [Function.comp_apply, Heap.read_write, if_neg hq',
      if_neg fun hloc => hq' (hA.eq_of_location hq hrc hloc)]

/-- A write through a pointer to no entry changes no entry. -/
theorem map_read_write_of_not_mem {L : List Nat} {mem : Heap RegistryConf} {rc : Nat}
    (hrc : rc ∉ L) (x : RegistryConf) : L.map (mem.write rc x).read = L.map mem.read :=
  List.map_congr_left fun q hq => by rw [Heap.read_write, if_neg fun (h : q = rc) => hrc (h ▸ hq)]

/-- A cleanup acts on the entries as the abstract cleanup. -/
theorem map_read_cleanupRegistryConfIfEmpty {rsc : RegistriesConf} {mem : Heap RegistryConf}
    (hA : rsc.Agree mem) (r : String) :
    (rsc.cleanupRegistryConfIfEmpty mem r).registries.map mem.read =
      RegistriesSpec.cleanup (rsc.registries.map mem.read) r := by
  by_cases hex : ∃ rc, rsc.getRegistryConf r = some rc ∧ (mem.read rc).isEmpty = true
  · -- the entry at `r` is dropped, and no other entry is at `r`
    obtain ⟨rc, hget, hempty⟩ := hex
    obtain ⟨l₁, l₂, hsplit, h⟩ := RegistriesConf.cleanupRegistryConfIfEmpty_of_isEmpty hA hget hempty
    have hrc := hA.not_mem_of_eq_append hsplit
    have hsub : List.Sublist (l₁ ++ l₂) rsc.registries :=
      hsplit ▸ (List.sublist_cons_self rc l₂).append_left l₁
    obtain ⟨hrcL, hloc⟩ := (hA.getRegistryConf_eq_some r rc).mp hget
    rw [h, hsplit]
    simp only [List.map_append, List.map_cons]
    rw [RegistriesSpec.cleanup_append_cons ?_ hloc hempty]
    intro e he hl
    rw [← List.map_append] at he
    obtain ⟨q, hq, rfl⟩ := List.mem_map.mp he
    exact hrc (hA.eq_of_location (hsub.subset hq) hrcL (hl.trans hloc.symm) ▸ hq)
  · -- no entry at `r` is empty, and nothing changes
    have hkeep : ∀ rc, rsc.getRegistryConf r = some rc → (mem.read rc).isEmpty = false :=
      fun rc hget => by simpa using fun hempty => hex ⟨rc, hget, hempty⟩
    rw [RegistriesConf.cleanupRegistryConfIfEmpty_of_keep hkeep, RegistriesSpec.cleanup_of_forall]
    rintro _ he hloc
    obtain ⟨q, hq, rfl⟩ := List.mem_map.mp he
    exact hkeep q ((hA.getRegistryConf_eq_some r q).mpr ⟨hq, hloc⟩)

/-! ### Steps and runs -/

/-- **Step lemma.**  No operation panics on a reachable configuration; each keeps the
    invariant, and acts on the entries as the abstract operation it stands for. -/
theorem Inv.step (hI : s.Inv) (op : RegistriesOp) :
    ∃ s', s.step op = some s' ∧ s'.Inv ∧ RegistriesSpec.Step s.entries (s.absOp op) s'.entries := by
  cases op with
  | getRegistryConfOrCreate r =>
    cases hget : s.conf.getRegistryConf r with
    | some rc =>
      refine ⟨s, ?_, hI, ?_⟩
      · rw [RegistriesState.step, RegistriesConf.getRegistryConfOrCreate_of_getRegistryConf hget]
        rfl
      · obtain ⟨hrc, hloc⟩ := (hI.agree.getRegistryConf_eq_some r rc).mp hget
        convert RegistriesSpec.Step.getOrCreate s.entries r using 1
        exact (RegistriesSpec.getOrCreate_of_mem
          (List.mem_map.mpr ⟨_, List.mem_map_of_mem _ hrc, hloc⟩)).symm
    | none =>
      obtain ⟨f, hf⟩ := Option.isSome_iff_exists.mp hI.map_isSome
      have hset : s.conf.registriesMap.set r s.mem.next =
          some (some (Function.update f r (some s.mem.next))) := by rw [hf]; rfl
      have hres := @RegistriesConf.getRegistryConfOrCreate_of_getRegistryConf_eq_none _ s.mem _ hget
      rw [hset, Option.map_some'] at hres
      -- no entry is at `r`
      have hfresh : r ∉ s.entries.map (·.location) := fun h => by
        obtain ⟨_, he, hloc⟩ := List.mem_map.mp h
        obtain ⟨p, hp, rfl⟩ := List.mem_map.mp he
        simpa [hget] using (hI.agree.getRegistryConf_eq_some r p).mpr ⟨hp, hloc⟩
      refine ⟨⟨{ s.conf with
          registries := s.conf.registries ++ [s.mem.next]
          registriesMap := some (Function.update f r (some s.mem.next)) },
        (s.mem.alloc (RegistriesConf.newRegistryConf r)).2⟩,
        by simp only [RegistriesState.step, hres, Option.map_some'], ⟨rfl,
        hI.agree.getRegistryConfOrCreate hI.lt_next hres, ?_, ?_⟩, ?_⟩
      · simpa [List.Sorted, List.pairwise_append] using
          ⟨hI.sorted, fun rc h => hI.lt_next rc h⟩
      · intro rc h
        rcases List.mem_append.mp h with h | h
        · exact Nat.lt_succ_of_lt (hI.lt_next rc h)
        · simp_all
      · convert RegistriesSpec.Step.getOrCreate s.entries r using 1
        rw [RegistriesSpec.getOrCreate_of_not_mem hfresh]
        exact map_read_alloc hI.lt_next _
  | setFields rc p ms b a i =>
    refine ⟨_, rfl, ⟨hI.map_isSome, hI.agree.of_location_eq fun x => ?_, hI.sorted, hI.lt_next⟩,
      ?_⟩
    · simp only [Heap.read_write]
      split_ifs with hx <;> simp [hx]
    · simp only [absOp]
      split_ifs with hrc
      · convert RegistriesSpec.Step.setFields s.entries _ p ms b a i using 1
        exact map_read_write_of_mem hI.agree hrc p ms b a i
      · convert RegistriesSpec.Step.skip s.entries using 1
        exact map_read_write_of_not_mem hrc _
  | cleanupRegistryConfIfEmpty r =>
    refine ⟨_, rfl, hI.cleanupRegistryConfIfEmpty r, ?_⟩
    convert RegistriesSpec.Step.cleanup s.entries r using 1
    exact map_read_cleanupRegistryConfIfEmpty hI.agree r
  | cleanupAllRegistryConfIfEmpty =>
    obtain ⟨hsub, hkeep⟩ := RegistriesConf.registries_cleanupAllRegistryConfIfEmpty hI.agree
    refine ⟨_, rfl, RegistriesConf.cleanupAllRegistryConfIfEmpty_induction
      (fun c => (⟨c, s.mem⟩ : RegistriesState).Inv) hI fun _ r h => h.cleanupRegistryConfIfEmpty r,
      .cleanupAll (hsub.map _) fun e he hne => ?_⟩
    obtain ⟨q, hq, rfl⟩ := List.mem_map.mp he
    exact List.mem_map_of_mem _ (hkeep q hq hne)

/-- **Run lemma.** -/
theorem Inv.run (hI : s.Inv) (hR : RegistriesSpec.Reachable s.entries) (ops : List RegistriesOp) :
    ∃ s', s.run ops = some s' ∧ s'.Inv ∧ RegistriesSpec.Reachable s'.entries := by
  induction ops generalizing s with
  | nil => exact ⟨s, rfl, hI, hR⟩
  | cons op ops ih =>
    obtain ⟨s₁, h₁, hI₁, hs⟩ := hI.step op
    simpa only [RegistriesState.run, h₁, Option.some_bind] using ih hI₁ (hR.step hs)

open RegistriesConf in
/-- **Creating an entry and cleaning it up is the cleanup alone.**  From a configuration with
    the invariant, `getRegistryConfOrCreate r` followed by `cleanupRegistryConfIfEmpty r`
    leaves the struct and the entries that the cleanup alone leaves; the heap keeps the new
    entry, to which nothing points. -/
theorem Inv.run_getRegistryConfOrCreate_cleanup (hI : s.Inv) (r : String) :
    ∃ s₁ s₂, s.run [.getRegistryConfOrCreate r, .cleanupRegistryConfIfEmpty r] = some s₁ ∧
      s.run [.cleanupRegistryConfIfEmpty r] = some s₂ ∧ s₁.conf = s₂.conf ∧
      s₁.entries = s₂.entries := by
  have hrun₂ : s.run [.cleanupRegistryConfIfEmpty r] =
      some ⟨s.conf.cleanupRegistryConfIfEmpty s.mem r, s.mem⟩ := rfl
  cases hget : s.conf.getRegistryConf r with
  | some rc =>
    -- the entry exists: the first call hands it back and changes nothing
    refine ⟨_, _, ?_, hrun₂, rfl, rfl⟩
    simp [RegistriesState.run, RegistriesState.step,
      getRegistryConfOrCreate_of_getRegistryConf hget]
  | none =>
    -- a fresh empty entry is appended and indexed, then spliced out and unindexed
    obtain ⟨f, hf⟩ := Option.isSome_iff_exists.mp hI.map_isSome
    have hfr : f r = none := by simpa [getRegistryConf, GoMap.get?, hf] using hget
    have hnot : s.mem.next ∉ s.conf.registries := fun h => lt_irrefl _ (hI.lt_next _ h)
    have hcreate := @getRegistryConfOrCreate_of_getRegistryConf_eq_none _ s.mem _ hget
    rw [hf] at hcreate
    have hclean := @cleanupRegistryConfIfEmptyIn_of_isEmpty
      { s.conf with registriesMap := some (Function.update f r (some s.mem.next)),
                    registries := s.conf.registries ++ [s.mem.next] }
      (s.mem.alloc (newRegistryConf r)).2 (s.conf.registries ++ [s.mem.next]) r s.mem.next
      s.conf.registries [] (by simp [getRegistryConf, GoMap.get?]) (by simp) rfl hnot
      (List.prefix_refl _)
    have hkeep : s.conf.cleanupRegistryConfIfEmpty s.mem r = s.conf :=
      cleanupRegistryConfIfEmpty_of_keep (by simp [hget])
    refine ⟨⟨s.conf, (s.mem.alloc (newRegistryConf r)).2⟩, _, ?_, hrun₂, hkeep.symm, ?_⟩
    · have hset : GoMap.set (some f) r s.mem.next =
          some (some (Function.update f r (some s.mem.next))) := rfl
      have hdel : Function.update (Function.update f r (some s.mem.next)) r none = f := by
        rw [Function.update_idem, Function.update_eq_self_iff, hfr]
      simp only [RegistriesState.run, RegistriesState.step, hcreate, hset, Option.map_some',
        Option.some_bind, RegistriesConf.cleanupRegistryConfIfEmpty, hclean, GoMap.delete, hdel,
        List.append_nil]
      rw [← hf]
    · simp only [entries, hkeep]
      exact List.map_congr_left fun p hp => Heap.read_alloc_of_lt _ _ (hI.lt_next p hp)

end RegistriesState

open RegistriesState in
/-- **The registries form an insertion-ordered map after every run.**  From
    `defaultRegistriesConf`, every run of operations ends without a write into a `nil` map;
    the locations in `Registries` are distinct, `registriesMap` holds exactly those keys and
    maps each to its entry, `Registries` is in creation order (addresses are handed out in
    increasing order), and `getRegistryConfOrCreate r` returns the existing entry for `r`
    when there is one, and otherwise creates the next entry and appends it. -/
theorem registries_invariant (ops : List RegistriesOp) :
    ∃ s, init.run ops = some s ∧
      s.conf.registriesMap.isSome ∧
      (s.conf.registries.map fun rc => (s.mem.read rc).location).Nodup ∧
      (∀ r rc, s.conf.registriesMap.get? r = some rc ↔
        rc ∈ s.conf.registries ∧ (s.mem.read rc).location = r) ∧
      s.conf.registries.Sorted (· < ·) ∧ (∀ rc ∈ s.conf.registries, rc < s.mem.next) ∧
      ∀ r, (∀ rc ∈ s.conf.registries, (s.mem.read rc).location = r →
              s.conf.getRegistryConfOrCreate s.mem r = some (rc, s.conf, s.mem)) ∧
        ((∀ rc ∈ s.conf.registries, (s.mem.read rc).location ≠ r) →
          ∃ conf mem, s.conf.getRegistryConfOrCreate s.mem r = some (s.mem.next, conf, mem) ∧
            conf.registries = s.conf.registries ++ [s.mem.next] ∧
            mem.read s.mem.next = RegistriesConf.newRegistryConf r) := by
  obtain ⟨s, hrun, hI, -⟩ := inv_init.run reachable_init ops
  refine ⟨s, hrun, hI.map_isSome, hI.agree.nodup, hI.agree.getRegistryConf_eq_some, hI.sorted,
    hI.lt_next, fun r => ⟨fun rc hrc hloc => ?_, fun hnone => ?_⟩⟩
  · exact RegistriesConf.getRegistryConfOrCreate_of_getRegistryConf
      ((hI.agree.getRegistryConf_eq_some r rc).mpr ⟨hrc, hloc⟩)
  · have hget : s.conf.getRegistryConf r = none := by
      cases h : s.conf.getRegistryConf r with
      | none => rfl
      | some rc =>
        obtain ⟨hrc, hloc⟩ := (hI.agree.getRegistryConf_eq_some r rc).mp h
        exact absurd hloc (hnone rc hrc)
    obtain ⟨f, hf⟩ := Option.isSome_iff_exists.mp hI.map_isSome
    rw [RegistriesConf.getRegistryConfOrCreate_of_getRegistryConf_eq_none hget, hf]
    exact ⟨_, _, rfl, rfl, by simp⟩

open RegistriesState in
/-- **The code refines the abstract configuration.**  Every run from `defaultRegistriesConf`
    succeeds, and the entries it leaves, read through the pointers of `Registries`, are a list
    that the operations of `RegistriesSpec` reach.  From there every operation of the code acts
    on the entries as the abstract operation it stands for. -/
theorem registries_refine (ops : List RegistriesOp) :
    ∃ s, init.run ops = some s ∧ RegistriesSpec.Reachable s.entries ∧
      ∀ op, ∃ s', s.step op = some s' ∧ RegistriesSpec.Step s.entries (s.absOp op) s'.entries := by
  obtain ⟨s, hrun, hI, hR⟩ := inv_init.run reachable_init ops
  exact ⟨s, hrun, hR, fun op => (hI.step op).imp fun _ h => ⟨h.1, h.2.2⟩⟩

open RegistriesState in
/-- **Probing a location leaves no trace.**  After any run from `defaultRegistriesConf`,
    calling `getRegistryConfOrCreate r` and then `cleanupRegistryConfIfEmpty r` succeeds, and
    leaves the configuration and the entries it points to as the cleanup alone leaves them: an
    entry created only to be found empty goes with its key. -/
theorem getRegistryConfOrCreate_then_cleanup (ops : List RegistriesOp) (r : String) :
    ∃ s, init.run ops = some s ∧ ∃ s₁ s₂,
      s.run [.getRegistryConfOrCreate r, .cleanupRegistryConfIfEmpty r] = some s₁ ∧
        s.run [.cleanupRegistryConfIfEmpty r] = some s₂ ∧ s₁.conf = s₂.conf ∧
        s₁.entries = s₂.entries := by
  obtain ⟨s, hrun, hI, -⟩ := inv_init.run reachable_init ops
  exact ⟨s, hrun, hI.run_getRegistryConfOrCreate_cleanup r⟩

open RegistriesState in
/-- The entries `a`, `b` and `c` created in turn, with a mirror given to `c`: `a` and `b` are
    empty and adjacent.  `cleanupAllRegistryConfIfEmpty` removes `a` at index 0; the splice
    moves `b` to index 0, the loop goes on at index 1 and never reads `b`, which stays. -/
theorem cleanupAll_keeps_empty_successor :
    ∃ s, init.run [.getRegistryConfOrCreate "a", .getRegistryConfOrCreate "b",
        .getRegistryConfOrCreate "c", .setFields 2 "" [⟨"mirror.example.com"⟩] none none none] =
        some s ∧
      s.conf.Agree s.mem ∧ s.conf.registries = [0, 1, 2] ∧
      (s.mem.read 0).isEmpty ∧ (s.mem.read 1).isEmpty ∧ (s.mem.read 2).isEmpty = false ∧
      (s.conf.cleanupAllRegistryConfIfEmpty s.mem).registries = [1, 2] := by
  obtain ⟨s, hrun, hI, -⟩ := inv_init.run reachable_init [.getRegistryConfOrCreate "a",
    .getRegistryConfOrCreate "b", .getRegistryConfOrCreate "c",
    .setFields 2 "" [⟨"mirror.example.com"⟩] none none none]
  have hval := congrArg (Option.map fun s : RegistriesState =>
      (s.conf.registries, (s.mem.read 0).isEmpty, (s.mem.read 1).isEmpty, (s.mem.read 2).isEmpty,
        (s.conf.cleanupAllRegistryConfIfEmpty s.mem).registries)) hrun
  rw [(by decide : (init.run [.getRegistryConfOrCreate "a", .getRegistryConfOrCreate "b",
    .getRegistryConfOrCreate "c", .setFields 2 "" [⟨"mirror.example.com"⟩] none none none]).map
      (fun s : RegistriesState => (s.conf.registries, (s.mem.read 0).isEmpty,
        (s.mem.read 1).isEmpty, (s.mem.read 2).isEmpty,
        (s.conf.cleanupAllRegistryConfIfEmpty s.mem).registries)) =
      some ([0, 1, 2], true, true, false, [1, 2]))] at hval
  simp only [Option.map_some', Option.some.injEq, Prod.mk.injEq] at hval
  exact ⟨s, hrun, hI.agree, hval.1.symm, hval.2.1.symm, hval.2.2.1.symm, hval.2.2.2.1.symm,
    hval.2.2.2.2.symm⟩

end MultiarchTuning
