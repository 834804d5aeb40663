import MultiarchTuning.Go.Memory

namespace MultiarchTuning

/-!
# System config — the registries configuration

`registriesConf` is the content of `registries.conf`: the registry entries in the order
they were created (`Registries`, a slice of pointers) and an index of the same entries by
location (`registriesMap`).  Callers get an entry with `getRegistryConfOrCreate`, fill in
its fields through the pointer, and finally drop the entries left empty.

* `RegistriesConf.cleanupRegistryConfIfEmptyIn` — `cleanupRegistryConfIfEmpty` on a
  `Registries` slice given with its backing array: the splice that removes the entry writes
  into that array.  `cleanupRegistryConfIfEmpty` is the method as called on its own.
* `RegistriesConf.cleanupAllRegistryConfIfEmpty` — the `range` loop over `Registries`,
  which keeps reading the backing array that its body shifts; the loop is studied in
  `SystemConfig.CleanupAll`.
* `RegistriesConf.Agree` — `Registries` and `registriesMap` describe one map from
  locations to entries.  `cleanupRegistryConfIfEmpty_spec` says what one cleanup does on
  such a configuration, and `getRegistryConfOrCreate` keeps the agreement.
-/

/-- `Mirror`. -/
structure Mirror where
  location : String
deriving DecidableEq

/-- `mirrorFor`. -/
def mirrorFor (location : String) : Mirror := ⟨location⟩

/-- `mirrorsFor`; Go returns a `nil` slice for no locations, which has length `0` too. -/
def mirrorsFor (locations : List String) : List Mirror := locations.map mirrorFor

/-- `registryConf`; `prefix_` is the field `Prefix`. -/
structure RegistryConf where
  location : String
  prefix_ : String
  mirrors : List Mirror
  blocked : Option Bool
  allowed : Option Bool
  insecure : Option Bool
deriving DecidableEq, Inhabited

/-- The test of `cleanupRegistryConfIfEmpty`: no flag is set and there is no mirror (the
    prefix is not looked at). -/
def RegistryConf.isEmpty (rc : RegistryConf) : Bool :=
  rc.insecure.isNone && rc.allowed.isNone && rc.blocked.isNone && rc.mirrors.length == 0

/-- `registriesConf`.  `registries` holds the addresses of the entries on the heap
    (`[]*registryConf`), and `registriesMap` is `map[string]*registryConf`. -/
structure RegistriesConf where
  unqualifiedSearchRegistries : List String
  shortNameMode : String
  registries : List Nat
  registriesMap : GoMap String Nat

/-- `defaultRegistriesConf`. -/
def defaultRegistriesConf : RegistriesConf where
  unqualifiedSearchRegistries := ["registry.access.redhat.com", "docker.io"]
  shortNameMode := ""
  registries := []
  registriesMap := GoMap.make

namespace RegistriesConf

/-- `(*registriesConf).getRegistryConf`: `rc, ok := rsc.registriesMap[registry]`. -/
def getRegistryConf (rsc : RegistriesConf) (registry : String) : Option Nat :=
  rsc.registriesMap.get? registry

/-- `&registryConf{Location: registry}`. -/
def newRegistryConf (registry : String) : RegistryConf where
  location := registry
  prefix_ := ""
  mirrors := []
  blocked := none
  allowed := none
  insecure := none

/-- `(*registriesConf).getRegistryConfOrCreate`: the entry's address with the new struct and
    heap; `none` is the panic of a write into a `nil` map. -/
def getRegistryConfOrCreate (rsc : RegistriesConf) (mem : Heap RegistryConf)
    (registry : String) : Option (Nat × RegistriesConf × Heap RegistryConf) :=
  match rsc.registriesMap.get? registry with
  | some rc => some (rc, rsc, mem)
  | none =>
    let (rc, mem) := mem.alloc (newRegistryConf registry)
    (rsc.registriesMap.set registry rc).map fun m =>
      (rc, { rsc with registriesMap := m, registries := rsc.registries ++ [rc] }, mem)

/-- `(*registriesConf).cleanupRegistryConfIfEmpty` on a struct whose `Registries` slice is
    the first `rsc.registries.length` elements of the backing array `buf`.  Returns the new
    struct and the new content of `buf`. -/
def cleanupRegistryConfIfEmptyIn (rsc : RegistriesConf) (mem : Heap RegistryConf)
    (buf : List Nat) (registry : String) : RegistriesConf × List Nat :=
  match rsc.getRegistryConf registry with
  | none => (rsc, buf)
  | some rc =>
    if (mem.read rc).isEmpty then
      let rsc := { rsc with registriesMap := rsc.registriesMap.delete registry }
      match rsc.registries.findIdx? (· == rc) with
      | none => (rsc, buf)
      | some i =>
        let buf := spliceOut buf rsc.registries.length i
        ({ rsc with registries := buf.take (rsc.registries.length - 1) }, buf)
    else (rsc, buf)

/-- `(*registriesConf).cleanupRegistryConfIfEmpty`. -/
def cleanupRegistryConfIfEmpty (rsc : RegistriesConf) (mem : Heap RegistryConf)
    (registry : String) : RegistriesConf :=
  (rsc.cleanupRegistryConfIfEmptyIn mem rsc.registries registry).1

/-- One iteration of the `range` loop of `cleanupAllRegistryConfIfEmpty`, at index `i`, on
    the struct and the backing array of its `Registries`:
    `rsc.cleanupRegistryConfIfEmpty(registry.Location)` for the entry the array holds at `i`. -/
def cleanupAllStep (mem : Heap RegistryConf) (st : RegistriesConf × List Nat) (i : Nat) :
    RegistriesConf × List Nat :=
  match st.2[i]? with
  | some registry => st.1.cleanupRegistryConfIfEmptyIn mem st.2 (mem.read registry).location
  | none => st

/-- `(*registriesConf).cleanupAllRegistryConfIfEmpty`.  `range` evaluates `rsc.Registries`
    once: it runs over the indices of the slice as it was, and at each index reads the
    backing array as the previous iterations left it. -/
def cleanupAllRegistryConfIfEmpty (rsc : RegistriesConf) (mem : Heap RegistryConf) :
    RegistriesConf :=
  ((List.range rsc.registries.length).foldl (cleanupAllStep mem) (rsc, rsc.registries)).1

/-! ### Agreement of the slice and the map -/

variable {rsc : RegistriesConf} {mem : Heap RegistryConf}

@[simp] theorem location_newRegistryConf (r : String) : (newRegistryConf r).location = r := rfl

@[simp] theorem isEmpty_newRegistryConf (r : String) : (newRegistryConf r).isEmpty = true := rfl

/-- `Registries` and `registriesMap` describe one map from locations to entries: the entries'
    locations are pairwise distinct, the map sends each entry's location to the entry, and it
    has no other keys. -/
structure Agree (rsc : RegistriesConf) (mem : Heap RegistryConf) : Prop where
  nodup : (rsc.registries.map fun rc => (mem.read rc).location).Nodup
  getRegistryConf_eq_some : ∀ registry rc,
    rsc.getRegistryConf registry = some rc ↔ rc ∈ rsc.registries ∧ (mem.read rc).location = registry

/-- Two entries with one location are the same entry. -/
theorem Agree.eq_of_location (hA : rsc.Agree mem) {p q : Nat} (hp : p ∈ rsc.registries)
    (hq : q ∈ rsc.registries) (hpq : (mem.read p).location = (mem.read q).location) : p = q := by
  have h₁ := (hA.getRegistryConf_eq_some _ p).mpr ⟨hp, hpq⟩
  rw [(hA.getRegistryConf_eq_some _ q).mpr ⟨hq, rfl⟩] at h₁
  exact (Option.some.inj h₁).symm

/-- An entry stands once in `Registries`. -/
theorem Agree.not_mem_of_eq_append (hA : rsc.Agree mem) {l₁ l₂ : List Nat} {rc : Nat}
    (hsplit : rsc.registries = l₁ ++ rc :: l₂) : rc ∉ l₁ ++ l₂ := by
  have hnd := List.Nodup.of_map _ hA.nodup
  rw [hsplit, List.nodup_middle] at hnd
  exact (List.nodup_cons.mp hnd).1

/-- Agreement reads only the entries' locations. -/
theorem Agree.of_location_eq {mem' : Heap RegistryConf} (hA : rsc.Agree mem)
    (hloc : ∀ a, (mem'.read a).location = (mem.read a).location) : rsc.Agree mem' where
  nodup := by simpa only [hloc] using hA.nodup
  getRegistryConf_eq_some r rc := by rw [hloc]; exact hA.getRegistryConf_eq_some r rc

/-- The index by location of the entries `registries`: the first entry at each location. -/
def locationIndex (mem : Heap RegistryConf) (registries : List Nat) (registry : String) :
    Option Nat :=
  registries.find? fun rc => (mem.read rc).location == registry

/-- A map that is the index of a slice with distinct locations agrees with the slice. -/
theorem agree_of_locationIndex
    (hnd : (rsc.registries.map fun rc => (mem.read rc).location).Nodup)
    (hmap : rsc.registriesMap = some (locationIndex mem rsc.registries)) : rsc.Agree mem := by
  refine ⟨hnd, fun r rc => ?_⟩
  simp only [getRegistryConf, hmap, GoMap.get?, Option.some_bind, locationIndex]
  constructor
  · intro h
    exact ⟨List.mem_of_find?_eq_some h, by simpa using List.find?_some h⟩
  · rintro ⟨hrc, rfl⟩
    obtain ⟨b, hb⟩ := Option.isSome_iff_exists.mp
      (List.find?_isSome.mpr ⟨rc, hrc, by simp⟩ : (rsc.registries.find? fun x =>
        (mem.read x).location == (mem.read rc).location).isSome)
    rw [hb, List.inj_on_of_nodup_map hnd (List.mem_of_find?_eq_some hb) hrc
      (by simpa using List.find?_some hb)]

/-- Dropping an entry together with its location's key keeps the agreement. -/
theorem Agree.erase (hA : rsc.Agree mem) {l₁ l₂ : List Nat} {rc : Nat}
    (hsplit : rsc.registries = l₁ ++ rc :: l₂) :
    ({ rsc with
        registriesMap := rsc.registriesMap.delete (mem.read rc).location
        registries := l₁ ++ l₂ } : RegistriesConf).Agree mem := by
  have hsub : List.Sublist (l₁ ++ l₂) rsc.registries :=
    hsplit ▸ (List.sublist_cons_self rc l₂).append_left l₁
  have hrc := hA.not_mem_of_eq_append hsplit
  refine ⟨hA.nodup.sublist (hsub.map _), fun r p => ?_⟩
  simp only [getRegistryConf, GoMap.get?_delete]
  split_ifs with hr
  · refine iff_of_false (by simp) fun ⟨hp, hloc⟩ => hrc ?_
    rwa [← hA.eq_of_location (hsub.subset hp) (by simp [hsplit]) (hloc.trans hr)]
  · rw [← getRegistryConf, hA.getRegistryConf_eq_some, hsplit]
    simp only [List.mem_append, List.mem_cons]
    constructor
    · rintro ⟨hp | rfl | hp, hloc⟩
      exacts [⟨.inl hp, hloc⟩, absurd hloc.symm hr, ⟨.inr hp, hloc⟩]
    · rintro ⟨hp | hp, hloc⟩
      exacts [⟨.inl hp, hloc⟩, ⟨.inr (.inr hp), hloc⟩]

/-! ### One cleanup -/

/-- A cleanup of a location that is no key, or whose entry is not empty, changes neither the
    struct nor the backing array. -/
theorem cleanupRegistryConfIfEmptyIn_of_keep {buf : List Nat} {r : String}
    (hkeep : ∀ rc, rsc.getRegistryConf r = some rc → (mem.read rc).isEmpty = false) :
    rsc.cleanupRegistryConfIfEmptyIn mem buf r = (rsc, buf) := by
  unfold cleanupRegistryConfIfEmptyIn
  cases hget : rsc.getRegistryConf r with
  | none => rfl
  | some rc => simp only [hkeep rc hget, Bool.false_eq_true, if_false]

theorem cleanupRegistryConfIfEmpty_of_keep {r : String}
    (hkeep : ∀ rc, rsc.getRegistryConf r = some rc → (mem.read rc).isEmpty = false) :
    rsc.cleanupRegistryConfIfEmpty mem r = rsc :=
  congrArg Prod.fst (cleanupRegistryConfIfEmptyIn_of_keep hkeep)

/-- A cleanup of a location whose entry is empty, and stands in `Registries` after the
    entries `l₁`, deletes the key and splices out exactly that entry. -/
theorem cleanupRegistryConfIfEmptyIn_of_isEmpty {buf : List Nat} {r : String} {rc : Nat}
    {l₁ l₂ : List Nat} (hget : rsc.getRegistryConf r = some rc)
    (hempty : (mem.read rc).isEmpty = true) (hsplit : rsc.registries = l₁ ++ rc :: l₂)
    (hnot : rc ∉ l₁) (hbuf : rsc.registries <+: buf) :
    (rsc.cleanupRegistryConfIfEmptyIn mem buf r).1 =
      { rsc with registriesMap := rsc.registriesMap.delete r, registries := l₁ ++ l₂ } := by
  have hfind : rsc.registries.findIdx? (· == rc) = some l₁.length := by
    rw [hsplit, findIdx?_beq_append hnot 0, Nat.zero_add]
  have hlt : l₁.length < rsc.registries.length := by simp [hsplit]
  have herase : rsc.registries.eraseIdx l₁.length = l₁ ++ l₂ := by
    rw [hsplit, List.eraseIdx_append_of_length_le le_rfl, Nat.sub_self]; rfl
  simp only [cleanupRegistryConfIfEmptyIn, hget, hempty, if_true, hfind, take_spliceOut hbuf hlt,
    herase]

/-- On an agreeing configuration the entry of a location stands once in `Registries`. -/
theorem cleanupRegistryConfIfEmpty_of_isEmpty (hA : rsc.Agree mem) {r : String} {rc : Nat}
    (hget : rsc.getRegistryConf r = some rc) (hempty : (mem.read rc).isEmpty = true) :
    ∃ l₁ l₂, rsc.registries = l₁ ++ rc :: l₂ ∧
      rsc.cleanupRegistryConfIfEmpty mem r =
        { rsc with registriesMap := rsc.registriesMap.delete r, registries := l₁ ++ l₂ } := by
  obtain ⟨l₁, l₂, hsplit⟩ := List.append_of_mem ((hA.getRegistryConf_eq_some r rc).mp hget).1
  have hnot : rc ∉ l₁ := fun h => hA.not_mem_of_eq_append hsplit (List.mem_append_left _ h)
  exact ⟨l₁, l₂, hsplit,
    cleanupRegistryConfIfEmptyIn_of_isEmpty hget hempty hsplit hnot (List.prefix_refl _)⟩

/-- What a cleanup can do: nothing, or drop the entry of `r` with its key. -/
theorem cleanupRegistryConfIfEmpty_cases (hA : rsc.Agree mem) (r : String) :
    rsc.cleanupRegistryConfIfEmpty mem r = rsc ∨
      ∃ rc l₁ l₂, rsc.getRegistryConf r = some rc ∧ (mem.read rc).isEmpty = true ∧
        rsc.registries = l₁ ++ rc :: l₂ ∧ rsc.cleanupRegistryConfIfEmpty mem r =
          { rsc with registriesMap := rsc.registriesMap.delete r, registries := l₁ ++ l₂ } := by
  by_cases h : ∃ rc, rsc.getRegistryConf r = some rc ∧ (mem.read rc).isEmpty = true
  · obtain ⟨rc, hget, hempty⟩ := h
    obtain ⟨l₁, l₂, hsplit, heq⟩ := cleanupRegistryConfIfEmpty_of_isEmpty hA hget hempty
    exact .inr ⟨rc, l₁, l₂, hget, hempty, hsplit, heq⟩
  · exact .inl (cleanupRegistryConfIfEmpty_of_keep fun rc hget => by
      simpa using fun hempty => h ⟨rc, hget, hempty⟩)

/-- **What `cleanupRegistryConfIfEmpty r` does** on an agreeing configuration.  When `r` is
    not a key, or its entry is not empty, nothing changes.  Otherwise the key is deleted and
    the entry, found by pointer equality, is spliced out of `Registries`; every other entry
    stays, in its order, and every other key of the map still finds what it found. -/
theorem cleanupRegistryConfIfEmpty_spec (hA : rsc.Agree mem) (r : String) :
    ((∀ rc, rsc.getRegistryConf r = some rc → (mem.read rc).isEmpty = false) →
      rsc.cleanupRegistryConfIfEmpty mem r = rsc) ∧
    ∀ rc, rsc.getRegistryConf r = some rc → (mem.read rc).isEmpty = true →
      (∃ l₁ l₂, rsc.registries = l₁ ++ rc :: l₂ ∧
        rsc.cleanupRegistryConfIfEmpty mem r =
          { rsc with registriesMap := rsc.registriesMap.delete r, registries := l₁ ++ l₂ }) ∧
      (rsc.cleanupRegistryConfIfEmpty mem r).getRegistryConf r = none ∧
      ∀ k, k ≠ r →
        (rsc.cleanupRegistryConfIfEmpty mem r).getRegistryConf k = rsc.getRegistryConf k := by
  refine ⟨cleanupRegistryConfIfEmpty_of_keep, fun _ hget hempty => ?_⟩
  obtain ⟨l₁, l₂, hsplit, heq⟩ := cleanupRegistryConfIfEmpty_of_isEmpty hA hget hempty
  exact ⟨⟨l₁, l₂, hsplit, heq⟩, by simp [heq, getRegistryConf],
    fun k hk => by simp [heq, getRegistryConf, hk]⟩

/-- Three entries, `a` and `c` with a mirror and `b` empty, and the cleanup of the middle one:
    `b` leaves the map and the slice, and `a` and `c` stay in their order. -/
theorem cleanupRegistryConfIfEmpty_spec_abc :
    let mem := (((Heap.empty.alloc
      { newRegistryConf "a" with mirrors := [⟨"mirror.example.com"⟩] }).2.alloc
      (newRegistryConf "b")).2.alloc
      { newRegistryConf "c" with mirrors := [⟨"mirror.example.com"⟩] }).2
    let rsc := { defaultRegistriesConf with
                 registries := [0, 1, 2]
                 registriesMap := some (locationIndex mem [0, 1, 2]) }
    rsc.Agree mem ∧ rsc.getRegistryConf "b" = some 1 ∧ (mem.read 1).isEmpty = true ∧
      (rsc.cleanupRegistryConfIfEmpty mem "b").registries = [0, 2] ∧
      ((∀ rc, rsc.getRegistryConf "b" = some rc → (mem.read rc).isEmpty = false) →
        rsc.cleanupRegistryConfIfEmpty mem "b" = rsc) ∧
      ∀ rc, rsc.getRegistryConf "b" = some rc → (mem.read rc).isEmpty = true →
        (∃ l₁ l₂, rsc.registries = l₁ ++ rc :: l₂ ∧
          rsc.cleanupRegistryConfIfEmpty mem "b" =
            { rsc with registriesMap := rsc.registriesMap.delete "b", registries := l₁ ++ l₂ }) ∧
        (rsc.cleanupRegistryConfIfEmpty mem "b").getRegistryConf "b" = none ∧
        ∀ k, k ≠ "b" →
          (rsc.cleanupRegistryConfIfEmpty mem "b").getRegistryConf k = rsc.getRegistryConf k := by
  intro mem rsc
  have hA : rsc.Agree mem := agree_of_locationIndex (by decide) rfl
  exact ⟨hA, by decide, by decide, by decide, cleanupRegistryConfIfEmpty_spec hA "b"⟩

/-- One cleanup keeps the agreement. -/
theorem Agree.cleanupRegistryConfIfEmpty (hA : rsc.Agree mem) (r : String) :
    (rsc.cleanupRegistryConfIfEmpty mem r).Agree mem := by
  rcases cleanupRegistryConfIfEmpty_cases hA r with h | ⟨rc, l₁, l₂, hget, -, hsplit, h⟩
  · rwa [h]
  · rw [h, ← ((hA.getRegistryConf_eq_some r rc).mp hget).2]
    exact hA.erase hsplit

/-- A cleanup only drops entries. -/
theorem registries_cleanupRegistryConfIfEmpty_sublist (hA : rsc.Agree mem) (r : String) :
    List.Sublist (rsc.cleanupRegistryConfIfEmpty mem r).registries rsc.registries := by
  rcases cleanupRegistryConfIfEmpty_cases hA r with h | ⟨rc, l₁, l₂, -, -, hsplit, h⟩
  · rw [h]
  · rw [h, hsplit]
    exact (List.sublist_cons_self rc l₂).append_left l₁

/-- A cleanup keeps `registriesMap` non-`nil`. -/
@[simp] theorem isSome_cleanupRegistryConfIfEmpty (r : String) :
    (rsc.cleanupRegistryConfIfEmpty mem r).registriesMap.isSome = rsc.registriesMap.isSome := by
  unfold cleanupRegistryConfIfEmpty cleanupRegistryConfIfEmptyIn
  split
  · rfl
  · split
    · dsimp only
      split <;> simp
    · rfl

/-! ### Creating entries -/

/-- A location that is a key gets its entry back, and nothing changes. -/
theorem getRegistryConfOrCreate_of_getRegistryConf {r : String} {rc : Nat}
    (h : rsc.getRegistryConf r = some rc) :
    rsc.getRegistryConfOrCreate mem r = some (rc, rsc, mem) := by
  unfold getRegistryConf at h
  simp only [getRegistryConfOrCreate, h]

/-- A new location gets a fresh entry, appended to `Registries` and indexed under `r`, unless
    the map is `nil`. -/
theorem getRegistryConfOrCreate_of_getRegistryConf_eq_none {r : String}
    (h : rsc.getRegistryConf r = none) :
    rsc.getRegistryConfOrCreate mem r =
      (rsc.registriesMap.set r mem.next).map fun m =>
        (mem.next, { rsc with registriesMap := m, registries := rsc.registries ++ [mem.next] },
          (mem.alloc (newRegistryConf r)).2) := by
  unfold getRegistryConf at h
  simp only [getRegistryConfOrCreate, h, Heap.alloc_fst]

/-- Creation keeps the agreement, when every entry is older than the new one. -/
theorem Agree.getRegistryConfOrCreate (hA : rsc.Agree mem)
    (hnext : ∀ rc ∈ rsc.registries, rc < mem.next) {r : String} {rc : Nat}
    {rsc' : RegistriesConf} {mem' : Heap RegistryConf}
    (h : rsc.getRegistryConfOrCreate mem r = some (rc, rsc', mem')) : rsc'.Agree mem' := by
  cases hget : rsc.getRegistryConf r with
  | some rc₀ =>
    rw [getRegistryConfOrCreate_of_getRegistryConf hget] at h
    cases h; exact hA
  | none =>
    rw [getRegistryConfOrCreate_of_getRegistryConf_eq_none hget] at h
    obtain ⟨m, hm, hres⟩ := Option.map_eq_some'.mp h
    cases hres
    obtain ⟨-, -, hm⟩ := GoMap.set_eq_some.mp hm
    -- the old entries keep their locations, and none of them is at `r`
    have hold : ∀ p ∈ rsc.registries, ((mem.alloc (newRegistryConf r)).2.read p) = mem.read p :=
      fun p hp => Heap.read_alloc_of_lt _ _ (hnext p hp)
    have hfresh : ∀ p ∈ rsc.registries, (mem.read p).location ≠ r := fun p hp hloc => by
      simpa [hget] using (hA.getRegistryConf_eq_some r p).mpr ⟨hp, hloc⟩
    refine ⟨?_, fun k p => ?_⟩
    · rw [List.map_append, List.map_congr_left fun p hp => by rw [hold p hp]]
      simpa [List.nodup_append] using ⟨hA.nodup, fun p hp => hfresh p hp⟩
    · -- an entry at `k` is an old one at `k`, or the new one when `k = r`
      have hiff : p ∈ rsc.registries ++ [mem.next] ∧
          ((mem.alloc (newRegistryConf r)).2.read p).location = k ↔
          (p ∈ rsc.registries ∧ (mem.read p).location = k) ∨ (p = mem.next ∧ r = k) := by
        constructor
        · rintro ⟨hp, hloc⟩
          rcases List.mem_append.mp hp with hp | hp
          · exact .inl ⟨hp, by rwa [hold p hp] at hloc⟩
          · rw [List.mem_singleton] at hp; subst hp; exact .inr ⟨rfl, by simpa using hloc⟩
        · rintro (⟨hp, hloc⟩ | ⟨rfl, rfl⟩)
          · exact ⟨List.mem_append_left _ hp, by rw [hold p hp, hloc]⟩
          · exact ⟨List.mem_append_right _ (List.mem_singleton_self _), by simp⟩
      show m.get? k = some p ↔ _
      rw [hiff, hm]
      split_ifs with hk
      · subst hk
        constructor
        · rintro ⟨⟩; exact .inr ⟨rfl, rfl⟩
        · rintro (⟨hp, hloc⟩ | ⟨rfl, -⟩)
          exacts [absurd hloc (hfresh p hp), rfl]
      · show rsc.getRegistryConf k = some p ↔ _
        rw [hA.getRegistryConf_eq_some]
        exact ⟨.inl, fun h => h.elim id fun h => absurd h.2.symm hk⟩

end RegistriesConf

end MultiarchTuning
