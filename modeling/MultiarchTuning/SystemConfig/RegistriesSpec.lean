import MultiarchTuning.SystemConfig.Registries

namespace MultiarchTuning

/-!
# System config — what the registries configuration is for

`registries.conf` lists the registries the cluster knows, one entry per location, in the
order the operator first met them.  This module says so without pointers, maps or slices:
the configuration is the list of its entries, and each operation is a function of that
list.  `RegistriesRun` proves that the code's operations act on the entries it holds exactly
so.

* `RegistriesSpec.Step` — the operations: get or create the entry of a location, write the
  fields of an entry other than its location, drop the entry of a location if it is empty,
  and drop empty entries (`cleanupAll` may drop any of them, and keeps the others).
* `RegistriesSpec.Reachable` — the lists the operations reach from none;
  `Reachable.nodup` — on them, no two entries share a location.
-/

namespace RegistriesSpec

/-- `getRegistryConfOrCreate r`: a new empty entry for `r` at the end, unless there is one. -/
def getOrCreate (es : List RegistryConf) (r : String) : List RegistryConf :=
  if r ∈ es.map (·.location) then es else es ++ [RegistriesConf.newRegistryConf r]

/-- A write, through the pointer to the entry at `r`, of every field but `Location`. -/
def setFields (es : List RegistryConf) (r prefix_ : String) (mirrors : List Mirror)
    (blocked allowed insecure : Option Bool) : List RegistryConf :=
  es.map fun e => if e.location = r then
    { e with prefix_ := prefix_, mirrors := mirrors, blocked := blocked, allowed := allowed,
             insecure := insecure }
  else e

/-- `cleanupRegistryConfIfEmpty r`: the entry at `r` goes if it is empty. -/
def cleanup (es : List RegistryConf) (r : String) : List RegistryConf :=
  es.filter fun e => !(e.location == r && e.isEmpty)

/-- The operations on the entries. -/
inductive Op
  | getOrCreate (r : String)
  | setFields (r prefix_ : String) (mirrors : List Mirror) (blocked allowed insecure : Option Bool)
  | cleanup (r : String)
  | cleanupAll
  /-- A write through a pointer to no entry. -/
  | skip

/-- One operation.  `cleanupAll` drops empty entries, not necessarily all of them, and keeps
    the order of what remains. -/
inductive Step : List RegistryConf → Op → List RegistryConf → Prop
  | getOrCreate (es r) : Step es (.getOrCreate r) (getOrCreate es r)
  | setFields (es r p ms b a i) : Step es (.setFields r p ms b a i) (setFields es r p ms b a i)
  | cleanup (es r) : Step es (.cleanup r) (cleanup es r)
  | cleanupAll {es es'} : List.Sublist es' es → (∀ e ∈ es, e.isEmpty = false → e ∈ es') →
      Step es .cleanupAll es'
  | skip (es) : Step es .skip es

/-- The entry lists that a sequence of operations reaches from none. -/
inductive Reachable : List RegistryConf → Prop
  | nil : Reachable []
  | step {es op es'} : Reachable es → Step es op es' → Reachable es'

theorem getOrCreate_of_mem {es : List RegistryConf} {r : String}
    (h : r ∈ es.map (·.location)) : getOrCreate es r = es := if_pos h

theorem getOrCreate_of_not_mem {es : List RegistryConf} {r : String}
    (h : r ∉ es.map (·.location)) :
    getOrCreate es r = es ++ [RegistriesConf.newRegistryConf r] := if_neg h

/-- A cleanup of a location with no empty entry keeps every entry. -/
theorem cleanup_of_forall {es : List RegistryConf} {r : String}
    (h : ∀ e ∈ es, e.location = r → e.isEmpty = false) : cleanup es r = es :=
  List.filter_eq_self.mpr fun e he => by
    by_cases hl : e.location = r <;> simp [hl, h e he]

/-- A cleanup of the location of an empty entry, which no other entry has, drops it. -/
theorem cleanup_append_cons {es₁ es₂ : List RegistryConf} {e : RegistryConf} {r : String}
    (hne : ∀ e' ∈ es₁ ++ es₂, e'.location ≠ r) (he : e.location = r)
    (hempty : e.isEmpty = true) : cleanup (es₁ ++ e :: es₂) r = es₁ ++ es₂ := by
  rw [← cleanup_of_forall fun e' h' hl => absurd hl (hne e' h')]
  simp [cleanup, List.filter_append, List.filter_cons, he, hempty]

theorem map_location_setFields (es : List RegistryConf) (r p : String) (ms : List Mirror)
    (b a i : Option Bool) :
    (setFields es r p ms b a i).map (·.location) = es.map (·.location) := by
  simp only [setFields, List.map_map]
  exact List.map_congr_left fun e _ => by by_cases h : e.location = r <;> simp [h]

/-- **Step lemma.**  No operation makes two entries share a location. -/
theorem Step.nodup {es es' : List RegistryConf} {op : Op} (h : Step es op es')
    (hnd : (es.map (·.location)).Nodup) : (es'.map (·.location)).Nodup := by
  cases h with
  | getOrCreate r =>
    unfold RegistriesSpec.getOrCreate
    split_ifs with hr
    · exact hnd
    · simpa [List.nodup_append, hnd] using hr
  | setFields => rwa [map_location_setFields]
  | cleanup => exact hnd.sublist ((List.filter_sublist _).map _)
  | cleanupAll hsub _ => exact hnd.sublist (hsub.map _)
  | skip => exact hnd

/-- **The abstract invariant.**  On every reachable list the locations are distinct. -/
theorem Reachable.nodup {es : List RegistryConf} (h : Reachable es) :
    (es.map (·.location)).Nodup := by
  induction h with
  | nil => exact List.nodup_nil
  | step _ hs ih => exact hs.nodup ih

end RegistriesSpec

end MultiarchTuning
