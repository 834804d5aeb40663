import MultiarchTuning.Go.Memory

namespace MultiarchTuning

/-!
# System config — the signature policy

`policyConf` is the content of `policy.json`: a default requirement and, per transport, a
map from registries to requirements.  Both levels of `Transports` are Go maps, so they live
on the heap; `policyConf` itself is passed by value to every method.  A method's copy of the
struct therefore shares the nested maps with the caller's struct, but an assignment to the
copy's `Transports` field is lost when the method returns.

* `PolicyMem` — the heap of map objects: the transport maps and the per-registry maps.
* `PolicyConf.setRejectForRegistry` — writes `reject` for a registry into the `docker` and
  `atomic` maps; the write reaches the caller through the shared map objects.
* `PolicyConf.resetTransports` — builds fresh default maps and assigns them to its copy, so
  the caller's policy keeps its maps and the new ones are garbage.
* `PolicyConf.run` — any sequence of the two calls on the one policy the caller holds;
  `run_rejects` says what every run leaves: no panic, the `reject` entries of `docker` and
  `atomic` are those of every registry passed since the policy was created, and `Default`
  and `docker-daemon` are as created.
* `resetTransports_keeps_rejects` — a reset does not remove an earlier `reject`.
-/

/-- `policyEntry`. -/
structure PolicyEntry where
  type : String
deriving DecidableEq

/-- `insecureAcceptAnythingPolicyEntry`. -/
def insecureAcceptAnythingPolicyEntry : PolicyEntry := ⟨"insecureAcceptAnything"⟩

/-- `rejectPolicyEntry`. -/
def rejectPolicyEntry : PolicyEntry := ⟨"reject"⟩

/-- `dockerDaemonTransport`. -/
def dockerDaemonTransport : String := "docker-daemon"

/-- `dockerTransport`. -/
def dockerTransport : String := "docker"

/-- `atomicTransport`. -/
def atomicTransport : String := "atomic"

/-- The map objects a policy refers to: the `map[string]map[string][]policyEntry` objects
    (`transports`) and the `map[string][]policyEntry` objects (`scopes`). -/
structure PolicyMem where
  transports : Heap (String → Option MapRef)
  scopes : Heap (String → Option (List PolicyEntry))

/-- The heap before any policy is built. -/
def PolicyMem.empty : PolicyMem := ⟨Heap.empty, Heap.empty⟩

/-- `policyConf`: `transports` is the map value of the field `Transports`. -/
structure PolicyConf where
  default : List PolicyEntry
  transports : MapRef

/-- The literal `{"": []policyEntry{insecureAcceptAnythingPolicyEntry()}}` of
    `defaultTransports`. -/
def dockerDaemonScopes (r : String) : Option (List PolicyEntry) :=
  if r = "" then some [insecureAcceptAnythingPolicyEntry] else none

/-- The transport map literal of `defaultTransports`, its three registry maps being the
    objects at `daemon`, `atomic` and `docker`. -/
def transportsLiteral (daemon atomic docker : Nat) (k : String) : Option MapRef :=
  if k = dockerDaemonTransport then some (some daemon)
  else if k = atomicTransport then some (some atomic)
  else if k = dockerTransport then some (some docker)
  else none

/-- `defaultTransports`: three fresh per-registry maps and a fresh transport map holding
    them. -/
def defaultTransports (mem : PolicyMem) : Nat × PolicyMem :=
  let (daemon, scopes) := mem.scopes.alloc dockerDaemonScopes
  let (atomic, scopes) := scopes.alloc fun _ => none
  let (docker, scopes) := scopes.alloc fun _ => none
  let (t, transports) := mem.transports.alloc (transportsLiteral daemon atomic docker)
  (t, ⟨transports, scopes⟩)

/-- `defaultPolicyConf`. -/
def defaultPolicyConf (mem : PolicyMem) : PolicyConf × PolicyMem :=
  let (t, mem) := defaultTransports mem
  (⟨[insecureAcceptAnythingPolicyEntry], some t⟩, mem)

namespace PolicyConf

/-- `func (pc policyConf) resetTransports()`.  `pc` is the method's own copy: the fresh maps
    are assigned to the copy's field and dropped with it, and only the heap they were built
    on is returned. -/
def resetTransports (pc : PolicyConf) (mem : PolicyMem) : PolicyMem :=
  let (t, mem) := defaultTransports mem
  let _pc : PolicyConf := { pc with transports := some t }
  mem

/-- `func (pc policyConf) setRejectForRegistryOnTransport(registry, transport)`:
    `pc.Transports[transport][registry] = []policyEntry{rejectPolicyEntry()}`, which writes
    into the map object shared with the caller; `none` is the panic of a write into a `nil`
    map (`pc.Transports[transport]` is `nil` for a missing transport). -/
def setRejectForRegistryOnTransport (pc : PolicyConf) (mem : PolicyMem)
    (registry transport : String) : Option PolicyMem :=
  let scope : MapRef := (mem.transports.mapGet pc.transports transport).getD none
  (mem.scopes.mapSet scope registry [rejectPolicyEntry]).map fun scopes => { mem with scopes }

/-- `func (pc policyConf) setRejectForRegistry(registry)`. -/
def setRejectForRegistry (pc : PolicyConf) (mem : PolicyMem) (registry : String) :
    Option PolicyMem := do
  let mem ← pc.setRejectForRegistryOnTransport mem registry dockerTransport
  pc.setRejectForRegistryOnTransport mem registry atomicTransport

/-- `pc.Transports[transport][registry]`. -/
def entries (pc : PolicyConf) (mem : PolicyMem) (transport registry : String) :
    Option (List PolicyEntry) :=
  mem.scopes.mapGet ((mem.transports.mapGet pc.transports transport).getD none) registry

/-- Whether `pc.Transports[transport][registry]` holds a `reject` entry. -/
def rejects (pc : PolicyConf) (mem : PolicyMem) (transport registry : String) : Bool :=
  ((pc.entries mem transport registry).getD []).contains rejectPolicyEntry

end PolicyConf

/-- The calls a caller makes on the policy it holds. -/
inductive PolicyOp
  | setRejectForRegistry (registry : String)
  | resetTransports

namespace PolicyConf

/-- One call on the caller's `pc`.  Both methods take `pc` by value, so `pc` itself never
    changes: only the heap does.  `none` is a panic. -/
def step (pc : PolicyConf) (mem : PolicyMem) : PolicyOp → Option PolicyMem
  | .setRejectForRegistry r => pc.setRejectForRegistry mem r
  | .resetTransports => some (pc.resetTransports mem)

/-- A run of calls on `pc`, stopped by the first panic. -/
def run (pc : PolicyConf) (mem : PolicyMem) : List PolicyOp → Option PolicyMem
  | [] => some mem
  | op :: ops => (pc.step mem op).bind fun mem => pc.run mem ops

end PolicyConf

/-- The registries passed to `setRejectForRegistry` in a run. -/
def rejectedRegistries : List PolicyOp → List String
  | [] => []
  | .setRejectForRegistry r :: ops => r :: rejectedRegistries ops
  | .resetTransports :: ops => rejectedRegistries ops

/-- The registries passed to `setRejectForRegistry` after the run's last `resetTransports`:
    the `reject` entries a reset that took effect would leave. -/
def rejectedSinceReset (ops : List PolicyOp) : List String :=
  ops.foldl (fun seen op =>
    match op with
    | .setRejectForRegistry r => seen ++ [r]
    | .resetTransports => []) []

/-! ### What a run keeps -/

/-- Through a transport whose registry map is the object at `a`, the write goes to `a`. -/
theorem PolicyConf.setRejectForRegistryOnTransport_eq {pc : PolicyConf} {mem : PolicyMem}
    {transport : String} {a : Nat} (h : mem.transports.mapGet pc.transports transport = some (some a))
    (r : String) :
    pc.setRejectForRegistryOnTransport mem r transport =
      some { mem with
        scopes := mem.scopes.write a (Function.update (mem.scopes.read a) r (some [rejectPolicyEntry])) } := by
  simp [PolicyConf.setRejectForRegistryOnTransport, h, Heap.mapSet]

@[simp] theorem transportsLiteral_dockerDaemon (a b c : Nat) :
    transportsLiteral a b c dockerDaemonTransport = some (some a) := rfl

@[simp] theorem transportsLiteral_atomic (a b c : Nat) :
    transportsLiteral a b c atomicTransport = some (some b) := rfl

@[simp] theorem transportsLiteral_docker (a b c : Nat) :
    transportsLiteral a b c dockerTransport = some (some c) := rfl

@[simp] theorem defaultTransports_fst (mem : PolicyMem) :
    (defaultTransports mem).1 = mem.transports.next := rfl

@[simp] theorem defaultTransports_transports (mem : PolicyMem) :
    (defaultTransports mem).2.transports = (mem.transports.alloc (transportsLiteral
      mem.scopes.next (mem.scopes.next + 1) (mem.scopes.next + 2))).2 := rfl

@[simp] theorem defaultTransports_scopes (mem : PolicyMem) :
    (defaultTransports mem).2.scopes = (((mem.scopes.alloc dockerDaemonScopes).2.alloc
      fun _ => none).2.alloc fun _ => none).2 := rfl

/-- The heap as a run leaves it, for the policy of `defaultPolicyConf` whose transport map is
    at `t` and whose registry maps are at `d`, `d + 1` and `d + 2`, once the registries `seen`
    have been rejected. -/
structure PolicyInv (t d : Nat) (seen : List String) (mem : PolicyMem) : Prop where
  transports_lt : t < mem.transports.next
  scopes_lt : d + 2 < mem.scopes.next
  read_transports : mem.transports.read t = transportsLiteral d (d + 1) (d + 2)
  read_daemon : mem.scopes.read d = dockerDaemonScopes
  read_atomic : ∀ r, mem.scopes.read (d + 1) r = if r ∈ seen then some [rejectPolicyEntry] else none
  read_docker : ∀ r, mem.scopes.read (d + 2) r = if r ∈ seen then some [rejectPolicyEntry] else none

namespace PolicyInv

variable {t d : Nat} {seen : List String} {mem : PolicyMem}

/-- The policy `defaultPolicyConf` builds, before any call. -/
theorem defaultPolicyConf (mem : PolicyMem) :
    PolicyInv mem.transports.next mem.scopes.next [] (MultiarchTuning.defaultPolicyConf mem).2 where
  transports_lt := by simp [MultiarchTuning.defaultPolicyConf]
  scopes_lt := by simp [MultiarchTuning.defaultPolicyConf]
  read_transports := by simp [MultiarchTuning.defaultPolicyConf]
  read_daemon := by
    simp only [MultiarchTuning.defaultPolicyConf, defaultTransports_scopes, Heap.read_alloc,
      Heap.next_alloc]
    rw [if_neg (by omega), if_neg (by omega), if_pos trivial]
  read_atomic r := by simp [MultiarchTuning.defaultPolicyConf]
  read_docker r := by simp [MultiarchTuning.defaultPolicyConf]

/-- `resetTransports` only allocates, above every object the policy uses. -/
theorem resetTransports (hI : PolicyInv t d seen mem) (pc : PolicyConf) :
    PolicyInv t d seen (pc.resetTransports mem) := by
  have ht := hI.transports_lt
  have hd := hI.scopes_lt
  refine ⟨?_, ?_, ?_, ?_, fun r => ?_, fun r => ?_⟩ <;>
    simp only [PolicyConf.resetTransports, defaultTransports_transports, defaultTransports_scopes,
      Heap.next_alloc, Heap.read_alloc]
  · omega
  · omega
  · rw [if_neg (by omega), hI.read_transports]
  · rw [if_neg (by omega), if_neg (by omega), if_neg (by omega), hI.read_daemon]
  · rw [if_neg (by omega), if_neg (by omega), if_neg (by omega), hI.read_atomic]
  · rw [if_neg (by omega), if_neg (by omega), if_neg (by omega), hI.read_docker]

/-- The registry map of `docker` is at `d + 2`, that of `atomic` at `d + 1`. -/
theorem mapGet_transports (hI : PolicyInv t d seen mem) (k : String) :
    mem.transports.mapGet (some t) k = transportsLiteral d (d + 1) (d + 2) k := by
  simp [Heap.mapGet, hI.read_transports]

/-- `setRejectForRegistry r` writes `reject` for `r` into the `docker` and `atomic` maps, which
    the caller's struct shares. -/
theorem setRejectForRegistry (hI : PolicyInv t d seen mem) (dflt : List PolicyEntry)
    (r : String) :
    ∃ mem', (PolicyConf.mk dflt (some t)).setRejectForRegistry mem r = some mem' ∧
      PolicyInv t d (seen ++ [r]) mem' := by
  -- the write into `docker`'s map, then the one into `atomic`'s
  obtain ⟨mem₁, h₁, hmem₁⟩ : ∃ mem₁, (PolicyConf.mk dflt (some t)).setRejectForRegistryOnTransport
      mem r dockerTransport = some mem₁ ∧ mem₁ = { mem with
        scopes := mem.scopes.write (d + 2)
          (Function.update (mem.scopes.read (d + 2)) r (some [rejectPolicyEntry])) } :=
    ⟨_, PolicyConf.setRejectForRegistryOnTransport_eq
      ((hI.mapGet_transports dockerTransport).trans (transportsLiteral_docker _ _ _)) r, rfl⟩
  have h₂ := @PolicyConf.setRejectForRegistryOnTransport_eq ⟨dflt, some t⟩ mem₁ atomicTransport
    (d + 1) (by rw [hmem₁]; exact (hI.mapGet_transports _).trans (transportsLiteral_atomic _ _ _)) r
  have hseq : (PolicyConf.mk dflt (some t)).setRejectForRegistry mem r =
      (PolicyConf.mk dflt (some t)).setRejectForRegistryOnTransport mem₁ r atomicTransport := by
    unfold PolicyConf.setRejectForRegistry; rw [h₁]; rfl
  refine ⟨_, hseq.trans h₂, ?_⟩
  subst hmem₁
  have hd : ∀ r', ((if r' ∈ seen ++ [r] then some [rejectPolicyEntry] else none) =
      if r' = r then some [rejectPolicyEntry] else
        if r' ∈ seen then some [rejectPolicyEntry] else none) := fun r' => by
    by_cases h : r' = r <;> simp [h]
  have h01 : ¬ d = d + 1 := by omega
  have h02 : ¬ d = d + 2 := by omega
  have h12 : ¬ d + 1 = d + 2 := by omega
  have h21 : ¬ d + 2 = d + 1 := by omega
  refine ⟨hI.transports_lt, by simpa using hI.scopes_lt, hI.read_transports, ?_, fun r' => ?_,
    fun r' => ?_⟩ <;>
    simp only [Heap.read_write, ite_true, h01, h02, h12, h21, if_false, Function.update_apply]
  · exact hI.read_daemon
  · rw [hd, hI.read_atomic]
  · rw [hd, hI.read_docker]

/-- **Run lemma.**  No call panics, and the registries rejected are all those passed so far. -/
theorem run (hI : PolicyInv t d seen mem) (dflt : List PolicyEntry) (ops : List PolicyOp) :
    ∃ mem', (PolicyConf.mk dflt (some t)).run mem ops = some mem' ∧
      PolicyInv t d (seen ++ rejectedRegistries ops) mem' := by
  induction ops generalizing seen mem with
  | nil => exact ⟨mem, rfl, by simpa [rejectedRegistries] using hI⟩
  | cons op ops ih =>
    cases op with
    | setRejectForRegistry r =>
      obtain ⟨mem₁, h₁, hI₁⟩ := hI.setRejectForRegistry dflt r
      simpa [PolicyConf.run, PolicyConf.step, h₁, rejectedRegistries] using ih hI₁
    | resetTransports =>
      simpa [PolicyConf.run, PolicyConf.step, rejectedRegistries] using
        ih (hI.resetTransports ⟨dflt, some t⟩)

/-- The `reject` entries on `docker` are those of `seen`. -/
theorem rejects_docker (hI : PolicyInv t d seen mem) (dflt : List PolicyEntry) (r : String) :
    (PolicyConf.mk dflt (some t)).rejects mem dockerTransport r = decide (r ∈ seen) := by
  simp only [PolicyConf.rejects, PolicyConf.entries, Heap.mapGet, Option.some_bind,
    hI.read_transports, transportsLiteral_docker, Option.getD_some, hI.read_docker]
  split_ifs with h <;> simp [h, rejectPolicyEntry]

/-- The `reject` entries on `atomic` are those of `seen`. -/
theorem rejects_atomic (hI : PolicyInv t d seen mem) (dflt : List PolicyEntry) (r : String) :
    (PolicyConf.mk dflt (some t)).rejects mem atomicTransport r = decide (r ∈ seen) := by
  simp only [PolicyConf.rejects, PolicyConf.entries, Heap.mapGet, Option.some_bind,
    hI.read_transports, transportsLiteral_atomic, Option.getD_some, hI.read_atomic]
  split_ifs with h <;> simp [h, rejectPolicyEntry]

/-- `docker-daemon` keeps its one entry. -/
theorem entries_dockerDaemon (hI : PolicyInv t d seen mem) (dflt : List PolicyEntry)
    (r : String) :
    (PolicyConf.mk dflt (some t)).entries mem dockerDaemonTransport r = dockerDaemonScopes r := by
  simp only [PolicyConf.entries, Heap.mapGet, Option.some_bind, hI.read_transports,
    transportsLiteral_dockerDaemon, Option.getD_some, hI.read_daemon]

end PolicyInv

/-- **Every run on the default policy.**  Whatever calls are made on the policy
    `defaultPolicyConf` returned, none panics; afterwards the registries with a `reject` entry
    on `docker`, and those on `atomic`, are exactly the registries ever passed to
    `setRejectForRegistry`, resets notwithstanding; `Default` and `docker-daemon` are as
    `defaultPolicyConf` made them. -/
theorem run_rejects (mem : PolicyMem) (ops : List PolicyOp) :
    ∃ mem', (defaultPolicyConf mem).1.run (defaultPolicyConf mem).2 ops = some mem' ∧
      (∀ r, (defaultPolicyConf mem).1.rejects mem' dockerTransport r =
        decide (r ∈ rejectedRegistries ops)) ∧
      (∀ r, (defaultPolicyConf mem).1.rejects mem' atomicTransport r =
        decide (r ∈ rejectedRegistries ops)) ∧
      (defaultPolicyConf mem).1.default = [insecureAcceptAnythingPolicyEntry] ∧
      ∀ r, (defaultPolicyConf mem).1.entries mem' dockerDaemonTransport r = dockerDaemonScopes r := by
  obtain ⟨mem', hrun, hI⟩ := (PolicyInv.defaultPolicyConf mem).run [insecureAcceptAnythingPolicyEntry] ops
  exact ⟨mem', hrun, fun r => by simpa using hI.rejects_docker _ r,
    fun r => by simpa using hI.rejects_atomic _ r, rfl, hI.entries_dockerDaemon _⟩

/-- After `setRejectForRegistry "docker.io"` and then `resetTransports`, `docker.io` is still
    rejected on `docker` and on `atomic`, though no registry was passed since the reset. -/
theorem resetTransports_keeps_rejects :
    ((defaultPolicyConf PolicyMem.empty).1.run (defaultPolicyConf PolicyMem.empty).2
        [.setRejectForRegistry "docker.io", .resetTransports]).map
      (fun mem => ((defaultPolicyConf PolicyMem.empty).1.rejects mem dockerTransport "docker.io",
        (defaultPolicyConf PolicyMem.empty).1.rejects mem atomicTransport "docker.io")) =
      some (true, true) ∧
    rejectedSinceReset [.setRejectForRegistry "docker.io", .resetTransports] = [] := by
  decide

end MultiarchTuning
