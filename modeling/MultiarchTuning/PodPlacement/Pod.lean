import MultiarchTuning.Go.Memory
import MultiarchTuning.Go.Strings

namespace MultiarchTuning

/-!
# Pod placement — the pod and the operator's constants

The part of a `corev1.Pod` that the scheduling-gate webhook reads or writes, and the
constants of `pkg/utils` it uses.  `pkg/utils` is not among the sources: its constants are
the fields of `Utils`, and every result holds for all of their values.

* `Pod` — namespace, name, labels and owner references from the metadata, and the spec's
  node name, node selector and scheduling gates.  A `nil` map or slice is `none`.
* `Utils` — the operator's namespace, the gate's name, the two bookkeeping labels with
  their values, and `HasControlPlaneNodeSelector`.  The two label keys are distinct.
* `Pod.isDaemonSetControlled` — the DaemonSet rule of the ignoring conditions, as the tests
  of `shouldIgnorePod` state it.
-/

/-- `corev1.PodSchedulingGate`. -/
structure PodSchedulingGate where
  name : String
deriving DecidableEq

/-- `metav1.OwnerReference`: its kind, and `Controller`, a `*bool`. -/
structure OwnerReference where
  kind : String
  controller : Option Bool
deriving DecidableEq

/-- `corev1.PodSpec`. -/
structure PodSpec where
  nodeName : String
  nodeSelector : GoMap String String
  schedulingGates : Option (List PodSchedulingGate)

/-- `corev1.Pod`, with the `ObjectMeta` fields it promotes. -/
structure Pod where
  «namespace» : String
  name : String
  labels : GoMap String String
  ownerReferences : List OwnerReference
  spec : PodSpec

/-- The constants and helpers of `pkg/utils` the webhook reads. -/
structure Utils where
  /-- `utils.Namespace()`, the operator's namespace. -/
  «namespace» : String
  schedulingGateName : String
  nodeAffinityLabel : String
  nodeAffinityLabelValueNotSet : String
  schedulingGateLabel : String
  schedulingGateLabelValueGated : String
  hasControlPlaneNodeSelector : (String → Option String) → Bool
  nodeAffinityLabel_ne_schedulingGateLabel : nodeAffinityLabel ≠ schedulingGateLabel

namespace Pod

/-- Whether the pod carries a scheduling gate named `name`. -/
def hasGate (p : Pod) (name : String) : Bool :=
  (p.spec.schedulingGates.getD []).any (·.name == name)

/-- An owner reference of kind `DaemonSet` with `controller: true`. -/
def isDaemonSetControlled (p : Pod) : Bool :=
  p.ownerReferences.any fun o => o.kind == "DaemonSet" && o.controller == some true

end Pod

end MultiarchTuning
