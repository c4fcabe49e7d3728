import NumaFabric.TopologyModel

/-! The deterministic placement engine: hard constraints first, then a ranking of the
nodes that are left, then one decision with its explanation. -/
namespace NumaFabric
open Std

structure AcceleratorLocality where
  accelerator : AcceleratorId := .invalid
  locality : LocalityClass := .unknown
  localNode : NumaNodeId := .invalid
  deriving DecidableEq, Repr

structure AcceleratorInfo where
  id : AcceleratorId := .invalid
  locality : AcceleratorLocality := {}
  deriving DecidableEq, Repr

structure PlacementRequest where
  workloadId : ByteString := []
  preferredAccelerator : AcceleratorId := .invalid
  memoryFootprint : Bytes := .zero
  preferredNode : NumaNodeId := .invalid
  currentNode : NumaNodeId := .invalid
  memoryOwnerNode : NumaNodeId := .invalid
  ioNode : NumaNodeId := .invalid
  requiredNode : NumaNodeId := .invalid
  hasRequiredNode : Bool := false
  requireAcceleratorLocality : Bool := false
  requiredCpuCount : U32 := 0
  allowFallback : Bool := true
  policyGeneration : PolicyGeneration := .invalid
  revalidationPending : Bool := false
  workerAlreadyBound : Bool := false
  deriving DecidableEq, Repr

/-- The named components of a candidate's cost. -/
structure CostComponents where
  preference : LocalityCost := .zero
  memoryLocal : LocalityCost := .zero
  acceleratorLocal : LocalityCost := .zero
  distance : LocalityCost := .zero
  ioLocal : LocalityCost := .zero
  capacity : LocalityCost := .zero
  migration : LocalityCost := .zero
  deriving DecidableEq, Repr

/-- The hard constraints, in the order they are tested. -/
inductive Violation
  | requiredNode | acceleratorLocalityUnknown | acceleratorLocality | requiredCpuCount | capacity
  deriving DecidableEq, Repr

def Violation.text : Violation → ByteString
  | requiredNode => ascii "required_node"
  | acceleratorLocalityUnknown => ascii "accelerator_locality_unknown"
  | acceleratorLocality => ascii "accelerator_locality"
  | requiredCpuCount => ascii "required_cpu_count"
  | capacity => ascii "capacity"

structure CandidateCost where
  node : NumaNodeId := .invalid
  eligible : Bool := true
  components : CostComponents := {}
  total : LocalityCost := .zero
  processorCount : U32 := 0
  deriving DecidableEq, Repr

/-- The two places where the engine computes in floating point: the headroom cost of a
ratio of free to needed bytes, and the weighted sum of the components, both cast back
to an unsigned word. -/
structure FloatCosts where
  headroom : U64 → U64 → U64
  weigh : CostComponents → U64

structure PlacementModel where
  acceleratorLocality : ExtTreeMap AcceleratorId AcceleratorLocality := ∅
  nodeCapacity : ExtTreeMap NumaNodeId Capacity := ∅
  nodeFree : ExtTreeMap NumaNodeId AvailableMemory := ∅
  distance : NumaNodeId → NumaNodeId → LocalityCost := fun a b => ⟨if a = b then 0 else 100⟩
  float : FloatCosts
  reservedCapacity : ExtTreeMap NumaNodeId Bytes := ∅

structure PlacementDecision where
  kind : PlacementDecisionKind := .reject
  selectedNode : NumaNodeId := .invalid
  eligibleAlternatives : List NumaNodeId := []
  eliminatedCandidates : List ByteString := []
  bindingConstraint : ByteString := []
  expectedPenalty : LocalityCost := .zero
  expectedLocalityClass : LocalityClass := .unknown
  provenance : Provenance := {}
  policyGeneration : PolicyGeneration := .invalid
  rankedCandidates : List CandidateCost := []
  reason : ByteString := []
  wouldChange : ByteString := []
  deriving DecidableEq, Repr

namespace PlacementEngine

/-- `std::string::find(...) != npos`. -/
def mentions (text part : ByteString) : Bool := decide (part <:+: text)

section Components
variable (node : NumaNodeId) (req : PlacementRequest) (model : PlacementModel)

def preferenceCost : LocalityCost :=
  if !req.preferredNode.isValid then .zero else ⟨if req.preferredNode = node then 0 else 1⟩

def memoryLocalCost : LocalityCost :=
  if !req.memoryOwnerNode.isValid then .zero
  else ⟨(model.distance req.memoryOwnerNode node).value +
    if req.memoryOwnerNode = node then 0 else 100⟩

def acceleratorLocalCost : LocalityCost :=
  if !req.preferredAccelerator.isValid then .zero
  else
    match model.acceleratorLocality[req.preferredAccelerator]? with
    | none => .zero
    | some loc =>
      if !loc.localNode.isValid then ⟨50⟩ else if loc.localNode = node then .zero else ⟨200⟩

def distanceCost : LocalityCost :=
  if !req.currentNode.isValid then .zero else model.distance req.currentNode node

def ioLocalCost : LocalityCost :=
  if !req.ioNode.isValid then .zero else model.distance req.ioNode node

def capacityCost : LocalityCost :=
  match model.nodeFree[node]? with
  | none => .zero
  | some free =>
    if free.isZero then ⟨500⟩
    else if req.memoryFootprint.isZero then .zero
    else ⟨model.float.headroom free.value req.memoryFootprint.value⟩

def migrationCost : LocalityCost :=
  if !req.workerAlreadyBound then .zero
  else if req.currentNode = node || !req.currentNode.isValid then .zero
  else ⟨150⟩

def computeComponents : CostComponents where
  preference := preferenceCost node req
  memoryLocal := memoryLocalCost node req model
  acceleratorLocal := acceleratorLocalCost node req model
  distance := distanceCost node req model
  ioLocal := ioLocalCost node req model
  capacity := capacityCost node req model
  migration := migrationCost node req

end Components

/-- The accelerator constraint of a request, if it has one. -/
def acceleratorViolation (node : NumaNodeId) (req : PlacementRequest) (model : PlacementModel) :
    Option Violation :=
  if req.requireAcceleratorLocality && req.preferredAccelerator.isValid then
    match model.acceleratorLocality[req.preferredAccelerator]? with
    | none => some .acceleratorLocalityUnknown
    | some loc =>
      if !loc.localNode.isValid then some .acceleratorLocalityUnknown
      else if loc.localNode ≠ node then some .acceleratorLocality
      else none
  else none

/-- The first hard constraint that rules the node out. The needed bytes are a 64-bit sum. -/
def evaluateEligibility (node : NumaNode) (req : PlacementRequest) (model : PlacementModel) :
    Option Violation :=
  if req.hasRequiredNode && node.id != req.requiredNode then some .requiredNode
  else
    match acceleratorViolation node.id req model with
    | some v => some v
    | none =>
      if req.requiredCpuCount != 0 && decide (node.processorCount < req.requiredCpuCount.toNat) then
        some .requiredCpuCount
      else
        let cap := (model.nodeCapacity[node.id]?.getD .zero).value
        let reserved := (model.reservedCapacity[node.id]?.getD .zero).value
        let need := req.memoryFootprint.value + reserved
        if cap != 0 && decide (cap < need) then some .capacity else none

def classifyLocality (node : NumaNodeId) (req : PlacementRequest) (model : PlacementModel) :
    LocalityClass :=
  let byOwner : LocalityClass :=
    if req.memoryOwnerNode.isValid && req.memoryOwnerNode == node then .sameNumaNode
    else .sameHostRemoteNuma
  if req.preferredAccelerator.isValid then
    match model.acceleratorLocality[req.preferredAccelerator]? with
    | none => byOwner
    | some loc =>
      if loc.locality = .unknown then .unknown
      else if loc.locality = .synthetic then .synthetic
      else if loc.localNode.isValid && loc.localNode == node then .sameNumaNode
      else .sameHostRemoteNuma
  else byOwner

def candidate (node : NumaNode) (req : PlacementRequest) (model : PlacementModel) : CandidateCost :=
  let components := computeComponents node.id req model
  { node := node.id, components, total := ⟨model.float.weigh components⟩
    processorCount := BitVec.ofNat 32 node.processorCount }

def eligible (topo : HostTopology) (req : PlacementRequest) (model : PlacementModel) :
    List CandidateCost :=
  topo.nodes.filterMap fun n =>
    if evaluateEligibility n req model = none then some (candidate n req model) else none

/-- `node N: <reason>` for every node that is ruled out. -/
def eliminated (topo : HostTopology) (req : PlacementRequest) (model : PlacementModel) :
    List ByteString :=
  topo.nodes.filterMap fun n => (evaluateEligibility n req model).map fun v =>
    ascii "node " ++ n.id.text ++ ascii ": " ++ v.text

/-- The comparison of the ranking. -/
def cheaper (a b : CandidateCost) : Bool :=
  if a.total.value ≠ b.total.value then decide (a.total.value < b.total.value)
  else decide (a.node.value < b.node.value)

/-- `std::stable_sort`: an element moves past another only when it is strictly cheaper. -/
def rank (candidates : List CandidateCost) : List CandidateCost :=
  candidates.mergeSort fun a b => !cheaper b a

/-- The node the request would like best. -/
def idealNode (best : CandidateCost) (req : PlacementRequest) (model : PlacementModel) :
    NumaNodeId :=
  let nearby : NumaNodeId :=
    match model.acceleratorLocality[req.preferredAccelerator]? with
    | some loc => if req.preferredAccelerator.isValid then loc.localNode else .invalid
    | none => .invalid
  if req.preferredNode.isValid then req.preferredNode
  else if nearby.isValid then nearby
  else if req.memoryOwnerNode.isValid then req.memoryOwnerNode
  else best.node

def noCandidate (req : PlacementRequest) (eliminated : List ByteString) (d : PlacementDecision) :
    PlacementDecision :=
  let d := { d with provenance := .derived (ascii "placement engine") }
  if req.hasRequiredNode then
    { d with
      kind := .reject
      bindingConstraint := ascii "required_node"
      reason := ascii "required node cannot satisfy the placement constraints"
      wouldChange := ascii "relax the required-node constraint" }
  else if eliminated.head?.any fun e => mentions e (ascii "capacity") then
    { d with
      kind := .defer
      bindingConstraint := ascii "capacity"
      reason := ascii "no node has enough free capacity for the memory footprint"
      wouldChange := ascii "free capacity or reduce the memory footprint" }
  else
    { d with
      kind := .reject
      bindingConstraint := eliminated.head?.getD (ascii "none")
      reason := ascii "no eligible node"
      wouldChange := ascii "relax the placement constraints" }

/-- The kind of a decision that places the worker, `none` when fallback is disabled. -/
def placingKind (best ideal : NumaNodeId) (req : PlacementRequest) : Option PlacementDecisionKind :=
  if best = ideal then
    if req.workerAlreadyBound && best != req.currentNode then
      some (if req.memoryFootprint.isZero then .rebind else .migrate)
    else some .place
  else if req.allowFallback then
    if req.workerAlreadyBound && !req.memoryFootprint.isZero then some .migrate
    else some (if req.workerAlreadyBound then .rebind else .placeWithPenalty)
  else none

/-- The constraint that bound the decision, and what would change it. -/
def bindingOf (req : PlacementRequest) (eliminated : List ByteString) : ByteString × ByteString :=
  if req.hasRequiredNode then (ascii "required_node", ascii "relax required-node")
  else if req.requireAcceleratorLocality then
    (ascii "accelerator_locality", ascii "re-derive accelerator locality")
  else if req.requiredCpuCount != 0 then
    (ascii "required_cpu_count", ascii "raise eligible CPU count")
  else if eliminated.any fun e => mentions e (ascii "capacity") then
    (ascii "capacity", ascii "free node capacity")
  else (ascii "none", ascii "topology/policy change")

def choose (topo : HostTopology) (req : PlacementRequest) (model : PlacementModel)
    (best : CandidateCost) (ranked : List CandidateCost) (eliminated : List ByteString)
    (d : PlacementDecision) : PlacementDecision :=
  let ideal := idealNode best req model
  let idealCost := ((ranked.find? (·.node == ideal)).map (·.total)).getD .zero
  let d : PlacementDecision :=
    { d with
      selectedNode := best.node
      eligibleAlternatives := (ranked.filter (·.node != best.node)).map (·.node)
      expectedPenalty :=
        if idealCost.value < best.total.value then ⟨best.total.value - idealCost.value⟩ else .zero
      expectedLocalityClass := classifyLocality best.node req model
      provenance := .derived (ascii "placement engine") }
  if (req.hasRequiredNode || req.requireAcceleratorLocality) && best.node != ideal then
    { d with
      kind := .reject
      bindingConstraint := ascii "required_node_or_accelerator_locality"
      reason := ascii "hard locality preference not met by the best eligible node"
      wouldChange := ascii "relax the hard locality requirement" }
  else
    match placingKind best.node ideal req with
    | none =>
      { d with
        kind := .reject
        bindingConstraint := ascii "preferred_node"
        reason := ascii "fallback disabled and preferred node not the best candidate"
        wouldChange := ascii "enable fallback" }
    | some kind =>
      { d with
        kind
        expectedPenalty := if best.node = ideal then .zero else d.expectedPenalty
        bindingConstraint := (bindingOf req eliminated).1
        wouldChange := (bindingOf req eliminated).2
        provenance :=
          if topo.provenance.source = .synthetic then .synthetic (ascii "placement engine")
          else .derived (ascii "placement engine") }

def plan (topo : HostTopology) (req : PlacementRequest) (model : PlacementModel) :
    PlacementDecision :=
  let d : PlacementDecision := { policyGeneration := req.policyGeneration }
  if req.revalidationPending then
    { d with
      kind := .revalidationRequired
      reason := ascii "topology/locality evidence is stale or not revalidated"
      wouldChange := ascii "revalidate physical topology before placing"
      provenance := .derived (ascii "placement engine") }
  else
    let ranked := rank (eligible topo req model)
    let eliminated := eliminated topo req model
    let d := { d with rankedCandidates := ranked, eliminatedCandidates := eliminated }
    match ranked with
    | [] => noCandidate req eliminated d
    | best :: _ => choose topo req model best ranked eliminated d

end PlacementEngine

end NumaFabric
