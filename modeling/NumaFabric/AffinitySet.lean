import NumaFabric.CoreErrors

/-! Group-aware processor affinity: an ordered list of one 64-bit mask per processor
group. -/
namespace NumaFabric

structure GroupMask where
  group : ProcessorGroupId := .invalid
  mask : U64 := 0
  deriving DecidableEq, Repr

structure AffinitySet where
  masks : List GroupMask := []
  deriving DecidableEq, Repr

namespace AffinitySet

def maxGroupMaskBits : ℕ := 64

/-- Merge neighbours of one group, as `normalize` does after sorting. -/
def mergeGroups : List GroupMask → List GroupMask
  | [] => []
  | gm :: rest =>
    match mergeGroups rest with
    | [] => [gm]
    | head :: tail =>
      if head.group = gm.group then { head with mask := gm.mask ||| head.mask } :: tail
      else gm :: head :: tail

def normalize (masks : List GroupMask) : List GroupMask :=
  mergeGroups (masks.mergeSort fun a b => decide (a.group.value ≤ b.group.value))

def validate (masks : List GroupMask) : Except Exn AffinitySet :=
  if masks.all fun gm => gm.group.isValid then .ok ⟨masks⟩ else .error .invalidAffinity

/-- The first mask of the group is extended; a group without a mask gets one. -/
def setBit (masks : List GroupMask) (group : ProcessorGroupId) (bit : U64) : List GroupMask :=
  match masks with
  | [] => [⟨group, bit⟩]
  | gm :: rest =>
    if gm.group = group then { gm with mask := gm.mask ||| bit } :: rest
    else gm :: setBit rest group bit

def addProcessor (set : AffinitySet) (group : ProcessorGroupId) (logicalIndex : U32) :
    Except Exn AffinitySet :=
  if maxGroupMaskBits ≤ logicalIndex.toNat then .error .invalidAffinity
  else validate (normalize (setBit set.masks group (1 <<< logicalIndex.toNat)))

end AffinitySet

end NumaFabric
