import NumaFabric.BindingCoverage
import NumaFabric.SessionAgreement
import NumaFabric.TopologyCanonical

/-! The counts of a host against their words on the wire. A synthetic host has fewer than `2 ^ 32`
nodes, and each of them may have as many processors. -/
namespace NumaFabric.SessionCounts
open Std FaultState SyntheticConfig BindingCoverage HostTopology TopologyCanonical Coordinator
  CoordinatorConnection FrameStreamDecoder WorkerSession SessionAgreement

variable {cfg : SyntheticConfig}

theorem numaNodeCount_host : cfg.host.numaNodeCount = cfg.nodeCount.toNat := by
  simp [numaNodeCount, host, sortCanonical]

theorem processorCount_host :
    cfg.host.processorCount = cfg.nodeCount.toNat * cfg.processorsPerNode.toNat := by
  rw [processorCount, perm_host_processors.length_eq, SyntheticConfig.processors, List.length_flatMap]
  simp

/-- The number of nodes of a synthetic host fits its word. -/
theorem numaNodeCount_lt : cfg.host.numaNodeCount < 2 ^ 32 := by
  rw [numaNodeCount_host]
  exact cfg.nodeCount.isLt

section Host
variable {n n' lp lp' : ℕ}

/-- Processors of different nodes have different numbers. -/
theorem node_eq_of_id (node : n < cfg.nodeCount.toNat) (below : lp < cfg.processorsPerNode.toNat)
    (node' : n' < cfg.nodeCount.toNat) (below' : lp' < cfg.processorsPerNode.toNat)
    (same : (cfg.processor n lp).id = (cfg.processor n' lp').id) : n = n' := by
  have indices : cfg.globalIndex n lp = cfg.globalIndex n' lp' := by
    simpa [SyntheticConfig.processor] using same
  have numbers := congrArg BitVec.toNat indices
  rw [toNat_globalIndex node below, toNat_globalIndex node' below'] at numbers
  have positive : 0 < cfg.processorsPerNode.toNat := by omega
  have quotients := congrArg (· / cfg.processorsPerNode.toNat) numbers
  simpa [Nat.mul_comm _ cfg.processorsPerNode.toNat, Nat.mul_add_div positive,
    Nat.div_eq_of_lt below, Nat.div_eq_of_lt below'] using quotients

theorem groupRegister_eq (k : U32) :
    cfg.groupRegister[k]?.getD [] =
      (cfg.processors.filter fun p => cfg.groupIndex (p.id.value - 1) == k).map (·.id) := by
  have collected := foldl_memberMap (fun p => cfg.groupIndex (p.id.value - 1)) k cfg.processors ∅
  rw [ExtTreeMap.getElem?_empty, Option.getD_none, List.nil_append] at collected
  exact collected

/-- The group of every processor is in the register. -/
theorem mem_groupRegister (node : n < cfg.nodeCount.toNat) (below : lp < cfg.processorsPerNode.toNat) :
    cfg.groupIndex (cfg.globalIndex n lp) ∈ cfg.groupRegister := by
  have listed : cfg.processor n lp ∈ cfg.processors :=
    perm_host_processors.mem_iff.mp (mem_host_processors.mpr ⟨n, node, lp, below, rfl⟩)
  have key : cfg.groupIndex ((cfg.processor n lp).id.value - 1) = cfg.groupIndex (cfg.globalIndex n lp) := by
    simp [SyntheticConfig.processor]
  have member : (cfg.processor n lp).id ∈
      cfg.groupRegister[cfg.groupIndex (cfg.globalIndex n lp)]?.getD [] := by
    rw [groupRegister_eq]
    exact List.mem_map_of_mem (List.mem_filter.mpr ⟨listed, beq_iff_eq.mpr key⟩)
  by_contra absent
  rw [ExtTreeMap.getElem?_eq_none absent, Option.getD_none] at member
  cases member

theorem length_groups : cfg.host.groups.length = cfg.groupRegister.keys.length := by
  simp [host, SyntheticConfig.groups, ExtTreeMap.length_keys]

theorem isSome_findGroup (node : n < cfg.nodeCount.toNat) (below : lp < cfg.processorsPerNode.toNat) :
    (cfg.host.findGroup (cfg.processor n lp).group).isSome := by
  have known := mem_groupRegister node below
  obtain ⟨members, found⟩ := Option.isSome_iff_exists.mp (ExtTreeMap.mem_iff_isSome_getElem?.mp known)
  have entry := ExtTreeMap.mem_toList_iff_getElem?_eq_some.mpr found
  have listed : ∃ x ∈ cfg.host.groups, x.id = (cfg.processor n lp).group := by
    refine ⟨_, (List.mem_insertionSort _).mpr (List.mem_map.mpr ⟨_, entry, rfl⟩), rfl⟩
  obtain ⟨x, mem, same⟩ := listed
  rw [findGroup, List.find?_isSome]
  exact ⟨x, mem, by simp [same]⟩

theorem perm_host_ids :
    (cfg.host.nodes.map (·.id)).Perm ((List.range cfg.nodeCount.toNat).map nodeId) := by
  have sorted := (List.perm_insertionSort (fun a b : NumaNode => a.id.value ≤ b.id.value)
    ((List.range cfg.nodeCount.toNat).map cfg.node)).map (·.id)
  rw [List.map_map] at sorted
  rw [host, sortCanonical, List.map_map]
  exact sorted

/-- What the synthetic backend finds passes the checks. -/
theorem validate_host : cfg.host.validate = .ok () := by
  refine validate_iff.mpr ⟨validateProcessors_eq_ok ?_ ?_ ?_, validateNodes_eq_ok ?_ ?_⟩
  · intro p member
    obtain ⟨i, node, lp, below, rfl⟩ := mem_host_processors.mp member
    refine ⟨?_, isSome_findGroup node below⟩
    obtain ⟨x, mem, same⟩ := exists_host_node_iff.mpr (inRange_nodeId node)
    rw [findNode, List.find?_isSome]
    exact ⟨x, mem, by simp [SyntheticConfig.processor, same]⟩
  · intro p member x found
    rw [ExtTreeMap.getElem?_empty] at found
    cases found
  · intro p hp q hq same
    obtain ⟨i, node, lp, below, rfl⟩ := mem_host_processors.mp hp
    obtain ⟨j, node', lp', below', rfl⟩ := mem_host_processors.mp hq
    exact congrArg nodeId (node_eq_of_id node below node' below' same)
  · intro x member
    obtain ⟨i, below, same⟩ := exists_nodeId member
    have number := toNat_nodeId below
    rw [← same, Id.isValid, bne_iff_ne]
    intro zero
    rw [zero] at number
    simp at number
  · rw [perm_host_ids.nodup_iff]
    refine List.nodup_range.map_on ?_
    intro i hi j hj same
    exact (nodeId_inj (List.mem_range.mp hi) (List.mem_range.mp hj)).mp same

end Host

section Narrowed

theorem two_pow_le_length {w : ℕ} {l : List (BitVec w)} (all : ∀ x, x ∈ l) : 2 ^ w ≤ l.length := by
  have distinct : ((List.range (2 ^ w)).map (BitVec.ofNat w)).Nodup := by
    refine List.nodup_range.map_on ?_
    intro i hi j hj same
    have numbers := congrArg BitVec.toNat same
    rwa [BitVec.toNat_ofNat, BitVec.toNat_ofNat, Nat.mod_eq_of_lt (List.mem_range.mp hi),
      Nat.mod_eq_of_lt (List.mem_range.mp hj)] at numbers
  have within := (List.subperm_of_subset distinct fun x _ => all x).length_le
  rwa [List.length_map, List.length_range] at within

/-- Where every processor is a group, there are as many groups as there are indices. -/
theorem two_pow_le_groups (single : cfg.groupCapacity = 1)
    (many : 2 ^ 32 ≤ cfg.nodeCount.toNat * cfg.processorsPerNode.toNat) :
    2 ^ 32 ≤ cfg.host.groups.length := by
  rw [length_groups]
  refine two_pow_le_length fun g => ?_
  have wide := g.isLt
  have positive : 0 < cfg.processorsPerNode.toNat := by
    refine Nat.pos_of_ne_zero fun zero => ?_
    rw [zero] at many
    omega
  have node : g.toNat / cfg.processorsPerNode.toNat < cfg.nodeCount.toNat :=
    (Nat.div_lt_iff_lt_mul positive).mpr (by omega)
  have below := Nat.mod_lt g.toNat positive
  have alone : cfg.groupSize = 1 := by simp [groupSize, single]
  have index : cfg.groupIndex (cfg.globalIndex (g.toNat / cfg.processorsPerNode.toNat)
      (g.toNat % cfg.processorsPerNode.toNat)) = g := by
    apply BitVec.eq_of_toNat_eq
    rw [groupIndex, alone, BitVec.ofNat_eq_ofNat, BitVec.udiv_one, BitVec.toNat_setWidth, toNat_globalIndex node below,
      Nat.mul_comm, Nat.div_add_mod, Nat.mod_eq_of_lt wide]
  have known := mem_groupRegister node below
  rw [index] at known
  exact ExtTreeMap.mem_keys.mpr known

/-- Two nodes of `2 ^ 31` processors, each of them in a group of its own. -/
def crowded : SyntheticConfig where
  nodeCount := 2
  processorsPerNode := 2 ^ 31
  groupCapacity := 1

theorem discover_probe (s : Runtime SyntheticBackend) :
    (Runtime.discover (SyntheticBackend.probe cfg)).run s = .ok cfg.host { s with topo := cfg.host } := by
  have found : (SyntheticBackend.probe cfg).discoverHost.run s.migrator.mem.world.backend =
      .ok cfg.host s.migrator.mem.world.backend := by
    simp only [SyntheticBackend.probe, validate_host]
    rfl
  rw [Runtime.discover, EStateM.run_bind, Runtime.onBackend, run_zoom, found]
  rfl

/-- The session is told how many nodes the host has, but not how many groups and processors. -/
theorem counts_narrowed :
    ∃ s reply info session',
      (Runtime.discover (SyntheticBackend.probe crowded)).run
          (.create ({} : SyntheticBackend) fun _ => 0) = .ok crowded.host s ∧
        (handleFrame (SyntheticBackend.backend crowded) free 1 Request.discover.frame).run
          { runtime := s } = .ok reply { runtime := s } ∧
        Request.discover.send.run (awaiting reply) = .ok (.discovered info) session' ∧
        info.nodeCount.toNat = s.topo.numaNodeCount ∧
        info.processors.toNat ≠ s.topo.processorCount ∧
        info.groups.toNat ≠ s.topo.groups.length := by
  let s : Runtime SyntheticBackend :=
    { Runtime.create ({} : SyntheticBackend) (fun _ => 0) with topo := crowded.host }
  have replied := discover_run (SyntheticBackend.backend crowded) free 1 { runtime := s }
  obtain ⟨sent, -⟩ := reply_reports (q := .discover) (by decide) replied
  have awaits := awaits_awaiting (frameBytes_ne_nil MsgType.discoverReply.toU16 (discoverReply s.topo))
  obtain ⟨session', got, -⟩ := exchange_run .discoverRequest [] (by decide) sent
    awaits.connected awaits.drained awaits.pieces awaits.stream
  have read := run_bind_of_ok (f := fun info => pure (Response.discovered info))
    (run_of_reads (reads_discoverReply s.topo))
  refine ⟨s, _, topologyInfo s.topo, session', discover_probe _, replied,
    send_run (q := .discover) got (toU16_ne_error (by decide)) read, ?_, ?_, ?_⟩
  · exact (BitVec.toNat_ofNat _ _).trans (Nat.mod_eq_of_lt numaNodeCount_lt)
  · have all : s.topo.processorCount = 2 ^ 32 := processorCount_host
    rw [topologyInfo, all]
    decide
  · have many : 2 ^ 32 ≤ s.topo.groups.length := two_pow_le_groups rfl (by decide)
    exact ((topologyInfo s.topo).groups.isLt.trans_le many).ne

end Narrowed

end NumaFabric.SessionCounts
