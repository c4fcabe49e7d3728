import NumaFabric.CoordinatorFrames
import NumaFabric.PlacementSoundness
import NumaFabric.PlannerView
import NumaFabric.ReservationIsolation
import NumaFabric.SessionAgreement

/-! What a worker may expect of a placement: as long as no other worker reserves anything in
between, the node that the coordinator has answered still grants the footprint. -/
namespace NumaFabric.PlacementPromise
open Std FaultState FaultRun LedgerCounter Coordinator CoordinatorAuthority CoordinatorFencing
  CoordinatorFrames RuntimeFrames ReservationIdentity ReservationLedger ReservationTotals
  ReservationIsolation
open ReservationStore hiding step run
open SessionAgreement (Request Response frameBytes_inj request_decoded reply_reports)

variable {β : Type} (b : Backend β) (float : FloatCosts)

section Events
variable {s : Coordinator β} {ev : Event}

/-- What an event does to the reservations: nothing, or the one call its frame asks for. -/
theorem event_reservations (ev : Event) (s : Coordinator β) :
    (step b float s ev).runtime.reservations = s.runtime.reservations ∨
      ∃ conn f c, ev = .frame conn f ∧ asks f = some c ∧
        (step b float s ev).runtime.reservations =
          ReservationStore.step s.runtime.nodeCapacityProvider s.runtime.reservations c := by
  cases ev with
  | frame conn f =>
    rcases step_reservations b float conn f s with same | ⟨c, asked, called⟩
    · exact .inl same
    · exact .inr ⟨conn, f, c, rfl, asked, called⟩
  | opened conn => exact .inl rfl
  | closed conn => exact .inl rfl
  | lost conn =>
    left
    change (s.connectionLost conn).runtime.reservations = _
    unfold connectionLost
    dsimp only
    split_ifs <;> rfl
  | advanceEpoch =>
    have kept : Preserves (SameStore (β := β)) Coordinator.advanceEpoch :=
      sameStore_onRuntime (preserves_advanceEpoch fun _ _ => rfl)
    exact .inl (kept s)

/-- Every event that wraps no counter keeps the accounting. -/
theorem accounted_step (h : Accounted s.runtime.reservations) (wraps : WrapsNothing s ev) :
    Accounted (step b float s ev).runtime.reservations := by
  rcases event_reservations b float ev s with same | ⟨conn, f, c, rfl, asked, called⟩
  · rw [same]
    exact h
  · obtain ⟨dominated, tracks⟩ := step_tracks h.dominated h.tracks (wraps c asked)
    rw [called]
    exact ⟨dominated, tracks⟩

theorem accounted_run {events : List Event} (h : Accounted s.runtime.reservations)
    (wraps : Meets (step b float) WrapsNothing s events) :
    Accounted (run b float s events).runtime.reservations := by
  induction events generalizing s with
  | nil => exact h
  | cons ev events ih => exact ih (accounted_step b float h wraps.1) wraps.2

end Events

section Topology

/-- The same host. -/
def SameHost (s t : Coordinator β) : Prop := t.runtime.topo = s.runtime.topo

instance : Std.Refl (SameHost (β := β)) := ⟨fun _ => rfl⟩

instance : IsTrans (Coordinator β) SameHost := ⟨fun _ _ _ h g => g.trans h⟩

open PlannedExecution in
theorem sameHost_onRuntime {α : Type} {x : Exec (Runtime β) α} (h : Preserves SameTopology x) :
    Preserves SameHost (onRuntime x) :=
  h.zoom fun _ _ h => h

open PlannedExecution in
/-- No event replaces the topology. -/
theorem keeps_sameHost : KeepsAll b float SameHost where
  plan req := sameHost_onRuntime (preserves_plan b float req)
  reserve req := sameHost_onRuntime (ignoresReservations_sameTopology.reserve req)
  release _ := sameHost_onRuntime (ignoresReservations_sameTopology.onReservations _)
  bindWorker id boot node apply := sameHost_onRuntime (ignoresMemory_sameTopology.bindWorker b id boot
    node apply (ignoresRegistry_sameTopology.recordBinding id node))
  migrate region target worker auth reason :=
    sameHost_onRuntime (ignoresMemory_sameTopology.migrate b region target worker auth reason)
  observe id boot := sameHost_onRuntime (ignoresRegistry_sameTopology.observe (fun _ _ => rfl) id boot)
  shutdown _ := rfl
  register _ _ := sameHost_onRuntime (ignoresRegistry_sameTopology.onRegistry _)
  restart _ _ := sameHost_onRuntime (ignoresRegistry_sameTopology.onRegistry _)
  conns _ _ := rfl
  markDead _ _ _ := rfl
  advanceEpoch := sameHost_onRuntime (preserves_advanceEpoch fun _ _ => rfl)

end Topology

section Planner
variable {s t : Runtime β} {req : PlacementRequest} {d : PlacementDecision}

/-- The nodes of a host have numbers of their own, and none has the invalid one. -/
structure Identified (topo : HostTopology) : Prop where
  distinct : (topo.nodes.map NumaNode.id).Nodup
  valid : ∀ node ∈ topo.nodes, node.id.isValid = true

theorem getElem?_foldl_insert {nodes : List NumaNode} (distinct : (nodes.map NumaNode.id).Nodup)
    (m : ExtTreeMap NumaNodeId Capacity) (n : NumaNodeId) :
    (nodes.foldl (fun m x => m.insert x.id x.memoryCapacity) m)[n]? =
      ((nodes.find? (·.id == n)).map (·.memoryCapacity)).or m[n]? := by
  induction nodes generalizing m with
  | nil => rfl
  | cons x nodes ih =>
    rw [List.map_cons, List.nodup_cons] at distinct
    rw [List.foldl_cons, ih distinct.2, ExtTreeMap.getElem?_insert, List.find?_cons]
    by_cases same : x.id = n
    · have none_later : nodes.find? (·.id == n) = none := by
        rw [List.find?_eq_none]
        intro y hy equal
        exact distinct.1 (List.mem_map.mpr ⟨y, hy, (beq_iff_eq.mp equal).trans same.symm⟩)
      rw [none_later, if_pos (Std.compare_eq_iff_eq.mpr same)]
      simp [same]
    · have other : (x.id == n) = false := by simpa using same
      rw [if_neg fun h => same (Std.compare_eq_iff_eq.mp h), other]

/-- Planner and store go by the same limits. -/
theorem capacityOf_eq_limit (known : Identified s.topo) {model : PlacementModel}
    (built : Runtime.buildPlacementModel b float s = .ok model) (n : NumaNodeId) :
    PlacementSoundness.capacityOf model n = s.nodeCapacityProvider.limit n := by
  unfold Runtime.buildPlacementModel at built
  cases sums : s.reservedCapacity with
  | error e => rw [sums] at built; cases built
  | ok m =>
    rw [sums] at built
    cases built
    rw [PlacementSoundness.capacityOf]
    dsimp only
    rw [getElem?_foldl_insert known.distinct]
    simp [CapacityFn.limit, Runtime.nodeCapacityProvider, HostTopology.findNode]

theorem plan_eq_ok (h : (Runtime.plan b float req).run s = .ok d t) :
    t = s ∧ ∃ model, Runtime.buildPlacementModel b float s = .ok model ∧
      d = PlacementEngine.plan s.topo req model := by
  rw [Runtime.plan, run_bind_of_ok (EStateM.run_get s)] at h
  cases built : Runtime.buildPlacementModel b float s with
  | error e => rw [built] at h; cases h
  | ok model =>
    rw [built] at h
    cases h
    exact ⟨rfl, model, rfl, rfl⟩

/-- A placement goes to a node of the host where the store would take the footprint. -/
theorem plan_fits (known : Identified s.topo) (accounted : Accounted s.reservations)
    (h : (Runtime.plan b float req).run s = .ok d t) (places : d.kind.places = true) :
    d.selectedNode.isValid = true ∧
      (s.nodeCapacityProvider.limit d.selectedNode ≠ 0 →
        entry s.reservations.nodeMem d.selectedNode + req.memoryFootprint.value ≤
          s.nodeCapacityProvider.limit d.selectedNode) := by
  obtain ⟨-, model, built, rfl⟩ := plan_eq_ok b float h
  obtain ⟨fresh, n, cheapest, -⟩ := PlacementChoice.plan_places.mp places
  rw [PlacementChoice.plan_selected fresh cheapest]
  obtain ⟨node, mem, rfl, passes⟩ := cheapest.eligible
  obtain ⟨-, -, -, capacity⟩ := PlacementSoundness.evaluateEligibility_eq_none.mp passes
  refine ⟨known.valid node mem, fun limited => ?_⟩
  have balanced : PlannerView.Balanced s.reservations := fun n => accounted.tracks.mem n trivial
  obtain ⟨model', built', agrees⟩ := (PlannerView.agrees_iff b float s).mpr balanced
  rw [built, Except.ok.injEq] at built'
  subst built'
  have reserved : PlacementSoundness.reservedOn model node.id =
      entry s.reservations.nodeMem node.id := agrees node.id
  rw [capacityOf_eq_limit b float known built, reserved] at capacity
  rw [BitVec.add_comm]
  exact capacity limited

end Planner

section Node
variable {cap : CapacityFn} {n : NumaNodeId} {s : ReservationStore} {c : Call}

/-- The call reserves nothing on the node. -/
def LeavesNode (n : NumaNodeId) : Call → Prop
  | .reserve req => req.node ≠ n
  | .release _ _ => True
  | .restore _ => False

theorem entry_reserve_elsewhere {req : ReserveRequest} (other : req.node ≠ n) :
    (entry (stateAfter (reserve cap req) s).nodeMem n).toNat = (entry s.nodeMem n).toNat := by
  cases returned : (reserve cap req).run s with
  | error e t =>
    rw [stateAfter_of_error returned, (reserve_refused_ledgers returned).2.1 n]
  | ok r t =>
    obtain ⟨g, -, granted⟩ := reserve_of_admitted (admitted_of_reserve returned)
    rw [stateAfter_of_ok granted]
    have elsewhere : (Reservation.granted ⟨s.nextId⟩ g req).node ≠ n := other
    have kept := entry_chargeAll_mem (r := .granted ⟨s.nextId⟩ g req)
      (s := ReservationStore.advanced g s) n fun same => absurd same elsewhere
    rw [bytesOn, if_neg elsewhere, Nat.add_zero] at kept
    exact kept

theorem entry_release_le (id : ReservationId) (expected : Option ReservationGeneration) :
    (entry (stateAfter (release id expected) s).nodeMem n).toNat ≤ (entry s.nodeMem n).toNat := by
  have lower : ∀ {m : Ledger NumaNodeId 64} {r : Reservation},
      discharge s.nodeMem r.node r.bytes.value = some m →
        (entry m n).toNat ≤ (entry s.nodeMem n).toNat :=
    fun mem => (toNat_entry_discharge_le n mem).trans (Nat.sub_le _ _)
  have outcome := release_outcome id expected s
  generalize returned : (release id expected).run s = res at outcome
  cases outcome with
  | unknown absent => rw [stateAfter_of_error returned]
  | refused r e found bad => rw [stateAfter_of_error returned]
  | memory r found good under => rw [stateAfter_of_error returned]
  | slots r m found good mem under => rw [stateAfter_of_error returned]; exact lower mem
  | accelerator r m k found good mem slot under =>
    rw [stateAfter_of_error returned]
    exact lower mem
  | released r m k a found good mem slot accel => rw [stateAfter_of_ok returned]; exact lower mem

/-- Only a reservation on a node adds to its counter. -/
theorem entry_step_le (leaves : LeavesNode n c) :
    (entry (ReservationStore.step cap s c).nodeMem n).toNat ≤ (entry s.nodeMem n).toNat := by
  cases c with
  | reserve req => exact (entry_reserve_elsewhere leaves).le
  | release id expected => exact entry_release_le id expected
  | restore r => exact leaves.elim

end Node

section Between
variable {s : Coordinator β} {ev : Event} {events : List Event} {w : WorkerId} {boot : WorkerBootId}
  {n : NumaNodeId}

/-- The event reserves nothing on the node and leaves the boot in force. -/
structure Leaves (n : NumaNodeId) (w : WorkerId) (boot : WorkerBootId) (s : Coordinator β)
    (ev : Event) : Prop where
  calls : ∀ conn f c, ev = .frame conn f → asks f = some c → LeavesNode n c
  boot : ¬ Retires s w boot ev

theorem entry_event_le (leaves : Leaves n w boot s ev) :
    (entry (step b float s ev).runtime.reservations.nodeMem n).toNat ≤
      (entry s.runtime.reservations.nodeMem n).toNat := by
  rcases event_reservations b float ev s with same | ⟨conn, f, c, asked, call, called⟩
  · rw [same]
  · rw [called]
    exact entry_step_le (leaves.calls conn f c asked call)

theorem live_markDead {r : WorkerRegistry} {v : WorkerId} {old : WorkerBootId}
    (live : authority r w = some (boot, true)) (other : (v, old) ≠ (w, boot)) :
    authority (r.markDead v old) w = some (boot, true) := by
  unfold WorkerRegistry.markDead
  cases found : r.workers[v]? with
  | none => exact live
  | some x =>
    dsimp only
    split_ifs with same
    · by_cases this : w = v
      · subst this
        rw [authority, found, Option.map_some, Option.some.injEq, Prod.mk.injEq] at live
        exact absurd (by rw [← same, live.1]) other
      · rw [authority_insert_ne _ _ this]
        exact live
    · exact live

/-- A boot goes on being current until an event retires it. -/
theorem live_event (live : authority s.runtime.registry w = some (boot, true))
    (kept : ¬ Retires s w boot ev) :
    authority (step b float s ev).runtime.registry w = some (boot, true) := by
  cases asked : registers ev with
  | some v =>
    have other : w ≠ v := fun same => kept (.inl (by rw [asked, same]))
    rw [(step_issues b float asked s).others w other]
    exact live
  | none =>
    cases ev with
    | frame conn f =>
      by_cases type : MsgType.ofU16? f.type = some .register
      · rw [step_refused b float type asked s]
        exact live
      · exact ((preserves_handleFrame b float conn type s).authority w).trans live
    | opened conn => exact live
    | closed conn => exact live
    | lost conn =>
      change authority (s.connectionLost conn).runtime.registry w = some (boot, true)
      have named : marksDead s (.lost conn) ≠ some (w, boot) := fun dead => kept (.inr dead)
      unfold connectionLost
      dsimp only
      cases found : s.conns[conn]? with
      | none => exact live
      | some st =>
        rw [Option.getD_some]
        split_ifs with known
        · refine live_markDead live fun same => named ?_
          rw [marksDead, found, Option.filter_some, if_pos known, Option.map_some, same]
        · exact live
    | advanceEpoch =>
      have kept : Preserves SameAuthority (Coordinator.advanceEpoch (β := β)) :=
        preserves_onRuntime (preserves_advanceEpoch fun _ _ => ⟨rfl, fun _ => rfl⟩)
      exact ((kept s).authority w).trans live

/-- After such events the node has no more reserved, and the boot is still current. -/
theorem leaves_run (meets : Meets (step b float) (Leaves n w boot) s events)
    (live : authority s.runtime.registry w = some (boot, true)) :
    (entry (run b float s events).runtime.reservations.nodeMem n).toNat ≤
        (entry s.runtime.reservations.nodeMem n).toNat ∧
      authority (run b float s events).runtime.registry w = some (boot, true) := by
  induction events generalizing s with
  | nil => exact ⟨le_rfl, live⟩
  | cons ev events ih =>
    obtain ⟨first, rest⟩ := meets
    obtain ⟨lower, current⟩ := ih rest (live_event b float live first.boot)
    exact ⟨lower.trans (entry_event_le b float first), current⟩

end Between

section Promise
variable {s t : Coordinator β} {w : WorkerId} {boot : WorkerBootId}

theorem accepted_iff : validateAuthority s w boot = .accepted ↔
    authority s.runtime.registry w = some (boot, true) := by
  refine ⟨fun h => by_contra fun stale => validateAuthority_of_stale stale h, fun live => ?_⟩
  rw [authority, Option.map_eq_some_iff] at live
  obtain ⟨x, found, same⟩ := live
  rw [Prod.mk.injEq] at same
  rw [validateAuthority, Runtime.worker, WorkerRegistry.find, found]
  simp [same.1, same.2]

theorem length_placement {f : PlacementFields} :
    (Request.placement w boot f).payload.length ≤ kMaxPayloadLength := by
  simp [Request.payload, WorkerSession.placementPayload, WireWriter.u64, WireWriter.u32,
    WireWriter.flag, WireWriter.u8, kMaxPayloadLength]

/-- Only the current boot of a worker is answered with a placement. -/
theorem live_of_placement {conn : U64} {f : PlacementFields} {payload : ByteString}
    (h : (handleFrame b float conn (Request.placement w boot f).frame).run s =
      .ok (frameBytes MsgType.placementReply.toU16 payload) t) :
    authority s.runtime.registry w = some (boot, true) := by
  by_contra stale
  have carries : Carries (Request.placement w boot f).frame.payload w boot :=
    ⟨_, (List.append_assoc _ _ _).symm⟩
  have type : MsgType.ofU16? (Request.placement w boot f).frame.type = some .placementRequest :=
    MsgType.ofU16?_toU16 _
  have refused := refuses_dispatch b float conn type (by decide) carries stale
  obtain ⟨text, answered⟩ := handleFrame_of_refuses b float refused
  rw [answered] at h
  have same := (EStateM.Result.ok.inj h).1
  exact absurd (frameBytes_inj same).1 (by decide)

theorem authorized_run (live : authority s.runtime.registry w = some (boot, true))
    (refusal : ByteString) (body : Exec (Coordinator β) ByteString) :
    (authorized w boot refusal body).run s = body.run s := by
  rw [authorized, run_bind_of_ok (EStateM.run_get s), accepted_iff.mpr live]
  rfl

theorem reserve_run {r : Runtime β} {req : ReserveRequest} {x : Reservation} {store : ReservationStore}
    (granted : (ReservationStore.reserve r.nodeCapacityProvider req).run r.reservations = .ok x store) :
    (Runtime.reserve req).run r = .ok x { r with reservations := store } := by
  rw [Runtime.reserve, run_bind_of_ok (EStateM.run_get r), Runtime.onReservations, run_zoom, granted]

/-- What a reserve request asks of the store. -/
def wanted (w : WorkerId) (node bytes : U64) (cpu : U32) : ReserveRequest where
  node := ⟨node⟩
  bytes := ⟨bytes⟩
  cpuSlots := cpu
  accelerator := ⟨0⟩
  worker := w

/-- The record is an active reservation for this request. -/
structure Holds (t : Coordinator β) (r : Reservation) (req : ReserveRequest) : Prop where
  found : t.runtime.reservations.reservations[r.id]? = some r
  active : r.active = true
  worker : r.worker = req.worker
  node : r.node = req.node
  bytes : r.bytes = req.bytes
  cpuSlots : r.cpuSlots = req.cpuSlots

/-- The coordinator answers a request of the current boot with what the runtime reserved. -/
theorem reserve_answered {node bytes : U64} {cpu : U32} {r : Reservation} (conn : U64)
    (live : authority s.runtime.registry w = some (boot, true))
    (called : (onRuntime (Runtime.reserve (wanted w node bytes cpu))).run s = .ok r t) :
    (handleFrame b float conn (Request.reserve w boot node bytes cpu 0 false).frame).run s =
      .ok (frameBytes MsgType.reserveReply.toU16
        (WireWriter.u64 r.id.value ++ WireWriter.u64 r.generation.value)) t := by
  have small : (Request.reserve w boot node bytes cpu 0 false).payload.length ≤ kMaxPayloadLength := by
    simp [Request.payload, WireWriter.u64, WireWriter.u32, WireWriter.flag, WireWriter.u8,
      kMaxPayloadLength]
  have short : (WireWriter.u64 r.id.value ++ WireWriter.u64 r.generation.value).length ≤
      kMaxPayloadLength := by
    simp [WireWriter.u64, kMaxPayloadLength]
  have type : MsgType.ofU16? (Request.reserve w boot node bytes cpu 0 false).frame.type =
      some .reserveRequest := MsgType.ofU16?_toU16 _
  have answered : (dispatch b float conn (Request.reserve w boot node bytes cpu 0 false).frame).run s =
      .ok (frameBytes MsgType.reserveReply.toU16
        (WireWriter.u64 r.id.value ++ WireWriter.u64 r.generation.value)) t := by
    rw [dispatch, type]
    change (handleReserve (Request.reserve w boot node bytes cpu 0 false).payload).run s = _
    rw [handleReserve, run_bind_of_ok (parse_run (request_decoded _ small) s)]
    change (authorized w boot (ascii "stale reserve authority") _).run s = _
    rw [authorized_run live]
    exact (run_bind_of_ok called).trans (reply_run _ short t)
  rw [handleFrame, run_tryCatch, answered]

/-- A request of the current boot that passes every check of the store is granted. -/
theorem reserve_granted {node bytes : U64} {cpu : U32} (conn : U64)
    (live : authority s.runtime.registry w = some (boot, true))
    (admitted : Admitted s.runtime.nodeCapacityProvider s.runtime.reservations
      (wanted w node bytes cpu)) :
    ∃ r u, (handleFrame b float conn (Request.reserve w boot node bytes cpu 0 false).frame).run s =
        .ok (frameBytes MsgType.reserveReply.toU16
          (WireWriter.u64 r.id.value ++ WireWriter.u64 r.generation.value)) u ∧
      Holds u r (wanted w node bytes cpu) := by
  obtain ⟨g, -, granted⟩ := reserve_of_admitted admitted
  have called := SessionAgreement.onRuntime_eq_ok.mpr ⟨_, reserve_run granted, rfl⟩
  refine ⟨_, _, reserve_answered b float conn live called, ?_⟩
  exact { found := by simp [record], active := rfl, worker := rfl, node := rfl, bytes := rfl
          cpuSlots := rfl }

theorem accounted_empty : Accounted {} := ⟨initial_dominated, initial_tracks _⟩

theorem limit_congr {r r' : Runtime β} (same : r'.topo = r.topo) :
    r'.nodeCapacityProvider.limit = r.nodeCapacityProvider.limit := by
  unfold Runtime.nodeCapacityProvider
  rw [same]

/-- A counter that went down leaves room for what it had room for. -/
theorem admitted_of_le {cap : CapacityFn} {store : ReservationStore} {node bytes held : U64} {cpu : U32}
    (valid : (⟨node⟩ : NumaNodeId).isValid = true) (nonempty : bytes ≠ 0 ∨ cpu ≠ 0)
    (generations : store.watermark.value ≠ u64Max)
    (lower : (entry store.nodeMem ⟨node⟩).toNat ≤ held.toNat)
    (fits : held.toNat + bytes.toNat < 2 ^ 64)
    (room : cap.limit ⟨node⟩ ≠ 0 → held + bytes ≤ cap.limit ⟨node⟩) :
    Admitted cap store (wanted w node bytes cpu) := by
  refine ⟨?_, generations, ?_, rfl⟩
  · have filled : bytes = 0 → ¬ cpu = 0 := fun zero => nonempty.resolve_left (not_not.mpr zero)
    simpa [ReserveRequest.malformed, wanted, valid, Quantity.isZero] using filled
  · have below : cap.limit ⟨node⟩ ≠ 0 → entry store.nodeMem ⟨node⟩ + bytes ≤ cap.limit ⟨node⟩ := by
      intro limited
      have enough := BitVec.le_def.mp (room limited)
      rw [BitVec.toNat_add_of_lt fits] at enough
      rw [BitVec.le_def, BitVec.toNat_add_of_lt (by omega)]
      omega
    have kept : cap.exceeded ⟨node⟩ (entry store.nodeMem ⟨node⟩ + bytes) = false := by
      rw [CapacityFn.exceeded, Bool.and_eq_false_iff, bne_eq_false_iff_eq, decide_eq_false_iff_not,
        BitVec.not_lt]
      exact or_iff_not_imp_left.mpr below
    rw [overMemory, Bool.and_eq_false_iff]
    exact .inr kept

/-- A worker that was answered with a placement gets the footprint on that node, whatever
happens in between other than a reservation on this node or the end of its boot. -/
theorem placement_reservable {before between : List Event} {conn conn' : U64} {f : PlacementFields}
    {payload rest : ByteString} {out : PlacementOut} {kind : PlacementDecisionKind} {cpu : U32}
    (empty : s.runtime.reservations = {}) (known : Identified s.runtime.topo)
    (answered : (handleFrame b float conn (Request.placement w boot f).frame).run
      (run b float s before) = .ok (frameBytes MsgType.placementReply.toU16 payload) t)
    (read : (Request.placement w boot f).reader.run payload = .ok (.placed out) rest)
    (shown : out.decision = kind.toU8) (places : kind.places = true)
    (fits : (entry (run b float s before).runtime.reservations.nodeMem ⟨out.node⟩).toNat +
      f.footprint.toNat < 2 ^ 64)
    (leaves : Meets (step b float) (Leaves ⟨out.node⟩ w boot) t between)
    (wraps : Meets (step b float) WrapsNothing s before)
    (nonempty : f.footprint ≠ 0 ∨ cpu ≠ 0)
    (generations : (run b float t between).runtime.reservations.watermark.value ≠ u64Max) :
    ∃ r u, (handleFrame b float conn' (Request.reserve w boot out.node f.footprint cpu 0 false).frame).run
          (run b float t between) =
        .ok (frameBytes MsgType.reserveReply.toU16
          (WireWriter.u64 r.id.value ++ WireWriter.u64 r.generation.value)) u ∧
      Holds u r (wanted w out.node f.footprint cpu) := by
  have accounted : Accounted (run b float s before).runtime.reservations :=
    accounted_run b float (empty ▸ accounted_empty) wraps
  have here : (run b float s before).runtime.topo = s.runtime.topo :=
    (keeps_sameHost b float).run before s
  -- the reply is that of the planner's decision
  obtain ⟨-, response, rest', read', reports⟩ :=
    reply_reports (q := .placement w boot f) length_placement answered
  obtain ⟨same, -⟩ := EStateM.Result.ok.inj (read'.symm.trans read)
  subst same
  obtain ⟨d, planned, shows⟩ := reports
  have decided : d.kind = kind := by
    have bytes := shows.decision.symm.trans shown
    revert bytes
    generalize d.kind = k
    cases k <;> cases kind <;> decide
  have node : (⟨out.node⟩ : NumaNodeId) = d.selectedNode := congrArg Id.mk shows.node
  obtain ⟨valid, room⟩ := plan_fits b float (here ▸ known) accounted planned (decided ▸ places)
  obtain ⟨unchanged, -⟩ := plan_eq_ok b float planned
  rw [← node] at valid room
  -- the events in between
  have live := live_of_placement b float answered
  rw [← unchanged] at live fits room
  obtain ⟨lower, current⟩ := leaves_run b float leaves live
  have host : (run b float t between).runtime.topo = t.runtime.topo :=
    (keeps_sameHost b float).run between t
  refine reserve_granted b float conn' current ?_
  refine admitted_of_le valid nonempty generations lower fits ?_
  rw [limit_congr host]
  exact room

theorem placement_answered (conn : U64) {f : PlacementFields} {d : PlacementDecision}
    (live : authority s.runtime.registry w = some (boot, true))
    (epoch : f.epoch = s.runtime.epoch.value)
    (planned : (Runtime.plan b float (f.request s.runtime.policyGeneration)).run s.runtime =
      .ok d s.runtime)
    (short : (placementReply d).length ≤ kMaxPayloadLength) :
    (handleFrame b float conn (Request.placement w boot f).frame).run s =
      .ok (frameBytes MsgType.placementReply.toU16 (placementReply d)) s := by
  have small : (Request.placement w boot f).payload.length ≤ kMaxPayloadLength := length_placement
  have type : MsgType.ofU16? (Request.placement w boot f).frame.type = some .placementRequest :=
    MsgType.ofU16?_toU16 _
  have called := SessionAgreement.onRuntime_eq_ok.mpr ⟨_, planned, rfl⟩
  have answered : (dispatch b float conn (Request.placement w boot f).frame).run s =
      .ok (frameBytes MsgType.placementReply.toU16 (placementReply d)) s := by
    rw [dispatch, type]
    change (handlePlacement b float (Request.placement w boot f).payload).run s = _
    rw [handlePlacement, run_bind_of_ok (parse_run (request_decoded _ small) s),
      run_bind_of_ok (EStateM.run_get s)]
    dsimp only
    rw [if_neg (not_not.mpr epoch), authorized_run live, run_bind_of_ok (EStateM.run_get s)]
    exact (run_bind_of_ok called).trans (reply_run _ short s)
  rw [handleFrame, run_tryCatch, answered]

end Promise

section Examples

def noCosts : FloatCosts := ⟨fun _ _ => 0, fun _ => 0⟩

def oneNode : HostTopology := { nodes := [{ id := ⟨1⟩, memoryCapacity := ⟨64⟩ }] }

def started : Coordinator Unit :=
  { runtime := { migrator := MigrationManager.initial () fun _ => 0, topo := oneNode } }

def enrollment (conn : U64) (w : WorkerId) : Event := .frame conn (Request.register w ⟨7⟩).frame

/-- Most of the node. -/
def lodging : PlacementFields where
  epoch := 1
  footprint := 48
  preferred := .invalid
  required := .invalid
  hasRequired := false
  requireAccelerator := false
  accelerator := .invalid
  cpu := 0
  allowFallback := true
  revalidation := false

theorem asks_enrollment (w : WorkerId) : asks (Request.register w ⟨7⟩).frame = none := rfl

/-- Between the placement and the reservation another worker registers. -/
theorem placement_reservable_second_worker :
    ∃ r u, (handleFrame (MemoryAccounting.budgeted 64) noCosts 1
          (Request.reserve ⟨4⟩ ⟨1⟩ 1 48 0 0 false).frame).run
          (run (MemoryAccounting.budgeted 64) noCosts
            (run (MemoryAccounting.budgeted 64) noCosts started [enrollment 1 ⟨4⟩])
            [enrollment 2 ⟨5⟩]) =
        .ok (frameBytes MsgType.reserveReply.toU16
          (WireWriter.u64 r.id.value ++ WireWriter.u64 r.generation.value)) u ∧
      Holds u r (wanted ⟨4⟩ 1 48 0) := by
  let s := run (MemoryAccounting.budgeted 64) noCosts started [enrollment 1 ⟨4⟩]
  have checked : (Runtime.buildPlacementModel (MemoryAccounting.budgeted 64) noCosts
      s.runtime).toOption.map (fun model =>
        let d := PlacementEngine.plan s.runtime.topo (lodging.request s.runtime.policyGeneration) model
        decide (d.kind = .place ∧ d.selectedNode = ⟨1⟩ ∧
          (placementReply d).length ≤ kMaxPayloadLength)) = some true := by decide +kernel
  obtain ⟨model, built, facts⟩ := Option.map_eq_some_iff.mp checked
  obtain ⟨place, node, short⟩ := of_decide_eq_true facts
  let d := PlacementEngine.plan s.runtime.topo (lodging.request s.runtime.policyGeneration) model
  have live : authority s.runtime.registry ⟨4⟩ = some (⟨1⟩, true) := by decide +kernel
  have model_eq : Runtime.buildPlacementModel (MemoryAccounting.budgeted 64) noCosts s.runtime =
      .ok model := by
    cases result : Runtime.buildPlacementModel (MemoryAccounting.budgeted 64) noCosts s.runtime with
    | error e => rw [result] at built; cases built
    | ok m => rw [result] at built; exact congrArg _ (Option.some.inj built)
  have planned : (Runtime.plan (MemoryAccounting.budgeted 64) noCosts
      (lodging.request s.runtime.policyGeneration)).run s.runtime = .ok d s.runtime := by
    rw [Runtime.plan, run_bind_of_ok (EStateM.run_get s.runtime), model_eq]
    rfl
  have answered := placement_answered (MemoryAccounting.budgeted 64) noCosts 1 live
    (by decide +kernel) planned short
  have read : (Request.placement ⟨4⟩ ⟨1⟩ lodging).reader.run (placementReply d) =
      .ok (.placed (SessionAgreement.shown d)) (d.eliminatedCandidates.flatMap WireWriter.str) :=
    run_bind_of_ok (SessionAgreement.placementOut_run short)
  have shown : (SessionAgreement.shown d).node = 1 := congrArg Id.value node
  have leaves : Meets (step (MemoryAccounting.budgeted 64) noCosts) (Leaves ⟨1⟩ ⟨4⟩ ⟨1⟩) s
      [enrollment 2 ⟨5⟩] := by
    refine ⟨⟨fun conn f c same asked => ?_, ?_⟩, trivial⟩
    · cases same
      rw [asks_enrollment] at asked
      cases asked
    · have other : registers (enrollment 2 ⟨5⟩) ≠ some ⟨4⟩ := by decide +kernel
      rintro (again | dead)
      · exact other again
      · cases dead
  have promised := @placement_reservable Unit (MemoryAccounting.budgeted 64) noCosts started s ⟨4⟩ ⟨1⟩
    [enrollment 1 ⟨4⟩] [enrollment 2 ⟨5⟩] 1 1 lodging _ _ _ _ 0 rfl
    ⟨by decide, by decide⟩ answered read (congrArg PlacementDecisionKind.toU8 place) rfl
  rw [shown] at promised
  have wraps : WrapsNothing started (enrollment 1 ⟨4⟩) := by
    intro c asked
    rw [asks_enrollment] at asked
    cases asked
  exact promised (by decide +kernel) leaves ⟨wraps, trivial⟩ (.inl (by decide)) (by decide +kernel)

end Examples

end NumaFabric.PlacementPromise
