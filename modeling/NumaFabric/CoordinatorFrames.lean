import NumaFabric.CoordinatorAuthority

/-! What every event of a coordinator preserves, from what its calls on the runtime and its
writes to the connection table preserve. -/
namespace NumaFabric.CoordinatorFrames
open FaultState Coordinator CoordinatorAuthority

variable {β : Type} {b : Backend β} {float : FloatCosts} {R : Coordinator β → Coordinator β → Prop}

/-- A relation that the two calls of a registration and a new connection entry keep. -/
structure KeepsRegister (R : Coordinator β → Coordinator β → Prop) : Prop where
  register : ∀ w pid, Preserves R (onRuntime (Runtime.registerWorker w pid))
  restart : ∀ w pid, Preserves R (onRuntime (Runtime.restartWorker w pid))
  conns : ∀ s conns, R s { s with conns }

/-- A relation that every call and every write of the coordinator keeps, but for an advance of
the epoch. -/
structure KeepsEvents (b : Backend β) (float : FloatCosts) (R : Coordinator β → Coordinator β → Prop) :
    Prop extends Keeps b float R, KeepsRegister R where
  markDead : ∀ s w boot, R s { s with runtime := s.runtime.markWorkerDead w boot }

structure KeepsAll (b : Backend β) (float : FloatCosts) (R : Coordinator β → Coordinator β → Prop) :
    Prop extends KeepsEvents b float R where
  advanceEpoch : Preserves R Coordinator.advanceEpoch

variable [Std.Refl R] [IsTrans (Coordinator β) R]

theorem KeepsRegister.handleRegister (keeps : KeepsRegister R) (conn : U64) (payload : ByteString) :
    Preserves R (handleRegister conn payload) := by
  refine (preserves_parse _ _).bind fun ⟨worker, process⟩ => ?_
  dsimp only
  split_ifs
  · exact preserves_errorReply _ _
  · have enrolls : Preserves R (enroll worker process) := by
      refine Preserves.get.bind fun s => ?_
      split
      · exact keeps.register worker process
      · exact keeps.restart worker process
    refine enrolls.bind fun _ => Preserves.bind (Preserves.modify ?_)
      fun _ => Preserves.get.bind fun _ => Preserves.ofExcept _
    exact fun s => keeps.conns s _

theorem KeepsEvents.handleFrame (keeps : KeepsEvents b float R) (conn : U64) (f : Frame) :
    Preserves R (handleFrame b float conn f) := by
  refine Preserves.tryCatch ?_ fun _ => preserves_errorReply _ _
  by_cases registers : MsgType.ofU16? f.type = some .register
  · rw [dispatch_register b float conn registers]
    exact keeps.toKeepsRegister.handleRegister conn f.payload
  · exact keeps.toKeeps.dispatch conn registers

theorem KeepsEvents.step (keeps : KeepsEvents b float R) {ev : Event} (other : ev ≠ .advanceEpoch)
    (s : Coordinator β) : R s (step b float s ev) := by
  cases ev with
  | frame conn f => exact keeps.handleFrame conn f s
  | opened conn => exact keeps.conns s _
  | closed conn => exact keeps.conns s _
  | lost conn =>
    change R s (s.connectionLost conn)
    unfold connectionLost
    dsimp only
    split_ifs
    · exact IsTrans.trans _ _ _ (keeps.markDead s _ _) (keeps.conns _ _)
    · exact keeps.conns s _
  | advanceEpoch => exact absurd rfl other

theorem KeepsAll.step (keeps : KeepsAll b float R) (ev : Event) (s : Coordinator β) :
    R s (step b float s ev) := by
  by_cases advance : ev = .advanceEpoch
  · subst advance
    exact keeps.advanceEpoch s
  · exact keeps.toKeepsEvents.step advance s

theorem KeepsAll.run (keeps : KeepsAll b float R) (events : List Event) (s : Coordinator β) :
    R s (run b float s events) := by
  induction events generalizing s with
  | nil => exact Std.Refl.refl s
  | cons ev events ih => exact IsTrans.trans _ _ _ (keeps.step ev s) (ih _)

end NumaFabric.CoordinatorFrames
