import NumaFabric.CoordinatorFencing
import NumaFabric.CoordinatorFrames
import NumaFabric.CounterHistory
import NumaFabric.PersistenceCrash
import NumaFabric.RecoveryRefinement

/-! A coordinator that is stopped and started again from its file, any number of times. Boots
are numbered through all its lifetimes, and a boot that was retired in one lifetime is
refused in every later one. -/
namespace NumaFabric.CoordinatorRestart
open Std FaultState Persistence Coordinator CoordinatorAuthority CoordinatorFencing
  CoordinatorFrames RecoveryAuthority PersistenceCrash RuntimeFrames FaultRun

variable {β : Type}

/-- A worker and the boot it was told. -/
abbrev Grant := WorkerId × WorkerBootId

/-- The machine that a coordinator is started on. -/
structure Host (β : Type) where
  backend : β
  heap : Heap := fun _ => 0
  probe : HostProbe β

/-- What `main` does before it recovers: the runtime, if the probes do not throw. -/
def Host.launch (h : Host β) : Option (Runtime β) :=
  match (do let _ ← Runtime.discover h.probe; Runtime.refreshAccelerators h.probe :
      Fault ByteString (Runtime β) (List AcceleratorInfo)).run (.create h.backend h.heap) with
  | .ok _ s => some s
  | .error _ _ => none

/-- With `--recover` the file is read as well; `main` ends if that throws. -/
def Host.recovered (h : Host β) (disk : Disk) (path : ByteString) : Option (Runtime β) :=
  match h.launch with
  | none => none
  | some s =>
    match (Runtime.recover disk path).run s with
    | .ok _ t => some t
    | .error _ _ => none

/-- One file, the process that is running if any, and what the workers have been told so far:
the boots of all lifetimes, the newest first, and those issued when the file was last
replaced. -/
structure Deployment (β : Type) where
  disk : Disk := fun _ => none
  process : Option (Coordinator β) := none
  issued : List Grant := []
  saved : List Grant := []

/-- An event of the running coordinator, a call of `persist`, or a new process in place of
the running one, which is killed wherever it stands. -/
inductive Event (β : Type)
  | serve (ev : CoordinatorAuthority.Event)
  | persist (fault : Option SaveFault)
  | start (host : Host β) (recovering : Bool)

/-- The boot that the registry shows for a worker that has just registered. -/
def granted (t : Coordinator β) (ev : CoordinatorAuthority.Event) : Option Grant :=
  (registers ev).bind fun w => (authority t.runtime.registry w).map fun a => (w, a.1)

namespace Deployment
variable (b : Backend β) (float : FloatCosts) (path : ByteString)

def serve (s : Deployment β) (ev : CoordinatorAuthority.Event) : Deployment β :=
  match s.process with
  | none => s
  | some c =>
    let t := CoordinatorAuthority.step b float c ev
    { s with process := some t, issued := (granted t ev).toList ++ s.issued }

def persist (s : Deployment β) (fault : Option SaveFault) : Deployment β :=
  match s.process with
  | none => s
  | some c =>
    match (c.runtime.persist fault path).run s.disk with
    | .ok _ disk => { s with disk, saved := s.issued }
    | .error _ disk => { s with disk }

def start (s : Deployment β) (host : Host β) (recovering : Bool) : Deployment β :=
  let runtime := if recovering then host.recovered s.disk path else host.launch
  { s with process := runtime.map fun r => { runtime := r, running := true } }

def step (s : Deployment β) : Event β → Deployment β
  | .serve ev => s.serve b float ev
  | .persist fault => s.persist path fault
  | .start host recovering => s.start path host recovering

def run (s : Deployment β) (events : List (Event β)) : Deployment β :=
  events.foldl (Deployment.step b float path) s

end Deployment

/-- The condition on an event: the boot counter has room for a registration, a process
recovers from a file that knows every boot issued so far, and it does without a file only
before the first one. -/
def Orderly (s : Deployment β) : Event β → Prop
  | .serve ev => (registers ev).isSome = true → s.issued.length + 2 < 2 ^ 64
  | .persist _ => True
  | .start _ recovering => if recovering then s.saved = s.issued else s.issued = []

instance (s : Deployment β) : (e : Event β) → Decidable (Orderly s e)
  | .serve _ => inferInstanceAs (Decidable (_ → _))
  | .persist _ => inferInstanceAs (Decidable True)
  | .start _ recovering => inferInstanceAs (Decidable (if recovering then _ else _))

section Grants

/-- The boots are numbered from one, the newest first. -/
def Numbered : List Grant → Prop
  | [] => True
  | g :: gs => g.2.value.toNat = gs.length + 1 ∧ Numbered gs

/-- The boot a worker was told last. -/
def latest (gs : List Grant) (w : WorkerId) : Option WorkerBootId :=
  (gs.find? fun g => g.1 == w).map Prod.snd

variable {gs : List Grant}

theorem Numbered.le_length (h : Numbered gs) {g : Grant} (mem : g ∈ gs) :
    g.2.value.toNat ≤ gs.length := by
  induction gs with
  | nil => cases mem
  | cons x xs ih =>
    rcases List.mem_cons.mp mem with rfl | later
    · exact h.1.le
    · have := ih h.2 later
      rw [List.length_cons]
      omega

/-- No boot is issued twice. -/
theorem Numbered.nodup (h : Numbered gs) : (gs.map Prod.snd).Nodup := by
  induction gs with
  | nil => exact List.nodup_nil
  | cons x xs ih =>
    rw [List.map_cons, List.nodup_cons]
    refine ⟨fun mem => ?_, ih h.2⟩
    obtain ⟨g, hg, same⟩ := List.mem_map.mp mem
    have earlier := h.2.le_length hg
    rw [same, h.1] at earlier
    omega

theorem latest_cons_self (w : WorkerId) (boot : WorkerBootId) :
    latest ((w, boot) :: gs) w = some boot := by
  simp [latest]

theorem latest_cons_ne {v w : WorkerId} (boot : WorkerBootId) (h : w ≠ v) :
    latest ((v, boot) :: gs) w = latest gs w := by
  have other : (v == w) = false := by simpa using Ne.symm h
  simp [latest, other]

theorem mem_of_latest {w : WorkerId} {boot : WorkerBootId} (h : latest gs w = some boot) :
    (w, boot) ∈ gs := by
  rw [latest, Option.map_eq_some_iff] at h
  obtain ⟨⟨v, boot'⟩, found, rfl⟩ := h
  have same : v = w := by simpa using List.find?_some found
  rw [← same]
  exact List.mem_of_find?_eq_some found

end Grants

section Keys

/-- Every worker is stored under its own identifier. -/
def Keyed (r : WorkerRegistry) : Prop := ∀ (w : WorkerId) x, r.workers[w]? = some x → x.id = w

theorem Keyed.insert {r t : WorkerRegistry} {w : WorkerId} {x : Worker} (h : Keyed r)
    (workers : t.workers = r.workers.insert w x) (named : x.id = w) : Keyed t := by
  intro v y found
  rw [workers, ExtTreeMap.getElem?_insert] at found
  split_ifs at found with same
  · cases found
    rw [← Std.compare_eq_iff_eq.mp same]
    exact named
  · exact h v y found

theorem Keyed.markDead {r : WorkerRegistry} (h : Keyed r) (w : WorkerId) (boot : WorkerBootId) :
    Keyed (r.markDead w boot) := by
  unfold WorkerRegistry.markDead
  cases found : r.workers[w]? with
  | none => exact h
  | some x =>
    dsimp only
    split_ifs
    · exact h.insert rfl (h w x found)
    · exact h

/-- A call leaves the workers under their identifiers. -/
def KeepsKeys (s t : Runtime β) : Prop := Keyed s.registry → Keyed t.registry

instance : Std.Refl (KeepsKeys (β := β)) := ⟨fun _ => id⟩

instance : IsTrans (Runtime β) KeepsKeys := ⟨fun _ _ _ h g k => g (h k)⟩

/-- The same for a coordinator. -/
def CoordinatorKeys (s t : Coordinator β) : Prop := KeepsKeys s.runtime t.runtime

instance : Std.Refl (CoordinatorKeys (β := β)) := ⟨fun _ => id⟩

instance : IsTrans (Coordinator β) CoordinatorKeys := ⟨fun _ _ _ h g k => g (h k)⟩

theorem keys_onRuntime {α : Type} {x : Exec (Runtime β) α} (h : Preserves KeepsKeys x) :
    Preserves CoordinatorKeys (onRuntime x) :=
  h.zoom fun _ _ h => h

theorem ignoresMemory_keys : IgnoresMemory (KeepsKeys (β := β)) := fun _ _ => id

theorem ignoresReservations_keys : IgnoresReservations (KeepsKeys (β := β)) := fun _ _ => id

theorem keys_registerWorker (w : WorkerId) (pid : ProcessId) :
    Preserves (KeepsKeys (β := β)) (Runtime.registerWorker w pid) := by
  intro s keyed
  rw [Runtime.registerWorker, Runtime.onRegistry, stateAfter_zoom]
  dsimp only
  rcases WorkerRegistry.registerWorker_cases w pid s.registry with same | ⟨-, -, issued⟩
  · rw [same]
    exact keyed
  · rw [issued]
    exact keyed.insert rfl rfl

theorem keys_restartWorker (w : WorkerId) (pid : ProcessId) :
    Preserves (KeepsKeys (β := β)) (Runtime.restartWorker w pid) := by
  intro s keyed
  rw [Runtime.restartWorker, Runtime.onRegistry, stateAfter_zoom]
  dsimp only
  rcases WorkerRegistry.restartWorker_cases w pid s.registry with same | ⟨x, -, found, issued⟩
  · rw [same]
    exact keyed
  · rw [issued]
    exact keyed.insert rfl (keyed w x found)

theorem keys_markWorkerDead (s : Runtime β) (w : WorkerId) (boot : WorkerBootId) :
    KeepsKeys s (s.markWorkerDead w boot) := fun keyed => keyed.markDead w boot

theorem keeps_keys (b : Backend β) (float : FloatCosts) : KeepsAll b float CoordinatorKeys where
  plan req := keys_onRuntime (preserves_plan b float req)
  reserve req := keys_onRuntime (ignoresReservations_keys.reserve req)
  release _ := keys_onRuntime (ignoresReservations_keys.onReservations _)
  bindWorker id _ node apply := keys_onRuntime (ignoresMemory_keys.bindWorker b id _ node apply
    fun _ _ => preserves_recordBinding fun _ w _ found _ keyed => keyed.insert rfl (keyed id w found))
  migrate region target worker auth reason :=
    keys_onRuntime (ignoresMemory_keys.migrate b region target worker auth reason)
  observe id _ := keys_onRuntime
    (preserves_observe fun _ w found _ keyed => keyed.insert rfl (keyed id w found))
  shutdown _ := id
  register w pid := keys_onRuntime (keys_registerWorker w pid)
  restart w pid := keys_onRuntime (keys_restartWorker w pid)
  conns _ _ := id
  markDead s w boot := keys_markWorkerDead s.runtime w boot
  advanceEpoch := keys_onRuntime (preserves_advanceEpoch fun _ _ => id)

/-- No event moves a worker to another identifier. -/
theorem step_keyed (b : Backend β) (float : FloatCosts) {c : Coordinator β}
    (h : Keyed c.runtime.registry) (ev : CoordinatorAuthority.Event) :
    Keyed (CoordinatorAuthority.step b float c ev).runtime.registry :=
  (keeps_keys b float).step ev c h

end Keys

section Tallies
variable {gs : List Grant}

def boots (r : WorkerRegistry) (w : WorkerId) : Option WorkerBootId := r.workers[w]?.map Worker.bootId

theorem boots_eq (r : WorkerRegistry) (w : WorkerId) : boots r w = (authority r w).map Prod.fst := by
  rw [boots, authority, Option.map_map]
  rfl

/-- The registry knows these grants and no others. -/
structure Tallies (gs : List Grant) (r : WorkerRegistry) : Prop where
  nextBoot : r.nextBoot.toNat = gs.length + 1
  current : ∀ w, boots r w = latest gs w
  keyed : Keyed r

theorem tallies_empty : Tallies [] {} := ⟨rfl, fun w => by simp [boots, latest], fun w x h => by simp at h⟩

/-- No boot is issued and none replaced. -/
structure Settled (r t : WorkerRegistry) : Prop where
  nextBoot : t.nextBoot = r.nextBoot
  boots : ∀ w, boots t w = boots r w

theorem settled_refl (r : WorkerRegistry) : Settled r r := ⟨rfl, fun _ => rfl⟩

theorem settled_of_sameAuthority {s t : Coordinator β} (h : SameAuthority s t) :
    Settled s.runtime.registry t.runtime.registry :=
  ⟨h.nextBoot, fun w => by rw [boots_eq, boots_eq, h.authority w]⟩

theorem settled_markDead (r : WorkerRegistry) (w : WorkerId) (boot : WorkerBootId) :
    Settled r (r.markDead w boot) := by
  refine ⟨markDead_nextBoot w boot, fun v => ?_⟩
  unfold WorkerRegistry.markDead
  cases found : r.workers[w]? with
  | none => rfl
  | some x =>
    dsimp only
    split_ifs
    · rw [boots, ExtTreeMap.getElem?_insert]
      split_ifs with same
      · rw [← Std.compare_eq_iff_eq.mp same, boots, found]
        rfl
      · rfl
    · rfl

theorem step_settled (b : Backend β) (float : FloatCosts) {ev : CoordinatorAuthority.Event}
    (h : registers ev = none) (c : Coordinator β) :
    Settled c.runtime.registry (CoordinatorAuthority.step b float c ev).runtime.registry := by
  cases ev with
  | frame conn f =>
    by_cases type : MsgType.ofU16? f.type = some .register
    · rw [step_refused b float type h c]
      exact settled_refl _
    · exact settled_of_sameAuthority (preserves_handleFrame b float conn type c)
  | opened conn => exact settled_refl _
  | closed conn => exact settled_refl _
  | lost conn =>
    change Settled _ (c.connectionLost conn).runtime.registry
    unfold connectionLost
    dsimp only
    split_ifs
    · exact settled_markDead _ _ _
    · exact settled_refl _
  | advanceEpoch =>
    have kept : Preserves (SameAuthority (β := β)) Coordinator.advanceEpoch :=
      preserves_onRuntime (preserves_advanceEpoch fun _ _ => ⟨rfl, fun _ => rfl⟩)
    exact settled_of_sameAuthority (kept c)

theorem Tallies.settled {r t : WorkerRegistry} (h : Tallies gs r) (kept : Settled r t)
    (keyed : Keyed t) : Tallies gs t :=
  ⟨by rw [kept.nextBoot, h.nextBoot], fun w => by rw [kept.boots w, h.current w], keyed⟩

/-- A registration gets the next number, which the worker is told. -/
theorem granted_of_registers (b : Backend β) (float : FloatCosts) {ev : CoordinatorAuthority.Event}
    {w : WorkerId} (h : registers ev = some w) (c : Coordinator β) :
    granted (CoordinatorAuthority.step b float c ev) ev =
      some (w, ⟨c.runtime.registry.nextBoot⟩) := by
  rw [granted, h, Option.bind_some, (step_issues b float h c).current]
  rfl

theorem granted_of_none {ev : CoordinatorAuthority.Event} (h : registers ev = none)
    (t : Coordinator β) : granted t ev = none := by
  rw [granted, h]
  rfl

theorem Tallies.step (b : Backend β) (float : FloatCosts) {c : Coordinator β}
    (h : Tallies gs c.runtime.registry) {ev : CoordinatorAuthority.Event}
    (room : (registers ev).isSome = true → gs.length + 2 < 2 ^ 64) :
    let t := CoordinatorAuthority.step b float c ev
    Tallies ((granted t ev).toList ++ gs) t.runtime.registry ∧
      (Numbered gs → Numbered ((granted t ev).toList ++ gs)) := by
  intro t
  have keyed : Keyed t.runtime.registry := step_keyed b float h.keyed ev
  cases registered : registers ev with
  | none =>
    rw [granted_of_none registered]
    exact ⟨h.settled (step_settled b float registered c) keyed, id⟩
  | some w =>
    have issues := step_issues b float registered c
    have fits := room (by rw [registered]; rfl)
    have next : (c.runtime.registry.nextBoot + 1).toNat = gs.length + 2 := by
      rw [u64_succ (Nat.le_refl _) (by rw [h.nextBoot]; omega), h.nextBoot]
    rw [granted_of_registers b float registered c]
    refine ⟨⟨?_, fun v => ?_, keyed⟩, fun numbered => ⟨h.nextBoot, numbered⟩⟩
    · rw [issues.nextBoot, next]
      rfl
    · by_cases same : v = w
      · subst same
        rw [boots_eq, issues.current]
        exact (latest_cons_self v _).symm
      · rw [boots_eq, issues.others v same, ← boots_eq, h.current v]
        exact (latest_cons_ne _ same).symm

end Tallies

section Recovery
variable {gs : List Grant}

/-- A process that has only discovered its host knows no worker. -/
theorem launch_registry {host : Host β} {s : Runtime β} (h : host.launch = some s) :
    s.registry = {} := by
  let Same : Runtime β → Runtime β → Prop := fun s t => t.registry = s.registry
  have refl : Std.Refl Same := ⟨fun _ => rfl⟩
  have trans : IsTrans (Runtime β) Same := ⟨fun _ _ _ h g => g.trans h⟩
  have ignores : IgnoresMemory Same := fun _ _ => rfl
  have kept := ((ignores.discover (fun _ _ => rfl) host.probe).bind fun _ =>
    ignores.refreshAccelerators (fun _ _ => rfl) host.probe) (.create host.backend host.heap)
  rw [stateAfter] at kept
  unfold Host.launch at h
  split at h
  · next ran =>
    cases h
    rw [ran] at kept
    exact kept
  · cases h

/-- A process that came up with `--recover` has put back every worker of the file. -/
theorem recovered_registry {host : Host β} {disk : Disk} {path : ByteString} {t : Runtime β}
    (up : host.recovered disk path = some t) {p : PersistedState}
    (read : Runtime.loaded disk path = .ok p) :
    t.registry = p.workers.foldl WorkerRegistry.takeBack {} ∧
      ∀ x ∈ p.workers, x.recovered.identified = true := by
  unfold Host.recovered at up
  split at up
  · cases up
  · next s launched =>
    have empty := launch_registry launched
    split at up
    · next ran =>
      cases up
      have registry := registry_after_recover read s
      rw [stateAfter_of_ok ran, empty] at registry
      have outcome := Runtime.recover_run read s
      rcases Runtime.identified_or_stops p.workers with all | ⟨pre, x, post, split, before, bad⟩
      · have whole : reached p.workers = p.workers := List.takeWhile_eq_self_iff.mpr all
        rw [registry, whole]
        exact ⟨rfl, all⟩
      · rw [split, restoreWorkers_stops _ before bad, ran] at outcome
        cases outcome
    · cases up

/-- All boots are at most `n`, and the counter is above them and at most one higher. -/
structure Capped (n : ℕ) (r : WorkerRegistry) : Prop where
  running : 0 < r.nextBoot.toNat
  le : r.nextBoot.toNat ≤ n + 1
  spent : ∀ (w : WorkerId) x, r.workers[w]? = some x → x.bootId.value.toNat < r.nextBoot.toNat

theorem Capped.takeBack {n : ℕ} {r : WorkerRegistry} (h : Capped n r) (fits : n + 1 < 2 ^ 64)
    {x : PersistedWorker} (small : x.boot.value.toNat ≤ n) : Capped n (r.takeBack x) := by
  have running := h.running
  have le := h.le
  unfold WorkerRegistry.takeBack
  split_ifs with live
  · exact h
  · have counter : (r.reinstated x.recovered).nextBoot.toNat =
        max r.nextBoot.toNat (x.boot.value.toNat + 1) := by
      have next := u64_succ (v := x.boot.value) (Nat.le_refl _) (by omega)
      change (if r.nextBoot ≤ x.boot.value then x.boot.value + 1 else r.nextBoot).toNat = _
      split_ifs with behind
      · have := BitVec.le_def.mp behind
        omega
      · have := BitVec.lt_def.mp (BitVec.not_le.mp behind)
        omega
    refine ⟨by omega, by omega, fun w y found => ?_⟩
    rw [counter]
    change (r.workers.insert x.id x.recovered)[w]? = some y at found
    rw [ExtTreeMap.getElem?_insert] at found
    split_ifs at found with same
    · cases found
      change x.boot.value.toNat < _
      omega
    · have := h.spent w y found
      omega

theorem Capped.foldl {n : ℕ} {r : WorkerRegistry} (h : Capped n r) (fits : n + 1 < 2 ^ 64)
    {xs : List PersistedWorker} (small : ∀ x ∈ xs, x.boot.value.toNat ≤ n) :
    Capped n (xs.foldl WorkerRegistry.takeBack r) := by
  induction xs generalizing r with
  | nil => exact h
  | cons x xs ih => exact ih (h.takeBack fits (small x (by simp))) fun y hy => small y (by simp [hy])

theorem capped_empty (n : ℕ) : Capped n {} :=
  ⟨by decide, by change 1 ≤ n + 1; omega, fun w x found => by simp at found⟩

/-- The latest grant is the highest, and its worker still has that boot. -/
theorem Tallies.of_boots {r t : WorkerRegistry} (h : Tallies gs r) (numbered : Numbered gs)
    (capped : Capped gs.length t) (same : ∀ w, boots t w = boots r w) (keyed : Keyed t) :
    Tallies gs t := by
  refine ⟨?_, fun w => by rw [same w, h.current w], keyed⟩
  have running := capped.running
  have le := capped.le
  cases gs with
  | nil =>
    rw [List.length_nil] at le ⊢
    omega
  | cons g gs =>
    have last : boots t g.1 = some g.2 := by
      rw [same, h.current]
      exact latest_cons_self g.1 g.2
    rw [boots, Option.map_eq_some_iff] at last
    obtain ⟨x, found, boot⟩ := last
    have below := capped.spent g.1 x found
    rw [boot, numbered.1] at below
    rw [List.length_cons] at le ⊢
    omega

/-- A process that came up from the file that was written for a registry has the same
workers with the same boots, dead or alive, and issues the same boot next. -/
theorem recovered_tallies {r : WorkerRegistry} (h : Tallies gs r) (numbered : Numbered gs)
    {host : Host β} {disk : Disk} {path : ByteString} {t : Runtime β}
    (up : host.recovered disk path = some t) {p : PersistedState}
    (read : Runtime.loaded disk path = .ok p) (written : p.workers = r.all.map Worker.persisted) :
    Tallies gs t.registry ∧ ∀ w, authority t.registry w = authority r w := by
  obtain ⟨registry, identified⟩ := recovered_registry up read
  have named : RecoveryRefinement.Named r := by
    intro w x found
    refine ⟨h.keyed w x found, ?_⟩
    have mem : x.persisted ∈ p.workers := by
      rw [written]
      exact List.mem_map_of_mem (KeyedTable.mem_values.mpr ⟨w, found⟩)
    exact identified _ mem
  have same : ∀ w : WorkerId,
      t.registry.workers[w]?.map Worker.persisted = r.workers[w]?.map Worker.persisted := by
    intro w
    have back := RecoveryRefinement.recovered_workers (s := { t with registry := r }) named w
    change ((r.all.map Worker.persisted).foldl WorkerRegistry.takeBack {}).workers[w]?.map _ = _ at back
    rwa [← written, ← registry] at back
  have authorities : ∀ w, authority t.registry w = authority r w := by
    intro w
    have forms := congrArg (Option.map fun x : PersistedWorker => (x.boot, x.alive)) (same w)
    rw [Option.map_map, Option.map_map] at forms
    exact forms
  have keyed : Keyed t.registry := by
    intro w x found
    have names := congrArg (Option.map PersistedWorker.id) (same w)
    rw [found] at names
    cases old : r.workers[w]? with
    | none => simp [old] at names
    | some y =>
      rw [old] at names
      have equal : x.id = y.id := by simpa [Worker.persisted] using names
      rw [equal, h.keyed w y old]
  have small : ∀ x ∈ p.workers, x.boot.value.toNat ≤ gs.length := by
    intro x mem
    rw [written] at mem
    obtain ⟨y, hy, rfl⟩ := List.mem_map.mp mem
    obtain ⟨w, found⟩ := KeyedTable.mem_values.mp hy
    have current := h.current w
    rw [boots, found] at current
    exact numbered.le_length (mem_of_latest current.symm)
  have fits : gs.length + 1 < 2 ^ 64 := by
    rw [← h.nextBoot]
    exact r.nextBoot.isLt
  refine ⟨h.of_boots numbered ?_ (fun w => ?_) keyed, authorities⟩
  · rw [registry]
    exact (capped_empty _).foldl fits small
  · rw [boots_eq, boots_eq, authorities w]

end Recovery

section Lifetimes

/-- The boots are numbered, the process knows those that were issued, and the file those that
were issued when it was written. -/
structure Consistent (path : ByteString) (s : Deployment β) : Prop where
  numbered : Numbered s.issued
  remembered : Numbered s.saved
  process : ∀ c, s.process = some c → Tallies s.issued c.runtime.registry
  file : ∀ p, Runtime.loaded s.disk path = .ok p →
    ∃ r, p.workers = r.all.map Worker.persisted ∧ Tallies s.saved r

variable (b : Backend β) (float : FloatCosts) {path : ByteString} {s : Deployment β}

/-- A call of `persist` that returns has put the workers of the running process into the
file, and any other call leaves the file as it was. -/
theorem persist_cases (path : ByteString) (fault : Option SaveFault) {c : Coordinator β} (running : s.process = some c) :
    let t := s.persist path fault
    t.process = s.process ∧ t.issued = s.issued ∧
      (t.saved = s.saved ∧ t.disk path = s.disk path ∨
        t.saved = s.issued ∧ ∀ p, Runtime.loaded t.disk path = .ok p →
          p = c.runtime.persistedState) := by
  let call : Save := ⟨c.runtime.persistedState, path, fault⟩
  have after := call.step_apply s.disk (tmp_ne path)
  rw [Save.step, stateAfter] at after
  simp only [Deployment.persist, running, Runtime.persist]
  cases ran : (save fault c.runtime.persistedState path).run s.disk with
  | error e disk =>
    rw [ran] at after
    dsimp only at after ⊢
    refine ⟨rfl, rfl, .inl ⟨rfl, ?_⟩⟩
    rw [after, if_neg]
    rintro ⟨-, ended, counted⟩
    obtain ⟨disk', returned, -⟩ := save_run (s := c.runtime.persistedState) counted path s.disk
    change fault = none at ended
    rw [← ended, ran] at returned
    cases returned
  | ok u disk =>
    rw [ran] at after
    dsimp only at after ⊢
    refine ⟨rfl, rfl, .inr ⟨rfl, fun p read => ?_⟩⟩
    have renamed : call.Renames := by
      cases fault with
      | none =>
        obtain ⟨payload, written, -⟩ := container_of_save ran
        exact ⟨rfl, (serialize_eq_ok.mp written).1⟩
      | some f =>
        exfalso
        cases hs : serialize c.runtime.persistedState with
        | error e => rw [save, hs] at ran; cases ran
        | ok payload => rw [save, hs] at ran; cases f <;> cases ran
    rw [if_pos ⟨rfl, renamed⟩] at after
    exact loaded_settles renamed.2 after read

/-- A process that came up with `--recover` has read a state from the file. -/
theorem recovered_reads {host : Host β} {disk : Disk} {t : Runtime β}
    (up : host.recovered disk path = some t) : ∃ p, Runtime.loaded disk path = .ok p := by
  cases read : Runtime.loaded disk path with
  | ok p => exact ⟨p, rfl⟩
  | error e =>
    unfold Host.recovered at up
    split at up
    · cases up
    · next s launched =>
      rw [Runtime.recover_unread read s] at up
      cases up

/-- What a new process knows. -/
theorem Consistent.start (h : Consistent path s) {host : Host β} {recovering : Bool}
    (orderly : Orderly s (.start host recovering)) {c : Coordinator β}
    (up : (s.start path host recovering).process = some c) : Tallies s.issued c.runtime.registry := by
  simp only [Deployment.start, Option.map_eq_some_iff] at up
  obtain ⟨t, launched, rfl⟩ := up
  simp only [Orderly] at orderly
  cases recovering with
  | true =>
    simp only [if_true] at launched orderly
    obtain ⟨p, read⟩ := recovered_reads launched
    obtain ⟨r, written, tallies⟩ := h.file p read
    rw [← orderly]
    exact (recovered_tallies tallies h.remembered launched read written).1
  | false =>
    simp only [Bool.false_eq_true, if_false] at launched orderly
    rw [orderly, launch_registry launched]
    exact tallies_empty

theorem Consistent.step (h : Consistent path s) {e : Event β} (orderly : Orderly s e) :
    Consistent path (s.step b float path e) := by
  cases e with
  | serve ev =>
    cases running : s.process with
    | none => simpa [Deployment.step, Deployment.serve, running] using h
    | some c =>
      obtain ⟨tallies, numbered⟩ := (h.process c running).step b float orderly
      simp only [Deployment.step, Deployment.serve, running]
      exact ⟨numbered h.numbered, h.remembered, fun d hd => by cases hd; exact tallies, h.file⟩
  | persist fault =>
    cases running : s.process with
    | none => simpa [Deployment.step, Deployment.persist, running] using h
    | some c =>
      obtain ⟨process, issued, ⟨saved, disk⟩ | ⟨saved, written⟩⟩ :=
        persist_cases path fault running
      · refine ⟨?_, ?_, fun d hd => ?_, fun p read => ?_⟩
        · exact issued ▸ h.numbered
        · exact saved ▸ h.remembered
        · exact issued ▸ h.process d (process ▸ hd)
        · change Runtime.loaded (s.persist path fault).disk path = .ok p at read
          rw [loaded_eq, disk, ← loaded_eq] at read
          exact saved ▸ h.file p read
      · refine ⟨?_, ?_, fun d hd => ?_, fun p read => ?_⟩
        · exact issued ▸ h.numbered
        · exact saved ▸ h.numbered
        · exact issued ▸ h.process d (process ▸ hd)
        · exact ⟨c.runtime.registry, congrArg _ (written p read), saved ▸ h.process c running⟩
  | start host recovering =>
    exact ⟨h.numbered, h.remembered, fun c up => h.start orderly up, h.file⟩

theorem Consistent.run (h : Consistent path s) {events : List (Event β)}
    (meets : Meets (Deployment.step b float path) Orderly s events) :
    Consistent path (s.run b float path events) := by
  induction events generalizing s with
  | nil => exact h
  | cons e events ih => exact ih (h.step b float meets.1) meets.2

end Lifetimes

section Retired
variable (b : Backend β) (float : FloatCosts) {path : ByteString} {s : Deployment β} {w : WorkerId}
  {boot : WorkerBootId}

/-- The file has no living record of the boot. -/
def Buried (disk : Disk) (path : ByteString) (w : WorkerId) (boot : WorkerBootId) : Prop :=
  ∀ p, Runtime.loaded disk path = .ok p → ∀ x ∈ p.workers, x.id = w → x.boot = boot → x.alive = false

/-- A boot the worker was told once, that is current neither in the process nor in the file. -/
structure Gone (path : ByteString) (s : Deployment β) (w : WorkerId) (boot : WorkerBootId) : Prop where
  told : (w, boot) ∈ s.issued
  process : ∀ c, s.process = some c → authority c.runtime.registry w ≠ some (boot, true)
  file : Buried s.disk path w boot

theorem buried_of_written {r : WorkerRegistry} (keyed : Keyed r)
    (stale : authority r w ≠ some (boot, true)) {x : PersistedWorker}
    (mem : x ∈ r.all.map Worker.persisted) (id : x.id = w) (current : x.boot = boot) :
    x.alive = false := by
  obtain ⟨y, hy, rfl⟩ := List.mem_map.mp mem
  obtain ⟨v, found⟩ := KeyedTable.mem_values.mp hy
  have named : v = w := (keyed v y found).symm.trans id
  rw [named] at found
  rw [authority, found] at stale
  change y.alive = false
  by_contra living
  have alive : y.alive = true := by simpa using living
  change y.bootId = boot at current
  exact stale (by simp [alive, current])

theorem stale_of_buried {r : WorkerRegistry} (keyed : Keyed r) {disk : Disk}
    (buried : Buried disk path w boot) {p : PersistedState} (read : Runtime.loaded disk path = .ok p)
    (written : p.workers = r.all.map Worker.persisted) : authority r w ≠ some (boot, true) := by
  intro live
  rw [authority, Option.map_eq_some_iff] at live
  obtain ⟨y, found, same⟩ := live
  rw [Prod.mk.injEq] at same
  have mem : y.persisted ∈ p.workers := by
    rw [written]
    exact List.mem_map_of_mem (KeyedTable.mem_values.mpr ⟨w, found⟩)
  have dead := buried p read y.persisted mem (keyed w y found) same.1
  exact absurd (same.2.symm.trans dead) (by decide)

/-- No event brings the boot back: a registration has a higher number, and a new process has
its workers from the file. -/
theorem Gone.step (gone : Gone path s w boot) (h : Consistent path s) {e : Event β}
    (orderly : Orderly s e) : Gone path (s.step b float path e) w boot := by
  cases e with
  | serve ev =>
    cases running : s.process with
    | none => simpa [Deployment.step, Deployment.serve, running] using gone
    | some c =>
      simp only [Deployment.step, Deployment.serve, running]
      refine ⟨List.mem_append_right _ gone.told, fun d hd => ?_, gone.file⟩
      cases hd
      intro live
      cases registered : registers ev with
      | none => exact gone.process c running ((step_fades b float registered c).live w boot live)
      | some v =>
        have issues := step_issues b float registered c
        by_cases same : w = v
        · subst same
          rw [issues.current, Option.some.injEq, Prod.mk.injEq] at live
          have old := h.numbered.le_length gone.told
          rw [← live.1, (h.process c running).nextBoot] at old
          omega
        · rw [issues.others w same] at live
          exact gone.process c running live
  | persist fault =>
    cases running : s.process with
    | none => simpa [Deployment.step, Deployment.persist, running] using gone
    | some c =>
      obtain ⟨process, issued, kept⟩ := persist_cases path fault running
      refine ⟨issued ▸ gone.told, fun d hd => gone.process d (process ▸ hd), fun p read => ?_⟩
      change Runtime.loaded (s.persist path fault).disk path = .ok p at read
      rcases kept with ⟨-, disk⟩ | ⟨-, written⟩
      · rw [loaded_eq, disk, ← loaded_eq] at read
        exact gone.file p read
      · intro x mem id current
        rw [written p read] at mem
        exact buried_of_written (h.process c running).keyed (gone.process c running) mem id current
  | start host recovering =>
    refine ⟨gone.told, fun c up => ?_, gone.file⟩
    simp only [Deployment.step, Deployment.start, Option.map_eq_some_iff] at up
    obtain ⟨t, launched, rfl⟩ := up
    simp only [Orderly] at orderly
    cases recovering with
    | true =>
      simp only [if_true] at launched
      obtain ⟨p, read⟩ := recovered_reads launched
      obtain ⟨r, written, tallies⟩ := h.file p read
      rw [(recovered_tallies tallies h.remembered launched read written).2 w]
      exact stale_of_buried tallies.keyed gone.file read written
    | false =>
      simp only [Bool.false_eq_true, if_false] at orderly
      have told := gone.told
      rw [orderly] at told
      cases told

theorem Gone.run (gone : Gone path s w boot) (h : Consistent path s) {events : List (Event β)}
    (meets : Meets (Deployment.step b float path) Orderly s events) :
    Gone path (s.run b float path events) w boot := by
  induction events generalizing s with
  | nil => exact gone
  | cons e events ih => exact ih (gone.step b float h meets.1) (h.step b float meets.1) meets.2

end Retired

/-- A fenced request under the boot is answered with an error frame and changes nothing. -/
def Refused (b : Backend β) (float : FloatCosts) (c : Coordinator β) (w : WorkerId)
    (boot : WorkerBootId) : Prop :=
  ∀ (conn : U64) (frame : Frame) (kind : MsgType), MsgType.ofU16? frame.type = some kind →
    kind ∈ fencedRequests → Carries frame.payload w boot →
    ∃ payload, (handleFrame b float conn frame).run c =
      .ok (frameBytes MsgType.error.toU16 payload) c

theorem refused_of_stale (b : Backend β) (float : FloatCosts) {c : Coordinator β} {w : WorkerId}
    {boot : WorkerBootId} (stale : authority c.runtime.registry w ≠ some (boot, true)) :
    Refused b float c w boot :=
  fun conn _ _ type fenced carries =>
    handleFrame_of_refuses b float (refuses_dispatch b float conn type fenced carries stale)

theorem consistent_fresh {disk : Disk} {path : ByteString} (absent : disk path = none) :
    Consistent path ({ disk } : Deployment β) := by
  refine ⟨trivial, trivial, (fun c up => by cases up), fun p read => ?_⟩
  have missing : Runtime.loaded disk path = .error (.persistence .cannotOpen) := by
    rw [loaded_eq, absent, opened]
  exact absurd (read.symm.trans missing) (by simp)

/-- Over all the lifetimes of a coordinator the boots are numbered one after the other, so
that none is issued twice, and a process accepts of a worker no boot but the last it was told
in any lifetime. -/
theorem boots_through_lifetimes (b : Backend β) (float : FloatCosts) {path : ByteString}
    {disk : Disk} (absent : disk path = none) {events : List (Event β)}
    (meets : Meets (Deployment.step b float path) Orderly { disk } events) :
    let s := Deployment.run b float path { disk } events
    Numbered s.issued ∧ (s.issued.map Prod.snd).Nodup ∧
      ∀ c, s.process = some c → ∀ w boot, latest s.issued w ≠ some boot → Refused b float c w boot := by
  intro s
  have h : Consistent path s := (consistent_fresh absent).run b float meets
  refine ⟨h.numbered, h.numbered.nodup, fun c up w boot other => refused_of_stale b float ?_⟩
  intro live
  have current := (h.process c up).current w
  rw [boots_eq, live] at current
  exact other current.symm

/-- A boot that was not alive any more when the file was written is refused by every later
process, however often the coordinator is stopped and started again. -/
theorem retired_through_lifetimes (b : Backend β) (float : FloatCosts) {path : ByteString}
    {disk : Disk} (absent : disk path = none) {before after : List (Event β)}
    (meets : Meets (Deployment.step b float path) Orderly { disk } (before ++ .persist none :: after))
    {c : Coordinator β} {w : WorkerId} {boot : WorkerBootId}
    (running : (Deployment.run b float path { disk } before).process = some c)
    (counted : Counted c.runtime.persistedState)
    (told : (w, boot) ∈ (Deployment.run b float path { disk } before).issued)
    (stale : authority c.runtime.registry w ≠ some (boot, true)) :
    ∀ d, (Deployment.run b float path { disk } (before ++ .persist none :: after)).process = some d →
      Refused b float d w boot := by
  intro d up
  obtain ⟨first, save, rest⟩ := meets_append.mp meets
  have h := (consistent_fresh absent).run b float first
  have written : Gone path (Deployment.step b float path
      (Deployment.run b float path { disk } before) (.persist none)) w boot := by
    obtain ⟨process, issued, kept⟩ := persist_cases path none running
    refine ⟨issued ▸ told, fun e he => ?_, fun p read x mem id current => ?_⟩
    · rw [show e = c from Option.some.inj (he.symm.trans (process.trans running))]
      exact stale
    · obtain ⟨disk', returned, content⟩ := save_run counted path
        (Deployment.run b float path { disk } before).disk
      have state : p = c.runtime.persistedState := by
        refine loaded_settles counted ?_ read
        simp only [Deployment.step, Deployment.persist, running, Runtime.persist, returned]
        exact content
      rw [state] at mem
      exact buried_of_written (h.process c running).keyed stale mem id current
  have gone := written.run b float (h.step b float save) rest
  rw [Deployment.run, List.foldl_append, List.foldl_cons] at up
  exact refused_of_stale b float (gone.process d up)

section Examples

def noCosts : FloatCosts := ⟨fun _ _ => 0, fun _ => 0⟩

def path : ByteString := ascii "state"

def machine : Host Unit := { backend := (), probe := CounterHistory.blindProbe }

def register : Event Unit :=
  .serve (.frame 1 { type := MsgType.register.toU16, payload := WireWriter.u64 4 ++ WireWriter.u64 7 })

/-- A worker registers and its connection is lost. -/
def firstLife : List (Event Unit) :=
  [.start machine false, .serve (.opened 1), register, .serve (.lost 1)]

/-- A new process is started from the file, and the worker registers with it. -/
def secondLife : List (Event Unit) := [.start machine true, register]

theorem two_lives : Meets (Deployment.step (MemoryAccounting.budgeted 64) noCosts path) Orderly
    { disk := fun _ => none } (firstLife ++ .persist none :: secondLife) := by
  decide +kernel

theorem boots_through_lifetimes_two :
    ((Deployment.run (MemoryAccounting.budgeted 64) noCosts path { disk := fun _ => none }
      (firstLife ++ .persist none :: secondLife)).issued.map Prod.snd).Nodup := by
  have both := boots_through_lifetimes (MemoryAccounting.budgeted 64) noCosts rfl two_lives
  exact both.2.1

set_option maxRecDepth 20000 in
theorem retired_through_lifetimes_two :
    ∃ d, (Deployment.run (MemoryAccounting.budgeted 64) noCosts path { disk := fun _ => none }
      (firstLife ++ .persist none :: secondLife)).process = some d ∧
        Refused (MemoryAccounting.budgeted 64) noCosts d ⟨4⟩ ⟨1⟩ := by
  let s := Deployment.run (MemoryAccounting.budgeted 64) noCosts path { disk := fun _ => none } firstLife
  have dead : s.process.map (fun c =>
      decide (Counted c.runtime.persistedState ∧ authority c.runtime.registry ⟨4⟩ ≠ some (⟨1⟩, true))) =
        some true := by decide +kernel
  obtain ⟨c, running, facts⟩ := Option.map_eq_some_iff.mp dead
  obtain ⟨counted, stale⟩ := of_decide_eq_true facts
  have told : ((⟨4⟩, ⟨1⟩) : Grant) ∈ s.issued := by decide +kernel
  have restarted : (Deployment.run (MemoryAccounting.budgeted 64) noCosts path { disk := fun _ => none }
      (firstLife ++ .persist none :: secondLife)).process.isSome = true := by decide +kernel
  obtain ⟨d, up⟩ := Option.isSome_iff_exists.mp restarted
  exact ⟨d, up, retired_through_lifetimes (MemoryAccounting.budgeted 64) noCosts rfl two_lives running
    counted told stale d up⟩

end Examples

end NumaFabric.CoordinatorRestart
