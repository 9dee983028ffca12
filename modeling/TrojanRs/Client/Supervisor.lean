import Mathlib.Data.List.Basic

/-! The desktop client's sidecars: `start`, `stop` and `quit` of the client's `main.rs` and the
task `start` spawns, as steps on `TrojanProxy` under its mutex, interleaved with the sidecars'
exits. -/

namespace TrojanRs

set_option autoImplicit false

/-- `Config`, as `config.json` holds it; `trust_dns` is read by none of the functions
below and is left out. -/
structure Config where
  ifaceName : String
  serverDomain : String
  serverAuth : String
  defaultDns : String
  logLevel : String
  poolSize : UInt32
  enableIpset : Bool
  inverseRoute : Bool
  enableDns : Bool
  dnsListen : String
  deriving DecidableEq

namespace Config

def default : Config := ⟨"", "", "", "", "", 0, false, false, false, ""⟩

def logLevelStr (c : Config) : String :=
  match c.logLevel with
  | "Trace" => "0"
  | "Debug" => "1"
  | "Info" => "2"
  | "Warn" => "3"
  | "Error" => "4"
  | _ => "5"

end Config

/-- The paths `resolve_resource` gives for `config/ipset.txt`, `libs/wintun.dll` and
`config/domain.txt`. -/
structure Resources where
  ipset : String
  wintunDll : String
  domains : String
  deriving DecidableEq

def wintunArgs (c : Config) (r : Resources) : List String :=
  ["-l", "logs\\wintun.log", "-L", c.logLevelStr, "-a", "127.0.0.1:60080", "-p", c.serverAuth, "wintun",
    "-n", c.ifaceName, "-H", c.serverDomain, "--dns-server-addr", c.defaultDns ++ ":53",
    "-P", toString c.poolSize, "-w", r.wintunDll] ++
  if c.enableIpset then ["--route-ipset", r.ipset] ++ (if c.inverseRoute then ["--inverse-route"] else [])
  else []

def dnsArgs (c : Config) (r : Resources) : List String :=
  ["-l", "logs\\dns.log", "-L", c.logLevelStr, "-a", "127.0.0.1:60080", "-p", c.serverAuth, "dns",
    "-n", c.ifaceName, "--blocked-domain-list", r.domains, "--poisoned-dns", c.defaultDns,
    "--dns-listen-address", c.dnsListen ++ ":53"] ++
  if !c.enableIpset then ["--add-route"] else []

inductive Sidecar where
  | wintun
  | dns
  deriving DecidableEq

structure Proc where
  sidecar : Sidecar
  args : List String
  running : Bool
  deriving DecidableEq

/-- Where a task `start` spawned stands, with the children it has spawned and not yet stored. -/
inductive Stage where
  | spawnWintun
  | storeWintun (config : Config) (wintun : Nat)
  | spawned (config : Config) (wintun : Nat)
  | sleeping (config : Config) (wintun : Nat)
  | storeDns (wintun dns : Nat)
  | watch (rxs : List (Sidecar × Nat))
  deriving DecidableEq

/-- `TrojanProxy` with the processes, the tasks, the `state-update` events, whether `quit` has exited,
and whether a `stop` hangs holding the mutex (Tauri runs the commands on the main thread). -/
structure ClientApp where
  config : Config
  wintun : Option Nat
  dns : Option Nat
  procs : List Proc
  tasks : List Stage
  events : List Bool
  exited : Bool
  hung : Bool
  resources : Resources
  deriving DecidableEq

def Running (procs : List Proc) (n : Nat) : Prop := procs[n]?.map (·.running) = some true

instance (procs : List Proc) (n : Nat) : Decidable (Running procs n) := inferInstanceAs (Decidable (_ = _))

namespace ClientApp

/-- `TrojanProxy::new()` with `init_config()`'s result, then `setup`'s event. -/
def new (file : Option Config) (resources : Resources) : ClientApp :=
  ⟨file.getD Config.default, none, none, [], [], [false], false, false, resources⟩

/-- `child.kill()`; a process's own exit has the same effect. -/
def kill (s : ClientApp) (c : Nat) : ClientApp :=
  { s with procs := s.procs.modify (fun p => { p with running := false }) c }

def killOpt (s : ClientApp) : Option Nat → ClientApp
  | some c => s.kill c
  | none => s

def spawn (s : ClientApp) (sidecar : Sidecar) (args : List String) : ClientApp :=
  { s with procs := s.procs ++ [⟨sidecar, args, true⟩] }

def start (s : ClientApp) (config : Config) (saved : Bool) : ClientApp :=
  if saved then
    if s.wintun.isSome then { s with events := s.events ++ [true], config := config }
    else { s with events := s.events ++ [true], config := config, tasks := s.tasks ++ [.spawnWintun] }
  else s

/-- With no `wintun` child, `emit_state_update_event` emits `false` and then locks the
mutex whose guard `stop` still holds, so `stop` never returns. -/
def stop (s : ClientApp) : ClientApp :=
  match s.wintun with
  | some c => { s.kill c with wintun := none }
  | none => { s with events := s.events ++ [false], hung := true }

def quit (s : ClientApp) : ClientApp :=
  { (s.killOpt s.dns).killOpt s.wintun with dns := none, wintun := none, exited := true }

/-- Task `k` reads the config and spawns `wintun`, without the lock; on failure it emits
`false` and ends. -/
def spawnWintun (s : ClientApp) (k : Nat) (ok : Bool) : ClientApp :=
  if ok then
    { s.spawn .wintun (wintunArgs s.config s.resources) with
      tasks := s.tasks.set k (.storeWintun s.config s.procs.length) }
  else { s with events := s.events ++ [false], tasks := s.tasks.eraseIdx k }

/-- `state.lock().unwrap().wintun.replace(child)`: the child held before is dropped, not killed. -/
def storeWintun (s : ClientApp) (k : Nat) (config : Config) (n : Nat) : ClientApp :=
  { s with wintun := some n, tasks := s.tasks.set k (.spawned config n) }

def checkDns (s : ClientApp) (k : Nat) (config : Config) (n : Nat) : ClientApp :=
  { s with tasks := s.tasks.set k (if s.config.enableDns then .sleeping config n else .watch [(.wintun, n)]) }

/-- Task `k`, after its sleep, spawns `dns`; on failure it kills the child `state.wintun` holds. -/
def spawnDns (s : ClientApp) (k : Nat) (config : Config) (n : Nat) (ok : Bool) : ClientApp :=
  if ok then
    { s.spawn .dns (dnsArgs config s.resources) with tasks := s.tasks.set k (.storeDns n s.procs.length) }
  else { s.killOpt s.wintun with wintun := none, tasks := s.tasks.set k (.watch [(.wintun, n)]) }

def storeDns (s : ClientApp) (k : Nat) (n m : Nat) : ClientApp :=
  { s with dns := some m, tasks := s.tasks.set k (.watch [(.wintun, n), (.dns, m)]) }

/-- Task `k`'s loop sees `Terminated` on the receiver of `name`: it takes both children out
of the state, kills the other one, and drops the receiver. -/
def reap (s : ClientApp) (k : Nat) (rxs : List (Sidecar × Nat)) (name : Sidecar) : ClientApp :=
  let other := match name with
    | .wintun => s.dns
    | .dns => s.wintun
  { s.killOpt other with wintun := none, dns := none, tasks := s.tasks.set k (.watch (rxs.filter (·.1 != name))) }

def finish (s : ClientApp) (k : Nat) : ClientApp :=
  { s with events := s.events ++ [false], tasks := s.tasks.eraseIdx k }

end ClientApp

inductive ClientOp where
  | start (config : Config) (saved : Bool)
  | stop
  | quit
  | spawnWintun (task : Nat) (ok : Bool)
  | storeWintun (task : Nat)
  | checkDns (task : Nat)
  | spawnDns (task : Nat) (ok : Bool)
  | storeDns (task : Nat)
  | reap (task : Nat) (name : Sidecar)
  | finish (task : Nat)
  | exit (child : Nat)
  deriving DecidableEq

/-- The steps that take the mutex: all but a process's exit and a successful `dns` spawn. -/
def ClientOp.locks : ClientOp → Bool
  | .exit _ => false
  | .spawnDns _ true => false
  | _ => true

namespace ClientApp

/-- A step; `none` once exited, for a locking step while `stop` hangs, or when it cannot be taken. -/
def step (s : ClientApp) (op : ClientOp) : Option ClientApp :=
  if s.exited || s.hung && op.locks then none else
  match op with
  | .start config saved => some (s.start config saved)
  | .stop => some s.stop
  | .quit => some s.quit
  | .exit c => if Running s.procs c then some (s.kill c) else none
  | .spawnWintun k ok =>
    match s.tasks[k]? with
    | some .spawnWintun => some (s.spawnWintun k ok)
    | _ => none
  | .storeWintun k =>
    match s.tasks[k]? with
    | some (.storeWintun config n) => some (s.storeWintun k config n)
    | _ => none
  | .checkDns k =>
    match s.tasks[k]? with
    | some (.spawned config n) => some (s.checkDns k config n)
    | _ => none
  | .spawnDns k ok =>
    match s.tasks[k]? with
    | some (.sleeping config n) => some (s.spawnDns k config n ok)
    | _ => none
  | .storeDns k =>
    match s.tasks[k]? with
    | some (.storeDns n m) => some (s.storeDns k n m)
    | _ => none
  | .reap k name =>
    match s.tasks[k]? with
    | some (.watch rxs) =>
      match rxs.lookup name with
      | some n => if s.procs[n]?.map (·.running) = some false then some (s.reap k rxs name) else none
      | none => none
    | _ => none
  | .finish k =>
    match s.tasks[k]? with
    | some (.watch []) => some (s.finish k)
    | _ => none

def run (s : ClientApp) : List ClientOp → Option ClientApp
  | [] => some s
  | op :: ops => (s.step op).bind fun s => run s ops

/-- The transitions `step` takes, each with its guard. -/
inductive Moves (s : ClientApp) : ClientOp → ClientApp → Prop
  | start (config : Config) (saved : Bool) : Moves s (.start config saved) (s.start config saved)
  | stop : Moves s .stop s.stop
  | quit : Moves s .quit s.quit
  | exit {c : Nat} : Running s.procs c → Moves s (.exit c) (s.kill c)
  | spawnWintun {k : Nat} (ok : Bool) : s.tasks[k]? = some .spawnWintun → Moves s (.spawnWintun k ok) (s.spawnWintun k ok)
  | storeWintun {k n : Nat} {config : Config} :
      s.tasks[k]? = some (.storeWintun config n) → Moves s (.storeWintun k) (s.storeWintun k config n)
  | checkDns {k n : Nat} {config : Config} :
      s.tasks[k]? = some (.spawned config n) → Moves s (.checkDns k) (s.checkDns k config n)
  | spawnDns {k n : Nat} {config : Config} (ok : Bool) :
      s.tasks[k]? = some (.sleeping config n) → Moves s (.spawnDns k ok) (s.spawnDns k config n ok)
  | storeDns {k n m : Nat} : s.tasks[k]? = some (.storeDns n m) → Moves s (.storeDns k) (s.storeDns k n m)
  | reap {k n : Nat} {rxs : List (Sidecar × Nat)} {name : Sidecar} : s.tasks[k]? = some (.watch rxs) →
      rxs.lookup name = some n → s.procs[n]?.map (·.running) = some false → Moves s (.reap k name) (s.reap k rxs name)
  | finish {k : Nat} : s.tasks[k]? = some (.watch []) → Moves s (.finish k) (s.finish k)

/-- Every step is one of the transitions, and one without the mutex while `stop` hangs. -/
theorem moves_of_step {s s' : ClientApp} {op : ClientOp} (hs : s.step op = some s') :
    s.exited = false ∧ (s.hung = true → op.locks = false) ∧ Moves s op s' := by
  unfold step at hs
  split at hs
  · cases hs
  rename_i hfree
  simp only [Bool.or_eq_true, Bool.and_eq_true, not_or, not_and, Bool.not_eq_true] at hfree
  refine ⟨hfree.1, hfree.2, ?_⟩
  cases op with
  | start config saved => cases hs; exact .start config saved
  | stop => cases hs; exact .stop
  | quit => cases hs; exact .quit
  | exit c =>
    dsimp only at hs
    split at hs <;> cases hs
    exact .exit ‹_›
  | spawnWintun k ok =>
    dsimp only at hs
    split at hs <;> cases hs
    exact .spawnWintun ok ‹_›
  | storeWintun k =>
    dsimp only at hs
    split at hs <;> cases hs
    exact .storeWintun ‹_›
  | checkDns k =>
    dsimp only at hs
    split at hs <;> cases hs
    exact .checkDns ‹_›
  | spawnDns k ok =>
    dsimp only at hs
    split at hs <;> cases hs
    exact .spawnDns ok ‹_›
  | storeDns k =>
    dsimp only at hs
    split at hs <;> cases hs
    exact .storeDns ‹_›
  | reap k name =>
    dsimp only at hs
    split at hs
    · rename_i hk
      split at hs
      · split at hs <;> cases hs
        exact .reap hk ‹_› ‹_›
      · cases hs
    · cases hs
  | finish k =>
    dsimp only at hs
    split at hs <;> cases hs
    exact .finish ‹_›

theorem step_of_moves {s s' : ClientApp} {op : ClientOp} (hex : s.exited = false) (hh : s.hung = false)
    (h : Moves s op s') : s.step op = some s' := by
  cases h <;> simp [step, hex, hh, *]

end ClientApp

theorem Running.lt_length {procs : List Proc} {n : Nat} (h : Running procs n) : n < procs.length := by
  by_contra hn
  rw [Running, List.getElem?_eq_none (Nat.le_of_not_lt hn)] at h
  cases h

namespace ClientApp

section Procs
variable (s : ClientApp)

@[simp] theorem running_kill (c n : Nat) : Running (s.kill c).procs n ↔ n ≠ c ∧ Running s.procs n := by
  unfold Running kill
  rw [List.getElem?_modify]
  by_cases h : c = n
  · subst h
    cases s.procs[c]? <;> simp
  · simp [h, Ne.symm h]

@[simp] theorem running_killOpt (o : Option Nat) (n : Nat) :
    Running (s.killOpt o).procs n ↔ o ≠ some n ∧ Running s.procs n := by
  cases o <;> simp [killOpt, eq_comm]

@[simp] theorem running_spawn (sidecar : Sidecar) (args : List String) (n : Nat) :
    Running (s.spawn sidecar args).procs n ↔ Running s.procs n ∨ n = s.procs.length := by
  unfold Running spawn
  rcases Nat.lt_trichotomy n s.procs.length with h | rfl | h
  · simp [List.getElem?_append_left h, h.ne]
  · simp
  · rw [List.getElem?_eq_none (by simp; omega), List.getElem?_eq_none (Nat.le_of_lt h)]
    simp [h.ne']

@[simp] theorem spawn_wintun (sidecar : Sidecar) (args : List String) : (s.spawn sidecar args).wintun = s.wintun := rfl
@[simp] theorem spawn_dns (sidecar : Sidecar) (args : List String) : (s.spawn sidecar args).dns = s.dns := rfl

@[simp] theorem killOpt_wintun (o : Option Nat) : (s.killOpt o).wintun = s.wintun := by cases o <;> rfl
@[simp] theorem killOpt_dns (o : Option Nat) : (s.killOpt o).dns = s.dns := by cases o <;> rfl
@[simp] theorem killOpt_tasks (o : Option Nat) : (s.killOpt o).tasks = s.tasks := by cases o <;> rfl
@[simp] theorem killOpt_events (o : Option Nat) : (s.killOpt o).events = s.events := by cases o <;> rfl
@[simp] theorem killOpt_hung (o : Option Nat) : (s.killOpt o).hung = s.hung := by cases o <;> rfl

@[simp] theorem stop_wintun : s.stop.wintun = none := by unfold stop; split <;> simp_all
@[simp] theorem stop_dns : s.stop.dns = s.dns := by unfold stop; split <;> rfl
@[simp] theorem stop_exited : s.stop.exited = s.exited := by unfold stop; split <;> rfl
@[simp] theorem stop_tasks : s.stop.tasks = s.tasks := by unfold stop; split <;> rfl

theorem stop_of_some {c : Nat} (h : s.wintun = some c) : s.stop = { s.kill c with wintun := none } := by
  simp [stop, h]

theorem stop_of_none (h : s.wintun = none) : s.stop = { s with events := s.events ++ [false], hung := true } := by
  simp [stop, h]

end Procs

end ClientApp

/-- The child a task has spawned and not yet stored. -/
def Stage.pending : Stage → Option Nat
  | .storeWintun _ n => some n
  | .storeDns _ m => some m
  | _ => none

namespace ClientApp

/-- Every running sidecar is held by the state, as `wintun` or `dns`, or is a task's
child not yet stored. -/
def Held (s : ClientApp) : Prop :=
  ∀ n, Running s.procs n → s.wintun = some n ∨ s.dns = some n ∨ ∃ st ∈ s.tasks, st.pending = some n

end ClientApp

/-- A task's stage fits the children the state holds. -/
def Stage.Fits (wintun dns : Option Nat) : Stage → Prop
  | .spawnWintun => wintun = none ∧ dns = none
  | .storeWintun _ _ => wintun = none ∧ dns = none
  | .spawned _ n => (wintun = none ∨ wintun = some n) ∧ dns = none
  | .sleeping _ n => (wintun = none ∨ wintun = some n) ∧ dns = none
  | .storeDns n _ => (wintun = none ∨ wintun = some n) ∧ dns = none
  | .watch rxs => (∀ n, wintun = some n → rxs.lookup .wintun = some n) ∧
      (∀ m, dns = some m → rxs.lookup .dns = some m) ∧ (rxs.lookup .wintun = none → dns = none)

namespace Stage

theorem fits_none (st : Stage) : st.Fits none none := by
  cases st <;> simp [Fits]

theorem Fits.release_wintun {st : Stage} {wintun dns : Option Nat} (h : st.Fits wintun dns) : st.Fits none dns := by
  cases st
  case watch rxs => exact ⟨fun _ h' => (nomatch h'), h.2⟩
  all_goals simp_all [Fits]

end Stage

namespace ClientApp

/-- At most one task runs and fits the state's children; with none, the state holds no child and
the window was last told `false`; `stop` hangs only when it finds no `wintun` child. -/
structure Inv (s : ClientApp) : Prop where
  held : s.Held
  tasks : s.tasks = [] ∧ s.wintun = none ∧ s.dns = none ∨ ∃ st, s.tasks = [st] ∧ st.Fits s.wintun s.dns
  shown : s.tasks = [] → s.events.getLast? = some false
  hung : s.hung = true → s.wintun = none

/-- A `start` that may spawn a task comes while no task runs, or while the state holds a
`wintun` child, so that it spawns none. -/
def serial (s : ClientApp) : ClientOp → Bool
  | .start _ true => s.tasks.isEmpty || s.wintun.isSome
  | _ => true

def serialRun (s : ClientApp) : List ClientOp → Bool
  | [] => true
  | op :: ops =>
    s.serial op &&
      match s.step op with
      | some s' => serialRun s' ops
      | none => true

variable {s s' : ClientApp}

theorem inv_new (file : Option Config) (resources : Resources) : Inv (new file resources) :=
  ⟨fun n h => absurd h.lt_length (Nat.not_lt_zero n), .inl ⟨rfl, rfl, rfl⟩, fun _ => rfl, fun h => nomatch h⟩

theorem Inv.task {k : Nat} {st : Stage} (h : Inv s) (hk : s.tasks[k]? = some st) :
    k = 0 ∧ s.tasks = [st] ∧ st.Fits s.wintun s.dns := by
  rcases h.tasks with ⟨ht, -⟩ | ⟨st', ht, hfit⟩
  · simp [ht] at hk
  · rw [ht] at hk ⊢
    cases k with
    | zero => cases hk; exact ⟨rfl, rfl, hfit⟩
    | succ k => simp at hk

theorem inv_start (h : Inv s) {config : Config} {saved : Bool} (hser : s.serial (.start config saved) = true) :
    Inv (s.start config saved) := by
  unfold start
  split
  · subst saved
    split
    · rename_i hw
      refine ⟨h.held, h.tasks, fun ht => absurd ht ?_, h.hung⟩
      rcases h.tasks with ⟨-, hn, -⟩ | ⟨st, hst, -⟩
      · simp [hn] at hw
      · simp [hst]
    · rename_i hw
      have ht : s.tasks = [] := by simpa [serial, hw] using hser
      obtain ⟨-, hn, hd⟩ := h.tasks.resolve_right (by simp [ht])
      refine ⟨fun n hn' => ?_, .inr ⟨.spawnWintun, by simp [ht], hn, hd⟩, by simp, h.hung⟩
      rcases h.held n hn' with h | h | ⟨st, hst, -⟩ <;> simp_all
  · exact h

theorem inv_stop (h : Inv s) : Inv s.stop := by
  cases hw : s.wintun with
  | none =>
    rw [stop_of_none s hw]
    exact ⟨h.held, h.tasks, fun _ => by simp, fun _ => hw⟩
  | some c =>
    rw [stop_of_some s hw]
    refine ⟨fun n hn => ?_, ?_, fun ht => absurd ht ?_, fun _ => rfl⟩
    · simp only [running_kill] at hn
      rcases h.held n hn.2 with hw' | hd | hp
      · exact absurd (Option.some_injective _ (hw.symm.trans hw')) hn.1.symm
      · exact .inr (.inl hd)
      · exact .inr (.inr hp)
    · rcases h.tasks with ⟨-, hn, -⟩ | ⟨st, hst, hfit⟩
      · simp [hn] at hw
      · exact .inr ⟨st, hst, hfit.release_wintun⟩
    · rcases h.tasks with ⟨-, hn, -⟩ | ⟨st, hst, -⟩
      · simp [hn] at hw
      · simp [kill, hst]

theorem quit_held (h : s.Held) (hp : ∀ st ∈ s.tasks, st.pending = none) (n : Nat) : ¬ Running s.quit.procs n := by
  simp only [quit, running_killOpt, killOpt_dns]
  rintro ⟨hw, hd, hn⟩
  rcases h n hn with h | h | ⟨st, hst, hn'⟩
  · exact hw h
  · exact hd h
  · simp [hp st hst] at hn'

theorem inv_quit (h : Inv s) : Inv s.quit := by
  refine ⟨fun n hn => ?_, h.tasks.imp (fun ⟨ht, _⟩ => ⟨by simpa [quit] using ht, rfl, rfl⟩)
      fun ⟨st, ht, _⟩ => ⟨st, by simpa [quit] using ht, st.fits_none⟩,
    fun ht => by simpa [quit] using h.shown (by simpa [quit] using ht), fun _ => rfl⟩
  simp only [quit, running_killOpt, killOpt_dns] at hn
  rcases h.held n hn.2.2 with h' | h' | hp
  · exact absurd h' hn.1
  · exact absurd h' hn.2.1
  · simpa [quit] using hp

theorem inv_exit (h : Inv s) (c : Nat) : Inv (s.kill c) :=
  ⟨fun n hn => h.held n ((running_kill s c n).mp hn).2, h.tasks, h.shown, h.hung⟩

theorem not_running_of_ended {n : Nat} (hdone : s.procs[n]?.map (·.running) = some false) :
    ¬ Running s.procs n := by
  rw [Running, hdone]
  simp

theorem inv_spawnWintun (h : Inv s) {k : Nat} (hk : s.tasks[k]? = some .spawnWintun) (ok : Bool) :
    Inv (s.spawnWintun k ok) := by
  obtain ⟨rfl, ht, hw, hd⟩ := h.task hk
  unfold spawnWintun
  split
  · refine ⟨fun n hn => ?_, .inr ⟨.storeWintun s.config s.procs.length, by simp [spawn, ht], hw, hd⟩,
      fun h' => by simp [spawn, ht] at h', h.hung⟩
    rcases (running_spawn ..).mp hn with hn | rfl
    · rcases h.held n hn with h | h | ⟨st, hst, hp⟩ <;> simp_all [Stage.pending]
    · simp [ht, Stage.pending]
  · refine ⟨fun n hn => ?_, .inl ⟨by simp [ht], hw, hd⟩, fun _ => by simp, h.hung⟩
    rcases h.held n hn with h | h | ⟨st, hst, hp⟩ <;> simp_all [Stage.pending]

theorem inv_storeWintun (h : Inv s) {k n : Nat} {config : Config} (hk : s.tasks[k]? = some (.storeWintun config n))
    (hh : s.hung = false) : Inv (s.storeWintun k config n) := by
  obtain ⟨rfl, ht, hw, hd⟩ := h.task hk
  refine ⟨fun n' hn' => ?_, .inr ⟨.spawned config n, by simp [storeWintun, ht], .inr rfl, hd⟩,
    fun h' => by simp [storeWintun, ht] at h', fun h' => by simp [storeWintun, hh] at h'⟩
  rcases h.held n' hn' with h | h | ⟨st, hst, hp⟩
  · simp [hw] at h
  · exact .inr (.inl h)
  · rw [ht, List.mem_singleton] at hst
    subst hst
    cases hp
    exact .inl rfl

theorem inv_checkDns (h : Inv s) {k n : Nat} {config : Config} (hk : s.tasks[k]? = some (.spawned config n)) :
    Inv (s.checkDns k config n) := by
  obtain ⟨rfl, ht, hw, hd⟩ := h.task hk
  refine ⟨fun n' hn' => ?_, .inr ⟨if s.config.enableDns then .sleeping config n else .watch [(.wintun, n)],
    by simp [checkDns, ht], ?_⟩, fun h' => by simp [checkDns, ht] at h', h.hung⟩
  · rcases h.held n' hn' with h | h | ⟨st, hst, hp⟩
    · exact .inl h
    · exact .inr (.inl h)
    · simp [ht, Stage.pending] at hst
      simp [hst, Stage.pending] at hp
  · show Stage.Fits s.wintun s.dns _
    split
    · exact ⟨hw, hd⟩
    · refine ⟨fun n' hn' => ?_, fun m hm => by simp [hd] at hm, fun _ => hd⟩
      rcases hw with hw | hw <;> simp_all

theorem inv_spawnDns (h : Inv s) {k n : Nat} {config : Config} (hk : s.tasks[k]? = some (.sleeping config n))
    (ok : Bool) : Inv (s.spawnDns k config n ok) := by
  obtain ⟨rfl, ht, hw, hd⟩ := h.task hk
  unfold spawnDns
  split
  · refine ⟨fun n' hn' => ?_, .inr ⟨.storeDns n s.procs.length, by simp [spawn, ht], hw, hd⟩,
      fun h' => by simp [spawn, ht] at h', h.hung⟩
    rcases (running_spawn ..).mp hn' with hn' | rfl
    · rcases h.held n' hn' with h | h | ⟨st, hst, hp⟩ <;> simp_all [Stage.pending]
    · simp [ht, Stage.pending]
  · refine ⟨fun n' hn' => ?_, .inr ⟨.watch [(.wintun, n)], by simp [ht], fun n' hn' => by simp at hn',
      fun m hm => by simp [hd] at hm, fun _ => (killOpt_dns s s.wintun).trans hd⟩, fun h' => by simp [ht] at h',
      fun _ => rfl⟩
    simp only [running_killOpt] at hn'
    rcases h.held n' hn'.2 with h | h | ⟨st, hst, hp⟩
    · exact absurd h hn'.1
    · simp [hd] at h
    · simp [ht, Stage.pending] at hst
      simp [hst, Stage.pending] at hp

theorem inv_storeDns (h : Inv s) {k n m : Nat} (hk : s.tasks[k]? = some (.storeDns n m)) (hh : s.hung = false) :
    Inv (s.storeDns k n m) := by
  obtain ⟨rfl, ht, hw, hd⟩ := h.task hk
  have hfit : (Stage.watch [(.wintun, n), (.dns, m)]).Fits s.wintun (some m) :=
    ⟨fun n' hn' => by rcases hw with hw | hw <;> simp_all, fun m' hm' => by cases hm'; rfl, fun h' => by simp at h'⟩
  refine ⟨fun n' hn' => ?_, .inr ⟨_, by simp [storeDns, ht], hfit⟩, fun h' => by simp [storeDns, ht] at h',
    fun h' => by simp [storeDns, hh] at h'⟩
  rcases h.held n' hn' with h | h | ⟨st, hst, hp⟩
  · exact .inl h
  · simp [hd] at h
  · rw [ht, List.mem_singleton] at hst
    subst hst
    cases hp
    exact .inr (.inl rfl)

theorem inv_reap (h : Inv s) {k n : Nat} {rxs : List (Sidecar × Nat)} {name : Sidecar}
    (hk : s.tasks[k]? = some (.watch rxs)) (hn : rxs.lookup name = some n)
    (hdone : s.procs[n]?.map (·.running) = some false) : Inv (s.reap k rxs name) := by
  obtain ⟨rfl, ht, hw, hd, -⟩ := h.task hk
  have hend := not_running_of_ended hdone
  have hfit : (Stage.watch (rxs.filter (·.1 != name))).Fits (s.reap 0 rxs name).wintun (s.reap 0 rxs name).dns :=
    Stage.fits_none _
  refine ⟨fun n' hn' => ?_, .inr ⟨_, by simp [reap, ht], hfit⟩, fun h' => by simp [reap, ht] at h', fun _ => rfl⟩
  simp only [reap, running_killOpt] at hn'
  rcases h.held n' hn'.2 with h | h | ⟨st, hst, hp⟩
  · cases name
    · exact absurd (Option.some_injective _ ((hw n' h).symm.trans hn) ▸ hn'.2) hend
    · exact absurd h hn'.1
  · cases name
    · exact absurd h hn'.1
    · exact absurd (Option.some_injective _ ((hd n' h).symm.trans hn) ▸ hn'.2) hend
  · simp [ht, Stage.pending] at hst
    simp [hst, Stage.pending] at hp

theorem inv_finish (h : Inv s) {k : Nat} (hk : s.tasks[k]? = some (.watch [])) : Inv (s.finish k) := by
  obtain ⟨rfl, ht, hw, hd, -⟩ := h.task hk
  have hw' : s.wintun = none := Option.eq_none_iff_forall_not_mem.mpr fun n hn => by simpa using hw n hn
  have hd' : s.dns = none := Option.eq_none_iff_forall_not_mem.mpr fun n hn => by simpa using hd n hn
  refine ⟨fun n hn => ?_, .inl ⟨by simp [finish, ht], hw', hd'⟩, fun _ => by simp [finish], fun _ => hw'⟩
  rcases h.held n hn with h | h | ⟨st, hst, hp⟩
  · simp_all
  · simp_all
  · simp [ht, Stage.pending] at hst
    simp [hst, Stage.pending] at hp

theorem step_inv (h : Inv s) {op : ClientOp} (hser : s.serial op = true) (hs : s.step op = some s') : Inv s' := by
  obtain ⟨-, hlock, hm⟩ := moves_of_step hs
  have hh : op.locks = true → s.hung = false := fun hl => by
    cases hhung : s.hung
    · rfl
    · simp [hlock hhung] at hl
  cases hm with
  | start config saved => exact inv_start h hser
  | stop => exact inv_stop h
  | quit => exact inv_quit h
  | exit _ => exact inv_exit h _
  | spawnWintun ok hk => exact inv_spawnWintun h hk ok
  | storeWintun hk => exact inv_storeWintun h hk (hh rfl)
  | checkDns hk => exact inv_checkDns h hk
  | spawnDns ok hk => exact inv_spawnDns h hk ok
  | storeDns hk => exact inv_storeDns h hk (hh rfl)
  | reap hk hn hdone => exact inv_reap h hk hn hdone
  | finish hk => exact inv_finish h hk

theorem run_inv (h : Inv s) {ops : List ClientOp} (hser : s.serialRun ops = true) (hrun : s.run ops = some s') :
    Inv s' := by
  induction ops generalizing s with
  | nil =>
    cases hrun
    exact h
  | cons op ops ih =>
    obtain ⟨t, ht, hrun⟩ := Option.bind_eq_some.mp hrun
    simp only [serialRun, Bool.and_eq_true, ht] at hser
    exact ih (step_inv h hser.1 ht) hser.2 hrun

theorem step_hung (hh : s.hung = true) {op : ClientOp} (hs : s.step op = some s') :
    s'.hung = true ∧ s'.wintun = s.wintun ∧ s'.dns = s.dns ∧ s'.events = s.events ∧
      ∀ n, Running s.procs n → Running s'.procs n ∨ op = .exit n := by
  obtain ⟨-, hlock, hm⟩ := moves_of_step hs
  have hl := hlock hh
  cases hm with
  | @exit c _ =>
    refine ⟨hh, rfl, rfl, rfl, fun n hn => ?_⟩
    by_cases hc : n = c
    · exact .inr (hc ▸ rfl)
    · exact .inl ((running_kill s c n).mpr ⟨hc, hn⟩)
  | spawnDns ok =>
    cases ok
    · cases hl
    · exact ⟨hh, rfl, rfl, rfl, fun n hn => .inl ((running_spawn ..).mpr (.inl hn))⟩
  | _ => cases hl

theorem run_hung (hh : s.hung = true) {ops : List ClientOp} (hrun : s.run ops = some s') :
    s'.hung = true ∧ s'.wintun = s.wintun ∧ s'.dns = s.dns ∧ s'.events = s.events ∧
      ∀ n, Running s.procs n → Running s'.procs n ∨ .exit n ∈ ops := by
  induction ops generalizing s with
  | nil =>
    cases hrun
    exact ⟨hh, rfl, rfl, rfl, fun _ hn => .inl hn⟩
  | cons op ops ih =>
    obtain ⟨t, ht, hrun⟩ := Option.bind_eq_some.mp hrun
    obtain ⟨hh₁, hw₁, hd₁, he₁, hr₁⟩ := step_hung hh ht
    obtain ⟨hh₂, hw₂, hd₂, he₂, hr₂⟩ := ih hh₁ hrun
    refine ⟨hh₂, hw₂.trans hw₁, hd₂.trans hd₁, he₂.trans he₁, fun n hn => ?_⟩
    rcases hr₁ n hn with hn | rfl
    · exact (hr₂ n hn).imp_right (List.mem_cons_of_mem _)
    · exact .inr (List.mem_cons_self _ _)

end ClientApp

/-- Over every serial run, every running sidecar is held or is a task's child not yet stored, `quit`
then leaves none running, and with no task running the window was last told `false`. -/
theorem serial_client_holds_sidecars (file : Option Config) (resources : Resources) (ops : List ClientOp)
    (s : ClientApp) (hserial : (ClientApp.new file resources).serialRun ops = true)
    (hrun : (ClientApp.new file resources).run ops = some s) :
    (∀ n, Running s.procs n → s.wintun = some n ∨ s.dns = some n ∨ ∃ st ∈ s.tasks, st.pending = some n) ∧
      ((∀ st ∈ s.tasks, st.pending = none) → ∀ n, ¬ Running s.quit.procs n) ∧
      (s.tasks = [] → s.events.getLast? = some false) :=
  have h := ClientApp.run_inv (ClientApp.inv_new file resources) hserial hrun
  ⟨h.held, fun hp => ClientApp.quit_held h.held hp, h.shown⟩

/-- A task's late turn on its old `wintun` exit takes the new `wintun` child out of the state
unkilled: it runs on, `stop` kills nothing, and it outlives `quit`. -/
theorem stale_exit_orphans_sidecar (s : ClientApp) (hex : s.exited = false) (hh : s.hung = false) (k n : Nat)
    (rxs : List (Sidecar × Nat)) (hk : s.tasks[k]? = some (.watch rxs)) (hrx : rxs.lookup .wintun = some n)
    (hdone : s.procs[n]?.map (·.running) = some false) (hw : s.wintun = none) (hd : s.dns ≠ some s.procs.length)
    (config : Config) :
    ∃ s', s.run [.start config true, .spawnWintun s.tasks.length true, .storeWintun s.tasks.length, .reap k .wintun] =
        some s' ∧
      Running s'.procs s.procs.length ∧ s'.wintun = none ∧ s'.dns = none ∧ s'.stop.procs = s'.procs ∧
      Running s'.quit.procs s.procs.length := by
  let s₁ : ClientApp := { s with events := s.events ++ [true], config := config, tasks := s.tasks ++ [.spawnWintun] }
  let s₂ := s₁.spawnWintun s.tasks.length true
  let s₃ := s₂.storeWintun s.tasks.length config s.procs.length
  have hlt := (List.getElem?_eq_some_iff.mp hk).1
  have h₁ : s.start config true = s₁ := by simp [ClientApp.start, hw, s₁]
  have h₂ := ClientApp.step_of_moves (s := s₁) hex hh (.spawnWintun (k := s.tasks.length) true (by simp [s₁]))
  have h₃ := ClientApp.step_of_moves (s := s₂) hex hh (@ClientApp.Moves.storeWintun s₂ s.tasks.length s.procs.length config
    (by simp [s₂, s₁, ClientApp.spawnWintun, ClientApp.spawn]))
  have hk₃ : s₃.tasks[k]? = some (.watch rxs) := by
    simp [s₃, s₂, s₁, ClientApp.storeWintun, ClientApp.spawnWintun, ClientApp.spawn, List.getElem?_set, hlt.ne',
      List.getElem?_append_left hlt, hk]
  have hn₃ : s₃.procs[n]? = s.procs[n]? := by
    have hlt : n < s.procs.length := by
      by_contra hge
      rw [List.getElem?_eq_none (Nat.le_of_not_lt hge)] at hdone
      cases hdone
    simp [s₃, s₂, s₁, ClientApp.storeWintun, ClientApp.spawnWintun, ClientApp.spawn, List.getElem?_append_left hlt]
  have h₄ := ClientApp.step_of_moves (s := s₃) hex hh (.reap hk₃ hrx (hn₃ ▸ hdone))
  have hrun₄ : Running (s₃.reap k rxs .wintun).procs s.procs.length := by
    simp [ClientApp.reap, s₃, s₂, s₁, ClientApp.storeWintun, ClientApp.spawnWintun, hd]
  refine ⟨s₃.reap k rxs .wintun, ?_, hrun₄, rfl, rfl, rfl, ?_⟩
  · simp only [ClientApp.run, ClientApp.step_of_moves hex hh (.start config true), h₁, h₂, h₃, h₄, Option.some_bind]
  · show Running (((s₃.reap k rxs .wintun).killOpt none).killOpt none).procs s.procs.length
    exact hrun₄

/-- A `stop` between a task's spawn of `wintun` and its store finds no child, tells the window
`false` and hangs holding the mutex; the child runs on, never held. -/
theorem stop_during_start_shows_stopped (s : ClientApp) (hex : s.exited = false) (hh : s.hung = false)
    (ht : s.tasks = []) (hw : s.wintun = none) (config : Config) :
    ∃ s', s.run [.start config true, .spawnWintun 0 true, .stop] = some s' ∧ s'.hung = true ∧
      Running s'.procs s.procs.length ∧ s'.events.getLast? = some false ∧
      ∀ ops s'', s'.run ops = some s'' → s''.wintun = none ∧ s''.events = s'.events ∧
        (Running s''.procs s.procs.length ∨ ClientOp.exit s.procs.length ∈ ops) := by
  let s₁ : ClientApp := { s with events := s.events ++ [true], config := config, tasks := [.spawnWintun] }
  let s₂ := s₁.spawnWintun 0 true
  have h₁ : s.start config true = s₁ := by simp [ClientApp.start, hw, ht, s₁]
  have hw₂ : s₂.wintun = none := by simp [s₂, s₁, ClientApp.spawnWintun, hw]
  have hrun : s.run [.start config true, .spawnWintun 0 true, .stop] = some s₂.stop := by
    simp only [ClientApp.run, ClientApp.step_of_moves hex hh (.start config true), h₁,
      ClientApp.step_of_moves (s := s₁) hex hh (.spawnWintun (k := 0) true rfl),
      ClientApp.step_of_moves (s := s₂) hex hh .stop, Option.some_bind]
  have hrunning : Running s₂.stop.procs s.procs.length := by
    rw [ClientApp.stop_of_none s₂ hw₂]
    exact (ClientApp.running_spawn s₁ .wintun _ _).mpr (.inr rfl)
  have hhung : s₂.stop.hung = true := by simp [ClientApp.stop_of_none s₂ hw₂]
  refine ⟨_, hrun, hhung, hrunning, by simp [ClientApp.stop_of_none s₂ hw₂], fun ops s'' hrun' => ?_⟩
  obtain ⟨-, hw'', -, he'', hr''⟩ := ClientApp.run_hung hhung hrun'
  exact ⟨hw''.trans (ClientApp.stop_wintun s₂), he'', hr'' _ hrunning⟩

/-- The resource paths of the runs below. -/
def demoResources : Resources := ⟨"config/ipset.txt", "libs/wintun.dll", "config/domain.txt"⟩

/-- `start` with the default config (no `dns`), its task's spawn and store of `wintun` and
its check of `enable_dns`; then a click on stop, which kills `wintun`. -/
def stopOnce : List ClientOp := [.start Config.default true, .spawnWintun 0 true, .storeWintun 0, .checkDns 0, .stop]

theorem restart_orphans_wintun : ∃ s, (ClientApp.new none demoResources).run stopOnce = some s ∧
    ∃ s', s.run [.start Config.default true, .spawnWintun s.tasks.length true, .storeWintun s.tasks.length,
        .reap 0 .wintun] = some s' ∧
      Running s'.procs s.procs.length ∧ s'.wintun = none ∧ s'.dns = none ∧ s'.stop.procs = s'.procs ∧
      Running s'.quit.procs s.procs.length :=
  ⟨_, rfl, stale_exit_orphans_sidecar _ (by rfl) (by rfl) 0 0 [(.wintun, 0)] (by rfl) (by rfl) (by rfl) (by rfl)
    (by decide) Config.default⟩

theorem early_stop_leaves_wintun : ∃ s', (ClientApp.new none demoResources).run
    [.start Config.default true, .spawnWintun 0 true, .stop] = some s' ∧ s'.hung = true ∧
      Running s'.procs 0 ∧ s'.events.getLast? = some false ∧
      ∀ ops s'', s'.run ops = some s'' → s''.wintun = none ∧ s''.events = s'.events ∧
        (Running s''.procs 0 ∨ ClientOp.exit 0 ∈ ops) :=
  stop_during_start_shows_stopped _ rfl rfl rfl rfl Config.default

/-- `start`, its task's spawn, store and check, `stop`, the task's turn on the exit and its
end, then `start` again with the new task's spawn and store. -/
def serialRestart : List ClientOp :=
  [.start Config.default true, .spawnWintun 0 true, .storeWintun 0, .checkDns 0, .stop, .reap 0 .wintun, .finish 0,
    .start Config.default true, .spawnWintun 0 true, .storeWintun 0]

theorem serial_restart_holds : ∃ s, (ClientApp.new none demoResources).run serialRestart = some s ∧
    (ClientApp.new none demoResources).serialRun serialRestart = true ∧
    (∀ n, Running s.procs n → s.wintun = some n ∨ s.dns = some n ∨ ∃ st ∈ s.tasks, st.pending = some n) ∧
      ((∀ st ∈ s.tasks, st.pending = none) → ∀ n, ¬ Running s.quit.procs n) ∧
      (s.tasks = [] → s.events.getLast? = some false) :=
  ⟨_, rfl, by decide, serial_client_holds_sidecars none demoResources serialRestart _ (by decide) rfl⟩

end TrojanRs
