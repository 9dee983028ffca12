import Mathlib.Data.List.Basic

/-! The Android bridge of `mobile/src-tauri/src/platform/android.rs`: the VPN's running flags
under `CONTEXT`, the Java callbacks through `call_static_method`, and the TUN `Session`.
`process_vpn` is not under src/; its thread only reads its flag. -/

namespace TrojanRs

set_option autoImplicit false

/-- `AndroidContext` without its `JavaVM`: the running flag and the TUN descriptor. -/
structure AndroidContext where
  running : Nat
  fd : Int
  deriving DecidableEq

/-- `CONTEXT`, every `AtomicBool` made so far, and the flag of each processing thread,
in the order `on_vpn_start` spawned them. -/
structure Bridge where
  context : Option AndroidContext
  flags : List Bool
  threads : List Nat
  deriving DecidableEq

/-- A call from the host, with whether the JNI calls it makes succeed. -/
inductive BridgeCall where
  | initRust (jvm : Bool)
  | onVpnStart (fd : Int) (emitted : Bool)
  | onVpnStop (emitted : Bool)
  deriving DecidableEq

namespace Bridge

/-- Before the host's first call. -/
def new : Bridge := ⟨none, [], []⟩

def initRust (b : Bridge) (jvm : Bool) : Bool × Bridge :=
  if jvm then (true, { b with context := some ⟨b.flags.length, -1⟩, flags := b.flags ++ [false] })
  else (false, b)

/-- Without a context, `get_mut_context` fails with `NoPlatformContext`. -/
def onVpnStart (b : Bridge) (fd : Int) (emitted : Bool) : Bool × Bridge :=
  match b.context with
  | none => (false, b)
  | some _ => (emitted, ⟨some ⟨b.flags.length, fd⟩, b.flags ++ [true], b.threads ++ [b.flags.length]⟩)

def onVpnStop (b : Bridge) (emitted : Bool) : Bool × Bridge :=
  match b.context with
  | none => (false, b)
  | some ctx =>
    (emitted, { b with context := some { ctx with fd := -1 }, flags := b.flags.set ctx.running false })

def step (b : Bridge) : BridgeCall → Bool × Bridge
  | .initRust jvm => b.initRust jvm
  | .onVpnStart fd emitted => b.onVpnStart fd emitted
  | .onVpnStop emitted => b.onVpnStop emitted

def run (b : Bridge) : List BridgeCall → Bridge
  | [] => b
  | c :: cs => (b.step c).2.run cs

/-- The flag at `i` is set. -/
def flagSet (b : Bridge) (i : Nat) : Bool := b.flags[i]?.getD false

/-- A VPN runs: the context's flag is set. -/
def vpnRunning (b : Bridge) : Bool :=
  match b.context with
  | some ctx => b.flagSet ctx.running
  | none => false

/-- A call the host makes only while no VPN runs: a start or a re-initialisation. -/
def startsAnew : BridgeCall → Bool
  | .onVpnStop _ => false
  | _ => true

/-- The host starts or re-initialises only while no VPN runs. -/
def Disciplined : Bridge → List BridgeCall → Bool
  | _, [] => true
  | b, c :: cs => (!startsAnew c || !b.vpnRunning) && Disciplined (b.step c).2 cs

/-- Every set flag is the one the context holds. -/
def FlagsFollow (b : Bridge) : Prop :=
  ∀ i, b.flagSet i = true → ∃ ctx, b.context = some ctx ∧ ctx.running = i

theorem getD_append_flag (l : List Bool) (x : Bool) (i : Nat) :
    (l ++ [x])[i]?.getD false = if i = l.length then x else l[i]?.getD false := by
  rcases Nat.lt_trichotomy i l.length with h | rfl | h
  · rw [List.getElem?_append_left h, if_neg (Nat.ne_of_lt h)]
  · simp
  · rw [if_neg (Nat.ne_of_gt h), List.getElem?_eq_none (by simp; omega),
      List.getElem?_eq_none (Nat.le_of_lt h)]

theorem getD_set_flag (l : List Bool) (j i : Nat) :
    (l.set j false)[i]?.getD false = if i = j then false else l[i]?.getD false := by
  rw [List.getElem?_set]
  by_cases h : i = j
  · subst h; simp only [if_true]; split <;> rfl
  · rw [if_neg (Ne.symm h), if_neg h]

theorem flagsFollow_clear {b : Bridge} (hf : b.FlagsFollow) (hrun : b.vpnRunning = false) (i : Nat) :
    b.flagSet i = false := by
  by_contra h
  obtain ⟨ctx, hctx, rfl⟩ := hf i (by simpa using h)
  simp [vpnRunning, hctx, h] at hrun

theorem flagsFollow_other {b : Bridge} (hf : b.FlagsFollow) {ctx : AndroidContext}
    (hctx : b.context = some ctx) {i : Nat} (hi : i ≠ ctx.running) : b.flagSet i = false := by
  by_contra h
  obtain ⟨ctx', hctx', rfl⟩ := hf i (by simpa using h)
  cases hctx.symm.trans hctx'
  exact hi rfl

theorem flagsFollow_push {b : Bridge} (hf : b.FlagsFollow) (hrun : b.vpnRunning = false)
    (x : Bool) (fd : Int) (threads : List Nat) :
    (⟨some ⟨b.flags.length, fd⟩, b.flags ++ [x], threads⟩ : Bridge).FlagsFollow := by
  intro i hi
  simp only [flagSet, getD_append_flag] at hi
  split at hi
  · exact ⟨_, rfl, ‹i = _›.symm⟩
  · exact absurd ((flagsFollow_clear hf hrun i).symm.trans hi) Bool.false_ne_true

theorem onVpnStop_clears {b : Bridge} (hf : b.FlagsFollow) (emitted : Bool) (i : Nat) :
    (b.onVpnStop emitted).2.flagSet i = false := by
  unfold onVpnStop
  split
  · by_contra h
    obtain ⟨_, h, -⟩ := hf i (by simpa using h)
    simp_all
  · simp only [flagSet, getD_set_flag]
    split
    · rfl
    · exact flagsFollow_other hf ‹_› ‹_›

theorem step_flagsFollow {b : Bridge} (hf : b.FlagsFollow) (c : BridgeCall)
    (hc : !startsAnew c || !b.vpnRunning) : (b.step c).2.FlagsFollow := by
  cases c with
  | initRust jvm =>
    cases jvm
    · exact hf
    · exact flagsFollow_push hf (by simpa [startsAnew] using hc) false (-1) b.threads
  | onVpnStart fd emitted =>
    show (b.onVpnStart fd emitted).2.FlagsFollow
    unfold onVpnStart
    split
    · exact hf
    · exact flagsFollow_push hf (by simpa [startsAnew] using hc) true fd _
  | onVpnStop emitted =>
    exact fun i hi => absurd ((onVpnStop_clears hf emitted i).symm.trans hi) Bool.false_ne_true

theorem run_flagsFollow {b : Bridge} (hf : b.FlagsFollow) (calls : List BridgeCall)
    (h : b.Disciplined calls = true) : (b.run calls).FlagsFollow := by
  induction calls generalizing b with
  | nil => exact hf
  | cons c cs ih =>
    simp only [Disciplined, Bool.and_eq_true] at h
    exact ih (step_flagsFollow hf c h.1) h.2

/-- When the VPN is started or re-initialised only while none runs, every set flag is the
context's, and after a stop no flag is set. -/
theorem flags_follow_context (calls : List BridgeCall) (h : new.Disciplined calls = true) :
    (∀ t ∈ (new.run calls).threads, (new.run calls).flagSet t = true →
      (new.run calls).context.map (·.running) = some t) ∧
    ∀ emitted, ((new.run calls).onVpnStop emitted).1 = true →
      ∀ t ∈ ((new.run calls).onVpnStop emitted).2.threads,
        ((new.run calls).onVpnStop emitted).2.flagSet t = false := by
  have hf := run_flagsFollow (b := new) (fun i hi => by simp [flagSet, new] at hi) calls h
  refine ⟨fun t _ ht => ?_, fun emitted _ t _ => onVpnStop_clears hf emitted t⟩
  obtain ⟨ctx, hctx, rfl⟩ := hf t ht
  simp [hctx]

/-- Start, stop, and start again. -/
def restartRun : List BridgeCall :=
  [.initRust true, .onVpnStart 5 true, .onVpnStop true, .onVpnStart 6 true]

theorem restart_flags_follow :
    new.Disciplined restartRun = true ∧
    (∀ t ∈ (new.run restartRun).threads, (new.run restartRun).flagSet t = true →
      (new.run restartRun).context.map (·.running) = some t) ∧
    ∀ emitted, ((new.run restartRun).onVpnStop emitted).1 = true →
      ∀ t ∈ ((new.run restartRun).onVpnStop emitted).2.threads,
        ((new.run restartRun).onVpnStop emitted).2.flagSet t = false :=
  ⟨by decide, flags_follow_context restartRun (by decide)⟩

/-- Two starts with no stop between them, then a stop. -/
def doubleStartRun : List BridgeCall :=
  [.initRust true, .onVpnStart 5 true, .onVpnStart 6 true]

/-- The stop returns `Ok`, yet the first start's thread keeps its flag set, and it is
not the context's flag. -/
theorem second_start_outlives_stop :
    ((new.run doubleStartRun).onVpnStop true).1 = true ∧
      1 ∈ ((new.run doubleStartRun).onVpnStop true).2.threads ∧
      ((new.run doubleStartRun).onVpnStop true).2.flagSet 1 = true ∧
      ((new.run doubleStartRun).onVpnStop true).2.context.map (·.running) = some 2 := by
  decide

/-! ## The calls into Java: each wrapper is `callStatic` with its own method of
`MainActivity`, signature, arguments and reading of the result. -/

end Bridge

/-- A JNI argument or result type, with its descriptor. -/
inductive JavaType where
  | int
  | bool
  | string
  | void
  deriving DecidableEq

def JavaType.descriptor : JavaType → String
  | .int => "I"
  | .bool => "Z"
  | .string => "Ljava/lang/String;"
  | .void => "V"

/-- The signature of a method taking `args` and returning `ret`. -/
def JavaType.signature (args : List JavaType) (ret : JavaType) : String :=
  "(" ++ String.join (args.map descriptor) ++ ")" ++ ret.descriptor

/-- An argument: an `i32`, or a string made with `new_string`. -/
inductive JavaArg where
  | int (v : Int)
  | str (s : String)
  deriving DecidableEq

def JavaArg.type : JavaArg → JavaType
  | .int _ => .int
  | .str _ => .string

/-- What a static method returns, as the wrappers read it. -/
inductive JavaValue where
  | void
  | bool (b : Bool)
  | str (s : String)
  deriving DecidableEq

/-- A static call on `MainActivity`. -/
structure JavaCall where
  name : String
  sig : String
  args : List JavaArg
  deriving DecidableEq

/-- What the JNI environment does during one wrapper: whether `attach_current_thread`
and the `new_string`s succeed, and what the method returns (`none` when it throws). -/
structure JniAnswer where
  attached : Bool
  strings : Bool
  result : Option JavaValue
  deriving DecidableEq

/-- `VpnError`, as the wrappers return it: no context yet, or a JNI failure. -/
inductive VpnError where
  | noPlatformContext
  | jni
  deriving DecidableEq

namespace Bridge

/-- The wrappers' body, with the Java call it made, if any. -/
def callStatic {α : Type} (b : Bridge) (name sig : String) (args : List JavaArg) (read : JavaValue → Option α)
    (ans : JniAnswer) : Except VpnError α × Option JavaCall :=
  match b.context with
  | none => (.error .noPlatformContext, none)
  | some _ =>
    if !ans.attached || (args.any (·.type == .string) && !ans.strings) then (.error .jni, none)
    else
      match ans.result with
      | none => (.error .jni, some ⟨name, sig, args⟩)
      | some v => ((read v).elim (.error .jni) .ok, some ⟨name, sig, args⟩)

/-- `ret.z()`. -/
def readBool : JavaValue → Option Bool
  | .bool b => some b
  | _ => none

/-- `ret.l()` read with `get_string`. -/
def readString : JavaValue → Option String
  | .str s => some s
  | _ => none

def startVpn (b : Bridge) (mtu : Int) : JniAnswer → Except VpnError Unit × Option JavaCall :=
  b.callStatic "startVpn" "(I)V" [.int mtu] fun _ => some ()

def stopVpn (b : Bridge) : JniAnswer → Except VpnError Unit × Option JavaCall :=
  b.callStatic "stopVpn" "()V" [] fun _ => some ()

def checkSelfPermission (b : Bridge) (permission : String) : JniAnswer → Except VpnError Bool × Option JavaCall :=
  b.callStatic "checkSelfPermission" "(Ljava/lang/String;)Z" [.str permission] readBool

def requestPermission (b : Bridge) (permission : String) : JniAnswer → Except VpnError Unit × Option JavaCall :=
  b.callStatic "requestPermission" "(Ljava/lang/String;)V" [.str permission] fun _ => some ()

def shouldShowPermissionRationale (b : Bridge) (permission : String) :
    JniAnswer → Except VpnError Bool × Option JavaCall :=
  b.callStatic "shouldShowRequestPermissionRationaleNative" "(Ljava/lang/String;)Z" [.str permission] readBool

def updateNotification (b : Bridge) (content : String) : JniAnswer → Except VpnError Unit × Option JavaCall :=
  b.callStatic "updateNotification" "(Ljava/lang/String;)V" [.str content] fun _ => some ()

def saveData (b : Bridge) (key content : String) : JniAnswer → Except VpnError Unit × Option JavaCall :=
  b.callStatic "saveData" "(Ljava/lang/String;Ljava/lang/String;)V" [.str key, .str content] fun _ => some ()

def loadData (b : Bridge) (key : String) : JniAnswer → Except VpnError String × Option JavaCall :=
  b.callStatic "loadData" "(Ljava/lang/String;)Ljava/lang/String;" [.str key] readString

theorem callStatic_spec {α : Type} (b : Bridge) (name sig : String) (args : List JavaArg)
    (read : JavaValue → Option α) (ans : JniAnswer) :
    (b.context = none → b.callStatic name sig args read ans = (.error .noPlatformContext, none)) ∧
      (∀ c, (b.callStatic name sig args read ans).2 = some c → c = ⟨name, sig, args⟩) ∧
      ∀ a, (b.callStatic name sig args read ans).1 = .ok a →
        ∃ v, ans.result = some v ∧ read v = some a ∧ (b.callStatic name sig args read ans).2 = some ⟨name, sig, args⟩ := by
  unfold callStatic
  cases b.context with
  | none =>
    dsimp only
    exact ⟨fun _ => rfl, fun c hc => (by cases hc), fun a ha => by cases ha⟩
  | some ctx =>
    dsimp only
    refine ⟨fun h => (by cases h), ?_⟩
    split
    · exact ⟨fun c hc => (by cases hc), fun a ha => by cases ha⟩
    · cases ans.result with
      | none => exact ⟨fun c hc => (Option.some.inj hc).symm, fun a ha => by cases ha⟩
      | some v =>
        refine ⟨fun c hc => (Option.some.inj hc).symm, fun a ha => ⟨v, rfl, ?_, rfl⟩⟩
        change (read v).elim (Except.error VpnError.jni) Except.ok = Except.ok a at ha
        cases hv : read v with
        | none => rw [hv] at ha; cases ha
        | some a' => rw [hv] at ha; cases ha; rfl

/-- A call, if made, has a signature that describes its arguments and the result `ret`. -/
def SigOk (call : Option JavaCall) (ret : JavaType) : Prop :=
  ∀ c, call = some c → c.sig = JavaType.signature (c.args.map (·.type)) ret

theorem sigOk_callStatic {α : Type} (b : Bridge) {name sig : String} {args : List JavaArg} {ret : JavaType}
    (read : JavaValue → Option α) (ans : JniAnswer) (h : sig = JavaType.signature (args.map (·.type)) ret) :
    SigOk (b.callStatic name sig args read ans).2 ret := fun c hc => by
  rw [(callStatic_spec b name sig args read ans).2.1 c hc]
  exact h

theorem wrapper_signatures (b : Bridge) (ans : JniAnswer) (mtu : Int) (permission content key : String) :
    SigOk (b.startVpn mtu ans).2 .void ∧ SigOk (b.stopVpn ans).2 .void ∧
      SigOk (b.checkSelfPermission permission ans).2 .bool ∧ SigOk (b.requestPermission permission ans).2 .void ∧
      SigOk (b.shouldShowPermissionRationale permission ans).2 .bool ∧
      SigOk (b.updateNotification content ans).2 .void ∧ SigOk (b.saveData key content ans).2 .void ∧
      SigOk (b.loadData key ans).2 .string :=
  ⟨sigOk_callStatic b _ ans rfl, sigOk_callStatic b _ ans rfl, sigOk_callStatic b _ ans rfl,
    sigOk_callStatic b _ ans rfl, sigOk_callStatic b _ ans rfl, sigOk_callStatic b _ ans rfl,
    sigOk_callStatic b _ ans rfl, sigOk_callStatic b _ ans rfl⟩

end Bridge

/-! ## The TUN session, over the descriptor `on_vpn_start` received, which the host owns. -/

/-- What one `read` of the TUN descriptor meets. -/
inductive TunRead where
  | packet (data : List UInt8)
  | wouldBlock
  | eof
  | error
  deriving DecidableEq

/-- `Packet::new(size)`: `size` zero bytes. -/
def Packet.new (size : UInt16) : List UInt8 := List.replicate size.toNat 0

namespace Session

/-- `Session::try_receive`: `Ok(0)` is taken for the end of the file, `WouldBlock` gives
`Ok(None)`, and `set_len(n)` keeps the `n` bytes read. -/
def tryReceive (mtu : Nat) : TunRead → Except Unit (Option (List UInt8))
  | .packet data =>
    let buf := Packet.new (UInt16.ofNat mtu)
    let n := min data.length buf.length
    if n = 0 then .error () else .ok (some ((data.take n ++ buf.drop n).take n))
  | .wouldBlock => .ok none
  | .eof => .error ()
  | .error => .error ()

/-- A packet is cut to its first `mtu mod 65536` bytes; an empty one, or an empty buffer,
reads as the end of the file. -/
theorem tryReceive_packet (mtu : Nat) (data : List UInt8) :
    tryReceive mtu (.packet data) =
      if data = [] ∨ mtu % 65536 = 0 then .error () else .ok (some (data.take (mtu % 65536))) := by
  have hbuf : (Packet.new (UInt16.ofNat mtu)).length = mtu % 65536 := List.length_replicate _ _
  have hread : (data.take (min data.length (mtu % 65536)) ++ (Packet.new (UInt16.ofNat mtu)).drop
      (min data.length (mtu % 65536))).take (min data.length (mtu % 65536)) = data.take (mtu % 65536) := by
    rw [List.take_append_of_le_length (by simp), List.take_take, Nat.min_self]
    rcases Nat.le_total data.length (mtu % 65536) with h | h
    · rw [Nat.min_eq_left h, List.take_length, List.take_of_length_le h]
    · rw [Nat.min_eq_right h]
  simp only [tryReceive, hbuf, hread]
  congr 1
  simp only [Nat.min_eq_zero_iff, List.length_eq_zero]

/-- `allocate_send_packet(size)`. -/
def allocateSendPacket (size : UInt16) : List UInt8 := Packet.new size

/-- `send_packet`: `write_all` of the packet's bytes, appended to what the descriptor got;
a failed write is only logged. -/
def sendPacket (written : List (List UInt8)) (packet : List UInt8) (ok : Bool) : List (List UInt8) :=
  if ok then written ++ [packet] else written

end Session

end TrojanRs
