import TrojanRs.Wire
import Mathlib.Data.List.Nodup

/-! The bypass profiler of `proxy/net_profiler.rs`. `set` is its entries in an iteration order
the environment chooses, the ping channel's `TlsConn` (not under src/) is the bytes handed to
`write_session`, a panic gives `none`, and an `Instant` counts nanoseconds. -/

namespace TrojanRs

set_option autoImplicit false

structure PingResult where
  lastTime : Nat
  localLost : UInt8
  localPing : UInt16
  remoteLost : UInt8
  remotePing : UInt16
  deriving DecidableEq

/-- Where a measurement comes from: the check routine's direct probe (`update` writes
the local pair) or the relay (`decode` writes the remote pair). -/
inductive Probe where
  | direct
  | relay
  deriving DecidableEq

namespace PingResult

def isComplete (pr : PingResult) : Bool :=
  pr.localLost != 255 && pr.localPing != 65535 && pr.remoteLost != 255 && pr.remotePing != 65535

/-- `PingResult::default()` at `Instant::now()`: every metric at its sentinel,
`u8::MAX` or `u16::MAX`. -/
def default (now : Nat) : PingResult := ⟨now, 255, 65535, 255, 65535⟩

def lost (pr : PingResult) : Probe → UInt8
  | .direct => pr.localLost
  | .relay => pr.remoteLost

def ping (pr : PingResult) : Probe → UInt16
  | .direct => pr.localPing
  | .relay => pr.remotePing

/-- A measurement written into the pair of `probe`, as `lost.min(u8::MAX - 1)` and
`ping.min(u16::MAX - 1)`. -/
def write (pr : PingResult) : Probe → UInt8 → UInt16 → PingResult
  | .direct, lost, ping => { pr with localLost := min lost 254, localPing := min ping 65534 }
  | .relay, lost, ping => { pr with remoteLost := min lost 254, remotePing := min ping 65534 }

theorem isComplete_iff (pr : PingResult) :
    pr.isComplete ↔ ∀ probe, pr.lost probe ≠ 255 ∧ pr.ping probe ≠ 65535 := by
  constructor
  · intro h probe
    simp only [isComplete, Bool.and_eq_true, bne_iff_ne] at h
    cases probe <;> simp only [lost, ping] <;> tauto
  · intro h
    have hd := h .direct
    have hr := h .relay
    simp only [lost, ping] at hd hr
    simp [isComplete, hd, hr]

@[simp] theorem lost_default (now : Nat) (probe : Probe) : (default now).lost probe = 255 := by
  cases probe <;> rfl

@[simp] theorem ping_default (now : Nat) (probe : Probe) : (default now).ping probe = 65535 := by
  cases probe <;> rfl

@[simp] theorem lost_with_lastTime (pr : PingResult) (now : Nat) (probe : Probe) :
    ({ pr with lastTime := now } : PingResult).lost probe = pr.lost probe := by
  cases probe <;> rfl

@[simp] theorem ping_with_lastTime (pr : PingResult) (now : Nat) (probe : Probe) :
    ({ pr with lastTime := now } : PingResult).ping probe = pr.ping probe := by
  cases probe <;> rfl

theorem min_lost_ne (lost : UInt8) : min lost 254 ≠ 255 := by
  show (if lost ≤ 254 then lost else 254) ≠ 255
  split
  · rintro rfl; exact absurd ‹(255 : UInt8) ≤ 254› (by decide)
  · decide

theorem min_ping_ne (ping : UInt16) : min ping 65534 ≠ 65535 := by
  show (if ping ≤ 65534 then ping else 65534) ≠ 65535
  split
  · rintro rfl; exact absurd ‹(65535 : UInt16) ≤ 65534› (by decide)
  · decide

@[simp] theorem lost_write (pr : PingResult) (probe q : Probe) (lost : UInt8) (ping : UInt16) :
    (pr.write probe lost ping).lost q = if q = probe then min lost 254 else pr.lost q := by
  cases probe <;> cases q <;> rfl

@[simp] theorem ping_write (pr : PingResult) (probe q : Probe) (lost : UInt8) (ping : UInt16) :
    (pr.write probe lost ping).ping q = if q = probe then min ping 65534 else pr.ping q := by
  cases probe <;> cases q <;> rfl

@[simp] theorem lastTime_write (pr : PingResult) (probe : Probe) (lost : UInt8) (ping : UInt16) :
    (pr.write probe lost ping).lastTime = pr.lastTime := by
  cases probe <;> rfl

end PingResult

/-- `HashMap<IpAddr, PingResult>`: its entries in iteration order, each address once. -/
structure PingSet where
  entries : List (IpAddr × PingResult)
  nodup : (entries.map Prod.fst).Nodup

namespace PingSet

def keys (t : PingSet) : List IpAddr := t.entries.map Prod.fst

def empty : PingSet := ⟨[], List.nodup_nil⟩

def get (t : PingSet) (ip : IpAddr) : Option PingResult :=
  (t.entries.find? fun e => e.1 == ip).map Prod.snd

/-- The entry of `ip` passed through `f`, the others left alone. -/
def modifyEntry (ip : IpAddr) (f : PingResult → PingResult) (e : IpAddr × PingResult) :
    IpAddr × PingResult :=
  if e.1 = ip then (e.1, f e.2) else e

theorem map_fst_modifyEntry (ip : IpAddr) (f : PingResult → PingResult)
    (l : List (IpAddr × PingResult)) : (l.map (modifyEntry ip f)).map Prod.fst = l.map Prod.fst := by
  rw [List.map_map]
  congr 1
  funext e
  simp only [Function.comp, modifyEntry]
  split <;> rfl

/-- `get_mut(ip)` and assignments to the row: the entry changes in place. -/
def modify (t : PingSet) (ip : IpAddr) (f : PingResult → PingResult) : PingSet :=
  ⟨t.entries.map (modifyEntry ip f), by rw [map_fst_modifyEntry]; exact t.nodup⟩

/-- A new entry; where a `HashMap` puts it in its order is its own affair, here last. -/
def push (t : PingSet) (ip : IpAddr) (pr : PingResult) (h : ip ∉ t.keys) : PingSet :=
  ⟨t.entries ++ [(ip, pr)], by
    rw [List.map_append]
    exact t.nodup.append (List.nodup_singleton ip) (by simpa [keys] using h)⟩

/-- `set.entry(ip).or_default().last_time = now`. -/
def touch (t : PingSet) (ip : IpAddr) (now : Nat) : PingSet :=
  if h : ip ∈ t.keys then t.modify ip fun pr => { pr with lastTime := now }
  else t.push ip { PingResult.default now with lastTime := now } h

theorem mem_keys_iff (t : PingSet) (ip : IpAddr) : ip ∈ t.keys ↔ ∃ pr, (ip, pr) ∈ t.entries := by
  simp [keys]

theorem mem_modify_iff (t : PingSet) (ip : IpAddr) (f : PingResult → PingResult)
    (ip' : IpAddr) (pr' : PingResult) :
    (ip', pr') ∈ (t.modify ip f).entries ↔
      ∃ pr, (ip', pr) ∈ t.entries ∧ pr' = if ip' = ip then f pr else pr := by
  simp only [modify, List.mem_map, modifyEntry, Prod.exists]
  constructor
  · rintro ⟨a, b, hab, he⟩
    by_cases h : a = ip
    · subst h
      simp only [if_true, Prod.mk.injEq] at he
      obtain ⟨rfl, rfl⟩ := he
      exact ⟨b, hab, by simp⟩
    · simp only [h, if_false, Prod.mk.injEq] at he
      obtain ⟨rfl, rfl⟩ := he
      exact ⟨b, hab, by simp [h]⟩
  · rintro ⟨pr, hpr, rfl⟩
    exact ⟨ip', pr, hpr, by split <;> simp [*]⟩

@[simp] theorem keys_modify (t : PingSet) (ip : IpAddr) (f : PingResult → PingResult) :
    (t.modify ip f).keys = t.keys :=
  map_fst_modifyEntry ip f t.entries

theorem mem_push_iff (t : PingSet) (ip : IpAddr) (pr : PingResult) (h : ip ∉ t.keys)
    (ip' : IpAddr) (pr' : PingResult) :
    (ip', pr') ∈ (t.push ip pr h).entries ↔ (ip', pr') ∈ t.entries ∨ (ip' = ip ∧ pr' = pr) := by
  simp [push]

theorem mem_keys_touch (t : PingSet) (ip ip' : IpAddr) (now : Nat) :
    ip' ∈ (t.touch ip now).keys ↔ ip' ∈ t.keys ∨ ip' = ip := by
  unfold touch
  split
  · rename_i h
    rw [keys_modify]
    exact ⟨.inl, fun h' => h'.elim id fun e => e ▸ h⟩
  · simp [keys, push]

theorem mem_touch_iff (t : PingSet) (ip : IpAddr) (now : Nat) (ip' : IpAddr) (pr' : PingResult) :
    (ip', pr') ∈ (t.touch ip now).entries ↔
      (∃ pr, (ip', pr) ∈ t.entries ∧ pr' = if ip' = ip then { pr with lastTime := now } else pr) ∨
        (ip' = ip ∧ ip ∉ t.keys ∧ pr' = { PingResult.default now with lastTime := now }) := by
  unfold touch
  split
  · rename_i h
    rw [mem_modify_iff]
    exact ⟨.inl, fun h' => h'.elim id fun e => absurd h e.2.1⟩
  · rename_i h
    rw [mem_push_iff]
    constructor
    · rintro (hm | ⟨rfl, rfl⟩)
      · refine .inl ⟨pr', hm, ?_⟩
        split
        · subst ip'; exact absurd ((mem_keys_iff t _).mpr ⟨pr', hm⟩) h
        · rfl
      · exact .inr ⟨rfl, h, rfl⟩
    · rintro (⟨pr, hm, rfl⟩ | ⟨rfl, -, rfl⟩)
      · split
        · subst ip'; exact absurd ((mem_keys_iff t _).mpr ⟨pr, hm⟩) h
        · exact .inl hm
      · exact .inr ⟨rfl, rfl⟩

theorem get_eq_some_iff (t : PingSet) (ip : IpAddr) (pr : PingResult) :
    t.get ip = some pr ↔ (ip, pr) ∈ t.entries := by
  simp only [get, Option.map_eq_some']
  constructor
  · rintro ⟨e, he, rfl⟩
    have hip : e.1 = ip := by simpa using List.find?_some he
    exact hip ▸ List.mem_of_find?_eq_some he
  · intro hm
    have hs : (t.entries.find? fun e => e.1 == ip).isSome :=
      List.find?_isSome.mpr ⟨(ip, pr), hm, by simp⟩
    obtain ⟨e, he⟩ := Option.isSome_iff_exists.mp hs
    have hip : e.1 = ip := by simpa using List.find?_some he
    exact ⟨e, he, (List.inj_on_of_nodup_map t.nodup (List.mem_of_find?_eq_some he) hm hip ▸ rfl)⟩

end PingSet

/-- An `UnboundedSender`: a `send` succeeds while the receiving routine runs. -/
structure Sender (α : Type) where
  alive : Bool
  sent : List α
  deriving DecidableEq

def Sender.send {α : Type} (s : Sender α) (a : α) : Bool × Sender α :=
  if s.alive then (true, { s with sent := s.sent ++ [a] }) else (false, s)

/-- The channels `new` opens to the check routine when profiling is enabled, all three
or none; `respReceiver` holds the direct results sent and not yet received. -/
structure Channels where
  checkSender : Sender IpAddr
  respReceiver : List (IpAddr × UInt16 × UInt8)
  ipsetSender : Sender (IpAddr × Bool)
  deriving DecidableEq

/-- The ping channel's `TlsConn`: the bytes handed to `write_session`, in order. -/
structure PingConn where
  session : List UInt8
  deriving DecidableEq

def PingConn.writeSession (c : PingConn) (data : List UInt8) : PingConn := ⟨c.session ++ data⟩

/-- The log lines of a measurement: written into the row of `ip`, or no row. -/
inductive LogLine where
  | result (probe : Probe) (ip : IpAddr) (lost : UInt8) (ping : UInt16)
  | notFound (ip : IpAddr)
  deriving DecidableEq

/-- `Condition`: the relay's own ping and loss, as `update` reads them from `CONDITION`. -/
structure Condition where
  ping : UInt16
  lost : UInt8
  deriving DecidableEq

structure NetProfiler where
  set : PingSet
  channels : Option Channels
  conn : Option PingConn
  sendBuffer : List UInt8
  recvBuffer : List UInt8
  log : List LogLine

/-- Modelled from the spec: `TrojanRequest::generate(PING, 0.0.0.0:0)`, the preamble
`CMD || ADDR || CRLF` with `CMD = 0xFF`. -/
def pingRequest : List UInt8 := 0xFF :: emptyAddr.encode ++ [13, 10]

/-- What `initialize` gets: no connection from the pool, one on which `reset_index` or
the request's `write_session` fails (it is shut down), or one that takes the request. -/
inductive PoolReply where
  | empty
  | failed
  | ready
  deriving DecidableEq

/-- A readiness event of the ping channel, with what `do_read` returns and the pool's answer. -/
structure ReadyEvent where
  readable : Bool
  writable : Bool
  read : Option (List UInt8)
  shutdown : Bool
  pool : PoolReply

/-- `elapsed().as_secs()` of an `Instant` read at `now`. -/
def elapsedSecs (lastTime now : Nat) : Nat := (now - lastTime) / 10 ^ 9

/-- What `decode` finds at the front of `recv_buffer`: a whole record, too few bytes
(`break`), or an address type it does not know (`unreachable!`). -/
inductive DecodeStep where
  | wait
  | record (ip : IpAddr) (ping : UInt16) (lost : UInt8) (rest : List UInt8)
  | invalid
  deriving DecidableEq

/-- A record after its address type byte, past the length check `len() < 8` or
`len() < 20` (`n + 4`): `n` octets, then `get_u16` and `get_u8`. -/
def decodeAfter (n : Nat) (mk : Mathlib.Vector UInt8 n → IpAddr) (atyp : UInt8)
    (rest : List UInt8) : DecodeStep :=
  if h : (atyp :: rest).length < n + 4 then .wait else
  match rest.drop n with
  | hi :: lo :: lost :: rest' =>
    .record (mk ⟨rest.take n, by simp at h ⊢; omega⟩) (UInt16.ofNat (ofBe16 hi lo)) lost rest'
  | _ => .wait

def decodeFront : List UInt8 → DecodeStep
  | [] => .wait
  | atyp :: rest =>
    if atyp = IPV4 then decodeAfter 4 .v4 atyp rest
    else if atyp = IPV6 then decodeAfter 16 .v6 atyp rest
    else .invalid

theorem decodeAfter_rest_lt {n : Nat} {mk : Mathlib.Vector UInt8 n → IpAddr} {atyp : UInt8}
    {rest rest' : List UInt8} {ip : IpAddr} {ping : UInt16} {lost : UInt8}
    (h : decodeAfter n mk atyp rest = .record ip ping lost rest') :
    rest'.length < (atyp :: rest).length := by
  unfold decodeAfter at h
  split at h
  · cases h
  · split at h
    · rename_i hi lo l r hd
      cases h
      have := congrArg List.length hd
      simp at this ⊢
      omega
    · cases h

theorem decodeFront_rest_lt {buf rest : List UInt8} {ip : IpAddr} {ping : UInt16} {lost : UInt8}
    (h : decodeFront buf = .record ip ping lost rest) : rest.length < buf.length := by
  match buf, h with
  | atyp :: bytes, h =>
    simp only [decodeFront] at h
    split at h
    · exact decodeAfter_rest_lt h
    · split at h
      · exact decodeAfter_rest_lt h
      · cases h

namespace NetProfiler

/-- `NetProfiler::new(enable, ..)`; the routine it spawns starts with every channel open. -/
def new (enable : Bool) : NetProfiler :=
  ⟨PingSet.empty, if enable then some ⟨⟨true, []⟩, [], ⟨true, []⟩⟩ else none, none, [], [], []⟩

/-- A measurement of `ip`: written into its row if there is one (`get_mut`), and logged. -/
def record (p : NetProfiler) (probe : Probe) (ip : IpAddr) (ping : UInt16) (lost : UInt8) :
    NetProfiler :=
  if ip ∈ p.set.keys then
    { p with set := p.set.modify ip (·.write probe lost ping),
             log := p.log ++ [.result probe ip lost ping] }
  else { p with log := p.log ++ [.notFound ip] }

section Record
variable (p : NetProfiler) (probe : Probe) (ip : IpAddr) (ping : UInt16) (lost : UInt8)

@[simp] theorem record_conn : (p.record probe ip ping lost).conn = p.conn := by
  unfold record; split <;> rfl

@[simp] theorem record_channels : (p.record probe ip ping lost).channels = p.channels := by
  unfold record; split <;> rfl

@[simp] theorem record_sendBuffer : (p.record probe ip ping lost).sendBuffer = p.sendBuffer := by
  unfold record; split <;> rfl

@[simp] theorem record_recvBuffer : (p.record probe ip ping lost).recvBuffer = p.recvBuffer := by
  unfold record; split <;> rfl

theorem record_with_recvBuffer (b : List UInt8) :
    { p with recvBuffer := b }.record probe ip ping lost = { p.record probe ip ping lost with recvBuffer := b } := by
  unfold record; split <;> rfl

end Record

def sendRemoteIp (p : NetProfiler) (ip : IpAddr) : NetProfiler :=
  let p := { p with sendBuffer := p.sendBuffer ++ ip.atyp :: ip.octets }
  match p.conn with
  | some conn => { p with sendBuffer := [], conn := some (conn.writeSession p.sendBuffer) }
  | none => p

section SendRemoteIp
variable (p : NetProfiler) (ip : IpAddr)

@[simp] theorem sendRemoteIp_set : (p.sendRemoteIp ip).set = p.set := by
  dsimp only [sendRemoteIp]; split <;> rfl

@[simp] theorem sendRemoteIp_log : (p.sendRemoteIp ip).log = p.log := by
  dsimp only [sendRemoteIp]; split <;> rfl

@[simp] theorem sendRemoteIp_channels : (p.sendRemoteIp ip).channels = p.channels := by
  dsimp only [sendRemoteIp]; split <;> rfl

end SendRemoteIp

/-- `set.get(&ip)` with `last_time.elapsed().as_secs() < 3600`. -/
def recentlyChecked (p : NetProfiler) (ip : IpAddr) (now : Nat) : Bool :=
  match p.set.get ip with
  | some pr => elapsedSecs pr.lastTime now < 3600
  | none => false

def check (p : NetProfiler) (ip : IpAddr) (now : Nat) : NetProfiler :=
  match p.channels with
  | none => p
  | some ch =>
    if p.recentlyChecked ip now then p else
    let p := p.sendRemoteIp ip
    match ch.checkSender.send ip with
    | (true, sender) =>
      { p with channels := some { ch with checkSender := sender }, set := p.set.touch ip now }
    | (false, _) => p

/-- `do_check`'s result reaches `resp_receiver`. -/
def respond (p : NetProfiler) (ip : IpAddr) (ping : UInt16) (lost : UInt8) : NetProfiler :=
  match p.channels with
  | none => p
  | some ch => { p with channels := some { ch with respReceiver := ch.respReceiver ++ [(ip, ping, lost)] } }

end NetProfiler

/-- `a` before groups: it joins the first one if that has its key, else starts its own. -/
def groupCons {α : Type} (key : α → Nat) (a : α) : List (Nat × List α) → List (Nat × List α)
  | (k, g) :: gs => if key a = k then (k, a :: g) :: gs else (key a, [a]) :: (k, g) :: gs
  | [] => [(key a, [a])]

/-- `Itertools::group_by`: the runs of consecutive elements with one key, with their key. -/
def groupBy {α : Type} (key : α → Nat) : List α → List (Nat × List α)
  | [] => []
  | a :: as => groupCons key a (groupBy key as)

/-- The key `update` groups the rows by. -/
def completeKey (e : IpAddr × PingResult) : Nat := if e.2.isComplete then 1 else 0

/-- One group of `update`'s loop: a group of complete rows replaces `ips1`, any other
group replaces `ips0` with its rows older than 100 s. -/
def collectGroup (now : Nat) (acc : List IpAddr × List IpAddr)
    (g : Nat × List (IpAddr × PingResult)) : List IpAddr × List IpAddr :=
  if g.1 = 1 then (g.2.map Prod.fst, acc.2)
  else (acc.1, g.2.filterMap fun e => if elapsedSecs e.2.lastTime now > 100 then some e.1 else none)

/-- `((100.0 - cond.lost as f32) * (100.0 - pr.remote_lost as f32) / 100.0) as u8`, exact in `f32`
for these integers: the quotient rounded toward zero and saturated. -/
def lostFactor (condLost remoteLost : UInt8) : Nat :=
  min 255 (Int.tdiv ((100 - (condLost.toNat : Int)) * (100 - (remoteLost.toNat : Int))) 100).toNat

/-- The decision `update` sends for a complete row, with `u16` and `u8` arithmetic
wrapping as in a release build. -/
def bypassFor (cond : Condition) (pr : PingResult) : Bool :=
  let proxyPing := (cond.ping.toNat + pr.remotePing.toNat) % 2 ^ 16
  let proxyLost := (100 + 2 ^ 8 - lostFactor cond.lost pr.remoteLost) % 2 ^ 8
  decide (pr.localPing.toNat < proxyPing) && decide (pr.localLost.toNat < proxyLost) &&
    decide (pr.localPing > pr.remotePing)

namespace NetProfiler

/-- One IP of `ips1.iter().for_each(..)`: its decision to the ipset routine. Every IP of
`ips1` has a row and `update` runs with the channels open; the other arm is not reached. -/
def sendBypass (cond : Condition) (p : NetProfiler) (ip : IpAddr) : NetProfiler :=
  match p.channels, p.set.get ip with
  | some ch, some pr =>
    { p with channels := some { ch with ipsetSender := (ch.ipsetSender.send (ip, bypassFor cond pr)).2 } }
  | _, _ => p

/-- The IPs `update` selects, `(ips1, ips0)`. -/
def collectIps (p : NetProfiler) (now : Nat) : List IpAddr × List IpAddr :=
  (groupBy completeKey p.set.entries).foldl (collectGroup now) ([], [])

def update (p : NetProfiler) (cond : Condition) (now : Nat) : NetProfiler :=
  match p.channels with
  | none => p
  | some ch =>
    let p := ch.respReceiver.foldl (fun p r => p.record .direct r.1 r.2.1 r.2.2)
      { p with channels := some { ch with respReceiver := [] } }
    let ips := p.collectIps now
    (ips.1.foldl (sendBypass cond) (ips.2.foldl sendRemoteIp p))

/-- `decode`'s loop over the bytes of `recv_buffer`. -/
def decodeLoop (p : NetProfiler) : List UInt8 → Option NetProfiler
  | [] => some { p with recvBuffer := [] }
  | b :: bs =>
    match _h : decodeFront (b :: bs) with
    | .wait => some { p with recvBuffer := b :: bs }
    | .invalid => none
    | .record ip ping lost rest => decodeLoop (p.record .relay ip ping lost) rest
termination_by buf => buf.length
decreasing_by exact decodeFront_rest_lt ‹_›

section DecodeLoop
variable (p : NetProfiler) {b : UInt8} {bs : List UInt8}

theorem decodeLoop_of_record {ip : IpAddr} {ping : UInt16} {lost : UInt8} {rest : List UInt8}
    (h : decodeFront (b :: bs) = .record ip ping lost rest) :
    p.decodeLoop (b :: bs) = (p.record .relay ip ping lost).decodeLoop rest := by
  rw [decodeLoop]; split <;> simp_all

theorem decodeLoop_of_wait (h : decodeFront (b :: bs) = .wait) :
    p.decodeLoop (b :: bs) = some { p with recvBuffer := b :: bs } := by
  rw [decodeLoop]; split <;> simp_all

theorem decodeLoop_of_invalid (h : decodeFront (b :: bs) = .invalid) :
    p.decodeLoop (b :: bs) = none := by
  rw [decodeLoop]; split <;> simp_all

end DecodeLoop

def decode (p : NetProfiler) : Option NetProfiler := p.decodeLoop p.recvBuffer

/-- `initialize`: the pool's connection becomes the ping channel once it has taken the
request. -/
def init (p : NetProfiler) : PoolReply → NetProfiler
  | .ready => { p with conn := some ⟨pingRequest⟩ }
  | _ => p

def reset (p : NetProfiler) (pool : PoolReply) : NetProfiler :=
  { p with conn := none }.init pool

/-- `if event.is_readable()`: what `do_read` returns joins `recv_buffer`, then `decode`. -/
def onReadable (p : NetProfiler) (e : ReadyEvent) : Option NetProfiler :=
  match e.readable, e.read with
  | true, some data => { p with recvBuffer := p.recvBuffer ++ data }.decode
  | _, _ => some p

/-- `if event.is_writable()`: `send_buffer` goes to the relay. -/
def onWritable (p : NetProfiler) (e : ReadyEvent) : NetProfiler :=
  match e.writable, p.conn with
  | true, some conn =>
    { p with sendBuffer := [],
             conn := some (if p.sendBuffer = [] then conn else conn.writeSession p.sendBuffer) }
  | _, _ => p

def ready (p : NetProfiler) (e : ReadyEvent) : Option NetProfiler :=
  match p.conn with
  | none => some p
  | some _ =>
    (p.onReadable e).map fun p =>
      let p := p.onWritable e
      if e.shutdown then p.reset e.pool else p

end NetProfiler

/-- One call on the profiler, or a direct result reaching its channel, with any ping and loss:
`do_check` sends at most 999 ms and 100 losses (`doCheck`). -/
inductive ProfilerOp where
  | init (pool : PoolReply)
  | check (ip : IpAddr) (now : Nat)
  | respond (ip : IpAddr) (ping : UInt16) (lost : UInt8)
  | update (cond : Condition) (now : Nat)
  | ready (event : ReadyEvent)

namespace NetProfiler

def step (p : NetProfiler) : ProfilerOp → Option NetProfiler
  | .init pool => some (p.init pool)
  | .check ip now => some (p.check ip now)
  | .respond ip ping lost => some (p.respond ip ping lost)
  | .update cond now => some (p.update cond now)
  | .ready e => p.ready e

/-- A run; `none` once a call panics. -/
def run : NetProfiler → List ProfilerOp → Option NetProfiler
  | p, [] => some p
  | p, op :: ops =>
    match p.step op with
    | none => none
    | some p => run p ops

theorem run_append (p : NetProfiler) (ops₁ ops₂ : List ProfilerOp) :
    p.run (ops₁ ++ ops₂) = (p.run ops₁).bind fun p => p.run ops₂ := by
  induction ops₁ generalizing p with
  | nil => rfl
  | cons op ops ih =>
    simp only [List.cons_append, run]
    split
    · rfl
    · exact ih _

end NetProfiler

end TrojanRs
