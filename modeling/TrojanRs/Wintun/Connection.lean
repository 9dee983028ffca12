import TrojanRs.Wire

/-! One UDP flow, `Connection` of `wintun/udp1.rs`. `TlsConn` is not under src/: it is the
relay's end, which answers each call from a script the relay side chooses (an exhausted one
blocks) and records every call made on it and every byte it took. -/

namespace TrojanRs

set_option autoImplicit false

/-- Rust's `io::Result`, with `ErrorKind::WouldBlock` told apart from the other errors. -/
inductive IoResult (α : Type) where
  | ok (a : α)
  | wouldBlock
  | error
  deriving DecidableEq

/-- The relay side's answer to one `write`, `flush` or `send_all`;
`accept n` takes the first `n` bytes offered (all of them if fewer). -/
inductive WriteReply where
  | accept (n : Nat)
  | wouldBlock
  | error
  deriving DecidableEq

/-- The relay side's answer to one `read`; `ready n` hands over up to `n` of the
bytes that have arrived, and blocks when none has. -/
inductive ReadReply where
  | ready (n : Nat)
  | eof
  | wouldBlock
  | error
  deriving DecidableEq

inductive Call where
  | write
  | flush
  | sendAll
  | read
  | close
  deriving DecidableEq

structure TlsConn where
  token : Nat
  writes : List WriteReply
  reads : List ReadReply
  inbound : List UInt8
  sent : List UInt8
  calls : List Call

namespace TlsConn

def record (c : TlsConn) (call : Call) : TlsConn := { c with calls := c.calls ++ [call] }

section Record
variable (c : TlsConn) (call : Call)
@[simp] theorem record_calls : (c.record call).calls = c.calls ++ [call] := rfl
@[simp] theorem record_sent : (c.record call).sent = c.sent := rfl
@[simp] theorem record_writes : (c.record call).writes = c.writes := rfl
@[simp] theorem record_reads : (c.record call).reads = c.reads := rfl
@[simp] theorem record_inbound : (c.record call).inbound = c.inbound := rfl
@[simp] theorem record_token : (c.record call).token = c.token := rfl
end Record

/-- The next answer to a write-side call. -/
def nextWrite (c : TlsConn) : WriteReply × TlsConn :=
  match c.writes with
  | [] => (.wouldBlock, c)
  | r :: rs => (r, { c with writes := rs })

/-- `write(data)` answered by `r`: an accepted prefix reaches the relay. -/
def answerWrite (c : TlsConn) (data : List UInt8) : WriteReply → IoResult Nat × TlsConn
  | .accept n => (.ok (min n data.length), { c with sent := c.sent ++ data.take n })
  | .wouldBlock => (.wouldBlock, c)
  | .error => (.error, c)

def write (c : TlsConn) (data : List UInt8) : IoResult Nat × TlsConn :=
  (c.nextWrite.2.record .write).answerWrite data c.nextWrite.1

def flush (c : TlsConn) : IoResult Unit × TlsConn :=
  let c' := c.nextWrite.2.record .flush
  match c.nextWrite.1 with
  | .accept _ => (.ok (), c')
  | .wouldBlock => (.wouldBlock, c')
  | .error => (.error, c')

@[simp] theorem nextWrite_sent (c : TlsConn) : c.nextWrite.2.sent = c.sent := by
  unfold nextWrite; split <;> rfl

theorem flush_snd (c : TlsConn) : c.flush.2 = c.nextWrite.2.record .flush := by
  unfold flush; split <;> rfl

@[simp] theorem nextWrite_calls (c : TlsConn) : c.nextWrite.2.calls = c.calls := by
  unfold nextWrite; split <;> rfl

/-- Modelled from the spec (`utils::send_all` is not under src/): the relay takes a prefix of the
staging buffer, and the answer says whether it was emptied. -/
def sendAll (c : TlsConn) (buffer : List UInt8) : IoResult Bool × List UInt8 × TlsConn :=
  let c' := c.nextWrite.2.record .sendAll
  match c.nextWrite.1 with
  | .accept n => (.ok (decide (buffer.length ≤ n)), buffer.drop n,
      { c' with sent := c'.sent ++ buffer.take n })
  | .wouldBlock => (.ok (decide (buffer = [])), buffer, c')
  | .error => (.error, buffer, c')

/-- `read` into a slice of `room > 0` bytes, answered by `r`. -/
def answerRead (c : TlsConn) (room : Nat) : ReadReply → IoResult (List UInt8) × TlsConn
  | .ready n =>
    if c.inbound = [] then (.wouldBlock, c)
    else (.ok (c.inbound.take (min n room)), { c with inbound := c.inbound.drop (min n room) })
  | .eof => (.ok [], c)
  | .wouldBlock => (.wouldBlock, c)
  | .error => (.error, c)

def close (c : TlsConn) : TlsConn := c.record .close

@[simp] theorem answerWrite_calls (c : TlsConn) (data : List UInt8) (r : WriteReply) :
    (c.answerWrite data r).2.calls = c.calls := by
  cases r <;> rfl

@[simp] theorem write_calls (c : TlsConn) (data : List UInt8) :
    (c.write data).2.calls = c.calls ++ [.write] := by
  simp [write]

@[simp] theorem sendAll_calls (c : TlsConn) (buffer : List UInt8) :
    (c.sendAll buffer).2.2.calls = c.calls ++ [.sendAll] := by
  unfold sendAll; split <;> simp

@[simp] theorem answerRead_calls (c : TlsConn) (room : Nat) (r : ReadReply) :
    (c.answerRead room r).2.calls = c.calls := by
  cases r <;> simp only [answerRead]
  split <;> rfl

end TlsConn

/-- A readiness event on the flow's TLS connection. -/
structure Event where
  readable : Bool
  writable : Bool
  deriving DecidableEq

/-- A payload `UdpSocketRef::write` hands to the UDP socket `socket`, addressed to `endpoint`. -/
structure Datagram where
  socket : Nat
  endpoint : IpEndpoint
  payload : List UInt8
  deriving DecidableEq

structure Connection where
  token : Nat
  «local» : Nat
  remote : TlsConn
  rclosed : Bool
  rbuffer : List UInt8
  lbuffer : List UInt8
  endpoint : IpEndpoint
  established : Bool

/-- The capacity of `lbuffer` (`Vec::with_capacity(1500)`, never grown). -/
def lbufferCapacity : Nat := 1500

namespace Connection

def closeRemote (c : Connection) : Connection :=
  if c.rclosed then c else { c with remote := c.remote.close, rclosed := true }

section CloseRemote
variable (c : Connection)
@[simp] theorem closeRemote_rclosed : c.closeRemote.rclosed = true := by
  unfold closeRemote; split <;> simp_all
@[simp] theorem closeRemote_rbuffer : c.closeRemote.rbuffer = c.rbuffer := by
  unfold closeRemote; split <;> rfl
@[simp] theorem closeRemote_lbuffer : c.closeRemote.lbuffer = c.lbuffer := by
  unfold closeRemote; split <;> rfl
@[simp] theorem closeRemote_established : c.closeRemote.established = c.established := by
  unfold closeRemote; split <;> rfl
@[simp] theorem closeRemote_sent : c.closeRemote.remote.sent = c.remote.sent := by
  unfold closeRemote; split <;> rfl
theorem closeRemote_calls :
    c.closeRemote.remote.calls = if c.rclosed then c.remote.calls else c.remote.calls ++ [.close] := by
  unfold closeRemote; split <;> rfl
end CloseRemote

def flushRemote (c : Connection) : Connection :=
  match c.remote.flush with
  | (.error, remote) => { c with remote }.closeRemote
  | (_, remote) => { c with remote }

section FlushRemote
variable (c : Connection)
@[simp] theorem flushRemote_sent : c.flushRemote.remote.sent = c.remote.sent := by
  unfold flushRemote
  split <;> rename_i heq <;>
  · have h := congrArg Prod.snd heq
    simp only [TlsConn.flush_snd] at h
    simp [← h]
@[simp] theorem flushRemote_rbuffer : c.flushRemote.rbuffer = c.rbuffer := by
  unfold flushRemote; split <;> simp
@[simp] theorem flushRemote_lbuffer : c.flushRemote.lbuffer = c.lbuffer := by
  unfold flushRemote; split <;> simp
@[simp] theorem flushRemote_established : c.flushRemote.established = c.established := by
  unfold flushRemote; split <;> simp
end FlushRemote

/-- The write loop of `local_to_remote`: `none` when it closed the connection, else what it left. -/
def sendLoop (header body : List UInt8) :
    List WriteReply → Connection → List UInt8 → Nat → Connection × Option (List UInt8 × Nat)
  | _, c, [], offset => (c, some ([], offset))
  | [], c, data, offset => ({ c with remote := c.remote.record .write }, some (data, offset))
  | r :: rs, c, data, offset =>
    match ({ c.remote with writes := rs }.record .write).answerWrite data r with
    | (.ok 0, remote) => ({ c with remote }.closeRemote, none)
    | (.ok n, remote) =>
      let data := data.drop n
      let offset := offset + n
      sendLoop header body rs { c with remote }
        (if data = [] ∧ offset = header.length then body else data) offset
    | (.wouldBlock, remote) => ({ c with remote }, some (data, offset))
    | (.error, remote) => ({ c with remote }.closeRemote, none)

/-- The second half of `local_to_remote`: write `header` then `body`, stage what is left. -/
def sendDatagram (c : Connection) (header body : List UInt8) : Connection :=
  match sendLoop header body c.remote.writes c header 0 with
  | (c, none) => c
  | (c, some (data, offset)) =>
    let c := if header.length + body.length - offset ≠ 0 then
        { c with rbuffer := c.rbuffer ++ data ++ if data.length < header.length then body else [] }
      else c
    c.flushRemote

def localToRemote (c : Connection) (header body : List UInt8) : Connection :=
  if c.rbuffer = [] then c.sendDatagram header body
  else
    match c.remote.sendAll c.rbuffer with
    | (.ok true, rbuffer, remote) => { c with rbuffer, remote }.sendDatagram header body
    | (.ok false, rbuffer, remote) => { c with rbuffer, remote }.flushRemote
    | (_, rbuffer, remote) => { c with rbuffer, remote }.closeRemote

def doLocal (c : Connection) (header body : List UInt8) : Connection :=
  if c.rbuffer ≠ [] then c
  else if c.established = false then { c with rbuffer := c.rbuffer ++ header ++ body }
  else c.localToRemote header body

end Connection

theorem parseAfterAtyp_packet {n : Nat} {mk : Mathlib.Vector UInt8 n → IpAddr} {rest : List UInt8}
    {e : IpEndpoint} {len : Nat} {payload : List UInt8}
    (h : parseAfterAtyp n mk rest = .packet e len payload) : payload.length < rest.length + 1 := by
  unfold parseAfterAtyp at h
  split at h
  · cases h
  · split at h
    · rename_i heq
      have hl := congrArg List.length heq
      simp only [List.length_drop, List.length_cons] at hl
      split at h
      · split at h
        · cases h
        · cases h; omega
      · cases h
    · cases h

theorem parseEndpoint_packet_length {buffer : List UInt8} {e : IpEndpoint} {len : Nat}
    {payload : List UInt8} (h : parseEndpoint buffer = .packet e len payload) :
    payload.length < buffer.length := by
  match buffer, h with
  | atyp :: rest, h =>
    simp only [parseEndpoint] at h
    split at h
    · simpa using parseAfterAtyp_packet h
    · split at h
      · simpa using parseAfterAtyp_packet h
      · cases h

namespace Connection

/-- The inner loop of `remote_to_local`: each whole record goes out, and the residual is kept. -/
def parseLoop (socket : Nat) (endpoint : IpEndpoint) (buffer : List UInt8) :
    List Datagram × Option (List UInt8) :=
  match _h : parseEndpoint buffer with
  | .continued => ([], some buffer)
  | .packet _ length payload =>
    let rest := parseLoop socket endpoint (payload.drop length)
    (⟨socket, endpoint, payload.take length⟩ :: rest.1, rest.2)
  | .invalidProtocol => ([], none)
termination_by buffer.length
decreasing_by
  have := parseEndpoint_packet_length ‹_›
  simp only [List.length_drop]
  omega

section ParseLoop
variable {socket : Nat} {endpoint : IpEndpoint} {buffer : List UInt8}

theorem parseLoop_continued (h : parseEndpoint buffer = .continued) :
    parseLoop socket endpoint buffer = ([], some buffer) := by
  unfold parseLoop; split <;> simp_all

theorem parseLoop_packet {e : IpEndpoint} {length : Nat} {payload : List UInt8}
    (h : parseEndpoint buffer = .packet e length payload) :
    parseLoop socket endpoint buffer =
      (⟨socket, endpoint, payload.take length⟩ :: (parseLoop socket endpoint (payload.drop length)).1,
        (parseLoop socket endpoint (payload.drop length)).2) := by
  rw [parseLoop]; split <;> simp_all

theorem parseLoop_invalid (h : parseEndpoint buffer = .invalidProtocol) :
    parseLoop socket endpoint buffer = ([], none) := by
  unfold parseLoop; split <;> simp_all

end ParseLoop

/-- The outer loop of `remote_to_local`, one read a turn into the free room of
`lbuffer`; `replies` is the read script of `c.remote`. -/
def readLoop (socket : Nat) : List ReadReply → Connection → Connection × List Datagram
  | replies, c =>
    let remote := c.remote.record .read
    if lbufferCapacity - c.lbuffer.length = 0 then ({ c with remote }.closeRemote, [])
    else
      match replies with
      | [] => ({ c with remote }, [])
      | r :: rs =>
        match { remote with reads := rs }.answerRead (lbufferCapacity - c.lbuffer.length) r with
        | (.ok [], remote) => ({ c with remote }.closeRemote, [])
        | (.ok data, remote) =>
          match parseLoop socket c.endpoint (c.lbuffer ++ data) with
          | (out, none) => ({ c with remote, lbuffer := c.lbuffer ++ data }.closeRemote, out)
          | (out, some residual) =>
            let next := readLoop socket rs { c with remote, lbuffer := residual }
            (next.1, out ++ next.2)
        | (.wouldBlock, remote) => ({ c with remote }, [])
        | (.error, remote) => ({ c with remote }.closeRemote, [])

def remoteToLocal (c : Connection) (socket : Nat) : Connection × List Datagram :=
  readLoop socket c.remote.reads c

/-- `do_remote` past the handshake: the staged bytes when writable, then the inbound records. -/
def doRemoteReady (c : Connection) (socket : Nat) (event : Event) : Connection × List Datagram :=
  let c := if event.writable then c.localToRemote [] [] else c
  if event.readable then c.remoteToLocal socket else (c, [])

def doRemote (c : Connection) (socket : Nat) (event : Event) : Connection × List Datagram :=
  if event.writable ∧ c.established = false then
    match c.remote.write udpAssociatePreamble with
    | (.ok _, remote) => { c with remote, established := true }.doRemoteReady socket event
    | (_, remote) => ({ c with remote }.closeRemote, [])
  else c.doRemoteReady socket event

/-- The connection `UdpServer::do_local` creates for a new source endpoint. -/
def create (tls : TlsConn) (handle : Nat) (src : IpEndpoint) : Connection :=
  { token := tls.token, «local» := handle, remote := tls, rclosed := false, rbuffer := [],
    lbuffer := [], endpoint := src, established := false }

end Connection

/-- What happens to one flow: a datagram `UdpServer::do_local` hands over with its
record header, or a readiness event on the flow's TLS connection. -/
inductive ConnOp where
  | datagram (header body : List UInt8)
  | event (e : Event)
  deriving DecidableEq

namespace Connection

def step (socket : Nat) (c : Connection) : ConnOp → Connection × List Datagram
  | .datagram header body => (c.doLocal header body, [])
  | .event e => c.doRemote socket e

/-- A run of the flow: the final connection and every payload it delivered. -/
def run (socket : Nat) : Connection → List ConnOp → Connection × List Datagram
  | c, [] => (c, [])
  | c, op :: ops =>
    let s := c.step socket op
    let r := run socket s.1 ops
    (r.1, s.2 ++ r.2)

end Connection

/-- A flow's functions never change its token, its socket or its source. -/
def SameFlow (c c' : Connection) : Prop :=
  c'.token = c.token ∧ c'.local = c.local ∧ c'.endpoint = c.endpoint

namespace SameFlow

variable {c c₁ c₂ : Connection}

theorem refl (c : Connection) : SameFlow c c := ⟨rfl, rfl, rfl⟩

theorem trans (h₁ : SameFlow c c₁) (h₂ : SameFlow c₁ c₂) : SameFlow c c₂ :=
  ⟨h₂.1.trans h₁.1, h₂.2.1.trans h₁.2.1, h₂.2.2.trans h₁.2.2⟩

theorem closeRemote (c : Connection) : SameFlow c c.closeRemote := by
  unfold Connection.closeRemote; split <;> exact ⟨rfl, rfl, rfl⟩

theorem flushRemote (c : Connection) : SameFlow c c.flushRemote := by
  unfold Connection.flushRemote; split <;> first | exact closeRemote _ | exact ⟨rfl, rfl, rfl⟩

end SameFlow

namespace Connection

theorem sendLoop_sameFlow (header body : List UInt8) (tape : List WriteReply) (c : Connection)
    (data : List UInt8) (offset : Nat) : SameFlow c (sendLoop header body tape c data offset).1 := by
  induction tape generalizing c data offset with
  | nil => cases data <;> exact .refl c
  | cons r rs ih =>
    cases data with
    | nil => exact .refl c
    | cons b bs =>
      simp only [sendLoop]
      split
      · exact SameFlow.closeRemote _
      · exact ih _ _ _
      · exact .refl c
      · exact SameFlow.closeRemote _

theorem sendDatagram_sameFlow (c : Connection) (header body : List UInt8) :
    SameFlow c (c.sendDatagram header body) := by
  have hloop := sendLoop_sameFlow header body c.remote.writes c header 0
  unfold sendDatagram
  rcases hsl : sendLoop header body c.remote.writes c header 0 with ⟨c₁, _ | ⟨data, off⟩⟩ <;>
    rw [hsl] at hloop
  · exact hloop
  · dsimp only
    split <;> exact hloop.trans (SameFlow.flushRemote _)

theorem localToRemote_sameFlow (c : Connection) (header body : List UInt8) :
    SameFlow c (c.localToRemote header body) := by
  unfold localToRemote
  split
  · exact sendDatagram_sameFlow c header body
  · split
    · exact sendDatagram_sameFlow _ header body
    · exact SameFlow.flushRemote _
    · exact SameFlow.closeRemote _

theorem doLocal_sameFlow (c : Connection) (header body : List UInt8) :
    SameFlow c (c.doLocal header body) := by
  unfold doLocal
  split_ifs
  · exact .refl c
  · exact .refl c
  · exact localToRemote_sameFlow c header body

theorem readLoop_sameFlow (socket : Nat) (replies : List ReadReply) (c : Connection) :
    SameFlow c (readLoop socket replies c).1 := by
  induction replies generalizing c with
  | nil =>
    unfold readLoop
    split
    · exact SameFlow.closeRemote _
    · exact .refl c
  | cons r rs ih =>
    unfold readLoop
    split
    · exact SameFlow.closeRemote _
    dsimp only
    split
    · exact SameFlow.closeRemote _
    · split
      · exact SameFlow.closeRemote _
      · exact ih _
    · exact .refl c
    · exact SameFlow.closeRemote _

theorem doRemote_sameFlow (c : Connection) (socket : Nat) (event : Event) :
    SameFlow c (c.doRemote socket event).1 := by
  have hready : ∀ c : Connection, SameFlow c (c.doRemoteReady socket event).1 := fun c => by
    unfold doRemoteReady remoteToLocal
    dsimp only
    split_ifs
    · exact (localToRemote_sameFlow c [] []).trans (readLoop_sameFlow ..)
    · exact readLoop_sameFlow ..
    · exact localToRemote_sameFlow c [] []
    · exact .refl c
  unfold doRemote
  split
  · split
    · exact hready _
    · exact SameFlow.closeRemote _
  · exact hready c

section Keys
variable (c : Connection) (header body : List UInt8) (socket : Nat) (event : Event)
@[simp] theorem doLocal_token : (c.doLocal header body).token = c.token := (doLocal_sameFlow ..).1
@[simp] theorem doLocal_local : (c.doLocal header body).local = c.local := (doLocal_sameFlow ..).2.1
@[simp] theorem doLocal_endpoint : (c.doLocal header body).endpoint = c.endpoint :=
  (doLocal_sameFlow ..).2.2
@[simp] theorem doRemote_token : (c.doRemote socket event).1.token = c.token := (doRemote_sameFlow ..).1
@[simp] theorem doRemote_local : (c.doRemote socket event).1.local = c.local :=
  (doRemote_sameFlow ..).2.1
@[simp] theorem doRemote_endpoint : (c.doRemote socket event).1.endpoint = c.endpoint :=
  (doRemote_sameFlow ..).2.2
end Keys

end Connection

end TrojanRs