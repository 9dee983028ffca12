import TrojanRs.Wintun.Connection
import TrojanRs.Wintun.Token
import Mathlib.Data.List.AList

/-! The UDP server of `wintun/udp1.rs`. Its connections live in `conns`, never freed, and both
indexes hold positions in it, as the `Arc`s share one `Connection`; a `World` adds `NEXT_INDEX`,
the idle pool and smoltcp's `SocketSet`, and a call that panics gives `none`. -/

namespace TrojanRs

set_option autoImplicit false

/-- A smoltcp UDP socket: the endpoint it is bound to, and the datagrams waiting in its
receive buffer with their sources. -/
structure UdpSocket where
  endpoint : IpEndpoint
  rx : List (List UInt8 × IpEndpoint)

/-- The `SocketSet` the server is handed, by socket handle. -/
abbrev SocketSet : Type := AList fun _ : Nat => UdpSocket

structure UdpServer where
  conns : List Connection
  token2conns : AList fun _ : Nat => Nat
  addr2conns : AList fun _ : IpEndpoint => Nat
  sockets : AList fun _ : IpEndpoint => Nat

/-- What the server's calls use besides the server: `next_token`'s static, and the idle
pool, whose answers to `get` are a script (an exhausted pool has no connection). -/
structure Host where
  nextIndex : Nat
  pool : List (Option TlsConn)

/-- The idle time after which `check_timeout` evicts, `Duration::from_secs(600)` in the
nanoseconds of an `Instant`. -/
def idleTimeout : Nat := 600 * 10 ^ 9

namespace UdpServer

def new : UdpServer := ⟨[], ∅, ∅, ∅⟩

def newSocket (s : UdpServer) (endpoint : IpEndpoint) (now : Nat) : Bool × UdpServer :=
  if endpoint ∈ s.sockets then (false, s)
  else (true, { s with sockets := s.sockets.insert endpoint now })

def remove (s : UdpServer) (conn : Connection) : UdpServer :=
  { s with token2conns := s.token2conns.erase conn.token, addr2conns := s.addr2conns.erase conn.endpoint }

/-- The flows `check_timeout` evicts: for each socket idle too long, the flow that
`addr2conns` holds under the socket's endpoint. -/
def idleConns (s : UdpServer) (now : Nat) : List Connection :=
  s.sockets.entries.filterMap fun e =>
    if now - e.2 > idleTimeout then (s.addr2conns.lookup e.1).bind fun p => s.conns[p]? else none

/-- One eviction of `check_timeout`'s loop. -/
def evict (s : UdpServer) (sockets : SocketSet) (conn : Connection) : UdpServer × SocketSet :=
  ({ s with sockets := s.sockets.erase conn.endpoint }.remove conn, sockets.erase conn.local)

def checkTimeout (s : UdpServer) (now : Nat) (sockets : SocketSet) : UdpServer × SocketSet :=
  (s.idleConns now).foldl (fun acc conn => evict acc.1 acc.2 conn) (s, sockets)

/-- `addr2conns.entry(src).or_insert_with(..)`: the flow of `src`, or a new flow on a
connection from the pool with the next token; without one, `unwrap` panics. -/
def connectionFor (s : UdpServer) (r : TokenRange) (h : Host) (handle : Nat)
    (src : IpEndpoint) : Option (UdpServer × Host × Nat) :=
  match s.addr2conns.lookup src with
  | some p => some (s, h, p)
  | none =>
    match h.pool with
    | some tls :: pool =>
      let next := nextToken r h.nextIndex
      let conn := Connection.create { tls with token := next.1 } handle src
      some ({ s with conns := s.conns ++ [conn], addr2conns := s.addr2conns.insert src s.conns.length },
        { nextIndex := next.2, pool }, s.conns.length)
    | _ => none

/-- `token2conns.entry(conn.token).or_insert_with(|| conn.clone())`. -/
def insertToken (s : UdpServer) (conn : Connection) (p : Nat) : UdpServer :=
  { s with token2conns :=
      if conn.token ∈ s.token2conns then s.token2conns else s.token2conns.insert conn.token p }

/-- The flow at `p` after a call on it: stored, and removed from both indexes once
`is_closed`. -/
def storeFlow (s : UdpServer) (p : Nat) (conn : Connection) : UdpServer :=
  let s := { s with conns := s.conns.set p conn }
  if conn.rclosed then s.remove conn else s

/-- One datagram of `do_local`'s receive loop, from `src` to the socket `handle` bound to `dst`.
A position the indexes hold always names a connection; the `none` arm is not reached. -/
def localDatagram (s : UdpServer) (r : TokenRange) (h : Host) (handle : Nat) (dst : IpEndpoint)
    (data : List UInt8) (src : IpEndpoint) : Option (UdpServer × Host) :=
  match s.connectionFor r h handle src with
  | none => none
  | some (s, h, p) =>
    match s.conns[p]? with
    | none => some (s, h)
    | some conn =>
      let s := s.insertToken conn p
      some (s.storeFlow p (conn.doLocal (generateEndpoint dst (UInt16.ofNat data.length)) data), h)

/-- `while let Ok((data, src_endpoint)) = socket.recv()`, over the socket's waiting datagrams. -/
def recvLoop (r : TokenRange) (handle : Nat) (dst : IpEndpoint) :
    List (List UInt8 × IpEndpoint) → UdpServer → Host → Option (UdpServer × Host)
  | [], s, h => some (s, h)
  | (data, src) :: rx, s, h =>
    match s.localDatagram r h handle dst data src with
    | none => none
    | some (s, h) => recvLoop r handle dst rx s h

/-- One socket event of `do_local`, with the clock reading of its `Instant::now()`. -/
def localEvent (s : UdpServer) (r : TokenRange) (h : Host) (sockets : SocketSet)
    (handle now : Nat) : Option (UdpServer × Host × SocketSet) :=
  match sockets.lookup handle with
  | none => none
  | some socket =>
    if socket.endpoint ∈ s.sockets then
      match recvLoop r handle socket.endpoint socket.rx
          { s with sockets := s.sockets.insert socket.endpoint now } h with
      | none => none
      | some (s, h) => some (s, h, sockets.insert handle { socket with rx := [] })
    else none

def doLocal (s : UdpServer) (r : TokenRange) (h : Host) (sockets : SocketSet) :
    List (Nat × Nat) → Option (UdpServer × Host × SocketSet)
  | [] => some (s, h, sockets)
  | (handle, now) :: events =>
    match s.localEvent r h sockets handle now with
    | none => none
    | some (s, h, sockets) => doLocal s r h sockets events

/-- The positions the indexes hold always name a connection; the `none` arm is not reached. -/
def doRemote (s : UdpServer) (token : Nat) (event : Event) (sockets : SocketSet) :
    Option (UdpServer × List Datagram) :=
  match s.token2conns.lookup token with
  | none => some (s, [])
  | some p =>
    match s.conns[p]? with
    | none => some (s, [])
    | some conn =>
      if conn.local ∈ sockets then
        let res := conn.doRemote conn.local event
        some (s.storeFlow p res.1, res.2)
      else none

end UdpServer

/-- One call on the server, or a change the TUN side makes to the sockets: it binds a
socket, or a datagram reaches one. -/
inductive ServerOp where
  | bind (handle : Nat) (endpoint : IpEndpoint)
  | arrive (handle : Nat) (data : List UInt8) (src : IpEndpoint)
  | newSocket (endpoint : IpEndpoint) (now : Nat)
  | doLocal (events : List (Nat × Nat))
  | doRemote (token : Nat) (event : Event)
  | checkTimeout (now : Nat)

/-- The server, what its calls use, and every payload it has written to a socket. -/
structure World where
  server : UdpServer
  host : Host
  sockets : SocketSet
  delivered : List Datagram

namespace World

def step (r : TokenRange) (w : World) : ServerOp → Option World
  | .bind handle endpoint => some { w with sockets := w.sockets.insert handle ⟨endpoint, []⟩ }
  | .arrive handle data src =>
    match w.sockets.lookup handle with
    | none => some w
    | some socket =>
      some { w with sockets := w.sockets.insert handle { socket with rx := socket.rx ++ [(data, src)] } }
  | .newSocket endpoint now => some { w with server := (w.server.newSocket endpoint now).2 }
  | .doLocal events =>
    match w.server.doLocal r w.host w.sockets events with
    | none => none
    | some (server, host, sockets) => some { w with server, host, sockets }
  | .doRemote token event =>
    match w.server.doRemote token event w.sockets with
    | none => none
    | some (server, out) => some { w with server, delivered := w.delivered ++ out }
  | .checkTimeout now =>
    let res := w.server.checkTimeout now w.sockets
    some { w with server := res.1, sockets := res.2 }

/-- A run; `none` when a call panics. -/
def run (r : TokenRange) : World → List ServerOp → Option World
  | w, [] => some w
  | w, op :: ops =>
    match w.step r op with
    | none => none
    | some w => run r w ops

theorem run_append (r : TokenRange) (w : World) (ops₁ ops₂ : List ServerOp) :
    w.run r (ops₁ ++ ops₂) = match w.run r ops₁ with
      | none => none
      | some w => w.run r ops₂ := by
  induction ops₁ generalizing w with
  | nil => rfl
  | cons op ops ih =>
    simp only [List.cons_append, run]
    split
    · rfl
    · exact ih _

end World

/-- The DNS server the failing runs query. -/
def dnsServer : IpEndpoint := ⟨.v4 ⟨[8, 8, 8, 8], rfl⟩, 53⟩

/-- The TUN-side client of the failing runs. -/
def dnsClient : IpEndpoint := ⟨.v4 ⟨[10, 0, 0, 3], rfl⟩, 5353⟩

/-- The TUN side binds socket 0 to 8.8.8.8:53 and registers it, a query from
10.0.0.3:5353 reaches it, and `do_local` runs. -/
def firstQuery : List ServerOp :=
  [.bind 0 dnsServer, .newSocket dnsServer 0, .arrive 0 [1, 2] dnsClient, .doLocal [(0, 1)]]

/-- When the pool has no connection to give, the first datagram of a new flow makes
`do_local` panic instead of being dropped, whatever the token range. -/
theorem empty_pool_panics (r : TokenRange) (nextIndex : Nat) :
    World.run r ⟨UdpServer.new, ⟨nextIndex, [none]⟩, ∅, []⟩ firstQuery = none := rfl

end TrojanRs
