import TrojanRs.Wintun.Served
import TrojanRs.Wintun.Inbound

/-! Where the UDP server sends: every datagram it writes goes out on a socket, to a source from
which a datagram reached that socket, whatever the relay sends. -/

namespace TrojanRs

set_option autoImplicit false

namespace Connection

theorem parseLoop_addressed (socket : Nat) (endpoint : IpEndpoint) (buffer : List UInt8) :
    ∀ d ∈ (parseLoop socket endpoint buffer).1, d.socket = socket ∧ d.endpoint = endpoint := by
  induction buffer using parseLoop.induct socket endpoint with
  | case1 buffer h => simp [parseLoop_continued h]
  | case2 buffer e length payload h ih =>
    rw [parseLoop_packet h]
    rintro d (_ | ⟨_, hd⟩)
    · exact ⟨rfl, rfl⟩
    · exact ih d hd
  | case3 buffer h => simp [parseLoop_invalid h]

theorem readLoop_addressed (socket : Nat) (replies : List ReadReply) (c : Connection) :
    ∀ d ∈ (readLoop socket replies c).2, d.socket = socket ∧ d.endpoint = c.endpoint := by
  induction replies generalizing c with
  | nil => unfold readLoop; split <;> simp
  | cons r rs ih =>
    unfold readLoop
    split
    · simp
    dsimp only
    split
    · simp
    · rename_i data _ _ _
      have hout := parseLoop_addressed socket c.endpoint (c.lbuffer ++ data)
      split <;> rename_i hpl <;> rw [hpl] at hout
      · exact hout
      · intro d hd
        rcases List.mem_append.mp hd with hd | hd
        · exact hout d hd
        · obtain ⟨hs, he⟩ := ih _ d hd
          exact ⟨hs, he⟩
    · simp
    · simp

theorem doRemote_addressed (c : Connection) (socket : Nat) (event : Event) :
    ∀ d ∈ (c.doRemote socket event).2, d.socket = socket ∧ d.endpoint = c.endpoint := by
  have hready : ∀ c : Connection, ∀ d ∈ (c.doRemoteReady socket event).2,
      d.socket = socket ∧ d.endpoint = c.endpoint := fun c => by
    unfold doRemoteReady remoteToLocal
    dsimp only
    split_ifs
    · rw [← (localToRemote_sameFlow c [] []).2.2]
      exact readLoop_addressed socket _ _
    · exact readLoop_addressed socket _ _
    · simp
    · simp
  unfold doRemote
  split
  · split
    · exact hready _
    · simp
  · exact hready c

end Connection

namespace UdpServer

variable (A : Nat → IpEndpoint → Prop)

/-- Every flow is on a socket, for a source, that `A` admits. -/
def FlowsFrom (s : UdpServer) : Prop :=
  ∀ (p : Nat) (c : Connection), s.conns[p]? = some c → A c.local c.endpoint

/-- Every datagram waiting in a socket comes from a source that `A` admits on that socket. -/
def RxFrom (sockets : SocketSet) : Prop :=
  ∀ handle socket, sockets.lookup handle = some socket → ∀ x ∈ socket.rx, A handle x.2

variable {A} {s : UdpServer}

theorem RxFrom.insert {sockets : SocketSet} (h : RxFrom A sockets) {handle : Nat} {socket : UdpSocket}
    (hrx : ∀ x ∈ socket.rx, A handle x.2) : RxFrom A (sockets.insert handle socket) := by
  intro handle' socket' hl
  by_cases hh : handle' = handle
  · subst hh
    rw [AList.lookup_insert] at hl
    cases hl
    exact hrx
  · rw [AList.lookup_insert_ne hh] at hl
    exact h _ _ hl

theorem RxFrom.erase {sockets : SocketSet} (h : RxFrom A sockets) (handle : Nat) :
    RxFrom A (sockets.erase handle) :=
  fun _ _ hl => h _ _ (lookup_of_lookup_erase hl).2

theorem FlowsFrom.storeFlow (h : FlowsFrom A s) {p : Nat} {c c' : Connection} (hp : s.conns[p]? = some c)
    (hc : SameFlow c c') : FlowsFrom A (s.storeFlow p c') := by
  intro q d hd
  rw [storeFlow_conns] at hd
  by_cases hpq : p = q
  · subst hpq
    rw [List.getElem?_set_self (List.getElem?_eq_some_iff.mp hp).1] at hd
    cases hd
    rw [hc.2.1, hc.2.2]
    exact h p c hp
  · rw [List.getElem?_set_ne hpq] at hd
    exact h q d hd

section Local

variable {r : TokenRange} {h h' : Host} {handle : Nat} {s' : UdpServer}

theorem connectionFor_flowsFrom (hf : FlowsFrom A s) {src : IpEndpoint} (hsrc : A handle src)
    {s₁ : UdpServer} {h₁ : Host} {p : Nat} (hcf : s.connectionFor r h handle src = some (s₁, h₁, p)) :
    FlowsFrom A s₁ := by
  unfold connectionFor at hcf
  split at hcf
  · cases hcf; exact hf
  split at hcf
  · cases hcf
    intro q d hd
    rcases getElem?_concat_cases hd with hd | ⟨-, rfl⟩
    · exact hf q d hd
    · exact hsrc
  · cases hcf

theorem localDatagram_flowsFrom (hf : FlowsFrom A s) {dst src : IpEndpoint} {data : List UInt8}
    (hsrc : A handle src) (hld : s.localDatagram r h handle dst data src = some (s', h')) :
    FlowsFrom A s' := by
  unfold localDatagram at hld
  rcases hcf : s.connectionFor r h handle src with _ | ⟨s₁, h₁, p⟩ <;> rw [hcf] at hld
  · cases hld
  have hf₁ := connectionFor_flowsFrom hf hsrc hcf
  dsimp only at hld
  split at hld <;> cases hld
  · exact hf₁
  · exact FlowsFrom.storeFlow (s := s₁.insertToken _ p) hf₁ ‹_› (Connection.doLocal_sameFlow ..)

theorem recvLoop_flowsFrom {dst : IpEndpoint} {rx : List (List UInt8 × IpEndpoint)} (hf : FlowsFrom A s)
    (hrx : ∀ x ∈ rx, A handle x.2) (hrl : recvLoop r handle dst rx s h = some (s', h')) : FlowsFrom A s' := by
  induction rx generalizing s h with
  | nil =>
    simp only [recvLoop, Option.some.injEq, Prod.mk.injEq] at hrl
    obtain ⟨rfl, rfl⟩ := hrl
    exact hf
  | cons x rx ih =>
    simp only [recvLoop] at hrl
    rcases hld : s.localDatagram r h handle dst x.1 x.2 with _ | ⟨s₁, h₁⟩ <;> rw [hld] at hrl
    · cases hrl
    · exact ih (localDatagram_flowsFrom hf (hrx x (List.mem_cons_self _ _)) hld)
        (fun y hy => hrx y (List.mem_cons_of_mem _ hy)) hrl

variable {sockets sockets' : SocketSet}

theorem localEvent_flowsFrom {now : Nat} (hf : FlowsFrom A s) (hrx : RxFrom A sockets)
    (hle : s.localEvent r h sockets handle now = some (s', h', sockets')) :
    FlowsFrom A s' ∧ RxFrom A sockets' := by
  unfold localEvent at hle
  split at hle
  · cases hle
  rename_i socket hsock
  split_ifs at hle
  rcases hrl : recvLoop r handle _ _ _ h with _ | ⟨s₁, h₁⟩ <;> rw [hrl] at hle
  · cases hle
  cases hle
  exact ⟨recvLoop_flowsFrom (s := { s with sockets := s.sockets.insert socket.endpoint now }) hf (hrx handle socket hsock) hrl,
    hrx.insert fun _ hx => nomatch hx⟩

theorem doLocal_flowsFrom {events : List (Nat × Nat)} (hf : FlowsFrom A s) (hrx : RxFrom A sockets)
    (hdl : s.doLocal r h sockets events = some (s', h', sockets')) : FlowsFrom A s' ∧ RxFrom A sockets' := by
  induction events generalizing s h sockets with
  | nil =>
    simp only [doLocal, Option.some.injEq, Prod.mk.injEq] at hdl
    obtain ⟨rfl, rfl, rfl⟩ := hdl
    exact ⟨hf, hrx⟩
  | cons ev events ih =>
    simp only [doLocal] at hdl
    rcases hle : s.localEvent r h sockets ev.1 ev.2 with _ | ⟨s₁, h₁, sockets₁⟩ <;> rw [hle] at hdl
    · cases hdl
    · obtain ⟨hf₁, hrx₁⟩ := localEvent_flowsFrom hf hrx hle
      exact ih hf₁ hrx₁ hdl

end Local

theorem doRemote_flowsFrom (hf : FlowsFrom A s) {token : Nat} {event : Event} {sockets : SocketSet}
    {s' : UdpServer} {out : List Datagram} (hdr : s.doRemote token event sockets = some (s', out)) :
    FlowsFrom A s' ∧ ∀ d ∈ out, A d.socket d.endpoint := by
  unfold doRemote at hdr
  split at hdr
  · cases hdr; exact ⟨hf, fun _ h => nomatch h⟩
  rename_i p hp
  split at hdr
  · cases hdr; exact ⟨hf, fun _ h => nomatch h⟩
  rename_i conn hconn
  split_ifs at hdr
  cases hdr
  refine ⟨hf.storeFlow hconn (Connection.doRemote_sameFlow ..), fun d hd => ?_⟩
  obtain ⟨hs, he⟩ := Connection.doRemote_addressed conn conn.local event d hd
  rw [hs, he]
  exact hf p conn hconn

theorem foldl_evict_rxFrom (l : List Connection) (s : UdpServer) {sockets : SocketSet}
    (hrx : RxFrom A sockets) : RxFrom A (l.foldl (fun acc conn => evict acc.1 acc.2 conn) (s, sockets)).2 := by
  induction l generalizing s sockets with
  | nil => exact hrx
  | cons c l ih => exact ih _ (hrx.erase c.local)

end UdpServer

namespace World

open UdpServer

variable {A : Nat → IpEndpoint → Prop} {r : TokenRange}

/-- Every waiting datagram, flow and written datagram is on a socket, and from or to a source,
that `A` admits. -/
structure Sourced (A : Nat → IpEndpoint → Prop) (w : World) : Prop where
  rx : RxFrom A w.sockets
  flows : FlowsFrom A w.server
  delivered : ∀ d ∈ w.delivered, A d.socket d.endpoint

theorem step_sourced {w w' : World} {op : ServerOp} (hs : Sourced A w) (hstep : w.step r op = some w')
    (hop : ∀ handle data src, op = .arrive handle data src → A handle src) : Sourced A w' := by
  cases op with
  | bind handle endpoint =>
    cases hstep
    exact ⟨hs.rx.insert (fun _ hx => nomatch hx), hs.flows, hs.delivered⟩
  | arrive handle data src =>
    simp only [step] at hstep
    split at hstep <;> cases hstep
    · exact hs
    rename_i socket hsock
    refine ⟨hs.rx.insert fun x hx => ?_, hs.flows, hs.delivered⟩
    rcases List.mem_append.mp hx with hx | hx
    · exact hs.rx handle socket hsock x hx
    · rw [List.mem_singleton.mp hx]
      exact hop handle data src rfl
  | newSocket endpoint now =>
    cases hstep
    refine ⟨hs.rx, ?_, hs.delivered⟩
    unfold UdpServer.newSocket; split
    · exact hs.flows
    · exact hs.flows
  | doLocal events =>
    simp only [step] at hstep
    split at hstep
    · cases hstep
    cases hstep
    obtain ⟨hf, hrx⟩ := doLocal_flowsFrom hs.flows hs.rx ‹_›
    exact ⟨hrx, hf, hs.delivered⟩
  | doRemote token event =>
    simp only [step] at hstep
    split at hstep
    · cases hstep
    cases hstep
    obtain ⟨hf, hout⟩ := doRemote_flowsFrom hs.flows ‹_›
    refine ⟨hs.rx, hf, fun d hd => ?_⟩
    rcases List.mem_append.mp hd with hd | hd
    · exact hs.delivered d hd
    · exact hout d hd
  | checkTimeout now =>
    cases hstep
    refine ⟨foldl_evict_rxFrom _ _ hs.rx, ?_, hs.delivered⟩
    show FlowsFrom A (w.server.checkTimeout now w.sockets).1
    unfold FlowsFrom
    rw [checkTimeout_conns]
    exact hs.flows

theorem run_sourced {w w' : World} {ops : List ServerOp} (hs : Sourced A w) (hrun : w.run r ops = some w')
    (hops : ∀ handle data src, ServerOp.arrive handle data src ∈ ops → A handle src) : Sourced A w' := by
  induction ops generalizing w with
  | nil => cases hrun; exact hs
  | cons op ops ih =>
    simp only [run] at hrun
    split at hrun
    · cases hrun
    · refine ih (step_sourced hs ‹_› fun handle data src h => hops handle data src ?_) hrun
        fun handle data src h => hops handle data src (List.mem_cons_of_mem _ h)
      rw [h]; exact List.mem_cons_self _ _

end World

/-- Over every run from `UdpServer::new`, the server writes only on a socket, and to a source,
from which a datagram reached that socket. -/
theorem server_replies_only_to_senders (r : TokenRange) (host : Host) (sockets : SocketSet)
    (ops : List ServerOp) (w : World) (hrun : World.run r ⟨UdpServer.new, host, sockets, []⟩ ops = some w) :
    ∀ d ∈ w.delivered, (∃ data, ServerOp.arrive d.socket data d.endpoint ∈ ops) ∨
      ∃ socket, sockets.lookup d.socket = some socket ∧ ∃ data, (data, d.endpoint) ∈ socket.rx := by
  refine (World.run_sourced (w := ⟨UdpServer.new, host, sockets, []⟩) (A := fun handle src => (∃ data, ServerOp.arrive handle data src ∈ ops) ∨
      ∃ socket, sockets.lookup handle = some socket ∧ ∃ data, (data, src) ∈ socket.rx)
    ⟨fun handle socket hl x hx => .inr ⟨socket, hl, x.1, hx⟩,
    fun _ _ h => by simp [UdpServer.new] at h, fun _ h => nomatch h⟩ hrun
    fun handle data src h => .inl ⟨data, h⟩).delivered

/-- A fresh server whose pool's connection holds one reply from 8.8.8.8:53. -/
def answeringWorld : World :=
  ⟨UdpServer.new, ⟨2, [some ⟨0, [], [.ready 100], Inbound.dnsReply.encode, [], []⟩]⟩, ∅, []⟩

/-- The first query, then its flow's relay connection turning readable with the reply. -/
theorem first_reply_to_sender :
    ∃ w, World.run smallRange answeringWorld (firstQuery ++ [.doRemote 8 ⟨true, false⟩]) = some w ∧
      ∀ d ∈ w.delivered, (∃ data, ServerOp.arrive d.socket data d.endpoint ∈
          firstQuery ++ [.doRemote 8 ⟨true, false⟩]) ∨
        ∃ socket, (∅ : SocketSet).lookup d.socket = some socket ∧ ∃ data, (data, d.endpoint) ∈ socket.rx :=
  ⟨_, rfl, server_replies_only_to_senders smallRange answeringWorld.host ∅ _ _ rfl⟩

end TrojanRs
