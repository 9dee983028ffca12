import TrojanRs.Wintun.Lifecycle
import TrojanRs.Wintun.Index

/-! Each flow of the UDP server is one `serve` run of the connection `do_local` made for
it, stepped only by events handed to `do_remote` under the flow's token and by datagrams
from the flow's source; every index entry names an open flow that holds its key. -/

namespace TrojanRs

set_option autoImplicit false

open Lifecycle

namespace Connection

theorem step_sameFlow (socket : Nat) (c : Connection) (op : ConnOp) : SameFlow c (c.step socket op).1 := by
  cases op with
  | datagram header body => exact doLocal_sameFlow c header body
  | event e => exact doRemote_sameFlow c socket e

end Connection

theorem serve_sameFlow (socket : Nat) (c : Connection) (cops : List ConnOp) :
    SameFlow c (serve socket c cops) := by
  induction cops generalizing c with
  | nil => exact SameFlow.refl c
  | cons op ops ih =>
    simp only [serve]
    split
    · exact Connection.step_sameFlow socket c op
    · exact (Connection.step_sameFlow socket c op).trans (ih _)

theorem serve_concat (socket : Nat) (c₀ : Connection) (cops : List ConnOp) (op : ConnOp)
    (h : (serve socket c₀ cops).rclosed = false) :
    serve socket c₀ (cops ++ [op]) = ((serve socket c₀ cops).step socket op).1 := by
  induction cops generalizing c₀ with
  | nil => show (if _ then _ else _) = _; split <;> rfl
  | cons o os ih =>
    simp only [serve, List.cons_append] at h ⊢
    split at h
    · rename_i hc
      cases hc.symm.trans h
    · rename_i hc
      simp only [hc, if_false]
      exact ih _ h

/-- What a run hands the server: the events `do_remote` gets under each token, the
endpoint each socket is bound to, and the datagrams that reach each socket from each source. -/
structure Handed where
  event : Nat → Event → Prop
  bound : Nat → IpEndpoint → Prop
  got : Nat → List UInt8 → IpEndpoint → Prop

namespace Handed

variable (H : Handed)

/-- A datagram `do_local` hands a flow of source `src`: one from `src` that reached a
socket, headed with the socket's endpoint and the datagram's length. -/
def Sent (src : IpEndpoint) (header body : List UInt8) : Prop :=
  ∃ handle dst, H.bound handle dst ∧ H.got handle body src ∧ header = generateEndpoint dst (UInt16.ofNat body.length)

/-- Each socket is bound, and holds datagrams, as `H` says. -/
def Holds (sockets : SocketSet) : Prop :=
  ∀ handle socket, sockets.lookup handle = some socket →
    H.bound handle socket.endpoint ∧ ∀ x ∈ socket.rx, H.got handle x.1 x.2

def Admits : ServerOp → Prop
  | .bind handle endpoint => H.bound handle endpoint
  | .arrive handle data src => H.got handle data src
  | .doRemote token event => H.event token event
  | _ => True

variable {H} {sockets : SocketSet}

theorem Holds.insert (hh : H.Holds sockets) {handle : Nat} {socket : UdpSocket}
    (hb : H.bound handle socket.endpoint) (hrx : ∀ x ∈ socket.rx, H.got handle x.1 x.2) :
    H.Holds (sockets.insert handle socket) := by
  intro handle' socket' h'
  by_cases he : handle' = handle
  · subst he
    rw [AList.lookup_insert] at h'
    cases h'
    exact ⟨hb, hrx⟩
  · rw [AList.lookup_insert_ne he] at h'
    exact hh _ _ h'

theorem Holds.erase (hh : H.Holds sockets) (handle : Nat) : H.Holds (sockets.erase handle) :=
  fun handle' socket h' => hh handle' socket (UdpServer.lookup_of_lookup_erase h').2

/-- What a run of `ops` from the sockets `sockets` hands the server. -/
def ofRun (sockets : SocketSet) (ops : List ServerOp) : Handed where
  event token e := ServerOp.doRemote token e ∈ ops
  bound handle dst := (∃ socket, sockets.lookup handle = some socket ∧ socket.endpoint = dst) ∨
    ServerOp.bind handle dst ∈ ops
  got handle body src := (∃ socket, sockets.lookup handle = some socket ∧ (body, src) ∈ socket.rx) ∨
    ServerOp.arrive handle body src ∈ ops

theorem ofRun_holds (sockets : SocketSet) (ops : List ServerOp) : (ofRun sockets ops).Holds sockets :=
  fun _ socket h => ⟨.inl ⟨socket, h, rfl⟩, fun _ hx => .inl ⟨socket, h, hx⟩⟩

theorem ofRun_admits (sockets : SocketSet) (ops : List ServerOp) :
    ∀ op ∈ ops, (ofRun sockets ops).Admits op := by
  intro op hop
  cases op with
  | bind => exact .inr hop
  | arrive => exact .inr hop
  | doRemote => exact hop
  | _ => trivial

end Handed

/-- The flow at `p` is one `serve` run of the flow `do_local` made there: the `p`-th
connection of the pool with the `p`-th token from `start`, on its own socket and source. -/
def FlowServed (r : TokenRange) (start : Nat) (H : Handed) (pool : List (Option TlsConn))
    (p : Nat) (c : Connection) : Prop :=
  ∃ tls cops, pool[p]? = some (some tls) ∧
    (∀ e, ConnOp.event e ∈ cops → H.event (r.token (r.indexAfter start p)) e) ∧
    (∀ header body, ConnOp.datagram header body ∈ cops → H.Sent c.endpoint header body) ∧
    c = serve c.local (Connection.create { tls with token := r.token (r.indexAfter start p) } c.local c.endpoint) cops

namespace FlowServed

variable {r : TokenRange} {start : Nat} {H : Handed} {pool : List (Option TlsConn)} {p : Nat} {c : Connection}

theorem token (hf : FlowServed r start H pool p c) : c.token = r.token (r.indexAfter start p) := by
  obtain ⟨tls, cops, -, -, -, hc⟩ := hf
  rw [hc]
  exact (serve_sameFlow _ _ cops).1

theorem step (hf : FlowServed r start H pool p c) (ho : c.rclosed = false) (op : ConnOp)
    (hev : ∀ e, op = .event e → H.event (r.token (r.indexAfter start p)) e)
    (hdg : ∀ header body, op = .datagram header body → H.Sent c.endpoint header body) :
    FlowServed r start H pool p (c.step c.local op).1 := by
  obtain ⟨tls, cops, hp, hevs, hdgs, hc⟩ := hf
  obtain ⟨-, hl, he⟩ := Connection.step_sameFlow c.local c op
  refine ⟨tls, cops ++ [op], hp, fun e he' => ?_, fun header body hd => ?_, ?_⟩
  · rcases List.mem_append.mp he' with h | h
    · exact hevs e h
    · exact hev e (List.mem_singleton.mp h).symm
  · rw [he]
    rcases List.mem_append.mp hd with h | h
    · exact hdgs header body h
    · exact hdg header body (List.mem_singleton.mp h).symm
  · rw [hl, he, serve_concat _ _ _ _ (by rw [← hc]; exact ho), ← hc]

end FlowServed

namespace UdpServer

/-- Every entry of the index `idx` names an open flow of `conns` whose key is the entry's. -/
def Keys {α : Type} [DecidableEq α] (conns : List Connection) (key : Connection → α)
    (idx : AList fun _ : α => Nat) : Prop :=
  ∀ k p, idx.lookup k = some p → ∃ c, conns[p]? = some c ∧ key c = k ∧ c.rclosed = false

namespace Keys

variable {α : Type} [DecidableEq α] {conns : List Connection} {key : Connection → α}
  {idx : AList fun _ : α => Nat} {p : Nat} {c c' : Connection}

theorem erase (h : Keys conns key idx) (k : α) : Keys conns key (idx.erase k) :=
  fun k' q hq => h k' q (lookup_of_lookup_erase hq).2

theorem concat (h : Keys conns key idx) (conn : Connection) : Keys (conns ++ [conn]) key idx := by
  intro k q hq
  obtain ⟨d, hd, hk, ho⟩ := h k q hq
  exact ⟨d, by rw [List.getElem?_append_left (List.getElem?_eq_some_iff.mp hd).1, hd], hk, ho⟩

theorem insert (h : Keys conns key idx) (hc : conns[p]? = some c) (ho : c.rclosed = false) :
    Keys conns key (idx.insert (key c) p) := by
  intro k q hq
  by_cases hk : k = key c
  · subst hk
    rw [AList.lookup_insert] at hq
    cases hq
    exact ⟨c, hc, rfl, ho⟩
  · rw [AList.lookup_insert_ne hk] at hq
    exact h k q hq

theorem set (h : Keys conns key idx) (hp : conns[p]? = some c) (hkey : key c' = key c)
    (ho : c'.rclosed = false) : Keys (conns.set p c') key idx := by
  intro k q hq
  obtain ⟨d, hd, hk, hdo⟩ := h k q hq
  by_cases hpq : p = q
  · subst hpq
    cases hp.symm.trans hd
    exact ⟨c', List.getElem?_set_self (List.getElem?_eq_some_iff.mp hp).1, hkey.trans hk, ho⟩
  · exact ⟨d, by rw [List.getElem?_set_ne hpq, hd], hk, hdo⟩

theorem set_erase (h : Keys conns key idx) (hp : conns[p]? = some c) (hkey : key c' = key c) :
    Keys (conns.set p c') key (idx.erase (key c')) := by
  intro k q hq
  obtain ⟨hne, hq⟩ := lookup_of_lookup_erase hq
  obtain ⟨d, hd, hk, hdo⟩ := h k q hq
  have hpq : p ≠ q := by
    rintro rfl
    cases hp.symm.trans hd
    exact hne (hk.symm.trans hkey.symm)
  exact ⟨d, by rw [List.getElem?_set_ne hpq, hd], hk, hdo⟩

end Keys

/-- Each entry of either index names an open flow that holds the entry's key. -/
structure Keyed (s : UdpServer) : Prop where
  addr : Keys s.conns Connection.endpoint s.addr2conns
  token : Keys s.conns Connection.token s.token2conns

@[simp] theorem storeFlow_conns (s : UdpServer) (p : Nat) (c : Connection) :
    (s.storeFlow p c).conns = s.conns.set p c := by
  unfold storeFlow; split <;> rfl

variable {s : UdpServer}

namespace Keyed

theorem with_sockets (hk : s.Keyed) (sockets : AList fun _ : IpEndpoint => Nat) :
    Keyed { s with sockets } :=
  ⟨hk.addr, hk.token⟩

theorem remove (hk : s.Keyed) (c : Connection) : (s.remove c).Keyed :=
  ⟨hk.addr.erase _, hk.token.erase _⟩

theorem insertToken (hk : s.Keyed) {p : Nat} {c : Connection} (hc : s.conns[p]? = some c)
    (ho : c.rclosed = false) : (s.insertToken c p).Keyed := by
  refine ⟨hk.addr, ?_⟩
  simp only [UdpServer.insertToken]
  split
  · exact hk.token
  · exact hk.token.insert hc ho

theorem storeFlow (hk : s.Keyed) {p : Nat} {c c' : Connection} (hp : s.conns[p]? = some c)
    (hc : SameFlow c c') : (s.storeFlow p c').Keyed := by
  unfold UdpServer.storeFlow
  split
  · exact ⟨hk.addr.set_erase hp hc.2.2, hk.token.set_erase hp hc.1⟩
  · rename_i hcl
    have ho := Bool.eq_false_iff.mpr hcl
    exact ⟨hk.addr.set hp hc.2.2 ho, hk.token.set hp hc.1 ho⟩

end Keyed

/-- What every run keeps: the indexes name open flows under their keys, each flow is a `serve`
run of the flow made at its position, and the static and the pool moved on per flow. -/
structure Serves (r : TokenRange) (start : Nat) (H : Handed) (pool : List (Option TlsConn))
    (s : UdpServer) (h : Host) : Prop where
  keyed : s.Keyed
  flows : ∀ p c, s.conns[p]? = some c → FlowServed r start H pool p c
  next : h.nextIndex = r.indexAfter start s.conns.length
  rest : h.pool = pool.drop s.conns.length

section Calls

variable {r : TokenRange} {start : Nat} {H : Handed} {pool : List (Option TlsConn)} {h : Host}

theorem Serves.of_conns (hs : Serves r start H pool s h) {s' : UdpServer} (hk : s'.Keyed)
    (hc : s'.conns = s.conns) : Serves r start H pool s' h :=
  ⟨hk, by rw [hc]; exact hs.flows, by rw [hc]; exact hs.next, by rw [hc]; exact hs.rest⟩

theorem Serves.storeFlow (hs : Serves r start H pool s h) {p : Nat} {c : Connection}
    (hp : s.conns[p]? = some c) (ho : c.rclosed = false) (op : ConnOp)
    (hev : ∀ e, op = .event e → H.event (r.token (r.indexAfter start p)) e)
    (hdg : ∀ header body, op = .datagram header body → H.Sent c.endpoint header body) :
    Serves r start H pool (s.storeFlow p (c.step c.local op).1) h := by
  refine ⟨hs.keyed.storeFlow hp (Connection.step_sameFlow _ _ _), fun q d hd => ?_,
    by rw [storeFlow_length]; exact hs.next, by rw [storeFlow_length]; exact hs.rest⟩
  rw [storeFlow_conns] at hd
  by_cases hpq : p = q
  · subst hpq
    rw [List.getElem?_set_self (List.getElem?_eq_some_iff.mp hp).1] at hd
    cases hd
    exact (hs.flows p c hp).step ho op hev hdg
  · rw [List.getElem?_set_ne hpq] at hd
    exact hs.flows q d hd

variable {handle : Nat} {src : IpEndpoint}

theorem connectionFor_serves (hs : Serves r start H pool s h) {s₁ : UdpServer} {h₁ : Host} {p : Nat}
    (hcf : s.connectionFor r h handle src = some (s₁, h₁, p)) :
    ∃ c, s₁.conns[p]? = some c ∧ c.rclosed = false ∧ c.endpoint = src ∧
      Serves r start H pool (s₁.insertToken c p) h₁ := by
  unfold connectionFor at hcf
  split at hcf
  · rename_i p₀ hp₀
    simp only [Option.some.injEq, Prod.mk.injEq] at hcf
    obtain ⟨rfl, rfl, rfl⟩ := hcf
    obtain ⟨c, hc, hsrc, ho⟩ := hs.keyed.addr _ p₀ hp₀
    exact ⟨c, hc, ho, hsrc, hs.of_conns (hs.keyed.insertToken hc ho) rfl⟩
  split at hcf
  · rename_i tls tail hpool
    simp only [Option.some.injEq, Prod.mk.injEq] at hcf
    obtain ⟨rfl, rfl, rfl⟩ := hcf
    have hnew := List.getElem?_concat_length s.conns
      (Connection.create { tls with token := (nextToken r h.nextIndex).1 } handle src)
    have hk : Keyed { s with conns := s.conns ++ [_], addr2conns := s.addr2conns.insert src s.conns.length } :=
      ⟨(hs.keyed.addr.concat _).insert hnew rfl, hs.keyed.token.concat _⟩
    refine ⟨_, hnew, rfl, rfl, hk.insertToken hnew rfl, fun q d hd => ?_, ?_, ?_⟩
    · rcases getElem?_concat_cases hd with hd | ⟨rfl, rfl⟩
      · exact hs.flows q d hd
      · refine ⟨tls, [], ?_, (fun _ h => nomatch h), (fun _ _ h => nomatch h), ?_⟩
        · rw [← List.head?_drop, ← hs.rest, hpool]; rfl
        · rw [TokenRange.nextToken_fst, hs.next]; rfl
    · simp only [insertToken, List.length_append, List.length_singleton]
      rw [hs.next, TokenRange.nextToken_snd]
    · simp only [insertToken, List.length_append, List.length_singleton]
      rw [← List.tail_drop, ← hs.rest, hpool]; rfl
  · cases hcf

theorem localDatagram_serves (hs : Serves r start H pool s h) {dst : IpEndpoint} {data : List UInt8}
    (hb : H.bound handle dst) (hg : H.got handle data src) {s' : UdpServer} {h' : Host}
    (hld : s.localDatagram r h handle dst data src = some (s', h')) : Serves r start H pool s' h' := by
  unfold localDatagram at hld
  rcases hcf : s.connectionFor r h handle src with _ | ⟨s₁, h₁, p⟩ <;> rw [hcf] at hld
  · cases hld
  obtain ⟨c, hc, ho, hsrc, hs₁⟩ := connectionFor_serves hs hcf
  dsimp only at hld
  rw [hc] at hld
  cases hld
  refine hs₁.storeFlow hc ho (.datagram _ data) (fun _ h => nomatch h) fun header body h => ?_
  cases h
  exact ⟨handle, dst, hb, hsrc ▸ hg, rfl⟩

end Calls

section Loops

variable {r : TokenRange} {start : Nat} {H : Handed} {pool : List (Option TlsConn)}
  {h h' : Host} {handle : Nat} {s' : UdpServer}

theorem recvLoop_serves {dst : IpEndpoint} {rx : List (List UInt8 × IpEndpoint)}
    (hs : Serves r start H pool s h) (hb : H.bound handle dst) (hrx : ∀ x ∈ rx, H.got handle x.1 x.2)
    (hrl : recvLoop r handle dst rx s h = some (s', h')) : Serves r start H pool s' h' := by
  induction rx generalizing s h with
  | nil =>
    simp only [recvLoop, Option.some.injEq, Prod.mk.injEq] at hrl
    obtain ⟨rfl, rfl⟩ := hrl
    exact hs
  | cons d rx ih =>
    simp only [recvLoop] at hrl
    rcases hld : s.localDatagram r h handle dst d.1 d.2 with _ | ⟨s₁, h₁⟩ <;> rw [hld] at hrl
    · cases hrl
    · exact ih (localDatagram_serves hs hb (hrx d (List.mem_cons_self _ _)) hld)
        (fun x hx => hrx x (List.mem_cons_of_mem _ hx)) hrl

variable {sockets sockets' : SocketSet}

theorem localEvent_serves {now : Nat} (hs : Serves r start H pool s h) (hh : H.Holds sockets)
    (hle : s.localEvent r h sockets handle now = some (s', h', sockets')) :
    Serves r start H pool s' h' ∧ H.Holds sockets' := by
  unfold localEvent at hle
  split at hle
  · cases hle
  · rename_i socket hsk
    split_ifs at hle
    rcases hrl : recvLoop r handle _ _ _ h with _ | ⟨s₁, h₁⟩ <;> rw [hrl] at hle
    · cases hle
    · simp only [Option.some.injEq, Prod.mk.injEq] at hle
      obtain ⟨rfl, rfl, rfl⟩ := hle
      obtain ⟨hb, hrx⟩ := hh handle socket hsk
      exact ⟨recvLoop_serves (hs.of_conns (hs.keyed.with_sockets (s.sockets.insert _ now)) rfl) hb hrx hrl,
        hh.insert hb fun _ hx => nomatch hx⟩

theorem doLocal_serves {events : List (Nat × Nat)} (hs : Serves r start H pool s h) (hh : H.Holds sockets)
    (hdl : s.doLocal r h sockets events = some (s', h', sockets')) :
    Serves r start H pool s' h' ∧ H.Holds sockets' := by
  induction events generalizing s h sockets with
  | nil =>
    simp only [doLocal, Option.some.injEq, Prod.mk.injEq] at hdl
    obtain ⟨rfl, rfl, rfl⟩ := hdl
    exact ⟨hs, hh⟩
  | cons ev events ih =>
    simp only [doLocal] at hdl
    rcases hle : s.localEvent r h sockets ev.1 ev.2 with _ | ⟨s₁, h₁, sockets₁⟩ <;> rw [hle] at hdl
    · cases hdl
    · obtain ⟨hs₁, hh₁⟩ := localEvent_serves hs hh hle
      exact ih hs₁ hh₁ hdl

end Loops

section Remote

variable {r : TokenRange} {start : Nat} {H : Handed} {pool : List (Option TlsConn)} {h : Host}

theorem doRemote_serves {token : Nat} {event : Event} {sockets : SocketSet} {s' : UdpServer}
    {out : List Datagram} (hs : Serves r start H pool s h) (hdr : s.doRemote token event sockets = some (s', out))
    (hev : H.event token event) : Serves r start H pool s' h := by
  unfold doRemote at hdr
  split at hdr
  · cases hdr; exact hs
  rename_i p hp
  split at hdr
  · cases hdr; exact hs
  rename_i conn hconn
  split_ifs at hdr
  cases hdr
  obtain ⟨c, hc, hk, ho⟩ := hs.keyed.token _ p hp
  cases hconn.symm.trans hc
  refine hs.storeFlow hc ho (.event event) (fun e he => ?_) fun _ _ h => nomatch h
  cases he
  rw [← (hs.flows p conn hc).token, hk]
  exact hev

theorem foldl_evict_serves (l : List Connection) (s : UdpServer) (sockets : SocketSet) (hk : s.Keyed)
    (hh : H.Holds sockets) :
    (l.foldl (fun acc conn => evict acc.1 acc.2 conn) (s, sockets)).1.Keyed ∧
      H.Holds (l.foldl (fun acc conn => evict acc.1 acc.2 conn) (s, sockets)).2 := by
  induction l generalizing s sockets with
  | nil => exact ⟨hk, hh⟩
  | cons c l ih => exact ih _ _ ((hk.with_sockets _).remove c) (hh.erase _)

theorem checkTimeout_serves (hs : Serves r start H pool s h) (now : Nat) {sockets : SocketSet}
    (hh : H.Holds sockets) :
    Serves r start H pool (s.checkTimeout now sockets).1 h ∧ H.Holds (s.checkTimeout now sockets).2 :=
  have hev := foldl_evict_serves (s.idleConns now) s sockets hs.keyed hh
  ⟨hs.of_conns hev.1 (checkTimeout_conns s now sockets), hev.2⟩

theorem newSocket_serves (hs : Serves r start H pool s h) (endpoint : IpEndpoint) (now : Nat) :
    Serves r start H pool (s.newSocket endpoint now).2 h := by
  unfold newSocket; split
  · exact hs
  · exact hs.of_conns (hs.keyed.with_sockets _) rfl

end Remote

theorem serves_new (r : TokenRange) (H : Handed) (host : Host)
    (hstart : r.minIndex ≤ host.nextIndex ∧ host.nextIndex < r.maxIndex) :
    Serves r host.nextIndex H host.pool new host :=
  ⟨⟨fun _ _ h => by simp [new] at h, fun _ _ h => by simp [new] at h⟩,
    fun _ _ h => by simp [new] at h, (TokenRange.indexAfter_zero hstart).symm, rfl⟩

end UdpServer

namespace World

open UdpServer

variable {r : TokenRange} {start : Nat} {H : Handed} {pool : List (Option TlsConn)} {w w' : World}

theorem step_serves {op : ServerOp} (hs : Serves r start H pool w.server w.host) (hh : H.Holds w.sockets)
    (hstep : w.step r op = some w') (hop : H.Admits op) :
    Serves r start H pool w'.server w'.host ∧ H.Holds w'.sockets := by
  cases op with
  | bind handle endpoint =>
    cases hstep
    exact ⟨hs, hh.insert hop fun _ hx => nomatch hx⟩
  | arrive handle data src =>
    simp only [step] at hstep
    split at hstep <;> cases hstep
    · exact ⟨hs, hh⟩
    · rename_i socket hsk
      obtain ⟨hb, hrx⟩ := hh handle socket hsk
      refine ⟨hs, hh.insert hb fun x hx => ?_⟩
      rcases List.mem_append.mp hx with hx | hx
      · exact hrx x hx
      · rw [List.mem_singleton.mp hx]
        exact hop
  | newSocket endpoint now =>
    cases hstep
    exact ⟨newSocket_serves hs endpoint now, hh⟩
  | doLocal events =>
    simp only [step] at hstep
    split at hstep
    · cases hstep
    · cases hstep; exact doLocal_serves hs hh ‹_›
  | doRemote token event =>
    simp only [step] at hstep
    split at hstep
    · cases hstep
    · cases hstep; exact ⟨doRemote_serves hs ‹_› hop, hh⟩
  | checkTimeout now =>
    cases hstep
    exact checkTimeout_serves hs now hh

theorem run_serves {ops : List ServerOp} (hs : Serves r start H pool w.server w.host) (hh : H.Holds w.sockets)
    (hrun : w.run r ops = some w') (hops : ∀ op ∈ ops, H.Admits op) :
    Serves r start H pool w'.server w'.host ∧ H.Holds w'.sockets := by
  induction ops generalizing w with
  | nil =>
    cases hrun
    exact ⟨hs, hh⟩
  | cons op ops ih =>
    simp only [run] at hrun
    split at hrun
    · cases hrun
    · obtain ⟨hs₁, hh₁⟩ := step_serves hs hh ‹_› (hops op (List.mem_cons_self _ _))
      exact ih hs₁ hh₁ hrun fun op' h' => hops op' (List.mem_cons_of_mem _ h')

end World

/-- Over every run from `UdpServer::new`, the indexes name open flows under their keys, and each
flow is a `serve` run stepped only under its own token and from its own source. -/
theorem server_serves_each_flow (r : TokenRange) (host : Host) (sockets : SocketSet)
    (hstart : r.minIndex ≤ host.nextIndex ∧ host.nextIndex < r.maxIndex) (ops : List ServerOp) (w : World)
    (hrun : World.run r ⟨UdpServer.new, host, sockets, []⟩ ops = some w) :
    w.server.Keyed ∧ ∀ p c, w.server.conns[p]? = some c →
      ∃ tls cops, host.pool[p]? = some (some tls) ∧
        (∀ e, ConnOp.event e ∈ cops → ServerOp.doRemote (r.token (r.indexAfter host.nextIndex p)) e ∈ ops) ∧
        (∀ header body, ConnOp.datagram header body ∈ cops → ∃ handle dst,
          ((∃ socket, sockets.lookup handle = some socket ∧ socket.endpoint = dst) ∨
            ServerOp.bind handle dst ∈ ops) ∧
          ((∃ socket, sockets.lookup handle = some socket ∧ (body, c.endpoint) ∈ socket.rx) ∨
            ServerOp.arrive handle body c.endpoint ∈ ops) ∧
          header = generateEndpoint dst (UInt16.ofNat body.length)) ∧
        c = serve c.local (Connection.create { tls with token := r.token (r.indexAfter host.nextIndex p) }
          c.local c.endpoint) cops :=
  have hs := (World.run_serves (UdpServer.serves_new r (Handed.ofRun sockets ops) host hstart)
    (Handed.ofRun_holds sockets ops) hrun (Handed.ofRun_admits sockets ops)).1
  ⟨hs.keyed, hs.flows⟩

/-- The flow of the first query is a `serve` run of the pool's connection. -/
theorem first_flow_served :
    ∃ w, World.run smallRange quietWorld firstQuery = some w ∧ w.server.Keyed ∧ ∃ c, w.server.conns[0]? = some c ∧
      FlowServed smallRange 2 (Handed.ofRun ∅ firstQuery) quietWorld.host.pool 0 c :=
  have h := server_serves_each_flow smallRange quietWorld.host ∅ ⟨by decide, by decide⟩ firstQuery _ rfl
  ⟨_, rfl, h.1, _, rfl, h.2 0 _ rfl⟩

/-- With pool connections nothing has closed and no event both readable and writable, no call
on a flow's connection follows its close, over every run. -/
theorem server_never_uses_closed_flow (r : TokenRange) (host : Host) (sockets : SocketSet)
    (hstart : r.minIndex ≤ host.nextIndex ∧ host.nextIndex < r.maxIndex)
    (hpool : ∀ tls, some tls ∈ host.pool → .close ∉ tls.calls) (ops : List ServerOp)
    (hops : ∀ t, ServerOp.doRemote t ⟨true, true⟩ ∉ ops) (w : World)
    (hrun : World.run r ⟨UdpServer.new, host, sockets, []⟩ ops = some w) :
    ∀ (p : Nat) (c : Connection), w.server.conns[p]? = some c → NoUseAfterClose c.remote.calls := by
  intro p c hc
  let H : Handed := ⟨fun _ e => e ≠ ⟨true, true⟩, fun _ _ => True, fun _ _ _ => True⟩
  have hadmits : ∀ op ∈ ops, H.Admits op := by
    intro op hop
    cases op with
    | doRemote t e => exact fun he => hops t (he ▸ hop)
    | _ => trivial
  obtain ⟨tls, cops, hp, hev, -, hc'⟩ := (World.run_serves (UdpServer.serves_new r H host hstart)
    (fun _ _ _ => ⟨trivial, fun _ _ => trivial⟩) hrun hadmits).1.flows p c hc
  rw [hc']
  refine (serve_calls _ _ cops rfl fun op hop he => ?_).noUseAfterClose (hpool tls (List.getElem?_mem hp))
  subst he
  exact hev _ hop rfl
/-- The first query, then its flow's relay connection turning writable, with the quiet
relay: close stays the last call. -/
theorem writable_flow_closes_last :
    (∀ tls, some tls ∈ quietWorld.host.pool → .close ∉ tls.calls) ∧
      (∀ t, ServerOp.doRemote t ⟨true, true⟩ ∉ firstQuery ++ [.doRemote 8 ⟨false, true⟩]) ∧
      ∃ w, World.run smallRange quietWorld (firstQuery ++ [.doRemote 8 ⟨false, true⟩]) = some w ∧
        ∀ (p : Nat) (c : Connection), w.server.conns[p]? = some c → NoUseAfterClose c.remote.calls :=
  have hpool : ∀ tls, some tls ∈ quietWorld.host.pool → .close ∉ tls.calls := fun tls h => by
    simp only [quietWorld, List.mem_singleton, Option.some.injEq] at h
    subst h
    simp [quietRelay]
  have hops : ∀ t, ServerOp.doRemote t ⟨true, true⟩ ∉ firstQuery ++ [.doRemote 8 ⟨false, true⟩] := by
    simp [firstQuery]
  ⟨hpool, hops, _, rfl,
    server_never_uses_closed_flow smallRange quietWorld.host ∅ ⟨by decide, by decide⟩ hpool _ hops _ rfl⟩

end TrojanRs
