import TrojanRs.Wintun.Index

/-! A token handed out again `MAX_INDEX - MIN_INDEX` calls later reaches a flow that is still
indexed: `token2conns.entry(..).or_insert_with(..)` keeps the old flow, and the indexes disagree. -/

namespace TrojanRs.TokenReuse

open UdpServer

set_option autoImplicit false

/-- The second client. -/
def otherClient : IpEndpoint := ⟨.v4 ⟨[10, 0, 0, 4], rfl⟩, 5353⟩

/-- A relay connection whose first write fails. -/
def failingRelay : TlsConn := ⟨0, [.error], [], [], [], []⟩

/-- One flow of the second client: its datagram opens it, and the writable event of the
token it got closes it. -/
def shortFlow (token : Nat) : List ServerOp :=
  [.arrive 0 [1] otherClient, .doLocal [(0, 0)], .doRemote token ⟨false, true⟩]

/-- The world after the first client's flow and `k - 1` short flows, with `rest`
connections left in the pool. -/
structure Between (r : TokenRange) (start k rest : Nat) (w : World) : Prop where
  length : w.server.conns.length = k
  addr : ∀ e, w.server.addr2conns.lookup e = if e = dnsClient then some 0 else none
  token : ∀ t, w.server.token2conns.lookup t = if t = r.token start then some 0 else none
  next : w.host.nextIndex = r.indexAfter start k
  pool : w.host.pool = List.replicate rest (some failingRelay)
  socket : w.sockets.lookup 0 = some ⟨dnsServer, []⟩
  registered : dnsServer ∈ w.server.sockets

theorem doRemote_handshake_error (c : Connection) (socket : Nat) (hest : c.established = false)
    (hw : c.remote.writes = [.error]) : (c.doRemote socket ⟨false, true⟩).1.rclosed = true := by
  simp [Connection.doRemote, hest, TlsConn.write, TlsConn.nextWrite, hw, TlsConn.answerWrite]

variable {r : TokenRange} {start k rest : Nat} {w : World}

theorem shortFlow_between (hs : r.minIndex ≤ start ∧ start < r.maxIndex)
    (hb : Between r start k (rest + 1) w) (hk : k < r.maxIndex - r.minIndex) (hk0 : 0 < k) :
    ∃ w', World.run r w (shortFlow (r.token (r.indexAfter start k))) = some w' ∧
      Between r start (k + 1) rest w' := by
  have hne : otherClient ≠ dnsClient := by decide
  have hT : (nextToken r w.host.nextIndex).1 = r.token (r.indexAfter start k) := by rw [hb.next]; rfl
  have hTne : r.token (r.indexAfter start k) ≠ r.token start := fun h => by
    have := TokenRange.indexAfter_injective hk (show 0 < r.maxIndex - r.minIndex by omega)
      (by rw [r.token_injective h, TokenRange.indexAfter_zero hs])
    omega
  have hfresh : r.token (r.indexAfter start k) ∉ w.server.token2conns := by
    rw [← AList.lookup_eq_none, hb.token, if_neg hTne]
  have hclosed := doRemote_handshake_error
  simp [shortFlow, World.run, World.step, hb.socket, UdpServer.doLocal, localEvent, hb.registered,
    recvLoop, localDatagram, connectionFor, hb.addr, hne, hb.pool, List.replicate_succ, hT,
    insertToken, hfresh, storeFlow, Connection.doLocal, Connection.create, UdpServer.doRemote,
    hclosed, failingRelay]
  refine ⟨by simp [UdpServer.remove, hb.length], fun e => ?_, fun t => ?_, ?_, rfl, by simp, by simp [UdpServer.remove]⟩
  · by_cases he : e = otherClient
    · subst he
      simp [UdpServer.remove, hne]
    · simp [UdpServer.remove, AList.lookup_erase_ne he, AList.lookup_insert_ne he, hb.addr]
  · by_cases ht : t = r.token (r.indexAfter start k)
    · subst ht
      simp [UdpServer.remove, hTne]
    · simp [UdpServer.remove, AList.lookup_erase_ne ht, AList.lookup_insert_ne ht, hb.token]
  · rw [hb.next, TokenRange.nextToken_snd]

/-- `n` short flows of the second client, from its `k`-th token on. -/
def shortFlows (r : TokenRange) (start : Nat) : Nat → Nat → List ServerOp
  | _, 0 => []
  | k, n + 1 => shortFlow (r.token (r.indexAfter start k)) ++ shortFlows r start (k + 1) n

theorem shortFlows_between (hs : r.minIndex ≤ start ∧ start < r.maxIndex) (n : Nat)
    (hb : Between r start k (rest + n) w) (hk : k + n ≤ r.maxIndex - r.minIndex) (hk0 : 0 < k) :
    ∃ w', World.run r w (shortFlows r start k n) = some w' ∧ Between r start (k + n) rest w' := by
  induction n generalizing k w with
  | zero => exact ⟨w, rfl, hb⟩
  | succ n ih =>
    obtain ⟨w₁, h₁, hb₁⟩ :=
      shortFlow_between hs (show Between r start k (rest + n + 1) w from hb) (by omega) hk0
    obtain ⟨w₂, h₂, hb₂⟩ := ih hb₁ (by omega) (by omega)
    refine ⟨w₂, ?_, by rwa [Nat.add_right_comm] at hb₂⟩
    rw [shortFlows, World.run_append, h₁]
    exact h₂

/-- The world of the run: a fresh server, the static at `start`, and a pool with a quiet
connection for the first client, then `n` failing ones. -/
def reuseWorld (start n : Nat) : World :=
  ⟨UdpServer.new, ⟨start, some quietRelay :: List.replicate n (some failingRelay)⟩, ∅, []⟩

theorem firstQuery_between (hs : r.minIndex ≤ start ∧ start < r.maxIndex) (n : Nat) :
    ∃ w, World.run r (reuseWorld start n) firstQuery = some w ∧ Between r start 1 n w := by
  simp [firstQuery, reuseWorld, World.run, World.step, UdpServer.newSocket, UdpServer.new,
    UdpServer.doLocal, localEvent, recvLoop, localDatagram, connectionFor, insertToken, storeFlow,
    Connection.doLocal, Connection.create, -AList.insert_empty]
  refine ⟨rfl, fun e => ?_, fun t => ?_, ?_, rfl, by simp [-AList.insert_empty],
    by simp [AList.mem_insert, -AList.insert_empty]⟩
  · by_cases he : e = dnsClient
    · subst he; simp [-AList.insert_empty]
    · simp [he, AList.lookup_insert_ne he, -AList.insert_empty]
  · by_cases ht : t = r.token start
    · subst ht; simp [TokenRange.nextToken_fst, -AList.insert_empty]
    · simp [ht, AList.lookup_insert_ne (show t ≠ (nextToken r start).1 from ht), -AList.insert_empty]
  · conv_lhs => rw [← TokenRange.indexAfter_zero hs]
    exact TokenRange.nextToken_snd 0

/-- The second client's datagram once `next_token` has wrapped. -/
def lastDatagram : List ServerOp := [.arrive 0 [1] otherClient, .doLocal [(0, 0)]]

theorem lastDatagram_breaks (hs : r.minIndex ≤ start ∧ start < r.maxIndex)
    (hb : Between r start (r.maxIndex - r.minIndex) (rest + 1) w) :
    ∃ w', World.run r w lastDatagram = some w' ∧ ¬ w'.server.Consistent := by
  have hne : otherClient ≠ dnsClient := by decide
  have hwrap : r.indexAfter start (r.maxIndex - r.minIndex) = start := by
    simpa [TokenRange.indexAfter_zero hs] using @TokenRange.indexAfter_add_range r start 0
  have hT : (nextToken r w.host.nextIndex).1 = r.token start := by rw [hb.next, hwrap]; rfl
  have hheld : r.token start ∈ w.server.token2conns := by
    rw [← AList.lookup_isSome, hb.token, if_pos rfl]; rfl
  simp [lastDatagram, World.run, World.step, hb.socket, UdpServer.doLocal, localEvent, hb.registered,
    recvLoop, localDatagram, connectionFor, hb.addr, hne, hb.pool, List.replicate_succ, hT,
    insertToken, hheld, storeFlow, Connection.doLocal, Connection.create]
  intro hc
  obtain ⟨c, hc, -, ht⟩ := hc.addr otherClient _ (AList.lookup_insert _)
  simp only [List.getElem?_concat_length, Option.some.injEq] at hc
  subst hc
  rw [hb.token, if_pos rfl, Option.some.injEq, hb.length] at ht
  have := r.min_lt_max
  omega

/-- The run: the first client's flow, `MAX_INDEX - MIN_INDEX - 1` short flows of the
second client, and one more datagram of the second client. -/
def reuseRun (r : TokenRange) : List ServerOp :=
  firstQuery ++ shortFlows r r.minIndex 1 (r.maxIndex - r.minIndex - 1) ++ lastDatagram

theorem token_reuse_breaks_indexes (r : TokenRange) :
    ∃ w, World.run r (reuseWorld r.minIndex (r.maxIndex - r.minIndex)) (reuseRun r) = some w ∧
      ¬ w.server.Consistent := by
  have hs : r.minIndex ≤ r.minIndex ∧ r.minIndex < r.maxIndex := ⟨le_rfl, r.min_lt_max⟩
  have hm : 0 < r.maxIndex - r.minIndex := by have := r.min_lt_max; omega
  obtain ⟨w₁, h₁, hb₁⟩ := firstQuery_between (r := r) hs (r.maxIndex - r.minIndex)
  have hb₁' : Between r r.minIndex 1 (1 + (r.maxIndex - r.minIndex - 1)) w₁ := by
    rwa [Nat.add_sub_cancel' hm]
  obtain ⟨w₂, h₂, hb₂⟩ := shortFlows_between hs _ hb₁' (by omega) Nat.one_pos
  have hb₂' : Between r r.minIndex (r.maxIndex - r.minIndex) (0 + 1) w₂ := by
    rwa [Nat.add_sub_cancel' hm] at hb₂
  obtain ⟨w₃, h₃, hbad⟩ := lastDatagram_breaks hs hb₂'
  refine ⟨w₃, ?_, hbad⟩
  rw [reuseRun, World.run_append, World.run_append, h₁]
  dsimp only
  rw [h₂]
  exact h₃

/-- The run on the eight token indices of `smallRange`: nine connections, and the ninth
shares the first one's token. -/
theorem small_range_token_reused :
    ∃ w, World.run smallRange (reuseWorld smallRange.minIndex (smallRange.maxIndex - smallRange.minIndex))
      (reuseRun smallRange) = some w ∧ ¬ w.server.Consistent :=
  token_reuse_breaks_indexes smallRange

end TrojanRs.TokenReuse
