import TrojanRs.Wintun.Index

/-! Idle flows: `check_timeout` reads idle times kept under the flows' destinations and looks
them up in `addr2conns`, which is keyed by sources, so a flow to 8.8.8.8:53 is never evicted. -/

namespace TrojanRs

set_option autoImplicit false

namespace UdpServer

variable {r : TokenRange} {start : Nat} {s : UdpServer}

theorem mem_idleConns (hl : Linked r start s) {now : Nat} {c : Connection} :
    c ∈ s.idleConns now ↔ ∃ p t, s.conns[p]? = some c ∧ s.addr2conns.lookup c.endpoint = some p ∧
      s.sockets.lookup c.endpoint = some t ∧ idleTimeout < now - t := by
  constructor
  · intro hc
    obtain ⟨e, he, hsel⟩ := List.mem_filterMap.mp hc
    split at hsel
    · obtain ⟨p, hp, hcp⟩ := Option.bind_eq_some.mp hsel
      obtain ⟨d, hd, hend, -⟩ := hl.addr _ p hp
      cases hcp.symm.trans hd
      rw [hend]
      exact ⟨p, e.2, hd, hp, AList.mem_lookup_iff.mpr he, ‹_›⟩
    · cases hsel
  · rintro ⟨p, t, hp, ha, ht, hidle⟩
    refine List.mem_filterMap.mpr ⟨⟨c.endpoint, t⟩, AList.mem_lookup_iff.mp ht, ?_⟩
    rw [if_pos hidle, ha]
    exact hp

theorem foldl_evict_addr2conns (l : List Connection) (s : UdpServer) (sockets : SocketSet)
    (e : IpEndpoint) :
    (l.foldl (fun acc conn => evict acc.1 acc.2 conn) (s, sockets)).1.addr2conns.lookup e =
      if e ∈ l.map (·.endpoint) then none else s.addr2conns.lookup e := by
  induction l generalizing s sockets with
  | nil => simp
  | cons c l ih =>
    rw [List.foldl_cons, ih]
    by_cases hc : e = c.endpoint
    · subst hc
      simp [evict, remove]
    · simp [evict, remove, hc, AList.lookup_erase_ne hc]

theorem idleConns_eq_nil (h : ∀ e ∈ s.sockets.keys, s.addr2conns.lookup e = none) (now : Nat) :
    s.idleConns now = [] := by
  refine List.filterMap_eq_nil_iff.mpr fun e he => ?_
  rw [h e.1 (List.mem_map_of_mem _ he), Option.none_bind, ite_self]

/-- Under the index invariant, `check_timeout` removes the flow of a source exactly when a time
older than 600 s is kept under that source itself. -/
theorem checkTimeout_addr2conns (hl : Linked r start s) (now : Nat) (sockets : SocketSet)
    (e : IpEndpoint) :
    (s.checkTimeout now sockets).1.addr2conns.lookup e =
      match s.sockets.lookup e with
      | some t => if idleTimeout < now - t then none else s.addr2conns.lookup e
      | none => s.addr2conns.lookup e := by
  have hsel : e ∈ (s.idleConns now).map (·.endpoint) ↔
      (∃ t, s.sockets.lookup e = some t ∧ idleTimeout < now - t) ∧ s.addr2conns.lookup e ≠ none := by
    simp only [List.mem_map, mem_idleConns hl]
    constructor
    · rintro ⟨c, ⟨p, t, -, ha, ht, hidle⟩, rfl⟩
      exact ⟨⟨t, ht, hidle⟩, by simp [ha]⟩
    · rintro ⟨⟨t, ht, hidle⟩, ha⟩
      obtain ⟨p, hp⟩ := Option.ne_none_iff_exists'.mp ha
      obtain ⟨c, hc, rfl, -⟩ := hl.addr e p hp
      exact ⟨c, ⟨p, t, hc, hp, ht, hidle⟩, rfl⟩
  rw [checkTimeout, foldl_evict_addr2conns]
  by_cases hmem : e ∈ (s.idleConns now).map (·.endpoint)
  · obtain ⟨⟨t, ht, hidle⟩, -⟩ := hsel.mp hmem
    rw [if_pos hmem, ht]
    exact (if_pos hidle).symm
  · rw [if_neg hmem]
    cases ht : s.sockets.lookup e with
    | none => rfl
    | some t =>
      show _ = if idleTimeout < now - t then none else _
      split
      · exact not_not.mp fun ha => hmem (hsel.mpr ⟨⟨t, ht, ‹_›⟩, ha⟩)
      · rfl

end UdpServer

/-- The first query's flow under `check_timeout` at 601 s. -/
theorem first_query_flow_at_timeout :
    ∃ w, World.run smallRange quietWorld firstQuery = some w ∧ w.server.Linked smallRange 2 ∧
      (w.server.checkTimeout (601 * 10 ^ 9) w.sockets).1.addr2conns.lookup dnsClient =
        match w.server.sockets.lookup dnsClient with
        | some t => if idleTimeout < 601 * 10 ^ 9 - t then none else w.server.addr2conns.lookup dnsClient
        | none => w.server.addr2conns.lookup dnsClient := by
  have hi := World.run_inv (World.inv_new smallRange quietWorld.host ∅ ⟨by decide, by decide⟩)
    (show World.run smallRange quietWorld firstQuery = some _ from rfl) (by decide)
  exact ⟨_, rfl, hi.linked, UdpServer.checkTimeout_addr2conns hi.linked _ _ _⟩

/-- A flow from 10.0.0.3:5353 to 8.8.8.8:53 survives `check_timeout` at any time. -/
theorem idle_flow_never_evicted :
    ∃ w, World.run smallRange quietWorld firstQuery = some w ∧ w.server.Consistent ∧
      w.server.addr2conns.lookup dnsClient = some 0 ∧ (w.server.token2conns.lookup 8).isSome ∧
      w.server.sockets.lookup dnsServer = some 1 ∧
      ∀ now, w.server.checkTimeout now w.sockets = (w.server, w.sockets) := by
  have hi := World.run_inv (World.inv_new smallRange quietWorld.host ∅ ⟨by decide, by decide⟩)
    (show World.run smallRange quietWorld firstQuery = some _ from rfl) (by decide)
  refine ⟨_, rfl, hi.linked.consistent hi.opened, by decide, by decide, by decide, fun now => ?_⟩
  rw [UdpServer.checkTimeout, UdpServer.idleConns_eq_nil (by decide) now]
  rfl

end TrojanRs
