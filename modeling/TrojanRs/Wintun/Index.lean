import TrojanRs.Wintun.Server

/-! The two flow indexes of `UdpServer`: while a run has made at most `MAX_INDEX - MIN_INDEX`
connections, the `p`-th holds the `p`-th token, every call keeps the indexes consistent, and
no indexed flow is closed once a call returns. -/

namespace TrojanRs

set_option autoImplicit false

namespace UdpServer

/-- A position one of the indexes holds. -/
def Indexed (s : UdpServer) (p : Nat) : Prop :=
  (∃ e, s.addr2conns.lookup e = some p) ∨ ∃ t, s.token2conns.lookup t = some p

/-- Each entry of either index names a connection the other holds under its key, tokens are
distinct, and none is closed. -/
structure Consistent (s : UdpServer) : Prop where
  addr : ∀ e p, s.addr2conns.lookup e = some p →
    ∃ c, s.conns[p]? = some c ∧ c.endpoint = e ∧ s.token2conns.lookup c.token = some p
  token : ∀ t p, s.token2conns.lookup t = some p →
    ∃ c, s.conns[p]? = some c ∧ c.token = t ∧ s.addr2conns.lookup c.endpoint = some p
  unshared : ∀ p q c d, s.Indexed p → s.Indexed q → s.conns[p]? = some c → s.conns[q]? = some d →
    c.token = d.token → p = q
  opened : ∀ p c, s.Indexed p → s.conns[p]? = some c → c.rclosed = false

/-- The indexes agree, and the `p`-th connection made holds the token of the `p`-th
call of `next_token` from `start`. -/
structure Linked (r : TokenRange) (start : Nat) (s : UdpServer) : Prop where
  tokens : ∀ p c, s.conns[p]? = some c → c.token = r.token (r.indexAfter start p)
  addr : ∀ e p, s.addr2conns.lookup e = some p →
    ∃ c, s.conns[p]? = some c ∧ c.endpoint = e ∧ s.token2conns.lookup c.token = some p
  token : ∀ t p, s.token2conns.lookup t = some p →
    ∃ c, s.conns[p]? = some c ∧ c.token = t ∧ s.addr2conns.lookup c.endpoint = some p

/-- Every flow `addr2conns` holds is open. -/
def Opened (s : UdpServer) : Prop :=
  ∀ e p c, s.addr2conns.lookup e = some p → s.conns[p]? = some c → c.rclosed = false

variable {r : TokenRange} {start : Nat} {s : UdpServer}

theorem lookup_of_lookup_erase {α β : Type} [DecidableEq α] {l : AList fun _ : α => β} {a k : α}
    {b : β} (h : (l.erase k).lookup a = some b) : a ≠ k ∧ l.lookup a = some b := by
  by_cases hk : a = k
  · subst hk; simp at h
  · exact ⟨hk, by rwa [AList.lookup_erase_ne hk] at h⟩

namespace Linked

variable (hl : Linked r start s)
include hl

theorem indexed {p : Nat} (hp : s.Indexed p) :
    ∃ c, s.conns[p]? = some c ∧ s.addr2conns.lookup c.endpoint = some p ∧
      s.token2conns.lookup c.token = some p := by
  rcases hp with ⟨e, he⟩ | ⟨t, ht⟩
  · obtain ⟨c, hc, rfl, htok⟩ := hl.addr e _ he
    exact ⟨c, hc, he, htok⟩
  · obtain ⟨c, hc, rfl, haddr⟩ := hl.token t _ ht
    exact ⟨c, hc, haddr, ht⟩

theorem consistent (ho : Opened s) : Consistent s where
  addr := hl.addr
  token := hl.token
  unshared p q c d hp hq hc hd htok := by
    obtain ⟨c', hc', -, hpt⟩ := hl.indexed hp
    obtain ⟨d', hd', -, hqt⟩ := hl.indexed hq
    cases hc.symm.trans hc'
    cases hd.symm.trans hd'
    rw [htok] at hpt
    exact Option.some.inj (hpt.symm.trans hqt)
  opened p c hp hc := by
    obtain ⟨c', hc', ha, -⟩ := hl.indexed hp
    exact ho _ p c ha hc

theorem eq_of_token_eq (hn : s.conns.length ≤ r.maxIndex - r.minIndex) {p q : Nat}
    {c d : Connection} (hc : s.conns[p]? = some c) (hd : s.conns[q]? = some d)
    (h : c.token = d.token) : p = q := by
  obtain ⟨hp, -⟩ := List.getElem?_eq_some_iff.mp hc
  obtain ⟨hq, -⟩ := List.getElem?_eq_some_iff.mp hd
  rw [hl.tokens p c hc, hl.tokens q d hd] at h
  exact TokenRange.indexAfter_injective (by omega) (by omega) (r.token_injective h)

theorem remove (hn : s.conns.length ≤ r.maxIndex - r.minIndex) {p : Nat} {c : Connection}
    (hp : s.conns[p]? = some c) (ha : s.addr2conns.lookup c.endpoint = some p) :
    Linked r start (s.remove c) where
  tokens := hl.tokens
  addr e q he := by
    obtain ⟨hne, he⟩ := lookup_of_lookup_erase he
    obtain ⟨d, hd, rfl, ht⟩ := hl.addr _ q he
    refine ⟨d, hd, rfl, ?_⟩
    have htok : d.token ≠ c.token := fun h => by
      cases hl.eq_of_token_eq hn hd hp h
      cases hd.symm.trans hp
      exact hne rfl
    simpa [UdpServer.remove, AList.lookup_erase_ne htok] using ht
  token t q ht := by
    obtain ⟨hne, ht⟩ := lookup_of_lookup_erase ht
    obtain ⟨d, hd, rfl, ha'⟩ := hl.token _ q ht
    refine ⟨d, hd, rfl, ?_⟩
    have hend : d.endpoint ≠ c.endpoint := fun h => by
      rw [h, ha] at ha'
      cases ha'
      cases hd.symm.trans hp
      exact hne rfl
    simpa [UdpServer.remove, AList.lookup_erase_ne hend] using ha'

theorem set {p : Nat} {c c' : Connection} (hp : s.conns[p]? = some c) (hc : SameFlow c c') :
    Linked r start { s with conns := s.conns.set p c' } := by
  have hlt := (List.getElem?_eq_some_iff.mp hp).1
  -- the connection at each position keeps its keys
  have hget : ∀ (q : Nat) (d : Connection), s.conns[q]? = some d → ∃ d', (s.conns.set p c')[q]? = some d' ∧ SameFlow d d' := by
    intro q d hd
    by_cases hq : p = q
    · subst hq
      cases hp.symm.trans hd
      exact ⟨c', List.getElem?_set_self hlt, hc⟩
    · exact ⟨d, by rw [List.getElem?_set_ne hq, hd], .refl d⟩
  refine ⟨fun q d' hd' => ?_, fun e q he => ?_, fun t q ht => ?_⟩
  · by_cases hq : p = q
    · subst hq
      rw [List.getElem?_set_self hlt] at hd'
      cases hd'
      rw [hc.1, hl.tokens p c hp]
    · rw [List.getElem?_set_ne hq] at hd'
      exact hl.tokens q d' hd'
  · obtain ⟨d, hd, rfl, ht⟩ := hl.addr e q he
    obtain ⟨d', hd', htok, -, hend⟩ := hget q d hd
    exact ⟨d', hd', hend, by rw [htok]; exact ht⟩
  · obtain ⟨d, hd, rfl, ha⟩ := hl.token t q ht
    obtain ⟨d', hd', htok, -, hend⟩ := hget q d hd
    exact ⟨d', hd', htok, by rw [hend]; exact ha⟩

theorem storeFlow (hn : s.conns.length ≤ r.maxIndex - r.minIndex) {p : Nat} {c c' : Connection}
    (hp : s.conns[p]? = some c) (ha : s.addr2conns.lookup c.endpoint = some p) (hc : SameFlow c c') :
    Linked r start (s.storeFlow p c') := by
  unfold UdpServer.storeFlow
  split
  · exact (hl.set hp hc).remove (by simpa using hn)
      (List.getElem?_set_self (List.getElem?_eq_some_iff.mp hp).1) (by rw [hc.2.2]; exact ha)
  · exact hl.set hp hc

end Linked

theorem storeFlow_length (s : UdpServer) (p : Nat) (c : Connection) :
    (s.storeFlow p c).conns.length = s.conns.length := by
  unfold storeFlow; split <;> simp [UdpServer.remove]

theorem Opened.storeFlow (ho : Opened s) (hl : Linked r start s) {p : Nat} {c c' : Connection}
    (hp : s.conns[p]? = some c) (hc : SameFlow c c') : Opened (s.storeFlow p c') := by
  have hlt := (List.getElem?_eq_some_iff.mp hp).1
  unfold UdpServer.storeFlow
  split
  · rename_i hcl
    intro e q d he hd
    obtain ⟨hne, he⟩ := lookup_of_lookup_erase he
    obtain ⟨d₀, hd₀, rfl, -⟩ := hl.addr e q he
    have hq : p ≠ q := by
      rintro rfl
      cases hp.symm.trans hd₀
      exact hne hc.2.2.symm
    exact ho _ q d he (by simpa [UdpServer.remove, List.getElem?_set_ne hq] using hd)
  · rename_i hcl
    intro e q d he hd
    by_cases hq : p = q
    · subst hq
      rw [List.getElem?_set_self hlt] at hd
      cases hd
      simpa using hcl
    · exact ho e q d he (by simpa [List.getElem?_set_ne hq] using hd)

theorem getElem?_concat_cases {l : List Connection} {a d : Connection} {q : Nat}
    (h : (l ++ [a])[q]? = some d) : l[q]? = some d ∨ (q = l.length ∧ d = a) := by
  by_cases hq : q < l.length
  · exact .inl (by rwa [List.getElem?_append_left hq] at h)
  · rw [List.getElem?_append_right (by omega)] at h
    obtain ⟨hlt, hd⟩ := List.getElem?_eq_some_iff.mp h
    simp only [List.length_singleton] at hlt
    exact .inr ⟨by omega, by simpa using hd.symm⟩

theorem Linked.with_sockets (hl : Linked r start s) (sockets : AList fun _ : IpEndpoint => Nat) :
    Linked r start { s with sockets } := ⟨hl.tokens, hl.addr, hl.token⟩

theorem Linked.add (hl : Linked r start s) (hn : s.conns.length + 1 ≤ r.maxIndex - r.minIndex)
    {src : IpEndpoint} (hsrc : s.addr2conns.lookup src = none) {conn : Connection}
    (htok : conn.token = r.token (r.indexAfter start s.conns.length)) (hend : conn.endpoint = src) :
    Linked r start
      ({ s with conns := s.conns ++ [conn], addr2conns := s.addr2conns.insert src s.conns.length }.insertToken
        conn s.conns.length) := by
  -- no flow holds the token yet
  have hfresh : ∀ (q : Nat) (d : Connection), s.conns[q]? = some d → d.token ≠ conn.token := by
    intro q d hd h
    have hq := (List.getElem?_eq_some_iff.mp hd).1
    rw [hl.tokens q d hd, htok] at h
    have := TokenRange.indexAfter_injective (by omega) (by omega) (r.token_injective h)
    omega
  have hmem : conn.token ∉ s.token2conns := fun hm => by
    obtain ⟨q, hq⟩ := Option.isSome_iff_exists.mp (AList.lookup_isSome.mpr hm)
    obtain ⟨d, hd, hdt, -⟩ := hl.token _ q hq
    exact hfresh q d hd hdt
  have hnew : (s.conns ++ [conn])[s.conns.length]? = some conn := List.getElem?_concat_length _ _
  have hold : ∀ (q : Nat) (d : Connection), s.conns[q]? = some d → (s.conns ++ [conn])[q]? = some d :=
    fun q d hd => by
    rwa [List.getElem?_append_left (List.getElem?_eq_some_iff.mp hd).1]
  simp only [insertToken, if_neg hmem]
  refine ⟨fun q d hd => ?_, fun e q he => ?_, fun t q ht => ?_⟩
  · rcases getElem?_concat_cases hd with hd | ⟨rfl, rfl⟩
    · exact hl.tokens q d hd
    · exact htok
  · by_cases he' : e = src
    · subst he'
      rw [AList.lookup_insert] at he
      cases he
      exact ⟨conn, hnew, hend, AList.lookup_insert _⟩
    · rw [AList.lookup_insert_ne he'] at he
      obtain ⟨d, hd, rfl, ht⟩ := hl.addr _ q he
      exact ⟨d, hold q d hd, rfl, by rw [AList.lookup_insert_ne (hfresh q d hd)]; exact ht⟩
  · by_cases ht' : t = conn.token
    · subst ht'
      rw [AList.lookup_insert] at ht
      cases ht
      exact ⟨conn, hnew, rfl, by rw [hend]; exact AList.lookup_insert _⟩
    · rw [AList.lookup_insert_ne ht'] at ht
      obtain ⟨d, hd, rfl, ha⟩ := hl.token _ q ht
      have hsrc' : d.endpoint ≠ src := fun h => by rw [h, hsrc] at ha; cases ha
      exact ⟨d, hold q d hd, rfl, by rw [AList.lookup_insert_ne hsrc']; exact ha⟩

theorem Opened.add (ho : Opened s) (hl : Linked r start s) {src : IpEndpoint} {conn : Connection}
    (hopen : conn.rclosed = false) :
    Opened { s with conns := s.conns ++ [conn], addr2conns := s.addr2conns.insert src s.conns.length } := by
  intro e q d he hd
  by_cases he' : e = src
  · subst he'
    rw [AList.lookup_insert] at he
    cases he
    rw [List.getElem?_concat_length] at hd
    cases hd
    exact hopen
  · rw [AList.lookup_insert_ne he'] at he
    obtain ⟨d₀, hd₀, -⟩ := hl.addr _ q he
    rw [List.getElem?_append_left (List.getElem?_eq_some_iff.mp hd₀).1] at hd
    exact ho e q d he hd

theorem Opened.remove (ho : Opened s) (c : Connection) : Opened (s.remove c) :=
  fun e p d he hd => ho e p d (lookup_of_lookup_erase he).2 hd

section Calls

variable {h : Host} {handle : Nat} {src : IpEndpoint}

theorem connectionFor_linked (hl : Linked r start s) (ho : Opened s)
    (hnext : h.nextIndex = r.indexAfter start s.conns.length) {s₁ : UdpServer} {h₁ : Host} {p : Nat}
    (hcf : s.connectionFor r h handle src = some (s₁, h₁, p))
    (hn : s₁.conns.length ≤ r.maxIndex - r.minIndex) :
    ∃ c, s₁.conns[p]? = some c ∧ s₁.addr2conns.lookup c.endpoint = some p ∧
      Linked r start (s₁.insertToken c p) ∧ Opened s₁ ∧
      h₁.nextIndex = r.indexAfter start s₁.conns.length := by
  unfold connectionFor at hcf
  split at hcf
  · rename_i p₀ hp₀
    simp only [Option.some.injEq, Prod.mk.injEq] at hcf
    obtain ⟨rfl, rfl, rfl⟩ := hcf
    obtain ⟨c, hc, rfl, ht⟩ := hl.addr _ p₀ hp₀
    have hmem : c.token ∈ s.token2conns := AList.lookup_isSome.mp (by simp [ht])
    refine ⟨c, hc, hp₀, ?_, ho, hnext⟩
    simpa only [insertToken, if_pos hmem] using hl
  · rename_i hsrc
    split at hcf
    · simp only [Option.some.injEq, Prod.mk.injEq] at hcf
      obtain ⟨rfl, rfl, rfl⟩ := hcf
      simp only [List.length_append, List.length_singleton] at hn ⊢
      refine ⟨_, List.getElem?_concat_length _ _, AList.lookup_insert _,
        hl.add hn hsrc ?_ rfl, ho.add hl rfl, ?_⟩
      · rw [Connection.create, TokenRange.nextToken_fst, hnext]
      · rw [hnext, TokenRange.nextToken_snd]
    · cases hcf

theorem localDatagram_linked (hl : Linked r start s) (ho : Opened s)
    (hnext : h.nextIndex = r.indexAfter start s.conns.length) {dst : IpEndpoint} {data : List UInt8}
    {s' : UdpServer} {h' : Host} (hld : s.localDatagram r h handle dst data src = some (s', h'))
    (hn : s'.conns.length ≤ r.maxIndex - r.minIndex) :
    Linked r start s' ∧ Opened s' ∧ h'.nextIndex = r.indexAfter start s'.conns.length := by
  unfold localDatagram at hld
  rcases hcf : s.connectionFor r h handle src with _ | ⟨s₁, h₁, p⟩ <;> rw [hcf] at hld
  · cases hld
  dsimp only at hld
  split at hld
  · rename_i hnone
    simp only [Option.some.injEq, Prod.mk.injEq] at hld
    obtain ⟨rfl, rfl⟩ := hld
    obtain ⟨c, hc, -⟩ := connectionFor_linked hl ho hnext hcf hn
    rw [hc] at hnone
    cases hnone
  · rename_i conn hconn
    simp only [Option.some.injEq, Prod.mk.injEq] at hld
    obtain ⟨rfl, rfl⟩ := hld
    have hn₁ : s₁.conns.length ≤ r.maxIndex - r.minIndex := by
      simpa [storeFlow_length, insertToken] using hn
    obtain ⟨c, hc, ha, hl₁, ho₁, hnext₁⟩ := connectionFor_linked hl ho hnext hcf hn₁
    cases hconn.symm.trans hc
    have hsame := Connection.doLocal_sameFlow conn
      (generateEndpoint dst (UInt16.ofNat data.length)) data
    exact ⟨hl₁.storeFlow hn₁ hc ha hsame, Opened.storeFlow (s := s₁.insertToken conn p) ho₁ hl₁ hc hsame,
      by simpa [storeFlow_length, insertToken] using hnext₁⟩

theorem connectionFor_length {s₁ : UdpServer} {h₁ : Host} {p : Nat}
    (hcf : s.connectionFor r h handle src = some (s₁, h₁, p)) : s.conns.length ≤ s₁.conns.length := by
  unfold connectionFor at hcf
  split at hcf
  · simp only [Option.some.injEq, Prod.mk.injEq] at hcf
    rw [← hcf.1]
  · split at hcf
    · simp only [Option.some.injEq, Prod.mk.injEq] at hcf
      rw [← hcf.1]
      simp
    · cases hcf

theorem localDatagram_length {dst : IpEndpoint} {data : List UInt8} {s' : UdpServer} {h' : Host}
    (hld : s.localDatagram r h handle dst data src = some (s', h')) : s.conns.length ≤ s'.conns.length := by
  unfold localDatagram at hld
  rcases hcf : s.connectionFor r h handle src with _ | ⟨s₁, h₁, p⟩ <;> rw [hcf] at hld
  · cases hld
  have := connectionFor_length hcf
  dsimp only at hld
  split at hld <;> simp only [Option.some.injEq, Prod.mk.injEq] at hld <;> rw [← hld.1]
  · exact this
  · simpa [storeFlow_length, insertToken] using this

end Calls

section Loops

variable {h h' : Host} {handle : Nat} {dst : IpEndpoint} {s' : UdpServer}

theorem recvLoop_length {rx : List (List UInt8 × IpEndpoint)}
    (hrl : recvLoop r handle dst rx s h = some (s', h')) : s.conns.length ≤ s'.conns.length := by
  induction rx generalizing s h with
  | nil =>
    simp only [recvLoop, Option.some.injEq, Prod.mk.injEq] at hrl
    rw [← hrl.1]
  | cons d rx ih =>
    simp only [recvLoop] at hrl
    rcases hld : s.localDatagram r h handle dst d.1 d.2 with _ | ⟨s₁, h₁⟩ <;> rw [hld] at hrl
    · cases hrl
    · exact (localDatagram_length hld).trans (ih hrl)

theorem recvLoop_linked {rx : List (List UInt8 × IpEndpoint)} (hl : Linked r start s) (ho : Opened s)
    (hnext : h.nextIndex = r.indexAfter start s.conns.length)
    (hrl : recvLoop r handle dst rx s h = some (s', h')) (hn : s'.conns.length ≤ r.maxIndex - r.minIndex) :
    Linked r start s' ∧ Opened s' ∧ h'.nextIndex = r.indexAfter start s'.conns.length := by
  induction rx generalizing s h with
  | nil =>
    simp only [recvLoop, Option.some.injEq, Prod.mk.injEq] at hrl
    obtain ⟨rfl, rfl⟩ := hrl
    exact ⟨hl, ho, hnext⟩
  | cons d rx ih =>
    simp only [recvLoop] at hrl
    rcases hld : s.localDatagram r h handle dst d.1 d.2 with _ | ⟨s₁, h₁⟩ <;> rw [hld] at hrl
    · cases hrl
    · obtain ⟨hl₁, ho₁, hnext₁⟩ := localDatagram_linked hl ho hnext hld ((recvLoop_length hrl).trans hn)
      exact ih hl₁ ho₁ hnext₁ hrl

variable {sockets sockets' : SocketSet} {now : Nat}

theorem localEvent_length (hle : s.localEvent r h sockets handle now = some (s', h', sockets')) :
    s.conns.length ≤ s'.conns.length := by
  unfold localEvent at hle
  split at hle
  · cases hle
  · split_ifs at hle
    rcases hrl : recvLoop r handle _ _ _ h with _ | ⟨s₁, h₁⟩ <;> rw [hrl] at hle
    · cases hle
    · simp only [Option.some.injEq, Prod.mk.injEq] at hle
      rw [← hle.1]
      have := recvLoop_length hrl
      exact this

theorem localEvent_linked (hl : Linked r start s) (ho : Opened s)
    (hnext : h.nextIndex = r.indexAfter start s.conns.length)
    (hle : s.localEvent r h sockets handle now = some (s', h', sockets'))
    (hn : s'.conns.length ≤ r.maxIndex - r.minIndex) :
    Linked r start s' ∧ Opened s' ∧ h'.nextIndex = r.indexAfter start s'.conns.length := by
  unfold localEvent at hle
  split at hle
  · cases hle
  · rename_i socket _
    split_ifs at hle
    rcases hrl : recvLoop r handle _ _ _ h with _ | ⟨s₁, h₁⟩ <;> rw [hrl] at hle
    · cases hle
    · simp only [Option.some.injEq, Prod.mk.injEq] at hle
      obtain ⟨rfl, rfl, -⟩ := hle
      exact recvLoop_linked (hl.with_sockets (s.sockets.insert socket.endpoint now)) ho hnext hrl hn

theorem doLocal_length {events : List (Nat × Nat)}
    (hdl : s.doLocal r h sockets events = some (s', h', sockets')) : s.conns.length ≤ s'.conns.length := by
  induction events generalizing s h sockets with
  | nil =>
    simp only [doLocal, Option.some.injEq, Prod.mk.injEq] at hdl
    rw [← hdl.1]
  | cons ev events ih =>
    simp only [doLocal] at hdl
    rcases hle : s.localEvent r h sockets ev.1 ev.2 with _ | ⟨s₁, h₁, sockets₁⟩ <;> rw [hle] at hdl
    · cases hdl
    · exact (localEvent_length hle).trans (ih hdl)

theorem doLocal_linked {events : List (Nat × Nat)} (hl : Linked r start s) (ho : Opened s)
    (hnext : h.nextIndex = r.indexAfter start s.conns.length)
    (hdl : s.doLocal r h sockets events = some (s', h', sockets'))
    (hn : s'.conns.length ≤ r.maxIndex - r.minIndex) :
    Linked r start s' ∧ Opened s' ∧ h'.nextIndex = r.indexAfter start s'.conns.length := by
  induction events generalizing s h sockets with
  | nil =>
    simp only [doLocal, Option.some.injEq, Prod.mk.injEq] at hdl
    obtain ⟨rfl, rfl, -⟩ := hdl
    exact ⟨hl, ho, hnext⟩
  | cons ev events ih =>
    simp only [doLocal] at hdl
    rcases hle : s.localEvent r h sockets ev.1 ev.2 with _ | ⟨s₁, h₁, sockets₁⟩ <;> rw [hle] at hdl
    · cases hdl
    · obtain ⟨hl₁, ho₁, hnext₁⟩ := localEvent_linked hl ho hnext hle ((doLocal_length hdl).trans hn)
      exact ih hl₁ ho₁ hnext₁ hdl

end Loops

theorem doRemote_length {token : Nat} {event : Event} {sockets : SocketSet} {s' : UdpServer}
    {out : List Datagram} (hdr : s.doRemote token event sockets = some (s', out)) :
    s'.conns.length = s.conns.length := by
  unfold doRemote at hdr
  split at hdr
  · cases hdr; rfl
  · split at hdr
    · cases hdr; rfl
    · split_ifs at hdr
      cases hdr
      exact storeFlow_length ..

theorem doRemote_linked {token : Nat} {event : Event} {sockets : SocketSet} {s' : UdpServer}
    {out : List Datagram} (hl : Linked r start s) (ho : Opened s)
    (hdr : s.doRemote token event sockets = some (s', out)) (hn : s.conns.length ≤ r.maxIndex - r.minIndex) :
    Linked r start s' ∧ Opened s' := by
  unfold doRemote at hdr
  split at hdr
  · simp only [Option.some.injEq, Prod.mk.injEq] at hdr
    rw [← hdr.1]
    exact ⟨hl, ho⟩
  · rename_i p hp
    split at hdr
    · simp only [Option.some.injEq, Prod.mk.injEq] at hdr
      rw [← hdr.1]
      exact ⟨hl, ho⟩
    · rename_i conn hconn
      split_ifs at hdr
      simp only [Option.some.injEq, Prod.mk.injEq] at hdr
      rw [← hdr.1]
      obtain ⟨c, hc, rfl, ha⟩ := hl.token _ p hp
      obtain rfl : conn = c := Option.some.inj (hconn.symm.trans hc)
      have hsame := Connection.doRemote_sameFlow conn conn.local event
      exact ⟨hl.storeFlow hn hc ha hsame, ho.storeFlow hl hc hsame⟩

theorem idleConns_indexed (hl : Linked r start s) {now : Nat} :
    ∀ c ∈ s.idleConns now, ∃ p, s.conns[p]? = some c ∧ s.addr2conns.lookup c.endpoint = some p := by
  intro c hc
  obtain ⟨e, -, he⟩ := List.mem_filterMap.mp hc
  split at he
  · obtain ⟨p, hp, hc⟩ := Option.bind_eq_some.mp he
    obtain ⟨d, hd, hend, -⟩ := hl.addr _ p hp
    cases hc.symm.trans hd
    exact ⟨p, hd, by rw [hend]; exact hp⟩
  · cases he

theorem idleConns_pairwise (hl : Linked r start s) {now : Nat} :
    (s.idleConns now).Pairwise fun c d => c.endpoint ≠ d.endpoint := by
  refine List.Pairwise.filterMap _ (R := fun e e' => e.1 ≠ e'.1) ?_
    (List.pairwise_map.mp s.sockets.nodupKeys)
  -- each evicted flow's source is the key it was found under
  have hkey : ∀ (e : Sigma fun _ : IpEndpoint => Nat) c, c ∈ (if now - e.2 > idleTimeout then
      (s.addr2conns.lookup e.1).bind fun p => s.conns[p]? else none) → c.endpoint = e.1 := by
    intro e c hc
    split at hc
    · obtain ⟨p, hp, hc⟩ := Option.bind_eq_some.mp hc
      obtain ⟨d, hd, hend, -⟩ := hl.addr _ p hp
      cases hc.symm.trans hd
      exact hend
    · cases hc
  intro e e' hne c hc d hd
  rw [hkey e c hc, hkey e' d hd]
  exact hne

theorem foldl_evict_conns (l : List Connection) (s : UdpServer) (sockets : SocketSet) :
    (l.foldl (fun acc conn => evict acc.1 acc.2 conn) (s, sockets)).1.conns = s.conns := by
  induction l generalizing s sockets with
  | nil => rfl
  | cons c l ih => exact ih _ _

theorem checkTimeout_conns (s : UdpServer) (now : Nat) (sockets : SocketSet) :
    (s.checkTimeout now sockets).1.conns = s.conns :=
  foldl_evict_conns _ s sockets

theorem foldl_evict_linked (l : List Connection) (sockets : SocketSet) (hl : Linked r start s)
    (ho : Opened s) (hn : s.conns.length ≤ r.maxIndex - r.minIndex)
    (hidx : ∀ c ∈ l, ∃ p, s.conns[p]? = some c ∧ s.addr2conns.lookup c.endpoint = some p)
    (hpair : l.Pairwise fun c d => c.endpoint ≠ d.endpoint) :
    Linked r start (l.foldl (fun acc conn => evict acc.1 acc.2 conn) (s, sockets)).1 ∧
      Opened (l.foldl (fun acc conn => evict acc.1 acc.2 conn) (s, sockets)).1 := by
  induction l generalizing s sockets with
  | nil => exact ⟨hl, ho⟩
  | cons c l ih =>
    obtain ⟨p, hp, ha⟩ := hidx c (List.mem_cons_self _ _)
    obtain ⟨hc, hpair⟩ := List.pairwise_cons.mp hpair
    have hl₁ := (hl.with_sockets (s.sockets.erase c.endpoint)).remove hn hp ha
    refine ih _ hl₁ (ho.remove c) hn (fun d hd => ?_) hpair
    obtain ⟨q, hq, hqa⟩ := hidx d (List.mem_cons_of_mem _ hd)
    exact ⟨q, hq, by simpa [remove, AList.lookup_erase_ne (hc d hd).symm] using hqa⟩

theorem checkTimeout_linked (hl : Linked r start s) (ho : Opened s)
    (hn : s.conns.length ≤ r.maxIndex - r.minIndex) (now : Nat) (sockets : SocketSet) :
    Linked r start (s.checkTimeout now sockets).1 ∧ Opened (s.checkTimeout now sockets).1 :=
  foldl_evict_linked _ sockets hl ho hn (idleConns_indexed hl) (idleConns_pairwise hl)

theorem newSocket_linked (hl : Linked r start s) (endpoint : IpEndpoint) (now : Nat) :
    Linked r start (s.newSocket endpoint now).2 := by
  unfold newSocket; split
  · exact hl
  · exact hl.with_sockets _

end UdpServer

namespace World

open UdpServer

variable {r : TokenRange} {start : Nat} {w w' : World}

/-- What a run keeps from a static `NEXT_INDEX` of `start`: the server's indexes linked,
its flows open, and the static moved on once per connection made. -/
structure Inv (r : TokenRange) (start : Nat) (w : World) : Prop where
  linked : w.server.Linked r start
  opened : w.server.Opened
  next : w.host.nextIndex = r.indexAfter start w.server.conns.length

theorem step_spec {op : ServerOp} (hstep : w.step r op = some w') :
    w.server.conns.length ≤ w'.server.conns.length ∧
      ∀ start, Inv r start w → w'.server.conns.length ≤ r.maxIndex - r.minIndex → Inv r start w' := by
  cases op with
  | bind handle endpoint => cases hstep; exact ⟨le_rfl, fun _ hi _ => ⟨hi.linked, hi.opened, hi.next⟩⟩
  | arrive handle data src =>
    simp only [step] at hstep
    split at hstep <;> cases hstep <;> exact ⟨le_rfl, fun _ hi _ => ⟨hi.linked, hi.opened, hi.next⟩⟩
  | newSocket endpoint now =>
    cases hstep
    refine ⟨?_, fun _ hi _ => ⟨newSocket_linked hi.linked endpoint now, ?_, ?_⟩⟩ <;>
      unfold UdpServer.newSocket <;> split
    all_goals first | exact le_rfl | exact hi.opened | exact hi.next
  | doLocal events =>
    simp only [step] at hstep
    split at hstep
    · cases hstep
    · cases hstep
      refine ⟨doLocal_length ‹_›, fun _ hi hn => ?_⟩
      obtain ⟨hl, ho, hnext⟩ := doLocal_linked hi.linked hi.opened hi.next ‹_› hn
      exact ⟨hl, ho, hnext⟩
  | doRemote token event =>
    simp only [step] at hstep
    split at hstep
    · cases hstep
    · rename_i hdr
      cases hstep
      have hlen := doRemote_length hdr
      refine ⟨hlen.ge, fun _ hi hn => ?_⟩
      obtain ⟨hl, ho⟩ := doRemote_linked hi.linked hi.opened hdr (by rw [← hlen]; exact hn)
      exact ⟨hl, ho, by rw [hlen]; exact hi.next⟩
  | checkTimeout now =>
    cases hstep
    have hconns := checkTimeout_conns w.server now w.sockets
    refine ⟨(congrArg List.length hconns).ge, fun _ hi hn => ?_⟩
    obtain ⟨hl, ho⟩ := checkTimeout_linked hi.linked hi.opened (by simpa [hconns] using hn) now w.sockets
    exact ⟨hl, ho, by rw [hconns]; exact hi.next⟩

theorem run_length {ops : List ServerOp} (hrun : w.run r ops = some w') :
    w.server.conns.length ≤ w'.server.conns.length := by
  induction ops generalizing w with
  | nil => cases hrun; exact le_rfl
  | cons op ops ih =>
    simp only [run] at hrun
    split at hrun
    · cases hrun
    · exact (step_spec ‹_›).1.trans (ih hrun)

theorem run_inv {ops : List ServerOp} (hi : Inv r start w) (hrun : w.run r ops = some w')
    (hn : w'.server.conns.length ≤ r.maxIndex - r.minIndex) : Inv r start w' := by
  induction ops generalizing w with
  | nil => cases hrun; exact hi
  | cons op ops ih =>
    simp only [run] at hrun
    split at hrun
    · cases hrun
    · rename_i w₁ hstep
      exact ih ((step_spec hstep).2 start hi ((run_length hrun).trans hn)) hrun

end World

theorem World.inv_new (r : TokenRange) (host : Host) (sockets : SocketSet)
    (hstart : r.minIndex ≤ host.nextIndex ∧ host.nextIndex < r.maxIndex) :
    World.Inv r host.nextIndex ⟨UdpServer.new, host, sockets, []⟩ :=
  ⟨⟨fun _ _ h => by simp [UdpServer.new] at h, fun _ _ h => by simp [UdpServer.new] at h,
    fun _ _ h => by simp [UdpServer.new] at h⟩,
   fun _ _ _ h => by simp [UdpServer.new] at h, (TokenRange.indexAfter_zero hstart).symm⟩

/-- Every run from `UdpServer::new` that has made at most `MAX_INDEX - MIN_INDEX` connections
leaves the two indexes consistent. -/
theorem indexes_consistent (r : TokenRange) (host : Host) (sockets : SocketSet)
    (hstart : r.minIndex ≤ host.nextIndex ∧ host.nextIndex < r.maxIndex) (ops : List ServerOp)
    (w : World) (hrun : World.run r ⟨UdpServer.new, host, sockets, []⟩ ops = some w)
    (hn : w.server.conns.length ≤ r.maxIndex - r.minIndex) : w.server.Consistent := by
  have hi := World.run_inv (World.inv_new r host sockets hstart) hrun hn
  exact hi.linked.consistent hi.opened

/-- A range of eight token indices. -/
def smallRange : TokenRange := ⟨2, 10, 3, 2, by decide, by decide, by decide⟩

/-- A relay connection that accepts nothing and sends nothing. -/
def quietRelay : TlsConn := ⟨0, [], [], [], [], []⟩

/-- A fresh server whose pool has one connection to give. -/
def quietWorld : World := ⟨UdpServer.new, ⟨2, [some quietRelay]⟩, ∅, []⟩

theorem first_query_consistent :
    smallRange.minIndex ≤ quietWorld.host.nextIndex ∧ quietWorld.host.nextIndex < smallRange.maxIndex ∧
      ((World.run smallRange quietWorld firstQuery).getD quietWorld).server.conns.length ≤
        smallRange.maxIndex - smallRange.minIndex ∧
      ((World.run smallRange quietWorld firstQuery).getD quietWorld).server.Consistent :=
  ⟨by decide, by decide, by decide,
    indexes_consistent smallRange quietWorld.host ∅ ⟨by decide, by decide⟩ firstQuery _ rfl (by decide)⟩

end TrojanRs