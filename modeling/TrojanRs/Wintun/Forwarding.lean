import TrojanRs.Wintun.Outbound
import TrojanRs.Wintun.Lifecycle

/-! The outbound stream with a relay that never answers a write with `WouldBlock` and takes the
handshake in one write: over every run `UdpServer` drives, each datagram is forwarded whole
once and in order, or dropped whole. -/

namespace TrojanRs

set_option autoImplicit false

namespace TlsConn

theorem nextWrite_writes (c : TlsConn) : c.nextWrite.2.writes <:+ c.writes := by
  unfold nextWrite
  split <;> rename_i h
  · exact List.suffix_refl _
  · rw [h]
    exact List.suffix_cons _ _

@[simp] theorem answerWrite_writes (c : TlsConn) (data : List UInt8) (r : WriteReply) :
    (c.answerWrite data r).2.writes = c.writes := by
  cases r <;> rfl

theorem write_writes (c : TlsConn) (data : List UInt8) : (c.write data).2.writes <:+ c.writes := by
  simpa [write, record] using c.nextWrite_writes

theorem flush_writes (c : TlsConn) : c.flush.2.writes <:+ c.writes := by
  rw [flush_snd]
  exact c.nextWrite_writes

theorem sendAll_writes (c : TlsConn) (buffer : List UInt8) : (c.sendAll buffer).2.2.writes <:+ c.writes := by
  unfold sendAll
  split <;> exact c.nextWrite_writes

theorem sendAll_sent (c : TlsConn) (buffer : List UInt8) :
    (c.sendAll buffer).2.2.sent ++ (c.sendAll buffer).2.1 = c.sent ++ buffer := by
  unfold sendAll
  split <;> simp

theorem sendAll_true {c : TlsConn} {buffer : List UInt8} (h : (c.sendAll buffer).1 = .ok true) :
    (c.sendAll buffer).2.1 = [] := by
  unfold sendAll at h ⊢
  split at h <;> simp_all

end TlsConn

namespace Connection

/-! ### The relay's script only shrinks -/

@[simp] theorem closeRemote_writes (c : Connection) : c.closeRemote.remote.writes = c.remote.writes := by
  unfold closeRemote
  split <;> rfl

theorem flushRemote_writes (c : Connection) : c.flushRemote.remote.writes <:+ c.remote.writes := by
  have h : c.flushRemote.remote.writes = c.remote.flush.2.writes := by
    unfold flushRemote
    split <;> rename_i heq <;> simp [heq]
  exact h ▸ c.remote.flush_writes

theorem sendLoop_writes (header body : List UInt8) (tape : List WriteReply) (c : Connection)
    (data : List UInt8) (offset : Nat) (htape : tape = c.remote.writes) :
    (sendLoop header body tape c data offset).1.remote.writes <:+ tape := by
  induction tape generalizing c data offset with
  | nil => cases data <;> simp [sendLoop, htape]
  | cons r rs ih =>
    cases data with
    | nil => simp [sendLoop, htape]
    | cons b bs =>
      have hw : ∀ x, ({ c.remote with writes := rs }.record .write).answerWrite (b :: bs) r = x →
          x.2.writes = rs := fun x hx => by rw [← hx]; simp [TlsConn.record]
      simp only [sendLoop]
      split <;> rename_i heq <;> have h := hw _ heq <;> simp only at h
      · simp [h]
      · exact (ih _ _ _ h.symm).trans (List.suffix_cons _ _)
      · simp [h]
      · simp [h]

theorem sendDatagram_writes (c : Connection) (header body : List UInt8) :
    (c.sendDatagram header body).remote.writes <:+ c.remote.writes := by
  have hloop := sendLoop_writes header body c.remote.writes c header 0 rfl
  unfold sendDatagram
  split <;> rename_i heq <;> rw [heq] at hloop
  · exact hloop
  · dsimp only
    split <;> exact (flushRemote_writes _).trans hloop

theorem localToRemote_writes (c : Connection) (header body : List UInt8) :
    (c.localToRemote header body).remote.writes <:+ c.remote.writes := by
  unfold localToRemote
  split
  · exact sendDatagram_writes c header body
  · have hall := c.remote.sendAll_writes c.rbuffer
    split <;> rename_i heq <;> rw [heq] at hall
    · exact (sendDatagram_writes _ header body).trans hall
    · exact (flushRemote_writes _).trans hall
    · simpa using hall

theorem doLocal_writes (c : Connection) (header body : List UInt8) :
    (c.doLocal header body).remote.writes <:+ c.remote.writes := by
  unfold doLocal
  split_ifs
  · exact List.suffix_refl _
  · exact List.suffix_refl _
  · exact localToRemote_writes c header body

theorem readLoop_keeps (socket : Nat) (replies : List ReadReply) (c : Connection) :
    (readLoop socket replies c).1.remote.sent = c.remote.sent ∧ (readLoop socket replies c).1.rbuffer = c.rbuffer ∧
      (readLoop socket replies c).1.established = c.established ∧
      (readLoop socket replies c).1.remote.writes = c.remote.writes := by
  induction replies generalizing c with
  | nil => unfold readLoop; split <;> simp [TlsConn.record]
  | cons r rs ih =>
    unfold readLoop
    split
    · simp [TlsConn.record]
    dsimp only
    have hread : ∀ x, { c.remote.record .read with reads := rs }.answerRead (lbufferCapacity - c.lbuffer.length) r = x →
        x.2.sent = c.remote.sent ∧ x.2.writes = c.remote.writes := fun x hx => by
      rw [← hx]
      cases r <;> simp only [TlsConn.answerRead] <;> try split
      all_goals simp [TlsConn.record]
    split <;> rename_i heq <;> have h := hread _ heq <;> simp only at h
    · simp [h]
    · split
      · simp [h]
      · obtain ⟨h1, h2, h3, h4⟩ := ih { c with remote := _, lbuffer := _ }
        exact ⟨h1.trans h.1, h2, h3, h4.trans h.2⟩
    · simp [h]
    · simp [h]

theorem readLoop_rclosed (socket : Nat) (replies : List ReadReply) {c : Connection} (h : c.rclosed = true) :
    (readLoop socket replies c).1.rclosed = true := by
  induction replies generalizing c with
  | nil => unfold readLoop; split <;> simp [h]
  | cons r rs ih =>
    unfold readLoop
    split
    · simp
    dsimp only
    split
    · simp
    · split
      · simp
      · exact ih h
    · exact h
    · simp

@[simp] theorem readLoop_writes (socket : Nat) (replies : List ReadReply) (c : Connection) :
    (readLoop socket replies c).1.remote.writes = c.remote.writes :=
  (readLoop_keeps socket replies c).2.2.2

theorem doRemoteReady_writes (c : Connection) (socket : Nat) (event : Event) :
    (c.doRemoteReady socket event).1.remote.writes <:+ c.remote.writes := by
  unfold doRemoteReady remoteToLocal
  dsimp only
  split_ifs <;> (try rw [readLoop_writes]) <;>
    first | exact localToRemote_writes c [] [] | exact List.suffix_refl _

theorem doRemote_writes (c : Connection) (socket : Nat) (event : Event) :
    (c.doRemote socket event).1.remote.writes <:+ c.remote.writes := by
  have hw := c.remote.write_writes udpAssociatePreamble
  unfold doRemote
  split
  · split <;> rename_i heq <;> rw [heq] at hw
    · exact (doRemoteReady_writes _ socket event).trans hw
    · simpa using hw
  · exact doRemoteReady_writes c socket event

theorem step_writes (socket : Nat) (c : Connection) (op : ConnOp) :
    (c.step socket op).1.remote.writes <:+ c.remote.writes := by
  cases op with
  | datagram header body => exact doLocal_writes c header body
  | event e => exact doRemote_writes c socket e

end Connection

theorem serve_writes (socket : Nat) (c : Connection) (cops : List ConnOp) :
    (Lifecycle.serve socket c cops).remote.writes <:+ c.remote.writes := by
  induction cops generalizing c with
  | nil => exact List.suffix_refl _
  | cons op ops ih =>
    unfold Lifecycle.serve
    dsimp only
    split
    · exact Connection.step_writes socket c op
    · exact (ih _).trans (Connection.step_writes socket c op)

namespace Outbound

open Connection

variable {header body : List UInt8}

/-! ### One call with a relay that never blocks -/

theorem sendLoop_stops (tape : List WriteReply) (c : Connection) (data : List UInt8) (offset : Nat)
    (htape : tape = c.remote.writes) (hnb : .wouldBlock ∉ tape) {rest : List UInt8} {off : Nat}
    (h : (sendLoop header body tape c data offset).2 = some (rest, off)) :
    rest = [] ∨ (sendLoop header body tape c data offset).1.remote.writes = [] := by
  induction tape generalizing c data offset with
  | nil =>
    cases data with
    | nil => simp only [sendLoop, Option.some.injEq, Prod.mk.injEq] at h; exact .inl h.1.symm
    | cons b bs => exact .inr (by simp [sendLoop, ← htape, TlsConn.record])
  | cons r rs ih =>
    cases data with
    | nil => simp only [sendLoop, Option.some.injEq, Prod.mk.injEq] at h; exact .inl h.1.symm
    | cons b bs =>
      cases r with
      | accept n =>
        by_cases hn : n = 0
        · subst hn
          simp [sendLoop, TlsConn.answerWrite] at h
        · rw [sendLoop_accept rs c (by simp; omega)] at h ⊢
          exact ih _ _ _ rfl (fun hm => hnb (List.mem_cons_of_mem _ hm)) h
      | wouldBlock => exact absurd (List.mem_cons_self _ _) hnb
      | error => simp [sendLoop, TlsConn.answerWrite] at h

theorem sendDatagram_nil (c : Connection) : c.sendDatagram [] [] = c.flushRemote := by
  unfold sendDatagram
  cases c.remote.writes <;> rfl

theorem sendDatagram_whole (c : Connection) (hh : header ≠ [] ∨ header = [] ∧ body = [])
    (hnb : .wouldBlock ∉ c.remote.writes) :
    (c.sendDatagram header body).rclosed = true ∨ (c.sendDatagram header body).remote.writes = [] ∨
      ((c.sendDatagram header body).remote.sent = c.remote.sent ++ header ++ body ∧
        (c.sendDatagram header body).rbuffer = c.rbuffer ∧
        (c.sendDatagram header body).established = c.established) := by
  rcases hh with hh | ⟨rfl, rfl⟩
  swap
  · exact .inr (.inr ⟨by simp [sendDatagram_nil], by simp [sendDatagram_nil], by simp [sendDatagram_nil]⟩)
  have hloop : sendLoop header body c.remote.writes c header 0 =
      sendLoop header body c.remote.writes c (segment header body 0) 0 := by rw [segment_zero hh]
  have hcases := sendLoop_cases c.remote.writes c (show 0 ≤ header.length + body.length from Nat.zero_le _)
  have hstops := @sendLoop_stops header body c.remote.writes c (segment header body 0) 0 rfl hnb
  unfold sendDatagram
  rw [hloop]
  rcases hsl : sendLoop header body c.remote.writes c (segment header body 0) 0 with ⟨c₁, _ | ⟨data, off⟩⟩ <;>
    simp only [hsl] at hcases hstops ⊢
  · exact .inl (by simpa using hcases)
  obtain ⟨o, ho, -, hle, hsent, hrbuf, -, hest⟩ := hcases.resolve_left (by simp)
  simp only [Option.some.injEq, Prod.mk.injEq] at ho
  obtain ⟨rfl, rfl⟩ := ho
  rcases hstops rfl with hdata | hw
  · obtain rfl : off = header.length + body.length := le_antisymm hle (segment_eq_nil_iff.mp hdata)
    right; right
    simp [hsent, hrbuf, hest]
  · right; left
    exact List.eq_nil_of_suffix_nil (hw ▸ by split <;> exact flushRemote_writes _)

theorem localToRemote_whole (c : Connection) (hh : header ≠ [] ∨ header = [] ∧ body = [])
    (hnb : .wouldBlock ∉ c.remote.writes) :
    (c.localToRemote header body).rclosed = true ∨ (c.localToRemote header body).remote.writes = [] ∨
      (((c.localToRemote header body).remote.sent ++ (c.localToRemote header body).rbuffer =
          c.remote.sent ++ c.rbuffer ++ header ++ body ∨
        (c.localToRemote header body).remote.sent ++ (c.localToRemote header body).rbuffer =
          c.remote.sent ++ c.rbuffer) ∧
        (c.localToRemote header body).established = c.established) := by
  unfold localToRemote
  split
  · rename_i hr
    rcases sendDatagram_whole c hh hnb with h | h | ⟨h1, h2, h3⟩
    · exact .inl h
    · exact .inr (.inl h)
    · exact .inr (.inr ⟨.inl (by simp [h1, h2, hr]), h3⟩)
  have hsent := c.remote.sendAll_sent c.rbuffer
  have hall := c.remote.sendAll_writes c.rbuffer
  split <;> rename_i rbuf remote heq <;> simp only [heq] at hsent hall
  · have hr : rbuf = [] := by simpa [heq] using @TlsConn.sendAll_true c.remote c.rbuffer (by rw [heq])
    rcases sendDatagram_whole { c with rbuffer := rbuf, remote } hh (fun hm => hnb (hall.subset hm)) with
      h | h | ⟨h1, h2, h3⟩
    · exact .inl h
    · exact .inr (.inl h)
    · refine .inr (.inr ⟨.inl ?_, h3⟩)
      rw [h1, h2]
      simp only [hr, List.append_nil] at hsent ⊢
      rw [hsent]
  · exact .inr (.inr ⟨.inr (by simpa using hsent), by simp⟩)
  · exact .inl (by simp)

theorem write_ok_sent {t : TlsConn} {data : List UInt8} {a : Nat} {remote : TlsConn}
    (h : t.write data = (.ok a, remote)) : ∃ n, t.writes.head? = some (.accept n) ∧ remote.sent = t.sent ++ data.take n := by
  unfold TlsConn.write TlsConn.nextWrite at h
  split at h <;> rename_i hw
  · simp [TlsConn.answerWrite] at h
  · rename_i r rs
    cases r with
    | accept n =>
      simp only [TlsConn.answerWrite, Prod.mk.injEq] at h
      exact ⟨n, by simp [hw], by rw [← h.2]; simp [TlsConn.record]⟩
    | wouldBlock => simp [TlsConn.answerWrite] at h
    | error => simp [TlsConn.answerWrite] at h

/-! ### The stream over a run -/

/-- The datagrams `do_local` hands the flow, in order, with their record headers. -/
def datagramsOf : List ConnOp → List (List UInt8 × List UInt8)
  | [] => []
  | .datagram header body :: ops => (header, body) :: datagramsOf ops
  | .event _ :: ops => datagramsOf ops

theorem datagramsOf_cons (op : ConnOp) (ops : List ConnOp) :
    datagramsOf (op :: ops) = datagramsOf [op] ++ datagramsOf ops := by
  cases op <;> rfl

/-- The stream of a flow handed `ds`, with a relay that has not blocked: the preamble once sent,
then the records of some of the datagrams, in order. -/
structure Forwarding (c : Connection) (ds : List (List UInt8 × List UInt8)) : Prop where
  nonblocking : .wouldBlock ∉ c.remote.writes
  handshake : c.established = false → ∀ n, c.remote.writes.head? = some (.accept n) →
    udpAssociatePreamble.length ≤ n
  fresh : c.established = false → c.remote.sent = []
  kept : ∃ kept, List.Sublist kept ds ∧ c.remote.sent ++ c.rbuffer =
    (if c.established then udpAssociatePreamble else []) ++ (kept.map fun d => d.1 ++ d.2).flatten

namespace Forwarding

variable {c : Connection} {ds : List (List UInt8 × List UInt8)}

theorem readLoop (hf : Forwarding c ds) (socket : Nat) (replies : List ReadReply) :
    Forwarding (Connection.readLoop socket replies c).1 ds := by
  obtain ⟨h1, h2, h3, h4⟩ := readLoop_keeps socket replies c
  exact ⟨h4 ▸ hf.nonblocking, h3 ▸ h4 ▸ hf.handshake, h3 ▸ h1 ▸ hf.fresh, h3 ▸ h1 ▸ h2 ▸ hf.kept⟩

theorem localToRemote_nil (hf : Forwarding c ds) (hest : c.established = true)
    (ho : (c.localToRemote [] []).rclosed = false) (hw : (c.localToRemote [] []).remote.writes ≠ []) :
    Forwarding (c.localToRemote [] []) ds := by
  have hnb : .wouldBlock ∉ (c.localToRemote [] []).remote.writes :=
    fun hm => hf.nonblocking ((localToRemote_writes c [] []).subset hm)
  rcases localToRemote_whole c (.inr ⟨rfl, rfl⟩) hf.nonblocking with h | h | ⟨hs, he⟩
  · simp [h] at ho
  · exact absurd h hw
  obtain ⟨kept, hsub, hk⟩ := hf.kept
  refine ⟨hnb, fun h => absurd (he.trans hest) (by simp [h]), fun h => absurd (he.trans hest) (by simp [h]),
    kept, hsub, ?_⟩
  rw [he]
  rcases hs with hs | hs <;> simpa [hs] using hk

theorem doRemoteReady (hf : Forwarding c ds) (socket : Nat) (event : Event)
    (hwr : event.writable = true → c.established = true)
    (ho : (c.doRemoteReady socket event).1.rclosed = false) (hw : (c.doRemoteReady socket event).1.remote.writes ≠ []) :
    Forwarding (c.doRemoteReady socket event).1 ds := by
  unfold Connection.doRemoteReady remoteToLocal at ho hw ⊢
  dsimp only at ho hw ⊢
  split_ifs at ho hw ⊢
  · have ho₁ : (c.localToRemote [] []).rclosed = false := by
      by_contra hc
      rw [readLoop_rclosed socket _ (Bool.eq_true_of_not_eq_false hc)] at ho
      cases ho
    exact (hf.localToRemote_nil (hwr ‹_›) ho₁ (by simpa using hw)).readLoop socket _
  · exact hf.readLoop socket _
  · exact hf.localToRemote_nil (hwr ‹_›) ho hw
  · exact hf

theorem doRemote (hf : Forwarding c ds) (socket : Nat) (event : Event)
    (ho : (c.doRemote socket event).1.rclosed = false) (hw : (c.doRemote socket event).1.remote.writes ≠ []) :
    Forwarding (c.doRemote socket event).1 ds := by
  unfold Connection.doRemote at ho hw ⊢
  by_cases hcond : event.writable = true ∧ c.established = false
  · rw [if_pos hcond] at ho hw ⊢
    rcases hwrite : c.remote.write udpAssociatePreamble with ⟨_ | _ | _, remote⟩ <;>
      simp only [hwrite] at ho hw ⊢
    · rename_i a
      obtain ⟨n, hn, hsent⟩ := write_ok_sent hwrite
      have hlen := hf.handshake hcond.2 n hn
      obtain ⟨kept, hsub, hk⟩ := hf.kept
      have hwr := c.remote.write_writes udpAssociatePreamble
      rw [hwrite] at hwr
      have hk₂ : remote.sent ++ c.rbuffer = udpAssociatePreamble ++ (kept.map fun d => d.1 ++ d.2).flatten := by
        simp only [hcond.2, Bool.false_eq_true, if_false, hf.fresh hcond.2, List.nil_append] at hk
        simp [hsent, hf.fresh hcond.2, List.take_of_length_le hlen, hk]
      have hf₂ : Forwarding { c with remote, established := true } ds :=
        ⟨fun hm => hf.nonblocking (hwr.subset hm), (fun h => by cases h), (fun h => by cases h), kept, hsub, hk₂⟩
      exact hf₂.doRemoteReady socket event (fun _ => rfl) ho hw
    · simp at ho
    · simp at ho
  · rw [if_neg hcond] at ho hw ⊢
    exact hf.doRemoteReady socket event (fun h => by simpa [h] using hcond) ho hw

theorem doLocal (hf : Forwarding c ds) {header body : List UInt8} (hh : header ≠ [])
    (ho : (c.doLocal header body).rclosed = false) (hw : (c.doLocal header body).remote.writes ≠ []) :
    Forwarding (c.doLocal header body) (ds ++ [(header, body)]) := by
  obtain ⟨kept, hsub, hk⟩ := hf.kept
  have hsub₁ : List.Sublist kept (ds ++ [(header, body)]) := hsub.trans (List.sublist_append_left _ _)
  have hsub₂ : List.Sublist (kept ++ [(header, body)]) (ds ++ [(header, body)]) := hsub.append (List.Sublist.refl _)
  unfold Connection.doLocal at ho hw ⊢
  split_ifs at ho hw ⊢ with hr he
  · exact ⟨hf.nonblocking, hf.handshake, hf.fresh, kept, hsub₁, hk⟩
  · have hs := hf.fresh he
    have hr' : c.rbuffer = [] := not_not.mp hr
    have hnil : (kept.map fun d => d.1 ++ d.2).flatten = [] := by
      rw [hs, hr', he] at hk
      exact hk.symm
    refine ⟨hf.nonblocking, hf.handshake, hf.fresh, kept ++ [(header, body)], hsub₂, ?_⟩
    show c.remote.sent ++ (c.rbuffer ++ header ++ body) = (if c.established then udpAssociatePreamble else []) ++
      ((kept ++ [(header, body)]).map fun d => d.1 ++ d.2).flatten
    rw [List.map_append, List.flatten_append, hnil, hs, hr', he]
    simp
  · rcases localToRemote_whole c (.inl hh) hf.nonblocking with h | h | ⟨hs, hest⟩
    · exact absurd (h.symm.trans ho) (by simp)
    · exact absurd h hw
    have hest' : c.established = true := Bool.eq_true_of_not_eq_false he
    refine ⟨fun hm => hf.nonblocking ((localToRemote_writes c header body).subset hm),
      fun h => absurd (hest.trans hest') (by simp [h]), fun h => absurd (hest.trans hest') (by simp [h]), ?_⟩
    rcases hs with hs | hs
    · exact ⟨kept ++ [(header, body)], hsub₂, by simp [hs, hest, hk]⟩
    · exact ⟨kept, hsub₁, by simp [hs, hest, hk]⟩

theorem step (hf : Forwarding c ds) (socket : Nat) (op : ConnOp)
    (hh : ∀ header body, op = .datagram header body → header ≠ [])
    (ho : (c.step socket op).1.rclosed = false) (hw : (c.step socket op).1.remote.writes ≠ []) :
    Forwarding (c.step socket op).1 (ds ++ datagramsOf [op]) := by
  cases op with
  | datagram header body => exact hf.doLocal (hh header body rfl) ho hw
  | event e => simpa [datagramsOf] using hf.doRemote socket e ho hw

theorem serve (hf : Forwarding c ds) (socket : Nat) (cops : List ConnOp)
    (hh : ∀ header body, ConnOp.datagram header body ∈ cops → header ≠ [])
    (ho : (Lifecycle.serve socket c cops).rclosed = false) (hw : (Lifecycle.serve socket c cops).remote.writes ≠ []) :
    Forwarding (Lifecycle.serve socket c cops) (ds ++ datagramsOf cops) := by
  induction cops generalizing c ds with
  | nil => simpa [Lifecycle.serve, datagramsOf] using hf
  | cons op ops ih =>
    unfold Lifecycle.serve at ho hw ⊢
    dsimp only at ho hw ⊢
    have hh₁ : ∀ header body, op = .datagram header body → header ≠ [] :=
      fun header body h => hh header body (h ▸ List.mem_cons_self _ _)
    by_cases hc : (c.step socket op).1.rclosed = true
    · rw [if_pos hc] at ho
      exact absurd (hc.symm.trans ho) (by simp)
    rw [if_neg hc] at ho hw ⊢
    have hw₁ : (c.step socket op).1.remote.writes ≠ [] := fun h =>
      hw (List.eq_nil_of_suffix_nil (h ▸ serve_writes socket _ ops))
    have hf₁ := hf.step socket op hh₁ (Bool.eq_false_iff.mpr hc) hw₁
    rw [datagramsOf_cons, ← List.append_assoc]
    exact ih hf₁ (fun header body h => hh header body (List.mem_cons_of_mem _ h)) ho hw

end Forwarding

/-- With a relay that never blocks a write and takes the handshake whole, every run keeps the
flow's stream: the preamble, then some of the datagrams, each whole and in order. -/
theorem nonblocking_relay_forwards_whole (socket handle : Nat) (tls : TlsConn) (src : IpEndpoint)
    (cops : List ConnOp) (hsent : tls.sent = []) (hnb : .wouldBlock ∉ tls.writes)
    (hpre : ∀ n, tls.writes.head? = some (.accept n) → udpAssociatePreamble.length ≤ n)
    (hh : ∀ header body, ConnOp.datagram header body ∈ cops → header ≠ [])
    (hopen : (Lifecycle.serve socket (Connection.create tls handle src) cops).rclosed = false)
    (hlast : (Lifecycle.serve socket (Connection.create tls handle src) cops).remote.writes ≠ []) :
    ((Lifecycle.serve socket (Connection.create tls handle src) cops).established = false →
        (Lifecycle.serve socket (Connection.create tls handle src) cops).remote.sent = [] ∧
        ∃ kept ∈ (datagramsOf cops).sublists,
          (Lifecycle.serve socket (Connection.create tls handle src) cops).rbuffer = (kept.map fun d => d.1 ++ d.2).flatten) ∧
      ((Lifecycle.serve socket (Connection.create tls handle src) cops).established = true →
        Conserved (Lifecycle.serve socket (Connection.create tls handle src) cops) (datagramsOf cops)) := by
  have hf₀ : Forwarding (Connection.create tls handle src) [] :=
    ⟨hnb, fun _ => hpre, fun _ => hsent, [], List.Sublist.refl _, by simp [Connection.create, hsent]⟩
  have hf := hf₀.serve socket cops hh hopen hlast
  rw [List.nil_append] at hf
  obtain ⟨kept, hsub, hk⟩ := hf.kept
  refine ⟨fun he => ⟨hf.fresh he, kept, List.mem_sublists.mpr hsub, ?_⟩,
    fun he => ⟨kept, List.mem_sublists.mpr hsub, ?_⟩⟩
  · simpa [he, hf.fresh he] using hk
  · simpa [he] using hk

/-- A relay that takes the handshake whole and the second query's header in two writes. -/
def splittingRelay : TlsConn :=
  ⟨7, [.accept 10, .accept 100, .accept 100, .accept 3, .accept 100, .accept 100, .accept 100, .accept 100],
    [], [], [], []⟩

/-- The two queries of the failing run, with a relay that splits a write but never blocks:
both records reach it whole. -/
theorem splitting_relay_forwards_both :
    let flow := Connection.create splittingRelay 0 ⟨.v4 ⟨[10, 0, 0, 3], rfl⟩, 5353⟩
    (Lifecycle.serve 0 flow twoQueries).established = true ∧
      ((Lifecycle.serve 0 flow twoQueries).established = true →
        Conserved (Lifecycle.serve 0 flow twoQueries) (datagramsOf twoQueries)) := by
  have hh : ∀ header body, ConnOp.datagram header body ∈ twoQueries → header ≠ [] := by
    intro header body h
    simp only [twoQueries, List.mem_cons, ConnOp.datagram.injEq, List.mem_singleton, reduceCtorEq,
      false_or, or_false, List.not_mem_nil] at h
    rcases h with ⟨rfl, -⟩ | ⟨rfl, -⟩ <;> decide
  exact ⟨by decide, (nonblocking_relay_forwards_whole 0 0 splittingRelay _ twoQueries rfl (by decide)
    (fun n h => by cases h; decide) hh (by decide) (by decide)).2⟩

end Outbound

end TrojanRs
