import TrojanRs.Wintun.Connection

/-! The inbound stream of a UDP flow: `remote_to_local` delivers every whole record of the
relay's stream and keeps the residual, shorter than the record it starts; a record longer
than the 1500 bytes of `lbuffer` closes the flow. -/

namespace TrojanRs.Inbound

open Connection

set_option autoImplicit false

/-- Records sent back to back. -/
def encodeAll (rs : List UdpRecord) : List UInt8 := (rs.map UdpRecord.encode).flatten

@[simp] theorem encodeAll_nil : encodeAll [] = [] := rfl

@[simp] theorem encodeAll_cons (r : UdpRecord) (rs : List UdpRecord) :
    encodeAll (r :: rs) = r.encode ++ encodeAll rs := rfl

theorem encodeAll_take_drop (rs : List UdpRecord) (i : Nat) :
    encodeAll rs = encodeAll (rs.take i) ++ encodeAll (rs.drop i) := by
  rw [encodeAll, encodeAll, encodeAll, ← List.flatten_append, ← List.map_append, List.take_append_drop]

/-- The length of the record a stream is inside of: the next whole record, or the
last, incomplete one. -/
def pendingLength (rs : List UdpRecord) (last : UdpRecord) : Nat :=
  (rs.head?.getD last).encode.length

/-- What the flow hands to the stack for a record. -/
def deliver (socket : Nat) (endpoint : IpEndpoint) (r : UdpRecord) : Datagram :=
  ⟨socket, endpoint, r.payload⟩

section Stream
variable (socket : Nat) (endpoint : IpEndpoint) (last : UdpRecord) {k : Nat}
variable (hk : k < last.encode.length)
include hk

theorem parseLoop_stream (rs : List UdpRecord) (X : List UInt8)
    (hX : X <+: encodeAll rs ++ last.encode.take k) :
    ∃ i ≤ rs.length, ∃ residual, X = encodeAll (rs.take i) ++ residual ∧
      parseLoop socket endpoint X = ((rs.take i).map (deliver socket endpoint), some residual) ∧
      residual.length < pendingLength (rs.drop i) last := by
  induction rs generalizing X with
  | nil =>
    have hq : X <+: last.encode.take k := by simpa using hX
    have hlen : X.length ≤ k := by have := hq.length_le; simp at this; omega
    have hX' : X = last.encode.take X.length :=
      List.prefix_iff_eq_take.mp (hq.trans (List.take_prefix k last.encode))
    refine ⟨0, Nat.le_refl _, X, by simp, ?_, by simp [pendingLength]; omega⟩
    rw [parseLoop_continued (by rw [hX']; exact parseEndpoint_take last (by omega))]
    simp
  | cons r rs ih =>
    rw [encodeAll_cons, List.append_assoc] at hX
    by_cases hl : X.length < r.encode.length
    · refine ⟨0, Nat.zero_le _, X, by simp, ?_, by simpa [pendingLength] using hl⟩
      rw [parseLoop_continued (by rw [eq_take_of_prefix_lt hX hl]; exact parseEndpoint_take r hl)]
      simp
    · obtain ⟨X', rfl, hX'⟩ := eq_append_of_prefix_le hX (by omega)
      obtain ⟨i, hi, residual, hres, hloop, hpend⟩ := ih X' hX'
      refine ⟨i + 1, by simpa using hi, residual, by simp [hres], ?_, by simpa using hpend⟩
      rw [parseLoop_packet (parseEndpoint_encode_append r X'), List.take_left', List.drop_left',
        hloop]
      · simp [deliver]
      all_goals rfl

end Stream

/-- A read answer the claim allows: a chunk of the stream (at least one byte asked
for), or `WouldBlock`. -/
def ChunkReply : ReadReply → Prop
  | .ready n => 0 < n
  | .wouldBlock => True
  | _ => False

instance : DecidablePred ChunkReply
  | .ready n => inferInstanceAs (Decidable (0 < n))
  | .wouldBlock => isTrue trivial
  | .eof => isFalse id
  | .error => isFalse id

/-- Where a flow stands in the stream `encodeAll rs ++ last.encode.take k` once the
first `j` records have gone out. -/
structure At (rs : List UdpRecord) (last : UdpRecord) (k : Nat) (c : Connection) (j : Nat) :
    Prop where
  le_length : j ≤ rs.length
  rest : c.lbuffer ++ c.remote.inbound = encodeAll (rs.drop j) ++ last.encode.take k
  residual_lt : c.lbuffer.length < pendingLength (rs.drop j) last
  not_closed : c.rclosed = false
  chunks : ∀ r ∈ c.remote.reads, ChunkReply r

section Fit
variable {rs : List UdpRecord} {last : UdpRecord} {k : Nat}
variable (hfit : ∀ r ∈ last :: rs, r.encode.length ≤ lbufferCapacity)
include hfit

theorem pendingLength_le (j : Nat) : pendingLength (rs.drop j) last ≤ lbufferCapacity := by
  unfold pendingLength
  cases h : (rs.drop j).head? with
  | none => exact hfit last (List.mem_cons_self _ _)
  | some r =>
    exact hfit r (List.mem_cons_of_mem _ (List.mem_of_mem_drop (List.mem_of_mem_head? h)))

theorem room_ne_zero {c : Connection} {j : Nat} (hat : At rs last k c j) :
    lbufferCapacity - c.lbuffer.length ≠ 0 := by
  have := pendingLength_le hfit j; have := hat.residual_lt; omega

variable (hk : k < last.encode.length)
include hk

theorem readLoop_ready_at (socket : Nat) {c : Connection} {j : Nat} (hat : At rs last k c j)
    {n : Nat} (hn : 0 < n) (hin : c.remote.inbound ≠ []) (replies : List ReadReply)
    (hrep : ∀ r ∈ replies, ChunkReply r) :
    ∃ i c', At rs last k c' (j + i) ∧ c'.endpoint = c.endpoint ∧
      readLoop socket (.ready n :: replies) c =
        ((readLoop socket replies c').1,
          ((rs.drop j).take i).map (deliver socket c.endpoint) ++ (readLoop socket replies c').2) := by
  have hroom := room_ne_zero hfit hat
  obtain ⟨b, bs, hbs⟩ := List.exists_cons_of_ne_nil hin
  obtain ⟨m, hm⟩ : ∃ m, min n (lbufferCapacity - c.lbuffer.length) = m + 1 :=
    ⟨min n (lbufferCapacity - c.lbuffer.length) - 1, by omega⟩
  have hX : c.lbuffer ++ c.remote.inbound.take (m + 1) <+:
      encodeAll (rs.drop j) ++ last.encode.take k := by
    rw [← hat.rest]
    exact (List.prefix_append_right_inj _).mpr (List.take_prefix _ _)
  obtain ⟨i, hi, residual, hXeq, hloop, hpend⟩ :=
    parseLoop_stream socket c.endpoint last hk (rs.drop j) _ hX
  have hrest : residual ++ c.remote.inbound.drop (m + 1) =
      encodeAll (rs.drop (j + i)) ++ last.encode.take k := by
    have h := hat.rest
    rw [← List.take_append_drop (m + 1) c.remote.inbound, ← List.append_assoc, hXeq,
      encodeAll_take_drop (rs.drop j) i, List.drop_drop, List.append_assoc, List.append_assoc] at h
    exact List.append_cancel_left h
  refine ⟨i, { c with
      remote := { c.remote.record .read with reads := replies, inbound := c.remote.inbound.drop (m + 1) },
      lbuffer := residual },
    ⟨by have := hat.le_length; simp at hi; omega, hrest, by simpa [List.drop_drop] using hpend,
      hat.not_closed, by simpa using hrep⟩, rfl, ?_⟩
  have hdata : c.remote.inbound.take (m + 1) = b :: bs.take m := by rw [hbs]; rfl
  rw [hdata] at hloop
  conv_lhs => rw [readLoop]
  simp only [hroom, if_false, TlsConn.answerRead, TlsConn.record_inbound, hin, hm, hdata, hloop]

theorem readLoop_at (socket : Nat) (replies : List ReadReply) (c : Connection) (j : Nat)
    (hat : At rs last k c j) (hrep : ∀ r ∈ replies, ChunkReply r) :
    ∃ j', j ≤ j' ∧ At rs last k (readLoop socket replies c).1 j' ∧
      (readLoop socket replies c).2 = ((rs.drop j).take (j' - j)).map (deliver socket c.endpoint) ∧
      (readLoop socket replies c).1.endpoint = c.endpoint := by
  induction replies generalizing c j with
  | nil =>
    have hroom := room_ne_zero hfit hat
    refine ⟨j, Nat.le_refl _, ?_, by simp [readLoop, hroom], by simp [readLoop, hroom]⟩
    simpa [readLoop, hroom] using
      (⟨hat.le_length, hat.rest, hat.residual_lt, hat.not_closed, hat.chunks⟩ :
        At rs last k { c with remote := c.remote.record .read } j)
  | cons r rs' ih =>
    have hroom := room_ne_zero hfit hat
    have hr : ChunkReply r := hrep r (List.mem_cons_self _ _)
    have hrs' : ∀ r ∈ rs', ChunkReply r := fun r h => hrep r (List.mem_cons_of_mem _ h)
    have hblock : At rs last k { c with remote := { c.remote.record .read with reads := rs' } } j :=
      ⟨hat.le_length, hat.rest, hat.residual_lt, hat.not_closed, by simpa using hrs'⟩
    cases r with
    | eof => exact absurd hr id
    | error => exact absurd hr id
    | wouldBlock =>
      exact ⟨j, Nat.le_refl _, by simpa [readLoop, hroom, TlsConn.answerRead] using hblock,
        by simp [readLoop, hroom, TlsConn.answerRead], by simp [readLoop, hroom, TlsConn.answerRead]⟩
    | ready n =>
      by_cases hin : c.remote.inbound = []
      · exact ⟨j, Nat.le_refl _, by simpa [readLoop, hroom, TlsConn.answerRead, hin] using hblock,
          by simp [readLoop, hroom, TlsConn.answerRead, hin],
          by simp [readLoop, hroom, TlsConn.answerRead, hin]⟩
      obtain ⟨i, c', hat', hend', hstep⟩ := readLoop_ready_at hfit hk socket hat hr hin rs' hrs'
      obtain ⟨j', hj', hat'', hout, hend⟩ := ih c' (j + i) hat' hrs'
      rw [hstep]
      refine ⟨j', by omega, hat'', ?_, hend.trans hend'⟩
      rw [hout, hend', show j' - j = i + (j' - (j + i)) by omega, List.take_add, List.map_append,
        List.drop_drop]

theorem run_readable_at (socket : Nat) (calls : Nat) (c : Connection) (j : Nat)
    (hat : At rs last k c j) :
    let res := Connection.run socket c (List.replicate calls (.event ⟨true, false⟩))
    ∃ j', j ≤ j' ∧ At rs last k res.1 j' ∧
      res.2 = ((rs.drop j).take (j' - j)).map (deliver socket c.endpoint) := by
  induction calls generalizing c j with
  | zero => exact ⟨j, Nat.le_refl _, hat, by simp [Connection.run]⟩
  | succ calls ih =>
    obtain ⟨j₁, hj₁, hat₁, hout₁, hend₁⟩ :=
      readLoop_at hfit hk socket c.remote.reads c j hat hat.chunks
    obtain ⟨j₂, hj₂, hat₂, hout₂⟩ := ih _ j₁ hat₁
    refine ⟨j₂, by omega, ?_, ?_⟩
    · simpa [List.replicate_succ, Connection.run, step, doRemote, doRemoteReady, remoteToLocal]
        using hat₂
    · have hsplit : j₂ - j = (j₁ - j) + (j₂ - j₁) := by omega
      simp only [List.replicate_succ, Connection.run, step, doRemote, doRemoteReady, remoteToLocal,
        Bool.false_eq_true, false_and, if_false, if_true]
      rw [hout₁, hout₂, hend₁, hsplit, List.take_add, List.map_append, List.drop_drop,
        Nat.add_sub_cancel' hj₁]

end Fit

theorem encode_length_pos (r : UdpRecord) : 0 < r.encode.length := by
  rw [encode_eq, List.length_append, List.length_cons]
  omega

/-- A DNS reply of three bytes from 8.8.8.8:53. -/
def dnsReply : UdpRecord := ⟨⟨.v4 ⟨[8, 8, 8, 8], rfl⟩, 53⟩, [1, 2, 3], by decide⟩

/-- A flow whose relay has sent one reply and the first four bytes of the next. -/
def replyFlow : Connection :=
  Connection.create ⟨7, [], [.ready 5, .wouldBlock, .ready 100],
    encodeAll [dnsReply] ++ dnsReply.encode.take 4, [], []⟩ 0 ⟨.v4 ⟨[10, 0, 0, 3], rfl⟩, 5353⟩

theorem run_readable (socket : Nat) (c : Connection) :
    Connection.run socket c [.event ⟨true, false⟩] = readLoop socket c.remote.reads c := by
  simp [Connection.run, step, doRemote, doRemoteReady, remoteToLocal]

theorem readLoop_full (socket : Nat) (replies : List ReadReply) (c : Connection)
    (h : lbufferCapacity ≤ c.lbuffer.length) :
    (readLoop socket replies c).1.rclosed = true ∧ (readLoop socket replies c).2 = [] := by
  unfold readLoop; simp [show lbufferCapacity - c.lbuffer.length = 0 by omega]

theorem oversized_record_closes (socket : Nat) (r : UdpRecord)
    (hr : lbufferCapacity < r.encode.length) (tail : List UInt8) (n : Nat)
    (hn : lbufferCapacity ≤ n) (rest : List ReadReply) (c : Connection) (hbuf : c.lbuffer = [])
    (hin : c.remote.inbound = r.encode ++ tail) :
    (readLoop socket (.ready n :: rest) c).1.rclosed = true ∧
      (readLoop socket (.ready n :: rest) c).2 = [] := by
  obtain ⟨b, bs, hbs⟩ : ∃ b bs, r.encode ++ tail = b :: bs := by
    cases h : r.encode with
    | nil => simp [h] at hr
    | cons b bs => exact ⟨b, bs ++ tail, rfl⟩
  have hdata : (r.encode ++ tail).take lbufferCapacity = b :: bs.take (lbufferCapacity - 1) := by
    rw [hbs]; rfl
  have hfront : (r.encode ++ tail).take lbufferCapacity = r.encode.take lbufferCapacity :=
    List.take_append_of_le_length (by omega)
  have hloop : parseLoop socket c.endpoint (b :: bs.take (lbufferCapacity - 1)) =
      ([], some (b :: bs.take (lbufferCapacity - 1))) := by
    rw [← hdata, hfront]; exact parseLoop_continued (parseEndpoint_take r hr)
  have hfull : (b :: bs.take (lbufferCapacity - 1)).length = lbufferCapacity := by
    rw [← hdata, hfront, List.length_take]; omega
  have hdata' : (b :: bs).take lbufferCapacity = b :: bs.take (lbufferCapacity - 1) := rfl
  rw [readLoop]
  simp only [hbuf, List.length_nil, Nat.sub_zero, TlsConn.answerRead, TlsConn.record_inbound, hin,
    hbs, reduceCtorEq, if_false, show lbufferCapacity ≠ 0 by decide, Nat.min_eq_right hn,
    List.nil_append, hdata', hloop]
  simpa using readLoop_full socket rest _ (Nat.le_of_eq hfull.symm)

theorem UdpRecord.encode_length (r : UdpRecord) :
    r.encode.length = r.endpoint.encode.length + 4 + r.payload.length := by
  simp [UdpRecord.encode, generateEndpoint]; omega

end TrojanRs.Inbound
