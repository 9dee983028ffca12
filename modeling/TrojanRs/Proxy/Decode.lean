import TrojanRs.Proxy.NetProfiler

/-! The ping channel's records: `decode` applies every whole record of `recv_buffer` and keeps
a cut one, which `reset` leaves in place for the next connection's records. -/

namespace TrojanRs

set_option autoImplicit false

/-- A record the relay sends on the ping channel. -/
structure PingRecord where
  ip : IpAddr
  ping : UInt16
  lost : UInt8

namespace PingRecord

def encode (r : PingRecord) : List UInt8 :=
  r.ip.atyp :: r.ip.octets ++ be16 r.ping.toNat ++ [r.lost]

theorem encode_length_pos (r : PingRecord) : 0 < r.encode.length := by
  simp [encode]

end PingRecord

/-- Records sent back to back. -/
def encodeRecords (rs : List PingRecord) : List UInt8 := (rs.map PingRecord.encode).flatten

@[simp] theorem encodeRecords_nil : encodeRecords [] = [] := rfl

@[simp] theorem encodeRecords_cons (r : PingRecord) (rs : List PingRecord) :
    encodeRecords (r :: rs) = r.encode ++ encodeRecords rs := rfl

theorem encodeRecords_take_drop (rs : List PingRecord) (i : Nat) :
    encodeRecords rs = encodeRecords (rs.take i) ++ encodeRecords (rs.drop i) := by
  rw [encodeRecords, encodeRecords, encodeRecords, ← List.flatten_append, ← List.map_append,
    List.take_append_drop]

/-- The length of the record a stream is inside of: the next whole one, or the cut last one. -/
def pendingRecordLength (rs : List PingRecord) (last : PingRecord) : Nat :=
  (rs.head?.getD last).encode.length

theorem decodeAfter_append (n : Nat) (mk : Mathlib.Vector UInt8 n → IpAddr) (atyp : UInt8)
    (o : Mathlib.Vector UInt8 n) (ping : UInt16) (lost : UInt8) (rest : List UInt8) :
    decodeAfter n mk atyp (o.toList ++ be16 ping.toNat ++ [lost] ++ rest) =
      .record (mk o) ping lost rest := by
  unfold decodeAfter
  rw [dif_neg (by simp; omega)]
  simp only [List.append_assoc, List.drop_left' o.toList_length, be16, List.cons_append,
    List.singleton_append, List.nil_append, port_ofBe16, List.take_left' o.toList_length]
  rfl

theorem decodeAfter_take (n : Nat) (mk : Mathlib.Vector UInt8 n → IpAddr) (atyp : UInt8)
    (o : Mathlib.Vector UInt8 n) (ping : UInt16) (lost : UInt8) {m : Nat} (hm : m < n + 3) :
    decodeAfter n mk atyp ((o.toList ++ be16 ping.toNat ++ [lost]).take m) = .wait := by
  unfold decodeAfter
  rw [dif_pos (by simp; omega)]

theorem decodeFront_encode_append (r : PingRecord) (rest : List UInt8) :
    decodeFront (r.encode ++ rest) = .record r.ip r.ping r.lost rest := by
  obtain ⟨a, ping, lost⟩ := r
  cases a with
  | v4 o => simpa [decodeFront, PingRecord.encode, IpAddr.atyp] using decodeAfter_append 4 .v4 IPV4 o ping lost rest
  | v6 o =>
    simpa [decodeFront, PingRecord.encode, IpAddr.atyp, IPV4, IPV6] using
      decodeAfter_append 16 .v6 IPV6 o ping lost rest

theorem decodeFront_take (r : PingRecord) {k : Nat} (hk : k < r.encode.length) :
    decodeFront (r.encode.take k) = .wait := by
  obtain ⟨a, ping, lost⟩ := r
  rcases k with _ | k
  · rfl
  simp only [PingRecord.encode, List.cons_append, List.take_succ_cons] at hk ⊢
  cases a with
  | v4 o =>
    simpa [decodeFront, IpAddr.atyp] using
      decodeAfter_take 4 .v4 IPV4 o ping lost (m := k) (by simp at hk; omega)
  | v6 o =>
    simpa [decodeFront, IpAddr.atyp, IPV4, IPV6] using
      decodeAfter_take 16 .v6 IPV6 o ping lost (m := k) (by simp at hk; omega)

namespace NetProfiler

/-- What `decode` does with a whole record. -/
def applyRecord (p : NetProfiler) (r : PingRecord) : NetProfiler := p.record .relay r.ip r.ping r.lost

theorem foldl_applyRecord_with_recvBuffer (rs : List PingRecord) (p : NetProfiler) (b : List UInt8) :
    rs.foldl applyRecord { p with recvBuffer := b } = { rs.foldl applyRecord p with recvBuffer := b } := by
  induction rs generalizing p with
  | nil => rfl
  | cons r rs ih =>
    rw [List.foldl_cons, List.foldl_cons, applyRecord, record_with_recvBuffer]
    exact ih _

@[simp] theorem foldl_applyRecord_conn (rs : List PingRecord) (p : NetProfiler) :
    (rs.foldl applyRecord p).conn = p.conn := by
  induction rs generalizing p with
  | nil => rfl
  | cons r rs ih => simp [ih, applyRecord]

section Loop
variable (p : NetProfiler)

theorem decodeLoop_encode_append (r : PingRecord) (rest : List UInt8) :
    p.decodeLoop (r.encode ++ rest) = (p.applyRecord r).decodeLoop rest := by
  obtain ⟨b, bs, hbs⟩ := List.exists_cons_of_length_pos
    (by simpa using Nat.lt_of_lt_of_le r.encode_length_pos (Nat.le_add_right _ rest.length) :
      0 < (r.encode ++ rest).length)
  rw [hbs, decodeLoop_of_record p (hbs ▸ decodeFront_encode_append r rest)]
  rfl

theorem decodeLoop_take (r : PingRecord) {k : Nat} (hk : k < r.encode.length) :
    p.decodeLoop (r.encode.take k) = some { p with recvBuffer := r.encode.take k } := by
  cases h : r.encode.take k with
  | nil => rw [decodeLoop]
  | cons b bs => exact decodeLoop_of_wait p (h ▸ decodeFront_take r hk)

end Loop

/-- A readable event that hands `ready` one chunk of the relay's stream. -/
def readChunk (data : List UInt8) : ProfilerOp := .ready ⟨true, false, some data, false, .empty⟩

theorem step_readChunk (p : NetProfiler) (hc : p.conn ≠ none) (c : List UInt8) :
    p.step (readChunk c) = { p with recvBuffer := p.recvBuffer ++ c }.decode := by
  simp only [step, readChunk, ready]
  split
  · exact absurd ‹_› hc
  · simp [onReadable, onWritable]

section Stream
variable (last : PingRecord) {k : Nat} (hk : k < last.encode.length)
include hk

theorem decodeLoop_stream (p : NetProfiler) (rs : List PingRecord) (X : List UInt8)
    (hX : X <+: encodeRecords rs ++ last.encode.take k) :
    ∃ i ≤ rs.length, ∃ residual, X = encodeRecords (rs.take i) ++ residual ∧
      p.decodeLoop X = some { (rs.take i).foldl applyRecord p with recvBuffer := residual } ∧
      residual.length < pendingRecordLength (rs.drop i) last := by
  induction rs generalizing p X with
  | nil =>
    have hq : X <+: last.encode.take k := by simpa using hX
    have hlen : X.length ≤ k := by have := hq.length_le; simp at this; omega
    have hX' : X = last.encode.take X.length :=
      List.prefix_iff_eq_take.mp (hq.trans (List.take_prefix k last.encode))
    refine ⟨0, Nat.le_refl _, X, by simp, ?_, by simp [pendingRecordLength]; omega⟩
    rw [hX', decodeLoop_take p last (by omega)]
    simp
  | cons r rs ih =>
    rw [encodeRecords_cons, List.append_assoc] at hX
    by_cases hl : X.length < r.encode.length
    · refine ⟨0, Nat.zero_le _, X, by simp, ?_, by simpa [pendingRecordLength] using hl⟩
      rw [eq_take_of_prefix_lt hX hl, decodeLoop_take p r hl]
      simp
    · obtain ⟨X', rfl, hX'⟩ := eq_append_of_prefix_le hX (by omega)
      obtain ⟨i, hi, residual, hres, hloop, hpend⟩ := ih (p.applyRecord r) X' hX'
      refine ⟨i + 1, by simpa using hi, residual, by simp [hres], ?_, by simpa using hpend⟩
      rw [decodeLoop_encode_append, hloop]
      rfl

theorem run_readChunks (chunks : List (List UInt8)) (p : NetProfiler) (rs : List PingRecord)
    (hc : p.conn ≠ none) (hrest : p.recvBuffer ++ chunks.flatten = encodeRecords rs ++ last.encode.take k)
    (hlt : p.recvBuffer.length < pendingRecordLength rs last) :
    p.run (chunks.map readChunk) =
      some { rs.foldl applyRecord p with recvBuffer := last.encode.take k } := by
  induction chunks generalizing p rs with
  | nil =>
    cases rs with
    | nil =>
      simp only [List.flatten_nil, List.append_nil, encodeRecords_nil, List.nil_append] at hrest
      rw [← hrest]
      rfl
    | cons r rs =>
      have := congrArg List.length hrest
      simp [pendingRecordLength] at this hlt
      omega
  | cons c cs ih =>
    have hX : p.recvBuffer ++ c <+: encodeRecords rs ++ last.encode.take k := by
      rw [← hrest, List.flatten_cons, ← List.append_assoc]
      exact List.prefix_append _ _
    obtain ⟨i, -, residual, hXeq, hloop, hpend⟩ :=
      decodeLoop_stream last hk { p with recvBuffer := p.recvBuffer ++ c } rs _ hX
    have hrest' : residual ++ cs.flatten = encodeRecords (rs.drop i) ++ last.encode.take k := by
      rw [List.flatten_cons, ← List.append_assoc, hXeq, encodeRecords_take_drop rs i,
        List.append_assoc, List.append_assoc] at hrest
      exact List.append_cancel_left hrest
    simp only [List.map_cons, run, step_readChunk p hc, decode, hloop, foldl_applyRecord_with_recvBuffer]
    rw [ih _ (rs.drop i) (by simpa using hc) hrest' (by simpa using hpend),
      foldl_applyRecord_with_recvBuffer, ← List.foldl_append, List.take_append_drop]

/-- On one connection, for every chunking of the relay's stream, `ready` applies exactly the whole
records, once each and in order, and keeps the cut one in `recv_buffer`. -/
theorem ready_applies_records (p : NetProfiler) (hconn : p.conn ≠ none) (hbuf : p.recvBuffer = [])
    (rs : List PingRecord) (chunks : List (List UInt8))
    (hchunks : chunks.flatten = encodeRecords rs ++ last.encode.take k) :
    p.run (chunks.map readChunk) =
      some { rs.foldl applyRecord p with recvBuffer := last.encode.take k } :=
  run_readChunks last hk chunks p rs hconn (by rw [hbuf, hchunks, List.nil_append])
    (by rw [hbuf]; exact PingRecord.encode_length_pos _)

end Stream

theorem run_readChunk_encode (p : NetProfiler) (hc : p.conn ≠ none) (hb : p.recvBuffer = [])
    (r : PingRecord) : p.run [readChunk r.encode] = some { p.applyRecord r with recvBuffer := [] } :=
  run_readChunks r r.encode_length_pos [r.encode] p [r] hc (by simp [hb])
    (by simp [hb, pendingRecordLength, r.encode_length_pos])

/-- The relay's answer about 1.2.3.4. -/
def firstAnswer : PingRecord := ⟨.v4 ⟨[1, 2, 3, 4], rfl⟩, 10, 3⟩

/-- The relay's answer about 5.6.7.8. -/
def secondAnswer : PingRecord := ⟨.v4 ⟨[5, 6, 7, 8], rfl⟩, 10, 3⟩

/-- Two reads: one cuts the first answer, the other ends it and stops three bytes into
the second. -/
def splitAnswers : List (List UInt8) :=
  [firstAnswer.encode.take 5, firstAnswer.encode.drop 5 ++ secondAnswer.encode.take 3]

theorem split_answers_applied :
    ((new true).init .ready).run (splitAnswers.map readChunk) =
      some { [firstAnswer].foldl applyRecord ((new true).init .ready) with
        recvBuffer := secondAnswer.encode.take 3 } :=
  ready_applies_records secondAnswer (by decide) _ (by decide) rfl [firstAnswer] splitAnswers rfl

/-- The ping channel opens; its connection delivers the first four bytes of an answer
and shuts down; `reset` gets a new connection, which delivers a whole answer. -/
def reconnectRun : List ProfilerOp :=
  [.init .ready, .ready ⟨true, false, some (firstAnswer.encode.take 4), true, .ready⟩,
    .ready ⟨true, false, some secondAnswer.encode, false, .empty⟩]

theorem cut_record_reaches_unreachable : (new true).run reconnectRun = none := by
  have hcut : firstAnswer.encode.take 4 = [1, 1, 2, 3] := rfl
  have hnext : secondAnswer.encode = [1, 5, 6, 7, 8, 0, 10, 3] := rfl
  have hjoin : decodeFront [1, 1, 2, 3, 1, 5, 6, 7, 8, 0, 10, 3] =
      .record (.v4 ⟨[1, 2, 3, 1], rfl⟩) (UInt16.ofNat (ofBe16 5 6)) 7 [8, 0, 10, 3] := by decide
  simp only [reconnectRun, run, step, ready, onReadable, decode, init, new, hcut, hnext,
    List.nil_append, List.cons_append,
    decodeLoop_of_wait _ (show decodeFront [1, 1, 2, 3] = .wait by decide),
    Option.map_some', if_true, onWritable, reset, decodeLoop_of_record _ hjoin,
    decodeLoop_of_invalid _ (show decodeFront [8, 0, 10, 3] = .invalid by decide), Option.map_none']

end NetProfiler

end TrojanRs
