import TrojanRs.Wintun.Connection
import Mathlib.Data.List.Sublists

/-! The outbound stream of a UDP flow: `local_to_remote` writes a datagram's record
header, then its body, and stages what the relay did not take; leaving its loop on a
`WouldBlock` can lose a body (`second_body_dropped`). -/

namespace TrojanRs.Outbound

open Connection

set_option autoImplicit false

/-- The rest of the part `local_to_remote` is writing once `offset` bytes of the
record `header ++ body` are taken. -/
def segment (header body : List UInt8) (offset : Nat) : List UInt8 :=
  if offset < header.length then header.drop offset else body.drop (offset - header.length)

variable {header body : List UInt8}

theorem segment_zero (hh : header ≠ []) : segment header body 0 = header := by
  simp [segment, List.length_pos.mpr hh]

theorem segment_eq_nil_iff {offset : Nat} :
    segment header body offset = [] ↔ header.length + body.length ≤ offset := by
  unfold segment
  split <;> simp <;> omega

theorem take_segment {offset k : Nat} (hk : k ≤ (segment header body offset).length) :
    (segment header body offset).take k = ((header ++ body).drop offset).take k := by
  unfold segment at hk ⊢
  split
  · rename_i ho
    rw [List.drop_append_of_le_length (by omega), List.take_append_of_le_length (by simpa [ho] using hk)]
  · rename_i ho
    have hd : header.drop offset = [] := List.drop_eq_nil_of_le (by omega)
    rw [List.drop_append_eq_append_drop, hd, List.nil_append]

theorem segment_length_le {offset : Nat} (hoff : offset ≤ header.length + body.length) :
    offset + (segment header body offset).length ≤ header.length + body.length := by
  unfold segment
  split <;> simp <;> omega

theorem segment_advance {offset k : Nat} (hk : 0 < k) (hk' : k ≤ (segment header body offset).length) :
    (if (segment header body offset).drop k = [] ∧ offset + k = header.length then body
      else (segment header body offset).drop k) = segment header body (offset + k) := by
  unfold segment at hk' ⊢
  by_cases ho : offset < header.length
  · by_cases hend : offset + k = header.length
    · simp [ho, hend]
    · simp only [ho, if_true, List.length_drop] at hk'
      have : offset + k < header.length := by omega
      simp [ho, hend, this, List.drop_drop, Nat.add_comm]
  · simp only [ho, if_false, List.drop_drop]
    rw [if_neg (by omega), if_neg (by omega)]
    congr 1
    omega

theorem sendLoop_accept (rs : List WriteReply) (c : Connection) {data : List UInt8}
    {offset n : Nat} (hk : 0 < min n data.length) :
    sendLoop header body (.accept n :: rs) c data offset =
      sendLoop header body rs
        { c with remote := { c.remote with writes := rs, calls := c.remote.calls ++ [.write],
                                            sent := c.remote.sent ++ data.take n } }
        (if data.drop (min n data.length) = [] ∧ offset + min n data.length = header.length then body
          else data.drop (min n data.length)) (offset + min n data.length) := by
  obtain ⟨b, bs, rfl⟩ : ∃ b bs, data = b :: bs := by
    cases data with
    | nil => simp at hk
    | cons b bs => exact ⟨b, bs, rfl⟩
  obtain ⟨k, hk'⟩ : ∃ k, min n (b :: bs).length = k + 1 := ⟨min n (b :: bs).length - 1, by omega⟩
  simp only [sendLoop, TlsConn.answerWrite, TlsConn.record, hk']

theorem sendLoop_cases (tape : List WriteReply) (c : Connection) {offset : Nat}
    (hoff : offset ≤ header.length + body.length) :
    let r := sendLoop header body tape c (segment header body offset) offset
    (r.2 = none ∧ r.1.rclosed = true) ∨
    ∃ off, r.2 = some (segment header body off, off) ∧ offset ≤ off ∧
      off ≤ header.length + body.length ∧
      r.1.remote.sent = c.remote.sent ++ ((header ++ body).drop offset).take (off - offset) ∧
      r.1.rbuffer = c.rbuffer ∧ r.1.rclosed = c.rclosed ∧ r.1.established = c.established := by
  induction tape generalizing c offset with
  | nil =>
    right
    refine ⟨offset, ?_⟩
    rcases hs : segment header body offset with _ | ⟨b, bs⟩ <;> simp [sendLoop, hoff, hs]
  | cons r rs ih =>
    rcases hs : segment header body offset with _ | ⟨b, bs⟩
    · exact .inr ⟨offset, by simp [sendLoop, hoff, hs]⟩
    rw [← hs]
    cases r with
    | accept n =>
      by_cases hn : n = 0
      · subst hn
        left
        simp [sendLoop, TlsConn.answerWrite, hs]
      · have hk : 0 < min n (segment header body offset).length := by rw [hs]; simp; omega
        have hle : min n (segment header body offset).length ≤ (segment header body offset).length :=
          Nat.min_le_right _ _
        rw [sendLoop_accept rs c hk, segment_advance hk hle]
        have hbound : offset + (segment header body offset).length ≤ header.length + body.length :=
          segment_length_le hoff
        rcases ih _ (show offset + min n (segment header body offset).length ≤ _ by omega) with
          h | ⟨off, h1, h2, h3, h4, h5, h6, h7⟩
        · exact .inl h
        refine .inr ⟨off, h1, by omega, h3, ?_, h5, h6, h7⟩
        have htake : (segment header body offset).take n =
            (segment header body offset).take (min n (segment header body offset).length) :=
          List.take_eq_take.mpr (by omega)
        have hsplit : off - offset = min n (segment header body offset).length +
            (off - (offset + min n (segment header body offset).length)) := by omega
        rw [h4, htake, take_segment hle, hsplit, List.take_add, List.drop_drop, List.append_assoc]
    | wouldBlock => exact .inr ⟨offset, by simp [sendLoop, TlsConn.answerWrite, hoff, hs]⟩
    | error =>
      left
      simp [sendLoop, TlsConn.answerWrite, hs]

/-- A flow handed `datagrams` in arrival order keeps them: the bytes the relay took, then
the staged ones, are the preamble and some of the records, each whole, in order. -/
def Conserved (c : Connection) (datagrams : List (List UInt8 × List UInt8)) : Prop :=
  ∃ kept ∈ datagrams.sublists,
    c.remote.sent ++ c.rbuffer = udpAssociatePreamble ++ (kept.map fun d => d.1 ++ d.2).flatten

instance (c : Connection) (datagrams : List (List UInt8 × List UInt8)) :
    Decidable (Conserved c datagrams) :=
  inferInstanceAs (Decidable (∃ kept ∈ datagrams.sublists, _ = _))

/-- The flow of the failing run: from 10.0.0.3:5353, relayed by a relay that takes the
preamble and the staged record, then blocks. -/
def blockingFlow : Connection :=
  Connection.create ⟨7, [.accept 100, .accept 100], [], [], [], []⟩ 0
    ⟨.v4 ⟨[10, 0, 0, 3], rfl⟩, 5353⟩

/-- The header of a two-byte query to 8.8.8.8:53. -/
def queryHeader : List UInt8 := generateEndpoint ⟨.v4 ⟨[8, 8, 8, 8], rfl⟩, 53⟩ 2

/-- Two queries, with the writable event that completes the handshake between them. -/
def twoQueries : List ConnOp :=
  [.datagram queryHeader [1, 2], .event ⟨false, true⟩, .datagram queryHeader [3, 4]]

/-- The second query meets a blocked write, and its body is lost. -/
theorem second_body_dropped :
    (blockingFlow.run 0 twoQueries).1.rclosed = false ∧
      (blockingFlow.run 0 twoQueries).1.established = true ∧
      (blockingFlow.run 0 twoQueries).1.remote.sent ++ (blockingFlow.run 0 twoQueries).1.rbuffer =
        udpAssociatePreamble ++ queryHeader ++ [1, 2] ++ queryHeader ∧
      ¬ Conserved (blockingFlow.run 0 twoQueries).1 [(queryHeader, [1, 2]), (queryHeader, [3, 4])] := by
  decide

end TrojanRs.Outbound
