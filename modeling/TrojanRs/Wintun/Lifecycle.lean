import TrojanRs.Wintun.Connection

/-! Closing a flow's TLS connection: within one step the close is the last call on it, except
that `do_remote` runs `remote_to_local` after its writable half without looking at `rclosed`. -/

namespace TrojanRs.Lifecycle

open Connection

set_option autoImplicit false

/-- What a step did to an open flow's connection: calls other than `close`, then one
`close` exactly when it closed the flow. -/
def CallsAfter (c c' : Connection) : Prop :=
  ∃ io, .close ∉ io ∧ c'.remote.calls = c.remote.calls ++ io ++ if c'.rclosed then [.close] else []

namespace CallsAfter

variable {c c₁ c₂ : Connection}

theorem refl (hc : c.rclosed = false) : CallsAfter c c := ⟨[], by simp, by simp [hc]⟩

theorem trans (h₁ : CallsAfter c c₁) (ho : c₁.rclosed = false) (h₂ : CallsAfter c₁ c₂) :
    CallsAfter c c₂ := by
  obtain ⟨io₁, hio₁, e₁⟩ := h₁
  obtain ⟨io₂, hio₂, e₂⟩ := h₂
  exact ⟨io₁ ++ io₂, by simp [hio₁, hio₂], by simp [e₂, e₁, ho]⟩

theorem io {remote : TlsConn} {call : Call} (hcall : call ≠ .close) (hc : c.rclosed = false)
    (h : remote.calls = c.remote.calls ++ [call]) : CallsAfter c { c with remote } :=
  ⟨[call], by simpa using hcall.symm, by simp [hc, h]⟩

theorem closeRemote (hc : c.rclosed = false) : CallsAfter c c.closeRemote :=
  ⟨[], by simp, by simp [Connection.closeRemote, hc, TlsConn.close]⟩

theorem closeRemote_after (h : CallsAfter c c₁) (ho : c₁.rclosed = false) :
    CallsAfter c c₁.closeRemote := h.trans ho (closeRemote ho)

end CallsAfter

theorem CallsAfter.flushRemote_after {c c₁ : Connection} (h : CallsAfter c c₁)
    (ho : c₁.rclosed = false) : CallsAfter c c₁.flushRemote := by
  have hio : CallsAfter c { c₁ with remote := c₁.remote.flush.2 } :=
    h.trans ho (.io (show Call.flush ≠ .close by decide) ho (by simp [TlsConn.flush_snd]))
  unfold flushRemote
  split <;> rename_i heq <;> rw [heq] at hio
  · exact hio.closeRemote_after ho
  · exact hio

theorem sendLoop_calls (header body : List UInt8) (tape : List WriteReply) (c : Connection)
    (data : List UInt8) (offset : Nat) (hc : c.rclosed = false) :
    CallsAfter c (sendLoop header body tape c data offset).1 ∧
      ((sendLoop header body tape c data offset).2.isSome →
        (sendLoop header body tape c data offset).1.rclosed = false) := by
  induction tape generalizing c data offset with
  | nil =>
    cases data with
    | nil => exact ⟨.refl hc, fun _ => hc⟩
    | cons b bs => exact ⟨.io (show Call.write ≠ .close by decide) hc (by simp), fun _ => hc⟩
  | cons r rs ih =>
    cases data with
    | nil => exact ⟨.refl hc, fun _ => hc⟩
    | cons b bs =>
      have hio : CallsAfter c { c with remote :=
          (({ c.remote with writes := rs }.record .write).answerWrite (b :: bs) r).2 } :=
        .io (show Call.write ≠ .close by decide) hc (by simp)
      simp only [sendLoop]
      split <;> rename_i heq <;> rw [heq] at hio
      · exact ⟨hio.closeRemote_after hc, by simp⟩
      · refine ⟨hio.trans hc (ih _ _ _ ?_).1, (ih _ _ _ ?_).2⟩ <;> exact hc
      · exact ⟨hio, fun _ => hc⟩
      · exact ⟨hio.closeRemote_after hc, by simp⟩

theorem sendDatagram_calls (c : Connection) (header body : List UInt8) (hc : c.rclosed = false) :
    CallsAfter c (c.sendDatagram header body) := by
  have hloop := sendLoop_calls header body c.remote.writes c header 0 hc
  unfold sendDatagram
  rcases hsl : sendLoop header body c.remote.writes c header 0 with ⟨c₁, _ | ⟨data, off⟩⟩ <;>
    rw [hsl] at hloop
  · exact hloop.1
  · have ho : c₁.rclosed = false := hloop.2 rfl
    dsimp only
    split <;> exact CallsAfter.flushRemote_after hloop.1 ho

theorem localToRemote_calls (c : Connection) (header body : List UInt8) (hc : c.rclosed = false) :
    CallsAfter c (c.localToRemote header body) := by
  unfold localToRemote
  split
  · exact sendDatagram_calls c header body hc
  · have hio : CallsAfter c
        { c with rbuffer := (c.remote.sendAll c.rbuffer).2.1, remote := (c.remote.sendAll c.rbuffer).2.2 } :=
      CallsAfter.io (show Call.sendAll ≠ .close by decide) hc (by simp)
    split <;> rename_i heq <;> rw [heq] at hio
    · exact hio.trans hc (sendDatagram_calls _ header body hc)
    · exact hio.flushRemote_after hc
    · exact hio.closeRemote_after hc

theorem doLocal_calls (c : Connection) (header body : List UInt8) (hc : c.rclosed = false) :
    CallsAfter c (c.doLocal header body) := by
  unfold doLocal
  split_ifs
  · exact .refl hc
  · exact CallsAfter.refl hc
  · exact localToRemote_calls c header body hc

theorem readLoop_calls (socket : Nat) (replies : List ReadReply) (c : Connection)
    (hc : c.rclosed = false) : CallsAfter c (readLoop socket replies c).1 := by
  have hread : ∀ c : Connection, c.rclosed = false → CallsAfter c { c with remote := c.remote.record .read } :=
    fun c hc => .io (show Call.read ≠ .close by decide) hc (by simp)
  induction replies generalizing c with
  | nil =>
    unfold readLoop
    split
    · exact (hread c hc).closeRemote_after hc
    · exact hread c hc
  | cons r rs ih =>
    unfold readLoop
    split
    · exact (hread c hc).closeRemote_after hc
    have hio : CallsAfter c { c with remote :=
        ({ c.remote.record .read with reads := rs }.answerRead (lbufferCapacity - c.lbuffer.length) r).2 } :=
      .io (show Call.read ≠ .close by decide) hc (by simp)
    dsimp only
    split <;> rename_i heq <;> rw [heq] at hio
    · exact hio.closeRemote_after hc
    · split
      · exact CallsAfter.closeRemote_after hio hc
      · exact CallsAfter.trans hio hc (ih _ hc)
    · exact hio
    · exact hio.closeRemote_after hc

theorem doRemoteReady_calls (c : Connection) (socket : Nat) (event : Event)
    (hc : c.rclosed = false) (hev : ¬ (event.readable ∧ event.writable)) :
    CallsAfter c (c.doRemoteReady socket event).1 := by
  obtain ⟨readable, writable⟩ := event
  unfold doRemoteReady
  cases readable <;> cases writable <;> simp only [Bool.false_eq_true, if_false, if_true] at hev ⊢
  · exact .refl hc
  · exact localToRemote_calls c [] [] hc
  · exact readLoop_calls socket _ c hc
  · simp at hev

theorem doRemote_calls (c : Connection) (socket : Nat) (event : Event) (hc : c.rclosed = false)
    (hev : ¬ (event.readable ∧ event.writable)) : CallsAfter c (c.doRemote socket event).1 := by
  unfold doRemote
  split
  · have hio : CallsAfter c
        { c with remote := (c.remote.write udpAssociatePreamble).2, established := true } :=
      .io (show Call.write ≠ .close by decide) hc (by simp)
    split <;> rename_i heq <;> rw [heq] at hio
    · exact hio.trans hc (doRemoteReady_calls _ socket event hc hev)
    · exact CallsAfter.closeRemote_after hio hc
  · exact doRemoteReady_calls c socket event hc hev

theorem step_calls (socket : Nat) (c : Connection) (op : ConnOp) (hc : c.rclosed = false)
    (hop : op ≠ .event ⟨true, true⟩) : CallsAfter c (c.step socket op).1 := by
  cases op with
  | datagram header body => exact doLocal_calls c header body hc
  | event e =>
    refine doRemote_calls c socket e hc ?_
    obtain ⟨readable, writable⟩ := e
    rintro ⟨hr, hw⟩
    subst hr hw
    exact hop rfl

/-- The steps `UdpServer` gives one flow: after each `do_local` or `do_remote` it
removes the flow once `is_closed`, so a closed flow takes no further step. -/
def serve (socket : Nat) : Connection → List ConnOp → Connection
  | c, [] => c
  | c, op :: ops =>
    let c := (c.step socket op).1
    if c.rclosed then c else serve socket c ops

theorem serve_calls (socket : Nat) (c : Connection) (ops : List ConnOp) (hc : c.rclosed = false)
    (hops : ∀ op ∈ ops, op ≠ .event ⟨true, true⟩) : CallsAfter c (serve socket c ops) := by
  induction ops generalizing c with
  | nil => exact .refl hc
  | cons op ops ih =>
    have hstep := step_calls socket c op hc (hops op (List.mem_cons_self _ _))
    unfold serve
    dsimp only
    split
    · exact hstep
    · rename_i ho
      exact hstep.trans (Bool.eq_false_iff.mpr ho)
        (ih _ (Bool.eq_false_iff.mpr ho) fun op h => hops op (List.mem_cons_of_mem _ h))

/-- The spec's rule for a flow's connection: no call on it follows its `close`. -/
def NoUseAfterClose (calls : List Call) : Prop := .close ∉ calls.dropLast

instance (calls : List Call) : Decidable (NoUseAfterClose calls) :=
  inferInstanceAs (Decidable (Call.close ∉ calls.dropLast))

theorem CallsAfter.noUseAfterClose {c c' : Connection} (h : CallsAfter c c')
    (hcalls : .close ∉ c.remote.calls) : NoUseAfterClose c'.remote.calls := by
  obtain ⟨io, hio, e⟩ := h
  unfold NoUseAfterClose
  rw [e]
  split
  · rw [List.dropLast_concat]
    simp [hcalls, hio]
  · simp only [List.append_nil]
    exact fun hm => by simpa [hcalls, hio] using List.dropLast_subset _ hm

/-- In a flow the server serves without an event both readable and writable, no call
on the connection follows its close. -/
theorem serve_no_use_after_close (socket : Nat) (c : Connection) (ops : List ConnOp)
    (hc : c.rclosed = false) (hcalls : .close ∉ c.remote.calls)
    (hops : ∀ op ∈ ops, op ≠ .event ⟨true, true⟩) :
    NoUseAfterClose (serve socket c ops).remote.calls :=
  (serve_calls socket c ops hc hops).noUseAfterClose hcalls

/-- An established flow whose relay fails the write, flush and read script. -/
def failingFlow : Connection :=
  { Connection.create ⟨7, [.error], [], [], [], []⟩ 0 ⟨.v4 ⟨[10, 0, 0, 3], rfl⟩, 5353⟩ with
    established := true }

theorem failing_flow_closes_last :
    failingFlow.rclosed = false ∧ .close ∉ failingFlow.remote.calls ∧
      (∀ op ∈ [.event ⟨false, true⟩, .datagram [1] [2]], op ≠ ConnOp.event ⟨true, true⟩) ∧
      NoUseAfterClose (serve 0 failingFlow [.event ⟨false, true⟩, .datagram [1] [2]]).remote.calls :=
  ⟨rfl, by decide, by decide,
    serve_no_use_after_close 0 failingFlow _ rfl (by decide) (by decide)⟩

/-- One event both readable and writable: the writable half's failed flush closes the
connection, and the readable half then reads from it. -/
theorem read_after_close :
    (failingFlow.doRemote 0 ⟨true, true⟩).1.rclosed = true ∧
      (failingFlow.doRemote 0 ⟨true, true⟩).1.remote.calls = [.flush, .close, .read] ∧
      ¬ NoUseAfterClose (failingFlow.doRemote 0 ⟨true, true⟩).1.remote.calls := by
  decide

end TrojanRs.Lifecycle