import TrojanRs.Proxy.NetProfiler
import Mathlib.Logic.Relation

/-! The rows of the profiler's table: a call writes a measurement into a row, logs one with no
row, or refreshes a row (`RowStep`), and a pair sits at its sentinels exactly while no
measurement from its probe has been written. -/

namespace TrojanRs

set_option autoImplicit false

/-- The part of the profiler the table's invariants read. -/
abbrev Rows : Type := PingSet × List LogLine

def NetProfiler.rows (p : NetProfiler) : Rows := (p.set, p.log)

/-- One change to the table and the log; `check` refreshes only at times `clock` allows. -/
inductive RowStep (clock : Nat → Prop) : Rows → Rows → Prop
  | write (t : PingSet) (log : List LogLine) (probe : Probe) (ip : IpAddr) (lost : UInt8)
      (ping : UInt16) (h : ip ∈ t.keys) :
      RowStep clock (t, log) (t.modify ip (·.write probe lost ping), log ++ [.result probe ip lost ping])
  | miss (t : PingSet) (log : List LogLine) (ip : IpAddr) (h : ip ∉ t.keys) :
      RowStep clock (t, log) (t, log ++ [.notFound ip])
  | touch (t : PingSet) (log : List LogLine) (ip : IpAddr) (now : Nat) (h : clock now) :
      RowStep clock (t, log) (t.touch ip now, log)

abbrev RowSteps (clock : Nat → Prop) : Rows → Rows → Prop := Relation.ReflTransGen (RowStep clock)

/-- The clock reading a call takes. -/
def ProfilerOp.now? : ProfilerOp → Option Nat
  | .check _ now => some now
  | .update _ now => some now
  | _ => none

namespace NetProfiler

section Calls
variable {clock : Nat → Prop} (p : NetProfiler)

theorem record_rows (probe : Probe) (ip : IpAddr) (ping : UInt16) (lost : UInt8) :
    RowStep clock p.rows (p.record probe ip ping lost).rows := by
  unfold record
  split
  · exact .write _ _ probe ip lost ping ‹_›
  · exact .miss _ _ ip ‹_›

@[simp] theorem sendRemoteIp_rows (ip : IpAddr) : (p.sendRemoteIp ip).rows = p.rows := by
  simp [rows]

@[simp] theorem sendBypass_rows (cond : Condition) (ip : IpAddr) :
    (p.sendBypass cond ip).rows = p.rows := by
  unfold sendBypass; split <;> rfl

@[simp] theorem onWritable_rows (e : ReadyEvent) : (p.onWritable e).rows = p.rows := by
  unfold onWritable; split <;> rfl

@[simp] theorem init_rows (pool : PoolReply) : (p.init pool).rows = p.rows := by
  cases pool <;> rfl

@[simp] theorem reset_rows (pool : PoolReply) : (p.reset pool).rows = p.rows :=
  init_rows _ pool

@[simp] theorem respond_rows (ip : IpAddr) (ping : UInt16) (lost : UInt8) :
    (p.respond ip ping lost).rows = p.rows := by
  unfold respond; split <;> rfl

theorem foldl_sendRemoteIp_rows (ips : List IpAddr) (p : NetProfiler) :
    (ips.foldl sendRemoteIp p).rows = p.rows := by
  induction ips generalizing p with
  | nil => rfl
  | cons ip ips ih => rw [List.foldl_cons, ih, sendRemoteIp_rows]

theorem foldl_sendBypass_rows (cond : Condition) (ips : List IpAddr) (p : NetProfiler) :
    (ips.foldl (sendBypass cond) p).rows = p.rows := by
  induction ips generalizing p with
  | nil => rfl
  | cons ip ips ih => rw [List.foldl_cons, ih, sendBypass_rows]

theorem foldl_record_rows (probe : Probe) (rs : List (IpAddr × UInt16 × UInt8)) (p : NetProfiler) :
    RowSteps clock p.rows (rs.foldl (fun p r => p.record probe r.1 r.2.1 r.2.2) p).rows := by
  induction rs generalizing p with
  | nil => exact .refl
  | cons r rs ih => exact .head (record_rows p probe r.1 r.2.1 r.2.2) (ih _)

theorem check_rows (ip : IpAddr) {now : Nat} (hnow : clock now) :
    RowSteps clock p.rows (p.check ip now).rows := by
  unfold check
  split
  · exact .refl
  · split
    · exact .refl
    · split
      · simpa [rows] using Relation.ReflTransGen.single (@RowStep.touch clock p.set p.log ip now hnow)
      · rw [sendRemoteIp_rows]

theorem update_rows (cond : Condition) (now : Nat) :
    RowSteps clock p.rows (p.update cond now).rows := by
  unfold update
  split
  · exact .refl
  · rename_i ch _
    rw [foldl_sendBypass_rows, foldl_sendRemoteIp_rows]
    exact foldl_record_rows .direct ch.respReceiver { p with channels := some { ch with respReceiver := [] } }

end Calls

theorem decodeLoop_rows {clock : Nat → Prop} (p : NetProfiler) (buf : List UInt8) (q : NetProfiler)
    (h : p.decodeLoop buf = some q) : RowSteps clock p.rows q.rows := by
  match buf with
  | [] =>
    rw [decodeLoop] at h
    cases h
    exact .refl
  | b :: bs =>
    cases hf : decodeFront (b :: bs) with
    | wait =>
      rw [decodeLoop_of_wait p hf] at h
      cases h
      exact .refl
    | invalid => rw [decodeLoop_of_invalid p hf] at h; cases h
    | record ip ping lost rest =>
      rw [decodeLoop_of_record p hf] at h
      exact .head (record_rows p .relay ip ping lost) (decodeLoop_rows _ rest q h)
termination_by buf.length
decreasing_by exact decodeFront_rest_lt hf

section Ready
variable {clock : Nat → Prop} (p : NetProfiler)

theorem ready_rows (e : ReadyEvent) (q : NetProfiler) (h : p.ready e = some q) :
    RowSteps clock p.rows q.rows := by
  unfold ready at h
  split at h
  · cases h; exact .refl
  · obtain ⟨q', hq', rfl⟩ := Option.map_eq_some'.mp h
    have hread : RowSteps clock p.rows q'.rows := by
      unfold onReadable at hq'
      split at hq'
      · have h := @decodeLoop_rows clock _ _ q' hq'
        exact h
      · cases hq'; exact .refl
    split <;> simpa using hread

theorem step_rows (op : ProfilerOp) (q : NetProfiler) (h : p.step op = some q)
    (hclock : ∀ t, op.now? = some t → clock t) : RowSteps clock p.rows q.rows := by
  cases op with
  | init pool => cases h; rw [init_rows]
  | check ip now => cases h; exact check_rows p ip (hclock now rfl)
  | respond ip ping lost => cases h; rw [respond_rows]
  | update cond now => cases h; exact update_rows p cond now
  | ready e => exact ready_rows p e q h

end Ready

theorem run_rows {clock : Nat → Prop} (ops : List ProfilerOp) (p q : NetProfiler)
    (h : p.run ops = some q) (hclock : ∀ op ∈ ops, ∀ t, op.now? = some t → clock t) :
    RowSteps clock p.rows q.rows := by
  induction ops generalizing p with
  | nil => cases h; exact .refl
  | cons op ops ih =>
    simp only [run] at h
    split at h
    · cases h
    · rename_i p' hstep
      exact (step_rows p op p' hstep (hclock op (List.mem_cons_self _ _))).trans
        (ih p' h fun op hop => hclock op (List.mem_cons_of_mem _ hop))

end NetProfiler

section Sentinels

/-- A measurement of `ip` from `probe` has been written into its row. -/
def Measured (log : List LogLine) (probe : Probe) (ip : IpAddr) : Prop :=
  ∃ lost ping, LogLine.result probe ip lost ping ∈ log

variable {log : List LogLine} {probe q : Probe} {ip ip' : IpAddr}

theorem measured_append_result {lost : UInt8} {ping : UInt16} :
    Measured (log ++ [.result probe ip lost ping]) q ip' ↔ Measured log q ip' ∨ (q = probe ∧ ip' = ip) := by
  simp only [Measured, List.mem_append, List.mem_singleton, LogLine.result.injEq]
  constructor
  · rintro ⟨l, g, h | ⟨rfl, rfl, -, -⟩⟩
    · exact .inl ⟨l, g, h⟩
    · exact .inr ⟨rfl, rfl⟩
  · rintro (⟨l, g, h⟩ | ⟨rfl, rfl⟩)
    · exact ⟨l, g, .inl h⟩
    · exact ⟨lost, ping, .inr ⟨rfl, rfl, rfl, rfl⟩⟩

theorem measured_append_notFound : Measured (log ++ [.notFound ip]) q ip' ↔ Measured log q ip' := by
  simp [Measured]

/-- The table's invariant: a pair is at its sentinels exactly while its probe is unmeasured. -/
structure Tracks (r : Rows) : Prop where
  sentinel : ∀ ip pr, (ip, pr) ∈ r.1.entries → ∀ probe,
    (pr.lost probe = 255 ↔ pr.ping probe = 65535) ∧ (pr.lost probe = 255 ↔ ¬ Measured r.2 probe ip)
  keyed : ∀ probe ip, Measured r.2 probe ip → ip ∈ r.1.keys

theorem tracks_empty : Tracks (PingSet.empty, []) :=
  ⟨fun _ _ h => absurd h (List.not_mem_nil _), fun _ _ ⟨_, _, h⟩ => absurd h (List.not_mem_nil _)⟩

theorem Tracks.complete_iff {r : Rows} (ht : Tracks r) {pr : PingResult} (hm : (ip, pr) ∈ r.1.entries) :
    pr.isComplete ↔ Measured r.2 .direct ip ∧ Measured r.2 .relay ip := by
  rw [PingResult.isComplete_iff]
  have hs := ht.sentinel ip pr hm
  constructor
  · intro h
    exact ⟨not_not.mp ((hs .direct).2.not.mp (h .direct).1),
      not_not.mp ((hs .relay).2.not.mp (h .relay).1)⟩
  · rintro ⟨hd, hr⟩ probe
    have hl : pr.lost probe ≠ 255 := by cases probe <;> simp [(hs _).2, hd, hr]
    exact ⟨hl, fun h => hl ((hs probe).1.mpr h)⟩

variable {clock : Nat → Prop} {r r' : Rows}

theorem RowStep.tracks (h : RowStep clock r r') (ht : Tracks r) : Tracks r' := by
  cases h with
  | write t log probe ip lost ping hip =>
    refine ⟨fun ip' pr' hm q => ?_, fun q ip' hq => ?_⟩
    · obtain ⟨pr, hpr, rfl⟩ := (PingSet.mem_modify_iff ..).mp hm
      have hs := ht.sentinel ip' pr hpr q
      simp only [measured_append_result]
      by_cases hi : ip' = ip
      · subst hi
        by_cases hq : q = probe
        · subst hq
          simp [PingResult.min_lost_ne, PingResult.min_ping_ne]
        · simpa [hq] using hs
      · simpa [hi] using hs
    · rw [PingSet.keys_modify]
      rcases measured_append_result.mp hq with hq | ⟨-, rfl⟩
      · exact ht.keyed q ip' hq
      · exact hip
  | miss t log ip hip =>
    exact ⟨fun ip' pr' hm q => by simpa [measured_append_notFound] using ht.sentinel ip' pr' hm q,
      fun q ip' hq => ht.keyed q ip' (measured_append_notFound.mp hq)⟩
  | touch t log ip now _ =>
    refine ⟨fun ip' pr' hm q => ?_, fun q ip' hq => (PingSet.mem_keys_touch ..).mpr (.inl (ht.keyed q ip' hq))⟩
    rcases (PingSet.mem_touch_iff ..).mp hm with ⟨pr, hpr, rfl⟩ | ⟨rfl, hnew, rfl⟩
    · have hs := ht.sentinel ip' pr hpr q
      split <;> simpa using hs
    · have hun : ¬ Measured log q ip' := fun h => hnew (ht.keyed q ip' h)
      cases q <;> exact ⟨iff_of_true rfl rfl, iff_of_true rfl hun⟩

theorem RowSteps.tracks (h : RowSteps clock r r') (ht : Tracks r) : Tracks r' := by
  induction h with
  | refl => exact ht
  | tail _ step ih => exact step.tracks ih

theorem RowStep.keys_mono (h : RowStep clock r r') (hip : ip ∈ r.1.keys) : ip ∈ r'.1.keys := by
  cases h with
  | write => rwa [PingSet.keys_modify]
  | miss => exact hip
  | touch => exact (PingSet.mem_keys_touch ..).mpr (.inl hip)

theorem RowStep.measured_mono (h : RowStep clock r r') (hm : Measured r.2 probe ip) :
    Measured r'.2 probe ip := by
  cases h with
  | write => exact measured_append_result.mpr (.inl hm)
  | miss => exact measured_append_notFound.mpr hm
  | touch => exact hm

theorem RowSteps.keys_mono (h : RowSteps clock r r') (hip : ip ∈ r.1.keys) : ip ∈ r'.1.keys := by
  induction h with
  | refl => exact hip
  | tail _ step ih => exact step.keys_mono ih

theorem RowSteps.measured_mono (h : RowSteps clock r r') (hm : Measured r.2 probe ip) :
    Measured r'.2 probe ip := by
  induction h with
  | refl => exact hm
  | tail _ step ih => exact step.measured_mono ih

theorem RowSteps.complete_mono (h : RowSteps clock r r') (ht : Tracks r) {pr : PingResult}
    (hm : (ip, pr) ∈ r.1.entries) (hc : pr.isComplete) :
    ∃ pr', (ip, pr') ∈ r'.1.entries ∧ pr'.isComplete := by
  obtain ⟨hd, hr⟩ := (ht.complete_iff hm).mp hc
  obtain ⟨pr', hm'⟩ := (PingSet.mem_keys_iff ..).mp
    (h.keys_mono ((PingSet.mem_keys_iff ..).mpr ⟨pr, hm⟩))
  exact ⟨pr', hm', ((h.tracks ht).complete_iff hm').mpr ⟨h.measured_mono hd, h.measured_mono hr⟩⟩

end Sentinels

namespace NetProfiler

/-- Over every run from `new`, a pair is at its sentinels exactly while its probe is unmeasured,
and a complete row stays complete. -/
theorem sentinels_mark_unmeasured (enable : Bool) (ops : List ProfilerOp) (p : NetProfiler)
    (hrun : (new enable).run ops = some p) :
    (∀ ip pr, (ip, pr) ∈ p.set.entries → ∀ probe,
      (pr.lost probe = 255 ↔ pr.ping probe = 65535) ∧
        (pr.lost probe = 255 ↔ ¬ Measured p.log probe ip)) ∧
    (∀ ip pr, (ip, pr) ∈ p.set.entries →
      (pr.isComplete ↔ Measured p.log .direct ip ∧ Measured p.log .relay ip)) ∧
    (∀ ops' q, p.run ops' = some q → ∀ ip pr, (ip, pr) ∈ p.set.entries → pr.isComplete →
      ∃ pr', (ip, pr') ∈ q.set.entries ∧ pr'.isComplete) := by
  have ht : Tracks p.rows :=
    (@run_rows (fun _ => True) ops _ p hrun fun _ _ _ _ => trivial).tracks tracks_empty
  exact ⟨ht.sentinel, fun ip pr hm => ht.complete_iff hm, fun ops' q hq ip pr hm hc =>
    (@run_rows (fun _ => True) ops' p q hq fun _ _ _ _ => trivial).complete_mono ht hm hc⟩

/-- An address the runs below check. -/
def checkedAddr : IpAddr := .v4 ⟨[1, 2, 3, 4], rfl⟩

/-- The address is checked, its direct probe answers, and `update` writes the answer. -/
def measuredRun : List ProfilerOp :=
  [.check checkedAddr 0, .respond checkedAddr 40 0, .update ⟨100, 1⟩ 1]

theorem measured_run_rows : ∃ p, (new true).run measuredRun = some p ∧
    (∀ ip pr, (ip, pr) ∈ p.set.entries → ∀ probe,
      (pr.lost probe = 255 ↔ pr.ping probe = 65535) ∧
        (pr.lost probe = 255 ↔ ¬ Measured p.log probe ip)) ∧
    (∀ ip pr, (ip, pr) ∈ p.set.entries →
      (pr.isComplete ↔ Measured p.log .direct ip ∧ Measured p.log .relay ip)) ∧
    (∀ ops' q, p.run ops' = some q → ∀ ip pr, (ip, pr) ∈ p.set.entries → pr.isComplete →
      ∃ pr', (ip, pr') ∈ q.set.entries ∧ pr'.isComplete) :=
  ⟨_, rfl, sentinels_mark_unmeasured true measuredRun _ rfl⟩

end NetProfiler

end TrojanRs
