import TrojanRs.Proxy.Routine
import TrojanRs.Proxy.Condition

/-! The decisions `update` sends over runs of the check routine. A row's local ping is a
direct measurement of the log, clamped, and `do_check` measures at most 999 ms, so each
decision is the decision rule's for its row. -/

namespace TrojanRs

set_option autoImplicit false

/-- Each row's local ping is the sentinel, or the clamp of a direct measurement of its
address that the log holds. -/
def LocalFromLog (r : Rows) : Prop :=
  ∀ ip pr, (ip, pr) ∈ r.1.entries →
    pr.localPing = 65535 ∨ ∃ lost ping, LogLine.result .direct ip lost ping ∈ r.2 ∧ pr.localPing = min ping 65534

/-- Every direct measurement the log holds is one `do_check` can send. -/
def DirectFits (log : List LogLine) : Prop :=
  ∀ ip lost ping, LogLine.result .direct ip lost ping ∈ log → ping.toNat ≤ 999

theorem min_ping_toNat_le (ping : UInt16) : (min ping 65534).toNat ≤ ping.toNat := by
  show (if ping ≤ 65534 then ping else 65534).toNat ≤ ping.toNat
  split
  · exact le_refl _
  · exact (Nat.lt_of_not_le (show ¬ ping.toNat ≤ 65534 from ‹_›)).le

section LocalFromLog
variable {clock : Nat → Prop} {r r' : Rows}

theorem localFromLog_of_subset {t : PingSet} {log log' : List LogLine} (h : LocalFromLog (t, log))
    (hsub : log ⊆ log') : LocalFromLog (t, log') :=
  fun ip pr hm => (h ip pr hm).imp_right fun ⟨lost, ping, hl, he⟩ => ⟨lost, ping, hsub hl, he⟩

theorem RowStep.localFromLog (h : RowStep clock r r') (hl : LocalFromLog r) : LocalFromLog r' := by
  cases h with
  | write t log probe ip lost ping hip =>
    intro ip' pr' hm
    obtain ⟨pr, hpr, rfl⟩ := (PingSet.mem_modify_iff ..).mp hm
    have hold := localFromLog_of_subset hl (List.subset_append_left log [.result probe ip lost ping]) ip' pr hpr
    by_cases hi : ip' = ip
    · subst hi
      rw [if_pos rfl]
      cases probe with
      | direct => exact .inr ⟨lost, ping, List.mem_append_right _ (List.mem_singleton_self _), rfl⟩
      | relay => exact hold
    · rwa [if_neg hi]
  | miss t log ip _ => exact localFromLog_of_subset hl (List.subset_append_left _ _)
  | touch t log ip now _ =>
    intro ip' pr' hm
    rcases (PingSet.mem_touch_iff ..).mp hm with ⟨pr, hpr, rfl⟩ | ⟨-, -, rfl⟩
    · have hold := hl ip' pr hpr
      split <;> exact hold
    · exact .inl rfl

theorem RowSteps.localFromLog (h : RowSteps clock r r') (hl : LocalFromLog r) : LocalFromLog r' := by
  induction h with
  | refl => exact hl
  | tail _ step ih => exact step.localFromLog ih

theorem RowStep.log_prefix (h : RowStep clock r r') : List.IsPrefix r.2 r'.2 := by
  cases h with
  | write => exact List.prefix_append _ _
  | miss => exact List.prefix_append _ _
  | touch => exact List.prefix_refl _

theorem RowSteps.log_prefix (h : RowSteps clock r r') : List.IsPrefix r.2 r'.2 := by
  induction h with
  | refl => exact List.prefix_refl _
  | tail _ step ih => exact ih.trans step.log_prefix

end LocalFromLog

namespace NetProfiler

theorem foldl_record_channels (probe : Probe) (rs : List (IpAddr × UInt16 × UInt8)) (p : NetProfiler) :
    (rs.foldl (fun p r => p.record probe r.1 r.2.1 r.2.2) p).channels = p.channels := by
  induction rs generalizing p with
  | nil => rfl
  | cons r rs ih => exact (ih _).trans (record_channels ..)

theorem foldl_record_direct_log (rs : List (IpAddr × UInt16 × UInt8)) (p : NetProfiler) :
    ∀ l ∈ (rs.foldl (fun p r => p.record .direct r.1 r.2.1 r.2.2) p).log,
      l ∈ p.log ∨ ∃ r ∈ rs, l = .result .direct r.1 r.2.2 r.2.1 ∨ l = .notFound r.1 := by
  induction rs generalizing p with
  | nil => exact fun l hl => .inl hl
  | cons r rs ih =>
    intro l hl
    rcases ih (p.record .direct r.1 r.2.1 r.2.2) l hl with hl | ⟨r', hr', he⟩
    · unfold record at hl
      split at hl <;> rcases List.mem_append.mp hl with hl | hl
      · exact .inl hl
      · exact .inr ⟨r, List.mem_cons_self _ _, .inl (List.mem_singleton.mp hl)⟩
      · exact .inl hl
      · exact .inr ⟨r, List.mem_cons_self _ _, .inr (List.mem_singleton.mp hl)⟩
    · exact .inr ⟨r', List.mem_cons_of_mem _ hr', he⟩

theorem update_log (p : NetProfiler) (cond : Condition) (now : Nat) :
    (p.update cond now).results = [] ∧
      ∀ l ∈ (p.update cond now).log,
        l ∈ p.log ∨ ∃ r ∈ p.results, l = .result .direct r.1 r.2.2 r.2.1 ∨ l = .notFound r.1 := by
  cases hch : p.channels with
  | none => exact ⟨by simp [update, hch, results], fun l hl => .inl (by simpa [update, hch] using hl)⟩
  | some ch =>
    let q := ch.respReceiver.foldl (fun p r => p.record .direct r.1 r.2.1 r.2.2)
      { p with channels := some { ch with respReceiver := [] } }
    have hupd : p.update cond now =
        (q.collectIps now).1.foldl (sendBypass cond) ((q.collectIps now).2.foldl sendRemoteIp q) := by
      simp only [update, hch]
    have hqch : q.channels = some { ch with respReceiver := [] } := foldl_record_channels ..
    obtain ⟨l, hl, -⟩ := foldl_sendBypass_sent cond (q.collectIps now).1 _ _
      ((foldl_sendRemoteIp_set_channels (q.collectIps now).2 q).2.trans hqch)
    have hlog : (p.update cond now).log = q.log := by
      rw [hupd]
      exact congrArg Prod.snd ((foldl_sendBypass_rows ..).trans (foldl_sendRemoteIp_rows ..))
    have hres : p.results = ch.respReceiver := by simp only [results, hch, Option.map_some', Option.getD_some]
    refine ⟨by simp [results, hupd, hl], fun l hl' => ?_⟩
    rw [hlog] at hl'
    rw [hres]
    exact foldl_record_direct_log ch.respReceiver { p with channels := some { ch with respReceiver := [] } } l hl'

theorem respond_results (p : NetProfiler) (ip : IpAddr) (ping : UInt16) (lost : UInt8) :
    ∀ r ∈ (p.respond ip ping lost).results, r ∈ p.results ∨ r = (ip, ping, lost) := by
  unfold respond
  split
  · exact fun r hr => .inl hr
  · rename_i ch hch
    simp [results, hch]

end NetProfiler

/-- Every reply of a finishing task's probes comes within the pinger's 999 ms timeout. -/
def CheckOp.WithinTimeout : CheckOp → Prop
  | .finish _ _ ping => ∀ i < 100, ∀ c, ping i = some c → c ≤ 999
  | _ => True

namespace CheckSystem

/-- What a run keeps of the direct measurements: each row's local ping is the sentinel or
a logged measurement, and every measurement logged or waiting is at most 999 ms. -/
structure Probed (s : CheckSystem) : Prop where
  rows : LocalFromLog s.profiler.rows
  log : DirectFits s.profiler.log
  results : ∀ r ∈ s.profiler.results, r.2.1.toNat ≤ 999

variable {nobypass : IpSet} {s s' : CheckSystem}

theorem probed_start : Probed start :=
  ⟨fun _ _ h => absurd h (List.not_mem_nil _), fun _ _ _ h => absurd h (List.not_mem_nil _),
    fun _ h => absurd h (List.not_mem_nil _)⟩

theorem Probed.of_profiler (h : Probed s) {p : NetProfiler} (hrows : RowSteps (fun _ => True) s.profiler.rows p.rows)
    (hlog : directIps p.log = directIps s.profiler.log) (hres : p.results = s.profiler.results) :
    Probed { s with profiler := p } := by
  obtain ⟨extra, he⟩ := hrows.log_prefix
  replace he : s.profiler.log ++ extra = p.log := he
  have hextra : directIps extra = [] := by
    simpa [← he, directIps, List.filterMap_append] using hlog
  refine ⟨hrows.localFromLog h.rows, fun ip lost ping hl => ?_, hres ▸ h.results⟩
  rcases List.mem_append.mp (he ▸ hl : _ ∈ s.profiler.log ++ extra) with hl | hl
  · exact h.log ip lost ping hl
  · exact absurd (List.filterMap_eq_nil_iff.mp hextra _ hl) (by simp [LogLine.directIp?])

theorem probed_update (h : Probed s) (cond : Condition) (now : Nat) :
    Probed { s with profiler := s.profiler.update cond now } := by
  obtain ⟨hres, hlog⟩ := s.profiler.update_log cond now
  refine ⟨(@NetProfiler.update_rows (fun _ => True) s.profiler cond now).localFromLog h.rows,
    fun ip lost ping hl => ?_, fun r hr => absurd (hres ▸ hr) (List.not_mem_nil r)⟩
  rcases hlog _ hl with hl | ⟨r, hr, he | he⟩
  · exact h.log ip lost ping hl
  · cases he
    exact h.results r hr
  · cases he

theorem probed_finish (h : Probed s) {ip : IpAddr} {id : UInt16} {ping : Nat → Option Nat}
    (hping : ∀ i < 100, ∀ c, ping i = some c → c ≤ 999) : Probed (s.finish ip id ping) := by
  have hrows : (s.finish ip id ping).profiler.rows = s.profiler.rows := NetProfiler.respond_rows ..
  have hlog : (s.finish ip id ping).profiler.log = s.profiler.log := congrArg Prod.snd hrows
  refine ⟨hrows ▸ h.rows, hlog ▸ h.log, fun r hr => ?_⟩
  rcases NetProfiler.respond_results _ _ _ _ r hr with hr | rfl
  · exact h.results r hr
  · exact (checkServer_condition hping).1.trans_le (avgCost_le hping)

theorem step_probed (h : Probed s) {op : CheckOp} (hop : op.WithinTimeout)
    (hs : s.step nobypass op = some s') : Probed s' := by
  cases op with
  | init pool =>
    cases hs
    have hrows := NetProfiler.init_rows s.profiler pool
    exact h.of_profiler (hrows ▸ .refl) (congrArg (directIps ·.2) hrows) (by simp [NetProfiler.results])
  | check ip now =>
    cases hs
    obtain ⟨hres, -, -, hlog, -⟩ := s.profiler.check_spec ip now
    exact h.of_profiler (NetProfiler.check_rows _ ip trivial) (by rw [hlog]) hres
  | update cond now =>
    cases hs
    exact probed_update h cond now
  | ready e =>
    obtain ⟨p, hp, rfl⟩ := Option.map_eq_some'.mp hs
    obtain ⟨hch, hlog⟩ := NetProfiler.ready_directIps _ e p hp
    exact h.of_profiler (NetProfiler.ready_rows _ e p hp) hlog (by simp [NetProfiler.results, hch])
  | request =>
    obtain ⟨ip, -, rfl⟩ := Option.map_eq_some'.mp hs
    exact ⟨h.rows, h.log, h.results⟩
  | finish ip id ping =>
    simp only [step] at hs
    split at hs <;> cases hs
    exact probed_finish h hop
  | response =>
    obtain ⟨m, -, rfl⟩ := Option.map_eq_some'.mp hs
    exact ⟨h.rows, h.log, h.results⟩

theorem run_probed (h : Probed s) {ops : List CheckOp} (hops : ∀ op ∈ ops, op.WithinTimeout)
    (hrun : s.run nobypass ops = some s') : Probed s' := by
  induction ops generalizing s with
  | nil =>
    cases hrun
    exact h
  | cons op ops ih =>
    obtain ⟨t, ht, hrun⟩ := Option.bind_eq_some.mp hrun
    exact ih (step_probed h (hops op (List.mem_cons_self _ _)) ht) (fun op' h' => hops op' (List.mem_cons_of_mem _ h')) hrun

end CheckSystem

/-- Over every run whose probes answer within the timeout, `update` sends for each address the
decision rule applied to its complete row. -/
theorem probed_decisions_follow_rule (nobypass : IpSet) (ops : List CheckOp) (s : CheckSystem)
    (hrun : CheckSystem.start.run nobypass ops = some s) (hops : ∀ op ∈ ops, op.WithinTimeout)
    (ws : List ConditionWrite) (hws : ∀ w ∈ ws, w.WithinTimeout) (now : Nat) :
    ∃ l, (s.profiler.update (conditionStart.run ws) now).decisions = s.profiler.decisions ++ l ∧
      ∀ m ∈ l, ∃ pr, (m.1, pr) ∈ (s.profiler.update (conditionStart.run ws) now).set.entries ∧
        pr.isComplete = true ∧ m.2 = ruleBypass (conditionStart.run ws) pr := by
  have hi := CheckSystem.run_inv CheckSystem.inv_start hrun
  have hcond := Condition.run_inRange (show conditionStart.InRange from ⟨by decide, by decide⟩) hws
  obtain ⟨ch, hch⟩ := Option.isSome_iff_exists.mp hi.opened
  obtain ⟨l, hch', hl, -⟩ := s.profiler.update_spec (conditionStart.run ws) now ch hch (hi.results_rows hch)
  have hp := CheckSystem.probed_update (CheckSystem.run_probed CheckSystem.probed_start hops hrun)
    (conditionStart.run ws) now
  refine ⟨l, by simp [NetProfiler.decisions, hch', hch], fun m hm => ?_⟩
  obtain ⟨pr, hpr, hc, hm2⟩ := hl m hm
  have hlocal : pr.localPing.toNat ≤ 999 := by
    rcases hp.rows m.1 pr hpr with h | ⟨lost, ping, hline, he⟩
    · exact absurd h ((PingResult.isComplete_iff pr).mp hc .direct).2
    · exact he ▸ (min_ping_toNat_le ping).trans (hp.log _ _ _ hline)
  exact ⟨pr, hpr, hc, hm2.trans (bypassFor_eq_ruleBypass_of_probed _ hcond.lost_le hcond.ping_le pr hlocal)⟩

namespace NetProfiler

/-- The probe run of the check routine, with `CONDITION` written once by `check_server`
from replies of 30 ms. -/
theorem probe_run_follows_rule :
    (∀ op ∈ probeRun, op.WithinTimeout) ∧ (∀ w ∈ [ConditionWrite.checkRound true fun _ => some 30], w.WithinTimeout) ∧
      ∃ s, CheckSystem.start.run nobypassB probeRun = some s ∧
        ∃ l, (s.profiler.update (conditionStart.run [.checkRound true fun _ => some 30]) (10 ^ 9)).decisions =
          s.profiler.decisions ++ l ∧
        ∀ m ∈ l, ∃ pr, (m.1, pr) ∈ (s.profiler.update (conditionStart.run [.checkRound true fun _ => some 30]) (10 ^ 9)).set.entries ∧
          pr.isComplete = true ∧ m.2 = ruleBypass (conditionStart.run [.checkRound true fun _ => some 30]) pr :=
  have hops : ∀ op ∈ probeRun, op.WithinTimeout := by simp [probeRun, CheckOp.WithinTimeout]
  have hws : ∀ w ∈ [ConditionWrite.checkRound true fun _ => some 30], w.WithinTimeout := by
    simp [ConditionWrite.WithinTimeout]
  ⟨hops, hws, _, rfl, probed_decisions_follow_rule nobypassB probeRun _ rfl hops _ hws (10 ^ 9)⟩

end NetProfiler

end TrojanRs
