import TrojanRs.Proxy.Decode
import TrojanRs.Proxy.Update
import TrojanRs.Proxy.Probe

/-! The decision `update` sends for a complete row, with its `u16` sum and `u8` difference
wrapping as in a release build, and `update` as a debug build runs it. -/

namespace TrojanRs

set_option autoImplicit false

/-- The condition `NetProfiler::new(true, ..)` writes into `CONDITION`. -/
def newCondition : Condition := ⟨200, 3⟩

/-- Modelled from the spec: the decision rule over the integers, the loss quotient exact,
rounded toward zero and saturated as `as u8` does. -/
def ruleBypass (cond : Condition) (pr : PingResult) : Bool :=
  let factor : Int := min 255 (max 0
    (((100 - (cond.lost.toNat : Int)) * (100 - (pr.remoteLost.toNat : Int))).tdiv 100))
  decide ((pr.localPing.toNat : Int) < cond.ping.toNat + pr.remotePing.toNat) &&
    decide ((pr.localLost.toNat : Int) < 100 - factor) &&
    decide (pr.remotePing.toNat < pr.localPing.toNat)

theorem lostFactor_le {condLost : UInt8} (remoteLost : UInt8) (h : condLost.toNat ≤ 100) :
    lostFactor condLost remoteLost ≤ 100 := by
  have hr : remoteLost.toNat < 256 := remoteLost.val.isLt
  have hprod : (100 - (condLost.toNat : Int)) * (100 - remoteLost.toNat) ≤ (100 - condLost.toNat) * 100 :=
    Int.mul_le_mul_of_nonneg_left (by omega) (by omega)
  have hq : ((100 - (condLost.toNat : Int)) * (100 - remoteLost.toNat)).tdiv 100 ≤ 100 := by
    rcases Int.le_total 0 ((100 - (condLost.toNat : Int)) * (100 - remoteLost.toNat)) with hx | hx
    · rw [Int.tdiv_eq_ediv hx (by decide)]
      exact Int.ediv_le_of_le_mul (by decide) (by omega)
    · rw [← Int.neg_neg ((100 - (condLost.toNat : Int)) * _), Int.neg_tdiv]
      have := Int.tdiv_nonneg (Int.neg_nonneg_of_nonpos hx) (show (0 : Int) ≤ 100 by decide)
      omega
  unfold lostFactor
  omega

theorem bypassFor_eq_ruleBypass (cond : Condition) (hlost : cond.lost.toNat ≤ 100) (pr : PingResult)
    (hping : cond.ping.toNat + pr.remotePing.toNat ≤ 65535) : bypassFor cond pr = ruleBypass cond pr := by
  have hf := lostFactor_le pr.remoteLost hlost
  have hsum : (cond.ping.toNat + pr.remotePing.toNat) % 2 ^ 16 = cond.ping.toNat + pr.remotePing.toNat :=
    Nat.mod_eq_of_lt (by omega)
  have hloss : (100 + 2 ^ 8 - lostFactor cond.lost pr.remoteLost) % 2 ^ 8 =
      100 - lostFactor cond.lost pr.remoteLost := by omega
  have hfactor : (lostFactor cond.lost pr.remoteLost : Int) = min 255 (max 0
      (((100 - (cond.lost.toNat : Int)) * (100 - (pr.remoteLost.toNat : Int))).tdiv 100)) := by
    unfold lostFactor
    omega
  simp only [bypassFor, ruleBypass, hsum, hloss, ← hfactor]
  refine congrArg₂ (· && ·) (congrArg₂ (· && ·) ?_ ?_) (decide_eq_decide.mpr Iff.rfl) <;>
    exact decide_eq_decide.mpr (by omega)

/-- Whenever `cond.lost ≤ 100` and `cond.ping + remote_ping` fits a `u16`, the decision
`update` sends for a row is the decision rule over the integers. -/
theorem bypass_matches_rule (cond : Condition) (hlost : cond.lost.toNat ≤ 100) (pr : PingResult)
    (hping : cond.ping.toNat + pr.remotePing.toNat ≤ 65535) : bypassFor cond pr = ruleBypass cond pr :=
  bypassFor_eq_ruleBypass cond hlost pr hping

/-- With `CONDITION` in range and a local ping `do_check` can send, the flag is the rule, also
where the `u16` sum wraps: the relay's ping is then above the local one, and both say no. -/
theorem bypassFor_eq_ruleBypass_of_probed (cond : Condition) (hlost : cond.lost.toNat ≤ 100)
    (hping : cond.ping.toNat ≤ 999) (pr : PingResult) (hlocal : pr.localPing.toNat ≤ 999) :
    bypassFor cond pr = ruleBypass cond pr := by
  by_cases hfit : cond.ping.toNat + pr.remotePing.toNat ≤ 65535
  · exact bypassFor_eq_ruleBypass cond hlost pr hfit
  · have hlt : ¬ pr.remotePing.toNat < pr.localPing.toNat := by omega
    have h₁ : decide (pr.localPing > pr.remotePing) = false := decide_eq_false hlt
    have h₂ : decide (pr.remotePing.toNat < pr.localPing.toNat) = false := decide_eq_false hlt
    simp only [bypassFor, ruleBypass, h₁, h₂, Bool.and_false]

namespace NetProfiler

/-- The profiler after `update`'s `try_recv` loop, when it reads `CONDITION`. -/
def received (p : NetProfiler) : NetProfiler :=
  match p.channels with
  | none => p
  | some ch => ch.respReceiver.foldl (fun p r => p.record .direct r.1 r.2.1 r.2.2)
      { p with channels := some { ch with respReceiver := [] } }

end NetProfiler

/-- The two sums a row of `ips1` makes `update` compute, `cond.ping + pr.remote_ping` in `u16`
and `100 - factor` in `u8`, stay in their types: a debug build panics where they do not. -/
def sumsFit (cond : Condition) (pr : PingResult) : Bool :=
  decide (cond.ping.toNat + pr.remotePing.toNat ≤ 65535) && decide (lostFactor cond.lost pr.remoteLost ≤ 100)

namespace NetProfiler

/-- `update` as a debug build runs it: it panics, here `none`, once a row of `ips1` makes a
sum overflow. -/
def updateDebug (p : NetProfiler) (cond : Condition) (now : Nat) : Option NetProfiler :=
  match p.channels with
  | none => some p
  | some _ =>
    if (p.received.collectIps now).1.all fun ip => (p.received.set.get ip).any (sumsFit cond) then
      some (p.update cond now)
    else none

theorem answered_row_matches_rule :
    newCondition.lost.toNat ≤ 100 ∧ newCondition.ping.toNat + answeredRow.remotePing.toNat ≤ 65535 ∧
      bypassFor newCondition answeredRow = ruleBypass newCondition answeredRow :=
  ⟨by decide, by decide, bypass_matches_rule newCondition (by decide) answeredRow (by decide)⟩

/-- The relay's answer for 1.1.1.1: 65400 ms, no loss. -/
def relayReport : PingRecord := ⟨hostA, 65400, 0⟩

/-- The ping channel opens; 1.1.1.1 is checked at 0 s; `do_check`, its 100 pings answered in
40 ms each, reports 40 ms and no loss; the relay's answer arrives. -/
def overflowRun : List ProfilerOp :=
  [.init .ready, .check hostA 0, .respond hostA 40 0, readChunk relayReport.encode]

/-- The row of 1.1.1.1 once `update` has taken the direct result. -/
def overflowRow : PingResult := ⟨0, 0, 40, 0, 65400⟩

/-- At reachable values the `u16` sum overflows: a debug build panics, and a release build wraps
the sum and sends no bypass, as the rule does. -/
theorem proxy_ping_exceeds_u16 :
    doCheck hostA (fun _ => some 40) = (hostA, 40, 0) ∧
    ∃ p, (new true).run overflowRun = some p ∧ p.updateDebug newCondition (10 ^ 9) = none ∧
      (p.update newCondition (10 ^ 9)).set.get hostA = some overflowRow ∧ overflowRow.isComplete = true ∧
      65535 < newCondition.ping.toNat + overflowRow.remotePing.toNat ∧
      (p.update newCondition (10 ^ 9)).channels.map (·.ipsetSender.sent) = some [(hostA, false)] ∧
      ruleBypass newCondition overflowRow = false := by
  refine ⟨by rw [doCheck, probeLoop_const 40 99]; rfl,
    { ((((new true).init .ready).check hostA 0).respond hostA 40 0).applyRecord relayReport with recvBuffer := [] },
    ?_, rfl, by decide⟩
  rw [show overflowRun = [.init .ready, .check hostA 0, .respond hostA 40 0] ++ [readChunk relayReport.encode] from rfl,
    run_append, show (new true).run [.init .ready, .check hostA 0, .respond hostA 40 0] =
      some ((((new true).init .ready).check hostA 0).respond hostA 40 0) from rfl, Option.some_bind]
  exact run_readChunk_encode _ (by decide) rfl relayReport

end NetProfiler

end TrojanRs
