import TrojanRs.Proxy.NetProfiler

/-! The probe loops of `do_check` and `check_server`: 100 pings, counting the losses in
`lost_ratio` and setting `avg_cost` to `(avg_cost * i + cost) / (i + 1)`, which is not the
mean of the replies. -/

namespace TrojanRs

set_option autoImplicit false

/-- `lost_ratio` and `avg_cost` of the loop. At most 100 probes of at most 999 ms each
(the pinger's timeout) keep both far below their types' bounds, so they are `Nat`s here. -/
structure ProbeTally where
  lostRatio : Nat
  avgCost : Nat
  deriving DecidableEq

/-- The `i`-th probe: `Ok((_, cost))` joins `avg_cost`, an error counts as lost. -/
def probeStep (t : ProbeTally) (i : Nat) : Option Nat → ProbeTally
  | some cost => { t with avgCost := (t.avgCost * i + cost) / (i + 1) }
  | none => { t with lostRatio := t.lostRatio + 1 }

/-- `for i in 0..n`, the `i`-th ping answered by `ping i`: its cost in milliseconds, or
`none` when it fails. The source runs it with `n = 100`. -/
def probeLoop (ping : Nat → Option Nat) (n : Nat) : ProbeTally :=
  (List.range n).foldl (fun t i => probeStep t i (ping i)) ⟨0, 0⟩

/-- `do_check`'s message to `update`: `(ip, avg_cost as u16, lost_ratio)`. -/
def doCheck (ip : IpAddr) (ping : Nat → Option Nat) : IpAddr × UInt16 × UInt8 :=
  let t := probeLoop ping 100
  (ip, UInt16.ofNat t.avgCost, UInt8.ofNat t.lostRatio)

/-- One round of `check_server`: the condition it writes into `CONDITION`. -/
def checkServer (ping : Nat → Option Nat) : Condition :=
  let t := probeLoop ping 100
  ⟨UInt16.ofNat t.avgCost, UInt8.ofNat t.lostRatio⟩

section ProbeLoop
variable (ping : Nat → Option Nat)

theorem probeLoop_succ (n : Nat) : probeLoop ping (n + 1) = probeStep (probeLoop ping n) n (ping n) := by
  simp only [probeLoop, List.range_succ, List.foldl_append, List.foldl_cons, List.foldl_nil]

/-- The losses among the first `n` probes. -/
def losses (n : Nat) : Nat := ((List.range n).filter fun i => ping i = none).length

/-- The summed cost of the replies among the first `n` probes. -/
def replyCost : Nat → Nat
  | 0 => 0
  | n + 1 => replyCost n + (ping n).getD 0

theorem lostRatio_probeLoop (n : Nat) : (probeLoop ping n).lostRatio = losses ping n := by
  induction n with
  | zero => rfl
  | succ n ih =>
    rw [probeLoop_succ, losses, List.range_succ, List.filter_append, List.length_append, ← losses, ← ih]
    cases h : ping n <;> simp [probeStep, h]

variable {ping}

theorem avgCost_le {n M : Nat} (hM : ∀ i < n, ∀ c, ping i = some c → c ≤ M) :
    (probeLoop ping n).avgCost ≤ M := by
  induction n with
  | zero => exact Nat.zero_le _
  | succ n ih =>
    have hle := ih fun i hi => hM i (by omega)
    rw [probeLoop_succ]
    cases hc : ping n with
    | none => exact hle
    | some c =>
      refine Nat.div_le_of_le_mul ?_
      calc (probeLoop ping n).avgCost * n + c ≤ M * n + M :=
            Nat.add_le_add (Nat.mul_le_mul_right n hle) (hM n (by omega) c hc)
        _ = (n + 1) * M := by rw [Nat.succ_mul, Nat.mul_comm]

theorem mul_le_avgCost {n m : Nat} (hm : ∀ i < n, ∃ c, ping i = some c ∧ m ≤ c) :
    m * n ≤ (probeLoop ping n).avgCost * n := by
  induction n with
  | zero => rfl
  | succ n ih =>
    have hle := ih fun i hi => hm i (by omega)
    obtain ⟨c, hc, hmc⟩ := hm n (by omega)
    rw [probeLoop_succ, hc]
    refine Nat.mul_le_mul_right _ ((Nat.le_div_iff_mul_le (Nat.succ_pos n)).mpr ?_)
    rw [Nat.mul_succ]
    exact Nat.add_le_add hle hmc

theorem avgCost_mul_le {n : Nat} (hn : ∀ i < n, ping i ≠ none) :
    (probeLoop ping n).avgCost * n ≤ replyCost ping n := by
  induction n with
  | zero => rfl
  | succ n ih =>
    have hle := ih fun i hi => hn i (by omega)
    obtain ⟨c, hc⟩ := Option.ne_none_iff_exists'.mp (hn n (by omega))
    rw [probeLoop_succ, hc, replyCost, hc]
    exact Nat.le_trans (Nat.div_mul_le_self _ _) (Nat.add_le_add_right hle c)

theorem probeLoop_const (c n : Nat) : probeLoop (fun _ => some c) (n + 1) = ⟨0, c⟩ := by
  induction n with
  | zero =>
    rw [probeLoop_succ]
    simp [probeStep, probeLoop]
  | succ n ih =>
    rw [probeLoop_succ, ih]
    simp only [probeStep, ProbeTally.mk.injEq, true_and]
    rw [← Nat.mul_succ, Nat.mul_div_cancel _ (Nat.succ_pos _)]

theorem checkServer_lost : (checkServer ping).lost.toNat = losses ping 100 ∧ losses ping 100 ≤ 100 := by
  have hlost : losses ping 100 ≤ 100 := (List.length_filter_le _ _).trans_eq (List.length_range 100)
  refine ⟨?_, hlost⟩
  rw [← lostRatio_probeLoop] at hlost ⊢
  exact UInt8.toNat_ofNat_of_lt (show _ < 256 by omega)

theorem checkServer_condition (h : ∀ i < 100, ∀ c, ping i = some c → c ≤ 999) :
    (checkServer ping).ping.toNat = (probeLoop ping 100).avgCost ∧
      (checkServer ping).lost.toNat = losses ping 100 ∧ losses ping 100 ≤ 100 :=
  have havg := avgCost_le h
  ⟨UInt16.toNat_ofNat_of_lt (show _ < 65536 by omega), checkServer_lost⟩

end ProbeLoop

/-- `lost_ratio` counts the losses, `avg_cost` is at most the largest reply, and without losses it
lies between the smallest reply and the mean of the 100, rounded down. -/
theorem probe_loop_tally (ping : Nat → Option Nat) :
    (probeLoop ping 100).lostRatio = losses ping 100 ∧
    (∀ M, (∀ i < 100, ∀ c, ping i = some c → c ≤ M) → (probeLoop ping 100).avgCost ≤ M) ∧
    ((∀ i < 100, ping i ≠ none) →
      (∀ m, (∀ i < 100, ∀ c, ping i = some c → m ≤ c) → m ≤ (probeLoop ping 100).avgCost) ∧
      (probeLoop ping 100).avgCost ≤ replyCost ping 100 / 100) := by
  refine ⟨lostRatio_probeLoop ping 100, fun M hM => avgCost_le hM, fun hn => ⟨fun m hm => ?_, ?_⟩⟩
  · refine Nat.le_of_mul_le_mul_right (mul_le_avgCost fun i hi => ?_) (Nat.succ_pos 99)
    obtain ⟨c, hc⟩ := Option.ne_none_iff_exists'.mp (hn i hi)
    exact ⟨c, hc, hm i hi c hc⟩
  · exact (Nat.le_div_iff_mul_le (Nat.succ_pos 99)).mpr (avgCost_mul_le hn)

/-- The first ping is lost and the other 99 take 10 ms each. -/
def firstProbeLost (i : Nat) : Option Nat := if i = 0 then none else some 10

set_option maxRecDepth 4000 in
/-- With the first probe lost and 99 replies of 10 ms, `avg_cost` ends at 7 ms, while
the replies' mean is 10 ms. -/
theorem first_probe_lost_skews_average :
    probeLoop firstProbeLost 100 = ⟨1, 7⟩ ∧
      replyCost firstProbeLost 100 / (100 - losses firstProbeLost 100) = 10 := by
  decide

end TrojanRs
