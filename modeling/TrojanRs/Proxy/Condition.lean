import TrojanRs.Proxy.Probe
import TrojanRs.Proxy.Decision

/-! `CONDITION` over the life of the proxy: it starts at `ping: 200, lost: 5`, and
`NetProfiler::new(true, ..)` and the rounds of `check_server` write it, in any order. -/

namespace TrojanRs

set_option autoImplicit false

/-- The value `CONDITION` is created with. -/
def conditionStart : Condition := ⟨200, 5⟩

/-- A write of `CONDITION`: `NetProfiler::new(true, ..)`, or a round of `check_server`
with whether `lookup_host` found an IPv4 address and what the pinger answers. -/
inductive ConditionWrite where
  | profilerNew
  | checkRound (found : Bool) (ping : Nat → Option Nat)

/-- Every reply of the write's probes comes within the pinger's 999 ms timeout. -/
def ConditionWrite.WithinTimeout : ConditionWrite → Prop
  | .profilerNew => True
  | .checkRound _ ping => ∀ i < 100, ∀ c, ping i = some c → c ≤ 999

namespace Condition

/-- The condition after one write. A failed `CONDITION.write()`, on a poisoned lock, is
only logged; no writer panics while it holds the lock, so every write is taken. -/
def write (cond : Condition) : ConditionWrite → Condition
  | .profilerNew => newCondition
  | .checkRound true ping => checkServer ping
  | .checkRound false _ => cond

/-- The condition after a run of writes. -/
def run (cond : Condition) (ws : List ConditionWrite) : Condition := ws.foldl write cond

/-- What `update` needs of the condition it reads: at most 100 losses, and a ping no
longer than the pinger's timeout. -/
structure InRange (cond : Condition) : Prop where
  lost_le : cond.lost.toNat ≤ 100
  ping_le : cond.ping.toNat ≤ 999

theorem write_lost_le {cond : Condition} (h : cond.lost.toNat ≤ 100) (w : ConditionWrite) :
    (cond.write w).lost.toNat ≤ 100 := by
  cases w with
  | profilerNew => show newCondition.lost.toNat ≤ 100; decide
  | checkRound found ping =>
    cases found with
    | false => exact h
    | true => exact checkServer_lost.1.trans_le checkServer_lost.2

theorem write_inRange {cond : Condition} (h : cond.InRange) {w : ConditionWrite} (hw : w.WithinTimeout) :
    (cond.write w).InRange := by
  refine ⟨write_lost_le h.lost_le w, ?_⟩
  cases w with
  | profilerNew => show newCondition.ping.toNat ≤ 999; decide
  | checkRound found ping =>
    cases found with
    | false => exact h.ping_le
    | true => exact (checkServer_condition hw).1.trans_le (avgCost_le hw)

theorem run_lost_le {cond : Condition} (h : cond.lost.toNat ≤ 100) (ws : List ConditionWrite) :
    (cond.run ws).lost.toNat ≤ 100 := by
  induction ws generalizing cond with
  | nil => exact h
  | cons w ws ih => exact ih (write_lost_le h w)

theorem run_inRange {cond : Condition} (h : cond.InRange) {ws : List ConditionWrite}
    (hws : ∀ w ∈ ws, w.WithinTimeout) : (cond.run ws).InRange := by
  induction ws generalizing cond with
  | nil => exact h
  | cons w ws ih =>
    exact ih (write_inRange h (hws w (List.mem_cons_self w ws))) fun w' hw' => hws w' (List.mem_cons_of_mem w hw')

end Condition

/-- Over every run of writes, `update` reads at most 100 losses; with replies within the timeout,
a ping of at most 999 ms, so the `u16` sum fits for relay pings up to 64536 ms. -/
theorem condition_stays_in_range (ws : List ConditionWrite) :
    (conditionStart.run ws).lost.toNat ≤ 100 ∧
      ((∀ w ∈ ws, w.WithinTimeout) → (conditionStart.run ws).InRange ∧
        ∀ pr : PingResult, pr.remotePing.toNat ≤ 64536 →
          (conditionStart.run ws).ping.toNat + pr.remotePing.toNat ≤ 65535) := by
  have hstart : conditionStart.InRange := ⟨by decide, by decide⟩
  refine ⟨Condition.run_lost_le hstart.lost_le ws, fun hws => ?_⟩
  have h := Condition.run_inRange hstart hws
  exact ⟨h, fun pr hpr => by have := h.ping_le; omega⟩

end TrojanRs
