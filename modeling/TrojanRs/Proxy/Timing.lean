import TrojanRs.Proxy.Rows
import TrojanRs.Proxy.Update

/-! How often the profiler asks: `check` refreshes `last_time` when it forwards an address,
and `update` never does. -/

namespace TrojanRs

set_option autoImplicit false

/-- The row of `ip` was last refreshed between `t₁` and `t₂`. -/
def Stamped (ip : IpAddr) (t₁ t₂ : Nat) (r : Rows) : Prop :=
  ∃ pr, (ip, pr) ∈ r.1.entries ∧ t₁ ≤ pr.lastTime ∧ pr.lastTime ≤ t₂

theorem PingSet.touch_lastTime (t : PingSet) (ip : IpAddr) (now : Nat) :
    ∃ pr, (ip, pr) ∈ (t.touch ip now).entries ∧ pr.lastTime = now := by
  by_cases h : ip ∈ t.keys
  · obtain ⟨pr, hpr⟩ := (t.mem_keys_iff ip).mp h
    exact ⟨{ pr with lastTime := now },
      (t.mem_touch_iff ip now ip _).mpr (.inl ⟨pr, hpr, (if_pos rfl).symm⟩), rfl⟩
  · exact ⟨{ PingResult.default now with lastTime := now },
      (t.mem_touch_iff ip now ip _).mpr (.inr ⟨rfl, h, rfl⟩), rfl⟩

section Stamped
variable {ip : IpAddr} {t₁ t₂ : Nat} {r r' : Rows}

theorem RowStep.stamped (h : RowStep (fun t => t₁ ≤ t ∧ t ≤ t₂) r r') (hs : Stamped ip t₁ t₂ r) :
    Stamped ip t₁ t₂ r' := by
  obtain ⟨pr, hpr, hlo, hhi⟩ := hs
  cases h with
  | write t log probe ip' lost ping _ =>
    refine ⟨_, (t.mem_modify_iff ip' _ ip _).mpr ⟨pr, hpr, rfl⟩, ?_⟩
    split <;> simpa using ⟨hlo, hhi⟩
  | miss => exact ⟨pr, hpr, hlo, hhi⟩
  | touch t log ip' now hnow =>
    refine ⟨_, (t.mem_touch_iff ip' now ip _).mpr (.inl ⟨pr, hpr, rfl⟩), ?_⟩
    split
    · exact hnow
    · exact ⟨hlo, hhi⟩

theorem RowSteps.stamped (h : RowSteps (fun t => t₁ ≤ t ∧ t ≤ t₂) r r') (hs : Stamped ip t₁ t₂ r) :
    Stamped ip t₁ t₂ r' := by
  induction h with
  | refl => exact hs
  | tail _ step ih => exact step.stamped ih

end Stamped

namespace NetProfiler

/-- What the check routine has been sent. -/
def probes (p : NetProfiler) : List IpAddr := (p.channels.map (·.checkSender.sent)).getD []

/-- `check` forwards `ip` to the check routine. -/
def Forwards (p : NetProfiler) (ip : IpAddr) (now : Nat) : Prop :=
  (p.check ip now).probes = p.probes ++ [ip]

instance (p : NetProfiler) (ip : IpAddr) (now : Nat) : Decidable (p.Forwards ip now) :=
  inferInstanceAs (Decidable (_ = _))

theorem probes_ne_append (l : List IpAddr) (ip : IpAddr) : l ≠ l ++ [ip] := fun h => by
  simpa using congrArg List.length h

theorem check_of_forwards {p : NetProfiler} {ip : IpAddr} {now : Nat} (h : p.Forwards ip now) :
    p.recentlyChecked ip now = false ∧ (p.check ip now).set = p.set.touch ip now := by
  unfold Forwards check at h
  unfold check
  split at h
  · exact absurd h (probes_ne_append _ ip)
  · split at h
    · exact absurd h (probes_ne_append _ ip)
    · rename_i hrec
      refine ⟨by simpa using hrec, ?_⟩
      split at h
      · rw [if_neg hrec]; simp
      · simp [probes, *] at h

theorem check_forwards_hourly (p : NetProfiler) (ip : IpAddr) (t₁ t₂ : Nat) (ht : t₁ ≤ t₂)
    (ops : List ProfilerOp) (q : NetProfiler) (h₁ : p.Forwards ip t₁)
    (hrun : (p.check ip t₁).run ops = some q)
    (hclock : ∀ op ∈ ops, ∀ t, op.now? = some t → t₁ ≤ t ∧ t ≤ t₂) (h₂ : q.Forwards ip t₂) :
    3600 * 10 ^ 9 ≤ t₂ - t₁ := by
  have hs : Stamped ip t₁ t₂ (p.check ip t₁).rows := by
    obtain ⟨pr, hpr, hlast⟩ := p.set.touch_lastTime ip t₁
    refine ⟨pr, ?_, by omega, by omega⟩
    rw [rows, (check_of_forwards h₁).2]
    exact hpr
  obtain ⟨pr, hpr, hlo, hhi⟩ := (run_rows ops _ q hrun hclock).stamped hs
  have hget : q.set.get ip = some pr := (PingSet.get_eq_some_iff _ _ _).mpr hpr
  have hold : ¬ elapsedSecs pr.lastTime t₂ < 3600 := by
    simpa [recentlyChecked, hget] using (check_of_forwards h₂).1
  unfold elapsedSecs at hold
  omega

/-- `check` forwards an address at most once an hour, while each `update` re-requests the stale rows
of the table's last run of incomplete rows and leaves every `last_time` as it was. -/
theorem request_spacing :
    (∀ (p : NetProfiler) (ip : IpAddr) (t₁ t₂ : Nat), t₁ ≤ t₂ → ∀ (ops : List ProfilerOp) (q : NetProfiler),
      p.Forwards ip t₁ → (p.check ip t₁).run ops = some q →
      (∀ op ∈ ops, ∀ t, op.now? = some t → t₁ ≤ t ∧ t ≤ t₂) → q.Forwards ip t₂ → 3600 * 10 ^ 9 ≤ t₂ - t₁) ∧
    (∀ (p : NetProfiler) (cond : Condition) (now : Nat) (ch : Channels), p.channels = some ch →
      ch.respReceiver = [] → ∀ pre run post : List (IpAddr × PingResult), p.set.entries = pre ++ run ++ post →
      (∀ e ∈ pre.getLast?, e.2.isComplete = true) → run ≠ [] → (∀ e ∈ run, e.2.isComplete = false) →
      (∀ e ∈ post, e.2.isComplete = true) →
      (p.update cond now).outgoing = p.outgoing ++ ((run.filterMap fun e =>
          if elapsedSecs e.2.lastTime now > 100 then some e.1 else none).map ipRequest).flatten ∧
        (p.update cond now).set = p.set) :=
  ⟨check_forwards_hourly, update_requests_last_incomplete_run⟩

/-- An hour of quiet after the first check. -/
def quietHour : List ProfilerOp := [.update ⟨200, 3⟩ (1800 * 10 ^ 9)]

/-- The profiler of `new(true)` with the ping channel open and one row, checked at 0 s and
never answered. -/
def staleTable : NetProfiler :=
  { (new true).init .ready with set := ⟨[(checkedAddr, PingResult.default 0)], List.nodup_singleton _⟩ }

theorem hourly_recheck_forwarded :
    (∃ q, ((new true).check checkedAddr 0).run quietHour = some q ∧
      q.Forwards checkedAddr (3600 * 10 ^ 9) ∧ 3600 * 10 ^ 9 ≤ 3600 * 10 ^ 9 - 0) ∧
    (staleTable.update ⟨200, 3⟩ (101 * 10 ^ 9)).outgoing = staleTable.outgoing ++
        (([(checkedAddr, PingResult.default 0)].filterMap fun e =>
          if elapsedSecs e.2.lastTime (101 * 10 ^ 9) > 100 then some e.1 else none).map ipRequest).flatten ∧
      (staleTable.update ⟨200, 3⟩ (101 * 10 ^ 9)).set = staleTable.set :=
  ⟨⟨_, rfl, by decide, request_spacing.1 (new true) checkedAddr 0 (3600 * 10 ^ 9) (Nat.zero_le _)
    quietHour _ (by decide) rfl (by simp [quietHour, ProfilerOp.now?]) (by decide)⟩,
    request_spacing.2 staleTable ⟨200, 3⟩ (101 * 10 ^ 9) _ rfl rfl [] [(checkedAddr, PingResult.default 0)] []
      rfl (by decide) (by decide) (by decide) (by decide)⟩

/-- The ping channel opens and the address is checked at 0 s; its row stays
incomplete while `update` runs at 101 s and at 102 s. -/
def staleRun : List ProfilerOp :=
  [.init .ready, .check checkedAddr 0, .update ⟨200, 3⟩ (101 * 10 ^ 9),
    .update ⟨200, 3⟩ (102 * 10 ^ 9)]

theorem stale_row_requested_twice :
    ((new true).run (staleRun.take 3)).map (·.conn) =
        some (some ⟨pingRequest ++ ipRequest checkedAddr ++ ipRequest checkedAddr⟩) ∧
      ((new true).run staleRun).map (·.conn) = some (some ⟨pingRequest ++ ipRequest checkedAddr ++
        ipRequest checkedAddr ++ ipRequest checkedAddr⟩) := by
  decide

end NetProfiler

end TrojanRs
