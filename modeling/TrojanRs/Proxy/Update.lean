import TrojanRs.Proxy.NetProfiler

/-! Which rows `update` reports: of each kind, the rows of the last run of that kind only,
`ips1` for the decisions and `ips0` for the relay's requests. -/

namespace TrojanRs

set_option autoImplicit false

section GroupBy
variable {α : Type} (key : α → Nat)

theorem groupCons_append (a : α) {gs : List (Nat × List α)} (hgs : gs ≠ []) (hs : List (Nat × List α)) :
    groupCons key a (gs ++ hs) = groupCons key a gs ++ hs := by
  match gs, hgs with
  | (k, g) :: gs, _ => simp only [List.cons_append, groupCons]; split <;> rfl

theorem groupBy_cons (a : α) (as : List α) : ∃ g gs, groupBy key (a :: as) = (key a, g) :: gs := by
  simp only [groupBy]
  cases groupBy key as with
  | nil => exact ⟨[a], [], rfl⟩
  | cons g gs =>
    obtain ⟨k, g⟩ := g
    by_cases hk : key a = k
    · exact ⟨a :: g, gs, by simp [groupCons, hk]⟩
    · exact ⟨[a], (k, g) :: gs, by simp [groupCons, hk]⟩

theorem groupBy_const {k : Nat} {l : List α} (hne : l ≠ []) (hk : ∀ x ∈ l, key x = k) :
    groupBy key l = [(k, l)] := by
  induction l with
  | nil => exact absurd rfl hne
  | cons a as ih =>
    have ha : key a = k := hk a (List.mem_cons_self _ _)
    cases as with
    | nil => simp [groupBy, groupCons, ha]
    | cons b bs =>
      rw [groupBy, ih (List.cons_ne_nil _ _) fun x hx => hk x (List.mem_cons_of_mem _ hx)]
      simp [groupCons, ha]

theorem groupBy_append {l₁ l₂ : List α}
    (h : ∀ a ∈ l₁.getLast?, ∀ b ∈ l₂.head?, key a ≠ key b) :
    groupBy key (l₁ ++ l₂) = groupBy key l₁ ++ groupBy key l₂ := by
  induction l₁ with
  | nil => rfl
  | cons a as ih =>
    cases as with
    | nil =>
      cases l₂ with
      | nil => rfl
      | cons b bs =>
        obtain ⟨g, gs, hb⟩ := groupBy_cons key b bs
        have hab : key a ≠ key b := h a rfl b rfl
        show groupCons key a (groupBy key (b :: bs)) = groupCons key a [] ++ groupBy key (b :: bs)
        rw [hb]
        simp [groupCons, hab]
    | cons b bs =>
      have ih := ih fun x hx y hy => h x (by simpa [List.getLast?_cons_cons] using hx) y hy
      obtain ⟨g, gs, hg⟩ := groupBy_cons key b bs
      show groupCons key a (groupBy key (b :: bs ++ l₂)) =
        groupCons key a (groupBy key (b :: bs)) ++ groupBy key l₂
      rw [ih, hg, groupCons_append key a (List.cons_ne_nil _ _)]

theorem groupBy_split (pre run post : List α) {k k' : Nat} (hkk : k ≠ k')
    (hpre : ∀ e ∈ pre.getLast?, key e ≠ k) (hne : run ≠ []) (hrun : ∀ e ∈ run, key e = k)
    (hpost : ∀ e ∈ post, key e = k') :
    groupBy key (pre ++ run ++ post) = groupBy key pre ++ [(k, run)] ++ groupBy key post := by
  have hlast : (pre ++ run).getLast? = run.getLast? := by
    rw [List.getLast?_append, Option.or_of_isSome (by simpa [List.getLast?_isSome] using hne)]
  rw [groupBy_append key, groupBy_append key, groupBy_const key hne hrun]
  · intro a ha b hb
    rw [hrun b (List.mem_of_mem_head? hb)]
    exact hpre a ha
  · intro a ha b hb
    rw [hlast] at ha
    rw [hrun a (List.mem_of_mem_getLast? ha), hpost b (List.mem_of_mem_head? hb)]
    exact hkk

end GroupBy

namespace NetProfiler

@[simp] theorem sendBypass_set (cond : Condition) (p : NetProfiler) (ip : IpAddr) :
    (p.sendBypass cond ip).set = p.set := by
  unfold sendBypass; split <;> rfl

theorem foldl_sendRemoteIp_set_channels (ips : List IpAddr) (p : NetProfiler) :
    (ips.foldl sendRemoteIp p).set = p.set ∧ (ips.foldl sendRemoteIp p).channels = p.channels := by
  induction ips generalizing p with
  | nil => exact ⟨rfl, rfl⟩
  | cons ip ips ih => simpa using ih (p.sendRemoteIp ip)

theorem foldl_sendBypass_channels (cond : Condition) (rows : List (IpAddr × PingResult))
    (p : NetProfiler) (ch : Channels) (hch : p.channels = some ch)
    (halive : ch.ipsetSender.alive = true) (hrows : ∀ e ∈ rows, p.set.get e.1 = some e.2) :
    ((rows.map Prod.fst).foldl (sendBypass cond) p).channels =
      some { ch with ipsetSender := { ch.ipsetSender with
        sent := ch.ipsetSender.sent ++ rows.map fun e => (e.1, bypassFor cond e.2) } } := by
  induction rows generalizing p ch with
  | nil => simpa using hch
  | cons e rows ih =>
    have he := hrows e (List.mem_cons_self _ _)
    have hstep : (p.sendBypass cond e.1).channels = some { ch with ipsetSender :=
        { ch.ipsetSender with sent := ch.ipsetSender.sent ++ [(e.1, bypassFor cond e.2)] } } := by
      simp [sendBypass, hch, he, Sender.send, halive]
    rw [List.map_cons, List.foldl_cons, ih _ _ hstep halive fun e' he' => by
      simpa using hrows e' (List.mem_cons_of_mem _ he')]
    simp

theorem collectIps_fst (p : NetProfiler) (now : Nat) (pre run post : List (IpAddr × PingResult))
    (hrows : p.set.entries = pre ++ run ++ post)
    (hpre : ∀ e ∈ pre.getLast?, e.2.isComplete = false) (hne : run ≠ [])
    (hrun : ∀ e ∈ run, e.2.isComplete = true) (hpost : ∀ e ∈ post, e.2.isComplete = false) :
    (p.collectIps now).1 = run.map Prod.fst := by
  have hkpost : ∀ e ∈ post, completeKey e = 0 := fun e he => by simp [completeKey, hpost e he]
  have hgroups := groupBy_split completeKey pre run post (k := 1) (by decide)
    (fun e he => by simp [completeKey, hpre e he]) hne (fun e he => by simp [completeKey, hrun e he]) hkpost
  have hpostg : ∀ acc, ((groupBy completeKey post).foldl (collectGroup now) acc).1 = acc.1 := by
    intro acc
    by_cases hp : post = []
    · simp [hp, groupBy]
    · rw [groupBy_const completeKey hp hkpost]
      simp [collectGroup]
  rw [collectIps, hrows, hgroups, List.foldl_append, hpostg, List.foldl_append]
  simp [collectGroup]

theorem collectIps_snd (p : NetProfiler) (now : Nat) (pre run post : List (IpAddr × PingResult))
    (hrows : p.set.entries = pre ++ run ++ post)
    (hpre : ∀ e ∈ pre.getLast?, e.2.isComplete = true) (hne : run ≠ [])
    (hrun : ∀ e ∈ run, e.2.isComplete = false) (hpost : ∀ e ∈ post, e.2.isComplete = true) :
    (p.collectIps now).2 = run.filterMap fun e => if elapsedSecs e.2.lastTime now > 100 then some e.1 else none := by
  have hkpost : ∀ e ∈ post, completeKey e = 1 := fun e he => by simp [completeKey, hpost e he]
  have hgroups := groupBy_split completeKey pre run post (k := 0) (by decide)
    (fun e he => by simp [completeKey, hpre e he]) hne (fun e he => by simp [completeKey, hrun e he]) hkpost
  have hpostg : ∀ acc, ((groupBy completeKey post).foldl (collectGroup now) acc).2 = acc.2 := by
    intro acc
    by_cases hp : post = []
    · simp [hp, groupBy]
    · rw [groupBy_const completeKey hp hkpost]
      simp [collectGroup]
  rw [collectIps, hrows, hgroups, List.foldl_append, hpostg, List.foldl_append]
  simp [collectGroup]

/-- With no result waiting, `update` sends a decision for exactly the rows of the table's last run
of complete rows, in order. -/
theorem update_sends_last_complete_run (p : NetProfiler) (cond : Condition) (now : Nat)
    (ch : Channels) (hch : p.channels = some ch) (hidle : ch.respReceiver = [])
    (halive : ch.ipsetSender.alive = true) (pre run post : List (IpAddr × PingResult))
    (hrows : p.set.entries = pre ++ run ++ post)
    (hpre : ∀ e ∈ pre.getLast?, e.2.isComplete = false) (hne : run ≠ [])
    (hrun : ∀ e ∈ run, e.2.isComplete = true) (hpost : ∀ e ∈ post, e.2.isComplete = false) :
    (p.update cond now).channels.map (·.ipsetSender.sent) =
      some (ch.ipsetSender.sent ++ run.map fun e => (e.1, bypassFor cond e.2)) := by
  let q : NetProfiler := { p with channels := some { ch with respReceiver := [] } }
  have hupd : p.update cond now =
      (q.collectIps now).1.foldl (sendBypass cond) ((q.collectIps now).2.foldl sendRemoteIp q) := by
    simp only [update, hch, hidle, List.foldl_nil, q]
  obtain ⟨hset, hchan⟩ := foldl_sendRemoteIp_set_channels (q.collectIps now).2 q
  rw [hupd, collectIps_fst q now pre run post hrows hpre hne hrun hpost,
    foldl_sendBypass_channels cond run _ { ch with respReceiver := [] } hchan halive]
  · rfl
  · intro e he
    rw [hset, PingSet.get_eq_some_iff]
    exact hrows ▸ List.mem_append_left _ (List.mem_append_right _ he)

/-- A request for `ip` as `send_remote_ip` writes it: its address type and octets. -/
def ipRequest (ip : IpAddr) : List UInt8 := ip.atyp :: ip.octets

/-- The bytes the profiler has handed the ping channel's connection, then those waiting in
`send_buffer`. -/
def outgoing (p : NetProfiler) : List UInt8 := (p.conn.map (·.session)).getD [] ++ p.sendBuffer

theorem sendRemoteIp_outgoing (p : NetProfiler) (ip : IpAddr) :
    (p.sendRemoteIp ip).outgoing = p.outgoing ++ ipRequest ip := by
  unfold sendRemoteIp outgoing
  cases hc : p.conn <;> simp [hc, PingConn.writeSession, ipRequest]

theorem foldl_sendRemoteIp_outgoing (ips : List IpAddr) (p : NetProfiler) :
    (ips.foldl sendRemoteIp p).outgoing = p.outgoing ++ (ips.map ipRequest).flatten := by
  induction ips generalizing p with
  | nil => simp
  | cons ip ips ih => simp [ih, sendRemoteIp_outgoing]

theorem foldl_sendBypass_outgoing (cond : Condition) (ips : List IpAddr) (p : NetProfiler) :
    (ips.foldl (sendBypass cond) p).outgoing = p.outgoing ∧ (ips.foldl (sendBypass cond) p).set = p.set := by
  induction ips generalizing p with
  | nil => exact ⟨rfl, rfl⟩
  | cons ip ips ih =>
    refine (ih _).imp (·.trans ?_) (·.trans (sendBypass_set ..))
    unfold sendBypass outgoing
    split <;> rfl

theorem update_requests_last_incomplete_run (p : NetProfiler) (cond : Condition) (now : Nat)
    (ch : Channels) (hch : p.channels = some ch) (hidle : ch.respReceiver = [])
    (pre run post : List (IpAddr × PingResult)) (hrows : p.set.entries = pre ++ run ++ post)
    (hpre : ∀ e ∈ pre.getLast?, e.2.isComplete = true) (hne : run ≠ [])
    (hrun : ∀ e ∈ run, e.2.isComplete = false) (hpost : ∀ e ∈ post, e.2.isComplete = true) :
    (p.update cond now).outgoing = p.outgoing ++ ((run.filterMap fun e =>
        if elapsedSecs e.2.lastTime now > 100 then some e.1 else none).map ipRequest).flatten ∧
      (p.update cond now).set = p.set := by
  let q : NetProfiler := { p with channels := some { ch with respReceiver := [] } }
  have hupd : p.update cond now =
      (q.collectIps now).1.foldl (sendBypass cond) ((q.collectIps now).2.foldl sendRemoteIp q) := by
    simp only [update, hch, hidle, List.foldl_nil, q]
  obtain ⟨hout, hset⟩ := foldl_sendBypass_outgoing cond (q.collectIps now).1 ((q.collectIps now).2.foldl sendRemoteIp q)
  rw [hupd, hout, hset, foldl_sendRemoteIp_outgoing, (foldl_sendRemoteIp_set_channels _ q).1,
    collectIps_snd q now pre run post hrows hpre hne hrun hpost]
  exact ⟨rfl, rfl⟩

/-- Addresses of the tables below. -/
def hostA : IpAddr := .v4 ⟨[1, 1, 1, 1], rfl⟩

def hostB : IpAddr := .v4 ⟨[2, 2, 2, 2], rfl⟩

def hostC : IpAddr := .v4 ⟨[3, 3, 3, 3], rfl⟩

/-- A row both probes have answered (§5's bypass scenario). -/
def answeredRow : PingResult := ⟨0, 0, 40, 0, 20⟩

/-- A row checked at time 0 and never answered. -/
def unansweredRow : PingResult := PingResult.default 0

/-- The profiler of `new(true)` holding `entries`, in this iteration order. -/
def withRows (entries : List (IpAddr × PingResult)) (h : (entries.map Prod.fst).Nodup) : NetProfiler :=
  { new true with set := ⟨entries, h⟩ }

theorem adjacent_rows_reported :
    ((withRows [(hostB, unansweredRow), (hostA, answeredRow), (hostC, answeredRow)] (by decide)).update
      ⟨100, 1⟩ (200 * 10 ^ 9)).channels.map (·.ipsetSender.sent) =
      some ([] ++ [(hostA, answeredRow), (hostC, answeredRow)].map fun e => (e.1, bypassFor ⟨100, 1⟩ e.2)) :=
  update_sends_last_complete_run _ _ _ _ rfl rfl rfl [(hostB, unansweredRow)]
    [(hostA, answeredRow), (hostC, answeredRow)] [] rfl (by decide) (by decide) (by decide) (by decide)

/-- With an unanswered row between two answered ones, `update` reports only the second. -/
theorem interleaved_row_unreported :
    answeredRow.isComplete = true ∧
      ((withRows [(hostA, answeredRow), (hostB, unansweredRow), (hostC, answeredRow)] (by decide)).update
        ⟨100, 1⟩ (200 * 10 ^ 9)).channels.map (·.ipsetSender.sent) = some [(hostC, true)] := by
  decide

end NetProfiler

end TrojanRs
