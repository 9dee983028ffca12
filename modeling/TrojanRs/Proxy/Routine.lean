import TrojanRs.Proxy.Probe
import TrojanRs.Proxy.Timing
import TrojanRs.Proxy.Decision

/-! The check routine with the profiler: `start_request`, the `do_check` tasks and
`start_response` as one system with `NetProfiler`, their steps interleaved in any order. -/

namespace TrojanRs

set_option autoImplicit false

/-- An ipset of type `hash:ip` as an `ipset::Session` sees it: its members, each once. -/
structure IpSet where
  ips : List IpAddr
  nodup : ips.Nodup

namespace IpSet

/-- The set after `session.flush()`. -/
def empty : IpSet := ⟨[], List.nodup_nil⟩

/-- `session.test(ip)`: `Ok(true)` for a member. -/
def test (s : IpSet) (ip : IpAddr) : Bool := decide (ip ∈ s.ips)

/-- `session.add(ip)`; adding a member fails and leaves the set as it was. -/
def add (s : IpSet) (ip : IpAddr) : IpSet := ⟨s.ips.insert ip, s.nodup.insert⟩

/-- `session.del(ip)`; deleting a non-member fails and leaves the set as it was. -/
def del (s : IpSet) (ip : IpAddr) : IpSet := ⟨s.ips.erase ip, s.nodup.erase ip⟩

variable (s : IpSet) (ip ip' : IpAddr)

theorem mem_add : ip' ∈ (s.add ip).ips ↔ ip' = ip ∨ ip' ∈ s.ips := List.mem_insert_iff

theorem mem_del : ip' ∈ (s.del ip).ips ↔ ip' ≠ ip ∧ ip' ∈ s.ips := s.nodup.mem_erase_iff

end IpSet

/-- `start_request`: how many addresses it has taken from `check_sender`, the identifier
the next `do_check` gets, and the tasks it spawned that have not yet sent their result. -/
structure RequestRoutine where
  received : Nat
  id : UInt16
  tasks : List (IpAddr × UInt16)

/-- One turn of `start_request`'s loop on the next address. -/
def RequestRoutine.receive (nobypass : IpSet) (r : RequestRoutine) (ip : IpAddr) : RequestRoutine :=
  if nobypass.test ip then { r with received := r.received + 1 }
  else ⟨r.received + 1, r.id + 1, r.tasks ++ [(ip, r.id)]⟩

/-- `start_response`: how many decisions it has taken from `ipset_sender`, and its
session's bypass ipset. -/
structure ResponseRoutine where
  received : Nat
  ipset : IpSet

/-- A decision `(ip, add)` on the bypass ipset: `session.add(ip)` or `session.del(ip)`. -/
def ResponseRoutine.apply (s : IpSet) (m : IpAddr × Bool) : IpSet :=
  if m.2 then s.add m.1 else s.del m.1

/-- One turn of `start_response`'s loop on the next decision. -/
def ResponseRoutine.receive (r : ResponseRoutine) (m : IpAddr × Bool) : ResponseRoutine :=
  ⟨r.received + 1, apply r.ipset m⟩

/-- The profiler with its check routine. -/
structure CheckSystem where
  profiler : NetProfiler
  request : RequestRoutine
  response : ResponseRoutine

/-- One step of the system: a call on the profiler, a turn of either loop, or the end
of the task `do_check(ip, id)` with its probes' outcomes. -/
inductive CheckOp where
  | init (pool : PoolReply)
  | check (ip : IpAddr) (now : Nat)
  | update (cond : Condition) (now : Nat)
  | ready (event : ReadyEvent)
  | request
  | finish (ip : IpAddr) (id : UInt16) (ping : Nat → Option Nat)
  | response

namespace NetProfiler

/-- The direct results waiting in `resp_receiver`. -/
def results (p : NetProfiler) : List (IpAddr × UInt16 × UInt8) :=
  (p.channels.map (·.respReceiver)).getD []

/-- What `update` has sent on `ipset_sender`. -/
def decisions (p : NetProfiler) : List (IpAddr × Bool) :=
  (p.channels.map (·.ipsetSender.sent)).getD []

end NetProfiler

/-- The address of a log line of a direct measurement written into its row. -/
def LogLine.directIp? : LogLine → Option IpAddr
  | .result .direct ip _ _ => some ip
  | _ => none

/-- The addresses of the direct measurements written into rows, in the log's order. -/
def directIps (log : List LogLine) : List IpAddr := log.filterMap LogLine.directIp?

theorem mem_directIps {log : List LogLine} {ip : IpAddr} : ip ∈ directIps log ↔ Measured log .direct ip := by
  simp only [directIps, List.mem_filterMap, Measured]
  constructor
  · rintro ⟨l, hl, h⟩
    match l, h with
    | .result .direct _ lost ping, rfl => exact ⟨lost, ping, hl⟩
  · rintro ⟨lost, ping, h⟩
    exact ⟨_, h, rfl⟩

@[simp] theorem record_keys (p : NetProfiler) (probe : Probe) (ip : IpAddr) (ping : UInt16) (lost : UInt8) :
    (p.record probe ip ping lost).set.keys = p.set.keys := by
  unfold NetProfiler.record; split <;> simp

theorem record_relay_directIps (p : NetProfiler) (ip : IpAddr) (ping : UInt16) (lost : UInt8) :
    directIps (p.record .relay ip ping lost).log = directIps p.log := by
  unfold NetProfiler.record; split <;> simp [directIps, LogLine.directIp?]

theorem foldl_record_direct (rs : List (IpAddr × UInt16 × UInt8)) (p : NetProfiler)
    (h : ∀ r ∈ rs, r.1 ∈ p.set.keys) :
    let q := rs.foldl (fun p r => p.record .direct r.1 r.2.1 r.2.2) p
    directIps q.log = directIps p.log ++ rs.map (·.1) ∧ q.channels = p.channels ∧ q.set.keys = p.set.keys := by
  induction rs generalizing p with
  | nil => simp
  | cons r rs ih =>
    have hr : directIps (p.record .direct r.1 r.2.1 r.2.2).log = directIps p.log ++ [r.1] := by
      simp [NetProfiler.record, h r (List.mem_cons_self _ _), directIps, LogLine.directIp?]
    obtain ⟨hlog, hch, hkeys⟩ := ih (p.record .direct r.1 r.2.1 r.2.2) fun r' hr' => by
      simpa using h r' (List.mem_cons_of_mem _ hr')
    simp only [List.foldl_cons, List.map_cons]
    exact ⟨by rw [hlog, hr, List.append_assoc, List.singleton_append], by simpa using hch, by simpa using hkeys⟩

section GroupBy
variable {α : Type} (key : α → Nat)

theorem mem_groupBy {l : List α} {k : Nat} {g : List α} (h : (k, g) ∈ groupBy key l) :
    ∀ a ∈ g, key a = k ∧ a ∈ l := by
  induction l generalizing k g with
  | nil => cases h
  | cons b l ih =>
    simp only [groupBy] at h
    unfold groupCons at h
    split at h
    · rename_i k' g' gs hgs
      split at h
      · rcases List.mem_cons.mp h with h | h
        · obtain ⟨rfl, rfl⟩ := Prod.mk.inj h
          rintro a (_ | ⟨_, ha⟩)
          · exact ⟨‹_›, List.mem_cons_self _ _⟩
          · have := ih (hgs ▸ List.mem_cons_self _ _) a ha
            exact ⟨this.1, List.mem_cons_of_mem _ this.2⟩
        · exact fun a ha => (ih (hgs ▸ List.mem_cons_of_mem _ h) a ha).imp_right (List.mem_cons_of_mem _)
      · rcases List.mem_cons.mp h with h | h
        · obtain ⟨rfl, rfl⟩ := Prod.mk.inj h
          simp
        · exact fun a ha => (ih (hgs ▸ h) a ha).imp_right (List.mem_cons_of_mem _)
    · obtain ⟨rfl, rfl⟩ := Prod.mk.inj (List.mem_singleton.mp h)
      simp

end GroupBy

theorem mem_foldl_collectGroup (now : Nat) (gs : List (Nat × List (IpAddr × PingResult)))
    (acc : List IpAddr × List IpAddr) {ip : IpAddr} (h : ip ∈ (gs.foldl (collectGroup now) acc).1) :
    ip ∈ acc.1 ∨ ∃ g ∈ gs, g.1 = 1 ∧ ip ∈ g.2.map Prod.fst := by
  induction gs generalizing acc with
  | nil => exact .inl h
  | cons g gs ih =>
    rcases ih _ h with h | ⟨g', hg', hk, hip⟩
    · unfold collectGroup at h
      split at h
      · exact .inr ⟨g, List.mem_cons_self _ _, ‹_›, h⟩
      · exact .inl h
    · exact .inr ⟨g', List.mem_cons_of_mem _ hg', hk, hip⟩

theorem mem_collectIps_fst {p : NetProfiler} {now : Nat} {ip : IpAddr} (h : ip ∈ (p.collectIps now).1) :
    ∃ pr, (ip, pr) ∈ p.set.entries ∧ pr.isComplete = true := by
  rcases mem_foldl_collectGroup now _ _ h with h | ⟨g, hg, hk, hip⟩
  · cases h
  · obtain ⟨e, he, rfl⟩ := List.mem_map.mp hip
    have hg' : (1, g.2) ∈ groupBy completeKey p.set.entries := by rw [← hk]; exact hg
    obtain ⟨hke, hmem⟩ := mem_groupBy completeKey hg' e he
    refine ⟨e.2, hmem, ?_⟩
    unfold completeKey at hke
    split at hke
    · assumption
    · cases hke

namespace NetProfiler

theorem foldl_sendBypass_sent (cond : Condition) (ips : List IpAddr) (p : NetProfiler) (ch : Channels)
    (hch : p.channels = some ch) :
    ∃ l, (ips.foldl (sendBypass cond) p).channels =
      some { ch with ipsetSender := { ch.ipsetSender with sent := ch.ipsetSender.sent ++ l } } ∧
      ∀ m ∈ l, m.1 ∈ ips ∧ ∃ pr, p.set.get m.1 = some pr ∧ m.2 = bypassFor cond pr := by
  induction ips generalizing p ch with
  | nil => exact ⟨[], by simpa using hch, fun _ h => absurd h (List.not_mem_nil _)⟩
  | cons ip ips ih =>
    have hstep : ∃ l, (p.sendBypass cond ip).channels =
        some { ch with ipsetSender := { ch.ipsetSender with sent := ch.ipsetSender.sent ++ l } } ∧
        ∀ m ∈ l, m.1 = ip ∧ ∃ pr, p.set.get m.1 = some pr ∧ m.2 = bypassFor cond pr := by
      unfold sendBypass
      rw [hch]
      split
      · rename_i ch' pr h hget
        cases h
        unfold Sender.send
        split
        · exact ⟨[(ip, bypassFor cond pr)], rfl, by simp [hget]⟩
        · exact ⟨[], by simp, by simp⟩
      · exact ⟨[], by simp [hch], by simp⟩
    obtain ⟨l₁, h₁, hl₁⟩ := hstep
    obtain ⟨l₂, h₂, hl₂⟩ := ih _ _ h₁
    refine ⟨l₁ ++ l₂, by simpa using h₂, fun m hm => ?_⟩
    rcases List.mem_append.mp hm with hm | hm
    · obtain ⟨he, hpr⟩ := hl₁ m hm
      exact ⟨he ▸ List.mem_cons_self _ _, hpr⟩
    · obtain ⟨hmem, hpr⟩ := hl₂ m hm
      exact ⟨List.mem_cons_of_mem _ hmem, by simpa using hpr⟩

theorem update_spec (p : NetProfiler) (cond : Condition) (now : Nat) (ch : Channels)
    (hch : p.channels = some ch) (hrows : ∀ r ∈ ch.respReceiver, r.1 ∈ p.set.keys) :
    ∃ l, (p.update cond now).channels = some
        { ch with respReceiver := [], ipsetSender := { ch.ipsetSender with sent := ch.ipsetSender.sent ++ l } } ∧
      (∀ m ∈ l, ∃ pr, (m.1, pr) ∈ (p.update cond now).set.entries ∧ pr.isComplete = true ∧ m.2 = bypassFor cond pr) ∧
      directIps (p.update cond now).log = directIps p.log ++ ch.respReceiver.map (·.1) := by
  let q := ch.respReceiver.foldl (fun p r => p.record .direct r.1 r.2.1 r.2.2)
    { p with channels := some { ch with respReceiver := [] } }
  obtain ⟨hlog, hqch, -⟩ := foldl_record_direct ch.respReceiver { p with channels := some { ch with respReceiver := [] } } hrows
  have hupd : p.update cond now = (q.collectIps now).1.foldl (sendBypass cond) ((q.collectIps now).2.foldl sendRemoteIp q) := by
    simp only [update, hch]
  obtain ⟨hset, hchan⟩ := foldl_sendRemoteIp_set_channels (q.collectIps now).2 q
  have hfin : (p.update cond now).set = q.set ∧ (p.update cond now).log = q.log := by
    have hr := foldl_sendBypass_rows cond (q.collectIps now).1 ((q.collectIps now).2.foldl sendRemoteIp q)
    rw [foldl_sendRemoteIp_rows] at hr
    rw [hupd]
    exact Prod.mk.inj hr
  obtain ⟨l, hl, hlip⟩ := foldl_sendBypass_sent cond (q.collectIps now).1 _ _ (hchan.trans hqch)
  refine ⟨l, hupd ▸ hl, fun m hm => ?_, ?_⟩
  · obtain ⟨hmem, pr', hget, hm2⟩ := hlip m hm
    obtain ⟨pr, hpr, hc⟩ := mem_collectIps_fst hmem
    have hpr' : pr' = pr := Option.some_injective _ (hget.symm.trans (hset ▸ (PingSet.get_eq_some_iff ..).mpr hpr))
    exact ⟨pr, hfin.1 ▸ hpr, hc, hpr' ▸ hm2⟩
  · rw [hfin.2]
    exact hlog

@[simp] theorem init_channels (p : NetProfiler) (pool : PoolReply) : (p.init pool).channels = p.channels := by
  cases pool <;> rfl

theorem decodeLoop_directIps (p : NetProfiler) (buf : List UInt8) (q : NetProfiler)
    (h : p.decodeLoop buf = some q) : q.channels = p.channels ∧ directIps q.log = directIps p.log := by
  match buf with
  | [] =>
    rw [decodeLoop] at h
    cases h
    exact ⟨rfl, rfl⟩
  | b :: bs =>
    cases hf : decodeFront (b :: bs) with
    | wait =>
      rw [decodeLoop_of_wait p hf] at h
      cases h
      exact ⟨rfl, rfl⟩
    | invalid => rw [decodeLoop_of_invalid p hf] at h; cases h
    | record ip ping lost rest =>
      rw [decodeLoop_of_record p hf] at h
      obtain ⟨hch, hlog⟩ := decodeLoop_directIps _ rest q h
      exact ⟨hch.trans (record_channels ..), hlog.trans (record_relay_directIps ..)⟩
termination_by buf.length
decreasing_by exact decodeFront_rest_lt hf

theorem ready_directIps (p : NetProfiler) (e : ReadyEvent) (q : NetProfiler) (h : p.ready e = some q) :
    q.channels = p.channels ∧ directIps q.log = directIps p.log := by
  unfold ready at h
  split at h
  · cases h
    exact ⟨rfl, rfl⟩
  · obtain ⟨q', hq', rfl⟩ := Option.map_eq_some'.mp h
    have hread : q'.channels = p.channels ∧ directIps q'.log = directIps p.log := by
      unfold onReadable at hq'
      split at hq'
      · exact (decodeLoop_directIps _ _ _ hq' :)
      · cases hq'
        exact ⟨rfl, rfl⟩
    have hw : (q'.onWritable e).channels = q'.channels ∧ (q'.onWritable e).log = q'.log := by
      unfold onWritable; split <;> exact ⟨rfl, rfl⟩
    have hlog := congrArg Prod.snd (reset_rows (q'.onWritable e) e.pool)
    split
    · exact ⟨by simp [reset, hw.1, hread.1], by simp only [rows] at hlog; rw [hlog, hw.2, hread.2]⟩
    · exact ⟨hw.1.trans hread.1, by rw [hw.2, hread.2]⟩

theorem check_spec (p : NetProfiler) (ip : IpAddr) (now : Nat) :
    (p.check ip now).results = p.results ∧ (p.check ip now).decisions = p.decisions ∧
      (p.check ip now).channels.isSome = p.channels.isSome ∧ (p.check ip now).log = p.log ∧
      ((p.check ip now).probes = p.probes ∨
        (p.check ip now).probes = p.probes ++ [ip] ∧ ip ∈ (p.check ip now).set.keys) := by
  unfold check
  split
  · exact ⟨rfl, rfl, rfl, rfl, .inl rfl⟩
  · rename_i ch hch
    split
    · exact ⟨rfl, rfl, rfl, rfl, .inl rfl⟩
    · split
      · rename_i sender hsend
        unfold Sender.send at hsend
        split at hsend
        · cases hsend
          refine ⟨by simp [results, hch], by simp [decisions, hch], by simp [hch], by simp, .inr ⟨?_, ?_⟩⟩
          · simp [probes, hch]
          · exact (PingSet.mem_keys_touch ..).mpr (.inr rfl)
        · cases hsend
      · exact ⟨by simp [results], by simp [decisions], by simp, by simp, .inl (by simp [probes])⟩

theorem respond_channels (p : NetProfiler) (ip : IpAddr) (ping : UInt16) (lost : UInt8) (ch : Channels)
    (hch : p.channels = some ch) :
    (p.respond ip ping lost).channels = some { ch with respReceiver := ch.respReceiver ++ [(ip, ping, lost)] } := by
  simp [respond, hch]

end NetProfiler

namespace CheckSystem

/-- The system `new(true, ..)` starts: the routine has taken nothing and its bypass ipset
is flushed. -/
def start : CheckSystem := ⟨NetProfiler.new true, ⟨0, 0, []⟩, ⟨0, IpSet.empty⟩⟩

/-- The end of the task `do_check(ip, id)`, its probes answered by `ping`: its result
reaches `resp_receiver`, and the task is gone. -/
def finish (s : CheckSystem) (ip : IpAddr) (id : UInt16) (ping : Nat → Option Nat) : CheckSystem :=
  let r := doCheck ip ping
  { profiler := s.profiler.respond r.1 r.2.1 r.2.2, request := { s.request with tasks := s.request.tasks.erase (ip, id) },
    response := s.response }

variable (nobypass : IpSet)

/-- A step; `none` when the call panics, or when the step cannot be taken: a loop with
nothing to receive waits, and only a running task can end. -/
def step (s : CheckSystem) : CheckOp → Option CheckSystem
  | .init pool => some { s with profiler := s.profiler.init pool }
  | .check ip now => some { s with profiler := s.profiler.check ip now }
  | .update cond now => some { s with profiler := s.profiler.update cond now }
  | .ready e => (s.profiler.ready e).map fun p => { s with profiler := p }
  | .request => s.profiler.probes[s.request.received]?.map fun ip =>
      { s with request := s.request.receive nobypass ip }
  | .finish ip id ping => if (ip, id) ∈ s.request.tasks then some (s.finish ip id ping) else none
  | .response => s.profiler.decisions[s.response.received]?.map fun m =>
      { s with response := s.response.receive m }

def run (s : CheckSystem) : List CheckOp → Option CheckSystem
  | [] => some s
  | op :: ops => (s.step nobypass op).bind fun s => run s ops

/-- The addresses `start_request` has accepted: those it took that the no-bypass ipset
does not hold. -/
def accepted (s : CheckSystem) : List IpAddr :=
  (s.profiler.probes.take s.request.received).filter fun ip => !nobypass.test ip

/-- The invariant of the system: open channels and sentinels, prefixes taken, rows for every address
sent, measurements matching the accepted addresses, and the ipset following the decisions. -/
structure Inv (s : CheckSystem) : Prop where
  opened : s.profiler.channels.isSome
  tracks : Tracks s.profiler.rows
  requested : s.request.received ≤ s.profiler.probes.length
  responded : s.response.received ≤ s.profiler.decisions.length
  rows : ∀ ip ∈ s.profiler.probes, ip ∈ s.profiler.set.keys
  measured : List.Perm (directIps s.profiler.log ++ s.profiler.results.map (·.1) ++ s.request.tasks.map (·.1))
    (s.accepted nobypass)
  decided : ∀ m ∈ s.profiler.decisions, nobypass.test m.1 = false
  ipset : s.response.ipset = (s.profiler.decisions.take s.response.received).foldl ResponseRoutine.apply IpSet.empty

variable {nobypass} {s : CheckSystem}

theorem inv_start : Inv nobypass start :=
  ⟨rfl, tracks_empty, le_refl _, le_refl _, fun _ h => absurd h (List.not_mem_nil _), .nil,
    fun _ h => absurd h (List.not_mem_nil _), rfl⟩

theorem Inv.accepted_of_measured (h : Inv nobypass s) {ip : IpAddr}
    (hip : ip ∈ directIps s.profiler.log ++ s.profiler.results.map (·.1) ++ s.request.tasks.map (·.1)) :
    ip ∈ s.profiler.probes ∧ nobypass.test ip = false := by
  have hacc := h.measured.subset hip
  simp only [accepted, List.mem_filter, Bool.not_eq_true'] at hacc
  exact ⟨List.mem_of_mem_take hacc.1, hacc.2⟩

theorem Inv.results_rows (h : Inv nobypass s) {ch : Channels} (hch : s.profiler.channels = some ch) :
    ∀ r ∈ ch.respReceiver, r.1 ∈ s.profiler.set.keys := fun r hr =>
  h.rows _ (h.accepted_of_measured (List.mem_append_left _ (List.mem_append_right _
    (List.mem_map_of_mem _ (by simpa [NetProfiler.results, hch] using hr))))).1

theorem Inv.of_profiler (h : Inv nobypass s) {p : NetProfiler} (hopen : p.channels.isSome)
    (hprobes : ∃ l, p.probes = s.profiler.probes ++ l ∧ ∀ ip ∈ l, ip ∈ p.set.keys)
    (hres : p.results = s.profiler.results) (hdec : p.decisions = s.profiler.decisions)
    (hrows : RowSteps (fun _ => True) s.profiler.rows p.rows)
    (hlog : directIps p.log = directIps s.profiler.log) : Inv nobypass { s with profiler := p } := by
  obtain ⟨l, hl, hlk⟩ := hprobes
  have htake : p.probes.take s.request.received = s.profiler.probes.take s.request.received := by
    rw [hl, List.take_append_of_le_length h.requested]
  refine ⟨hopen, hrows.tracks h.tracks, ?_, hdec ▸ h.responded, fun ip hip => ?_, ?_, hdec ▸ h.decided,
    hdec ▸ h.ipset⟩
  · rw [hl, List.length_append]
    exact Nat.le_add_right_of_le h.requested
  · rcases List.mem_append.mp (hl ▸ hip) with hip | hip
    · exact hrows.keys_mono (h.rows ip hip)
    · exact hlk ip hip
  · simp only [accepted, htake, hlog, hres]
    exact h.measured

theorem inv_update (h : Inv nobypass s) (cond : Condition) (now : Nat) :
    Inv nobypass { s with profiler := s.profiler.update cond now } := by
  obtain ⟨ch, hch⟩ := Option.isSome_iff_exists.mp h.opened
  obtain ⟨l, hch', hl, hlog⟩ := s.profiler.update_spec cond now ch hch (h.results_rows hch)
  have hdec : (s.profiler.update cond now).decisions = s.profiler.decisions ++ l := by
    simp [NetProfiler.decisions, hch', hch]
  have htracks : Tracks (s.profiler.update cond now).rows :=
    (@NetProfiler.update_rows (fun _ => True) s.profiler cond now).tracks h.tracks
  have hprobes : (s.profiler.update cond now).probes = s.profiler.probes := by
    simp [NetProfiler.probes, hch', hch]
  have hmeasured : List.Perm (directIps (s.profiler.update cond now).log ++
      (s.profiler.update cond now).results.map (·.1) ++ s.request.tasks.map (·.1))
      (accepted nobypass { s with profiler := s.profiler.update cond now }) := by
    simp only [accepted, hprobes, hlog, NetProfiler.results, hch', Option.map_some', Option.getD_some,
      List.map_nil, List.append_nil]
    simpa [NetProfiler.results, hch] using h.measured
  refine ⟨by simp [hch'], htracks, hprobes ▸ h.requested, ?_, fun ip hip => ?_, hmeasured, fun m hm => ?_, ?_⟩
  · rw [hdec, List.length_append]
    exact Nat.le_add_right_of_le h.responded
  · exact (@NetProfiler.update_rows (fun _ => True) s.profiler cond now).keys_mono (h.rows ip (hprobes ▸ hip))
  · rcases List.mem_append.mp (hdec ▸ hm) with hm | hm
    · exact h.decided m hm
    · obtain ⟨pr, hpr, hc, -⟩ := hl m hm
      have hdir := mem_directIps.mpr ((htracks.complete_iff hpr).mp hc).1
      have hacc := hmeasured.subset (List.mem_append_left _ (List.mem_append_left _ hdir))
      simp only [accepted, List.mem_filter, Bool.not_eq_true'] at hacc
      exact hacc.2
  · show _ = ((s.profiler.update cond now).decisions.take s.response.received).foldl _ _
    rw [hdec, List.take_append_of_le_length h.responded]
    exact h.ipset

theorem inv_request (h : Inv nobypass s) {ip : IpAddr} (hip : s.profiler.probes[s.request.received]? = some ip) :
    Inv nobypass { s with request := s.request.receive nobypass ip } := by
  have hlt : s.request.received < s.profiler.probes.length := (List.getElem?_eq_some_iff.mp hip).1
  have htake : s.profiler.probes.take (s.request.received + 1) = s.profiler.probes.take s.request.received ++ [ip] := by
    rw [List.take_succ, hip]
    rfl
  unfold RequestRoutine.receive
  split
  · refine ⟨h.opened, h.tracks, hlt, h.responded, h.rows, ?_, h.decided, h.ipset⟩
    simpa [accepted, htake, *] using h.measured
  · refine ⟨h.opened, h.tracks, hlt, h.responded, h.rows, ?_, h.decided, h.ipset⟩
    simpa [accepted, htake, *] using h.measured.append_right [ip]

theorem inv_finish (h : Inv nobypass s) {ip : IpAddr} {id : UInt16} (ping : Nat → Option Nat)
    (ht : (ip, id) ∈ s.request.tasks) : Inv nobypass (s.finish ip id ping) := by
  obtain ⟨ch, hch⟩ := Option.isSome_iff_exists.mp h.opened
  have hch' : (s.finish ip id ping).profiler.channels =
      some { ch with respReceiver := ch.respReceiver ++ [doCheck ip ping] } :=
    s.profiler.respond_channels _ _ _ ch hch
  have hrows : (s.finish ip id ping).profiler.rows = s.profiler.rows := NetProfiler.respond_rows ..
  have hprobes : (s.finish ip id ping).profiler.probes = s.profiler.probes := by
    simp [NetProfiler.probes, hch', hch]
  have hdec : (s.finish ip id ping).profiler.decisions = s.profiler.decisions := by
    simp [NetProfiler.decisions, hch', hch]
  have hres : (s.finish ip id ping).profiler.results = s.profiler.results ++ [doCheck ip ping] := by
    simp [NetProfiler.results, hch', hch]
  have hacc : accepted nobypass (s.finish ip id ping) = accepted nobypass s := by
    simp only [accepted, hprobes]
    rfl
  have htasks : List.Perm (s.request.tasks.map (·.1)) (ip :: (s.request.tasks.erase (ip, id)).map (·.1)) := by
    -- `erase` compares the pairs with `instBEqProd`, which is equality
    rw [@lawful_beq_subsingleton _ instBEqProd (@instBEqOfDecidableEq _ instDecidableEqProd) _
      (@instLawfulBEq _ instDecidableEqProd)]
    simpa using (List.perm_cons_erase ht).map Prod.fst
  have hset : (s.finish ip id ping).profiler.set = s.profiler.set := congrArg Prod.fst hrows
  have hlog : (s.finish ip id ping).profiler.log = s.profiler.log := congrArg Prod.snd hrows
  refine ⟨by simp [hch'], hrows ▸ h.tracks, hprobes ▸ h.requested, hdec ▸ h.responded,
    by rw [hprobes, hset]; exact h.rows, ?_, hdec ▸ h.decided, hdec ▸ h.ipset⟩
  change List.Perm (directIps (s.finish ip id ping).profiler.log ++ (s.finish ip id ping).profiler.results.map (·.1) ++
    (s.request.tasks.erase (ip, id)).map (·.1)) _
  rw [hacc, hres, hlog]
  refine List.Perm.trans ?_ h.measured
  have hl : directIps s.profiler.log ++ (s.profiler.results ++ [doCheck ip ping]).map (·.1) ++
      (s.request.tasks.erase (ip, id)).map (·.1) =
      directIps s.profiler.log ++ s.profiler.results.map (·.1) ++ ip :: (s.request.tasks.erase (ip, id)).map (·.1) := by
    simp [doCheck]
  rw [hl]
  exact htasks.symm.append_left _

theorem inv_response (h : Inv nobypass s) {m : IpAddr × Bool}
    (hm : s.profiler.decisions[s.response.received]? = some m) :
    Inv nobypass { s with response := s.response.receive m } := by
  refine ⟨h.opened, h.tracks, h.requested, (List.getElem?_eq_some_iff.mp hm).1, h.rows, h.measured, h.decided, ?_⟩
  show ResponseRoutine.apply s.response.ipset m = (s.profiler.decisions.take (s.response.received + 1)).foldl _ _
  rw [List.take_succ, hm, List.foldl_append, ← h.ipset]
  rfl

theorem step_inv (h : Inv nobypass s) {op : CheckOp} {s' : CheckSystem} (hs : s.step nobypass op = some s') :
    Inv nobypass s' := by
  cases op with
  | init pool =>
    cases hs
    have hrows := NetProfiler.init_rows s.profiler pool
    exact h.of_profiler (by simpa using h.opened) ⟨[], by simp [NetProfiler.probes], by simp⟩
      (by simp [NetProfiler.results]) (by simp [NetProfiler.decisions]) (hrows ▸ .refl)
      (congrArg (directIps ·.2) hrows)
  | check ip now =>
    cases hs
    obtain ⟨hres, hdec, hopen, hlog, hprobes⟩ := s.profiler.check_spec ip now
    refine h.of_profiler (hopen ▸ h.opened) ?_ hres hdec (NetProfiler.check_rows _ ip trivial) (by rw [hlog])
    rcases hprobes with hp | ⟨hp, hk⟩
    · exact ⟨[], by simpa using hp, by simp⟩
    · exact ⟨[ip], hp, by simpa using hk⟩
  | update cond now =>
    cases hs
    exact inv_update h cond now
  | ready e =>
    obtain ⟨p, hp, rfl⟩ := Option.map_eq_some'.mp hs
    obtain ⟨hch, hlog⟩ := NetProfiler.ready_directIps _ e p hp
    exact h.of_profiler (hch ▸ h.opened) ⟨[], by simp [NetProfiler.probes, hch], by simp⟩
      (by simp [NetProfiler.results, hch]) (by simp [NetProfiler.decisions, hch]) (NetProfiler.ready_rows _ e p hp) hlog
  | request =>
    obtain ⟨ip, hip, rfl⟩ := Option.map_eq_some'.mp hs
    exact inv_request h hip
  | finish ip id ping =>
    simp only [step] at hs
    split at hs <;> cases hs
    exact inv_finish h ping ‹_›
  | response =>
    obtain ⟨m, hm, rfl⟩ := Option.map_eq_some'.mp hs
    exact inv_response h hm

theorem run_inv (h : Inv nobypass s) {ops : List CheckOp} {s' : CheckSystem} (hrun : s.run nobypass ops = some s') :
    Inv nobypass s' := by
  induction ops generalizing s with
  | nil =>
    cases hrun
    exact h
  | cons op ops ih =>
    obtain ⟨t, ht, hrun⟩ := Option.bind_eq_some.mp hrun
    exact ih (step_inv h ht) hrun

/-! ### Settling: the loops and the tasks catch up -/

theorem run_append (s : CheckSystem) (ops₁ ops₂ : List CheckOp) :
    s.run nobypass (ops₁ ++ ops₂) = (s.run nobypass ops₁).bind fun t => t.run nobypass ops₂ := by
  induction ops₁ generalizing s with
  | nil => rfl
  | cons op ops ih =>
    simp only [List.cons_append, run]
    cases s.step nobypass op with
    | none => rfl
    | some t => exact ih t

theorem receive_received (r : RequestRoutine) (ip : IpAddr) : (r.receive nobypass ip).received = r.received + 1 := by
  unfold RequestRoutine.receive
  split <;> rfl

theorem run_requests (s : CheckSystem) (h : s.request.received ≤ s.profiler.probes.length) :
    ∃ s', s.run nobypass (List.replicate (s.profiler.probes.length - s.request.received) .request) = some s' ∧
      s'.profiler = s.profiler ∧ s'.response = s.response ∧ s'.request.received = s.profiler.probes.length := by
  obtain ⟨n, hn⟩ : ∃ n, s.profiler.probes.length - s.request.received = n := ⟨_, rfl⟩
  rw [hn]
  induction n generalizing s with
  | zero => exact ⟨s, rfl, rfl, rfl, by omega⟩
  | succ n ih =>
    have hip := List.getElem?_eq_getElem (show s.request.received < s.profiler.probes.length by omega)
    have hrec := @receive_received nobypass s.request s.profiler.probes[s.request.received]
    obtain ⟨s', hrun, hp, hr, hlen⟩ :=
      ih { s with request := s.request.receive nobypass s.profiler.probes[s.request.received] } (by simp only [hrec]; omega)
        (by simp only [hrec]; omega)
    refine ⟨s', ?_, hp, hr, hlen⟩
    rw [List.replicate_succ, run, step, hip]
    exact hrun

theorem run_responses (s : CheckSystem) (h : s.response.received ≤ s.profiler.decisions.length) :
    ∃ s', s.run nobypass (List.replicate (s.profiler.decisions.length - s.response.received) .response) = some s' ∧
      s'.profiler = s.profiler ∧ s'.request = s.request ∧ s'.response.received = s.profiler.decisions.length := by
  obtain ⟨n, hn⟩ : ∃ n, s.profiler.decisions.length - s.response.received = n := ⟨_, rfl⟩
  rw [hn]
  induction n generalizing s with
  | zero => exact ⟨s, rfl, rfl, rfl, by omega⟩
  | succ n ih =>
    have hm := List.getElem?_eq_getElem (show s.response.received < s.profiler.decisions.length by omega)
    obtain ⟨s', hrun, hp, hr, hlen⟩ :=
      ih { s with response := s.response.receive s.profiler.decisions[s.response.received] }
        (by dsimp only [ResponseRoutine.receive]; omega) (by dsimp only [ResponseRoutine.receive]; omega)
    refine ⟨s', ?_, hp, hr, hlen⟩
    rw [List.replicate_succ, run, step, hm]
    exact hrun

theorem respond_probes (p : NetProfiler) (ip : IpAddr) (ping : UInt16) (lost : UInt8) :
    (p.respond ip ping lost).probes = p.probes := by
  unfold NetProfiler.respond
  split <;> simp [NetProfiler.probes, *]

theorem run_finishes (pings : IpAddr → Nat → Option Nat) (s : CheckSystem) :
    ∃ s', s.run nobypass (s.request.tasks.map fun t => .finish t.1 t.2 (pings t.1)) = some s' ∧
      s'.request.tasks = [] ∧ s'.request.received = s.request.received ∧ s'.profiler.probes = s.profiler.probes := by
  obtain ⟨ts, hts⟩ : ∃ ts, s.request.tasks = ts := ⟨_, rfl⟩
  rw [hts]
  induction ts generalizing s with
  | nil => exact ⟨s, rfl, hts, rfl, rfl⟩
  | cons t ts ih =>
    have hmem : (t.1, t.2) ∈ s.request.tasks := hts ▸ List.mem_cons_self t ts
    obtain ⟨s', hrun, htasks, hrec, hprobes⟩ := ih (s.finish t.1 t.2 (pings t.1))
      (show s.request.tasks.erase t = ts by rw [hts, List.erase_cons_head])
    refine ⟨s', ?_, htasks, hrec, hprobes.trans (respond_probes ..)⟩
    rw [List.map_cons, run, step, if_pos hmem]
    exact hrun

theorem Inv.update_drains (h : Inv nobypass s) (cond : Condition) (now : Nat) :
    (s.profiler.update cond now).results = [] ∧ (s.profiler.update cond now).probes = s.profiler.probes := by
  obtain ⟨ch, hch⟩ := Option.isSome_iff_exists.mp h.opened
  obtain ⟨l, hch', -⟩ := s.profiler.update_spec cond now ch hch (h.results_rows hch)
  exact ⟨by simp [NetProfiler.results, hch'], by simp [NetProfiler.probes, hch', hch]⟩

end CheckSystem

/-- The last decision on `ip` among `ms`, if any. -/
def lastDecision (ms : List (IpAddr × Bool)) (ip : IpAddr) : Option Bool :=
  ((ms.filter (·.1 = ip)).getLast?).map (·.2)

theorem mem_foldl_apply (ms : List (IpAddr × Bool)) (s : IpSet) (ip : IpAddr) :
    ip ∈ (ms.foldl ResponseRoutine.apply s).ips ↔
      lastDecision ms ip = some true ∨ lastDecision ms ip = none ∧ ip ∈ s.ips := by
  induction ms using List.reverseRecOn with
  | nil => simp [lastDecision]
  | append_singleton ms m ih =>
    obtain ⟨ip', b⟩ := m
    have hlast : lastDecision (ms ++ [(ip', b)]) ip = if ip' = ip then some b else lastDecision ms ip := by
      unfold lastDecision
      by_cases h : ip' = ip <;> simp [h, List.filter_append]
    rw [List.foldl_append, List.foldl_cons, List.foldl_nil, hlast]
    by_cases h : ip' = ip
    · subst h
      cases b <;> simp [ResponseRoutine.apply, IpSet.mem_add, IpSet.mem_del]
    · rw [if_neg h, ← ih]
      cases b <;> simp [ResponseRoutine.apply, IpSet.mem_add, IpSet.mem_del, Ne.symm h]

/-- Over every run, each accepted address is probed once and its result written once into its row,
whatever the order the tasks end in. -/
theorem routine_measures_each_request_once (nobypass : IpSet) (ops : List CheckOp) (s : CheckSystem)
    (hrun : CheckSystem.start.run nobypass ops = some s) :
    (∀ ip ∈ s.profiler.probes, ip ∈ s.profiler.set.keys) ∧
      List.Perm (directIps s.profiler.log ++ s.profiler.results.map (·.1) ++ s.request.tasks.map (·.1))
        ((s.profiler.probes.take s.request.received).filter fun ip => !nobypass.test ip) :=
  have h := CheckSystem.run_inv CheckSystem.inv_start hrun
  ⟨h.rows, h.measured⟩

/-- Over every run, no decision is sent for an address of the no-bypass ipset, which never enters
the bypass ipset. -/
theorem nobypass_never_decided (nobypass : IpSet) (ops : List CheckOp) (s : CheckSystem)
    (hrun : CheckSystem.start.run nobypass ops = some s) (ip : IpAddr) (hip : nobypass.test ip = true) :
    ¬ Measured s.profiler.log .direct ip ∧ (∀ pr, (ip, pr) ∈ s.profiler.set.entries → pr.isComplete = false) ∧
      (∀ b, (ip, b) ∉ s.profiler.decisions) ∧ ip ∉ s.response.ipset.ips := by
  have h := CheckSystem.run_inv CheckSystem.inv_start hrun
  have hmeas : ¬ Measured s.profiler.log .direct ip := fun hm => by
    have := (h.accepted_of_measured (List.mem_append_left _ (List.mem_append_left _ (mem_directIps.mpr hm)))).2
    rw [hip] at this
    cases this
  have hdec : ∀ b, (ip, b) ∉ s.profiler.decisions := fun b hb => by
    have := h.decided _ hb
    rw [hip] at this
    cases this
  refine ⟨hmeas, fun pr hpr => ?_, hdec, fun hmem => ?_⟩
  · by_contra hc
    exact hmeas ((h.tracks.complete_iff hpr).mp (Bool.eq_true_of_not_eq_false hc)).1
  · rw [h.ipset, mem_foldl_apply] at hmem
    have hnone : lastDecision (s.profiler.decisions.take s.response.received) ip = none := by
      simp only [lastDecision, Option.map_eq_none', List.getLast?_eq_none_iff, List.filter_eq_nil_iff]
      rintro ⟨ip', b⟩ hm hip'
      exact hdec b (by simpa using (of_decide_eq_true hip') ▸ List.mem_of_mem_take hm)
    rcases hmem with hmem | ⟨-, hmem⟩
    · rw [hnone] at hmem
      cases hmem
    · cases hmem

/-- Over every run, the bypass ipset holds exactly the addresses whose last decision
`start_response` has taken was a bypass. -/
theorem ipset_follows_last_decision (nobypass : IpSet) (ops : List CheckOp) (s : CheckSystem)
    (hrun : CheckSystem.start.run nobypass ops = some s) (ip : IpAddr) :
    ip ∈ s.response.ipset.ips ↔ lastDecision (s.profiler.decisions.take s.response.received) ip = some true := by
  rw [(CheckSystem.run_inv CheckSystem.inv_start hrun).ipset, mem_foldl_apply]
  simp [IpSet.empty]

/-- From every reachable state the loops and the tasks catch up: each accepted address has its
result written once, and the bypass ipset follows the last decision on each address. -/
theorem routine_settles (nobypass : IpSet) (ops : List CheckOp) (s : CheckSystem)
    (hrun : CheckSystem.start.run nobypass ops = some s) (pings : IpAddr → Nat → Option Nat)
    (cond : Condition) (now : Nat) :
    ∃ (k : Nat) (ts : List (IpAddr × UInt16)) (k' : Nat) (s' : CheckSystem), s.run nobypass (List.replicate k .request ++ ts.map (fun t => .finish t.1 t.2 (pings t.1)) ++
        [.update cond now] ++ List.replicate k' .response) = some s' ∧
      s'.profiler.probes = s.profiler.probes ∧ s'.request.tasks = [] ∧ s'.profiler.results = [] ∧
      List.Perm (directIps s'.profiler.log) (s.profiler.probes.filter fun ip => !nobypass.test ip) ∧
      ∀ ip, ip ∈ s'.response.ipset.ips ↔ lastDecision s'.profiler.decisions ip = some true := by
  have h := CheckSystem.run_inv CheckSystem.inv_start hrun
  obtain ⟨s₁, h₁, hp₁, -, hrec₁⟩ := CheckSystem.run_requests s h.requested
  obtain ⟨s₂, h₂, ht₂, hrec₂, hprobes₂⟩ := CheckSystem.run_finishes pings s₁
  have hi₂ := CheckSystem.run_inv (CheckSystem.run_inv h h₁) h₂
  let s₃ : CheckSystem := { s₂ with profiler := s₂.profiler.update cond now }
  have hi₃ : CheckSystem.Inv nobypass s₃ := CheckSystem.inv_update hi₂ cond now
  obtain ⟨hres₃, hprobes₃⟩ := hi₂.update_drains cond now
  obtain ⟨s₄, h₄, hp₄, hr₄, hrec₄⟩ := CheckSystem.run_responses s₃ hi₃.responded
  have hi₄ := CheckSystem.run_inv hi₃ h₄
  have hprobes : s₄.profiler.probes = s.profiler.probes := by rw [hp₄, hprobes₃, hprobes₂, hp₁]
  have htasks : s₄.request.tasks = [] := by rw [hr₄]; exact ht₂
  have hres : s₄.profiler.results = [] := by rw [hp₄]; exact hres₃
  refine ⟨s.profiler.probes.length - s.request.received, s₁.request.tasks,
    s₃.profiler.decisions.length - s₃.response.received, s₄, ?_, hprobes, htasks, hres, ?_, fun ip => ?_⟩
  · rw [CheckSystem.run_append, CheckSystem.run_append, CheckSystem.run_append, h₁, Option.some_bind, h₂,
      Option.some_bind]
    exact h₄
  · have hm := hi₄.measured
    have hrec : s₄.request.received = s.profiler.probes.length := by rw [hr₄]; exact hrec₂.trans hrec₁
    rw [htasks, hres, CheckSystem.accepted, hprobes, hrec, List.take_length] at hm
    simpa using hm
  · rw [hi₄.ipset, hrec₄, hp₄, List.take_length, mem_foldl_apply]
    simp [IpSet.empty]

namespace NetProfiler

/-- The decisions `ips1.iter().for_each(..)` sends for the addresses `ips`, each with its
row in `t`. -/
def bypassMessages (cond : Condition) (t : PingSet) (ips : List IpAddr) : List (IpAddr × Bool) :=
  ips.filterMap fun ip => (t.get ip).map fun pr => (ip, bypassFor cond pr)

theorem foldl_sendBypass_messages (cond : Condition) (ips : List IpAddr) (p : NetProfiler) (ch : Channels)
    (hch : p.channels = some ch) (halive : ch.ipsetSender.alive = true) :
    (ips.foldl (sendBypass cond) p).channels = some { ch with ipsetSender :=
      { ch.ipsetSender with sent := ch.ipsetSender.sent ++ bypassMessages cond p.set ips } } := by
  induction ips generalizing p ch with
  | nil => simpa [bypassMessages] using hch
  | cons ip ips ih =>
    have hstep : (p.sendBypass cond ip).channels = some { ch with ipsetSender :=
        { ch.ipsetSender with sent := ch.ipsetSender.sent ++ ((p.set.get ip).map fun pr => (ip, bypassFor cond pr)).toList } } := by
      unfold sendBypass
      rw [hch]
      cases hg : p.set.get ip with
      | none => simp [hch]
      | some pr => simp [Sender.send, halive]
    rw [List.foldl_cons, ih _ _ hstep halive, sendBypass_set]
    cases hg : p.set.get ip <;> simp [bypassMessages, hg]

theorem foldl_collectGroup_fst (now now' : Nat) (gs : List (Nat × List (IpAddr × PingResult)))
    (acc acc' : List IpAddr × List IpAddr) (h : acc.1 = acc'.1) :
    (gs.foldl (collectGroup now) acc).1 = (gs.foldl (collectGroup now') acc').1 := by
  induction gs generalizing acc acc' with
  | nil => exact h
  | cons g gs ih =>
    refine ih _ _ ?_
    unfold collectGroup
    split <;> simp [h]

theorem update_idle (p : NetProfiler) (cond : Condition) (now : Nat) (ch : Channels) (hch : p.channels = some ch)
    (hidle : ch.respReceiver = []) (halive : ch.ipsetSender.alive = true) :
    (p.update cond now).set = p.set ∧ (p.update cond now).channels = some { ch with ipsetSender :=
      { ch.ipsetSender with sent := ch.ipsetSender.sent ++ bypassMessages cond p.set (p.collectIps now).1 } } := by
  have hp : { p with channels := some { ch with respReceiver := [] } } = p := by
    cases p
    cases ch
    simp_all
  have hupd : p.update cond now = (p.collectIps now).1.foldl (sendBypass cond) ((p.collectIps now).2.foldl sendRemoteIp p) := by
    simp only [update, hch, hidle, List.foldl_nil, hp]
  obtain ⟨hset, hchan⟩ := foldl_sendRemoteIp_set_channels (p.collectIps now).2 p
  refine ⟨?_, ?_⟩
  · rw [hupd]
    simpa [rows, hset] using congrArg Prod.fst (foldl_sendBypass_rows cond (p.collectIps now).1 ((p.collectIps now).2.foldl sendRemoteIp p))
  · rw [hupd, foldl_sendBypass_messages cond _ _ ch (hchan.trans hch) halive, hset]

end NetProfiler

theorem lastDecision_append_self (l : List (IpAddr × Bool)) (ip : IpAddr) :
    lastDecision (l ++ l) ip = lastDecision l ip := by
  simp [lastDecision, List.filter_append, List.getLast?_append]

/-- With no result waiting, a second `update` resends every decision of the first, and the ipset
ends as after one. -/
theorem update_resends_decisions (p : NetProfiler) (cond : Condition) (now now' : Nat) (ch : Channels)
    (hch : p.channels = some ch) (hidle : ch.respReceiver = []) (halive : ch.ipsetSender.alive = true) :
    ∃ l, (p.update cond now).decisions = p.decisions ++ l ∧
      ((p.update cond now).update cond now').decisions = p.decisions ++ l ++ l ∧
      ∀ (s : IpSet) (ip : IpAddr),
        ip ∈ ((l ++ l).foldl ResponseRoutine.apply s).ips ↔ ip ∈ (l.foldl ResponseRoutine.apply s).ips := by
  obtain ⟨hset, hch'⟩ := p.update_idle cond now ch hch hidle halive
  obtain ⟨-, hch''⟩ := (p.update cond now).update_idle cond now' _ hch' hidle halive
  have hips : ((p.update cond now).collectIps now').1 = (p.collectIps now).1 := by
    simp only [NetProfiler.collectIps, hset]
    exact NetProfiler.foldl_collectGroup_fst now' now _ _ _ rfl
  refine ⟨NetProfiler.bypassMessages cond p.set (p.collectIps now).1, by simp [NetProfiler.decisions, hch', hch],
    by simp [NetProfiler.decisions, hch'', hch, hset, hips], fun s ip => ?_⟩
  rw [mem_foldl_apply, mem_foldl_apply, lastDecision_append_self]

namespace NetProfiler

/-- The no-bypass ipset of the runs below: 2.2.2.2. -/
def nobypassB : IpSet := ⟨[hostB], List.nodup_singleton _⟩

/-- 1.1.1.1 and 2.2.2.2 reach the profiler. The request loop takes both, skips 2.2.2.2
and probes 1.1.1.1, whose pings all answer in 10 ms; `update` then writes the result. -/
def probeRun : List CheckOp :=
  [.check hostA 0, .check hostB 0, .request, .request, .finish hostA 0 fun _ => some 10,
    .update newCondition (10 ^ 9)]

theorem probe_run_measured : ∃ s, CheckSystem.start.run nobypassB probeRun = some s ∧
    (∀ ip ∈ s.profiler.probes, ip ∈ s.profiler.set.keys) ∧
      List.Perm (directIps s.profiler.log ++ s.profiler.results.map (·.1) ++ s.request.tasks.map (·.1))
        ((s.profiler.probes.take s.request.received).filter fun ip => !nobypassB.test ip) :=
  ⟨_, rfl, routine_measures_each_request_once nobypassB probeRun _ rfl⟩

theorem probe_run_skips_nobypass : ∃ s, CheckSystem.start.run nobypassB probeRun = some s ∧
    nobypassB.test hostB = true ∧ ¬ Measured s.profiler.log .direct hostB ∧
      (∀ pr, (hostB, pr) ∈ s.profiler.set.entries → pr.isComplete = false) ∧
      (∀ b, (hostB, b) ∉ s.profiler.decisions) ∧ hostB ∉ s.response.ipset.ips :=
  ⟨_, rfl, rfl, nobypass_never_decided nobypassB probeRun _ rfl hostB rfl⟩

theorem probe_run_ipset : ∃ s, CheckSystem.start.run nobypassB probeRun = some s ∧
    (hostA ∈ s.response.ipset.ips ↔ lastDecision (s.profiler.decisions.take s.response.received) hostA = some true) :=
  ⟨_, rfl, ipset_follows_last_decision nobypassB probeRun _ rfl hostA⟩

/-- The first two calls of `probeRun` only send the two addresses; the routine then settles
with every ping answered in 10 ms. -/
theorem checks_settle : ∃ s, CheckSystem.start.run nobypassB (probeRun.take 2) = some s ∧
    ∃ (k : Nat) (ts : List (IpAddr × UInt16)) (k' : Nat) (s' : CheckSystem),
      s.run nobypassB (List.replicate k .request ++ ts.map (fun t => .finish t.1 t.2 fun _ => some 10) ++
        [.update newCondition (10 ^ 9)] ++ List.replicate k' .response) = some s' ∧
      s'.profiler.probes = s.profiler.probes ∧ s'.request.tasks = [] ∧ s'.profiler.results = [] ∧
      List.Perm (directIps s'.profiler.log) (s.profiler.probes.filter fun ip => !nobypassB.test ip) ∧
      ∀ ip, ip ∈ s'.response.ipset.ips ↔ lastDecision s'.profiler.decisions ip = some true :=
  ⟨_, rfl, routine_settles nobypassB (probeRun.take 2) _ rfl (fun _ _ => some 10) newCondition (10 ^ 9)⟩

/-- Two updates, a second apart, over a table holding one answered row. -/
theorem answered_row_decided_twice : ∃ l,
    ((withRows [(hostA, answeredRow)] (by decide)).update newCondition 0).decisions =
      (withRows [(hostA, answeredRow)] (by decide)).decisions ++ l ∧
    (((withRows [(hostA, answeredRow)] (by decide)).update newCondition 0).update newCondition (10 ^ 9)).decisions =
      (withRows [(hostA, answeredRow)] (by decide)).decisions ++ l ++ l ∧
    ∀ (s : IpSet) (ip : IpAddr),
      ip ∈ ((l ++ l).foldl ResponseRoutine.apply s).ips ↔ ip ∈ (l.foldl ResponseRoutine.apply s).ips :=
  update_resends_decisions _ newCondition 0 (10 ^ 9) _ rfl rfl rfl

end NetProfiler

end TrojanRs
