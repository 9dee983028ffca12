import TrojanRs.Client.Supervisor

/-! Shutting the sidecars down: `stop` kills only `wintun`, and the task `start` spawned sees it
end, kills `dns` and ends. -/

namespace TrojanRs

set_option autoImplicit false

/-- The kind of process `n`, if there is one. -/
def Kind (procs : List Proc) (n : Nat) : Option Sidecar := procs[n]?.map (·.sidecar)

/-- The processes a stage names are of the kinds it names them by: the `wintun` child it
spawned, and each child whose receiver it watches. -/
def Stage.Tags (procs : List Proc) : Stage → Prop
  | .spawnWintun => True
  | .storeWintun _ n => Kind procs n = some .wintun
  | .spawned _ n => Kind procs n = some .wintun
  | .sleeping _ n => Kind procs n = some .wintun
  | .storeDns n m => Kind procs n = some .wintun ∧ Kind procs m = some .dns
  | .watch rxs => ∀ p ∈ rxs, Kind procs p.2 = some p.1

/-- The task is in its loop. -/
def Stage.inLoop : Stage → Bool
  | .watch _ => true
  | _ => false

/-- A turn of task `k`'s loop: it sees a receiver yield `Terminated`, or it ends. -/
def ClientOp.isTurn (k : Nat) : ClientOp → Bool
  | .reap k' _ => k' == k
  | .finish k' => k' == k
  | _ => false

theorem Stage.Tags.mono {procs procs' : List Proc} (hk : ∀ n x, Kind procs n = some x → Kind procs' n = some x)
    {st : Stage} (h : st.Tags procs) : st.Tags procs' := by
  cases st with
  | spawnWintun => trivial
  | storeWintun _ n => exact hk n _ h
  | spawned _ n => exact hk n _ h
  | sleeping _ n => exact hk n _ h
  | storeDns n m => exact ⟨hk n _ h.1, hk m _ h.2⟩
  | watch rxs => exact fun p hp => hk _ _ (h p hp)

theorem mem_of_lookup {rxs : List (Sidecar × Nat)} {name : Sidecar} {n : Nat} (h : rxs.lookup name = some n) :
    (name, n) ∈ rxs := by
  induction rxs with
  | nil => cases h
  | cons p rxs ih =>
    obtain ⟨name', n'⟩ := p
    by_cases hn : name = name'
    · subst hn
      rw [List.lookup_cons_self, Option.some.injEq] at h
      exact h ▸ List.mem_cons_self _ _
    · rw [List.lookup_cons, beq_false_of_ne hn] at h
      exact List.mem_cons_of_mem _ (ih h)

namespace ClientApp

/-- Every child the state holds and every child a task names is of the kind its name says. -/
structure Tagged (s : ClientApp) : Prop where
  wintun : ∀ n, s.wintun = some n → Kind s.procs n = some .wintun
  dns : ∀ m, s.dns = some m → Kind s.procs m = some .dns
  tasks : ∀ st ∈ s.tasks, st.Tags s.procs

section Kinds
variable (s : ClientApp)

@[simp] theorem kind_kill (c n : Nat) : Kind (s.kill c).procs n = Kind s.procs n := by
  unfold Kind kill
  rw [List.getElem?_modify]
  by_cases h : c = n
  · subst h
    cases s.procs[c]? <;> simp
  · simp [h]

@[simp] theorem kind_killOpt (o : Option Nat) (n : Nat) : Kind (s.killOpt o).procs n = Kind s.procs n := by
  cases o <;> simp [killOpt]

theorem kind_spawn (sidecar : Sidecar) (args : List String) (n : Nat) :
    Kind (s.spawn sidecar args).procs n = if n = s.procs.length then some sidecar else Kind s.procs n := by
  unfold Kind spawn
  rcases Nat.lt_trichotomy n s.procs.length with h | rfl | h
  · simp [List.getElem?_append_left h, h.ne]
  · simp
  · rw [List.getElem?_eq_none (by simp; omega), List.getElem?_eq_none (Nat.le_of_lt h)]
    simp [h.ne']

@[simp] theorem killOpt_exited (o : Option Nat) : (s.killOpt o).exited = s.exited := by
  cases o <;> rfl

@[simp] theorem kind_reap (k : Nat) (rxs : List (Sidecar × Nat)) (name : Sidecar) (n : Nat) :
    Kind (s.reap k rxs name).procs n = Kind s.procs n := by
  cases name <;> simp [reap]

theorem kind_spawn_of_some {sidecar : Sidecar} {args : List String} {n : Nat} {x : Sidecar}
    (h : Kind s.procs n = some x) : Kind (s.spawn sidecar args).procs n = some x := by
  rw [kind_spawn, if_neg]
  · exact h
  · rintro rfl
    simp [Kind] at h

theorem ended_killOpt (o : Option Nat) {n : Nat} (h : s.procs[n]?.map (·.running) = some false) :
    (s.killOpt o).procs[n]?.map (·.running) = some false := by
  cases o with
  | none => exact h
  | some c =>
    unfold killOpt kill
    rw [List.getElem?_modify]
    by_cases hc : c = n
    · subst hc
      cases hp : s.procs[c]? <;> simp_all
    · simpa [hc] using h

end Kinds

theorem ended_of_kind {procs : List Proc} {n : Nat} {x : Sidecar} (hk : Kind procs n = some x)
    (hr : ¬ Running procs n) : procs[n]?.map (·.running) = some false := by
  unfold Kind at hk
  unfold Running at hr
  cases hp : procs[n]? with
  | none => simp [hp] at hk
  | some p => simpa [hp] using hr

section Tagging
variable {s : ClientApp}

theorem tags_set {procs : List Proc} {tasks : List Stage} (h : ∀ st ∈ tasks, st.Tags procs) (k : Nat)
    {st' : Stage} (h' : st'.Tags procs) : ∀ st ∈ tasks.set k st', st.Tags procs := fun st hst =>
  (List.mem_or_eq_of_mem_set hst).elim (h st) fun heq => heq ▸ h'

theorem Tagged.task (h : s.Tagged) {k : Nat} {st : Stage} (hk : s.tasks[k]? = some st) : st.Tags s.procs :=
  h.tasks st (List.mem_iff_getElem?.mpr ⟨k, hk⟩)

theorem tagged_new (file : Option Config) (resources : Resources) : (new file resources).Tagged :=
  ⟨fun _ h => (by cases h), fun _ h => (by cases h), fun _ h => (by cases h)⟩

theorem Tagged.killOpt (h : s.Tagged) (o : Option Nat) : (s.killOpt o).Tagged :=
  ⟨fun n hn => by simpa using h.wintun n (by simpa using hn), fun m hm => by simpa using h.dns m (by simpa using hm),
    fun st hst => (h.tasks st (by simpa using hst)).mono fun n x => by simp⟩

theorem Tagged.release (h : s.Tagged) {w d : Option Nat} (hw : w = none ∨ w = s.wintun) (hd : d = none ∨ d = s.dns) :
    { s with wintun := w, dns := d }.Tagged := by
  refine ⟨fun n hn => ?_, fun m hm => ?_, h.tasks⟩
  · rcases hw with rfl | rfl
    · cases hn
    · exact h.wintun n hn
  · rcases hd with rfl | rfl
    · cases hm
    · exact h.dns m hm

theorem tagged_start (h : s.Tagged) (config : Config) (saved : Bool) : (s.start config saved).Tagged := by
  unfold start
  split
  · split
    · exact ⟨h.wintun, h.dns, h.tasks⟩
    · refine ⟨h.wintun, h.dns, fun st hst => ?_⟩
      rcases List.mem_append.mp hst with hst | hst
      · exact h.tasks st hst
      · rw [List.mem_singleton.mp hst]
        trivial
  · exact h

theorem tagged_stop (h : s.Tagged) : s.stop.Tagged := by
  unfold stop
  split
  · exact (h.killOpt (some _)).release (.inl rfl) (.inr rfl)
  · exact ⟨h.wintun, h.dns, h.tasks⟩

theorem tagged_quit (h : s.Tagged) : s.quit.Tagged :=
  ⟨fun _ hn => (by cases hn), fun _ hm => (by cases hm), ((h.killOpt _).killOpt _).tasks⟩

theorem tagged_spawnWintun (h : s.Tagged) (k : Nat) (ok : Bool) : (s.spawnWintun k ok).Tagged := by
  unfold spawnWintun
  split
  · refine ⟨fun n hn => kind_spawn_of_some s (h.wintun n hn), fun m hm => kind_spawn_of_some s (h.dns m hm),
      tags_set (fun st hst => (h.tasks st hst).mono fun _ _ => kind_spawn_of_some s) k ?_⟩
    show Kind _ _ = some .wintun
    simp [kind_spawn]
  · exact ⟨h.wintun, h.dns, fun st hst => h.tasks st (List.mem_of_mem_eraseIdx hst)⟩

theorem tagged_storeWintun (h : s.Tagged) {k n : Nat} {config : Config}
    (hk : s.tasks[k]? = some (.storeWintun config n)) : (s.storeWintun k config n).Tagged := by
  have hn : Kind s.procs n = some .wintun := h.task hk
  exact ⟨fun n' hn' => by cases hn'; exact hn, h.dns, tags_set h.tasks k hn⟩

theorem tagged_checkDns (h : s.Tagged) {k n : Nat} {config : Config} (hk : s.tasks[k]? = some (.spawned config n)) :
    (s.checkDns k config n).Tagged := by
  have hn : Kind s.procs n = some .wintun := h.task hk
  refine ⟨h.wintun, h.dns, tags_set h.tasks k ?_⟩
  split
  · exact hn
  · intro p hp
    rw [List.mem_singleton.mp hp]
    exact hn

theorem tagged_spawnDns (h : s.Tagged) {k n : Nat} {config : Config} (hk : s.tasks[k]? = some (.sleeping config n))
    (ok : Bool) : (s.spawnDns k config n ok).Tagged := by
  have hn : Kind s.procs n = some .wintun := h.task hk
  unfold spawnDns
  split
  · refine ⟨fun w hw => kind_spawn_of_some s (h.wintun w hw), fun m hm => kind_spawn_of_some s (h.dns m hm),
      tags_set (fun st hst => (h.tasks st hst).mono fun _ _ => kind_spawn_of_some s) k
        ⟨kind_spawn_of_some s hn, by simp [kind_spawn]⟩⟩
  · refine ⟨fun _ hw => (by cases hw), (h.killOpt s.wintun).dns,
      tags_set (fun st hst => (h.tasks st hst).mono fun _ _ hx => by simpa using hx) k ?_⟩
    intro p hp
    rw [List.mem_singleton.mp hp]
    simpa using hn

theorem tagged_storeDns (h : s.Tagged) {k n m : Nat} (hk : s.tasks[k]? = some (.storeDns n m)) :
    (s.storeDns k n m).Tagged := by
  obtain ⟨hn, hm⟩ : (Stage.storeDns n m).Tags s.procs := h.task hk
  refine ⟨h.wintun, fun m' hm' => by cases hm'; exact hm, tags_set h.tasks k ?_⟩
  intro p hp
  rcases List.mem_pair.mp hp with rfl | rfl
  · exact hn
  · exact hm

theorem tagged_reap (h : s.Tagged) {k : Nat} {rxs : List (Sidecar × Nat)} (hk : s.tasks[k]? = some (.watch rxs))
    (name : Sidecar) : (s.reap k rxs name).Tagged := by
  have hr : (Stage.watch rxs).Tags s.procs := h.task hk
  refine ⟨fun _ hw => (by cases hw), fun _ hd => (by cases hd),
    tags_set (fun st hst => (h.tasks st hst).mono fun _ _ hx => (kind_reap s k rxs name _).trans hx) k ?_⟩
  intro p hp
  exact (kind_reap s k rxs name _).trans (hr p (List.mem_of_mem_filter hp))

theorem tagged_finish (h : s.Tagged) (k : Nat) : (s.finish k).Tagged :=
  ⟨h.wintun, h.dns, fun st hst => h.tasks st (List.mem_of_mem_eraseIdx hst)⟩

theorem tagged_step (h : s.Tagged) {op : ClientOp} {s' : ClientApp} (hs : s.step op = some s') : s'.Tagged := by
  cases (moves_of_step hs).2.2 with
  | start config saved => exact tagged_start h config saved
  | stop => exact tagged_stop h
  | quit => exact tagged_quit h
  | exit _ => exact h.killOpt (some _)
  | spawnWintun ok _ => exact tagged_spawnWintun h _ ok
  | storeWintun hk => exact tagged_storeWintun h hk
  | checkDns hk => exact tagged_checkDns h hk
  | spawnDns ok hk => exact tagged_spawnDns h hk ok
  | storeDns hk => exact tagged_storeDns h hk
  | reap hk _ _ => exact tagged_reap h hk _
  | finish _ => exact tagged_finish h _

theorem tagged_run (h : s.Tagged) {ops : List ClientOp} {s' : ClientApp} (hrun : s.run ops = some s') : s'.Tagged := by
  induction ops generalizing s with
  | nil =>
    cases hrun
    exact h
  | cons op ops ih =>
    obtain ⟨t, ht, hrun⟩ := Option.bind_eq_some.mp hrun
    exact ih (tagged_step h ht) hrun

end Tagging

section Drain
variable {t : ClientApp}

theorem ended_reap (k : Nat) (rxs : List (Sidecar × Nat)) (name : Sidecar) {n : Nat}
    (h : t.procs[n]?.map (·.running) = some false) : (t.reap k rxs name).procs[n]?.map (·.running) = some false := by
  cases name
  · exact ended_killOpt t t.dns h
  · exact ended_killOpt t t.wintun h

theorem running_reap {k : Nat} {rxs : List (Sidecar × Nat)} {name : Sidecar} {n : Nat}
    (h : Running (t.reap k rxs name).procs n) : Running t.procs n := by
  cases name <;> simp_all [reap]

theorem drain_nil (hex : t.exited = false) (hh : t.hung = false) (ht : t.tasks = [.watch []]) :
    ∃ turns t', turns.all (ClientOp.isTurn 0) = true ∧ t.run turns = some t' ∧ t'.tasks = [] ∧
      t'.events.getLast? = some false ∧ ∀ n, Running t'.procs n → Running t.procs n := by
  have hs := step_of_moves hex hh (.finish (k := 0) (by rw [ht]; rfl))
  exact ⟨[.finish 0], t.finish 0, rfl, by simp [run, hs], by simp [finish, ht], by simp [finish], fun _ hn => hn⟩

theorem drain_ended (rxs : List (Sidecar × Nat)) (hex : t.exited = false) (hh : t.hung = false)
    (ht : t.tasks = [.watch rxs]) (hend : ∀ p ∈ rxs, t.procs[p.2]?.map (·.running) = some false) :
    ∃ turns t', turns.all (ClientOp.isTurn 0) = true ∧ t.run turns = some t' ∧ t'.tasks = [] ∧
      t'.events.getLast? = some false ∧ ∀ n, Running t'.procs n → Running t.procs n := by
  obtain ⟨k, hk⟩ : ∃ k, rxs.length ≤ k := ⟨_, le_rfl⟩
  induction k generalizing rxs t with
  | zero =>
    rw [List.eq_nil_of_length_eq_zero (Nat.le_zero.mp hk)] at ht
    exact drain_nil hex hh ht
  | succ k ih =>
    cases rxs with
    | nil => exact drain_nil hex hh ht
    | cons p rest =>
      obtain ⟨name, n⟩ := p
      have hl : ((name, n) :: rest).lookup name = some n := List.lookup_cons_self
      have hs := step_of_moves hex hh (.reap (k := 0) (by rw [ht]; rfl) hl (hend _ (List.mem_cons_self _ _)))
      have ht₁ : (t.reap 0 ((name, n) :: rest) name).tasks = [.watch (rest.filter (·.1 != name))] := by
        simp [reap, ht]
      obtain ⟨turns, t', hturns, hrun, htasks, hlast, hrunning⟩ :=
        ih (rest.filter (·.1 != name)) (by cases name <;> simp [reap, hex]) (by cases name <;> simp [reap, hh]) ht₁
          (fun q hq => ended_reap 0 _ name (hend q (List.mem_cons_of_mem _ (List.mem_of_mem_filter hq))))
          (by have := List.length_filter_le (·.1 != name) rest; simp only [List.length_cons] at hk; omega)
      refine ⟨.reap 0 name :: turns, t', by simpa [ClientOp.isTurn] using hturns, by simp [run, hs, hrun], htasks, hlast,
        fun m hm => running_reap (hrunning m hm)⟩

end Drain

end ClientApp

/-- From every state a serial run reaches that holds a `wintun` child, with the task in its loop,
`stop` and the task's own turns leave no task, no sidecar running, and the window told `false`. -/
theorem stop_brings_client_to_rest (file : Option Config) (resources : Resources) (ops : List ClientOp)
    (s : ClientApp) (hserial : (ClientApp.new file resources).serialRun ops = true)
    (hrun : (ClientApp.new file resources).run ops = some s) (hex : s.exited = false)
    (hloop : s.tasks.all Stage.inLoop = true) (hw : s.wintun ≠ none) :
    ∃ turns s', turns.all (ClientOp.isTurn 0) = true ∧ s.run (.stop :: turns) = some s' ∧ s'.tasks = [] ∧
      (∀ n, ¬ Running s'.procs n) ∧ s'.events.getLast? = some false := by
  have hi := ClientApp.run_inv (ClientApp.inv_new file resources) hserial hrun
  have htag := ClientApp.tagged_run (ClientApp.tagged_new file resources) hrun
  obtain ⟨c, hc⟩ := Option.ne_none_iff_exists'.mp hw
  have hh : s.hung = false := Bool.eq_false_iff.mpr fun hh => hw (hi.hung hh)
  have hstop := ClientApp.step_of_moves hex hh .stop
  have hi₁ := ClientApp.inv_stop hi
  have htag₁ := ClientApp.tagged_stop htag
  have hex₁ : s.stop.exited = false := (ClientApp.stop_exited s).trans hex
  have hh₁ : s.stop.hung = false := by rw [ClientApp.stop_of_some s hc]; exact hh
  obtain ⟨st, ht, hfit⟩ := hi.tasks.resolve_left fun ⟨_, hn, _⟩ => hw hn
  obtain ⟨rxs, rfl⟩ : ∃ rxs, st = .watch rxs := by cases st <;> simp_all [Stage.inLoop]
  obtain ⟨hfw, -, -⟩ := hfit
  have hl : rxs.lookup .wintun = some c := hfw c hc
  have ht₁ : s.stop.tasks = [.watch rxs] := (ClientApp.stop_tasks s).trans ht
  -- with no child held, and none waiting for its store, nothing runs
  have hquiet : ∀ (t : ClientApp) (rxs' : List (Sidecar × Nat)), t.Held → t.wintun = none → t.dns = none →
      t.tasks = [.watch rxs'] → ∀ n, ¬ Running t.procs n :=
    fun t rxs' hh hw hd ht n hn => by rcases hh n hn with h | h | ⟨st, hst, hp⟩ <;> simp_all [Stage.pending]
  have hkind : Kind s.stop.procs c = some .wintun :=
    htag₁.tasks (.watch rxs) (by rw [ht₁]; exact List.mem_singleton_self _) _ (mem_of_lookup hl)
  have hend : s.stop.procs[c]?.map (·.running) = some false := by
    refine ClientApp.ended_of_kind hkind fun hn => ?_
    rcases hi₁.held c hn with h | h | ⟨st, hst, hp⟩
    · simp at h
    · simp [htag₁.dns c h] at hkind
    · simp only [ht₁, List.mem_singleton] at hst
      simp [hst, Stage.pending] at hp
  let s₂ := s.stop.reap 0 rxs .wintun
  have hi₂ := ClientApp.inv_reap (k := 0) hi₁ (by rw [ht₁]; rfl) hl hend
  have ht₂ : s₂.tasks = [.watch (rxs.filter (·.1 != .wintun))] := by simp [s₂, ClientApp.reap, ht]
  have hq := hquiet s₂ _ hi₂.held rfl rfl ht₂
  obtain ⟨turns, s', hturns, hrun', htasks, hlast, hrunning⟩ :=
    ClientApp.drain_ended _ (by simp [s₂, ClientApp.reap, hex]) (by simp [s₂, ClientApp.reap, hh₁]) ht₂ fun p hp =>
      ClientApp.ended_of_kind ((ClientApp.tagged_reap (k := 0) htag₁ (by rw [ht₁]; rfl) .wintun).tasks
        (.watch (rxs.filter (·.1 != .wintun))) (by rw [ht₂]; exact List.mem_singleton_self _) p hp) (hq _)
  refine ⟨.reap 0 .wintun :: turns, s', by simpa [ClientOp.isTurn] using hturns, ?_, htasks,
    fun m hm => hq m (hrunning m hm), hlast⟩
  simp [ClientApp.run, hstop, ClientApp.step_of_moves hex₁ hh₁ (.reap (k := 0) (by rw [ht₁]; rfl) hl hend), hrun', s₂]

/-- `start` with the default config, its task's spawn and store of `wintun` and its check
of `enable_dns`: the task is in its loop, watching `wintun`. -/
theorem started_client_stops : ∃ s, (ClientApp.new none demoResources).run (stopOnce.take 4) = some s ∧
    ∃ turns s', turns.all (ClientOp.isTurn 0) = true ∧ s.run (.stop :: turns) = some s' ∧ s'.tasks = [] ∧
      (∀ n, ¬ Running s'.procs n) ∧ s'.events.getLast? = some false :=
  ⟨_, rfl, stop_brings_client_to_rest none demoResources (stopOnce.take 4) _ (by decide) rfl rfl rfl (by decide)⟩

end TrojanRs
