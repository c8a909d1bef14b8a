import Timechain.ChainTasks

/-!
# The limits of scheduling

A call of `schedule_tasks` goes through the networks and the shards of each
of them with one count of the tasks it has assigned. Whatever order storage
is iterated in, the call performs a sequence of assignments: the read task
of a network to one of its shards, and the tasks of a network's queue, from
its head on, to the registered online shards. No more tasks are assigned
than a block may, and no shard is given more than its network's limit.
-/

namespace Timechain

namespace Tasks

/-- A read task or a queued task is given to a shard. -/
inductive Assignment where
  | read (network : NetworkId) (shard : ShardId) (taskId : TaskId)
  | queued (network : NetworkId) (shard : ShardId) (taskId : TaskId)

namespace Assignment

/-- A read task has to be free, a queued task at the head of the queue. -/
def perform (s : State) : Assignment → Option State
  | read network shard taskId =>
      if s.readEventsTask.get network = some taskId ∧ s.taskShard.get taskId = none then
        some (s.assignTask shard taskId)
      else none
  | queued network shard taskId =>
      match s.uaTasks.pop network with
      | (none, _) => none
      | (some head, queue) =>
          if head = taskId then some ({ s with uaTasks := queue }.assignTask shard taskId)
          else none

/-- The queued task of a network. -/
def taken (network : NetworkId) : Assignment → Option TaskId
  | read .. => none
  | queued n _ taskId => if n = network then some taskId else none

end Assignment

/-- The tasks taken from the queue of a network, in order. -/
def takenFrom (network : NetworkId) (log : List Assignment) : List TaskId :=
  log.filterMap (Assignment.taken network)

theorem perform_queued {s s' : State} {network : NetworkId} {shard : ShardId} {taskId : TaskId}
    (h : (Assignment.queued network shard taskId).perform s = some s') :
    ∃ queue, s.uaTasks.pop network = (some taskId, queue) ∧
      s' = { s with uaTasks := queue }.assignTask shard taskId := by
  rw [Assignment.perform] at h
  split at h
  · cases h
  · next head queue hpop =>
    obtain ⟨rfl, h⟩ := Option.ite_none_right_eq_some.mp h
    exact ⟨queue, hpop, (Option.some.inj h).symm⟩

theorem perform_contents {s s' : State} {a : Assignment} (h : a.perform s = some s')
    (network : NetworkId) :
    s.uaTasks.contents network = takenFrom network [a] ++ s'.uaTasks.contents network := by
  cases a with
  | read n x t =>
      obtain ⟨-, h⟩ := Option.ite_none_right_eq_some.mp h
      cases h
      rfl
  | queued n x t =>
      obtain ⟨queue, hpop, rfl⟩ := perform_queued h
      change s.uaTasks.contents network = takenFrom network [.queued n x t] ++
        queue.contents network
      by_cases hn : n = network
      · subst hn
        simpa [takenFrom, Assignment.taken] using QueueImpl.pop_cons hpop
      · have hother := s.uaTasks.contents_pop_of_ne (n := n) (Ne.symm hn)
        rw [hpop] at hother
        simpa [takenFrom, Assignment.taken, hn] using hother.symm

theorem performAll_contents {s s' : State} {log : List Assignment}
    (h : log.foldlM Assignment.perform s = some s') (network : NetworkId) :
    s.uaTasks.contents network = takenFrom network log ++ s'.uaTasks.contents network := by
  induction log generalizing s with
  | nil =>
      cases h
      rfl
  | cons a log ih =>
      obtain ⟨s₁, hfirst, h⟩ := Option.bind_eq_some_iff.mp (List.foldlM_cons.symm.trans h)
      rw [perform_contents hfirst, ih h, ← List.append_assoc, takenFrom, takenFrom,
        ← List.filterMap_append]
      rfl

def State.load (s : State) (shard : ShardId) : Nat := s.shardTaskCount.getD shard 0

/-- The assignments of a part of `schedule_tasks`. -/
structure Allots (env : Env) (s s' : State) (log : List Assignment) : Prop where
  performed : log.foldlM Assignment.perform s = some s'
  read : ∀ {network shard taskId}, .read network shard taskId ∈ log →
    s.networkShards.get (network, shard) ≠ none
  queued : ∀ {network shard taskId}, .queued network shard taskId ∈ log →
    s.networkShards.get (network, shard) ≠ none ∧ s.isShardRegistered env shard = true ∧
      env.shards.isShardOnline shard = true
  limit : ∀ shard, s'.load shard ≤ s.load shard ∨
    ∃ network, s.networkShards.get (network, shard) ≠ none ∧
      s'.load shard ≤ env.networks.shardTaskLimit network
  networkShards : s'.networkShards = s.networkShards
  shardRegistered : s'.shardRegistered = s.shardRegistered
  readEventsTask : s'.readEventsTask = s.readEventsTask

namespace Allots

variable {env : Env} {s s' s'' : State} {log log' : List Assignment}

theorem refl (env : Env) (s : State) : Allots env s s [] where
  performed := rfl
  read h := (List.not_mem_nil h).elim
  queued h := (List.not_mem_nil h).elim
  limit _ := .inl (Nat.le_refl _)
  networkShards := rfl
  shardRegistered := rfl
  readEventsTask := rfl

theorem isShardRegistered (h : Allots env s s' log) (shard : ShardId) :
    s'.isShardRegistered env shard = s.isShardRegistered env shard := by
  simp only [State.isShardRegistered, h.shardRegistered]

theorem trans (h : Allots env s s' log) (h' : Allots env s' s'' log') :
    Allots env s s'' (log ++ log') where
  performed := by
    rw [List.foldlM_append, h.performed]
    exact h'.performed
  read {n x t} hmem := by
    rcases List.mem_append.mp hmem with hmem | hmem
    · exact h.read hmem
    · have hlisted := h'.read hmem
      rwa [h.networkShards] at hlisted
  queued {n x t} hmem := by
    rcases List.mem_append.mp hmem with hmem | hmem
    · exact h.queued hmem
    · have hserves := h'.queued hmem
      rwa [h.networkShards, h.isShardRegistered] at hserves
  limit x := by
    rcases h'.limit x with hle | ⟨n, hn, hle⟩
    · exact (h.limit x).imp hle.trans fun ⟨n, hn, hlimit⟩ => ⟨n, hn, hle.trans hlimit⟩
    · rw [h.networkShards] at hn
      exact .inr ⟨n, hn, hle⟩
  networkShards := h'.networkShards.trans h.networkShards
  shardRegistered := h'.shardRegistered.trans h.shardRegistered
  readEventsTask := h'.readEventsTask.trans h.readEventsTask

end Allots

section Loops

variable {cfg : Config} {env : Env} {s : State}

theorem load_assignTask (s : State) (shard x : ShardId) (taskId : TaskId) :
    (s.assignTask shard taskId).load x ≤ if x = shard then s.load x + 1 else s.load x := by
  rw [State.load, State.assignTask, StorageMap.getD_insert]
  split
  · next hx =>
    subst hx
    exact satAdd_le ..
  · exact Nat.le_refl _

/-- One assignment, to a shard that has room. -/
theorem assign_limit {network : NetworkId} {shard : ShardId}
    (hlisted : s.networkShards.get (network, shard) ≠ none)
    (hroom : s.load shard < env.networks.shardTaskLimit network) (queue : QueueImpl NetworkId TaskId)
    (taskId : TaskId) (x : ShardId) :
    ({ s with uaTasks := queue }.assignTask shard taskId).load x ≤ s.load x ∨
      ∃ n, s.networkShards.get (n, x) ≠ none ∧
        ({ s with uaTasks := queue }.assignTask shard taskId).load x ≤
          env.networks.shardTaskLimit n := by
  have hload := load_assignTask { s with uaTasks := queue } shard x taskId
  split at hload
  · next hx =>
    subst hx
    exact .inr ⟨network, hlisted, hload.trans hroom⟩
  · exact .inl hload

/-- A shard of the network that takes queued tasks. -/
structure Takes (env : Env) (s : State) (network : NetworkId) (shard : ShardId) : Prop where
  listed : s.networkShards.get (network, shard) ≠ none
  registered : s.isShardRegistered env shard = true
  online : env.shards.isShardOnline shard = true

theorem scheduleTasksShard_allots {network : NetworkId} {shard : ShardId} (capacity : Nat)
    (htakes : Takes env s network shard)
    (hroom : capacity ≠ 0 → s.load shard + capacity ≤ env.networks.shardTaskLimit network)
    (assigned : Nat) :
    ∃ log, Allots env s (State.scheduleTasksShard network shard capacity s assigned).1 log ∧
      log.length ≤ capacity ∧
      (assigned + capacity < 2 ^ 32 →
        (State.scheduleTasksShard network shard capacity s assigned).2 =
          assigned + log.length) := by
  induction capacity generalizing s assigned with
  | zero => exact ⟨[], .refl env s, Nat.le_refl 0, fun _ => rfl⟩
  | succ capacity ih =>
      have hroom := hroom (Nat.succ_ne_zero capacity)
      rw [State.scheduleTasksShard]
      split
      · exact ⟨[], .refl env s, Nat.zero_le _, fun _ => rfl⟩
      · next taskId queue hpop =>
        have hfirst : Allots env s ({ s with uaTasks := queue }.assignTask shard taskId)
            [.queued network shard taskId] :=
          { performed := by
              rw [List.foldlM_cons, Assignment.perform, hpop]
              simp
            read := fun h => by simp at h
            queued := fun h => by
              obtain ⟨rfl, rfl, rfl⟩ := by simpa using h
              exact ⟨htakes.listed, htakes.registered, htakes.online⟩
            limit := assign_limit htakes.listed (by omega) queue taskId
            networkShards := rfl
            shardRegistered := rfl
            readEventsTask := rfl }
        have hload := load_assignTask { s with uaTasks := queue } shard shard taskId
        rw [if_pos rfl] at hload
        change _ ≤ s.load shard + 1 at hload
        obtain ⟨log, hlog, hlength, hcount⟩ := ih
          (s := { s with uaTasks := queue }.assignTask shard taskId)
          ⟨htakes.listed, htakes.registered, htakes.online⟩ (fun _ => by omega) (satSucc 32 assigned)
        refine ⟨_, hfirst.trans hlog, Nat.succ_le_succ hlength, fun hlt => ?_⟩
        have hsucc : satSucc 32 assigned = assigned + 1 :=
          satSucc_of_lt (Nat.lt_of_lt_of_le (by omega) (le_maxVal_iff.mpr hlt))
        rw [hcount (by omega), hsucc]
        simp only [List.length_append, List.length_singleton]
        omega

/-- A loop that is entered with `assigned` tasks stays within the block's
maximum, and counts its assignments. -/
def Fills (cfg : Config) (env : Env) (s : State) (assigned : Nat) (loop : State.Loop) : Prop :=
  ∃ log, Allots env s loop.state log ∧ assigned + log.length ≤ cfg.maxTasksPerBlock ∧
    ∀ s' assigned', loop = .next s' assigned' → assigned' = assigned + log.length

theorem Fills.stay {assigned : Nat} (h : assigned ≤ cfg.maxTasksPerBlock) :
    Fills cfg env s assigned (.next s assigned) := by
  refine ⟨[], .refl env s, h, fun s' assigned' heq => ?_⟩
  cases heq
  rfl

theorem Fills.stop {assigned : Nat} (h : assigned ≤ cfg.maxTasksPerBlock) :
    Fills cfg env s assigned (.done s) :=
  ⟨[], .refl env s, h, fun s' assigned' heq => by cases heq⟩

theorem Fills.le {assigned assigned₁ : Nat} {s₁ : State}
    (h : Fills cfg env s assigned (.next s₁ assigned₁)) : assigned₁ ≤ cfg.maxTasksPerBlock := by
  obtain ⟨log, -, hbound, hnext⟩ := h
  rw [hnext s₁ assigned₁ rfl]
  exact hbound

theorem Fills.trans {assigned assigned₁ : Nat} {s₁ : State} {loop : State.Loop}
    (h : Fills cfg env s assigned (.next s₁ assigned₁))
    (h' : Fills cfg env s₁ assigned₁ loop) : Fills cfg env s assigned loop := by
  obtain ⟨log, hlog, -, hnext⟩ := h
  obtain ⟨rest, hrest, hbound, hnext'⟩ := h'
  obtain rfl := hnext s₁ assigned₁ rfl
  refine ⟨log ++ rest, hlog.trans hrest, ?_, fun s' assigned' heq => ?_⟩
  · rw [List.length_append]
    omega
  · rw [hnext' s' assigned' heq, List.length_append, Nat.add_assoc]

theorem Fills.frame {assigned assigned₁ : Nat} {s₁ : State}
    (h : Fills cfg env s assigned (.next s₁ assigned₁)) :
    s₁.networkShards = s.networkShards ∧ s₁.readEventsTask = s.readEventsTask ∧
      ∀ shard, s₁.isShardRegistered env shard = s.isShardRegistered env shard := by
  obtain ⟨log, hlog, -, -⟩ := h
  exact ⟨hlog.networkShards, hlog.readEventsTask, hlog.isShardRegistered⟩

theorem scheduleShards_fills {network : NetworkId} {quota : Nat} {shards : List ShardId}
    (hquota : quota ≤ env.networks.shardTaskLimit network)
    (htakes : ∀ shard ∈ shards, Takes env s network shard) {assigned : Nat}
    (hassigned : assigned ≤ cfg.maxTasksPerBlock) :
    Fills cfg env s assigned (State.scheduleShards cfg network quota shards s assigned) := by
  have hmax := cfg.maxTasksPerBlock_lt
  induction shards generalizing s assigned with
  | nil => exact .stay hassigned
  | cons shard shards ih =>
      obtain ⟨hshard, htakes⟩ := List.forall_mem_cons.mp htakes
      rw [State.scheduleShards]
      have hload : s.load shard = s.shardTaskCount.getD shard 0 := rfl
      have hle := satAdd_le 32 assigned (quota - s.shardTaskCount.getD shard 0)
      split
      · next hlt =>
        -- a sum below the maximum is not saturated
        have hsum : satAdd 32 assigned (quota - s.shardTaskCount.getD shard 0) =
            assigned + (quota - s.shardTaskCount.getD shard 0) := by
          have hmax' := le_maxVal_iff.mpr hmax
          rw [satAdd] at hlt ⊢
          omega
        obtain ⟨log, hlog, hlength, hcount⟩ := scheduleTasksShard_allots
          (quota - s.shardTaskCount.getD shard 0) hshard (fun _ => by omega) 0
        have hnum := hcount (by omega)
        cases hrun : State.scheduleTasksShard network shard
            (quota - s.shardTaskCount.getD shard 0) s 0 with
        | mk s₁ num =>
            rw [hrun] at hlog hnum
            have htotal : satAdd 32 assigned num = assigned + log.length := by
              change num = 0 + log.length at hnum
              rw [hnum, satAdd_of_lt (by omega), Nat.zero_add]
            have hfirst : Fills cfg env s assigned (.next s₁ (satAdd 32 assigned num)) := by
              refine ⟨log, hlog, by omega, fun s' assigned' heq => ?_⟩
              cases heq
              exact htotal
            obtain ⟨hshards, -, hregistered⟩ := hfirst.frame
            refine hfirst.trans (ih (fun x hx => ?_) hfirst.le)
            have hx := htakes x hx
            exact ⟨hshards ▸ hx.listed, (hregistered x).trans hx.registered, hx.online⟩
      · next hfull =>
        obtain ⟨log, hlog, hlength, -⟩ := scheduleTasksShard_allots
          (cfg.maxTasksPerBlock - assigned) hshard (fun _ => by omega) 0
        exact ⟨log, hlog, by omega, fun s' assigned' heq => by cases heq⟩

theorem scheduleReadTask_fills {network : NetworkId} {taskId : TaskId} {shards : List ShardId}
    (hshards : ∀ shard ∈ shards, s.networkShards.get (network, shard) ≠ none)
    (hread : s.readEventsTask.get network = some taskId) (hfree : s.taskShard.get taskId = none)
    {assigned : Nat} (hassigned : assigned ≤ cfg.maxTasksPerBlock) :
    Fills cfg env s assigned (State.scheduleReadTask cfg
      (env.networks.shardTaskLimit network) taskId assigned s shards) := by
  have hmax := cfg.maxTasksPerBlock_lt
  induction shards with
  | nil => exact .stay hassigned
  | cons shard shards ih =>
      obtain ⟨hshard, hshards⟩ := List.forall_mem_cons.mp hshards
      rw [State.scheduleReadTask]
      split
      · next hroom =>
        split
        · exact .stop hassigned
        · next hne =>
          have hlt : assigned < cfg.maxTasksPerBlock := Nat.lt_of_le_of_ne hassigned hne
          have hsucc : satSucc 32 assigned = assigned + 1 :=
            satSucc_of_lt (Nat.lt_of_lt_of_le hlt (le_maxVal_iff.mpr hmax))
          refine ⟨[.read network shard taskId], ?_, hlt, fun s' assigned' heq => ?_⟩
          · exact
              { performed := by
                  rw [List.foldlM_cons, Assignment.perform, if_pos ⟨hread, hfree⟩]
                  rfl
                read := fun h => by
                  obtain ⟨rfl, rfl, rfl⟩ := by simpa using h
                  exact hshard
                queued := fun h => by simp at h
                limit := assign_limit hshard hroom s.uaTasks taskId
                networkShards := rfl
                shardRegistered := rfl
                readEventsTask := rfl }
          · cases heq
            exact hsucc
      · exact ih hshards

theorem scheduleNetwork_fills {network : NetworkId} {taskId : TaskId} {assigned : Nat}
    {loop : State.Loop} (hread : s.readEventsTask.get network = some taskId)
    (hassigned : assigned ≤ cfg.maxTasksPerBlock)
    (h : State.scheduleNetwork cfg env network taskId s assigned = some loop) :
    Fills cfg env s assigned loop := by
  have hreadTask : Fills cfg env s assigned
      (if s.taskShard.containsKey taskId then State.Loop.next s assigned
        else State.scheduleReadTask cfg (env.networks.shardTaskLimit network) taskId assigned s
          (s.shardsOf cfg network)) := by
    split
    · exact .stay hassigned
    · next hs =>
      rw [StorageMap.containsKey_iff, not_not] at hs
      exact scheduleReadTask_fills (fun _ hmem => mem_shardsOf.mp hmem) hread hs hassigned
  simp only [State.scheduleNetwork] at h
  split at h
  · next s₁ heq =>
    rw [heq] at hreadTask
    cases h
    exact hreadTask
  · next s₁ assigned₁ heq =>
    rw [heq] at hreadTask
    refine hreadTask.trans ?_
    split at h
    · cases h
      exact .stay hreadTask.le
    · simp only [bind, Option.bind_eq_some_iff, pure, Option.some.injEq] at h
      obtain ⟨quota, -, rfl⟩ := h
      refine scheduleShards_fills (Nat.min_le_right ..) (fun shard hmem => ?_) hreadTask.le
      obtain ⟨hlisted, hcond⟩ := List.mem_filter.mp hmem
      obtain ⟨hregistered, honline⟩ := Bool.and_eq_true_iff.mp hcond
      exact ⟨mem_shardsOf.mp hlisted, hregistered, honline⟩

theorem scheduleNetworks_allots {entries : List (NetworkId × TaskId)} {s' : State} {assigned : Nat}
    (hread : ∀ e ∈ entries, s.readEventsTask.get e.1 = some e.2)
    (hassigned : assigned ≤ cfg.maxTasksPerBlock)
    (h : State.scheduleNetworks cfg env entries s assigned = some s') :
    ∃ log, Allots env s s' log ∧ assigned + log.length ≤ cfg.maxTasksPerBlock := by
  induction entries generalizing s assigned with
  | nil =>
      cases h
      exact ⟨[], .refl env _, hassigned⟩
  | cons e entries ih =>
      obtain ⟨network, taskId⟩ := e
      obtain ⟨hfirst, hread⟩ := List.forall_mem_cons.mp hread
      rw [State.scheduleNetworks] at h
      split at h
      · cases h
      · next s₁ heq =>
        cases h
        obtain ⟨log, hlog, hbound, -⟩ := scheduleNetwork_fills hfirst hassigned heq
        exact ⟨log, hlog, hbound⟩
      · next s₁ assigned₁ heq =>
        have hfills := scheduleNetwork_fills hfirst hassigned heq
        rw [← hfills.frame.2.1] at hread
        obtain ⟨rest, hrest, hbound⟩ := ih hread hfills.le h
        obtain ⟨log, hlog, -, hnext⟩ := hfills
        obtain rfl := hnext s₁ assigned₁ rfl
        refine ⟨log ++ rest, hlog.trans hrest, ?_⟩
        rw [List.length_append]
        omega

/-- A call of `schedule_tasks` is a sequence of assignments. -/
theorem scheduleTasks_allots {s' : State} (h : s.scheduleTasks cfg env = some s') :
    ∃ log, Allots env s s' log ∧ log.length ≤ cfg.maxTasksPerBlock := by
  obtain ⟨log, hlog, hbound⟩ := scheduleNetworks_allots (fun _ he => StorageMap.mem_iter.mp he)
    (Nat.zero_le _) h
  exact ⟨log, hlog, by omega⟩

end Loops

theorem prepareBatches_networkShards {cfg : Config} {env : Env} {s : State} :
    (s.prepareBatches cfg env).1.networkShards = s.networkShards := by
  refine prepareBatches_rule (P := fun t => t.networkShards = s.networkShards)
    (fun _ h => h) (fun {t} network msg h => ?_) rfl
  refine Eq.trans (createTask_networkShards ..) (Eq.trans ?_ h)
  exact congrArg TaskStore.networkShards (foldl_recordOp_toTaskStore ..)

end Tasks

namespace Chain

/-- The hook of the tasks pallet calls `schedule_tasks` after batches have
been prepared. In every reachable state, and whatever the limits are, the
call assigns at most the maximum for a block, raises no count above the
limit of the shard's network, takes the tasks of each queue from its head
on, and gives them to registered online shards of the network. -/
theorem scheduling_respects_limits {cfg : Config} {ok : State → Input → Prop} {is : List Input}
    {s : State} (hrun : ChainRun cfg ok is s) (networks : Networks) {t t' : Tasks.State}
    (ht : t = s.tasks ∨ t = (s.tasks.prepareBatches cfg.tasks (s.tasksEnv cfg networks)).1)
    (h : t.scheduleTasks cfg.tasks (s.tasksEnv cfg networks) = some t') :
    ∃ log : List Tasks.Assignment,
      log.foldlM Tasks.Assignment.perform t = some t' ∧
      log.length ≤ cfg.tasks.maxTasksPerBlock ∧
      (∀ shard, t.shardTaskCount.getD shard 0 < t'.shardTaskCount.getD shard 0 →
        ∃ network, s.shards.shardNetwork.get shard = some network ∧
          t'.shardTaskCount.getD shard 0 ≤ (networks.shardTaskLimit network).toNat) ∧
      (∀ network, t.uaTasks.contents network =
        Tasks.takenFrom network log ++ t'.uaTasks.contents network) ∧
      ∀ network shard taskId, .queued network shard taskId ∈ log →
        s.shards.shardNetwork.get shard = some network ∧
        s.shards.shardState.get shard = some .online ∧
        ∃ key, Shards.tssPublicKey s.shards shard = some key ∧
          t.shardRegistered.get key ≠ none := by
  have hshards : t.networkShards = s.tasks.networkShards := by
    rcases ht with rfl | rfl
    · rfl
    · exact Tasks.prepareBatches_networkShards
  have hlisted : ∀ {network shard}, t.networkShards.get (network, shard) ≠ none →
      s.shards.shardNetwork.get shard = some network := by
    intro network shard hnetwork
    rw [hshards] at hnetwork
    exact (((run_booked hrun).1.listed_iff network shard).mp hnetwork).2
  obtain ⟨log, hlog, hbound⟩ := Tasks.scheduleTasks_allots h
  refine ⟨log, hlog.performed, hbound, fun shard hlt => ?_,
    Tasks.performAll_contents hlog.performed, fun network shard taskId hmem => ?_⟩
  · rcases hlog.limit shard with hle | ⟨network, hnetwork, hle⟩
    · exact absurd hlt (Nat.not_lt.mpr hle)
    · exact ⟨network, hlisted hnetwork, hle⟩
  · obtain ⟨hnetwork, hregistered, honline⟩ := hlog.queued hmem
    refine ⟨hlisted hnetwork, beq_iff_eq.mp honline, ?_⟩
    rw [Tasks.State.isShardRegistered] at hregistered
    split at hregistered
    · next key hkey => exact ⟨key, hkey, StorageMap.containsKey_iff.mp hregistered⟩
    · cases hregistered

/-- Up to the hook of the tasks pallet in the last block. -/
def hookCalls : List Call := busyCalls.take (busyCalls.length - 2)

def hookEnv : Tasks.Env := (exampleState hookCalls).tasksEnv exampleConfig exampleNetworks

def hookTasks : Tasks.State :=
  ((exampleState hookCalls).tasks.prepareBatches exampleConfig.tasks hookEnv).1

def hookScheduled : Tasks.State :=
  (hookTasks.scheduleTasks exampleConfig.tasks hookEnv).getD hookTasks

theorem hookScheduled_eq :
    hookTasks.scheduleTasks exampleConfig.tasks hookEnv = some hookScheduled := by
  have hsome : (hookTasks.scheduleTasks exampleConfig.tasks hookEnv).isSome = true := by
    decide +kernel
  obtain ⟨t, ht⟩ := Option.isSome_iff_exists.mp hsome
  rw [hookScheduled, ht]
  rfl

theorem scheduling_respects_limits_busy :
    (hookTasks.shardTaskCount.getD 0 0, hookScheduled.shardTaskCount.getD 0 0) = (0, 2) ∧
      ∃ log : List Tasks.Assignment,
        log.foldlM Tasks.Assignment.perform hookTasks = some hookScheduled ∧
          log.length ≤ exampleConfig.tasks.maxTasksPerBlock := by
  have hrun : ChainRun exampleConfig (fun _ _ => True) (hookCalls.map exampleInput)
      (exampleState hookCalls) := exampleState_run (fun _ _ _ => trivial) (by decide +kernel)
  obtain ⟨log, hlog, hbound, -⟩ :=
    scheduling_respects_limits hrun exampleNetworks (.inr rfl) hookScheduled_eq
  exact ⟨by decide +kernel, log, hlog, hbound⟩

end Chain

end Timechain
