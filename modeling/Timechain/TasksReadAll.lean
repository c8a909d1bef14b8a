import Timechain.TasksReading

/-!
# No block is skipped

The sync height of a network only moves over the blocks of a task whose
report was accepted, whatever arrives in between (`no_block_skipped`).

The argument rests on tasks keeping their meaning, that is, on ids being
used once. The id counter stays at 2^64 - 1 when it gets there, and from
then on `create_task` overwrites the last task. A shard that was given
the last id to read one network then reports it for another
(`reused_id_skips_blocks`).
-/

namespace Timechain

namespace Tasks

variable {cfg : Config} {home : ShardId → NetworkId} {network : NetworkId} {s s' : State}

/-! ## No block is skipped -/

/-- Some accepted report in the run `is` covers `block`: its task reads it
and was created for `network`. -/
def ReadIn (cfg : Config) (network : NetworkId) (is : List Input) (block : Nat) : Prop :=
  ∃ pre i post s taskId blocks events, is = pre ++ i :: post ∧
    Run (exec cfg) (fun _ _ => True) State.genesis pre s ∧
    Reported cfg network s i taskId blocks events ∧ (taskId, blocks) ∈ s.reads network ∧
    blocks.Mem block

theorem ReadIn.next {is : List Input} {block : Nat} (h : ReadIn cfg network is block) (i : Input) :
    ReadIn cfg network (is ++ [i]) block := by
  obtain ⟨pre, j, post, s, taskId, blocks, events, rfl, hrest⟩ := h
  exact ⟨pre, j, post ++ [i], s, taskId, blocks, events, by simp, hrest⟩

/-- A block is covered by the last call or was covered before. -/
theorem ReadIn.last {is : List Input} {i : Input} {block : Nat}
    (h : ReadIn cfg network (is ++ [i]) block)
    (hrun : Run (exec cfg) (fun _ _ => True) State.genesis is s) :
    ReadIn cfg network is block ∨
      ∃ taskId blocks events, Reported cfg network s i taskId blocks events := by
  obtain ⟨pre, j, post, s', taskId, blocks, events, hsplit, hpre, hreported, hread, hmem⟩ := h
  rcases List.eq_nil_or_concat post with rfl | ⟨post, last, rfl⟩
  · obtain ⟨rfl, hij⟩ := List.append_inj' hsplit rfl
    obtain rfl : i = j := List.singleton_inj.mp hij
    rw [hrun.det hpre]
    exact Or.inr ⟨taskId, blocks, events, hreported⟩
  · rw [List.concat_eq_append, ← List.cons_append, ← List.append_assoc] at hsplit
    obtain ⟨rfl, -⟩ := List.append_inj' hsplit rfl
    exact Or.inl ⟨pre, j, post, s', taskId, blocks, events, rfl, hpre, hreported, hread, hmem⟩

/-- Nothing is read without a report. -/
theorem ReadIn.reports {is : List Input} {block : Nat} (h : ReadIn cfg network is block) :
    ∃ i ∈ is, ∃ origin taskId result, i.call = .submitTaskResult origin taskId result := by
  obtain ⟨pre, i, post, s, taskId, blocks, events, rfl, -, hreported, -⟩ := h
  obtain ⟨origin, shard, signature, hcall, -⟩ := hreported.accepted
  exact ⟨i, by simp, origin, taskId, _, hcall⟩

/-- What one call does to the sync height. -/
theorem CallStep.height_le {is : List Input} {i : Input}
    (h : CallStep cfg home (NoSync network) is s i s')
    (honce : (is ++ [i]).countP (Input.registers network) ≤ 1) :
    s.height network ≤ s'.height network := by
  obtain ⟨hlog, hfirst⟩ := run_logged h.run h.created
  rcases h.reading network with
    ⟨-, hun⟩ | ⟨-, taskId, blocks, events, hrep, rfl⟩ | ⟨block, hcall, rfl⟩ |
    ⟨origin, block, hcall, -⟩
  · exact Nat.le_of_eq hun.height.symm
  · rw [acceptEvents_height]
    split
    · next hstart =>
        rw [hstart]
        exact (hlog.range _ (hlog.mem hrep.opened)).1
    · exact Nat.le_refl _
  · have hreg : i.registers network = true := by simp [Input.registers, hcall]
    rw [List.countP_append, List.countP_singleton, if_pos hreg] at honce
    rw [(hfirst (by omega)).1]
    exact Nat.zero_le _
  · exact absurd hcall (h.ok origin block)

theorem height_mono {is : List Input} (h : PalletRun cfg home (NoSync network) is s)
    (hcreated : s.createdTasks.length < 2 ^ 64) (honce : is.countP (Input.registers network) ≤ 1)
    {pre post : List Input} {s₀ : State} (hsplit : is = pre ++ post)
    (hpre : Run (exec cfg) (fun _ _ => True) State.genesis pre s₀) :
    s₀.height network ≤ s.height network := by
  revert honce post
  refine run_induction (P := fun is s => is.countP (Input.registers network) ≤ 1 → ∀ {post},
    is = pre ++ post → s₀.height network ≤ s.height network) ?_ ?_ h hcreated
  · intro _ post hsplit
    obtain ⟨rfl, -⟩ := List.append_eq_nil_iff.mp hsplit.symm
    rw [hpre.det (.start : PalletRun cfg home (NoSync network) [] _)]
  · intro is s i s' hstep ih honce post hsplit
    have hle := hstep.height_le honce
    rcases List.eq_nil_or_concat post with rfl | ⟨post, j, rfl⟩
    · have hrun' := Run.next hstep.run ⟨hstep.homed, hstep.ok⟩ hstep.exec
      rw [hsplit, List.append_nil] at hrun'
      rw [hpre.det hrun']
    · rw [List.concat_eq_append, ← List.append_assoc] at hsplit
      obtain ⟨hsplit, -⟩ := List.append_inj' hsplit rfl
      refine Nat.le_trans (ih ?_ hsplit) hle
      rw [List.countP_append] at honce
      omega

theorem blocks_read {is : List Input} (h : PalletRun cfg home (NoSync network) is s)
    (hcreated : s.createdTasks.length < 2 ^ 64) (honce : is.countP (Input.registers network) ≤ 1)
    {i : Input} (hi : i ∈ is) {start : UInt64} (hcall : i.call = .gatewayRegistered network start)
    {block : Nat} (hlo : start.toNat ≤ block) (hhi : block < s.height network) :
    ReadIn cfg network is block := by
  revert honce hi hhi
  refine run_induction (P := fun is s => is.countP (Input.registers network) ≤ 1 → i ∈ is →
    block < s.height network → ReadIn cfg network is block) ?_ ?_ h hcreated
  · exact fun _ hi => nomatch hi
  · intro is s j s' hstep ih honce hi hhi
    have hreg : i.registers network = true := by simp [Input.registers, hcall]
    rw [List.countP_append, List.countP_singleton] at honce
    obtain ⟨hlog, -⟩ := run_logged hstep.run hstep.created
    have hold : j.registers network = false → i ∈ is := fun hj => by
      rcases List.mem_append.mp hi with hi | hi
      · exact hi
      · rw [List.mem_singleton.mp hi, hj] at hreg
        cases hreg
    rcases hstep.reading network with
      ⟨hj, hun⟩ | ⟨hj, taskId, blocks, events, hrep, rfl⟩ | ⟨b, hj, rfl⟩ | ⟨origin, b, hj, -⟩
    · rw [hun.height] at hhi
      exact (ih (by omega) (hold hj) hhi).next j
    · by_cases hread : block < s.height network
      · exact (ih (by omega) (hold hj) hread).next j
      · -- the height has moved over `block`, from the start of the task to its end
        rw [acceptEvents_height] at hhi
        split at hhi
        · next hstart =>
            refine ⟨is, j, [], s, taskId, blocks, events, rfl,
              hstep.run.mono fun _ _ _ => trivial, hrep, hlog.mem hrep.opened, ?_, hhi⟩
            omega
        · exact absurd hhi hread
    · rw [(gatewayRegistered_readsOn s j.env network b.toNat).1] at hhi
      rcases List.mem_append.mp hi with hi | hi
      · have hpos : 0 < is.countP (Input.registers network) := List.countP_pos_iff.mpr ⟨i, hi, hreg⟩
        rw [if_pos (by simp [Input.registers, hj])] at honce
        omega
      · rw [List.mem_singleton.mp hi, hj] at hcall
        cases hcall
        omega
    · exact absurd hj (hstep.ok origin b)

/-- **No gateway block is skipped.** In a run that registers the network
at most once, never syncs it by hand and creates fewer than 2^64 tasks,
the sync height never decreases, and every block between the registered
height and the sync height was read by a task of the network. -/
theorem no_block_skipped {is : List Input} (h : PalletRun cfg home (NoSync network) is s)
    (hcreated : s.createdTasks.length < 2 ^ 64)
    (honce : is.countP (Input.registers network) ≤ 1) :
    (∀ pre post s₀, is = pre ++ post → Run (exec cfg) (fun _ _ => True) State.genesis pre s₀ →
      s₀.height network ≤ s.height network) ∧
    ∀ i ∈ is, ∀ start, i.call = .gatewayRegistered network start →
      ∀ block, start.toNat ≤ block → block < s.height network → ReadIn cfg network is block :=
  ⟨fun _ _ _ hsplit hpre => height_mono h hcreated honce hsplit hpre,
    fun _ hi _ hcall _ hlo hhi => blocks_read h hcreated honce hi hcall hlo hhi⟩

theorem no_block_skipped_read :
    (exampleState readCalls).height 0 = 10 ∧
      ReadIn exampleConfig 0 (readCalls.map exampleInput) 5 := by
  have hrun : PalletRun exampleConfig exampleHome (NoSync 0) (readCalls.map exampleInput)
      (exampleState readCalls) :=
    exampleState_run (by decide +kernel) (fun s _ hcall => readCalls_noSync hcall s 0)
      (by decide +kernel)
  have hheight : (exampleState readCalls).height 0 = 10 := by decide +kernel
  refine ⟨hheight, (no_block_skipped hrun (by decide +kernel) (by decide +kernel)).2
    (exampleInput (.gatewayRegistered 0 0)) (List.mem_cons_self ..) 0 rfl 5 (Nat.zero_le _) ?_⟩
  rw [hheight]
  decide

/-! ## Ids that run out -/

/-- Shard 0 comes online before the gateway of its network is known. -/
def earlyShard : Input :=
  ⟨{ exampleEnv with networks := { exampleEnv.networks with gateway := fun _ => none } },
    .shardOnline 0 0⟩

/-- The example chain, with network 1 read in larger batches. -/
def unevenEnv : Env :=
  { exampleEnv with networks :=
      { exampleEnv.networks with nextBatchSize := fun network _ => if network = 1 then 20 else 10 } }

/-- Shard 0 is online, nothing is queued or assigned, and network 1 was
registered until `k` ids were used. -/
structure UsedUp (k : Nat) (s : State) : Prop where
  counter : s.taskIdCounter = k
  readEventsTask : ∀ network, network ≠ 1 → s.readEventsTask.get network = none
  networkShards : s.networkShards = (∅ : StorageMap _ _).insert (0, 0) ()
  taskShard : s.taskShard = ∅
  taskOutput : s.taskOutput = ∅
  shardTaskCount : s.shardTaskCount = ∅
  ops : s.ops = .empty
  shardRegistered : s.shardRegistered = ∅

theorem usedUp_zero :
    ∃ s, exec exampleConfig State.genesis earlyShard = some s ∧ UsedUp 0 s :=
  ⟨_, rfl, rfl, fun _ _ => rfl, rfl, rfl, rfl, rfl, rfl, rfl⟩

theorem UsedUp.next {k : Nat} (h : UsedUp k s) (hk : k < maxVal 64) :
    UsedUp (k + 1) (s.gatewayRegistered unevenEnv 1 0) where
  counter := by
    show satSucc 64 s.taskIdCounter = k + 1
    rw [h.counter, satSucc_of_lt hk]
  readEventsTask network hne :=
    (StorageMap.get_insert_of_ne _ _ hne).trans (h.readEventsTask network hne)
  networkShards := h.networkShards
  taskShard := h.taskShard
  taskOutput := h.taskOutput
  shardTaskCount := h.shardTaskCount
  ops := h.ops
  shardRegistered := h.shardRegistered

/-- Network 0 gets the last id, and the shard is given its task. -/
theorem UsedUp.assign {k : Nat} (h : UsedUp k s) (hk : k + 1 = maxVal 64)
    (hs' : s' = State.gatewayRegistered { s with readEventsTask := s.readEventsTask.remove 1 }
      unevenEnv 0 0) :
    s'.taskIdCounter = maxVal 64 ∧ s'.height 0 = 0 ∧
      s'.onInitialize exampleConfig unevenEnv = some (s'.assignTask 0 (maxVal 64)) := by
  have hid : satSucc 64 s.taskIdCounter = maxVal 64 := by
    rw [h.counter, satSucc_of_lt (by omega), hk]
  have hread : ∀ network, s'.readEventsTask.get network
      = if network = 0 then some (maxVal 64) else none := by
    intro network
    subst hs'
    show ((s.readEventsTask.remove 1).insert 0 (satSucc 64 s.taskIdCounter)).get network = _
    rw [hid, StorageMap.get_insert, StorageMap.get_remove]
    split
    · rfl
    · split
      · rfl
      · next hne => exact h.readEventsTask network hne
  subst hs'
  refine ⟨hid, rfl, ?_⟩
  have hnil : ∀ network, (State.gatewayRegistered
      { s with readEventsTask := s.readEventsTask.remove 1 } unevenEnv 0 0).ops.contents network
        = [] := by
    intro network
    show s.ops.contents network = []
    rw [h.ops]
    rfl
  rw [State.onInitialize, prepareBatches_of_nil hnil, State.scheduleTasks,
    StorageMap.iter_eq_singleton hread, State.scheduleNetworks, scheduleNetwork_unregistered]
  · rfl
  · show s.taskShard.get _ = none
    rw [h.taskShard]
    rfl
  · show (s.networkShards.iterPrefix exampleConfig.shardKey 0).map Prod.fst = [0]
    rw [h.networkShards]
    decide +kernel
  · show s.shardTaskCount.getD 0 0 < 10
    rw [h.shardTaskCount]
    decide
  · decide
  · show s.shardRegistered.containsKey (exampleKey 0) = false
    rw [h.shardRegistered]
    rfl

/-- The last id belongs to network 1 now, but the shard of network 0 still
has it. -/
structure Reused (s : State) : Prop where
  task : s.tasks.get (maxVal 64) = some (.readGatewayEvents ⟨0, 20⟩)
  network : s.taskNetwork.get (maxVal 64) = some 1
  shard : s.taskShard.get (maxVal 64) = some 0
  unfinished : s.taskOutput.get (maxVal 64) = none
  height : s.height 0 = 0

theorem reused_of_last (hid : s.taskIdCounter = maxVal 64) (hheight : s.height 0 = 0)
    (hout : s.taskOutput.get (maxVal 64) = none) :
    Reused ((s.assignTask 0 (maxVal 64)).gatewayRegistered unevenEnv 1 0) := by
  have hnext : satSucc 64 s.taskIdCounter = maxVal 64 := by
    rw [hid]
    rfl
  refine ⟨?_, ?_, StorageMap.get_insert_self .., hout, ?_⟩
  · show (s.tasks.insert (satSucc 64 s.taskIdCounter) _).get _ = _
    rw [hnext, StorageMap.get_insert_self]
    rfl
  · show (s.taskNetwork.insert (satSucc 64 s.taskIdCounter) 1).get _ = _
    rw [hnext, StorageMap.get_insert_self]
  · show (s.syncHeight.insert 1 0).getD 0 0 = 0
    rw [StorageMap.getD_insert, if_neg (by decide)]
    exact hheight

/-- Network 1 uses up the ids, then network 0 is registered, then network 1
once more. -/
def reusingCalls (n : Nat) : List Call :=
  List.replicate n (.gatewayRegistered 1 0) ++
    [.stopNetwork .root 1, .gatewayRegistered 0 0, .onInitialize, .gatewayRegistered 1 0]

def reusingInputs (n : Nat) : List Input := earlyShard :: (reusingCalls n).map (Input.mk unevenEnv)

theorem reusingInputs_ok {n : Nat} {i : Input} (hi : i ∈ reusingInputs n) :
    i.env.shards = exampleEnv.shards ∧ i.call.onHome = true ∧ (∀ s, NoSync 0 s i) ∧
      ∀ origin taskId result, i.call ≠ .submitTaskResult origin taskId result := by
  simp only [reusingInputs, reusingCalls, List.mem_cons, List.mem_map, List.mem_append,
    List.mem_replicate, List.not_mem_nil, or_false] at hi
  rcases hi with rfl | ⟨call, ⟨-, rfl⟩ | rfl | rfl | rfl | rfl, rfl⟩ <;>
    exact ⟨rfl, rfl, fun _ => nofun, nofun⟩

theorem mem_reusingInputs (n : Nat) : ⟨unevenEnv, .gatewayRegistered 0 0⟩ ∈ reusingInputs n := by
  simp [reusingInputs, reusingCalls]

theorem registers_reusingInputs (n : Nat) : (reusingInputs n).countP (Input.registers 0) = 1 := by
  simp [reusingInputs, reusingCalls, List.countP_replicate, Input.registers, earlyShard]

theorem reusingInputs_run : ∃ s, PalletRun exampleConfig exampleHome (NoSync 0)
    (reusingInputs (maxVal 64 - 1)) s ∧ Reused s := by
  obtain ⟨s₀, hexec, hs₀⟩ := usedUp_zero
  have hfirst : Run (exec exampleConfig) (fun _ _ => True) State.genesis [earlyShard] s₀ :=
    .next .start trivial hexec
  obtain ⟨s, hrun, hs⟩ := @Run.replicate _ _ (exec exampleConfig) (fun _ _ => True) s₀ UsedUp
    ⟨unevenEnv, .gatewayRegistered 1 0⟩ (maxVal 64 - 1) hs₀
    (fun hk hs => ⟨trivial, _, rfl, hs.next (by omega)⟩)
  obtain ⟨s', hs'⟩ : ∃ s', s' = State.gatewayRegistered
    { s with readEventsTask := s.readEventsTask.remove 1 } unevenEnv 0 0 := ⟨_, rfl⟩
  obtain ⟨hid, hheight, hassign⟩ := hs.assign (by decide) hs'
  have hstop : exec exampleConfig s ⟨unevenEnv, .stopNetwork .root 1⟩
      = some { s with readEventsTask := s.readEventsTask.remove 1 } := rfl
  have hregister : exec exampleConfig { s with readEventsTask := s.readEventsTask.remove 1 }
      ⟨unevenEnv, .gatewayRegistered 0 0⟩ = some s' := by
    rw [hs']
    rfl
  have hblock : exec exampleConfig s' ⟨unevenEnv, .onInitialize⟩
      = some (s'.assignTask 0 (maxVal 64)) := hassign
  have hagain : exec exampleConfig (s'.assignTask 0 (maxVal 64)) ⟨unevenEnv, .gatewayRegistered 1 0⟩
      = some ((s'.assignTask 0 (maxVal 64)).gatewayRegistered unevenEnv 1 0) := rfl
  have hall := Run.next (Run.next (Run.next (Run.next (hfirst.append hrun) trivial hstop) trivial
    hregister) trivial hblock) trivial hagain
  have hout : s'.taskOutput.get (maxVal 64) = none := by
    rw [hs']
    show s.taskOutput.get (maxVal 64) = none
    rw [hs.taskOutput]
    rfl
  refine ⟨_, Run.of_foldlM (fun s i hi => ?_) ?_, reused_of_last hid hheight hout⟩
  · obtain ⟨henv, hhome, hsync, -⟩ := reusingInputs_ok hi
    exact ⟨homed_of_onHome henv hhome, hsync s⟩
  · rw [← hall.foldlM]
    simp only [reusingInputs, reusingCalls, List.map_append, List.map_replicate, List.map_cons,
      List.map_nil, List.cons_append, List.append_assoc, List.nil_append]

/-- The shard of network 0 reports the last task. -/
def lastReport : Input := ⟨unevenEnv, exampleReport (maxVal 64) ⟨[], Nat.zero_le _⟩⟩

theorem reused_id_skips_blocks :
    ¬∀ (is : List Input) (s : State), PalletRun exampleConfig exampleHome (NoSync 0) is s →
      is.countP (Input.registers 0) ≤ 1 →
      (∀ pre post s₀, is = pre ++ post →
        Run (exec exampleConfig) (fun _ _ => True) State.genesis pre s₀ →
        s₀.height 0 ≤ s.height 0) ∧
      ∀ i ∈ is, ∀ start, i.call = .gatewayRegistered 0 start →
        ∀ block, start.toNat ≤ block → block < s.height 0 → ReadIn exampleConfig 0 is block := by
  intro hall
  obtain ⟨s, hrun, hs⟩ := reusingInputs_run
  have haccepts : AcceptsEvents exampleConfig unevenEnv s (maxVal 64) ⟨0, 20⟩ 0 0
      ⟨[], Nat.zero_le _⟩ (Vector.replicate 64 0) :=
    ⟨hs.task, hs.unfinished, hs.shard, rfl, exampleKey 0, rfl, rfl⟩
  have hexec : exec exampleConfig s lastReport
      = some (s.acceptEvents exampleConfig unevenEnv 0 (maxVal 64) ⟨0, 20⟩ []) := by
    simp only [exec, lastReport, exampleReport, haccepts.submit, dispatch]
  have hsync : NoSync 0 s lastReport := nofun
  have hend := Run.next hrun ⟨homed_of_onHome rfl rfl, hsync⟩ hexec
  have hheight :
      (s.acceptEvents exampleConfig unevenEnv 0 (maxVal 64) ⟨0, 20⟩ []).height 0 = 20 := by
    rw [acceptEvents_height, if_pos hs.height]
  have honce : (reusingInputs (maxVal 64 - 1) ++ [lastReport]).countP (Input.registers 0) ≤ 1 := by
    rw [List.countP_append, registers_reusingInputs]
    decide
  have hread := (hall _ _ hend honce).2 ⟨unevenEnv, .gatewayRegistered 0 0⟩
    (List.mem_append_left _ (mem_reusingInputs _)) 0 rfl 15 (Nat.zero_le _) (by rw [hheight]; decide)
  rcases hread.last (hrun.mono fun _ _ _ => trivial) with hread | ⟨taskId, blocks, events, hreported⟩
  · obtain ⟨i, hi, origin, taskId, result, hcall⟩ := hread.reports
    exact (reusingInputs_ok hi).2.2.2 origin taskId result hcall
  · -- the report is accepted, but its task is one of network 1
    obtain ⟨origin, shard, signature, hcall, -⟩ := hreported.accepted
    cases hcall
    have hnet := hreported.opened.network
    rw [hs.network] at hnet
    exact absurd (Option.some.inj hnet) (by decide)

end Tasks

end Timechain
