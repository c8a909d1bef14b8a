import Timechain.TasksReadOnce

/-!
# Chronicle's chunking against the pallet's

A chronicle that has read the events of a task submits them in chunks of
`MAX_GMP_EVENTS` (`TaskParams::execute`); the pallet takes a chunk of
that size as a sign that more will follow. To finish a task whose events
fill all chunks, the chronicle would have to send one more chunk, an
empty one. It does so exactly when it should not: its `remaining` flag
is set when the last chunk was *not* full.

So the two agree on the empty list only (`chunking_agrees_iff`). If the
last chunk is full, the task is never finished; if not, it is finished
by that chunk, and the empty one comes too late. The events processed
are right in all cases.
-/

namespace Timechain

namespace Chronicle

open Tasks

/-! ## The executor -/

/-- `slice::chunks`. -/
def chunks {α : Type} (size : Nat) (l : List α) : List (List α) :=
  if size = 0 ∨ l = [] then [] else l.take size :: chunks size (l.drop size)
termination_by l.length
decreasing_by
  next h =>
    rw [not_or] at h
    have := List.length_pos_iff.mpr h.2
    rw [List.length_drop]
    omega

/-- One round of the loop over the chunks: set `remaining` and submit. -/
def submitChunk (acc : Bool × List (List GmpEvent)) (chunk : List GmpEvent) :
    Bool × List (List GmpEvent) :=
  (chunk.length != maxGmpEvents, acc.2 ++ [chunk])

/-- The `submit_events` calls `TaskParams::execute` makes for the events of
a `ReadGatewayEvents` task, in order. -/
def submissions (events : List GmpEvent) : List (List GmpEvent) :=
  let (remaining, submitted) := (chunks maxGmpEvents events).foldl submitChunk (true, [])
  if remaining then submitted ++ [[]] else submitted

/-- `submit_events`: the result sent to the chain. -/
def submitEvents (sign : List UInt8 → TssSignature) (taskId : TaskId) (events : List GmpEvent) :
    TaskResult :=
  .readGatewayEvents (GmpEvents.truncateFrom events) (sign (encodeGmpEvents taskId events))

/-! ## Chunks -/

theorem chunks_of_length_le {α : Type} {size : Nat} {l : List α} (hnil : l ≠ [])
    (hle : l.length ≤ size) : chunks size l = [l] := by
  have hpos := List.length_pos_iff.mpr hnil
  have hsize : size ≠ 0 := by omega
  rw [chunks, if_neg (not_or.mpr ⟨hsize, hnil⟩), List.take_of_length_le hle,
    List.drop_eq_nil_of_le hle, chunks, if_pos (Or.inr rfl)]

/-- Full chunks, then what is left. -/
theorem chunks_split {α : Type} {size : Nat} (hsize : 0 < size) (l : List α) :
    ∃ full rest, l = full.flatten ++ rest ∧ (∀ chunk ∈ full, chunk.length = size) ∧
      rest.length < size ∧ chunks size l = full ++ if rest.isEmpty then [] else [rest] := by
  induction h : l.length using Nat.strong_induction_on generalizing l with
  | _ n ih =>
      subst h
      by_cases hnil : l = []
      · subst hnil
        exact ⟨[], [], rfl, nofun, hsize, by rw [chunks]; simp⟩
      · by_cases hlt : l.length < size
        · refine ⟨[], l, rfl, nofun, hlt, ?_⟩
          rw [chunks_of_length_le hnil (Nat.le_of_lt hlt)]
          simp [hnil]
        · have hpos := List.length_pos_iff.mpr hnil
          rw [chunks, if_neg (not_or.mpr ⟨Nat.ne_of_gt hsize, hnil⟩)]
          obtain ⟨full, rest, hl, hfull, hrest, hchunks⟩ :=
            ih (l.drop size).length (by rw [List.length_drop]; omega) (l.drop size) rfl
          refine ⟨l.take size :: full, rest, ?_, ?_, hrest, ?_⟩
          · rw [List.flatten_cons, List.append_assoc, ← hl, List.take_append_drop]
          · intro chunk hmem
            rcases List.mem_cons.mp hmem with rfl | hmem
            · rw [List.length_take]
              omega
            · exact hfull chunk hmem
          · rw [hchunks]
            rfl

theorem foldl_submitChunk_snd (l : List (List GmpEvent)) (acc : Bool × List (List GmpEvent)) :
    (l.foldl submitChunk acc).2 = acc.2 ++ l := by
  induction l generalizing acc with
  | nil => exact (List.append_nil _).symm
  | cons chunk l ih =>
      rw [List.foldl_cons, ih, submitChunk, List.append_assoc]
      rfl

theorem submissions_nil : submissions [] = [[]] := by
  rw [submissions, chunks, if_pos (Or.inr rfl)]
  rfl

/-- The flag looks at the last chunk only. -/
theorem submissions_concat {events chunk : List GmpEvent} {earlier : List (List GmpEvent)}
    (h : chunks maxGmpEvents events = earlier ++ [chunk]) :
    submissions events
      = earlier ++ [chunk] ++ if chunk.length = maxGmpEvents then [] else [[]] := by
  simp only [submissions, h, List.foldl_append, List.foldl_cons, List.foldl_nil, submitChunk,
    foldl_submitChunk_snd, List.nil_append, bne_iff_ne]
  by_cases hlen : chunk.length = maxGmpEvents
  · simp [hlen]
  · simp [hlen]

/-- What is submitted, by how the events fill the chunks. -/
theorem submissions_cases (events : List GmpEvent) :
    (events = [] ∧ submissions events = [[]]) ∨
    ∃ full rest, events = full.flatten ++ rest ∧ events ≠ [] ∧
      (∀ chunk ∈ full, chunk.length = maxGmpEvents) ∧ rest.length < maxGmpEvents ∧
      submissions events = full ++ if rest = [] then [] else [rest, []] := by
  by_cases hnil : events = []
  · subst hnil
    exact Or.inl ⟨rfl, submissions_nil⟩
  · obtain ⟨full, rest, hevents, hfull, hrest, hchunks⟩ :=
      @chunks_split _ maxGmpEvents (by decide) events
    refine Or.inr ⟨full, rest, hevents, hnil, hfull, hrest, ?_⟩
    by_cases hr : rest = []
    · subst hr
      rcases List.eq_nil_or_concat full with rfl | ⟨earlier, chunk, rfl⟩
      · exact absurd hevents hnil
      · rw [List.concat_eq_append] at hchunks hfull ⊢
        have hlen : chunk.length = maxGmpEvents := hfull chunk (by simp)
        rw [submissions_concat (by simpa using hchunks), if_pos hlen, if_pos rfl]
    · have hlen : rest.length ≠ maxGmpEvents := Nat.ne_of_lt hrest
      rw [submissions_concat (by simpa [hr] using hchunks), if_neg hlen, if_neg hr]
      simp

example : chunks 4 [1, 2, 3, 4, 5, 6, 7, 8, 9, 10, 11]
    = [[1, 2, 3, 4], [5, 6, 7, 8], [9, 10, 11]] := by
  simp [chunks]

/-! ## On chain -/

section Chain

variable (cfg : Config) (env : Env) (who : AccountId) (sign : List UInt8 → TssSignature)
  (taskId : TaskId)

/-- The chain after a result was submitted. -/
def report (s : State) (events : List GmpEvent) : State :=
  dispatch s (s.submitTaskResult cfg env (.signed who) taskId (submitEvents sign taskId events))

/-- The chain after several results were submitted in order. -/
def reports (s : State) (submitted : List (List GmpEvent)) : State :=
  submitted.foldl (report cfg env who sign taskId) s

theorem reports_append (s : State) (submitted submitted' : List (List GmpEvent)) :
    reports cfg env who sign taskId s (submitted ++ submitted')
      = reports cfg env who sign taskId (reports cfg env who sign taskId s submitted) submitted' :=
  List.foldl_append

/-- The pallet takes what the chronicle submits as it is meant: it
processes the events in order and finishes the task with the last
result. -/
structure Agrees (s : State) (network : NetworkId) (events : List GmpEvent) : Prop where
  processed : (reports cfg env who sign taskId s (submissions events)).processedEvents
    = s.processedEvents ++ events.map fun event => (network, taskId, event)
  finished : ∃ earlier last, submissions events = earlier ++ [last] ∧
    (reports cfg env who sign taskId s earlier).taskOutput.get taskId = none ∧
    (reports cfg env who sign taskId s (submissions events)).taskOutput.get taskId ≠ none

end Chain

/-- The shard that runs the task serves its network, and its signatures
verify. -/
structure Serves (cfg : Config) (home : ShardId → NetworkId) (env : Env)
    (sign : List UInt8 → TssSignature) (shard : ShardId) : Prop where
  homed : ∀ {shard network}, env.shards.shardNetwork shard = some network → network = home shard
  network : env.shards.shardNetwork shard = some (home shard)
  verifies : ∃ key, env.shards.tssPublicKey shard = some key ∧
    ∀ data, cfg.verifySignature key data (sign data) = true

/-- A state of the chain in which `shard` runs the read task. -/
structure Running (cfg : Config) (home : ShardId → NetworkId) (s : State) (taskId : TaskId)
    (blocks : BlockRange) (shard : ShardId) : Prop where
  run : ∃ is, PalletRun cfg home (fun _ _ => True) is s
  task : s.tasks.get taskId = some (.readGatewayEvents blocks)
  unfinished : s.taskOutput.get taskId = none
  assigned : s.taskShard.get taskId = some shard

section Reports

variable {cfg : Config} {home : ShardId → NetworkId} {env : Env} {who : AccountId}
  {sign : List UInt8 → TssSignature} {taskId : TaskId} {blocks : BlockRange} {shard : ShardId}
  {s : State}

/-- The pallet accepts what its shard reports. -/
theorem Running.report_eq (h : Running cfg home s taskId blocks shard)
    (hserves : Serves cfg home env sign shard) {events : List GmpEvent}
    (hlen : events.length ≤ maxGmpEvents) :
    report cfg env who sign taskId s events
      = s.acceptEvents cfg env (home shard) taskId blocks events := by
  have hval : (GmpEvents.truncateFrom events).val = events := List.take_of_length_le hlen
  obtain ⟨key, hkey, hverifies⟩ := hserves.verifies
  have haccepts : AcceptsEvents cfg env s taskId blocks shard (home shard)
      (GmpEvents.truncateFrom events) (sign (encodeGmpEvents taskId events)) :=
    ⟨h.task, h.unfinished, h.assigned, hserves.network, key, hkey, by rw [hval]; exact hverifies _⟩
  rw [report, submitEvents, haccepts.submit who, dispatch, hval]

/-- Nothing is taken for a finished task. -/
theorem report_of_output (hout : s.taskOutput.get taskId ≠ none) (events : List GmpEvent) :
    report cfg env who sign taskId s events = s := by
  have hdone : s.taskOutput.containsKey taskId = true := StorageMap.containsKey_iff.mpr hout
  cases htask : s.tasks.get taskId with
  | none =>
      simp [report, State.submitTaskResult, State.ensureSigned, State.okOr, htask,
        dispatch, bind, Except.bind]
  | some task =>
      simp [report, State.submitTaskResult, State.ensureSigned, State.okOr, htask,
        hdone, dispatch, bind, Except.bind, pure, Except.pure]

theorem acceptEvents_created (s : State) (network : NetworkId) (events : List GmpEvent) :
    (s.acceptEvents cfg env network taskId blocks events).createdTasks.length
      ≤ s.createdTasks.length + 1 := by
  rw [(acceptEvents_finishing s env network taskId blocks events).createdTasks]
  unfold State.readNext State.advanceSync
  split <;> split <;> simp [State.readGatewayEvents, createTask_length]

/-- Starting the next read does not concern the tasks there are. -/
theorem readNext_of_ne {network : NetworkId} (hne : taskId ≠ s.nextTaskId) :
    (s.readNext env network).tasks.get taskId = s.tasks.get taskId ∧
      (s.readNext env network).taskOutput = s.taskOutput := by
  unfold State.readNext
  split
  · rw [State.readGatewayEvents, createTask_tasks, createTask_taskOutput]
    exact ⟨StorageMap.get_insert_of_ne _ _ hne, rfl⟩
  · exact ⟨rfl, rfl⟩

/-- A full chunk leaves the task running. -/
theorem Running.full (h : Running cfg home s taskId blocks shard)
    (hserves : Serves cfg home env sign shard) {events : List GmpEvent}
    (hlen : events.length = maxGmpEvents) (hcreated : s.createdTasks.length + 1 < 2 ^ 64) :
    Running cfg home (report cfg env who sign taskId s events) taskId blocks shard := by
  obtain ⟨is, hrun⟩ := h.run
  have hinv := run_inv hrun (by omega)
  have hstore := advanceSync_toTaskStore s (home shard) blocks
  have hnext : taskId ≠ (s.advanceSync (home shard) blocks).nextTaskId := by
    rw [State.nextTaskId, (congrArg TaskStore.taskIdCounter hstore :)]
    refine Ne.symm ((run_counted hrun).1.nextTaskId_ne ?_ hcreated)
    rw [h.task]
    exact Option.some_ne_none _
  obtain ⟨htask, hout⟩ := @readNext_of_ne env taskId _ (home shard) hnext
  obtain ⟨-, hshard, hlink, -⟩ :=
    @readNext_frame env (s.advanceSync (home shard) blocks) (home shard)
  -- the events finish tasks of batches, and this one is no such task
  obtain ⟨hout', hshard'⟩ := @processEvents_of_unlinked cfg (home shard) taskId
    ((s.advanceSync (home shard) blocks).readNext env (home shard)) events taskId
    fun batchId hb => by
      rw [hlink, (congrArg TaskStore.batchTaskId hstore :)] at hb
      have hjob : (s.tasks.get taskId).map taskJob = some (.submit batchId) := hinv.linked hb
      rw [h.task] at hjob
      cases hjob
  have heq : report cfg env who sign taskId s events
      = ((s.advanceSync (home shard) blocks).readNext env (home shard)).processEvents cfg
          (home shard) taskId events := by
    rw [h.report_eq hserves (Nat.le_of_eq hlen)]
    simp only [State.acceptEvents, if_pos hlen]
  refine ⟨⟨is ++ [⟨env, .submitTaskResult (.signed who) taskId (submitEvents sign taskId events)⟩],
    .next hrun ⟨⟨hserves.homed, fun heq => ?_, fun heq => ?_⟩, trivial⟩ rfl⟩, ?_, ?_, ?_⟩
  · cases heq
  · cases heq
  · rw [heq, (processEvents_finishing ..).tasks, htask, (congrArg TaskStore.tasks hstore :)]
    exact h.task
  · rw [heq, hout', hout, (congrArg TaskStore.taskOutput hstore :)]
    exact h.unfinished
  · rw [heq, hshard', hshard, (congrArg TaskStore.taskShard hstore :)]
    exact h.assigned

/-- Full chunks leave the task running, with their events processed. -/
theorem Running.fulls (h : Running cfg home s taskId blocks shard)
    (hserves : Serves cfg home env sign shard) {full : List (List GmpEvent)}
    (hfull : ∀ chunk ∈ full, chunk.length = maxGmpEvents)
    (hcreated : s.createdTasks.length + full.length < 2 ^ 64) :
    Running cfg home (reports cfg env who sign taskId s full) taskId blocks shard ∧
      (reports cfg env who sign taskId s full).processedEvents
        = s.processedEvents ++ full.flatten.map fun event => (home shard, taskId, event) := by
  induction full generalizing s with
  | nil => exact ⟨h, (List.append_nil _).symm⟩
  | cons chunk full ih =>
      have hlen := hfull chunk (List.mem_cons_self ..)
      have heq := @Running.report_eq cfg home env who sign taskId blocks shard s h hserves chunk
        (Nat.le_of_eq hlen)
      have hle := @acceptEvents_created cfg env taskId blocks s (home shard) chunk
      rw [← heq] at hle
      rw [List.length_cons] at hcreated
      have hnext : Running cfg home (report cfg env who sign taskId s chunk) taskId blocks shard :=
        h.full hserves hlen (by omega)
      obtain ⟨hrunning, hprocessed⟩ := ih hnext
        (fun c hc => hfull c (List.mem_cons_of_mem _ hc)) (by omega)
      refine ⟨hrunning, hprocessed.trans ?_⟩
      rw [heq, acceptEvents_processed, List.flatten_cons, List.map_append, List.append_assoc]

/-- Any other chunk finishes it. -/
theorem Running.finish (h : Running cfg home s taskId blocks shard)
    (hserves : Serves cfg home env sign shard) {events : List GmpEvent}
    (hlen : events.length < maxGmpEvents) :
    (report cfg env who sign taskId s events).taskOutput.get taskId ≠ none ∧
      (report cfg env who sign taskId s events).processedEvents
        = s.processedEvents ++ events.map fun event => (home shard, taskId, event) := by
  rw [h.report_eq hserves (Nat.le_of_lt hlen), acceptEvents_processed]
  exact ⟨acceptEvents_output s env _ taskId blocks (Nat.ne_of_lt hlen), rfl⟩

/-- The events processed are the ones read, however they are chunked. -/
theorem reports_processed (h : Running cfg home s taskId blocks shard)
    (hserves : Serves cfg home env sign shard) (events : List GmpEvent)
    (hcreated : s.createdTasks.length + (submissions events).length < 2 ^ 64) :
    (reports cfg env who sign taskId s (submissions events)).processedEvents
      = s.processedEvents ++ events.map fun event => (home shard, taskId, event) := by
  rcases submissions_cases events with ⟨rfl, heq⟩ | ⟨full, rest, hevents, -, hfull, hrest, heq⟩
  · rw [heq]
    exact (h.finish hserves (by decide)).2
  · rw [heq, List.length_append] at hcreated
    obtain ⟨hrunning, hprocessed⟩ :=
      @Running.fulls cfg home env who sign taskId blocks shard s h hserves full hfull (by omega)
    rw [heq, reports_append]
    by_cases hr : rest = []
    · subst hr
      rw [hevents, List.append_nil, if_pos rfl]
      exact hprocessed
    · obtain ⟨hout, hlast⟩ := @Running.finish cfg home env who sign taskId blocks shard _
        hrunning hserves rest hrest
      rw [if_neg hr]
      show (report _ _ _ _ _ (report _ _ _ _ _ _ rest) []).processedEvents = _
      rw [report_of_output hout, hlast, hprocessed, hevents, List.map_append, List.append_assoc]

/-- **Where chronicle and pallet agree.** For a task its shard is running,
with ids left for the reads that follow, the pallet finishes the task
exactly with the last result if and only if there were no events. -/
theorem chunking_agrees_iff (h : Running cfg home s taskId blocks shard)
    (hserves : Serves cfg home env sign shard) (events : List GmpEvent)
    (hcreated : s.createdTasks.length + (submissions events).length < 2 ^ 64) :
    Agrees cfg env who sign taskId s (home shard) events ↔ events = [] := by
  constructor
  · rintro ⟨-, earlier, last, hsplit, hopen, hdone⟩
    rcases submissions_cases events with ⟨hnil, -⟩ | ⟨full, rest, -, -, hfull, hrest, heq⟩
    · exact hnil
    · exfalso
      rw [heq, List.length_append] at hcreated
      obtain ⟨hrunning, -⟩ :=
        @Running.fulls cfg home env who sign taskId blocks shard s h hserves full hfull (by omega)
      by_cases hr : rest = []
      · -- all chunks are full: the task is still running
        rw [heq, if_pos hr, List.append_nil] at hdone
        exact hdone hrunning.unfinished
      · -- the rest has finished the task before the empty chunk arrives
        rw [heq, if_neg hr, show full ++ [rest, []] = (full ++ [rest]) ++ [[]] by simp] at hsplit
        obtain ⟨rfl, -⟩ := List.append_inj' hsplit rfl
        rw [reports_append] at hopen
        exact (hrunning.finish hserves hrest).1 hopen
  · rintro rfl
    refine ⟨reports_processed h hserves [] hcreated, [], [], submissions_nil, h.unfinished, ?_⟩
    rw [submissions_nil]
    exact (h.finish hserves (by decide)).1

end Reports

/-! ### Examples -/

def exampleSign (_ : List UInt8) : TssSignature := Vector.replicate 64 0

theorem exampleShard_serves : Serves exampleConfig exampleHome exampleEnv exampleSign 0 where
  homed h := (Option.some.inj h).symm
  network := rfl
  verifies := ⟨exampleKey 0, rfl, fun _ => rfl⟩

theorem registration_running :
    Running exampleConfig exampleHome (exampleState registrationCalls) 1 ⟨0, 10⟩ 0 := by
  obtain ⟨htask, hout, hshard⟩ := registration_reading
  exact ⟨⟨_, exampleState_run (by decide +kernel) (fun _ _ _ => trivial) (by decide +kernel)⟩, htask,
    hout, hshard⟩

theorem chunking_agrees_without_events :
    Agrees exampleConfig exampleEnv exampleMember exampleSign 1 (exampleState registrationCalls) 0
      [] := by
  refine (chunking_agrees_iff registration_running exampleShard_serves [] ?_).mpr rfl
  rw [submissions_nil]
  decide +kernel

/-- With one event the task is finished by the first of two results. -/
theorem chunking_disagrees_with_one_event :
    ¬∀ events, Agrees exampleConfig exampleEnv exampleMember exampleSign 1
      (exampleState registrationCalls) 0 events := by
  intro hall
  have hchunks : chunks maxGmpEvents [.shardRegistered (exampleKey 0)]
      = [] ++ [[GmpEvent.shardRegistered (exampleKey 0)]] :=
    chunks_of_length_le (List.cons_ne_nil _ _) (by decide)
  have hsubmitted : submissions [.shardRegistered (exampleKey 0)]
      = [[.shardRegistered (exampleKey 0)]] ++ [[]] := by
    rw [submissions_concat hchunks, if_neg (by decide)]
    rfl
  obtain ⟨-, earlier, last, hsplit, hopen, -⟩ := hall [.shardRegistered (exampleKey 0)]
  rw [hsubmitted] at hsplit
  obtain ⟨rfl, -⟩ := List.append_inj' hsplit rfl
  have hdone : (reports exampleConfig exampleEnv exampleMember exampleSign 1
      (exampleState registrationCalls)
      [[.shardRegistered (exampleKey 0)]]).taskOutput.containsKey 1 = true := by
    decide +kernel
  exact StorageMap.containsKey_iff.mp hdone hopen

end Chronicle

end Timechain
