import Timechain.TssLink
import Timechain.TssSigner

/-!
# One session id

The sessions of all members with one id, the messages between them and
the signatures they have output (`Table`). Between any two members the
link holds (`Table.Inv`): a request is always one that its member can
answer, and a response one that its coordinator waits for. So signers
neither panic nor drop a request, the books of the coordinators stay in
order, and when nobody has anything left to do, every coordinator that is
still there would have the commitments of all members in its pool.
-/

namespace Timechain

namespace Signing

variable {F : Frost}

/-! ## What is assumed of FROST -/

namespace Shard

/-- A share of `p`, made with nonces that it commits to in the package. -/
def Matches (shard : Shard F) (package : SigningPackage F.SigningCommitments) (p : Identifier)
    (share : F.SignatureShare) : Prop :=
  ∃ nonces, package.signingCommitments.get p = some (F.commitment nonces) ∧
    F.sign package nonces (shard.keyPackage p) = some share

/-- Valid shares for `data`. -/
abbrev Valid (shard : Shard F) (data : List UInt8)
    (commitments : StorageMap Identifier F.SigningCommitments) (p : Identifier)
    (share : F.SignatureShare) : Prop :=
  shard.Matches ⟨commitments, data⟩ p share

/-- `round2::sign` succeeds on packages for the threshold that contain the
commitment of the signer. -/
def SignsOwn (shard : Shard F) : Prop :=
  ∀ m ∈ shard.members, ∀ package nonces, package.signingCommitments.len = shard.threshold →
    package.signingCommitments.get m = some (F.commitment nonces) →
    F.sign package nonces (shard.keyPackage m) ≠ none

/-- `aggregate` succeeds on the matching shares. -/
def AggregatesMatching (shard : Shard F) : Prop :=
  ∀ package shares, package.signingCommitments.len = shard.threshold →
    (∀ p, shares.get p ≠ none ↔ package.signingCommitments.get p ≠ none) →
    (∀ p share, shares.get p = some share → shard.Matches package p share) →
    F.aggregate package shares shard.publicKeyPackage ≠ none

theorem card_members (shard : Shard F) : shard.members.toFinset.card = shard.members.length :=
  List.toFinset_card_of_nodup shard.sorted.nodup

end Shard

/-! ## The table of a session id -/

structure Letter (F : Frost) where
  src : Identifier
  dst : Identifier
  msg : RoastMessage F

/-- The message, if it is one between member `m` and coordinator `c`. -/
def Letter.between (w : Letter F) (m c : Identifier) : Option (RoastMessage F) :=
  match w.msg with
  | .sign _ => if w.src = c ∧ w.dst = m then some w.msg else none
  | _ => if w.src = m ∧ w.dst = c then some w.msg else none

/-- The letter of member `x` to `p`, if it is of session `id`. -/
def TssMessage.letter (x p : Identifier) (id : Nat) : TssMessage F → Option (Letter F)
  | .dkg => none
  | .roast id' msg => if id' = id then some ⟨x, p, msg⟩ else none

/-- What a poll of `x` sends under an id. -/
def Poll.letters (x : Identifier) (id : Nat) : Poll F → List (Letter F)
  | .act (.send msgs) => msgs.filterMap fun e => e.2.letter x e.1 id
  | _ => []

/-- What a poll of `x` outputs under an id. -/
def Poll.signatures (x : Identifier) (id : Nat) :
    Poll F → List (Identifier × Bytes 32 × F.Signature)
  | .act (.signature id' hash signature) => if id' = id then [(x, hash, signature)] else []
  | _ => []

/-- The member has nobody to commit to or to answer, and not enough
commitments to start a session. -/
structure Roast.Rests (r : Roast F) : Prop where
  committed : r.coordinators = []
  answered : r.signer.requests = []
  few : ∀ k, r.coordinator = some k → k.commitments.len < k.threshold

/-- A bound on what the member may still do without hearing from another
one, if it starts at most `n` sessions. A session counts twice: the request
is answered too. -/
def Roast.work (r : Roast F) (n : Nat) : Nat :=
  r.coordinators.length + r.signer.requests.length + 2 * (n - r.started)

structure Table (F : Frost) where
  sess : Identifier → Roast F
  flight : List (Letter F)
  outputs : List (Identifier × Bytes 32 × F.Signature)

namespace Table

def wire (T : Table F) (m c : Identifier) : List (RoastMessage F) :=
  T.flight.filterMap (·.between m c)

def link (T : Table F) (m c : Identifier) : Link F :=
  ⟨(T.sess m).desk c, T.wire m c, (T.sess c).book m⟩

def outputsOf (T : Table F) (m : Identifier) : List (Identifier × Bytes 32 × F.Signature) :=
  T.outputs.filter fun o => o.1 = m

def set (T : Table F) (x : Identifier) (r : Roast F) : Table F :=
  { T with sess := Function.update T.sess x r }

/-- The message goes to all `peers`. -/
def post (T : Table F) (x : Identifier) (peers : List Identifier) (msg : RoastMessage F) :
    Table F :=
  { T with flight := T.flight ++ peers.map fun p => ⟨x, p, msg⟩ }

def output (T : Table F) (x : Identifier) (hash : Bytes 32) (signature : F.Signature) : Table F :=
  { T with outputs := T.outputs ++ [(x, hash, signature)] }

theorem set_sess (T : Table F) (x : Identifier) (r : Roast F) (m : Identifier) :
    (T.set x r).sess m = if m = x then r else T.sess m :=
  Function.update_apply ..

theorem set_self (T : Table F) (x : Identifier) : T.set x (T.sess x) = T := by
  rw [set, Function.update_eq_self]

theorem outputsOf_output (T : Table F) (x m : Identifier) (hash : Bytes 32)
    (signature : F.Signature) :
    (T.output x hash signature).outputsOf m
      = T.outputsOf m ++ if m = x then [(x, hash, signature)] else [] := by
  rw [outputsOf, outputsOf, output, List.filter_append]
  by_cases hm : x = m
  · simp [hm]
  · simp [hm, Ne.symm hm]

/-- Where a member is with its signature. -/
inductive Progress (shard : Shard F) (data : List UInt8) (T : Table F) (m : Identifier) : Prop
  | signer : m ∉ shard.coordinators → (T.sess m).coordinator = none → T.outputsOf m = [] →
      Progress shard data T m
  | waits : m ∈ shard.coordinators → (T.sess m).coordinator ≠ none → T.outputsOf m = [] →
      Progress shard data T m
  | done {signature : F.Signature} : m ∈ shard.coordinators → (T.sess m).coordinator = none →
      T.outputsOf m = [(m, F.messageHash data, signature)] → Progress shard data T m

/-- What holds of the sessions in which `data` is signed. -/
structure Inv (shard : Shard F) (data : List UInt8) (T : Table F) : Prop where
  own : ∀ m data', (T.sess m).signer.data = some data' → data' = data
  keyPackage : ∀ m, (T.sess m).signer.keyPackage = shard.keyPackage m
  publicKeyPackage : ∀ m, (T.sess m).publicKeyPackage = shard.publicKeyPackage
  nodup : ∀ m, (T.sess m).coordinators.Nodup
  steady : ∀ m, (T.sess m).Steady shard.members.toFinset (shard.Valid data) shard.threshold
  links : ∀ m c, (T.link m c).Holds shard.threshold (shard.Valid data) m
  sources : ∀ w ∈ T.flight, w.src ∈ shard.members
  progress : ∀ m, Progress shard data T m

section Inv

variable {shard : Shard F} {data : List UInt8} {T T' : Table F} {x : Identifier} {r' : Roast F}
  {nonces : F.SigningNonces}

theorem link_eq (T : Table F) (m c : Identifier) :
    T.link m c = ⟨(T.sess m).desk c, T.wire m c, (T.sess c).book m⟩ := rfl

/-- The coordinator's half of a session has no part in its desks. -/
theorem set_desk (hdesk : ∀ c, r'.desk c = (T.sess x).desk c) (m c : Identifier) :
    ((T.set x r').sess m).desk c = (T.sess m).desk c := by
  rw [set_sess]
  split
  · next hm => rw [hdesk, hm]
  · rfl

/-- The session of one member changes. -/
theorem Inv.update (h : T.Inv shard data) (x : Identifier) (r' : Roast F)
    (hsess : T'.sess = (T.set x r').sess)
    (hdata : ∀ data', r'.signer.data = some data' → data' = data)
    (hkey : r'.signer.keyPackage = (T.sess x).signer.keyPackage)
    (hpub : r'.publicKeyPackage = (T.sess x).publicKeyPackage) (hnodup : r'.coordinators.Nodup)
    (hsteady : r'.Steady shard.members.toFinset (shard.Valid data) shard.threshold)
    (hlinks : ∀ m c, (T'.link m c).Holds shard.threshold (shard.Valid data) m)
    (hsources : ∀ w ∈ T'.flight, w.src ∈ shard.members)
    (hprogress : ∀ m, Progress shard data T' m) : T'.Inv shard data := by
  have heq : ∀ m, T'.sess m = if m = x then r' else T.sess m := fun m => by rw [hsess, set_sess]
  refine ⟨fun m => ?_, fun m => ?_, fun m => ?_, fun m => ?_, fun m => ?_, hlinks, hsources,
    hprogress⟩
  · rw [heq]
    split
    · exact hdata
    · exact h.own m
  · rw [heq]
    split
    · next hm => rw [hkey, h.keyPackage, hm]
    · exact h.keyPackage m
  · rw [heq]
    split
    · rw [hpub, h.publicKeyPackage]
    · exact h.publicKeyPackage m
  · rw [heq]
    split
    · exact hnodup
    · exact h.nodup m
  · rw [heq]
    split
    · exact hsteady
    · exact h.steady m

/-- The signatures stay, and so do the coordinators. -/
theorem Progress.of_eq {m : Identifier} (h : Progress shard data T m)
    (hout : T'.outputs = T.outputs)
    (hcoord : (T'.sess m).coordinator = none ↔ (T.sess m).coordinator = none) :
    Progress shard data T' m := by
  have hof : T'.outputsOf m = T.outputsOf m := by rw [outputsOf, outputsOf, hout]
  cases h with
  | signer hm hnone h => exact .signer hm (hcoord.mpr hnone) (hof.trans h)
  | waits hm hsome h => exact .waits hm (fun hno => hsome (hcoord.mp hno)) (hof.trans h)
  | done hm hnone h => exact .done hm (hcoord.mpr hnone) (hof.trans h)

/-! ### Messages -/

theorem wire_post (T : Table F) (x : Identifier) (peers : List Identifier) (msg : RoastMessage F)
    (m c : Identifier) :
    (T.post x peers msg).wire m c
      = T.wire m c ++ (peers.map fun p => ⟨x, p, msg⟩).filterMap (Letter.between · m c) :=
  List.filterMap_append ..

/-- A message to a coordinator. -/
theorem wire_send (T : Table F) (x c₀ : Identifier) {msg : RoastMessage F}
    (hmsg : ∀ request, msg ≠ .sign request) (m c : Identifier) :
    (T.post x [c₀] msg).wire m c
      = if m = x ∧ c = c₀ then T.wire m c ++ [msg] else T.wire m c := by
  have hbetween : (⟨x, c₀, msg⟩ : Letter F).between m c
      = if m = x ∧ c = c₀ then some msg else none := by
    cases msg with
    | commit => simp only [Letter.between, eq_comm (a := x), eq_comm (a := c₀)]
    | sign request => exact absurd rfl (hmsg request)
    | signature => simp only [Letter.between, eq_comm (a := x), eq_comm (a := c₀)]
  rw [wire_post, List.map_singleton, List.filterMap_cons, hbetween]
  by_cases hmc : m = x ∧ c = c₀
  · rw [if_pos hmc, if_pos hmc]
    rfl
  · rw [if_neg hmc, if_neg hmc]
    exact List.append_nil _

/-- Requests of a coordinator. -/
theorem wire_sign (T : Table F) (x : Identifier) {peers : List Identifier} (hnodup : peers.Nodup)
    (request : RoastSignerRequest F) (m c : Identifier) :
    (T.post x peers (.sign request)).wire m c
      = if c = x ∧ m ∈ peers then T.wire m c ++ [.sign request] else T.wire m c := by
  have hbetween : (peers.map fun p => (⟨x, p, .sign request⟩ : Letter F)).filterMap
      (Letter.between · m c) = if c = x ∧ m ∈ peers then [.sign request] else [] := by
    induction peers with
    | nil => simp
    | cons p peers ih =>
        obtain ⟨hp, hpeers⟩ := List.nodup_cons.mp hnodup
        rw [List.map_cons, List.filterMap_cons, ih hpeers]
        simp only [Letter.between, eq_comm (a := x)]
        by_cases hc : c = x
        · by_cases hm : p = m
          · subst hm
            simp [hc, hp]
          · simp [hc, hm, Ne.symm hm]
        · simp [hc]
  rw [wire_post, hbetween]
  split
  · rfl
  · exact List.append_nil _

/-! ### Polls -/

/-- A coordinator that does not finish has no complete session. -/
theorem Inv.waiting (h : T.Inv shard data) (hagg : shard.AggregatesMatching)
    (hdata : (T.sess x).signer.data ≠ none) {k k' : RoastCoordinator F}
    (hk : (T.sess x).coordinator = some k) (hnone : (T.sess x).aggregate k = (none, k')) :
    k' = k ∧ ∀ i session, k.sessions.get i = some session → session.isComplete = false := by
  obtain ⟨ht, horderly⟩ := (h.steady x).orderly k hk
  refine Roast.aggregate_eq_none hnone ?_ fun hno => absurd hno hdata
  intro data' i session hdata' hi hcomplete
  obtain rfl := h.own x data' hdata'
  obtain ⟨hown, hlen, -⟩ := horderly.signers i session hi
  rw [h.publicKeyPackage]
  exact hagg _ _ (hlen.trans ht) (fun p => ⟨hown p, hown.complete_iff.mp hcomplete p⟩)
    fun p share => horderly.shares i session p share hi

/-- The first request can be answered. -/
theorem Inv.request (h : T.Inv shard data) {c : Identifier} {request : RoastSignerRequest F}
    {requests : List (Identifier × RoastSignerRequest F)}
    (hrequests : (T.sess x).signer.requests = (c, request) :: requests) :
    ∃ stored, (T.sess x).signer.coordinators.get c = some stored ∧
      (T.sess x).desk c = ⟨false, some stored, [request]⟩ ∧ T.wire x c = [] ∧
      Link.Asks shard.threshold x stored request ((T.sess c).book x) := by
  have hqueue : ((T.sess x).desk c).queue
      = request :: requests.filterMap fun e => if e.1 = c then some e.2 else none := by
    simp only [Roast.desk, RoastSigner.queue, hrequests, List.filterMap_cons, if_pos]
  have hholds := h.links x c
  rw [link_eq] at hholds
  obtain ⟨stored, hnil, hfresh, hstored, hwire, hasks⟩ := hholds.queue_eq hqueue
  refine ⟨stored, hstored, ?_, hwire, hasks⟩
  rw [hnil] at hqueue
  rw [← hfresh, ← hstored, ← hqueue]

theorem Waits.coordinator_eq (h : T.Inv shard data) (hagg : shard.AggregatesMatching)
    (hdata : (T.sess x).signer.data ≠ none) {o : Option (RoastCoordinator F)}
    (hwaits : (T.sess x).Waits o) : o = (T.sess x).coordinator :=
  hwaits.eq_of_open fun _ _ => h.waiting hagg hdata

theorem Inv.sources_post (h : T.Inv shard data) (hx : x ∈ shard.members) {peers : List Identifier}
    {msg : RoastMessage F} : ∀ w ∈ (T.post x peers msg).flight, w.src ∈ shard.members := by
  intro w hw
  rcases List.mem_append.mp hw with hw | hw
  · exact h.sources w hw
  · obtain ⟨p, -, rfl⟩ := List.mem_map.mp hw
    exact hx

theorem Inv.progress_of_eq (h : T.Inv shard data) (hsess : T'.sess = (T.set x r').sess)
    (hout : T'.outputs = T.outputs)
    (hcoord : r'.coordinator = none ↔ (T.sess x).coordinator = none) (m : Identifier) :
    Progress shard data T' m := by
  refine (h.progress m).of_eq hout ?_
  rw [hsess, set_sess]
  split
  · next hm => rw [hcoord, hm]
  · exact Iff.rfl

/-- The member sends something to a coordinator. -/
theorem Inv.send (h : T.Inv shard data) (hx : x ∈ shard.members) {c₀ : Identifier}
    {msg : RoastMessage F} (hmsg : ∀ request, msg ≠ .sign request) (hframe : (T.sess x).Frame r')
    (hcoord : r'.coordinator = (T.sess x).coordinator) (hstarted : r'.started = (T.sess x).started)
    (hnodup : r'.coordinators.Nodup) (hdesk : ∀ c, c ≠ c₀ → r'.desk c = (T.sess x).desk c)
    (hlink : Link.Holds shard.threshold (shard.Valid data) x
      ⟨r'.desk c₀, T.wire x c₀ ++ [msg], (T.sess c₀).book x⟩) :
    ((T.set x r').post x [c₀] msg).Inv shard data := by
  refine h.update x r' rfl (fun data' hdata' => ?_) hframe.keyPackage
    hframe.publicKeyPackage hnodup ((h.steady x).of_eq hcoord hstarted) (fun m c => ?_)
    (Inv.sources_post (T := T) h hx) (h.progress_of_eq rfl rfl (by rw [hcoord]))
  · exact h.own x data' (hframe.data ▸ hdata')
  · have hbook : ((T.set x r').sess c).book m = (T.sess c).book m := by
      rw [set_sess]
      split
      · next hc => rw [Roast.book, hcoord, hc, Roast.book]
      · rfl
    rw [link_eq, wire_send _ _ _ hmsg]
    change Link.Holds _ _ m ⟨((T.set x r').sess m).desk c, _, ((T.set x r').sess c).book m⟩
    rw [hbook, set_sess]
    by_cases hm : m = x
    · subst hm
      by_cases hc : c = c₀
      · subst hc
        rw [if_pos rfl, if_pos ⟨rfl, rfl⟩]
        exact hlink
      · rw [if_pos rfl, if_neg (fun hmc => hc hmc.2), hdesk c hc]
        exact h.links m c
    · rw [if_neg hm, if_neg (fun hmc => hm hmc.1)]
      exact h.links m c

/-- The member commits to a coordinator. -/
theorem Inv.commit (h : T.Inv shard data) (hx : x ∈ shard.members) {c₀ : Identifier}
    (hlast : (T.sess x).coordinators.getLast? = some c₀) (nonces : F.SigningNonces) :
    ((T.set x { T.sess x with
      signer := ((T.sess x).signer.commit nonces c₀).2
      coordinators := (T.sess x).coordinators.dropLast }).post x [c₀]
        (.commit (F.commitment nonces))).Inv shard data := by
  have hdesk := Roast.desk_commit (h.nodup x) hlast nonces (T.sess x).coordinator
  refine h.send hx (by simp) ⟨rfl, rfl, rfl⟩ rfl rfl ?_ (fun c hc => ?_) ?_
  · exact (h.nodup x).sublist (List.dropLast_sublist _)
  · rw [hdesk, if_neg hc]
  · have hfresh : ((T.sess x).desk c₀).fresh = true :=
      decide_eq_true (List.mem_of_getLast? hlast)
    rw [hdesk, if_pos rfl]
    exact (h.links x c₀).commit nonces hfresh

/-- The member answers the first request in its queue. -/
theorem Inv.reply (h : T.Inv shard data) (hx : x ∈ shard.members) {c₀ : Identifier}
    {request : RoastSignerRequest F} {requests : List (Identifier × RoastSignerRequest F)}
    (hrequests : (T.sess x).signer.requests = (c₀, request) :: requests)
    {stored : F.SigningNonces} (hstored : (T.sess x).signer.coordinators.get c₀ = some stored)
    {share : F.SignatureShare}
    (hsign : F.sign ⟨request.commitments, data⟩ stored (shard.keyPackage x) = some share)
    (nonces : F.SigningNonces) :
    ((T.set x { T.sess x with
      signer := (({ (T.sess x).signer with requests := requests }.spend c₀ stored).commit
        nonces c₀).2 }).post x [c₀]
        (.signature ⟨request.sessionId, share, F.commitment nonces⟩)).Inv shard data := by
  have hdesk := Roast.desk_reply hrequests stored nonces (T.sess x).coordinator
  obtain ⟨stored', hstored', hdesk₀, hwire, hasks⟩ := h.request hrequests
  obtain rfl : stored = stored' := Option.some.inj (hstored.symm.trans hstored')
  refine h.send hx (by simp) ⟨rfl, rfl, rfl⟩ rfl rfl (h.nodup x) (fun c hc => ?_) ?_
  · rw [hdesk, if_neg hc]
  · have hfresh : decide (c₀ ∈ (T.sess x).coordinators) = false := congrArg Desk.fresh hdesk₀
    have hqueue : (T.sess x).signer.queue c₀ = [request] := congrArg Desk.queue hdesk₀
    rw [hdesk, if_pos rfl, hfresh, hqueue, hwire]
    exact Link.Holds.reply hasks ⟨stored, hasks.own, hsign⟩

/-- A session the coordinator has not started yet is not there. -/
theorem Inv.session_none (h : T.Inv shard data) {k : RoastCoordinator F}
    (hk : (T.sess x).coordinator = some k) : k.sessions.get k.sessionId = none := by
  obtain ⟨-, horderly⟩ := (h.steady x).orderly k hk
  have hbound := (h.steady x).bound
  have hcard := shard.card_members
  have hsize := shard.size
  have hpos := shard.pos
  have hid : k.sessionId = (T.sess x).started := by
    rw [horderly.sessionId]
    exact Nat.mod_eq_of_lt (by omega)
  rw [hid]
  exact not_not.mp fun hno => Nat.lt_irrefl _ ((horderly.opened _).mp hno)

/-- The coordinator starts a session. -/
theorem Inv.start (h : T.Inv shard data) (hx : x ∈ shard.members) {k k' : RoastCoordinator F}
    {request : RoastSignerRequest F} (hk : (T.sess x).coordinator = some k)
    (hstart : k.Starts request k') (hr : r' = { T.sess x with
      coordinator := some k', started := (T.sess x).started + 1 })
    (hsteady : r'.Steady shard.members.toFinset (shard.Valid data) shard.threshold) :
    ((T.set x r').post x ((request.commitments.iter id).map Prod.fst) (.sign request)).Inv
      shard data := by
  obtain ⟨ht, -⟩ := (h.steady x).orderly k hk
  have hframe : (T.sess x).Frame r' := by
    rw [hr]
    exact ⟨rfl, rfl, rfl⟩
  have hdesk : ∀ c, r'.desk c = (T.sess x).desk c := fun c => by rw [hr]; rfl
  have hcoord : r'.coordinator = some k' := by rw [hr]
  refine h.update x r' rfl (fun data' hdata' => ?_) hframe.keyPackage
    hframe.publicKeyPackage (by rw [hr]; exact h.nodup x) hsteady (fun m c => ?_)
    (Inv.sources_post (T := T) h hx) (h.progress_of_eq rfl rfl (by simp [hk, hcoord]))
  · exact h.own x data' (hframe.data ▸ hdata')
  · rw [link_eq, wire_sign _ _ (StorageMap.iter_keys_nodup id request.commitments)]
    change Link.Holds _ _ m ⟨((T.set x r').sess m).desk c, _, ((T.set x r').sess c).book m⟩
    rw [set_desk hdesk, set_sess]
    by_cases hc : c = x
    · subst hc
      have hholds := h.links m c
      rw [link_eq, Roast.book, hk] at hholds
      obtain ⟨hnew, hold⟩ := hstart.awaits (h.session_none hk) m
      rw [if_pos rfl, Roast.book, hcoord]
      by_cases hm : request.commitments.get m = none
      · -- the commitment stays in the pool
        rw [if_neg (fun hno => StorageMap.mem_map_iter.mp hno.2 hm)]
        refine Link.Holds.extend hholds ?_ ?_ hold
        · rcases hstart.split m with ⟨heq, hnone⟩ | ⟨-, heq⟩
          · exact hnone.trans (hm.symm.trans heq)
          · exact heq
        · simp only [RoastCoordinator.book, hstart.committed]
      · rw [if_pos ⟨rfl, StorageMap.mem_map_iter.mpr hm⟩]
        rcases hstart.split m with ⟨heq, hnone⟩ | ⟨hno, -⟩
        · exact Link.Holds.ask hholds (fun hno => hm (heq.trans hno)) heq (hstart.len.trans ht)
            hnone hnew
        · exact absurd hno hm
    · rw [if_neg hc, if_neg (fun hno => hc hno.1)]
      exact h.links m c

/-- The coordinator has its signature. -/
theorem Inv.complete (h : T.Inv shard data) {k : RoastCoordinator F}
    (hk : (T.sess x).coordinator = some k) (signature : F.Signature) :
    ((T.set x { T.sess x with coordinator := none }).output x (F.messageHash data) signature).Inv
      shard data := by
  refine h.update x _ rfl (h.own x) rfl rfl (h.nodup x) ⟨fun _ hno => ?_, (h.steady x).bound⟩
    (fun m c => ?_) h.sources (fun m => ?_)
  · cases hno
  · rw [link_eq]
    change Link.Holds _ _ m ⟨((T.set x _).sess m).desk c, T.wire m c, ((T.set x _).sess c).book m⟩
    have hdesk : ∀ c, ({ T.sess x with coordinator := none } : Roast F).desk c
        = (T.sess x).desk c := fun _ => rfl
    rw [set_desk hdesk, set_sess]
    split
    · exact (h.links m c).close
    · exact h.links m c
  · have hold := h.progress m
    have hof := outputsOf_output (T.set x { T.sess x with coordinator := none }) x m
      (F.messageHash data) signature
    change _ = T.outputsOf m ++ _ at hof
    by_cases hm : m = x
    · subst hm
      rw [if_pos rfl] at hof
      cases hold with
      | signer _ hnone _ => cases hnone.symm.trans hk
      | waits hmem _ hnil =>
          rw [hnil, List.nil_append] at hof
          refine .done hmem ?_ hof
          change ((T.set m _).sess m).coordinator = none
          rw [set_sess, if_pos rfl]
      | done _ hnone _ => cases hnone.symm.trans hk
    · rw [if_neg hm, List.append_nil] at hof
      have hsess : ((T.set x { T.sess x with coordinator := none }).output x (F.messageHash data)
          signature).sess m = T.sess m := by
        change (T.set x _).sess m = _
        rw [set_sess, if_neg hm]
      cases hold with
      | signer hmem hnone hnil => exact .signer hmem (hsess ▸ hnone) (hof.trans hnil)
      | waits hmem hsome hnil => exact .waits hmem (hsess ▸ hsome) (hof.trans hnil)
      | done hmem hnone hone => exact .done hmem (hsess ▸ hnone) (hof.trans hone)

/-- The queue is empty, or its first request is answered. -/
theorem Inv.message (h : T.Inv shard data) (hsigns : shard.SignsOwn) (hx : x ∈ shard.members)
    (hdata : (T.sess x).signer.data ≠ none) (nonces : F.SigningNonces) :
    ((T.sess x).signer.requests = [] ∧
      (T.sess x).signer.message nonces = .ok (none, (T.sess x).signer)) ∨
    ∃ c request requests stored share,
      (T.sess x).signer.requests = (c, request) :: requests ∧
      (T.sess x).signer.coordinators.get c = some stored ∧
      F.sign ⟨request.commitments, data⟩ stored (shard.keyPackage x) = some share ∧
      (T.sess x).signer.message nonces
        = .ok (some (c, ⟨request.sessionId, share, F.commitment nonces⟩),
          (({ (T.sess x).signer with requests := requests }.spend c stored).commit nonces c).2) := by
  obtain ⟨data', hdata'⟩ := Option.ne_none_iff_exists'.mp hdata
  obtain rfl := h.own x data' hdata'
  have hkey := h.keyPackage x
  cases hrequests : (T.sess x).signer.requests with
  | nil =>
      refine .inl ⟨rfl, ?_⟩
      rw [RoastSigner.message, hdata', hrequests]
      rfl
  | cons e requests =>
      obtain ⟨c, request⟩ := e
      obtain ⟨stored, hstored, -, -, hasks⟩ := h.request hrequests
      obtain ⟨share, hshare⟩ := Option.ne_none_iff_exists'.mp
        (hsigns x hx ⟨request.commitments, data'⟩ stored hasks.len hasks.own)
      refine .inr ⟨c, request, requests, stored, share, rfl, hstored, hshare, ?_⟩
      rw [RoastSigner.message, hdata', hrequests]
      simp only [RoastSigner.messageLoop, hstored, RoastSigner.spend, hkey, hshare,
        RoastSigner.commit]

/-- What a member sends. -/
theorem Inv.acts (h : T.Inv shard data) (hsigns : shard.SignsOwn)
    (hagg : shard.AggregatesMatching) (hx : x ∈ shard.members)
    (hdata : (T.sess x).signer.data ≠ none) {action : RoastAction F} {peers : List Identifier}
    {msg : RoastMessage F} (hacts : (T.sess x).Acts nonces (some action) r')
    (hout : action.outgoing = .inl (peers, msg)) :
    ((T.set x r').post x peers msg).Inv shard data ∧ peers.Nodup := by
  have hcard := shard.card_members
  have hsteady := (h.steady x).acts shard.pos (hcard ▸ shard.size)
    (fun _ _ => h.waiting hagg hdata) hacts
  cases hacts with
  | complete => cases hout
  | start hk hnone hstart =>
      obtain ⟨rfl, rfl⟩ := Prod.mk.injEq .. |>.mp (Sum.inl.inj hout)
      obtain ⟨rfl, -⟩ := h.waiting hagg hdata hk hnone
      exact ⟨h.start hx hk hstart rfl hsteady, StorageMap.iter_keys_nodup ..⟩
  | commit hwaits hlast =>
      obtain ⟨rfl, rfl⟩ := Prod.mk.injEq .. |>.mp (Sum.inl.inj hout)
      obtain rfl := Waits.coordinator_eq h hagg hdata hwaits
      exact ⟨h.commit hx hlast nonces, List.nodup_singleton _⟩
  | reply hwaits hnil hm =>
      obtain ⟨rfl, rfl⟩ := Prod.mk.injEq .. |>.mp (Sum.inl.inj hout)
      obtain rfl := Waits.coordinator_eq h hagg hdata hwaits
      rcases h.message hsigns hx hdata nonces with
        ⟨-, hm'⟩ | ⟨c, request, requests, stored, share, hrequests, hstored, hsign, hm'⟩
      · cases hm.symm.trans hm'
      · cases hm.symm.trans hm'
        exact ⟨h.reply hx hrequests hstored hsign nonces, List.nodup_singleton _⟩

/-- What a member outputs. -/
theorem Inv.acts_complete (h : T.Inv shard data) {action : RoastAction F} {hash : Bytes 32}
    {signature : F.Signature} (hacts : (T.sess x).Acts nonces (some action) r')
    (hout : action.outgoing = .inr (hash, signature)) :
    ((T.set x r').output x hash signature).Inv shard data := by
  cases hacts with
  | complete hk hdata _ _ =>
      obtain ⟨rfl, rfl⟩ := Prod.mk.injEq .. |>.mp (Sum.inr.inj hout)
      obtain rfl := h.own x _ hdata
      exact h.complete hk _
  | start => cases hout
  | commit => cases hout
  | reply => cases hout

theorem Inv.not_panics (h : T.Inv shard data) (hsigns : shard.SignsOwn) (hx : x ∈ shard.members)
    (hdata : (T.sess x).signer.data ≠ none) : ¬(T.sess x).Panics nonces r' := by
  rintro ⟨-, -, hm⟩
  rcases h.message hsigns hx hdata nonces with ⟨-, hm'⟩ | ⟨_, _, _, _, _, -, -, -, hm'⟩
  · cases hm.symm.trans hm'
  · cases hm.symm.trans hm'

/-- A member that has nothing to do stays as it is. -/
theorem Inv.acts_none (h : T.Inv shard data) (hsigns : shard.SignsOwn)
    (hagg : shard.AggregatesMatching) (hx : x ∈ shard.members)
    (hdata : (T.sess x).signer.data ≠ none) (hacts : (T.sess x).Acts nonces none r') :
    r' = T.sess x ∧ (T.sess x).Rests := by
  cases hacts with
  | idle hwaits hnil hm =>
      rcases h.message hsigns hx hdata nonces with
        ⟨hrequests, hm'⟩ | ⟨_, _, _, _, _, -, -, -, hm'⟩
      · cases hm.symm.trans hm'
        refine ⟨?_, hnil, hrequests, fun k hk => ?_⟩
        · rw [Waits.coordinator_eq h hagg hdata hwaits]
        · cases hwaits with
          | signer hnone => cases hnone.symm.trans hk
          | coordinator hk' hnone hidle =>
              obtain ⟨rfl, -⟩ := h.waiting hagg hdata hk' hnone
              cases hk'.symm.trans hk
              exact RoastCoordinator.startSession_eq_none.mp hidle
      · cases hm.symm.trans hm'

/-! ### Deliveries -/

theorem between_self (w : Letter F) (hmsg : ∀ request, w.msg ≠ .sign request) :
    w.between w.src w.dst = some w.msg := by
  obtain ⟨src, dst, msg⟩ := w
  cases msg with
  | commit => simp [Letter.between]
  | sign request => exact absurd rfl (hmsg request)
  | signature => simp [Letter.between]

theorem between_eq_none {w : Letter F} (hmsg : ∀ request, w.msg ≠ .sign request)
    {m c : Identifier} (hmc : m ≠ w.src ∨ c ≠ w.dst) : w.between m c = none := by
  have hno : ¬(w.src = m ∧ w.dst = c) := by
    rintro ⟨rfl, rfl⟩
    exact hmc.elim (absurd rfl) (absurd rfl)
  obtain ⟨src, dst, msg⟩ := w
  cases msg with
  | commit => exact if_neg hno
  | sign request => exact absurd rfl (hmsg request)
  | signature => exact if_neg hno

/-- A letter is taken out. -/
theorem wire_take {before after : List (Letter F)} {w : Letter F}
    (hflight : T.flight = before ++ w :: after) {m c : Identifier} (hno : w.between m c = none) :
    (before ++ after).filterMap (·.between m c) = T.wire m c := by
  rw [wire, hflight, List.filterMap_append, List.filterMap_append, List.filterMap_cons, hno]

/-- The letter is the only one between the two. -/
theorem Inv.wire_take (h : T.Inv shard data) {before after : List (Letter F)} {w : Letter F}
    (hflight : T.flight = before ++ w :: after) {m c : Identifier} {msg : RoastMessage F}
    (hsome : w.between m c = some msg) :
    T.wire m c = [msg] ∧ (before ++ after).filterMap (·.between m c) = [] := by
  have hwire : T.wire m c
      = before.filterMap (·.between m c) ++ msg :: after.filterMap (·.between m c) := by
    rw [wire, hflight, List.filterMap_append, List.filterMap_cons, hsome]
  obtain ⟨hbefore, hafter⟩ := (h.links m c).wire_eq hwire
  rw [hwire, List.filterMap_append, hbefore, hafter]
  exact ⟨rfl, rfl⟩

theorem Inv.sources_take (h : T.Inv shard data) {before after : List (Letter F)} {w : Letter F}
    (hflight : T.flight = before ++ w :: after) :
    ∀ e ∈ before ++ after, e.src ∈ shard.members := by
  intro e he
  refine h.sources e ?_
  rw [hflight]
  exact List.mem_append.mpr ((List.mem_append.mp he).imp_right (List.mem_cons_of_mem _))

/-- A coordinator takes a commitment or a response. -/
theorem Inv.take (h : T.Inv shard data) {before after : List (Letter F)} {w : Letter F}
    (hflight : T.flight = before ++ w :: after) (hmsg : ∀ request, w.msg ≠ .sign request)
    {f : RoastCoordinator F → RoastCoordinator F}
    (hr : r' = { T.sess w.dst with coordinator := (T.sess w.dst).coordinator.map f })
    (hsteady : r'.Steady shard.members.toFinset (shard.Valid data) shard.threshold)
    (hother : ∀ k m, m ≠ w.src → (f k).book m = k.book m)
    (hlink : ∀ k desk, (T.sess w.dst).coordinator = some k →
      Link.Holds shard.threshold (shard.Valid data) w.src
        ⟨desk, [w.msg], some (k.book w.src)⟩ →
      Link.Holds shard.threshold (shard.Valid data) w.src
        ⟨desk, [], some ((f k).book w.src)⟩) :
    ({ T.set w.dst r' with flight := before ++ after } : Table F).Inv shard data := by
  have hframe : (T.sess w.dst).Frame r' := by
    rw [hr]
    exact ⟨rfl, rfl, rfl⟩
  have hdesk : ∀ c, r'.desk c = (T.sess w.dst).desk c := fun c => by rw [hr]; rfl
  have hcoord : r'.coordinator = (T.sess w.dst).coordinator.map f := by rw [hr]
  refine h.update w.dst r' rfl (fun data' hdata' => ?_) hframe.keyPackage
    hframe.publicKeyPackage (by rw [hr]; exact h.nodup _) hsteady (fun m c => ?_)
    (h.sources_take hflight)
    (h.progress_of_eq rfl rfl (by rw [hcoord, Option.map_eq_none_iff]))
  · exact h.own _ data' (hframe.data ▸ hdata')
  · rw [link_eq]
    change Link.Holds _ _ m ⟨((T.set w.dst r').sess m).desk c,
      (before ++ after).filterMap (·.between m c), ((T.set w.dst r').sess c).book m⟩
    rw [set_desk hdesk, set_sess]
    have hholds := h.links m c
    rw [link_eq] at hholds
    by_cases hmc : m = w.src ∧ c = w.dst
    · obtain ⟨rfl, rfl⟩ := hmc
      obtain ⟨hwire, htaken⟩ := h.wire_take hflight (between_self w hmsg)
      rw [hwire] at hholds
      rw [htaken, if_pos rfl, Roast.book, hcoord, Option.map_map]
      rw [Roast.book] at hholds
      cases hk : (T.sess w.dst).coordinator with
      | none =>
          rw [hk] at hholds
          exact hholds.lose hmsg
      | some k =>
          rw [hk] at hholds
          exact hlink k _ hk hholds
    · rw [Table.wire_take hflight (between_eq_none hmsg (not_and_or.mp hmc))]
      split
      · next hc =>
        have hm : m ≠ w.src := fun hm => hmc ⟨hm, hc⟩
        rw [Roast.book, hcoord, Option.map_map]
        have hsame : (T.sess w.dst).coordinator.map ((·.book m) ∘ f) = (T.sess c).book m := by
          rw [hc, Roast.book]
          exact congrArg (Option.map · _) (funext fun k => hother k m hm)
        rw [hsame]
        exact hholds
      · exact hholds

/-- A member takes a request. -/
theorem Inv.takeSign (h : T.Inv shard data) {before after : List (Letter F)}
    {src dst : Identifier} {request : RoastSignerRequest F}
    (hflight : T.flight = before ++ ⟨src, dst, .sign request⟩ :: after) :
    ({ T.set dst ((T.sess dst).onMessage src (.sign request)) with
      flight := before ++ after } : Table F).Inv shard data := by
  have hdesk := (T.sess dst).desk_sign src request
  refine h.update dst ((T.sess dst).onMessage src (.sign request)) rfl (h.own dst)
    rfl rfl (h.nodup dst) ((h.steady dst).of_eq rfl rfl) (fun m c => ?_) (h.sources_take hflight)
    (h.progress_of_eq rfl rfl Iff.rfl)
  have hbook : ((T.set dst ((T.sess dst).onMessage src (.sign request))).sess c).book m
      = (T.sess c).book m := by
    rw [set_sess]
    split
    · next hc =>
      rw [hc]
      rfl
    · rfl
  have hholds := h.links m c
  rw [link_eq] at hholds ⊢
  change Link.Holds _ _ m ⟨((T.set dst _).sess m).desk c,
    (before ++ after).filterMap (·.between m c), ((T.set dst _).sess c).book m⟩
  rw [hbook, set_sess]
  by_cases hmc : c = src ∧ m = dst
  · obtain ⟨rfl, rfl⟩ := hmc
    have hself : (⟨c, m, .sign request⟩ : Letter F).between m c = some (.sign request) :=
      if_pos ⟨rfl, rfl⟩
    obtain ⟨hwire, htaken⟩ := h.wire_take hflight hself
    rw [hwire] at hholds
    rw [htaken, if_pos rfl, hdesk, if_pos rfl]
    exact hholds.takeSign
  · have hno : (⟨src, dst, .sign request⟩ : Letter F).between m c = none := by
      refine if_neg ?_
      rintro ⟨rfl, rfl⟩
      exact hmc ⟨rfl, rfl⟩
    rw [Table.wire_take hflight hno]
    split
    · next hm =>
      have hc : c ≠ src := fun hc => hmc ⟨hc, hm⟩
      rw [hdesk, if_neg hc, ← hm]
      exact hholds
    · exact hholds

/-- A letter arrives. -/
theorem Inv.deliver (h : T.Inv shard data) {before after : List (Letter F)} {w : Letter F}
    (hflight : T.flight = before ++ w :: after) :
    ({ T.set w.dst ((T.sess w.dst).onMessage w.src w.msg) with
      flight := before ++ after } : Table F).Inv shard data := by
  have hsrc : w.src ∈ shard.members.toFinset := by
    refine List.mem_toFinset.mpr (h.sources w ?_)
    rw [hflight]
    exact List.mem_append_right _ List.mem_cons_self
  obtain ⟨src, dst, msg⟩ := w
  cases msg with
  | commit commitment =>
      refine h.take hflight (by simp) rfl ((h.steady dst).onMessage hsrc (by simp)) ?_ ?_
      · exact fun k m hm => RoastCoordinator.book_onCommit_of_ne hm commitment
      · intro k desk _ hholds
        exact hholds.takeCommit fun hnew => RoastCoordinator.pool_onCommit hnew commitment
  | sign request => exact h.takeSign hflight
  | signature response =>
      obtain ⟨hwire, -⟩ := h.wire_take hflight (between_self _ (by simp))
      have hholds := h.links src dst
      rw [link_eq, hwire, Roast.book] at hholds
      refine h.take hflight (by simp) rfl ((h.steady dst).onMessage hsrc ?_) ?_ ?_
      · intro response' k session hresponse hk hsession
        cases hresponse
        rw [hk] at hholds
        obtain ⟨commitments, hawaits, hmem, hvalid⟩ := hholds.signature_waiting
        obtain ⟨session', hsession', hshare, rfl⟩ := RoastCoordinator.awaits_eq_some.mp hawaits
        obtain rfl := Option.some.inj (hsession.symm.trans hsession')
        exact ⟨hmem, hshare, hvalid⟩
      · exact fun k m hm => RoastCoordinator.book_onResponse_of_ne hm response
      · intro k desk _ hholds
        obtain ⟨commitments, hawaits, -⟩ := hholds.signature_waiting
        exact hholds.takeSignature (RoastCoordinator.pool_onResponse hawaits)

/-! ### A poll -/

/-- What a member sends itself is delivered at once. -/
theorem Inv.toSelf {peers : List Identifier} {msg : RoastMessage F}
    (h : ((T.set x r').post x peers msg).Inv shard data) (hnodup : peers.Nodup) :
    ((T.set x (r'.toSelf x peers msg)).post x (others x peers) msg).Inv shard data := by
  rw [Roast.toSelf_eq]
  by_cases hmem : x ∈ peers
  · obtain ⟨before, after, rfl⟩ := List.append_of_mem hmem
    have hnew := List.nodup_middle.mp hnodup
    have hothers : others x (before ++ x :: after) = before ++ after := by
      have hx := (List.nodup_cons.mp hnew).1
      rw [List.mem_append, not_or] at hx
      rw [others, List.filter_append, List.filter_cons_of_neg (by simp)]
      congr 1
      · exact List.filter_eq_self.mpr fun p hp => bne_iff_ne.mpr fun heq => hx.1 (heq ▸ hp)
      · exact List.filter_eq_self.mpr fun p hp => bne_iff_ne.mpr fun heq => hx.2 (heq ▸ hp)
    have hflight : ((T.set x r').post x (before ++ x :: after) msg).flight
        = (T.flight ++ before.map fun p => ⟨x, p, msg⟩)
          ++ (⟨x, x, msg⟩ : Letter F) :: after.map fun p => ⟨x, p, msg⟩ := by
      simp only [post, set, List.map_append, List.map_cons, List.append_assoc]
    have hdelivered := h.deliver hflight
    have hsess : ((T.set x r').post x (before ++ x :: after) msg).sess x = r' :=
      (T.set_sess x r' x).trans (if_pos rfl)
    dsimp only at hdelivered
    rw [hsess] at hdelivered
    rw [if_pos hmem, hothers]
    have heq : (T.set x (r'.onMessage x msg)).post x (before ++ after) msg
        = { ((T.set x r').post x (before ++ x :: after) msg).set x (r'.onMessage x msg) with
          flight := (T.flight ++ before.map fun p => ⟨x, p, msg⟩)
            ++ after.map fun p => ⟨x, p, msg⟩ } := by
      simp only [post, set, Function.update_idem, List.map_append, List.append_assoc]
    rw [heq]
    exact hdelivered
  · have hothers : others x peers = peers :=
      List.filter_eq_self.mpr fun p hp => bne_iff_ne.mpr fun heq => hmem (heq ▸ hp)
    rw [if_neg hmem, hothers]
    exact h

/-- What a poll comes to: the session is left as `r`, and what it sends or
outputs under this id is added. -/
def emit (T : Table F) (x : Identifier) (id : Nat) (poll : Poll F) (r : Roast F) : Table F where
  sess := Function.update T.sess x r
  flight := T.flight ++ poll.letters x id
  outputs := T.outputs ++ poll.signatures x id

theorem emit_set (T : Table F) (x : Identifier) (id : Nat) (poll : Poll F) (r r' : Roast F) :
    (T.set x r).emit x id poll r' = T.emit x id poll r' := by
  simp only [emit, set, Function.update_idem]

theorem emit_idle (T : Table F) (x : Identifier) (id : Nat) (r : Roast F) :
    T.emit x id .idle r = T.set x r := by
  simp only [emit, set, Poll.letters, Poll.signatures, List.append_nil]

theorem emit_send (T : Table F) (x : Identifier) (id : Nat) (peers : List Identifier)
    (msg : RoastMessage F) (r : Roast F) :
    T.emit x id (.act (.send (peers.map fun peer => (peer, .roast id msg)))) r
      = (T.set x r).post x peers msg := by
  have hletters : (peers.map fun peer => (peer, TssMessage.roast id msg)).filterMap
      (fun e => e.2.letter x e.1 id) = peers.map fun p => (⟨x, p, msg⟩ : Letter F) := by
    rw [List.filterMap_map]
    simp only [Function.comp_def, TssMessage.letter, if_pos]
    exact congrFun List.filterMap_eq_map peers
  simp only [emit, set, post, Poll.letters, Poll.signatures, List.append_nil, hletters]

theorem emit_signature (T : Table F) (x : Identifier) (id : Nat) (hash : Bytes 32)
    (signature : F.Signature) (r : Roast F) :
    T.emit x id (.act (.signature id hash signature)) r = (T.set x r).output x hash signature := by
  simp only [emit, set, output, Poll.letters, Poll.signatures, List.append_nil, if_pos]

/-- The member sends to itself only. -/
theorem Inv.again (h : T.Inv shard data) (hsigns : shard.SignsOwn)
    (hagg : shard.AggregatesMatching) (hx : x ∈ shard.members)
    (hdata : (T.sess x).signer.data ≠ none) {action : RoastAction F} {peers : List Identifier}
    {msg : RoastMessage F} (hacts : (T.sess x).Acts nonces (some action) r')
    (hout : action.outgoing = .inl (peers, msg)) (hnil : others x peers = []) :
    (T.set x (r'.toSelf x peers msg)).Inv shard data ∧
      (r'.toSelf x peers msg).signer.data ≠ none := by
  obtain ⟨hinv, hnodup⟩ := h.acts hsigns hagg hx hdata hacts hout
  have hself := hinv.toSelf hnodup
  have hpost : (T.set x (r'.toSelf x peers msg)).post x [] msg
      = T.set x (r'.toSelf x peers msg) := by
    simp only [post, List.map_nil, List.append_nil]
  rw [hnil, hpost] at hself
  refine ⟨hself, ?_⟩
  rw [(Roast.toSelf_lasts r' x peers msg).data, hacts.frame.data]
  exact hdata

/-- A poll of one session. -/
theorem Inv.polls (h : T.Inv shard data) (hsigns : shard.SignsOwn)
    (hagg : shard.AggregatesMatching) (hx : x ∈ shard.members) {id : Nat} {r : Roast F}
    {poll : Poll F} (hpolls : Polls x id r poll r') (hr : T.sess x = r)
    (hdata : r.signer.data ≠ none) :
    poll ≠ .panic ∧ (T.emit x id poll r').Inv shard data ∧ (poll = .idle → r'.Rests) := by
  induction hpolls generalizing T with
  | panic hpanics =>
      subst hr
      exact absurd hpanics (h.not_panics hsigns hx hdata)
  | idle hacts =>
      subst hr
      obtain ⟨rfl, hrests⟩ := h.acts_none hsigns hagg hx hdata hacts
      rw [emit_idle, set_self]
      exact ⟨by simp, h, fun _ => hrests⟩
  | complete hacts hout =>
      subst hr
      rw [emit_signature]
      exact ⟨by simp, h.acts_complete hacts hout, fun hno => by cases hno⟩
  | send hacts hout _ =>
      subst hr
      obtain ⟨hinv, hnodup⟩ := h.acts hsigns hagg hx hdata hacts hout
      rw [emit_send]
      exact ⟨by simp, hinv.toSelf hnodup, fun hno => by cases hno⟩
  | @again r r₁ r₂ nonces action peers msg poll hacts hout hnil _ ih =>
      subst hr
      obtain ⟨hinv, hdata'⟩ := h.again hsigns hagg hx hdata hacts hout hnil
      rw [← emit_set T x id poll (r₁.toSelf x peers msg)]
      exact ih hinv ((T.set_sess ..).trans (if_pos rfl)) hdata'

theorem onMessage_work (r : Roast F) (peer : Identifier) (msg : RoastMessage F) (n : Nat) :
    (r.onMessage peer msg).work n ≤ r.work n + 1 ∧
      ((∀ request, msg ≠ .sign request) → (r.onMessage peer msg).work n = r.work n) := by
  cases msg with
  | commit commitment => exact ⟨Nat.le_succ _, fun _ => rfl⟩
  | sign request =>
      refine ⟨?_, fun h => absurd rfl (h request)⟩
      simp only [Roast.work, Roast.onMessage, RoastSigner.sign, List.length_append,
        List.length_singleton]
      omega
  | signature response => exact ⟨Nat.le_succ _, fun _ => rfl⟩

/-- What a member does for itself alone comes to an end. -/
theorem Inv.work_lt (h : T.Inv shard data) (hsigns : shard.SignsOwn)
    (hagg : shard.AggregatesMatching) (hx : x ∈ shard.members)
    (hdata : (T.sess x).signer.data ≠ none) {action : RoastAction F} {peers : List Identifier}
    {msg : RoastMessage F} (hacts : (T.sess x).Acts nonces (some action) r')
    (hout : action.outgoing = .inl (peers, msg)) :
    (r'.toSelf x peers msg).work shard.members.length
      < (T.sess x).work shard.members.length := by
  have hbound : r'.started ≤ shard.members.length := by
    have hsteady := ((h.acts hsigns hagg hx hdata hacts hout).1.steady x).bound
    have hpos := shard.pos
    change ((T.set x r').sess x).started + _ ≤ _ at hsteady
    rw [set_sess, if_pos rfl, shard.card_members] at hsteady
    omega
  rw [Roast.toSelf_eq]
  have hself : ∀ n, (if x ∈ peers then r'.onMessage x msg else r').work n ≤ r'.work n + 1 ∧
      ((∀ request, msg ≠ .sign request) →
        (if x ∈ peers then r'.onMessage x msg else r').work n = r'.work n) := by
    intro n
    split
    · exact onMessage_work r' x msg n
    · exact ⟨Nat.le_succ _, fun _ => rfl⟩
  obtain ⟨hle, heq⟩ := hself shard.members.length
  cases hacts with
  | complete => cases hout
  | start =>
      obtain ⟨rfl, rfl⟩ := Prod.mk.injEq .. |>.mp (Sum.inl.inj hout)
      refine Nat.lt_of_le_of_lt hle ?_
      simp only [Roast.work] at hbound ⊢
      omega
  | commit _ hlast =>
      obtain ⟨rfl, rfl⟩ := Prod.mk.injEq .. |>.mp (Sum.inl.inj hout)
      have hpos : 0 < (T.sess x).coordinators.length :=
        List.length_pos_of_mem (List.mem_of_getLast? hlast)
      rw [heq fun _ hno => by cases hno]
      simp only [Roast.work, List.length_dropLast, RoastSigner.commit]
      omega
  | reply _ _ hm =>
      obtain ⟨rfl, rfl⟩ := Prod.mk.injEq .. |>.mp (Sum.inl.inj hout)
      rw [heq fun _ hno => by cases hno]
      rcases h.message hsigns hx hdata nonces with
        ⟨-, hm'⟩ | ⟨c, request, requests, stored, share, hrequests, -, -, hm'⟩
      · cases hm.symm.trans hm'
      · cases hm.symm.trans hm'
        simp only [Roast.work, RoastSigner.spend, RoastSigner.commit, hrequests,
          List.length_cons]
        omega

/-- A poll of one session ends, and draws no more nonces than there is work. -/
theorem Inv.pollSession_isSome (h : T.Inv shard data) (hsigns : shard.SignsOwn)
    (hagg : shard.AggregatesMatching) (hx : x ∈ shard.members) (id : Nat)
    (hdata : (T.sess x).signer.data ≠ none) (supply : List F.SigningNonces)
    (hsupply : (T.sess x).work shard.members.length < supply.length) :
    ∃ poll r supply', pollSession x id supply (T.sess x) = some (poll, r, supply') ∧
      supply.length ≤ (T.sess x).work shard.members.length + 1 + supply'.length := by
  -- on the supply; the measure goes down with each action for the member alone
  induction supply generalizing T with
  | nil => cases hsupply
  | cons nonces supply ih =>
      rw [List.length_cons] at hsupply ⊢
      simp only [pollSession]
      cases hact : (T.sess x).nextAction nonces with
      | error r => exact ⟨_, _, _, rfl, by omega⟩
      | ok e =>
          obtain ⟨_ | action, r⟩ := e
          · exact ⟨_, _, _, rfl, by omega⟩
          · have hacts := Roast.nextAction_ok hact
            cases hout : action.outgoing with
            | inr e =>
                dsimp only
                rw [hout]
                exact ⟨_, _, _, rfl, by omega⟩
            | inl e =>
                obtain ⟨peers, msg⟩ := e
                dsimp only
                rw [hout]
                dsimp only
                split
                · next hnil =>
                  obtain ⟨hinv, hdata'⟩ := h.again hsigns hagg hx hdata hacts hout hnil
                  have hlt := h.work_lt hsigns hagg hx hdata hacts hout
                  have hsess : (T.set x (r.toSelf x peers msg)).sess x = r.toSelf x peers msg :=
                    (T.set_sess ..).trans (if_pos rfl)
                  have hpoll := ih hinv
                  rw [hsess] at hpoll
                  obtain ⟨poll, r', supply', heq, hle⟩ := hpoll hdata' (by omega)
                  exact ⟨poll, r', supply', heq, by omega⟩
                · exact ⟨_, _, _, rfl, by omega⟩

/-! ### Runs -/

/-- A session that nobody has signed in. -/
def start (shard : Shard F) : Table F := ⟨fun m => (shard.tss m).newSession, [], []⟩

theorem inv_start (shard : Shard F) (data : List UInt8) : (start shard).Inv shard data := by
  have hcoord : ∀ c, ((start shard).sess c).coordinator
      = if c ∈ shard.coordinators then some (.new F shard.threshold) else none := fun _ => rfl
  refine ⟨fun _ _ hdata => ?_, fun _ => rfl, fun _ => rfl, fun _ => ?_, fun _ => ?_, fun m c => ?_,
    fun _ hw => ?_, fun m => ?_⟩
  · cases hdata
  · exact shard.sorted.nodup.sublist (List.take_sublist _ _)
  · refine Roast.Steady.new ?_ _ _ _ _
    rw [shard.card_members]
    exact shard.le
  · rw [link_eq, Roast.book, hcoord]
    by_cases hc : c ∈ shard.coordinators
    · have hdesk : ((start shard).sess m).desk c = ⟨true, none, []⟩ :=
        congrArg (Desk.mk · none []) (decide_eq_true hc)
      rw [hdesk, if_pos hc]
      refine .fresh fun b hb => ?_
      cases hb
      exact ⟨rfl, rfl⟩
    · have hdesk : ((start shard).sess m).desk c = ⟨false, none, []⟩ :=
        congrArg (Desk.mk · none []) (decide_eq_false hc)
      rw [hdesk, if_neg hc]
      exact .lost
  · cases hw
  · by_cases hm : m ∈ shard.coordinators
    · refine .waits hm ?_ rfl
      rw [hcoord, if_pos hm]
      exact Option.some_ne_none _
    · refine .signer hm ?_ rfl
      rw [hcoord, if_neg hm]

theorem Inv.setData (h : T.Inv shard data) (x : Identifier) :
    (T.set x ((T.sess x).setData data)).Inv shard data := by
  refine h.update x ((T.sess x).setData data) rfl (fun data' hdata' => ?_) rfl rfl
    (h.nodup x) ((h.steady x).of_eq rfl rfl) (fun m c => ?_) h.sources
    (h.progress_of_eq rfl rfl Iff.rfl)
  · exact (Option.some.inj hdata').symm
  · have hbook : ((T.set x ((T.sess x).setData data)).sess c).book m = (T.sess c).book m := by
      rw [set_sess]
      split
      · next hc =>
        rw [hc]
        rfl
      · rfl
    have hdesk : ∀ c, ((T.sess x).setData data).desk c = (T.sess x).desk c := fun _ => rfl
    rw [link_eq, hbook, set_desk hdesk]
    exact h.links m c

/-- When all members rest, every coordinator has its signature: one that has
not would have all members in its pool. -/
theorem Inv.done_of_rests (h : T.Inv shard data) (hflight : T.flight = [])
    (hrests : ∀ m ∈ shard.members, (T.sess m).Rests) {c : Identifier}
    (hc : c ∈ shard.coordinators) : (T.sess c).coordinator = none := by
  cases hk : (T.sess c).coordinator with
  | none => rfl
  | some k =>
      obtain ⟨ht, -⟩ := (h.steady c).orderly k hk
      have hpooled : ∀ m ∈ shard.members, k.commitments.get m ≠ none := by
        intro m hm
        have hholds := h.links m c
        have hwire : T.wire m c = [] := by rw [wire, hflight, List.filterMap_nil]
        rw [link_eq, hwire, Roast.book, hk] at hholds
        refine hholds.pooled_of_rest ?_ ?_
        · exact decide_eq_false (by rw [(hrests m hm).committed]; exact List.not_mem_nil)
        · rw [Roast.desk, RoastSigner.queue, (hrests m hm).answered, List.filterMap_nil]
      have hle : shard.members.toFinset.card ≤ k.commitments.keySet.card :=
        Finset.card_le_card fun m hm =>
          StorageMap.mem_keySet.mpr (hpooled m (List.mem_toFinset.mp hm))
      have hfew := (hrests c (List.mem_of_mem_take hc)).few k hk
      have henough := shard.le
      rw [shard.card_members, StorageMap.card_keySet] at hle
      omega

end Inv

end Table

end Signing

end Timechain
