import HdhrEmu.ClaimHolder

/-!
# The tuner pool

The tuners of a server next to each other, with the channel database that they
share.  Everything that runs on one tuner is as before; a pull that may take
any tuner first looks for one that streams to the same client, and then tries
them in turn.

Every claim is matched by one release.  What a thread does is accounted for
over its whole life: the claims it takes, the ones it gives back and the one
that a `channel` SET leaves to its worker.
-/

namespace HdhrEmu

open Interleaving Interleaving.Machine

/-- The critical sections that clear `busy`: one in `tuner_release` and one in
`tuner_release_park`. -/
@[simp]
def Frame.releases : Frame → Nat
  | .release .tunerReleaseClear | .release (.parkInstall _) => 1
  | _ => 0

/-- The calls on the way to a claim. -/
@[simp]
def Frame.ahead : Frame → Nat
  | .claim (.tunerTryClaim _ _ _) | .claim (.tunerTryClaimWait _)
  | .claim (.tunerTryClaimWaiting _) | .push (.pushStart _)
  | .pull (.streamChannelToClient _ _ _) | .pull (.claimForPeer _ _)
  | .set (.channelSet _) | .set (.channelClaim _) => 1
  | _ => 0

/-- The calls on the way to a worker that gets the claim. -/
@[simp]
def Frame.handsOn : Frame → Nat
  | .set (.channelSet _) | .set (.channelClaim _) | .set (.channelSelect _ _)
  | .set (.channelSpawn _) => 1
  | _ => 0

/-- The action took the claim. -/
def World.takes (w : World) (outcome : Outcome) : Nat :=
  (!w.tuner.busy && outcome.shared.tuner.busy).toNat

/-- The claims that an action leaves to threads it starts. -/
def handed (outcome : Outcome) : Nat :=
  (outcome.spawned.flatten.map Frame.claims).sum

@[simp]
theorem parkInstall_httpPeerAddr (t : Tuner) (fd : Option Fd) :
    (t.parkInstall fd).httpPeerAddr = 0 := by
  cases fd <;> rfl

@[simp]
theorem parkExpire_httpPeerAddr (t : Tuner) (generation : UInt32) :
    (t.parkExpire generation).httpPeerAddr = t.httpPeerAddr := by
  unfold Tuner.parkExpire
  split <;> rfl

section Sums

@[simp]
theorem ahead_stopping (held : Option Fd) (frames : List Frame) :
    ((stopping held frames).map Frame.ahead).sum = (frames.map Frame.ahead).sum := by
  unfold stopping
  split <;> simp

@[simp]
theorem handsOn_stopping (held : Option Fd) (frames : List Frame) :
    ((stopping held frames).map Frame.handsOn).sum = (frames.map Frame.handsOn).sum := by
  unfold stopping
  split <;> simp

@[simp]
theorem ahead_granted (granted : Granted) : (granted.frames.map Frame.ahead).sum = 0 := by
  rcases granted with ⟨_ | _, _⟩ | _ <;> rfl

@[simp]
theorem handsOn_granted (granted : Granted) : (granted.frames.map Frame.handsOn).sum = 0 := by
  rcases granted with ⟨_ | _, _⟩ | _ <;> rfl

@[simp]
theorem ahead_claimTimedOut (db : ChannelDb) (who : Claimant) :
    ((who.claimTimedOut db).map Frame.ahead).sum ≤ 1 := by
  rcases who with ⟨_ | _, _⟩ | _ <;> simp [Claimant.claimTimedOut]

@[simp]
theorem handsOn_claimTimedOut (db : ChannelDb) (who : Claimant) :
    ((who.claimTimedOut db).map Frame.handsOn).sum = 0 := by
  rcases who with ⟨_ | _, _⟩ | _ <;> rfl

@[simp]
theorem ahead_openFailed (who : Streamer) : (who.openFailed.map Frame.ahead).sum = 0 := by
  cases who <;> rfl

@[simp]
theorem handsOn_openFailed (who : Streamer) : (who.openFailed.map Frame.handsOn).sum = 0 := by
  cases who <;> rfl

@[simp]
theorem ahead_opened (who : Streamer) (stream : DvbStream) :
    ((who.opened stream).map Frame.ahead).sum = 0 := by
  cases who <;> rfl

@[simp]
theorem handsOn_opened (who : Streamer) (stream : DvbStream) :
    ((who.opened stream).map Frame.handsOn).sum = 0 := by
  cases who <;> rfl

end Sums

/-- What an action does with the claim and with what depends on it. -/
structure ClaimStep (w : World) (frame : Frame) (outcome : Outcome) : Prop where
  /-- Only the releasing sections clear `busy`. -/
  busy : if frame.releases = 1 then outcome.shared.tuner.busy = false
    else w.tuner.busy = true → outcome.shared.tuner.busy = true
  /-- A call that takes the claim is on the way to it no longer. -/
  ahead : w.takes outcome + (outcome.frames.map Frame.ahead).sum ≤ frame.ahead
  /-- Only a `channel` SET leaves its claim to a thread that it starts. -/
  handsOn : handed outcome + (outcome.frames.map Frame.handsOn).sum ≤ frame.handsOn
  /-- The address of a client is cleared with `busy`, and set under the claim. -/
  peer : outcome.shared.tuner.httpPeerAddr ≠ 0 → frame.releases = 0 ∧
    (outcome.shared.tuner.httpPeerAddr = w.tuner.httpPeerAddr ∨ frame.claims = 1)
  /-- Nothing has a claim and is on the way to another one. -/
  single : (outcome.frames.map Frame.claims).sum + (outcome.frames.map Frame.ahead).sum ≤
    frame.claims + frame.ahead
  started : ∀ stack ∈ outcome.spawned,
    (stack.map Frame.claims).sum + (stack.map Frame.ahead).sum ≤ 1
  workers : ∀ stack ∈ outcome.spawned, (stack.map Frame.handsOn).sum = 0

section Groups

variable {w : World} {χ : Choice} {outcome : Outcome}

theorem holdAct_claimStep {frame : HoldFrame} (acted : holdAct w χ frame = some outcome) :
    ClaimStep w (.hold frame) outcome := by
  revert acted
  fun_cases holdAct w χ frame <;> intro acted <;> cases acted <;> constructor <;>
    simp_all [World.takes, handed]

theorem releaseAct_claimStep {frame : ReleaseFrame} (acted : releaseAct w χ frame = some outcome) :
    ClaimStep w (.release frame) outcome := by
  revert acted
  fun_cases releaseAct w χ frame <;> intro acted <;> cases acted <;> constructor <;>
    simp_all [World.takes, handed]

theorem claimAct_claimStep {frame : ClaimFrame} (acted : claimAct w χ frame = some outcome) :
    ClaimStep w (.claim frame) outcome := by
  revert acted
  fun_cases claimAct w χ frame <;> intro acted <;> cases acted <;> constructor <;>
    simp_all [World.takes, handed]

theorem streamAct_claimStep {frame : StreamFrame} (acted : streamAct w χ frame = some outcome) :
    ClaimStep w (.stream frame) outcome := by
  revert acted
  fun_cases streamAct w χ frame <;> intro acted <;> cases acted <;> constructor <;>
    simp_all [World.takes, handed]

theorem pushAct_claimStep {frame : PushFrame} (acted : pushAct w χ frame = some outcome) :
    ClaimStep w (.push frame) outcome := by
  revert acted
  fun_cases pushAct w χ frame <;> intro acted <;> cases acted <;> constructor <;>
    simp_all [World.takes, handed]

theorem pullAct_claimStep {frame : PullFrame} (acted : pullAct w χ frame = some outcome) :
    ClaimStep w (.pull frame) outcome := by
  revert acted
  fun_cases pullAct w χ frame <;> intro acted <;> cases acted <;> constructor <;>
    simp_all [World.takes, handed]

theorem setAct_claimStep {frame : SetFrame} (acted : setAct w χ frame = some outcome) :
    ClaimStep w (.set frame) outcome := by
  revert acted
  fun_cases setAct w χ frame <;> intro acted <;> cases acted <;> constructor <;>
    simp_all [World.takes, handed]

theorem scanAct_claimStep {frame : ScanFrame} (acted : scanAct w χ frame = some outcome) :
    ClaimStep w (.scan frame) outcome := by
  revert acted
  fun_cases scanAct w χ frame <;> intro acted <;> cases acted <;> constructor <;>
    simp_all [World.takes, handed]

theorem statsAct_claimStep {frame : StatsFrame} (acted : statsAct w χ frame = some outcome) :
    ClaimStep w (.stats frame) outcome := by
  revert acted
  fun_cases statsAct w χ frame <;> intro acted <;> cases acted <;> constructor <;>
    simp_all [World.takes, handed]

theorem act_claimStep {frame : Frame} (acted : act w frame χ = some outcome) :
    ClaimStep w frame outcome := by
  cases frame with
  | hold frame => exact holdAct_claimStep acted
  | release frame => exact releaseAct_claimStep acted
  | claim frame => exact claimAct_claimStep acted
  | stream frame => exact streamAct_claimStep acted
  | push frame => exact pushAct_claimStep acted
  | pull frame => exact pullAct_claimStep acted
  | set frame => exact setAct_claimStep acted
  | scan frame => exact scanAct_claimStep acted
  | stats frame => exact statsAct_claimStep acted

theorem claims_of_releases {frame : Frame} (releases : frame.releases = 1) : frame.claims = 1 := by
  revert releases
  fun_cases Frame.releases frame <;> simp

theorem releases_le_one (frame : Frame) : frame.releases ≤ 1 := by
  fun_cases Frame.releases frame <;> simp

/-- A claim that is taken stays with the call, is handed on, or is released. -/
theorem act_claims {frame : Frame} (held : frame.claims = 1 → w.tuner.busy = true)
    (acted : act w frame χ = some outcome) :
    frame.claims + w.takes outcome =
      (outcome.frames.map Frame.claims).sum + (frame.releases + handed outcome) := by
  have kept := act_keepsClaim held acted
  have busy := (act_claimStep acted).busy
  unfold KeepsClaim at kept
  unfold World.takes handed
  by_cases releases : frame.releases = 1
  · have claims := claims_of_releases releases
    rw [if_pos releases] at busy
    rw [held claims, busy, claims] at kept ⊢
    simp only [Bool.toNat_false, Bool.toNat_true, Bool.and_false] at kept ⊢
    omega
  · have none : frame.releases = 0 := by
      have := releases_le_one frame
      omega
    rw [if_neg releases] at busy
    rw [none]
    cases before : w.tuner.busy with
    | true =>
        rw [before, busy before] at kept
        simp only [Bool.toNat_true, Bool.not_true, Bool.false_and, Bool.toNat_false] at kept ⊢
        omega
    | false =>
        rw [before] at kept
        simp only [Bool.toNat_false, Bool.not_false, Bool.true_and] at kept ⊢
        omega

theorem act_httpPeerAddr {frame : Frame} (held : frame.claims = 1 → w.tuner.busy = true)
    (known : w.tuner.httpPeerAddr ≠ 0 → w.tuner.busy = true)
    (acted : act w frame χ = some outcome)
    (peer : outcome.shared.tuner.httpPeerAddr ≠ 0) : outcome.shared.tuner.busy = true := by
  have step := act_claimStep acted
  obtain ⟨keeps, source⟩ := step.peer peer
  have busy := step.busy
  rw [keeps, if_neg (by decide)] at busy
  apply busy
  rcases source with same | claims
  · exact known (same ▸ peer)
  · exact held claims

end Groups

/-- `g_tuners`, and the channel database; the databases inside the worlds are
not looked at. -/
structure Pool where
  tuners : List World
  db : ChannelDb

/-- A tuner as its own threads see it. -/
def Pool.tuner? (pool : Pool) (index : Nat) : Option World :=
  pool.tuners[index]?.map fun w => { w with db := pool.db }

def Pool.put (pool : Pool) (index : Nat) (w : World) : Pool where
  tuners := pool.tuners.set index w
  db := w.db

/-- A call on one tuner, or the part of a pull in front of its claim while it
may still take any tuner. -/
inductive PoolFrame
  | tuner (index : Nat) (frame : Frame)
  | autoPull (key : ChannelKey) (peer : UInt32)
  | claimForPeer (key : ChannelKey) (peer : UInt32) (index : Nat)
  | tunerPoolClaimFree (key : ChannelKey) (peer : UInt32) (index : Nat)

/-- A call that another one leaves.  The waiting claim of a pull that has timed
out goes on with all tuners of the pool. -/
def PoolFrame.after (index : Nat) (acting next : Frame) : PoolFrame :=
  match acting, next with
  | .claim (.tunerTryClaimWaiting _), .claim (.tunerTryClaim key peer _) =>
      .tunerPoolClaimFree key peer 0
  | _, next => .tuner index next

/-- An action on one tuner as an action on the pool. -/
def Pool.embed (pool : Pool) (index : Nat) (left : Frame → PoolFrame) (outcome : Outcome) :
    Interleaving.Outcome Pool PoolFrame where
  shared := pool.put index outcome.shared
  frames := outcome.frames.map left
  spawned := outcome.spawned.map (List.map (.tuner index))

def poolAct (pool : Pool) (frame : PoolFrame) (χ : Choice) :
    Option (Interleaving.Outcome Pool PoolFrame) :=
  match frame with
  | .tuner index frame =>
      (pool.tuner? index).bind fun w =>
        (act w frame χ).map (pool.embed index (PoolFrame.after index frame))
  | .autoPull key peer =>
      match pool.db.find? key with
      | none => some ⟨pool, [], []⟩
      | some _ => some ⟨pool, [.claimForPeer key peer 0], []⟩
  | .claimForPeer key peer index =>
      match pool.tuner? index with
      | none => some ⟨pool, [.tunerPoolClaimFree key peer 0], []⟩
      | some w =>
          if peer = 0 then some ⟨pool, [.tunerPoolClaimFree key peer 0], []⟩
          else if w.tuner.busy = true ∧ w.tuner.httpPeerAddr = peer then
            some ⟨pool, [.tuner index ((Streamer.pull key peer).claimWait pool.db)], []⟩
          else some ⟨pool, [.claimForPeer key peer (index + 1)], []⟩
  | .tunerPoolClaimFree key peer index =>
      match pool.tuner? index with
      | none => some ⟨pool, [], []⟩
      | some w =>
          if w.tuner.busy then some ⟨pool, [.tunerPoolClaimFree key peer (index + 1)], []⟩
          else (act w (tryClaim w.db key peer) χ).map (pool.embed index (.tuner index))

/-- What can begin at any time.  The startup scan is on the first tuner only,
and a database that another tuner adds to is part of the pool here. -/
def poolArrives : PoolFrame → Bool
  | .autoPull _ _ => true
  | .tuner index (.claim (.tunerTryClaimWait .startupScan)) => index == 0
  | .tuner _ (.pull (.streamChannelToClient _ _ anyTuner)) => !anyTuner
  | .tuner _ (.set (.dbAdd _)) => false
  | .tuner _ frame => arrives frame
  | _ => false

def poolMachine : Machine Pool PoolFrame Choice where
  act := poolAct
  arrives := poolArrives

/-- After `tuner_pool_init`. -/
def poolStart (count : Nat) (db : ChannelDb) : Config Pool PoolFrame where
  shared := ⟨List.replicate count (World.init db), db⟩
  threads := []

namespace PoolFrame

/-- The share that a call has of the claim of one tuner. -/
@[simp]
def claims (index : Nat) : PoolFrame → Nat
  | .tuner other frame => if other = index then frame.claims else 0
  | _ => 0

/-- Its share of the claims of all tuners. -/
@[simp]
def anyClaims : PoolFrame → Nat
  | .tuner _ frame => frame.claims
  | _ => 0

@[simp]
def releases (index : Nat) : PoolFrame → Nat
  | .tuner other frame => if other = index then frame.releases else 0
  | _ => 0

@[simp]
def ahead : PoolFrame → Nat
  | .tuner _ frame => frame.ahead
  | _ => 1

@[simp]
def handsOn : PoolFrame → Nat
  | .tuner _ frame => frame.handsOn
  | _ => 0

end PoolFrame

/-- Two calls that cannot be told apart by what they have to do with claims. -/
structure Alike (first second : PoolFrame) : Prop where
  claims : ∀ index, first.claims index = second.claims index
  anyClaims : first.anyClaims = second.anyClaims
  releases : ∀ index, first.releases index = second.releases index
  ahead : first.ahead = second.ahead
  handsOn : first.handsOn = second.handsOn

theorem alike_after (index : Nat) (acting next : Frame) :
    Alike (PoolFrame.after index acting next) (.tuner index next) := by
  fun_cases PoolFrame.after index acting next <;> constructor <;> simp

/-- An action on the pool is one on a single tuner, or it leaves all of them as
they are. -/
theorem poolAct_cases {pool : Pool} {frame : PoolFrame} {χ : Choice}
    {outcome : Interleaving.Outcome Pool PoolFrame} (acted : poolAct pool frame χ = some outcome) :
    (∃ index acting w o left, pool.tuner? index = some w ∧ act w acting χ = some o ∧
        Alike frame (.tuner index acting) ∧ (∀ next, Alike (left next) (.tuner index next)) ∧
        outcome = pool.embed index left o) ∨
      outcome.shared = pool ∧ outcome.spawned = [] ∧ frame.ahead = 1 ∧
        (∀ index, frame.claims index = 0 ∧ frame.releases index = 0) ∧ frame.anyClaims = 0 ∧
        (outcome.frames = [] ∨ ∃ next, outcome.frames = [next] ∧ next.ahead = 1 ∧
          next.anyClaims = 0 ∧ next.handsOn = 0 ∧ ∀ index, next.claims index = 0) := by
  have same : ∀ other, Alike other other := fun _ => ⟨fun _ => rfl, rfl, fun _ => rfl, rfl, rfl⟩
  revert acted
  fun_cases poolAct pool frame χ <;> intro acted
  case case1 index acting =>
      obtain ⟨w, found, acted⟩ := Option.bind_eq_some_iff.mp acted
      obtain ⟨o, performed, rfl⟩ := Option.map_eq_some_iff.mp acted
      exact .inl ⟨index, acting, w, o, _, found, performed, same _, alike_after index acting, rfl⟩
  case case10 key peer index w found free =>
      obtain ⟨o, performed, rfl⟩ := Option.map_eq_some_iff.mp acted
      refine .inl ⟨index, tryClaim w.db key peer, w, o, _, found, performed, ?_, fun _ => same _, rfl⟩
      constructor <;> simp
  all_goals
    cases acted
    right
    simp

/-- Whether a tuner is claimed; there is none at a position behind the last. -/
def Pool.busy (pool : Pool) (index : Nat) : Bool :=
  (pool.tuners[index]?).any fun w => w.tuner.busy

/-- The action took the claim of a tuner. -/
def Pool.takes (index : Nat) (pool : Pool) (_ : PoolFrame)
    (outcome : Interleaving.Outcome Pool PoolFrame) : Nat :=
  (!pool.busy index && outcome.shared.busy index).toNat

/-- The action ran a releasing section of a tuner. -/
def Pool.releases (index : Nat) (_ : Pool) (frame : PoolFrame)
    (_ : Interleaving.Outcome Pool PoolFrame) : Nat :=
  frame.releases index

/-- The claims of a tuner that the action left to threads it started. -/
def Pool.hands (index : Nat) (_ : Pool) (_ : PoolFrame)
    (outcome : Interleaving.Outcome Pool PoolFrame) : Nat :=
  (outcome.spawned.flatten.map (PoolFrame.claims index)).sum

section Steps

variable {pool : Pool} {frame : PoolFrame} {χ : Choice} {index other : Nat} {w : World}

theorem Pool.tuners_of_tuner? (found : pool.tuner? index = some w) :
    ∃ inside, pool.tuners[index]? = some inside ∧ inside.tuner = w.tuner := by
  obtain ⟨inside, member, rfl⟩ := Option.map_eq_some_iff.mp found
  exact ⟨inside, member, rfl⟩

theorem Pool.busy_of_tuner? (found : pool.tuner? index = some w) :
    pool.busy index = w.tuner.busy := by
  obtain ⟨inside, member, same⟩ := Pool.tuners_of_tuner? found
  rw [Pool.busy, member, Option.any_some, same]

theorem Pool.busy_put (found : pool.tuner? index = some w) (after : World) :
    (pool.put index after).busy other =
      if other = index then after.tuner.busy else pool.busy other := by
  obtain ⟨inside, member, -⟩ := Pool.tuners_of_tuner? found
  have bound : index < pool.tuners.length := (List.getElem?_eq_some_iff.mp member).1
  by_cases same : other = index
  · subst same
    rw [if_pos rfl, Pool.busy, Pool.put, List.getElem?_set_self bound, Option.any_some]
  · rw [if_neg same, Pool.busy, Pool.put, List.getElem?_set_ne (Ne.symm same), Pool.busy]

theorem sum_claims_tuner (index other : Nat) (frames : List Frame) :
    ((frames.map (PoolFrame.tuner other)).map (PoolFrame.claims index)).sum =
      if other = index then (frames.map Frame.claims).sum else 0 := by
  induction frames with
  | nil => simp
  | cons frame frames ih =>
      rw [List.map_cons, List.map_cons, List.sum_cons, ih]
      split <;> simp_all

theorem sum_left {left : Frame → PoolFrame} {token : PoolFrame → Nat}
    (alike : ∀ next, token (left next) = token (.tuner other next)) (frames : List Frame) :
    ((frames.map left).map token).sum = ((frames.map (PoolFrame.tuner other)).map token).sum := by
  rw [List.map_map, List.map_map]
  congr 1
  apply List.map_congr_left
  intro next _
  exact alike next

theorem flatten_tuner (other : Nat) (spawned : List (List Frame)) :
    (spawned.map (List.map (PoolFrame.tuner other))).flatten =
      spawned.flatten.map (PoolFrame.tuner other) :=
  List.map_flatten.symm

variable {outcome : Interleaving.Outcome Pool PoolFrame}

theorem poolAct_keepsClaim (held : frame.claims index = 1 → pool.busy index = true)
    (acted : poolAct pool frame χ = some outcome) :
    (outcome.shared.busy index).toNat + frame.claims index = (pool.busy index).toNat +
      ((outcome.frames.map (PoolFrame.claims index)).sum +
        (outcome.spawned.flatten.map (PoolFrame.claims index)).sum) := by
  rcases poolAct_cases acted with ⟨other, acting, w, o, left, found, performed, alike, lefts, rfl⟩ |
    ⟨shared, spawned, -, nothing, -, frames⟩
  · simp only [Pool.embed, sum_left (fun next => (lefts next).claims index), flatten_tuner,
      sum_claims_tuner, Pool.busy_put found]
    rw [alike.claims] at held ⊢
    by_cases same : index = other
    · subst same
      simp only [PoolFrame.claims, if_true] at held ⊢
      rw [Pool.busy_of_tuner? found] at held ⊢
      exact act_keepsClaim held performed
    · simp [same, Ne.symm same]
  · rw [shared, spawned, (nothing index).1]
    rcases frames with none | ⟨next, one, -, -, -, claims⟩
    · simp [none]
    · rw [one, List.map_singleton, List.sum_singleton, claims]
      simp

/-- What a pool action does with the claim of each tuner. -/
theorem poolAct_claims (held : frame.claims index = 1 → pool.busy index = true)
    (acted : poolAct pool frame χ = some outcome) :
    frame.claims index + Pool.takes index pool frame outcome =
      (outcome.frames.map (PoolFrame.claims index)).sum +
        (Pool.releases index pool frame outcome + Pool.hands index pool frame outcome) := by
  unfold Pool.takes Pool.releases Pool.hands
  rcases poolAct_cases acted with ⟨other, acting, w, o, left, found, performed, alike, lefts, rfl⟩ |
    ⟨shared, spawned, -, nothing, -, frames⟩
  · simp only [Pool.embed, sum_left (fun next => (lefts next).claims index), flatten_tuner,
      sum_claims_tuner, Pool.busy_put found]
    rw [alike.claims] at held ⊢
    rw [alike.releases]
    by_cases same : index = other
    · subst same
      simp only [PoolFrame.claims, PoolFrame.releases, if_true] at held ⊢
      rw [Pool.busy_of_tuner? found] at held ⊢
      exact act_claims held performed
    · simp [same, Ne.symm same]
  · rw [shared, spawned, (nothing index).1, (nothing index).2]
    rcases frames with none | ⟨next, one, -, -, -, claims⟩
    · simp [none]
    · rw [one, List.map_singleton, List.sum_singleton, claims]
      simp

theorem poolAct_ahead (acted : poolAct pool frame χ = some outcome) :
    Pool.takes index pool frame outcome + (outcome.frames.map PoolFrame.ahead).sum ≤
      frame.ahead := by
  unfold Pool.takes
  rcases poolAct_cases acted with ⟨other, acting, w, o, left, found, performed, alike, lefts, rfl⟩ |
    ⟨shared, -, ahead, -, -, frames⟩
  · have step := (act_claimStep performed).ahead
    have sums : ((o.frames.map (PoolFrame.tuner other)).map PoolFrame.ahead).sum =
        (o.frames.map Frame.ahead).sum := by
      rw [List.map_map]
      rfl
    simp only [Pool.embed, sum_left (fun next => (lefts next).ahead), sums, Pool.busy_put found]
    rw [alike.ahead]
    by_cases same : index = other
    · subst same
      rw [if_pos rfl, Pool.busy_of_tuner? found]
      exact step
    · rw [if_neg same, Bool.not_and_self, Bool.toNat_false, Nat.zero_add]
      exact Nat.le_trans (Nat.le_add_left _ _) step
  · rw [shared, ahead]
    rcases frames with none | ⟨next, one, ahead, -⟩
    · simp [none]
    · rw [one, List.map_singleton, List.sum_singleton, ahead]
      simp

theorem poolAct_handsOn (acted : poolAct pool frame χ = some outcome) :
    Pool.hands index pool frame outcome + (outcome.frames.map PoolFrame.handsOn).sum ≤
      frame.handsOn := by
  unfold Pool.hands
  rcases poolAct_cases acted with ⟨other, acting, w, o, left, found, performed, alike, lefts, rfl⟩ |
    ⟨-, spawned, -, -, -, frames⟩
  · have step := (act_claimStep performed).handsOn
    have sums : ((o.frames.map (PoolFrame.tuner other)).map PoolFrame.handsOn).sum =
        (o.frames.map Frame.handsOn).sum := by
      rw [List.map_map]
      rfl
    simp only [Pool.embed, sum_left (fun next => (lefts next).handsOn), sums, flatten_tuner,
      sum_claims_tuner]
    rw [alike.handsOn]
    split
    · exact step
    · rw [Nat.zero_add]
      exact Nat.le_trans (Nat.le_add_left _ _) step
  · rw [spawned]
    rcases frames with none | ⟨next, one, -, -, hands, -⟩
    · simp [none]
    · rw [one, List.map_singleton, List.sum_singleton, hands]
      simp

end Steps

theorem sum_tuner (token : PoolFrame → Nat) (index : Nat) (frames : List Frame) :
    ((frames.map (PoolFrame.tuner index)).map token).sum =
      (frames.map fun frame => token (.tuner index frame)).sum := by
  rw [List.map_map]
  rfl

/-- A thread has at most one claim, or is on the way to at most one. -/
def SingleClaim (stack : List PoolFrame) : Prop :=
  (stack.map PoolFrame.anyClaims).sum + (stack.map PoolFrame.ahead).sum ≤ 1

theorem poolAct_single {pool : Pool} {frame : PoolFrame} {χ : Choice} {rest : List PoolFrame}
    {outcome : Interleaving.Outcome Pool PoolFrame} (before : SingleClaim (frame :: rest))
    (acted : poolAct pool frame χ = some outcome) :
    SingleClaim (outcome.frames ++ rest) ∧ ∀ stack ∈ outcome.spawned, SingleClaim stack := by
  unfold SingleClaim at before ⊢
  simp only [List.map_cons, List.sum_cons, List.map_append, List.sum_append] at before ⊢
  rcases poolAct_cases acted with ⟨other, acting, w, o, left, found, performed, alike, lefts, rfl⟩ |
    ⟨-, spawned, ahead, -, claims, frames⟩
  · have step := act_claimStep performed
    rw [alike.anyClaims, alike.ahead] at before
    constructor
    · have single : (o.frames.map fun frame => frame.claims).sum +
          (o.frames.map fun frame => frame.ahead).sum ≤ acting.claims + acting.ahead := step.single
      simp only [Pool.embed, sum_left (fun next => (lefts next).anyClaims),
        sum_left (fun next => (lefts next).ahead), sum_tuner]
      simp only [PoolFrame.anyClaims, PoolFrame.ahead] at before ⊢
      omega
    · intro stack member
      obtain ⟨inside, started, rfl⟩ := List.mem_map.mp member
      rw [sum_tuner, sum_tuner]
      exact step.started inside started
  · constructor
    · rcases frames with none | ⟨next, one, aheadNext, claimsNext, -⟩
      · rw [none, List.map_nil, List.map_nil, List.sum_nil]
        omega
      · rw [one, List.map_singleton, List.map_singleton, List.sum_singleton, List.sum_singleton,
          aheadNext, claimsNext]
        omega
    · intro stack member
      rw [spawned] at member
      exact absurd member List.not_mem_nil

theorem arrives_of_poolArrives {index : Nat} {frame : Frame}
    (arriving : poolArrives (.tuner index frame) = true) : arrives frame = true := by
  generalize same : PoolFrame.tuner index frame = poolFrame at arriving
  revert arriving
  fun_cases poolArrives poolFrame <;> intro arriving <;> cases same
  · rfl
  · rfl
  · cases arriving
  · exact arriving
  · cases arriving

theorem arrives_ahead : ∀ frame, arrives frame = true → frame.ahead ≤ 1 := by
  simp [forall_arrives]

theorem poolArrives_tokens {frame : PoolFrame} (arriving : poolArrives frame = true) :
    (∀ index, frame.claims index = 0) ∧ frame.anyClaims = 0 ∧ frame.ahead ≤ 1 := by
  cases frame with
  | tuner index frame =>
      have onTuner := arrives_of_poolArrives arriving
      have none := arrives_claims frame onTuner
      refine ⟨fun other => ?_, none, arrives_ahead frame onTuner⟩
      rw [PoolFrame.claims, none, ite_self]
  | autoPull key peer => exact ⟨fun _ => rfl, rfl, Nat.le_refl 1⟩
  | claimForPeer key peer index => cases arriving
  | tunerPoolClaimFree key peer index => cases arriving

theorem poolStart_tuner {count index : Nat} {db : ChannelDb} {w : World}
    (found : (poolStart count db).shared.tuners[index]? = some w) : w = World.init db := by
  have member := List.mem_of_getElem? found
  exact (List.mem_replicate.mp member).2

theorem poolStart_busy (count index : Nat) (db : ChannelDb) :
    (poolStart count db).shared.busy index = false := by
  unfold Pool.busy
  cases found : (poolStart count db).shared.tuners[index]? with
  | none => rfl
  | some w =>
      rw [poolStart_tuner found]
      rfl

section Reachable

variable {guard : Guard Pool PoolFrame Choice} {count : Nat} {db : ChannelDb}
  {config : Config Pool PoolFrame}

/-- A tuner is claimed if and only if exactly one call has the claim. -/
theorem poolBusy_eq_tally_claims (index : Nat)
    (reachable : poolMachine.Reachable guard (poolStart count db) config) :
    (config.shared.busy index).toNat = tally (PoolFrame.claims index) config.frames := by
  have balance := reachable.balanced (fun _ _ => True)
    (fun pool => (pool.busy index).toNat) (fun _ => 0) (PoolFrame.claims index)
    (fun _ _ => trivial) ?_ (fun frame arriving => (poolArrives_tokens arriving).1 index) ?_
  · simpa using balance
  · rw [poolStart_busy]
    rfl
  · intro pool frame others χ outcome _ covered acted
    have held : frame.claims index = 1 → pool.busy index = true := by
      intro one
      have := Bool.toNat_le (pool.busy index)
      rw [one] at covered
      exact Bool.toNat_eq_one.mp (by omega)
    simpa using poolAct_keepsClaim held acted

theorem busy_of_claims {pool : Pool} {frame : PoolFrame} {others : Multiset PoolFrame}
    {index : Nat} (balance : (pool.busy index).toNat =
      tally (PoolFrame.claims index) (frame ::ₘ others)) (claims : frame.claims index = 1) :
    pool.busy index = true := by
  have := Bool.toNat_le (pool.busy index)
  rw [tally_cons, claims] at balance
  exact Bool.toNat_eq_one.mp (by omega)

theorem singleClaim_of_reachable
    (reachable : poolMachine.Reachable guard (poolStart count db) config) :
    ∀ stack ∈ config.threads, SingleClaim stack := by
  refine reachable.forall_stacks SingleClaim (fun _ member => (nomatch member)) ?_ ?_
  · intro frame arriving
    obtain ⟨-, none, ahead⟩ := poolArrives_tokens arriving
    rw [SingleClaim, List.map_singleton, List.map_singleton, List.sum_singleton,
      List.sum_singleton, none, Nat.zero_add]
    exact ahead
  · intro pool frame rest χ outcome before acted
    exact poolAct_single before acted

/-- A client's address is only there while the tuner is claimed. -/
theorem peer_of_reachable
    (reachable : poolMachine.Reachable guard (poolStart count db) config) :
    ∀ w ∈ config.shared.tuners, w.tuner.httpPeerAddr ≠ 0 → w.tuner.busy = true := by
  refine reachable.invariant_of_known
    (fun pool frames => ∀ index,
      (pool.busy index).toNat = tally (PoolFrame.claims index) frames)
    (fun pool _ => ∀ w ∈ pool.tuners, w.tuner.httpPeerAddr ≠ 0 → w.tuner.busy = true)
    (fun config reached index => poolBusy_eq_tally_claims index reached) ?_ ?_ ?_
  · intro w member peer
    rw [(List.mem_replicate.mp member).2] at peer
    exact absurd rfl peer
  · intro pool frames frame known _
    exact known
  · intro pool frame others χ outcome balance known _ acted w member
    rcases poolAct_cases acted with ⟨index, acting, before, o, left, found, performed, alike, -,
      rfl⟩ | ⟨shared, -⟩
    · obtain ⟨inside, there, same⟩ := Pool.tuners_of_tuner? found
      have held : acting.claims = 1 → before.tuner.busy = true := by
        intro claims
        rw [← Pool.busy_of_tuner? found]
        apply busy_of_claims (balance index)
        rw [alike.claims, PoolFrame.claims, if_pos rfl, claims]
      have peerBefore : before.tuner.httpPeerAddr ≠ 0 → before.tuner.busy = true := by
        rw [← same]
        exact known inside (List.mem_of_getElem? there)
      rcases List.mem_or_eq_of_mem_set member with old | rfl
      · exact known w old
      · exact act_httpPeerAddr held peerBefore performed
    · rw [shared] at member
      exact known w member

theorem sum_eq_length_filter {counts : List Nat} (small : ∀ n ∈ counts, n ≤ 1) :
    counts.sum = (counts.filter fun n => decide (0 < n)).length := by
  induction counts with
  | nil => rfl
  | cons n counts ih =>
      rw [List.forall_mem_cons] at small
      rw [List.sum_cons, ih small.2]
      by_cases positive : 0 < n
      · rw [List.filter_cons_of_pos (by simpa using positive), List.length_cons]
        omega
      · rw [List.filter_cons_of_neg (by simpa using positive)]
        omega

theorem claims_le_anyClaims (index : Nat) (stack : List PoolFrame) :
    (stack.map (PoolFrame.claims index)).sum ≤ (stack.map PoolFrame.anyClaims).sum := by
  apply List.sum_le_sum
  intro frame _
  cases frame with
  | tuner other frame =>
      by_cases same : other = index
      · rw [PoolFrame.claims, if_pos same, PoolFrame.anyClaims]
      · rw [PoolFrame.claims, if_neg same]
        exact Nat.zero_le _
  | autoPull _ _ | claimForPeer _ _ _ | tunerPoolClaimFree _ _ _ => exact Nat.le_refl 0

/-- The number of threads that have the claim of a tuner. -/
def claimants (index : Nat) (config : Config Pool PoolFrame) : Nat :=
  (config.threads.filter fun stack => 0 < (stack.map (PoolFrame.claims index)).sum).length

theorem claimants_eq_busy (index : Nat)
    (reachable : poolMachine.Reachable guard (poolStart count db) config) :
    claimants index config = (config.shared.busy index).toNat := by
  have single := singleClaim_of_reachable reachable
  have small : ∀ n ∈ config.threads.map fun stack => (stack.map (PoolFrame.claims index)).sum,
      n ≤ 1 := by
    intro n member
    obtain ⟨stack, inside, rfl⟩ := List.mem_map.mp member
    have one := single stack inside
    have le := claims_le_anyClaims index stack
    unfold SingleClaim at one
    omega
  rw [poolBusy_eq_tally_claims index reachable, Config.frames, tally_coe, List.map_flatten,
    List.sum_flatten, List.map_map]
  change claimants index config =
    (config.threads.map fun stack => (stack.map (PoolFrame.claims index)).sum).sum
  rw [sum_eq_length_filter small, List.filter_map, List.length_map]
  rfl

/-- Each tuner has one claimant if it is busy and none otherwise, a client's
address is only there meanwhile, and claims are paired with releases: whatever a
thread claimed it still has, has released once or has left to a worker; a thread
has at most one claim in its life, and a worker leaves its own to nobody. -/
theorem claims_released_once
    (reachable : poolMachine.Reachable guard (poolStart count db) config) (index : Nat) :
    claimants index config = (config.shared.busy index).toNat ∧
      (∀ w, config.shared.tuners[index]? = some w →
        w.tuner.httpPeerAddr ≠ 0 → w.tuner.busy = true) ∧
      (∀ thread stack events last, config.threads[thread]? = some stack →
        poolMachine.run guard config events = some last →
        ∃ left, last.threads[thread]? = some left ∧
          let taken := poolMachine.total guard (Pool.takes index) thread config events
          let released := poolMachine.total guard (Pool.releases index) thread config events
          let handed := poolMachine.total guard (Pool.hands index) thread config events
          let claims := (stack.map (PoolFrame.claims index)).sum
          claims + taken = (left.map (PoolFrame.claims index)).sum + (released + handed) ∧
            claims + taken ≤ 1 ∧ handed ≤ (stack.map PoolFrame.handsOn).sum) ∧
      ∀ event next, poolMachine.step guard config event = some next →
        ∀ stack ∈ next.threads.drop config.threads.length,
          (stack.map (PoolFrame.claims index)).sum ≠ 0 →
            (stack.map PoolFrame.handsOn).sum = 0 := by
  refine ⟨claimants_eq_busy index reachable, ?_, ?_, ?_⟩
  · intro w found
    exact peer_of_reachable reachable w (List.mem_of_getElem? found)
  · intro thread stack events last found ran
    obtain ⟨left, atEnd, balance⟩ := reachable.thread_balanced (PoolFrame.claims index)
      (Pool.takes index)
      (fun pool frame outcome =>
        Pool.releases index pool frame outcome + Pool.hands index pool frame outcome)
      (fun pool frames => (pool.busy index).toNat = tally (PoolFrame.claims index) frames)
      (fun config reached => poolBusy_eq_tally_claims index reached)
      (fun pool frame others χ outcome known acted =>
        poolAct_claims (busy_of_claims known) acted) found ran
    rw [total_add] at balance
    have ahead := reachable.thread_bounded PoolFrame.ahead (Pool.takes index)
      (fun _ _ _ _ acted => poolAct_ahead acted) found ran
    have handed := reachable.thread_bounded PoolFrame.handsOn (Pool.hands index)
      (fun _ _ _ _ acted => poolAct_handsOn acted) found ran
    have single := singleClaim_of_reachable reachable stack (List.mem_of_getElem? found)
    have le := claims_le_anyClaims index stack
    unfold SingleClaim at single
    exact ⟨left, atEnd, balance, by omega, handed⟩
  · intro event next stepTo stack new claims
    cases event with
    | arrive frame =>
        simp only [Machine.step] at stepTo
        split at stepTo
        · rename_i arriving
          cases stepTo
          rw [List.drop_left, List.mem_singleton] at new
          rw [new, List.map_singleton, List.sum_singleton,
            (poolArrives_tokens arriving).1 index] at claims
          exact absurd rfl claims
        · cases stepTo
    | act thread χ =>
        obtain ⟨frame, rest, outcome, top, -, acted, rfl⟩ := step_act_threads stepTo
        have spawned : stack ∈ outcome.spawned := by
          rwa [List.drop_append_of_le_length (by rw [List.length_set]),
            List.drop_of_length_le (by rw [List.length_set]), List.nil_append] at new
        rcases poolAct_cases acted with ⟨other, acting, w, o, left, found, performed, -, -, rfl⟩ |
          ⟨-, none, -⟩
        · obtain ⟨inside, started, rfl⟩ := List.mem_map.mp spawned
          rw [sum_tuner]
          exact (act_claimStep performed).workers inside started
        · rw [none] at spawned
          exact absurd spawned List.not_mem_nil

end Reachable

/-- A pull that may take any tuner has taken the first one of two. -/
theorem claims_released_once_autoPull :
    ∃ config, poolMachine.Reachable Guard.all (poolStart 2 oneStation) config ∧
      config.shared.busy 0 = true ∧ claimants 0 config = 1 := by
  obtain ⟨config, reachable, busy⟩ := reachable_of_run poolMachine Guard.all
    (poolStart 2 oneStation) (.arrive (.autoPull ⟨2, 1⟩ 5) :: List.replicate 12 (.act 0 {}))
    (fun config => config.shared.busy 0 = true) (by decide +kernel)
  refine ⟨config, reachable, busy, ?_⟩
  rw [(claims_released_once reachable 0).1, busy]
  rfl

end HdhrEmu
