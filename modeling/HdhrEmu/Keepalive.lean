import HdhrEmu.LegacySeq
import HdhrEmu.Lib.History
import HdhrEmu.Threads
import Mathlib.Tactic.Cases

/-!
# Abandoned pushes

A client of a `target=` push sends keepalive packets from the address that the
push sends to.  One thread receives them; after each packet, and after each
timeout of the socket, it stops the pushes whose client has been silent too
long.  It looks at one tuner after the other, each under that tuner's lock, and
the rest of the server starts and stops pushes in between.

Here the clock counts nanoseconds.
-/

namespace HdhrEmu

/-- What `clock_gettime` reads from the monotonic clock. -/
def monotonic (ns : Nat) : Timespec :=
  ⟨ns / 1000000000, ns % 1000000000⟩

def elapsedMs (a b : Timespec) : Int :=
  (b.tvSec - a.tvSec) * 1000 + (b.tvNsec - a.tvNsec).tdiv 1000000

namespace Tuner

/-- The comparison with the source of a packet. -/
def keepaliveMatches (t : Tuner) (addr : UInt32) (port : UInt16) : Bool :=
  t.udpPushActive && t.keepaliveMatchAddr == addr && t.keepaliveMatchPort == port

/-- What `sweep_stale_pushes` decides about a tuner. -/
def isStale (t : Tuner) (now : Nat) : Bool :=
  let active := t.udpPushActive
  let alreadyStopping := active && t.udpPushStopRequested
  let since := if active then elapsedMs (monotonic t.lastKeepaliveTime) (monotonic now) else 0
  active && !alreadyStopping && decide ((keepaliveTimeoutMs : Int) < since)

end Tuner

/-- Where `listener_thread_main` is.  `now` is the time that the sweep has read,
and `tuner` the one whose lock is taken next. -/
inductive Listener
  | receiving
  | matching (addr : UInt32) (port : UInt16) (tuner : Nat)
  | sweepStart
  | sweeping (now tuner : Nat)
  | stopping (now tuner : Nat)
  /-- The push has been told to stop, and `udp_push_stop` polls for its end. -/
  | polling (now tuner : Nat)
  deriving DecidableEq, Repr

structure KeepaliveState where
  tuners : List Tuner
  clock : Nat
  listener : Listener

/-- What happens to the pool, as far as pushes are concerned. -/
inductive KeepaliveEvent
  /-- `recvfrom` returns, with the source of a packet or without one. -/
  | recvfrom (packet : Option (UInt32 × UInt16))
  /-- The next critical section of the listener. -/
  | listen (timedOut : Bool)
  /-- The last critical section of `udp_push_start`. -/
  | udpPushStart (tuner : Nat) (target : UdpTarget) (started : Bool)
  /-- The critical section of an explicit `udp_push_stop`. -/
  | udpPushStop (tuner : Nat)
  /-- The last critical section of `push_thread_main`. -/
  | udpPushDone (tuner : Nat) (generation : UInt32)
  deriving DecidableEq, Repr

structure Timed where
  time : Nat
  event : KeepaliveEvent
  deriving DecidableEq, Repr

namespace KeepaliveState

def init (tunerCount : Nat) : KeepaliveState :=
  ⟨List.replicate tunerCount Tuner.init, 0, .receiving⟩

def listen (s : KeepaliveState) (timedOut : Bool) : Option KeepaliveState :=
  match s.listener with
  | .receiving => none
  | .matching addr port i =>
      match s.tuners[i]? with
      | none => some { s with listener := .sweepStart }
      | some t =>
          if t.keepaliveMatches addr port then
            some { s with
              tuners := s.tuners.set i { t with lastKeepaliveTime := s.clock }
              listener := .sweepStart }
          else some { s with listener := .matching addr port (i + 1) }
  | .sweepStart => some { s with listener := .sweeping s.clock 0 }
  | .sweeping now i =>
      match s.tuners[i]? with
      | none => some { s with listener := .receiving }
      | some t =>
          if t.isStale now then some { s with listener := .stopping now i }
          else some { s with listener := .sweeping now (i + 1) }
  | .stopping now i =>
      match s.tuners[i]? with
      | none => none
      | some t =>
          some { s with
            tuners := s.tuners.set i t.udpPushStop
            listener := if t.udpPushActive then .polling now i else .sweeping now (i + 1) }
  | .polling now i =>
      match s.tuners[i]? with
      | none => none
      | some t =>
          -- About two seconds, after which the listener goes on.
          if t.udpPushActive = true ∧ timedOut = false then none
          else some { s with listener := .sweeping now (i + 1) }

def updateTuner (s : KeepaliveState) (i : Nat) (f : Tuner → Tuner) : Option KeepaliveState :=
  s.tuners[i]?.map fun t => { s with tuners := s.tuners.set i (f t) }

def handle (s : KeepaliveState) : KeepaliveEvent → Option KeepaliveState
  | .recvfrom packet =>
      if s.listener = .receiving then
        match packet with
        | some (addr, port) => some { s with listener := .matching addr port 0 }
        | none => some { s with listener := .sweepStart }
      else none
  | .listen timedOut => s.listen timedOut
  | .udpPushStart i target started =>
      s.updateTuner i fun t => t.udpPushCreate target s.clock started
  | .udpPushStop i => s.updateTuner i Tuner.udpPushStop
  | .udpPushDone i generation => s.updateTuner i fun t => t.udpPushDone generation

/-- The clock does not go back. -/
def step (s : KeepaliveState) (e : Timed) : Option KeepaliveState :=
  if s.clock ≤ e.time then { s with clock := e.time }.handle e.event else none

/-- The listener is about to stop the push of a tuner, which is active. -/
def Stopping (s : KeepaliveState) (now i : Nat) (t : Tuner) : Prop :=
  s.listener = .stopping now i ∧ s.tuners[i]? = some t ∧ t.udpPushActive = true

end KeepaliveState

/-- The source of a packet is where the newest push of a tuner sends to. -/
def Tuner.SendsTo (t : Tuner) (addr : UInt32) (port : UInt16) : Prop :=
  ∃ target, t.destination = some target ∧ inetPton target.ip = some addr ∧
    target.port = port.toNat

def keepaliveTimeoutNs : Nat := keepaliveTimeoutMs * 1000000

/-- Neither was a push of this tuner started in the time before `now`, nor has
a packet come from its destination. -/
def Abandoned (history : List Timed) (now i : Nat) (t : Tuner) : Prop :=
  (∀ time target, ⟨time, .udpPushStart i target true⟩ ∈ history →
    time + keepaliveTimeoutNs < now) ∧
  ∀ time addr port, ⟨time, .recvfrom (some (addr, port))⟩ ∈ history → t.SendsTo addr port →
    time + keepaliveTimeoutNs < now

/-- A packet that counts for one push does not come from the client of another
one further on in the pool, and no push is started between the moment the sweep
finds the old one stale and the moment it stops it. -/
def KeepaliveState.Distinct (s : KeepaliveState) (e : Timed) : Prop :=
  match e.event, s.listener with
  | .listen _, .matching addr port i =>
      ∀ t ∈ s.tuners[i]?, t.keepaliveMatches addr port = true →
        ∀ other ∈ s.tuners.drop (i + 1), other.keepaliveMatches addr port = false
  | .udpPushStart i _ started, .stopping _ j => started = true → i ≠ j
  | _, _ => True

instance (s : KeepaliveState) (e : Timed) : Decidable (s.Distinct e) := by
  unfold KeepaliveState.Distinct
  split <;> infer_instance

/-- Rounding towards zero adds less than a millisecond. -/
theorem tdiv_mul_lt (ns : Int) : ns.tdiv 1000000 * 1000000 < ns + 1000000 := by
  rcases Int.le_total 0 ns with up | down
  · rw [Int.tdiv_eq_ediv_of_nonneg up]
    omega
  · obtain ⟨back, rfl⟩ : ∃ back, ns = -back := ⟨-ns, (Int.neg_neg ns).symm⟩
    rw [Int.neg_tdiv, Int.tdiv_eq_ediv_of_nonneg (by omega)]
    omega

/-- So nothing is over the limit before its time. -/
theorem elapsed_of_elapsedMs {last now : Nat}
    (since : (keepaliveTimeoutMs : Int) < elapsedMs (monotonic last) (monotonic now)) :
    last + keepaliveTimeoutNs < now := by
  unfold elapsedMs monotonic keepaliveTimeoutMs at since
  unfold keepaliveTimeoutNs keepaliveTimeoutMs
  have rounded := tdiv_mul_lt ((now : Int) % 1000000000 - (last : Int) % 1000000000)
  dsimp only at since
  omega

theorem Tuner.elapsed_of_isStale {t : Tuner} {now : Nat} (stale : t.isStale now = true) :
    t.lastKeepaliveTime + keepaliveTimeoutNs < now := by
  simp only [isStale, Bool.and_eq_true, decide_eq_true_eq] at stale
  obtain ⟨⟨active, -⟩, since⟩ := stale
  rw [if_pos active] at since
  exact elapsed_of_elapsedMs since

/-- Nothing has happened to a tuner that its push could be confused by. -/
structure Tuner.Kept (t t' : Tuner) : Prop where
  addr : t'.keepaliveMatchAddr = t.keepaliveMatchAddr
  port : t'.keepaliveMatchPort = t.keepaliveMatchPort
  last : t'.lastKeepaliveTime = t.lastKeepaliveTime
  destination : t'.destination = t.destination
  active : t'.udpPushActive = true → t.udpPushActive = true

theorem Tuner.udpPushStop_kept (t : Tuner) : t.Kept t.udpPushStop := by
  unfold udpPushStop
  split
  · constructor <;> first | rfl | exact id
  · constructor <;> first | rfl | exact id

theorem Tuner.udpPushDone_kept (t : Tuner) (generation : UInt32) :
    t.Kept (t.udpPushDone generation) := by
  unfold udpPushDone
  split
  · constructor <;> first | rfl | exact nofun
  · constructor <;> first | rfl | exact id

/-- A tuner of the pool and the history.  While a packet is looked up, it may
not have reached the tuner that it is meant for. -/
structure Accounted (history : List Timed) (listener : Listener) (i : Nat) (t : Tuner) : Prop where
  started : ∀ time target, ⟨time, .udpPushStart i target true⟩ ∈ history →
    time ≤ t.lastKeepaliveTime
  destined : t.udpPushActive = true → ∀ addr port, t.SendsTo addr port →
    t.keepaliveMatches addr port = true
  heard : t.udpPushActive = true → ∀ time addr port,
    ⟨time, .recvfrom (some (addr, port))⟩ ∈ history → t.SendsTo addr port →
      time ≤ t.lastKeepaliveTime ∨ ∃ j ≤ i, listener = .matching addr port j
  stale : t.udpPushActive = true → ∀ now, listener = .stopping now i →
    t.lastKeepaliveTime + keepaliveTimeoutNs < now

theorem Accounted.kept {history : List Timed} {listener : Listener} {i : Nat} {t t' : Tuner}
    (accounted : Accounted history listener i t) (kept : t.Kept t') :
    Accounted history listener i t' := by
  have sends (addr : UInt32) (port : UInt16) (sent : t'.SendsTo addr port) :
      t.SendsTo addr port := by
    obtain ⟨target, newest, rest⟩ := sent
    exact ⟨target, kept.destination ▸ newest, rest⟩
  constructor
  · rw [kept.last]
    exact accounted.started
  · intro active addr port sent
    have matched := accounted.destined (kept.active active) addr port (sends addr port sent)
    rw [Tuner.keepaliveMatches, kept.active active] at matched
    rw [Tuner.keepaliveMatches, active, kept.addr, kept.port]
    exact matched
  · intro active time addr port received sent
    rw [kept.last]
    exact accounted.heard (kept.active active) time addr port received (sends addr port sent)
  · intro active now at_
    rw [kept.last]
    exact accounted.stale (kept.active active) now at_

/-- The event starts a push of the tuner or brings a packet. -/
def KeepaliveEvent.Concerns (i : Nat) : KeepaliveEvent → Prop
  | .udpPushStart j _ started => started = true ∧ i = j
  | .recvfrom packet => packet.isSome
  | _ => False

theorem Accounted.concat {history : List Timed} {listener : Listener} {i : Nat} {t : Tuner}
    (accounted : Accounted history listener i t) {now : Nat} {event : KeepaliveEvent}
    (other : ¬ event.Concerns i) : Accounted (history ++ [⟨now, event⟩]) listener i t := by
  have earlier (time : Nat) (asked : KeepaliveEvent) (concerns : asked.Concerns i)
      (member : ⟨time, asked⟩ ∈ history ++ [⟨now, event⟩]) : ⟨time, asked⟩ ∈ history := by
    rcases List.mem_append.mp member with before | last
    · exact before
    · cases List.mem_singleton.mp last
      exact absurd concerns other
  constructor
  · intro time target member
    exact accounted.started time target (earlier time _ ⟨rfl, rfl⟩ member)
  · exact accounted.destined
  · intro active time addr port member
    exact accounted.heard active time addr port (earlier time _ rfl member)
  · exact accounted.stale

/-- Between packets and stops, the listener is not in the way of anything. -/
theorem Accounted.idle {history : List Timed} {listener listener' : Listener} {i : Nat} {t : Tuner}
    (accounted : Accounted history listener i t)
    (found : ∀ addr port j, listener = .matching addr port j → j ≤ i →
      (∃ k ≤ i, listener' = .matching addr port k) ∨ ¬ t.keepaliveMatches addr port = true)
    (fresh : ∀ now, listener' = .stopping now i → t.isStale now = true) :
    Accounted history listener' i t := by
  constructor
  · exact accounted.started
  · exact accounted.destined
  · intro active time addr port received sent
    rcases accounted.heard active time addr port received sent with before | ⟨j, order, at_⟩
    · exact Or.inl before
    · rcases found addr port j at_ order with on | other
      · exact Or.inr on
      · exact absurd (accounted.destined active addr port sent) other
  · intro active now at_
    exact Tuner.elapsed_of_isStale (fresh now at_)

/-- A push that has just been started. -/
theorem accounted_udpPushCreate {history : List Timed} {now : Nat}
    (clocked : ∀ e ∈ history, e.time ≤ now) (listener : Listener) (i : Nat) (t : Tuner)
    (target : UdpTarget) (started : Bool)
    (apart : started = true → ∀ sweep, listener ≠ .stopping sweep i) :
    Accounted history listener i (t.udpPushCreate target now started) := by
  constructor
  · intro time _ member
    exact clocked _ member
  · intro active addr port sent
    have run : started = true := active
    obtain ⟨newest, is, addrIs, portIs⟩ := sent
    have same : (t.udpPushCreate target now started).destination = some target := if_pos run
    obtain rfl : target = newest := Option.some.inj (same.symm.trans is)
    have port16 : UInt16.ofInt (port.toNat : Int) = port := by
      rw [UInt16.ofInt, Int.emod_eq_of_lt (Int.natCast_nonneg _) (by exact_mod_cast port.toNat_lt),
        Int.toNat_natCast, UInt16.ofNat_toNat]
    simp [Tuner.keepaliveMatches, Tuner.udpPushCreate, run, addrIs, portIs, port16]
  · intro _ time addr port received _
    exact Or.inl (clocked _ received)
  · intro active sweep at_
    exact absurd at_ (apart active sweep)

/-- A packet that is matched here. -/
theorem Accounted.refresh {history : List Timed} {listener : Listener} {i : Nat} {t : Tuner}
    (accounted : Accounted history listener i t) {now : Nat}
    (clocked : ∀ e ∈ history, e.time ≤ now) :
    Accounted history .sweepStart i { t with lastKeepaliveTime := now } := by
  constructor
  · intro time _ member
    exact clocked _ member
  · exact accounted.destined
  · intro _ time addr port received _
    exact Or.inl (clocked _ received)
  · intro _ _ at_
    cases at_

structure KeepaliveInv (history : List Timed) (s : KeepaliveState) : Prop where
  clocked : ∀ e ∈ history, e.time ≤ s.clock
  accounted : ∀ i t, s.tuners[i]? = some t → Accounted history s.listener i t

theorem keepaliveInv_init (tunerCount : Nat) : KeepaliveInv [] (KeepaliveState.init tunerCount) := by
  constructor
  · exact nofun
  · intro i t found
    have idle : t = Tuner.init :=
      List.eq_of_mem_replicate (List.mem_of_getElem? found)
    rw [idle]
    constructor <;> exact nofun

theorem getElem?_set_cases {tuners : List Tuner} {i j : Nat} {new t : Tuner}
    (found : (tuners.set i new)[j]? = some t) :
    (i = j ∧ t = new) ∨ (i ≠ j ∧ tuners[j]? = some t) := by
  rw [List.getElem?_set] at found
  split at found
  · rename_i same
    split at found
    · exact Or.inl ⟨same, (Option.some.inj found).symm⟩
    · cases found
  · rename_i other
    exact Or.inr ⟨other, found⟩

namespace KeepaliveInv

variable {history : List Timed} {s next : KeepaliveState}

/-- The listener takes one step. -/
theorem listen (inv : KeepaliveInv history s) {timedOut : Bool}
    (distinct : ∀ addr port i, s.listener = .matching addr port i →
      ∀ t ∈ s.tuners[i]?, t.keepaliveMatches addr port = true →
        ∀ other ∈ s.tuners.drop (i + 1), other.keepaliveMatches addr port = false)
    (stepTo : s.listen timedOut = some next) : KeepaliveInv history next := by
  unfold KeepaliveState.listen at stepTo
  split at stepTo
  case h_1 => cases stepTo
  case h_2 addr port i at_ =>
    split at stepTo
    · rename_i outside
      cases stepTo
      refine ⟨inv.clocked, fun j t found => (inv.accounted j t found).idle ?_ nofun⟩
      intro addr' port' k matching order
      rw [at_] at matching
      cases matching
      have inside : j < s.tuners.length := (List.getElem?_eq_some_iff.mp found).1
      have beyond := List.getElem?_eq_none_iff.mp outside
      omega
    · rename_i t here
      split at stepTo
      · rename_i matched
        cases stepTo
        refine ⟨inv.clocked, fun j t' found => ?_⟩
        rcases getElem?_set_cases found with ⟨rfl, rfl⟩ | ⟨other, found⟩
        · exact (inv.accounted i t here).refresh inv.clocked
        · refine (inv.accounted j t' found).idle ?_ nofun
          intro addr' port' k matching order
          rw [at_] at matching
          cases matching
          right
          have further : t' ∈ s.tuners.drop (i + 1) := by
            apply List.mem_of_getElem? (i := j - (i + 1))
            rw [List.getElem?_drop, ← found]
            congr 1
            omega
          rw [distinct addr port i at_ t here matched t' further]
          exact Bool.false_ne_true
      · rename_i unmatched
        cases stepTo
        refine ⟨inv.clocked, fun j t' found => (inv.accounted j t' found).idle ?_ nofun⟩
        intro addr' port' k matching order
        rw [at_] at matching
        cases matching
        rcases Nat.eq_or_lt_of_le order with same | before
        · right
          rw [← same, here] at found
          cases found
          exact unmatched
        · exact Or.inl ⟨i + 1, before, rfl⟩
  case h_3 at_ =>
    cases stepTo
    refine ⟨inv.clocked, fun j t found => (inv.accounted j t found).idle ?_ nofun⟩
    rw [at_]
    exact nofun
  case h_4 now i at_ =>
    split at stepTo
    · cases stepTo
      refine ⟨inv.clocked, fun j t found => (inv.accounted j t found).idle ?_ nofun⟩
      rw [at_]
      exact nofun
    · rename_i t here
      split at stepTo
      · rename_i stale
        cases stepTo
        refine ⟨inv.clocked, fun j t' found => (inv.accounted j t' found).idle ?_ ?_⟩
        · rw [at_]
          exact nofun
        · intro sweep stopping
          cases stopping
          have same : some t = some t' := here.symm.trans found
          exact Option.some.inj same ▸ stale
      · cases stepTo
        refine ⟨inv.clocked, fun j t' found => (inv.accounted j t' found).idle ?_ nofun⟩
        rw [at_]
        exact nofun
  case h_5 now i at_ =>
    split at stepTo
    · cases stepTo
    · rename_i t here
      cases stepTo
      refine ⟨inv.clocked, fun j t' found => ?_⟩
      have kept : ∃ before, s.tuners[j]? = some before ∧ before.Kept t' := by
        rcases getElem?_set_cases found with ⟨rfl, rfl⟩ | ⟨-, found⟩
        · exact ⟨t, here, t.udpPushStop_kept⟩
        · exact ⟨t', found, ⟨rfl, rfl, rfl, rfl, id⟩⟩
      obtain ⟨before, was, kept⟩ := kept
      refine ((inv.accounted j before was).kept kept).idle ?_ ?_
      · rw [at_]
        exact nofun
      · intro sweep
        dsimp only
        split <;> exact nofun
  case h_6 now i at_ =>
    split at stepTo
    · cases stepTo
    · split at stepTo
      · cases stepTo
      · cases stepTo
        refine ⟨inv.clocked, fun j t' found => (inv.accounted j t' found).idle ?_ nofun⟩
        rw [at_]
        exact nofun

/-- One tuner of the pool changes. -/
theorem updateTuner (clocked : ∀ e ∈ history, e.time ≤ s.clock) {i : Nat} {f : Tuner → Tuner}
    (changed : ∀ t, s.tuners[i]? = some t → Accounted history s.listener i (f t))
    (others : ∀ j t, i ≠ j → s.tuners[j]? = some t → Accounted history s.listener j t)
    (stepTo : s.updateTuner i f = some next) : KeepaliveInv history next := by
  obtain ⟨t, here, rfl⟩ := Option.map_eq_some_iff.mp stepTo
  refine ⟨clocked, fun j t' found => ?_⟩
  rcases getElem?_set_cases found with ⟨rfl, rfl⟩ | ⟨other, found⟩
  · exact changed t here
  · exact others j t' other found

/-- One event preserves the invariant where pushes can be told apart. -/
theorem step (inv : KeepaliveInv history s) {e : Timed} (distinct : s.Distinct e)
    (stepTo : s.step e = some next) : KeepaliveInv (history ++ [e]) next := by
  obtain ⟨time, event⟩ := e
  obtain ⟨order, handled⟩ := Option.ite_none_right_eq_some.mp stepTo
  have clocked : ∀ e ∈ history ++ [⟨time, event⟩], e.time ≤ time := by
    intro e member
    rcases List.mem_append.mp member with before | last
    · exact (inv.clocked e before).trans order
    · rw [List.mem_singleton.mp last]
  cases event with
  | recvfrom packet =>
      obtain ⟨at_, handled⟩ := Option.ite_none_right_eq_some.mp handled
      cases packet with
      | none =>
          cases handled
          refine ⟨clocked, fun i t found => ?_⟩
          have accounted : Accounted (history ++ [⟨time, .recvfrom none⟩]) s.listener i t :=
            (inv.accounted i t found).concat Bool.false_ne_true
          refine accounted.idle ?_ nofun
          rw [at_]
          exact nofun
      | some source =>
          cases handled
          refine ⟨clocked, fun i t found => ?_⟩
          have accounted := inv.accounted i t found
          constructor
          · intro when_ target member
            rcases List.mem_append.mp member with before | last
            · exact accounted.started when_ target before
            · cases List.mem_singleton.mp last
          · exact accounted.destined
          · intro active when_ addr port member sent
            rcases List.mem_append.mp member with before | last
            · rcases accounted.heard active when_ addr port before sent with heard | ⟨j, -, other⟩
              · exact Or.inl heard
              · cases at_.symm.trans other
            · cases List.mem_singleton.mp last
              exact Or.inr ⟨0, Nat.zero_le i, rfl⟩
          · exact nofun
  | listen timedOut =>
      apply KeepaliveInv.listen _ _ handled
      · exact ⟨clocked, fun i t found => (inv.accounted i t found).concat id⟩
      · intro addr port i at_ t here matched
        have matching : s.listener = .matching addr port i := at_
        simp only [KeepaliveState.Distinct, matching] at distinct
        exact distinct t here matched
  | udpPushStart i target started =>
      apply updateTuner clocked _ _ handled
      · intro t here
        apply accounted_udpPushCreate clocked
        intro run sweep at_
        have stopping : s.listener = .stopping sweep i := at_
        simp only [KeepaliveState.Distinct, stopping] at distinct
        exact distinct run rfl
      · intro j t other found
        exact (inv.accounted j t found).concat fun concerns => other concerns.2.symm
  | udpPushStop i =>
      apply updateTuner clocked _ _ handled
      · intro t here
        exact ((inv.accounted i t here).concat id).kept t.udpPushStop_kept
      · intro j t other found
        exact (inv.accounted j t found).concat id
  | udpPushDone i generation =>
      apply updateTuner clocked _ _ handled
      · intro t here
        exact ((inv.accounted i t here).concat id).kept (t.udpPushDone_kept generation)
      · intro j t other found
        exact (inv.accounted j t found).concat id

end KeepaliveInv

/-- In a run in which pushes can be told apart, the sweep at a time stops an
active push only if it was started, and the last packet from its destination
was received, more than the timeout before. -/
theorem sweep_stops_abandoned (tunerCount : Nat) (history : List Timed) (s : KeepaliveState)
    (ran : History.run? KeepaliveState.step (KeepaliveState.init tunerCount) history = some s)
    (distinct : History.Meets KeepaliveState.step KeepaliveState.Distinct
      (KeepaliveState.init tunerCount) history)
    (now i : Nat) (t : Tuner) (stopping : s.Stopping now i t) : Abandoned history now i t := by
  obtain ⟨at_, here, active⟩ := stopping
  have inv : KeepaliveInv ([] ++ history) s :=
    History.run_invariant KeepaliveInv
      (fun _ _ _ _ inv distinct stepTo => inv.step distinct stepTo)
      (keepaliveInv_init tunerCount) ran distinct
  have accounted := inv.accounted i t here
  have silent := accounted.stale active now at_
  constructor
  · intro time target member
    exact Nat.lt_of_le_of_lt (Nat.add_le_add_right (accounted.started time target member) _) silent
  · intro time addr port member sent
    rcases accounted.heard active time addr port member sent with heard | ⟨j, -, matching⟩
    · exact Nat.lt_of_le_of_lt (Nat.add_le_add_right heard _) silent
    · cases at_.symm.trans matching

def lanTarget : UdpTarget :=
  ⟨['1', '0', '.', '0', '.', '0', '.', '2'], 5000⟩

/-- The time of an event, in seconds. -/
def atSecond (second : Nat) (event : KeepaliveEvent) : Timed :=
  ⟨second * 1000000000, event⟩

/-- A client that sent one packet and was not heard of again. -/
def goneClient : List Timed :=
  [atSecond 1 (.udpPushStart 0 lanTarget true),
    atSecond 2 (.recvfrom (some (0x0200000a, 5000))), atSecond 2 (.listen false),
    atSecond 2 (.listen false), atSecond 2 (.listen false), atSecond 2 (.listen false),
    atSecond 18 (.recvfrom none), atSecond 18 (.listen false), atSecond 18 (.listen false)]

/-- Two pushes to one client, which is heard every few seconds; its packets
count for the first tuner only. -/
def sharedClient : List Timed :=
  [atSecond 1 (.udpPushStart 0 lanTarget true), atSecond 1 (.udpPushStart 1 lanTarget true),
    atSecond 10 (.recvfrom (some (0x0200000a, 5000))), atSecond 10 (.listen false),
    atSecond 10 (.listen false), atSecond 10 (.listen false), atSecond 10 (.listen false),
    atSecond 10 (.listen false),
    atSecond 17 (.recvfrom none), atSecond 17 (.listen false), atSecond 17 (.listen false),
    atSecond 17 (.listen false)]

theorem sweep_stops_gone_client :
    ∃ (s : KeepaliveState) (t : Tuner),
      s.Stopping 18000000000 0 t ∧ Abandoned goneClient 18000000000 0 t := by
  have ran : ∃ (s : KeepaliveState) (t : Tuner),
      History.run? KeepaliveState.step (KeepaliveState.init 1) goneClient = some s ∧
        s.Stopping 18000000000 0 t :=
    ⟨_, _, rfl, rfl, rfl, rfl⟩
  obtain ⟨s, t, ran, stopping⟩ := ran
  exact ⟨s, t, stopping, sweep_stops_abandoned 1 goneClient s ran (by decide) _ 0 t stopping⟩

theorem sweep_stops_shared_client :
    ¬ ∀ (tunerCount : Nat) (history : List Timed) (s : KeepaliveState),
      History.run? KeepaliveState.step (KeepaliveState.init tunerCount) history = some s →
      ∀ now i t, s.Stopping now i t → Abandoned history now i t := by
  intro every
  have ran : ∃ (s : KeepaliveState) (t : Tuner),
      History.run? KeepaliveState.step (KeepaliveState.init 2) sharedClient = some s ∧
        s.Stopping 17000000000 1 t ∧ t.destination = some lanTarget :=
    ⟨_, _, rfl, ⟨rfl, rfl, rfl⟩, rfl⟩
  obtain ⟨s, t, ran, stopping, destination⟩ := ran
  obtain ⟨-, silent⟩ := every 2 sharedClient s ran _ 1 t stopping
  have heard := silent 10000000000 0x0200000a 5000 (by decide)
    ⟨lanTarget, destination, by decide, rfl⟩
  exact absurd heard (by decide)

end HdhrEmu
