import HdhrEmu.ScanQueue

/-!
# How queued requests are attempted

A request joins the session that is running: the SET waits for the current
generation, and the delivery system is the one of the current channel map.
The worker, though, attempts everything with what its context says.  The two
agree for as long as requests are only queued behind a worker of the same
session and delivery system.
-/

namespace HdhrEmu

open Interleaving

/-- The request was accepted in this session or in an earlier one. -/
def Joined (s : ScanSession) (accepted : Accepted) : Prop :=
  accepted.epoch ≤ s.epoch ∧
    (accepted.epoch = s.epoch → accepted.generation = s.scanGeneration)

/-- The session continues or is followed by another one, and nothing is queued. -/
structure Advances (s next : ScanSession) : Prop where
  entries : ∀ entry ∈ next.pendingQueue.entries, entry ∈ s.pendingQueue.entries
  session : (next.epoch = s.epoch ∧ next.scanGeneration = s.scanGeneration) ∨ s.epoch < next.epoch

section Advances

variable {s next : ScanSession}

theorem Advances.refl (s : ScanSession) : Advances s s :=
  ⟨fun _ => id, .inl ⟨rfl, rfl⟩⟩

end Advances

section Groups

variable {w : World} {χ : Choice} {outcome : Outcome}

end Groups

section Reachable

variable {db : ChannelDb} {config : Config World Frame}

end Reachable

end HdhrEmu
