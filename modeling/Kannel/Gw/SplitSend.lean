import Kannel.Gwlib.Counter
import Kannel.Lib.Machine

/-!
# Sending the parts of a split message

The driver reports each part to `handle_split` from its own threads. A report may overwrite the
status and decreases the counter; the last one passes the message on. A sender that fails takes
the unsent parts off the counter. A step is one access to the shared data.
-/

namespace Kannel

inductive Reason
  | success | queued | failedShutdown | failedRejected | failedMalformed | failedTemporarily
  | failedDiscarded | failedQfull | failedExpired
  deriving DecidableEq, Repr

inductive Disposition
  | sent
  | failed (reason : Reason)
  deriving DecidableEq, Repr

inductive PartPhase
  | handed
  | writing (reason : Reason)
  | counting (reason : Reason)
  | disposing (reason : Reason)
  | finished (reason : Reason)
  deriving DecidableEq, Repr

inductive SenderPhase
  | sending | rejecting | correcting | finished
  deriving DecidableEq, Repr

/-- The parts handed over so far and where the threads stand; `disposed` is what was done to the
original message. -/
structure Split where
  sender : SenderPhase
  handed : List PartPhase
  partsLeft : Nat
  status : Reason
  disposed : List Disposition
  deriving DecidableEq, Repr

inductive SplitAction
  | send | sendFail | reject | correct
  | complete (part : Nat) (reason : Reason)
  | write (part : Nat)
  | count (part : Nat)
  | dispose (part : Nat)
  deriving DecidableEq, Repr

def handleSplit (status : Reason) : Reason → PartPhase
  | .failedDiscarded => .writing .failedDiscarded
  | .failedRejected => .writing .failedRejected
  | .failedMalformed => .writing .failedMalformed
  | .success => .counting .success
  | reason => if status = .success then .writing reason else .counting reason

def splitStep (n : Nat) (s : Split) : SplitAction → Option Split
  | .send =>
    if s.sender = .sending then
      some { s with
        handed := s.handed ++ [.handed]
        sender := if s.handed.length + 1 = n then .finished else .sending }
    else none
  | .sendFail =>
    if s.sender = .sending ∧ 0 < s.handed.length then some { s with sender := .rejecting }
    else none
  | .reject =>
    if s.sender = .rejecting then
      some { s with status := .failedRejected, sender := .correcting }
    else none
  | .correct =>
    if s.sender = .correcting then
      some { s with
        partsLeft := (counterIncreaseWith s.partsLeft (toUlong (-(n - s.handed.length : Nat)))).2
        sender := .finished }
    else none
  | .complete j reason =>
    match s.handed[j]? with
    | some .handed =>
      if reason = .failedTemporarily then none
      else some { s with handed := s.handed.set j (handleSplit s.status reason) }
    | _ => none
  | .write j =>
    match s.handed[j]? with
    | some (.writing reason) =>
      some { s with status := reason, handed := s.handed.set j (.counting reason) }
    | _ => none
  | .count j =>
    match s.handed[j]? with
    | some (.counting reason) =>
      let (old, left) := counterDecrease s.partsLeft
      some { s with
        partsLeft := left
        handed := s.handed.set j (if old ≤ 1 then .disposing reason else .finished reason) }
    | _ => none
  | .dispose j =>
    match s.handed[j]? with
    | some (.disposing reason) =>
      some { s with
        disposed := s.disposed ++ [if s.status = .success then .sent else .failed s.status]
        handed := s.handed.set j (.finished reason) }
    | _ => none

def splitStart (n : Nat) : Split where
  sender := .sending
  handed := []
  partsLeft := n
  status := .success
  disposed := []

end Kannel
