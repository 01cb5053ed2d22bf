import TradeTalk.Ledger.Talk

/-!
# `TradeTalk.SharedLedger` — one ledger in several hands

Several clients may hold handles of the same ledger. A call is served as a whole before the next, whoever makes it,
so what a client sees depends on the calls before its own and not on the handle it uses.

## Contents
- **`SharedLedger`**: a ledger and the number of its handles.
- **`SharedLedger.share`**: one more handle.
- **`SharedLedger.tell`**: a line told through a handle; **`SharedLedger.serve`**: a run of such calls.
-/

namespace TradeTalk

/-- A ledger with `handles` handles, which are numbered from zero. -/
structure SharedLedger where
  ledger : Ledger := .empty
  handles : Nat := 1

/-- A line told through a handle. -/
structure Call where
  handle : Nat
  line : String
  deriving DecidableEq, Repr

namespace SharedLedger

/-- Hands out one more handle: its number, and the ledger with it. -/
def share (s : SharedLedger) : Nat × SharedLedger :=
  (s.handles, { s with handles := s.handles + 1 })

/-- Serves a call. -/
def tell (s : SharedLedger) (call : Call) : Except Fault Answer × SharedLedger :=
  let (answer, ledger) := s.ledger.tell call.line
  (answer, { s with ledger })

/-- Serves some calls in the order in which they are made. -/
def serve (s : SharedLedger) : List Call → List (Except Fault Answer) × SharedLedger
  | [] => ([], s)
  | call :: calls =>
    let (answer, s) := s.tell call
    let (answers, s) := s.serve calls
    (answer :: answers, s)

/-- Calls are answered as their lines are, whichever handles they use. -/
theorem serve_eq_tellAll (s : SharedLedger) (calls : List Call) :
    ((s.serve calls).1, (s.serve calls).2.ledger) = s.ledger.tellAll (calls.map Call.line) := by
  induction calls generalizing s with
  | nil => rfl
  | cons call calls ih =>
    have h := ih (s.tell call).2
    simp only [tell] at h
    simp only [serve, tell, List.map_cons, Ledger.tellAll]
    rw [← h]

end SharedLedger

end TradeTalk
