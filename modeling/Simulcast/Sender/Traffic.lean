import Simulcast.Sender.Operation

/-!
Calls of several threads at once. A call is a short chain of sections, each of
which has what it touches to itself: the rate controller, the plan or the
encoder. Between two sections of one call the sections of others may come in
any order. A `Traffic` holds a sender and how far every call has come, and a
list of moves says who goes on when, so whatever threads may do is a run of
`Traffic`.
-/

namespace Simulcast

/-- How far a call has come among others. -/
inductive Leg where
  /-- Feedback the rate controller has answered. Its rates are not in the plan
  yet. -/
  | regulated (rates : RateParameters)
  | reached (progress : Progress)
  deriving DecidableEq, Repr

inductive Move where
  /-- A thread makes a call, which does its first section. -/
  | enter (call : Call)
  /-- The call with number `n` does its next section, if it has one left. -/
  | proceed (n : Nat)
  /-- An instruction is followed from beginning to end. -/
  | follow (instruction : Instruction)
  deriving DecidableEq, Repr

/-- A sender with calls under way. They are numbered in the order they were
made, and a call that has come to its end keeps its number. -/
structure Traffic where
  sender : Sender
  calls : List Leg := []

namespace Sender

/-- The first section of a call. -/
def enter (s : Sender) : Call → Sender × Leg
  | .feedback report =>
      let (s, rates) := s.regulate report
      (s, .regulated rates)
  | c =>
      let (s, progress) := s.begin c
      (s, .reached progress)

/-- The next section of a call. A call that is finished has none. -/
def proceed (s : Sender) : Leg → Sender × Leg
  | .regulated rates =>
      let (s, progress) := s.keepRates rates
      (s, .reached progress)
  | .reached progress =>
      let (s, reply) := s.finish progress
      (s, .reached (.finished reply))

end Sender

namespace Traffic

def step (t : Traffic) : Move → Traffic
  | .enter c =>
      let (s, leg) := t.sender.enter c
      { sender := s, calls := t.calls ++ [leg] }
  | .proceed n =>
      match t.calls[n]? with
      | some leg =>
          let (s, leg) := t.sender.proceed leg
          { sender := s, calls := t.calls.set n leg }
      | none => t
  | .follow i => { t with sender := (t.sender.follow i).1 }

def run (t : Traffic) (moves : List Move) : Traffic := moves.foldl step t

/-- The answer to the call with number `n`, once it is finished. -/
def reply? (t : Traffic) (n : Nat) : Option Reply :=
  match t.calls[n]? with
  | some (.reached (.finished reply)) => some reply
  | _ => none

end Traffic

end Simulcast
