/-!
The frame kind wanted next on every simulcast stream. A schedule is resized
only by `reset`, which also changes its generation, so that a copy taken
earlier can be told from the schedule of a later codec. An index out of range
is an error and never makes the schedule grow: an encode call may be running
on a copy.
-/

namespace Simulcast

/-- A key frame decodes without any earlier frame; a delta frame does not. -/
inductive FrameKind where
  | key
  | delta
  deriving DecidableEq, Repr

/-- A stream index that no stream has. -/
structure NoSuchStream where
  index : Nat
  streams : Nat
  deriving DecidableEq, Repr

def NoSuchStream.message (e : NoSuchStream) : String :=
  s!"stream index {e.index} out of range for {e.streams} streams"

/-- The kind wanted next per stream, and how often the schedule was reset. -/
structure Schedule where
  kinds : List FrameKind := [.delta]
  generation : UInt64 := 0
  deriving DecidableEq, Repr

namespace Schedule

/-- Starts over with a key frame on each of `streams` streams, at least one. -/
def reset (s : Schedule) (streams : Nat) : Schedule where
  kinds := List.replicate (max 1 streams) .key
  generation := s.generation + 1

def size (s : Schedule) : Nat := s.kinds.length

def get? (s : Schedule) (i : Nat) : Option FrameKind := s.kinds[i]?

def missing? (s : Schedule) (i : Nat) : Option NoSuchStream :=
  if i < s.size then none else some ⟨i, s.size⟩

def set (s : Schedule) (i : Nat) (k : FrameKind) : Except NoSuchStream Schedule :=
  match s.missing? i with
  | some e => .error e
  | none => .ok { s with kinds := s.kinds.set i k }

def requestKey (s : Schedule) (i : Nat) : Except NoSuchStream Schedule :=
  s.set i .key

/-- Entries that equal what was carried fall back to delta; entries without a
counterpart stay. -/
def clearKinds : List FrameKind → List FrameKind → List FrameKind
  | live :: rest, carried :: others =>
      (if live = carried then .delta else live) :: clearKinds rest others
  | rest, [] => rest
  | [], _ => []

/-- Settles an encode call that carried the kinds of `carried`, a copy taken
before the call. An entry that still equals what was carried is satisfied.
Nothing changes if the schedule was reset since the copy was taken. -/
def clearSatisfied (s carried : Schedule) : Schedule :=
  if s.generation = carried.generation then
    { s with kinds := clearKinds s.kinds carried.kinds }
  else s

end Schedule

end Simulcast
