import Simulcast.Journal

/-!
The encoders of a run, numbered in the order they were built, together with
the journal. An encoder that serves several payload types is one number in
several places, so what one user of it does the others see.
-/

namespace Simulcast

structure Rack where
  encoders : Array Encoder := #[]
  /-- The latest entry first. -/
  journal : List Event := []
  deriving Repr

namespace Rack

def encoder (r : Rack) (n : Nat) : Encoder := r.encoders.getD n {}

def put (r : Rack) (n : Nat) (e : Encoder) : Rack :=
  { r with encoders := r.encoders.setIfInBounds n e }

def note (r : Rack) (e : Event) : Rack :=
  { r with journal := e :: r.journal }

def log (r : Rack) (notice : Notice) : Rack := r.note (.log notice)

/-- Builds an encoder and gives its number. -/
def build (r : Rack) (b : Blueprint) : Rack × Nat :=
  ({ r with encoders := r.encoders.push b.build }, r.encoders.size)

/-- Finds or builds the chosen encoder. A number that no encoder has is no
choice. -/
def choose (r : Rack) : EncoderChoice → Option (Rack × Nat)
  | .fresh blueprint => some (r.build blueprint)
  | .existing n => if n < r.encoders.size then some (r, n) else none

/-- Has encoder `n` answer a call, without a word in the journal. -/
def perform (r : Rack) (n : Nat) (c : EncoderCall) :
    Rack × Except EncoderFault (List EncodedImage) :=
  let (e, result) := (r.encoder n).perform c
  (r.put n e, result)

def fault? {α : Type} : Except EncoderFault α → Option EncoderFault
  | .error f => some f
  | .ok _ => none

/-- Calls encoder `n`. The images it delivers are left to the caller. -/
def call (r : Rack) (n : Nat) (c : EncoderCall) :
    Rack × Except EncoderFault (List EncodedImage) :=
  let (r, result) := (r.note (.called n c)).perform n c
  (r.note (.answered n c (fault? result)), result)

def setFaults (r : Rack) (n : Nat) (p : FaultPlan.Patch) : Rack :=
  let e := r.encoder n
  r.put n { e with faults := e.faults.patch p }

/-- Whether `n` is an encoder with faults to set and a record to show. -/
def keepsRecord (r : Rack) (n : Nat) : Bool :=
  n < r.encoders.size && !(r.encoder n).basic

/-- Whether a journal entry is reported. Everything is, but for calls that a
basic encoder does not handle itself, and returns of calls. -/
def reports (r : Rack) : Event → Bool
  | .called n c => (r.encoder n).reports c
  | .answered _ _ _ => false
  | _ => true

end Rack

end Simulcast
