import Simulcast.Simulation.Run

/-!
Command line of the simulation. Time is simulated unless the arguments ask for
the wall clock; then the program sleeps between frames, and the sender's clock
is set from the time that went by.
-/

namespace Simulcast.Simulation

/-- Submits the frames of a run by the wall clock. -/
def runByWallClock (o : Options) (s : Sender) : IO Sender := do
  let begun ← IO.monoMsNow
  let picture := grayPicture o
  let mut sender := s
  for k in List.range o.count.toNat do
    let elapsed := (← IO.monoMsNow) - begun
    sender := submitFrame o picture { sender with now := elapsed } k
    IO.sleep (UInt32.ofNat o.interval.toNat)
    let elapsed := (← IO.monoMsNow) - begun
    sender := { sender with now := elapsed }.tick.1
  return sender

def Outcome.print (r : Outcome) : IO UInt32 := do
  IO.print r.output
  IO.eprint r.complaint
  return r.status

def simulateByWallClock (o : Options) : IO UInt32 :=
  match start o 0 with
  | .error e => (Outcome.ofRegistration e).print
  | .ok s => do
      let s ← runByWallClock o s
      let outcome : Outcome := { status := 0, output := (report o s).text }
      outcome.print

end Simulcast.Simulation

def main (arguments : List String) : IO UInt32 :=
  match Simulcast.Simulation.Request.ofArguments arguments with
  | .ok (.simulate o) =>
      if o.wallClock && o.fits then Simulcast.Simulation.simulateByWallClock o
      else (Simulcast.Simulation.simulate o).print
  | _ => (Simulcast.Simulation.run arguments).print
