import Simulcast.Encoder.Synthetic

/-!
One encoder on its own, without a sender: calls go straight to it and its
images come straight back. A probe may sit in it that counts encode calls and
sees how many were recorded before.
-/

namespace Simulcast

structure Bench where
  encoder : Encoder
  /-- The encode calls the probe has counted, if there is a probe. -/
  probe : Option Nat := none
  deriving Repr

inductive BenchEvent where
  /-- The probe saw its `calls`-th encode call, with so many recorded. -/
  | probed (calls recorded : Nat)
  | image (image : EncodedImage)
  deriving DecidableEq, Repr

structure BenchResult where
  events : List BenchEvent
  fault : Option EncoderFault
  deriving DecidableEq, Repr

namespace Bench

def setProbe (b : Bench) : Bench := { b with probe := some 0 }

def passProbe (b : Bench) : EncoderCall → Bench × List BenchEvent
  | .encode _ _ _ =>
      match b.probe with
      | some calls =>
          ({ b with probe := some (calls + 1) },
            [.probed (calls + 1) b.encoder.encodes.length])
      | none => (b, [])
  | _ => (b, [])

def call (b : Bench) (c : EncoderCall) : Bench × BenchResult :=
  let (b, probed) := b.passProbe c
  let (e, result) := b.encoder.perform c
  let b := { b with encoder := e }
  match result with
  | .ok images => (b, ⟨probed ++ images.map .image, none⟩)
  | .error fault => (b, ⟨probed, some fault⟩)

end Bench

end Simulcast
