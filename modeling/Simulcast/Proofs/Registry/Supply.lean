import Mathlib.Data.List.Induction
import Simulcast.Proofs.Registry.Tenure

/-!
What a registry has to serve codecs with, told by the calls made on it. The
encoder attached to a payload type is the one that the last call about that
payload type named, and the blueprint of a family the last one that was set.
Registrations change neither of them, whether they succeed or not.
-/

namespace Simulcast

/-- The blueprint that a call sets for a family. -/
def RegistryCall.blueprint? (kind : CodecKind) : RegistryCall → Option Blueprint
  | .setBlueprint k blueprint => if k = kind then some blueprint else none
  | _ => none

theorem Registry.Registers.supply {g : Registry} {rack : Rack} {codec : Codec} {cores : UInt32}
    {maxPayload : Nat} {result : Registry × Rack × Except RegistryError Handle}
    (h : g.Registers rack codec cores maxPayload result) :
    result.1.attachments = g.attachments ∧ result.1.blueprints = g.blueprints := by
  cases h <;> exact ⟨rfl, rfl⟩

theorem Registry.Detaches.supply {g : Registry} {rack : Rack} {payloadType : UInt8}
    {result : Registry × Rack × Except RegistryError Bool}
    (h : g.Detaches rack payloadType result) :
    (∀ p, result.1.attachments p = if payloadType = p then none else g.attachments p) ∧
      result.1.blueprints = g.blueprints := by
  cases h with
  | unknown hnone =>
      refine ⟨fun p => ?_, rfl⟩
      split
      · rename_i heq
        exact heq ▸ hnone
      · rfl
  | unused _ _ => exact ⟨fun p => if_congr eq_comm rfl rfl, rfl⟩
  | used _ _ _ _ _ _ => exact ⟨fun p => if_congr eq_comm rfl rfl, rfl⟩

namespace Station

/-- What a call says of the encoder attached to a payload type: which one it is
from now on, or that there is none. -/
def attachment? (t : Station) (payloadType : UInt8) : RegistryCall → Option (Option Attachment)
  | .attach p internalSource choice =>
      if p = payloadType then
        (t.rack.choose choice).map fun found => some ⟨found.2, internalSource⟩
      else none
  | .detach p => if p = payloadType then some none else none
  | _ => none

/-- The last thing that any of the calls says of it. -/
def lastAttachment? (t : Station) (payloadType : UInt8) :
    List RegistryCall → Option (Option Attachment)
  | [] => none
  | c :: rest => ((t.step c).lastAttachment? payloadType rest).or (t.attachment? payloadType c)

/-- The encoder attached to a payload type once `calls` were made. -/
def attached? (s : Station) (calls : List RegistryCall) (payloadType : UInt8) :
    Option Attachment :=
  (s.lastAttachment? payloadType calls).getD (s.registry.attachments payloadType)

/-- The blueprint of a family once `calls` were made. -/
def blueprint? (s : Station) (calls : List RegistryCall) (kind : CodecKind) : Option Blueprint :=
  (calls.reverse.findSome? (RegistryCall.blueprint? kind)).or (s.registry.blueprints kind)

theorem step_attachments (t : Station) (c : RegistryCall) (payloadType : UInt8) :
    (t.step c).registry.attachments payloadType =
      (t.attachment? payloadType c).getD (t.registry.attachments payloadType) := by
  cases c with
  | register codec cores maxPayload =>
      have hregisters := t.registry.register_registers t.rack codec cores maxPayload
      exact congrFun hregisters.supply.1 payloadType
  | attach p internalSource choice =>
      cases hchoice : t.rack.choose choice with
      | none => simp [step, attachment?, hchoice]
      | some found =>
          simp only [step, attachment?, hchoice, Registry.attach, eq_comm (a := payloadType)]
          split <;> rfl
  | detach p =>
      have hdetaches := t.registry.detach_detaches t.rack p
      have hsupply := hdetaches.supply.1 payloadType
      show (t.registry.detach t.rack p).1.attachments payloadType = _
      rw [hsupply, attachment?]
      split <;> rfl
  | _ => rfl

theorem step_blueprints (t : Station) (c : RegistryCall) (kind : CodecKind) :
    (t.step c).registry.blueprints kind =
      (c.blueprint? kind).or (t.registry.blueprints kind) := by
  cases c with
  | setBlueprint k blueprint =>
      simp only [step, Registry.setBlueprint, RegistryCall.blueprint?, eq_comm (a := kind)]
      split <;> rfl
  | register codec cores maxPayload =>
      have hregisters := t.registry.register_registers t.rack codec cores maxPayload
      exact congrFun hregisters.supply.2 kind
  | attach p internalSource choice =>
      cases hchoice : t.rack.choose choice <;>
        simp only [step, hchoice] <;> rfl
  | detach p =>
      have hdetaches := t.registry.detach_detaches t.rack p
      exact congrFun hdetaches.supply.2 kind
  | _ => rfl

theorem attachments_run (s : Station) (calls : List RegistryCall) (payloadType : UInt8) :
    (s.run calls).registry.attachments payloadType = s.attached? calls payloadType := by
  induction calls generalizing s with
  | nil => rfl
  | cons c rest ih =>
      show ((s.step c).run rest).registry.attachments payloadType = _
      rw [ih, attached?, attached?, lastAttachment?, step_attachments, Option.getD_or]

theorem blueprints_run (s : Station) (calls : List RegistryCall) (kind : CodecKind) :
    (s.run calls).registry.blueprints kind = s.blueprint? calls kind := by
  induction calls using List.reverseRecOn with
  | nil => rfl
  | append_singleton calls c ih =>
      rw [run_snoc, step_blueprints, ih, blueprint?, blueprint?, List.reverse_concat,
        List.findSome?_cons]
      cases c.blueprint? kind <;> rfl

end Station

end Simulcast
