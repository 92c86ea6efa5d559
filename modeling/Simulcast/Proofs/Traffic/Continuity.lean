import Mathlib.Data.List.Basic
import Simulcast.Proofs.Traffic.Agreement

/-!
From one registration to the next. As long as no codec is registered, the
encoder in the slot stays or is given up, and once it is given up the slot
stays empty. So a copy of the plan that was taken since the last registration
says of the encoder in the slot, if there is one, whether it has an internal
source, whatever was attached, detached or refused in between.
-/

namespace Simulcast

theorem Sender.Coherent.source_of_slot {s : Sender} {slot : Handle} (hs : s.Coherent)
    (hslot : s.slot = some slot) : s.plan.internalSource = slot.internalSource := by
  rw [hs.source, hslot]
  rfl

namespace Traffic

variable {t : Traffic}

/-- Codecs are registered by the moves that say so, and by no others. -/
theorem run_registrations (ht : t.sender.Coherent) (moves : List Move) :
    registrations (t.run moves).sender.rack.journal =
      registrations t.sender.rack.journal + (t.accepted moves).length := by
  induction moves generalizing t with
  | nil => rfl
  | cons move rest ih =>
      have hstep := (step_accepts ht move).registrations
      have hrest := ih (step_coherent ht move)
      rw [accepted, List.length_append]
      change registrations ((t.step move).run rest).sender.rack.journal = _
      omega

/-- As long as no codec is registered, an encoder that is in the slot stays or
is given up. -/
theorem run_slot_of_eq (ht : t.sender.Coherent) (moves : List Move)
    (h : registrations (t.run moves).sender.rack.journal =
      registrations t.sender.rack.journal) :
    (t.run moves).sender.slot = t.sender.slot ∨ (t.run moves).sender.slot = none := by
  induction moves generalizing t with
  | nil => exact Or.inl rfl
  | cons move rest ih =>
      have hcoherent := step_coherent ht move
      have hstep := (step_later ht move).registrations
      have hrest := (run_later hcoherent rest).registrations
      change registrations ((t.step move).run rest).sender.rack.journal = _ at h
      obtain ⟨_, hslot⟩ := (step_passage ht move).slot_of_eq (by omega)
      rcases ih hcoherent (by omega) with hsame | hnone
      · rw [← hsame] at hslot
        exact hslot
      · exact Or.inr hnone

/-- Without an encoder there is none until a codec is registered. -/
theorem run_vacant (ht : t.sender.Coherent) (hnone : t.sender.slot = none) {moves : List Move}
    (h : t.accepted moves = []) : (t.run moves).sender.slot = none := by
  have hcount := run_registrations ht moves
  rw [h, List.length_nil, Nat.add_zero] at hcount
  rcases run_slot_of_eq ht moves hcount with hsame | hvacated
  · rw [hsame, hnone]
  · exact hvacated

/-- The plan that a submission works on says of the encoder in the slot whether
it has an internal source, however old the copy is that the submission carries.
Only after `UInt64.size` registrations could the generation of the copy mislead
it. -/
theorem currentPlan_source (ht : t.sender.Coherent) (moves : List Move) {slot : Handle}
    (hslot : (t.run moves).sender.slot = some slot)
    (hrecent : registrations (t.run moves).sender.rack.journal <
      registrations t.sender.rack.journal + UInt64.size) :
    ((t.run moves).sender.currentPlan t.sender.plan).internalSource = slot.internalSource := by
  have hcoherent := run_coherent ht moves
  have htook := ht.took.later (run_later ht moves)
  unfold Sender.currentPlan
  split
  · rename_i hgeneration
    have hsame := (htook.stamp_eq hcoherent hrecent).mp hgeneration
    rcases run_slot_of_eq ht moves hsame with hstays | hnone
    · exact ht.source_of_slot (hstays.symm.trans hslot)
    · rw [hslot] at hnone
      simp at hnone
  · exact hcoherent.source_of_slot hslot

end Traffic

end Simulcast
