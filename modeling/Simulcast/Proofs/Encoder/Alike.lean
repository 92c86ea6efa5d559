import Mathlib.Data.List.Basic
import Simulcast.Proofs.Journal.Reading

/-!
What calls leave of an encoder. A call on an encoder in use changes records
and rates, never what kind of encoder it is, where its output goes or which
codec it runs; and a call on one encoder leaves all others alone. Building
encoders, setting them up and giving them up changes what they run, but still
not what kind they are.
-/

namespace Simulcast

/-- Two states of one encoder between which it was neither set up nor given
up. -/
structure Encoder.Alike (e e' : Encoder) : Prop where
  basic : e'.basic = e.basic
  internalSource : e'.internalSource = e.internalSource
  nativeInput : e'.nativeInput = e.nativeInput
  connected : e'.connected = e.connected
  codec : e'.codec = e.codec

namespace Encoder.Alike

theorem refl (e : Encoder) : e.Alike e := ⟨rfl, rfl, rfl, rfl, rfl⟩

theorem trans {e e' e'' : Encoder} (h : e.Alike e') (h' : e'.Alike e'') : e.Alike e'' where
  basic := h'.basic.trans h.basic
  internalSource := h'.internalSource.trans h.internalSource
  nativeInput := h'.nativeInput.trans h.nativeInput
  connected := h'.connected.trans h.connected
  codec := h'.codec.trans h.codec

end Encoder.Alike

/-- A call in use leaves the encoder as it was set up, whether or not it
fails. -/
theorem Encoder.perform_alike (e : Encoder) {c : EncoderCall} (h : c.Uses) :
    e.Alike (e.perform c).1 := by
  cases c with
  | connect => exact h.elim
  | init codec cores maxPayload => exact h.elim
  | release => exact h.elim
  | encode frame kinds info => exact ⟨rfl, rfl, rfl, rfl, rfl⟩
  | skip => exact ⟨rfl, rfl, rfl, rfl, rfl⟩
  | configure rates =>
      simp only [Encoder.perform]
      split <;> exact ⟨rfl, rfl, rfl, rfl, rfl⟩
  | request kinds =>
      simp only [Encoder.perform]
      split <;> exact ⟨rfl, rfl, rfl, rfl, rfl⟩

/-- The states of one kind of encoder. -/
structure Encoder.SameMake (e e' : Encoder) : Prop where
  basic : e'.basic = e.basic
  internalSource : e'.internalSource = e.internalSource
  nativeInput : e'.nativeInput = e.nativeInput

/-- No call changes what kind of encoder it is made on. -/
theorem Encoder.perform_sameMake (e : Encoder) (c : EncoderCall) :
    e.SameMake (e.perform c).1 := by
  cases c with
  | init codec cores maxPayload =>
      simp only [Encoder.perform]
      split <;> exact ⟨rfl, rfl, rfl⟩
  | configure rates =>
      simp only [Encoder.perform]
      split <;> exact ⟨rfl, rfl, rfl⟩
  | request kinds =>
      simp only [Encoder.perform]
      split <;> exact ⟨rfl, rfl, rfl⟩
  | _ => exact ⟨rfl, rfl, rfl⟩

/-- No call changes which calls are to fail. -/
theorem Encoder.perform_faults (e : Encoder) (c : EncoderCall) :
    (e.perform c).1.faults = e.faults := by
  cases c with
  | init codec cores maxPayload =>
      simp only [Encoder.perform]
      split <;> rfl
  | configure rates =>
      simp only [Encoder.perform]
      split <;> rfl
  | request kinds =>
      simp only [Encoder.perform]
      split <;> rfl
  | _ => rfl

namespace Rack

@[simp]
theorem put_size (r : Rack) (n : Nat) (e : Encoder) :
    (r.put n e).encoders.size = r.encoders.size := by
  simp [put]

theorem encoder_put (r : Rack) (n m : Nat) (e : Encoder) :
    (r.put n e).encoder m = if m = n ∧ n < r.encoders.size then e else r.encoder m := by
  simp only [encoder, put, Array.getD_eq_getD_getElem?, Array.getElem?_setIfInBounds]
  by_cases hmn : n = m
  · subst hmn
    by_cases hn : n < r.encoders.size
    · simp [hn]
    · simp [hn]
  · have hnm : ¬ m = n := fun h => hmn h.symm
    simp [hmn, hnm]

theorem encoder_perform (r : Rack) (n m : Nat) (c : EncoderCall) :
    (r.perform n c).1.encoder m =
      if m = n ∧ n < r.encoders.size then ((r.encoder n).perform c).1 else r.encoder m :=
  r.encoder_put n m _

theorem encoder_build (r : Rack) (b : Blueprint) (n : Nat) :
    (r.build b).1.encoder n = if n = r.encoders.size then b.build else r.encoder n := by
  simp only [encoder, build, Array.getD_eq_getD_getElem?, Array.getElem?_push]
  split <;> rfl

theorem encoder_build_of_lt (r : Rack) (b : Blueprint) (n : Nat) (h : n < r.encoders.size) :
    (r.build b).1.encoder n = r.encoder n := by
  rw [encoder_build, if_neg (Nat.ne_of_lt h)]

/-- Two states of the encoders between which none was set up, given up or
built. -/
structure Alike (r r' : Rack) : Prop where
  size : r'.encoders.size = r.encoders.size
  encoder : ∀ n, (r.encoder n).Alike (r'.encoder n)

theorem Alike.refl (r : Rack) : r.Alike r := ⟨rfl, fun _ => Encoder.Alike.refl _⟩

theorem Alike.trans {r r' r'' : Rack} (h : r.Alike r') (h' : r'.Alike r'') : r.Alike r'' where
  size := h'.size.trans h.size
  encoder n := (h.encoder n).trans (h'.encoder n)

theorem note_alike (r : Rack) (e : Event) : r.Alike (r.note e) :=
  ⟨rfl, fun _ => Encoder.Alike.refl _⟩

theorem put_alike (r : Rack) (n : Nat) (e : Encoder) (h : (r.encoder n).Alike e) :
    r.Alike (r.put n e) where
  size := r.put_size n e
  encoder m := by
    rw [encoder_put]
    split
    · rename_i hm
      rw [hm.1]
      exact h
    · exact Encoder.Alike.refl _

theorem setFaults_alike (r : Rack) (n : Nat) (p : FaultPlan.Patch) :
    r.Alike (r.setFaults n p) :=
  r.put_alike n _ ⟨rfl, rfl, rfl, rfl, rfl⟩

theorem perform_alike (r : Rack) (n : Nat) {c : EncoderCall} (h : c.Uses) :
    r.Alike (r.perform n c).1 :=
  r.put_alike n _ ((r.encoder n).perform_alike h)

@[simp]
theorem perform_size (r : Rack) (n : Nat) (c : EncoderCall) :
    (r.perform n c).1.encoders.size = r.encoders.size :=
  r.put_size n _

theorem perform_sameMake (r : Rack) (n m : Nat) (c : EncoderCall) :
    (r.encoder m).SameMake ((r.perform n c).1.encoder m) := by
  rw [encoder_perform]
  split
  · rename_i hm
    rw [hm.1]
    exact (r.encoder n).perform_sameMake c
  · exact ⟨rfl, rfl, rfl⟩

@[simp]
theorem perform_faults (r : Rack) (n m : Nat) (c : EncoderCall) :
    ((r.perform n c).1.encoder m).faults = (r.encoder m).faults := by
  rw [encoder_perform]
  split
  · rename_i hm
    rw [hm.1]
    exact (r.encoder n).perform_faults c
  · rfl

theorem call_journal (r : Rack) (n : Nat) (c : EncoderCall) :
    (r.call n c).1.journal =
      .answered n c (fault? (r.call n c).2) :: .called n c :: r.journal := rfl

@[simp]
theorem call_size (r : Rack) (n : Nat) (c : EncoderCall) :
    (r.call n c).1.encoders.size = r.encoders.size :=
  (r.note (.called n c)).perform_size n c

theorem call_sameMake (r : Rack) (n m : Nat) (c : EncoderCall) :
    (r.encoder m).SameMake ((r.call n c).1.encoder m) :=
  (r.note (.called n c)).perform_sameMake n m c

@[simp]
theorem call_faults (r : Rack) (n m : Nat) (c : EncoderCall) :
    ((r.call n c).1.encoder m).faults = (r.encoder m).faults :=
  (r.note (.called n c)).perform_faults n m c

theorem call_alike (r : Rack) (n : Nat) {c : EncoderCall} (h : c.Uses) :
    r.Alike (r.call n c).1 :=
  ((r.note_alike _).trans ((r.note (.called n c)).perform_alike n h)).trans (note_alike _ _)

end Rack

/-- Entries of a time in which encoders are set up or given up, none is used,
no callback runs and the sender registers nothing. Rate control is told of a
codec and of dropping at most. -/
def Event.SetsUp : Event → Prop
  | .called _ c | .answered _ c _ => ¬ c.Uses
  | .log (.registered _ _) => False
  | .log _ | .rate (.configured _) | .rate (.dropping _) => True
  | .rate _ | .image _ | .statistics _ _ | .nested _ _ => False

theorem Event.SetsUp.isRegistration {e : Event} (h : e.SetsUp) : e.isRegistration = false := by
  cases e with
  | log notice => cases notice <;> simp_all [Event.SetsUp, Event.isRegistration]
  | _ => rfl

theorem Event.SetsUp.isNested {e : Event} (h : e.SetsUp) : e.isNested = false := by
  cases e <;> first | rfl | exact h.elim

/-- From `r` to `r'` encoders were only built, set up or given up. -/
structure Rack.Setup (r r' : Rack) : Prop where
  size : r.encoders.size ≤ r'.encoders.size
  nativeInput : ∀ n < r.encoders.size, (r'.encoder n).nativeInput = (r.encoder n).nativeInput
  journal : ∃ new, r'.journal = new ++ r.journal ∧ ∀ e ∈ new, e.SetsUp

namespace Rack

theorem Setup.refl (r : Rack) : r.Setup r :=
  ⟨Nat.le_refl _, fun _ _ => rfl, [], rfl, by simp⟩

theorem Setup.trans {r r' r'' : Rack} (h : r.Setup r') (h' : r'.Setup r'') : r.Setup r'' where
  size := Nat.le_trans h.size h'.size
  nativeInput n hn := by
    rw [h'.nativeInput n (Nat.lt_of_lt_of_le hn h.size), h.nativeInput n hn]
  journal := by
    obtain ⟨new, hj, hnew⟩ := h.journal
    obtain ⟨more, hj', hmore⟩ := h'.journal
    refine ⟨more ++ new, by rw [hj', hj, List.append_assoc], ?_⟩
    intro e he
    exact (List.mem_append.mp he).elim (hmore e) (hnew e)

theorem setup_log (r : Rack) (notice : Notice) (h : ∀ codec m, notice ≠ .registered codec m) :
    r.Setup (r.log notice) := by
  refine ⟨Nat.le_refl _, fun _ _ => rfl, [.log notice], rfl, ?_⟩
  cases notice <;> simp_all [Event.SetsUp]

theorem setup_call (r : Rack) (n : Nat) {c : EncoderCall} (h : ¬ c.Uses) :
    r.Setup (r.call n c).1 where
  size := Nat.le_of_eq (r.call_size n c).symm
  nativeInput m _ := (r.call_sameMake n m c).nativeInput
  journal := ⟨[.answered n c (fault? (r.call n c).2), .called n c], r.call_journal n c,
    by simp [Event.SetsUp, h]⟩

theorem setup_build (r : Rack) (b : Blueprint) : r.Setup (r.build b).1 where
  size := by simp [build]
  nativeInput n hn := by rw [encoder_build_of_lt r b n hn]
  journal := ⟨[], rfl, by simp⟩

/-- Both kinds of choice give an encoder that exists and write nothing. -/
theorem choose_setup {r r' : Rack} {choice : EncoderChoice} {n : Nat}
    (h : r.choose choice = some (r', n)) :
    r.Setup r' ∧ r'.journal = r.journal ∧ n < r'.encoders.size := by
  cases choice with
  | fresh blueprint =>
      simp only [choose, Option.some.injEq, build, Prod.mk.injEq] at h
      rw [← h.1, ← h.2]
      exact ⟨r.setup_build blueprint, rfl, by simp⟩
  | existing m =>
      simp only [choose] at h
      split at h
      · rename_i hlt
        simp only [Option.some.injEq, Prod.mk.injEq] at h
        rw [← h.1, ← h.2]
        exact ⟨Setup.refl _, rfl, hlt⟩
      · simp at h

end Rack

end Simulcast
