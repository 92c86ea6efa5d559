import Mathlib.Data.List.Basic
import Simulcast.Proofs.Registry.Outcome

/-!
What a journal says of codecs and target bitrates, and what a rate controller
holds targets at. The network's reports and the codecs registered are all in
the journal, so the target that ought to be in use at any moment can be read
off it.
-/

namespace Simulcast

namespace Event

/-- The codec that an entry says was registered. -/
def codec? : Event → Option Codec
  | .log (.registered codec _) => some codec
  | _ => none

/-- Entries about neither codecs nor targets. -/
def Mute : Event → Prop
  | .called _ (.configure _) | .rate (.fed _ _ _ _) | .log (.registered _ _) => False
  | _ => True

variable {e : Event}

theorem codec?_eq_none_iff : e.codec? = none ↔ e.isRegistration = false := by
  cases e with
  | log notice => cases notice <;> simp [codec?, isRegistration]
  | _ => simp [codec?, isRegistration]

theorem Mute.isRegistration (h : e.Mute) : e.isRegistration = false := by
  cases e with
  | log notice => cases notice <;> simp_all [Mute, Event.isRegistration]
  | _ => rfl

theorem Mute.isFed (h : e.Mute) : e.isFed = false := by
  cases e with
  | rate c => cases c <;> simp_all [Mute, Event.isFed]
  | _ => rfl

theorem Mute.ne_configure (h : e.Mute) (n : Nat) (rates : RateParameters) :
    e ≠ .called n (.configure rates) := by
  rintro rfl
  exact h

theorem ByRegistry.mute (h : e.ByRegistry) : e.Mute := by
  cases e with
  | called n c => cases c <;> simp_all [ByRegistry, Mute, EncoderCall.Uses]
  | answered n c fault => trivial
  | log notice => cases notice <;> simp_all [ByRegistry, Mute]
  | _ => exact h.elim

end Event

/-- The codec registered last. -/
def lastRegistered? (journal : List Event) : Option Codec := journal.findSome? Event.codec?

/-- The most that the codec registered last allows, in bits per second. Zero
means that there is no maximum. -/
def ceiling (journal : List Event) : UInt32 :=
  ((lastRegistered? journal).map fun codec => bitsPerSecond codec.maxBitrate).getD 0

/-- A bitrate held at a maximum, unless that is zero. -/
def cut (maximum bitrate : UInt32) : UInt32 :=
  if maximum = 0 then bitrate else min bitrate maximum

/-- What the network reported last, cut to what was allowed then. -/
def heardTarget : List Event → UInt32
  | [] => 0
  | .rate (.fed bitrate _ _ _) :: older => cut (ceiling older) bitrate
  | _ :: older => heardTarget older

/-- The network last reported more than `limit`, more was allowed then, and a
codec has been registered since. -/
def Outdated (journal : List Event) (limit : UInt32) : Prop :=
  ∃ since bitrate lossRate roundTrip target before,
    journal = since ++ .rate (.fed bitrate lossRate roundTrip target) :: before ∧
      (∀ e ∈ since, e.isFed = false) ∧ 0 < registrations since ∧
      limit < cut (ceiling before) bitrate

/-- Every target handed to an encoder was the one heard last. -/
def Handed (journal : List Event) : Prop :=
  ∀ newer n rates older, journal = newer ++ .called n (.configure rates) :: older →
    rates.targetBitrate = heardTarget older

variable {new old journal : List Event} {e : Event}

theorem bitsPerSecond_pos {kilobits : UInt32} (h : 0 < kilobits) : 0 < bitsPerSecond kilobits := by
  rw [UInt32.lt_iff_toNat_lt] at h ⊢
  have hlt : min (kilobits.toNat * 1000) (UInt32.size - 1) < UInt32.size := by
    simp only [UInt32.size]
    omega
  rw [bitsPerSecond, UInt32.toNat_ofNat_of_lt' hlt]
  simp only [UInt32.size, UInt32.toNat_zero] at h ⊢
  omega

theorem cut_le {maximum : UInt32} (h : 0 < maximum) (bitrate : UInt32) :
    cut maximum bitrate ≤ maximum := by
  have hne : maximum ≠ 0 := fun hzero => by simp [hzero] at h
  rw [cut, if_neg hne]
  exact Std.min_le_right

theorem lastRegistered?_append (h : registrations new = 0) :
    lastRegistered? (new ++ old) = lastRegistered? old := by
  have hnone : new.findSome? Event.codec? = none := by
    rw [List.findSome?_eq_none_iff]
    intro e he
    rw [Event.codec?_eq_none_iff]
    simpa using List.countP_eq_zero.mp h e he
  simp [lastRegistered?, List.findSome?_append, hnone]

theorem ceiling_append (h : registrations new = 0) : ceiling (new ++ old) = ceiling old := by
  rw [ceiling, lastRegistered?_append h, ceiling]

theorem heardTarget_cons (h : e.isFed = false) : heardTarget (e :: old) = heardTarget old := by
  cases e with
  | rate c => cases c <;> first | rfl | simp [Event.isFed] at h
  | _ => rfl

theorem heardTarget_append (h : ∀ e ∈ new, e.isFed = false) :
    heardTarget (new ++ old) = heardTarget old := by
  induction new with
  | nil => rfl
  | cons e rest ih =>
      rw [List.cons_append, heardTarget_cons (h e (by simp))]
      exact ih fun e' he' => h e' (by simp [he'])

/-- There is no target before the network is heard of. -/
theorem heardTarget_of_unheard (h : ∀ e ∈ journal, e.isFed = false) : heardTarget journal = 0 := by
  rw [← List.append_nil journal, heardTarget_append h, heardTarget]

/-- A journal goes back to the last report of the network, if there is one. -/
theorem exists_last_fed (journal : List Event) :
    (∀ e ∈ journal, e.isFed = false) ∨
      ∃ since bitrate lossRate roundTrip target before,
        journal = since ++ .rate (.fed bitrate lossRate roundTrip target) :: before ∧
          ∀ e ∈ since, e.isFed = false := by
  induction journal with
  | nil => simp
  | cons e rest ih =>
      cases hfed : e.isFed with
      | true =>
          right
          unfold Event.isFed at hfed
          split at hfed
          · rename_i bitrate lossRate roundTrip target
            exact ⟨[], bitrate, lossRate, roundTrip, target, rest, rfl, by simp⟩
          · simp at hfed
      | false =>
          rcases ih with hnone | ⟨since, bitrate, lossRate, roundTrip, target, before, rfl, hsince⟩
          · left
            simpa [hfed] using hnone
          · right
            exact ⟨e :: since, bitrate, lossRate, roundTrip, target, before, rfl,
              by simpa [hfed] using hsince⟩

/-- The target heard last is above the maximum of the codec registered last
exactly if it is outdated. -/
theorem heardTarget_exceeds_iff {codec : Codec} (hcodec : lastRegistered? journal = some codec)
    (hmax : 0 < codec.maxBitrate) :
    bitsPerSecond codec.maxBitrate < heardTarget journal ↔
      Outdated journal (bitsPerSecond codec.maxBitrate) := by
  constructor
  · intro hexceeds
    rcases exists_last_fed journal with
      hnone | ⟨since, bitrate, lossRate, roundTrip, target, before, rfl, hsince⟩
    · rw [heardTarget_of_unheard hnone] at hexceeds
      exact absurd hexceeds UInt32.not_lt_zero
    · rw [heardTarget_append hsince, heardTarget] at hexceeds
      refine ⟨since, bitrate, lossRate, roundTrip, target, before, rfl, hsince, ?_, hexceeds⟩
      -- If the codec had been registered by then, the report would have been cut to its maximum.
      rw [Nat.pos_iff_ne_zero]
      intro hzero
      have hbefore : ceiling before = bitsPerSecond codec.maxBitrate := by
        rw [lastRegistered?_append hzero] at hcodec
        have hthen : lastRegistered? before = some codec := hcodec
        rw [ceiling, hthen, Option.map_some, Option.getD_some]
      rw [hbefore] at hexceeds
      exact absurd (cut_le (bitsPerSecond_pos hmax) bitrate) (UInt32.not_le.mpr hexceeds)
  · rintro ⟨since, bitrate, lossRate, roundTrip, target, before, rfl, hsince, _, hlimit⟩
    rwa [heardTarget_append hsince, heardTarget]

theorem Handed.cons (h : Handed old)
    (he : ∀ n rates, e = .called n (.configure rates) → rates.targetBitrate = heardTarget old) :
    Handed (e :: old) := by
  intro newer n rates older heq
  cases newer with
  | nil =>
      obtain ⟨hcalled, rfl⟩ := List.cons.inj heq
      exact he n rates hcalled
  | cons first rest => exact h rest n rates older (List.cons.inj heq).2

theorem Handed.append (h : Handed old) (hnew : ∀ e ∈ new, e.Mute) : Handed (new ++ old) := by
  induction new with
  | nil => exact h
  | cons e rest ih =>
      refine (ih fun e' he' => hnew e' (by simp [he'])).cons fun n rates heq => ?_
      exact absurd heq ((hnew e (by simp)).ne_configure n rates)

theorem registrations_of_mute (h : ∀ e ∈ new, e.Mute) : registrations new = 0 :=
  registrations_of_none fun e he => (h e he).isRegistration

namespace RateController

/-- The maximum that a regulator holds targets at. -/
def maximum? : RateController → Option UInt32
  | .scripted _ => none
  | .regulated r => some r.limits.maxBitrate

variable (c : RateController) (now : Millis)

@[simp]
theorem maximum?_patch (p : RateScript.Patch) : (c.patch p).maximum? = c.maximum? := by
  cases c <;> rfl

@[simp]
theorem maximum?_frameRate : (c.frameRate now).1.maximum? = c.maximum? := by
  cases c <;> rfl

@[simp]
theorem maximum?_dropFrame : (c.dropFrame now).1.maximum? = c.maximum? := by
  cases c <;> rfl

@[simp]
theorem maximum?_enableDropping (on : Bool) : (c.enableDropping on).maximum? = c.maximum? := by
  cases c <;> rfl

@[simp]
theorem maximum?_account (image : EncodedImage) : (c.account now image).maximum? = c.maximum? := by
  cases c <;> rfl

@[simp]
theorem maximum?_sentBitrate : (c.sentBitrate now).1.maximum? = c.maximum? := by
  cases c <;> rfl

@[simp]
theorem maximum?_sentFrameRate : (c.sentFrameRate now).1.maximum? = c.maximum? := by
  cases c <;> rfl

@[simp]
theorem maximum?_feed (bitrate : UInt32) (lossRate : UInt8) (roundTrip : Millis) :
    (c.feed bitrate lossRate roundTrip).1.maximum? = c.maximum? := by
  cases c <;> rfl

theorem maximum?_configure (limits : EncodingLimits) :
    (c.configure limits).maximum? = c.maximum?.map fun _ => limits.maxBitrate := by
  cases c <;> rfl

theorem feed_target {maximum : UInt32} (h : c.maximum? = some maximum) (bitrate : UInt32)
    (lossRate : UInt8) (roundTrip : Millis) :
    (c.feed bitrate lossRate roundTrip).2 = cut maximum bitrate := by
  cases c with
  | scripted script => simp [maximum?] at h
  | regulated r =>
      obtain rfl := Option.some.inj h
      rfl

end RateController

end Simulcast
