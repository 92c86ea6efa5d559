import Mathlib.Data.List.Basic
import Simulcast.Proofs.Encoder.Alike
import Simulcast.Sender.Encoding

/-!
Stretches of a run in which nothing is registered, attached or detached. The
active encoder stays the same, the journal only grows, and as far as a stretch
goes the schedule changes by the requests its callbacks make, all of which are
in the journal. Whatever callbacks do is such a stretch.
-/

namespace Simulcast

/-- Nothing is done inside callbacks. -/
def Callbacks.Silent (c : Callbacks) : Prop := (∀ n, c.onEncode n = []) ∧ c.onImage = []

namespace Sender

variable {P Q : Event → Prop} {s s' s'' : Sender} {new new' : List Event}

/-- From `s` to `s'` nothing is registered, attached or detached, and the
journal grows by `new`, all of which satisfies `P`. -/
structure Stretch (P : Event → Prop) (s s' : Sender) (new : List Event) : Prop where
  registry : s'.registry = s.registry
  slot : s'.slot = s.slot
  codec : s'.codec = s.codec
  dropping : s'.dropping = s.dropping
  source : s'.plan.internalSource = s.plan.internalSource
  schedule : s'.plan.schedule = s.plan.schedule.heed new
  rack : s.rack.Alike s'.rack
  journal : s'.rack.journal = new ++ s.rack.journal
  entries : ∀ e ∈ new, P e

/-- A stretch in which callbacks do something only if they were set before. -/
structure Interval (P : Event → Prop) (s s' : Sender) (new : List Event) : Prop
    extends Stretch P s s' new where
  silent : s.callbacks.Silent → s'.callbacks.Silent ∧ ∀ e ∈ new, e.isNested = false

/-- The two senders differ at most in the rate controller, the clock, the
timer, the rates of the plan and what the registry is to turn down. -/
structure Same (s s' : Sender) : Prop where
  registry : s'.registry = s.registry
  slot : s'.slot = s.slot
  codec : s'.codec = s.codec
  dropping : s'.dropping = s.dropping
  source : s'.plan.internalSource = s.plan.internalSource
  schedule : s'.plan.schedule = s.plan.schedule
  rack : s'.rack = s.rack
  callbacks : s'.callbacks = s.callbacks

theorem Stretch.refl (P : Event → Prop) (s : Sender) : Stretch P s s [] :=
  ⟨rfl, rfl, rfl, rfl, rfl, rfl, Rack.Alike.refl _, rfl, by simp⟩

theorem Stretch.trans (h : Stretch P s s' new) (h' : Stretch P s' s'' new') :
    Stretch P s s'' (new' ++ new) where
  registry := h'.registry.trans h.registry
  slot := h'.slot.trans h.slot
  codec := h'.codec.trans h.codec
  dropping := h'.dropping.trans h.dropping
  source := h'.source.trans h.source
  schedule := by rw [h'.schedule, h.schedule, Schedule.heed_append]
  rack := h.rack.trans h'.rack
  journal := by rw [h'.journal, h.journal, List.append_assoc]
  entries e he := (List.mem_append.mp he).elim (h'.entries e) (h.entries e)

theorem Stretch.mono (h : Stretch P s s' new) (hPQ : ∀ e, P e → Q e) : Stretch Q s s' new :=
  { h with entries := fun e he => hPQ e (h.entries e he) }

theorem Interval.refl (P : Event → Prop) (s : Sender) : Interval P s s [] :=
  ⟨Stretch.refl P s, fun hs => ⟨hs, by simp⟩⟩

theorem Interval.trans (h : Interval P s s' new) (h' : Interval P s' s'' new') :
    Interval P s s'' (new' ++ new) where
  toStretch := h.toStretch.trans h'.toStretch
  silent hs := by
    obtain ⟨hs', hnew⟩ := h.silent hs
    obtain ⟨hs'', hnew'⟩ := h'.silent hs'
    exact ⟨hs'', fun e he => (List.mem_append.mp he).elim (hnew' e) (hnew e)⟩

theorem Interval.mono (h : Interval P s s' new) (hPQ : ∀ e, P e → Q e) : Interval Q s s' new :=
  ⟨h.toStretch.mono hPQ, h.silent⟩

theorem Interval.of_same (P : Event → Prop) (s s' : Sender) (h : Same s s') :
    Interval P s s' [] where
  registry := h.registry
  slot := h.slot
  codec := h.codec
  dropping := h.dropping
  source := h.source
  schedule := h.schedule
  rack := h.rack ▸ Rack.Alike.refl _
  journal := by rw [h.rack, List.nil_append]
  entries := by simp
  silent hs := ⟨h.callbacks.symm ▸ hs, by simp⟩

theorem interval_note (s : Sender) (e : Event) (he : P e) (hnested : e.isNested = false) :
    Interval P s (s.note e) [e] where
  registry := rfl
  slot := rfl
  codec := rfl
  dropping := rfl
  source := rfl
  schedule := (s.plan.schedule.heed_cons_of_not_nested e [] hnested).symm
  rack := s.rack.note_alike e
  journal := rfl
  entries := by simpa using he
  silent hs := ⟨hs, by simpa using hnested⟩

theorem interval_rate (s : Sender) (rate : RateController) (c : RateCall) (hc : P (.rate c)) :
    Interval P s ({ s with rate := rate }.note (.rate c)) [.rate c] := by
  have hsame := Interval.of_same P s { s with rate := rate }
    ⟨rfl, rfl, rfl, rfl, rfl, rfl, rfl, rfl⟩
  exact hsame.trans (interval_note _ (.rate c) hc rfl)

theorem regulate_interval (s : Sender) (report : Feedback) :
    ∃ new, Interval Event.Beside s (s.regulate report).1 new :=
  ⟨_, (s.interval_rate _ (.fed _ _ _ _) trivial).trans
    (interval_rate _ _ (.frameRate _) trivial)⟩

theorem keepRates_interval (s : Sender) (rates : RateParameters) :
    ∃ new, Interval Event.Beside s (s.keepRates rates).1 new :=
  ⟨_, Interval.of_same _ s _ ⟨rfl, rfl, rfl, rfl, rfl, rfl, rfl, rfl⟩⟩

theorem report_interval (s : Sender) :
    ∃ new, Interval (fun e => e.Beside ∧ e.isFed = false) s s.report.1 new := by
  unfold report
  split
  · exact ⟨_, ((s.interval_rate _ (.sentBitrate _) ⟨trivial, rfl⟩).trans
      (interval_rate _ _ (.sentFrameRate _) ⟨trivial, rfl⟩)).trans
        (interval_note _ (.statistics _ _) ⟨trivial, rfl⟩ rfl)⟩
  · exact ⟨_, Interval.refl _ _⟩

theorem tick_interval (s : Sender) :
    ∃ new, Interval (fun e => e.Beside ∧ e.isFed = false) s s.tick.1 new := by
  have hreport : ∃ new, Interval (fun e => e.Beside ∧ e.isFed = false) s
      (if s.untilDue = 0 then { s with timer := s.timer.restart s.now }.report
        else (s, none)).1 new := by
    split
    · obtain ⟨new, h⟩ := report_interval { s with timer := s.timer.restart s.now }
      have hrestarted := Interval.of_same (fun e => e.Beside ∧ e.isFed = false) s
        { s with timer := s.timer.restart s.now } ⟨rfl, rfl, rfl, rfl, rfl, rfl, rfl, rfl⟩
      exact ⟨_, hrestarted.trans h⟩
    · exact ⟨_, Interval.refl _ _⟩
  obtain ⟨new, h⟩ := hreport
  exact ⟨_, (h.trans (interval_rate _ _ (.frameRate _) ⟨trivial, rfl⟩)).trans
    (Interval.of_same _ _ _ ⟨rfl, rfl, rfl, rfl, rfl, rfl, rfl, rfl⟩)⟩

/-- A key frame request marks its stream and does nothing else. -/
theorem markKey_fst (s : Sender) (i : Nat) :
    (s.markKey i).1 = s.storeSchedule (s.plan.schedule.mark i) := by
  unfold markKey
  rw [Schedule.requestKey_eq]
  by_cases h : i < s.plan.schedule.size
  · simp [h]
  · simp [h, Schedule.mark_of_size_le _ _ (Nat.le_of_not_lt h), storeSchedule]

theorem begin_interval (s : Sender) (c : Call) (h : ∀ i, c ≠ .requestKey i) :
    ∃ new, Interval Event.Beside s (s.begin c).1 new := by
  cases c with
  | requestKey i => exact absurd rfl (h i)
  | feedback report =>
      obtain ⟨first, hfirst⟩ := s.regulate_interval report
      obtain ⟨second, hsecond⟩ := keepRates_interval _ (s.regulate report).2
      exact ⟨_, hfirst.trans hsecond⟩
  | _ => exact ⟨_, Interval.refl _ _⟩

/-- Before it has the encoder a call marks a stream, or is busy beside the
encoder. -/
theorem begin_cases (s : Sender) (c : Call) :
    (∃ i, c = .requestKey i ∧ (s.begin c).1 = s.storeSchedule (s.plan.schedule.mark i)) ∨
      (∀ i, c ≠ .requestKey i) ∧ ∃ new, Interval Event.Beside s (s.begin c).1 new := by
  by_cases hrequest : ∃ i, c = .requestKey i
  · obtain ⟨i, rfl⟩ := hrequest
    exact Or.inl ⟨i, rfl, s.markKey_fst i⟩
  · have hother : ∀ i, c ≠ .requestKey i := fun i hc => hrequest ⟨i, hc⟩
    exact Or.inr ⟨hother, s.begin_interval c hother⟩

theorem actInside_call_fst (s : Sender) (c : Call) :
    (s.actInside (.call c)).1 = (s.begin c).1 := by
  simp only [actInside]
  split <;> rename_i h <;> rw [h]

/-- Anything done to a sender other than a call. None of it reports the network. -/
theorem aside_interval (s : Sender) (a : Action) (h : ∀ c, a ≠ .call c) :
    ∃ new, Interval (fun e => e.Beside ∧ e.isFed = false) s (s.actInside a).1 new := by
  cases a with
  | call c => exact absurd rfl (h c)
  | tick => exact s.tick_interval
  | setFaults n patch =>
      simp only [actInside]
      split
      · exact ⟨[], ⟨rfl, rfl, rfl, rfl, rfl, rfl, Rack.setFaults_alike _ _ _, rfl, by simp⟩,
          fun hs => ⟨hs, by simp⟩⟩
      · exact ⟨_, Interval.refl _ _⟩
  | _ => exact ⟨_, Interval.of_same _ s _ ⟨rfl, rfl, rfl, rfl, rfl, rfl, rfl, rfl⟩⟩

/-- Anything done to a sender other than a call, or a call that only begins. -/
theorem actInside_interval (s : Sender) (a : Action) (h : ∀ i, a ≠ .call (.requestKey i)) :
    ∃ new, Interval Event.Beside s (s.actInside a).1 new := by
  by_cases hcall : ∃ c, a = .call c
  · obtain ⟨c, rfl⟩ := hcall
    rw [actInside_call_fst]
    exact s.begin_interval c (fun i hc => h i (hc ▸ rfl))
  · obtain ⟨new, haside⟩ := s.aside_interval a fun c hc => hcall ⟨c, hc⟩
    exact ⟨new, haside.mono fun _ he => he.1⟩

/-- One instruction of a callback, with the entry that says it was followed. A
request is heeded through that entry. -/
theorem followInside_stretch (s : Sender) (i : Instruction) :
    ∃ new, Stretch Event.Beside s
      ((s.followInside i).1.note (.nested i (s.followInside i).2)) new := by
  cases i with
  | act a =>
      by_cases hrequest : ∃ stream, a = .call (.requestKey stream)
      · obtain ⟨stream, rfl⟩ := hrequest
        refine ⟨[.nested (.act (.call (.requestKey stream)))
          (s.followInside (.act (.call (.requestKey stream)))).2], ?_⟩
        have hfst : (s.followInside (.act (.call (.requestKey stream)))).1 =
            s.storeSchedule (s.plan.schedule.mark stream) :=
          (s.actInside_call_fst _).trans (s.markKey_fst stream)
        rw [hfst]
        exact ⟨rfl, rfl, rfl, rfl, rfl, rfl, s.rack.note_alike _, rfl,
          by simp [Event.Beside]⟩
      · obtain ⟨new, h⟩ := s.actInside_interval a (fun stream ha => hrequest ⟨stream, ha⟩)
        have hschedule : ∀ (reply : Reply) (t : Schedule),
            t.heed [.nested (.act a) reply] = t := by
          intro reply t
          rcases t.heed_cons_cases (.nested (.act a) reply) [] with hsame | ⟨stream, _, he, _⟩
          · exact hsame
          · simp only [Event.nested.injEq, Instruction.act.injEq] at he
            exact absurd ⟨stream, he.1⟩ hrequest
        refine ⟨[.nested (.act a) (s.actInside a).2] ++ new, h.toStretch.trans ?_⟩
        exact ⟨rfl, rfl, rfl, rfl, rfl, (hschedule _ _).symm, Rack.note_alike _ _, rfl,
          by simp [Event.Beside]⟩
  | onEncode n instructions =>
      refine ⟨[.nested (.onEncode n instructions) (s.setOnEncode n instructions).2], ?_⟩
      simp only [followInside, setOnEncode]
      split <;> exact ⟨rfl, rfl, rfl, rfl, rfl, rfl, s.rack.note_alike _, rfl,
        by simp [Event.Beside]⟩
  | onImage instructions =>
      exact ⟨[.nested (.onImage instructions) .done], rfl, rfl, rfl, rfl, rfl, rfl,
        s.rack.note_alike _, rfl, by simp [Event.Beside]⟩

theorem runCallback_stretch (s : Sender) (instructions : List Instruction) :
    ∃ new, Stretch Event.Beside s (s.runCallback instructions) new := by
  induction instructions generalizing s with
  | nil => exact ⟨_, Stretch.refl _ _⟩
  | cons i rest ih =>
      obtain ⟨first, hfirst⟩ := s.followInside_stretch i
      obtain ⟨others, hothers⟩ := ih ((s.followInside i).1.note (.nested i (s.followInside i).2))
      exact ⟨_, hfirst.trans hothers⟩

theorem onImage_interval (s : Sender) :
    ∃ new, Interval Event.Beside s (s.runCallback s.callbacks.onImage) new := by
  by_cases hs : s.callbacks.Silent
  · rw [hs.2]
    exact ⟨_, Interval.refl _ _⟩
  · obtain ⟨new, h⟩ := s.runCallback_stretch s.callbacks.onImage
    exact ⟨new, h, fun hsilent => absurd hsilent hs⟩

theorem interrupt_interval (s : Sender) (n : Nat) :
    ∃ new, Interval Event.Beside s (s.interrupt n) new := by
  unfold interrupt
  split
  · exact ⟨_, Interval.refl _ _⟩
  · rename_i instructions hne
    obtain ⟨new, h⟩ := s.runCallback_stretch (s.callbacks.onEncode n)
    refine ⟨new, ⟨h.registry, h.slot, h.codec, h.dropping, h.source, h.schedule, h.rack,
      h.journal, h.entries⟩, ?_⟩
    intro hs
    exact absurd (hs.1 n) hne

end Sender

end Simulcast
