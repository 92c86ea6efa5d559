import Mathlib.Data.List.Induction
import Simulcast.Proofs.Sender.Passage
import Simulcast.Sender.Traffic

/-!
Calls of several threads, and the copies of the plan they carry. Whatever the
order of the sections, the sender stays coherent. A submission under way holds
a copy taken when it was made; unless the generation has gone once around its
64 bits since, a copy with the generation of the live schedule was taken after
the last registration, and so it is for as many streams.
-/

namespace Simulcast

namespace Sender

variable {s s' s'' : Sender}

/-- From `s` to `s'` registrations and encode calls only add up, and as long as
there is no further registration the number of streams stays. -/
structure Later (s s' : Sender) : Prop where
  registrations : registrations s.rack.journal ≤ registrations s'.rack.journal
  encodings : encodings s.rack.journal ≤ encodings s'.rack.journal
  size : Simulcast.registrations s'.rack.journal = Simulcast.registrations s.rack.journal →
    s'.plan.schedule.size = s.plan.schedule.size

theorem Later.refl (s : Sender) : s.Later s := ⟨Nat.le_refl _, Nat.le_refl _, fun _ => rfl⟩

theorem Later.trans (h : s.Later s') (h' : s'.Later s'') : s.Later s'' where
  registrations := Nat.le_trans h.registrations h'.registrations
  encodings := Nat.le_trans h.encodings h'.encodings
  size heq := by
    have h1 := h.registrations
    have h2 := h'.registrations
    rw [h'.size (by omega), h.size (by omega)]

theorem Stretch.later {P : Event → Prop} {new : List Event} (h : Stretch P s s' new) :
    s.Later s' where
  registrations := by
    rw [h.journal, registrations_append]
    omega
  encodings := by
    rw [h.journal, encodings_append]
    omega
  size _ := by rw [h.schedule, Schedule.heed_size]

theorem storeSchedule_later (s : Sender) (schedule : Schedule)
    (hsize : schedule.size = s.plan.schedule.size) : s.Later (s.storeSchedule schedule) :=
  ⟨Nat.le_refl _, Nat.le_refl _, fun _ => hsize⟩

theorem Passage.later {C : EncoderCall → Prop} (h : Passage C s s') : s.Later s' := by
  induction h with
  | stretch h => exact h.later
  | settled h _ carried => exact h.later.trans (storeSchedule_later _ _ (by simp))
  | served h _ _ i => exact h.later.trans (storeSchedule_later _ _ (by simp))
  | registered h _ =>
      obtain ⟨new, hjournal, _⟩ := h.journal
      refine ⟨?_, ?_, fun heq => ?_⟩
      · rw [h.registrations]
        omega
      · rw [hjournal, encodings_append]
        omega
      · rw [h.registrations] at heq
        omega
  | unregistered h _ =>
      obtain ⟨new, hjournal, _⟩ := h.journal
      refine ⟨Nat.le_of_eq h.registrations.symm, ?_, fun _ => by rw [h.schedule]⟩
      rw [hjournal, encodings_append]
      omega
  | after h _ ih => exact h.later.trans ih
  | marked i _ ih => exact (storeSchedule_later _ _ (by simp)).trans ih

/-- As long as no codec is registered, an encoder that is in the slot stays or
is given up. -/
theorem Passage.slot_of_eq {C : EncoderCall → Prop} (h : Passage C s s')
    (hregistrations : registrations s'.rack.journal = registrations s.rack.journal) :
    s'.codec = s.codec ∧ (s'.slot = s.slot ∨ s'.slot = none) := by
  induction h with
  | stretch h => exact ⟨h.codec, Or.inl h.slot⟩
  | settled h _ _ => exact ⟨h.codec, Or.inl h.slot⟩
  | served h _ _ _ => exact ⟨h.codec, Or.inl h.slot⟩
  | registered h _ =>
      rw [h.registrations] at hregistrations
      omega
  | unregistered h _ => exact ⟨h.codec, h.slot⟩
  | after h _ ih =>
      have hfirst := h.registrations fun _ he => he.routine
      obtain ⟨hcodec, hslot⟩ := ih (hregistrations.trans hfirst.symm)
      rw [h.codec] at hcodec
      rw [h.slot] at hslot
      exact ⟨hcodec, hslot⟩
  | marked i _ ih => exact ih hregistrations

/-- `copy` was taken when `stamp` registrations had succeeded. -/
structure Took (s : Sender) (stamp : Nat) (copy : Plan) : Prop where
  generation : copy.schedule.generation = UInt64.ofNat stamp
  le : stamp ≤ registrations s.rack.journal
  size : stamp = registrations s.rack.journal → copy.schedule.size = s.plan.schedule.size

theorem Coherent.took (hs : s.Coherent) : s.Took (registrations s.rack.journal) s.plan :=
  ⟨hs.generation, Nat.le_refl _, fun _ => rfl⟩

theorem Took.later {stamp : Nat} {copy : Plan} (h : s.Took stamp copy) (hlater : s.Later s') :
    s'.Took stamp copy where
  generation := h.generation
  le := Nat.le_trans h.le hlater.registrations
  size heq := by
    have hle := h.le
    have hle' := hlater.registrations
    rw [hlater.size (by omega), h.size (by omega)]

/-- Generations differ from one registration to the next, until they have gone
around. -/
theorem ofNat_eq_iff_of_lt {stamp now : Nat} (hle : stamp ≤ now) (hlt : now < stamp + UInt64.size) :
    UInt64.ofNat now = UInt64.ofNat stamp ↔ now = stamp := by
  constructor
  · intro h
    have hmod : now % UInt64.size = stamp % UInt64.size := by
      simpa using congrArg UInt64.toNat h
    simp only [UInt64.size] at hlt hmod
    omega
  · rintro rfl
    rfl

/-- A copy with the generation of the live schedule was taken since the last
registration. -/
theorem Took.stamp_eq {stamp : Nat} {copy : Plan} (h : s.Took stamp copy) (hs : s.Coherent)
    (hrecent : registrations s.rack.journal < stamp + UInt64.size) :
    s.plan.schedule.generation = copy.schedule.generation ↔
      registrations s.rack.journal = stamp := by
  rw [hs.generation, h.generation]
  exact ofNat_eq_iff_of_lt h.le hrecent

end Sender

namespace Traffic

variable {t : Traffic}

theorem run_append (t : Traffic) (moves more : List Move) :
    t.run (moves ++ more) = (t.run moves).run more :=
  List.foldl_append

theorem run_snoc (t : Traffic) (moves : List Move) (move : Move) :
    t.run (moves ++ [move]) = (t.run moves).step move := by
  rw [run_append]
  rfl

theorem enter_cases (s : Sender) (c : Call) :
    (∃ report, c = .feedback report ∧
        s.enter c = ((s.regulate report).1, .regulated (s.regulate report).2)) ∨
      s.enter c = ((s.begin c).1, .reached (s.begin c).2) := by
  cases c with
  | feedback report => exact Or.inl ⟨report, rfl, rfl⟩
  | _ => exact Or.inr rfl

/-- A call that waits for the encoder after its first section is not feedback,
which has another section to do before. -/
theorem enter_waits {s : Sender} {c : Call} {stage : EncoderStage}
    (h : (s.enter c).2 = .reached (.waits stage)) :
    (s.enter c).1 = (s.begin c).1 ∧ (s.begin c).2 = .waits stage := by
  rcases enter_cases s c with ⟨report, rfl, heq⟩ | heq
  · simp [heq] at h
  · rw [heq] at h ⊢
    exact ⟨rfl, Leg.reached.inj h⟩

/-- Of later sections only that of feedback leaves a call waiting for the
encoder. -/
theorem proceed_waits {s : Sender} {leg : Leg} {stage : EncoderStage}
    (h : (s.proceed leg).2 = .reached (.waits stage)) :
    ∃ rates, leg = .regulated rates ∧ stage = .pushRates rates ∧
      s.plan.internalSource = true := by
  cases leg with
  | regulated rates =>
      simp only [Sender.proceed, Sender.keepRates] at h
      split at h
      · rename_i hsource
        obtain rfl := Progress.waits.inj (Leg.reached.inj h)
        exact ⟨rates, rfl, rfl, hsource⟩
      · simp at h
  | reached progress => simp [Sender.proceed] at h

theorem enter_passage (C : EncoderCall → Prop) (s : Sender) (c : Call) :
    Sender.Passage C s (s.enter c).1 := by
  rcases enter_cases s c with ⟨report, rfl, heq⟩ | heq
  · rw [heq]
    obtain ⟨new, h⟩ := s.regulate_interval report
    exact h.toStretch.passage
  · rw [heq]
    exact s.begin_passage c

/-- The calls on the encoder in the slot that a step may make. -/
def StepCall (t : Traffic) (move : Move) (c : EncoderCall) : Prop :=
  match move with
  | .enter _ => False
  | .proceed n =>
      ∃ progress, t.calls[n]? = some (.reached progress) ∧ t.sender.ProgressCall progress c
  | .follow i => ∃ a, i = .act a ∧ t.sender.ActionCall a c

theorem step_passage (ht : t.sender.Coherent) (move : Move) :
    Sender.Passage (t.StepCall move) t.sender (t.step move).sender := by
  cases move with
  | enter c => exact enter_passage _ t.sender c
  | proceed n =>
      cases hleg : t.calls[n]? with
      | none =>
          simp only [step, hleg]
          exact Sender.Passage.refl _ _
      | some leg =>
          simp only [step, hleg]
          cases leg with
          | regulated rates =>
              obtain ⟨new, h⟩ := t.sender.keepRates_interval rates
              exact h.toStretch.passage
          | reached progress =>
              exact (Sender.finish_passage ht progress).mono fun _ hc => ⟨progress, hleg, hc⟩
  | follow i => exact Sender.follow_passage ht i

theorem step_coherent (ht : t.sender.Coherent) (move : Move) : (t.step move).sender.Coherent :=
  (step_passage ht move).coherent ht

theorem step_later (ht : t.sender.Coherent) (move : Move) :
    t.sender.Later (t.step move).sender :=
  (step_passage ht move).later

/-- Every order of sections keeps the sender coherent. -/
theorem run_coherent (ht : t.sender.Coherent) (moves : List Move) :
    (t.run moves).sender.Coherent := by
  induction moves generalizing t with
  | nil => exact ht
  | cons move rest ih => exact ih (step_coherent ht move)

theorem run_later (ht : t.sender.Coherent) (moves : List Move) :
    t.sender.Later (t.run moves).sender := by
  induction moves generalizing t with
  | nil => exact Sender.Later.refl _
  | cons move rest ih => exact (step_later ht move).trans (ih (step_coherent ht move))

/-- How many registrations had succeeded when each of the calls was made. -/
def stamps (t : Traffic) : List Move → List Nat
  | [] => []
  | .enter c :: rest =>
      registrations t.sender.rack.journal :: (t.step (.enter c)).stamps rest
  | move :: rest => (t.step move).stamps rest

def stamp (t : Traffic) : Move → List Nat
  | .enter _ => [registrations t.sender.rack.journal]
  | _ => []

theorem stamps_cons (t : Traffic) (move : Move) (rest : List Move) :
    t.stamps (move :: rest) = t.stamp move ++ (t.step move).stamps rest := by
  cases move <;> rfl

theorem stamps_append (t : Traffic) (moves more : List Move) :
    t.stamps (moves ++ more) = t.stamps moves ++ (t.run moves).stamps more := by
  induction moves generalizing t with
  | nil => rfl
  | cons first rest ih =>
      rw [List.cons_append, stamps_cons, ih, stamps_cons, List.append_assoc]
      rfl

theorem stamps_snoc (t : Traffic) (moves : List Move) (move : Move) :
    t.stamps (moves ++ [move]) = t.stamps moves ++ (t.run moves).stamp move := by
  rw [stamps_append, stamps_cons, stamps, List.append_nil]

/-- Every copy under way bears the stamp of the call that took it. -/
structure Stamped (t : Traffic) (stamps : List Nat) : Prop where
  length : stamps.length = t.calls.length
  took : ∀ (n stamp : Nat) (frame : Frame) (info : Option SideInfo) (copy : Plan),
    stamps[n]? = some stamp →
    t.calls[n]? = some (Leg.reached (.waits (.encode frame info copy))) →
    t.sender.Took stamp copy

theorem enter_copy {s : Sender} {c : Call} {frame : Frame} {info : Option SideInfo} {copy : Plan}
    (h : (s.enter c).2 = .reached (.waits (.encode frame info copy))) :
    copy = s.plan ∧ (s.enter c).1 = s := by
  obtain ⟨heq, hbegin⟩ := enter_waits h
  rw [heq]
  exact (Sender.begin_encode hbegin).2

theorem proceed_no_copy (s : Sender) (leg : Leg) (frame : Frame) (info : Option SideInfo)
    (copy : Plan) : (s.proceed leg).2 ≠ .reached (.waits (.encode frame info copy)) := by
  intro h
  obtain ⟨_, _, heq, _⟩ := proceed_waits h
  exact EncoderStage.noConfusion heq

theorem step_stamped {stamps : List Nat} (ht : t.sender.Coherent) (h : t.Stamped stamps)
    (move : Move) : (t.step move).Stamped (stamps ++ t.stamp move) := by
  have hlater := step_later ht move
  cases move with
  | enter c =>
      refine ⟨by simp [step, stamp, h.length], ?_⟩
      intro n m frame info copy hstamp hcall
      simp only [stamp] at hstamp
      simp only [step] at hcall
      rcases Nat.lt_trichotomy n stamps.length with hlt | heq | hgt
      · rw [List.getElem?_append_left hlt] at hstamp
        rw [List.getElem?_append_left (h.length ▸ hlt)] at hcall
        exact (h.took n m frame info copy hstamp hcall).later hlater
      · rw [heq, List.getElem?_append_right (Nat.le_refl _)] at hstamp
        rw [heq, List.getElem?_append_right (Nat.le_of_eq h.length.symm)] at hcall
        simp only [Nat.sub_self, List.getElem?_cons_zero, Option.some.injEq] at hstamp
        simp only [h.length, Nat.sub_self, List.getElem?_cons_zero, Option.some.injEq] at hcall
        obtain ⟨hcopy, _⟩ := enter_copy hcall
        rw [← hstamp, hcopy]
        exact ht.took.later hlater
      · rw [List.getElem?_eq_none (by simpa [Nat.add_one_le_iff] using hgt)] at hstamp
        simp at hstamp
  | proceed k =>
      simp only [stamp, List.append_nil]
      cases hleg : t.calls[k]? with
      | none =>
          have heq : t.step (.proceed k) = t := by simp [step, hleg]
          rwa [heq]
      | some leg =>
          have heq : t.step (.proceed k) =
              ⟨(t.sender.proceed leg).1, t.calls.set k (t.sender.proceed leg).2⟩ := by
            simp [step, hleg]
          rw [heq] at hlater ⊢
          refine ⟨by simp [h.length], ?_⟩
          intro n m frame info copy hstamp hcall
          by_cases hkn : k = n
          · subst hkn
            have hlt : k < t.calls.length := (List.getElem?_eq_some_iff.mp hleg).1
            simp only [List.getElem?_set_self hlt, Option.some.injEq] at hcall
            exact absurd hcall (proceed_no_copy _ _ _ _ _)
          · simp only [List.getElem?_set_ne hkn] at hcall
            exact (h.took n m frame info copy hstamp hcall).later hlater
  | follow i =>
      simp only [stamp, List.append_nil]
      exact ⟨h.length, fun n m frame info copy hstamp hcall =>
        (h.took n m frame info copy hstamp hcall).later hlater⟩

/-- Every copy under way in a run bears the stamp of the call that took it. -/
theorem run_stamped {s : Sender} (hs : s.Coherent) (moves : List Move) :
    (run { sender := s } moves).Stamped (stamps { sender := s } moves) := by
  -- From the end: the stamp of a move is read off the run before it.
  induction moves using List.reverseRecOn with
  | nil => exact ⟨rfl, by simp [run]⟩
  | append_singleton moves move ih =>
      rw [run_snoc, stamps_snoc]
      exact step_stamped (run_coherent hs moves) ih move

end Traffic

end Simulcast
