import Mathlib.Data.List.Basic
import Simulcast.Proofs.Traffic.Agreement
import Simulcast.Proofs.Traffic.Pending

/-!
What becomes of the entry of one stream in the schedule, section by section and
then move by move. A move that serves the stream leaves no key frame wanted
there, whatever was asked for meanwhile. A move that does not serve it but
raises it, by a registration or by a request, leaves one wanted. All other
moves leave the entry alone.
-/

namespace Simulcast

/-- Entries that are equal are both there or both missing. -/
theorem Schedule.lt_size_of_get?_eq {s s' : Schedule} {i : Nat} (h : s'.get? i = s.get? i)
    (hi : i < s'.size) : i < s.size := by
  have hentry : s'.get? i = some s'.kinds[i] := List.getElem?_eq_getElem hi
  exact lt_size_of_get? (h.symm.trans hentry)

namespace Sender

variable {s s' mid : Sender} {i j : Nat} {P : Event → Prop} {new : List Event}

/-- Inside a callback on the way to `s'` a key frame of stream `i` is asked
for. -/
def AskedInside (s s' : Sender) (i : Nat) : Prop :=
  ∃ reply, .nested (.act (.call (.requestKey i))) reply ∈
    entriesSince s.rack.journal s'.rack.journal

/-- On the way to `s'` an encoder took a request. -/
def TookRequest (s s' : Sender) : Prop :=
  ∃ n kinds, .answered n (.request kinds) none ∈ entriesSince s.rack.journal s'.rack.journal

/-- The stage serves stream `i`: it encodes a frame with a key frame there, or
the encoder takes a request that was made for the stream. -/
def ServesBy (s : Sender) (stage : EncoderStage) (i : Nat) : Prop :=
  match stage with
  | .encode frame info copy =>
      ∃ kinds, (s.encode frame info copy).2 = .ok (.encoded kinds) ∧ kinds[i]? = some .key
  | .pullKey j => j = i ∧ s.TookRequest (s.pullKey j).1
  | _ => False

/-- What becomes of the entry of stream `i` on the way to `s'`, on which it may
be raised, served, or both. -/
structure Fares (s s' : Sender) (i : Nat) (raises serves : Prop) : Prop where
  served : serves → s'.plan.schedule.get? i ≠ some .key
  raised : raises → ¬ serves → i < s'.plan.schedule.size → s'.plan.schedule.get? i = some .key
  kept : ¬ raises → ¬ serves → s'.plan.schedule.get? i = s.plan.schedule.get? i

theorem Fares.refl (s : Sender) (i : Nat) : s.Fares s i (s.AskedInside s i) False where
  served h := h.elim
  raised := by
    rintro ⟨reply, hmem⟩
    simp [entriesSince_self] at hmem
  kept _ _ := rfl

theorem Fares.trans {raises raises' serves : Prop} (h : s.Fares mid i raises False)
    (h' : mid.Fares s' i raises' serves) : s.Fares s' i (raises ∨ raises') serves where
  served := h'.served
  raised := by
    intro hraised hserved hi
    by_cases hraises' : raises'
    · exact h'.raised hraises' hserved hi
    · have hkept := h'.kept hraises' hserved
      have hlt : i < mid.plan.schedule.size := Schedule.lt_size_of_get?_eq hkept hi
      exact hkept.trans (h.raised (hraised.resolve_right hraises') id hlt)
  kept := by
    intro hraised hserved
    rw [not_or] at hraised
    exact (h'.kept hraised.2 hserved).trans (h.kept hraised.1 id)

theorem Fares.unserved {raises serves : Prop} (h : s.Fares s' i raises False)
    (hserves : ¬ serves) : s.Fares s' i raises serves :=
  ⟨fun hserved => absurd hserved hserves, fun hraised _ => h.raised hraised id,
    fun hraised _ => h.kept hraised id⟩

theorem mark_fares (s : Sender) (j i : Nat) :
    s.Fares (s.storeSchedule (s.plan.schedule.mark j)) i (j = i) False where
  served h := h.elim
  raised := by
    rintro rfl _ hi
    exact Schedule.get?_mark_self _ _ (by simpa [storeSchedule] using hi)
  kept hne _ := Schedule.get?_mark_of_ne _ _ _ hne

theorem Stretch.fares (h : Stretch P s s' new) (i : Nat) :
    s.Fares s' i (s.AskedInside s' i) False := by
  have hsince : entriesSince s.rack.journal s'.rack.journal = new := by
    rw [h.journal, entriesSince_append]
  refine ⟨False.elim, ?_, ?_⟩
  · intro hasked _ hi
    exact h.get?_of_asked rfl (Or.inr hasked) hi
  · intro hasked _
    rw [h.schedule]
    apply Schedule.get?_heed_of_not_mem
    intro reply hmem
    exact hasked ⟨reply, hsince ▸ hmem⟩

theorem Registered.fares {codec : Codec} {maxPayload : Nat}
    (h : s.Registered s' codec maxPayload) (i : Nat) {raises : Prop} (hraises : raises) :
    s.Fares s' i raises False := by
  refine ⟨False.elim, fun _ _ hi => ?_, fun hno => absurd hraises hno⟩
  rw [h.schedule] at hi ⊢
  have hlt : i < max 1 codec.streamCount := by simpa using hi
  simp [Schedule.get?, hlt]

theorem Unregistered.fares (h : s.Unregistered s') (i : Nat) :
    s.Fares s' i (s.AskedInside s' i) False := by
  obtain ⟨new, hjournal, hnew⟩ := h.journal
  refine ⟨False.elim, ?_, ?_⟩
  · rintro ⟨reply, hmem⟩
    rw [hjournal, entriesSince_append] at hmem
    exact (hnew _ hmem).elim
  · intro _ _
    rw [h.schedule]

/-- A section that ends with a change of the schedule, which lowers the entry of
stream `i` if the stream is served and leaves it alone otherwise. -/
theorem Fares.settle {raises serves : Prop} {schedule : Schedule}
    (h : s.Fares mid i raises False) (hsize : schedule.size = mid.plan.schedule.size)
    (hserved : serves → schedule.get? i ≠ some .key)
    (hkept : ¬ serves → schedule.get? i = mid.plan.schedule.get? i) :
    s.Fares (mid.storeSchedule schedule) i raises serves where
  served := hserved
  raised hraised hno hi := by
    have hlt : i < mid.plan.schedule.size := hsize ▸ hi
    exact (hkept hno).trans (h.raised hraised id hlt)
  kept hraised hno := (hkept hno).trans (h.kept hraised id)

theorem encode_fares (s : Sender) (frame : Frame) (info : Option SideInfo) (copy : Plan)
    (i : Nat) :
    s.Fares (s.encode frame info copy).1 i (s.AskedInside (s.encode frame info copy).1 i)
      (s.ServesBy (.encode frame info copy) i) := by
  obtain ⟨mid, new, hmid, _, ⟨hafter, _, hfailed⟩ | ⟨hafter, _, hresult⟩⟩ :=
    s.encode_end frame info copy
  · rw [hafter]
    refine (hmid.fares i).unserved ?_
    rintro ⟨kinds, hdone, _⟩
    exact hfailed kinds hdone
  · have hserves : s.ServesBy (.encode frame info copy) i ↔
        (s.currentPlan copy).schedule.kinds[i]? = some .key := by
      simp [ServesBy, hresult]
    have hgeneration : mid.plan.schedule.generation =
        (s.currentPlan copy).schedule.generation := by
      rw [hmid.schedule, Schedule.heed_generation, currentPlan_generation]
    rw [hserves, hafter]
    refine (hmid.fares i).settle (Schedule.clearSatisfied_size _ _) ?_ ?_
    · intro hkey
      rw [ne_eq, Schedule.get?_clearSatisfied_eq_key_iff _ _ _ hgeneration]
      exact fun hstays => hstays.2 hkey
    · exact Schedule.get?_clearSatisfied_of_ne _ _ _

theorem pullKey_fares (s : Sender) (j i : Nat) :
    s.Fares (s.pullKey j).1 i (s.AskedInside (s.pullKey j).1 i) (s.ServesBy (.pullKey j) i) := by
  rcases s.pullKey_end j with
    heq | ⟨slot, mid, new, _, _, hj, ⟨hmid, heq⟩ | ⟨hmid, heq, rest, hnew⟩⟩
  · rw [ServesBy, heq]
    refine (Fares.refl s i).unserved ?_
    rintro ⟨_, n, kinds, hmem⟩
    simp [entriesSince_self] at hmem
  · rw [ServesBy, heq]
    refine (hmid.fares i).unserved ?_
    rintro ⟨_, n, kinds, hmem⟩
    rw [hmid.journal, entriesSince_append] at hmem
    exact (hmid.entries _ hmem).2.2 rfl
  · have htook : s.TookRequest (mid.storeSchedule (mid.plan.schedule.serve j)) := by
      refine ⟨slot.encoder, s.plan.schedule.kinds, ?_⟩
      show _ ∈ entriesSince s.rack.journal mid.rack.journal
      rw [hmid.journal, entriesSince_append, hnew]
      exact List.mem_cons_self
    have hlt : j < mid.plan.schedule.size := by rwa [hmid.schedule, Schedule.heed_size]
    rw [ServesBy, heq]
    refine (hmid.fares i).settle (Schedule.serve_size _ _) ?_ ?_
    · rintro ⟨rfl, _⟩
      rw [Schedule.get?_serve_self _ _ hlt]
      simp
    · intro hno
      exact Schedule.get?_serve_of_ne _ _ _ fun hij => hno ⟨hij, htook⟩

/-- Of the stages only a registration that succeeds raises a stream otherwise
than from inside a callback. -/
theorem runStage_fares (hs : s.Coherent) (stage : EncoderStage) (i : Nat) :
    s.Fares (s.runStage stage).1 i
      (s.stageAccepts? stage ≠ none ∨ s.AskedInside (s.runStage stage).1 i)
      (s.ServesBy stage i) := by
  have hinside : ∀ {stage : EncoderStage} {serves : Prop}, s.stageAccepts? stage = none →
      s.Fares (s.runStage stage).1 i (s.AskedInside (s.runStage stage).1 i) serves →
      s.Fares (s.runStage stage).1 i
        (s.stageAccepts? stage ≠ none ∨ s.AskedInside (s.runStage stage).1 i) serves := by
    intro stage serves hnone hfares
    rwa [or_iff_right (not_not_intro hnone)]
  cases stage with
  | encode frame info copy => exact hinside rfl (s.encode_fares frame info copy i)
  | pullKey j => exact hinside rfl (s.pullKey_fares j i)
  | pushRates rates =>
      refine hinside rfl ?_
      rcases s.pushRates_end rates with ⟨_, heq⟩ | ⟨slot, new, _, hpush⟩
      · show s.Fares (s.pushRates rates).1 i (s.AskedInside (s.pushRates rates).1 i) False
        rw [heq]
        exact .refl s i
      · exact hpush.toStretch.fares i
  | register codec cores maxPayload =>
      obtain ⟨_, ⟨hregistered, hdone⟩ | ⟨hunregistered, hfailed⟩⟩ :=
        register_end hs codec cores maxPayload
      · refine hregistered.fares i (Or.inl ?_)
        simp [stageAccepts?, accepts?, hdone]
      · refine hinside ?_ (hunregistered.fares i)
        simp [stageAccepts?, accepts?, hfailed]
  | attach payloadType internalSource choice =>
      exact hinside rfl ((attach_end hs payloadType internalSource choice).2.fares i)
  | detach payloadType => exact hinside rfl ((detach_end hs payloadType).2.fares i)
  | enableDropping on => exact hinside rfl ((enableDropping_end hs on).2.fares i)

/-- Of what a call does first only a request raises a stream, its own. -/
theorem begin_fares (s : Sender) (c : Call) (i : Nat) :
    s.Fares (s.begin c).1 i (c = .requestKey i ∨ s.AskedInside (s.begin c).1 i) False := by
  rcases s.begin_cases c with ⟨j, rfl, hmarked⟩ | ⟨hother, new, hbegin⟩
  · rw [hmarked, Call.requestKey.injEq]
    exact (s.mark_fares j i).trans (Fares.refl _ i)
  · rw [or_iff_right (hother i)]
    exact hbegin.toStretch.fares i

theorem finish_fares (hs : s.Coherent) (progress : Progress) (i : Nat) :
    s.Fares (s.finish progress).1 i
      (s.progressAccepts? progress ≠ none ∨ s.AskedInside (s.finish progress).1 i)
      (∃ stage, progress = .waits stage ∧ s.ServesBy stage i) := by
  cases progress with
  | waits stage =>
      have hserves : (∃ stage', Progress.waits stage = .waits stage' ∧ s.ServesBy stage' i) ↔
          s.ServesBy stage i := by
        simp
      rw [hserves]
      exact runStage_fares hs stage i
  | finished reply =>
      have hnone : s.progressAccepts? (.finished reply) = none := rfl
      rw [or_iff_right (not_not_intro hnone)]
      exact (Fares.refl s i).unserved (by simp)

/-- Callbacks on the way to `s'` run before or after `mid`. -/
theorem askedInside_iff {C D : EncoderCall → Prop} (h : Passage C s mid) (h' : Passage D mid s') :
    s.AskedInside s' i ↔ s.AskedInside mid i ∨ mid.AskedInside s' i := by
  obtain ⟨first, hfirst, _⟩ := h.journal
  obtain ⟨second, hsecond, _⟩ := h'.journal
  have hboth : s'.rack.journal = (second ++ first) ++ s.rack.journal := by
    rw [hsecond, hfirst, List.append_assoc]
  have hsince : entriesSince s.rack.journal s'.rack.journal =
      entriesSince mid.rack.journal s'.rack.journal ++
        entriesSince s.rack.journal mid.rack.journal := by
    rw [hboth, entriesSince_append, ← hboth, hsecond, entriesSince_append, hfirst,
      entriesSince_append]
  simp only [AskedInside, hsince, List.mem_append, exists_or]
  exact or_comm

theorem call_fares (hs : s.Coherent) (c : Call) (i : Nat) :
    s.Fares (s.call c).1 i
      (s.followAccepts? (.act (.call c)) ≠ none ∨ c = .requestKey i ∨
        s.AskedInside (s.call c).1 i)
      (∃ stage, (s.begin c).2 = .waits stage ∧ (s.begin c).1.ServesBy stage i) := by
  have hbegun := begin_coherent hs c
  have hinside : s.AskedInside (s.call c).1 i ↔
      s.AskedInside (s.begin c).1 i ∨ (s.begin c).1.AskedInside (s.call c).1 i :=
    askedInside_iff (C := fun _ => False) (s.begin_passage c)
      (finish_passage hbegun (s.begin c).2)
  have hraises : (s.followAccepts? (.act (.call c)) ≠ none ∨ c = .requestKey i ∨
        s.AskedInside (s.call c).1 i) ↔
      (c = .requestKey i ∨ s.AskedInside (s.begin c).1 i) ∨
        ((s.begin c).1.progressAccepts? (s.begin c).2 ≠ none ∨
          (s.begin c).1.AskedInside (s.call c).1 i) := by
    rw [hinside, followAccepts?]
    tauto
  rw [hraises]
  exact (s.begin_fares c i).trans (finish_fares hbegun (s.begin c).2 i)

end Sender

namespace Traffic

variable {t : Traffic} {i : Nat}

/-- The stage that has the encoder in a move, and the sender it finds. -/
def holder? (t : Traffic) : Move → Option (Sender × EncoderStage)
  | .enter _ => none
  | .proceed n =>
      match t.calls[n]? with
      | some (.reached (.waits stage)) => some (t.sender, stage)
      | _ => none
  | .follow (.act (.call c)) =>
      match t.sender.begin c with
      | (s, .waits stage) => some (s, stage)
      | (_, .finished _) => none
  | .follow _ => none

/-- Stream `i` is served in the move. -/
def Serves (t : Traffic) (move : Move) (i : Nat) : Prop :=
  ∃ s stage, t.holder? move = some (s, stage) ∧ s.ServesBy stage i

/-- A key frame of stream `i` is asked for in the move, with every other one by
a registration that succeeds, or by itself. -/
def Raises (t : Traffic) (move : Move) (i : Nat) : Prop :=
  t.accepted? move ≠ none ∨ move = .enter (.requestKey i) ∨
    move = .follow (.act (.call (.requestKey i))) ∨
    t.sender.AskedInside (t.step move).sender i

theorem enter_fares (t : Traffic) (c : Call) (i : Nat) :
    t.sender.Fares (t.step (.enter c)).sender i (t.Raises (.enter c) i)
      (t.Serves (.enter c) i) := by
  have hserves : ¬ t.Serves (.enter c) i := by
    rintro ⟨_, _, hnone, _⟩
    simp [holder?] at hnone
  have hraises : t.Raises (.enter c) i ↔
      c = .requestKey i ∨ t.sender.AskedInside (t.step (.enter c)).sender i := by
    simp [Raises, accepted?]
  rw [hraises]
  refine Sender.Fares.unserved ?_ hserves
  rcases enter_cases t.sender c with ⟨report, rfl, heq⟩ | heq
  · obtain ⟨new, h⟩ := t.sender.regulate_interval report
    have hother : Call.feedback report ≠ .requestKey i := by simp
    rw [or_iff_right hother]
    exact h.toStretch.fares i
  · have hsender : (t.step (.enter c)).sender = (t.sender.begin c).1 := by
      simp only [step, heq]
    rw [hsender]
    exact t.sender.begin_fares c i

theorem proceed_fares (ht : t.sender.Coherent) (n i : Nat) :
    t.sender.Fares (t.step (.proceed n)).sender i (t.Raises (.proceed n) i)
      (t.Serves (.proceed n) i) := by
  have hraises : t.Raises (.proceed n) i ↔
      t.accepted? (.proceed n) ≠ none ∨
        t.sender.AskedInside (t.step (.proceed n)).sender i := by
    simp [Raises]
  rw [hraises]
  cases hleg : t.calls[n]? with
  | none =>
      have hserves : ¬ t.Serves (.proceed n) i := by simp [Serves, holder?, hleg]
      simp only [accepted?, step, hleg, ne_eq, not_true_eq_false, false_or]
      exact (Sender.Fares.refl _ i).unserved hserves
  | some leg =>
      cases leg with
      | regulated rates =>
          have hserves : ¬ t.Serves (.proceed n) i := by simp [Serves, holder?, hleg]
          obtain ⟨new, h⟩ := t.sender.keepRates_interval rates
          simp only [accepted?, step, hleg, ne_eq, not_true_eq_false, false_or]
          exact (h.toStretch.fares i).unserved hserves
      | reached progress =>
          have hserves : t.Serves (.proceed n) i ↔
              ∃ stage, progress = .waits stage ∧ t.sender.ServesBy stage i := by
            cases progress <;> simp [Serves, holder?, hleg]
          rw [hserves]
          simp only [accepted?, step, hleg]
          exact Sender.finish_fares ht progress i

theorem follow_fares (ht : t.sender.Coherent) (instruction : Instruction) (i : Nat) :
    t.sender.Fares (t.step (.follow instruction)).sender i (t.Raises (.follow instruction) i)
      (t.Serves (.follow instruction) i) := by
  by_cases hcall : ∃ c, instruction = .act (.call c)
  · obtain ⟨c, rfl⟩ := hcall
    have hserves : t.Serves (.follow (.act (.call c))) i ↔
        ∃ stage, (t.sender.begin c).2 = .waits stage ∧
          (t.sender.begin c).1.ServesBy stage i := by
      simp only [Serves, holder?]
      split <;> simp_all
    have hraises : t.Raises (.follow (.act (.call c))) i ↔
        t.sender.followAccepts? (.act (.call c)) ≠ none ∨ c = .requestKey i ∨
          t.sender.AskedInside (t.sender.call c).1 i := by
      simp [Raises, accepted?, step, Sender.follow, Sender.act]
    rw [hserves, hraises]
    exact Sender.call_fares ht c i
  · have hother : ∀ c, instruction ≠ .act (.call c) := fun c hc => hcall ⟨c, hc⟩
    obtain ⟨new, h⟩ := t.sender.follow_stretch hother
    have hserves : ¬ t.Serves (.follow instruction) i := by
      rintro ⟨_, _, hholder, _⟩
      unfold holder? at hholder
      split at hholder <;> simp_all
    have hraises : t.Raises (.follow instruction) i ↔
        t.sender.AskedInside (t.step (.follow instruction)).sender i := by
      simp [Raises, accepted?, t.sender.followAccepts?_eq_none hother, hother]
    rw [hraises]
    exact Sender.Fares.unserved (h.fares i) hserves

/-- A move raises a stream, serves it, or leaves its entry alone. -/
theorem step_fares (ht : t.sender.Coherent) (move : Move) (i : Nat) :
    t.sender.Fares (t.step move).sender i (t.Raises move i) (t.Serves move i) := by
  cases move with
  | enter c => exact t.enter_fares c i
  | proceed n => exact proceed_fares ht n i
  | follow instruction => exact follow_fares ht instruction i

end Traffic

end Simulcast
