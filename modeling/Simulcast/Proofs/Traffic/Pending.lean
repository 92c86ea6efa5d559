import Mathlib.Data.List.Basic
import Simulcast.Proofs.Traffic.Copies

/-!
What takes a wanted key frame off the schedule. Submissions are under way with
copies of the plan of any age, and requests may come at any time, also from
inside callbacks. A key frame that was wanted is wanted no more only after an
encode call that carried it succeeded, under the generation the schedule has,
or after the internal source took the very request for its stream. Nothing is
said of a request that waits for the encoder while others go on.
-/

namespace Simulcast

theorem Schedule.lt_size_of_get? {s : Schedule} {i : Nat} {k : FrameKind}
    (h : s.get? i = some k) : i < s.size :=
  (List.getElem?_eq_some_iff.mp h).1

namespace Sender

variable {s s' mid : Sender} {i : Nat} {P : Event → Prop} {new : List Event}

/-- A key frame of stream `i` was wanted in `s`, or asked for inside a callback
on the way to `s'`. -/
def Asked (s s' : Sender) (i : Nat) : Prop :=
  s.plan.schedule.get? i = some .key ∨
    ∃ reply, .nested (.act (.call (.requestKey i))) reply ∈
      entriesSince s.rack.journal s'.rack.journal

/-- A key frame of stream `i` that was wanted is wanted no more. -/
structure Clears (s s' : Sender) (i : Nat) : Prop where
  asked : s.Asked s' i
  cleared : s'.plan.schedule.get? i = some .delta

/-- On the way to `s'` the active encoder encoded a frame by `copy`, or by the
plan if that was for another codec, with a key frame on stream `i`. -/
def FrameServes (s s' : Sender) (info : Option SideInfo) (copy : Plan) (i : Nat) : Prop :=
  ∃ handle f, s.registry.encoder? = some handle ∧
    (s.currentPlan copy).schedule.get? i = some .key ∧
    (s.currentPlan copy).schedule.generation = s'.plan.schedule.generation ∧
    .answered handle.encoder (.encode f (s.currentPlan copy).schedule.kinds info) none ∈
      entriesSince s.rack.journal s'.rack.journal

/-- On the way to `s'` the active encoder, an internal source, took a request
with a key frame on stream `i`. -/
def RequestServes (s s' : Sender) (i : Nat) : Prop :=
  ∃ handle kinds, s.registry.encoder? = some handle ∧ handle.internalSource = true ∧
    kinds[i]? = some .key ∧
    .answered handle.encoder (.request kinds) none ∈ entriesSince s.rack.journal s'.rack.journal

/-- Whatever was asked for up to the end of a stretch is wanted there. -/
theorem Stretch.get?_of_asked (h : Stretch P s mid new)
    (hjournal : s'.rack.journal = mid.rack.journal) (hasked : s.Asked s' i)
    (hi : i < mid.plan.schedule.size) : mid.plan.schedule.get? i = some .key := by
  rw [h.schedule]
  rcases hasked with hkey | ⟨reply, hmem⟩
  · exact Schedule.get?_heed_of_key _ _ i hkey
  · rw [hjournal, h.journal, entriesSince_append] at hmem
    apply Schedule.get?_heed_of_mem _ _ i reply hmem
    rwa [h.schedule, Schedule.heed_size] at hi

theorem Stretch.not_clears (h : Stretch P s s' new) : ¬ s.Clears s' i := by
  intro hclears
  have hkey := h.get?_of_asked rfl hclears.asked (Schedule.lt_size_of_get? hclears.cleared)
  rw [hclears.cleared] at hkey
  simp at hkey

theorem Registered.not_clears {codec : Codec} {maxPayload : Nat}
    (h : s.Registered s' codec maxPayload) : ¬ s.Clears s' i := by
  intro hclears
  have hcleared := hclears.cleared
  rw [h.schedule, Schedule.get?, Schedule.reset_kinds, List.getElem?_eq_some_iff] at hcleared
  obtain ⟨_, hkey⟩ := hcleared
  simp at hkey

theorem Unregistered.not_clears (h : s.Unregistered s') : ¬ s.Clears s' i := by
  intro hclears
  obtain ⟨new, hjournal, hnew⟩ := h.journal
  rcases hclears.asked with hkey | ⟨reply, hmem⟩
  · have hcleared := hclears.cleared
    rw [h.schedule, hkey] at hcleared
    simp at hcleared
  · rw [hjournal, entriesSince_append] at hmem
    exact hnew _ hmem

theorem encode_clears (hs : s.Coherent) {frame : Frame} {info : Option SideInfo} {copy : Plan}
    (h : s.Clears (s.encode frame info copy).1 i) :
    s.FrameServes (s.encode frame info copy).1 info copy i := by
  cases hslot : s.slot with
  | none =>
      have heq : (s.encode frame info copy).1 = s := by simp [encode, hslot]
      rw [heq] at h
      exact absurd h (Stretch.refl (fun _ => True) s).not_clears
  | some slot =>
      obtain ⟨mid, new, hmid, hend⟩ := s.encodeOn_end slot frame info (s.currentPlan copy)
      rw [← s.encode_of_slot hslot] at hend
      rcases hend with ⟨hafter, _⟩ | ⟨hafter, _, f, rest, hnew⟩
      · rw [hafter] at h
        exact absurd h hmid.not_clears
      · rw [hafter] at h ⊢
        have hgeneration : mid.plan.schedule.generation =
            (s.currentPlan copy).schedule.generation := by
          rw [hmid.schedule, Schedule.heed_generation, currentPlan_generation]
        have hlt : i < mid.plan.schedule.size := by
          have hcleared := Schedule.lt_size_of_get? h.cleared
          rwa [storeSchedule, Schedule.clearSatisfied_size] at hcleared
        have hkey := hmid.get?_of_asked rfl h.asked hlt
        refine ⟨slot, f, hs.slot.symm.trans hslot, ?_, ?_, ?_⟩
        · -- Otherwise the request would still be there.
          by_contra hno
          have hstays := (Schedule.get?_clearSatisfied_eq_key_iff _ _ i hgeneration).mpr
            ⟨hkey, hno⟩
          have hcleared := h.cleared
          rw [storeSchedule, hstays] at hcleared
          simp at hcleared
        · rw [storeSchedule, Schedule.clearSatisfied_generation, hgeneration]
        · show _ ∈ entriesSince s.rack.journal mid.rack.journal
          rw [hmid.journal, entriesSince_append, hnew]
          exact List.mem_cons_self

/-- The second part of a request clears nothing but its own stream. -/
theorem pullKey_clears (hs : s.Coherent) {j : Nat} (h : s.Clears (s.pullKey j).1 i)
    (hkey : i = j → s.plan.schedule.get? i = some .key) :
    i = j ∧ s.RequestServes (s.pullKey j).1 i := by
  rcases s.pullKey_end j with
    heq | ⟨slot, mid, new, hslot, hsource, _, ⟨hmid, heq⟩ | ⟨hmid, heq, rest, hnew⟩⟩
  · rw [heq] at h
    exact absurd h (Stretch.refl (fun _ => True) s).not_clears
  · rw [heq] at h
    exact absurd h hmid.not_clears
  · rw [heq] at h ⊢
    have hcleared := h.cleared
    by_cases hij : i = j
    · refine ⟨hij, slot, s.plan.schedule.kinds, hs.slot.symm.trans hslot, hsource, hkey hij, ?_⟩
      show _ ∈ entriesSince s.rack.journal mid.rack.journal
      rw [hmid.journal, entriesSince_append, hnew]
      exact List.mem_cons_self
    · have hlt : i < mid.plan.schedule.size := by
        have hlt := Schedule.lt_size_of_get? hcleared
        rwa [storeSchedule, Schedule.serve_size] at hlt
      have hwanted := hmid.get?_of_asked rfl h.asked hlt
      have hne : j ≠ i := fun heq => hij heq.symm
      rw [storeSchedule, Schedule.get?_serve_of_ne _ _ _ hne, hwanted] at hcleared
      simp at hcleared

/-- Of the stages that have the encoder only these two clear anything. -/
theorem runStage_clears (hs : s.Coherent) (stage : EncoderStage)
    (hpull : ∀ j, stage ≠ .pullKey j) (h : s.Clears (s.runStage stage).1 i) :
    ∃ frame info copy, stage = .encode frame info copy ∧
      s.FrameServes (s.runStage stage).1 info copy i := by
  cases stage with
  | encode frame info copy => exact ⟨frame, info, copy, rfl, encode_clears hs h⟩
  | pullKey j => exact absurd rfl (hpull j)
  | pushRates rates =>
      rcases s.pushRates_end rates with ⟨_, heq⟩ | ⟨slot, new, _, hpush⟩
      · change s.Clears (s.pushRates rates).1 i at h
        rw [heq] at h
        exact absurd h (Stretch.refl (fun _ => True) s).not_clears
      · exact absurd h hpush.not_clears
  | register codec cores maxPayload =>
      obtain ⟨_, ⟨hregistered, _⟩ | ⟨hunregistered, _⟩⟩ := register_end hs codec cores maxPayload
      · exact absurd h hregistered.not_clears
      · exact absurd h hunregistered.not_clears
  | attach payloadType internalSource choice =>
      exact absurd h (attach_end hs payloadType internalSource choice).2.not_clears
  | detach payloadType => exact absurd h (detach_end hs payloadType).2.not_clears
  | enableDropping on => exact absurd h (enableDropping_end hs on).2.not_clears

theorem encode_size (s : Sender) (frame : Frame) (info : Option SideInfo) (copy : Plan) :
    (s.encode frame info copy).1.plan.schedule.size = s.plan.schedule.size := by
  obtain ⟨mid, new, hmid, _, hend⟩ := s.encode_end frame info copy
  rcases hend with ⟨heq, _⟩ | ⟨heq, _⟩
  · rw [heq, hmid.schedule, Schedule.heed_size]
  · rw [heq, storeSchedule, Schedule.clearSatisfied_size, hmid.schedule, Schedule.heed_size]

theorem pullKey_size (s : Sender) (j : Nat) :
    (s.pullKey j).1.plan.schedule.size = s.plan.schedule.size := by
  rcases s.pullKey_end j with
    heq | ⟨slot, mid, new, _, _, _, ⟨hmid, heq⟩ | ⟨hmid, heq, _⟩⟩
  · rw [heq]
  · rw [heq, hmid.schedule, Schedule.heed_size]
  · rw [heq, storeSchedule, Schedule.serve_size, hmid.schedule, Schedule.heed_size]

theorem call_requestKey_size (s : Sender) (j : Nat) :
    (s.call (.requestKey j)).1.plan.schedule.size = s.plan.schedule.size := by
  rcases s.call_requestKey j with heq | heq
  · rw [heq, storeSchedule, Schedule.mark_size]
  · rw [heq, pullKey_size, storeSchedule, Schedule.mark_size]

/-- What was asked for, or is about to be, is wanted once it is marked. -/
theorem Asked.marked {j : Nat} (h : s.Asked s' i ∨ i = j) (hi : i < s.plan.schedule.size) :
    (s.storeSchedule (s.plan.schedule.mark j)).Asked s' i := by
  rcases h with (hwanted | hnested) | rfl
  · exact Or.inl (Schedule.get?_mark_of_key _ _ _ hwanted)
  · exact Or.inr hnested
  · exact Or.inl (Schedule.get?_mark_self _ _ hi)

/-- A whole request clears no stream but its own, and that only if the encoder
took it. -/
theorem requestKey_clears (hs : s.Coherent) {j : Nat}
    (hasked : s.Asked (s.call (.requestKey j)).1 i ∨ i = j)
    (hcleared : (s.call (.requestKey j)).1.plan.schedule.get? i = some .delta) :
    i = j ∧ s.RequestServes (s.call (.requestKey j)).1 i := by
  have hmarked : (s.storeSchedule (s.plan.schedule.mark j)).Coherent :=
    hs.storeSchedule _ (by simp) (by simp)
  have hi : i < s.plan.schedule.size := by
    rw [← s.call_requestKey_size j]
    exact Schedule.lt_size_of_get? hcleared
  have hclears : (s.storeSchedule (s.plan.schedule.mark j)).Clears
      (s.call (.requestKey j)).1 i := ⟨Asked.marked hasked hi, hcleared⟩
  rcases s.call_requestKey j with heq | heq
  · rw [heq] at hclears
    exact absurd hclears (Stretch.refl (fun _ => True) _).not_clears
  · rw [heq] at hclears ⊢
    apply pullKey_clears hmarked hclears
    rintro rfl
    exact Schedule.get?_mark_self _ _ hi

/-- Of the calls only a submission and a request clear anything. -/
theorem call_clears (hs : s.Coherent) {c : Call}
    (hasked : s.Asked (s.call c).1 i ∨ c = .requestKey i)
    (hcleared : (s.call c).1.plan.schedule.get? i = some .delta) :
    (∃ frame info, c = .submit frame info ∧ s.FrameServes (s.call c).1 info s.plan i) ∨
      (c = .requestKey i ∧ s.RequestServes (s.call c).1 i) := by
  cases c with
  | submit frame info =>
      left
      have hclears : s.Clears (s.encode frame info s.plan).1 i :=
        ⟨hasked.resolve_right (by simp), hcleared⟩
      exact ⟨frame, info, rfl, encode_clears hs hclears⟩
  | requestKey j =>
      right
      have hown : s.Asked (s.call (.requestKey j)).1 i ∨ i = j := by
        refine hasked.imp_right fun heq => ?_
        exact (Call.requestKey.inj heq).symm
      obtain ⟨rfl, hserves⟩ := requestKey_clears hs hown hcleared
      exact ⟨rfl, hserves⟩
  | feedback report =>
      obtain ⟨n, new, hfeedback⟩ := s.feedback_interval report
      exact absurd ⟨hasked.resolve_right (by simp), hcleared⟩ hfeedback.not_clears
  | register codec cores maxPayload =>
      obtain ⟨_, _, _, heq, _⟩ := runStage_clears hs (.register codec cores maxPayload) nofun
        ⟨hasked.resolve_right (by simp), hcleared⟩
      exact EncoderStage.noConfusion heq
  | attach payloadType internalSource choice =>
      obtain ⟨_, _, _, heq, _⟩ := runStage_clears hs
        (.attach payloadType internalSource choice) nofun ⟨hasked.resolve_right (by simp), hcleared⟩
      exact EncoderStage.noConfusion heq
  | detach payloadType =>
      obtain ⟨_, _, _, heq, _⟩ := runStage_clears hs (.detach payloadType) nofun
        ⟨hasked.resolve_right (by simp), hcleared⟩
      exact EncoderStage.noConfusion heq
  | enableDropping on =>
      obtain ⟨_, _, _, heq, _⟩ := runStage_clears hs (.enableDropping on) nofun
        ⟨hasked.resolve_right (by simp), hcleared⟩
      exact EncoderStage.noConfusion heq

end Sender

namespace Traffic

variable {t : Traffic} {i : Nat}

/-- Every request for a key frame is made and answered in one move. -/
def Undisturbed (moves : List Move) : Prop := ∀ i, .enter (.requestKey i) ∉ moves

/-- A key frame of stream `i` was wanted before the move, or is asked for by it
or inside one of its callbacks. -/
def Wants (t : Traffic) (move : Move) (i : Nat) : Prop :=
  t.sender.Asked (t.step move).sender i ∨ move = .follow (.act (.call (.requestKey i)))

/-- In this move a submission that took `copy` has the encoder. -/
inductive Submits (t : Traffic) : Move → Option SideInfo → Plan → Prop where
  | whole (frame : Frame) (info : Option SideInfo) :
      Submits t (.follow (.act (.call (.submit frame info)))) info t.sender.plan
  | rest {n : Nat} {frame : Frame} {info : Option SideInfo} {copy : Plan}
      (h : t.calls[n]? = some (.reached (.waits (.encode frame info copy)))) :
      Submits t (.proceed n) info copy

/-- In this move an encode call of the active encoder that carried a key frame
on stream `i` succeeded, under the generation of the schedule. -/
def ServedByFrame (t : Traffic) (move : Move) (i : Nat) : Prop :=
  ∃ info copy, t.Submits move info copy ∧ t.sender.FrameServes (t.step move).sender info copy i

/-- The move is a request for stream `i`, and the active encoder, an internal
source, took it with a key frame on that stream. -/
def ServedByRequest (t : Traffic) (move : Move) (i : Nat) : Prop :=
  move = .follow (.act (.call (.requestKey i))) ∧ t.sender.RequestServes (t.step move).sender i

/-- No request waits for the encoder. -/
def Unpulled (t : Traffic) : Prop :=
  ∀ leg ∈ t.calls, ∀ j, leg ≠ .reached (.waits (.pullKey j))

theorem enter_not_pullKey {s : Sender} {c : Call} (hc : ∀ k, c ≠ .requestKey k) (j : Nat) :
    (s.enter c).2 ≠ .reached (.waits (.pullKey j)) := by
  intro h
  exact hc j (Sender.begin_pullKey (enter_waits h).2).1

theorem proceed_not_pullKey (s : Sender) (leg : Leg) (j : Nat) :
    (s.proceed leg).2 ≠ .reached (.waits (.pullKey j)) := by
  intro h
  obtain ⟨_, _, heq, _⟩ := proceed_waits h
  exact EncoderStage.noConfusion heq

theorem step_unpulled (h : t.Unpulled) {move : Move}
    (hmove : ∀ k, move ≠ .enter (.requestKey k)) : (t.step move).Unpulled := by
  cases move with
  | enter c =>
      intro leg hleg
      rcases List.mem_append.mp hleg with hold | hnew
      · exact h leg hold
      · have hentered : leg = (t.sender.enter c).2 := List.mem_singleton.mp hnew
        rw [hentered]
        exact enter_not_pullKey fun k hc => hmove k (hc ▸ rfl)
  | proceed n =>
      cases hleg : t.calls[n]? with
      | none =>
          simp only [step, hleg]
          exact h
      | some old =>
          simp only [step, hleg]
          intro leg hmem
          rcases List.mem_or_eq_of_mem_set hmem with hold | hnew
          · exact h leg hold
          · rw [hnew]
            exact proceed_not_pullKey t.sender old
  | follow i => exact h

theorem run_unpulled (h : t.Unpulled) {moves : List Move} (hmoves : Undisturbed moves) :
    (t.run moves).Unpulled := by
  induction moves generalizing t with
  | nil => exact h
  | cons move rest ih =>
      have hstep : (t.step move).Unpulled := by
        apply step_unpulled h
        rintro k rfl
        exact hmoves k (by simp)
      exact ih hstep fun k hmem => hmoves k (by simp [hmem])

theorem follow_clears (ht : t.sender.Coherent) {instruction : Instruction}
    (hwants : t.Wants (.follow instruction) i)
    (hcleared : (t.step (.follow instruction)).sender.plan.schedule.get? i = some .delta) :
    t.ServedByFrame (.follow instruction) i ∨ t.ServedByRequest (.follow instruction) i := by
  by_cases hcall : ∃ c, instruction = .act (.call c)
  · obtain ⟨c, rfl⟩ := hcall
    have hasked : t.sender.Asked (t.sender.call c).1 i ∨ c = .requestKey i := by
      refine hwants.imp_right fun heq => ?_
      simpa using heq
    rcases Sender.call_clears ht hasked hcleared with ⟨frame, info, rfl, hserves⟩ | ⟨rfl, hserves⟩
    · exact Or.inl ⟨info, _, .whole frame info, hserves⟩
    · exact Or.inr ⟨rfl, hserves⟩
  · have hasked := hwants.resolve_right fun heq => hcall ⟨_, Move.follow.inj heq⟩
    obtain ⟨new, hstretch⟩ := t.sender.follow_stretch fun c hc => hcall ⟨c, hc⟩
    exact absurd ⟨hasked, hcleared⟩ hstretch.not_clears

theorem step_clears (ht : t.sender.Coherent) (hunpulled : t.Unpulled) {move : Move}
    (hmove : ∀ k, move ≠ .enter (.requestKey k)) (hwants : t.Wants move i)
    (hcleared : (t.step move).sender.plan.schedule.get? i = some .delta) :
    t.ServedByFrame move i ∨ t.ServedByRequest move i := by
  cases move with
  | enter c =>
      have hstretch : ∃ new, Sender.Stretch Event.Beside t.sender (t.sender.enter c).1 new := by
        rcases enter_cases t.sender c with ⟨report, rfl, heq⟩ | heq
        · rw [heq]
          obtain ⟨new, h⟩ := t.sender.regulate_interval report
          exact ⟨new, h.toStretch⟩
        · rw [heq]
          obtain ⟨new, h⟩ := t.sender.begin_interval c fun k hc => hmove k (hc ▸ rfl)
          exact ⟨new, h.toStretch⟩
      obtain ⟨new, hstretch⟩ := hstretch
      exact absurd ⟨hwants.resolve_right (by simp), hcleared⟩ hstretch.not_clears
  | proceed n =>
      have hasked := hwants.resolve_right (by simp)
      cases hleg : t.calls[n]? with
      | none =>
          simp only [step, hleg] at hasked hcleared
          exact absurd ⟨hasked, hcleared⟩ (Sender.Stretch.refl (fun _ => True) _).not_clears
      | some leg =>
          have hstep : (t.step (.proceed n)).sender = (t.sender.proceed leg).1 := by
            simp only [step, hleg]
          rw [hstep] at hasked hcleared
          cases leg with
          | regulated rates =>
              obtain ⟨new, h⟩ := t.sender.keepRates_interval rates
              exact absurd ⟨hasked, hcleared⟩ h.not_clears
          | reached progress =>
              cases progress with
              | finished reply =>
                  exact absurd ⟨hasked, hcleared⟩
                    (Sender.Stretch.refl (fun _ => True) t.sender).not_clears
              | waits stage =>
                  have hpull : ∀ j, stage ≠ .pullKey j := by
                    rintro j rfl
                    exact hunpulled _ (List.mem_of_getElem? hleg) j rfl
                  obtain ⟨frame, info, copy, rfl, hserves⟩ :=
                    Sender.runStage_clears ht stage hpull ⟨hasked, hcleared⟩
                  left
                  refine ⟨info, copy, .rest hleg, ?_⟩
                  rw [hstep]
                  exact hserves
  | follow instruction => exact follow_clears ht hwants hcleared

/-- A copy without a key frame for a stream never takes away the one that is
wanted: it stays wanted, unless a registration came after the copy and the plan
as it is was encoded instead. -/
theorem copy_clears (ht : t.sender.Coherent) {n : Nat} {frame : Frame} {info : Option SideInfo}
    {copy : Plan} (hleg : t.calls[n]? = some (.reached (.waits (.encode frame info copy))))
    (hcopy : copy.schedule.get? i ≠ some .key)
    (hkey : t.sender.plan.schedule.get? i = some .key) :
    (t.step (.proceed n)).sender.plan.schedule.get? i = some .key ∨
      t.sender.plan.schedule.generation ≠ copy.schedule.generation ∧
        t.sender.FrameServes (t.step (.proceed n)).sender info t.sender.plan i := by
  have hstep : (t.step (.proceed n)).sender = (t.sender.encode frame info copy).1 := by
    simp only [step, hleg]
    rfl
  rw [hstep]
  have hi : i < (t.sender.encode frame info copy).1.plan.schedule.size := by
    rw [t.sender.encode_size]
    exact Schedule.lt_size_of_get? hkey
  obtain ⟨kind, hkind⟩ : ∃ kind,
      (t.sender.encode frame info copy).1.plan.schedule.get? i = some kind :=
    ⟨_, List.getElem?_eq_getElem hi⟩
  cases kind with
  | key => exact Or.inl hkind
  | delta =>
      right
      have hserves := Sender.encode_clears ht ⟨Or.inl hkey, hkind⟩
      by_cases hgeneration : t.sender.plan.schedule.generation = copy.schedule.generation
      · obtain ⟨_, _, _, hcarried, _⟩ := hserves
        rw [Sender.currentPlan, if_pos hgeneration] at hcarried
        exact absurd hcarried hcopy
      · refine ⟨hgeneration, ?_⟩
        have hplan : t.sender.currentPlan copy = t.sender.currentPlan t.sender.plan := by
          rw [Sender.currentPlan, if_neg hgeneration, Sender.currentPlan, if_pos rfl]
        unfold Sender.FrameServes at hserves ⊢
        rwa [← hplan]

/-- Over any run of any number of submissions under way, in which requests are
made and answered without others in between: whenever a key frame that was
wanted is wanted no more, a call that carried it was served in that same move;
and an old copy that does not ask for it never takes it away. -/
theorem cleared_only_served {s : Sender} (hs : s.Fresh) (moves : List Move) (move : Move)
    (hmoves : Undisturbed (moves ++ [move])) (i : Nat) :
    ((run { sender := s } moves).Wants move i →
      ((run { sender := s } moves).step move).sender.plan.schedule.get? i = some .delta →
      (run { sender := s } moves).ServedByFrame move i ∨
        (run { sender := s } moves).ServedByRequest move i) ∧
    ∀ n frame info copy,
      (run { sender := s } moves).calls[n]? =
        some (.reached (.waits (.encode frame info copy))) →
      copy.schedule.get? i ≠ some .key →
      (run { sender := s } moves).sender.plan.schedule.get? i = some .key →
      ((run { sender := s } moves).step (.proceed n)).sender.plan.schedule.get? i = some .key ∨
        (run { sender := s } moves).sender.plan.schedule.generation ≠ copy.schedule.generation ∧
          (run { sender := s } moves).sender.FrameServes
            ((run { sender := s } moves).step (.proceed n)).sender info
            (run { sender := s } moves).sender.plan i := by
  have hcoherent : (run { sender := s } moves).sender.Coherent := run_coherent hs.coherent moves
  have hunpulled : (run { sender := s } moves).Unpulled := by
    apply run_unpulled (by simp [Unpulled])
    intro k hmem
    exact hmoves k (by simp [hmem])
  constructor
  · apply step_clears hcoherent hunpulled
    rintro k rfl
    exact hmoves k (by simp)
  · intro n frame info copy hleg hcopy hkey
    exact copy_clears hcoherent hleg hcopy hkey

/-- Two submissions take copies of one plan, with key frames on both streams.
One is encoded, and then a key frame is asked for again. -/
def reasked : List Move :=
  [.follow (.act (Sender.sampleRegistration 2)), .follow (.act Sender.sampleFeedback),
    .enter (.submit Sender.sampleFrame none), .enter (.submit Sender.sampleFrame none),
    .proceed 0, .follow (.act (.call (.requestKey 1)))]

/-- The other submission, although made before the request, carries a key frame
on its stream and so serves it. -/
theorem cleared_only_served_reasked :
    Undisturbed (reasked ++ [.proceed 1]) ∧
      (run { sender := Sender.sample } reasked).sender.plan.schedule.get? 1 = some .key ∧
      ((run { sender := Sender.sample } reasked).step (.proceed 1)).sender.plan.schedule.get? 1 =
        some .delta ∧
      ((run { sender := Sender.sample } reasked).ServedByFrame (.proceed 1) 1 ∨
        (run { sender := Sender.sample } reasked).ServedByRequest (.proceed 1) 1) := by
  have hundisturbed : Undisturbed (reasked ++ [.proceed 1]) := by
    intro i
    simp [reasked]
  have hkey : (run { sender := Sender.sample } reasked).sender.plan.schedule.get? 1 =
      some .key := by decide +kernel
  have hcleared : ((run { sender := Sender.sample } reasked).step
      (.proceed 1)).sender.plan.schedule.get? 1 = some .delta := by decide +kernel
  exact ⟨hundisturbed, hkey, hcleared,
    (cleared_only_served Sender.sample_fresh reasked (.proceed 1) hundisturbed 1).1
      (Or.inl (Or.inl hkey)) hcleared⟩

end Traffic

end Simulcast
