import Mathlib.Data.List.Induction
import Simulcast.Proofs.Traffic.Faring
import Simulcast.Proofs.Traffic.Origin

/-!
What a request for a key frame carries when it comes to the encoder at last. An
internal source is asked in two sections: the first marks the stream, the
second hands over the schedule as it is by then. Between the two, other calls
may serve the stream, and then the encoder is asked for a delta frame, unless
the stream was marked once more. In that case it has made a key frame since the
mark, so the wish itself is not lost.
-/

namespace Simulcast

namespace Sender

variable {s : Sender} {i : Nat}

theorem StageCall.request {stage : EncoderStage} {kinds : List FrameKind}
    (h : s.StageCall stage (.request kinds)) :
    ∃ i, stage = .pullKey i ∧ kinds = s.plan.schedule.kinds := by
  cases stage with
  | encode frame info copy =>
      obtain ⟨_, _, hcall⟩ := h
      exact hcall.elim
  | pullKey i =>
      obtain ⟨_, _, _, heq⟩ := h
      exact ⟨i, rfl, EncoderCall.request.inj heq⟩
  | pushRates rates => exact EncoderCall.noConfusion h
  | _ => exact h.elim

/-- Something is written down by a request only if its stream exists. -/
theorem pullKey_in_range {e : Event}
    (h : e ∈ entriesSince s.rack.journal (s.pullKey i).1.rack.journal) :
    i < s.plan.schedule.size := by
  rcases s.pullKey_end i with heq | ⟨_, _, _, _, _, hi, _⟩
  · simp [heq, entriesSince_self] at h
  · exact hi

/-- All a request calls an encoder for is the schedule as it is. -/
theorem pullKey_entries {e : Event}
    (h : e ∈ entriesSince s.rack.journal (s.pullKey i).1.rack.journal) :
    ∃ slot accepted, s.RequestEntry slot accepted e := by
  rcases s.pullKey_end i with heq | ⟨slot, mid, new, _, _, _, ⟨hmid, heq⟩ | ⟨hmid, heq, _⟩⟩
  · simp [heq, entriesSince_self] at h
  · rw [heq, hmid.journal, entriesSince_append] at h
    exact ⟨slot, False, hmid.entries _ h⟩
  · rw [heq] at h
    change _ ∈ entriesSince s.rack.journal mid.rack.journal at h
    rw [hmid.journal, entriesSince_append] at h
    exact ⟨slot, True, hmid.entries _ h⟩

theorem pullKey_called {n : Nat} {kinds : List FrameKind}
    (h : .called n (.request kinds) ∈
      entriesSince s.rack.journal (s.pullKey i).1.rack.journal) :
    kinds = s.plan.schedule.kinds := by
  obtain ⟨_, _, _, heq⟩ := pullKey_entries h
  exact EncoderCall.request.inj heq

theorem pullKey_answered {n : Nat} {kinds : List FrameKind} {fault : Option EncoderFault}
    (h : .answered n (.request kinds) fault ∈
      entriesSince s.rack.journal (s.pullKey i).1.rack.journal) :
    kinds = s.plan.schedule.kinds := by
  obtain ⟨_, _, _, heq, _⟩ := pullKey_entries h
  exact EncoderCall.request.inj heq

/-- An encode call that succeeded is in the journal. -/
theorem encode_answered {frame : Frame} {info : Option SideInfo} {copy : Plan}
    {kinds : List FrameKind} (h : (s.encode frame info copy).2 = .ok (.encoded kinds)) :
    ∃ n f, .answered n (.encode f kinds info) none ∈
      entriesSince s.rack.journal (s.encode frame info copy).1.rack.journal := by
  cases hslot : s.slot with
  | none => simp [encode, hslot] at h
  | some slot =>
      rw [s.encode_of_slot hslot] at h ⊢
      obtain ⟨mid, new, hmid, ⟨_, hfailed⟩ | ⟨hafter, hresult, f, rest, hnew⟩⟩ :=
        s.encodeOn_end slot frame info (s.currentPlan copy)
      · exact absurd h (hfailed kinds)
      · rw [hresult] at h
        simp only [Except.ok.injEq, Delivery.encoded.injEq] at h
        refine ⟨slot.encoder, f, ?_⟩
        rw [hafter]
        show _ ∈ entriesSince s.rack.journal mid.rack.journal
        rw [hmid.journal, entriesSince_append, hnew, h]
        exact List.mem_cons_self

end Sender

namespace Traffic

variable {t : Traffic} {move : Move} {moves : List Move} {i : Nat}

/-- From `t` on stream `i` was served and not asked for since. -/
inductive Forestalled (t : Traffic) (i : Nat) : List Move → Prop where
  | served {moves : List Move} {move : Move} (h : (t.run moves).Serves move i) :
      Forestalled t i (moves ++ [move])
  | since {moves : List Move} {move : Move} (h : Forestalled t i moves)
      (quiet : ¬ (t.run moves).Raises move i) : Forestalled t i (moves ++ [move])

theorem not_forestalled_nil : ¬ t.Forestalled i [] := by
  intro h
  generalize hnil : [] = moves at h
  cases h <;> simp at hnil

theorem forestalled_snoc :
    t.Forestalled i (moves ++ [move]) ↔
      (t.run moves).Serves move i ∨ (t.Forestalled i moves ∧ ¬ (t.run moves).Raises move i) := by
  constructor
  · intro h
    generalize hsplit : moves ++ [move] = all at h
    cases h with
    | served h =>
        obtain ⟨rfl, hmove⟩ := List.append_inj' hsplit rfl
        obtain rfl := List.singleton_inj.mp hmove
        exact Or.inl h
    | since h quiet =>
        obtain ⟨rfl, hmove⟩ := List.append_inj' hsplit rfl
        obtain rfl := List.singleton_inj.mp hmove
        exact Or.inr ⟨h, quiet⟩
  · rintro (h | ⟨h, quiet⟩)
    · exact .served h
    · exact .since h quiet

/-- A key frame that was wanted is still wanted exactly if the stream was not
served since, or else asked for again. -/
theorem run_key_iff (ht : t.sender.Coherent) (hkey : t.sender.plan.schedule.get? i = some .key)
    (moves : List Move) (hi : i < (t.run moves).sender.plan.schedule.size) :
    (t.run moves).sender.plan.schedule.get? i = some .key ↔ ¬ t.Forestalled i moves := by
  induction moves using List.reverseRecOn with
  | nil => exact iff_of_true hkey not_forestalled_nil
  | append_singleton moves move ih =>
      rw [run_snoc] at hi ⊢
      rw [forestalled_snoc]
      have hstep := step_fares (run_coherent ht moves) move i
      by_cases hserves : (t.run moves).Serves move i
      · exact iff_of_false (hstep.served hserves) fun hno => hno (Or.inl hserves)
      · by_cases hraises : (t.run moves).Raises move i
        · refine iff_of_true (hstep.raised hraises hserves hi) ?_
          rintro (hserved | ⟨_, hquiet⟩)
          · exact hserves hserved
          · exact hquiet hraises
        · have hkept := hstep.kept hraises hserves
          rw [hkept, ih (Schedule.lt_size_of_get?_eq hkept hi)]
          simp [hserves, hraises]

/-- The call with number `n`, a request for stream `i`, was made after `before`
and has waited for the encoder during `after`. -/
structure Waited (s : Sender) (moves : List Move) (n i : Nat) (before after : List Move) :
    Prop where
  split : moves = before ++ .enter (.requestKey i) :: after
  number : n = (run { sender := s } before).calls.length
  range : i < (run { sender := s } before).sender.plan.schedule.size
  waits : .proceed n ∉ after

theorem exists_waited {s : Sender} {n : Nat}
    (h : (run { sender := s } moves).calls[n]? = some (.reached (.waits (.pullKey i)))) :
    ∃ before after, Waited s moves n i before after := by
  obtain ⟨before, move, after, hmoves, hleaves, hafter⟩ := exists_leaves rfl moves h
  generalize hleg : Leg.reached (.waits (.pullKey i)) = leg at hleaves
  cases hleaves with
  | entered c last =>
      obtain ⟨rfl, hi⟩ := Sender.begin_pullKey (enter_waits hleg.symm).2
      exact ⟨before, after, hmoves, last, hi, hafter⟩
  | proceeded hold => exact absurd hleg.symm (proceed_not_pullKey _ _ _)

/-- The first section leaves a key frame wanted. -/
theorem Waited.marked {s : Sender} {n : Nat} {before after : List Move}
    (h : Waited s moves n i before after) :
    (run { sender := s } (before ++ [.enter (.requestKey i)])).sender.plan.schedule.get? i =
      some .key := by
  have hsender : (run { sender := s } (before ++ [.enter (.requestKey i)])).sender =
      (run { sender := s } before).sender.storeSchedule
        ((run { sender := s } before).sender.plan.schedule.mark i) := by
    rw [run_snoc]
    exact Sender.markKey_fst _ i
  rw [hsender]
  exact Schedule.get?_mark_self _ _ h.range

theorem Waited.run_eq {s : Sender} {n : Nat} {before after : List Move}
    (h : Waited s moves n i before after) :
    run { sender := s } moves =
      (run { sender := s } (before ++ [.enter (.requestKey i)])).run after := by
  rw [h.split, run_step_append, run_snoc]

/-- A request that had to wait carries the schedule as it is by then. -/
theorem proceed_key_iff {s : Sender} (hs : s.Fresh) {n m : Nat} {kinds : List FrameKind}
    (hleg : (run { sender := s } moves).calls[n]? = some (.reached (.waits (.pullKey i))))
    (h : .called m (.request kinds) ∈
      entriesSince (run { sender := s } moves).sender.rack.journal
        ((run { sender := s } moves).step (.proceed n)).sender.rack.journal) :
    ∃ before after, Waited s moves n i before after ∧
      (kinds[i]? = some .key ↔
        ¬ (run { sender := s } (before ++ [.enter (.requestKey i)])).Forestalled i after) := by
  obtain ⟨before, after, hwaited⟩ := exists_waited hleg
  simp only [step, hleg] at h
  have hi : i < (run { sender := s } moves).sender.plan.schedule.size :=
    Sender.pullKey_in_range h
  obtain rfl := Sender.pullKey_called h
  have hmarked : (run { sender := s } (before ++ [.enter (.requestKey i)])).sender.Coherent :=
    run_coherent hs.coherent _
  refine ⟨before, after, hwaited, ?_⟩
  rw [hwaited.run_eq] at hi ⊢
  exact run_key_iff hmarked hwaited.marked after hi

/-- A request for a key frame made in one piece always carries one on its
stream. A request that had to wait carries one exactly if it was not
forestalled while it waited. -/
theorem request_carries_key_iff {s : Sender} (hs : s.Fresh) (moves : List Move) (move : Move)
    {m : Nat} {kinds : List FrameKind}
    (h : .called m (.request kinds) ∈
      entriesSince (run { sender := s } moves).sender.rack.journal
        ((run { sender := s } moves).step move).sender.rack.journal) :
    (∃ i, move = .follow (.act (.call (.requestKey i))) ∧ kinds[i]? = some .key) ∨
      ∃ n i before after, move = .proceed n ∧ Waited s moves n i before after ∧
        (kinds[i]? = some .key ↔
          ¬ (run { sender := s } (before ++ [.enter (.requestKey i)])).Forestalled i after) := by
  have hcoherent : (run { sender := s } moves).sender.Coherent := run_coherent hs.coherent moves
  obtain ⟨new, hjournal, hcalls⟩ := (step_passage hcoherent move).journal
  have hmem := h
  rw [hjournal, entriesSince_append] at hmem
  have hcall := hcalls _ _ hmem trivial
  cases move with
  | enter c => exact hcall.elim
  | proceed n =>
      obtain ⟨progress, hleg, stage, rfl, hstage⟩ := hcall
      obtain ⟨i, rfl, _⟩ := hstage.request
      obtain ⟨before, after, hwaited, hiff⟩ := proceed_key_iff hs hleg h
      exact Or.inr ⟨n, i, before, after, rfl, hwaited, hiff⟩
  | follow instruction =>
      obtain ⟨a, rfl, c, rfl, stage, hprogress, hstage⟩ := hcall
      obtain ⟨i, rfl, rfl⟩ := hstage.request
      obtain ⟨rfl, hi⟩ := Sender.begin_pullKey hprogress
      refine Or.inl ⟨i, rfl, ?_⟩
      have hfirst : ((run { sender := s } moves).sender.begin (.requestKey i)).1 =
          (run { sender := s } moves).sender.storeSchedule
            ((run { sender := s } moves).sender.plan.schedule.mark i) := Sender.markKey_fst _ i
      rw [hfirst]
      exact Schedule.get?_mark_self _ _ hi

/-- An encoder with an internal source is in the slot. Two threads ask for a
key frame of its only stream, and the first of them goes on. -/
def doubled : List Move :=
  [.follow (.act (.call (.attach 96 true (.fresh { internalSource := true })))),
    .follow (.act (Sender.sampleRegistration 1)),
    .enter (.requestKey 0), .enter (.requestKey 0), .proceed 0]

/-- The second thread asks the encoder for a delta frame. -/
theorem doubled_asks_delta :
    .called 0 (.request [.delta]) ∈
      entriesSince (run { sender := Sender.sample } doubled).sender.rack.journal
        ((run { sender := Sender.sample } doubled).step (.proceed 1)).sender.rack.journal := by
  decide +kernel

/-- It was forestalled by the first. -/
theorem request_carries_key_iff_doubled :
    ∃ before after, Waited Sender.sample doubled 1 0 before after ∧
      (run { sender := Sender.sample } (before ++ [.enter (.requestKey 0)])).Forestalled 0
        after := by
  rcases request_carries_key_iff Sender.sample_fresh doubled (.proceed 1) doubled_asks_delta with
    ⟨_, heq, _⟩ | ⟨n, i, before, after, heq, hwaited, hiff⟩
  · exact Move.noConfusion heq
  · obtain rfl := Move.proceed.inj heq
    have hi : i = 0 := by
      have hmem : .enter (.requestKey i) ∈ doubled := by simp [hwaited.split]
      simpa [doubled] using hmem
    subst hi
    refine ⟨before, after, hwaited, ?_⟩
    by_contra hno
    simpa using hiff.mpr hno

/-- In the move an encoder takes a call that carries a key frame on stream
`i`. -/
def GivesKey (t : Traffic) (move : Move) (i : Nat) : Prop :=
  ∃ n kinds, kinds[i]? = some .key ∧
    ((∃ f info, .answered n (.encode f kinds info) none ∈
        entriesSince t.sender.rack.journal (t.step move).sender.rack.journal) ∨
      .answered n (.request kinds) none ∈
        entriesSince t.sender.rack.journal (t.step move).sender.rack.journal)

theorem holder?_cases {s : Sender} {stage : EncoderStage}
    (h : t.holder? move = some (s, stage)) :
    (∃ n, move = .proceed n ∧ s = t.sender ∧
        (t.step move).sender = (t.sender.runStage stage).1) ∨
      ∃ c, move = .follow (.act (.call c)) ∧ t.sender.begin c = (s, .waits stage) ∧
        (t.step move).sender = (s.runStage stage).1 := by
  unfold holder? at h
  split at h
  · simp at h
  · rename_i n
    split at h
    · rename_i hleg
      simp only [Option.some.injEq, Prod.mk.injEq] at h
      obtain ⟨rfl, rfl⟩ := h
      refine Or.inl ⟨n, rfl, rfl, ?_⟩
      simp only [step, hleg]
      rfl
    · simp at h
  · rename_i c
    split at h
    · rename_i hbegin
      simp only [Option.some.injEq, Prod.mk.injEq] at h
      obtain ⟨rfl, rfl⟩ := h
      refine Or.inr ⟨c, rfl, hbegin, ?_⟩
      simp [step, Sender.follow, Sender.act, Sender.call, Sender.finish, hbegin]
    · simp at h
  · simp at h

/-- A stream that wants a key frame is served by a call that carries one. -/
theorem Serves.givesKey (h : t.Serves move i)
    (hkey : i < t.sender.plan.schedule.size → t.sender.plan.schedule.get? i = some .key) :
    t.GivesKey move i := by
  obtain ⟨s, stage, hholder, hserves⟩ := h
  cases stage with
  | encode frame info copy =>
      obtain ⟨kinds, hdone, hcarried⟩ := hserves
      obtain ⟨n, f, hmem⟩ := Sender.encode_answered hdone
      refine ⟨n, kinds, hcarried, Or.inl ⟨f, info, ?_⟩⟩
      rcases holder?_cases hholder with ⟨_, _, rfl, hstep⟩ | ⟨c, _, hbegin, hstep⟩
      · rw [hstep]
        exact hmem
      · obtain ⟨_, _, hsame⟩ := Sender.begin_encode (congrArg Prod.snd hbegin)
        rw [hbegin] at hsame
        rw [hstep, ← hsame]
        exact hmem
  | pullKey j =>
      obtain ⟨rfl, n, kinds, hmem⟩ := hserves
      obtain rfl := Sender.pullKey_answered hmem
      have hrange := Sender.pullKey_in_range hmem
      rcases holder?_cases hholder with ⟨_, _, rfl, hstep⟩ | ⟨c, _, hbegin, hstep⟩
      · refine ⟨n, _, hkey hrange, Or.inr ?_⟩
        rw [hstep]
        exact hmem
      · obtain ⟨rfl, hj⟩ := Sender.begin_pullKey (congrArg Prod.snd hbegin)
        have hfirst := t.sender.markKey_fst j
        have hmarked : s = t.sender.storeSchedule (t.sender.plan.schedule.mark j) := by
          rw [← hfirst]
          exact (congrArg Prod.fst hbegin).symm
        subst hmarked
        refine ⟨n, _, Schedule.get?_mark_self _ _ hj, Or.inr ?_⟩
        rw [hstep]
        exact hmem
  | _ => exact hserves.elim

theorem Forestalled.givesKey (ht : t.sender.Coherent)
    (hkey : t.sender.plan.schedule.get? i = some .key) (h : t.Forestalled i moves) :
    ∃ before move after, moves = before ++ move :: after ∧ (t.run before).GivesKey move i := by
  induction moves using List.reverseRecOn with
  | nil => exact absurd h not_forestalled_nil
  | append_singleton moves move ih =>
      by_cases hearlier : t.Forestalled i moves
      · obtain ⟨before, first, after, rfl, hgives⟩ := ih hearlier
        exact ⟨before, first, after ++ [move], by simp, hgives⟩
      · -- The first to serve the stream found a key frame wanted there.
        rcases forestalled_snoc.mp h with hserves | ⟨hforestalled, _⟩
        · refine ⟨moves, move, [], rfl, hserves.givesKey fun hi => ?_⟩
          exact (run_key_iff ht hkey moves hi).mpr hearlier
        · exact absurd hforestalled hearlier

/-- A request that waited and came without a key frame for its stream came too
late: while it waited, an encoder took another call that carried one. -/
theorem late_request_given_key {s : Sender} (hs : s.Fresh) (moves : List Move) {n i m : Nat}
    {kinds : List FrameKind}
    (hleg : (run { sender := s } moves).calls[n]? = some (.reached (.waits (.pullKey i))))
    (h : .called m (.request kinds) ∈
      entriesSince (run { sender := s } moves).sender.rack.journal
        ((run { sender := s } moves).step (.proceed n)).sender.rack.journal)
    (hkinds : kinds[i]? ≠ some .key) :
    ∃ before first move rest,
      Waited s moves n i before (first ++ move :: rest) ∧
        (run { sender := s } (before ++ .enter (.requestKey i) :: first)).GivesKey move i := by
  obtain ⟨before, after, hwaited, hiff⟩ := proceed_key_iff hs hleg h
  have hmarked : (run { sender := s } (before ++ [.enter (.requestKey i)])).sender.Coherent :=
    run_coherent hs.coherent _
  have hforestalled := not_not.mp fun hno => hkinds (hiff.mpr hno)
  obtain ⟨first, move, rest, rfl, hgives⟩ := hforestalled.givesKey hmarked hwaited.marked
  refine ⟨before, first, move, rest, hwaited, ?_⟩
  rwa [run_step_append, ← run_snoc]

/-- The encoder took the request of the first thread after the second had marked
the stream. -/
theorem late_request_given_key_doubled :
    ∃ before first move rest,
      Waited Sender.sample doubled 1 0 before (first ++ move :: rest) ∧
        (run { sender := Sender.sample } (before ++ .enter (.requestKey 0) :: first)).GivesKey
          move 0 := by
  have hleg : (run { sender := Sender.sample } doubled).calls[1]? =
      some (.reached (.waits (.pullKey 0))) := by decide +kernel
  exact late_request_given_key Sender.sample_fresh doubled hleg doubled_asks_delta (by decide)

end Traffic

end Simulcast
