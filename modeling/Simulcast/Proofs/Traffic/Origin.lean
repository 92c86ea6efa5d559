import Mathlib.Data.List.Induction
import Simulcast.Proofs.Traffic.Copies

/-!
Where a call under way comes from. How far a call has come was settled by the
last move that concerned it, the one that made it or the last one it went on
with; moves of other calls and instructions from outside leave it alone. So a
copy of the plan was taken when the call was made, and rates that wait for the
encoder went into the plan at the call's own last move.
-/

namespace Simulcast

namespace Traffic

variable {t : Traffic} {n : Nat} {move : Move} {leg : Leg}

/-- The move leaves the call with number `n` at `leg`. -/
inductive Leaves (t : Traffic) (n : Nat) : Move → Leg → Prop where
  | entered (c : Call) (last : n = t.calls.length) : Leaves t n (.enter c) (t.sender.enter c).2
  | proceeded {leg : Leg} (h : t.calls[n]? = some leg) :
      Leaves t n (.proceed n) (t.sender.proceed leg).2

theorem Leaves.calls (h : t.Leaves n move leg) : (t.step move).calls[n]? = some leg := by
  cases h with
  | entered c last => simp [step, last]
  | @proceeded old h =>
      have hlt : n < t.calls.length := (List.getElem?_eq_some_iff.mp h).1
      simp only [step, h]
      exact List.getElem?_set_self hlt

theorem step_calls_of_ne (h : move ≠ .proceed n) (hlt : n < t.calls.length) :
    (t.step move).calls[n]? = t.calls[n]? := by
  cases move with
  | enter c =>
      simp only [step]
      rw [List.getElem?_append_left hlt]
  | proceed k =>
      have hkn : k ≠ n := fun heq => h (heq ▸ rfl)
      cases hleg : t.calls[k]? with
      | none => simp [step, hleg]
      | some old => simp [step, hleg, hkn]
  | follow i => rfl

/-- A move leaves a call where it was, unless it is the one that concerns
it. -/
theorem step_leaves (h : (t.step move).calls[n]? = some leg) :
    t.Leaves n move leg ∨ (t.calls[n]? = some leg ∧ move ≠ .proceed n) := by
  rcases Nat.lt_or_ge n t.calls.length with hlt | hge
  · by_cases hmove : move = .proceed n
    · subst hmove
      have hold := List.getElem?_eq_getElem hlt
      have hleg := (Leaves.proceeded hold).calls.symm.trans h
      obtain rfl := Option.some.inj hleg
      exact Or.inl (.proceeded hold)
    · rw [step_calls_of_ne hmove hlt] at h
      exact Or.inr ⟨h, hmove⟩
  · -- The call did not exist before, so the move made it.
    left
    cases move with
    | enter c =>
        simp only [step] at h
        have hlast : n = t.calls.length := by
          have hlt := (List.getElem?_eq_some_iff.mp h).1
          rw [List.length_append, List.length_singleton] at hlt
          omega
        subst hlast
        rw [List.getElem?_concat_length, Option.some.injEq] at h
        subst h
        exact .entered c rfl
    | proceed k =>
        have hlength : (t.step (.proceed k)).calls.length = t.calls.length := by
          cases hleg : t.calls[k]? <;> simp [step, hleg]
        rw [List.getElem?_eq_none (by omega)] at h
        simp at h
    | follow i =>
        have hnone : t.calls[n]? = none := List.getElem?_eq_none hge
        have hsome : t.calls[n]? = some leg := h
        rw [hnone] at hsome
        simp at hsome

theorem run_calls_of_not_mem {moves : List Move} (h : .proceed n ∉ moves)
    (hleg : t.calls[n]? = some leg) : (t.run moves).calls[n]? = some leg := by
  induction moves generalizing t with
  | nil => exact hleg
  | cons move rest ih =>
      rw [List.mem_cons, not_or] at h
      refine ih h.2 ?_
      have hlt : n < t.calls.length := (List.getElem?_eq_some_iff.mp hleg).1
      rw [step_calls_of_ne (fun heq => h.1 heq.symm) hlt, hleg]

/-- A call is where the last move that concerned it left it. -/
theorem exists_leaves (hempty : t.calls = []) (moves : List Move)
    (h : (t.run moves).calls[n]? = some leg) :
    ∃ before move after, moves = before ++ move :: after ∧
      (t.run before).Leaves n move leg ∧ .proceed n ∉ after := by
  induction moves using List.reverseRecOn with
  | nil =>
      have hnone : t.calls[n]? = some leg := h
      simp [hempty] at hnone
  | append_singleton moves move ih =>
      rw [run_snoc] at h
      rcases step_leaves h with hleaves | ⟨hold, hmove⟩
      · exact ⟨moves, move, [], rfl, hleaves, by simp⟩
      · obtain ⟨before, first, after, rfl, hleaves, hafter⟩ := ih hold
        refine ⟨before, first, after ++ [move], by simp, hleaves, ?_⟩
        simp only [List.mem_append, List.mem_singleton, not_or]
        exact ⟨hafter, fun heq => hmove heq.symm⟩

theorem run_step_append (t : Traffic) (before : List Move) (move : Move) (after : List Move) :
    t.run (before ++ move :: after) = ((t.run before).step move).run after := by
  rw [run_append]
  rfl

/-- A submission under way carries the plan as it was when it was made. -/
theorem copy_origin {s : Sender} {moves : List Move} {frame : Frame} {info : Option SideInfo}
    {copy : Plan}
    (h : (run { sender := s } moves).calls[n]? = some (.reached (.waits (.encode frame info copy)))) :
    ∃ before c after, moves = before ++ .enter c :: after ∧
      n = (run { sender := s } before).calls.length ∧
      copy = (run { sender := s } before).sender.plan := by
  obtain ⟨before, move, after, hmoves, hleaves, _⟩ := exists_leaves rfl moves h
  generalize hleg : Leg.reached (.waits (.encode frame info copy)) = leg at hleaves
  cases hleaves with
  | entered c last => exact ⟨before, c, after, hmoves, last, (enter_copy hleg.symm).1⟩
  | proceeded hold => exact absurd hleg.symm (proceed_no_copy _ _ _ _ _)

theorem enter_not_pushRates (s : Sender) (c : Call) (rates : RateParameters) :
    (s.enter c).2 ≠ .reached (.waits (.pushRates rates)) := by
  intro h
  obtain ⟨report, rfl⟩ := (Sender.begin_pushRates (enter_waits h).2).1
  simp [Sender.enter] at h

theorem proceed_regulated (s : Sender) (rates : RateParameters)
    (h : s.plan.internalSource = true) :
    s.proceed (.regulated rates) =
      (s.storeRates rates, .reached (.waits (.pushRates rates))) := by
  simp [Sender.proceed, Sender.keepRates, h]

/-- Rates that wait for the encoder went into the plan while it named an
internal source, and the call has not gone on since. -/
theorem push_origin {s : Sender} {moves : List Move} {rates : RateParameters}
    (h : (run { sender := s } moves).calls[n]? = some (.reached (.waits (.pushRates rates)))) :
    ∃ before after, moves = before ++ .proceed n :: after ∧ .proceed n ∉ after ∧
      (run { sender := s } before).calls[n]? = some (.regulated rates) ∧
      (run { sender := s } before).sender.plan.internalSource = true := by
  obtain ⟨before, move, after, hmoves, hleaves, hafter⟩ := exists_leaves rfl moves h
  generalize hleg : Leg.reached (.waits (.pushRates rates)) = leg at hleaves
  cases hleaves with
  | entered c last => exact absurd hleg.symm (enter_not_pushRates _ _ _)
  | proceeded hold =>
      obtain ⟨given, rfl, hstage, hsource⟩ := proceed_waits hleg.symm
      obtain rfl := EncoderStage.pushRates.inj hstage
      exact ⟨before, after, hmoves, hafter, hold, hsource⟩

end Traffic

end Simulcast
