import Mathlib.Data.List.Induction
import Simulcast.Proofs.Sender.Rates
import Simulcast.Proofs.Traffic.Origin

/-!
Feedback that goes on late. Rate control answers it in one section and its rates
get into the plan in another, and nothing keeps two calls in order in between.
Once no feedback is left between the two, the plan has the network's last report
unless the last rates stored were those of a call that another one had overtaken.
Nothing but such a call loses a report: what is reported from inside callbacks or
from outside in one go is heard and stored at once.
-/

namespace Simulcast

namespace Traffic

variable {t : Traffic} {moves : List Move} {move : Move}

/-- What the network reported last, if anything. -/
def heard (t : Traffic) : RateParameters := (lastHeard? t.sender.rack.journal).getD {}

/-- What a move puts into the plan that comes from a report. Feedback stores the
rates it came with from rate control; anything else stores what it hears. -/
def stored? (t : Traffic) (move : Move) : Option RateParameters :=
  match move with
  | .enter _ => none
  | .proceed n =>
      match t.calls[n]? with
      | some (.regulated rates) => some rates.reported
      | _ => lastHeard? (entriesSince t.sender.rack.journal (t.step move).sender.rack.journal)
  | .follow _ =>
      lastHeard? (entriesSince t.sender.rack.journal (t.step move).sender.rack.journal)

/-- None of the moves puts a report into the plan. -/
def Storeless (t : Traffic) : List Move → Prop
  | [] => True
  | move :: rest => t.stored? move = none ∧ (t.step move).Storeless rest

/-- The call numbered `n` has yet to store the rates it got from rate control. -/
def Brings (t : Traffic) (n : Nat) (rates : RateParameters) : Prop :=
  t.calls[n]? = some (.regulated rates)

/-- The last report put into the plan is that of a feedback call, and it is not
what the network reported last. -/
def Overwritten (t : Traffic) (moves : List Move) : Prop :=
  ∃ before n after rates, moves = before ++ .proceed n :: after ∧
    (t.run before).Brings n rates ∧
    (t.run (before ++ [.proceed n])).Storeless after ∧
    rates.reported ≠ (t.run moves).heard

theorem step_reported (t : Traffic) (move : Move) :
    (t.step move).sender.plan.rates.reported =
      (t.stored? move).getD t.sender.plan.rates.reported := by
  cases move with
  | enter c =>
      cases c with
      | requestKey i =>
          show (t.sender.markKey i).1.plan.rates.reported = _
          rw [Sender.markKey_fst]
          rfl
      | _ => rfl
  | proceed n =>
      cases hleg : t.calls[n]? with
      | none => simp [stored?, step, hleg, entriesSince_self, lastHeard?]
      | some leg =>
          cases leg with
          | regulated rates =>
              simp only [stored?, step, hleg]
              rfl
          | reached progress =>
              have hsender : (t.step (.proceed n)).sender = (t.sender.finish progress).1 := by
                simp only [step, hleg]
                rfl
              simp only [stored?, hleg, hsender]
              exact (t.sender.finish_refreshes progress).reported
  | follow i => exact (t.sender.follow_refreshes i).reported

/-- What a move does to the network's last report and to feedback under way. -/
inductive Hears (t : Traffic) : Move → Prop where
  /-- Feedback is answered, and its rates are those of the last report now. -/
  | answered {move : Move} {rates : RateParameters}
      (brings : (t.step move).Brings t.calls.length rates)
      (heard : rates.reported = (t.step move).heard) : Hears t move
  /-- Feedback goes on. -/
  | late {n : Nat} {rates : RateParameters} (brings : t.Brings n rates)
      (heard : (t.step (.proceed n)).heard = t.heard) : Hears t (.proceed n)
  /-- What is heard is stored. -/
  | whole {move : Move} (heard : (t.step move).heard = (t.stored? move).getD t.heard)
      (brings : ∀ n rates, t.Brings n rates → (t.step move).Brings n rates) : Hears t move

theorem heard_of_refreshes {t' : Traffic} (h : t.sender.Refreshes t'.sender) :
    t'.heard = (lastHeard? (entriesSince t.sender.rack.journal t'.sender.rack.journal)).getD
      t.heard := by
  obtain ⟨new, hjournal, _⟩ := h
  rw [heard, hjournal, entriesSince_append, lastHeard?, List.findSome?_append]
  cases hnew : new.findSome? Event.heard? <;> simp [lastHeard?, hnew, heard]

theorem enter_hears (t : Traffic) (c : Call) : t.Hears (.enter c) := by
  have hother (hjournal : (t.step (.enter c)).sender.rack.journal = t.sender.rack.journal) :
      t.Hears (.enter c) := by
    refine .whole (congrArg (fun journal => (lastHeard? journal).getD {}) hjournal) ?_
    intro n rates hbrings
    have hlt : n < t.calls.length := (List.getElem?_eq_some_iff.mp hbrings).1
    exact (step_calls_of_ne (by simp) hlt).trans hbrings
  cases c with
  | feedback report =>
      exact .answered (Leaves.entered (.feedback report) rfl).calls rfl
  | requestKey i =>
      refine hother ?_
      show (t.sender.markKey i).1.rack.journal = _
      rw [Sender.markKey_fst]
      rfl
  | _ => exact hother rfl

theorem step_hears (t : Traffic) (move : Move) : t.Hears move := by
  cases move with
  | enter c => exact t.enter_hears c
  | proceed n =>
      cases hleg : t.calls[n]? with
      | none =>
          have hsame : t.step (.proceed n) = t := by simp [step, hleg]
          refine .whole ?_ fun _ _ h => by rwa [hsame]
          simp [stored?, hleg, hsame, entriesSince_self, lastHeard?]
      | some leg =>
          cases leg with
          | regulated rates =>
              refine .late hleg ?_
              simp only [step, hleg]
              rfl
          | reached progress =>
              refine .whole ?_ fun k rates h => ?_
              · have hsender : (t.step (.proceed n)).sender = (t.sender.finish progress).1 := by
                  simp only [step, hleg]
                  rfl
                have hrefreshes := t.sender.finish_refreshes progress
                rw [← hsender] at hrefreshes
                simp only [stored?, hleg]
                exact heard_of_refreshes hrefreshes
              · have hlt : k < t.calls.length := (List.getElem?_eq_some_iff.mp h).1
                have hkn : n ≠ k := by
                  rintro rfl
                  simp [Brings, hleg] at h
                exact (step_calls_of_ne (by simpa using hkn) hlt).trans h
  | follow i => exact .whole (heard_of_refreshes (t.sender.follow_refreshes i)) fun _ _ h => h

theorem storeless_snoc (t : Traffic) (moves : List Move) (move : Move) :
    t.Storeless (moves ++ [move]) ↔ t.Storeless moves ∧ (t.run moves).stored? move = none := by
  induction moves generalizing t with
  | nil => simp [Storeless, run]
  | cons first rest ih =>
      rw [List.cons_append, Storeless, Storeless, ih, and_assoc]
      rfl

theorem Storeless.reported (h : t.Storeless moves) :
    (t.run moves).sender.plan.rates.reported = t.sender.plan.rates.reported := by
  induction moves generalizing t with
  | nil => rfl
  | cons move rest ih =>
      have hstep := t.step_reported move
      rw [h.1] at hstep
      exact (ih h.2).trans hstep

theorem Overwritten.reported (h : t.Overwritten moves) :
    (t.run moves).sender.plan.rates.reported ≠ (t.run moves).heard := by
  obtain ⟨before, n, after, rates, rfl, hbrings, hafter, hother⟩ := h
  have hleg : (t.run before).calls[n]? = some (.regulated rates) := hbrings
  have hstored : (t.run (before ++ [.proceed n])).sender.plan.rates.reported =
      rates.reported := by
    rw [run_snoc, step_reported]
    simp [stored?, hleg]
  rw [List.append_cons, run_append, hafter.reported, hstored]
  rwa [List.append_cons, run_append] at hother

theorem Overwritten.snoc (h : t.Overwritten moves) (hnone : (t.run moves).stored? move = none)
    (hheard : (t.run (moves ++ [move])).heard = (t.run moves).heard) :
    t.Overwritten (moves ++ [move]) := by
  obtain ⟨before, n, after, rates, rfl, hbrings, hafter, hother⟩ := h
  refine ⟨before, n, after ++ [move], rates, by simp, hbrings, ?_, by rwa [hheard]⟩
  rw [storeless_snoc, ← run_append, ← List.append_cons]
  exact ⟨hafter, hnone⟩

/-- The last report is in the plan or on its way there, or the plan was
overwritten by a call it had overtaken. -/
theorem run_heard (hstart : t.sender.plan.rates.reported = t.heard) (moves : List Move) :
    (t.run moves).sender.plan.rates.reported = (t.run moves).heard ∨
      (∃ n rates, (t.run moves).Brings n rates ∧ rates.reported = (t.run moves).heard) ∨
      t.Overwritten moves := by
  induction moves using List.reverseRecOn with
  | nil => exact Or.inl hstart
  | append_singleton moves move ih =>
      have hreported := (t.run moves).step_reported move
      have hlast := run_snoc t moves move
      cases (t.run moves).step_hears move with
      | answered brings heard =>
          rw [hlast]
          exact Or.inr (Or.inl ⟨_, _, brings, heard⟩)
      | @late n rates brings heard =>
          have hleg : (t.run moves).calls[n]? = some (.regulated rates) := brings
          have hstored : (t.run (moves ++ [.proceed n])).sender.plan.rates.reported =
              rates.reported := by
            rw [hlast, hreported]
            simp [stored?, hleg]
          by_cases hsame : rates.reported = (t.run (moves ++ [.proceed n])).heard
          · exact Or.inl (hstored.trans hsame)
          · exact Or.inr (Or.inr ⟨moves, n, [], rates, rfl, brings, trivial, hsame⟩)
      | whole heard brings =>
          cases hmove : (t.run moves).stored? move with
          | some rates =>
              rw [hmove] at hreported heard
              exact Or.inl (by rw [hlast, hreported, heard]; rfl)
          | none =>
              have hheard : (t.run (moves ++ [move])).heard = (t.run moves).heard := by
                rw [hlast, heard, hmove]
                rfl
              rw [hheard]
              rcases ih with hkept | ⟨n, rates, hbrings, hrates⟩ | hoverwritten
              · refine Or.inl ?_
                rw [hlast, hreported, hmove]
                exact hkept
              · exact Or.inr (Or.inl ⟨n, rates, hlast ▸ brings n rates hbrings, hrates⟩)
              · exact Or.inr (Or.inr (hoverwritten.snoc hmove hheard))

/-- Once no feedback is between its two sections, the plan has the network's last
report unless it was overwritten by a call that the report had overtaken. -/
theorem last_report_kept_iff (o : SenderOptions) (now : Millis) (moves : List Move)
    (hsettled : ∀ n rates, ¬ (run { sender := .start o now } moves).Brings n rates) :
    (run { sender := .start o now } moves).sender.plan.rates.reported =
        (run { sender := .start o now } moves).heard ↔
      ¬ Overwritten { sender := .start o now } moves := by
  have hstart : (Sender.start o now).plan.rates.reported =
      heard { sender := .start o now } := by
    unfold Sender.start
    cases o.dropping <;> rfl
  constructor
  · exact fun hkept hoverwritten => hoverwritten.reported hkept
  · intro hnot
    rcases run_heard (t := { sender := .start o now }) hstart moves with
      hkept | ⟨n, rates, hbrings, _⟩ | hoverwritten
    · exact hkept
    · exact absurd hbrings (hsettled n rates)
    · exact absurd hoverwritten hnot

/-- Two reports that rate control hears in one order and that get into the plan
in the other. -/
def crossed : List Move :=
  [.enter (.feedback ⟨300000, 0, 50⟩), .enter (.feedback ⟨500000, 10, 80⟩), .proceed 1, .proceed 0]

/-- Both calls come to their end, and the plan has the first report. -/
theorem crossed_keeps_first :
    reply? (run { sender := Sender.sample } crossed) 0 = some .done ∧
      reply? (run { sender := Sender.sample } crossed) 1 = some .done ∧
      heard (run { sender := Sender.sample } crossed) = ⟨500000, 10, 80, 0⟩ ∧
      (run { sender := Sender.sample } crossed).sender.plan.rates = ⟨300000, 0, 50, 0⟩ := by
  decide +kernel

end Traffic

end Simulcast
