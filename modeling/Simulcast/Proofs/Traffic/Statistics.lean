import Mathlib.Data.List.Basic
import Simulcast.Proofs.Journal.Ticks
import Simulcast.Proofs.Traffic.Copies

/-!
When statistics are reported. The timer of a sender is served by ticks and by
nothing else, and a tick serves it if a whole period has gone by since the last
one that did. So with a clock that goes forward, over any run of any number of
threads, whatever they and their callbacks do besides: there is one report for
every period at most, a late tick makes up for nothing, and a tick always says
how much of the period under way is left.
-/

namespace Simulcast

theorem PeriodicTimer.remaining_eq_zero_iff (timer : PeriodicTimer) (now : Millis) :
    timer.remaining now = 0 ↔ timer.period ≤ now - timer.last := by
  rw [remaining, Int.max_eq_right_iff]
  exact sub_nonpos

namespace Sender

variable {s s' : Sender}

/-- From `s` to `s'` no time goes by, and the timer and the statistics are left
alone. -/
structure Timeless (s s' : Sender) : Prop where
  now : s'.now = s.now
  timer : s'.timer = s.timer
  reportsStatistics : s'.reportsStatistics = s.reportsStatistics
  journal : ∃ new, s'.rack.journal = new ++ s.rack.journal ∧ ∀ e ∈ new, e.Timeless

theorem Timeless.refl (s : Sender) : s.Timeless s :=
  ⟨rfl, rfl, rfl, [], rfl, List.forall_mem_nil _⟩

theorem Calm.timeless (h : s.Calm s') : s.Timeless s' := by
  obtain ⟨new, hjournal, hnew⟩ := h.journal
  exact ⟨h.now, h.timer, h.reportsStatistics, new, hjournal, fun e he => (hnew e he).timeless⟩

theorem regulate_timeless (s : Sender) (report : Feedback) :
    s.Timeless (s.regulate report).1 := by
  refine ⟨rfl, rfl, rfl, [.rate (.frameRate _), .rate (.fed _ _ _ _)], rfl, ?_⟩
  intro e he
  rcases List.mem_pair.mp he with rfl | rfl <;> exact ⟨rfl, rfl, rfl⟩

theorem begin_timeless (s : Sender) (c : Call) : s.Timeless (s.begin c).1 := by
  cases c with
  | requestKey i =>
      show s.Timeless (s.markKey i).1
      rw [markKey_fst]
      exact ⟨rfl, rfl, rfl, [], rfl, List.forall_mem_nil _⟩
  | feedback report =>
      obtain ⟨hnow, htimer, hsink, hjournal⟩ := s.regulate_timeless report
      exact ⟨hnow, htimer, hsink, hjournal⟩
  | _ => exact .refl s

/-- The period has gone by. -/
def ReportDue (s : Sender) : Prop := s.timer.period ≤ s.now - s.timer.last

instance (s : Sender) : Decidable s.ReportDue := inferInstanceAs (Decidable (_ ≤ _))

/-- What is reported, if anything, when the period has gone by or not. -/
structure ReportEnd (s : Sender) (after : Sender × Option (UInt32 × UInt32)) : Prop where
  now : after.1.now = s.now
  timer : after.1.timer = if s.ReportDue then s.timer.restart s.now else s.timer
  reportsStatistics : after.1.reportsStatistics = s.reportsStatistics
  report : after.2.isSome = (s.reportsStatistics && decide s.ReportDue)
  journal : ∃ new, after.1.rack.journal = new ++ s.rack.journal ∧
    (∀ e ∈ new, e.isNested = false) ∧ statistics new = after.2.toList

theorem report_end (s : Sender) :
    s.ReportEnd (if s.untilDue = 0 then { s with timer := s.timer.restart s.now }.report
      else (s, none)) := by
  have hiff : s.untilDue = 0 ↔ s.ReportDue := s.timer.remaining_eq_zero_iff s.now
  by_cases hdue : s.ReportDue
  · rw [if_pos (hiff.mpr hdue), report]
    split
    · rename_i hsink
      have hsink' : s.reportsStatistics = true := hsink
      refine ⟨rfl, (if_pos hdue).symm, rfl, by simp [hsink', hdue],
        [.statistics _ _, .rate (.sentFrameRate _), .rate (.sentBitrate _)], rfl, ?_, rfl⟩
      simp [Event.isNested]
    · rename_i hsink
      have hsink' : ¬ s.reportsStatistics = true := hsink
      exact ⟨rfl, (if_pos hdue).symm, rfl, by simp [hsink'], [], rfl, by simp, rfl⟩
  · rw [if_neg (hdue ∘ hiff.mp)]
    exact ⟨rfl, (if_neg hdue).symm, rfl, by simp [hdue], [], rfl, by simp, rfl⟩

/-- A whole tick goes on to ask for the frame rate and says how much of the
period is left. -/
structure TickEnd (s : Sender) (after : Sender × TickResult) : Prop
    extends s.ReportEnd (after.1, after.2.report) where
  remaining : after.2.remaining = after.1.timer.remaining s.now

theorem tick_end (s : Sender) : s.TickEnd s.tick := by
  have hfirst := s.report_end
  unfold tick
  generalize (if s.untilDue = 0 then { s with timer := s.timer.restart s.now }.report
    else (s, none)) = first at hfirst ⊢
  obtain ⟨new, hjournal, hnew, hstatistics⟩ := hfirst.journal
  exact
    { now := hfirst.now
      timer := hfirst.timer
      reportsStatistics := hfirst.reportsStatistics
      report := hfirst.report
      journal := by
        refine ⟨.rate (.frameRate _) :: new, congrArg (_ :: ·) hjournal, ?_, hstatistics⟩
        simpa [Event.isNested] using hnew
      remaining := congrArg first.1.timer.remaining hfirst.now }

/-- A tick, after `earlier` ones, reports exactly if it is due and there is
somewhere to report to, and by its end nothing but the reports of ticks was
reported. It says how much is left of the period that is under way then. -/
structure Keeps (period begun : Millis) (sink : Bool) (earlier : List Tick) (tick : Tick) :
    Prop where
  report : tick.result.report.isSome = (sink && decide (tick.Due period begun earlier))
  reported : tick.reported = reports (tick :: earlier)
  remaining : tick.result.remaining =
    PeriodicTimer.remaining ⟨period, periodStart period begun (tick :: earlier)⟩ tick.time

/-- The sender agrees with the log on the time and on the period under way, and
all ticks were as they should be. -/
structure Punctual (o : SenderOptions) (begun : Millis) (s : Sender) (log : List Event) :
    Prop where
  now : s.now = clock begun log
  timer : s.timer = ⟨o.interval, periodStart o.interval begun (ticks begun log)⟩
  reportsStatistics : s.reportsStatistics = o.reportsStatistics
  statistics : statistics log = reports (ticks begun log)
  ticks : ∀ later tick earlier, ticks begun log = later ++ tick :: earlier →
    Keeps o.interval begun o.reportsStatistics earlier tick

variable {o : SenderOptions} {begun : Millis} {log new : List Event}

theorem start_punctual (o : SenderOptions) (begun : Millis) :
    Punctual o begun (start o begun) [] := by
  unfold start
  cases o.dropping <;> exact ⟨rfl, rfl, rfl, rfl, by simp [Simulcast.ticks]⟩

theorem Punctual.append (h : Punctual o begun s log) (hnow : s'.now = s.now)
    (htimer : s'.timer = s.timer) (hsink : s'.reportsStatistics = s.reportsStatistics)
    (hnew : ∀ e ∈ new, e.Timeless) : Punctual o begun s' (new ++ log) := by
  have hclock : clock begun (new ++ log) = clock begun log :=
    clock_append fun e he => (hnew e he).delay
  have hticks : Simulcast.ticks begun (new ++ log) = Simulcast.ticks begun log :=
    ticks_append fun e he => (hnew e he).tick
  have hnone : Simulcast.statistics new = [] :=
    List.filterMap_eq_nil_iff.mpr fun e he => (hnew e he).statistics
  refine ⟨?_, ?_, hsink.trans h.reportsStatistics, ?_, ?_⟩
  · rw [hnow, hclock, h.now]
  · rw [htimer, hticks, h.timer]
  · rw [statistics_append, hnone, hticks, List.nil_append, h.statistics]
  · rw [hticks]
    exact h.ticks

theorem Punctual.entry {e : Event} (h : Punctual o begun s log) (he : e.Timeless) :
    Punctual o begun s (e :: log) := by
  have hentry : Punctual o begun s ([e] ++ log) := h.append rfl rfl rfl (by simpa using he)
  exact hentry

theorem Punctual.note (h : Punctual o begun s log) (e : Event) :
    Punctual o begun (s.note e) log :=
  ⟨h.now, h.timer, h.reportsStatistics, h.statistics, h.ticks⟩

theorem Punctual.timeless (h : Punctual o begun s log) (hs : s.Timeless s') :
    ∃ new, s'.rack.journal = new ++ s.rack.journal ∧ Punctual o begun s' (new ++ log) := by
  obtain ⟨new, hjournal, hnew⟩ := hs.journal
  exact ⟨new, hjournal, h.append hs.now hs.timer hs.reportsStatistics hnew⟩

theorem Punctual.advance (h : Punctual o begun s log) (delay : Millis) (reply : Reply) :
    Punctual o begun (s.advance delay) (.nested (.act (.advance delay)) reply :: log) := by
  refine ⟨?_, h.timer, h.reportsStatistics, h.statistics, h.ticks⟩
  exact congrArg (Millis.after · delay) h.now

theorem Punctual.tick (h : Punctual o begun s log) :
    ∃ new, s.tick.1.rack.journal = new ++ s.rack.journal ∧
      Punctual o begun s.tick.1 (.nested (.act .tick) (.ticked s.tick.2) :: (new ++ log)) := by
  obtain ⟨⟨hnow, htimer, hsink, hreport, new, hjournal, hnew, hstatistics⟩, hremaining⟩ :=
    s.tick_end
  have hclock : clock begun (new ++ log) = clock begun log :=
    clock_append fun e he => Event.delay?_of_not_nested (hnew e he)
  have hsame : Simulcast.ticks begun (new ++ log) = Simulcast.ticks begun log :=
    ticks_append fun e he => Event.tick?_of_not_nested (hnew e he)
  let last : Tick := ⟨s.now, s.tick.2, Simulcast.statistics (new ++ log)⟩
  have hticks : Simulcast.ticks begun (.nested (.act .tick) (.ticked s.tick.2) :: (new ++ log)) =
      last :: Simulcast.ticks begun log := by
    show (⟨_, _, _⟩ : Tick) :: _ = _
    rw [hclock, hsame, ← h.now]
  have hdue : s.ReportDue ↔ last.Due o.interval begun (Simulcast.ticks begun log) := by
    rw [ReportDue, h.timer]
    exact Iff.rfl
  have hserved : s.tick.1.timer =
      ⟨o.interval, periodStart o.interval begun (last :: Simulcast.ticks begun log)⟩ := by
    rw [htimer, periodStart_cons, h.timer]
    by_cases hs : s.ReportDue
    · rw [if_pos hs, if_pos (hdue.mp hs)]
      rfl
    · rw [if_neg hs, if_neg (hs ∘ hdue.mpr)]
  have hreports : Simulcast.statistics (new ++ log) =
      reports (last :: Simulcast.ticks begun log) := by
    rw [statistics_append, hstatistics, h.statistics, reports, reports, List.filterMap_cons]
    cases s.tick.2.report <;> rfl
  refine ⟨new, hjournal, ?_, ?_, hsink.trans h.reportsStatistics, ?_, ?_⟩
  · exact hnow.trans (h.now.trans hclock.symm)
  · rw [hticks, hserved]
  · rw [hticks]
    exact hreports
  · rw [hticks]
    intro later tick earlier heq
    cases later with
    | nil =>
        obtain ⟨rfl, rfl⟩ := List.cons.inj heq
        refine ⟨?_, hreports, hserved ▸ hremaining⟩
        rw [← h.reportsStatistics]
        exact hreport.trans (by simp only [hdue])
    | cons _ later => exact h.ticks later tick earlier (List.cons.inj heq).2

/-- Following an instruction inside a callback, with the entry that says so. -/
theorem Punctual.followInside (h : Punctual o begun s log) (i : Instruction) :
    ∃ new, (s.followInside i).1.rack.journal = new ++ s.rack.journal ∧
      Punctual o begun (s.followInside i).1
        (.nested i (s.followInside i).2 :: (new ++ log)) := by
  have hother : s.Timeless (s.followInside i).1 →
      (Event.nested i (s.followInside i).2).Timeless →
      ∃ new, (s.followInside i).1.rack.journal = new ++ s.rack.journal ∧
        Punctual o begun (s.followInside i).1
          (.nested i (s.followInside i).2 :: (new ++ log)) := by
    intro hs hentry
    obtain ⟨new, hjournal, hpunctual⟩ := h.timeless hs
    exact ⟨new, hjournal, hpunctual.entry hentry⟩
  cases i with
  | act a =>
      cases a with
      | tick => exact h.tick
      | advance delay => exact ⟨[], rfl, h.advance delay .done⟩
      | call c =>
          refine hother ?_ ⟨rfl, rfl, rfl⟩
          show s.Timeless (s.actInside (.call c)).1
          rw [actInside_call_fst]
          exact s.begin_timeless c
      | setFaults n patch =>
          refine hother ?_ ⟨rfl, rfl, rfl⟩
          simp only [Sender.followInside, actInside]
          split
          · exact ⟨rfl, rfl, rfl, [], rfl, List.forall_mem_nil _⟩
          · exact .refl s
      | _ => exact hother ⟨rfl, rfl, rfl, [], rfl, List.forall_mem_nil _⟩ ⟨rfl, rfl, rfl⟩
  | onEncode n instructions =>
      refine hother ?_ ⟨rfl, rfl, rfl⟩
      simp only [Sender.followInside, setOnEncode]
      split
      · exact ⟨rfl, rfl, rfl, [], rfl, List.forall_mem_nil _⟩
      · exact .refl s
  | onImage instructions =>
      exact hother ⟨rfl, rfl, rfl, [], rfl, List.forall_mem_nil _⟩ ⟨rfl, rfl, rfl⟩

theorem Punctual.course (h : Punctual o begun s log) (hs : s.Course s') :
    ∃ new, s'.rack.journal = new ++ s.rack.journal ∧ Punctual o begun s' (new ++ log) := by
  induction hs with
  | refl => exact ⟨[], rfl, h⟩
  | @tail mid _ _ hturn ih =>
      obtain ⟨first, hfirst, hmid⟩ := ih
      cases hturn with
      | step _ calm =>
          obtain ⟨more, hmore, hpunctual⟩ := hmid.timeless calm.timeless
          refine ⟨more ++ first, by rw [hmore, hfirst, List.append_assoc], ?_⟩
          rwa [List.append_assoc]
      | inside i =>
          obtain ⟨more, hmore, hpunctual⟩ := hmid.followInside i
          refine ⟨.nested i (mid.followInside i).2 :: (more ++ first), ?_, ?_⟩
          · show _ :: _ = _
            rw [hmore, hfirst, List.cons_append, List.append_assoc]
          · rw [List.cons_append, List.append_assoc]
            exact hpunctual.note _

theorem Punctual.finish (h : Punctual o begun s log) (progress : Progress) :
    ∃ new, (s.finish progress).1.rack.journal = new ++ s.rack.journal ∧
      Punctual o begun (s.finish progress).1 (new ++ log) := by
  obtain ⟨t, hcourse, hcalm⟩ := s.finish_course progress
  obtain ⟨first, hfirst, hmid⟩ := h.course hcourse
  obtain ⟨more, hmore, hpunctual⟩ := hmid.timeless hcalm.timeless
  refine ⟨more ++ first, by rw [hmore, hfirst, List.append_assoc], ?_⟩
  rwa [List.append_assoc]

/-- An instruction from outside, with an entry for it. -/
theorem Punctual.follow (h : Punctual o begun s log) (i : Instruction) :
    ∃ new, (s.follow i).1.rack.journal = new ++ s.rack.journal ∧
      Punctual o begun (s.follow i).1 (.nested i (s.follow i).2 :: (new ++ log)) := by
  by_cases hcall : ∃ c, i = .act (.call c)
  · obtain ⟨c, rfl⟩ := hcall
    obtain ⟨first, hfirst, hbegun⟩ := h.timeless (s.begin_timeless c)
    obtain ⟨more, hmore, hdone⟩ := hbegun.finish (s.begin c).2
    have hsender : (s.follow (.act (.call c))).1 =
      ((s.begin c).1.finish (s.begin c).2).1 := rfl
    refine ⟨more ++ first, by rw [hsender, hmore, hfirst, List.append_assoc], ?_⟩
    rw [hsender, List.append_assoc]
    exact hdone.entry ⟨rfl, rfl, rfl⟩
  · have heq : s.follow i = s.followInside i := by
      cases i with
      | act a => exact s.act_eq_actInside fun c hc => hcall ⟨c, hc ▸ rfl⟩
      | _ => rfl
    rw [heq]
    exact h.followInside i

end Sender

namespace Traffic

variable {t : Traffic} {o : SenderOptions} {begun : Millis} {log : List Event}

/-- The entries of a move. An instruction from outside gets one as well. -/
def record (t : Traffic) (move : Move) : List Event :=
  match move with
  | .follow i =>
      .nested i (t.sender.follow i).2 ::
        entriesSince t.sender.rack.journal (t.step move).sender.rack.journal
  | _ => entriesSince t.sender.rack.journal (t.step move).sender.rack.journal

/-- Everything that happened in a run, the latest first. -/
def chronicle (t : Traffic) : List Move → List Event
  | [] => []
  | move :: rest => (t.step move).chronicle rest ++ t.record move

theorem step_punctual (h : Sender.Punctual o begun t.sender log) (move : Move) :
    Sender.Punctual o begun (t.step move).sender (t.record move ++ log) := by
  have hsince : ∀ {s' : Sender}, (∃ new, s'.rack.journal = new ++ t.sender.rack.journal ∧
      Sender.Punctual o begun s' (new ++ log)) →
      Sender.Punctual o begun s'
        (entriesSince t.sender.rack.journal s'.rack.journal ++ log) := by
    rintro s' ⟨new, hjournal, hpunctual⟩
    rwa [hjournal, entriesSince_append]
  cases move with
  | enter c =>
      refine hsince ?_
      show ∃ new, (t.sender.enter c).1.rack.journal = _ ∧ Sender.Punctual _ _ (t.sender.enter c).1 _
      rcases enter_cases t.sender c with ⟨report, rfl, heq⟩ | heq
      · rw [heq]
        exact h.timeless (t.sender.regulate_timeless report)
      · rw [heq]
        exact h.timeless (t.sender.begin_timeless c)
  | proceed n =>
      refine hsince ?_
      cases hleg : t.calls[n]? with
      | none =>
          simp only [step, hleg]
          exact ⟨[], rfl, h⟩
      | some leg =>
          simp only [step, hleg]
          cases leg with
          | regulated rates => exact ⟨[], rfl, h.append rfl rfl rfl (by simp)⟩
          | reached progress => exact h.finish progress
  | follow i =>
      obtain ⟨new, hjournal, hpunctual⟩ := h.follow i
      have hrecord : t.record (.follow i) = .nested i (t.sender.follow i).2 :: new := by
        show _ :: entriesSince _ (t.sender.follow i).1.rack.journal = _
        rw [hjournal, entriesSince_append]
      rw [hrecord]
      exact hpunctual

theorem run_punctual (h : Sender.Punctual o begun t.sender log) (moves : List Move) :
    Sender.Punctual o begun (t.run moves).sender (t.chronicle moves ++ log) := by
  induction moves generalizing t log with
  | nil => exact h
  | cons move rest ih =>
      have hrest := ih (step_punctual h move)
      rwa [← List.append_assoc] at hrest

/-- How ticks and reports came about in a log that began at `begun`. When ticks
are due, and how many, has nothing to do with whether there is anywhere to
report to. -/
structure Reporting (o : SenderOptions) (begun : Millis) (s : Sender) (log : List Event) :
    Prop where
  /-- A tick reports if it is due and there is somewhere to report to, and by
  its end nothing was reported but that. -/
  report : ∀ later tick earlier, ticks begun log = later ++ tick :: earlier →
    tick.result.report.isSome =
        (o.reportsStatistics && decide (tick.Due o.interval begun earlier)) ∧
      tick.reported = reports (tick :: earlier)
  /-- A tick answers how much is left of the period then under way. -/
  remaining : ∀ later tick earlier, ticks begun log = later ++ tick :: earlier →
    tick.result.remaining =
        o.interval - (tick.time - periodStart o.interval begun (tick :: earlier)) ∧
      1 ≤ tick.result.remaining ∧ tick.result.remaining ≤ o.interval
  statistics : statistics log = reports (ticks begun log)
  reported : ((ticks begun log).filter fun tick => tick.result.report.isSome).map Tick.time =
    if o.reportsStatistics then dueTimes o.interval begun (ticks begun log) else []
  apart : (dueTimes o.interval begun (ticks begun log) ++ [begun]).IsChain
    fun next last => last + o.interval ≤ next
  room : (dueTimes o.interval begun (ticks begun log)).length * o.interval ≤ s.now - begun
  room_reports : (Simulcast.statistics log).length * o.interval ≤ s.now - begun
  untilDue : s.untilDue =
    max (o.interval - (s.now - periodStart o.interval begun (ticks begun log))) 0

/-- Ticks that report exactly if they are due report at the times that are. -/
theorem reported_eq {period begun : Millis} {sink : Bool} {all : List Tick}
    (h : ∀ later tick earlier, all = later ++ tick :: earlier →
      tick.result.report.isSome = (sink && decide (tick.Due period begun earlier))) :
    (all.filter fun tick => tick.result.report.isSome).map Tick.time =
      if sink then dueTimes period begun all else [] := by
  induction all with
  | nil => simp [dueTimes]
  | cons tick earlier ih =>
      have hfirst := h [] tick earlier rfl
      have hrest := ih fun later tick' earlier' heq =>
        h (tick :: later) tick' earlier' (by rw [heq, List.cons_append])
      rw [List.filter_cons, hfirst]
      cases sink with
      | false => simpa using hrest
      | true =>
          by_cases hdue : tick.Due period begun earlier
          · rw [dueTimes_of_due hdue]
            simpa [hdue] using hrest
          · rw [dueTimes_of_not_due hdue]
            simpa [hdue] using hrest

theorem reporting_of_punctual {s : Sender} (h : Sender.Punctual o begun s log)
    (hperiod : 0 < o.interval) (hforward : Forward begun log) : Reporting o begun s log := by
  have hreported := reported_eq fun later tick earlier heq => (h.ticks later tick earlier heq).report
  have hroom : (dueTimes o.interval begun (ticks begun log)).length * o.interval ≤
      s.now - begun := by
    have hcount := length_dueTimes_le o.interval begun (ticks begun log)
    have hpast : periodStart o.interval begun (ticks begun log) ≤ clock begun log :=
      periodStart_le_clock hforward
    rw [h.now]
    linarith
  refine ⟨fun later tick earlier heq => ?_, fun later tick earlier heq => ?_, h.statistics,
    hreported, dueTimes_apart _ _ _, hroom, ?_, ?_⟩
  · have hkeeps := h.ticks later tick earlier heq
    exact ⟨hkeeps.report, hkeeps.reported⟩
  · obtain ⟨hpast, hrecent⟩ := hforward.elapsed hperiod heq
    have hleft : tick.result.remaining =
        o.interval - (tick.time - periodStart o.interval begun (tick :: earlier)) := by
      rw [(h.ticks later tick earlier heq).remaining]
      exact max_eq_left (by linarith)
    rw [hleft]
    exact ⟨rfl, Int.add_one_le_of_lt (sub_pos.mpr hrecent), by linarith⟩
  · have hlength : (statistics log).length = (if o.reportsStatistics then
        dueTimes o.interval begun (ticks begun log) else []).length := by
      rw [h.statistics, ← hreported, List.length_map, reports, List.length_filterMap_eq_countP,
        List.countP_eq_length_filter]
    rw [hlength]
    split
    · exact hroom
    · have hnone : (0 : Int) ≤
          (dueTimes o.interval begun (ticks begun log)).length * o.interval := by
        positivity
      simpa using hnone.trans hroom
  · rw [Sender.untilDue, h.timer]
    rfl

/-- Over any run of any number of threads from the beginning, with a positive
interval and a clock that is never set back. -/
theorem statistics_on_time (o : SenderOptions) (begun : Millis) (hperiod : 0 < o.interval)
    (moves : List Move)
    (hforward : Forward begun (chronicle { sender := Sender.start o begun } moves)) :
    Reporting o begun (run { sender := Sender.start o begun } moves).sender
      (chronicle { sender := Sender.start o begun } moves) := by
  have hpunctual := run_punctual (t := { sender := Sender.start o begun })
    (Sender.start_punctual o begun) moves
  rw [List.append_nil] at hpunctual
  exact reporting_of_punctual hpunctual hperiod hforward

/-- Somewhere to report to, once per second. -/
def reportingOptions : SenderOptions where
  reportsStatistics := true
  rate := .scripted { sentBitrate := 250000, sentFrameRate := 15 }
  blueprints := fun _ => some {}

/-- A tick early on, one from inside the callback of an encode call, one in time
and one that is late by more than a period. -/
def ticking : List Move :=
  [.follow (.act (Sender.sampleRegistration 1)), .follow (.act Sender.sampleFeedback),
    .follow (.onEncode 0 [.act (.advance 400), .act .tick]),
    .follow (.act .tick), .follow (.act (.call (.submit Sender.sampleFrame none))),
    .follow (.act (.advance 600)), .follow (.act .tick),
    .follow (.act (.advance 2500)), .follow (.act .tick)]

/-- The last two report, once each. -/
theorem statistics_on_time_ticking :
    0 < reportingOptions.interval ∧
      Forward 0 (chronicle { sender := Sender.start reportingOptions 0 } ticking) ∧
      Reporting reportingOptions 0
        (run { sender := Sender.start reportingOptions 0 } ticking).sender
        (chronicle { sender := Sender.start reportingOptions 0 } ticking) ∧
      (ticks 0 (chronicle { sender := Sender.start reportingOptions 0 } ticking)).map
          (fun tick => (tick.time, tick.result.remaining, tick.result.report)) =
        [(3500, 1000, some (250000, 15)), (1000, 1000, some (250000, 15)), (400, 600, none),
          (0, 1000, none)] := by
  have hperiod : 0 < reportingOptions.interval := by decide
  have hforward :
      Forward 0 (chronicle { sender := Sender.start reportingOptions 0 } ticking) := by
    decide +kernel
  exact ⟨hperiod, hforward, statistics_on_time reportingOptions 0 hperiod ticking hforward,
    by decide +kernel⟩

end Traffic

end Simulcast
