import Mathlib.Data.List.Basic
import Simulcast.Proofs.Journal.Targets

/-!
What a journal says of the network's last report: what rate control made of it,
what has happened since, and which rates an encoder was handed last. Rates are
compared without their frame rate, which no report carries.
-/

namespace Simulcast

/-- Rates as far as they come from a report of the network. -/
def RateParameters.reported (r : RateParameters) : RateParameters := { r with frameRate := 0 }

namespace Event

/-- The rates that came of a report of the network. -/
def heard? : Event → Option RateParameters
  | .rate (.fed _ lossRate roundTrip target) => some ⟨target, lossRate, roundTrip, 0⟩
  | _ => none

/-- The rates that encoder `n` is handed. -/
def handed? (n : Nat) : Event → Option RateParameters
  | .called m (.configure rates) => if m = n then some rates.reported else none
  | _ => none

theorem heard?_of_not_fed {e : Event} (h : e.isFed = false) : e.heard? = none := by
  cases e with
  | rate c => cases c <;> simp_all [isFed, heard?]
  | _ => rfl

theorem eq_of_handed? {e : Event} {n : Nat} {rates : RateParameters}
    (h : e.handed? n = some rates) :
    ∃ given, e = .called n (.configure given) ∧ given.reported = rates := by
  unfold handed? at h
  split at h
  · rename_i m given
    split at h
    · rename_i hm
      exact ⟨given, by rw [hm], Option.some.inj h⟩
    · simp at h
  · simp at h

end Event

/-- The rates that came of the network's last report. -/
def lastHeard? (journal : List Event) : Option RateParameters := journal.findSome? Event.heard?

/-- The rates that encoder `n` was handed last. -/
def lastHanded? (n : Nat) (journal : List Event) : Option RateParameters :=
  journal.findSome? (Event.handed? n)

/-- What has happened since the network's last report. -/
def sinceReport (journal : List Event) : List Event := journal.takeWhile fun e => !e.isFed

/-- What had happened before the network's last report. -/
def beforeReport (journal : List Event) : List Event :=
  (journal.dropWhile fun e => !e.isFed).tail

/-- A codec was registered after the last report, encoder `n` has not been
handed anything since, and what it was handed before is something else. -/
structure Missed (n : Nat) (rates : RateParameters) (journal : List Event) : Prop where
  registered : 0 < registrations (sinceReport journal)
  untold : lastHanded? n (sinceReport journal) = none
  other : lastHanded? n (beforeReport journal) ≠ some rates

variable {new old journal : List Event} {n : Nat} {rates : RateParameters}

theorem lastHeard?_append (h : ∀ e ∈ new, e.isFed = false) :
    lastHeard? (new ++ old) = lastHeard? old := by
  have hnone : new.findSome? Event.heard? = none := by
    rw [List.findSome?_eq_none_iff]
    exact fun e he => Event.heard?_of_not_fed (h e he)
  simp [lastHeard?, List.findSome?_append, hnone]

theorem sinceReport_append (h : ∀ e ∈ new, e.isFed = false) :
    sinceReport (new ++ old) = new ++ sinceReport old :=
  List.takeWhile_append_of_pos (by simpa using h)

theorem sinceReport_fed {e : Event} (he : e.isFed = true) (h : ∀ e ∈ new, e.isFed = false) :
    sinceReport (new ++ e :: old) = new := by
  rw [sinceReport_append h]
  simp [sinceReport, he]

theorem lastHanded?_eq_none_iff :
    lastHanded? n journal = none ↔ ∀ given, .called n (.configure given) ∉ journal := by
  rw [lastHanded?, List.findSome?_eq_none_iff]
  constructor
  · intro h given hmem
    simpa [Event.handed?] using h _ hmem
  · intro h e he
    cases hhanded : e.handed? n with
    | none => rfl
    | some rates =>
        obtain ⟨given, rfl, _⟩ := Event.eq_of_handed? hhanded
        exact absurd he (h given)

/-- A report divides what an encoder was handed into before and since. -/
theorem lastHanded?_split (h : lastHeard? journal = some rates) :
    lastHanded? n journal =
      (lastHanded? n (sinceReport journal)).or (lastHanded? n (beforeReport journal)) := by
  rcases exists_last_fed journal with
    hnone | ⟨since, bitrate, lossRate, roundTrip, target, before, rfl, hsince⟩
  · rw [← List.append_nil journal, lastHeard?_append hnone] at h
    simp [lastHeard?] at h
  · have hbefore : beforeReport
        (since ++ .rate (.fed bitrate lossRate roundTrip target) :: before) = before := by
      rw [beforeReport, List.dropWhile_append_of_pos (by simpa using hsince)]
      rfl
    rw [sinceReport_fed rfl hsince, hbefore, lastHanded?, List.findSome?_append]
    rfl

/-- Where an encoder was told of the last report unless a codec has been
registered since, and was never told otherwise, it holds the report unless it
was missed. -/
theorem held_iff_not_missed (hheard : lastHeard? journal = some rates)
    (hgiven : ∀ given, .called n (.configure given) ∈ sinceReport journal →
      given.reported = rates)
    (htold : 0 < registrations (sinceReport journal) ∨
      ∃ given, .called n (.configure given) ∈ sinceReport journal) :
    lastHanded? n journal = some rates ↔ ¬ Missed n rates journal := by
  rw [lastHanded?_split hheard]
  cases hsince : lastHanded? n (sinceReport journal) with
  | some last =>
      obtain ⟨e, he, hhanded⟩ := List.exists_of_findSome?_eq_some hsince
      obtain ⟨given, rfl, hlast⟩ := Event.eq_of_handed? hhanded
      have hsame : last = rates := hlast.symm.trans (hgiven given he)
      simp only [Option.some_or, hsame, true_iff]
      exact fun hmissed => by simpa [hsince] using hmissed.untold
  | none =>
      have hregistered : 0 < registrations (sinceReport journal) := by
        rcases htold with hregistered | ⟨given, hmem⟩
        · exact hregistered
        · exact absurd hmem (lastHanded?_eq_none_iff.mp hsince given)
      rw [Option.none_or]
      constructor
      · exact fun hheld hmissed => hmissed.other hheld
      · intro hnot
        by_contra hother
        exact hnot ⟨hregistered, hsince, hother⟩

end Simulcast
