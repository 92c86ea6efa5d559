import Mathlib.Data.List.Basic
import Simulcast.Encoder.Rack
import Simulcast.Proofs.Schedule.Settling

/-!
Readings of a journal: how often a codec was registered, which codec an
encoder is initialised with, and which key frames were asked for from inside
callbacks. Journals have the latest entry first, so `newer ++ e :: older` says
that `older` is what had been written when `e` was.
-/

namespace Simulcast

/-- Calls on an encoder that is in use. The others set it up or give it up. -/
def EncoderCall.Uses : EncoderCall → Prop
  | .encode _ _ _ | .skip | .configure _ | .request _ => True
  | .connect | .init _ _ _ | .release => False

namespace Event

/-- A codec was registered. -/
def isRegistration : Event → Bool
  | .log (.registered _ _) => true
  | _ => false

/-- An encode call returned without a failure. -/
def isEncoded : Event → Bool
  | .answered _ (.encode _ _ _) none => true
  | _ => false

/-- An instruction was followed inside a callback. -/
def isNested : Event → Bool
  | .nested _ _ => true
  | _ => false

/-- Rate control was told what the network reports. -/
def isFed : Event → Bool
  | .rate (.fed _ _ _ _) => true
  | _ => false

/-- What may be written while somebody else has the encoder. -/
def Aside : Event → Prop
  | .image _ | .statistics _ _ | .rate _ | .nested _ _ => True
  | .called _ _ | .answered _ _ _ | .log _ => False

/-- What is written by what goes on beside the encoder: no calls, and nothing
about images. -/
def Beside : Event → Prop
  | .statistics _ _ | .nested _ _ => True
  | .rate (.accounted _) => False
  | .rate _ => True
  | .called _ _ | .answered _ _ _ | .image _ | .log _ => False

theorem Beside.aside {e : Event} (h : e.Beside) : e.Aside := by
  cases e <;> simp_all [Beside, Aside]

/-- An entry after which the same encoders are initialised for the same codecs
and the same codec is registered. -/
def Routine : Event → Prop
  | .called _ c | .answered _ c _ => c.Uses
  | .log (.registered _ _) => False
  | _ => True

theorem Aside.routine {e : Event} (h : e.Aside) : e.Routine := by
  cases e <;> simp_all [Aside, Routine]

theorem Beside.routine {e : Event} (h : e.Beside) : e.Routine := h.aside.routine

theorem Routine.isRegistration {e : Event} (h : e.Routine) : e.isRegistration = false := by
  cases e with
  | log notice => cases notice <;> simp_all [Routine, Event.isRegistration]
  | _ => rfl

/-- What an entry says of encoder `n`: that it is initialised with a codec,
that it is given up, or nothing. -/
def standing? (n : Nat) : Event → Option (Option Codec)
  | .answered m (.init codec _ _) none => if m = n then some (some codec) else none
  | .called m .release => if m = n then some none else none
  | _ => none

theorem Routine.standing? {e : Event} (h : e.Routine) (n : Nat) : e.standing? n = none := by
  cases e with
  | called m c => cases c <;> simp_all [Routine, EncoderCall.Uses, Event.standing?]
  | answered m c fault => cases c <;> simp_all [Routine, EncoderCall.Uses, Event.standing?]
  | _ => rfl

end Event

/-- The number of successful registrations. -/
def registrations (journal : List Event) : Nat := journal.countP Event.isRegistration

/-- The number of encode calls that succeeded. -/
def encodings (journal : List Event) : Nat := journal.countP Event.isEncoded

/-- The codec encoder `n` was last initialised with, unless it has been
released since. -/
def initialised? (n : Nat) (journal : List Event) : Option Codec :=
  (journal.findSome? (Event.standing? n)).join

theorem registrations_cons (e : Event) (old : List Event) :
    registrations (e :: old) = registrations old + if e.isRegistration then 1 else 0 :=
  List.countP_cons

theorem registrations_append (new old : List Event) :
    registrations (new ++ old) = registrations new + registrations old :=
  List.countP_append

theorem encodings_append (new old : List Event) :
    encodings (new ++ old) = encodings new + encodings old :=
  List.countP_append

theorem registrations_of_none {new : List Event} (h : ∀ e ∈ new, e.isRegistration = false) :
    registrations new = 0 := by
  rw [registrations, List.countP_eq_zero]
  intro e he
  simp [h e he]

theorem registrations_of_routine {new : List Event} (h : ∀ e ∈ new, e.Routine) :
    registrations new = 0 :=
  registrations_of_none fun e he => (h e he).isRegistration

theorem initialised?_cons_of_none {e : Event} {n : Nat} (h : e.standing? n = none)
    (old : List Event) : initialised? n (e :: old) = initialised? n old := by
  simp [initialised?, h]

theorem initialised?_of_routine {new : List Event} (h : ∀ e ∈ new, e.Routine) (n : Nat)
    (old : List Event) : initialised? n (new ++ old) = initialised? n old := by
  have hnone : new.findSome? (Event.standing? n) = none := by
    rw [List.findSome?_eq_none_iff]
    intro e he
    exact (h e he).standing? n
  simp [initialised?, List.findSome?_append, hnone]

/-- The entries of a journal on top of an earlier one. -/
def entriesSince (earlier journal : List Event) : List Event :=
  journal.take (journal.length - earlier.length)

theorem entriesSince_append (new old : List Event) : entriesSince old (new ++ old) = new := by
  simp [entriesSince]

theorem entriesSince_self (journal : List Event) : entriesSince journal journal = [] :=
  entriesSince_append [] journal

/-- A call that follows on entries written beside the encoder is none of
them. -/
theorem split_of_beside {new first later earlier : List Event} {n : Nat} {c : EncoderCall}
    (hfirst : ∀ e ∈ first, e.Beside) (h : new ++ first = later ++ .called n c :: earlier) :
    ∃ between, new = later ++ .called n c :: between ∧ earlier = between ++ first := by
  have hnot : .called n c ∉ first := fun hmem => (hfirst _ hmem).elim
  rcases List.append_eq_append_iff.mp h with ⟨between, _, hbefore⟩ | ⟨between, hnew, hearlier⟩
  · exact absurd (by simp [hbefore]) hnot
  · cases between with
    | nil =>
        rw [List.nil_append] at hearlier
        exact absurd (by simp [← hearlier]) hnot
    | cons e others =>
        simp only [List.cons_append, List.cons.injEq] at hearlier
        obtain ⟨rfl, hearlier⟩ := hearlier
        exact ⟨others, hnew, hearlier⟩

namespace Schedule

/-- The schedule after the key frame requests among `entries`, which were made
from inside callbacks. -/
def heed (s : Schedule) (entries : List Event) : Schedule :=
  entries.foldr (fun e s =>
    match e with
    | .nested (.act (.call (.requestKey i))) _ => s.mark i
    | _ => s) s

theorem heed_request (s : Schedule) (i : Nat) (reply : Reply) (entries : List Event) :
    s.heed (.nested (.act (.call (.requestKey i))) reply :: entries) = (s.heed entries).mark i :=
  rfl

theorem heed_append (s : Schedule) (new old : List Event) :
    s.heed (new ++ old) = (s.heed old).heed new :=
  List.foldr_append

theorem heed_cons_cases (s : Schedule) (e : Event) (entries : List Event) :
    s.heed (e :: entries) = s.heed entries ∨
      ∃ i reply, e = .nested (.act (.call (.requestKey i))) reply ∧
        s.heed (e :: entries) = (s.heed entries).mark i := by
  by_cases h : ∃ i reply, e = .nested (.act (.call (.requestKey i))) reply
  · obtain ⟨i, reply, rfl⟩ := h
    exact Or.inr ⟨i, reply, rfl, rfl⟩
  · left
    simp only [heed, List.foldr_cons]
    split
    · rename_i i reply
      exact absurd ⟨i, reply, rfl⟩ h
    · rfl

theorem heed_cons_of_not_nested (s : Schedule) (e : Event) (entries : List Event)
    (h : e.isNested = false) : s.heed (e :: entries) = s.heed entries := by
  rcases s.heed_cons_cases e entries with hsame | ⟨i, reply, rfl, _⟩
  · exact hsame
  · simp [Event.isNested] at h

@[simp]
theorem heed_generation (s : Schedule) (entries : List Event) :
    (s.heed entries).generation = s.generation := by
  induction entries with
  | nil => rfl
  | cons e rest ih =>
      rcases s.heed_cons_cases e rest with h | ⟨i, reply, _, h⟩
      · rw [h, ih]
      · rw [h, mark_generation, ih]

@[simp]
theorem heed_size (s : Schedule) (entries : List Event) : (s.heed entries).size = s.size := by
  induction entries with
  | nil => rfl
  | cons e rest ih =>
      rcases s.heed_cons_cases e rest with h | ⟨i, reply, _, h⟩
      · rw [h, ih]
      · rw [h, mark_size, ih]

/-- Requests never take a wanted key frame back. -/
theorem get?_heed_of_key (s : Schedule) (entries : List Event) (i : Nat)
    (h : s.get? i = some .key) : (s.heed entries).get? i = some .key := by
  induction entries with
  | nil => exact h
  | cons e rest ih =>
      rcases s.heed_cons_cases e rest with hsame | ⟨j, reply, _, hmark⟩
      · rw [hsame, ih]
      · rw [hmark]
        exact get?_mark_of_key _ _ _ ih

/-- A request among the entries is there afterwards. -/
theorem get?_heed_of_mem (s : Schedule) (entries : List Event) (i : Nat) (reply : Reply)
    (h : .nested (.act (.call (.requestKey i))) reply ∈ entries) (hi : i < s.size) :
    (s.heed entries).get? i = some .key := by
  obtain ⟨newer, older, rfl⟩ := List.append_of_mem h
  rw [heed_append, heed_request]
  apply get?_heed_of_key
  apply get?_mark_self
  rwa [heed_size]

theorem get?_heed_of_not_mem (s : Schedule) (entries : List Event) (i : Nat)
    (h : ∀ reply, .nested (.act (.call (.requestKey i))) reply ∉ entries) :
    (s.heed entries).get? i = s.get? i := by
  induction entries with
  | nil => rfl
  | cons e rest ih =>
      have hrest := ih fun reply hmem => h reply (by simp [hmem])
      rcases s.heed_cons_cases e rest with hsame | ⟨j, reply, rfl, hmark⟩
      · rw [hsame, hrest]
      · have hne : j ≠ i := by
          rintro rfl
          exact h reply (by simp)
        rw [hmark, get?_mark_of_ne _ _ _ hne, hrest]

theorem heed_of_not_nested (s : Schedule) (entries : List Event)
    (h : ∀ e ∈ entries, e.isNested = false) : s.heed entries = s := by
  induction entries with
  | nil => rfl
  | cons e rest ih =>
      rw [heed_cons_of_not_nested s e rest (h e (by simp))]
      exact ih (fun e he => h e (by simp [he]))

end Schedule

end Simulcast
