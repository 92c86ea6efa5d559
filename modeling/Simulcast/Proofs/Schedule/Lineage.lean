import Mathlib.Data.List.Induction
import Simulcast.Proofs.Schedule.Settling

/-!
A schedule over its whole life, together with every copy that is taken of it on
the way and the calls that are settled with these copies, in any order and as
often as one likes. Every copy remembers in its generation how many resets there
had been. As long as these counts fit in a word, a copy with the generation of
the live schedule was taken since the last reset, and nothing but a reset changes
the number of streams. So such a copy has an entry for each stream there is.
-/

namespace Simulcast

namespace Schedule

theorem ext_get? {s s' : Schedule} (hgeneration : s.generation = s'.generation)
    (hkinds : ∀ i, s.get? i = s'.get? i) : s = s' := by
  have hlist : s.kinds = s'.kinds := List.ext_getElem? hkinds
  cases s
  cases s'
  simp_all

theorem set_size {s s' : Schedule} {i : Nat} {k : FrameKind} (h : s.set i k = .ok s') :
    s'.size = s.size ∧ s'.generation = s.generation := by
  unfold set at h
  split at h
  · simp at h
  · obtain rfl := Except.ok.inj h
    simp [size]

/-- An entry is lowered if a copy of the same generation carries a key frame
there, and is left alone otherwise. -/
theorem get?_clearSatisfied_eq (s copy : Schedule) (i : Nat) :
    (s.clearSatisfied copy).get? i =
      if s.generation = copy.generation ∧ copy.get? i = some .key then
        (s.get? i).map fun _ => .delta
      else s.get? i := by
  by_cases hgeneration : s.generation = copy.generation
  · by_cases hkey : copy.get? i = some .key
    · have hcarried : copy.kinds[i]? = some .key := hkey
      rw [get?_clearSatisfied s copy i hgeneration, if_pos ⟨hgeneration, hkey⟩]
      cases s.get? i with
      | none => rfl
      | some k => cases k <;> simp [hcarried]
    · rw [get?_clearSatisfied_of_ne s copy i hkey, if_neg fun h => hkey h.2]
  · rw [clearSatisfied, if_neg hgeneration, if_neg fun h => hgeneration h.1]

theorem get?_clearSatisfied_of_delta {s : Schedule} {i : Nat} (copy : Schedule)
    (h : s.get? i = some .delta) : (s.clearSatisfied copy).get? i = some .delta := by
  rw [get?_clearSatisfied_eq, h]
  split <;> rfl

/-- Settling twice with one copy is settling once. -/
theorem clearSatisfied_idem (s copy : Schedule) :
    (s.clearSatisfied copy).clearSatisfied copy = s.clearSatisfied copy := by
  refine ext_get? (by simp) fun i => ?_
  simp only [get?_clearSatisfied_eq, clearSatisfied_generation]
  split
  · rw [Option.map_map]
    rfl
  · rfl

/-- It does not matter which of two copies settles first. -/
theorem clearSatisfied_comm (s first second : Schedule) :
    (s.clearSatisfied first).clearSatisfied second =
      (s.clearSatisfied second).clearSatisfied first := by
  refine ext_get? (by simp) fun i => ?_
  simp only [get?_clearSatisfied_eq, clearSatisfied_generation]
  -- Either copy can only lower the entry, so lowering it is all that can be seen.
  split <;> split <;> rfl

end Schedule

/-- A schedule and the copies taken of it so far, the oldest first. -/
structure Lineage where
  live : Schedule := {}
  copies : List Schedule := []
  deriving DecidableEq, Repr

/-- What can be done with a schedule: the changes a sender makes, taking a copy,
and settling with the copy of a given number. -/
inductive Revision where
  | reset (streams : Nat)
  | set (stream : Nat) (kind : FrameKind)
  | requestKey (stream : Nat)
  | copy
  | settle (number : Nat)
  deriving DecidableEq, Repr

def Revision.isReset : Revision → Bool
  | .reset _ => true
  | _ => false

/-- How often the schedule is reset. -/
def resets (revisions : List Revision) : Nat := revisions.countP (·.isReset)

namespace Lineage

/-- The live schedule after a change that can fail, in which case it stays. -/
def change (l : Lineage) (outcome : Except NoSuchStream Schedule) : Lineage :=
  match outcome with
  | .ok schedule => { l with live := schedule }
  | .error _ => l

def step (l : Lineage) : Revision → Lineage
  | .reset streams => { l with live := l.live.reset streams }
  | .set stream kind => l.change (l.live.set stream kind)
  | .requestKey stream => l.change (l.live.requestKey stream)
  | .copy => { l with copies := l.copies ++ [l.live] }
  | .settle number =>
      match l.copies[number]? with
      | some copy => { l with live := l.live.clearSatisfied copy }
      | none => l

def run (l : Lineage) (revisions : List Revision) : Lineage :=
  revisions.foldl step l

theorem run_snoc (l : Lineage) (revisions : List Revision) (revision : Revision) :
    l.run (revisions ++ [revision]) = (l.run revisions).step revision := by
  simp [run]

/-- `copy` was taken when there had been `stamp` of by now `count` resets. -/
structure Stamped (l : Lineage) (count : Nat) (copy : Schedule) (stamp : Nat) : Prop where
  le : stamp ≤ count
  generation : copy.generation = UInt64.ofNat stamp
  pos : 0 < copy.size
  size : stamp = count → copy.size = l.live.size

/-- The live schedule counts the resets, and every copy was taken at some count. -/
structure Dated (l : Lineage) (count : Nat) : Prop where
  generation : l.live.generation = UInt64.ofNat count
  pos : 0 < l.live.size
  copies : ∀ copy ∈ l.copies, ∃ stamp, l.Stamped count copy stamp

variable {l : Lineage} {count : Nat}

/-- What keeps the generation and the number of streams dates no copy anew. -/
theorem Dated.keep (h : l.Dated count) {schedule : Schedule}
    (hsize : schedule.size = l.live.size) (hgeneration : schedule.generation = l.live.generation) :
    ({ l with live := schedule } : Lineage).Dated count where
  generation := hgeneration.trans h.generation
  pos := hsize ▸ h.pos
  copies copy hcopy := by
    obtain ⟨stamp, hstamped⟩ := h.copies copy hcopy
    exact ⟨stamp, hstamped.le, hstamped.generation, hstamped.pos,
      fun heq => (hstamped.size heq).trans hsize.symm⟩

theorem Dated.change (h : l.Dated count) {outcome : Except NoSuchStream Schedule}
    (hkeeps : ∀ schedule, outcome = .ok schedule →
      schedule.size = l.live.size ∧ schedule.generation = l.live.generation) :
    (l.change outcome).Dated count := by
  cases outcome with
  | error _ => exact h
  | ok schedule =>
      obtain ⟨hsize, hgeneration⟩ := hkeeps schedule rfl
      exact h.keep hsize hgeneration

/-- After a reset every copy is older than the live schedule. -/
theorem Dated.reset (h : l.Dated count) (streams : Nat) :
    (l.step (.reset streams)).Dated (count + 1) where
  generation := by
    change l.live.generation + 1 = UInt64.ofNat (count + 1)
    rw [h.generation, UInt64.ofNat_add]
    rfl
  pos := by
    change 0 < (l.live.reset streams).size
    rw [Schedule.reset_size]
    omega
  copies copy hcopy := by
    obtain ⟨stamp, hstamped⟩ := h.copies copy hcopy
    have hle := hstamped.le
    exact ⟨stamp, by omega, hstamped.generation, hstamped.pos, fun heq => by omega⟩

theorem Dated.copy (h : l.Dated count) : (l.step .copy).Dated count where
  generation := h.generation
  pos := h.pos
  copies copy hcopy := by
    rcases List.mem_append.mp hcopy with hold | hnew
    · obtain ⟨stamp, hstamped⟩ := h.copies copy hold
      exact ⟨stamp, hstamped.le, hstamped.generation, hstamped.pos, hstamped.size⟩
    · obtain rfl := List.mem_singleton.mp hnew
      exact ⟨count, Nat.le_refl _, h.generation, h.pos, fun _ => rfl⟩

theorem Dated.step (h : l.Dated count) (revision : Revision) :
    (l.step revision).Dated (count + resets [revision]) := by
  cases revision with
  | reset streams => exact h.reset streams
  | set stream kind => exact h.change fun _ hset => Schedule.set_size hset
  | requestKey stream => exact h.change fun _ hset => Schedule.set_size hset
  | copy => exact h.copy
  | settle number =>
      change (match l.copies[number]? with
        | some copy => { l with live := l.live.clearSatisfied copy }
        | none => l : Lineage).Dated count
      split
      · exact h.keep (by simp) (by simp)
      · exact h

theorem run_dated (revisions : List Revision) :
    (run {} revisions).Dated (resets revisions) := by
  induction revisions using List.reverseRecOn with
  | nil => exact ⟨rfl, Nat.one_pos, fun _ hcopy => by cases hcopy⟩
  | append_singleton revisions revision ih =>
      rw [run_snoc, resets, List.countP_append]
      exact ih.step revision

/-- Two counts of resets that fit in a word are told apart by the generation. -/
theorem Stamped.eq_of_generation {copy : Schedule} {stamp : Nat}
    (h : l.Stamped count copy stamp) (hdated : l.Dated count) (hfits : count < UInt64.size)
    (hgeneration : copy.generation = l.live.generation) : stamp = count := by
  have hle := h.le
  rw [h.generation, hdated.generation] at hgeneration
  have hcounts := congrArg UInt64.toNat hgeneration
  rwa [UInt64.toNat_ofNat_of_lt' (Nat.lt_of_le_of_lt hle hfits),
    UInt64.toNat_ofNat_of_lt' hfits] at hcounts

end Lineage

/-- What settling with `copy` does to the schedule `s`. -/
structure Schedule.Settles (s copy : Schedule) : Prop where
  size : (s.clearSatisfied copy).size = s.size
  generation : (s.clearSatisfied copy).generation = s.generation
  key_iff : s.generation = copy.generation → ∀ i,
    ((s.clearSatisfied copy).get? i = some .key ↔
      s.get? i = some .key ∧ copy.get? i = some .delta)
  stale : s.generation ≠ copy.generation → s.clearSatisfied copy = s
  delta : ∀ i, s.get? i = some .delta → (s.clearSatisfied copy).get? i = some .delta
  again : (s.clearSatisfied copy).clearSatisfied copy = s.clearSatisfied copy

/-- A copy that has an entry for each stream, or one of another generation. -/
theorem Schedule.settles {s copy : Schedule}
    (hsize : copy.generation = s.generation → copy.size = s.size) : s.Settles copy where
  size := clearSatisfied_size s copy
  generation := clearSatisfied_generation s copy
  key_iff hgeneration i := by
    rw [get?_clearSatisfied_eq_key_iff s copy i hgeneration]
    refine and_congr_right fun hkey => ?_
    have hstream : i < copy.kinds.length := by
      have hlt : i < s.kinds.length := (List.getElem?_eq_some_iff.mp hkey).1
      have hlengths : copy.kinds.length = s.kinds.length := hsize hgeneration.symm
      omega
    rw [get?, List.getElem?_eq_getElem hstream]
    cases copy.kinds[i] <;> simp
  stale hgeneration := if_neg hgeneration
  delta _ hdelta := get?_clearSatisfied_of_delta copy hdelta
  again := clearSatisfied_idem s copy

/-- Every copy lines up with the live schedule. -/
structure Lineage.LinesUp (l : Lineage) : Prop where
  live : 0 < l.live.size
  copies : ∀ copy ∈ l.copies, 0 < copy.size
  size : ∀ copy ∈ l.copies, copy.generation = l.live.generation → copy.size = l.live.size
  settles : ∀ copy ∈ l.copies, l.live.Settles copy
  commutes : ∀ first ∈ l.copies, ∀ second ∈ l.copies,
    (l.live.clearSatisfied first).clearSatisfied second =
      (l.live.clearSatisfied second).clearSatisfied first

/-- Whatever happened to a schedule and whenever its copies were taken, they line
up with it, unless the resets are too many for a word. -/
theorem copies_line_up (revisions : List Revision) (hfits : resets revisions < UInt64.size) :
    (Lineage.run {} revisions).LinesUp := by
  have hdated := Lineage.run_dated revisions
  have hsize : ∀ copy ∈ (Lineage.run {} revisions).copies,
      copy.generation = (Lineage.run {} revisions).live.generation →
        copy.size = (Lineage.run {} revisions).live.size := by
    intro copy hcopy hgeneration
    obtain ⟨stamp, hstamped⟩ := hdated.copies copy hcopy
    exact hstamped.size (hstamped.eq_of_generation hdated hfits hgeneration)
  refine ⟨hdated.pos, ?_, hsize, ?_, ?_⟩
  · intro copy hcopy
    obtain ⟨stamp, hstamped⟩ := hdated.copies copy hcopy
    exact hstamped.pos
  · intro copy hcopy
    exact Schedule.settles (hsize copy hcopy)
  · intro first _ second _
    exact Schedule.clearSatisfied_comm _ first second

/-- A life with copies of three ages. -/
def sampleRevisions : List Revision :=
  [.copy, .reset 2, .copy, .settle 1, .requestKey 1, .copy, .settle 1, .requestKey 2, .reset 3,
    .set 0 .delta, .copy, .settle 2]

/-- The last copy is the only one of the generation of the live schedule, and as
long. The older ones, shorter than the schedule, change nothing. -/
theorem copies_line_up_sample :
    resets sampleRevisions < UInt64.size ∧
      (Lineage.run {} sampleRevisions).copies.map (·.size) = [1, 2, 2, 3] ∧
      (Lineage.run {} sampleRevisions).live = ⟨[.delta, .key, .key], 2⟩ ∧
      (Lineage.run {} sampleRevisions).LinesUp :=
  ⟨by decide, by decide, by decide, copies_line_up sampleRevisions (by decide)⟩

end Simulcast
