import Mathlib.Data.List.Basic
import Simulcast.Proofs.Registry.Outcome
import Simulcast.Proofs.Registry.Sound
import Simulcast.Registry.Operation

/-!
How encoders are set up and given up over a run of a registry. Successful
initialisations and releases take turns: an encoder is initialised only while
no other is, stays initialised for as long as it is active, and is released
exactly once. It makes no difference which of these calls fail, or that one
encoder is attached to several payload types.
-/

namespace Simulcast

namespace Event

/-- Encoder `n` was initialised. -/
def initialises (n : Nat) : Event → Bool
  | .answered m (.init _ _ _) none => m == n
  | _ => false

/-- Encoder `n` is told to release what it holds. -/
def releases (n : Nat) : Event → Bool
  | .called m .release => m == n
  | _ => false

/-- A call that sets an encoder up or gives it up, or its end. -/
def Lifecycle : Event → Prop
  | .called _ (.init _ _ _) | .answered _ (.init _ _ _) _ => True
  | .called _ .release | .answered _ .release _ => True
  | _ => False

theorem initialises_of_not_lifecycle {e : Event} (h : ¬ e.Lifecycle) (n : Nat) :
    e.initialises n = false := by
  cases e with
  | answered m c fault => cases c <;> simp_all [Lifecycle, initialises]
  | _ => rfl

theorem releases_of_not_lifecycle {e : Event} (h : ¬ e.Lifecycle) (n : Nat) :
    e.releases n = false := by
  cases e with
  | called m c => cases c <;> simp_all [Lifecycle, releases]
  | _ => rfl

theorem standing?_of_not_lifecycle {e : Event} (h : ¬ e.Lifecycle) (n : Nat) :
    e.standing? n = none := by
  cases e with
  | called m c => cases c <;> simp_all [Lifecycle, standing?]
  | answered m c fault => cases c <;> simp_all [Lifecycle, standing?]
  | _ => rfl

theorem Routine.not_lifecycle {e : Event} (h : e.Routine) : ¬ e.Lifecycle := by
  cases e with
  | called m c => cases c <;> simp_all [Routine, EncoderCall.Uses, Lifecycle]
  | answered m c fault => cases c <;> simp_all [Routine, EncoderCall.Uses, Lifecycle]
  | _ => exact id

end Event

/-- The number of successful initialisations of encoder `n`. -/
def inits (n : Nat) (journal : List Event) : Nat := journal.countP (Event.initialises n)

/-- The number of times encoder `n` was released, also where that failed. -/
def releases (n : Nat) (journal : List Event) : Nat := journal.countP (Event.releases n)

/-- The initialisations and releases of encoder `n`, the latest first. -/
def turns (n : Nat) (journal : List Event) : List (Option Codec) :=
  journal.filterMap (Event.standing? n)

theorem turns_cons_of_none {e : Event} {n : Nat} (h : e.standing? n = none) (old : List Event) :
    turns n (e :: old) = turns n old :=
  List.filterMap_cons_none h

theorem turns_cons_of_some {e : Event} {n : Nat} {turn : Option Codec}
    (h : e.standing? n = some turn) (old : List Event) :
    turns n (e :: old) = turn :: turns n old :=
  List.filterMap_cons_some h

/-- Of two successive turns one is an initialisation and the other a release,
and the first of all is an initialisation. -/
def Alternate : List (Option Codec) → Prop
  | [] => True
  | [first] => first.isSome = true
  | later :: earlier :: rest => later.isSome ≠ earlier.isSome ∧ Alternate (earlier :: rest)

theorem Alternate.cons {turn : Option Codec} {rest : List (Option Codec)} (h : Alternate rest)
    (hturn : turn.isSome ≠ rest.head?.any Option.isSome) : Alternate (turn :: rest) := by
  cases rest with
  | nil => simpa [Alternate, Option.isSome_iff_ne_none] using hturn
  | cons earlier rest => exact ⟨hturn, h⟩

/-- Initialisations and releases take turns, and `up` is the encoder that was
initialised last and has not been released since. -/
inductive Orderly : Option Nat → List Event → Prop where
  | start : Orderly none []
  | beside {up : Option Nat} {e : Event} {old : List Event} (h : ¬ e.Lifecycle)
      (rest : Orderly up old) : Orderly up (e :: old)
  | initialising {n : Nat} {codec : Codec} {cores : UInt32} {maxPayload : Nat}
      {old : List Event} (rest : Orderly none old) :
      Orderly none (.called n (.init codec cores maxPayload) :: old)
  | uninitialised {n : Nat} {codec : Codec} {cores : UInt32} {maxPayload : Nat}
      {fault : EncoderFault} {old : List Event} (rest : Orderly none old) :
      Orderly none (.answered n (.init codec cores maxPayload) (some fault) :: old)
  | initialised {n : Nat} {codec : Codec} {cores : UInt32} {maxPayload : Nat}
      {old : List Event} (rest : Orderly none old) :
      Orderly (some n) (.answered n (.init codec cores maxPayload) none :: old)
  | releasing {n : Nat} {old : List Event} (rest : Orderly (some n) old) :
      Orderly none (.called n .release :: old)
  | released {n : Nat} {fault : Option EncoderFault} {old : List Event}
      (rest : Orderly none old) : Orderly none (.answered n .release fault :: old)

namespace Orderly

variable {up : Option Nat} {journal old new : List Event}

theorem append (h : Orderly up old) (hnew : ∀ e ∈ new, ¬ e.Lifecycle) :
    Orderly up (new ++ old) := by
  induction new with
  | nil => exact h
  | cons e rest ih =>
      apply Orderly.beside (hnew e (by simp))
      exact ih fun e he => hnew e (by simp [he])

/-- What was written up to some point is in order by itself. -/
theorem before (h : Orderly up (new ++ old)) : ∃ up', Orderly up' old := by
  induction new generalizing up with
  | nil => exact ⟨up, h⟩
  | cons e rest ih =>
      cases h with
      | beside _ rest => exact ih rest
      | initialising rest => exact ih rest
      | uninitialised rest => exact ih rest
      | initialised rest => exact ih rest
      | releasing rest => exact ih rest
      | released rest => exact ih rest

/-- No encoder is up when one begins to be initialised. -/
theorem idle {n : Nat} {codec : Codec} {cores : UInt32} {maxPayload : Nat}
    (h : Orderly up (new ++ .called n (.init codec cores maxPayload) :: old)) :
    Orderly none old := by
  obtain ⟨up', hbefore⟩ := h.before
  cases hbefore with
  | beside hno _ => exact absurd trivial hno
  | initialising rest => exact rest

/-- Every initialisation has been followed by a release, but for that of the
encoder that is up. -/
theorem inits_eq (h : Orderly up journal) (n : Nat) :
    inits n journal = releases n journal + if up = some n then 1 else 0 := by
  induction h with
  | start => rfl
  | beside hno _ ih =>
      simpa [inits, releases, Event.initialises_of_not_lifecycle hno,
        Event.releases_of_not_lifecycle hno] using ih
  | initialising _ ih => simpa [inits, releases, Event.initialises, Event.releases] using ih
  | uninitialised _ ih => simpa [inits, releases, Event.initialises, Event.releases] using ih
  | @initialised m _ _ _ _ _ ih =>
      simp only [inits, releases, List.countP_cons, Event.initialises, Event.releases] at ih ⊢
      by_cases hm : m = n <;> simp_all
  | @releasing m _ _ ih =>
      simp only [inits, releases, List.countP_cons, Event.initialises, Event.releases] at ih ⊢
      by_cases hm : m = n <;> simp_all
  | released _ ih => simpa [inits, releases, Event.initialises, Event.releases] using ih

/-- The turns of one encoder alternate, and the latest is an initialisation
exactly while the encoder is up. -/
theorem turns_alternate (h : Orderly up journal) (n : Nat) :
    Alternate (turns n journal) ∧
      (turns n journal).head?.any Option.isSome = decide (up = some n) := by
  induction h with
  | start => exact ⟨trivial, rfl⟩
  | beside hno _ ih =>
      rw [turns_cons_of_none (Event.standing?_of_not_lifecycle hno n)]
      exact ih
  | initialising _ ih =>
      rw [turns_cons_of_none rfl]
      exact ih
  | uninitialised _ ih =>
      rw [turns_cons_of_none rfl]
      exact ih
  | released _ ih =>
      rw [turns_cons_of_none rfl]
      exact ih
  | @initialised m codec _ _ old _ ih =>
      obtain ⟨halternate, hlatest⟩ := ih
      by_cases hm : m = n
      · subst hm
        have hturn : ∀ cores maxPayload,
            (Event.answered m (.init codec cores maxPayload) none).standing? m =
              some (some codec) := by simp [Event.standing?]
        rw [turns_cons_of_some (hturn _ _)]
        refine ⟨halternate.cons ?_, by simp⟩
        simp [hlatest]
      · rw [turns_cons_of_none (by simp [Event.standing?, hm])]
        refine ⟨halternate, ?_⟩
        simpa [hm] using hlatest
  | @releasing m old _ ih =>
      obtain ⟨halternate, hlatest⟩ := ih
      by_cases hm : m = n
      · subst hm
        have hturn : (Event.called m .release).standing? m = some none := by
          simp [Event.standing?]
        rw [turns_cons_of_some hturn]
        refine ⟨halternate.cons ?_, by simp⟩
        simp [hlatest]
      · rw [turns_cons_of_none (by simp [Event.standing?, hm])]
        refine ⟨halternate, ?_⟩
        simpa [hm] using hlatest

end Orderly

namespace Registry

variable {g : Registry} {rack : Rack}

/-- The number of the active encoder. -/
def activeNumber (g : Registry) : Option Nat := g.encoder?.map Handle.encoder

theorem releaseEntries_orderly {old : List Event} (h : Orderly g.activeNumber old)
    (fault : Option EncoderFault) :
    Orderly none (releaseEntries g.active fault ++ old) := by
  cases hactive : g.active with
  | none => simpa [activeNumber, encoder?, hactive, releaseEntries] using h
  | some a =>
      have hup : Orderly (some a.handle.encoder) old := by
        simpa [activeNumber, encoder?, hactive] using h
      have hreleased : Orderly none (.answered a.handle.encoder .release fault ::
          .called a.handle.encoder .release :: old) := .released (.releasing hup)
      cases fault with
      | none => exact hreleased
      | some f => exact .beside id hreleased

theorem connectEntries_orderly {old : List Event} (h : Orderly none old) (n : Nat) :
    Orderly none (.answered n .connect none :: .called n .connect :: old) :=
  .beside id (.beside id h)

/-- A registration gives up the active encoder before it sets up another. -/
theorem register_orderly (h : Orderly g.activeNumber rack.journal) (codec : Codec)
    (cores : UInt32) (maxPayload : Nat) :
    Orderly (g.register rack codec cores maxPayload).1.activeNumber
      (g.register rack codec cores maxPayload).2.1.journal := by
  have hregisters := g.register_registers rack codec cores maxPayload
  generalize g.register rack codec cores maxPayload = result at hregisters ⊢
  cases hregisters with
  | invalid _ => exact h
  | kept _ _ => exact .beside id h
  | missing _ _ fault hjournal =>
      show Orderly none _
      rw [hjournal]
      exact releaseEntries_orderly h fault
  | failed _ _ fault n name f hjournal =>
      show Orderly none _
      rw [hjournal]
      have hidle := connectEntries_orderly (releaseEntries_orderly h fault) n
      exact .beside id (.uninitialised (.initialising hidle))
  | @installed rack' a _ _ fault _ _ _ hjournal =>
      show Orderly (some a.handle.encoder) _
      rw [hjournal]
      have hidle := connectEntries_orderly (releaseEntries_orderly h fault) a.handle.encoder
      exact .initialised (.initialising hidle)

theorem detach_orderly (h : Orderly g.activeNumber rack.journal) (payloadType : UInt8) :
    Orderly (g.detach rack payloadType).1.activeNumber
      (g.detach rack payloadType).2.1.journal := by
  have hdetaches := g.detach_detaches rack payloadType
  generalize g.detach rack payloadType = result at hdetaches ⊢
  cases hdetaches with
  | unknown _ => exact h
  | unused _ _ => exact h
  | used _ _ _ _ fault hjournal =>
      show Orderly none _
      rw [hjournal]
      exact releaseEntries_orderly h fault

theorem noteImages_end (rack : Rack) (images : List EncodedImage) :
    rack.Alike (images.foldl (fun r image => r.note (.image image)) rack) ∧
      (images.foldl (fun r image => r.note (.image image)) rack).journal =
        (images.map Event.image).reverse ++ rack.journal := by
  induction images generalizing rack with
  | nil => exact ⟨Rack.Alike.refl _, rfl⟩
  | cons image rest ih =>
      obtain ⟨halike, hjournal⟩ := ih (rack.note (.image image))
      rw [List.foldl_cons]
      refine ⟨(rack.note_alike _).trans halike, ?_⟩
      rw [hjournal, List.map_cons, List.reverse_cons, List.append_assoc]
      rfl

/-- Encoding uses the active encoder and neither sets one up nor gives it
up. -/
theorem encode_end (g : Registry) (rack : Rack) (frame : Frame) (kinds : List FrameKind) :
    rack.Alike (g.encode rack frame kinds).1 ∧
      ∃ new, (g.encode rack frame kinds).1.journal = new ++ rack.journal ∧
        ∀ e ∈ new, e.Routine := by
  cases hencoder : g.encoder? with
  | none =>
      have heq : (g.encode rack frame kinds).1 = rack := by simp [encode, hencoder]
      rw [heq]
      exact ⟨Rack.Alike.refl _, [], rfl, by simp⟩
  | some handle =>
      have hjournal := rack.call_journal handle.encoder (.encode frame kinds none)
      have halike := rack.call_alike handle.encoder (c := .encode frame kinds none) trivial
      cases hcall : rack.call handle.encoder (.encode frame kinds none) with
      | mk rack' result =>
          rw [hcall] at hjournal halike
          cases result with
          | error fault =>
              have heq : (g.encode rack frame kinds).1 = rack' := by
                simp [encode, hencoder, hcall]
              rw [heq]
              refine ⟨halike, [.answered handle.encoder (.encode frame kinds none) (some fault),
                .called handle.encoder (.encode frame kinds none)], hjournal, ?_⟩
              simp [Event.Routine, EncoderCall.Uses]
          | ok images =>
              have heq : (g.encode rack frame kinds).1 =
                  images.foldl (fun r image => r.note (.image image)) rack' := by
                simp [encode, hencoder, hcall]
              obtain ⟨himages, hnoted⟩ := noteImages_end rack' images
              rw [heq, hnoted, hjournal]
              refine ⟨halike.trans himages, (images.map Event.image).reverse ++
                [.answered handle.encoder (.encode frame kinds none) none,
                  .called handle.encoder (.encode frame kinds none)], ?_, ?_⟩
              · rw [List.append_assoc]
                rfl
              · intro e he
                rcases List.mem_append.mp he with himage | hcalled
                · obtain ⟨image, _, rfl⟩ := List.mem_map.mp (List.mem_reverse.mp himage)
                  trivial
                · rcases List.mem_pair.mp hcalled with rfl | rfl <;> trivial

end Registry

namespace Station

variable {t : Station}

theorem step_register (t : Station) (codec : Codec) (cores : UInt32) (maxPayload : Nat) :
    t.step (.register codec cores maxPayload) =
      ⟨(t.registry.register t.rack codec cores maxPayload).1,
        (t.registry.register t.rack codec cores maxPayload).2.1⟩ := rfl

theorem step_detach (t : Station) (payloadType : UInt8) :
    t.step (.detach payloadType) =
      ⟨(t.registry.detach t.rack payloadType).1,
        (t.registry.detach t.rack payloadType).2.1⟩ := rfl

theorem step_orderly (h : Orderly t.registry.activeNumber t.rack.journal) (c : RegistryCall) :
    Orderly (t.step c).registry.activeNumber (t.step c).rack.journal := by
  cases c with
  | setBlueprint kind blueprint => exact h
  | register codec cores maxPayload => exact Registry.register_orderly h codec cores maxPayload
  | attach payloadType internalSource choice =>
      cases hchoice : t.rack.choose choice with
      | none => simpa only [step, hchoice] using h
      | some found =>
          obtain ⟨rack, n⟩ := found
          simp only [step, hchoice, (Rack.choose_setup hchoice).2.1]
          exact h
  | detach payloadType => exact Registry.detach_orderly h payloadType
  | encode frame kinds =>
      obtain ⟨_, new, hjournal, hnew⟩ := t.registry.encode_end t.rack frame kinds
      show Orderly t.registry.activeNumber (t.registry.encode t.rack frame kinds).1.journal
      rw [hjournal]
      exact h.append fun e he => (hnew e he).not_lifecycle
  | setFaults n patch => exact h

theorem run_orderly (h : Orderly t.registry.activeNumber t.rack.journal)
    (calls : List RegistryCall) :
    Orderly (t.run calls).registry.activeNumber (t.run calls).rack.journal := by
  induction calls generalizing t with
  | nil => exact h
  | cons c rest ih => exact ih (step_orderly h c)

end Station

/-- Every encoder is set up and given up in turns. Releases have caught up with
initialisations for all encoders but the one that is active, which is one
initialisation ahead; and at no moment in between are two encoders ahead, or
any while one begins to be initialised. -/
structure Balanced (journal : List Event) (active : Option Nat) : Prop where
  count : ∀ n, inits n journal = releases n journal + if active = some n then 1 else 0
  alternate : ∀ n, Alternate (turns n journal)
  single : ∀ later earlier, journal = later ++ earlier →
    ∀ m n, inits m earlier ≠ releases m earlier → inits n earlier ≠ releases n earlier → m = n
  released : ∀ later earlier n codec cores maxPayload,
    journal = later ++ .called n (.init codec cores maxPayload) :: earlier →
    ∀ m, inits m earlier = releases m earlier

theorem Orderly.balanced {up : Option Nat} {journal : List Event} (h : Orderly up journal) :
    Balanced journal up where
  count := h.inits_eq
  alternate n := (h.turns_alternate n).1
  single := by
    rintro later earlier rfl m n hm hn
    obtain ⟨up', hbefore⟩ := h.before
    have hup : ∀ k, inits k earlier ≠ releases k earlier → up' = some k := by
      intro k hk
      by_contra hne
      apply hk
      simpa [hne] using hbefore.inits_eq k
    exact Option.some.inj ((hup m hm).symm.trans (hup n hn))
  released := by
    rintro later earlier n codec cores maxPayload rfl m
    simpa using h.idle.inits_eq m

/-- After any calls on a registry, whichever of the encoders' calls failed and
however often an encoder was attached, every encoder has been released as often
as it was initialised, but for the active one, which is initialised once
more. -/
theorem Station.lifecycles_balanced (encoders : Array Encoder) (calls : List RegistryCall) :
    Balanced ((start encoders).run calls).rack.journal
      (((start encoders).run calls).registry.encoder?.map Handle.encoder) := by
  have hstart : Orderly (start encoders).registry.activeNumber (start encoders).rack.journal :=
    .start
  exact (run_orderly hstart calls).balanced

end Simulcast
