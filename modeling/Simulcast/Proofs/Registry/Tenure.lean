import Mathlib.Data.List.Induction
import Simulcast.Proofs.Registry.Lifecycle

/-!
How the active encoder came to be active, told by the calls made on the
registry. A tenure begins with the registration that initialised the encoder
and lasts until a call releases it. While it lasts the registry holds what that
registration stored, and it is stale exactly if an encoder was attached to the
payload type of the codec in the meantime.
-/

namespace Simulcast

namespace Registry

/-- `a` is active for `codec`, and `touched` says whether an encoder was attached
to the payload type of `codec` since. While none was, the encoder attached
there is `a` itself if `a` came from there, and there is none otherwise. -/
structure Holds (g : Registry) (a : ActiveEncoder) (codec : Codec) (cores : UInt32)
    (maxPayload : Nat) (touched : Prop) : Prop where
  active : g.active = some a
  sendCodec : g.sendCodec = some codec
  cores : g.cores = cores
  maxPayload : g.maxPayload = maxPayload
  stale : g.stale = true ↔ touched
  own : ∀ p, a.attachedTo = some p → p = codec.payloadType ∧ g.attachments p ≠ none
  current : g.stale = false → g.attachments codec.payloadType =
    a.attachedTo.map fun _ => ⟨a.handle.encoder, a.handle.internalSource⟩

variable {g : Registry} {rack : Rack} {a : ActiveEncoder} {codec : Codec} {cores : UInt32}
  {maxPayload : Nat} {touched : Prop}

theorem Holds.congr (h : g.Holds a codec cores maxPayload touched) {touched' : Prop}
    (htouched : touched ↔ touched') : g.Holds a codec cores maxPayload touched' :=
  { h with stale := h.stale.trans htouched }

/-- Nothing was attached where it matters. -/
theorem Holds.beside (h : g.Holds a codec cores maxPayload touched) :
    g.Holds a codec cores maxPayload (touched ∨ False) :=
  h.congr (by simp)

theorem Supplies.holds (h : g.Supplies rack codec a) (cores : UInt32) (maxPayload : Nat) :
    Holds
      { g.vacated with
        active := some a
        sendCodec := some codec.clamped
        cores := cores
        maxPayload := maxPayload } a codec.clamped cores maxPayload False := by
  refine ⟨rfl, rfl, rfl, rfl, by simp [vacated], ?_, ?_⟩
  · intro p hp
    cases h with
    | @attached attachment h nativeInput =>
        have hpayload : codec.payloadType = p := Option.some.inj hp
        subst hpayload
        refine ⟨rfl, ?_⟩
        show g.attachments codec.payloadType ≠ none
        simp [h]
    | built h hb nativeInput => simp at hp
  · intro _
    cases h with
    | attached h nativeInput => exact h
    | built h hb nativeInput => exact h

/-- An attachment is noticed if it is to the payload type in use. -/
theorem Holds.attach (h : g.Holds a codec cores maxPayload touched) (payloadType : UInt8)
    (internalSource : Bool) (n : Nat) :
    (g.attach payloadType internalSource n).Holds a codec cores maxPayload
      (touched ∨ payloadType = codec.payloadType) where
  active := h.active
  sendCodec := h.sendCodec
  cores := h.cores
  maxPayload := h.maxPayload
  stale := by
    have hserves : g.serves payloadType = true ↔ payloadType = codec.payloadType := by
      simp only [serves, h.sendCodec, beq_iff_eq]
      exact eq_comm
    show (g.stale || g.serves payloadType) = true ↔ _
    rw [Bool.or_eq_true, h.stale, hserves]
  own p hp := by
    obtain ⟨heq, hsome⟩ := h.own p hp
    refine ⟨heq, ?_⟩
    simp only [Registry.attach]
    split
    · simp
    · exact hsome
  current hstale := by
    simp only [Registry.attach, serves, h.sendCodec, Bool.or_eq_false_iff, beq_eq_false_iff_ne]
      at hstale
    simp only [Registry.attach, if_neg hstale.2]
    exact h.current hstale.1

/-- What is detached while the encoder stays is nothing that the encoder
depends on. -/
theorem Holds.forget (h : g.Holds a codec cores maxPayload touched) {payloadType : UInt8}
    (hsome : g.attachments payloadType ≠ none) (hother : a.attachedTo ≠ some payloadType) :
    (g.forget payloadType).Holds a codec cores maxPayload touched where
  active := h.active
  sendCodec := h.sendCodec
  cores := h.cores
  maxPayload := h.maxPayload
  stale := h.stale
  own p hp := by
    obtain ⟨heq, hattached⟩ := h.own p hp
    have hne : p ≠ payloadType := by
      rintro rfl
      exact hother hp
    refine ⟨heq, ?_⟩
    simpa only [Registry.forget, if_neg hne] using hattached
  current hstale := by
    have hcurrent := h.current hstale
    by_cases hp : codec.payloadType = payloadType
    · -- Then the attachment would be the encoder's own.
      cases hto : a.attachedTo with
      | none => simp [hto, hp, hsome] at hcurrent
      | some p =>
          obtain ⟨rfl, _⟩ := h.own p hto
          rw [hp] at hto
          exact absurd hto hother
    · simpa only [Registry.forget, if_neg hp] using hcurrent

end Registry

namespace Station

/-- What a call writes into the journal. -/
def entries (t : Station) (c : RegistryCall) : List Event :=
  entriesSince t.rack.journal (t.step c).rack.journal

/-- The call is a registration that initialises an encoder. -/
def Opens (t : Station) : RegistryCall → Prop
  | .register codec cores maxPayload =>
      ∃ n, .answered n (.init codec.clamped cores maxPayload) none ∈
        t.entries (.register codec cores maxPayload)
  | _ => False

/-- The call releases an encoder. -/
def Closes (t : Station) (c : RegistryCall) : Prop := ∃ n, .called n .release ∈ t.entries c

/-- The call attaches an encoder to a payload type. -/
def AttachesTo (t : Station) (payloadType : UInt8) : RegistryCall → Prop
  | .attach p _ choice => p = payloadType ∧ (t.rack.choose choice).isSome = true
  | _ => False

/-- None of the calls releases an encoder. -/
def Lasts (t : Station) : List RegistryCall → Prop
  | [] => True
  | c :: rest => ¬ t.Closes c ∧ (t.step c).Lasts rest

/-- One of the calls attaches an encoder to a payload type. -/
def Attaches (t : Station) (payloadType : UInt8) : List RegistryCall → Prop
  | [] => False
  | c :: rest => t.AttachesTo payloadType c ∨ (t.step c).Attaches payloadType rest

/-- The time since the active encoder was initialised, in a run that makes
`calls`. -/
structure Tenure (s : Station) (calls : List RegistryCall) where
  before : List RegistryCall
  codec : Codec
  cores : UInt32
  maxPayload : Nat
  since : List RegistryCall
  calls_eq : calls = before ++ .register codec cores maxPayload :: since
  opens : (s.run before).Opens (.register codec cores maxPayload)
  lasts : ((s.run before).step (.register codec cores maxPayload)).Lasts since

/-- Since the tenure began an encoder was attached to a payload type. -/
def Tenure.Attached {s : Station} {calls : List RegistryCall} (T : Tenure s calls)
    (payloadType : UInt8) : Prop :=
  ((s.run T.before).step (.register T.codec T.cores T.maxPayload)).Attaches payloadType T.since

variable {s t : Station} {c : RegistryCall} {calls : List RegistryCall} {new : List Event}
  {a : ActiveEncoder} {codec : Codec} {cores : UInt32} {maxPayload : Nat} {touched : Prop}

theorem run_append (t : Station) (calls more : List RegistryCall) :
    t.run (calls ++ more) = (t.run calls).run more :=
  List.foldl_append

theorem run_snoc (t : Station) (calls : List RegistryCall) (c : RegistryCall) :
    t.run (calls ++ [c]) = (t.run calls).step c :=
  t.run_append calls [c]

theorem entries_eq (h : (t.step c).rack.journal = new ++ t.rack.journal) : t.entries c = new := by
  rw [entries, h, entriesSince_append]

theorem not_closes (h : (t.step c).rack.journal = new ++ t.rack.journal)
    (hnew : ∀ n, .called n .release ∉ new) : ¬ t.Closes c := by
  rintro ⟨n, hn⟩
  rw [entries_eq h] at hn
  exact hnew n hn

theorem closes_of_releaseEntries {fault : Option EncoderFault}
    (h : (t.step c).rack.journal =
      new ++ (Registry.releaseEntries t.registry.active fault ++ t.rack.journal))
    (hactive : t.registry.active = some a) : t.Closes c := by
  refine ⟨a.handle.encoder, ?_⟩
  rw [← List.append_assoc] at h
  rw [entries_eq h, hactive]
  simp [Registry.releaseEntries]

/-- Giving up an encoder initialises none. -/
theorem init_not_mem_releaseEntries (n : Nat) (active : Option ActiveEncoder)
    (fault : Option EncoderFault) :
    .answered n (.init codec cores maxPayload) none ∉ Registry.releaseEntries active fault := by
  cases active with
  | none => simp [Registry.releaseEntries]
  | some a => cases fault <;> simp [Registry.releaseEntries]

/-- An encoder that is initialised is the one supplied, and it is active. -/
theorem Opens.installs (h : t.Opens (.register codec cores maxPayload)) :
    ∃ a rack' fault, t.registry.Supplies t.rack codec a ∧
      t.step (.register codec cores maxPayload) =
        ⟨{ t.registry.vacated with
            active := some a
            sendCodec := some codec.clamped
            cores := cores
            maxPayload := maxPayload }, rack'⟩ ∧
      rack'.journal =
        Registry.initEntries a.handle.encoder codec.clamped cores maxPayload none ++
          (Registry.releaseEntries t.registry.active fault ++ t.rack.journal) := by
  obtain ⟨n, hn⟩ := h
  have hregisters := t.registry.register_registers t.rack codec cores maxPayload
  rw [entries, step_register] at hn
  rw [step_register]
  generalize t.registry.register t.rack codec cores maxPayload = result at hn hregisters ⊢
  cases hregisters with
  | invalid _ => simp [entriesSince] at hn
  | kept _ _ =>
      have hkept : (t.rack.log .encoderKept).journal = [.log .encoderKept] ++ t.rack.journal := rfl
      rw [hkept, entriesSince_append] at hn
      simp at hn
  | missing _ _ fault hjournal =>
      rw [hjournal, entriesSince_append] at hn
      exact absurd hn (init_not_mem_releaseEntries n _ fault)
  | failed _ _ fault m name f hjournal =>
      rw [hjournal, ← List.cons_append, ← List.append_assoc, entriesSince_append] at hn
      simp [Registry.initEntries, init_not_mem_releaseEntries] at hn
  | @installed rack' a _ _ fault hsupplies _ _ hjournal =>
      exact ⟨a, rack', fault, hsupplies, rfl, hjournal⟩

theorem Opens.holds (h : t.Opens (.register codec cores maxPayload)) :
    ∃ a, t.registry.Supplies t.rack codec a ∧
      (t.step (.register codec cores maxPayload)).registry.Holds a codec.clamped cores maxPayload
        False := by
  obtain ⟨a, rack', fault, hsupplies, hstep, _⟩ := h.installs
  rw [hstep]
  exact ⟨a, hsupplies, hsupplies.holds cores maxPayload⟩

/-- An encoder that was active before is released first. -/
theorem Opens.closes (h : t.Opens (.register codec cores maxPayload))
    (hactive : t.registry.active = some a) : t.Closes (.register codec cores maxPayload) := by
  obtain ⟨a', rack', fault, _, hstep, hjournal⟩ := h.installs
  have hwritten : (t.step (.register codec cores maxPayload)).rack.journal =
      Registry.initEntries a'.handle.encoder codec.clamped cores maxPayload none ++
        (Registry.releaseEntries t.registry.active fault ++ t.rack.journal) := by
    rw [hstep, hjournal]
  exact closes_of_releaseEntries hwritten hactive

/-- A call that releases nothing leaves the encoder active, and what it does
beside is noticed if it concerns the payload type in use. -/
theorem step_holds (h : t.registry.Holds a codec cores maxPayload touched)
    (hlasts : ¬ t.Closes c) :
    (t.step c).registry.Holds a codec cores maxPayload
      (touched ∨ t.AttachesTo codec.payloadType c) := by
  cases c with
  | setBlueprint kind blueprint =>
      have hsame : (t.registry.setBlueprint kind blueprint).Holds a codec cores maxPayload
          touched := ⟨h.active, h.sendCodec, h.cores, h.maxPayload, h.stale, h.own, h.current⟩
      exact hsame.beside
  | register codec' cores' maxPayload' =>
      have hregisters := t.registry.register_registers t.rack codec' cores' maxPayload'
      -- A registration that does not keep the encoder begins by releasing it.
      have hclosing : ∀ top fault,
          (t.registry.register t.rack codec' cores' maxPayload').2.1.journal =
            top ++ (Registry.releaseEntries t.registry.active fault ++ t.rack.journal) → False :=
        fun top fault hjournal => hlasts (closes_of_releaseEntries hjournal h.active)
      show Registry.Holds (t.registry.register t.rack codec' cores' maxPayload').1 a codec cores
        maxPayload (touched ∨ False)
      generalize t.registry.register t.rack codec' cores' maxPayload' = result
        at hregisters hclosing ⊢
      cases hregisters with
      | invalid _ => exact h.beside
      | kept _ _ => exact h.beside
      | missing _ _ fault hjournal => exact (hclosing [] fault hjournal).elim
      | failed _ _ fault n name f hjournal => exact (hclosing (_ :: _) fault hjournal).elim
      | installed _ _ fault _ _ _ hjournal => exact (hclosing _ fault hjournal).elim
  | attach payloadType internalSource choice =>
      cases hchoice : t.rack.choose choice with
      | none =>
          simp only [step, hchoice]
          exact h.congr (by simp [AttachesTo, hchoice])
      | some found =>
          simp only [step, hchoice]
          exact (h.attach payloadType internalSource found.2).congr (by simp [AttachesTo, hchoice])
  | detach payloadType =>
      have hdetaches := t.registry.detach_detaches t.rack payloadType
      have hclosing : ∀ fault,
          (t.registry.detach t.rack payloadType).2.1.journal =
            [] ++ (Registry.releaseEntries t.registry.active fault ++ t.rack.journal) → False :=
        fun fault hjournal => hlasts (closes_of_releaseEntries hjournal h.active)
      show Registry.Holds (t.registry.detach t.rack payloadType).1 a codec cores maxPayload
        (touched ∨ False)
      generalize t.registry.detach t.rack payloadType = result at hdetaches hclosing ⊢
      cases hdetaches with
      | unknown _ => exact h.beside
      | unused hsome hother =>
          exact (h.forget hsome (hother a h.active)).beside
      | used _ _ _ _ fault hjournal => exact (hclosing fault hjournal).elim
  | encode frame kinds => exact h.beside
  | setFaults n patch => exact h.beside

theorem run_holds (h : t.registry.Holds a codec cores maxPayload touched)
    (hlasts : t.Lasts calls) :
    (t.run calls).registry.Holds a codec cores maxPayload
      (touched ∨ t.Attaches codec.payloadType calls) := by
  induction calls generalizing t touched with
  | nil => exact h.beside
  | cons c rest ih =>
      have hstep := step_holds h hlasts.1
      exact (ih hstep hlasts.2).congr or_assoc

theorem Tenure.run_eq (T : Tenure s calls) :
    s.run calls =
      ((s.run T.before).step (.register T.codec T.cores T.maxPayload)).run T.since :=
  (congrArg s.run T.calls_eq).trans (s.run_append _ _)

/-- All that the registry holds goes back to the beginning of the tenure, and
attachments since are noticed. -/
theorem Tenure.holds (T : Tenure s calls) :
    ∃ a, (s.run T.before).registry.Supplies (s.run T.before).rack T.codec a ∧
      (s.run calls).registry.Holds a T.codec.clamped T.cores T.maxPayload
        (T.Attached T.codec.payloadType) := by
  obtain ⟨a, hsupplies, hopened⟩ := T.opens.holds
  refine ⟨a, hsupplies, ?_⟩
  have hrun := run_holds hopened T.lasts
  have htouched : False ∨ T.Attached T.codec.payloadType ↔ T.Attached T.codec.payloadType := by
    simp
  rw [T.run_eq]
  exact hrun.congr htouched

theorem Lasts.snoc (h : t.Lasts calls) (hlast : ¬ (t.run calls).Closes c) :
    t.Lasts (calls ++ [c]) := by
  induction calls generalizing t with
  | nil => exact ⟨hlast, trivial⟩
  | cons first rest ih => exact ⟨h.1, ih h.2 hlast⟩

/-- The tenure goes on with a call that releases nothing. -/
def Tenure.extend (T : Tenure s calls) (hlast : ¬ (s.run calls).Closes c) :
    Tenure s (calls ++ [c]) where
  before := T.before
  codec := T.codec
  cores := T.cores
  maxPayload := T.maxPayload
  since := T.since ++ [c]
  calls_eq := by
    have hcalls := T.calls_eq
    simp [hcalls]
  opens := T.opens
  lasts := by
    apply T.lasts.snoc
    rwa [← T.run_eq]

/-- The tenure that begins with the last call. -/
def Tenure.opened (h : (s.run calls).Opens (.register codec cores maxPayload)) :
    Tenure s (calls ++ [.register codec cores maxPayload]) :=
  ⟨calls, codec, cores, maxPayload, [], rfl, h, trivial⟩

/-- An active encoder was initialised by the last call, or was active before
and not released. -/
theorem step_active (h : (t.step c).registry.active ≠ none) :
    t.Opens c ∨ t.registry.active ≠ none ∧ ¬ t.Closes c := by
  have hbeside : ∀ new, (t.step c).rack.journal = new ++ t.rack.journal →
      (∀ n, .called n .release ∉ new) → (t.step c).registry.active = t.registry.active →
      t.registry.active ≠ none ∧ ¬ t.Closes c :=
    fun new hjournal hnew hactive => ⟨hactive ▸ h, not_closes hjournal hnew⟩
  cases c with
  | setBlueprint kind blueprint => exact Or.inr (hbeside [] rfl (by simp) rfl)
  | register codec cores maxPayload =>
      have hregisters := t.registry.register_registers t.rack codec cores maxPayload
      change (t.registry.register t.rack codec cores maxPayload).1.active ≠ none at h
      rw [Opens, entries, step_register]
      rw [step_register] at hbeside
      generalize t.registry.register t.rack codec cores maxPayload = result
        at hregisters hbeside h ⊢
      cases hregisters with
      | invalid _ => exact Or.inr (hbeside [] rfl (by simp) rfl)
      | kept _ _ => exact Or.inr (hbeside [.log .encoderKept] rfl (by simp) rfl)
      | missing _ _ _ _ => exact absurd rfl h
      | failed _ _ _ _ _ _ _ => exact absurd rfl h
      | @installed rack' a _ _ fault _ _ _ hjournal =>
          left
          refine ⟨a.handle.encoder, ?_⟩
          rw [← List.append_assoc] at hjournal
          rw [hjournal, entriesSince_append]
          simp [Registry.initEntries]
  | attach payloadType internalSource choice =>
      right
      cases hchoice : t.rack.choose choice with
      | none =>
          have hstep : t.step (.attach payloadType internalSource choice) = t := by
            simp only [step, hchoice]
          exact hbeside [] (by rw [hstep, List.nil_append]) (by simp) (by rw [hstep])
      | some found =>
          have hjournal := (Rack.choose_setup hchoice).2.1
          refine hbeside [] ?_ (by simp) ?_
          · simp only [step, hchoice, hjournal, List.nil_append]
          · simp only [step, hchoice]
            rfl
  | detach payloadType =>
      right
      have hdetaches := t.registry.detach_detaches t.rack payloadType
      change (t.registry.detach t.rack payloadType).1.active ≠ none at h
      rw [step_detach] at hbeside
      generalize t.registry.detach t.rack payloadType = result at hdetaches hbeside h
      cases hdetaches with
      | unknown _ => exact hbeside [] rfl (by simp) rfl
      | unused _ _ => exact hbeside [] rfl (by simp) rfl
      | used _ _ _ _ _ _ => exact absurd rfl h
  | encode frame kinds =>
      obtain ⟨_, new, hjournal, hnew⟩ := t.registry.encode_end t.rack frame kinds
      exact Or.inr (hbeside new hjournal (fun n hn => hnew _ hn) rfl)
  | setFaults n patch => exact Or.inr (hbeside [] rfl (by simp) rfl)

/-- Whatever encoder is active was initialised by one of the calls, and no call
since has released one. -/
theorem exists_tenure (encoders : Array Encoder) (calls : List RegistryCall)
    (h : ((start encoders).run calls).registry.active ≠ none) :
    Nonempty (Tenure (start encoders) calls) := by
  -- From the end: the last call either begins the tenure or goes on with it.
  induction calls using List.reverseRecOn with
  | nil => exact absurd rfl h
  | append_singleton calls c ih =>
      rw [run_snoc] at h
      rcases step_active h with hopens | ⟨hactive, hlast⟩
      · cases c with
        | register codec cores maxPayload => exact ⟨.opened hopens⟩
        | _ => exact hopens.elim
      · obtain ⟨T⟩ := ih hactive
        exact ⟨T.extend hlast⟩

theorem Lasts.split {more : List RegistryCall} (h : t.Lasts (calls ++ c :: more)) :
    t.Lasts calls ∧ ¬ (t.run calls).Closes c := by
  induction calls generalizing t with
  | nil => exact ⟨trivial, h.1⟩
  | cons first rest ih =>
      obtain ⟨hrest, hlast⟩ := ih h.2
      exact ⟨⟨h.1, hrest⟩, hlast⟩

/-- A tenure that began later would have begun by releasing the encoder. -/
theorem Tenure.not_later (T T' : Tenure s calls) {mid : List RegistryCall}
    (hbefore : T'.before = T.before ++ .register T.codec T.cores T.maxPayload :: mid)
    (hsince : T.since = mid ++ .register T'.codec T'.cores T'.maxPayload :: T'.since) : False := by
  have hlasts := T.lasts
  rw [hsince] at hlasts
  obtain ⟨hmid, hlast⟩ := hlasts.split
  obtain ⟨a, _, hopened⟩ := T.opens.holds
  have hactive := (run_holds hopened hmid).active
  have hrun : s.run T'.before =
      ((s.run T.before).step (.register T.codec T.cores T.maxPayload)).run mid :=
    (congrArg s.run hbefore).trans (s.run_append _ _)
  have hopens := T'.opens
  rw [hrun] at hopens
  exact hlast (hopens.closes hactive)

/-- There is at most one tenure. -/
theorem Tenure.before_eq (T T' : Tenure s calls) : T.before = T'.before := by
  -- One of the two beginnings would lie in the time since the other.
  have hcalls := T.calls_eq.symm.trans T'.calls_eq
  rcases List.append_eq_append_iff.mp hcalls with ⟨mid, hbefore, hrest⟩ | ⟨mid, hbefore, hrest⟩
  · cases mid with
    | nil => simpa using hbefore.symm
    | cons first mid =>
        simp only [List.cons_append, List.cons.injEq] at hrest
        obtain ⟨rfl, hsince⟩ := hrest
        exact (T.not_later T' hbefore hsince).elim
  · cases mid with
    | nil => simpa using hbefore
    | cons first mid =>
        simp only [List.cons_append, List.cons.injEq] at hrest
        obtain ⟨rfl, hsince⟩ := hrest
        exact (T'.not_later T hbefore hsince).elim

end Station

end Simulcast
