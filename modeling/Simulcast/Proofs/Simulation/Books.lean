import Mathlib.Data.List.Basic
import Simulcast.Proofs.Journal.Targets
import Simulcast.Proofs.Sender.Records
import Simulcast.Simulation.Run

/-!
The numbers of a simulation: how many key frames are requested and which
targets the network sets by a frame, and the books that an encoder's records
keep of what it got. Key frames are accounted for by the pending ones: a request
adds one at most, and an encode call takes all that are pending.
-/

namespace Simulcast.Simulation

namespace Options

variable (o : Options)

/-- How many key frames are requested before frame `k` is. -/
def requestsBefore (k : Nat) : Nat := (List.range k).countP o.requestsKeyAt

/-- The maximum of the codec in bits per second. -/
def maximum : UInt32 := bitsPerSecond o.codec.maxBitrate

/-- The target rate control gives while frame `k` is submitted. -/
def allowedAt (k : Nat) : UInt32 := cut o.maximum (o.targetAt k)

/-- The last target before frame `k` that lets anything be sent, or zero. -/
def lastTarget : Nat → UInt32
  | 0 => 0
  | k + 1 => if o.allowedAt k = 0 then lastTarget k else o.allowedAt k

theorem requestsBefore_succ (k : Nat) :
    o.requestsBefore (k + 1) = o.requestsBefore k + if o.requestsKeyAt k then 1 else 0 := by
  rw [requestsBefore, List.range_succ, List.countP_append, List.countP_singleton]
  rfl

/-- A key frame is requested whenever as many frames have gone by as the
interval says, and none before the first frame. -/
theorem requestsBefore_eq (k : Nat) :
    o.requestsBefore k = (k - 1) / o.keyFrameInterval.toNat := by
  induction k with
  | zero => simp [requestsBefore]
  | succ k ih =>
      rw [requestsBefore_succ, ih]
      cases k with
      | zero => simp [requestsKeyAt]
      | succ k =>
          by_cases hzero : o.keyFrameInterval.toNat = 0
          · simp [requestsKeyAt, hzero]
          · rw [Nat.add_sub_cancel, Nat.add_sub_cancel, Nat.succ_div]
            simp [requestsKeyAt, Nat.pos_of_ne_zero hzero, Nat.dvd_iff_mod_eq_zero]

theorem maximum_eq : o.maximum = 2000000 := by
  have hkilobits : o.codec.maxBitrate = 2000 := rfl
  rw [maximum, hkilobits]
  decide +kernel

theorem allowedAt_eq_zero_iff (k : Nat) : o.allowedAt k = 0 ↔ o.targetAt k = 0 := by
  rw [allowedAt, maximum_eq, cut, if_neg (by decide)]
  constructor
  · intro h
    rcases Std.min_eq_or (a := o.targetAt k) (b := 2000000) with hmin | hmin
    · rw [← hmin, h]
    · exact absurd (h.symm.trans hmin) (by decide)
  · intro h
    rw [h]
    exact UInt32.le_zero_iff.mp Std.min_le_left

/-- A network that never allows anything. -/
theorem lastTarget_of_zero (h : o.bitrate = 0) (k : Nat) : o.lastTarget k = 0 := by
  induction k with
  | zero => rfl
  | succ k ih =>
      have hallowed : o.allowedAt k = 0 := by
        rw [allowedAt_eq_zero_iff, targetAt, h]
        split <;> rfl
      rw [lastTarget, if_pos hallowed, ih]

/-- The last frame is not in the middle third of the run. -/
theorem targetAt_last {k : Nat} (h : o.count.toNat = k + 1) : o.targetAt k = o.bitrate := by
  unfold targetAt
  rw [if_neg]
  omega

theorem lastTarget_count :
    o.lastTarget o.count.toNat = if o.count = 0 then 0 else min o.bitrate 2000000 := by
  cases hcount : o.count.toNat with
  | zero =>
      have hzero : o.count = 0 := UInt32.toNat_inj.mp hcount
      rw [if_pos hzero]
      rfl
  | succ k =>
      have hne : o.count ≠ 0 := by
        rintro hzero
        simp [hzero] at hcount
      have hallowed : o.allowedAt k = min o.bitrate 2000000 := by
        rw [allowedAt, o.targetAt_last hcount, maximum_eq, cut, if_neg (by decide)]
      rw [if_neg hne, lastTarget, hallowed]
      by_cases hzero : o.allowedAt k = 0
      · rw [if_pos (hallowed ▸ hzero), ← hallowed, hzero]
        rw [allowedAt_eq_zero_iff, o.targetAt_last hcount] at hzero
        exact o.lastTarget_of_zero hzero k
      · rw [if_neg (hallowed ▸ hzero)]

end Options

/-- A request adds one pending key frame at most, and takes none away. -/
theorem keyCount_set (kinds : List FrameKind) (i : Nat) :
    keyCount kinds ≤ keyCount (kinds.set i .key) ∧
      keyCount (kinds.set i .key) ≤ keyCount kinds + 1 := by
  by_cases hi : i < kinds.length
  · have hset := List.countP_set (p := (· == FrameKind.key)) (a := .key) hi
    have hle : (if (kinds[i] == .key) = true then 1 else 0) ≤ keyCount kinds := by
      split
      · rename_i hkey
        exact List.countP_pos_iff.mpr ⟨kinds[i], List.getElem_mem hi, hkey⟩
      · exact Nat.zero_le _
    have hone : (if (kinds[i] == .key) = true then 1 else 0) ≤ 1 := by split <;> omega
    simp only [BEq.rfl, if_true] at hset
    unfold keyCount at hle ⊢
    rw [hset]
    omega
  · rw [List.set_eq_of_length_le (Nat.le_of_not_lt hi)]
    omega

/-- Nothing is pending once everything pending was carried. -/
theorem keyCount_clearKinds (kinds : List FrameKind) :
    keyCount (Schedule.clearKinds kinds kinds) = 0 := by
  induction kinds with
  | nil => rfl
  | cons kind rest ih =>
      simp only [Schedule.clearKinds, if_true]
      exact ih

/-- The key frames among the frames that were encoded. -/
def keyFrames : List EncodeRecord → Nat
  | [] => 0
  | r :: rest => keyCount r.kinds + keyFrames rest

theorem foldl_keyCount (encodes : List EncodeRecord) (n : Nat) :
    encodes.foldl (fun n r => n + keyCount r.kinds) n = n + keyFrames encodes := by
  induction encodes generalizing n with
  | nil => rfl
  | cons r rest ih =>
      rw [List.foldl_cons, ih, keyFrames, Nat.add_assoc]

/-- The books after `frames` frames and `requests` requests, when `pending` key
frames are wanted: what the encoder got, and the target it was last told of. -/
structure Books (streams frames requests : Nat) (target : UInt32) (e : Encoder)
    (pending : Nat) : Prop where
  total : e.encodes.length + e.skips = frames
  unserved : e.encodes = [] → streams ≤ pending
  served : e.encodes ≠ [] → streams ≤ keyFrames e.encodes
  most : keyFrames e.encodes + pending ≤ streams + requests
  target : e.rates.targetBitrate = target

variable {streams frames requests pending pending' : Nat} {target : UInt32} {e : Encoder}

theorem Books.request (h : Books streams frames requests target e pending)
    (hle : pending ≤ pending') {made : Nat} (hmost : pending' ≤ pending + made) :
    Books streams frames (requests + made) target e pending' where
  total := h.total
  unserved hnone := Nat.le_trans (h.unserved hnone) hle
  served := h.served
  most := by
    have := h.most
    omega
  target := h.target

theorem Books.skip (h : Books streams frames requests target e pending) :
    Books streams (frames + 1) requests target (e.perform .skip).1 pending where
  total := congrArg (· + 1) h.total
  unserved := h.unserved
  served := h.served
  most := h.most
  target := h.target

theorem Books.configure (h : Books streams frames requests target e pending)
    (hfaults : e.faults.configure = none) (rates : RateParameters) :
    Books streams frames requests rates.targetBitrate (e.perform (.configure rates)).1
      pending := by
  simp only [Encoder.perform, hfaults]
  exact ⟨h.total, h.unserved, h.served, h.most, rfl⟩

/-- An encode call carries all that is pending, the first one a key frame for
every stream. -/
theorem Books.encode (h : Books streams frames requests target e pending) (frame : Frame)
    {kinds : List FrameKind} (hkinds : keyCount kinds = pending) (info : Option SideInfo) :
    Books streams (frames + 1) requests target (e.perform (.encode frame kinds info)).1 0 := by
  have hsum : keyFrames (e.perform (.encode frame kinds info)).1.encodes =
      keyCount kinds + keyFrames e.encodes := rfl
  have hmost := h.most
  refine ⟨?_, ?_, fun _ => ?_, ?_, h.target⟩
  · show e.encodes.length + 1 + e.skips = frames + 1
    have := h.total
    omega
  · intro hnone
    exact absurd hnone (List.cons_ne_nil _ _)
  · rw [hsum]
    by_cases hfirst : e.encodes = []
    · have := h.unserved hfirst
      omega
    · have := h.served hfirst
      omega
  · rw [hsum]
    omega

end Simulcast.Simulation
