import Mathlib.Algebra.GroupWithZero.Nat
import Mathlib.Data.List.Basic
import Simulcast.Proofs.Journal.Reading

/-!
What a journal says of encoded output: which images rate control was told of,
which were handed to the application, and which kinds of frame were asked for by
the calls that encoders took. An image shows twice, first as accounted and then
as handed out. Journals have the latest entry first, and so have all readings.
-/

namespace Simulcast

/-- The timestamp and the kinds of frame, one for each stream, that a call asks
for. All other calls ask for no frame. -/
def EncoderCall.asked? : EncoderCall → Option (UInt32 × List FrameKind)
  | .encode frame kinds _ => some (frame.timestamp, kinds)
  | .request kinds => some (0, kinds)
  | _ => none

namespace Event

/-- An encoder is asked for a frame, or answers that. -/
def asksFrame : Event → Bool
  | .called _ c | .answered _ c _ => c.asked?.isSome
  | _ => false

/-- An image is accounted for or handed out. -/
def isOutput : Event → Bool
  | .rate (.accounted _) | .image _ => true
  | _ => false

/-- Neither a frame is asked for nor an image is seen. -/
def Barren (e : Event) : Prop := e.asksFrame = false ∧ e.isOutput = false

def accounted? : Event → Option EncodedImage
  | .rate (.accounted output) => some output
  | _ => none

def handedOut? : Event → Option EncodedImage
  | .image output => some output
  | _ => none

/-- The kinds of frame that an encoder took, the last stream first. -/
def taken : Event → List FrameKind
  | .answered _ c none => ((c.asked?.map (·.2)).getD []).reverse
  | _ => []

end Event

/-- The entries about images. -/
def outputs (journal : List Event) : List Event := journal.filter Event.isOutput

/-- The images that rate control was told of. -/
def accountedImages (journal : List Event) : List EncodedImage := journal.filterMap Event.accounted?

/-- The images that were handed to the application. -/
def handedImages (journal : List Event) : List EncodedImage := journal.filterMap Event.handedOut?

/-- The kinds of frame that calls carried which encoders took. -/
def takenKinds (journal : List Event) : List FrameKind := journal.flatMap Event.taken

/-- The entries of images that are delivered one after the other: each is
accounted for and then handed out, before the next one. -/
def delivered : List EncodedImage → List Event
  | [] => []
  | image :: rest => delivered rest ++ [.image image, .rate (.accounted image)]

variable {new old : List Event}

theorem outputs_append (new old : List Event) : outputs (new ++ old) = outputs new ++ outputs old :=
  List.filter_append new old

theorem accountedImages_append (new old : List Event) :
    accountedImages (new ++ old) = accountedImages new ++ accountedImages old :=
  List.filterMap_append

theorem handedImages_append (new old : List Event) :
    handedImages (new ++ old) = handedImages new ++ handedImages old :=
  List.filterMap_append

theorem takenKinds_append (new old : List Event) :
    takenKinds (new ++ old) = takenKinds new ++ takenKinds old :=
  List.flatMap_append

theorem outputs_of_barren (h : ∀ e ∈ new, e.Barren) : outputs new = [] := by
  rw [outputs, List.filter_eq_nil_iff]
  intro e he
  simp [(h e he).2]

/-- A reading of entries about images can be taken of these alone. -/
theorem filterMap_outputs {reading : Event → Option EncodedImage}
    (h : ∀ e, e.isOutput = false → reading e = none) (journal : List Event) :
    (outputs journal).filterMap reading = journal.filterMap reading := by
  rw [outputs, List.filterMap_filter]
  congr 1
  funext e
  cases houtput : e.isOutput with
  | false => rw [h e houtput, if_neg (by simp)]
  | true => rw [if_pos rfl]

theorem accountedImages_outputs (journal : List Event) :
    accountedImages (outputs journal) = accountedImages journal := by
  refine filterMap_outputs (fun e he => ?_) journal
  cases e with
  | rate c => cases c <;> first | rfl | cases he
  | _ => rfl

theorem handedImages_outputs (journal : List Event) :
    handedImages (outputs journal) = handedImages journal := by
  refine filterMap_outputs (fun e he => ?_) journal
  cases e <;> first | rfl | cases he

theorem takenKinds_of_none (h : ∀ e ∈ new, e.asksFrame = false) : takenKinds new = [] := by
  rw [takenKinds, List.flatMap_eq_nil_iff]
  intro e he
  have hasks := h e he
  cases e with
  | answered n c fault =>
      have hnone : c.asked? = none := by simpa [Event.asksFrame] using hasks
      cases fault <;> simp [Event.taken, hnone]
  | _ => rfl

theorem outputs_call (after during before : List Event) (n : Nat) (c : EncoderCall)
    (fault : Option EncoderFault) :
    outputs (after ++ .answered n c fault :: (during ++ .called n c :: before)) =
      outputs after ++ (outputs during ++ outputs before) := by
  simp [outputs, Event.isOutput]

theorem takenKinds_call (after during before : List Event) (n : Nat) (c : EncoderCall)
    (fault : Option EncoderFault) :
    takenKinds (after ++ .answered n c fault :: (during ++ .called n c :: before)) =
      takenKinds after ++
        (Event.taken (.answered n c fault) ++ (takenKinds during ++ takenKinds before)) := by
  have hcalled : takenKinds (.called n c :: before) = takenKinds before := rfl
  have hanswered : takenKinds (.answered n c fault :: (during ++ .called n c :: before)) =
      Event.taken (.answered n c fault) ++ takenKinds (during ++ .called n c :: before) := rfl
  rw [takenKinds_append, hanswered, takenKinds_append, hcalled]

theorem delivered_append (images more : List EncodedImage) :
    delivered (images ++ more) = delivered more ++ delivered images := by
  induction images with
  | nil => simp [delivered]
  | cons image rest ih => simp [delivered, ih]

/-- A reading that sees each image of a delivery once sees them in order. -/
theorem filterMap_delivered {reading : Event → Option EncodedImage}
    (h : ∀ image, [.image image, .rate (.accounted image)].filterMap reading = [image])
    (images : List EncodedImage) : (delivered images).filterMap reading = images.reverse := by
  induction images with
  | nil => rfl
  | cons image rest ih => rw [delivered, List.filterMap_append, ih, h, List.reverse_cons]

theorem accountedImages_delivered (images : List EncodedImage) :
    accountedImages (delivered images) = images.reverse :=
  filterMap_delivered (fun _ => rfl) images

theorem handedImages_delivered (images : List EncodedImage) :
    handedImages (delivered images) = images.reverse :=
  filterMap_delivered (fun _ => rfl) images

/-- A key frame has four thousand bytes, a delta frame one thousand. -/
def EncodedImage.Sized (image : EncodedImage) : Prop :=
  image.size = if image.kind = .key then 4000 else 1000

/-- The images of one frame of `codec`: one for each of `kinds`, in stream order. -/
structure Renders (codec : Codec) (timestamp : UInt32) (kinds : List FrameKind)
    (images : List EncodedImage) : Prop where
  asked : images.map (·.kind) = kinds
  streams : images.map (·.stream) = List.range kinds.length
  sized : ∀ image ∈ images, image.Sized
  resolution : ∀ image ∈ images, image.resolution = codec.resolution
  timestamp : ∀ image ∈ images, image.timestamp = timestamp

/-- Images and calls of a time tally: what was accounted for was handed out,
and it is what was asked for by the calls that encoders took. -/
structure Tallies (new : List Event) : Prop where
  handed : handedImages new = accountedImages new
  kinds : (accountedImages new).map (·.kind) = takenKinds new
  sized : ∀ image ∈ accountedImages new, image.Sized

theorem Tallies.append (h : Tallies new) (h' : Tallies old) : Tallies (new ++ old) where
  handed := by rw [handedImages_append, accountedImages_append, h.handed, h'.handed]
  kinds := by
    rw [accountedImages_append, takenKinds_append, List.map_append, h.kinds, h'.kinds]
  sized := by
    rw [accountedImages_append]
    exact List.forall_mem_append.mpr ⟨h.sized, h'.sized⟩

theorem Tallies.of_none (houtputs : outputs new = []) (htaken : takenKinds new = []) :
    Tallies new := by
  have haccounted : accountedImages new = [] := by
    rw [← accountedImages_outputs, houtputs]
    rfl
  have hhanded : handedImages new = [] := by
    rw [← handedImages_outputs, houtputs]
    rfl
  exact ⟨by rw [hhanded, haccounted], by rw [haccounted, htaken, List.map_nil],
    by simp [haccounted]⟩

theorem Tallies.of_delivered {codec : Codec} {timestamp : UInt32} {kinds : List FrameKind}
    {images : List EncodedImage} (houtputs : outputs new = delivered images)
    (hrenders : Renders codec timestamp kinds images) (htaken : takenKinds new = kinds.reverse) :
    Tallies new := by
  have haccounted : accountedImages new = images.reverse := by
    rw [← accountedImages_outputs, houtputs, accountedImages_delivered]
  have hhanded : handedImages new = images.reverse := by
    rw [← handedImages_outputs, houtputs, handedImages_delivered]
  refine ⟨by rw [hhanded, haccounted], ?_, ?_⟩
  · rw [haccounted, htaken, List.map_reverse, hrenders.asked]
  · intro image himage
    rw [haccounted, List.mem_reverse] at himage
    exact hrenders.sized image himage

/-- The bytes of sized images, by how many of each kind there are. -/
theorem bytes_eq {images : List EncodedImage} (h : ∀ image ∈ images, image.Sized) :
    (images.map (·.size)).sum =
      4000 * (images.map (·.kind)).count .key + 1000 * (images.map (·.kind)).count .delta := by
  induction images with
  | nil => rfl
  | cons image rest ih =>
      have hrest := ih fun image himage => h image (by simp [himage])
      have hsize : image.size = if image.kind = .key then 4000 else 1000 := h image (by simp)
      rw [List.map_cons, List.map_cons, List.sum_cons, hrest, hsize]
      cases image.kind <;> simp <;> omega

end Simulcast
