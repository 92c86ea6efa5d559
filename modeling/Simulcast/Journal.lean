import Simulcast.Sender.Action

/-!
The journal of a run: every call a sender makes on its collaborators, what it
hands out, and what it logs, in order. Log entries are kept as what happened;
their severity and text are read off them.
-/

namespace Simulcast

/-- Something worth a line in the log. -/
inductive Notice where
  | encoderKept
  | releaseFailed (fault : EncoderFault)
  | initFailed (encoderName codecName : String) (fault : EncoderFault)
  | registrationFailed (codec : Codec) (error : RegistryError)
  | registered (codec : Codec) (maxPayload : Nat)
  | limited (limits : EncodingLimits)
  | ratesRejected (fault : EncoderFault)
  | gated (timestamp : UInt32)
  | dropped (rates : RateParameters)
  | wrongResolution
  | notReadable (reasons : List String)
  | encodeFailed (code : Int32)
  | keyRequestFailed (stream : Nat) (fault : EncoderFault)
  deriving DecidableEq, Repr

inductive Severity where
  | error
  | warning
  | debug
  | trace
  deriving DecidableEq, Repr

def Severity.label : Severity → String
  | .error => "ERROR"
  | .warning => "WARN"
  | .debug => "DEBUG"
  | .trace => "TRACE"

namespace Notice

def severity : Notice → Severity
  | .encoderKept => .debug
  | .releaseFailed _ => .warning
  | .initFailed _ _ _ => .error
  | .registrationFailed _ _ => .error
  | .registered _ _ => .debug
  | .limited _ => .debug
  | .ratesRejected _ => .warning
  | .gated _ => .trace
  | .dropped _ => .trace
  | .wrongResolution => .error
  | .notReadable _ => .error
  | .encodeFailed _ => .error
  | .keyRequestFailed _ _ => .warning

def text : Notice → String
  | .encoderKept => "send codec unchanged, keeping encoder"
  | .releaseFailed fault => s!"failed to release encoder: {fault.message}"
  | .initFailed encoderName codecName fault =>
      s!"failed to initialize encoder {encoderName} for {codecName}: {fault.message}"
  | .registrationFailed codec error =>
      s!"failed to set send codec {codec.name} (payload type {codec.payloadType.toNat}): "
        ++ error.message
  | .registered codec maxPayload =>
      s!"send codec {codec.name}: max bitrate {codec.maxBitrate.toNat} "
        ++ s!"start bitrate {codec.startBitrate.toNat} "
        ++ s!"max frame rate {codec.maxFrameRate.toNat} max payload size {maxPayload}"
  | .limited limits =>
      s!"encoding data: max bitrate {limits.maxBitrate.toNat} "
        ++ s!"start bitrate {limits.startBitrate.toNat} "
        ++ s!"{limits.resolution.width.toNat}x{limits.resolution.height.toNat}"
        ++ s!"@{limits.maxFrameRate.toNat} layers {limits.temporalLayers.toNat} "
        ++ s!"payload {limits.maxPayload}"
  | .ratesRejected fault => s!"failed to set encoder parameters: {fault.message}"
  | .gated timestamp => s!"no target bitrate, dropping frame {timestamp.toNat}"
  | .dropped rates =>
      s!"drop frame: target bitrate {rates.targetBitrate.toNat} "
        ++ s!"loss rate {rates.lossRate.toNat} rtt {rates.roundTrip} "
        ++ s!"input frame rate {rates.frameRate.toNat}"
  | .wrongResolution => "incoming frame doesn't match set resolution, dropping"
  | .notReadable reasons =>
      "frame conversion failed, dropping frame: " ++ ": ".intercalate reasons
  | .encodeFailed code => s!"failed to encode frame, error code: {code.toInt}"
  | .keyRequestFailed stream fault =>
      s!"key frame request for stream {stream} failed, keeping it pending: {fault.message}"

end Notice

inductive Event where
  /-- A call reaches a numbered encoder. -/
  | called (encoder : Nat) (call : EncoderCall)
  /-- The call returns, with its failure if it failed. -/
  | answered (encoder : Nat) (call : EncoderCall) (fault : Option EncoderFault)
  /-- An image is handed to the application. -/
  | image (image : EncodedImage)
  | statistics (bitrate frameRate : UInt32)
  | rate (call : RateCall)
  | log (notice : Notice)
  /-- An instruction was followed from inside a callback. -/
  | nested (instruction : Instruction) (reply : Reply)
  deriving DecidableEq, Repr

end Simulcast
