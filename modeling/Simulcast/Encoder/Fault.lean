/-!
Failures an encoder may report. Each has a negative status code that callers
see unchanged; a code without a name of its own is kept as a number.
-/

namespace Simulcast

inductive EncoderFault where
  | general
  | levelExceeded
  | memory
  | parameter
  | size
  | timeout
  | uninitialized
  | softwareFallback
  | unsupported
  | other (code : Int32)
  deriving DecidableEq, Repr

namespace EncoderFault

def code : EncoderFault → Int32
  | .general => -1
  | .levelExceeded => -2
  | .memory => -3
  | .parameter => -4
  | .size => -5
  | .timeout => -6
  | .uninitialized => -7
  | .softwareFallback => -13
  | .unsupported => -15
  | .other code => code

/-- The failure a status code stands for. Codes that are not negative report
success. -/
def ofCode? (code : Int32) : Option EncoderFault :=
  if code ≥ 0 then none
  else if code = -1 then some .general
  else if code = -2 then some .levelExceeded
  else if code = -3 then some .memory
  else if code = -4 then some .parameter
  else if code = -5 then some .size
  else if code = -6 then some .timeout
  else if code = -7 then some .uninitialized
  else if code = -13 then some .softwareFallback
  else if code = -15 then some .unsupported
  else some (.other code)

def message : EncoderFault → String
  | .general => "encoder error"
  | .levelExceeded => "encoder level exceeded"
  | .memory => "encoder out of memory"
  | .parameter => "invalid encoder parameter"
  | .size => "invalid frame size"
  | .timeout => "encoder timed out"
  | .uninitialized => "encoder not initialized"
  | .softwareFallback => "encoder requested fallback to software"
  | .unsupported => "encoder does not support the operation"
  | .other code => s!"encoder returned status {code.toInt}"

end EncoderFault

end Simulcast
