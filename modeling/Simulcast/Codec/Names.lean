import Simulcast.Codec.Basic

/-!
Names and numbers of codec families and content modes. Each family has one
label, one number and two accepted spellings; a content mode has two accepted
words.
-/

namespace Simulcast

namespace CodecKind

def label : CodecKind → String
  | .vp8 => "Vp8"
  | .vp9 => "Vp9"
  | .h264 => "H264"
  | .generic => "Generic"

def ofNumber? : UInt8 → Option CodecKind
  | 0 => some .vp8
  | 1 => some .vp9
  | 2 => some .h264
  | 3 => some .generic
  | _ => none

def unknownName : String :=
  "unrecognized codec. Valid values: vp8, vp9, h264, generic"

/-- The family with a given name, all in lower or all in upper case. -/
def ofName? (name : String) : Option CodecKind :=
  if name = "vp8" ∨ name = "VP8" then some .vp8
  else if name = "vp9" ∨ name = "VP9" then some .vp9
  else if name = "h264" ∨ name = "H264" then some .h264
  else if name = "generic" ∨ name = "GENERIC" then some .generic
  else none

end CodecKind

namespace ContentMode

def label : ContentMode → String
  | .realtime => "RealtimeVideo"
  | .screenshare => "Screensharing"

def ofNumber? : UInt8 → Option ContentMode
  | 0 => some .realtime
  | 1 => some .screenshare
  | _ => none

def unknownName : String :=
  "unrecognized codec mode. Valid values: realtime, screenshare"

def ofName? (name : String) : Option ContentMode :=
  if name = "realtime" ∨ name = "video" then some .realtime
  else if name = "screenshare" ∨ name = "screensharing" then some .screenshare
  else none

end ContentMode

end Simulcast
