import Simulcast.Codec.Names

/-!
Command line options of the simulation. An option takes its value from the
next argument; a switch takes none. Everything has a default, an option may be
given once, and arguments that belong to no option are errors.
-/

namespace Simulcast.Simulation

structure Options where
  kind : CodecKind := .vp8
  mode : ContentMode := .realtime
  width : UInt32 := 640
  height : UInt32 := 360
  streams : UInt8 := 2
  temporalLayers : UInt8 := 1
  frameRate : UInt32 := 30
  count : UInt32 := 300
  /-- The network's target in bits per second. -/
  bitrate : UInt32 := 800000
  /-- Frames between two key frame requests; zero for no requests. -/
  keyFrameInterval : UInt32 := 90
  dropFrames : Bool := true
  /-- Whether to pace frames by the wall clock. -/
  wallClock : Bool := false
  deriving DecidableEq, Repr

inductive NumeralError where
  | empty
  | invalidDigit
  | tooLarge
  deriving DecidableEq, Repr

def NumeralError.message : NumeralError → String
  | .empty => "cannot parse integer from empty string"
  | .invalidDigit => "invalid digit found in string"
  | .tooLarge => "number too large to fit in target type"

/-- The value of decimal digits, the most significant first. -/
def digitsValue (digits : List Char) : Nat :=
  digits.foldl (fun n c => 10 * n + (c.toNat - '0'.toNat)) 0

/-- Reads a numeral below `bound`: decimal digits, after an optional plus
sign. -/
def numeral (bound : Nat) (text : String) : Except NumeralError Nat :=
  let digits :=
    match text.toList with
    | '+' :: rest => rest
    | whole => whole
  if text.isEmpty then .error .empty
  else if digits.isEmpty ∨ ¬ digits.all Char.isDigit then .error .invalidDigit
  else if digitsValue digits < bound then .ok (digitsValue digits)
  else .error .tooLarge

inductive Setting where
  | codec
  | mode
  | width
  | height
  | streams
  | temporalLayers
  | frameRate
  | count
  | bitrate
  | keyFrameInterval
  | noFrameDropper
  | realtime
  deriving DecidableEq, Repr

namespace Setting

def flag : Setting → String
  | .codec => "--codec"
  | .mode => "--mode"
  | .width => "--width"
  | .height => "--height"
  | .streams => "--streams"
  | .temporalLayers => "--temporal-layers"
  | .frameRate => "--framerate"
  | .count => "--count"
  | .bitrate => "--bitrate"
  | .keyFrameInterval => "--keyframe-interval"
  | .noFrameDropper => "--no-frame-dropper"
  | .realtime => "--realtime"

def all : List Setting :=
  [.codec, .mode, .width, .height, .streams, .temporalLayers, .frameRate, .count, .bitrate,
    .keyFrameInterval, .noFrameDropper, .realtime]

def ofFlag? (text : String) : Option Setting := all.find? fun s => s.flag == text

def takesValue : Setting → Bool
  | .noFrameDropper => false
  | .realtime => false
  | _ => true

def word (text : String) : Except String UInt32 :=
  (numeral UInt32.size text).map UInt32.ofNat |>.mapError NumeralError.message

def byte (text : String) : Except String UInt8 :=
  (numeral UInt8.size text).map UInt8.ofNat |>.mapError NumeralError.message

/-- Puts the value of an option into `o`, or says what is wrong with it. -/
def apply (o : Options) (value : String) : Setting → Except String Options
  | .codec =>
      match CodecKind.ofName? value with
      | some k => .ok { o with kind := k }
      | none => .error CodecKind.unknownName
  | .mode =>
      match ContentMode.ofName? value with
      | some m => .ok { o with mode := m }
      | none => .error ContentMode.unknownName
  | .width => (word value).map fun n => { o with width := n }
  | .height => (word value).map fun n => { o with height := n }
  | .streams => (byte value).map fun n => { o with streams := n }
  | .temporalLayers => (byte value).map fun n => { o with temporalLayers := n }
  | .frameRate => (word value).map fun n => { o with frameRate := n }
  | .count => (word value).map fun n => { o with count := n }
  | .bitrate => (word value).map fun n => { o with bitrate := n }
  | .keyFrameInterval => (word value).map fun n => { o with keyFrameInterval := n }
  | .noFrameDropper => .ok o
  | .realtime => .ok o

def turnOn (o : Options) : Setting → Options
  | .noFrameDropper => { o with dropFrames := false }
  | .realtime => { o with wallClock := true }
  | _ => o

end Setting

inductive UsageError where
  | unrecognized (argument : String)
  | missingValue (flag : String)
  | badValue (flag value reason : String)
  | afterHelp
  deriving DecidableEq, Repr

def UsageError.message : UsageError → String
  | .unrecognized argument => s!"Unrecognized argument: {argument}\n"
  | .missingValue flag => s!"No value provided for option '{flag}'.\n"
  | .badValue flag value reason =>
      s!"Error parsing option '{flag}' with value '{value}': {reason}\n"
  | .afterHelp => "Trailing arguments are not allowed after `help`."

/-- How far the arguments have been read. -/
structure Reading where
  options : Options := {}
  given : List Setting := []
  helpWanted : Bool := false
  /-- Whether a lone double dash was seen, after which nothing is a flag. -/
  flagsEnded : Bool := false

/-- What the arguments ask for. -/
inductive Request where
  | help
  | simulate (options : Options)
  deriving DecidableEq, Repr

/-- Puts the value of an option in, unless it was given before. -/
def Reading.take (r : Reading) (s : Setting) (value : String) : Except UsageError Reading :=
  if s ∈ r.given then .error (.badValue s.flag value "duplicate values provided")
  else
    match s.apply r.options value with
    | .ok options => .ok { r with options := options, given := s :: r.given }
    | .error reason => .error (.badValue s.flag value reason)

/-- Reads arguments from left to right. -/
def Reading.read (r : Reading) : List String → Except UsageError Request
  | [] => .ok (if r.helpWanted then .help else .simulate r.options)
  | argument :: rest =>
      if r.flagsEnded ∨ ¬ (argument == "help" || argument.startsWith "-") then
        .error (.unrecognized argument)
      else if argument == "--help" || argument == "help" then
        Reading.read { r with helpWanted := true } rest
      else if argument == "--" then Reading.read { r with flagsEnded := true } rest
      else if r.helpWanted then .error .afterHelp
      else
        match Setting.ofFlag? argument with
        | none => .error (.unrecognized argument)
        | some s =>
            if s.takesValue then
              match rest with
              | [] => .error (.missingValue argument)
              | value :: rest =>
                  match r.take s value with
                  | .ok r => Reading.read r rest
                  | .error e => .error e
            else Reading.read { r with options := s.turnOn r.options } rest

def Request.ofArguments (arguments : List String) : Except UsageError Request :=
  Reading.read {} arguments

def programName : String := "simulcast_sender"

/-- One option of the usage line, which says what to put for its value. -/
def Setting.usage (s : Setting) : String :=
  if s.takesValue then s!"[{s.flag} <{s.flag.drop 2}>]" else s!"[{s.flag}]"

def helpText : String :=
  s!"Usage: {programName} " ++ " ".intercalate (Setting.all.map Setting.usage) ++ "\n\n"
    ++ "Simulcast sender simulation\n\n"
    ++ "Options:\n"
    ++ "  --codec           codec to register\n"
    ++ "  --mode            content mode (realtime or screenshare)\n"
    ++ "  --width           frame width\n"
    ++ "  --height          frame height\n"
    ++ "  --streams         number of simulcast streams\n"
    ++ "  --temporal-layers number of temporal layers\n"
    ++ "  --framerate       frames per second\n"
    ++ "  --count           number of frames to submit\n"
    ++ "  --bitrate         network target bitrate in bits per second\n"
    ++ "  --keyframe-interval\n"
    ++ "                    request a key frame on the last stream every this many\n"
    ++ "                    frames, 0 to disable\n"
    ++ "  --no-frame-dropper\n"
    ++ "                    disable the frame dropper\n"
    ++ "  --realtime        pace frames with the wall clock instead of simulating time\n"
    ++ "  --help, help      display usage information\n"

end Simulcast.Simulation
