import GnssLink.Frame.Basic
/-!
# GnssLink.Session.Reset

**Resets.** Each kind of reset is a sequence of frames. The receiver acknowledges none of them.
-/

namespace GnssLink

/-- A way to reset the receiver. -/
inductive Reset where
  /-- Nothing is sent. -/
  | none
  /-- The software restarts. -/
  | soft
  /-- The hardware restarts. -/
  | hard
  /-- Navigation restarts with all data. -/
  | hot
  /-- Navigation restarts without ephemerides. -/
  | warm
  /-- Navigation restarts without data. -/
  | cold
  /-- The configuration is reverted; navigation data is kept. -/
  | default
  /-- The configuration is reverted and navigation data dropped. -/
  | factory
  /-- Navigation stops. -/
  | stop
  /-- Navigation starts. -/
  | start
  /-- Navigation stops and starts. -/
  | restart
  /-- The receiver enters safeboot mode. -/
  | safeboot
  deriving DecidableEq, Repr

namespace Reset

/-- All resets in their usual order. -/
def all : List Reset :=
  [none, soft, hard, hot, warm, cold, default, factory, stop, start, restart, safeboot]

/-- The name of a reset. -/
def name : Reset → String
  | none => "none"
  | soft => "soft"
  | hard => "hard"
  | hot => "hot"
  | warm => "warm"
  | cold => "cold"
  | default => "default"
  | factory => "factory"
  | stop => "stop"
  | start => "start"
  | restart => "restart"
  | safeboot => "safeboot"

/-- The reset with a name. -/
def ofName? (name : String) : Option Reset := all.find? fun r => r.name = name

/-- What the reset does, in words. -/
def description : Reset → String
  | none => "no reset"
  | soft => "controlled software reset"
  | hard => "controlled hardware reset"
  | hot => "hotstart"
  | warm => "warmstart"
  | cold => "coldstart"
  | default => "revert configuration to default"
  | factory => "revert configuration to default and coldstart"
  | stop => "stop navigation"
  | start => "start navigation"
  | restart => "restart navigation"
  | safeboot => "enter safeboot mode"

/-- The frame that drops the navigation data of a mask and resets in a mode. -/
def resetFrame (dropped : Nat) (mode : UInt8) : Frame :=
  ⟨.cfgRst, LittleEndian.encode 2 dropped ++ [mode, 0x00]⟩

/-- The frame that clears the saved configuration on all devices and loads the defaults. -/
def revertFrame : Frame :=
  ⟨.cfgCfg, LittleEndian.encode 4 0xffffffff ++ LittleEndian.encode 4 0
    ++ LittleEndian.encode 4 0xffffffff ++ [0x17]⟩

/-- The frames of the reset in the order in which they are sent. -/
def frames : Reset → List Frame
  | none => []
  | soft => [resetFrame 0x0000 0x01]
  | hard => [resetFrame 0x0000 0x04]
  | hot => [resetFrame 0x0000 0x02]
  | warm => [resetFrame 0x0001 0x02]
  | cold => [resetFrame 0xffff 0x02]
  | default => [revertFrame, resetFrame 0x0000 0x01]
  | factory => [revertFrame, resetFrame 0xffff 0x01]
  | stop => [resetFrame 0x0000 0x08]
  | start => [resetFrame 0x0000 0x09]
  | restart => [resetFrame 0x0000 0x02]
  | safeboot => [⟨.updSafeboot, []⟩]

theorem ofName?_name (r : Reset) : ofName? r.name = some r := by
  cases r <;> decide

end Reset
end GnssLink
