/-!
# GnssLink.MessageId

**What kind of UBX message it is**: a class and a number within the class. The ids that a session
sends or looks for have names here; the catalogue of all known names is
`GnssLink.Catalogue.Message`.
-/

namespace GnssLink

/-- The class and number that open every UBX message. -/
structure MessageId where
  /-- The message class, such as navigation or configuration. -/
  cls : UInt8
  /-- The number within the class. -/
  num : UInt8
  deriving DecidableEq, Repr

namespace MessageId

/-- The two bytes as they stand in a frame or in an acknowledgement. -/
def toBytes (id : MessageId) : List UInt8 := [id.cls, id.num]

/-- The class of acknowledgements. -/
def ackClass : UInt8 := 0x05

/-- A message was refused. -/
def ackNak : MessageId := ⟨ackClass, 0x00⟩
/-- A message was accepted. -/
def ackAck : MessageId := ⟨ackClass, 0x01⟩
/-- Reset of the receiver. -/
def cfgRst : MessageId := ⟨0x06, 0x04⟩
/-- Clearing and loading of the saved configuration. -/
def cfgCfg : MessageId := ⟨0x06, 0x09⟩
/-- Writing of configuration items. -/
def cfgValset : MessageId := ⟨0x06, 0x8a⟩
/-- Reading of configuration items. -/
def cfgValget : MessageId := ⟨0x06, 0x8b⟩
/-- The receiver's version. -/
def monVer : MessageId := ⟨0x0a, 0x04⟩
/-- The switch to safeboot mode. -/
def updSafeboot : MessageId := ⟨0x09, 0x07⟩

end MessageId
end GnssLink
