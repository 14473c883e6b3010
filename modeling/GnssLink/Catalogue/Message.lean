import GnssLink.MessageId
import GnssLink.Text.Hex
/-!
# GnssLink.Catalogue.Message

**Names of UBX messages.** `named` lists the known messages and `classes` the known classes. A
message outside the list is called after its class, and after its bare numbers if the class is
unknown too, so every message has a name (`MessageId.name`); only a listed name can be looked up
(`MessageId.ofName?`).
-/

namespace GnssLink.Catalogue

/-- The known messages. -/
def named : List (MessageId × String) := [
  (⟨0x05, 0x01⟩, "UBX-ACK-ACK"),
  (⟨0x05, 0x00⟩, "UBX-ACK-NAK"),
  (⟨0x06, 0x13⟩, "UBX-CFG-ANT"),
  (⟨0x06, 0x09⟩, "UBX-CFG-CFG"),
  (⟨0x06, 0x06⟩, "UBX-CFG-DAT"),
  (⟨0x06, 0x70⟩, "UBX-CFG-DGNSS"),
  (⟨0x06, 0x69⟩, "UBX-CFG-GEOFENCE"),
  (⟨0x06, 0x3e⟩, "UBX-CFG-GNSS"),
  (⟨0x06, 0x02⟩, "UBX-CFG-INF"),
  (⟨0x06, 0x39⟩, "UBX-CFG-ITFM"),
  (⟨0x06, 0x47⟩, "UBX-CFG-LOGFILTER"),
  (⟨0x06, 0x01⟩, "UBX-CFG-MSG"),
  (⟨0x06, 0x24⟩, "UBX-CFG-NAV5"),
  (⟨0x06, 0x23⟩, "UBX-CFG-NAVX5"),
  (⟨0x06, 0x17⟩, "UBX-CFG-NMEA"),
  (⟨0x06, 0x1e⟩, "UBX-CFG-ODO"),
  (⟨0x06, 0x3b⟩, "UBX-CFG-PM2"),
  (⟨0x06, 0x86⟩, "UBX-CFG-PMS"),
  (⟨0x06, 0x00⟩, "UBX-CFG-PRT"),
  (⟨0x06, 0x57⟩, "UBX-CFG-PWR"),
  (⟨0x06, 0x08⟩, "UBX-CFG-RATE"),
  (⟨0x06, 0x34⟩, "UBX-CFG-RINV"),
  (⟨0x06, 0x04⟩, "UBX-CFG-RST"),
  (⟨0x06, 0x11⟩, "UBX-CFG-RXM"),
  (⟨0x06, 0x16⟩, "UBX-CFG-SBAS"),
  (⟨0x06, 0x71⟩, "UBX-CFG-TMODE3"),
  (⟨0x06, 0x31⟩, "UBX-CFG-TP5"),
  (⟨0x06, 0x1b⟩, "UBX-CFG-USB"),
  (⟨0x06, 0x8c⟩, "UBX-CFG-VALDEL"),
  (⟨0x06, 0x8b⟩, "UBX-CFG-VALGET"),
  (⟨0x06, 0x8a⟩, "UBX-CFG-VALSET"),
  (⟨0x10, 0x14⟩, "UBX-ESF-ALG"),
  (⟨0x10, 0x15⟩, "UBX-ESF-INS"),
  (⟨0x10, 0x02⟩, "UBX-ESF-MEAS"),
  (⟨0x10, 0x03⟩, "UBX-ESF-RAW"),
  (⟨0x10, 0x10⟩, "UBX-ESF-STATUS"),
  (⟨0x28, 0x01⟩, "UBX-HNR-ATT"),
  (⟨0x28, 0x02⟩, "UBX-HNR-INS"),
  (⟨0x28, 0x00⟩, "UBX-HNR-PVT"),
  (⟨0x04, 0x04⟩, "UBX-INF-DEBUG"),
  (⟨0x04, 0x00⟩, "UBX-INF-ERROR"),
  (⟨0x04, 0x02⟩, "UBX-INF-NOTICE"),
  (⟨0x04, 0x03⟩, "UBX-INF-TEST"),
  (⟨0x04, 0x01⟩, "UBX-INF-WARNING"),
  (⟨0x21, 0x11⟩, "UBX-LOG-CREATE"),
  (⟨0x21, 0x03⟩, "UBX-LOG-ERASE"),
  (⟨0x21, 0x0e⟩, "UBX-LOG-FINDTIME"),
  (⟨0x21, 0x08⟩, "UBX-LOG-INFO"),
  (⟨0x21, 0x09⟩, "UBX-LOG-RETRIEVE"),
  (⟨0x21, 0x0b⟩, "UBX-LOG-RETRIEVEPOS"),
  (⟨0x21, 0x0f⟩, "UBX-LOG-RETRIEVEPOSEXTRA"),
  (⟨0x21, 0x0d⟩, "UBX-LOG-RETRIEVESTRING"),
  (⟨0x21, 0x04⟩, "UBX-LOG-STRING"),
  (⟨0x13, 0x60⟩, "UBX-MGA-ACK"),
  (⟨0x13, 0x03⟩, "UBX-MGA-BDS"),
  (⟨0x13, 0x80⟩, "UBX-MGA-DBD"),
  (⟨0x13, 0x02⟩, "UBX-MGA-GAL"),
  (⟨0x13, 0x06⟩, "UBX-MGA-GLO"),
  (⟨0x13, 0x00⟩, "UBX-MGA-GPS"),
  (⟨0x13, 0x40⟩, "UBX-MGA-INI"),
  (⟨0x13, 0x05⟩, "UBX-MGA-QZSS"),
  (⟨0x0a, 0x36⟩, "UBX-MON-COMMS"),
  (⟨0x0a, 0x28⟩, "UBX-MON-GNSS"),
  (⟨0x0a, 0x09⟩, "UBX-MON-HW"),
  (⟨0x0a, 0x0b⟩, "UBX-MON-HW2"),
  (⟨0x0a, 0x37⟩, "UBX-MON-HW3"),
  (⟨0x0a, 0x02⟩, "UBX-MON-IO"),
  (⟨0x0a, 0x06⟩, "UBX-MON-MSGPP"),
  (⟨0x0a, 0x27⟩, "UBX-MON-PATCH"),
  (⟨0x0a, 0x38⟩, "UBX-MON-RF"),
  (⟨0x0a, 0x07⟩, "UBX-MON-RXBUF"),
  (⟨0x0a, 0x21⟩, "UBX-MON-RXR"),
  (⟨0x0a, 0x31⟩, "UBX-MON-SPAN"),
  (⟨0x0a, 0x39⟩, "UBX-MON-SYS"),
  (⟨0x0a, 0x0e⟩, "UBX-MON-TEMP"),
  (⟨0x0a, 0x08⟩, "UBX-MON-TXBUF"),
  (⟨0x0a, 0x04⟩, "UBX-MON-VER"),
  (⟨0x01, 0x60⟩, "UBX-NAV-AOPSTATUS"),
  (⟨0x01, 0x05⟩, "UBX-NAV-ATT"),
  (⟨0x01, 0x22⟩, "UBX-NAV-CLOCK"),
  (⟨0x01, 0x36⟩, "UBX-NAV-COV"),
  (⟨0x01, 0x31⟩, "UBX-NAV-DGPS"),
  (⟨0x01, 0x04⟩, "UBX-NAV-DOP"),
  (⟨0x01, 0x3d⟩, "UBX-NAV-EELL"),
  (⟨0x01, 0x61⟩, "UBX-NAV-EOE"),
  (⟨0x01, 0x39⟩, "UBX-NAV-GEOFENCE"),
  (⟨0x01, 0x13⟩, "UBX-NAV-HPPOSECEF"),
  (⟨0x01, 0x14⟩, "UBX-NAV-HPPOSLLH"),
  (⟨0x01, 0x09⟩, "UBX-NAV-ODO"),
  (⟨0x01, 0x34⟩, "UBX-NAV-ORB"),
  (⟨0x01, 0x62⟩, "UBX-NAV-PL"),
  (⟨0x01, 0x01⟩, "UBX-NAV-POSECEF"),
  (⟨0x01, 0x02⟩, "UBX-NAV-POSLLH"),
  (⟨0x01, 0x07⟩, "UBX-NAV-PVT"),
  (⟨0x01, 0x3c⟩, "UBX-NAV-RELPOSNED"),
  (⟨0x01, 0x10⟩, "UBX-NAV-RESETODO"),
  (⟨0x01, 0x35⟩, "UBX-NAV-SAT"),
  (⟨0x01, 0x32⟩, "UBX-NAV-SBAS"),
  (⟨0x01, 0x43⟩, "UBX-NAV-SIG"),
  (⟨0x01, 0x42⟩, "UBX-NAV-SLAS"),
  (⟨0x01, 0x06⟩, "UBX-NAV-SOL"),
  (⟨0x01, 0x03⟩, "UBX-NAV-STATUS"),
  (⟨0x01, 0x3b⟩, "UBX-NAV-SVIN"),
  (⟨0x01, 0x30⟩, "UBX-NAV-SVINFO"),
  (⟨0x01, 0x24⟩, "UBX-NAV-TIMEBDS"),
  (⟨0x01, 0x25⟩, "UBX-NAV-TIMEGAL"),
  (⟨0x01, 0x23⟩, "UBX-NAV-TIMEGLO"),
  (⟨0x01, 0x20⟩, "UBX-NAV-TIMEGPS"),
  (⟨0x01, 0x26⟩, "UBX-NAV-TIMELS"),
  (⟨0x01, 0x27⟩, "UBX-NAV-TIMEQZSS"),
  (⟨0x01, 0x21⟩, "UBX-NAV-TIMEUTC"),
  (⟨0x01, 0x11⟩, "UBX-NAV-VELECEF"),
  (⟨0x01, 0x12⟩, "UBX-NAV-VELNED"),
  (⟨0x02, 0x14⟩, "UBX-RXM-MEASX"),
  (⟨0x02, 0x41⟩, "UBX-RXM-PMREQ"),
  (⟨0x02, 0x15⟩, "UBX-RXM-RAWX"),
  (⟨0x02, 0x59⟩, "UBX-RXM-RLM"),
  (⟨0x02, 0x32⟩, "UBX-RXM-RTCM"),
  (⟨0x02, 0x13⟩, "UBX-RXM-SFRBX"),
  (⟨0x02, 0x33⟩, "UBX-RXM-SPARTN"),
  (⟨0x27, 0x03⟩, "UBX-SEC-UNIQID"),
  (⟨0x27, 0x09⟩, "UBX-SEC-SIG"),
  (⟨0x0d, 0x03⟩, "UBX-TIM-TM2"),
  (⟨0x0d, 0x01⟩, "UBX-TIM-TP"),
  (⟨0x0d, 0x06⟩, "UBX-TIM-VRFY"),
  (⟨0x0d, 0x04⟩, "UBX-TIM-SVIN"),
  (⟨0x09, 0x14⟩, "UBX-UPD-SOS"),
  (⟨0x09, 0x07⟩, "UBX-UPD-SAFEBOOT")]

/-- The known classes. -/
def classes : List (UInt8 × String) := [
  (0x01, "UBX-NAV"),
  (0x02, "UBX-RXM"),
  (0x04, "UBX-INF"),
  (0x05, "UBX-ACK"),
  (0x06, "UBX-CFG"),
  (0x09, "UBX-UPD"),
  (0x0a, "UBX-MON"),
  (0x0b, "UBX-AID"),
  (0x0d, "UBX-TIM"),
  (0x10, "UBX-ESF"),
  (0x13, "UBX-MGA"),
  (0x21, "UBX-LOG"),
  (0x27, "UBX-SEC"),
  (0x28, "UBX-HNR"),
  (0x29, "UBX-NAV2")]

end GnssLink.Catalogue

namespace GnssLink.MessageId

/-- The name of a message. -/
def name (id : MessageId) : String :=
  match Catalogue.named.find? fun entry => entry.1 = id with
  | some (_, name) => name
  | none =>
    match Catalogue.classes.find? fun entry => entry.1 = id.cls with
    | some (_, name) => name ++ "-" ++ Text.Hex.upper 2 id.num.toNat
    | none =>
      "UBX-" ++ Text.Hex.upper 2 id.cls.toNat ++ "-" ++ Text.Hex.upper 2 id.num.toNat

/-- The message with a listed name. -/
def ofName? (name : String) : Option MessageId :=
  (Catalogue.named.find? fun entry => entry.2 = name).map Prod.fst

end GnssLink.MessageId
