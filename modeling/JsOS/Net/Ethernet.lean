import JsOS.Net.Ip4Address

/-! # Ethernet -/

namespace JsOS.Net

/-- A MAC address; the constructor of the source masks every part to a byte. -/
structure MACAddress where
  a : UInt8
  b : UInt8
  c : UInt8
  d : UInt8
  e : UInt8
  f : UInt8
  deriving DecidableEq, Repr

namespace MACAddress

/-- `MACAddress.BROADCAST`. -/
def BROADCAST : MACAddress := ⟨0xff, 0xff, 0xff, 0xff, 0xff, 0xff⟩

/-- `MACAddress.ZERO`. -/
def ZERO : MACAddress := ⟨0, 0, 0, 0, 0, 0⟩

end MACAddress

end JsOS.Net
