import Mathlib.Data.BitVec

/-! # IPv4 addresses and connection hashes -/

namespace JsOS.Net

/-- An IPv4 address; the constructor of the source masks every part to a byte. -/
structure IP4Address where
  a : BitVec 8
  b : BitVec 8
  c : BitVec 8
  d : BitVec 8
  deriving DecidableEq, Repr

namespace IP4Address

def isBroadcast (ip : IP4Address) : Bool :=
  ip.a = 255 && ip.b = 255 && ip.c = 255 && ip.d = 255

def isAny (ip : IP4Address) : Bool :=
  ip.a = 0 && ip.b = 0 && ip.c = 0 && ip.d = 0

/-- The bitwise conjunction of two addresses. -/
def and (ip that : IP4Address) : IP4Address :=
  ⟨ip.a &&& that.a, ip.b &&& that.b, ip.c &&& that.c, ip.d &&& that.d⟩

/-- `IP4Address.ANY`. -/
def ANY : IP4Address := ⟨0, 0, 0, 0⟩

/-- `IP4Address.BROADCAST`. -/
def BROADCAST : IP4Address := ⟨255, 255, 255, 255⟩

/-- The address as an unsigned 32-bit number, first part most significant. -/
def toInteger (ip : IP4Address) : BitVec 32 :=
  ip.a.setWidth 32 <<< 24 ||| ip.b.setWidth 32 <<< 16 ||| ip.c.setWidth 32 <<< 8 |||
    ip.d.setWidth 32

/-- Every part of the address is one byte of the number. -/
theorem getLsbD_toInteger (ip : IP4Address) (bit : Nat) (below : bit < 8) :
    ip.toInteger.getLsbD (24 + bit) = ip.a.getLsbD bit ∧
      ip.toInteger.getLsbD (16 + bit) = ip.b.getLsbD bit ∧
      ip.toInteger.getLsbD (8 + bit) = ip.c.getLsbD bit ∧
      ip.toInteger.getLsbD bit = ip.d.getLsbD bit := by
  have outside (part : BitVec 8) (index : Nat) (above : 8 ≤ index) :
      part.getLsbD index = false := BitVec.getLsbD_of_ge part index above
  simp only [toInteger, BitVec.getLsbD_or, BitVec.getLsbD_shiftLeft, BitVec.getLsbD_setWidth]
  refine ⟨?_, ?_, ?_, ?_⟩ <;> grind

theorem toInteger_injective : Function.Injective toInteger := by
  intro first second same
  have bits (bit : Nat) (below : bit < 8) := getLsbD_toInteger first bit below
  rw [same] at bits
  have sameA : first.a = second.a := BitVec.eq_of_getLsbD_eq fun bit below =>
    (bits bit below).1.symm.trans (getLsbD_toInteger second bit below).1
  have sameB : first.b = second.b := BitVec.eq_of_getLsbD_eq fun bit below =>
    (bits bit below).2.1.symm.trans (getLsbD_toInteger second bit below).2.1
  have sameC : first.c = second.c := BitVec.eq_of_getLsbD_eq fun bit below =>
    (bits bit below).2.2.1.symm.trans (getLsbD_toInteger second bit below).2.2.1
  have sameD : first.d = second.d := BitVec.eq_of_getLsbD_eq fun bit below =>
    (bits bit below).2.2.2.symm.trans (getLsbD_toInteger second bit below).2.2.2
  cases first
  cases second
  subst sameA sameB sameC sameD
  rfl

end IP4Address

/-- `connHash`: the key of a connection in its server's map. The port takes the
digits above the 32 bits of the address. -/
def connHash (ip : IP4Address) (port : Nat) : Nat :=
  2 ^ 32 * port + ip.toInteger.toNat

/-- Different remote endpoints have different keys. -/
theorem connHash_inj {ip ip' : IP4Address} {port port' : Nat} :
    connHash ip port = connHash ip' port' ↔ ip = ip' ∧ port = port' := by
  constructor
  · intro same
    have low := ip.toInteger.isLt
    have low' := ip'.toInteger.isLt
    unfold connHash at same
    refine ⟨IP4Address.toInteger_injective (BitVec.eq_of_toNat_eq ?_), ?_⟩ <;> omega
  · rintro ⟨rfl, rfl⟩
    rfl

end JsOS.Net
