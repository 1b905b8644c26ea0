import RudpNetwork.Platform

/-!
# RudpNetwork.Address

`class Address`: an IPv4 or IPv6 address with a port, and its conversion from
and to the socket addresses of the operating system, which keep ports in
network byte order.
-/

namespace RudpNetwork

/-- `class Address`; the constructor is `m_type`, which selects the union member. -/
inductive Address
  | undefined (port : U16)
  | ipv4 (address : U32) (port : U16)
  | ipv6 (address : Vector U16 8) (port : U16)
  deriving DecidableEq

/-- A `sockaddr_storage`, by its `ss_family`. Addresses and ports stand as they
lie in memory. -/
inductive Sockaddr
  /-- `AF_INET` -/
  | inet (addr : U32) (port : U16)
  /-- `AF_INET6` -/
  | inet6 (addr : Vector U16 8) (port : U16)
  /-- Any other family. -/
  | other (family : U16)
  deriving DecidableEq

/-- `ntohs`, on a little-endian host. -/
def ntohs (x : U16) : U16 := x <<< 8 ||| x >>> 8

/-- `htons`, on a little-endian host. -/
def htons (x : U16) : U16 := x <<< 8 ||| x >>> 8

/-- Changing the byte order twice changes nothing. -/
theorem htons_ntohs (x : U16) : htons (ntohs x) = x := by
  apply BitVec.eq_of_getLsbD_eq
  intro i hi
  simp only [htons, ntohs, BitVec.getLsbD_or, BitVec.getLsbD_shiftLeft, BitVec.getLsbD_ushiftRight]
  have hover : x.getLsbD (8 + (8 + i)) = false := BitVec.getLsbD_of_ge x _ (by omega)
  by_cases h : i < 8
  · simp [h, hi, hover, show 8 + i < 16 by omega]
  · simp [h, hi, hover, show i - 8 < 8 by omega, show ¬8 + i < 16 by omega,
      show 8 + (i - 8) = i by omega]

namespace Address

/-- `Clear`, and the default constructor. -/
def clear : Address := undefined 0

/-- `Address( const sockaddr_storage & )`. -/
def ofSockaddr : Sockaddr → Except Fault Address
  | .inet addr port => .ok (ipv4 addr (ntohs port))
  | .inet6 addr port => .ok (ipv6 addr (ntohs port))
  | .other _ => .error .assertion

/-- `IsValid`. -/
def isValid : Address → Bool
  | undefined _ => false
  | _ => true

/-- `GetPort`. -/
def getPort : Address → U16
  | undefined port => port
  | ipv4 _ port => port
  | ipv6 _ port => port

/-- `operator ==`: undefined addresses are not equal to anything. -/
def eq : Address → Address → Bool
  | ipv4 a p, ipv4 b q => p == q && a == b
  | ipv6 a p, ipv6 b q => p == q && a == b
  | _, _ => false

/-- `operator ==` is equality of addresses, but no undefined address equals any. -/
theorem eq_iff {a b : Address} : a.eq b = true ↔ a = b ∧ a.isValid = true := by
  cases a <;> cases b <;> simp [eq, isValid, and_comm]

/-- On the right of it a valid address decides. -/
theorem eq_iff_of_isValid {a b : Address} (hb : b.isValid = true) : a.eq b = true ↔ a = b := by
  rw [eq_iff, and_iff_left_iff_imp]
  rintro rfl
  exact hb

/-- The address of a received datagram is valid. -/
theorem isValid_ofSockaddr {s : Sockaddr} {a : Address} (h : ofSockaddr s = .ok a) :
    a.isValid = true := by
  cases s with
  | inet addr port =>
      obtain rfl : ipv4 addr (ntohs port) = a := Except.ok.inj h
      rfl
  | inet6 addr port =>
      obtain rfl : ipv6 addr (ntohs port) = a := Except.ok.inj h
      rfl
  | other family => contradiction

end Address

end RudpNetwork
