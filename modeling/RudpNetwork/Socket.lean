import RudpNetwork.Lib.Fifo
import RudpNetwork.Address

/-!
# RudpNetwork.Socket

`Socket`, over what the operating system does: the results of the calls that set
a socket up, the datagrams and failures that `recvfrom` returns one after the
other, and the datagrams that were handed to `sendto`.

## Main results

* `sendPacket_ok`, `receivePacket_datagram` — what a socket that works does.
* `sendPacket_inv`, `receivePacket_cases` — what a completed call has done.
-/

namespace RudpNetwork

open MachineInt

/-- `enum SocketType`. -/
inductive SocketType
  | ipv4
  | ipv6
  deriving DecidableEq, Repr

/-- `enum SocketError`. -/
inductive SocketError
  | none
  | createFailed
  | setNonBlockingFailed
  | sockoptIpv6OnlyFailed
  | bindIpv4Failed
  | bindIpv6Failed
  deriving DecidableEq, Repr

/-- The enumerators as numbers. -/
def SocketError.value : SocketError → Int
  | none => 0
  | createFailed => 1
  | setNonBlockingFailed => 2
  | sockoptIpv6OnlyFailed => 3
  | bindIpv4Failed => 4
  | bindIpv6Failed => 5

/-- What a call of `recvfrom` meets: a datagram, or a failure such as `EAGAIN`. -/
inductive Received
  | datagram (source : Sockaddr) (bytes : List U8)
  | failed
  deriving DecidableEq

/-- The datagram, if it was one. -/
def Received.content : Received → Option (Sockaddr × List U8)
  | datagram source bytes => some (source, bytes)
  | failed => none

/-- The results of the calls of the constructor. -/
structure Setup where
  socket : Int
  setsockopt : Int
  bind : Int
  fcntl : Int

/-- `class Socket`, with the traffic of its handle. -/
structure Socket where
  error : SocketError
  socket : Int
  /-- What `recvfrom` will return. -/
  incoming : Fifo Received
  /-- What was passed to `sendto`. -/
  sent : List (Sockaddr × List U8)
  /-- The result of each call of `sendto`. -/
  sendto : Nat → Int

namespace Socket

/-! ## the source methods -/

/-- `Socket( port, type )`; the failure of `bind` for IPv6 goes to the handle. -/
def new (type : SocketType) (sys : Setup) (sendto : Nat → Int) : Socket :=
  let s : Socket := { error := .none, socket := sys.socket, incoming := .empty, sent := [], sendto }
  if sys.socket ≤ 0 then { s with error := .createFailed }
  else if type = .ipv6 ∧ sys.setsockopt ≠ 0 then { s with error := .sockoptIpv6OnlyFailed }
  else if type = .ipv6 ∧ sys.bind < 0 then
    { s with socket := SocketError.bindIpv6Failed.value }
  else if type = .ipv4 ∧ sys.bind < 0 then { s with error := .bindIpv4Failed }
  else if sys.fcntl = -1 then { s with error := .setNonBlockingFailed }
  else s

/-- `IsError`. -/
def isError (s : Socket) : Bool := s.error != .none

/-- `GetError`. -/
def getError (s : Socket) : SocketError := s.error

/-- The socket address `SendPacket` makes of an address. -/
def sockaddr : Address → Option Sockaddr
  | .ipv6 address port => some (.inet6 address (htons port))
  | .ipv4 address port => some (.inet address (htons port))
  | .undefined _ => none

/-- `SendPacket`: whether `sendto` took all bytes. -/
def sendPacket (s : Socket) (address : Address) (packetData : Memory) (packetBytes : Nat) :
    Except Fault (Bool × Socket) := do
  assert (0 < packetBytes)
  assert (address.isValid = true)
  assert (s.socket ≠ 0)
  assert (s.isError = false)
  match sockaddr address with
  | none => return (false, s)
  | some dest => do
      let datagram ← readArray packetData 0 (sizeT (int32 packetBytes))
      let sentBytes := sizeT (s.sendto s.sent.length)
      return (sentBytes == packetBytes, { s with sent := s.sent ++ [(dest, datagram)] })

/-- `ReceivePacket`: the number of bytes, `0` for none, with the sender and the
buffer. `recvfrom` cuts a datagram off at the size of the buffer. -/
def receivePacket (s : Socket) (sender : Address) (packetData : Memory) (maxPacketSize : Int) :
    Except Fault (Int × Address × Memory × Socket) := do
  assert (s.socket ≠ 0)
  assert (0 < maxPacketSize)
  match s.incoming.pop with
  | none => return (0, sender, packetData, s)
  | some (.failed, incoming) => return (0, sender, packetData, { s with incoming })
  | some (.datagram source bytes, incoming) => do
      let received := bytes.take maxPacketSize.toNat
      let packetData ← writeArray packetData 0 received
      if received = [] then
        return (0, sender, packetData, { s with incoming })
      else do
        let sender ← Address.ofSockaddr source
        return (received.length, sender, packetData, { s with incoming })

/-! ## a working socket -/

/-- The socket was set up. -/
structure Working (s : Socket) : Prop where
  noError : s.error = .none
  handle : s.socket ≠ 0

/-- The socket with another datagram or failure to come. -/
def arrive (s : Socket) (r : Received) : Socket := { s with incoming := s.incoming.push r }

/-- A datagram from an internet address. -/
def FromInternet : Sockaddr → Prop
  | .other _ => False
  | _ => True

/-- A datagram that arrives does not break a socket. -/
theorem Working.arrive {s : Socket} (h : s.Working) (r : Received) : (s.arrive r).Working :=
  ⟨h.noError, h.handle⟩

/-- A new socket has no traffic. -/
theorem new_idle (type : SocketType) (sys : Setup) (sendto : Nat → Int) :
    (new type sys sendto).incoming = .empty ∧ (new type sys sendto).sent = [] := by
  simp only [new]
  split_ifs <;> exact ⟨rfl, rfl⟩

/-- A socket whose system calls succeed works. -/
theorem new_working {type : SocketType} {sys : Setup} {sendto : Nat → Int}
    (hsocket : 0 < sys.socket) (hopt : sys.setsockopt = 0) (hbind : 0 ≤ sys.bind)
    (hfcntl : sys.fcntl ≠ -1) : (new type sys sendto).Working := by
  have hnew : new type sys sendto =
      { error := .none, socket := sys.socket, incoming := .empty, sent := [], sendto } := by
    rw [new, if_neg (by omega), if_neg (by simp [hopt]), if_neg (by omega), if_neg (by omega),
      if_neg hfcntl]
  rw [hnew]
  exact ⟨rfl, by change sys.socket ≠ 0; omega⟩

/-- Addresses of datagrams turn back into the socket address they came from. -/
theorem sockaddr_ofSockaddr {source : Sockaddr} {address : Address}
    (h : Address.ofSockaddr source = .ok address) : sockaddr address = some source := by
  cases source with
  | inet addr port =>
      obtain rfl : Address.ipv4 addr (ntohs port) = address := Except.ok.inj h
      rw [sockaddr, htons_ntohs]
  | inet6 addr port =>
      obtain rfl : Address.ipv6 addr (ntohs port) = address := Except.ok.inj h
      rw [sockaddr, htons_ntohs]
  | other family => contradiction

/-- The socket address of an address turns back into it. -/
theorem ofSockaddr_sockaddr {address : Address} {dest : Sockaddr} (h : sockaddr address = some dest) :
    Address.ofSockaddr dest = .ok address := by
  cases address with
  | undefined port => contradiction
  | ipv4 addr port =>
      obtain rfl := Option.some.inj h
      exact congrArg (fun port => Except.ok (Address.ipv4 addr port)) (htons_ntohs port)
  | ipv6 addr port =>
      obtain rfl := Option.some.inj h
      exact congrArg (fun port => Except.ok (Address.ipv6 addr port)) (htons_ntohs port)

/-- A valid address is an internet address. -/
theorem fromInternet_sockaddr {address : Address} {dest : Sockaddr}
    (h : sockaddr address = some dest) : FromInternet dest := by
  cases dest with
  | inet addr port => trivial
  | inet6 addr port => trivial
  | other family => exact absurd (ofSockaddr_sockaddr h) nofun

/-- An internet address is an `Address`. -/
theorem ofSockaddr_ok {source : Sockaddr} (h : FromInternet source) :
    ∃ address, Address.ofSockaddr source = .ok address := by
  cases source with
  | inet addr port => exact ⟨_, rfl⟩
  | inet6 addr port => exact ⟨_, rfl⟩
  | other family => exact h.elim

/-- A valid address has a socket address. -/
theorem sockaddr_of_valid {address : Address} (h : address.isValid = true) :
    ∃ dest, sockaddr address = some dest := by
  cases address with
  | undefined port => contradiction
  | ipv4 addr port => exact ⟨_, rfl⟩
  | ipv6 addr port => exact ⟨_, rfl⟩

/-- A working socket sends. -/
theorem sendPacket_ok {s : Socket} (hs : s.Working) {address : Address}
    (haddress : address.isValid = true) {packetData : Memory} {packetBytes : Nat}
    (hpos : 0 < packetBytes) (hlen : packetBytes ≤ packetData.length)
    (hint : packetBytes < 2147483648) {dest : Sockaddr} (hdest : sockaddr address = some dest) :
    ∃ result, s.sendPacket address packetData packetBytes =
      .ok (result, { s with sent := s.sent ++ [(dest, packetData.take packetBytes)] }) := by
  have herror : s.isError = false := by simp [isError, hs.noError]
  have hsize : sizeT (int32 packetBytes) = packetBytes := by
    have heq := @sizeT_eq packetBytes (by omega) (by omega)
    rw [int32_eq ⟨by omega, by omega⟩]
    omega
  have hread : readArray packetData 0 (sizeT (int32 packetBytes)) =
      .ok (packetData.take packetBytes) := by
    refine readArray_eq_ok.mpr ⟨.inr ⟨le_refl 0, by omega⟩, ?_⟩
    rw [Int.toNat_natCast, Int.toNat_zero, hsize, ← Bits.take_eq_slice]
  refine ⟨sizeT (s.sendto s.sent.length) == packetBytes, ?_⟩
  simp only [sendPacket, hdest, Except.bind_eq_ok_iff, require_eq_ok, Except.pure_eq_ok_iff]
  exact ⟨(), hpos, (), haddress, (), hs.handle, (), herror, _, hread, rfl⟩

/-- What a working socket received: the datagram lies at the start of the
buffer. -/
theorem receivePacket_datagram {s : Socket} (hs : s.Working) {sender : Address}
    {packetData : Memory} {maxPacketSize : Nat} (hmax : maxPacketSize = packetData.length)
    {source : Sockaddr} {bytes : List U8} {rest : List Received}
    (hitems : s.incoming.items = .datagram source bytes :: rest) (hbytes : bytes ≠ [])
    (hpos : 0 < maxPacketSize) {address : Address}
    (haddress : Address.ofSockaddr source = .ok address) :
    ∃ data incoming, s.incoming.pop = some (.datagram source bytes, incoming) ∧
      s.receivePacket sender packetData maxPacketSize =
        .ok ((min maxPacketSize bytes.length : Nat), address, data, { s with incoming }) ∧
      data.take (min maxPacketSize bytes.length) = bytes.take maxPacketSize ∧
      data.length = packetData.length := by
  obtain ⟨incoming, hpop, -⟩ := Fifo.pop_of_items hitems
  have hreceived : bytes.take maxPacketSize ≠ [] := by
    intro hnil
    have hlen := congrArg List.length hnil
    have hne : bytes.length ≠ 0 := fun hzero => hbytes (List.length_eq_zero_iff.mp hzero)
    simp only [List.length_take, List.length_nil] at hlen
    omega
  have hfit : 0 + (bytes.take maxPacketSize).length ≤ packetData.length := by
    rw [List.length_take]
    omega
  have hwrite : writeArray packetData 0 (bytes.take maxPacketSize) =
      .ok (Bits.splice packetData 0 (bytes.take maxPacketSize)) :=
    writeArray_eq_ok (le_refl 0) (by omega)
  refine ⟨Bits.splice packetData 0 (bytes.take maxPacketSize), incoming, hpop, ?_, ?_, ?_⟩
  · simp only [receivePacket, hpop, Except.bind_eq_ok_iff, require_eq_ok, Int.toNat_natCast]
    refine ⟨(), hs.handle, (), by omega, _, hwrite, ?_⟩
    rw [if_neg hreceived]
    refine Except.bind_eq_ok_iff.mpr ⟨_, haddress, ?_⟩
    rw [List.length_take]
    rfl
  · have hself := Bits.slice_splice_self hfit
    rwa [List.length_take, ← Bits.take_eq_slice] at hself
  · rw [Bits.length_splice hfit]

/-- A call of `SendPacket` that completed handed one datagram to `sendto`. -/
theorem sendPacket_inv {s s' : Socket} {address : Address} {packetData : Memory} {packetBytes : Nat}
    {result : Bool} (h : s.sendPacket address packetData packetBytes = .ok (result, s')) :
    ∃ dest, sockaddr address = some dest ∧ s' = { s with sent := s.sent ++
      [(dest, packetData.take (sizeT (int32 packetBytes)))] } := by
  simp only [sendPacket, Except.bind_eq_ok_iff, require_eq_ok] at h
  obtain ⟨-, -, -, hvalid, -, -, -, -, h⟩ := h
  obtain ⟨dest, hdest⟩ := sockaddr_of_valid hvalid
  simp only [hdest] at h
  obtain ⟨datagram, hread, h⟩ := Except.bind_eq_ok_iff.mp h
  obtain ⟨-, rfl⟩ := Prod.mk.inj (Except.ok.inj h)
  refine ⟨dest, hdest, ?_⟩
  rw [← (readArray_eq_ok.mp hread).2, Int.toNat_zero, Int.toNat_natCast, ← Bits.take_eq_slice]

/-- What a call of `ReceivePacket` met: nothing, a failure, or a datagram, which
lies cut off at the start of the buffer and comes with the address of its sender. -/
inductive Receives (s : Socket) (sender : Address) (packetData : Memory) (maxPacketSize : Int) :
    Int → Address → Memory → Socket → Prop
  | idle (hpop : s.incoming.pop = none) :
      Receives s sender packetData maxPacketSize 0 sender packetData s
  | failed {incoming : Fifo Received} (hpop : s.incoming.pop = some (.failed, incoming)) :
      Receives s sender packetData maxPacketSize 0 sender packetData { s with incoming }
  | empty {source : Sockaddr} {bytes : List U8} {incoming : Fifo Received}
      (hpop : s.incoming.pop = some (.datagram source bytes, incoming))
      (hempty : bytes.take maxPacketSize.toNat = []) :
      Receives s sender packetData maxPacketSize 0 sender packetData { s with incoming }
  | datagram {source : Sockaddr} {bytes : List U8} {incoming : Fifo Received} {address : Address}
      {data : Memory} {n : Nat} (hpop : s.incoming.pop = some (.datagram source bytes, incoming))
      (haddress : Address.ofSockaddr source = .ok address) (hpos : 0 < n)
      (hn : n = (bytes.take maxPacketSize.toNat).length)
      (htake : data.take n = bytes.take maxPacketSize.toNat)
      (hlen : data.length = packetData.length) :
      Receives s sender packetData maxPacketSize n address data { s with incoming }

/-- The inversion lemma of `ReceivePacket`: what it may have done. -/
theorem receivePacket_cases {s s' : Socket} {sender sender' : Address} {packetData data : Memory}
    {maxPacketSize n : Int}
    (h : s.receivePacket sender packetData maxPacketSize = .ok (n, sender', data, s')) :
    0 < maxPacketSize ∧ Receives s sender packetData maxPacketSize n sender' data s' := by
  simp only [receivePacket, Except.bind_eq_ok_iff, require_eq_ok] at h
  obtain ⟨-, -, -, hmax, h⟩ := h
  refine ⟨hmax, ?_⟩
  split at h
  · next hpop =>
      simp only [Except.pure_eq_ok_iff, Prod.mk.injEq] at h
      obtain ⟨rfl, rfl, rfl, rfl⟩ := h
      exact .idle hpop
  · next incoming hpop =>
      simp only [Except.pure_eq_ok_iff, Prod.mk.injEq] at h
      obtain ⟨rfl, rfl, rfl, rfl⟩ := h
      exact .failed hpop
  · next source bytes incoming hpop =>
      obtain ⟨written, hwrite, h⟩ := Except.bind_eq_ok_iff.mp h
      have hlen := length_writeArray hwrite
      split at h
      · next hempty =>
          simp only [Except.pure_eq_ok_iff, Prod.mk.injEq] at h
          obtain ⟨rfl, rfl, rfl, rfl⟩ := h
          rw [hempty] at hwrite
          obtain rfl := Except.ok.inj hwrite
          exact .empty hpop hempty
      · next hne =>
          obtain ⟨address, haddress, h⟩ := Except.bind_eq_ok_iff.mp h
          simp only [Except.pure_eq_ok_iff, Prod.mk.injEq] at h
          obtain ⟨rfl, rfl, rfl, rfl⟩ := h
          have htake := take_writeArray hwrite
          exact .datagram hpop haddress (List.length_pos_iff.mpr hne) rfl htake hlen

/-- A call that completed took at most one datagram or failure, and a datagram
came with the address of its sender. -/
theorem receivePacket_inv {s s' : Socket} {sender sender' : Address} {packetData data : Memory}
    {maxPacketSize n : Int}
    (h : s.receivePacket sender packetData maxPacketSize = .ok (n, sender', data, s')) :
    (∃ incoming, s' = { s with incoming }) ∧ data.length = packetData.length ∧
      ∃ k : Nat, n = k ∧ (0 < k → sender'.isValid = true) := by
  obtain ⟨-, hreceives⟩ := receivePacket_cases h
  cases hreceives with
  | idle => exact ⟨⟨s.incoming, rfl⟩, rfl, 0, rfl, fun h => absurd h (lt_irrefl 0)⟩
  | failed => exact ⟨⟨_, rfl⟩, rfl, 0, rfl, fun h => absurd h (lt_irrefl 0)⟩
  | empty => exact ⟨⟨_, rfl⟩, rfl, 0, rfl, fun h => absurd h (lt_irrefl 0)⟩
  | datagram _ haddress _ _ _ hlen =>
      exact ⟨⟨_, rfl⟩, hlen, _, rfl, fun _ => Address.isValid_ofSockaddr haddress⟩

end Socket

end RudpNetwork
