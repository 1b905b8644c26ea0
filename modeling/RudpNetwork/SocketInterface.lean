import RudpNetwork.Lib.Loop
import RudpNetwork.Lib.Run
import RudpNetwork.PacketProcessor
import RudpNetwork.Socket

/-!
# RudpNetwork.SocketInterface

`SocketInterface`: a queue of packets to be written to the socket, a queue of
packets that were read from it, and counters.

Packets to be sent are objects of the caller, which are known by their
addresses: `destroyed` lists those that went to `DestroyPacket`.  Packets that
were read belong to the receive queue.

`ReceivePacket` and `WritePackets` hold a reference to the front entry, pop it, and
go on using the reference.  By then the entry is destroyed.  Whether its storage is
gone as well is up to the library: `released` says so of every entry, by the number of
entries that were popped before it, and a use of released storage is a fault
(`usePopped`).  A library that takes the storage of every entry along is the one that the
language allows in the worst case; a deque in blocks frees a block with its last entry
(`endsBlock`).

## Main results

* `sendPacket_cases`, `receivePacket_cases`, `writeNext_cases`, `readNext_cases` — what
  an operation, or a round of one, does if it completes.
* `writePackets_empty`, `readPackets_ends` — how the loops end.
-/

namespace RudpNetwork

open MachineInt

/-- `enum SocketInterfaceCounter`. -/
inductive SocketInterfaceCounter
  | packetsSent
  | packetsReceived
  | packetsRead
  | packetsWritten
  | sendQueueOverflow
  | receiveQueueOverflow
  | readPacketFailures
  | writePacketFailures
  | encryptPacketFailures
  | decryptPacketFailures
  | encryptedPacketsRead
  | encryptedPacketsWritten
  | unencryptedPacketsRead
  | unencryptedPacketsWritten
  | encryptionMappingFailures
  deriving DecidableEq

/-- `struct PacketEntry`. -/
structure PacketEntry (π : Type) where
  sequence : U64
  address : Address
  packet : π

/-- The address of a packet object. -/
abbrev PacketPtr := Nat

/-- Whether `pop` frees storage with the entry that follows `n` others, where a block of
the deque holds `perBlock` entries. -/
def endsBlock (perBlock n : Nat) : Bool := (n + 1) % perBlock = 0

/-- `class SocketInterface`, with the packets it has passed to `DestroyPacket`, and with
what `pop` of the queues releases. -/
structure SocketInterface where
  released : Nat → Bool
  context : Context
  protocolId : U32
  sendQueueSize : Int
  receiveQueueSize : Int
  socket : Socket
  packetProcessor : PacketProcessor
  sendQueue : Fifo (PacketEntry PacketPtr)
  receiveQueue : Fifo (PacketEntry FactoryPacket)
  counters : SocketInterfaceCounter → Counter 64
  destroyed : List PacketPtr

namespace SocketInterface

/-! ## the source methods -/

/-- `SocketInterface( ... )`, over the socket that was set up for it. -/
def new (f : PacketFactory) (released : Nat → Bool) (memory : Nat → U8)
    (protocolId : U32) (socket : Socket)
    (maxPacketSize sendQueueSize receiveQueueSize : Int) : Except Fault SocketInterface := do
  assert (protocolId ≠ 0)
  assert (0 < sendQueueSize)
  assert (0 < receiveQueueSize)
  let packetProcessor ← PacketProcessor.new memory protocolId maxPacketSize 0
  assert (0 < f.getNumPacketTypes)
  return { released, context := 0, protocolId, sendQueueSize, receiveQueueSize, socket, packetProcessor,
           sendQueue := .empty, receiveQueue := .empty, counters := fun _ => .zero,
           destroyed := [] }

/-- `m_counters[counter]++`. -/
def bump (si : SocketInterface) (counter : SocketInterfaceCounter) : SocketInterface :=
  { si with counters :=
      Function.update si.counters counter (si.counters counter).increment }

/-- `GetCounter`. -/
def getCounter (si : SocketInterface) (counter : SocketInterfaceCounter) : U64 :=
  (si.counters counter).value

/-- `IsError`. -/
def isError (si : SocketInterface) : Bool := si.socket.isError

/-- `GetMaxPacketSize`. -/
def getMaxPacketSize (si : SocketInterface) : Int := si.packetProcessor.maxPacketSize

/-- `SetContext`: the processor keeps the context it was made with. -/
def setContext (si : SocketInterface) (context : Context) : SocketInterface := { si with context }

/-- `DestroyPacket`. -/
def destroyPacket (si : SocketInterface) (packet : PacketPtr) : SocketInterface :=
  { si with destroyed := si.destroyed ++ [packet] }

/-- `SendPacket`. -/
def sendPacket (si : SocketInterface) (address : Address) (packet : PacketPtr) (sequence : U64) :
    Except Fault SocketInterface := do
  assert (address.isValid = true)
  if si.isError then
    return si.destroyPacket packet
  else if sizeT si.sendQueueSize ≤ si.sendQueue.size then
    return (si.bump .sendQueueOverflow).destroyPacket packet
  else
    return bump { si with sendQueue := si.sendQueue.push { sequence, address, packet } } .packetsSent

/-- The entry that follows `n` others is used after `pop` took it off its queue. -/
def usePopped (si : SocketInterface) (n : Nat) : Except Fault Unit :=
  require .danglingPointer (si.released n = false)

/-- `ReceivePacket`: the packet, `none` for `NULL`, and `from`. -/
def receivePacket (si : SocketInterface) (sender : Address) :
    Except Fault (Option FactoryPacket × Address × SocketInterface) :=
  if si.isError then
    return (none, sender, si)
  else
    match si.receiveQueue.pop with
    | none => return (none, sender, si)
    | some (entry, receiveQueue) => do
        si.usePopped si.receiveQueue.delivered.length
        assert (entry.address.isValid = true)
        return (some entry.packet, entry.address, bump { si with receiveQueue } .packetsReceived)

/-- The `switch` of `WritePackets` on the processor's error. -/
def countWriteError (si : SocketInterface) : SocketInterface :=
  match si.packetProcessor.error with
  | .keyIsNull => si.bump .encryptionMappingFailures
  | .encryptFailed => si.bump .encryptPacketFailures
  | .writePacketFailed => si.bump .writePacketFailures
  | _ => si

/-- What `WritePackets` does with what `WritePacket` returned: a packet that was
not written is not destroyed. -/
def sendEntry (si : SocketInterface) (entry : PacketEntry PacketPtr) (packetData : Option Memory)
    (packetBytes : Int) : Except Fault SocketInterface :=
  match packetData with
  | none => return si.countWriteError
  | some packetData => do
      let (_, socket) ← si.socket.sendPacket entry.address packetData (sizeT packetBytes)
      let si := destroyPacket { si with socket } entry.packet
      return (si.bump .packetsWritten).bump .unencryptedPacketsWritten

/-- One round of `WritePackets`. -/
def writeNext (f : PacketFactory) (packetAt : PacketPtr → Packet) (si : SocketInterface) :
    Except Fault (Bool × SocketInterface) :=
  match si.sendQueue.pop with
  | none => return (false, si)
  | some (entry, sendQueue) => do
      assert (entry.address.isValid = true)
      si.usePopped si.sendQueue.delivered.length
      let (packetData, packetBytes, packetProcessor) ←
        si.packetProcessor.writePacket f (packetAt entry.packet) entry.sequence
      let si ← sendEntry { si with sendQueue, packetProcessor } entry packetData packetBytes
      return (true, si)

/-- `WritePackets`: the loop ends with the queue. -/
def writePackets (f : PacketFactory) (packetAt : PacketPtr → Packet) (si : SocketInterface) :
    Except Fault SocketInterface :=
  Loop.loop (writeNext f packetAt) (si.sendQueue.size + 1) si

/-- The `switch` of `ReadPackets` on the processor's error. -/
def countReadError (si : SocketInterface) : SocketInterface :=
  match si.packetProcessor.error with
  | .keyIsNull => si.bump .encryptionMappingFailures
  | .decryptFailed => si.bump .encryptPacketFailures
  | .packetTooSmall => si.bump .decryptPacketFailures
  | .readPacketFailed => si.bump .readPacketFailures
  | _ => si

/-- What `ReadPackets` does with what `ReadPacket` returned. -/
def queuePacket (si : SocketInterface) (address : Address) (packet : Option FactoryPacket) :
    SocketInterface :=
  match packet with
  | none => si.countReadError
  | some packet =>
      let receiveQueue := si.receiveQueue.push { sequence := 0, address, packet }
      (bump { si with receiveQueue } .packetsRead).bump .unencryptedPacketsRead

/-- A round of `ReadPackets` after the call of `Socket::ReceivePacket`. -/
def handlePacket (f : PacketFactory) (uninit : Uninit) (si : SocketInterface) (packetBytes : Int)
    (address : Address) (packetBuffer : Memory) : Except Fault (Bool × SocketInterface) :=
  if packetBytes = 0 then
    return (false, si)
  else do
    assert (0 < packetBytes)
    if si.receiveQueue.size = sizeT si.receiveQueueSize then
      return (false, si.bump .receiveQueueOverflow)
    else do
      let (packet, _, packetProcessor) ←
        si.packetProcessor.readPacket f uninit packetBuffer packetBytes
      return (true, queuePacket { si with packetProcessor } address packet)

/-- One round of `ReadPackets`, on the interface and the buffer. What the next
packet object holds before it is read depends on how much was received. -/
def readNext (f : PacketFactory) (uninit : Nat → Uninit) (maxPacketSize : Int) :
    SocketInterface × Memory → Except Fault (Bool × (SocketInterface × Memory)) :=
  fun (si, packetBuffer) => do
    let (packetBytes, address, packetBuffer, socket) ←
      si.socket.receivePacket .clear packetBuffer maxPacketSize
    let (again, si) ← handlePacket f (uninit socket.incoming.delivered.length) { si with socket }
      packetBytes address packetBuffer
    return (again, si, packetBuffer)

/-- `ReadPackets`: the loop ends where the socket has no more, or the queue no
room. -/
def readPackets (f : PacketFactory) (memory : Nat → U8) (uninit : Nat → Uninit)
    (si : SocketInterface) : Except Fault SocketInterface := do
  let packetBuffer ← PacketProcessor.newArray memory si.getMaxPacketSize
  let (si, _) ← Loop.loop (readNext f uninit si.getMaxPacketSize) (si.socket.incoming.size + 1)
    (si, packetBuffer)
  return si

/-- A datagram or a failure arrives at the socket. -/
def arrive (si : SocketInterface) (r : Received) : SocketInterface :=
  { si with socket := si.socket.arrive r }

/-! ## what the operations do -/

/-- How often a counter was incremented. -/
def count (si : SocketInterface) (counter : SocketInterfaceCounter) : Nat :=
  (si.counters counter).count

/-- The datagrams that were taken from the socket. -/
def taken (si : SocketInterface) : List (Sockaddr × List U8) :=
  si.socket.incoming.delivered.filterMap (·.content)

/-- What a call of `SendPacket` does. -/
inductive Sends (si : SocketInterface) (entry : PacketEntry PacketPtr) : SocketInterface → Prop
  | refused (herror : si.isError = true) : Sends si entry (si.destroyPacket entry.packet)
  | overflow (herror : si.isError = false) (hfull : sizeT si.sendQueueSize ≤ si.sendQueue.size) :
      Sends si entry ((si.bump .sendQueueOverflow).destroyPacket entry.packet)
  | queued (herror : si.isError = false) (hroom : si.sendQueue.size < sizeT si.sendQueueSize)
      (hvalid : entry.address.isValid = true) :
      Sends si entry (bump { si with sendQueue := si.sendQueue.push entry } .packetsSent)

/-- The inversion lemma of `SendPacket`. -/
theorem sendPacket_cases {si si' : SocketInterface} {address : Address} {packet : PacketPtr}
    {sequence : U64} (h : si.sendPacket address packet sequence = .ok si') :
    Sends si { sequence, address, packet } si' := by
  simp only [sendPacket, Except.bind_eq_ok_iff, require_eq_ok] at h
  obtain ⟨-, hvalid, h⟩ := h
  split at h
  · next herror =>
      obtain rfl := Except.pure_eq_ok_iff.mp h
      exact .refused herror
  · next herror =>
      have herror' : si.isError = false := by simpa using herror
      split at h
      · next hfull =>
          obtain rfl := Except.pure_eq_ok_iff.mp h
          exact .overflow herror' hfull
      · next hroom =>
          obtain rfl := Except.pure_eq_ok_iff.mp h
          exact .queued herror' (by omega) hvalid

/-- What a call of `ReceivePacket` does. -/
inductive Returns (si : SocketInterface) (sender : Address) :
    Option FactoryPacket → Address → SocketInterface → Prop
  | nothing (hnone : si.isError = true ∨ si.receiveQueue.pop = none) :
      Returns si sender none sender si
  | packet {entry : PacketEntry FactoryPacket} {receiveQueue : Fifo (PacketEntry FactoryPacket)}
      (herror : si.isError = false) (hpop : si.receiveQueue.pop = some (entry, receiveQueue))
      (hkept : si.released si.receiveQueue.delivered.length = false) :
      Returns si sender (some entry.packet) entry.address
        (bump { si with receiveQueue } .packetsReceived)

/-- The inversion lemma of `ReceivePacket`. -/
theorem receivePacket_cases {si si' : SocketInterface} {sender sender' : Address}
    {packet : Option FactoryPacket} (h : si.receivePacket sender = .ok (packet, sender', si')) :
    Returns si sender packet sender' si' := by
  simp only [receivePacket] at h
  split at h
  · next herror =>
      simp only [Except.pure_eq_ok_iff, Prod.mk.injEq] at h
      obtain ⟨rfl, rfl, rfl⟩ := h
      exact .nothing (.inl herror)
  · next herror =>
      split at h
      · next hpop =>
          simp only [Except.pure_eq_ok_iff, Prod.mk.injEq] at h
          obtain ⟨rfl, rfl, rfl⟩ := h
          exact .nothing (.inr hpop)
      · next entry receiveQueue hpop =>
          simp only [Except.bind_eq_ok_iff, usePopped, require_eq_ok, Except.pure_eq_ok_iff,
            Prod.mk.injEq] at h
          obtain ⟨-, hkept, -, -, rfl, rfl, rfl⟩ := h
          exact .packet (by simpa using herror) hpop hkept

/-- What a round of `WritePackets` does. -/
inductive Writes (f : PacketFactory) (packetAt : PacketPtr → Packet) (si : SocketInterface) :
    Bool → SocketInterface → Prop
  | idle (hpop : si.sendQueue.pop = none) : Writes f packetAt si false si
  | failed {entry : PacketEntry PacketPtr} {sendQueue : Fifo (PacketEntry PacketPtr)} {n : Int}
      {packetBuffer : Memory} (hpop : si.sendQueue.pop = some (entry, sendQueue))
      (hwrite : writePacket f si.packetProcessor.packetInfo (packetAt entry.packet)
        si.packetProcessor.packetBuffer si.getMaxPacketSize none = .ok (n, packetBuffer))
      (hn : n ≤ 0) (hkept : si.released si.sendQueue.delivered.length = false) :
      Writes f packetAt si true (bump { si with sendQueue, packetProcessor :=
        { si.packetProcessor with error := .writePacketFailed, packetBuffer } } .writePacketFailures)
  | written {entry : PacketEntry PacketPtr} {sendQueue : Fifo (PacketEntry PacketPtr)} {n : Int}
      {packetBuffer : Memory} {dest : Sockaddr}
      (hpop : si.sendQueue.pop = some (entry, sendQueue))
      (hwrite : writePacket f si.packetProcessor.packetInfo (packetAt entry.packet)
        si.packetProcessor.packetBuffer si.getMaxPacketSize none = .ok (n, packetBuffer))
      (hn : 0 < n) (hmax : n ≤ si.getMaxPacketSize)
      (hdest : Socket.sockaddr entry.address = some dest)
      (hkept : si.released si.sendQueue.delivered.length = false) :
      Writes f packetAt si true ((bump (destroyPacket { si with sendQueue, packetProcessor :=
          { si.packetProcessor with error := .none, packetBuffer }, socket := { si.socket with
            sent := si.socket.sent ++ [(dest, packetBuffer.take (sizeT (int32 (sizeT n))))] } }
        entry.packet) .packetsWritten).bump .unencryptedPacketsWritten)

/-- The inversion lemma of a round of `WritePackets`. -/
theorem writeNext_cases {f : PacketFactory} {packetAt : PacketPtr → Packet}
    {si si' : SocketInterface} {again : Bool} (h : writeNext f packetAt si = .ok (again, si')) :
    Writes f packetAt si again si' := by
  simp only [writeNext] at h
  split at h
  · next hpop =>
      simp only [Except.pure_eq_ok_iff, Prod.mk.injEq] at h
      obtain ⟨rfl, rfl⟩ := h
      exact .idle hpop
  · next entry sendQueue hpop =>
      obtain ⟨-, -, h⟩ := Except.bind_eq_ok_iff.mp h
      obtain ⟨_, huse, h⟩ := Except.bind_eq_ok_iff.mp h
      have hkept : si.released si.sendQueue.delivered.length = false := require_eq_ok.mp huse
      obtain ⟨⟨packetData, packetBytes, packetProcessor⟩, hprocess, h⟩ :=
        Except.bind_eq_ok_iff.mp h
      obtain ⟨si₁, hsend, h⟩ := Except.bind_eq_ok_iff.mp h
      simp only [Except.pure_eq_ok_iff, Prod.mk.injEq] at h
      obtain ⟨rfl, rfl⟩ := h
      obtain ⟨packetBuffer, hwrite, ⟨hn, rfl, rfl⟩ | ⟨hn, hmax, rfl, rfl⟩⟩ :=
        PacketProcessor.writePacket_inv hprocess
      · obtain rfl := Except.pure_eq_ok_iff.mp hsend
        exact .failed hpop hwrite hn hkept
      · obtain ⟨⟨result, socket⟩, hsocket, hsend⟩ := Except.bind_eq_ok_iff.mp hsend
        obtain rfl := Except.pure_eq_ok_iff.mp hsend
        obtain ⟨dest, hdest, rfl⟩ := Socket.sendPacket_inv hsocket
        exact .written hpop hwrite hn hmax hdest hkept

/-- What a round of `ReadPackets` does, in the state and with the buffer that
`Socket::ReceivePacket` left. -/
inductive Reads (f : PacketFactory) (si : SocketInterface) (n : Int) (address : Address)
    (data : Memory) : Bool → SocketInterface → Prop
  | idle (hn : n = 0) : Reads f si n address data false si
  | overflow (hn : 0 < n) (hfull : si.receiveQueue.size = sizeT si.receiveQueueSize) :
      Reads f si n address data false (si.bump .receiveQueueOverflow)
  | failed {uninit : Uninit} {r : ReadResult Unit} (hn : 0 < n)
      (hroom : si.receiveQueue.size ≠ sizeT si.receiveQueueSize)
      (hread : readPacket f uninit si.packetProcessor.packetInfo data n
        (none : Option (ObjectClass Unit)) () = .ok (none, r)) :
      Reads f si n address data true (bump { si with packetProcessor :=
        { si.packetProcessor with error := .readPacketFailed } } .readPacketFailures)
  | read {uninit : Uninit} {packet : FactoryPacket} {r : ReadResult Unit} (hn : 0 < n)
      (hroom : si.receiveQueue.size ≠ sizeT si.receiveQueueSize)
      (hread : readPacket f uninit si.packetProcessor.packetInfo data n
        (none : Option (ObjectClass Unit)) () = .ok (some packet, r)) :
      Reads f si n address data true ((bump { si with
          packetProcessor := { si.packetProcessor with error := .none }
          receiveQueue := si.receiveQueue.push { sequence := 0, address, packet } }
        .packetsRead).bump .unencryptedPacketsRead)

/-- The inversion lemma of what follows a datagram. -/
theorem handlePacket_cases {f : PacketFactory} {uninit : Uninit} {si si' : SocketInterface} {n : Int}
    {address : Address} {data : Memory} {again : Bool}
    (h : handlePacket f uninit si n address data = .ok (again, si')) :
    Reads f si n address data again si' := by
  simp only [handlePacket] at h
  split at h
  · next hn =>
      simp only [Except.pure_eq_ok_iff, Prod.mk.injEq] at h
      obtain ⟨rfl, rfl⟩ := h
      exact .idle hn
  · simp only [Except.bind_eq_ok_iff, require_eq_ok] at h
    obtain ⟨-, hn, h⟩ := h
    split at h
    · next hfull =>
        simp only [Except.pure_eq_ok_iff, Prod.mk.injEq] at h
        obtain ⟨rfl, rfl⟩ := h
        exact .overflow hn hfull
    · next hroom =>
        obtain ⟨⟨packet, sequence, packetProcessor⟩, hprocess, h⟩ := Except.bind_eq_ok_iff.mp h
        simp only [Except.pure_eq_ok_iff, Prod.mk.injEq] at h
        obtain ⟨rfl, rfl⟩ := h
        obtain ⟨⟨r, hread⟩, rfl⟩ := PacketProcessor.readPacket_inv hprocess
        cases packet with
        | none => exact .failed hn hroom hread
        | some packet => exact .read hn hroom hread

/-- The inversion lemma of a round of `ReadPackets`. -/
theorem readNext_cases {f : PacketFactory} {uninit : Nat → Uninit} {maxPacketSize : Int}
    {si si' : SocketInterface} {packetBuffer data : Memory} {again : Bool}
    (h : readNext f uninit maxPacketSize (si, packetBuffer) = .ok (again, si', data)) :
    ∃ n address socket, 0 < maxPacketSize ∧
      Socket.Receives si.socket .clear packetBuffer maxPacketSize n address data socket ∧
        Reads f { si with socket } n address data again si' := by
  obtain ⟨⟨n, address, data', socket⟩, hreceive, h⟩ := Except.bind_eq_ok_iff.mp h
  obtain ⟨⟨again', si₁⟩, hhandle, h⟩ := Except.bind_eq_ok_iff.mp h
  simp only [Except.pure_eq_ok_iff, Prod.mk.injEq] at h
  obtain ⟨rfl, rfl, rfl⟩ := h
  obtain ⟨hpos, hreceives⟩ := Socket.receivePacket_cases hreceive
  exact ⟨n, address, socket, hpos, hreceives, handlePacket_cases hhandle⟩

/-! ## the ends of the loops -/

/-- `WritePackets` empties the send queue. -/
theorem writePackets_empty {f : PacketFactory} {packetAt : PacketPtr → Packet}
    {si si' : SocketInterface} (h : writePackets f packetAt si = .ok si') :
    si'.sendQueue.items = [] := by
  have hlower : ∀ s s' : SocketInterface, writeNext f packetAt s = .ok (true, s') →
      s'.sendQueue.size < s.sendQueue.size := by
    intro s s' hround
    cases writeNext_cases hround with
    | failed hpop =>
        rw [Fifo.size_pop hpop]
        exact Nat.lt_succ_self _
    | written hpop =>
        rw [Fifo.size_pop hpop]
        exact Nat.lt_succ_self _
  obtain ⟨s, hlast⟩ := Loop.loop_ends hlower (Nat.lt_succ_self _) h
  cases writeNext_cases hlast with
  | idle hpop => exact Fifo.pop_eq_none.mp hpop

/-- What every round of `ReadPackets` keeps, `ReadPackets` keeps. -/
theorem readPackets_inv {f : PacketFactory} {memory : Nat → U8} {uninit : Nat → Uninit}
    {I : SocketInterface → Prop} {si si' : SocketInterface}
    (hround : ∀ s buffer again s' data, I s →
      readNext f uninit si.getMaxPacketSize (s, buffer) = .ok (again, s', data) → I s')
    (hs : I si) (h : readPackets f memory uninit si = .ok si') : I si' := by
  obtain ⟨packetBuffer, -, h⟩ := Except.bind_eq_ok_iff.mp h
  obtain ⟨⟨si₁, data⟩, hloop, h⟩ := Except.bind_eq_ok_iff.mp h
  obtain rfl := Except.pure_eq_ok_iff.mp h
  exact Loop.loop_inv (I := fun s : SocketInterface × Memory => I s.1)
    (fun s again s' hI hbody => hround s.1 s.2 again s'.1 s'.2 hI hbody) hs hloop

/-- `ReadPackets` goes on until the socket has nothing more, or the receive queue is full. -/
theorem readPackets_ends {f : PacketFactory} {memory : Nat → U8} {uninit : Nat → Uninit}
    {si si' : SocketInterface} (h : readPackets f memory uninit si = .ok si') :
    (∃ s buffer data address socket, Socket.Receives s .clear buffer si.getMaxPacketSize 0 address
        data socket ∧ si'.socket = socket) ∨
      si'.receiveQueue.size = sizeT si'.receiveQueueSize := by
  obtain ⟨packetBuffer, -, h⟩ := Except.bind_eq_ok_iff.mp h
  obtain ⟨⟨si₁, data⟩, hloop, h⟩ := Except.bind_eq_ok_iff.mp h
  obtain rfl := Except.pure_eq_ok_iff.mp h
  have hlower : ∀ s s' : SocketInterface × Memory,
      readNext f uninit si.getMaxPacketSize s = .ok (true, s') →
      s'.1.socket.incoming.size < s.1.socket.incoming.size := by
    intro ⟨s, buffer⟩ ⟨s', data⟩ hround
    obtain ⟨n, address, socket, -, hreceives, hreads⟩ := readNext_cases hround
    have htaken : 0 < n → socket.incoming.size < s.socket.incoming.size := by
      intro hn
      cases hreceives with
      | idle => contradiction
      | failed => contradiction
      | empty => contradiction
      | datagram hpop =>
          rw [Fifo.size_pop hpop]
          exact Nat.lt_succ_self _
    cases hreads with
    | failed hn => exact htaken hn
    | read hn => exact htaken hn
  obtain ⟨⟨s, buffer⟩, hlast⟩ := Loop.loop_ends hlower (Nat.lt_succ_self _) hloop
  obtain ⟨n, address, socket, -, hreceives, hreads⟩ := readNext_cases hlast
  cases hreads with
  | idle hn =>
      subst hn
      exact .inl ⟨_, _, _, _, _, hreceives, rfl⟩
  | overflow hn hfull => exact .inr hfull

end SocketInterface

end RudpNetwork
