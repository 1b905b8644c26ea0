import RudpNetwork.Datagram
import RudpNetwork.Ledger

/-!
# RudpNetwork.Progress

A `SocketInterface` whose calls complete: no assertion fails, no array is left, no
packet of the factory is too large, and no entry that a call takes off a queue takes its
storage along.

`Ready` is the invariant: the socket works, the buffers have room for every packet,
the queued packets are in their ranges and go to valid addresses, and what the socket
still has is no shorter than a prefix and a checksum.

## Main results

* `sendPacket_ready`, `receivePacket_ready` — the calls complete from a ready interface and
  leave it ready.
* `Ready.writeNext`, `readNext_ready` — so do the rounds of the two loops.
-/

namespace RudpNetwork

open MachineInt

/-- A packet size that every packet of the factory fits, and whose bits an `int` can
count. -/
structure Roomy (size : Nat) : Prop where
  words : size % 4 = 0
  room : 24 ≤ size
  bits : 8 * size < 2147483648

namespace SocketInterface

/-- The packets of the factory, as the writing side sees them. -/
abbrev toPackets (packetAt : PacketPtr → FactoryPacket) : PacketPtr → Packet :=
  fun p => (packetAt p).toPacket

/-- An interface for packets of up to `size` bytes. -/
structure Ready (protocolId : U32) (size : Nat) (packetAt : PacketPtr → FactoryPacket)
    (si : SocketInterface) : Prop where
  working : si.socket.Working
  packetInfo : si.packetProcessor.packetInfo = framing protocolId
  maxPacketSize : si.packetProcessor.maxPacketSize = size
  buffer : size ≤ si.packetProcessor.packetBuffer.length ∧
    8 * si.packetProcessor.packetBuffer.length < 2147483648
  toSend : ∀ e ∈ si.sendQueue.items, e.address.isValid = true ∧ (packetAt e.packet).InRange
  toReturn : ∀ e ∈ si.receiveQueue.items, e.address.isValid = true
  toReceive : ∀ source bytes, .datagram source bytes ∈ si.socket.incoming.items →
    Socket.FromInternet source ∧ 5 ≤ (bytes.take size).length

variable {f : PacketFactory} {protocolId : U32} {size : Nat}
  {packetAt : PacketPtr → FactoryPacket} {si : SocketInterface}

/-- A ready interface has no error. -/
theorem Ready.noError (h : si.Ready protocolId size packetAt) : si.isError = false := by
  simp [isError, Socket.isError, h.working.noError]

/-! ## the calls -/

/-- `SendPacket` of a packet in range to a valid address completes and stays ready. -/
theorem sendPacket_ready (h : si.Ready protocolId size packetAt) {address : Address}
    (hvalid : address.isValid = true) {packet : PacketPtr} (hrange : (packetAt packet).InRange)
    (sequence : U64) :
    ∃ si', si.sendPacket address packet sequence = .ok si' ∧ si'.Ready protocolId size packetAt := by
  have herror : ¬si.isError = true := by simp [h.noError]
  by_cases hfull : sizeT si.sendQueueSize ≤ si.sendQueue.size
  · have hrun : si.sendPacket address packet sequence =
        .ok ((si.bump .sendQueueOverflow).destroyPacket packet) := by
      refine Except.bind_eq_ok_iff.mpr ⟨(), require_eq_ok.mpr hvalid, ?_⟩
      rw [if_neg herror, if_pos hfull]
      rfl
    exact ⟨_, hrun, { h with }⟩
  · have hrun : si.sendPacket address packet sequence = .ok (bump { si with
        sendQueue := si.sendQueue.push { sequence, address, packet } } .packetsSent) := by
      refine Except.bind_eq_ok_iff.mpr ⟨(), require_eq_ok.mpr hvalid, ?_⟩
      rw [if_neg herror, if_neg hfull]
      rfl
    refine ⟨_, hrun, { h with toSend := fun e he => ?_ }⟩
    rcases List.mem_append.mp he with hold | hnew
    · exact h.toSend e hold
    · obtain rfl := List.mem_singleton.mp hnew
      exact ⟨hvalid, hrange⟩

/-- `ReceivePacket` completes where the front entry outlives its removal. -/
theorem receivePacket_ready (h : si.Ready protocolId size packetAt)
    (hkeeps : ∀ n ∈ si.receiveQueue.numbers.head?, si.released n = false) (sender : Address) :
    ∃ packet sender' si', si.receivePacket sender = .ok (packet, sender', si') ∧
      si'.Ready protocolId size packetAt := by
  have herror : ¬si.isError = true := by simp [h.noError]
  cases hpop : si.receiveQueue.pop with
  | none =>
      have hrun : si.receivePacket sender = .ok (none, sender, si) := by
        simp only [receivePacket, if_neg herror, hpop]
        rfl
      exact ⟨_, _, _, hrun, h⟩
  | some r =>
      obtain ⟨entry, receiveQueue⟩ := r
      obtain ⟨hitems, -, -⟩ := Fifo.pop_eq_some hpop
      have hkept : si.released si.receiveQueue.delivered.length = false :=
        hkeeps _ (by simp [Fifo.numbers_pop hpop])
      have hrun : si.receivePacket sender = .ok (some entry.packet, entry.address,
          bump { si with receiveQueue } .packetsReceived) := by
        simp only [receivePacket, if_neg herror, hpop]
        exact Except.bind_eq_ok_iff.mpr ⟨(), require_eq_ok.mpr hkept,
          Except.bind_eq_ok_iff.mpr ⟨(),
            require_eq_ok.mpr (h.toReturn entry (hitems ▸ List.mem_cons_self)), rfl⟩⟩
      refine ⟨_, _, _, hrun, { h with toReturn := fun e he => ?_ }⟩
      exact h.toReturn e (hitems ▸ List.mem_cons_of_mem _ he)

/-- A datagram that is no shorter than a prefix and a checksum may arrive. -/
theorem arrive_ready (h : si.Ready protocolId size packetAt) {r : Received}
    (hr : ∀ source bytes, r = .datagram source bytes →
      Socket.FromInternet source ∧ 5 ≤ (bytes.take size).length) :
    (si.arrive r).Ready protocolId size packetAt := by
  refine { h with working := h.working.arrive r, toReceive := fun source bytes hmem => ?_ }
  rcases List.mem_append.mp hmem with hold | hnew
  · exact h.toReceive source bytes hold
  · exact hr source bytes (List.mem_singleton.mp hnew).symm

/-- A datagram is handled if the processor gets through with it. -/
theorem handlePacket_completes {uninit : Uninit} {n : Nat} (hn : 0 < n) (address : Address)
    {data : Memory} {r : Option FactoryPacket × U64 × PacketProcessor}
    (hread : si.packetProcessor.readPacket f uninit data n = .ok r) :
    ∃ r, handlePacket f uninit si n address data = .ok r := by
  rw [handlePacket, if_neg (by omega)]
  by_cases hfull : si.receiveQueue.size = sizeT si.receiveQueueSize
  · rw [if_pos hfull]
    exact ⟨_, Except.bind_eq_ok_iff.mpr ⟨(), require_eq_ok.mpr (by omega), rfl⟩⟩
  · rw [if_neg hfull]
    exact ⟨_, Except.bind_eq_ok_iff.mpr ⟨(), require_eq_ok.mpr (by omega),
      Except.bind_eq_ok_iff.mpr ⟨_, hread, rfl⟩⟩⟩

section

variable (hf : f.getNumPacketTypes = TestPacketTypes.numTypes.value) (hid : protocolId ≠ 0)
  (hsize : Roomy size)
include hf hid hsize

/-- `WritePacket` of the processor writes every packet in range. -/
theorem Ready.writePacket (h : si.Ready protocolId size packetAt) {p : FactoryPacket}
    (hp : p.InRange) : ∃ n data, 0 < n ∧ n ≤ size ∧ n ≤ data.length ∧
      data.length = si.packetProcessor.packetBuffer.length ∧
      RudpNetwork.writePacket f si.packetProcessor.packetInfo p.toPacket
        si.packetProcessor.packetBuffer si.getMaxPacketSize none = .ok ((n : Int), data) := by
  obtain ⟨hlen, hint⟩ := h.buffer
  obtain ⟨crc, data, hwrite, hdata, -, hsealed, -⟩ :=
    writePacket_written hf hid hp hsize.words hsize.room hlen hint
  have hroom := hsize.room
  have hsum := p.fieldBits_sum_le
  refine ⟨_, data, by omega, by omega, hsealed.length, hdata, ?_⟩
  rw [h.packetInfo, getMaxPacketSize, h.maxPacketSize]
  exact hwrite

/-- A packet that is popped is written and sent. -/
theorem Ready.writeNext (h : si.Ready protocolId size packetAt)
    (hkeeps : ∀ n ∈ si.sendQueue.numbers, si.released n = false) :
    ∃ r, writeNext f (toPackets packetAt) si = .ok r := by
  cases hpop : si.sendQueue.pop with
  | none => exact ⟨(false, si), by simp only [SocketInterface.writeNext, hpop]; rfl⟩
  | some r =>
      obtain ⟨entry, sendQueue⟩ := r
      obtain ⟨hitems, -, -⟩ := Fifo.pop_eq_some hpop
      have hkept : si.released si.sendQueue.delivered.length = false :=
        hkeeps _ (by simp [Fifo.numbers_pop hpop])
      obtain ⟨hvalid, hrange⟩ := h.toSend entry (hitems ▸ List.mem_cons_self)
      obtain ⟨n, data, hpos, hle, hn, -, hwrite⟩ := h.writePacket hf hid hsize hrange
      have hint := hsize.bits
      have hsizeT : sizeT (n : Int) = n := by
        have heq := @sizeT_eq n (by omega) (by omega)
        omega
      obtain ⟨dest, hdest⟩ := Socket.sockaddr_of_valid hvalid
      obtain ⟨result, hsend⟩ := Socket.sendPacket_ok h.working hvalid hpos hn (by omega) hdest
      have hprocess := PacketProcessor.writePacket_completes hwrite (by omega)
        (by rw [h.maxPacketSize]; omega) entry.sequence
      obtain ⟨processor, hprocessor⟩ : ∃ processor, processor = { si.packetProcessor with
        error := .none, packetBuffer := data } := ⟨_, rfl⟩
      rw [← hprocessor] at hprocess
      obtain ⟨si', hentry⟩ : ∃ si', sendEntry { si with sendQueue, packetProcessor := processor }
          entry (some data) n = .ok si' :=
        ⟨_, Except.bind_eq_ok_iff.mpr ⟨_, by rw [hsizeT]; exact hsend, rfl⟩⟩
      refine ⟨(true, si'), ?_⟩
      simp only [SocketInterface.writeNext, hpop]
      exact Except.bind_eq_ok_iff.mpr ⟨(), require_eq_ok.mpr hvalid,
        Except.bind_eq_ok_iff.mpr ⟨(), require_eq_ok.mpr hkept,
          Except.bind_eq_ok_iff.mpr ⟨_, hprocess, Except.bind_eq_ok_iff.mpr ⟨_, hentry, rfl⟩⟩⟩⟩

/-- What `WritePacket` makes of a packet that is popped. -/
theorem Ready.written_pop (h : si.Ready protocolId size packetAt) {entry : PacketEntry PacketPtr}
    {sendQueue : Fifo (PacketEntry PacketPtr)} {n : Int} {packetBuffer : Memory}
    (hpop : si.sendQueue.pop = some (entry, sendQueue))
    (hwrite : RudpNetwork.writePacket f si.packetProcessor.packetInfo (toPackets packetAt entry.packet)
      si.packetProcessor.packetBuffer si.getMaxPacketSize none = .ok (n, packetBuffer)) :
    0 < n ∧ packetBuffer.length = si.packetProcessor.packetBuffer.length := by
  obtain ⟨hitems, -, -⟩ := Fifo.pop_eq_some hpop
  obtain ⟨-, hrange⟩ := h.toSend entry (hitems ▸ List.mem_cons_self)
  obtain ⟨m, data, hpos, -, -, hdata, hwrite'⟩ := h.writePacket hf hid hsize hrange
  obtain ⟨rfl, rfl⟩ := Prod.mk.inj (Except.ok.inj (hwrite.symm.trans hwrite'))
  exact ⟨by omega, hdata⟩

/-- A round of `WritePackets` stays ready. -/
theorem Writes.ready {again : Bool} {si' : SocketInterface}
    (hwrites : Writes f (toPackets packetAt) si again si') (h : si.Ready protocolId size packetAt) :
    si'.Ready protocolId size packetAt := by
  cases hwrites with
  | idle => exact h
  | failed hpop hwrite hn =>
      have hpos := (h.written_pop hf hid hsize hpop hwrite).1
      omega
  | @written entry sendQueue n packetBuffer dest hpop hwrite =>
      obtain ⟨hitems, -, -⟩ := Fifo.pop_eq_some hpop
      refine { h with working := ⟨h.working.noError, h.working.handle⟩, buffer := ?_,
                      toSend := fun e he => h.toSend e (hitems ▸ List.mem_cons_of_mem _ he) }
      change size ≤ packetBuffer.length ∧ 8 * packetBuffer.length < 2147483648
      rw [(h.written_pop hf hid hsize hpop hwrite).2]
      exact h.buffer

/-- A round of `ReadPackets` completes, whatever it comes to. -/
theorem Ready.readNext (h : si.Ready protocolId size packetAt) (uninit : Nat → Uninit)
    {buffer : Memory} (hbuffer : buffer.length = size) :
    ∃ r, readNext f uninit size (si, buffer) = .ok r := by
  have hroom := hsize.room
  have hnum : f.getNumPacketTypes = 106 := hf
  have hpos : 0 < (size : Int) := by omega
  cases hpop : si.socket.incoming.pop with
  | none =>
      have hreceive : si.socket.receivePacket .clear buffer size =
          .ok (0, .clear, buffer, si.socket) := by
        simp only [Socket.receivePacket, Except.bind_eq_ok_iff, require_eq_ok, hpop]
        exact ⟨(), h.working.handle, (), hpos, rfl⟩
      exact ⟨_, Except.bind_eq_ok_iff.mpr ⟨_, hreceive, rfl⟩⟩
  | some r =>
      obtain ⟨received, incoming⟩ := r
      obtain ⟨hitems, -, -⟩ := Fifo.pop_eq_some hpop
      cases received with
      | failed =>
          have hreceive : si.socket.receivePacket .clear buffer size =
              .ok (0, .clear, buffer, { si.socket with incoming }) := by
            simp only [Socket.receivePacket, Except.bind_eq_ok_iff, require_eq_ok, hpop]
            exact ⟨(), h.working.handle, (), hpos, rfl⟩
          exact ⟨_, Except.bind_eq_ok_iff.mpr ⟨_, hreceive, rfl⟩⟩
      | datagram source bytes =>
          obtain ⟨hsource, h5⟩ := h.toReceive source bytes (hitems ▸ List.mem_cons_self)
          obtain ⟨address, haddress⟩ := Socket.ofSockaddr_ok hsource
          rw [List.length_take] at h5
          have hne : bytes ≠ [] := by
            rintro rfl
            rw [List.length_nil] at h5
            omega
          obtain ⟨data, incoming', -, hreceive, -, hdata⟩ := @Socket.receivePacket_datagram _
            h.working .clear buffer size hbuffer.symm source bytes _ hitems hne (by omega) address
            haddress
          have hwords := hsize.words
          have hbits := hsize.bits
          have hid' : si.packetProcessor.protocolId ≠ 0 := by
            rw [show si.packetProcessor.protocolId = protocolId from
              congrArg PacketInfo.protocolId h.packetInfo]
            exact hid
          obtain ⟨packet, hread⟩ := @PacketProcessor.readPacket_completes f ⟨by omega, by omega⟩
            (by omega) (uninit incoming'.delivered.length) si.packetProcessor hid' data
            (min size bytes.length) h5 (by omega) (by rw [hdata, hbuffer]; omega)
          obtain ⟨r, hhandle⟩ := @handlePacket_completes f
            { si with socket := { si.socket with incoming := incoming' } } _ _ (by omega) address
            data _ hread
          exact ⟨_, Except.bind_eq_ok_iff.mpr ⟨_, hreceive,
            Except.bind_eq_ok_iff.mpr ⟨_, hhandle, rfl⟩⟩⟩

end

/-- What is still to come, after the front of it was taken. -/
theorem Ready.socket_pop (h : si.Ready protocolId size packetAt) {r : Received}
    {incoming : Fifo Received} (hpop : si.socket.incoming.pop = some (r, incoming)) :
    Ready protocolId size packetAt { si with socket := { si.socket with incoming } } := by
  obtain ⟨hitems, -, -⟩ := Fifo.pop_eq_some hpop
  refine { h with working := ⟨h.working.noError, h.working.handle⟩, toReceive := ?_ }
  intro source bytes hmem
  exact h.toReceive source bytes (hitems ▸ List.mem_cons_of_mem _ hmem)

/-- Taking a datagram from the socket stays ready. -/
theorem Ready.receives (h : si.Ready protocolId size packetAt) {socket : Socket} {n : Int}
    {address : Address} {buffer data : Memory}
    (hreceives : Socket.Receives si.socket .clear buffer size n address data socket) :
    Ready protocolId size packetAt { si with socket } ∧ data.length = buffer.length := by
  cases hreceives with
  | idle => exact ⟨h, rfl⟩
  | failed hpop | empty hpop => exact ⟨h.socket_pop hpop, rfl⟩
  | datagram hpop _ _ _ _ hlen => exact ⟨h.socket_pop hpop, hlen⟩

/-- A round of `ReadPackets` stays ready. -/
theorem Reads.ready {n : Int} {address : Address} {data : Memory} {again : Bool}
    {si' : SocketInterface} (hreads : Reads f si n address data again si')
    (h : si.Ready protocolId size packetAt) (hvalid : 0 < n → address.isValid = true) :
    si'.Ready protocolId size packetAt := by
  cases hreads with
  | idle => exact h
  | overflow => exact { h with }
  | failed => exact { h with }
  | read hn =>
      refine { h with toReturn := fun e he => ?_ }
      rcases List.mem_append.mp he with hold | hnew
      · exact h.toReturn e hold
      · obtain rfl := List.mem_singleton.mp hnew
        exact hvalid hn

/-- A round of `ReadPackets` completes and stays ready. -/
theorem readNext_ready (hf : f.getNumPacketTypes = TestPacketTypes.numTypes.value)
    (hid : protocolId ≠ 0) (hsize : Roomy size) (h : si.Ready protocolId size packetAt)
    (uninit : Nat → Uninit) {buffer : Memory} (hbuffer : buffer.length = size) :
    ∃ again si' data, readNext f uninit size (si, buffer) = .ok (again, si', data) ∧
      si'.Ready protocolId size packetAt ∧ data.length = size := by
  obtain ⟨⟨again, si', data⟩, hround⟩ := h.readNext hf hid hsize uninit hbuffer
  obtain ⟨n, address, socket, -, hreceives, hreads⟩ := readNext_cases hround
  obtain ⟨hsocket, hdata⟩ := h.receives hreceives
  refine ⟨again, si', data, hround, hreads.ready hsocket fun hn => ?_, hdata.trans hbuffer⟩
  cases hreceives with
  | idle | failed | empty => exact absurd hn (lt_irrefl 0)
  | datagram _ haddress => exact Address.isValid_ofSockaddr haddress

/-- What the rounds of `ReadPackets` keep, in which they complete: so does `ReadPackets`. -/
theorem readPackets_keeps {I : SocketInterface → Prop} {uninit : Nat → Uninit}
    (hmax : si.getMaxPacketSize = size)
    (hround : ∀ s buffer, I s → buffer.length = size →
      ∃ again s' data, readNext f uninit size (s, buffer) = .ok (again, s', data) ∧ I s' ∧
        data.length = size) (memory : Nat → U8) (hs : I si) :
    ∃ si', si.readPackets f memory uninit = .ok si' ∧ I si' := by
  have hnew : PacketProcessor.newArray memory si.getMaxPacketSize = .ok (uninitArray memory size) := by
    rw [hmax, PacketProcessor.newArray, if_pos (by omega), Int.toNat_natCast]
  have hrounds : ∀ s : SocketInterface × Memory, I s.1 ∧ s.2.length = size →
      ∃ again s', readNext f uninit si.getMaxPacketSize s = .ok (again, s') ∧ I s'.1 ∧
        s'.2.length = size := by
    rintro ⟨s, buffer⟩ ⟨hI, hbuffer⟩
    obtain ⟨again, s', data, hrun, hs'⟩ := hround s buffer hI hbuffer
    rw [← hmax] at hrun
    exact ⟨again, (s', data), hrun, hs'⟩
  obtain ⟨⟨si', data⟩, hloop, hI, -⟩ := Loop.loop_keeps hrounds (si.socket.incoming.size + 1)
    (s := (si, uninitArray memory size)) ⟨hs, length_uninitArray memory size⟩
  exact ⟨si', Except.bind_eq_ok_iff.mpr ⟨_, hnew, Except.bind_eq_ok_iff.mpr ⟨_, hloop, rfl⟩⟩, hI⟩

/-- The buffer of a processor has room for the rounded packet size. -/
theorem new_sizes {memory : Nat → U8} {maxPacketSize : Int} {context : Context}
    {P : PacketProcessor} (h0 : 0 ≤ maxPacketSize) (hint : maxPacketSize + 9 < 2147483648)
    (h : PacketProcessor.new memory protocolId maxPacketSize context = .ok P) :
    P.maxPacketSize % 4 = 0 ∧ maxPacketSize ≤ P.maxPacketSize ∧
      P.maxPacketSize ≤ P.packetBuffer.length ∧ P.packetBuffer.length = maxPacketSize + 9 ∧
      P.packetInfo = { context, protocolId, prefixBytes := 1 } := by
  simp only [PacketProcessor.new, Except.bind_eq_ok_iff, require_eq_ok, Except.pure_eq_ok_iff] at h
  obtain ⟨-, hmod, -, hle, buffer, hbuffer, rfl⟩ := h
  have hsize : int32 (maxPacketSize + PacketProcessor.maxPrefixBytes) = maxPacketSize + 9 :=
    @int32_eq (maxPacketSize + 9) ⟨by omega, by omega⟩
  rw [hsize, PacketProcessor.newArray, if_pos (by omega)] at hbuffer
  obtain rfl := Except.ok.inj hbuffer
  have hround : PacketProcessor.roundUp maxPacketSize ≤ maxPacketSize + 3 := by
    rw [PacketProcessor.roundUp, tmod_eq 4 h0]
    split
    · rw [int32_eq ⟨by omega, by omega⟩]
      omega
    · rw [int32_eq ⟨by omega, by omega⟩]
      omega
  have hlen : ((uninitArray memory (maxPacketSize + 9).toNat).length : Int) = maxPacketSize + 9 := by
    rw [length_uninitArray]
    omega
  rw [tmod_eq 4 (by omega)] at hmod
  refine ⟨hmod, hle, ?_, hlen, rfl⟩
  change PacketProcessor.roundUp maxPacketSize ≤ ((uninitArray memory _).length : Int)
  omega

/-- A new interface on a working socket is ready, for packets of the rounded size. -/
theorem new_ready {released : Nat → Bool} {memory : Nat → U8} {socket : Socket}
    (hsocket : socket.Working)
    (hidle : socket.incoming = .empty) {maxPacketSize sendQueueSize receiveQueueSize : Int}
    (h24 : 24 ≤ maxPacketSize) (hint : 8 * (maxPacketSize + 9) < 2147483648)
    (h : new f released memory protocolId socket maxPacketSize sendQueueSize receiveQueueSize =
      .ok si) :
    Roomy si.getMaxPacketSize.toNat ∧
      si.Ready protocolId si.getMaxPacketSize.toNat packetAt := by
  simp only [new, Except.bind_eq_ok_iff, require_eq_ok, Except.pure_eq_ok_iff] at h
  obtain ⟨-, -, -, -, -, -, P, hnew, -, -, rfl⟩ := h
  obtain ⟨hmod, hle, hbuffer, hlen, hinfo⟩ := new_sizes (by omega) (by omega) hnew
  change Roomy P.maxPacketSize.toNat ∧ Ready protocolId P.maxPacketSize.toNat packetAt _
  refine ⟨⟨by omega, by omega, by omega⟩, hsocket, hinfo, ?_, ⟨?_, ?_⟩, ?_, ?_, ?_⟩
  · change P.maxPacketSize = (P.maxPacketSize.toNat : Int)
    omega
  · change P.maxPacketSize.toNat ≤ P.packetBuffer.length
    omega
  · change 8 * P.packetBuffer.length < 2147483648
    omega
  · exact fun e he => absurd he List.not_mem_nil
  · exact fun e he => absurd he List.not_mem_nil
  · intro source bytes hmem
    rw [hidle] at hmem
    exact absurd hmem List.not_mem_nil

end SocketInterface

end RudpNetwork
