import RudpNetwork.Progress

/-!
# RudpNetwork.FaithfulLedger

The ledgers of an interface, with what their datagrams mean.

The ledgers say that every packet and every datagram is accounted for.  On an
interface that is `Ready` they say more: a datagram that was sent is the one that
`WritePacket` makes of its packet, and a datagram that was taken from the socket was
read as the packet that it encodes, or not at all if it encodes none.

## Main results

* `Faithful` — the ledger of an interface, with the meaning of its datagrams.
* `Faithful.writePackets`, `Faithful.readPackets` — the two loops complete and keep it.
* `Faithful.step` — so does every proper call that takes no storage along.
-/

namespace RudpNetwork

open MachineInt

namespace SocketInterface

/-! ## ledgers of packets -/

/-- The datagram is that of the packet. -/
def Write.Faithful (f : PacketFactory) (protocolId : U32) (packetAt : PacketPtr → FactoryPacket)
    (w : Write) : Prop :=
  (packetAt w.entry.packet).InRange ∧
    ∃ bytes, w.bytes = some bytes ∧ Written f protocolId (packetAt w.entry.packet).toPacket bytes

/-- A datagram was read as the packet that it encodes, unless the receive queue was full. -/
structure Read.Faithful (f : PacketFactory) (protocolId : U32) (size : Nat) (r : Read) : Prop where
  address : Address.ofSockaddr r.source = .ok r.address
  means : r.outcome = .overflow ∨
    ∀ p, r.outcome = .read p ↔ Encodes f (framing protocolId) p (r.bytes.take size)

/-- An interface that is ready, with the ledgers of its packets. -/
structure Faithful (f : PacketFactory) (protocolId : U32) (size : Nat)
    (packetAt : PacketPtr → FactoryPacket) (o : Observed) : Prop where
  ready : o.si.Ready protocolId size packetAt
  send : ∃ writes, SendLedger f (toPackets packetAt) o.si o.sends writes ∧
    ∀ w ∈ writes, w.Faithful f protocolId packetAt
  receive : ∃ reads, ReceiveLedger f o.si o.returned reads ∧
    ∀ r ∈ reads, r.Faithful f protocolId size

variable {f : PacketFactory} {protocolId : U32} {size : Nat}
  {packetAt : PacketPtr → FactoryPacket} {o : Observed} {si si' : SocketInterface}
  {sends : List (PacketEntry PacketPtr)} {writes : List Write}
  {returned : List (FactoryPacket × Address)} {reads : List Read}

/-- The packets that are written are the ones in the send queue. -/
theorem Writes.written_faithful (hsize : Roomy size) (h : si.Ready protocolId size packetAt)
    {entry : PacketEntry PacketPtr} {sendQueue : Fifo (PacketEntry PacketPtr)} {n : Int}
    {packetBuffer : Memory} (hpop : si.sendQueue.pop = some (entry, sendQueue))
    (hwrite : RudpNetwork.writePacket f si.packetProcessor.packetInfo (toPackets packetAt entry.packet)
      si.packetProcessor.packetBuffer si.getMaxPacketSize none = .ok (n, packetBuffer))
    (hn : 0 < n) (hmax : n ≤ si.getMaxPacketSize) :
    Write.Faithful f protocolId packetAt
      { entry, bytes := some (packetBuffer.take (sizeT (int32 (sizeT n)))) } := by
  obtain ⟨hitems, -, -⟩ := Fifo.pop_eq_some hpop
  have hbits := hsize.bits
  have hroom := hsize.room
  have hsmax : si.getMaxPacketSize = size := h.maxPacketSize
  obtain ⟨k, rfl⟩ := Int.eq_ofNat_of_zero_le (le_of_lt hn)
  have hsizeT : sizeT (int32 (sizeT (k : Int))) = k := by
    have heq := @sizeT_eq k (by omega) (by omega)
    rw [heq, int32_eq ⟨by omega, by omega⟩]
    omega
  rw [h.packetInfo, hsmax] at hwrite
  rw [hsizeT]
  exact ⟨(h.toSend entry (hitems ▸ List.mem_cons_self)).2, _, rfl, _, packetBuffer, size, k,
    ⟨hsize.words, hroom⟩, h.buffer, by omega, hwrite, rfl⟩

/-- A round of `WritePackets` on a ready interface writes the packet it takes. -/
theorem Writes.faithful (hf : f.getNumPacketTypes = TestPacketTypes.numTypes.value)
    (hid : protocolId ≠ 0) (hsize : Roomy size) {again : Bool}
    (hwrites : Writes f (toPackets packetAt) si again si') (h : si.Ready protocolId size packetAt)
    (L : SendLedger f (toPackets packetAt) si sends writes)
    (hfaithful : ∀ w ∈ writes, w.Faithful f protocolId packetAt) :
    ∃ writes, SendLedger f (toPackets packetAt) si' sends writes ∧
      ∀ w ∈ writes, w.Faithful f protocolId packetAt := by
  cases hwrites with
  | idle => exact ⟨writes, L, hfaithful⟩
  | failed hpop hwrite hn =>
      have hpos := (h.written_pop hf hid hsize hpop hwrite).1
      omega
  | @written entry sendQueue n packetBuffer dest hpop hwrite hn hmax hdest =>
      have hnew := Writes.written_faithful hsize h hpop hwrite hn hmax
      obtain ⟨bytes, hbytes⟩ : ∃ bytes, bytes = packetBuffer.take (sizeT (int32 (sizeT n))) :=
        ⟨_, rfl⟩
      rw [← hbytes] at hnew
      refine ⟨writes ++ [{ entry, bytes := some bytes }],
        L.append hpop ⟨rfl, rfl⟩ rfl rfl ?_ rfl rfl rfl ?_, fun w hw => ?_⟩
      · change si.socket.sent ++ [(dest, packetBuffer.take _)] = _
        simp [Write.datagram, hdest, hbytes]
      · exact ⟨_, n, packetBuffer, hwrite, hn, hmax, hbytes⟩
      · rcases List.mem_append.mp hw with hold | hlast
        · exact hfaithful w hold
        · obtain rfl := List.mem_singleton.mp hlast
          exact hnew

/-- A written datagram was read as its packet. -/
theorem Read.Faithful.written (hf : f.getNumPacketTypes = TestPacketTypes.numTypes.value)
    (hid : protocolId ≠ 0) (hsize : Roomy size) {r : Read} (hr : r.Faithful f protocolId size)
    {p : FactoryPacket} (hp : p.InRange) (h : Written f protocolId p.toPacket r.bytes) :
    r.outcome = .read p ∨ r.outcome = .overflow := by
  obtain ⟨hlen, hencodes⟩ := h.encodes hf hid hp
  have hsum := p.fieldBits_sum_le
  have hroom := hsize.room
  rw [← List.take_of_length_le (show r.bytes.length ≤ size by omega)] at hencodes
  exact hr.means.symm.imp (fun hmeans => (hmeans p).mpr hencodes) id

/-- A spoiled datagram was not read. -/
theorem Read.Faithful.spoiled {r : Read} (hr : r.Faithful f protocolId size)
    (h : Spoiled f protocolId (r.bytes.take size)) (p : FactoryPacket) : r.outcome ≠ .read p := by
  rcases hr.means with hover | hmeans
  · exact fun hread => Outcome.noConfusion (hover.symm.trans hread)
  · exact fun hread => h.2 p ((hmeans p).mp hread)

/-- What `ReadPacket` makes of a datagram that lies cut off at the start of a buffer of
the packet size. -/
theorem read_faithful (hf : f.getNumPacketTypes = TestPacketTypes.numTypes.value)
    (hid : protocolId ≠ 0) (hsize : Roomy size) {bytes : List U8} (h5 : 5 ≤ (bytes.take size).length)
    {data : Memory} (hdata : data.length = size)
    (htake : data.take (bytes.take size).length = bytes.take size) {uninit : Uninit}
    {packet : Option FactoryPacket} {r : ReadResult Unit}
    (hread : RudpNetwork.readPacket f uninit (framing protocolId) data (bytes.take size).length
      (none : Option (ObjectClass Unit)) () = .ok (packet, r)) (p : FactoryPacket) :
    packet = some p ↔ Encodes f (framing protocolId) p (bytes.take size) := by
  have hwords := hsize.words
  have hroom := hsize.room
  have hbits := hsize.bits
  have hnum : f.getNumPacketTypes = 106 := hf
  have hlen := List.length_take_le size bytes
  have hint : IsInt32 f.getNumPacketTypes := ⟨by omega, by omega⟩
  have hslot : (1 : Int) + 4 ≤ (bytes.take size).length := by omega
  constructor
  · rintro rfl
    have hencodes : Encodes f (framing protocolId) p _ :=
      Encodes.of_returned hint hid Int.one_nonneg
        (show 8 * (1 : Int).toNat + 192 < 2147483648 by decide) (by omega) (fun _ => hslot)
        (by omega) hread
    rwa [htake] at hencodes
  · intro h
    rw [← htake] at h
    have hread' :=
      readPacket_encoded hint (by omega) hid Int.one_nonneg uninit (by omega) (by omega) h ()
    exact (Prod.mk.inj (Except.ok.inj (hread.symm.trans hread'))).1

/-- Nothing was received. -/
theorem Reads.eq_of_zero {address : Address} {data : Memory} {again : Bool}
    (h : Reads f si 0 address data again si') : si' = si := by
  cases h with
  | idle => rfl
  | overflow hn | failed hn | read hn => exact absurd hn (lt_irrefl 0)

/-- A datagram that is taken from the socket of a ready interface is read for what it
is. -/
theorem Reads.faithful (hf : f.getNumPacketTypes = TestPacketTypes.numTypes.value)
    (hid : protocolId ≠ 0) (hsize : Roomy size) {n : Int} {address : Address}
    {buffer data : Memory} {socket : Socket} {again : Bool}
    (hreceives : Socket.Receives si.socket .clear buffer size n address data socket)
    (hreads : Reads f { si with socket } n address data again si')
    (h : si.Ready protocolId size packetAt) (hbuffer : buffer.length = size)
    (L : ReceiveLedger f si returned reads) (hfaithful : ∀ r ∈ reads, r.Faithful f protocolId size) :
    ∃ reads, ReceiveLedger f si' returned reads ∧ ∀ r ∈ reads, r.Faithful f protocolId size := by
  have hmax : si.getMaxPacketSize = size := h.maxPacketSize
  have hroom := hsize.room
  cases hreceives with
  | idle =>
      obtain rfl := hreads.eq_of_zero
      exact ⟨reads, L, hfaithful⟩
  | failed hpop =>
      obtain rfl := hreads.eq_of_zero
      refine ⟨reads, { L with taken := ?_, pending := L.pending_pop hpop }, hfaithful⟩
      exact (taken_pop hpop).trans ((List.append_nil _).trans L.taken)
  | @empty source bytes _ hpop hempty =>
      obtain ⟨hitems, -, -⟩ := Fifo.pop_eq_some hpop
      obtain ⟨-, h5⟩ := h.toReceive source bytes (hitems ▸ List.mem_cons_self)
      rw [Int.toNat_natCast] at hempty
      rw [hempty, List.length_nil] at h5
      omega
  | @datagram source bytes incoming _ _ k hpop haddress hk hn htake hlen =>
      have htaken := taken_pop hpop
      have hpending := L.pending_pop hpop
      have hbound := L.bound
      have hlimit : si.getMaxPacketSize.toNat = size := by omega
      rw [Int.toNat_natCast] at hn htake
      rw [hn] at htake
      have hconcat : ∀ r : Read, r.Faithful f protocolId size →
          ∀ v ∈ reads ++ [r], v.Faithful f protocolId size := by
        intro r hr v hv
        rcases List.mem_append.mp hv with hold | hnew
        · exact hfaithful v hold
        · exact List.mem_singleton.mp hnew ▸ hr
      have h5 := (h.toReceive source bytes ((Fifo.pop_eq_some hpop).1 ▸ List.mem_cons_self)).2
      have hmeans : ∀ {uninit : Uninit} {packet : Option FactoryPacket} {r : ReadResult Unit},
          RudpNetwork.readPacket f uninit si.packetProcessor.packetInfo data k
            (none : Option (ObjectClass Unit)) () = .ok (packet, r) →
          ∀ p, packet = some p ↔ Encodes f (framing protocolId) p (bytes.take size) := by
        intro uninit packet r hread
        rw [h.packetInfo, hn] at hread
        exact read_faithful hf hid hsize h5 (hlen.trans hbuffer) htake hread
      cases hreads with
      | idle hzero => omega
      | overflow =>
          exact ⟨_, L.append (r := ⟨source, bytes, address, .overflow⟩)
            htaken (List.append_nil _).symm rfl rfl rfl rfl rfl rfl rfl
              ⟨haddress, trivial⟩ hbound hpending, hconcat _ ⟨haddress, .inl rfl⟩⟩
      | @failed uninit r _ hroom hread =>
          have hnone := hmeans hread
          rw [hn, ← hlimit] at hread
          refine ⟨_, L.append (r := ⟨source, bytes, address, .failed⟩)
            htaken (List.append_nil _).symm rfl rfl rfl rfl rfl rfl rfl
              ⟨haddress, uninit, data, r, hlimit ▸ htake, hread⟩ hbound hpending,
            hconcat _ ⟨haddress, .inr fun p => ?_⟩⟩
          rw [← hnone p]
          exact iff_of_false Outcome.noConfusion (Option.some_ne_none p).symm
      | @read uninit packet r _ hroom hread =>
          have hsome := hmeans hread
          rw [hn, ← hlimit] at hread
          refine ⟨_, L.append (r := ⟨source, bytes, address, .read packet⟩)
            htaken rfl rfl rfl rfl rfl rfl rfl rfl
              ⟨haddress, uninit, data, r, hlimit ▸ htake, hread⟩ ?_ hpending,
            hconcat _ ⟨haddress, .inr fun p => ?_⟩⟩
          · change (si.receiveQueue.push _).size ≤ sizeT si.receiveQueueSize
            change si.receiveQueue.size ≠ sizeT si.receiveQueueSize at hroom
            rw [Fifo.size_push]
            omega
          · rw [← hsome p, Option.some_inj]
            exact ⟨Outcome.read.inj, congrArg Outcome.read⟩

/-! ## calls -/

/-- Nothing arrived, and nothing that was sent is undone. -/
structure Quiet (si si' : SocketInterface) : Prop where
  sent : si.socket.sent <+: si'.socket.sent
  arrived : si'.socket.incoming.accepted = si.socket.incoming.accepted

theorem Quiet.refl (si : SocketInterface) : Quiet si si := ⟨List.prefix_refl _, rfl⟩

theorem Quiet.trans {si₁ si₂ si₃ : SocketInterface} (h : Quiet si₁ si₂) (h' : Quiet si₂ si₃) :
    Quiet si₁ si₃ :=
  ⟨h.sent.trans h'.sent, h'.arrived.trans h.arrived⟩

/-- A round of `WritePackets` sends one datagram at most and takes none. -/
theorem Writes.quiet {packetAt : PacketPtr → Packet} {again : Bool}
    (h : Writes f packetAt si again si') : Quiet si si' := by
  cases h with
  | idle => exact .refl si
  | failed => exact ⟨List.prefix_refl _, rfl⟩
  | written => exact ⟨List.prefix_append _ _, rfl⟩

/-- A round of `ReadPackets` sends nothing. -/
theorem Reads.quiet {n maxPacketSize : Int} {address : Address} {buffer data : Memory}
    {socket : Socket} {again : Bool}
    (hreceives : Socket.Receives si.socket .clear buffer maxPacketSize n address data socket)
    (hreads : Reads f { si with socket } n address data again si') : Quiet si si' := by
  have hsocket : Quiet si { si with socket } := by
    cases hreceives with
    | idle => exact .refl si
    | failed hpop | empty hpop | datagram hpop =>
        exact ⟨List.prefix_refl _, (Fifo.pop_eq_some hpop).2.1⟩
  cases hreads <;> exact hsocket.trans ⟨List.prefix_refl _, rfl⟩

/-- A round of `WritePackets` whose front entry is still there completes and stays faithful. -/
theorem Faithful.writeNext (hf : f.getNumPacketTypes = TestPacketTypes.numTypes.value)
    (hid : protocolId ≠ 0) (hsize : Roomy size)
    (h : Faithful f protocolId size packetAt { o with si })
    (hkeeps : ∀ n ∈ si.sendQueue.numbers, si.released n = false) :
    ∃ again si', SocketInterface.writeNext f (toPackets packetAt) si = .ok (again, si') ∧
      Faithful f protocolId size packetAt { o with si := si' } ∧ Quiet si si' ∧
        ∀ n ∈ si'.sendQueue.numbers, si'.released n = false := by
  obtain ⟨⟨again, si'⟩, hround⟩ := h.ready.writeNext hf hid hsize hkeeps
  have hwrites := writeNext_cases hround
  obtain ⟨writes, LS, hwritten⟩ := h.send
  obtain ⟨reads, LR, hread⟩ := h.receive
  exact ⟨again, si', hround, ⟨hwrites.ready hf hid hsize h.ready,
    hwrites.faithful hf hid hsize h.ready LS hwritten, reads, hwrites.receiveLedger LR, hread⟩,
    hwrites.quiet, hwrites.keeps hkeeps⟩

/-- A round of `ReadPackets` completes and stays faithful. -/
theorem Faithful.readNext (hf : f.getNumPacketTypes = TestPacketTypes.numTypes.value)
    (hid : protocolId ≠ 0) (hsize : Roomy size)
    (h : Faithful f protocolId size packetAt { o with si }) (uninit : Nat → Uninit)
    {buffer : Memory} (hbuffer : buffer.length = size) :
    ∃ again si' data, SocketInterface.readNext f uninit size (si, buffer) = .ok (again, si', data) ∧
      (Faithful f protocolId size packetAt { o with si := si' } ∧ Quiet si si') ∧
        data.length = size := by
  obtain ⟨again, si', data, hround, hready, hdata⟩ :=
    readNext_ready hf hid hsize h.ready uninit hbuffer
  obtain ⟨n, address, socket, -, hreceives, hreads⟩ := readNext_cases hround
  obtain ⟨writes, LS, hwritten⟩ := h.send
  obtain ⟨reads, LR, hread⟩ := h.receive
  exact ⟨again, si', data, hround, ⟨⟨hready, ⟨writes, Reads.sendLedger hreceives hreads LS, hwritten⟩,
    hreads.faithful hf hid hsize hreceives h.ready hbuffer LR hread⟩, hreads.quiet hreceives⟩, hdata⟩

/-- What is asked of a call: packets to be sent are in range and have a valid
destination, and datagrams are no shorter than a prefix and a checksum. -/
def Call.Proper (size : Nat) (packetAt : PacketPtr → FactoryPacket) : Call → Prop
  | .sendPacket address packet _ => address.isValid = true ∧ (packetAt packet).InRange
  | .arrive (.datagram source bytes) => Socket.FromInternet source ∧ 5 ≤ (bytes.take size).length
  | _ => True

/-- What arrives by a call. -/
def Call.arrivals : Call → List Received
  | .arrive r => [r]
  | _ => []

/-- `SendPacket` appends to the ledger of what was sent. -/
theorem Faithful.sendPacket (h : Faithful f protocolId size packetAt o) {address : Address}
    {packet : PacketPtr} {sequence : U64} (hsend : Sends o.si { sequence, address, packet } si)
    (hready : si.Ready protocolId size packetAt) :
    Faithful f protocolId size packetAt
        { o with si, sends := o.sends ++ [{ sequence, address, packet }] } ∧ Quiet o.si si := by
  obtain ⟨writes, LS, hwritten⟩ := h.send
  obtain ⟨reads, LR, hread⟩ := h.receive
  refine ⟨⟨hready, ⟨writes, hsend.sendLedger h.ready.working LS, hwritten⟩, reads,
    hsend.receiveLedger LR, hread⟩, ?_⟩
  cases hsend <;> exact ⟨List.prefix_refl _, rfl⟩

/-- `ReceivePacket` appends to the ledger of what was returned. -/
theorem Faithful.receivePacket (h : Faithful f protocolId size packetAt o) {sender sender' : Address}
    {packet : Option FactoryPacket} (hreturn : Returns o.si sender packet sender' si)
    (hready : si.Ready protocolId size packetAt) :
    Faithful f protocolId size packetAt
        { o with si, returned := o.returned ++ (packet.map fun p => (p, sender')).toList } ∧
      Quiet o.si si := by
  obtain ⟨writes, LS, hwritten⟩ := h.send
  obtain ⟨reads, LR, hread⟩ := h.receive
  refine ⟨⟨hready, ⟨writes, hreturn.sendLedger LS, hwritten⟩, reads, hreturn.receiveLedger LR,
    hread⟩, ?_⟩
  cases hreturn <;> exact ⟨List.prefix_refl _, rfl⟩

/-- All rounds of `WritePackets`, for a queue whose entries are still there when they are
popped. -/
theorem Faithful.writePackets (hf : f.getNumPacketTypes = TestPacketTypes.numTypes.value)
    (hid : protocolId ≠ 0) (hsize : Roomy size) (h : Faithful f protocolId size packetAt o)
    (hkeeps : ∀ n ∈ o.si.sendQueue.numbers, o.si.released n = false) :
    ∃ si, o.si.writePackets f (toPackets packetAt) = .ok si ∧
      Faithful f protocolId size packetAt { o with si } ∧ Quiet o.si si := by
  have hround : ∀ s, (Faithful f protocolId size packetAt { o with si := s } ∧ Quiet o.si s) ∧
      (∀ n ∈ s.sendQueue.numbers, s.released n = false) →
      ∃ again s', SocketInterface.writeNext f (toPackets packetAt) s = .ok (again, s') ∧
        (Faithful f protocolId size packetAt { o with si := s' } ∧ Quiet o.si s') ∧
          ∀ n ∈ s'.sendQueue.numbers, s'.released n = false := by
    rintro s ⟨⟨hs, hquiet⟩, hkept⟩
    obtain ⟨again, s', hrun, hs', hquiet', hkept'⟩ := hs.writeNext hf hid hsize hkept
    exact ⟨again, s', hrun, ⟨hs', hquiet.trans hquiet'⟩, hkept'⟩
  obtain ⟨si, hrun, hfaithful, -⟩ :=
    Loop.loop_keeps hround (o.si.sendQueue.size + 1) ⟨⟨h, .refl o.si⟩, hkeeps⟩
  exact ⟨si, hrun, hfaithful⟩

/-- All rounds of `ReadPackets`. -/
theorem Faithful.readPackets (hf : f.getNumPacketTypes = TestPacketTypes.numTypes.value)
    (hid : protocolId ≠ 0) (hsize : Roomy size) (h : Faithful f protocolId size packetAt o)
    (memory : Nat → U8) (uninit : Nat → Uninit) :
    ∃ si, o.si.readPackets f memory uninit = .ok si ∧
      Faithful f protocolId size packetAt { o with si } ∧ Quiet o.si si := by
  have hmax : o.si.getMaxPacketSize = size := h.ready.maxPacketSize
  refine readPackets_keeps (I := fun s => Faithful f protocolId size packetAt { o with si := s } ∧
    Quiet o.si s) hmax (fun s buffer hs hbuffer => ?_) memory ⟨h, .refl o.si⟩
  obtain ⟨again, s', data, hround, ⟨hs', hquiet⟩, hdata⟩ :=
    hs.1.readNext hf hid hsize uninit hbuffer
  exact ⟨again, s', data, hround, ⟨hs', hs.2.trans hquiet⟩, hdata⟩

/-- A datagram that arrives waits in the socket. -/
theorem Faithful.arrive (h : Faithful f protocolId size packetAt o) {r : Received}
    (hr : (Call.arrive r).Proper size packetAt) :
    Faithful f protocolId size packetAt { o with si := o.si.arrive r } := by
  obtain ⟨writes, LS, hwritten⟩ := h.send
  obtain ⟨reads, LR, hread⟩ := h.receive
  have hproper : ∀ source bytes, r = .datagram source bytes →
      Socket.FromInternet source ∧ 5 ≤ (bytes.take size).length := by
    rintro source bytes rfl
    exact hr
  refine ⟨arrive_ready h.ready hproper, ⟨writes, { LS with }, hwritten⟩, reads,
    { LR with pending := ?_ }, hread⟩
  intro source bytes hmem
  rcases List.mem_append.mp hmem with hold | hnew
  · exact LR.pending source bytes hold
  · obtain ⟨-, h5⟩ := hproper source bytes (List.mem_singleton.mp hnew).symm
    exact h5.trans (List.length_take_le' size bytes)

/-- A proper call that takes no storage along completes, and the ledgers still hold. -/
theorem Faithful.step (hf : f.getNumPacketTypes = TestPacketTypes.numTypes.value)
    (hid : protocolId ≠ 0) (hsize : Roomy size) (h : Faithful f protocolId size packetAt o)
    {c : Call} (hc : c.Proper size packetAt) (hkeeps : c.KeepsEntries o) :
    ∃ o', SocketInterface.step f (toPackets packetAt) o c = .ok o' ∧
      Faithful f protocolId size packetAt o' ∧ o.si.socket.sent <+: o'.si.socket.sent ∧
        o'.si.socket.incoming.accepted = o.si.socket.incoming.accepted ++ c.arrivals := by
  have hquiet : ∀ {si}, Quiet o.si si → o.si.socket.sent <+: si.socket.sent ∧
      si.socket.incoming.accepted = o.si.socket.incoming.accepted ++ [] :=
    fun hq => ⟨hq.sent, hq.arrived.trans (List.append_nil _).symm⟩
  cases c with
  | sendPacket address packet sequence =>
      obtain ⟨si, hrun, hready⟩ := sendPacket_ready h.ready hc.1 hc.2 sequence
      obtain ⟨hfaithful, hq⟩ := h.sendPacket (sendPacket_cases hrun) hready
      exact ⟨_, Except.bind_eq_ok_iff.mpr ⟨si, hrun, rfl⟩, hfaithful, hquiet hq⟩
  | receivePacket sender =>
      obtain ⟨packet, sender', si, hrun, hready⟩ := receivePacket_ready h.ready
        (hkeeps h.ready.noError) sender
      obtain ⟨hfaithful, hq⟩ := h.receivePacket (receivePacket_cases hrun) hready
      exact ⟨_, Except.bind_eq_ok_iff.mpr ⟨_, hrun, rfl⟩, hfaithful, hquiet hq⟩
  | writePackets =>
      obtain ⟨si, hrun, hfaithful, hq⟩ := h.writePackets hf hid hsize hkeeps
      exact ⟨_, Except.bind_eq_ok_iff.mpr ⟨si, hrun, rfl⟩, hfaithful, hquiet hq⟩
  | readPackets memory uninit =>
      obtain ⟨si, hrun, hfaithful, hq⟩ := h.readPackets hf hid hsize memory uninit
      exact ⟨_, Except.bind_eq_ok_iff.mpr ⟨si, hrun, rfl⟩, hfaithful, hquiet hq⟩
  | setContext context =>
      obtain ⟨writes, LS, hwritten⟩ := h.send
      obtain ⟨reads, LR, hread⟩ := h.receive
      exact ⟨_, rfl, ⟨{ h.ready with }, ⟨writes, { LS with }, hwritten⟩, reads, { LR with }, hread⟩,
        List.prefix_refl _, (List.append_nil _).symm⟩
  | arrive r => exact ⟨_, rfl, h.arrive hc, List.prefix_refl _, rfl⟩

/-- A new interface has sent and received nothing. -/
theorem new_idle {released : Nat → Bool} {memory : Nat → U8} {socket : Socket}
    {maxPacketSize sendQueueSize receiveQueueSize : Int}
    (h : new f released memory protocolId socket maxPacketSize sendQueueSize receiveQueueSize =
      .ok si) :
    si.socket = socket ∧ si.sendQueue = .empty ∧
      si.getMaxPacketSize = PacketProcessor.roundUp maxPacketSize := by
  simp only [new, Except.bind_eq_ok_iff, require_eq_ok, Except.pure_eq_ok_iff] at h
  obtain ⟨-, -, -, -, -, -, P, hnew, -, -, rfl⟩ := h
  simp only [PacketProcessor.new, Except.bind_eq_ok_iff, require_eq_ok, Except.pure_eq_ok_iff] at hnew
  obtain ⟨-, -, -, -, buffer, -, rfl⟩ := hnew
  exact ⟨rfl, rfl, rfl⟩

/-- A new interface is faithful to an empty ledger. -/
theorem new_faithful {released : Nat → Bool} {memory : Nat → U8} {type : SocketType} {sys : Setup}
    {sendto : Nat → Int}
    (hsocket : (Socket.new type sys sendto).Working)
    {maxPacketSize sendQueueSize receiveQueueSize : Int} (h24 : 24 ≤ maxPacketSize)
    (hint : 8 * (maxPacketSize + 9) < 2147483648)
    (h : new f released memory protocolId (Socket.new type sys sendto) maxPacketSize sendQueueSize
      receiveQueueSize = .ok si) :
    Roomy (PacketProcessor.roundUp maxPacketSize).toNat ∧
      Faithful f protocolId (PacketProcessor.roundUp maxPacketSize).toNat packetAt (.start si) := by
  obtain ⟨hincoming, -⟩ := Socket.new_idle type sys sendto
  obtain ⟨hroomy, hready⟩ : _ ∧ si.Ready protocolId si.getMaxPacketSize.toNat packetAt :=
    new_ready hsocket hincoming h24 hint h
  obtain ⟨hsame, hqueue, hmax⟩ := new_idle h
  rw [hmax] at hroomy hready
  obtain ⟨-, hbalanced⟩ := new_balanced hsocket h (toPackets packetAt)
  obtain ⟨writes, LS⟩ := hbalanced.send
  obtain ⟨reads, LR⟩ := hbalanced.receive
  have hwrites : writes = [] := by
    have hdelivered : si.sendQueue.delivered = writes.map (·.entry) := LS.delivered
    rw [hqueue] at hdelivered
    exact List.map_eq_nil_iff.mp hdelivered.symm
  have hreads : reads = [] := by
    have htaken : si.taken = reads.map fun r => (r.source, r.bytes) := LR.taken
    rw [taken, hsame, hincoming] at htaken
    exact List.map_eq_nil_iff.mp htaken.symm
  subst hwrites hreads
  exact ⟨hroomy, hready, ⟨[], LS, fun w hw => absurd hw List.not_mem_nil⟩, [], LR,
    fun r hr => absurd hr List.not_mem_nil⟩

end SocketInterface

end RudpNetwork
