import RudpNetwork.Lib.Channel
import RudpNetwork.Exchange

/-!
# RudpNetwork.InOrder

What goes from one peer to another over a network that keeps the order of the
datagrams.

The network may still lose datagrams and mix in others that are spoiled.  Then what is
returned from a peer is a part of what it was told to send, in the same order and once
each (`returned_inOrder`).  If it loses nothing either, it is all of it, as soon as
nothing is under way any more (`returned_once`).

## Main results

* `returned_inOrder` — a lossy channel: a part of what was sent, in order.
* `returned_once` — a channel that loses nothing: all of it.
-/

namespace RudpNetwork

open SocketInterface

variable {ι : Type} {f : PacketFactory} {protocolId : U32} {peers : ι → Peer}

/-! ## the traffic with one address -/

namespace SocketInterface

variable {writes : List Write} {reads : List Read}

/-- The contents of the datagrams from or to an address. -/
def between (address : Address) (datagrams : List (Sockaddr × List U8)) : List (List U8) :=
  (datagrams.filter fun d => some d.1 = Socket.sockaddr address).map (·.2)

/-- What was handed to `sendto` for an address. -/
def Observed.datagramsTo (address : Address) (o : Observed) : List (List U8) :=
  between address o.si.socket.sent

/-- What arrived from an address. -/
def Observed.arrivedFrom (address : Address) (o : Observed) : List (List U8) :=
  between address (o.si.socket.incoming.accepted.filterMap (·.content))

/-- The packets that `ReceivePacket` returned with an address. -/
def Observed.returnedFrom (address : Address) (o : Observed) : List FactoryPacket :=
  (o.returned.filter fun r => r.2 = address).map (·.1)

/-- The packets that `SendPacket` was called with for an address. -/
def Observed.sentTo (packetAt : PacketPtr → FactoryPacket) (address : Address) (o : Observed) :
    List FactoryPacket :=
  (o.sends.filter fun e => e.address = address).map fun e => packetAt e.packet

/-- Different addresses have different socket addresses. -/
theorem sockaddr_inj {a b : Address} {s : Sockaddr} (ha : Socket.sockaddr a = some s)
    (hb : Socket.sockaddr b = some s) : a = b :=
  Except.ok.inj ((Socket.ofSockaddr_sockaddr ha).symm.trans (Socket.ofSockaddr_sockaddr hb))

/-- The datagrams that were written for an address. -/
theorem between_written {address : Address} (hvalid : address.isValid = true) {writes : List Write}
    (hwrites : ∀ w ∈ writes, ∃ bytes, w.bytes = some bytes) :
    between address (writes.filterMap (·.datagram)) =
      (writes.filter fun w => w.entry.address = address).map fun w => w.bytes.getD [] := by
  obtain ⟨dest, hdest⟩ := Socket.sockaddr_of_valid hvalid
  induction writes with
  | nil => rfl
  | cons w writes ih =>
      obtain ⟨bytes, hbytes⟩ := hwrites w List.mem_cons_self
      have hrest := ih fun v hv => hwrites v (List.mem_cons_of_mem _ hv)
      by_cases hto : w.entry.address = address
      · have hdatagram : w.datagram = some (dest, bytes) := by
          simp [Write.datagram, hbytes, hto, hdest]
        rw [List.filterMap_cons_some hdatagram, List.filter_cons_of_pos (by simpa using hto),
          List.map_cons, ← hrest, hbytes, between,
          List.filter_cons_of_pos (by simpa using hdest.symm)]
        rfl
      · rw [List.filter_cons_of_neg (by simpa using hto), ← hrest]
        cases hsome : Socket.sockaddr w.entry.address with
        | none =>
            have hdatagram : w.datagram = none := by simp [Write.datagram, hsome]
            rw [List.filterMap_cons_none hdatagram]
        | some other =>
            have hdatagram : w.datagram = some (other, bytes) := by
              simp [Write.datagram, hbytes, hsome]
            have hne : ¬some other = Socket.sockaddr address := fun heq =>
              hto (sockaddr_inj hsome heq.symm)
            rw [List.filterMap_cons_some hdatagram, between,
              List.filter_cons_of_neg (by simpa using hne)]
            rfl

/-- The datagrams that were taken, from an address. -/
theorem between_taken {address : Address} (hvalid : address.isValid = true) {reads : List Read}
    (hreads : ∀ r ∈ reads, Address.ofSockaddr r.source = .ok r.address) :
    between address (reads.map fun r => (r.source, r.bytes)) =
      (reads.filter fun r => r.address = address).map (·.bytes) := by
  obtain ⟨source, hsource⟩ := Socket.sockaddr_of_valid hvalid
  have hsame : ∀ r ∈ reads, (some r.source = Socket.sockaddr address ↔ r.address = address) := by
    intro r hr
    have hback := Socket.sockaddr_ofSockaddr (hreads r hr)
    constructor
    · exact fun heq => sockaddr_inj hback heq.symm
    · rintro rfl
      exact hback.symm
  rw [between, List.filter_map, List.map_map]
  refine congrArg (List.map _) (List.filter_congr fun r hr => ?_)
  exact decide_eq_decide.mpr (hsame r hr)

/-- The packet that was read. -/
def Read.packet (r : Read) : Option FactoryPacket := r.entry.map (·.packet)

/-- A read has a packet if that is its outcome. -/
theorem Read.packet_eq_some {r : Read} {p : FactoryPacket} :
    r.packet = some p ↔ r.outcome = .read p := by
  obtain ⟨source, bytes, address, outcome⟩ := r
  cases outcome with
  | overflow => exact iff_of_false nofun nofun
  | failed => exact iff_of_false nofun nofun
  | read q =>
      constructor
      · exact fun h => congrArg Outcome.read (Option.some.inj h)
      · exact fun h => congrArg some (Outcome.read.inj h)

/-- The packets that were read, from an address. -/
theorem filter_read {address : Address} (reads : List Read) :
    (((reads.filterMap (·.entry)).map fun e => (e.packet, e.address)).filter fun r =>
        r.2 = address).map (·.1) =
      (reads.filter fun r => r.address = address).filterMap (·.packet) := by
  induction reads with
  | nil => rfl
  | cons r reads ih =>
      obtain ⟨source, bytes, sender, outcome⟩ := r
      by_cases hfrom : sender = address
      · rw [List.filter_cons_of_pos (by simpa using hfrom)]
        cases outcome with
        | overflow => exact ih
        | failed => exact ih
        | read p =>
            change (((p, sender) :: _).filter fun r => r.2 = address).map (·.1) = p :: _
            rw [List.filter_cons_of_pos (by simpa using hfrom), List.map_cons, ih]
      · rw [List.filter_cons_of_neg (by simpa using hfrom), ← ih]
        cases outcome with
        | overflow => rfl
        | failed => rfl
        | read p =>
            change (((p, sender) :: _).filter fun r => r.2 = address).map (·.1) = _
            rw [List.filter_cons_of_neg (by simpa using hfrom)]

/-- What was taken arrived first. -/
theorem between_takenBefore (address : Address) (o : Observed) :
    between address o.si.taken <+: o.arrivedFrom address :=
  ((o.si.socket.incoming.delivered_isPrefix.filterMap _).filter _).map _

/-- The packets that left the send queue are among those that were sent. -/
theorem SendLedger.writes_sublist {packetAt : PacketPtr → Packet} {si : SocketInterface}
    {sends : List (PacketEntry PacketPtr)} (L : SendLedger f packetAt si sends writes) :
    (writes.map (·.entry)).Sublist sends := by
  rw [← L.delivered]
  exact si.sendQueue.delivered_isPrefix.sublist.trans L.accepted

/-- All of them are, where none is left and the queue never overflowed. -/
theorem SendLedger.writes_eq {packetAt : PacketPtr → Packet} {si : SocketInterface}
    {sends : List (PacketEntry PacketPtr)} (L : SendLedger f packetAt si sends writes)
    (hempty : si.sendQueue.items = []) (hoverflow : si.count .sendQueueOverflow = 0) :
    writes.map (·.entry) = sends := by
  have hall : si.sendQueue.accepted = sends := by
    refine L.accepted.eq_of_length ?_
    rw [L.calls, L.sent, hoverflow, Nat.add_zero]
  rw [← L.delivered, ← hall, si.sendQueue.inOrder, hempty, List.append_nil]

/-- The packets that were returned from an address are among those that were read. -/
theorem ReceiveLedger.returned_prefix {o : Observed} (L : ReceiveLedger f o.si o.returned reads)
    (address : Address) : o.returnedFrom address <+:
      (reads.filter fun r => r.address = address).filterMap (·.packet) := by
  rw [← filter_read, ← L.accepted, Observed.returnedFrom, L.returned]
  exact ((o.si.receiveQueue.delivered_isPrefix.map _).filter _).map _

/-- With an empty receive queue, what was returned is what was read. -/
theorem ReceiveLedger.returned_eq {o : Observed} (L : ReceiveLedger f o.si o.returned reads)
    (hempty : o.si.receiveQueue.items = []) (address : Address) :
    o.returnedFrom address = (reads.filter fun r => r.address = address).filterMap (·.packet) := by
  rw [← filter_read, ← L.accepted, Observed.returnedFrom, L.returned, o.si.receiveQueue.inOrder,
    hempty, List.append_nil]

/-- Where the overflows are counted. -/
theorem ReceiveLedger.no_overflow {si : SocketInterface}
    {returned : List (FactoryPacket × Address)} (L : ReceiveLedger f si returned reads)
    (hoverflow : si.count .receiveQueueOverflow = 0) : ∀ r ∈ reads, r.outcome ≠ .overflow := by
  intro r hr hover
  rw [L.overflow, List.countP_eq_zero] at hoverflow
  exact hoverflow r hr (by rw [Read.overflowed, hover])

/-- The packets of a list of entries, for an address. -/
theorem map_filter_entry (packetAt : PacketPtr → FactoryPacket) (address : Address)
    (writes : List Write) :
    (writes.filter fun w => w.entry.address = address).map (fun w => packetAt w.entry.packet) =
      ((writes.map (·.entry)).filter fun e => e.address = address).map fun e => packetAt e.packet := by
  rw [List.filter_map, List.map_map]
  rfl

end SocketInterface

/-! ## channels between peers -/

/-- What goes from peer `j` to peer `i` keeps its order; what else arrives from there is
spoiled. -/
def InOrder (lossy : Prop) (f : PacketFactory) (protocolId : U32) (peers : ι → Peer) (j i : ι)
    (c : ι → Observed) : Prop :=
  Channel lossy (fun bytes => Spoiled f protocolId (bytes.take (peers i).size))
    ((c j).datagramsTo (peers i).address) ((c i).arrivedFrom (peers j).address)

/-- All that was accepted for sending was written, all that arrived was taken, all that was
read was returned, and no queue ever overflowed. -/
structure Drained (sender receiver : Observed) : Prop where
  sendQueue : sender.si.sendQueue.items = []
  sendOverflow : sender.si.count .sendQueueOverflow = 0
  incoming : receiver.si.socket.incoming.items = []
  receiveOverflow : receiver.si.count .receiveQueueOverflow = 0
  receiveQueue : receiver.si.receiveQueue.items = []

/-- What a peer has written for another, and what the other has read from it. -/
structure Between (lossy : Prop) (f : PacketFactory) (protocolId : U32) (peers : ι → Peer)
    (j i : ι) (writes : List Write) (reads : List Read) : Prop where
  roomy : Roomy (peers i).size
  channel : Channel lossy (fun bytes => Spoiled f protocolId (bytes.take (peers i).size))
    (writes.map fun w => w.bytes.getD []) (reads.map (·.bytes))
  written : ∀ w ∈ writes, w.Faithful f protocolId (peers j).packetAt
  read : ∀ r ∈ reads, r.Faithful f protocolId (peers i).size

variable {i j : ι} {lossy : Prop} {writes : List Write} {reads : List Read}

/-- Spoiled datagrams hold no packet. -/
theorem Between.junk (h : Between lossy f protocolId peers j i writes reads) {r : Read}
    (hr : r ∈ reads) (hspoiled : Spoiled f protocolId (r.bytes.take (peers i).size)) :
    r.packet = none := by
  cases hp : r.packet with
  | none => rfl
  | some p => exact absurd (Read.packet_eq_some.mp hp) ((h.read r hr).spoiled hspoiled p)

section

variable (hf : f.getNumPacketTypes = TestPacketTypes.numTypes.value)
  (hid : protocolId ≠ 0)
include hf hid

/-- What was read of a datagram, unless the receive queue was full. -/
theorem Between.outcome (h : Between lossy f protocolId peers j i writes reads) {w : Write}
    (hw : w ∈ writes) {r : Read} (hr : r ∈ reads) (hbytes : r.bytes = w.bytes.getD []) :
    r.outcome = .read ((peers j).packetAt w.entry.packet) ∨ r.outcome = .overflow := by
  obtain ⟨hrange, bytes, hwrite, hwritten⟩ := h.written w hw
  rw [hwrite, Option.getD_some] at hbytes
  subst hbytes
  exact (h.read r hr).written hf hid h.roomy hrange hwritten

/-- What was read is a part of what was written, in order. -/
theorem Between.sublist (h : Between lossy f protocolId peers j i writes reads) :
    (reads.filterMap (·.packet)).Sublist (writes.map fun w => (peers j).packetAt w.entry.packet) := by
  refine h.channel.filterMap_sublist (fun r hr => h.junk hr) fun w hw r hr hbytes p hp => ?_
  rcases h.outcome hf hid hw hr hbytes with hread | hover
  · exact Outcome.read.inj ((Read.packet_eq_some.mp hp).symm.trans hread)
  · exact nomatch (Read.packet_eq_some.mp hp).symm.trans hover

/-- Nothing was lost, so what was read is what was written. -/
theorem Between.eq (h : Between False f protocolId peers j i writes reads)
    (hover : ∀ r ∈ reads, r.outcome ≠ .overflow) :
    reads.filterMap (·.packet) = writes.map fun w => (peers j).packetAt w.entry.packet := by
  refine h.channel.filterMap_eq (fun r hr => h.junk hr) fun w hw r hr hbytes => ?_
  exact Read.packet_eq_some.mpr ((h.outcome hf hid hw hr hbytes).resolve_right (hover r hr))

omit hf hid in
/-- The part of the ledgers that is about two peers. -/
theorem between_of_ledgers {s o : Observed} {returned : List (FactoryPacket × Address)}
    {sends : List (PacketEntry PacketPtr)} (hroomy : Roomy (peers i).size)
    (LS : SendLedger f (toPackets (peers j).packetAt) s.si sends writes)
    (hwritten : ∀ w ∈ writes, w.Faithful f protocolId (peers j).packetAt)
    (LR : ReceiveLedger f o.si returned reads)
    (hread : ∀ r ∈ reads, r.Faithful f protocolId (peers i).size)
    (hchannel : Channel lossy (fun bytes => Spoiled f protocolId (bytes.take (peers i).size))
      (s.datagramsTo (peers i).address) (between (peers j).address o.si.taken)) :
    Between lossy f protocolId peers j i (writes.filter fun w => w.entry.address = (peers i).address)
      (reads.filter fun r => r.address = (peers j).address) where
  roomy := hroomy
  channel := by
    rw [Observed.datagramsTo, LS.socket, between_written (peers i).valid
      (fun w hw => (hwritten w hw).2.imp fun _ h => h.1), LR.taken,
      between_taken (peers j).valid fun r hr => (hread r hr).address] at hchannel
    exact hchannel
  written w hw := hwritten w (List.mem_of_mem_filter hw)
  read r hr := hread r (List.mem_of_mem_filter hr)

/-- A network that keeps the order of the datagrams from one peer to another, though it may
lose some and mix others in that are spoiled, keeps the order of the packets: what the one
peer returns from the other was sent to it in this order, and is returned once for each time it
was sent. -/
theorem returned_inOrder [DecidableEq ι] {c : ι → Observed}
    (hstart : ∀ i, (peers i).Starts f protocolId (c i))
    {ms : List (ι × Call)} (hms : Run.Along (exchange f peers) (Regular f protocolId peers) ms c) :
    ∃ c', Run.run (exchange f peers) ms c = .ok c' ∧
      ∀ i j, InOrder True f protocolId peers j i c' →
        ((c' i).returnedFrom (peers j).address).Sublist
          ((c' j).sentTo (peers j).packetAt (peers i).address) := by
  obtain ⟨c', hrun, hc⟩ := exchange_sincere hf hid hstart hms
  refine ⟨c', hrun, fun i j hchannel => ?_⟩
  obtain ⟨writes, LS, hwritten⟩ := (hc j).faithful.send
  obtain ⟨reads, LR, hread⟩ := (hc i).faithful.receive
  have hbetween := between_of_ledgers (hc i).roomy LS hwritten LR hread
    (hchannel.prefix_right trivial (between_takenBefore (peers j).address (c' i)))
  have hsent := hbetween.sublist hf hid
  rw [map_filter_entry] at hsent
  exact (LR.returned_prefix (peers j).address).sublist.trans
    (hsent.trans ((LS.writes_sublist.filter _).map _))

/-- A network that loses nothing either delivers exactly what was sent, once nothing is under
way any more and no queue has overflowed. -/
theorem returned_once [DecidableEq ι] {c : ι → Observed}
    (hstart : ∀ i, (peers i).Starts f protocolId (c i))
    {ms : List (ι × Call)} (hms : Run.Along (exchange f peers) (Regular f protocolId peers) ms c) :
    ∃ c', Run.run (exchange f peers) ms c = .ok c' ∧
      ∀ i j, InOrder False f protocolId peers j i c' → Drained (c' j) (c' i) →
        (c' i).returnedFrom (peers j).address =
          (c' j).sentTo (peers j).packetAt (peers i).address := by
  obtain ⟨c', hrun, hc⟩ := exchange_sincere hf hid hstart hms
  refine ⟨c', hrun, fun i j hchannel hdrained => ?_⟩
  obtain ⟨writes, LS, hwritten⟩ := (hc j).faithful.send
  obtain ⟨reads, LR, hread⟩ := (hc i).faithful.receive
  have htaken : (c' i).arrivedFrom (peers j).address =
      between (peers j).address (c' i).si.taken := by
    rw [Observed.arrivedFrom, taken, (c' i).si.socket.incoming.inOrder, hdrained.incoming,
      List.append_nil]
  rw [InOrder, htaken] at hchannel
  have hbetween := between_of_ledgers (hc i).roomy LS hwritten LR hread hchannel
  have hover := LR.no_overflow hdrained.receiveOverflow
  rw [LR.returned_eq hdrained.receiveQueue,
    hbetween.eq hf hid fun r hr => hover r (List.mem_of_mem_filter hr), map_filter_entry,
    LS.writes_eq hdrained.sendQueue hdrained.sendOverflow, Observed.sentTo]

end

/-- The packet on its way, at its end. -/
theorem sampleExchange_drained {si : SocketInterface} (h : sampleStart = .ok si)
    {c : Bool → Observed}
    (hrun : Run.run (exchange ⟨106⟩ samplePeers) sampleExchange (fun _ => .start si) = .ok c) :
    (c true).datagramsTo (samplePeers false).address = [sampleDatagram] ∧
      (c false).arrivedFrom (samplePeers true).address = [sampleDatagram] ∧
      Drained (c true) (c false) := by
  have hsample : (do
      let si ← sampleStart
      let c ← Run.run (exchange ⟨106⟩ samplePeers) sampleExchange fun _ => .start si
      return ((c true).datagramsTo (samplePeers false).address,
        (c false).arrivedFrom (samplePeers true).address,
        [(c true).si.sendQueue.size, (c true).si.count .sendQueueOverflow,
          (c false).si.socket.incoming.size, (c false).si.count .receiveQueueOverflow,
          (c false).si.receiveQueue.size])) =
      .ok ([sampleDatagram], [sampleDatagram], [0, 0, 0, 0, 0]) := by decide +kernel
  obtain ⟨si', h', hsample⟩ := Except.bind_eq_ok_iff.mp hsample
  obtain rfl := Except.ok.inj (h.symm.trans h')
  obtain ⟨c', hrun', hsample⟩ := Except.bind_eq_ok_iff.mp hsample
  obtain rfl := Except.ok.inj (hrun.symm.trans hrun')
  simp only [Except.pure_eq_ok_iff, Prod.mk.injEq, List.cons.injEq] at hsample
  obtain ⟨hto, hfrom, hsend, hsendOverflow, hincoming, hreceiveOverflow, hreceive, -⟩ := hsample
  exact ⟨hto, hfrom, List.length_eq_zero_iff.mp hsend, hsendOverflow,
    List.length_eq_zero_iff.mp hincoming, hreceiveOverflow, List.length_eq_zero_iff.mp hreceive⟩

/-- The channel of the example lets nothing be overtaken. -/
theorem sampleExchange_inOrder (lossy : Prop) {si : SocketInterface} (h : sampleStart = .ok si)
    {c : Bool → Observed}
    (hrun : Run.run (exchange ⟨106⟩ samplePeers) sampleExchange (fun _ => .start si) = .ok c) :
    InOrder lossy ⟨106⟩ 1 samplePeers true false c := by
  obtain ⟨hto, hfrom, -⟩ := sampleExchange_drained h hrun
  rw [InOrder, hto, hfrom]
  exact .arrives .nil

/-- One packet is sent and returned, in order. -/
theorem returned_inOrder_sample :
    ∃ si c, sampleStart = .ok si ∧
      Run.run (exchange ⟨106⟩ samplePeers) sampleExchange (fun _ => .start si) = .ok c ∧
      ((c false).returnedFrom (samplePeers true).address).Sublist
        ((c true).sentTo (samplePeers true).packetAt (samplePeers false).address) := by
  obtain ⟨si, hnew⟩ : ∃ si, sampleStart = .ok si := ⟨_, rfl⟩
  obtain ⟨c, hrun, hsent⟩ := returned_inOrder rfl (by decide) (samplePeers_start hnew)
    (sampleExchange_regular hnew)
  exact ⟨si, c, hnew, hrun, hsent false true (sampleExchange_inOrder True hnew hrun)⟩

/-- The packet is returned once. -/
theorem returned_once_sample :
    ∃ si c, sampleStart = .ok si ∧
      Run.run (exchange ⟨106⟩ samplePeers) sampleExchange (fun _ => .start si) = .ok c ∧
      (c false).returnedFrom (samplePeers true).address =
        (c true).sentTo (samplePeers true).packetAt (samplePeers false).address := by
  obtain ⟨si, hnew⟩ : ∃ si, sampleStart = .ok si := ⟨_, rfl⟩
  obtain ⟨c, hrun, hsent⟩ := returned_once rfl (by decide) (samplePeers_start hnew)
    (sampleExchange_regular hnew)
  obtain ⟨-, -, hdrained⟩ := sampleExchange_drained hnew hrun
  exact ⟨si, c, hnew, hrun, hsent false true (sampleExchange_inOrder False hnew hrun) hdrained⟩

end RudpNetwork
