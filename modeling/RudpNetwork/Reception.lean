import RudpNetwork.Exchange
import RudpNetwork.Lib.Channel

/-!
# RudpNetwork.Reception

What an interface makes of the datagrams that arrive, whoever sent them.

The meaning of a datagram is the packet that its bytes encode and the address that it
came from; most bytes mean nothing.  The receiving half of an interface computes the
meanings of what was taken from the socket, one after the other and nothing else
(`reception_means`): what `ReceivePacket` has returned and what still waits for it are
these meanings in their order, some of them missing only where the receive queue was
full.

## Main results

* `reception_means` — in every proper run the interface has computed the meanings of what it
  took from the socket.
-/

namespace RudpNetwork

namespace SocketInterface

variable {f : PacketFactory} {protocolId : U32} {size : Nat}
  {packetAt : PacketPtr → FactoryPacket} {o : Observed}

/-! ## meanings -/

/-- A datagram means a packet from an address. -/
def Means (f : PacketFactory) (protocolId : U32) (size : Nat) (d : Sockaddr × List U8)
    (m : FactoryPacket × Address) : Prop :=
  Encodes f (framing protocolId) m.1 (d.2.take size) ∧ Address.ofSockaddr d.1 = .ok m.2

open Classical in
/-- The meaning of a datagram, if it has one. -/
noncomputable def meaning (f : PacketFactory) (protocolId : U32) (size : Nat)
    (d : Sockaddr × List U8) : Option (FactoryPacket × Address) :=
  if h : ∃ m, Means f protocolId size d m then some h.choose else none

/-- A datagram with one meaning has that meaning. -/
theorem meaning_eq_some {d : Sockaddr × List U8} {m : FactoryPacket × Address}
    (h : Means f protocolId size d m) (hunique : ∀ m', Means f protocolId size d m' → m' = m) :
    meaning f protocolId size d = some m := by
  have hsome : ∃ m, Means f protocolId size d m := ⟨m, h⟩
  rw [meaning, dif_pos hsome, hunique _ hsome.choose_spec]

/-- A datagram may mean nothing. -/
theorem meaning_eq_none {d : Sockaddr × List U8} (h : ∀ m, ¬Means f protocolId size d m) :
    meaning f protocolId size d = none :=
  dif_neg fun hsome => h _ hsome.choose_spec

/-- The packet that was returned for a datagram, with its address. -/
def Read.received (r : Read) : Option (FactoryPacket × Address) :=
  r.entry.map fun e => (e.packet, e.address)

/-- What was received of a datagram is its meaning. -/
theorem Read.Faithful.received {r : Read} (hr : r.Faithful f protocolId size)
    (hover : r.outcome ≠ .overflow) :
    r.received = meaning f protocolId size (r.source, r.bytes) := by
  have hmeans := hr.means.resolve_left hover
  have haddress := hr.address
  obtain ⟨source, bytes, address, outcome⟩ := r
  cases outcome with
  | overflow => exact absurd rfl hover
  | failed =>
      refine (meaning_eq_none fun m hm => ?_).symm
      exact Outcome.noConfusion ((hmeans m.1).mpr hm.1)
  | read p =>
      refine (@meaning_eq_some f protocolId size (source, bytes) (p, address)
        ⟨(hmeans p).mp rfl, haddress⟩ fun m hm => ?_).symm
      exact Prod.ext (Outcome.read.inj ((hmeans m.1).mpr hm.1)).symm
        (Except.ok.inj (hm.2.symm.trans haddress))

/-! ## runs -/

/-- What `ReceivePacket` has returned and what still waits for it. -/
def Observed.received (o : Observed) : List (FactoryPacket × Address) :=
  o.returned ++ o.si.receiveQueue.items.map fun e => (e.packet, e.address)

/-- What was received is what the reads have put into the queue. -/
theorem ReceiveLedger.observed {reads : List Read} (L : ReceiveLedger f o.si o.returned reads) :
    o.received = reads.filterMap (·.received) := by
  rw [Observed.received, L.returned, ← List.map_append, ← o.si.receiveQueue.inOrder, L.accepted,
    List.map_filterMap]
  rfl

/-- The receiving half computes meanings, and leaves out only those for which there was no
room. -/
structure Understands (f : PacketFactory) (protocolId : U32) (size : Nat) (o : Observed) : Prop where
  order : o.si.taken <+: o.si.socket.incoming.accepted.filterMap (·.content)
  part : o.received.Sublist (o.si.taken.filterMap (meaning f protocolId size))
  missing : (o.si.taken.filterMap (meaning f protocolId size)).length ≤
    o.received.length + o.si.count .receiveQueueOverflow

/-- Where the queue was never full, every meaning was received. -/
theorem Understands.eq_of_room (h : Understands f protocolId size o)
    (hroom : o.si.count .receiveQueueOverflow = 0) :
    o.received = o.si.taken.filterMap (meaning f protocolId size) :=
  h.part.eq_of_length_le (by have hmissing := h.missing; omega)

/-- A faithful interface understands what it takes. -/
theorem Faithful.understands (h : Faithful f protocolId size packetAt o) :
    Understands f protocolId size o := by
  obtain ⟨reads, L, hreads⟩ := h.receive
  have htaken : o.si.taken.filterMap (meaning f protocolId size) =
      reads.filterMap fun r => meaning f protocolId size (r.source, r.bytes) := by
    rw [L.taken, List.filterMap_map]
    rfl
  have hread : ∀ r ∈ reads, r.overflowed = false →
      r.received = meaning f protocolId size (r.source, r.bytes) := by
    intro r hr hroom
    refine (hreads r hr).received fun hover => ?_
    rw [Read.overflowed, hover] at hroom
    exact Bool.noConfusion hroom
  refine ⟨o.si.socket.incoming.delivered_isPrefix.filterMap _, ?_, ?_⟩
  · rw [L.observed, htaken]
    refine Channel.sublist_of_fails fun r hr => ?_
    cases hroom : r.overflowed with
    | false => exact .inr (hread r hr hroom)
    | true =>
        obtain ⟨source, bytes, address, outcome⟩ := r
        cases outcome with
        | overflow => exact .inl rfl
        | failed => exact Bool.noConfusion hroom
        | read p => exact Bool.noConfusion hroom
  · rw [L.observed, htaken, L.overflow]
    exact Channel.length_le_of_fails hread

section

variable (hf : f.getNumPacketTypes = TestPacketTypes.numTypes.value) (hid : protocolId ≠ 0)
include hf hid

/-- Proper calls that take no storage along complete, and what arrives is what was given to
them. -/
theorem Faithful.run (hsize : Roomy size) (h : Faithful f protocolId size packetAt o)
    {calls : List Call} (hcalls : ∀ c ∈ calls, c.Proper size packetAt)
    (hkeeps : Run.Along (SocketInterface.step f (toPackets packetAt)) (fun o c => c.KeepsEntries o)
      calls o) :
    ∃ o', Run.run (SocketInterface.step f (toPackets packetAt)) calls o = .ok o' ∧
      Faithful f protocolId size packetAt o' ∧
      o'.si.socket.incoming.accepted = o.si.socket.incoming.accepted ++
        calls.flatMap (·.arrivals) := by
  induction calls generalizing o with
  | nil => exact ⟨o, rfl, h, (List.append_nil _).symm⟩
  | cons c calls ih =>
      obtain ⟨o₁, hstep, h₁, -, harrived⟩ :=
        h.step hf hid hsize (hcalls c List.mem_cons_self) hkeeps.1
      obtain ⟨o', hrun, h', harrived'⟩ :=
        ih h₁ (fun d hd => hcalls d (List.mem_cons_of_mem _ hd)) (hkeeps.2 o₁ hstep)
      refine ⟨o', Run.run_cons_eq_ok.mpr ⟨o₁, hstep, hrun⟩, h', ?_⟩
      rw [harrived', harrived, List.flatMap_cons, List.append_assoc]

/-- Whatever arrives at an interface, from anyone: proper calls that take no storage along
complete, and the packets that it returns are the meanings of the datagrams in the order of
their arrival, all of them if the receive queue never was full. -/
theorem reception_means {peer : Peer} (hstart : peer.Starts f protocolId o) {calls : List Call}
    (hcalls : ∀ c ∈ calls, c.Proper peer.size peer.packetAt)
    (hkeeps : Run.Along (SocketInterface.step f (toPackets peer.packetAt))
      (fun o c => c.KeepsEntries o) calls o) :
    ∃ o', Run.run (SocketInterface.step f (toPackets peer.packetAt)) calls o = .ok o' ∧
      o'.si.socket.incoming.accepted = calls.flatMap (·.arrivals) ∧
      Understands f protocolId peer.size o' ∧
      (o'.si.count .receiveQueueOverflow = 0 →
        o'.received = o'.si.taken.filterMap (meaning f protocolId peer.size)) := by
  obtain ⟨hsize, hfaithful, hidle⟩ : Roomy peer.size ∧
      Faithful f protocolId peer.size peer.packetAt o ∧ o.si.socket.incoming.accepted = [] := by
    cases hstart with
    | @new released memory type sys sendto sendQueueSize receiveQueueSize si hsocket h =>
        obtain ⟨hsize, hfaithful⟩ := new_faithful hsocket peer.room peer.bits h
        refine ⟨hsize, hfaithful, ?_⟩
        change si.socket.incoming.accepted = []
        rw [(new_idle h).1, (Socket.new_idle type sys sendto).1]
        rfl
  obtain ⟨o', hrun, h', harrived⟩ := hfaithful.run hf hid hsize hcalls hkeeps
  rw [hidle, List.nil_append] at harrived
  have hunderstands := h'.understands
  exact ⟨o', hrun, harrived, hunderstands, hunderstands.eq_of_room⟩

end

/-- A stranger sends a packet, the same with a bit flipped, and the packet again. -/
def sampleArrivals : List Call :=
  [.arrive (.datagram (.inet 0x0200007f 0x0700) sampleDatagram),
    .arrive (.datagram (.inet 0x0200007f 0x0700) [0x00, 0xe1, 0x9d, 0x64, 0xce, 0x80, 0x64, 0x85]),
    .arrive (.datagram (.inet 0x0200007f 0x0700) sampleDatagram),
    .readPackets (fun _ => 0) (fun _ => ⟨0, 0, 0, 0⟩), .receivePacket .clear]

/-- Three datagrams, one of them altered on its way; one packet is returned so far. -/
theorem reception_means_sample :
    ∃ si o, sampleStart = .ok si ∧
      Run.run (SocketInterface.step ⟨106⟩ (toPackets (samplePeers true).packetAt)) sampleArrivals
        (.start si) = .ok o ∧
      o.returned.length = 1 ∧ Understands ⟨106⟩ 1 (samplePeers true).size o := by
  have hsample : (do
      let si ← sampleStart
      let o ← Run.run (SocketInterface.step ⟨106⟩ (toPackets (samplePeers true).packetAt))
        sampleArrivals (.start si)
      return o.returned.length) = .ok 1 := by decide +kernel
  obtain ⟨si, hnew, hsample⟩ := Except.bind_eq_ok_iff.mp hsample
  obtain ⟨o, hrun, hlen⟩ := Except.bind_eq_ok_iff.mp hsample
  have hproper : ∀ c ∈ sampleArrivals,
      c.Proper (samplePeers true).size (samplePeers true).packetAt := by
    intro c hc
    simp only [sampleArrivals, List.mem_cons, List.not_mem_nil, or_false] at hc
    rcases hc with rfl | rfl | rfl | rfl | rfl
    · exact ⟨trivial, by decide⟩
    · exact ⟨trivial, by decide⟩
    · exact ⟨trivial, by decide⟩
    · trivial
    · trivial
  obtain ⟨o', hrun', -, hunderstands, -⟩ := reception_means rfl (by decide)
    (samplePeers_start hnew true) hproper
    (Run.along_of_run (fun _ _ _ hstep => step_keepsEntries hstep) hrun)
  obtain rfl := Except.ok.inj (hrun.symm.trans hrun')
  exact ⟨si, o, hnew, hrun, Except.pure_eq_ok_iff.mp hlen, hunderstands⟩

end SocketInterface

end RudpNetwork
