import RudpNetwork.Lib.Net
import RudpNetwork.FaithfulLedger

/-!
# RudpNetwork.Exchange

`SocketInterface`s that talk to each other.

Every peer owns an interface; what it hands to `sendto` is on the wire.  The network
may lose a datagram, deliver it late, twice or out of order, and it may deliver
datagrams that are `Spoiled`: this is all that `Legit` asks of what arrives.
A run of the network is `Regular` where no call takes an entry off a queue whose storage
goes along: what a program does after it has used such an entry, nothing says.

## Main results

* `exchange_sincere` — a regular run of the network completes, whatever the network does
  within its limits, and keeps the invariant of every peer.
* `returned_wasSent` — what is returned at one peer was sent by another, to it.
-/

namespace RudpNetwork

open SocketInterface

/-! ## the network -/

/-- Who takes part: at which address, with which packet objects, and packets of which
size. -/
structure Peer where
  address : Address
  packetAt : PacketPtr → FactoryPacket
  maxPacketSize : Int
  valid : address.isValid = true
  room : 24 ≤ maxPacketSize
  bits : 8 * (maxPacketSize + 9) < 2147483648

namespace Peer

/-- The size the processor works with. -/
def size (p : Peer) : Nat := (PacketProcessor.roundUp p.maxPacketSize).toNat

/-- A new interface of a peer, on a working socket. -/
inductive Starts (f : PacketFactory) (protocolId : U32) (p : Peer) : Observed → Prop
  | new {released : Nat → Bool} {memory : Nat → U8} {type : SocketType} {sys : Setup}
      {sendto : Nat → Int}
      {sendQueueSize receiveQueueSize : Int} {si : SocketInterface}
      (hsocket : (Socket.new type sys sendto).Working)
      (h : SocketInterface.new f released memory protocolId (Socket.new type sys sendto)
        p.maxPacketSize sendQueueSize receiveQueueSize = .ok si) : Starts f protocolId p (.start si)

end Peer

variable {ι : Type}

/-- One call at one of the peers. -/
def exchange [DecidableEq ι] (f : PacketFactory) (peers : ι → Peer) :
    (ι → Observed) → ι × Call → Except Fault (ι → Observed) :=
  Net.step fun i => SocketInterface.step f (toPackets (peers i).packetAt)

/-- The datagrams that a peer has sent, with where they go. -/
def traffic (o : Observed) : Set (Sockaddr × List U8) := { d | d ∈ o.si.socket.sent }

/-- What may arrive at a peer: what some peer has sent to it, or a datagram that is
spoiled where it is cut off, from anywhere. -/
inductive Legit (f : PacketFactory) (protocolId : U32) (peers : ι → Peer)
    (wire : ι → Set (Sockaddr × List U8)) (i : ι) : Received → Prop
  | sent {j : ι} {source dest : Sockaddr} {bytes : List U8}
      (hsource : Socket.sockaddr (peers j).address = some source)
      (hdest : Socket.sockaddr (peers i).address = some dest) (h : (dest, bytes) ∈ wire j) :
      Legit f protocolId peers wire i (.datagram source bytes)
  | spoiled {source : Sockaddr} {bytes : List U8} (hsource : Socket.FromInternet source)
      (h : Spoiled f protocolId (bytes.take (peers i).size)) :
      Legit f protocolId peers wire i (.datagram source bytes)
  | failed : Legit f protocolId peers wire i .failed

/-- The calls a network can make: packets in range go to valid addresses, and what
arrives is legitimate. -/
def Possible (f : PacketFactory) (protocolId : U32) (peers : ι → Peer) (c : ι → Observed) :
    ι × Call → Prop
  | (i, .sendPacket address packet _) =>
      address.isValid = true ∧ ((peers i).packetAt packet).InRange
  | (i, .arrive r) => Legit f protocolId peers (traffic ∘ c) i r
  | _ => True

/-- A call that a network can make, and that takes no storage along. -/
def Regular (f : PacketFactory) (protocolId : U32) (peers : ι → Peer) (c : ι → Observed)
    (m : ι × Call) : Prop :=
  Possible f protocolId peers c m ∧ m.2.KeepsEntries (c m.1)

/-- The invariant of one peer. -/
structure Sincere (f : PacketFactory) (protocolId : U32) (peers : ι → Peer)
    (wire : ι → Set (Sockaddr × List U8)) (i : ι) (o : Observed) : Prop where
  roomy : Roomy (peers i).size
  faithful : Faithful f protocolId (peers i).size (peers i).packetAt o
  legit : ∀ r ∈ o.si.socket.incoming.accepted, Legit f protocolId peers wire i r

variable {f : PacketFactory} {protocolId : U32} {peers : ι → Peer}
  {wire : ι → Set (Sockaddr × List U8)} {i : ι} {o : Observed}

/-- A peer that has done nothing has told no lies. -/
theorem Peer.Starts.sincere (h : (peers i).Starts f protocolId o) :
    Sincere f protocolId peers wire i o := by
  cases h with
  | @new released memory type sys sendto sendQueueSize receiveQueueSize si hsocket h =>
      obtain ⟨hroomy, hfaithful⟩ := new_faithful hsocket (peers i).room (peers i).bits h
      refine ⟨hroomy, hfaithful, fun r hr => ?_⟩
      change r ∈ si.socket.incoming.accepted at hr
      rw [(new_idle h).1, (Socket.new_idle type sys sendto).1] at hr
      exact absurd hr List.not_mem_nil

theorem Legit.mono {wire' : ι → Set (Sockaddr × List U8)} (hwire : ∀ j, wire j ⊆ wire' j)
    {r : Received} (h : Legit f protocolId peers wire i r) : Legit f protocolId peers wire' i r := by
  cases h with
  | sent hsource hdest h => exact .sent hsource hdest (hwire _ h)
  | spoiled hsource h => exact .spoiled hsource h
  | failed => exact .failed

/-- What a peer has put on the wire are packets that it was told to send. -/
theorem Sincere.sent (h : Sincere f protocolId peers wire i o) {dest : Sockaddr} {bytes : List U8}
    (hd : (dest, bytes) ∈ traffic o) :
    ∃ e ∈ o.sends, Socket.sockaddr e.address = some dest ∧ ((peers i).packetAt e.packet).InRange ∧
      Written f protocolId ((peers i).packetAt e.packet).toPacket bytes := by
  obtain ⟨writes, L, hfaithful⟩ := h.faithful.send
  change (dest, bytes) ∈ o.si.socket.sent at hd
  rw [L.socket] at hd
  obtain ⟨w, hw, hdatagram⟩ := List.mem_filterMap.mp hd
  obtain ⟨hrange, bytes', hbytes, hwritten⟩ := hfaithful w hw
  have hsends : w.entry ∈ o.sends := by
    refine L.accepted.subset (o.si.sendQueue.delivered_isPrefix.subset ?_)
    rw [L.delivered]
    exact List.mem_map_of_mem hw
  simp only [Write.datagram, hbytes, Option.bind_eq_bind, Option.bind_some,
    Option.bind_eq_some_iff, Option.pure_def, Option.some.injEq, Prod.mk.injEq] at hdatagram
  obtain ⟨dest', hdest, rfl, rfl⟩ := hdatagram
  exact ⟨w.entry, hsends, hdest, hrange, hwritten⟩

/-- What may arrive is long enough to be read. -/
theorem Legit.proper {c : ι → Observed} (hc : ∀ j, Sincere f protocolId peers (traffic ∘ c) j (c j))
    {r : Received} (h : Legit f protocolId peers (traffic ∘ c) i r) :
    (Call.arrive r).Proper (peers i).size (peers i).packetAt := by
  have hroom := (hc i).roomy.room
  cases h with
  | @sent j source dest bytes hsource hdest h =>
      obtain ⟨e, -, -, -, hwritten⟩ := (hc j).sent h
      have h5 := hwritten.length_ge
      refine ⟨Socket.fromInternet_sockaddr hsource, ?_⟩
      rw [List.length_take]
      omega
  | spoiled hsource h => exact ⟨hsource, h.1⟩
  | failed => trivial

section

variable (hf : f.getNumPacketTypes = TestPacketTypes.numTypes.value) (hid : protocolId ≠ 0)
include hf hid

/-- A regular call completes and keeps the invariant of its peer. -/
theorem Sincere.step {c : ι → Observed} (hc : ∀ j, Sincere f protocolId peers (traffic ∘ c) j (c j))
    {call : Call} (hregular : Regular f protocolId peers c (i, call)) :
    ∃ o, SocketInterface.step f (toPackets (peers i).packetAt) (c i) call = .ok o ∧
      traffic (c i) ⊆ traffic o ∧ Sincere f protocolId peers (traffic ∘ c) i o := by
  obtain ⟨hpossible, hkeeps⟩ := hregular
  have hproper : call.Proper (peers i).size (peers i).packetAt := by
    cases call with
    | sendPacket address packet sequence => exact hpossible
    | arrive r => exact Legit.proper hc hpossible
    | receivePacket | writePackets | readPackets | setContext => trivial
  obtain ⟨o, hrun, hfaithful, hsent, harrived⟩ :=
    (hc i).faithful.step hf hid (hc i).roomy hproper hkeeps
  refine ⟨o, hrun, hsent.subset, (hc i).roomy, hfaithful, fun r hr => ?_⟩
  rw [harrived] at hr
  rcases List.mem_append.mp hr with hold | hnew
  · exact (hc i).legit r hold
  · cases call with
    | arrive r' =>
        obtain rfl := List.mem_singleton.mp hnew
        exact hpossible
    | sendPacket | receivePacket | writePackets | readPackets | setContext =>
        exact absurd hnew List.not_mem_nil

/-- Every regular run of the network completes, in a state that keeps the invariant. -/
theorem exchange_sincere [DecidableEq ι] {c : ι → Observed}
    (hstart : ∀ i, (peers i).Starts f protocolId (c i))
    {ms : List (ι × Call)} (hms : Run.Along (exchange f peers) (Regular f protocolId peers) ms c) :
    ∃ c', Run.run (exchange f peers) ms c = .ok c' ∧
      ∀ i, Sincere f protocolId peers (traffic ∘ c') i (c' i) :=
  Net.run_keeps_along (J := Sincere f protocolId peers)
    (fun _ _ _ _ hwire h => { h with legit := fun r hr => (h.legit r hr).mono hwire })
    (fun _ _ _ hc hregular => Sincere.step hf hid hc hregular) (fun i => (hstart i).sincere) hms

/-- A packet that was read of a legitimate datagram was sent. -/
theorem Sincere.read {c : ι → Observed}
    (hc : ∀ j, Sincere f protocolId peers (traffic ∘ c) j (c j)) {v : Read}
    (hlegit : Legit f protocolId peers (traffic ∘ c) i (.datagram v.source v.bytes))
    (hv : v.Faithful f protocolId (peers i).size) {p : FactoryPacket} (hp : v.outcome = .read p) :
    ∃ j, v.address = (peers j).address ∧
      ∃ e ∈ (c j).sends, e.address = (peers i).address ∧ (peers j).packetAt e.packet = p := by
  cases hlegit with
  | @sent j _ dest _ hsource hdest h =>
      obtain ⟨e, he, hsend, hrange, hwritten⟩ := (hc j).sent h
      have haddress := hv.address
      rw [Socket.ofSockaddr_sockaddr hsource] at haddress
      refine ⟨j, (Except.ok.inj haddress).symm, e, he, ?_, ?_⟩
      · have hback := Socket.ofSockaddr_sockaddr hsend
        rw [Socket.ofSockaddr_sockaddr hdest] at hback
        exact (Except.ok.inj hback).symm
      · rcases hv.written hf hid (hc i).roomy hrange hwritten with hread | hover
        · exact Outcome.read.inj (hread.symm.trans hp)
        · exact nomatch hover.symm.trans hp
  | spoiled _ h => exact absurd hp (hv.spoiled h p)

omit hf hid in
/-- What was taken from the socket arrived. -/
theorem arrived_of_taken {source : Sockaddr} {bytes : List U8} (h : (source, bytes) ∈ o.si.taken) :
    .datagram source bytes ∈ o.si.socket.incoming.accepted := by
  obtain ⟨r, hr, hcontent⟩ := List.mem_filterMap.mp h
  cases r with
  | datagram source' bytes' =>
      obtain ⟨rfl, rfl⟩ := Prod.mk.inj (Option.some.inj hcontent)
      exact o.si.socket.incoming.delivered_isPrefix.subset hr
  | failed => contradiction

/-- What a peer returned, some peer has sent to it. -/
theorem Sincere.returned {c : ι → Observed}
    (hc : ∀ j, Sincere f protocolId peers (traffic ∘ c) j (c j)) {r : FactoryPacket × Address}
    (hr : r ∈ (c i).returned) : ∃ j, r.2 = (peers j).address ∧
      ∃ e ∈ (c j).sends, e.address = (peers i).address ∧ (peers j).packetAt e.packet = r.1 := by
  obtain ⟨reads, L, hfaithful⟩ := (hc i).faithful.receive
  rw [L.returned] at hr
  obtain ⟨entry, hentry, rfl⟩ := List.mem_map.mp hr
  have haccepted := (c i).si.receiveQueue.delivered_isPrefix.subset hentry
  rw [L.accepted] at haccepted
  obtain ⟨v, hv, hread⟩ := List.mem_filterMap.mp haccepted
  have htaken : (v.source, v.bytes) ∈ (c i).si.taken := by
    rw [L.taken]
    exact List.mem_map_of_mem hv
  have hlegit := (hc i).legit _ (arrived_of_taken htaken)
  obtain ⟨source, bytes, address, outcome⟩ := v
  cases outcome with
  | overflow => contradiction
  | failed => contradiction
  | read p =>
      obtain rfl := Option.some.inj hread
      exact Sincere.read hf hid hc hlegit (hfaithful _ hv) rfl

/-- Every regular run of the network completes, and what a peer returns from an address was
sent by the peer of that address, to it. -/
theorem returned_wasSent [DecidableEq ι] {c : ι → Observed}
    (hstart : ∀ i, (peers i).Starts f protocolId (c i))
    {ms : List (ι × Call)} (hms : Run.Along (exchange f peers) (Regular f protocolId peers) ms c) :
    ∃ c', Run.run (exchange f peers) ms c = .ok c' ∧
      ∀ i, ∀ r ∈ (c' i).returned, ∃ j, r.2 = (peers j).address ∧
        ∃ e ∈ (c' j).sends, e.address = (peers i).address ∧ (peers j).packetAt e.packet = r.1 := by
  obtain ⟨c', hrun, hc⟩ := exchange_sincere hf hid hstart hms
  exact ⟨c', hrun, fun i r hr => Sincere.returned hf hid hc hr⟩

end

/-! ## a packet on its way -/

/-- Two peers on one host. -/
def samplePeers (b : Bool) : Peer where
  address := .ipv4 0x0100007f (if b then 0x0800 else 0x0900)
  packetAt _ := .testPacketA .new
  maxPacketSize := 24
  valid := rfl
  room := by decide
  bits := by decide

/-- The interface both start with. -/
def sampleStart : Except Fault SocketInterface :=
  new ⟨106⟩ (endsBlock 12) (fun _ => 0) 1 (Socket.new .ipv4 ⟨3, 0, 0, 0⟩ fun _ => 8) 24 1 1

/-- What a `TestPacketA` is written as. -/
def sampleDatagram : List U8 := [0x00, 0xe1, 0x9d, 0x64, 0xce, 0x80, 0x65, 0x85]

/-- One peer sends a packet, which the other returns. -/
def sampleExchange : List (Bool × Call) :=
  [(true, .sendPacket (.ipv4 0x0100007f 0x0900) 0 0), (true, .writePackets),
    (false, .arrive (.datagram (.inet 0x0100007f 0x0008) sampleDatagram)),
    (false, .readPackets (fun _ => 0) fun _ => ⟨0, 0, 0, 0⟩), (false, .receivePacket .clear)]

/-- Both peers of the example start from the same new interface. -/
theorem samplePeers_start {si : SocketInterface} (h : sampleStart = .ok si) (b : Bool) :
    (samplePeers b).Starts ⟨106⟩ 1 (.start si) :=
  .new (Socket.new_working (by decide) rfl (by decide) (by decide)) h

/-- The datagram arrives after it was sent. -/
theorem sampleExchange_possible {si : SocketInterface} (h : sampleStart = .ok si) :
    Run.Along (exchange ⟨106⟩ samplePeers) (Possible ⟨106⟩ 1 samplePeers) sampleExchange
      fun _ => .start si := by
  have hwritten : (do
      let si ← sampleStart
      let c ← Run.run (exchange ⟨106⟩ samplePeers) (sampleExchange.take 2) fun _ => .start si
      return (c true).si.socket.sent) = .ok [(.inet 0x0100007f 0x0009, sampleDatagram)] := by
    decide +kernel
  have hrange : TestPacketA.new.InRange := by
    unfold TestPacketA.InRange
    decide
  refine ⟨⟨rfl, hrange⟩, fun c₁ h1 => ⟨trivial, fun c₂ h2 => ⟨?_, fun _ _ => ⟨trivial, fun _ _ =>
    ⟨trivial, fun _ _ => trivial⟩⟩⟩⟩⟩
  obtain ⟨si', h', hwritten⟩ := Except.bind_eq_ok_iff.mp hwritten
  obtain rfl := Except.ok.inj (h.symm.trans h')
  obtain ⟨c, hrun, hsent⟩ := Except.bind_eq_ok_iff.mp hwritten
  have hrun' : Run.run (exchange ⟨106⟩ samplePeers) (sampleExchange.take 2) (fun _ => .start si) =
      .ok c₂ := Run.run_cons_eq_ok.mpr ⟨c₁, h1, Run.run_cons_eq_ok.mpr ⟨c₂, h2, rfl⟩⟩
  obtain rfl := Except.ok.inj (hrun.symm.trans hrun')
  refine @Legit.sent _ _ _ _ _ _ true _ (.inet 0x0100007f 0x0009) _ (by decide) (by decide) ?_
  change _ ∈ (c true).si.socket.sent
  rw [Except.pure_eq_ok_iff.mp hsent]
  exact List.mem_singleton_self _

/-- A call that completes took no storage along. -/
theorem exchange_keepsEntries [DecidableEq ι] {c c' : ι → Observed} {m : ι × Call}
    (h : exchange f peers c m = .ok c') : m.2.KeepsEntries (c m.1) := by
  obtain ⟨o, hstep, -⟩ := Net.step_eq_ok.mp h
  exact step_keepsEntries hstep

/-- The example keeps to the conditions of the theorem. -/
theorem sampleExchange_regular {si : SocketInterface} (h : sampleStart = .ok si) :
    Run.Along (exchange ⟨106⟩ samplePeers) (Regular ⟨106⟩ 1 samplePeers) sampleExchange
      fun _ => .start si := by
  have hsample : (do
      let si ← sampleStart
      let _ ← Run.run (exchange ⟨106⟩ samplePeers) sampleExchange fun _ => .start si
      return ()) = .ok () := by decide +kernel
  obtain ⟨si', h', hsample⟩ := Except.bind_eq_ok_iff.mp hsample
  obtain rfl := Except.ok.inj (h.symm.trans h')
  obtain ⟨c, hrun, -⟩ := Except.bind_eq_ok_iff.mp hsample
  exact (sampleExchange_possible h).and
    (Run.along_of_run (fun _ _ _ hstep => exchange_keepsEntries hstep) hrun)

/-- One packet goes from peer `true` to peer `false`, which returns it. -/
theorem returned_wasSent_sample :
    ∃ si c, sampleStart = .ok si ∧
      Run.run (exchange ⟨106⟩ samplePeers) sampleExchange (fun _ => .start si) = .ok c ∧
      (c false).returned.length = 1 ∧
      ∀ i, ∀ r ∈ (c i).returned, ∃ j, r.2 = (samplePeers j).address ∧
        ∃ e ∈ (c j).sends, e.address = (samplePeers i).address ∧
          (samplePeers j).packetAt e.packet = r.1 := by
  have hsample : (do
      let si ← sampleStart
      let c ← Run.run (exchange ⟨106⟩ samplePeers) sampleExchange fun _ => .start si
      return (c false).returned.length) = .ok 1 := by decide +kernel
  obtain ⟨si, hnew, hsample⟩ := Except.bind_eq_ok_iff.mp hsample
  obtain ⟨c, hrun, hlen⟩ := Except.bind_eq_ok_iff.mp hsample
  obtain ⟨c', hrun', hsent⟩ := returned_wasSent rfl (by decide) (samplePeers_start hnew)
    (sampleExchange_regular hnew)
  obtain rfl := Except.ok.inj (hrun.symm.trans hrun')
  exact ⟨si, c, hnew, hrun, Except.pure_eq_ok_iff.mp hlen, hsent⟩

end RudpNetwork
