import RudpNetwork.SocketInterface

/-!
# RudpNetwork.Ledger

What becomes of every packet that passes through a `SocketInterface`.

The two halves of the interface are accounted for separately.  `SendLedger`
lists what was done with the packets that left the send queue, `ReceiveLedger`
what was done with the datagrams that were taken from the socket; each says how
these lists relate to the queues and to the counters of its half.  An operation
extends the lists of its own half and leaves the other half alone.

## Main results

* `step_cases` — what a completed call of the interface has done.
* `nothingLost` — in every run that uses no popped entry, every packet and every datagram
  is accounted for.
* `not_nothingLost` — a run of thirteen packets goes on with an entry that is gone.
-/

namespace RudpNetwork

open MachineInt

namespace SocketInterface

/-! ## the sending half -/

/-- A packet that left the send queue, with the bytes that went to the socket,
`none` if it was not written. -/
structure Write where
  entry : PacketEntry PacketPtr
  bytes : Option (List U8)

/-- What `sendto` was called with for it. -/
def Write.datagram (w : Write) : Option (Sockaddr × List U8) := do
  let bytes ← w.bytes
  let dest ← Socket.sockaddr w.entry.address
  return (dest, bytes)

/-- The bytes are those of `WritePacket`. -/
def Write.Decided (f : PacketFactory) (packetAt : PacketPtr → Packet) (info : PacketInfo)
    (maxPacketSize : Int) (w : Write) : Prop :=
  ∃ buffer n data,
    writePacket f info (packetAt w.entry.packet) buffer maxPacketSize none = .ok (n, data) ∧
      match w.bytes with
      | none => n ≤ 0
      | some bytes => 0 < n ∧ n ≤ maxPacketSize ∧ bytes = data.take (sizeT (int32 (sizeT n)))

/-- The sending half, after the calls `sends` of `SendPacket`. -/
structure SendLedger (f : PacketFactory) (packetAt : PacketPtr → Packet) (si : SocketInterface)
    (sends : List (PacketEntry PacketPtr)) (writes : List Write) : Prop where
  calls : sends.length = si.count .packetsSent + si.count .sendQueueOverflow
  accepted : si.sendQueue.accepted.Sublist sends
  sent : si.count .packetsSent = si.sendQueue.accepted.length
  delivered : si.sendQueue.delivered = writes.map (·.entry)
  written : si.count .packetsWritten = writes.countP (·.bytes.isSome)
  failures : si.count .writePacketFailures = writes.countP (·.bytes.isNone)
  socket : si.socket.sent = writes.filterMap (·.datagram)
  decided : ∀ w ∈ writes, w.Decided f packetAt si.packetProcessor.packetInfo si.getMaxPacketSize
  bound : si.sendQueue.size ≤ sizeT si.sendQueueSize

/-! ## the receiving half -/

/-- What `ReadPackets` did with a datagram. -/
inductive Outcome
  | overflow
  | failed
  | read (packet : FactoryPacket)

/-- A datagram that was taken from the socket. -/
structure Read where
  source : Sockaddr
  bytes : List U8
  address : Address
  outcome : Outcome

/-- The entry it became in the receive queue. -/
def Read.entry (r : Read) : Option (PacketEntry FactoryPacket) :=
  match r.outcome with
  | .read packet => some { sequence := 0, address := r.address, packet }
  | _ => none

def Read.overflowed (r : Read) : Bool :=
  match r.outcome with
  | .overflow => true
  | _ => false

def Read.failed (r : Read) : Bool :=
  match r.outcome with
  | .failed => true
  | _ => false

/-- `ReadPacket` returned `packet` for the bytes of a datagram. -/
def ReadsAs (f : PacketFactory) (info : PacketInfo) (maxPacketSize : Int) (bytes : List U8)
    (packet : Option FactoryPacket) : Prop :=
  ∃ uninit data r, data.take (bytes.take maxPacketSize.toNat).length = bytes.take maxPacketSize.toNat ∧
    readPacket f uninit info data (bytes.take maxPacketSize.toNat).length
      (none : Option (ObjectClass Unit)) () = .ok (packet, r)

/-- The address is the sender's, and the outcome is what `ReadPacket` decided. -/
def Read.Decided (f : PacketFactory) (info : PacketInfo) (maxPacketSize : Int) (r : Read) : Prop :=
  Address.ofSockaddr r.source = .ok r.address ∧
    match r.outcome with
    | .overflow => True
    | .failed => ReadsAs f info maxPacketSize r.bytes none
    | .read packet => ReadsAs f info maxPacketSize r.bytes (some packet)

/-- The receiving half, after `ReceivePacket` has returned `returned`. -/
structure ReceiveLedger (f : PacketFactory) (si : SocketInterface)
    (returned : List (FactoryPacket × Address)) (reads : List Read) : Prop where
  taken : si.taken = reads.map fun r => (r.source, r.bytes)
  accepted : si.receiveQueue.accepted = reads.filterMap (·.entry)
  read : si.count .packetsRead = si.receiveQueue.accepted.length
  failures : si.count .readPacketFailures = reads.countP (·.failed)
  overflow : si.count .receiveQueueOverflow = reads.countP (·.overflowed)
  received : si.count .packetsReceived = si.receiveQueue.delivered.length
  returned : returned = si.receiveQueue.delivered.map fun e => (e.packet, e.address)
  decided : ∀ r ∈ reads, r.Decided f si.packetProcessor.packetInfo si.getMaxPacketSize
  bound : si.receiveQueue.size ≤ sizeT si.receiveQueueSize
  pending : ∀ source bytes, .datagram source bytes ∈ si.socket.incoming.items → 5 ≤ bytes.length

variable {f : PacketFactory} {packetAt : PacketPtr → Packet} {si si' : SocketInterface}
  {sends : List (PacketEntry PacketPtr)} {writes : List Write}
  {returned : List (FactoryPacket × Address)} {reads : List Read}

/-! ## `SendPacket` and `ReceivePacket` -/

/-- `SendPacket` appends to the packets that were handed in. -/
theorem Sends.sendLedger {entry : PacketEntry PacketPtr} (h : Sends si entry si')
    (hsock : si.socket.Working) (L : SendLedger f packetAt si sends writes) :
    SendLedger f packetAt si' (sends ++ [entry]) writes := by
  cases h with
  | refused herror =>
      have hworks : si.isError = false := by simp [isError, Socket.isError, hsock.noError]
      rw [hworks] at herror
      contradiction
  | overflow =>
      refine { L with calls := ?_, accepted := ?_ }
      · change (sends ++ [entry]).length = si.count .packetsSent + (si.count .sendQueueOverflow + 1)
        rw [List.length_append, L.calls]
        rfl
      · exact L.accepted.trans (List.sublist_append_left sends [entry])
  | queued _ hroom =>
      refine { L with calls := ?_, accepted := ?_, sent := ?_, bound := ?_ }
      · change (sends ++ [entry]).length = si.count .packetsSent + 1 + si.count .sendQueueOverflow
        rw [List.length_append, L.calls, List.length_singleton]
        omega
      · exact L.accepted.append (List.Sublist.refl [entry])
      · change si.count .packetsSent + 1 = (si.sendQueue.accepted ++ [entry]).length
        rw [List.length_append, L.sent]
        rfl
      · change (si.sendQueue.push entry).size ≤ sizeT si.sendQueueSize
        rw [Fifo.size_push]
        omega

/-- `SendPacket` does not touch the receiving side. -/
theorem Sends.receiveLedger {entry : PacketEntry PacketPtr} (h : Sends si entry si')
    (L : ReceiveLedger f si returned reads) : ReceiveLedger f si' returned reads := by
  cases h with
  | refused => exact { L with }
  | overflow => exact { L with }
  | queued => exact { L with }

/-- A packet that is returned leaves the front of the queue. -/
theorem Returns.receiveLedger {sender sender' : Address} {packet : Option FactoryPacket}
    (h : Returns si sender packet sender' si') (L : ReceiveLedger f si returned reads) :
    ReceiveLedger f si' (returned ++ (packet.map fun p => (p, sender')).toList) reads := by
  cases h with
  | nothing =>
      rw [Option.map_none, Option.toList_none, List.append_nil]
      exact L
  | @packet entry receiveQueue _ hpop =>
      obtain ⟨hitems, haccepted, hdelivered⟩ := Fifo.pop_eq_some hpop
      have hsize : si.receiveQueue.size = receiveQueue.size + 1 := by
        rw [Fifo.size, hitems, List.length_cons, Fifo.size]
      have hbound := L.bound
      refine { L with accepted := ?_, read := ?_, received := ?_, returned := ?_, bound := ?_ }
      · exact haccepted.trans L.accepted
      · exact L.read.trans (congrArg List.length haccepted.symm)
      · change si.count .packetsReceived + 1 = receiveQueue.delivered.length
        rw [hdelivered, List.length_append, L.received]
        rfl
      · change _ = receiveQueue.delivered.map _
        rw [hdelivered, List.map_append, L.returned]
        rfl
      · change receiveQueue.size ≤ sizeT si.receiveQueueSize
        omega

/-- `ReceivePacket` does not touch the sending side. -/
theorem Returns.sendLedger {sender sender' : Address} {packet : Option FactoryPacket}
    (h : Returns si sender packet sender' si') (L : SendLedger f packetAt si sends writes) :
    SendLedger f packetAt si' sends writes := by
  cases h with
  | nothing => exact L
  | packet => exact { L with }

/-! ## `WritePackets` -/

theorem countP_concat {α : Type} (p : α → Bool) (l : List α) (a : α) :
    (l ++ [a]).countP p = l.countP p + (p a).toNat := by
  rw [List.countP_append, List.countP_singleton]
  cases p a <;> rfl

theorem filterMap_concat {α β : Type} (g : α → Option β) (l : List α) (a : α) :
    (l ++ [a]).filterMap g = l.filterMap g ++ (g a).toList := by
  rw [List.filterMap_append]
  cases hg : g a <;> simp [hg]

/-- The front packet left the queue, and `w` is what was done with it. -/
theorem SendLedger.append (L : SendLedger f packetAt si sends writes) {w : Write}
    (hpop : si.sendQueue.pop = some (w.entry, si'.sendQueue))
    (hcalls : si'.count .packetsSent = si.count .packetsSent ∧
      si'.count .sendQueueOverflow = si.count .sendQueueOverflow)
    (hwritten : si'.count .packetsWritten = si.count .packetsWritten + w.bytes.isSome.toNat)
    (hfailures : si'.count .writePacketFailures =
      si.count .writePacketFailures + w.bytes.isNone.toNat)
    (hsocket : si'.socket.sent = si.socket.sent ++ w.datagram.toList)
    (hinfo : si'.packetProcessor.packetInfo = si.packetProcessor.packetInfo)
    (hmax : si'.getMaxPacketSize = si.getMaxPacketSize)
    (hsize : si'.sendQueueSize = si.sendQueueSize)
    (hdecided : w.Decided f packetAt si.packetProcessor.packetInfo si.getMaxPacketSize) :
    SendLedger f packetAt si' sends (writes ++ [w]) := by
  obtain ⟨hitems, haccepted, hdelivered⟩ := Fifo.pop_eq_some hpop
  have hlen : si.sendQueue.size = si'.sendQueue.size + 1 := by
    rw [Fifo.size, hitems, List.length_cons, Fifo.size]
  have hbound := L.bound
  refine ⟨?_, ?_, ?_, ?_, ?_, ?_, ?_, ?_, ?_⟩
  · rw [hcalls.1, hcalls.2]
    exact L.calls
  · rw [haccepted]
    exact L.accepted
  · rw [hcalls.1, haccepted]
    exact L.sent
  · rw [hdelivered, L.delivered, List.map_append]
    rfl
  · rw [hwritten, L.written, countP_concat]
  · rw [hfailures, L.failures, countP_concat]
  · rw [hsocket, L.socket, filterMap_concat]
  · intro v hv
    rw [hinfo, hmax]
    rcases List.mem_append.mp hv with hold | hnew
    · exact L.decided v hold
    · obtain rfl := List.mem_singleton.mp hnew
      exact hdecided
  · rw [hsize]
    omega

/-- A packet that leaves the send queue is written or counted as a failure. -/
theorem Writes.sendLedger {again : Bool} (h : Writes f packetAt si again si')
    (L : SendLedger f packetAt si sends writes) :
    ∃ writes, SendLedger f packetAt si' sends writes := by
  cases h with
  | idle => exact ⟨writes, L⟩
  | @failed entry sendQueue n packetBuffer hpop hwrite hn =>
      refine ⟨writes ++ [{ entry, bytes := none }], L.append hpop ⟨rfl, rfl⟩ rfl rfl ?_ rfl rfl rfl ?_⟩
      · exact (List.append_nil _).symm
      · exact ⟨_, n, packetBuffer, hwrite, hn⟩
  | @written entry sendQueue n packetBuffer dest hpop hwrite hn hmax hdest =>
      obtain ⟨bytes, hbytes⟩ : ∃ bytes, bytes = packetBuffer.take (sizeT (int32 (sizeT n))) := ⟨_, rfl⟩
      refine ⟨writes ++ [{ entry, bytes := some bytes }],
        L.append hpop ⟨rfl, rfl⟩ rfl rfl ?_ rfl rfl rfl ?_⟩
      · change si.socket.sent ++ [(dest, packetBuffer.take _)] = _
        simp [Write.datagram, hdest, hbytes]
      · exact ⟨_, n, packetBuffer, hwrite, hn, hmax, hbytes⟩

/-- A round of `WritePackets` does not touch the receiving side. -/
theorem Writes.receiveLedger {again : Bool} (h : Writes f packetAt si again si')
    (L : ReceiveLedger f si returned reads) : ReceiveLedger f si' returned reads := by
  cases h with
  | idle => exact L
  | failed => exact { L with }
  | written => exact { L with }

/-! ## `ReadPackets` -/

/-- What was taken from the socket, after another datagram or failure. -/
theorem taken_pop {incoming : Fifo Received} {r : Received}
    (hpop : si.socket.incoming.pop = some (r, incoming)) :
    taken { si with socket := { si.socket with incoming } } = si.taken ++ r.content.toList := by
  obtain ⟨-, -, hdelivered⟩ := Fifo.pop_eq_some hpop
  rw [taken, taken, hdelivered, filterMap_concat]

/-- What is still to come, after another datagram or failure. -/
theorem ReceiveLedger.pending_pop (L : ReceiveLedger f si returned reads)
    {incoming : Fifo Received} {r : Received}
    (hpop : si.socket.incoming.pop = some (r, incoming)) :
    ∀ source bytes, .datagram source bytes ∈ incoming.items → 5 ≤ bytes.length := by
  obtain ⟨hitems, -, -⟩ := Fifo.pop_eq_some hpop
  intro source bytes hmem
  refine L.pending source bytes ?_
  rw [hitems]
  exact List.mem_cons_of_mem _ hmem

/-- Another datagram was taken, and `r` is what was done with it. -/
theorem ReceiveLedger.append (L : ReceiveLedger f si returned reads) {r : Read}
    (htaken : si'.taken = si.taken ++ [(r.source, r.bytes)])
    (haccepted : si'.receiveQueue.accepted = si.receiveQueue.accepted ++ r.entry.toList)
    (hdelivered : si'.receiveQueue.delivered = si.receiveQueue.delivered)
    (hread : si'.count .packetsRead = si.count .packetsRead + r.entry.toList.length)
    (hfailures : si'.count .readPacketFailures = si.count .readPacketFailures + r.failed.toNat)
    (hoverflow : si'.count .receiveQueueOverflow =
      si.count .receiveQueueOverflow + r.overflowed.toNat)
    (hreceived : si'.count .packetsReceived = si.count .packetsReceived)
    (hinfo : si'.packetProcessor.packetInfo = si.packetProcessor.packetInfo)
    (hmax : si'.getMaxPacketSize = si.getMaxPacketSize)
    (hdecided : r.Decided f si.packetProcessor.packetInfo si.getMaxPacketSize)
    (hbound : si'.receiveQueue.size ≤ sizeT si'.receiveQueueSize)
    (hpending : ∀ source bytes, .datagram source bytes ∈ si'.socket.incoming.items →
      5 ≤ bytes.length) :
    ReceiveLedger f si' returned (reads ++ [r]) := by
  refine ⟨?_, ?_, ?_, ?_, ?_, ?_, ?_, ?_, hbound, hpending⟩
  · rw [htaken, L.taken, List.map_append]
    rfl
  · rw [haccepted, L.accepted, filterMap_concat]
  · rw [hread, haccepted, L.read, List.length_append]
  · rw [hfailures, L.failures, countP_concat]
  · rw [hoverflow, L.overflow, countP_concat]
  · rw [hreceived, hdelivered]
    exact L.received
  · rw [hdelivered]
    exact L.returned
  · intro v hv
    rw [hinfo, hmax]
    rcases List.mem_append.mp hv with hold | hnew
    · exact L.decided v hold
    · obtain rfl := List.mem_singleton.mp hnew
      exact hdecided

/-- A datagram that is taken from the socket is read, or counted as a failure or
an overflow. -/
theorem Reads.receiveLedger {n : Int} {address : Address} {packetBuffer data : Memory}
    {socket : Socket} {again : Bool} (hpos : 0 < si.getMaxPacketSize)
    (hreceives : Socket.Receives si.socket .clear packetBuffer si.getMaxPacketSize n address data
      socket)
    (h : Reads f { si with socket } n address data again si')
    (L : ReceiveLedger f si returned reads) : ∃ reads, ReceiveLedger f si' returned reads := by
  cases hreceives with
  | idle =>
      cases h with
      | idle => exact ⟨reads, L⟩
      | overflow hn | failed hn | read hn => exact absurd hn (lt_irrefl 0)
  | @failed incoming hpop =>
      cases h with
      | idle =>
          refine ⟨reads, { L with taken := ?_, pending := ?_ }⟩
          · exact (taken_pop hpop).trans ((List.append_nil _).trans L.taken)
          · exact L.pending_pop hpop
      | overflow hn | failed hn | read hn => exact absurd hn (lt_irrefl 0)
  | @empty source bytes incoming hpop hempty =>
      -- no empty datagrams come
      have h5 : 5 ≤ bytes.length := by
        refine L.pending source bytes ?_
        rw [(Fifo.pop_eq_some hpop).1]
        exact List.mem_cons_self
      have hlen := congrArg List.length hempty
      rw [List.length_take, List.length_nil] at hlen
      omega
  | @datagram source bytes incoming _ _ k hpop haddress hk hn htake hlen =>
      have htaken := taken_pop hpop
      have hpending := L.pending_pop hpop
      have hbound := L.bound
      rw [hn] at htake
      cases h with
      | idle hzero => omega
      | overflow hn' hfull =>
          exact ⟨_, L.append (r := ⟨source, bytes, address, .overflow⟩)
            htaken (List.append_nil _).symm rfl rfl rfl rfl rfl rfl rfl
              ⟨haddress, trivial⟩ hbound hpending⟩
      | @failed uninit r _ hroom hread =>
          rw [hn] at hread
          exact ⟨_, L.append (r := ⟨source, bytes, address, .failed⟩)
            htaken (List.append_nil _).symm rfl rfl rfl rfl rfl rfl rfl
              ⟨haddress, uninit, data, r, htake, hread⟩ hbound hpending⟩
      | @read uninit packet r _ hroom hread =>
          rw [hn] at hread
          refine ⟨_, L.append (r := ⟨source, bytes, address, .read packet⟩)
            htaken rfl rfl rfl rfl rfl rfl rfl rfl
              ⟨haddress, uninit, data, r, htake, hread⟩ ?_ hpending⟩
          change (si.receiveQueue.push _).size ≤ sizeT si.receiveQueueSize
          change si.receiveQueue.size ≠ sizeT si.receiveQueueSize at hroom
          rw [Fifo.size_push]
          omega

/-! ## runs -/

/-- A call, or something that arrives at the socket. -/
inductive Call
  | sendPacket (address : Address) (packet : PacketPtr) (sequence : U64)
  | receivePacket (sender : Address)
  | writePackets
  | readPackets (memory : Nat → U8) (uninit : Nat → Uninit)
  | setContext (context : Context)
  | arrive (r : Received)

/-- An interface, with the calls of `SendPacket` and what `ReceivePacket`
returned. -/
structure Observed where
  si : SocketInterface
  sends : List (PacketEntry PacketPtr)
  returned : List (FactoryPacket × Address)

/-- One call. -/
def step (f : PacketFactory) (packetAt : PacketPtr → Packet) (o : Observed) :
    Call → Except Fault Observed
  | .sendPacket address packet sequence => do
      let si ← o.si.sendPacket address packet sequence
      return { o with si, sends := o.sends ++ [{ sequence, address, packet }] }
  | .receivePacket sender => do
      let (packet, sender, si) ← o.si.receivePacket sender
      return { o with si, returned := o.returned ++ (packet.map fun p => (p, sender)).toList }
  | .writePackets => do
      let si ← o.si.writePackets f packetAt
      return { o with si }
  | .readPackets memory uninit => do
      let si ← o.si.readPackets f memory uninit
      return { o with si }
  | .setContext context => return { o with si := o.si.setContext context }
  | .arrive r => return { o with si := o.si.arrive r }

/-- What a call does. -/
inductive Steps (f : PacketFactory) (packetAt : PacketPtr → Packet) (o : Observed) :
    Call → Observed → Prop
  | sendPacket {address : Address} {packet : PacketPtr} {sequence : U64} {si : SocketInterface}
      (h : Sends o.si { sequence, address, packet } si) :
      Steps f packetAt o (.sendPacket address packet sequence)
        { o with si, sends := o.sends ++ [{ sequence, address, packet }] }
  | receivePacket {sender sender' : Address} {packet : Option FactoryPacket} {si : SocketInterface}
      (h : Returns o.si sender packet sender' si) :
      Steps f packetAt o (.receivePacket sender)
        { o with si, returned := o.returned ++ (packet.map fun p => (p, sender')).toList }
  | writePackets {si : SocketInterface} (h : o.si.writePackets f packetAt = .ok si) :
      Steps f packetAt o .writePackets { o with si }
  | readPackets {memory : Nat → U8} {uninit : Nat → Uninit} {si : SocketInterface}
      (h : o.si.readPackets f memory uninit = .ok si) :
      Steps f packetAt o (.readPackets memory uninit) { o with si }
  | setContext {context : Context} :
      Steps f packetAt o (.setContext context) { o with si := o.si.setContext context }
  | arrive {r : Received} : Steps f packetAt o (.arrive r) { o with si := o.si.arrive r }

/-- The inversion lemma of the step: what a completed call has done. -/
theorem step_cases {f : PacketFactory} {packetAt : PacketPtr → Packet} {o o' : Observed} {c : Call}
    (h : step f packetAt o c = .ok o') : Steps f packetAt o c o' := by
  cases c with
  | sendPacket address packet sequence =>
      obtain ⟨si, hsend, h⟩ := Except.bind_eq_ok_iff.mp h
      obtain rfl := Except.pure_eq_ok_iff.mp h
      exact .sendPacket (sendPacket_cases hsend)
  | receivePacket sender =>
      obtain ⟨⟨packet, sender', si⟩, hreceive, h⟩ := Except.bind_eq_ok_iff.mp h
      obtain rfl := Except.pure_eq_ok_iff.mp h
      exact .receivePacket (receivePacket_cases hreceive)
  | writePackets =>
      obtain ⟨si, hwrite, h⟩ := Except.bind_eq_ok_iff.mp h
      obtain rfl := Except.pure_eq_ok_iff.mp h
      exact .writePackets hwrite
  | readPackets memory uninit =>
      obtain ⟨si, hread, h⟩ := Except.bind_eq_ok_iff.mp h
      obtain rfl := Except.pure_eq_ok_iff.mp h
      exact .readPackets hread
  | setContext context =>
      obtain rfl := Except.pure_eq_ok_iff.mp h
      exact .setContext
  | arrive r =>
      obtain rfl := Except.pure_eq_ok_iff.mp h
      exact .arrive

/-- Before the first call. -/
def Observed.start (si : SocketInterface) : Observed := { si, sends := [], returned := [] }

/-! ## entries that are gone -/

/-- The call goes on with an entry whose storage is gone. -/
inductive Dangles (f : PacketFactory) (packetAt : PacketPtr → Packet) (o : Observed) : Call → Prop
  | receivePacket {sender : Address} (h : o.si.receivePacket sender = .error .danglingPointer) :
      Dangles f packetAt o (.receivePacket sender)
  | writePackets {si : SocketInterface} {popped : PacketEntry PacketPtr × Fifo (PacketEntry PacketPtr)}
      (hreached : Loop.Rounds (writeNext f packetAt) o.si si)
      (hpop : si.sendQueue.pop = some popped)
      (h : si.usePopped si.sendQueue.delivered.length = .error .danglingPointer) :
      Dangles f packetAt o .writePackets

/-- The entries that the call takes off a queue do not take their storage along:
`ReceivePacket` takes the front entry, `WritePackets` all. -/
def Call.KeepsEntries (o : Observed) : Call → Prop
  | .receivePacket _ => o.si.isError = false →
      ∀ n ∈ o.si.receiveQueue.numbers.head?, o.si.released n = false
  | .writePackets => ∀ n ∈ o.si.sendQueue.numbers, o.si.released n = false
  | _ => True

/-- A popped entry is gone where its storage was released. -/
theorem usePopped_eq_error {n : Nat} {e : Fault} (h : si.usePopped n = .error e) :
    si.released n = true := by
  by_contra hgone
  have hkept : si.released n = false := by simpa using hgone
  simp [usePopped, require, hkept] at h

/-- A round of `WritePackets` takes the front entry, if there is one. -/
theorem Writes.numbers {again : Bool} (h : Writes f packetAt si again si') :
    si'.released = si.released ∧
      (si.sendQueue.numbers = [] ∧ again = false ∨
        si.released si.sendQueue.delivered.length = false ∧
          si.sendQueue.numbers = si.sendQueue.delivered.length :: si'.sendQueue.numbers) := by
  cases h with
  | idle hpop =>
      refine ⟨rfl, .inl ⟨?_, rfl⟩⟩
      rw [Fifo.numbers, Fifo.size, Fifo.pop_eq_none.mp hpop]
      rfl
  | failed hpop _ _ hkept => exact ⟨rfl, .inr ⟨hkept, Fifo.numbers_pop hpop⟩⟩
  | written hpop _ _ _ _ hkept => exact ⟨rfl, .inr ⟨hkept, Fifo.numbers_pop hpop⟩⟩

/-- The entries that are left take no storage along if none did before. -/
theorem Writes.keeps {again : Bool} (h : Writes f packetAt si again si')
    (hkeeps : ∀ n ∈ si.sendQueue.numbers, si.released n = false) :
    ∀ n ∈ si'.sendQueue.numbers, si'.released n = false := by
  intro n hn
  obtain ⟨hreleased, ⟨hnone, -⟩ | ⟨-, hnumbers⟩⟩ := h.numbers
  · cases h with
    | idle => exact hkeeps n hn
    | failed hpop => simp [Fifo.numbers_pop hpop] at hnone
    | written hpop => simp [Fifo.numbers_pop hpop] at hnone
  · rw [hreleased]
    exact hkeeps n (hnumbers ▸ List.mem_cons_of_mem _ hn)

/-- What `WritePackets` comes to was in the queue before. -/
theorem numbers_of_rounds (h : Loop.Rounds (writeNext f packetAt) si si') :
    si'.released = si.released ∧ si'.sendQueue.numbers ⊆ si.sendQueue.numbers := by
  induction h with
  | start => exact ⟨rfl, List.Subset.refl _⟩
  | @next si si₁ _ hround _ ih =>
      obtain ⟨hreleased, ⟨-, hagain⟩ | ⟨-, hnumbers⟩⟩ := (writeNext_cases hround).numbers
      · exact Bool.noConfusion hagain
      · refine ⟨ih.1.trans hreleased, fun n hn => ?_⟩
        rw [hnumbers]
        exact List.mem_cons_of_mem _ (ih.2 hn)

/-- Calls that take no storage along go on with no entry that is gone. -/
theorem Call.KeepsEntries.not_dangles {o : Observed} {c : Call} (hkeeps : c.KeepsEntries o) :
    ¬Dangles f packetAt o c := by
  intro h
  cases h with
  | receivePacket hreceive =>
      simp only [SocketInterface.receivePacket] at hreceive
      split at hreceive
      · contradiction
      · next herror =>
          split at hreceive
          · contradiction
          · next entry receiveQueue hpop =>
              have hfront : o.si.released o.si.receiveQueue.delivered.length = false :=
                hkeeps (by simpa using herror) _ (by simp [Fifo.numbers_pop hpop])
              simp only [usePopped, hfront, require, if_true] at hreceive
              split_ifs at hreceive
              · contradiction
              · exact Fault.noConfusion (Except.error.inj hreceive)
  | writePackets hreached hpop huse =>
      obtain ⟨hreleased, hsubset⟩ := numbers_of_rounds hreached
      have hfront := hkeeps _ (hsubset (by rw [Fifo.numbers_pop hpop]; exact List.mem_cons_self))
      have hgone := usePopped_eq_error huse
      rw [hreleased, hfront] at hgone
      contradiction

/-- `WritePackets` does not get to its end with an entry that takes its storage along. -/
theorem writePackets_keeps (h : si.writePackets f packetAt = .ok si') :
    ∀ n ∈ si.sendQueue.numbers, si.released n = false := by
  obtain ⟨rounds, hrounds⟩ : ∃ rounds, rounds = si.sendQueue.size + 1 := ⟨_, rfl⟩
  rw [writePackets, ← hrounds] at h
  replace hrounds : si.sendQueue.size < rounds := by omega
  induction rounds generalizing si with
  | zero => omega
  | succ rounds ih =>
      rcases Loop.loop_succ_ok h with hend | ⟨si₁, hagain, hrest⟩
      · cases writeNext_cases hend with
        | idle hpop =>
            rw [Fifo.numbers, Fifo.size, Fifo.pop_eq_none.mp hpop]
            exact fun n hn => absurd hn List.not_mem_nil
      · obtain ⟨hreleased, ⟨-, hfalse⟩ | ⟨hkept, hnumbers⟩⟩ := (writeNext_cases hagain).numbers
        · exact Bool.noConfusion hfalse
        · have hlen := congrArg List.length hnumbers
          simp only [Fifo.numbers, List.length_range', List.length_cons] at hlen
          have hlater := ih hrest (by omega)
          rw [hreleased] at hlater
          rw [hnumbers]
          exact List.forall_mem_cons.mpr ⟨hkept, hlater⟩

/-- A call that completes took no storage along. -/
theorem step_keepsEntries {o o' : Observed} {c : Call} (h : step f packetAt o c = .ok o') :
    c.KeepsEntries o := by
  cases step_cases h with
  | sendPacket | readPackets | setContext | arrive => trivial
  | writePackets hwrite => exact writePackets_keeps hwrite
  | receivePacket hreceive =>
      intro herror n hn
      cases hreceive with
      | nothing hnone =>
          rcases hnone with hfails | hpop
          · rw [herror] at hfails
            contradiction
          · simp [Fifo.numbers, Fifo.size, Fifo.pop_eq_none.mp hpop] at hn
      | packet _ hpop hkept =>
          rw [Fifo.numbers_pop hpop] at hn
          obtain rfl := Option.some.inj hn
          exact hkept

/-- Datagrams have at least five bytes. -/
def Call.Admissible : Call → Prop
  | .arrive (.datagram _ bytes) => 5 ≤ bytes.length
  | _ => True

/-- An interface of the given sizes on a working socket, with its ledgers. -/
structure Balanced (f : PacketFactory) (packetAt : PacketPtr → Packet)
    (sendQueueSize receiveQueueSize maxPacketSize : Int) (o : Observed) : Prop where
  working : o.si.socket.Working
  sendQueueSize : o.si.sendQueueSize = sendQueueSize
  receiveQueueSize : o.si.receiveQueueSize = receiveQueueSize
  maxPacketSize : o.si.getMaxPacketSize = maxPacketSize
  send : ∃ writes, SendLedger f packetAt o.si o.sends writes
  receive : ∃ reads, ReceiveLedger f o.si o.returned reads

variable {sendQueueSize receiveQueueSize maxPacketSize : Int} {o o' : Observed}

/-- `SendPacket` counts the packet or its loss. -/
theorem Balanced.sendPacket (hb : Balanced f packetAt sendQueueSize receiveQueueSize maxPacketSize o)
    {entry : PacketEntry PacketPtr} (h : Sends o.si entry si') :
    Balanced f packetAt sendQueueSize receiveQueueSize maxPacketSize
      { o with si := si', sends := o.sends ++ [entry] } := by
  obtain ⟨writes, hsend⟩ := hb.send
  obtain ⟨reads, hreceive⟩ := hb.receive
  have hsend' := h.sendLedger hb.working hsend
  have hreceive' := h.receiveLedger hreceive
  cases h <;> exact ⟨hb.working, hb.sendQueueSize, hb.receiveQueueSize, hb.maxPacketSize,
    ⟨writes, hsend'⟩, reads, hreceive'⟩

/-- `ReceivePacket` moves a packet from the queue to the caller. -/
theorem Balanced.receivePacket
    (hb : Balanced f packetAt sendQueueSize receiveQueueSize maxPacketSize o)
    {sender sender' : Address} {packet : Option FactoryPacket}
    (h : Returns o.si sender packet sender' si') :
    Balanced f packetAt sendQueueSize receiveQueueSize maxPacketSize
      { o with si := si', returned := o.returned ++ (packet.map fun p => (p, sender')).toList } := by
  obtain ⟨writes, hsend⟩ := hb.send
  obtain ⟨reads, hreceive⟩ := hb.receive
  have hsend' := h.sendLedger hsend
  have hreceive' := h.receiveLedger hreceive
  cases h <;> exact ⟨hb.working, hb.sendQueueSize, hb.receiveQueueSize, hb.maxPacketSize,
    ⟨writes, hsend'⟩, reads, hreceive'⟩

/-- A round of `WritePackets` counts the datagram or its failure. -/
theorem Balanced.writeNext (hb : Balanced f packetAt sendQueueSize receiveQueueSize maxPacketSize o)
    {again : Bool} (h : Writes f packetAt o.si again si') :
    Balanced f packetAt sendQueueSize receiveQueueSize maxPacketSize { o with si := si' } := by
  obtain ⟨writes, hsend⟩ := hb.send
  obtain ⟨reads, hreceive⟩ := hb.receive
  obtain ⟨writes', hsend'⟩ := h.sendLedger hsend
  have hreceive' := h.receiveLedger hreceive
  obtain ⟨herror, hhandle⟩ := hb.working
  cases h <;> exact ⟨⟨herror, hhandle⟩, hb.sendQueueSize, hb.receiveQueueSize, hb.maxPacketSize,
    ⟨writes', hsend'⟩, reads, hreceive'⟩

/-- Reading from the socket leaves the sending half alone. -/
theorem Reads.sendLedger {n : Int} {address : Address} {packetBuffer data : Memory}
    {socket : Socket} {again : Bool}
    (hreceives : Socket.Receives si.socket .clear packetBuffer maxPacketSize n address data socket)
    (h : Reads f { si with socket } n address data again si')
    (L : SendLedger f packetAt si sends writes) : SendLedger f packetAt si' sends writes := by
  have hsent : socket.sent = si.socket.sent := by
    cases hreceives <;> rfl
  have hsocket : SendLedger f packetAt { si with socket } sends writes :=
    { L with socket := hsent.trans L.socket }
  cases h <;> exact { hsocket with }

/-- A round of `ReadPackets` counts the packet, its loss, or its rejection. -/
theorem Balanced.readNext (hb : Balanced f packetAt sendQueueSize receiveQueueSize maxPacketSize o)
    {uninit : Nat → Uninit} {packetBuffer data : Memory} {again : Bool}
    (h : readNext f uninit maxPacketSize (o.si, packetBuffer) = .ok (again, si', data)) :
    Balanced f packetAt sendQueueSize receiveQueueSize maxPacketSize { o with si := si' } := by
  obtain ⟨writes, hsend⟩ := hb.send
  obtain ⟨reads, hreceive⟩ := hb.receive
  obtain ⟨n, address, socket, hpos, hreceives, hreads⟩ := readNext_cases h
  have hsend' := Reads.sendLedger hreceives hreads hsend
  have hmax := hb.maxPacketSize
  rw [← hmax] at hpos hreceives
  obtain ⟨reads', hreceive'⟩ := Reads.receiveLedger hpos hreceives hreads hreceive
  have hworking : socket.Working := by
    obtain ⟨herror, hhandle⟩ := hb.working
    cases hreceives <;> exact ⟨herror, hhandle⟩
  cases hreads <;> exact ⟨hworking, hb.sendQueueSize, hb.receiveQueueSize, hmax,
    ⟨writes, hsend'⟩, reads', hreceive'⟩

/-- Every call keeps the ledgers. -/
theorem Balanced.step (hb : Balanced f packetAt sendQueueSize receiveQueueSize maxPacketSize o)
    {c : Call} (hc : c.Admissible) (h : step f packetAt o c = .ok o') :
    Balanced f packetAt sendQueueSize receiveQueueSize maxPacketSize o' := by
  cases step_cases h with
  | sendPacket hsend => exact hb.sendPacket hsend
  | receivePacket hreceive => exact hb.receivePacket hreceive
  | writePackets hwrite =>
      exact Loop.loop_inv (I := fun s =>
          Balanced f packetAt sendQueueSize receiveQueueSize maxPacketSize { o with si := s })
        (fun s again s' hs hbody => hs.writeNext (writeNext_cases hbody)) hb hwrite
  | readPackets hread =>
      refine readPackets_inv (I := fun s =>
        Balanced f packetAt sendQueueSize receiveQueueSize maxPacketSize { o with si := s })
          ?_ hb hread
      intro s buffer again s' data hs hbody
      rw [hb.maxPacketSize] at hbody
      exact hs.readNext hbody
  | setContext =>
      obtain ⟨writes, hsend⟩ := hb.send
      obtain ⟨reads, hreceive⟩ := hb.receive
      exact ⟨hb.working, hb.sendQueueSize, hb.receiveQueueSize, hb.maxPacketSize,
        ⟨writes, { hsend with }⟩, reads, { hreceive with }⟩
  | @arrive r =>
      obtain ⟨writes, hsend⟩ := hb.send
      obtain ⟨reads, hreceive⟩ := hb.receive
      refine ⟨hb.working.arrive r, hb.sendQueueSize, hb.receiveQueueSize, hb.maxPacketSize,
        ⟨writes, { hsend with }⟩, reads, { hreceive with pending := ?_ }⟩
      intro source bytes hmem
      rcases List.mem_append.mp hmem with hold | hnew
      · exact hreceive.pending source bytes hold
      · obtain rfl := List.mem_singleton.mp hnew
        exact hc

/-! ## nothing is lost silently -/

/-- Every packet that was sent is in the queue or left it as a success or as a
failure. -/
theorem SendLedger.balance (L : SendLedger f packetAt si sends writes) :
    si.count .packetsSent =
      si.count .packetsWritten + si.count .writePacketFailures + si.sendQueue.size := by
  have hall := List.length_eq_countP_add_countP (fun w : Write => w.bytes.isSome) (l := writes)
  have hnone : ∀ w : Write, (decide ¬w.bytes.isSome = true) = w.bytes.isNone := by
    intro w
    cases w.bytes <;> rfl
  simp only [hnone] at hall
  rw [L.sent, Fifo.length_accepted, L.delivered, List.length_map, L.written, L.failures, hall]

/-- Every datagram that was taken was read, or counted as a failure or an
overflow. -/
theorem ReceiveLedger.balance (L : ReceiveLedger f si returned reads) :
    si.taken.length = si.count .packetsRead + si.count .readPacketFailures +
      si.count .receiveQueueOverflow := by
  have hall : ∀ reads : List Read, reads.length = (reads.filterMap (·.entry)).length +
      reads.countP (·.failed) + reads.countP (·.overflowed) := by
    intro reads
    induction reads with
    | nil => rfl
    | cons r reads ih =>
        obtain ⟨source, bytes, address, outcome⟩ := r
        cases outcome <;>
          simp [Read.entry, Read.failed, Read.overflowed] at ih ⊢ <;> omega
  rw [L.taken, List.length_map, L.read, L.failures, L.overflow, L.accepted, hall]

/-- Counters that agree in their numbers of increments agree in their values. -/
theorem getCounter_eq (si : SocketInterface) (counter : SocketInterfaceCounter) :
    si.getCounter counter = BitVec.ofNat 64 (si.count counter) :=
  (si.counters counter).value_eq

/-- What the counters, the queues and the traffic of an interface say about the
calls that were made. Counters are compared as the 64-bit numbers they are, and
as plain numbers as long as they cannot have wrapped. -/
structure NothingLost (f : PacketFactory) (packetAt : PacketPtr → Packet)
    (sendQueueSize receiveQueueSize : Int) (o : Observed) : Prop where
  sends : BitVec.ofNat 64 o.sends.length =
    o.si.getCounter .packetsSent + o.si.getCounter .sendQueueOverflow
  sent : o.si.getCounter .packetsSent = o.si.getCounter .packetsWritten +
    o.si.getCounter .writePacketFailures + BitVec.ofNat 64 o.si.sendQueue.size
  exactSends : o.sends.length < 2 ^ 64 →
    o.sends.length =
      (o.si.getCounter .packetsSent).toNat + (o.si.getCounter .sendQueueOverflow).toNat ∧
    (o.si.getCounter .packetsSent).toNat = (o.si.getCounter .packetsWritten).toNat +
      (o.si.getCounter .writePacketFailures).toNat + o.si.sendQueue.size
  taken : BitVec.ofNat 64 o.si.taken.length = o.si.getCounter .packetsRead +
    o.si.getCounter .readPacketFailures + o.si.getCounter .receiveQueueOverflow
  read : o.si.getCounter .packetsRead =
    o.si.getCounter .packetsReceived + BitVec.ofNat 64 o.si.receiveQueue.size
  exactTaken : o.si.taken.length < 2 ^ 64 →
    o.si.taken.length = (o.si.getCounter .packetsRead).toNat +
      (o.si.getCounter .readPacketFailures).toNat +
      (o.si.getCounter .receiveQueueOverflow).toNat ∧
    (o.si.getCounter .packetsRead).toNat =
      (o.si.getCounter .packetsReceived).toNat + o.si.receiveQueue.size
  sendQueue : (o.si.sendQueue.size : Int) ≤ sendQueueSize
  receiveQueue : (o.si.receiveQueue.size : Int) ≤ receiveQueueSize
  /-- Datagrams are taken in the order of their arrival. -/
  arrival : o.si.taken <+: o.si.socket.incoming.accepted.filterMap (·.content)
  /-- What was returned and what is in the queue are the packets that were read. -/
  received : ∃ reads : List Read, o.si.taken = reads.map (fun r => (r.source, r.bytes)) ∧
    (∀ r ∈ reads, r.Decided f o.si.packetProcessor.packetInfo o.si.getMaxPacketSize) ∧
    o.returned ++ o.si.receiveQueue.items.map (fun e => (e.packet, e.address)) =
      (reads.filterMap (·.entry)).map fun e => (e.packet, e.address)
  /-- Packets are written in the order of the calls of `SendPacket`. -/
  written : ∃ writes : List Write, o.si.socket.sent = writes.filterMap (·.datagram) ∧
    (∀ w ∈ writes,
      w.Decided f packetAt o.si.packetProcessor.packetInfo o.si.getMaxPacketSize) ∧
    (writes.map (·.entry) ++ o.si.sendQueue.items).Sublist o.sends

/-- Where the books balance, nothing is lost. -/
theorem Balanced.accounts
    (hb : Balanced f packetAt sendQueueSize receiveQueueSize maxPacketSize o)
    (hsend : 0 < sendQueueSize) (hreceive : 0 < receiveQueueSize) :
    NothingLost f packetAt sendQueueSize receiveQueueSize o := by
  obtain ⟨writes, LS⟩ := hb.send
  obtain ⟨reads, LR⟩ := hb.receive
  have hcalls := LS.calls
  have hsent := LS.balance
  have htaken := LR.balance
  have hread : o.si.count .packetsRead = o.si.count .packetsReceived + o.si.receiveQueue.size := by
    rw [LR.read, Fifo.length_accepted, LR.received]
  have hexact : ∀ c, o.si.count c < 2 ^ 64 → (o.si.getCounter c).toNat = o.si.count c :=
    fun c hc => Counter.toNat_value hc
  refine ⟨?_, ?_, fun hlt => ?_, ?_, ?_, fun hlt => ?_, ?_, ?_, ?_, ⟨reads, LR.taken, LR.decided, ?_⟩,
    ⟨writes, LS.socket, LS.decided, ?_⟩⟩
  · rw [getCounter_eq, getCounter_eq, hcalls, BitVec.ofNat_add]
  · rw [getCounter_eq, getCounter_eq, getCounter_eq, hsent, BitVec.ofNat_add, BitVec.ofNat_add]
  · rw [hexact _ (by omega), hexact _ (by omega), hexact _ (by omega), hexact _ (by omega)]
    exact ⟨hcalls, hsent⟩
  · rw [getCounter_eq, getCounter_eq, getCounter_eq, htaken, BitVec.ofNat_add, BitVec.ofNat_add]
  · rw [getCounter_eq, getCounter_eq, hread, BitVec.ofNat_add]
  · rw [hexact _ (by omega), hexact _ (by omega), hexact _ (by omega), hexact _ (by omega)]
    exact ⟨htaken, hread⟩
  · have hbound := LS.bound
    have hle := sizeT_le (le_of_lt hsend)
    rw [hb.sendQueueSize] at hbound
    omega
  · have hbound := LR.bound
    have hle := sizeT_le (le_of_lt hreceive)
    rw [hb.receiveQueueSize] at hbound
    omega
  · obtain ⟨rest, hrest⟩ := o.si.socket.incoming.delivered_isPrefix
    exact ⟨rest.filterMap (·.content), by rw [taken, ← hrest, List.filterMap_append]⟩
  · rw [LR.returned, ← List.map_append, ← o.si.receiveQueue.inOrder, LR.accepted]
  · rw [← LS.delivered, ← o.si.sendQueue.inOrder]
    exact LS.accepted

/-- A new interface has empty ledgers. -/
theorem new_balanced {released : Nat → Bool} {memory : Nat → U8} {protocolId : U32}
    {type : SocketType} {sys : Setup} {sendto : Nat → Int} {size : Int}
    (hsock : (Socket.new type sys sendto).Working)
    (h : new f released memory protocolId (Socket.new type sys sendto) size sendQueueSize receiveQueueSize =
      .ok si) (packetAt : PacketPtr → Packet) :
    (0 < sendQueueSize ∧ 0 < receiveQueueSize) ∧
      Balanced f packetAt sendQueueSize receiveQueueSize si.getMaxPacketSize (.start si) := by
  obtain ⟨hincoming, hsent⟩ := Socket.new_idle type sys sendto
  simp only [new, Except.bind_eq_ok_iff, require_eq_ok, Except.pure_eq_ok_iff] at h
  obtain ⟨-, -, -, hsend, -, hreceive, P, -, -, -, rfl⟩ := h
  refine ⟨⟨hsend, hreceive⟩, hsock, rfl, rfl, rfl, ⟨[], ?_⟩, [], ?_⟩
  · exact ⟨rfl, List.Sublist.refl [], rfl, rfl, rfl, rfl, hsent, fun w hw => (nomatch hw),
      Nat.zero_le _⟩
  · refine ⟨?_, rfl, rfl, rfl, rfl, rfl, rfl, fun r hr => (nomatch hr),
      Nat.zero_le _, ?_⟩
    · change (Socket.new type sys sendto).incoming.delivered.filterMap _ = _
      rw [hincoming]
      rfl
    · intro source bytes hmem
      change _ ∈ (Socket.new type sys sendto).incoming.items at hmem
      rw [hincoming] at hmem
      exact nomatch hmem

/-- From construction on, whatever is called and whatever arrives, if no call takes an
entry off a queue whose storage goes along, none uses an entry that is gone, and in no state
of the run is a packet lost without being counted. -/
theorem nothingLost {released : Nat → Bool} {memory : Nat → U8} {protocolId : U32}
    {type : SocketType} {sys : Setup} {sendto : Nat → Int} {size : Int}
    (hsock : (Socket.new type sys sendto).Working)
    (hnew : new f released memory protocolId (Socket.new type sys sendto) size sendQueueSize
      receiveQueueSize = .ok si) (packetAt : PacketPtr → Packet) {calls : List Call}
    (hcalls : ∀ c ∈ calls, c.Admissible)
    (hkeeps : Run.Along (step f packetAt) (fun o c => c.KeepsEntries o) calls (.start si)) :
    Run.Along (step f packetAt) (fun o c => ¬Dangles f packetAt o c) calls (.start si) ∧
      Run.Always (step f packetAt) (NothingLost f packetAt sendQueueSize receiveQueueSize) calls
        (.start si) := by
  obtain ⟨⟨hsend, hreceive⟩, hstart⟩ := new_balanced hsock hnew packetAt
  refine ⟨hkeeps.mono fun o c hc => hc.not_dangles, ?_⟩
  exact Run.run_always (fun o hb => hb.accounts hsend hreceive)
    (fun o c o' hb hc hstep => hb.step hc hstep) (Run.along_of_forall hcalls _) hstart

/-- Two packets for a queue of one, a datagram that decodes and one that does
not. -/
def sampleCalls : List Call :=
  [.sendPacket (.ipv4 0 0) 0 0, .sendPacket (.ipv4 0 0) 1 0, .writePackets,
    .arrive (.datagram (.inet 1 2) [0x00, 0xe1, 0x9d, 0x64, 0xce, 0x80, 0x65, 0x85]),
    .arrive (.datagram (.inet 1 2) [0, 0, 0, 0, 0]),
    .readPackets (fun _ => 0) (fun _ => ⟨0, 0, 0, 0⟩), .receivePacket .clear]

/-- Every packet object is a `TestPacketA`. -/
def samplePackets : PacketPtr → Packet := fun _ => (FactoryPacket.testPacketA .new).toPacket

/-- The interface of the run. -/
def sampleInterface : Except Fault SocketInterface :=
  new ⟨106⟩ (endsBlock 12) (fun _ => 0) 1 (Socket.new .ipv4 ⟨3, 0, 0, 0⟩ fun _ => 8) 8 1 1

/-- Two packets for a queue of one, and two datagrams of which one is a packet. -/
theorem nothingLost_sample :
    ∃ si o, sampleInterface = .ok si ∧
      Run.run (step ⟨106⟩ samplePackets) sampleCalls (.start si) = .ok o ∧ o.returned.length = 1 ∧
      Run.Along (step ⟨106⟩ samplePackets) (fun o c => ¬Dangles ⟨106⟩ samplePackets o c) sampleCalls
        (.start si) ∧
      Run.Always (step ⟨106⟩ samplePackets) (NothingLost ⟨106⟩ samplePackets 1 1) sampleCalls
        (.start si) := by
  have hsample : (do
      let si ← sampleInterface
      let o ← Run.run (step ⟨106⟩ samplePackets) sampleCalls (.start si)
      return o.returned.length) = .ok 1 := by decide +kernel
  obtain ⟨si, hnew, hsample⟩ := Except.bind_eq_ok_iff.mp hsample
  obtain ⟨o, hrun, hlen⟩ := Except.bind_eq_ok_iff.mp hsample
  have hcalls : ∀ c ∈ sampleCalls, c.Admissible := by
    simp [sampleCalls, Call.Admissible]
  have hsock : (Socket.new .ipv4 ⟨3, 0, 0, 0⟩ fun _ => 8).Working :=
    Socket.new_working (by decide) rfl (by decide) (by decide)
  exact ⟨si, o, hnew, hrun, Except.pure_eq_ok_iff.mp hlen,
    nothingLost hsock hnew samplePackets hcalls
      (Run.along_of_run (fun _ _ _ hstep => step_keepsEntries hstep) hrun)⟩

/-- Thirteen packets, where a block of the deque holds twelve entries: `WritePackets` goes on
with the last one of the first block after it was freed. -/
theorem not_nothingLost :
    ¬∀ (f : PacketFactory) (packetAt : PacketPtr → Packet) (released : Nat → Bool)
      (memory : Nat → U8) (protocolId : U32) (type : SocketType) (sys : Setup) (sendto : Nat → Int)
      (size sendQueueSize receiveQueueSize : Int) (si : SocketInterface) (calls : List Call),
      (Socket.new type sys sendto).Working →
      new f released memory protocolId (Socket.new type sys sendto) size sendQueueSize
        receiveQueueSize = .ok si → (∀ c ∈ calls, c.Admissible) →
      Run.Along (step f packetAt) (fun o c => ¬Dangles f packetAt o c) calls (.start si) ∧
        Run.Always (step f packetAt) (NothingLost f packetAt sendQueueSize receiveQueueSize) calls
          (.start si) := by
  intro h
  obtain ⟨sends, hsends⟩ : ∃ sends : List Call, sends = (List.range 13).map fun packet =>
      .sendPacket (.ipv4 0 0) packet 0 := ⟨_, rfl⟩
  have hsample : (do
      let si ← new ⟨106⟩ (endsBlock 12) (fun _ => 0) 1 (Socket.new .ipv4 ⟨3, 0, 0, 0⟩ fun _ => 8) 8
        13 1
      let o ← Run.run (step ⟨106⟩ samplePackets) sends (.start si)
      return (Loop.after (writeNext ⟨106⟩ samplePackets) 11 o.si).map fun s : SocketInterface =>
        (s.sendQueue.items.isEmpty, s.usePopped s.sendQueue.delivered.length)) =
      .ok (some (false, .error .danglingPointer)) := by
    rw [hsends]
    decide +kernel
  simp only [Except.bind_eq_ok_iff, Except.pure_eq_ok_iff, Option.map_eq_some_iff,
    Prod.mk.injEq] at hsample
  obtain ⟨si, hnew, o, hrun, s, hafter, hsome, huse⟩ := hsample
  have hsock : (Socket.new .ipv4 ⟨3, 0, 0, 0⟩ fun _ => 8).Working :=
    Socket.new_working (by decide) rfl (by decide) (by decide)
  have hcalls : ∀ c ∈ sends ++ [.writePackets], c.Admissible := by
    intro c hc
    rw [hsends] at hc
    rcases List.mem_append.mp hc with hsend | hwrite
    · obtain ⟨packet, -, rfl⟩ := List.mem_map.mp hsend
      trivial
    · obtain rfl := List.mem_singleton.mp hwrite
      trivial
  obtain ⟨hdefined, -⟩ := h _ samplePackets _ _ _ _ _ _ _ _ _ si _ hsock hnew hcalls
  obtain ⟨-, hlast, -⟩ := Run.along_append hdefined hrun
  cases hpop : s.sendQueue.pop with
  | none => simp [Fifo.pop_eq_none.mp hpop] at hsome
  | some popped => exact hlast (.writePackets (Loop.rounds_of_after hafter) hpop huse)

end SocketInterface

end RudpNetwork
