import RudpNetwork.Ownership

/-!
# RudpNetwork.Teardown

The end of a `SocketInterface`.

The destructor destroys what is left in the two queues and closes the socket.
`Accounted` says where every packet is until then, the packets of the caller and those
that were read; over a whole life nothing is destroyed twice, and nothing is left over
but the packets that could not be written (`teardown_conserves`).

## Main results

* `run_accounted` — where every packet is after a run of calls.
* `teardown_conserves` — over a whole life nothing is destroyed twice, and nothing is left
  but what could not be written.
* `teardown_closes_iff` — when the socket is closed.
-/

namespace RudpNetwork

open MachineInt

/-! ## the source methods -/

/-- `~Socket`: the handles that go to `close`. -/
def Socket.closed (s : Socket) : List Int := if s.socket ≠ 0 then [s.socket] else []

namespace SocketInterface

/-- What a destroyed interface has done in all: the packets of the caller and the packets
it has read itself that went to `DestroyPacket`, and the handles that went to `close`. -/
structure Remains where
  destroyed : List PacketPtr
  discarded : List FactoryPacket
  closed : List Int

/-- One round of `ClearSendQueue`. -/
def clearSendNext (si : SocketInterface) : Except Fault (Bool × SocketInterface) :=
  match si.sendQueue.pop with
  | none => return (false, si)
  | some (entry, sendQueue) => do
      assert (entry.address.isValid = true)
      return (true, destroyPacket { si with sendQueue } entry.packet)

/-- `ClearSendQueue`. -/
def clearSendQueue (si : SocketInterface) : Except Fault SocketInterface :=
  Loop.loop clearSendNext (si.sendQueue.size + 1) si

/-- One round of `ClearReceiveQueue`, with the packets that were destroyed. -/
def clearReceiveNext :
    SocketInterface × List FactoryPacket →
      Except Fault (Bool × (SocketInterface × List FactoryPacket)) :=
  fun (si, discarded) =>
    match si.receiveQueue.pop with
    | none => return (false, si, discarded)
    | some (entry, receiveQueue) => do
        assert (entry.address.isValid = true)
        return (true, { si with receiveQueue }, discarded ++ [entry.packet])

/-- `ClearReceiveQueue`. -/
def clearReceiveQueue (si : SocketInterface) :
    Except Fault (SocketInterface × List FactoryPacket) :=
  Loop.loop clearReceiveNext (si.receiveQueue.size + 1) (si, [])

/-- `~SocketInterface`. The processor is not deleted. -/
def teardown (si : SocketInterface) : Except Fault Remains := do
  let si ← si.clearSendQueue
  let (si, discarded) ← si.clearReceiveQueue
  return { destroyed := si.destroyed, discarded, closed := si.socket.closed }

variable {f : PacketFactory} {packetAt : PacketPtr → Packet} {si si' : SocketInterface}
  {passed leaked : List PacketPtr}

/-! ## the queues are emptied -/

/-- The entries of a queue have valid addresses. -/
def Addressed {π : Type} (q : Fifo (PacketEntry π)) : Prop :=
  ∀ e ∈ q.items, e.address.isValid = true

/-- Popping keeps the destinations of a queue valid. -/
theorem Addressed.pop {π : Type} {q q' : Fifo (PacketEntry π)} {e : PacketEntry π}
    (h : Addressed q) (hpop : q.pop = some (e, q')) : e.address.isValid = true ∧ Addressed q' := by
  obtain ⟨hitems, -, -⟩ := Fifo.pop_eq_some hpop
  exact ⟨h e (hitems ▸ List.mem_cons_self), fun e' he' => h e' (hitems ▸ List.mem_cons_of_mem _ he')⟩

/-- Pushing an entry with a valid destination does too. -/
theorem Addressed.push {π : Type} {q : Fifo (PacketEntry π)} {e : PacketEntry π} (h : Addressed q)
    (he : e.address.isValid = true) : Addressed (q.push e) := by
  intro e' he'
  rcases List.mem_append.mp he' with hold | hnew
  · exact h e' hold
  · obtain rfl := List.mem_singleton.mp hnew
    exact he

/-- `ClearSendQueue` destroys the packets of the queue, in order. -/
theorem clearSendQueue_ok (h : Addressed si.sendQueue) :
    ∃ si', si.clearSendQueue = .ok si' ∧ si'.destroyed = si.destroyed ++ si.queued ∧
      si'.receiveQueue = si.receiveQueue ∧ si'.socket = si.socket := by
  have hnone : ∀ s : SocketInterface, Addressed s.sendQueue ∧ s.receiveQueue = si.receiveQueue ∧
      s.socket = si.socket → s.queued = [] → clearSendNext s = .ok (false, s) := by
    intro s _ hqueued
    rw [clearSendNext, Fifo.pop_eq_none.mpr (List.map_eq_nil_iff.mp hqueued)]
    rfl
  have hsome : ∀ (s : SocketInterface) p ps, Addressed s.sendQueue ∧
      s.receiveQueue = si.receiveQueue ∧ s.socket = si.socket → s.queued = p :: ps →
      ∃ s', clearSendNext s = .ok (true, s') ∧ (Addressed s'.sendQueue ∧
        s'.receiveQueue = si.receiveQueue ∧ s'.socket = si.socket) ∧ s'.queued = ps ∧
        s'.destroyed = s.destroyed ++ [p] := by
    intro s p ps hs hqueued
    obtain ⟨e, items, hitems, rfl, hps⟩ := List.map_eq_cons_iff.mp hqueued
    obtain ⟨sendQueue, hpop, hrest⟩ := Fifo.pop_of_items hitems
    obtain ⟨hvalid, haddressed⟩ := hs.1.pop hpop
    refine ⟨destroyPacket { s with sendQueue } e.packet, ?_, ⟨haddressed, hs.2⟩, ?_, rfl⟩
    · rw [clearSendNext, hpop]
      exact Except.bind_eq_ok_iff.mpr ⟨(), require_eq_ok.mpr hvalid, rfl⟩
    · exact (congrArg (List.map (·.packet)) hrest).trans hps
  obtain ⟨si', hrun, ⟨-, hreceive, hsocket⟩, -, hdestroyed⟩ :=
    Loop.loop_drains hnone hsome (s := si) ⟨h, rfl, rfl⟩
  refine ⟨si', ?_, hdestroyed, hreceive, hsocket⟩
  rwa [queued, List.length_map] at hrun

/-- The packets in the receive queue. -/
def received (si : SocketInterface) : List FactoryPacket := si.receiveQueue.items.map (·.packet)

/-- `ClearReceiveQueue` destroys the packets of the queue, in order. -/
theorem clearReceiveQueue_ok (h : Addressed si.receiveQueue) :
    ∃ si', si.clearReceiveQueue = .ok (si', si.received) ∧ si'.destroyed = si.destroyed ∧
      si'.socket = si.socket := by
  have hnone : ∀ s : SocketInterface × List FactoryPacket, Addressed s.1.receiveQueue ∧
      s.1.destroyed = si.destroyed ∧ s.1.socket = si.socket → s.1.received = [] →
      clearReceiveNext s = .ok (false, s) := by
    rintro ⟨s, discarded⟩ _ hreceived
    simp only [clearReceiveNext, Fifo.pop_eq_none.mpr (List.map_eq_nil_iff.mp hreceived)]
    rfl
  have hsome : ∀ (s : SocketInterface × List FactoryPacket) p ps, Addressed s.1.receiveQueue ∧
      s.1.destroyed = si.destroyed ∧ s.1.socket = si.socket → s.1.received = p :: ps →
      ∃ s', clearReceiveNext s = .ok (true, s') ∧ (Addressed s'.1.receiveQueue ∧
        s'.1.destroyed = si.destroyed ∧ s'.1.socket = si.socket) ∧ s'.1.received = ps ∧
        s'.2 = s.2 ++ [p] := by
    rintro ⟨s, discarded⟩ p ps hs hreceived
    obtain ⟨e, items, hitems, rfl, hps⟩ := List.map_eq_cons_iff.mp hreceived
    obtain ⟨receiveQueue, hpop, hrest⟩ := Fifo.pop_of_items hitems
    obtain ⟨hvalid, haddressed⟩ := hs.1.pop hpop
    refine ⟨({ s with receiveQueue }, discarded ++ [e.packet]), ?_, ⟨haddressed, hs.2⟩, ?_, rfl⟩
    · simp only [clearReceiveNext, hpop]
      exact Except.bind_eq_ok_iff.mpr ⟨(), require_eq_ok.mpr hvalid, rfl⟩
    · exact (congrArg (List.map (·.packet)) hrest).trans hps
  obtain ⟨⟨si', discarded⟩, hrun, ⟨-, hdestroyed, hsocket⟩, -, hall⟩ :=
    Loop.loop_drains hnone hsome (s := (si, [])) ⟨h, rfl, rfl⟩
  obtain rfl : discarded = si.received := hall
  refine ⟨si', ?_, hdestroyed, hsocket⟩
  rwa [received, List.length_map] at hrun

/-- The destructor empties the queues and closes the socket. -/
theorem teardown_ok (hsend : Addressed si.sendQueue) (hreceive : Addressed si.receiveQueue) :
    si.teardown = .ok { destroyed := si.destroyed ++ si.queued, discarded := si.received,
                        closed := si.socket.closed } := by
  obtain ⟨si₁, hrun, hdestroyed, hqueue, hsocket⟩ := clearSendQueue_ok hsend
  rw [← hqueue] at hreceive
  obtain ⟨si₂, hrun', hdestroyed', hsocket'⟩ := clearReceiveQueue_ok hreceive
  refine Except.bind_eq_ok_iff.mpr ⟨si₁, hrun, Except.bind_eq_ok_iff.mpr ⟨_, hrun', ?_⟩⟩
  change Except.ok (Remains.mk si₂.destroyed si₁.received si₂.socket.closed) = _
  rw [hdestroyed', hdestroyed, hsocket', hsocket, received, received, hqueue]

/-! ## where the packets are -/

/-- The packets of the caller are accounted for, as many were dropped as could not be
written, and the packets that were read were returned or are in the queue. -/
structure Accounted (handle : Int) (passed leaked : List PacketPtr)
    (returned : List FactoryPacket) (si : SocketInterface) : Prop where
  owned : Owned passed leaked si
  failures : leaked.length = si.count .writePacketFailures
  toSend : Addressed si.sendQueue
  toReturn : Addressed si.receiveQueue
  returned : returned = si.receiveQueue.delivered.map (·.packet)
  read : si.count .packetsRead = si.receiveQueue.accepted.length
  handle : si.socket.socket = handle

variable {handle : Int} {returned : List FactoryPacket}

/-- `SendPacket` takes one packet over from the caller. -/
theorem Accounted.sendPacket (h : Accounted handle passed leaked returned si)
    {entry : PacketEntry PacketPtr} (hsends : Sends si entry si') :
    Accounted handle (passed ++ [entry.packet]) leaked returned si' := by
  have howned := h.owned.sendPacket hsends
  cases hsends with
  | refused | overflow => exact { h with owned := howned }
  | queued _ _ hvalid => exact { h with owned := howned, toSend := h.toSend.push hvalid }

/-- `ReceivePacket` hands one packet to the caller. -/
theorem Accounted.receivePacket (h : Accounted handle passed leaked returned si)
    {sender sender' : Address} {packet : Option FactoryPacket}
    (hreturns : Returns si sender packet sender' si') :
    Accounted handle passed leaked (returned ++ packet.toList) si' := by
  cases hreturns with
  | nothing =>
      rw [Option.toList_none, List.append_nil]
      exact h
  | @packet entry receiveQueue _ hpop =>
      obtain ⟨-, haccepted, hdelivered⟩ := Fifo.pop_eq_some hpop
      refine { h with toReturn := (h.toReturn.pop hpop).2, returned := ?_, read := ?_ }
      · change _ = receiveQueue.delivered.map _
        rw [hdelivered, List.map_append, h.returned]
        rfl
      · exact h.read.trans (congrArg List.length haccepted.symm)

/-- A round of `WritePackets` destroys a packet or leaks it. -/
theorem Accounted.writeNext (h : Accounted handle passed leaked returned si) {again : Bool}
    (hwrites : Writes f packetAt si again si') :
    ∃ leaked', Accounted handle passed leaked' returned si' := by
  cases hwrites with
  | idle => exact ⟨leaked, h⟩
  | failed hpop =>
      refine ⟨_, { h with
        owned := h.owned.drop hpop rfl rfl, failures := ?_, toSend := (h.toSend.pop hpop).2 }⟩
      rw [List.length_append, h.failures]
      rfl
  | written hpop =>
      exact ⟨leaked, { h with
        owned := h.owned.destroy hpop rfl rfl, toSend := (h.toSend.pop hpop).2 }⟩

/-- A round of `ReadPackets` creates a packet or none. -/
theorem Accounted.readNext (h : Accounted handle passed leaked returned si)
    {uninit : Nat → Uninit} {size : Int} {buffer data : Memory} {again : Bool}
    (hround : readNext f uninit size (si, buffer) = .ok (again, si', data)) :
    Accounted handle passed leaked returned si' := by
  obtain ⟨n, address, socket, -, hreceives, hreads⟩ := readNext_cases hround
  have hsocket : Accounted handle passed leaked returned { si with socket } := by
    cases hreceives <;> exact { h with handle := h.handle }
  have hvalid : 0 < n → address.isValid = true := by
    intro hn
    cases hreceives with
    | idle | failed | empty => exact absurd hn (lt_irrefl 0)
    | datagram _ haddress => exact Address.isValid_ofSockaddr haddress
  cases hreads with
  | idle => exact hsocket
  | overflow | failed => exact { hsocket with }
  | read hn =>
      refine { hsocket with toReturn := hsocket.toReturn.push (hvalid hn), read := ?_ }
      change si.count .packetsRead + 1 = (si.receiveQueue.accepted ++ [_]).length
      rw [h.read, List.length_append]
      rfl

/-! ## a whole life -/

variable {o o' : Observed} {released : Nat → Bool} {memory : Nat → U8} {protocolId : U32}
  {size : Int}
  {sendQueueSize receiveQueueSize : Int}

/-- The step lemma: every call keeps the account. -/
theorem Accounted.step (h : Accounted handle o.passed leaked (o.returned.map (·.1)) o.si) {c : Call}
    (hstep : step f packetAt o c = .ok o') :
    ∃ leaked', Accounted handle o'.passed leaked' (o'.returned.map (·.1)) o'.si := by
  cases step_cases hstep with
  | sendPacket hsend =>
      refine ⟨leaked, ?_⟩
      rw [Observed.passed, List.map_append]
      exact h.sendPacket hsend
  | @receivePacket sender sender' packet _ hreceive =>
      have hreturned := h.receivePacket hreceive
      refine ⟨leaked, ?_⟩
      rw [List.map_append]
      cases packet <;> exact hreturned
  | writePackets hwrite =>
      refine Loop.loop_inv (I := fun s => ∃ leaked',
        Accounted handle o.passed leaked' (o.returned.map (·.1)) s) ?_ ⟨leaked, h⟩ hwrite
      rintro s again s' ⟨leaked', hs⟩ hround
      exact hs.writeNext (writeNext_cases hround)
  | readPackets hread =>
      exact ⟨leaked, readPackets_inv (fun s _ _ _ _ hs hround => hs.readNext hround) h hread⟩
  | setContext | arrive => exact ⟨leaked, { h with }⟩

/-- A new interface has no packets. -/
theorem new_accounted {socket : Socket}
    (hnew : new f released memory protocolId socket size sendQueueSize receiveQueueSize = .ok si) :
    Accounted socket.socket (Observed.start si).passed []
      ((Observed.start si).returned.map (·.1)) (Observed.start si).si := by
  simp only [new, Except.bind_eq_ok_iff, Except.pure_eq_ok_iff] at hnew
  obtain ⟨-, -, -, -, -, -, P, -, -, -, rfl⟩ := hnew
  exact ⟨fun _ => rfl, rfl, fun _ he => absurd he List.not_mem_nil,
    fun _ he => absurd he List.not_mem_nil, rfl, rfl, rfl⟩

/-- The run lemma: the account holds after every run. -/
theorem run_accounted {socket : Socket}
    (hnew : new f released memory protocolId socket size sendQueueSize receiveQueueSize = .ok si)
    {calls : List Call} (hrun : Run.run (SocketInterface.step f packetAt) calls (.start si) = .ok o) :
    ∃ leaked, Accounted socket.socket o.passed leaked (o.returned.map (·.1)) o.si := by
  have hkept : ∀ (o : Observed) (c : Call) (o' : Observed),
      (∃ leaked, Accounted socket.socket o.passed leaked (o.returned.map (·.1)) o.si) → True →
      SocketInterface.step f packetAt o c = .ok o' →
      ∃ leaked, Accounted socket.socket o'.passed leaked (o'.returned.map (·.1)) o'.si := by
    rintro o c o' ⟨leaked, h⟩ - hstep
    exact h.step hstep
  exact Run.run_inv hkept (fun _ _ => trivial) ⟨[], new_accounted hnew⟩ hrun

/-- A packet is written, and another one is still in the queue at the end. -/
def sampleLife : List Call :=
  [.sendPacket (.ipv4 0 0) 0 0, .writePackets, .sendPacket (.ipv4 0 0) 1 0]

theorem sampleLife_run : ∃ si o, sampleInterface = .ok si ∧
    Run.run (SocketInterface.step ⟨106⟩ samplePackets) sampleLife (.start si) = .ok o ∧
      o.passed = [0, 1] := by
  have hsample : (do
      let si ← sampleInterface
      let o ← Run.run (SocketInterface.step ⟨106⟩ samplePackets) sampleLife (.start si)
      return o.passed) = .ok [0, 1] := by decide +kernel
  obtain ⟨si, hnew, hsample⟩ := Except.bind_eq_ok_iff.mp hsample
  obtain ⟨o, hrun, hpassed⟩ := Except.bind_eq_ok_iff.mp hsample
  exact ⟨si, o, hnew, hrun, Except.pure_eq_ok_iff.mp hpassed⟩

/-- The handle that `bind` has failed for is overwritten, for IPv6. -/
theorem closed_new_iff {type : SocketType} {sys : Setup} {sendto : Nat → Int} :
    (Socket.new type sys sendto).closed = [sys.socket] ↔ sys.socket ≠ 0 ∧
      ¬(type = .ipv6 ∧ 0 < sys.socket ∧ sys.setsockopt = 0 ∧ sys.bind < 0 ∧
        sys.socket ≠ SocketError.bindIpv6Failed.value) := by
  by_cases hlost : type = .ipv6 ∧ 0 < sys.socket ∧ sys.setsockopt = 0 ∧ sys.bind < 0
  · obtain ⟨rfl, hpos, hopt, hbind⟩ := hlost
    have hsocket : (Socket.new .ipv6 sys sendto).socket = SocketError.bindIpv6Failed.value := by
      simp [Socket.new, hopt, hbind, not_le.mpr hpos]
    have hvalue : SocketError.bindIpv6Failed.value ≠ 0 := by decide
    rw [Socket.closed, hsocket, if_pos hvalue]
    constructor
    · intro h
      exact ⟨hpos.ne', fun hne => hne.2.2.2.2 (List.singleton_inj.mp h).symm⟩
    · rintro ⟨-, h⟩
      by_contra hne
      exact h ⟨rfl, hpos, hopt, hbind, fun heq => hne (by rw [heq])⟩
  · have hsocket : (Socket.new type sys sendto).socket = sys.socket := by
      unfold Socket.new
      split_ifs with hnone hopt hbind <;> try rfl
      refine absurd ⟨hbind.1, by omega, ?_, hbind.2⟩ hlost
      by_contra hne
      exact hopt ⟨hbind.1, hne⟩
    rw [Socket.closed, hsocket]
    constructor
    · intro h
      refine ⟨fun hzero => ?_, fun hlost' =>
        hlost ⟨hlost'.1, hlost'.2.1, hlost'.2.2.1, hlost'.2.2.2.1⟩⟩
      rw [if_neg (not_not.mpr hzero)] at h
      exact absurd h (List.cons_ne_nil _ _).symm
    · rintro ⟨hne, -⟩
      exact if_pos hne

/-- In every run the destructor closes the handle that `socket` has returned, once, but for the
handle 0 and for the one that was overwritten with an error code. -/
theorem teardown_closes_iff {type : SocketType} {sys : Setup} {sendto : Nat → Int}
    (hnew : new f released memory protocolId (Socket.new type sys sendto) size sendQueueSize
      receiveQueueSize = .ok si)
    {calls : List Call} (hrun : Run.run (SocketInterface.step f packetAt) calls (.start si) = .ok o) :
    ∃ remains : Remains, o.si.teardown = .ok remains ∧
      (remains.closed = [sys.socket] ↔ sys.socket ≠ 0 ∧
        ¬(type = .ipv6 ∧ 0 < sys.socket ∧ sys.setsockopt = 0 ∧ sys.bind < 0 ∧
          sys.socket ≠ SocketError.bindIpv6Failed.value)) := by
  obtain ⟨leaked, h⟩ := run_accounted hnew hrun
  refine ⟨_, teardown_ok h.toSend h.toReturn, ?_⟩
  have hclosed : o.si.socket.closed = (Socket.new type sys sendto).closed := by
    rw [Socket.closed, Socket.closed, h.handle]
  rw [← @closed_new_iff type sys sendto, ← hclosed]

/-- The socket of the example is closed. -/
theorem teardown_closes_iff_sample : ∃ (si : SocketInterface) (o : Observed),
    sampleInterface = .ok si ∧ o.passed = [0, 1] ∧
    ∃ remains : Remains, o.si.teardown = .ok remains ∧
      (remains.closed = [3] ↔ (3 : Int) ≠ 0 ∧
        ¬(SocketType.ipv4 = .ipv6 ∧ (0 : Int) < 3 ∧ (0 : Int) = 0 ∧ (0 : Int) < 0 ∧
          (3 : Int) ≠ SocketError.bindIpv6Failed.value)) := by
  obtain ⟨si, o, hnew, hrun, hpassed⟩ := sampleLife_run
  exact ⟨si, o, hnew, hpassed, teardown_closes_iff hnew hrun⟩

end SocketInterface

end RudpNetwork
