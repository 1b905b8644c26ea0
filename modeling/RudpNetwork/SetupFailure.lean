import RudpNetwork.Ledger

/-!
# RudpNetwork.SetupFailure

A socket that could not be set up.

The constructor of `Socket` records a failure in `m_error`, and the methods of
`SocketInterface` look at it before they do anything.  `Unused` is what an
interface over a failed socket has done, after any number of calls: nothing.  One
branch of the constructor writes the error to the handle instead.

## Main results

* `Unused.run` — an interface over a failed socket does nothing, after any calls.
* `neverUsed_iff` — for which socket types and failures that is so.
-/

namespace RudpNetwork

open MachineInt

/-! ## the constructor -/

/-- A call that the constructor makes fails. The first failure is the last call. -/
def Setup.Fails (type : SocketType) (sys : Setup) : Prop :=
  sys.socket ≤ 0 ∨ (type = .ipv6 ∧ sys.setsockopt ≠ 0) ∨ sys.bind < 0 ∨ sys.fcntl = -1

/-- The call that fails is the one of `bind` for IPv6. -/
def Setup.BindsIpv6Badly (type : SocketType) (sys : Setup) : Prop :=
  type = .ipv6 ∧ 0 < sys.socket ∧ sys.setsockopt = 0 ∧ sys.bind < 0

/-- Every other failure is recorded. -/
theorem Socket.isError_new (type : SocketType) (sys : Setup) (sendto : Nat → Int) :
    (new type sys sendto).isError = true ↔ sys.Fails type ∧ ¬sys.BindsIpv6Badly type := by
  unfold new isError Setup.Fails Setup.BindsIpv6Badly
  cases type <;> split_ifs <;> simp_all

/-- After that one the socket passes for a working one, with the error as its handle. -/
theorem Socket.working_new {type : SocketType} {sys : Setup} (h : sys.BindsIpv6Badly type)
    (sendto : Nat → Int) : (new type sys sendto).Working ∧ (new type sys sendto).socket = 5 := by
  obtain ⟨rfl, hsocket, hopt, hbind⟩ := h
  have hnew : new .ipv6 sys sendto =
      { error := .none, socket := 5, incoming := .empty, sent := [], sendto } := by
    rw [new, if_neg (by omega), if_neg (by simp [hopt]), if_pos ⟨rfl, hbind⟩]
    rfl
  rw [hnew]
  exact ⟨⟨rfl, show (5 : Int) ≠ 0 by decide⟩, rfl⟩

namespace SocketInterface

/-! ## runs over a failed socket -/

/-- The calls that send, write and receive, and what happens between them. `SendPacket`
is for valid addresses. -/
def Call.SendsOrReceives : Call → Prop
  | .sendPacket address _ _ => address.isValid = true
  | .readPackets _ _ => False
  | _ => True

/-- The socket reports an error, and nothing was queued, sent or returned. -/
structure Unused (o : Observed) : Prop where
  isError : o.si.isError = true
  queued : o.si.sendQueue.accepted = []
  sent : o.si.socket.sent = []
  returned : o.returned = []

variable {f : PacketFactory} {packetAt : PacketPtr → Packet}

/-- Nothing waits to be sent. -/
theorem Unused.items {o : Observed} (h : Unused o) : o.si.sendQueue.items = [] := by
  have horder := o.si.sendQueue.inOrder
  rw [h.queued] at horder
  exact (List.append_eq_nil_iff.mp horder.symm).2

/-- Every call completes and does nothing. -/
theorem Unused.step {o : Observed} (h : Unused o) {c : Call} (hc : c.SendsOrReceives) :
    ∃ o', step f packetAt o c = .ok o' ∧ Unused o' := by
  cases c with
  | sendPacket address packet sequence =>
      have hvalid : assert (address.isValid = true) = .ok () := require_eq_ok.mpr hc
      have hsend : o.si.sendPacket address packet sequence = .ok (o.si.destroyPacket packet) := by
        simp only [SocketInterface.sendPacket, Except.bind_eq_ok_iff]
        exact ⟨(), hvalid, by rw [if_pos h.isError]; rfl⟩
      exact ⟨_, Except.bind_eq_ok_iff.mpr ⟨_, hsend, rfl⟩, h.isError, h.queued, h.sent, h.returned⟩
  | receivePacket sender =>
      have hreceive : o.si.receivePacket sender = .ok (none, sender, o.si) := by
        rw [SocketInterface.receivePacket, if_pos h.isError]
        rfl
      exact ⟨_, Except.bind_eq_ok_iff.mpr ⟨_, hreceive, rfl⟩, h.isError, h.queued, h.sent,
        (List.append_nil _).trans h.returned⟩
  | writePackets =>
      have hidle : writeNext f packetAt o.si = .ok (false, o.si) := by
        rw [writeNext, Fifo.pop_eq_none.mpr h.items]
        rfl
      exact ⟨_, Except.bind_eq_ok_iff.mpr ⟨_, Loop.loop_break hidle, rfl⟩, h.isError, h.queued, h.sent,
        h.returned⟩
  | readPackets memory uninit => exact hc.elim
  | setContext context => exact ⟨_, rfl, h.isError, h.queued, h.sent, h.returned⟩
  | arrive r => exact ⟨_, rfl, h.isError, h.queued, h.sent, h.returned⟩

/-- A run over a failed socket completes, and the socket was not used. -/
theorem Unused.run {o : Observed} (h : Unused o) {calls : List Call}
    (hcalls : ∀ c ∈ calls, c.SendsOrReceives) :
    ∃ o', Run.run (SocketInterface.step f packetAt) calls o = .ok o' ∧ Unused o' :=
  Run.run_keeps_along (C := fun _ (c : Call) => c.SendsOrReceives) (fun _ _ hs hc => hs.step hc) h
    (Run.along_of_forall hcalls o)

/-- An interface whose socket has an error is not used. -/
theorem new_unused {released : Nat → Bool} {memory : Nat → U8} {protocolId : U32}
    {type : SocketType} {sys : Setup} {sendto : Nat → Int} {size sendQueueSize receiveQueueSize : Int}
    {si : SocketInterface}
    (herror : (Socket.new type sys sendto).isError = true)
    (hnew : new f released memory protocolId (Socket.new type sys sendto) size sendQueueSize receiveQueueSize =
      .ok si) : Unused (.start si) := by
  obtain ⟨-, hsent⟩ := Socket.new_idle type sys sendto
  simp only [new, Except.bind_eq_ok_iff, Except.pure_eq_ok_iff] at hnew
  obtain ⟨-, -, -, -, -, -, P, -, -, -, rfl⟩ := hnew
  exact ⟨herror, rfl, hsent, rfl⟩

/-- If a call of the constructor fails, the socket reports an error, and every run of an
interface over it completes without having used it. -/
def NeverUsed (type : SocketType) (sys : Setup) : Prop :=
  sys.Fails type → ∀ sendto, (Socket.new type sys sendto).isError = true ∧
    ∀ (f : PacketFactory) (packetAt : PacketPtr → Packet) (released : Nat → Bool)
      (memory : Nat → U8) (protocolId : U32) (size sendQueueSize receiveQueueSize : Int)
      (si : SocketInterface) (calls : List Call),
      new f released memory protocolId (Socket.new type sys sendto) size sendQueueSize receiveQueueSize =
        .ok si → (∀ c ∈ calls, c.SendsOrReceives) →
      ∃ o, Run.run (SocketInterface.step f packetAt) calls (.start si) = .ok o ∧ Unused o

/-- A failed socket is never used, unless it is `bind` that failed, for IPv6. -/
theorem neverUsed_iff (type : SocketType) (sys : Setup) :
    NeverUsed type sys ↔ ¬sys.BindsIpv6Badly type := by
  constructor
  · intro h hbind
    have hfails : sys.Fails type := .inr (.inr (.inl hbind.2.2.2))
    obtain ⟨herror, -⟩ := h hfails fun _ => 0
    exact ((Socket.isError_new type sys _).mp herror).2 hbind
  · intro hbind hfails sendto
    have herror := (Socket.isError_new type sys sendto).mpr ⟨hfails, hbind⟩
    refine ⟨herror, ?_⟩
    intro f packetAt released memory protocolId size sendQueueSize receiveQueueSize si calls hnew hcalls
    exact (new_unused herror hnew).run hcalls

/-- The port of an IPv6 socket is taken, and no error is reported. -/
theorem not_neverUsed : ¬∀ (type : SocketType) (sys : Setup), NeverUsed type sys := by
  intro h
  have hfails : (⟨3, 0, -1, 0⟩ : Setup).Fails .ipv6 := .inr (.inr (.inl (by decide)))
  obtain ⟨herror, -⟩ := h .ipv6 ⟨3, 0, -1, 0⟩ hfails fun _ => 8
  exact absurd herror (by decide)

end SocketInterface

end RudpNetwork
