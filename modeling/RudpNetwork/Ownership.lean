import Mathlib.Data.List.Nodup
import RudpNetwork.Ledger

/-!
# RudpNetwork.Ownership

Who destroys an outgoing packet.

`SendPacket` takes a packet over.  From then on it is in one of three places: in the
send queue, among the packets that went to `DestroyPacket`, or among those that
`WritePackets` dropped because `WritePacket` returned nothing.  `Owned` is this
account; it holds after any calls, over a socket in any state.  The packets in the
third place are destroyed by nobody.

## Main results

* `Owned.step` — every call keeps the account.
* `destroyedOnce_run` — a run in which every packet was written destroys each of them once.
* `not_destroyedOnce` — a packet that could not be written is never destroyed.
-/

namespace RudpNetwork

open MachineInt

namespace SocketInterface

variable {f : PacketFactory} {packetAt : PacketPtr → Packet} {si si' : SocketInterface}

/-! ## the account -/

/-- The packets that were passed to `SendPacket`. -/
def Observed.passed (o : Observed) : List PacketPtr := o.sends.map (·.packet)

/-- The packets in the send queue. -/
def queued (si : SocketInterface) : List PacketPtr := si.sendQueue.items.map (·.packet)

/-- Every packet of `passed` is destroyed, in the queue, or in `leaked`, as often as it
was passed. -/
def Owned (passed leaked : List PacketPtr) (si : SocketInterface) : Prop :=
  ∀ p, passed.count p = si.destroyed.count p + si.queued.count p + leaked.count p

/-- The next packet of the queue is one that `WritePacket` does not write. -/
def FailsToWrite (f : PacketFactory) (packetAt : PacketPtr → Packet) (si : SocketInterface) : Prop :=
  ∃ entry sendQueue n data, si.sendQueue.pop = some (entry, sendQueue) ∧
    writePacket f si.packetProcessor.packetInfo (packetAt entry.packet)
      si.packetProcessor.packetBuffer si.getMaxPacketSize none = .ok (n, data) ∧ n ≤ 0

instance (f : PacketFactory) (packetAt : PacketPtr → Packet) (si : SocketInterface) :
    Decidable (FailsToWrite f packetAt si) :=
  match hpop : si.sendQueue.pop with
  | none => isFalse fun ⟨_, _, _, _, h, _⟩ => by rw [hpop] at h; contradiction
  | some (entry, sendQueue) =>
    match hwrite : writePacket f si.packetProcessor.packetInfo (packetAt entry.packet)
        si.packetProcessor.packetBuffer si.getMaxPacketSize none with
    | .error e => isFalse fun ⟨_, _, _, _, h, h', _⟩ => by
        rw [hpop] at h
        obtain ⟨rfl, rfl⟩ := Prod.mk.inj (Option.some.inj h)
        rw [hwrite] at h'
        contradiction
    | .ok (n, data) =>
      if hn : n ≤ 0 then isTrue ⟨entry, sendQueue, n, data, hpop, hwrite, hn⟩
      else isFalse fun ⟨_, _, _, _, h, h', h''⟩ => by
        rw [hpop] at h
        obtain ⟨rfl, rfl⟩ := Prod.mk.inj (Option.some.inj h)
        rw [hwrite] at h'
        obtain ⟨rfl, rfl⟩ := Prod.mk.inj (Except.ok.inj h')
        exact hn h''

/-- The front of the queue comes first among the queued packets. -/
theorem queued_pop {entry : PacketEntry PacketPtr} {sendQueue : Fifo (PacketEntry PacketPtr)}
    (hpop : si.sendQueue.pop = some (entry, sendQueue)) :
    si.queued = entry.packet :: sendQueue.items.map (·.packet) := by
  obtain ⟨hitems, -, -⟩ := Fifo.pop_eq_some hpop
  rw [queued, hitems, List.map_cons]

variable {passed leaked : List PacketPtr}

/-- `SendPacket` destroys the packet or queues it. -/
theorem Owned.sendPacket (h : Owned passed leaked si) {entry : PacketEntry PacketPtr}
    (hsends : Sends si entry si') : Owned (passed ++ [entry.packet]) leaked si' := by
  intro p
  have howned := h p
  rw [List.count_append, howned]
  cases hsends with
  | refused | overflow =>
      change _ = (si.destroyed ++ [entry.packet]).count p + si.queued.count p + leaked.count p
      rw [List.count_append]
      omega
  | queued =>
      change _ = si.destroyed.count p +
        ((si.sendQueue.items ++ [entry]).map (·.packet)).count p + leaked.count p
      rw [List.map_append, List.count_append]
      change _ = si.destroyed.count p + (si.queued.count p + [entry.packet].count p) + leaked.count p
      omega

/-- A packet that is dropped leaves the queue for the third place. -/
theorem Owned.drop (h : Owned passed leaked si) {entry : PacketEntry PacketPtr}
    {sendQueue : Fifo (PacketEntry PacketPtr)} (hpop : si.sendQueue.pop = some (entry, sendQueue))
    (hqueue : si'.sendQueue = sendQueue) (hdestroyed : si'.destroyed = si.destroyed) :
    Owned passed (leaked ++ [entry.packet]) si' := by
  intro p
  have howned := h p
  rw [queued_pop hpop, List.count_cons, ← List.count_singleton] at howned
  rw [List.count_append, queued, hqueue, hdestroyed]
  omega

/-- A packet that is destroyed leaves the queue for the second place. -/
theorem Owned.destroy (h : Owned passed leaked si) {entry : PacketEntry PacketPtr}
    {sendQueue : Fifo (PacketEntry PacketPtr)} (hpop : si.sendQueue.pop = some (entry, sendQueue))
    (hqueue : si'.sendQueue = sendQueue)
    (hdestroyed : si'.destroyed = si.destroyed ++ [entry.packet]) : Owned passed leaked si' := by
  intro p
  have howned := h p
  rw [queued_pop hpop, List.count_cons, ← List.count_singleton] at howned
  rw [queued, hqueue, hdestroyed, List.count_append]
  omega

/-- `WritePackets` destroys what it has written, and drops what it could not write. -/
theorem Owned.writeNext (h : Owned passed leaked si) {again : Bool}
    (hwrites : Writes f packetAt si again si') :
    Owned passed leaked si' ∨
      FailsToWrite f packetAt si ∧ ∃ p, Owned passed (leaked ++ [p]) si' := by
  cases hwrites with
  | idle => exact .inl h
  | @failed entry sendQueue n packetBuffer hpop hwrite hn =>
      exact .inr ⟨⟨entry, sendQueue, n, packetBuffer, hpop, hwrite, hn⟩, entry.packet,
        h.drop hpop rfl rfl⟩
  | written hpop => exact .inl (h.destroy hpop rfl rfl)

/-- Reading leaves the packets to be sent alone. -/
theorem Reads.owner {n : Int} {address : Address} {data : Memory} {again : Bool}
    (h : Reads f si n address data again si') :
    si'.sendQueue = si.sendQueue ∧ si'.destroyed = si.destroyed := by
  cases h <;> exact ⟨rfl, rfl⟩

/-- `WritePackets` drops packets only in rounds that fail to write. -/
theorem Owned.writePackets (h : Owned passed leaked si)
    (hwrite : writePackets f packetAt si = .ok si') :
    ∃ leaked', Owned passed leaked' si' ∧
      ((∀ s, Loop.Rounds (SocketInterface.writeNext f packetAt) si s → ¬FailsToWrite f packetAt s) →
        leaked' = leaked) := by
  refine Loop.loop_inv_rounds (I := fun s => ∃ leaked', Owned passed leaked' s ∧
    ((∀ s, Loop.Rounds (SocketInterface.writeNext f packetAt) si s → ¬FailsToWrite f packetAt s) →
      leaked' = leaked)) ?_ ⟨leaked, h, fun _ => rfl⟩ hwrite
  rintro s again s' hreached ⟨leaked', howned, hsame⟩ hround
  rcases howned.writeNext (writeNext_cases hround) with hkept | ⟨hfails, p, hdropped⟩
  · exact ⟨leaked', hkept, hsame⟩
  · exact ⟨_, hdropped, fun hall => absurd hfails (hall s hreached)⟩

/-- `ReadPackets` destroys and keeps no packet of the sending side. -/
theorem Owned.readPackets (h : Owned passed leaked si) {memory : Nat → U8} {uninit : Nat → Uninit}
    (hread : readPackets f memory uninit si = .ok si') : Owned passed leaked si' := by
  refine readPackets_inv (I := Owned passed leaked) ?_ h hread
  intro s buffer again s' data howned hround
  obtain ⟨n, address, socket, -, -, hreads⟩ := readNext_cases hround
  obtain ⟨hqueue, hdestroyed⟩ := hreads.owner
  intro p
  rw [queued, hqueue, hdestroyed]
  exact howned p

/-! ## runs -/

/-- Every packet that `WritePackets` takes from the queue is written. -/
def Call.WritesAll (f : PacketFactory) (packetAt : PacketPtr → Packet) (o : Observed) (c : Call) :
    Prop :=
  c = .writePackets → ∀ si, Loop.Rounds (writeNext f packetAt) o.si si → ¬FailsToWrite f packetAt si

variable {o o' : Observed}

/-- Every call keeps the account. -/
theorem Owned.step (h : Owned o.passed leaked o.si) {c : Call}
    (hstep : step f packetAt o c = .ok o') :
    ∃ leaked', Owned o'.passed leaked' o'.si ∧ (c.WritesAll f packetAt o → leaked' = leaked) := by
  cases step_cases hstep with
  | sendPacket hsend =>
      have howned := h.sendPacket hsend
      refine ⟨leaked, ?_, fun _ => rfl⟩
      rw [Observed.passed, List.map_append]
      exact howned
  | receivePacket hreceive =>
      refine ⟨leaked, ?_, fun _ => rfl⟩
      cases hreceive <;> exact h
  | writePackets hwrite =>
      obtain ⟨leaked', howned, hsame⟩ := h.writePackets hwrite
      exact ⟨leaked', howned, fun hall => hsame (hall rfl)⟩
  | readPackets hread => exact ⟨leaked, h.readPackets hread, fun _ => rfl⟩
  | setContext | arrive => exact ⟨leaked, h, fun _ => rfl⟩

/-- What the caller may rely on: when the queue is empty, every packet was destroyed as
often as it was passed, and a packet in the queue was not destroyed. -/
structure DestroyedOnce (o : Observed) : Prop where
  drained : o.si.sendQueue.items = [] → ∀ p, o.si.destroyed.count p = o.passed.count p
  once : o.passed.Nodup → o.si.sendQueue.items = [] → ∀ p ∈ o.passed, o.si.destroyed.count p = 1
  queued : o.passed.Nodup → ∀ e ∈ o.si.sendQueue.items, e.packet ∉ o.si.destroyed

/-- Where every packet has one owner, none is destroyed twice. -/
theorem Owned.destroyedOnce (h : Owned o.passed [] o.si) : DestroyedOnce o := by
  have hdrained : o.si.sendQueue.items = [] → ∀ p, o.si.destroyed.count p = o.passed.count p := by
    intro hempty p
    have howned := h p
    rw [SocketInterface.queued, hempty] at howned
    exact howned.symm
  refine ⟨hdrained, fun hnodup hempty p hp => ?_, fun hnodup e he hdestroyed => ?_⟩
  · rw [hdrained hempty, List.count_eq_one_of_mem hnodup hp]
  · have hqueue : 0 < o.si.queued.count e.packet :=
      List.count_pos_iff.mpr (List.mem_map_of_mem he)
    have hgone := List.count_pos_iff.mpr hdestroyed
    have hle := List.nodup_iff_count_le_one.mp hnodup e.packet
    have howned := h e.packet
    omega

section Runs

variable {released : Nat → Bool} {memory : Nat → U8} {protocolId : U32} {socket : Socket}
  {size sendQueueSize receiveQueueSize : Int}

/-- A new interface owns nothing. -/
theorem new_owned (hnew : new f released memory protocolId socket size sendQueueSize receiveQueueSize =
      .ok si) :
    Owned (Observed.start si).passed [] si := by
  simp only [new, Except.bind_eq_ok_iff, Except.pure_eq_ok_iff] at hnew
  obtain ⟨-, -, -, -, -, -, P, -, -, -, rfl⟩ := hnew
  exact fun p => rfl

/-- No packet is destroyed twice, whatever is called. -/
theorem destroyed_le
    (hnew : new f released memory protocolId socket size sendQueueSize receiveQueueSize = .ok si)
    {calls : List Call} (hrun : Run.run (SocketInterface.step f packetAt) calls (.start si) = .ok o)
    (p : PacketPtr) : o.si.destroyed.count p ≤ o.passed.count p := by
  have hkept : ∀ (o : Observed) (c : Call) (o' : Observed), (∃ leaked, Owned o.passed leaked o.si) →
      True → SocketInterface.step f packetAt o c = .ok o' →
      ∃ leaked, Owned o'.passed leaked o'.si := by
    rintro o c o' ⟨leaked, howned⟩ - hstep
    obtain ⟨leaked', howned', -⟩ := howned.step hstep
    exact ⟨leaked', howned'⟩
  obtain ⟨leaked, howned⟩ := Run.run_inv (C := fun _ => True) hkept (fun _ _ => trivial)
    ⟨[], new_owned hnew⟩ hrun
  have hp := howned p
  omega

/-- Where every packet is written and none is taken off a queue with its storage, no call
goes on with an entry that is gone, and in every state of the run every packet is destroyed
exactly once. -/
theorem destroyedOnce_run
    (hnew : new f released memory protocolId socket size sendQueueSize receiveQueueSize = .ok si)
    {calls : List Call}
    (hwrites : Run.Along (SocketInterface.step f packetAt)
      (fun o c => c.WritesAll f packetAt o ∧ c.KeepsEntries o) calls (.start si)) :
    Run.Along (SocketInterface.step f packetAt) (fun o c => ¬Dangles f packetAt o c) calls
        (.start si) ∧
      Run.Always (SocketInterface.step f packetAt) DestroyedOnce calls (.start si) := by
  have hkept : ∀ (o : Observed) (c : Call) (o' : Observed), Owned o.passed [] o.si →
      c.WritesAll f packetAt o ∧ c.KeepsEntries o → SocketInterface.step f packetAt o c = .ok o' →
      Owned o'.passed [] o'.si := by
    intro o c o' howned hc hstep
    obtain ⟨leaked, howned', hnone⟩ := howned.step hstep
    rwa [hnone hc.1] at howned'
  refine ⟨hwrites.mono fun o c hc => hc.2.not_dangles, ?_⟩
  exact Run.run_always (fun o howned => howned.destroyedOnce) hkept hwrites (new_owned hnew)

end Runs

/-- A packet that is written, over the socket of the sample. -/
theorem destroyedOnce_run_sample :
    ∃ si o, sampleInterface = .ok si ∧ Run.run (SocketInterface.step ⟨106⟩ samplePackets)
      [.sendPacket (.ipv4 0 0) 0 0, .writePackets] (.start si) = .ok o ∧ o.si.destroyed = [0] ∧
      Run.Along (SocketInterface.step ⟨106⟩ samplePackets)
        (fun o c => ¬Dangles ⟨106⟩ samplePackets o c)
        [.sendPacket (.ipv4 0 0) 0 0, .writePackets] (.start si) ∧
      Run.Always (SocketInterface.step ⟨106⟩ samplePackets) DestroyedOnce
        [.sendPacket (.ipv4 0 0) 0 0, .writePackets] (.start si) := by
  have hsample : (do
      let si ← sampleInterface
      let o₁ ← SocketInterface.step ⟨106⟩ samplePackets (.start si) (.sendPacket (.ipv4 0 0) 0 0)
      let first ← writeNext ⟨106⟩ samplePackets o₁.si
      let last ← writeNext ⟨106⟩ samplePackets first.2
      let o ← SocketInterface.step ⟨106⟩ samplePackets o₁ .writePackets
      return (o.si.destroyed, decide (FailsToWrite ⟨106⟩ samplePackets o₁.si), first.1, last.1,
        decide (FailsToWrite ⟨106⟩ samplePackets first.2))) =
      .ok ([0], false, true, false, false) := by decide +kernel
  simp only [Except.bind_eq_ok_iff, Except.pure_eq_ok_iff, Prod.mk.injEq, decide_eq_false_iff_not]
    at hsample
  obtain ⟨si, hnew, o₁, hsend, ⟨_, next⟩, hfirst, ⟨_, _⟩, hlast, o, hwrite, hdestroyed, hwrites,
    rfl, rfl, hidle⟩ := hsample
  have hrun : Run.run (SocketInterface.step ⟨106⟩ samplePackets)
      [.sendPacket (.ipv4 0 0) 0 0, .writePackets] (.start si) = .ok o :=
    Run.run_cons_eq_ok.mpr ⟨o₁, hsend, Run.run_cons_eq_ok.mpr ⟨o, hwrite, rfl⟩⟩
  have hall : Run.Along (SocketInterface.step ⟨106⟩ samplePackets)
      (fun o c => c.WritesAll ⟨106⟩ samplePackets o)
      [.sendPacket (.ipv4 0 0) 0 0, .writePackets] (.start si) := by
    refine ⟨fun h => absurd h (by simp), fun s hs => ⟨fun _ s₁ hreached => ?_, fun _ _ => trivial⟩⟩
    obtain rfl := Except.ok.inj (hsend.symm.trans hs)
    cases hreached with
    | start => exact hwrites
    | next hround hrest =>
        obtain ⟨-, rfl⟩ := Prod.mk.inj (Except.ok.inj (hfirst.symm.trans hround))
        cases hrest with
        | start => exact hidle
        | next hround' => simp [hlast] at hround'
  have hkeeps := Run.along_of_run (fun _ _ _ hstep => step_keepsEntries hstep) hrun
  exact ⟨si, o, hnew, hrun, hdestroyed, destroyedOnce_run hnew (hall.and hkeeps)⟩

/-- A packet whose `SerializeWrite` returns `false`. -/
def refusingPacket : Packet where
  serializeWrite := Proc.returnFalse
  appends := Proc.Keeps.returnFalse WriteStream.appends_refl
  getType := 0

/-- It leaves the queue, and is never destroyed. -/
theorem not_destroyedOnce :
    ¬∀ (f : PacketFactory) (packetAt : PacketPtr → Packet) (released : Nat → Bool)
      (memory : Nat → U8) (protocolId : U32) (socket : Socket)
      (size sendQueueSize receiveQueueSize : Int) (si : SocketInterface)
      (calls : List Call) (o : Observed),
      new f released memory protocolId socket size sendQueueSize receiveQueueSize = .ok si →
      Run.run (SocketInterface.step f packetAt) calls (.start si) = .ok o → DestroyedOnce o := by
  intro h
  have hleak : (do
      let si ← sampleInterface
      let o ← Run.run (SocketInterface.step ⟨106⟩ fun _ => refusingPacket)
        [.sendPacket (.ipv4 0 0) 0 0, .writePackets] (.start si)
      return (o.si.sendQueue.items.isEmpty, o.si.destroyed, o.passed)) = .ok (true, [], [0]) := by
    decide +kernel
  simp only [Except.bind_eq_ok_iff, Except.pure_eq_ok_iff, Prod.mk.injEq] at hleak
  obtain ⟨si, hnew, o, hrun, hempty, hdestroyed, hpassed⟩ := hleak
  have honce := (h _ _ _ _ _ _ _ _ _ si _ o hnew hrun).drained (List.isEmpty_iff.mp hempty) 0
  rw [hdestroyed, hpassed] at honce
  contradiction

end SocketInterface

end RudpNetwork
