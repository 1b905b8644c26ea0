import RudpNetwork.Ledger

/-!
# RudpNetwork.Contexts

Which context a packet finds in its stream.

`WritePacket` and `ReadPacket` hand the context of their `PacketInfo` to the stream,
and the processor puts the context that it was made with into that `PacketInfo`.
`SetContext` of the interface does not reach the processor.  `SeesContext` names every
call of `SerializeWrite` and `SerializeRead` in a run, with the context of its stream.

## Main results

* `CallsSerializeWrite.context`, `CallsSerializeRead.context` — a packet finds the context
  of its `PacketInfo`.
* `run_context` — no call of a run changes the context of the processor.
* `contextsReach_iff` — the runs in which every packet sees the context that was set.
-/

namespace RudpNetwork

open MachineInt
open Proc (Leaves)
open ReadStream (onStream orReturn assign)

/-! ## the stream of a packet that is written -/

/-- `WritePacket` before it calls `SerializeWrite` of the packet, without a header. -/
def beforeSerializeWrite (f : PacketFactory) (info : PacketInfo) (packetType : Int) :
    Proc Fault (WriteStream Memory) Unit := do
  writePrefix info
  writeCrc32 info
  writeHeader none
  writeType f packetType

/-- `WritePacket` calls `SerializeWrite` of the packet with the stream `s`. -/
def CallsSerializeWrite (f : PacketFactory) (info : PacketInfo) (packet : Packet) (buffer : Memory)
    (bufferSize : Int) (s : WriteStream Memory) : Prop :=
  0 < bufferSize ∧ info.protocolId ≠ 0 ∧ ∃ s₀, WriteStream.init buffer bufferSize = .ok s₀ ∧
    beforeSerializeWrite f info packet.getType { s₀ with context := info.context } = .ok (some (), s)

variable {f : PacketFactory} {info : PacketInfo} {packet : Packet} {buffer : Memory}
  {bufferSize : Int}

/-- `WritePacket` up to the call of `SerializeWrite`, and that call. -/
theorem writeStages_eq : writeStages f info packet none =
    beforeSerializeWrite f info packet.getType >>= fun _ => packet.serializeWrite := by
  simp only [writeStages, beforeSerializeWrite, Proc.bind_assoc]

/-- What `WritePacket` does from there on. -/
theorem CallsSerializeWrite.writePacket_eq {s : WriteStream Memory}
    (h : CallsSerializeWrite f info packet buffer bufferSize s) :
    writePacket f info packet buffer bufferSize none = (do
      let (result, stream) ← packet.serializeWrite s
      match result with
      | none => return (0, stream.getData)
      | some () => finishPacket info stream) := by
  obtain ⟨hsize, hid, s₀, hinit, hbefore⟩ := h
  have hsize' : assert (0 < bufferSize) = .ok () := require_eq_ok.mpr hsize
  have hid' : assert (info.protocolId ≠ 0) = .ok () := require_eq_ok.mpr hid
  have hstages : writeStages f info packet none { s₀ with context := info.context } =
      packet.serializeWrite s := by
    rw [writeStages_eq]
    exact Proc.bind_run_some hbefore
  rw [writePacket, hsize', hid', hinit, ← hstages]
  rfl

/-- The stages before the body go on whatever the stream answers. -/
theorem neverFalse_beforeSerializeWrite (packetType : Int) :
    Proc.NeverFalse (beforeSerializeWrite f info packetType) := by
  refine .bind (.times (.ignore _) _) fun _ => .bind ?_ fun _ => .bind (.pure ()) fun _ =>
    .bind (.lift _) fun _ => ?_
  · unfold writeCrc32
    split
    · exact .pure ()
    · exact .ignore _
  · split
    · exact .ignore _
    · exact .pure ()

/-- A call of `WritePacket` that completes has called `SerializeWrite`. -/
theorem exists_callsSerializeWrite {r : Int × Memory}
    (h : writePacket f info packet buffer bufferSize none = .ok r) :
    ∃ s, CallsSerializeWrite f info packet buffer bufferSize s := by
  simp only [writePacket, Except.bind_eq_ok_iff, require_eq_ok] at h
  obtain ⟨-, hsize, -, hid, s₀, hinit, ⟨result, stream⟩, hstages, -⟩ := h
  rw [writeStages_eq] at hstages
  rcases Proc.bind_run_ok hstages with ⟨hnone, -⟩ | ⟨_, s, hbefore, -⟩
  · exact absurd hnone (neverFalse_beforeSerializeWrite _ _ _)
  · exact ⟨s, hsize, hid, s₀, hinit, hbefore⟩

/-- An operation of the bit writer does not touch the context. -/
theorem WriteStream.leaves_onWriter (g : BitWriter Memory → Except Fault (BitWriter Memory)) :
    Leaves (·.context) (onWriter g) := by
  intro s o s' h
  obtain ⟨w, -, -, rfl⟩ := onWriter_run_ok h
  rfl

/-- Nothing in front of `SerializeWrite` touches the context. -/
theorem leaves_beforeSerializeWrite (packetType : Int) :
    Leaves (·.context) (beforeSerializeWrite f info packetType) := by
  have hbits : ∀ value bits, Leaves (·.context)
      (WriteStream.serializeBits value bits : Proc Fault (WriteStream Memory) Unit) := fun _ _ =>
    .bind (.lift _) fun _ => .bind (.lift _) fun _ => WriteStream.leaves_onWriter _
  refine .bind (.times (.ignore (hbits _ _)) _) fun _ => .bind ?_ fun _ => .bind (.pure ()) fun _ =>
    .bind (.lift _) fun _ => ?_
  · unfold writeCrc32
    split
    · exact .pure ()
    · exact .ignore (hbits _ _)
  · split
    · exact .ignore (.bind (.lift _) fun _ => .bind (.lift _) fun _ => .bind (.lift _) fun _ =>
        WriteStream.leaves_onWriter _)
    · exact .pure ()

/-- The stream has the context of the `PacketInfo`. -/
theorem CallsSerializeWrite.context {s : WriteStream Memory}
    (h : CallsSerializeWrite f info packet buffer bufferSize s) : s.context = info.context := by
  obtain ⟨-, -, s₀, -, hbefore⟩ := h
  exact leaves_beforeSerializeWrite packet.getType _ _ _ hbefore

/-! ## the stream of a packet that is read -/

/-- `ReadPacket` before it calls `SerializeRead` of the packet that it created, without
a header. -/
def beforeSerializeRead (f : PacketFactory) (uninit : Uninit) (info : PacketInfo) (buffer : Memory)
    (bufferSize : Int) : ReadProc Memory (ReadResult Unit) FactoryPacket := do
  readPrefix info
  checkCrc32 info buffer bufferSize
  readHeader none
  let packetType ← readType f
  makePacket uninit packetType

/-- `ReadPacket` calls `SerializeRead` of the new packet with the stream `s`. -/
def CallsSerializeRead (f : PacketFactory) (uninit : Uninit) (info : PacketInfo) (buffer : Memory)
    (bufferSize : Int) (packet : FactoryPacket) (s : ReadStream Memory) : Prop :=
  0 < bufferSize ∧ info.protocolId ≠ 0 ∧ ∃ r, beforeSerializeRead f uninit info buffer bufferSize
    ({ ReadStream.init buffer bufferSize with context := info.context }, { header := () }) =
      .ok (some packet, s, r)

variable {uninit : Uninit}

/-- `ReadPacket` up to the call of `SerializeRead`, and what comes after. -/
theorem checkedStages_eq_before : checkedStages f uninit info buffer bufferSize
      (none : Option (ObjectClass Unit)) =
    beforeSerializeRead f uninit info buffer bufferSize >>= fun packet => do
      let packet ← readBody packet
      checkError
      return packet := by
  simp only [checkedStages, readStages, beforeSerializeRead, Proc.bind_assoc]

/-- What `ReadPacket` does from there on. -/
theorem CallsSerializeRead.readPacket_eq {packet : FactoryPacket} {s : ReadStream Memory}
    (h : CallsSerializeRead f uninit info buffer bufferSize packet s) :
    ∃ r, readPacket f uninit info buffer bufferSize (none : Option (ObjectClass Unit)) () = (do
      let (packet, _, result) ← (do
        let packet ← readBody packet
        checkError
        return packet : ReadProc Memory (ReadResult Unit) FactoryPacket) (s, r)
      return (packet, result)) := by
  obtain ⟨hsize, hid, r, hbefore⟩ := h
  have hsize' : assert (0 < bufferSize) = .ok () := require_eq_ok.mpr hsize
  have hid' : assert (info.protocolId ≠ 0) = .ok () := require_eq_ok.mpr hid
  have hstages : checkedStages f uninit info buffer bufferSize (none : Option (ObjectClass Unit))
      ({ ReadStream.init buffer bufferSize with context := info.context }, { header := () }) =
      (do
        let packet ← readBody packet
        checkError
        return packet : ReadProc Memory (ReadResult Unit) FactoryPacket) (s, r) := by
    rw [checkedStages_eq_before]
    exact Proc.bind_run_some hbefore
  refine ⟨r, ?_⟩
  rw [readPacket, hsize', hid', ← hstages]
  rfl

section Leaves

variable {τ : Type}

/-- Taking bits does not touch the context. -/
theorem ReadStream.leaves_takeBits (bits : Int) :
    Leaves (·.context) (takeBits bits : Proc Fault (ReadStream Memory) U32) := by
  refine .bind ?_ fun _ => .bind ?_ fun _ => .bind (.modify fun _ => rfl) fun _ => .pure _
  · intro s o s' h
    rcases checkOverflow_run_ok h with ⟨-, rfl⟩ | ⟨-, rfl⟩ <;> rfl
  · intro s o s' h
    obtain ⟨_, _, -, -, rfl⟩ := onReader_run_ok h
    rfl

theorem leaves_onStream {α : Type} {x : Proc Fault (ReadStream Memory) α} (hx : Leaves (·.context) x) :
    Leaves (·.1.context) (onStream x : ReadProc Memory τ α) := by
  rintro ⟨s, o⟩ a s' h
  exact hx s a s'.1 (ReadStream.onStream_run_ok h).1

theorem leaves_orReturn {α : Type} {x : ReadProc Memory τ α} {g : τ → τ}
    (hx : Leaves (·.1.context) x) : Leaves (·.1.context) (orReturn g x) := by
  rintro s a s' h
  unfold ReadStream.orReturn at h
  split at h
  · contradiction
  · next a' s₁ hrun =>
      obtain ⟨-, rfl⟩ := Prod.mk.inj (Except.ok.inj h)
      exact hx s _ _ hrun
  · next s₁ o hrun =>
      obtain ⟨-, rfl⟩ := Prod.mk.inj (Except.ok.inj h)
      exact hx s none (s₁, o) hrun

theorem leaves_assign (g : τ → τ) : Leaves (·.1.context) (assign g : ReadProc Memory τ Unit) :=
  .modify fun _ => rfl

/-- Nothing in front of `SerializeRead` touches the context. -/
theorem leaves_beforeSerializeRead :
    Leaves (·.1.context) (beforeSerializeRead f uninit info buffer bufferSize) := by
  have hbits : ∀ {τ : Type} (bits : Int), Leaves (·.1.context)
      (onStream (ReadStream.serializeBits bits) : ReadProc Memory τ U32) := fun bits =>
    leaves_onStream (.bind (.lift _) fun _ => .bind (.lift _) fun _ => ReadStream.leaves_takeBits bits)
  refine .bind (.times (.ignore (hbits _)) _) fun _ => .bind ?_ fun _ => .bind (.pure ()) fun _ =>
    .bind (.bind (.lift _) fun _ => ?_) fun packetType => .bind (.lift _) fun packet => ?_
  · unfold checkCrc32
    split
    · exact .pure ()
    · exact .bind (.bind (.attempt (hbits _)) fun _ => .pure _) fun _ => .bind (.lift _) fun _ =>
        leaves_orReturn (.check _)
  · split
    · exact leaves_orReturn (leaves_onStream (.bind (.lift _) fun _ =>
        .bind (ReadStream.leaves_takeBits _) fun _ => .pure _))
    · exact .pure 0
  · cases packet with
    | none => exact .bind (leaves_assign _) fun _ => .returnFalse
    | some packet => exact .bind (leaves_assign _) fun _ => .pure packet

end Leaves

/-- The stream has the context of the `PacketInfo`. -/
theorem CallsSerializeRead.context {packet : FactoryPacket} {s : ReadStream Memory}
    (h : CallsSerializeRead f uninit info buffer bufferSize packet s) : s.context = info.context := by
  obtain ⟨-, -, r, hbefore⟩ := h
  exact leaves_beforeSerializeRead _ _ _ hbefore

namespace SocketInterface

variable {packetAt : PacketPtr → Packet} {si si' : SocketInterface}

/-! ## the calls of a run -/

/-- During the call, a packet is serialized with a stream that has the context. -/
inductive SeesContext (f : PacketFactory) (packetAt : PacketPtr → Packet) (o : Observed) :
    Call → Context → Prop
  | write {si : SocketInterface} {entry : PacketEntry PacketPtr}
      {sendQueue : Fifo (PacketEntry PacketPtr)} {s : WriteStream Memory}
      (hreached : Loop.Rounds (writeNext f packetAt) o.si si)
      (hpop : si.sendQueue.pop = some (entry, sendQueue))
      (hkept : si.released si.sendQueue.delivered.length = false)
      (hcalls : CallsSerializeWrite f si.packetProcessor.packetInfo (packetAt entry.packet)
        si.packetProcessor.packetBuffer si.getMaxPacketSize s) :
      SeesContext f packetAt o .writePackets s.context
  | read {memory : Nat → U8} {uninit : Nat → Uninit} {si : SocketInterface}
      {packetBuffer buffer data : Memory} {n : Int} {address : Address} {socket : Socket}
      {packet : FactoryPacket} {s : ReadStream Memory}
      (hreached : Loop.Rounds (readNext f uninit o.si.getMaxPacketSize) (o.si, packetBuffer)
        (si, buffer))
      (hreceive : si.socket.receivePacket .clear buffer o.si.getMaxPacketSize =
        .ok (n, address, data, socket)) (hn : 0 < n)
      (hroom : si.receiveQueue.size ≠ sizeT si.receiveQueueSize)
      (hcalls : CallsSerializeRead f (uninit socket.incoming.delivered.length)
        si.packetProcessor.packetInfo data n packet s) :
      SeesContext f packetAt o (.readPackets memory uninit) s.context

/-- The argument of the last call of `SetContext`, or `NULL`. -/
def latestContext (calls : List Call) : Context :=
  calls.foldl (fun latest call => match call with
    | .setContext context => context
    | _ => latest) 0

/-! ## the context of the processor -/

/-- A round of `WritePackets` keeps the context of the processor. -/
theorem Writes.context {again : Bool} (h : Writes f packetAt si again si') :
    si'.packetProcessor.context = si.packetProcessor.context := by
  cases h <;> rfl

/-- A round of `ReadPackets` keeps it as well. -/
theorem Reads.context {n : Int} {address : Address} {data : Memory} {again : Bool}
    (h : Reads f si n address data again si') :
    si'.packetProcessor.context = si.packetProcessor.context := by
  cases h <;> rfl

/-- All rounds of `WritePackets`, by induction on the run of the loop. -/
theorem context_of_writeRounds (h : Loop.Rounds (writeNext f packetAt) si si') :
    si'.packetProcessor.context = si.packetProcessor.context := by
  induction h with
  | start => rfl
  | next hround _ ih => exact ih.trans (writeNext_cases hround).context

/-- All rounds of `ReadPackets`. -/
theorem context_of_readRounds {uninit : Nat → Uninit} {maxPacketSize : Int}
    {s s' : SocketInterface × Memory} (h : Loop.Rounds (readNext f uninit maxPacketSize) s s') :
    s'.1.packetProcessor.context = s.1.packetProcessor.context := by
  induction h with
  | start => rfl
  | @next s s₁ s' hround _ ih =>
      obtain ⟨n, address, socket, -, -, hreads⟩ :=
        @readNext_cases _ _ _ s.1 s₁.1 s.2 s₁.2 true hround
      exact ih.trans hreads.context

/-- No call changes it, `SetContext` included. -/
theorem step_context {o o' : Observed} {c : Call} (h : step f packetAt o c = .ok o') :
    o'.si.packetProcessor.context = o.si.packetProcessor.context := by
  cases step_cases h with
  | sendPacket hsend => cases hsend <;> rfl
  | receivePacket hreceive => cases hreceive <;> rfl
  | writePackets hwrite =>
      exact Loop.loop_inv
        (I := fun s => s.packetProcessor.context = o.si.packetProcessor.context)
        (fun s again s' hs hround => (writeNext_cases hround).context.trans hs) rfl hwrite
  | readPackets hread =>
      refine readPackets_inv (I := fun s =>
        s.packetProcessor.context = o.si.packetProcessor.context) ?_ rfl hread
      intro s buffer again s' data hs hround
      obtain ⟨n, address, socket, -, -, hreads⟩ := readNext_cases hround
      exact hreads.context.trans hs
  | setContext | arrive => rfl

section Runs

variable {released : Nat → Bool} {memory : Nat → U8} {protocolId : U32} {socket : Socket}
  {size sendQueueSize receiveQueueSize : Int} {o : Observed} {c : Call} {context : Context}

/-- The processor is made before anybody can set a context. -/
theorem run_context
    (hnew : new f released memory protocolId socket size sendQueueSize receiveQueueSize = .ok si)
    {calls : List Call} (hrun : Run.run (step f packetAt) calls (.start si) = .ok o) :
    o.si.packetProcessor.context = 0 := by
  have hstart : si.packetProcessor.context = 0 := by
    simp only [new, Except.bind_eq_ok_iff, Except.pure_eq_ok_iff] at hnew
    obtain ⟨-, -, -, -, -, -, P, hP, -, -, rfl⟩ := hnew
    simp only [PacketProcessor.new, Except.bind_eq_ok_iff, Except.pure_eq_ok_iff] at hP
    obtain ⟨-, -, -, -, packetBuffer, -, rfl⟩ := hP
    rfl
  have hkept : ∀ (o : Observed) (c : Call) (o' : Observed), o.si.packetProcessor.context = 0 →
      True → step f packetAt o c = .ok o' → o'.si.packetProcessor.context = 0 :=
    fun o c o' hs _ hstep => (step_context hstep).trans hs
  exact Run.run_inv (C := fun _ => True) hkept (fun _ _ => trivial) hstart hrun

/-- What a packet sees is the context of the processor. -/
theorem SeesContext.eq (h : SeesContext f packetAt o c context) :
    context = o.si.packetProcessor.context := by
  cases h with
  | write hreached _ _ hcalls => exact hcalls.context.trans (context_of_writeRounds hreached)
  | read hreached _ _ _ hcalls => exact hcalls.context.trans (context_of_readRounds hreached)

/-- In the run of the calls, every packet that is serialized sees the latest context. -/
def ContextsReach (f : PacketFactory) (packetAt : PacketPtr → Packet) (si : SocketInterface)
    (calls : List Call) : Prop :=
  ∀ before c after, calls = before ++ c :: after →
    ∀ o, Run.run (step f packetAt) before (.start si) = .ok o →
      ∀ context, SeesContext f packetAt o c context → context = latestContext before

/-- The context reaches the packets exactly where it is `NULL` whenever a packet is
serialized. -/
theorem contextsReach_iff
    (hnew : new f released memory protocolId socket size sendQueueSize receiveQueueSize = .ok si)
    (packetAt : PacketPtr → Packet) (calls : List Call) :
    ContextsReach f packetAt si calls ↔
      ∀ before c after, calls = before ++ c :: after →
        ∀ o, Run.run (step f packetAt) before (.start si) = .ok o →
          (∃ context, SeesContext f packetAt o c context) → latestContext before = 0 := by
  constructor
  · rintro h before c after hcalls o hrun ⟨context, hsees⟩
    rw [← h before c after hcalls o hrun context hsees, hsees.eq, run_context hnew hrun]
  · intro h before c after hcalls o hrun context hsees
    rw [hsees.eq, run_context hnew hrun, h before c after hcalls o hrun ⟨context, hsees⟩]

end Runs

/-- A run that sets no context. -/
theorem contextsReach_iff_sample :
    ∃ si, sampleInterface = .ok si ∧ (ContextsReach ⟨106⟩ samplePackets si sampleCalls ↔
      ∀ before c after, sampleCalls = before ++ c :: after →
        ∀ o, Run.run (step ⟨106⟩ samplePackets) before (.start si) = .ok o →
          (∃ context, SeesContext ⟨106⟩ samplePackets o c context) → latestContext before = 0) := by
  have hsample : (do
      let _ ← sampleInterface
      return ()) = .ok () := by decide +kernel
  obtain ⟨si, hnew, -⟩ := Except.bind_eq_ok_iff.mp hsample
  exact ⟨si, hnew, contextsReach_iff hnew samplePackets sampleCalls⟩

/-- A packet that is written after `SetContext( 5 )`. -/
theorem not_contextsReach :
    ¬∀ (f : PacketFactory) (packetAt : PacketPtr → Packet) (released : Nat → Bool)
      (memory : Nat → U8) (protocolId : U32) (socket : Socket)
      (size sendQueueSize receiveQueueSize : Int) (si : SocketInterface)
      (calls : List Call),
      new f released memory protocolId socket size sendQueueSize receiveQueueSize = .ok si →
      ContextsReach f packetAt si calls := by
  intro h
  have hsample : (do
      let si ← sampleInterface
      let o ← Run.run (step ⟨106⟩ samplePackets) [.setContext 5, .sendPacket (.ipv4 0 0) 0 0]
        (.start si)
      let written ← writePacket ⟨106⟩ o.si.packetProcessor.packetInfo (samplePackets 0)
        o.si.packetProcessor.packetBuffer o.si.getMaxPacketSize none
      return (written.1, o.si.sendQueue.items.map fun e : PacketEntry PacketPtr => e.packet,
        o.si.released o.si.sendQueue.delivered.length)) = .ok (8, [0], false) := by
    decide +kernel
  simp only [Except.bind_eq_ok_iff, Except.pure_eq_ok_iff, Prod.mk.injEq] at hsample
  obtain ⟨si, hnew, o, hrun, ⟨_, data⟩, hwrite, -, hqueue, hkept⟩ := hsample
  obtain ⟨s, hcalls⟩ := exists_callsSerializeWrite hwrite
  obtain ⟨entry, rest, hitems, hentry, -⟩ := List.map_eq_cons_iff.mp hqueue
  obtain ⟨sendQueue, hpop, -⟩ := Fifo.pop_of_items hitems
  rw [← hentry] at hcalls
  have hsees := SeesContext.write (.start o.si) hpop hkept hcalls
  have hfive := h _ _ _ _ _ _ _ _ _ si [.setContext 5, .sendPacket (.ipv4 0 0) 0 0, .writePackets]
    hnew [.setContext 5, .sendPacket (.ipv4 0 0) 0 0] .writePackets [] rfl o hrun _ hsees
  rw [hsees.eq, run_context hnew hrun] at hfive
  exact absurd hfive (by decide)

end SocketInterface

end RudpNetwork
