import RudpNetwork.Lib.Triple
import RudpNetwork.Network

/-!
# RudpNetwork.Outcome

How `ReadPacket` can end.

`readPacket_outcome` holds of every run that returns, whatever was received and
whatever the stream did on the way: the packet, the error code and the ownership
of what was created agree, and a returned packet has the type that was read and
members in their ranges.  It is put together from one triple a stage.

## Main results

* `Fresh`, `Made`, `Failed` — the states of the result between the stages.
* `readPacket_outcome` — a packet and no error, or an error and no packet.
-/

namespace RudpNetwork

open MachineInt
open ReadStream (onStream assign orReturn)
open Proc (Triple)

variable {σ τ : Type}

/-! ## triples about reads -/

section Reads

variable {β α : Type} {x : ReadProc β τ α} {P P' : τ → Prop}

/-- A call of the stream leaves the caller's variables alone. -/
theorem triple_onStream {y : Proc Fault (ReadStream β) α} {E : ReadStream β × τ → Prop}
    (hE : ∀ s, P s.2 → E s) :
    Triple (fun s => P s.2) (onStream y : ReadProc β τ α) (fun _ s => P s.2) E where
  value s a s' hs hrun := by
    obtain ⟨-, hsame⟩ := @ReadStream.onStream_run_ok β τ α y s.1 s' (some a) s.2 hrun
    rwa [hsame]
  exit s s' hs hrun := by
    obtain ⟨-, hsame⟩ := @ReadStream.onStream_run_ok β τ α y s.1 s' none s.2 hrun
    exact hE s' (by rwa [hsame])

/-- A failure that leaves the function keeps what the handler says. -/
theorem triple_orReturn {f : τ → τ} {Q : α → ReadStream β × τ → Prop}
    {R E : ReadStream β × τ → Prop} (hx : Triple R x Q fun s => E (s.1, f s.2)) :
    Triple R (orReturn f x) Q E where
  value s a s' hs hrun := hx.value s a s' hs (ReadStream.orReturn_run_ok hrun)
  exit s s' hs hrun := by
    unfold ReadStream.orReturn at hrun
    split at hrun
    · contradiction
    · simp at hrun
    · next s₁ o h =>
        obtain rfl : (s₁, f o) = s' := by simpa using hrun
        exact hx.exit s _ hs h

end Reads

/-! ## the members that a body was read into -/

namespace Serialize

variable {P P' : σ → Prop}

/-- A member is stored only if it is in its range. -/
theorem triple_int {get : σ → Int} {set : Int → σ → σ} {min max : Int} {cast : Int → Int}
    (h : ∀ v o, min ≤ v → v ≤ max → P o → P' (set v o)) :
    Triple (fun s => P s.2) (int get set min max cast).read (fun _ s => P' s.2) fun _ => True := by
  have hassert : ∀ {p : Prop} [Decidable p], Triple (fun s : ReadStream Memory × σ => P s.2)
      (Proc.lift (assert p)) (fun _ s => P s.2) fun _ => True := Triple.lift fun _ _ _ hs => hs
  have hstore : ∀ v, Triple (fun s : ReadStream Memory × σ => P s.2) (assign (set v))
      (fun _ s => ∃ o, P o ∧ s.2 = set v o) fun _ => True :=
    fun v => Triple.modify fun s hs => ⟨s.2, hs, rfl⟩
  have hcheck : ∀ v, Triple (fun s : ReadStream Memory × σ => ∃ o, P o ∧ s.2 = set v o)
      (Reading.checkRange v min max) (fun _ s => P' s.2) fun _ => True := by
    intro v
    unfold Reading.checkRange
    split
    · exact Triple.returnFalse fun _ _ => trivial
    · next hin =>
        refine Triple.pure fun s hs => ?_
        obtain ⟨o, ho, hset⟩ := hs
        rw [hset]
        exact h v o (by omega) (by omega) ho
  exact Triple.bind hassert fun _ => Triple.bind (triple_onStream fun _ _ => trivial) fun v =>
    Triple.bind (hstore (cast v)) fun _ => hcheck (cast v)

end Serialize

/-- What was read into a `TestPacketA` is in its ranges. -/
theorem TestPacketA.triple_read :
    Triple (fun _ => True) serialize.read (fun _ s => s.2.InRange) fun _ => True := by
  have ha := @Serialize.triple_int TestPacketA (fun _ => True) (fun p => -10 ≤ p.a ∧ p.a ≤ 10)
    (·.a) (fun v p => { p with a := v }) (-10) 10 id fun _ _ hlo hhi _ => ⟨hlo, hhi⟩
  have hb := @Serialize.triple_int TestPacketA (fun p => -10 ≤ p.a ∧ p.a ≤ 10)
    (fun p => (-10 ≤ p.a ∧ p.a ≤ 10) ∧ (-20 ≤ p.b ∧ p.b ≤ 20))
    (·.b) (fun v p => { p with b := v }) (-20) 20 id fun _ _ hlo hhi h => ⟨h, hlo, hhi⟩
  have hc := @Serialize.triple_int TestPacketA
    (fun p => (-10 ≤ p.a ∧ p.a ≤ 10) ∧ (-20 ≤ p.b ∧ p.b ≤ 20)) InRange
    (·.c) (fun v p => { p with c := v }) (-30) 30 id fun _ _ hlo hhi h => ⟨h.1, h.2, hlo, hhi⟩
  exact Triple.bind (Triple.bind ha fun _ => hb) fun _ => hc

/-- What was read into a `TestPacketB` is in its ranges. -/
theorem TestPacketB.triple_read :
    Triple (fun _ => True) serialize.read (fun _ s => s.2.InRange) fun _ => True := by
  have hx := @Serialize.triple_int TestPacketB (fun _ => True) (fun p => -5 ≤ p.x ∧ p.x ≤ 5)
    (·.x) (fun v p => { p with x := v }) (-5) 5 id fun _ _ hlo hhi _ => ⟨hlo, hhi⟩
  have hy := @Serialize.triple_int TestPacketB (fun p => -5 ≤ p.x ∧ p.x ≤ 5) InRange
    (·.y) (fun v p => { p with y := v }) (-5) 5 id fun _ _ hlo hhi h => ⟨h, hlo, hhi⟩
  exact Triple.bind hx fun _ => hy

namespace FactoryPacket

/-- A read that succeeded has wrapped the object it filled. -/
theorem readInto_run_some {S : Serialize σ} {wrap : σ → FactoryPacket} {o : σ}
    {s s' : ReadStream Memory} {p : FactoryPacket} (h : readInto S wrap o s = .ok (some p, s')) :
    ∃ u o', S.read (s, o) = .ok (some u, s', o') ∧ wrap o' = p := by
  unfold readInto at h
  cases hread : S.read (s, o) with
  | error e => simp [hread, Except.map] at h
  | ok result =>
      obtain ⟨a, s₁, o'⟩ := result
      simp only [hread, Except.map, Except.ok.injEq, Prod.mk.injEq] at h
      obtain ⟨hpacket, rfl⟩ := h
      obtain ⟨u, rfl, hwrap⟩ := Option.map_eq_some_iff.mp hpacket
      exact ⟨u, o', rfl, hwrap⟩

/-- The body of a packet of any class. -/
theorem triple_readInto {S : Serialize σ} {V : σ → Prop} {wrap : σ → FactoryPacket}
    {Q : FactoryPacket → Prop} (o : σ)
    (hS : Triple (fun _ => True) S.read (fun _ s => V s.2) fun _ => True)
    (hwrap : ∀ o, V o → Q (wrap o)) :
    Triple (fun _ => True) (readInto S wrap o) (fun p _ => Q p) fun _ => True where
  value s p s' _ hrun := by
    obtain ⟨u, o', hread, rfl⟩ := readInto_run_some hrun
    exact hwrap o' (hS.value _ u _ trivial hread)
  exit _ _ _ _ := trivial

/-- What an object is read into stays one of its class, with its ranged members in
their ranges. -/
theorem triple_serializeRead (packet : FactoryPacket) :
    Triple (fun _ => True) packet.serializeRead
      (fun p _ => p.getType = packet.getType ∧ p.InRange) fun _ => True := by
  have hany : ∀ {τ : Type} (S : Serialize τ),
      Triple (fun _ => True) S.read (fun _ s => (fun _ => True) s.2) fun _ => True :=
    fun _ => ⟨fun _ _ _ _ _ => trivial, fun _ _ _ _ => trivial⟩
  cases packet with
  | testPacketA p => exact triple_readInto p TestPacketA.triple_read fun _ h => ⟨rfl, h⟩
  | testPacketB p => exact triple_readInto p TestPacketB.triple_read fun _ h => ⟨rfl, h⟩
  | testPacketC p => exact triple_readInto (V := fun _ => True) p (hany _) fun _ _ => ⟨rfl, trivial⟩
  | connectionStartReq p =>
      exact triple_readInto (V := fun _ => True) p (hany _) fun _ _ => ⟨rfl, trivial⟩
  | connectionStartRsp p =>
      exact triple_readInto (V := fun _ => True) p (hany _) fun _ _ => ⟨rfl, trivial⟩
  | connectionStopReq p =>
      exact triple_readInto (V := fun _ => True) p (hany _) fun _ _ => ⟨rfl, trivial⟩
  | connectionStopRsp p =>
      exact triple_readInto (V := fun _ => True) p (hany _) fun _ _ => ⟨rfl, trivial⟩
  | connectionHeartBeat p =>
      exact triple_readInto (V := fun _ => True) p (hany _) fun _ _ => ⟨rfl, trivial⟩

end FactoryPacket

/-- The packet that the factory creates for a type has this type. -/
theorem PacketFactory.getType_createPacket {uninit : Uninit} {packetType : Int} {p : FactoryPacket}
    (h : createPacket uninit packetType = .ok (some p)) : p.getType = packetType := by
  obtain ⟨-, -, h⟩ := Except.bind_eq_ok_iff.mp h
  have hsome := Except.pure_eq_ok_iff.mp h
  clear h
  repeat' split at hsome
  all_goals first
    | contradiction
    | obtain rfl := Option.some.inj hsome
      symm
      assumption

/-! ## the stages of `ReadPacket` -/

/-- Nothing was created yet. -/
def Fresh (r : ReadResult σ) : Prop := r.errorCode = .none ∧ r.created = 0 ∧ r.destroyed = 0

/-- One packet was created, and it belongs to the caller. -/
def Made (r : ReadResult σ) : Prop := r.errorCode = .none ∧ r.created = 1 ∧ r.destroyed = 0

/-- `NULL` is returned: there is an error, and what was created was destroyed. -/
def Failed (r : ReadResult σ) : Prop := r.errorCode ≠ .none ∧ r.destroyed = r.created

/-- The prefix leaves the result fresh. -/
theorem triple_readPrefix (info : PacketInfo) {E : ReadStream Memory × ReadResult σ → Prop} :
    Triple (fun s => Fresh s.2) (readPrefix info) (fun _ s => Fresh s.2) E :=
  Triple.times (Triple.ignore (triple_onStream fun _ h => h)) _

/-- A mismatch of the checksum is a failure with its error. -/
theorem triple_checkCrc32 (info : PacketInfo) (buffer : Memory) (bufferSize : Int) :
    Triple (fun s : ReadStream Memory × ReadResult σ => Fresh s.2)
      (checkCrc32 info buffer bufferSize) (fun _ s => Fresh s.2) (fun s => Failed s.2) := by
  unfold checkCrc32
  split
  · exact Triple.pure fun _ h => h
  · have hread : Triple (fun s : ReadStream Memory × ReadResult σ => Fresh s.2) readCrc32
        (fun _ s => Fresh s.2) (fun s => Failed s.2) :=
      Triple.bind (Triple.attempt (triple_onStream fun _ h => h)) fun _ => Triple.pure fun _ h => h
    refine Triple.bind hread fun _ => Triple.bind (Q := fun _ s => Fresh s.2)
      (Triple.lift fun _ _ _ h => h) fun _ => triple_orReturn (Triple.check (fun _ h _ => h) ?_)
    intro s h _
    exact ⟨by simp, h.2.2.trans h.2.1.symm⟩

/-- A header object keeps to its own members. -/
theorem onHeader_run_ok {x : ReadProc Memory σ Unit} {s : ReadStream Memory × ReadResult σ}
    {s' : ReadStream Memory × ReadResult σ} {o : Option Unit} (h : onHeader x s = .ok (o, s')) :
    ∃ header, s'.2 = { s.2 with header } := by
  unfold onHeader at h
  cases hrun : x (s.1, s.2.header) with
  | error e => simp [hrun, Except.map] at h
  | ok result =>
      obtain ⟨a, s₁, header⟩ := result
      simp only [hrun, Except.map, Except.ok.injEq, Prod.mk.injEq] at h
      exact ⟨header, by rw [← h.2]⟩

/-- A header that cannot be read is a failure with its error. -/
theorem triple_readHeader (header : Option (ObjectClass σ)) :
    Triple (fun s : ReadStream Memory × ReadResult σ => Fresh s.2) (readHeader header)
      (fun _ s => Fresh s.2) (fun s => Failed s.2) := by
  cases header with
  | none => exact Triple.pure fun _ h => h
  | some C =>
      refine triple_orReturn ⟨fun s a s' h hrun => ?_, fun s s' h hrun => ?_⟩
      · obtain ⟨header, hsame⟩ := onHeader_run_ok hrun
        rw [hsame]
        exact h
      · obtain ⟨header, hsame⟩ := onHeader_run_ok hrun
        rw [hsame]
        exact ⟨nofun, h.2.2.trans h.2.1.symm⟩

/-- A type that cannot be read is a failure with its error. -/
theorem triple_readType (f : PacketFactory) :
    Triple (fun s : ReadStream Memory × ReadResult σ => Fresh s.2) (readType f)
      (fun _ s => Fresh s.2) (fun s => Failed s.2) := by
  refine Triple.bind (Q := fun _ s => Fresh s.2) (Triple.lift fun _ _ _ h => h) fun _ => ?_
  split
  · exact triple_orReturn (triple_onStream fun _ h => ⟨nofun, h.2.2.trans h.2.1.symm⟩)
  · exact Triple.pure fun _ h => h

/-- A type without a class is a failure with its error. -/
theorem triple_makePacket (uninit : Uninit) (packetType : Int) :
    Triple (fun s : ReadStream Memory × ReadResult σ => Fresh s.2) (makePacket uninit packetType)
      (fun p s => p.getType = packetType ∧ Made s.2) (fun s => Failed s.2) := by
  refine Triple.bind (Q := fun packet s => Fresh s.2 ∧ ∀ p, packet = some p → p.getType = packetType)
    (Triple.lift fun packet s hmade h => ⟨h, ?_⟩) fun packet => ?_
  · rintro p rfl
    exact PacketFactory.getType_createPacket hmade
  · cases packet with
    | none =>
        refine Triple.bind (Q := fun _ s => Failed s.2) (Triple.modify fun s h => ?_) fun _ =>
          Triple.returnFalse fun _ h => h
        exact ⟨nofun, h.1.2.2.trans h.1.2.1.symm⟩
    | some p =>
        refine Triple.bind (Q := fun _ s => p.getType = packetType ∧ Made s.2)
          (Triple.modify fun s h => ?_) fun _ => Triple.pure fun _ h => h
        exact ⟨h.2 p rfl, h.1.1, congrArg (· + 1) h.1.2.1, h.1.2.2⟩

/-- The body is read into a packet of the same type, with members in their ranges. -/
theorem triple_readBody (packet : FactoryPacket) :
    Triple (fun s : ReadStream Memory × ReadResult σ => Made s.2) (readBody packet)
      (fun p s => p.getType = packet.getType ∧ p.InRange ∧ Made s.2) (fun s => Failed s.2) := by
  have hbody := packet.triple_serializeRead
  refine triple_orReturn ⟨fun s p s' h hrun => ?_, fun s s' h hrun => ?_⟩
  · obtain ⟨hread, hsame⟩ := ReadStream.onStream_run_ok (o := s.2) hrun
    obtain ⟨htype, hrange⟩ := hbody.value _ _ _ trivial hread
    rw [hsame]
    exact ⟨htype, hrange, h⟩
  · obtain ⟨-, hsame⟩ := ReadStream.onStream_run_ok (o := s.2) hrun
    rw [hsame]
    exact ⟨nofun, (congrArg (· + 1) h.2.2).trans h.2.1.symm⟩

/-- The last check passes only where the stream has no error. -/
theorem checkError_run_some {s s' : ReadStream Memory × ReadResult σ} {u : Unit}
    (h : checkError s = .ok (some u, s')) : s.1.error = .none ∧ s' = s := by
  obtain ⟨stream, r⟩ := s
  by_cases herror : stream.error = .none
  · rw [checkError, if_pos herror] at h
    obtain ⟨-, rfl⟩ := Prod.mk.inj (Except.ok.inj h)
    exact ⟨herror, rfl⟩
  · rw [checkError, if_neg herror] at h
    obtain ⟨hnone, -⟩ := Prod.mk.inj (Except.ok.inj h)
    contradiction

/-- An error of the stream is a failure. -/
theorem triple_checkError {P : Prop} :
    Triple (fun s : ReadStream Memory × ReadResult σ => P ∧ Made s.2) checkError
      (fun _ s => P ∧ Made s.2) (fun s => Failed s.2) where
  value s u s' h hrun := by
    obtain ⟨-, rfl⟩ := checkError_run_some hrun
    exact h
  exit s s' h hrun := by
    obtain ⟨stream, r⟩ := s
    by_cases herror : stream.error = .none
    · rw [checkError, if_pos herror] at hrun
      obtain ⟨hsome, -⟩ := Prod.mk.inj (Except.ok.inj hrun)
      contradiction
    · rw [checkError, if_neg herror] at hrun
      obtain ⟨-, rfl⟩ := Prod.mk.inj (Except.ok.inj hrun)
      exact ⟨herror, (congrArg (· + 1) h.2.2.2).trans h.2.2.1.symm⟩

/-! ## the outcome -/

/-- `ReadPacket` up to the packet type. -/
def typeStages (f : PacketFactory) (info : PacketInfo) (buffer : Memory) (bufferSize : Int)
    (header : Option (ObjectClass σ)) : ReadProc Memory (ReadResult σ) Int := do
  readPrefix info
  checkCrc32 info buffer bufferSize
  readHeader header
  readType f

/-- `ReadPacket` from the packet type on. -/
def packetStages (uninit : Uninit) (packetType : Int) :
    ReadProc Memory (ReadResult σ) FactoryPacket := do
  let packet ← makePacket uninit packetType
  let packet ← readBody packet
  checkError
  return packet

section

variable (f : PacketFactory) (uninit : Uninit) (info : PacketInfo) (buffer : Memory)
  (bufferSize : Int) (header : Option (ObjectClass σ)) (o : σ)

/-- The stages up to the packet type, and those behind it. -/
theorem checkedStages_eq :
    checkedStages f uninit info buffer bufferSize header =
      typeStages f info buffer bufferSize header >>= packetStages uninit := by
  simp only [checkedStages, readStages, typeStages, Proc.bind_assoc]
  rfl

/-- `stream.SerializeInteger` of the packet type comes to `packetType`. -/
def ReadsType (packetType : Int) : Prop :=
  ∃ s, typeStages f info buffer bufferSize header
    ({ ReadStream.init buffer bufferSize with context := info.context }, { header := o }) =
      .ok (some packetType, s)

/-- Up to the packet type nothing has been made. -/
theorem triple_typeStages :
    Triple (fun s : ReadStream Memory × ReadResult σ => Fresh s.2)
      (typeStages f info buffer bufferSize header) (fun _ s => Fresh s.2) (fun s => Failed s.2) :=
  Triple.bind (triple_readPrefix info) fun _ => Triple.bind (triple_checkCrc32 info buffer bufferSize)
    fun _ => Triple.bind (triple_readHeader header) fun _ => triple_readType f

/-- Behind it, a packet of that type has been made. -/
theorem triple_packetStages (packetType : Int) :
    Triple (fun s : ReadStream Memory × ReadResult σ => Fresh s.2) (packetStages uninit packetType)
      (fun p s => (p.getType = packetType ∧ p.InRange) ∧ Made s.2) (fun s => Failed s.2) := by
  refine Triple.bind (triple_makePacket uninit packetType) fun q => ?_
  have hread : Triple (fun s : ReadStream Memory × ReadResult σ => q.getType = packetType ∧ Made s.2)
      (readBody q) (fun p s => (p.getType = packetType ∧ p.InRange) ∧ Made s.2)
      (fun s => Failed s.2) := by
    constructor
    · intro s p s' h hrun
      obtain ⟨htype, hrange, hmade⟩ := (triple_readBody q).value s p s' h.2 hrun
      exact ⟨⟨htype.trans h.1, hrange⟩, hmade⟩
    · intro s s' h hrun
      exact (triple_readBody q).exit s s' h.2 hrun
  exact Triple.bind hread fun p => Triple.bind triple_checkError fun _ => Triple.pure fun _ h => h

variable {f uninit info buffer bufferSize header o}

/-- What a completed `ReadPacket` says agrees with what it did. -/
structure Coherent (f : PacketFactory) (info : PacketInfo) (buffer : Memory) (bufferSize : Int)
    (header : Option (ObjectClass σ)) (o : σ) (packet : Option FactoryPacket) (r : ReadResult σ) :
    Prop where
  null_iff : packet = none ↔ r.errorCode ≠ .none
  destroyed : packet = none → r.destroyed = r.created
  owned : ∀ p, packet = some p → r.created = 1 ∧ r.destroyed = 0
  type : ∀ p, packet = some p → ReadsType f info buffer bufferSize header o p.getType
  inRange : ∀ p, packet = some p → p.InRange

/-- Every run of `ReadPacket` that returns is coherent. -/
theorem readPacket_outcome {packet : Option FactoryPacket} {r : ReadResult σ}
    (h : readPacket f uninit info buffer bufferSize header o = .ok (packet, r)) :
    Coherent f info buffer bufferSize header o packet r := by
  obtain ⟨-, -, s, hrun⟩ := readPacket_eq_ok.mp h
  have hfresh : Fresh ({ header := o } : ReadResult σ) := ⟨rfl, rfl, rfl⟩
  rw [checkedStages_eq] at hrun
  have htype := triple_typeStages f info buffer bufferSize header
  rcases Proc.bind_run_ok hrun with ⟨hexit, rfl⟩ | ⟨packetType, s₁, hread, hrest⟩
  · obtain ⟨herror, howner⟩ := htype.exit _ _ hfresh hexit
    exact ⟨⟨fun _ => herror, fun _ => rfl⟩, fun _ => howner, nofun, nofun, nofun⟩
  · have hfresh₁ := htype.value _ _ _ hfresh hread
    cases packet with
    | none =>
        obtain ⟨herror, howner⟩ :=
          (triple_packetStages uninit packetType).exit _ _ hfresh₁ hrest
        exact ⟨⟨fun _ => herror, fun _ => rfl⟩, fun _ => howner, nofun, nofun, nofun⟩
    | some p =>
        obtain ⟨⟨rfl, hrange⟩, herror, hcreated, hdestroyed⟩ :=
          (triple_packetStages uninit packetType).value _ _ _ hfresh₁ hrest
        refine ⟨⟨nofun, fun hne => absurd herror hne⟩, nofun, ?_, ?_, ?_⟩
        · rintro q ⟨⟩
          exact ⟨hcreated, hdestroyed⟩
        · rintro q ⟨⟩
          exact ⟨s₁, hread⟩
        · rintro q ⟨⟩
          exact hrange

end

end RudpNetwork
