import RudpNetwork.Outcome

/-!
# RudpNetwork.PacketTypes

Which packet types `WritePacket` and `ReadPacket` let through.

There are two switches for it, the number of packet types and the filter of
`PacketInfo`.  `WritePacket` stops at an assertion where a type is not below the
number; `ReadPacket` calls the stream directly, and takes whatever fits the
field.  Neither looks at the filter.  `honoursTypes_iff` and `filters_iff` say
what is left of the two switches.

## Main results

* `honoursTypes_iff` — the numbers of types at which the reader honours the limit.
* `filters_iff` — the lists of allowed types that are as good as checked.
-/

namespace RudpNetwork

open MachineInt
open ReadStream (Reads)

variable {σ : Type}

/-! ## the types that are let through -/

/-- What is known of a packet type that was written. -/
theorem writeType_inv {f : PacketFactory} (hint : IsInt32 f.getNumPacketTypes) {packetType : Int}
    {s s' : WriteStream Memory} {u : Unit} (h : writeType f packetType s = .ok (some u, s')) :
    WritableType f packetType := by
  obtain ⟨_, hpos, hrest⟩ := Proc.lift_bind_run_ok h
  refine ⟨hint, require_eq_ok.mp hpos, fun hmany => ?_⟩
  obtain ⟨hint1, hint2⟩ := hint
  rw [if_pos hmany, int32_eq ⟨by omega, by omega⟩] at hrest
  obtain ⟨-, o, hwrite⟩ := Proc.ignore_run_ok hrest
  -- the assertions of `SerializeInteger`
  obtain ⟨_, -, hwrite⟩ := Proc.lift_bind_run_ok hwrite
  obtain ⟨_, h0, hwrite⟩ := Proc.lift_bind_run_ok hwrite
  obtain ⟨_, hle, -⟩ := Proc.lift_bind_run_ok hwrite
  have hmax := require_eq_ok.mp hle
  exact ⟨require_eq_ok.mp h0, by omega⟩

/-- What `WritePacket` completes, and not for the header's or the body's refusal,
has a type that it accepts. -/
theorem writePacket_writable {f : PacketFactory} (hint : IsInt32 f.getNumPacketTypes)
    {info : PacketInfo} {packet : Packet} {buffer written : Memory} {bufferSize n : Int}
    {header : Option Writable}
    (h : writePacket f info packet buffer bufferSize header = .ok (n, written)) :
    n = 0 ∨ WritableType f packet.getType := by
  simp only [writePacket, Except.bind_eq_ok_iff] at h
  obtain ⟨-, -, -, -, stream, -, ⟨result, s⟩, hrun, hfinish⟩ := h
  cases result with
  | none => exact .inl (Prod.mk.inj (Except.pure_eq_ok_iff.mp hfinish)).1.symm
  | some u =>
      obtain ⟨_, s₁, -, hrun₁⟩ := Proc.bind_run_ok_some hrun
      obtain ⟨_, s₂, -, hrun₂⟩ := Proc.bind_run_ok_some hrun₁
      obtain ⟨_, s₃, -, hrun₃⟩ := Proc.bind_run_ok_some hrun₂
      obtain ⟨_, s₄, htype, -⟩ := Proc.bind_run_ok_some hrun₃
      exact .inr (writeType_inv hint htype)

/-- The packet type that a call comes to fits the field. -/
theorem ReadsType.readable {f : PacketFactory} (hint : IsInt32 f.getNumPacketTypes)
    {info : PacketInfo} {buffer : Memory} {bufferSize : Int} {header : Option (ObjectClass σ)}
    {o : σ} {packetType : Int} (h : ReadsType f info buffer bufferSize header o packetType) :
    ReadableType f packetType := by
  obtain ⟨s, hrun⟩ := h
  obtain ⟨_, s₁, -, hrun₁⟩ := Proc.bind_run_ok_some hrun
  obtain ⟨_, s₂, -, hrun₂⟩ := Proc.bind_run_ok_some hrun₁
  obtain ⟨_, s₃, -, htype⟩ := Proc.bind_run_ok_some hrun₂
  have hpos : 0 < f.getNumPacketTypes := by
    obtain ⟨_, hassert, -⟩ := Proc.lift_bind_run_ok htype
    exact require_eq_ok.mp hassert
  obtain ⟨h0, hlt⟩ := readType_bounds hint htype
  exact ⟨hint, hpos, h0, hlt⟩

/-! ## datagrams with a given type -/

/-- The raw format, without a prefix. -/
def rawInfo : PacketInfo where
  rawFormat := true
  protocolId := 1

/-- A packet of a given type with a body of one byte. -/
def bytePacket (packetType : Int) : Packet where
  serializeWrite := WriteStream.serializeBits 0 8
  appends := WriteStream.appends_serializeBits 0 8
  getType := packetType

/-- Every type that `WritePacket` accepts can be written. -/
theorem writePacket_bytePacket {f : PacketFactory} {packetType : Int}
    (ht : WritableType f packetType) :
    ∃ n written, writePacket f rawInfo (bytePacket packetType) [0, 0, 0, 0, 0, 0, 0, 0] 8 none =
      .ok (n, written) ∧ 0 < n := by
  obtain ⟨ep, hep⟩ : ∃ ep, ep = Enc.const (Bits.ofNat (8 : Int).toNat (0 : U32).toNat) := ⟨_, rfl⟩
  have hbody : WriteStream.Writes rawInfo.context (bytePacket packetType).serializeWrite ep :=
    hep ▸ WriteStream.writes_serializeBits 0 (by decide) (by decide)
  have hlen : (packetEnc f rawInfo 0 .empty packetType ep 0).length = typeBits f + 8 := by
    have hall := @length_packetEnc f rawInfo 0 packetType ep 8 fun _ => by rw [hep]; rfl
    exact hall.trans (by simp [slotWidth, rawInfo])
  have hbits := typeBits_le ht.isInt32
  obtain ⟨crc, written, hwrite, -⟩ := @writePacket_ok f rawInfo (bytePacket packetType) none .empty ep
    (by decide) (by decide) ht WriteStream.Writes.pure hbody [0, 0, 0, 0, 0, 0, 0, 0] 8 (by decide)
    (by decide) (by decide) (by decide) _ hlen.symm (by
      rw [int32_eq ⟨by decide, by decide⟩]
      omega)
  exact ⟨_, written, hwrite, by omega⟩

/-- Every packet of a type that fits the field can be read. -/
theorem readPacket_packed {f : PacketFactory} (uninit : Uninit) {p : FactoryPacket}
    (ht : ReadableType f p.getType) (hp : p.InRange) :
    ∃ (buffer : Memory) (n : Nat), readPacket f uninit rawInfo buffer n none () =
      .ok (some p, { header := (), created := 1 }) := by
  obtain ⟨l, hl⟩ : ∃ l, l = packetEnc f rawInfo 0 .empty p.getType p.enc 0 := ⟨_, rfl⟩
  have hlen : l.length = typeBits f + p.fieldBits.sum := by
    rw [hl, length_packetEnc p.length_enc]
    simp [slotWidth, rawInfo]
  have hbits := typeBits_le ht.isInt32
  have hsum := p.fieldBits_sum_le
  have hpos : 0 < p.fieldBits.sum := by
    cases p <;> simp [FactoryPacket.fieldBits, FactoryPacket.fields, FieldShape.bits]
  have hwords : 4 * (((l.length + 7) / 8 + 3) / 4) ≤ (Bits.pack l ++ [0, 0, 0, 0]).length := by
    rw [List.length_append, Bits.length_pack]
    change _ ≤ _ + 4
    omega
  have hslice := Bits.slice_pack l [0, 0, 0, 0]
  rw [hl] at hslice
  refine ⟨Bits.pack l ++ [0, 0, 0, 0], (l.length + 7) / 8, ?_⟩
  rw [hl] at hlen hwords ⊢
  exact @readPacket_ok Unit f uninit rawInfo _ _ _ 0 none () () .empty p (by decide) (by omega)
    (by omega) hwords hslice rfl (by omega) (fun hraw => absurd hraw (by decide)) ⟨rfl, rfl⟩ ht hp

/-! ## the number of packet types -/

/-- What `SetNumPacketTypes` is for, on the receiving side. -/
structure HonoursTypes (f : PacketFactory) : Prop where
  /-- A packet that is returned is of one of the types. -/
  returned : ∀ {σ : Type} (uninit : Uninit) (info : PacketInfo) (buffer : Memory) (bufferSize : Int)
    (header : Option (ObjectClass σ)) (o : σ) (p : FactoryPacket) (r : ReadResult σ),
    readPacket f uninit info buffer bufferSize header o = .ok (some p, r) →
    0 ≤ p.getType ∧ p.getType < f.getNumPacketTypes
  /-- Any other type field is reported. -/
  reported : ∀ {σ : Type} (uninit : Uninit) (info : PacketInfo) (buffer : Memory) (bufferSize : Int)
    (header : Option (ObjectClass σ)) (o : σ) (packetType : Int),
    0 < bufferSize → info.protocolId ≠ 0 →
    ReadsType f info buffer bufferSize header o packetType →
    ¬(0 ≤ packetType ∧ packetType < f.getNumPacketTypes) →
    ∃ r, readPacket f uninit info buffer bufferSize header o = .ok (none, r) ∧
      r.errorCode = .invalidPacketType

/-- Every type that fits the field can be what a call comes to. -/
theorem readsType_packed {f : PacketFactory} {packetType : Int} (ht : ReadableType f packetType)
    (hbits : 0 < typeBits f) :
    ∃ (buffer : Memory) (n : Nat), 0 < n ∧ ∃ s,
      typeStages f rawInfo buffer n none ({ ReadStream.init buffer n with context := 0 },
        ({ header := () } : ReadResult Unit)) = .ok (some packetType, s, { header := () }) := by
  obtain ⟨l, hl⟩ : ∃ l, l = typeEnc f packetType 0 := ⟨_, rfl⟩
  have hlen : l.length = typeBits f := by rw [hl, length_typeEnc]
  have hle := typeBits_le ht.isInt32
  have hbuf : (Platform.bits (Bits.pack l ++ [0, 0, 0, 0] : Memory)).length =
      8 * ((l.length + 7) / 8 + 4) := by
    change (Bits.ofList _).length = _
    rw [Bits.length_ofList, List.length_append, Bits.length_pack]
    rfl
  have hat := @ReadStream.init_at Memory _ (Bits.pack l ++ [0, 0, 0, 0]) ((l.length + 7) / 8 : Nat)
    (by omega) (by omega) (by rw [hbuf]; omega)
  rw [int32_eq ⟨by omega, by omega⟩] at hat
  have hreads : Reads 0 (typeStages f rawInfo (Bits.pack l ++ [0, 0, 0, 0]) ((l.length + 7) / 8 : Nat)
      none) (.empty ++ (.empty ++ (.empty ++ typeEnc f packetType)))
      ({ header := () } : ReadResult Unit) { header := () } packetType :=
    Reads.bind (Reads.pure () _) (Reads.bind (Reads.pure () _) (Reads.bind (Reads.pure () _)
      (reads_readType ht _)))
  obtain ⟨s, hrun, -⟩ := hreads { ReadStream.init _ _ with context := 0 } _ _ 0 rfl
    ⟨hat.reader, hat.bitsRead⟩ (by simp only [Enc.empty_append]; rw [← hl]; exact Bits.slice_pack l _)
    (by simp only [Enc.empty_append]; rw [← hl]; omega)
  exact ⟨_, _, by omega, s, hrun⟩

/-- The factory has no class for other types. -/
theorem PacketFactory.createPacket_unknown (uninit : Uninit) {packetType : Int}
    (h3 : 3 ≤ packetType) (h : packetType ≤ 100 ∨ 106 ≤ packetType) :
    createPacket uninit packetType = .ok none := by
  have hassert : assert (0 ≤ packetType) = .ok () := require_eq_ok.mpr (by omega)
  refine Except.bind_eq_ok_iff.mpr ⟨(), hassert, Except.pure_eq_ok_iff.mpr ?_⟩
  have hlow : packetType ≠ 0 ∧ packetType ≠ 1 ∧ packetType ≠ 2 := by omega
  have hhigh : packetType ≠ 101 ∧ packetType ≠ 102 ∧ packetType ≠ 103 ∧ packetType ≠ 104 ∧
      packetType ≠ 105 := by omega
  simp [TestPacketTypes.value, hlow, hhigh]

/-- A field of two or more ones is none of the factory's types. -/
theorem PacketFactory.createPacket_ones (uninit : Uninit) {b : Nat} (hb : 2 ≤ b) :
    createPacket uninit (2 ^ b - 1) = .ok none := by
  have hfour : 2 ^ 2 ≤ 2 ^ b := Nat.pow_le_pow_right (by decide) hb
  have hgap : 2 ^ b ≤ 2 ^ 6 ∨ 2 ^ 7 ≤ 2 ^ b := by
    rcases Nat.lt_or_ge b 7 with hsmall | hlarge
    · exact .inl (Nat.pow_le_pow_right (by decide) (by omega))
    · exact .inr (Nat.pow_le_pow_right (by decide) hlarge)
  have hcast : (2 : Int) ^ b = (2 ^ b : Nat) := by push_cast; rfl
  rw [hcast]
  exact createPacket_unknown uninit (by omega) (by omega)

/-- A number of types leaves no other field exactly when it is a power of two. -/
theorem honoursTypes_iff {f : PacketFactory} (hint : IsInt32 f.getNumPacketTypes)
    (hmany : 2 ≤ f.getNumPacketTypes) :
    HonoursTypes f ↔ ∃ k : Nat, f.getNumPacketTypes = 2 ^ k := by
  obtain ⟨-, hb1, hb31, hle, hlow⟩ := typeBits_bounds hint (by omega)
  constructor
  · intro h
    by_contra hpower
    have hne : f.getNumPacketTypes ≠ 2 ^ typeBits f := fun heq => hpower ⟨_, heq⟩
    -- the field of all ones
    have ht : ReadableType f (2 ^ typeBits f - 1) := ⟨hint, by omega, by omega, by omega⟩
    obtain ⟨buffer, n, hn, s, hrun⟩ := readsType_packed ht hb1
    obtain ⟨r, hread, herror⟩ := h.reported ⟨0, 0, 0, 0⟩ rawInfo buffer n none () _ (by omega)
      (by decide) ⟨_, hrun⟩ (by omega)
    have htwo : 2 ≤ typeBits f := by
      by_contra hone
      rw [show typeBits f = 1 by omega] at hle hne
      omega
    have hunknown := PacketFactory.createPacket_ones ⟨0, 0, 0, 0⟩ htwo
    obtain ⟨-, -, s', hstages⟩ := readPacket_eq_ok.mp hread
    rw [checkedStages_eq] at hstages
    have hfailed : packetStages ⟨0, 0, 0, 0⟩ (2 ^ typeBits f - 1) (s, ({ header := () } :
        ReadResult Unit)) = .ok (none, s, { header := (), errorCode := .createPacketFailed }) :=
      Proc.bind_run_none (Proc.lift_bind_run hunknown)
    have heq := ((Proc.bind_run_some hrun).trans hfailed).symm.trans hstages
    obtain ⟨-, -, rfl⟩ := by simpa using heq
    contradiction
  · rintro ⟨k, hk⟩
    have hfull : (2 : Int) ^ typeBits f = f.getNumPacketTypes := by
      rw [hk] at hle hlow ⊢
      have hk1 : k ≤ typeBits f :=
        (Nat.pow_le_pow_iff_right (show 1 < 2 by decide)).mp (by exact_mod_cast hle)
      have hk2 : typeBits f - 1 < k :=
        (Nat.pow_lt_pow_iff_right (show 1 < 2 by decide)).mp (by exact_mod_cast hlow)
      rw [show typeBits f = k by omega]
    have htype : ∀ {σ : Type} {info : PacketInfo} {buffer : Memory} {bufferSize : Int}
        {header : Option (ObjectClass σ)} {o : σ} {packetType : Int},
        ReadsType f info buffer bufferSize header o packetType →
        0 ≤ packetType ∧ packetType < f.getNumPacketTypes := by
      intro σ info buffer bufferSize header o packetType h
      obtain ⟨-, -, h0, hlt⟩ := h.readable hint
      exact ⟨h0, hfull ▸ hlt⟩
    constructor
    · intro σ uninit info buffer bufferSize header o p r hrun
      exact htype ((readPacket_outcome hrun).type p rfl)
    · intro σ uninit info buffer bufferSize header o packetType _ _ hread hout
      exact absurd (htype hread) hout

/-- 128 types are a power of two. -/
theorem honoursTypes_iff_sample : HonoursTypes ⟨128⟩ ↔ ∃ k : Nat, (128 : Int) = 2 ^ k :=
  honoursTypes_iff (f := ⟨128⟩) (by decide) (by decide)

/-- With 102 types, a packet of type 102 is returned. -/
theorem not_honoursTypes : ¬HonoursTypes ⟨102⟩ := by
  intro h
  have hread : readPacket ⟨102⟩ ⟨0, 0, 0, 0⟩ rawInfo [102, 0, 0, 0] 4 none () =
      .ok (some (.connectionStartRsp ⟨0, 0⟩), { header := (), created := 1 }) := by
    decide +kernel
  obtain ⟨-, hlt⟩ := h.returned _ _ _ _ _ _ _ _ hread
  exact absurd hlt (by decide)

/-! ## the filter -/

/-- The array marks the packet type as not allowed. -/
def Forbids (allowed : List U8) (packetType : Int) : Prop :=
  0 ≤ packetType ∧ allowed[packetType.toNat]? = some 0

/-- What the filter `allowedPacketTypes` is for. -/
structure Filters (f : PacketFactory) (allowed : List U8) : Prop where
  /-- `ReadPacket` returns no packet of a type that is not allowed. -/
  refused : ∀ {σ : Type} (uninit : Uninit) (info : PacketInfo) (buffer : Memory) (bufferSize : Int)
    (header : Option (ObjectClass σ)) (o : σ) (p : FactoryPacket) (r : ReadResult σ),
    readPacket f uninit { info with allowedPacketTypes := some allowed } buffer bufferSize header o =
      .ok (some p, r) → ¬Forbids allowed p.getType
  /-- If it would return one without the filter, it reports this error. -/
  reported : ∀ {σ : Type} (uninit : Uninit) (info : PacketInfo) (buffer : Memory) (bufferSize : Int)
    (header : Option (ObjectClass σ)) (o : σ) (p : FactoryPacket) (r : ReadResult σ),
    readPacket f uninit { info with allowedPacketTypes := none } buffer bufferSize header o =
      .ok (some p, r) → Forbids allowed p.getType →
    ∃ r', readPacket f uninit { info with allowedPacketTypes := some allowed } buffer bufferSize
      header o = .ok (none, r') ∧ r'.errorCode = .packetTypeNotAllowed
  /-- `WritePacket` returns zero where it would write such a packet without the filter. -/
  unwritten : ∀ (info : PacketInfo) (packet : Packet) (buffer written : Memory) (bufferSize n : Int)
    (header : Option Writable),
    writePacket f { info with allowedPacketTypes := none } packet buffer bufferSize header =
      .ok (n, written) → Forbids allowed packet.getType →
    ∃ written', writePacket f { info with allowedPacketTypes := some allowed } packet buffer
      bufferSize header = .ok (0, written')

/-- A type that one of the two functions lets through. -/
def LetsThrough (f : PacketFactory) (packetType : Int) : Prop :=
  WritableType f packetType ∨
    (∃ p : FactoryPacket, p.getType = packetType) ∧ ReadableType f packetType

/-- No function looks at the filter. -/
theorem writePacket_filter (f : PacketFactory) (info : PacketInfo) (allowed : Option (List U8))
    (packet : Packet) (buffer : Memory) (bufferSize : Int) (header : Option Writable) :
    writePacket f { info with allowedPacketTypes := allowed } packet buffer bufferSize header =
      writePacket f info packet buffer bufferSize header := rfl

/-- Each class has an object with its members in their ranges. -/
theorem FactoryPacket.exists_inRange (p : FactoryPacket) :
    ∃ q : FactoryPacket, q.getType = p.getType ∧ q.InRange := by
  cases p with
  | testPacketA p => exact ⟨.testPacketA .new, rfl, by decide, by decide, by decide⟩
  | testPacketB p => exact ⟨.testPacketB .new, rfl, by decide, by decide⟩
  | testPacketC p => exact ⟨.testPacketC p, rfl, trivial⟩
  | connectionStartReq p => exact ⟨.connectionStartReq p, rfl, trivial⟩
  | connectionStartRsp p => exact ⟨.connectionStartRsp p, rfl, trivial⟩
  | connectionStopReq p => exact ⟨.connectionStopReq p, rfl, trivial⟩
  | connectionStopRsp p => exact ⟨.connectionStopRsp p, rfl, trivial⟩
  | connectionHeartBeat p => exact ⟨.connectionHeartBeat p, rfl, trivial⟩

/-- The filter does what it is for exactly when it forbids nothing that is let
through without it. -/
theorem filters_iff {f : PacketFactory} (hint : IsInt32 f.getNumPacketTypes) (allowed : List U8) :
    Filters f allowed ↔ ∀ packetType, LetsThrough f packetType → ¬Forbids allowed packetType := by
  constructor
  · intro h packetType hlets hforbids
    rcases hlets with hwritable | ⟨⟨p, rfl⟩, hreadable⟩
    · obtain ⟨n, written, hwrite, hpos⟩ := writePacket_bytePacket hwritable
      obtain ⟨written', hzero⟩ := h.unwritten rawInfo _ _ _ _ _ _ hwrite hforbids
      rw [writePacket_filter, hwrite] at hzero
      obtain ⟨rfl, -⟩ := Prod.mk.inj (Except.ok.inj hzero)
      omega
    · obtain ⟨q, hq, hrange⟩ := p.exists_inRange
      rw [← hq] at hforbids hreadable
      obtain ⟨buffer, n, hread⟩ := readPacket_packed ⟨0, 0, 0, 0⟩ hreadable hrange
      exact h.refused _ rawInfo _ _ _ _ _ _ hread hforbids
  · intro h
    have hread : ∀ {σ : Type} (uninit : Uninit) (info : PacketInfo) (buffer : Memory)
        (bufferSize : Int) (header : Option (ObjectClass σ)) (o : σ) (p : FactoryPacket)
        (r : ReadResult σ), readPacket f uninit info buffer bufferSize header o = .ok (some p, r) →
        ¬Forbids allowed p.getType := by
      intro σ uninit info buffer bufferSize header o p r hrun
      have htype := (readPacket_outcome hrun).type p rfl
      exact h _ (.inr ⟨⟨p, rfl⟩, htype.readable hint⟩)
    constructor
    · intro σ uninit info buffer bufferSize header o p r hrun
      exact hread uninit _ buffer bufferSize header o p r hrun
    · intro σ uninit info buffer bufferSize header o p r hrun hforbids
      exact absurd hforbids (hread uninit _ buffer bufferSize header o p r hrun)
    · intro info packet buffer written bufferSize n header hrun hforbids
      rcases writePacket_writable hint hrun with rfl | hwritable
      · exact ⟨written, hrun⟩
      · exact absurd hforbids (h _ (.inl hwritable))

/-- A filter that allows every type but `TestPacketA`. -/
def withoutA : List U8 := 0 :: List.replicate 105 1

/-- A list that forbids nothing. -/
theorem filters_iff_sample :
    Filters ⟨106⟩ (List.replicate 106 1) ↔
      ∀ packetType, LetsThrough ⟨106⟩ packetType → ¬Forbids (List.replicate 106 1) packetType :=
  filters_iff (f := ⟨106⟩) (by decide) (List.replicate 106 1)

/-- A `TestPacketA` is read and written all the same. -/
theorem not_filters : ¬Filters ⟨106⟩ withoutA := by
  intro h
  have hread : readPacket ⟨106⟩ ⟨0, 0, 0, 0⟩ { rawInfo with allowedPacketTypes := some withoutA }
      [0, 0, 0, 0] 4 none () =
        .ok (some (.testPacketA ⟨-10, -20, -30⟩), { header := (), created := 1 }) := by
    decide +kernel
  exact h.refused _ rawInfo _ _ _ _ _ _ hread ⟨by decide, rfl⟩

end RudpNetwork
