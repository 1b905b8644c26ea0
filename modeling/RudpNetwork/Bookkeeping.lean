import RudpNetwork.Cursor

/-!
# RudpNetwork.Bookkeeping

A `ReadStream` counts its position twice, in the stream and in the reader, and
keeps an error code.  `keepsBooks_iff` says in which runs the two counts and the
error code stay true: in those in which no alignment meets padding that is not
zero.  Such padding is passed by the reader, but not counted by the stream, and
the call fails without an error.

## Main results

* `Balanced.perform`, `Balanced.perform_unclean` — what one operation does to the counts.
* `keepsBooks_iff` — the runs in which the counts and the error code stay true.
-/

namespace RudpNetwork

open MachineInt

/-- What the counters and the error code have to say after a call, over `n` bytes. -/
structure Observation.Truthful (o : Observation) (n : Nat) : Prop where
  counted : o.bitsProcessed + o.bitsRemaining = 8 * n
  failed : o.output = none → o.error ≠ .none

namespace Cursor

/-! ## the cursor -/

/-- An alignment passes only zeros. -/
def Clean (c : Cursor) : ReadOp → Prop
  | .serializeBytes _ _ => Bits.toNat (c.next c.alignBits) = 0
  | .serializeAlign => Bits.toNat (c.next c.alignBits) = 0
  | _ => True

/-- What the stream reports of the position is the position. -/
structure Balanced (c : Cursor) (n : Nat) : Prop where
  limit : c.limit = 8 * n
  counted : c.counted = c.pos

/-- The position is right, and a call that returned `false` has left an error. -/
structure Booked (result : Option Output × Cursor) (n : Nat) : Prop where
  balanced : result.2.Balanced n
  failed : result.1 = none → result.2.error ≠ .none

variable {c : Cursor} {n : Nat}

/-- Bits that are passed and counted keep the balance. -/
theorem Balanced.count (h : c.Balanced n) (hn : 8 * n < 2147483648) {k : Nat}
    (hk : ¬c.limit < c.pos + k) : ((c.pass k hk).count k).Balanced n := by
  have hlimit := h.limit
  refine ⟨hlimit, ?_⟩
  change int32 (c.counted + k) = (c.pos + k : Nat)
  rw [h.counted, int32_eq ⟨by omega, by omega⟩]
  push_cast
  rfl

/-- `SerializeBits` and `SerializeInteger` keep the balance, and fail with an error. -/
theorem Balanced.takeBits (h : c.Balanced n) (hn : 8 * n < 2147483648) (k : Nat) :
    (c.takeBits k).2.Balanced n ∧ ((c.takeBits k).1 = none → (c.takeBits k).2.error ≠ .none) := by
  unfold Cursor.takeBits
  split
  · exact ⟨⟨h.limit, h.counted⟩, fun _ => by simp [overflow]⟩
  · next hk => exact ⟨h.count hn hk, fun hnone => absurd hnone (Option.some_ne_none _)⟩

/-- `SerializeBytes` keeps the balance, and fails with an error. -/
theorem Balanced.takeBytes (h : c.Balanced n) (hn : 8 * n < 2147483648) (data : List U8)
    (bytes : Nat) : (c.takeBytes data bytes).2.Balanced n ∧
      ((c.takeBytes data bytes).1 = none → (c.takeBytes data bytes).2.error ≠ .none) := by
  unfold Cursor.takeBytes
  split
  · exact ⟨⟨h.limit, h.counted⟩, fun _ => by simp [overflow]⟩
  · next hk => exact ⟨h.count hn hk, fun hnone => absurd hnone (Option.some_ne_none _)⟩

/-- An alignment over zero padding keeps the balance. -/
theorem Balanced.takeAlign (h : c.Balanced n) (hn : 8 * n < 2147483648)
    (hzero : Bits.toNat (c.next c.alignBits) = 0) :
    c.takeAlign.2.Balanced n ∧ (c.takeAlign.1 = none → c.takeAlign.2.error ≠ .none) := by
  unfold Cursor.takeAlign
  split
  · exact ⟨⟨h.limit, h.counted⟩, fun _ => by simp [overflow]⟩
  · next hk => exact ⟨h.count hn hk, fun hnone => absurd hnone (Option.some_ne_none _)⟩

/-- Padding that is not zero is not counted. -/
theorem Balanced.takeAlign_unclean (h : c.Balanced n)
    (hzero : Bits.toNat (c.next c.alignBits) ≠ 0) :
    c.takeAlign.1 = none ∧ c.takeAlign.2.limit = 8 * n ∧
      c.takeAlign.2.counted ≠ c.takeAlign.2.pos := by
  have hpos := c.pos_le
  have hlimit := h.limit
  have hsome : 0 < c.alignBits := by
    by_contra hnone
    rw [Nat.eq_zero_of_not_pos hnone] at hzero
    exact hzero (by simp [next, Bits.slice])
  have halign : c.alignBits = (8 - c.pos % 8) % 8 := rfl
  have hfit : ¬c.limit < c.pos + c.alignBits := by omega
  rw [Cursor.takeAlign, dif_neg hfit, if_neg hzero]
  refine ⟨rfl, hlimit, ?_⟩
  change c.counted ≠ (c.pos + c.alignBits : Nat)
  rw [h.counted]
  omega

/-- The step lemma: a clean operation keeps the books. -/
theorem Balanced.perform (h : c.Balanced n) (hn : 8 * n < 2147483648) {op : ReadOp}
    (hclean : c.Clean op) : Booked (c.perform op) n := by
  cases op with
  | serializeInteger min max =>
      obtain ⟨hb, herror⟩ := h.takeBits hn (bitsRequired (toU32 min) (toU32 max)).toNat
      exact ⟨hb, fun hnone => herror (Option.map_eq_none_iff.mp hnone)⟩
  | serializeBits bits =>
      obtain ⟨hb, herror⟩ := h.takeBits hn bits.toNat
      exact ⟨hb, fun hnone => herror (Option.map_eq_none_iff.mp hnone)⟩
  | serializeBytes data bytes =>
      obtain ⟨hb, herror⟩ := h.takeAlign hn hclean
      rcases htake : c.takeAlign with ⟨_ | _, c₁⟩
      · rw [htake] at hb herror
        simp only [Cursor.perform, htake]
        exact ⟨hb, fun _ => herror rfl⟩
      · rw [htake] at hb
        obtain ⟨hb', herror'⟩ := Balanced.takeBytes hb hn data bytes.toNat
        simp only [Cursor.perform, htake]
        exact ⟨hb', fun hnone => herror' (Option.map_eq_none_iff.mp hnone)⟩
  | serializeAlign =>
      obtain ⟨hb, herror⟩ := h.takeAlign hn hclean
      exact ⟨hb, fun hnone => herror (Option.map_eq_none_iff.mp hnone)⟩

/-- Padding that is not zero is passed but not counted. -/
theorem Balanced.perform_unclean (h : c.Balanced n) {op : ReadOp} (hclean : ¬c.Clean op) :
    (c.perform op).2.limit = 8 * n ∧ (c.perform op).2.counted ≠ (c.perform op).2.pos := by
  cases op with
  | serializeInteger min max => exact absurd trivial hclean
  | serializeBits bits => exact absurd trivial hclean
  | serializeBytes data bytes =>
      obtain ⟨hnone, hlimit, hne⟩ := h.takeAlign_unclean hclean
      rcases htake : c.takeAlign with ⟨_ | _, c₁⟩
      · rw [htake] at hlimit hne
        simp only [Cursor.perform, htake]
        exact ⟨hlimit, hne⟩
      · rw [htake] at hnone
        contradiction
  | serializeAlign =>
      obtain ⟨-, hlimit, hne⟩ := h.takeAlign_unclean hclean
      exact ⟨hlimit, hne⟩

end Cursor

namespace ReadStream

/-! ## the stream -/

/-- The bits from the position to the next byte are zero. -/
def PaddingZero {β : Type} [Platform β] (s : ReadStream β) : Prop :=
  Bits.toNat (Bits.slice (Platform.bits s.reader.data) s.reader.bitsRead.toNat
    s.reader.getAlignBits.toNat) = 0

instance {β : Type} [Platform β] (s : ReadStream β) : Decidable s.PaddingZero :=
  inferInstanceAs (Decidable (_ = _))

/-- A call that aligns does it over zeros. -/
def Clean {β : Type} [Platform β] (client : Client β) : ReadOp → Prop
  | .serializeBytes _ _ => PaddingZero client.stream
  | .serializeAlign => PaddingZero client.stream
  | _ => True

/-- Along the run `ops` over `n` bytes the counters add up to the size in every state,
and every call that returns `false` leaves an error. -/
def KeepsBooks (client : Client Memory) (n : Nat) (ops : List ReadOp) : Prop :=
  ∃ client', Run.run step ops client = .ok client' ∧
    client'.stream.getBitsProcessed + client'.stream.getBitsRemaining = 8 * n ∧
    ∀ o ∈ client'.log, o.Truthful n

/-- What is kept while no padding has been met. -/
structure Booked (client : Client Memory) (n : Nat) : Prop where
  follows : ∃ c, client.stream.Follows c ∧ c.Balanced n
  log : ∀ o ∈ client.log, o.Truthful n

/-- Whether an operation is clean can be read off the cursor. -/
theorem Follows.clean_iff {client : Client Memory} {c : Cursor} (h : client.stream.Follows c)
    {n : Nat} (hc : c.Balanced n) (op : ReadOp) : Clean client op ↔ c.Clean op := by
  obtain ⟨B, hat, hbits⟩ := h.reader
  have hpos := c.pos_le
  have hlimit := hc.limit
  have halign : client.stream.reader.getAlignBits = (c.alignBits : Int) := hat.getAlignBits_eq
  have hfit : (c.pos + c.alignBits : Int) ≤ c.limit := by
    rw [Cursor.alignBits]
    omega
  have hpadding : PaddingZero client.stream ↔ Bits.toNat (c.next c.alignBits) = 0 := by
    rw [PaddingZero, next_eq hbits hfit, halign, hat.bitsRead, hat.data, Int.toNat_natCast,
      Int.toNat_natCast]
  cases op with
  | serializeInteger min max => exact Iff.rfl
  | serializeBits bits => exact Iff.rfl
  | serializeBytes data bytes => exact hpadding
  | serializeAlign => exact hpadding

/-- What a caller sees of a stream that follows a cursor inside `n` bytes. -/
theorem Follows.truthful_iff {s : ReadStream Memory} {c : Cursor} (h : s.Follows c) {n : Nat}
    (hn : 8 * n < 2147483648) (hlimit : c.limit = 8 * n) (output : Option Output) :
    (observe output s).Truthful n ↔ c.counted = c.pos ∧ (output = none → c.error ≠ .none) := by
  have hpos := c.pos_le
  have hleft : int32 (c.limit - c.pos) = c.limit - c.pos := int32_eq ⟨by omega, by omega⟩
  rw [observe_eq h]
  constructor
  · rintro ⟨hcount, hfailed⟩
    simp only [hleft] at hcount hfailed
    exact ⟨by omega, hfailed⟩
  · rintro ⟨hcount, hfailed⟩
    refine ⟨?_, hfailed⟩
    simp only [hleft]
    omega

/-- What one call adds to the log is true where it meets no padding, and only there. -/
theorem Booked.step {client : Client Memory} {n : Nat} (h : Booked client n)
    (hn : 8 * n < 2147483648) {op : ReadOp} (hop : Allowed client op) :
    ∃ client' o, step client op = .ok client' ∧ client'.log = client.log ++ [o] ∧
      (Clean client op → Booked client' n) ∧ (¬Clean client op → ¬o.Truthful n) := by
  obtain ⟨c, hc, hbal⟩ := h.follows
  obtain ⟨client', hrun, hc', hlog⟩ := step_follows hc hop
  refine ⟨client', _, hrun, hlog, fun hclean => ?_, fun hclean => ?_⟩
  · obtain ⟨hbal', hfailed⟩ := hbal.perform hn ((hc.clean_iff hbal op).mp hclean)
    refine ⟨⟨_, hc', hbal'⟩, fun o ho => ?_⟩
    rw [hlog, List.mem_append, List.mem_singleton] at ho
    rcases ho with ho | rfl
    · exact h.log o ho
    · exact (hc'.truthful_iff hn hbal'.limit _).mpr ⟨hbal'.counted, hfailed⟩
  · obtain ⟨hlimit, hne⟩ := hbal.perform_unclean (mt (hc.clean_iff hbal op).mpr hclean)
    intro htrue
    exact hne ((hc'.truthful_iff hn hlimit _).mp htrue).1

/-- Entries stay in the log. -/
theorem run_log {ops : List ReadOp} {client client' : Client Memory}
    (h : Run.run step ops client = .ok client') {o : Observation} (ho : o ∈ client.log) :
    o ∈ client'.log := by
  have hstep : ∀ (client : Client Memory) (op : ReadOp) (client' : Client Memory), o ∈ client.log →
      True → step client op = .ok client' → o ∈ client'.log := by
    intro client op client' ho _ hrun
    obtain ⟨⟨output, s⟩, -, hr⟩ := Except.bind_eq_ok_iff.mp hrun
    obtain rfl := Except.pure_eq_ok_iff.mp hr
    exact List.mem_append_left _ ho
  exact Run.run_inv (C := fun _ => True) hstep (fun _ _ => trivial) ho h

/-- The bits that were counted and those that remain are the bits of the buffer. -/
theorem Booked.counted {client : Client Memory} {n : Nat} (h : Booked client n)
    (hn : 8 * n < 2147483648) :
    client.stream.getBitsProcessed + client.stream.getBitsRemaining = 8 * n := by
  obtain ⟨c, hc, hbal⟩ := h.follows
  exact ((hc.truthful_iff hn hbal.limit (some .align)).mpr ⟨hbal.counted, nofun⟩).counted

/-- From a state in which the books are right, they stay right along the run if and
only if no call meets padding that is not zero. -/
theorem Booked.keeps_iff {ops : List ReadOp} {client : Client Memory} {n : Nat}
    (h : Booked client n) (hn : 8 * n < 2147483648)
    (hops : Run.Along ReadStream.step Allowed ops client) :
    KeepsBooks client n ops ↔ Run.Along ReadStream.step Clean ops client := by
  induction ops generalizing client with
  | nil => exact ⟨fun _ => trivial, fun _ => ⟨client, rfl, h.counted hn, h.log⟩⟩
  | cons op ops ih =>
      obtain ⟨client₁, o, hrun, hlog, hclean, hunclean⟩ := h.step hn hops.1
      constructor
      · rintro ⟨client', hall, hcount, htrue⟩
        obtain ⟨client₂, hrun', hrest⟩ := Run.run_cons_eq_ok.mp hall
        obtain rfl : client₁ = client₂ := Except.ok.inj (hrun.symm.trans hrun')
        have hop : Clean client op := by
          by_contra hop
          have hmem : o ∈ client₁.log := by
            rw [hlog]
            simp
          exact hunclean hop (htrue o (run_log hrest hmem))
        refine ⟨hop, fun client₂ hrun₂ => ?_⟩
        obtain rfl : client₁ = client₂ := Except.ok.inj (hrun.symm.trans hrun₂)
        exact (ih (hclean hop) (hops.2 _ hrun)).mp ⟨client', hrest, hcount, htrue⟩
      · rintro ⟨hop, hrest⟩
        obtain ⟨client', hall, hbooks⟩ := (ih (hclean hop) (hops.2 _ hrun)).mpr (hrest _ hrun)
        exact ⟨client', Run.run_cons_eq_ok.mpr ⟨client₁, hrun, hall⟩, hbooks⟩

/-- A new stream has its books in order. -/
theorem start_booked {buffer : Memory} {n : Nat} (hn : 8 * n < 2147483648)
    (hpad : 4 * ((n + 3) / 4) ≤ buffer.length) : Booked (start buffer n) n := by
  have hlen : (Platform.bits buffer).length = 8 * buffer.length := Bits.length_ofList buffer
  have hlimit : int32 ((n : Int) * 8) = 8 * n := by
    rw [int32_eq ⟨by omega, by omega⟩]
    exact Int.mul_comm _ _
  have hfollows := init_follows buffer (show (0 : Int) ≤ n by omega) (by omega) (by omega)
  exact ⟨⟨_, hfollows, hlimit, rfl⟩, fun _ ho => absurd ho List.not_mem_nil⟩

/-- The two counters and the error code are right after every call of a run if and
only if no call meets padding that is not zero. -/
theorem keepsBooks_iff {buffer : Memory} {n : Nat} (hn : 8 * n < 2147483648)
    (hpad : 4 * ((n + 3) / 4) ≤ buffer.length) {ops : List ReadOp}
    (hops : Run.Along step Allowed ops (start buffer n)) :
    KeepsBooks (start buffer n) n ops ↔ Run.Along step Clean ops (start buffer n) :=
  (start_booked hn hpad).keeps_iff hn hops

/-- A bit, an alignment, and bytes beyond the end. -/
def failingOps : List ReadOp := [.serializeBits 1, .serializeAlign, .serializeBytes [0, 0, 0, 0] 4]

/-- The run of the example asks for nothing that lies outside of the buffer. -/
theorem failingOps_allowed (buffer : Memory) (h : 4 ≤ buffer.length) :
    Run.Along step Allowed failingOps (start buffer (4 : Nat)) :=
  along_of_modest (by decide) h (by simp [failingOps, ReadOp.Valid, Modest])

/-- The seven bits behind the first one of the bytes 1, 2, 3, 4 are zero, so that the alignment
passes; the bytes beyond the end then fail with an error. -/
theorem keepsBooks_iff_sample :
    KeepsBooks (start ([1, 2, 3, 4] : Memory) (4 : Nat)) 4 failingOps := by
  rw [keepsBooks_iff (by decide) (by decide) (failingOps_allowed _ (by decide))]
  refine ⟨trivial, fun _ h₁ => ?_⟩
  obtain rfl := Except.ok.inj h₁
  refine ⟨?_, fun _ h₂ => ?_⟩
  · change PaddingZero _
    decide
  · obtain rfl := Except.ok.inj h₂
    refine ⟨?_, fun _ _ => trivial⟩
    change PaddingZero _
    decide

/-- The padding of the first byte is not zero: the alignment fails, and seven bits are
neither processed nor remaining. -/
theorem not_keepsBooks :
    ¬∀ (buffer : Memory) (n : Nat) (ops : List ReadOp), 8 * n < 2147483648 →
      4 * ((n + 3) / 4) ≤ buffer.length → Run.Along step Allowed ops (start buffer n) →
      KeepsBooks (start buffer n) n ops := by
  intro h
  have hallowed := failingOps_allowed [3, 2, 3, 4] (by decide)
  have hbooks := h [3, 2, 3, 4] 4 failingOps (by decide) (by decide) hallowed
  have hstart := @start_booked [3, 2, 3, 4] 4 (by decide) (by decide)
  rw [hstart.keeps_iff (by decide) hallowed] at hbooks
  obtain ⟨hclean, -⟩ := hbooks.2 _ rfl
  change PaddingZero _ at hclean
  revert hclean
  decide

end ReadStream

end RudpNetwork
