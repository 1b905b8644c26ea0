import RudpNetwork.CSharp
import RudpNetwork.Cursor

/-!
# RudpNetwork.ReaderAgreement

The `ReadStream` of the C++ server and that of the C# client are the same machine.

A `Cursor` is the reference: `Cursor.observations` says what a caller sees of a list of
calls, by itself and without words or scratch registers.  Both streams are refinements
of it (`run_observes`), so on equal bytes they cannot be told apart, whatever is read
of whatever bytes and also after reads that failed (`readers_agree`).

## Main results

* `run_observes` — a stream shows its caller what the cursor shows.
* `readers_agree` — the two languages cannot be told apart.
-/

namespace RudpNetwork

open MachineInt

namespace Cursor

/-- What a caller sees of a cursor after a call. -/
def observe (c : Cursor) (output : Option Output) : Observation where
  output := output
  error := c.error
  bitsProcessed := c.counted
  bitsRemaining := int32 (c.limit - c.pos)
  bytesProcessed := (int32 (c.counted + 7)).tdiv 8
  alignBits := c.alignBits

/-- What a caller sees of the calls. -/
def observations (c : Cursor) : List ReadOp → List Observation
  | [] => []
  | op :: ops => (c.perform op).2.observe (c.perform op).1 :: (c.perform op).2.observations ops

/-- Valid arguments, and no overflow of a number of bits, in every call. -/
def Allows (c : Cursor) : List ReadOp → Prop
  | [] => True
  | op :: ops => (op.Valid ∧ c.Fits op) ∧ (c.perform op).2.Allows ops

/-- In all but the largest buffers only the length of bytes can overflow. -/
theorem allows_of_modest {c : Cursor} {n : Nat} (hn : n + 4 < 268435456) (hlimit : c.limit ≤ 8 * n)
    {ops : List ReadOp} (hops : ∀ op ∈ ops, op.Valid ∧ ReadStream.Modest n op) : c.Allows ops := by
  induction ops generalizing c with
  | nil => trivial
  | cons op ops ih =>
      obtain ⟨hvalid, hmodest⟩ := hops op List.mem_cons_self
      exact ⟨⟨hvalid, hmodest.fits hn hlimit hvalid⟩,
        ih (by rwa [limit_perform]) fun op' hop' => hops op' (List.mem_cons_of_mem op hop')⟩

end Cursor

namespace ReadStream

variable {β : Type} [Platform β]

/-- A stream shows its caller what the cursor does. -/
theorem run_observes {client : Client β} {c : Cursor} (h : client.stream.Follows c)
    {ops : List ReadOp} (hops : c.Allows ops) :
    ∃ client', Run.run step ops client = .ok client' ∧
      client'.log = client.log ++ c.observations ops := by
  induction ops generalizing client c with
  | nil => exact ⟨client, rfl, (List.append_nil _).symm⟩
  | cons op ops ih =>
      obtain ⟨⟨hvalid, hfits⟩, hrest⟩ := hops
      obtain ⟨next, hstep, hnext, hsees⟩ := step_follows h ⟨hvalid, (h.fits_iff op).mpr hfits⟩
      obtain ⟨client', hrun, hlog⟩ := ih hnext hrest
      refine ⟨client', Run.run_cons_eq_ok.mpr ⟨next, hstep, hrun⟩, ?_⟩
      rw [hlog, hsees, observe_eq hnext, List.append_assoc]
      rfl

/-- The bits of the first `n` bytes, as both languages see them. -/
def reference (buffer : List U8) (n : Nat) : Cursor :=
  .start (Bits.ofList buffer) (int32 (n * 8)) (int32_bytes_emod n)

/-- On equal bytes the C++ stream and the C# stream give equal results: the same values, the
same failures at the same calls, and the same error, positions and counts after each of them.
These are those of the cursor, for any calls with valid arguments, unless a number of bits
leaves the range of `int`. -/
theorem readers_agree {buffer : List U8} (h4 : buffer.length % 4 = 0) {n : Nat}
    (hn : n ≤ buffer.length) (hint : n < 2147483648) {ops : List ReadOp}
    (hops : (reference buffer n).Allows ops) :
    ∃ stream client client', CSharp.newReadStream buffer n = .ok stream ∧
      Run.run step ops (start (buffer : Memory) n) = .ok client ∧
      Run.run step ops { stream, log := [] } = .ok client' ∧
      client.log = (reference buffer n).observations ops ∧ client'.log = client.log := by
  have hlen : (Platform.bits (buffer : Memory)).length = 8 * buffer.length := Bits.length_ofList buffer
  have hsame : Platform.bits (CSharp.byteArrayToUIntArray buffer) = Bits.ofList buffer :=
    CSharp.ofList_byteArrayToUIntArray (by omega)
  have hcpp := @init_follows Memory _ buffer n (by omega) (by omega) (by omega)
  have hcsharp := @init_follows UIntArray _ (CSharp.byteArrayToUIntArray buffer) n (by omega)
    (by omega) (by rw [hsame, Bits.length_ofList]; omega)
  rw [hsame] at hcsharp
  obtain ⟨client, hrun, hlog⟩ := @run_observes _ _ (start (buffer : Memory) n) _ hcpp ops hops
  obtain ⟨client', hrun', hlog'⟩ :=
    @run_observes _ _ (start (CSharp.byteArrayToUIntArray buffer) n) _ hcsharp ops hops
  exact ⟨_, client, client', CSharp.newReadStream_eq h4 n, hrun, hrun', hlog, hlog'.trans hlog.symm⟩

/-- Five bytes of data, read in both languages. -/
theorem readers_agree_sample :
    ∃ stream client client', CSharp.newReadStream [3, 1, 2, 3, 4, 0, 0, 0] 5 = .ok stream ∧
      Run.run step sampleOps (start ([3, 1, 2, 3, 4, 0, 0, 0] : Memory) 5) = .ok client ∧
      Run.run step sampleOps { stream, log := [] } = .ok client' ∧
      client.log = (reference [3, 1, 2, 3, 4, 0, 0, 0] 5).observations sampleOps ∧
      client'.log = client.log := by
  have hmodest : ∀ op ∈ sampleOps, op.Valid ∧ Modest 5 op := by
    simp [sampleOps, ReadOp.Valid, Modest, IsInt32]
  exact readers_agree (by decide) (by decide) (by decide)
    (Cursor.allows_of_modest (by decide) (by decide) hmodest)

end ReadStream

end RudpNetwork
