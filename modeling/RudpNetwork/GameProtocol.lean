import RudpNetwork.CSharp
import RudpNetwork.Packet

/-!
# RudpNetwork.GameProtocol

`GameProtocol.cs`: the messages of the C# client.  They have the members of the
C++ classes of the same names, and the same encodings.  Their `SerializeRead`
does not look at the results of the reads and always returns `true`.
-/

namespace RudpNetwork

open MachineInt
open ReadStream (assign)

namespace CSharp

/-! ## the source methods -/

/-- `ConnectionStartReq.SerializeWrite`. -/
def ConnectionStartReq.serializeWrite (p : RudpNetwork.ConnectionStartReq) :
    Proc Fault (WriteStream UIntArray) Unit := do
  Proc.ignore (serializeBits p.cmd.toNat 8)
  Proc.ignore (serializeBits p.sid.toNat 16)
  Proc.ignore (serializeUInt64 p.uid)

/-- `ConnectionStartReq.SerializeRead`. -/
def ConnectionStartReq.serializeRead : ReadProc UIntArray RudpNetwork.ConnectionStartReq Unit := do
  let cmd ← deserializeBits 8
  assign ({ · with cmd := cmd.setWidth 8 })
  let sid ← deserializeBits 16
  assign ({ · with sid := sid.setWidth 16 })
  let uid ← deserializeUInt64
  assign ({ · with uid })

/-- `ConnectionStartRsp.SerializeWrite`. -/
def ConnectionStartRsp.serializeWrite (p : RudpNetwork.ConnectionStartRsp) :
    Proc Fault (WriteStream UIntArray) Unit := do
  Proc.ignore (serializeBits p.cmd.toNat 8)
  Proc.ignore (serializeBits p.sid.toNat 16)

/-- `ConnectionStartRsp.SerializeRead`. -/
def ConnectionStartRsp.serializeRead : ReadProc UIntArray RudpNetwork.ConnectionStartRsp Unit := do
  let cmd ← deserializeBits 8
  assign ({ · with cmd := cmd.setWidth 8 })
  let sid ← deserializeBits 16
  assign ({ · with sid := sid.setWidth 16 })

/-! ## the encodings -/

open WriteStream (Writes)
open ReadStream (Reads)

variable {c : Context}

/-- A `byte` or a `ushort` becomes a non-negative `int`. -/
theorem writes_serializeBits_narrow {w : Nat} (value : BitVec w) (h0 : 0 < w) (h32 : w < 32) :
    Writes c (Proc.ignore (serializeBits value.toNat w)) (Wire.bits (value.setWidth 32) w) := by
  have hlt : value.toNat < 2 ^ 31 :=
    Nat.lt_of_lt_of_le value.isLt (Nat.pow_le_pow_right (by decide) (by omega))
  have hcast : (value.setWidth 32).toInt = value.toNat := by
    rw [BitVec.toInt_eq_toNat_of_lt, BitVec.toNat_setWidth, Nat.mod_eq_of_lt (by omega)]
    rw [BitVec.toNat_setWidth, Nat.mod_eq_of_lt (by omega)]
    omega
  rw [← hcast]
  exact Writes.ignore (writes_serializeBits _ (by omega) (by omega))

/-- The C# start request has the encoding of the C++ one. -/
theorem ConnectionStartReq.writes_serializeWrite (p : RudpNetwork.ConnectionStartReq) :
    Writes c (serializeWrite p) p.enc := by
  rw [RudpNetwork.ConnectionStartReq.enc, Enc.append_assoc]
  exact Writes.bind (writes_serializeBits_narrow p.cmd (by decide) (by decide))
    (Writes.bind (writes_serializeBits_narrow p.sid (by decide) (by decide))
      (Writes.ignore (writes_serializeUInt64 p.uid)))

/-- So has the start response. -/
theorem ConnectionStartRsp.writes_serializeWrite (p : RudpNetwork.ConnectionStartRsp) :
    Writes c (serializeWrite p) p.enc :=
  Writes.bind (writes_serializeBits_narrow p.cmd (by decide) (by decide))
    (writes_serializeBits_narrow p.sid (by decide) (by decide))

/-- A member that is read and stored. -/
theorem reads_deserializeBits_narrow {τ : Type} {w : Nat} (value : BitVec w) (h0 : 0 < w)
    (h32 : w ≤ 32) (store : BitVec w → τ → τ) (o : τ) :
    Reads c (do
      let v ← deserializeBits w
      assign (store (v.setWidth w)) : ReadProc UIntArray τ Unit)
      (Wire.bits (value.setWidth 32) w) o (store value o) () := by
  have hback : (value.setWidth 32).setWidth w = value := by
    rw [BitVec.setWidth_setWidth_of_le _ h32, BitVec.setWidth_eq]
  rw [← Enc.append_empty (Wire.bits (value.setWidth 32) w)]
  refine Reads.bind (reads_deserializeBits value h0 h32 o) ?_
  rw [hback]
  exact Reads.assign (store value) o

/-- The C# start request is read back from the encoding of the C++ one. -/
theorem ConnectionStartReq.reads_serializeRead (p o : RudpNetwork.ConnectionStartReq) :
    Reads c serializeRead p.enc o p () := by
  have hcmd := @reads_deserializeBits_narrow c RudpNetwork.ConnectionStartReq 8 p.cmd (by decide)
    (by decide) (fun v p => { p with cmd := v }) o
  have hsid := @reads_deserializeBits_narrow c RudpNetwork.ConnectionStartReq 16 p.sid (by decide)
    (by decide) (fun v p => { p with sid := v }) { o with cmd := p.cmd }
  have huid := Reads.bind (f := fun uid => assign ({ · with uid }))
    (@reads_deserializeUInt64 c _ p.uid { p with uid := o.uid })
    (Reads.assign (fun o : RudpNetwork.ConnectionStartReq => { o with uid := p.uid }) _)
  have hall := Reads.bind hcmd (f := fun _ => _) (Reads.bind hsid (f := fun _ => _) huid)
  rw [Proc.bind_assoc, Enc.append_empty, ← Enc.append_assoc] at hall
  simp only [Proc.bind_assoc] at hall
  exact hall

/-- The start response is read back. -/
theorem ConnectionStartRsp.reads_serializeRead (p o : RudpNetwork.ConnectionStartRsp) :
    Reads c serializeRead p.enc o p () := by
  have hcmd := @reads_deserializeBits_narrow c SessionMessage 8 p.cmd (by decide) (by decide)
    (fun v p => { p with cmd := v }) o
  have hsid := @reads_deserializeBits_narrow c SessionMessage 16 p.sid (by decide) (by decide)
    (fun v p => { p with sid := v }) { o with cmd := p.cmd }
  have hall := Reads.bind hcmd (f := fun _ => _) hsid
  rw [Proc.bind_assoc] at hall
  exact hall

end CSharp

end RudpNetwork
