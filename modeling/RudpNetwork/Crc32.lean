import RudpNetwork.Lib.Crc
import RudpNetwork.Platform

/-!
# RudpNetwork.Crc32

`calculate_crc32` of `NetworkUtil.cpp` and of `NetworkCommon.cs`: a table, a loop,
and an inversion before and after.  The table is that of the reflected polynomial
`0xEDB88320` (`crc32Entry_eq_byteEntry`), so the loop divides by it, as a loop over
the bits would (`crc32_eq_bitwiseCrc32`), and the rules of `Lib.Crc` for the table
of a polynomial hold of the packet checksum (`crc32_seed_inj`, `crc32_short_inj`).

## Main results

* `crc32_eq_bitwiseCrc32` — the table computes what the polynomial defines.
* `crc32_seed_inj`, `crc32_short_inj` — what a checksum tells apart.
* `calculateCrc32_isCrc32` — the loop of both code bases computes it.
-/

namespace RudpNetwork

/-- `crc32_table`. -/
@[irreducible] def crc32Table : List U32 :=
  [0x00000000, 0x77073096, 0xEE0E612C, 0x990951BA, 0x076DC419, 0x706AF48F, 0xE963A535, 0x9E6495A3,
   0x0EDB8832, 0x79DCB8A4, 0xE0D5E91E, 0x97D2D988, 0x09B64C2B, 0x7EB17CBD, 0xE7B82D07, 0x90BF1D91,
   0x1DB71064, 0x6AB020F2, 0xF3B97148, 0x84BE41DE, 0x1ADAD47D, 0x6DDDE4EB, 0xF4D4B551, 0x83D385C7,
   0x136C9856, 0x646BA8C0, 0xFD62F97A, 0x8A65C9EC, 0x14015C4F, 0x63066CD9, 0xFA0F3D63, 0x8D080DF5,
   0x3B6E20C8, 0x4C69105E, 0xD56041E4, 0xA2677172, 0x3C03E4D1, 0x4B04D447, 0xD20D85FD, 0xA50AB56B,
   0x35B5A8FA, 0x42B2986C, 0xDBBBC9D6, 0xACBCF940, 0x32D86CE3, 0x45DF5C75, 0xDCD60DCF, 0xABD13D59,
   0x26D930AC, 0x51DE003A, 0xC8D75180, 0xBFD06116, 0x21B4F4B5, 0x56B3C423, 0xCFBA9599, 0xB8BDA50F,
   0x2802B89E, 0x5F058808, 0xC60CD9B2, 0xB10BE924, 0x2F6F7C87, 0x58684C11, 0xC1611DAB, 0xB6662D3D,
   0x76DC4190, 0x01DB7106, 0x98D220BC, 0xEFD5102A, 0x71B18589, 0x06B6B51F, 0x9FBFE4A5, 0xE8B8D433,
   0x7807C9A2, 0x0F00F934, 0x9609A88E, 0xE10E9818, 0x7F6A0DBB, 0x086D3D2D, 0x91646C97, 0xE6635C01,
   0x6B6B51F4, 0x1C6C6162, 0x856530D8, 0xF262004E, 0x6C0695ED, 0x1B01A57B, 0x8208F4C1, 0xF50FC457,
   0x65B0D9C6, 0x12B7E950, 0x8BBEB8EA, 0xFCB9887C, 0x62DD1DDF, 0x15DA2D49, 0x8CD37CF3, 0xFBD44C65,
   0x4DB26158, 0x3AB551CE, 0xA3BC0074, 0xD4BB30E2, 0x4ADFA541, 0x3DD895D7, 0xA4D1C46D, 0xD3D6F4FB,
   0x4369E96A, 0x346ED9FC, 0xAD678846, 0xDA60B8D0, 0x44042D73, 0x33031DE5, 0xAA0A4C5F, 0xDD0D7CC9,
   0x5005713C, 0x270241AA, 0xBE0B1010, 0xC90C2086, 0x5768B525, 0x206F85B3, 0xB966D409, 0xCE61E49F,
   0x5EDEF90E, 0x29D9C998, 0xB0D09822, 0xC7D7A8B4, 0x59B33D17, 0x2EB40D81, 0xB7BD5C3B, 0xC0BA6CAD,
   0xEDB88320, 0x9ABFB3B6, 0x03B6E20C, 0x74B1D29A, 0xEAD54739, 0x9DD277AF, 0x04DB2615, 0x73DC1683,
   0xE3630B12, 0x94643B84, 0x0D6D6A3E, 0x7A6A5AA8, 0xE40ECF0B, 0x9309FF9D, 0x0A00AE27, 0x7D079EB1,
   0xF00F9344, 0x8708A3D2, 0x1E01F268, 0x6906C2FE, 0xF762575D, 0x806567CB, 0x196C3671, 0x6E6B06E7,
   0xFED41B76, 0x89D32BE0, 0x10DA7A5A, 0x67DD4ACC, 0xF9B9DF6F, 0x8EBEEFF9, 0x17B7BE43, 0x60B08ED5,
   0xD6D6A3E8, 0xA1D1937E, 0x38D8C2C4, 0x4FDFF252, 0xD1BB67F1, 0xA6BC5767, 0x3FB506DD, 0x48B2364B,
   0xD80D2BDA, 0xAF0A1B4C, 0x36034AF6, 0x41047A60, 0xDF60EFC3, 0xA867DF55, 0x316E8EEF, 0x4669BE79,
   0xCB61B38C, 0xBC66831A, 0x256FD2A0, 0x5268E236, 0xCC0C7795, 0xBB0B4703, 0x220216B9, 0x5505262F,
   0xC5BA3BBE, 0xB2BD0B28, 0x2BB45A92, 0x5CB36A04, 0xC2D7FFA7, 0xB5D0CF31, 0x2CD99E8B, 0x5BDEAE1D,
   0x9B64C2B0, 0xEC63F226, 0x756AA39C, 0x026D930A, 0x9C0906A9, 0xEB0E363F, 0x72076785, 0x05005713,
   0x95BF4A82, 0xE2B87A14, 0x7BB12BAE, 0x0CB61B38, 0x92D28E9B, 0xE5D5BE0D, 0x7CDCEFB7, 0x0BDBDF21,
   0x86D3D2D4, 0xF1D4E242, 0x68DDB3F8, 0x1FDA836E, 0x81BE16CD, 0xF6B9265B, 0x6FB077E1, 0x18B74777,
   0x88085AE6, 0xFF0F6A70, 0x66063BCA, 0x11010B5C, 0x8F659EFF, 0xF862AE69, 0x616BFFD3, 0x166CCF45,
   0xA00AE278, 0xD70DD2EE, 0x4E048354, 0x3903B3C2, 0xA7672661, 0xD06016F7, 0x4969474D, 0x3E6E77DB,
   0xAED16A4A, 0xD9D65ADC, 0x40DF0B66, 0x37D83BF0, 0xA9BCAE53, 0xDEBB9EC5, 0x47B2CF7F, 0x30B5FFE9,
   0xBDBDF21C, 0xCABAC28A, 0x53B39330, 0x24B4A3A6, 0xBAD03605, 0xCDD70693, 0x54DE5729, 0x23D967BF,
   0xB3667A2E, 0xC4614AB8, 0x5D681B02, 0x2A6F2B94, 0xB40BBE37, 0xC30C8EA1, 0x5A05DF1B, 0x2D02EF8D]

/-- One turn of the loop. -/
def crc32Step (crc32 : U32) (b : U8) : U32 :=
  crc32 >>> 8 ^^^ crc32Table.getD ((crc32 ^^^ b.setWidth 32) &&& 0xFF#32).toNat 0

/-- The checksum of a message. -/
def crc32 (data : List U8) (seed : U32) : U32 :=
  data.foldl crc32Step (seed ^^^ 0xFFFFFFFF#32) ^^^ 0xFFFFFFFF#32

/-- `calculate_crc32( buffer + start, length, crc32 )`. -/
def calculateCrc32 (buffer : List U8) (start : Int) (length : Nat) (seed : U32) :
    Except Fault U32 := do
  let data ← readArray buffer start length
  return crc32 data seed

namespace CSharp.NetworkCommon

/-- `NetworkCommon.crc32_table`. -/
@[irreducible] def crc32Table : List U32 :=
  [0x00000000, 0x77073096, 0xEE0E612C, 0x990951BA, 0x076DC419, 0x706AF48F, 0xE963A535, 0x9E6495A3,
   0x0EDB8832, 0x79DCB8A4, 0xE0D5E91E, 0x97D2D988, 0x09B64C2B, 0x7EB17CBD, 0xE7B82D07, 0x90BF1D91,
   0x1DB71064, 0x6AB020F2, 0xF3B97148, 0x84BE41DE, 0x1ADAD47D, 0x6DDDE4EB, 0xF4D4B551, 0x83D385C7,
   0x136C9856, 0x646BA8C0, 0xFD62F97A, 0x8A65C9EC, 0x14015C4F, 0x63066CD9, 0xFA0F3D63, 0x8D080DF5,
   0x3B6E20C8, 0x4C69105E, 0xD56041E4, 0xA2677172, 0x3C03E4D1, 0x4B04D447, 0xD20D85FD, 0xA50AB56B,
   0x35B5A8FA, 0x42B2986C, 0xDBBBC9D6, 0xACBCF940, 0x32D86CE3, 0x45DF5C75, 0xDCD60DCF, 0xABD13D59,
   0x26D930AC, 0x51DE003A, 0xC8D75180, 0xBFD06116, 0x21B4F4B5, 0x56B3C423, 0xCFBA9599, 0xB8BDA50F,
   0x2802B89E, 0x5F058808, 0xC60CD9B2, 0xB10BE924, 0x2F6F7C87, 0x58684C11, 0xC1611DAB, 0xB6662D3D,
   0x76DC4190, 0x01DB7106, 0x98D220BC, 0xEFD5102A, 0x71B18589, 0x06B6B51F, 0x9FBFE4A5, 0xE8B8D433,
   0x7807C9A2, 0x0F00F934, 0x9609A88E, 0xE10E9818, 0x7F6A0DBB, 0x086D3D2D, 0x91646C97, 0xE6635C01,
   0x6B6B51F4, 0x1C6C6162, 0x856530D8, 0xF262004E, 0x6C0695ED, 0x1B01A57B, 0x8208F4C1, 0xF50FC457,
   0x65B0D9C6, 0x12B7E950, 0x8BBEB8EA, 0xFCB9887C, 0x62DD1DDF, 0x15DA2D49, 0x8CD37CF3, 0xFBD44C65,
   0x4DB26158, 0x3AB551CE, 0xA3BC0074, 0xD4BB30E2, 0x4ADFA541, 0x3DD895D7, 0xA4D1C46D, 0xD3D6F4FB,
   0x4369E96A, 0x346ED9FC, 0xAD678846, 0xDA60B8D0, 0x44042D73, 0x33031DE5, 0xAA0A4C5F, 0xDD0D7CC9,
   0x5005713C, 0x270241AA, 0xBE0B1010, 0xC90C2086, 0x5768B525, 0x206F85B3, 0xB966D409, 0xCE61E49F,
   0x5EDEF90E, 0x29D9C998, 0xB0D09822, 0xC7D7A8B4, 0x59B33D17, 0x2EB40D81, 0xB7BD5C3B, 0xC0BA6CAD,
   0xEDB88320, 0x9ABFB3B6, 0x03B6E20C, 0x74B1D29A, 0xEAD54739, 0x9DD277AF, 0x04DB2615, 0x73DC1683,
   0xE3630B12, 0x94643B84, 0x0D6D6A3E, 0x7A6A5AA8, 0xE40ECF0B, 0x9309FF9D, 0x0A00AE27, 0x7D079EB1,
   0xF00F9344, 0x8708A3D2, 0x1E01F268, 0x6906C2FE, 0xF762575D, 0x806567CB, 0x196C3671, 0x6E6B06E7,
   0xFED41B76, 0x89D32BE0, 0x10DA7A5A, 0x67DD4ACC, 0xF9B9DF6F, 0x8EBEEFF9, 0x17B7BE43, 0x60B08ED5,
   0xD6D6A3E8, 0xA1D1937E, 0x38D8C2C4, 0x4FDFF252, 0xD1BB67F1, 0xA6BC5767, 0x3FB506DD, 0x48B2364B,
   0xD80D2BDA, 0xAF0A1B4C, 0x36034AF6, 0x41047A60, 0xDF60EFC3, 0xA867DF55, 0x316E8EEF, 0x4669BE79,
   0xCB61B38C, 0xBC66831A, 0x256FD2A0, 0x5268E236, 0xCC0C7795, 0xBB0B4703, 0x220216B9, 0x5505262F,
   0xC5BA3BBE, 0xB2BD0B28, 0x2BB45A92, 0x5CB36A04, 0xC2D7FFA7, 0xB5D0CF31, 0x2CD99E8B, 0x5BDEAE1D,
   0x9B64C2B0, 0xEC63F226, 0x756AA39C, 0x026D930A, 0x9C0906A9, 0xEB0E363F, 0x72076785, 0x05005713,
   0x95BF4A82, 0xE2B87A14, 0x7BB12BAE, 0x0CB61B38, 0x92D28E9B, 0xE5D5BE0D, 0x7CDCEFB7, 0x0BDBDF21,
   0x86D3D2D4, 0xF1D4E242, 0x68DDB3F8, 0x1FDA836E, 0x81BE16CD, 0xF6B9265B, 0x6FB077E1, 0x18B74777,
   0x88085AE6, 0xFF0F6A70, 0x66063BCA, 0x11010B5C, 0x8F659EFF, 0xF862AE69, 0x616BFFD3, 0x166CCF45,
   0xA00AE278, 0xD70DD2EE, 0x4E048354, 0x3903B3C2, 0xA7672661, 0xD06016F7, 0x4969474D, 0x3E6E77DB,
   0xAED16A4A, 0xD9D65ADC, 0x40DF0B66, 0x37D83BF0, 0xA9BCAE53, 0xDEBB9EC5, 0x47B2CF7F, 0x30B5FFE9,
   0xBDBDF21C, 0xCABAC28A, 0x53B39330, 0x24B4A3A6, 0xBAD03605, 0xCDD70693, 0x54DE5729, 0x23D967BF,
   0xB3667A2E, 0xC4614AB8, 0x5D681B02, 0x2A6F2B94, 0xB40BBE37, 0xC30C8EA1, 0x5A05DF1B, 0x2D02EF8D]

/-- One turn of the C# loop. -/
def crc32Step (crc32 : U32) (b : U8) : U32 :=
  crc32 >>> 8 ^^^ crc32Table.getD ((crc32 ^^^ b.setWidth 32) &&& 0xFF#32).toNat 0

/-- `NetworkCommon.calculate_crc32`. -/
def calculateCrc32 (buffer : List U8) (length : Int) (crc32 : U32) : Except Fault U32 := do
  let data ← readArray buffer 0 length
  return data.foldl crc32Step (crc32 ^^^ 0xFFFFFFFF#32) ^^^ 0xFFFFFFFF#32

end CSharp.NetworkCommon

/-! ## the table -/

/-- The polynomial of CRC-32, reflected. -/
def crc32Polynomial : U32 := 0xEDB88320

/-- The table, indexed by a byte. -/
def crc32Entry (i : U8) : U32 := crc32Table.getD i.toNat 0

/-- The table is the one that the polynomial generates. -/
theorem crc32Table_eq_ofFn :
    crc32Table = List.ofFn fun i : Fin 256 => Crc.byteEntry crc32Polynomial (BitVec.ofFin i) := by
  decide +kernel

/-- The table of the source is that of the polynomial. -/
theorem crc32Entry_eq_byteEntry : crc32Entry = Crc.byteEntry crc32Polynomial := by
  funext i
  rw [crc32Entry, crc32Table_eq_ofFn, List.getD_eq_getElem?_getD, List.getElem?_ofFn,
    dif_pos i.isLt]
  rfl

/-- Both code bases have the same table. -/
theorem csharp_crc32Table : CSharp.NetworkCommon.crc32Table = crc32Table := by decide +kernel

/-- The top bytes of its entries are all different. -/
theorem topInjective_crc32Entry : Crc.TopInjective crc32Entry := by
  rw [crc32Entry_eq_byteEntry]
  exact Crc.topInjective_byteEntry (by decide)

/-- The masked index of the source is the byte index of the library. -/
theorem crc32Step_eq (crc32 : U32) (b : U8) : crc32Step crc32 b = Crc.step crc32Entry crc32 b := by
  have hmask : ((crc32 ^^^ b.setWidth 32) &&& 0xFF#32).toNat = (Crc.index crc32 b).toNat := by
    have hand : ((crc32 ^^^ b.setWidth 32) &&& 0xFF#32).toNat =
        (crc32 ^^^ b.setWidth 32).toNat % 2 ^ 8 := by
      rw [BitVec.toNat_and]
      exact Nat.and_two_pow_sub_one_eq_mod _ 8
    rw [hand, ← Crc.setWidth_xor_eq_index, BitVec.toNat_setWidth]
  rw [crc32Step, Crc.step, crc32Entry, hmask]

/-- The loop of `calculate_crc32` over the complement of the seed. -/
theorem crc32_eq_update (data : List U8) (seed : U32) :
    crc32 data seed = Crc.update crc32Entry (seed ^^^ 0xFFFFFFFF#32) data ^^^ 0xFFFFFFFF#32 := by
  have hstep : crc32Step = Crc.step crc32Entry := by
    funext crc b
    exact crc32Step_eq crc b
  rw [crc32, hstep, Crc.update]

/-- CRC-32 as it is defined, one bit at a time. -/
def bitwiseCrc32 (data : List U8) (seed : U32) : U32 :=
  Crc.bitUpdate crc32Polynomial (seed ^^^ 0xFFFFFFFF#32) data ^^^ 0xFFFFFFFF#32

/-- The table computes the division by the polynomial, bit by bit. -/
theorem crc32_eq_bitwiseCrc32 (data : List U8) (seed : U32) :
    crc32 data seed = bitwiseCrc32 data seed := by
  rw [crc32_eq_update, crc32Entry_eq_byteEntry, Crc.update_byteEntry, bitwiseCrc32]

/-- The check value of CRC-32, for the digits from `1` to `9`. -/
example : bitwiseCrc32 [0x31, 0x32, 0x33, 0x34, 0x35, 0x36, 0x37, 0x38, 0x39] 0 = 0xCBF43926 := by
  decide +kernel

/-! ## the checksum of a message -/

/-- A checksum can be computed in pieces: the inversions in between cancel. -/
theorem crc32_append (xs ys : List U8) (seed : U32) :
    crc32 (xs ++ ys) seed = crc32 ys (crc32 xs seed) := by
  simp only [crc32, List.foldl_append, BitVec.xor_assoc, BitVec.xor_self, BitVec.xor_zero]

/-- The checksum of a message determines where it started. -/
theorem crc32_seed_inj {data : List U8} {seed seed' : U32} (h : crc32 data seed = crc32 data seed') :
    seed = seed' := by
  rw [crc32_eq_update, crc32_eq_update, BitVec.xor_left_inj] at h
  have hstart := Crc.update_inj topInjective_crc32Entry h
  rwa [BitVec.xor_left_inj] at hstart

/-- Messages that differ in up to four consecutive bytes have different
checksums. -/
theorem crc32_short_inj {before xs ys after : List U8} {seed : U32} (hlen : xs.length = ys.length)
    (h4 : xs.length ≤ 4)
    (h : crc32 (before ++ xs ++ after) seed = crc32 (before ++ ys ++ after) seed) : xs = ys := by
  rw [crc32_eq_update, crc32_eq_update, BitVec.xor_left_inj] at h
  exact Crc.update_short_inj topInjective_crc32Entry hlen h4 h

/-- The bytes that were checksummed were all inside the buffer. -/
theorem calculateCrc32_eq_ok {buffer : List U8} {start : Int} {length : Nat} {seed crc : U32} :
    calculateCrc32 buffer start length seed = .ok crc ↔
      ((length : Int) ≤ 0 ∨ (0 ≤ start ∧ start + length ≤ buffer.length)) ∧
        crc32 (Bits.slice buffer start.toNat length) seed = crc := by
  simp only [calculateCrc32, Except.bind_eq_ok_iff, readArray_eq_ok, Except.pure_eq_ok_iff,
    Int.toNat_natCast]
  constructor
  · rintro ⟨data, ⟨hrange, rfl⟩, hcrc⟩
    exact ⟨hrange, hcrc⟩
  · rintro ⟨hrange, hcrc⟩
    exact ⟨_, ⟨hrange, rfl⟩, hcrc⟩

/-- The checksum of bytes in the middle of a buffer. -/
theorem calculateCrc32_between (before data after : List U8) (seed : U32) :
    calculateCrc32 (before ++ data ++ after) before.length data.length seed =
      .ok (crc32 data seed) := by
  have hslice : Bits.slice (before ++ data ++ after) before.length data.length = data := by
    rw [List.append_assoc, Bits.slice_append_right, List.take_left]
  refine calculateCrc32_eq_ok.mpr ⟨.inr ⟨by omega, ?_⟩, ?_⟩
  · simp only [List.length_append]
    omega
  · rw [Int.toNat_natCast, hslice]

/-- The checksum of a whole array. -/
theorem calculateCrc32_self (data : List U8) (seed : U32) :
    calculateCrc32 data 0 data.length seed = .ok (crc32 data seed) := by
  have hnil := calculateCrc32_between [] data [] seed
  rwa [List.nil_append, List.append_nil] at hnil

/-- The C# checksum of the first bytes of a buffer is the C++ one. -/
theorem csharp_calculateCrc32 (buffer : List U8) (length : Nat) (seed : U32) :
    CSharp.NetworkCommon.calculateCrc32 buffer length seed =
      calculateCrc32 buffer 0 length seed := by
  have hstep : CSharp.NetworkCommon.crc32Step = crc32Step := by
    funext crc b
    rw [CSharp.NetworkCommon.crc32Step, csharp_crc32Table, crc32Step]
  rw [CSharp.NetworkCommon.calculateCrc32, hstep]
  rfl

/-- The table-driven checksum is CRC-32, of any bytes of a buffer and from any
start, it can be computed in pieces, and both code bases compute it. -/
theorem calculateCrc32_isCrc32 (data more rest : List U8) (seed : U32) :
    calculateCrc32 (data ++ rest) 0 data.length seed = .ok (bitwiseCrc32 data seed) ∧
      (do
        let crc ← calculateCrc32 data 0 data.length seed
        calculateCrc32 more 0 more.length crc) =
        calculateCrc32 (data ++ more) 0 (data ++ more).length seed ∧
      CSharp.NetworkCommon.calculateCrc32 (data ++ rest) data.length seed =
        calculateCrc32 (data ++ rest) 0 data.length seed := by
  refine ⟨?_, ?_, csharp_calculateCrc32 _ _ seed⟩
  · rw [← crc32_eq_bitwiseCrc32]
    exact calculateCrc32_between [] data rest seed
  · rw [calculateCrc32_self, calculateCrc32_self, crc32_append, ← calculateCrc32_self more]
    rfl

end RudpNetwork
