import RudpNetwork.Address
import RudpNetwork.Lib.InetText
import Mathlib.Data.List.TakeWhile

/-!
# RudpNetwork.AddressText

`Address::Parse` and `Address::ToString`.

A C string is the list of its characters, without the NUL behind them.  `Parse`
works in a buffer of its own: where it writes a NUL into the text, the text ends
from then on.  Its two loops look for the port from the end of the text and go
on after they have found one; `scanPort_eq` says what they leave.

## Main results

* `scanPort_eq` -- what a loop of `Parse` leaves of a text, whatever the text is.
* `atoi_number` -- `atoi` on digits.
* `parse_of_length`, `parse_uncut`, `CutAt.parse_eq` -- `Parse` in its three cases: no bracket,
  a bracket and no colon to find, a bracket and a colon.
-/

namespace RudpNetwork

open MachineInt

/-! ## what `Address.cpp` calls -/

/-- `inet_pton` and `inet_ntop`. Addresses stand as they lie in memory. -/
structure Inet where
  /-- `AF_INET` -/
  pton4 : List Char → Option U32
  /-- `AF_INET6` -/
  pton6 : List Char → Option (Vector U16 8)
  /-- `AF_INET6`: the text, if there is room for it. -/
  ntop6 : Vector U16 8 → List Char

/-- `inet_ntop( AF_INET6, &address, dst, size )`: `dst` afterwards. -/
def Inet.ntop (inet : Inet) (address : Vector U16 8) (dst : List Char) (size : Nat) : List Char :=
  if (inet.ntop6 address).length < size then inet.ntop6 address else dst

/-- `isspace`. -/
def isspace (c : Char) : Bool := c.toNat = 32 || (9 ≤ c.toNat && c.toNat ≤ 13)

/-- The number that the digits at the front spell. -/
def leadingNumber (s : List Char) : Int := (Nat.ofDigitChars 10 (s.takeWhile Char.isDigit) 0 : Nat)

/-- `atoi`, for numbers that are in the range of `int`. -/
def atoi (s : List Char) : Int :=
  match s.dropWhile isspace with
  | '-' :: t => -leadingNumber t
  | '+' :: t => leadingNumber t
  | t => leadingNumber t

/-- What `%d` prints for a number that is not negative. -/
def decimal (n : Nat) : List Char := Nat.toDigits 10 n

/-- `snprintf( buffer, bufferSize, … )` of a text: `buffer` afterwards. -/
def snprintf (buffer : List Char) (bufferSize : Int) (text : List Char) : List Char :=
  if sizeT bufferSize = 0 then buffer else text.take (sizeT bufferSize - 1)

/-- `%d.%d.%d.%d`. -/
def dottedQuad (a b c d : U8) : List Char :=
  decimal a.toNat ++ '.' :: (decimal b.toNat ++ '.' :: (decimal c.toNat ++ '.' :: decimal d.toNat))

/-! ## `Parse` and `ToString` -/

/-- The loops over the last characters of `address`, for `":portnum"`. With a colon at
`index`, what follows is the port, and the text is cut `cut` characters before it; `n`
turns are left. -/
def scanPort (lowest cut : Int) : Nat → Int → List Char → U16 → List Char × U16
  | 0, _, address, port => (address, port)
  | n + 1, index, address, port =>
      if index < lowest then (address, port)
      else if address[index.toNat]? = some ':' then
        scanPort lowest cut n (index - 1) (address.take (index - cut).toNat)
          (BitVec.ofInt 16 (atoi (address.drop (index + 1).toNat)))
      else scanPort lowest cut n (index - 1) address port

namespace Address

/-- The loop for `"[addr6]:portnum"`. -/
def scanBracket (address : List Char) : List Char × U16 :=
  scanPort 3 1 6 (address.length - 1) address 0

/-- The loop for `"addr4:portnum"`. -/
def scanQuad (address : List Char) (port : U16) : List Char × U16 :=
  scanPort 0 0 6 (address.length - 1) address port

/-- `Parse` from `inet_pton( AF_INET6, … )` on. -/
def parseText (inet : Inet) (address : List Char) (port : U16) : Address :=
  match inet.pton6 address with
  | some sockaddr6 => ipv6 sockaddr6 port
  | none =>
      let (address, port) := scanQuad address port
      match inet.pton4 address with
      | some sockaddr4 => ipv4 sockaddr4 port
      | none => clear

/-- `Parse`. -/
def parse (inet : Inet) (address_in : List Char) : Address :=
  let address := address_in.take 255
  if address.head? = some '[' then
    let (address, port) := scanBracket address
    parseText inet (address.drop 1) port
  else parseText inet address 0

/-- `ToString`: what it returns. `buffer` and `addressString` hold what they happen to
hold. -/
def toString (inet : Inet) (buffer addressString : List Char) (bufferSize : Int) :
    Address → List Char
  | ipv4 address port =>
      let a := (address &&& 0xff).setWidth 8
      let b := ((address >>> 8) &&& 0xff).setWidth 8
      let c := ((address >>> 16) &&& 0xff).setWidth 8
      let d := ((address >>> 24) &&& 0xff).setWidth 8
      if port ≠ 0 then
        snprintf buffer bufferSize (dottedQuad a b c d ++ ':' :: decimal port.toNat)
      else
        snprintf buffer bufferSize (dottedQuad a b c d)
  | ipv6 address port =>
      if port = 0 then
        inet.ntop address buffer (bufferSize % 4294967296).toNat
      else
        let addressString := inet.ntop address addressString 46
        snprintf buffer bufferSize ('[' :: (addressString ++ ']' :: ':' :: decimal port.toNat))
  | undefined _ => ['u', 'n', 'd', 'e', 'f', 'i', 'n', 'e', 'd']

end Address

/-! ## what the scan leaves -/

/-- Is the colon at the front of `t` one that the scan acts on? It is not if the scan
has cut it off before, which is so with `cut = 1` and such a colon right behind it. -/
def takes (cut : Nat) : List Char → Bool
  | [] => false
  | c :: t => c == ':' && (cut == 0 || !takes cut t)

/-- The first colon of `t` that the scan acts on. -/
def firstTaken (cut : Nat) : List Char → Option Nat
  | [] => none
  | c :: t => if takes cut (c :: t) then some 0 else (firstTaken cut t).map (· + 1)

/-- What is left of `g` when the scan comes to a colon before it. -/
def before (cut : Nat) (g : List Char) : List Char :=
  match firstTaken cut g with
  | none => g
  | some k => g.take (k - cut)

/-- The text and the port after the scan of the characters from `m` on. -/
def scanned (cut : Nat) (s : List Char) (m : Nat) (port : U16) : List Char × U16 :=
  match firstTaken cut (s.drop m) with
  | none => (s, port)
  | some k => (s.take (m + k - cut), BitVec.ofInt 16 (atoi (before cut (s.drop (m + k + 1)))))

section Scan

variable {cut : Nat} {s t w g : List Char} {c : Char} {k m : Nat} {p : U16}

/-- The scan acts on a colon unless it has just cut it off. -/
theorem takes_cons : takes cut (c :: t) = true ↔ c = ':' ∧ (cut = 0 ∨ takes cut t = false) := by
  simp [takes]

/-- Acting on the front is finding the first one there. -/
theorem takes_iff_firstTaken : takes cut t = true ↔ firstTaken cut t = some 0 := by
  cases t with
  | nil => simp [takes, firstTaken]
  | cons c t =>
      rw [firstTaken]
      split <;> simp [*]

/-- The text in front of the first colon that is acted on, and behind it. -/
theorem firstTaken_eq_some (h : firstTaken cut t = some k) :
    ∃ w g, t = w ++ ':' :: g ∧ w.length = k ∧ takes cut (':' :: g) = true := by
  induction t generalizing k with
  | nil => simp [firstTaken] at h
  | cons c t ih =>
      rw [firstTaken] at h
      split at h
      · rename_i htakes
        obtain ⟨rfl, -⟩ := takes_cons.mp htakes
        exact ⟨[], t, rfl, Option.some.inj h, htakes⟩
      · obtain ⟨k', hk', rfl⟩ := Option.map_eq_some_iff.mp h
        obtain ⟨w, g, rfl, rfl, htakes⟩ := ih hk'
        exact ⟨c :: w, g, rfl, rfl, htakes⟩

/-- The same where the scan starts at character `m`. -/
theorem exists_split (h : firstTaken cut (s.drop m) = some k) :
    ∃ w g, s = w ++ ':' :: g ∧ w.length = m + k := by
  obtain ⟨w, g, hw, rfl, -⟩ := firstTaken_eq_some h
  have hlong : m < s.length := by
    by_contra hlong
    rw [List.drop_eq_nil_of_le (by omega)] at hw
    simp at hw
  refine ⟨s.take m ++ w, g, ?_, ?_⟩
  · rw [List.append_assoc, ← hw, List.take_append_drop]
  · rw [List.length_append, List.length_take, Nat.min_eq_left (by omega)]

/-- Without a colon there is nothing to act on. -/
theorem takes_of_not_mem (h : ':' ∉ t) : takes cut t = false := by
  cases t with
  | nil => rfl
  | cons c t => simp [takes, Ne.symm (List.ne_of_not_mem_cons h)]

/-- The last colon is always acted on. -/
theorem takes_last (h : ':' ∉ t) : takes cut (':' :: t) = true :=
  takes_cons.mpr ⟨rfl, .inr (takes_of_not_mem h)⟩

/-- The scan acts on some colon if there is one. -/
theorem firstTaken_eq_none : firstTaken cut t = none ↔ ':' ∉ t := by
  induction t with
  | nil => simp [firstTaken]
  | cons c t ih =>
      rw [firstTaken]
      split
      · rename_i htakes
        simp [(takes_cons.mp htakes).1]
      · rename_i htakes
        rw [Option.map_eq_none_iff, ih, List.mem_cons]
        constructor
        · rintro ht (rfl | hmem)
          · exact htakes (takes_last ht)
          · exact ht hmem
        · exact fun hnot hmem => hnot (.inr hmem)

/-- Behind a part without colons the colon that follows it is the first. -/
theorem firstTaken_append (hw : ':' ∉ w) (h : takes cut (':' :: g) = true) :
    firstTaken cut (w ++ ':' :: g) = some w.length := by
  induction w with
  | nil => simp [firstTaken, h]
  | cons c w ih =>
      have hc : takes cut (c :: (w ++ ':' :: g)) = false := by
        simp [takes, Ne.symm (List.ne_of_not_mem_cons hw)]
      simp [firstTaken, hc, ih (List.not_mem_of_not_mem_cons hw)]

/-- Where there is no colon, nothing is cut off. -/
theorem before_of_not_mem (h : ':' ∉ g) : before cut g = g := by
  rw [before, firstTaken_eq_none.mpr h]

/-- One turn of the scan. -/
theorem scanned_step (hcut : cut ≤ 1) (hm : s.drop m = c :: t) :
    scanned cut s m p =
      if (scanned cut s (m + 1) p).1[m]? = some ':' then
        ((scanned cut s (m + 1) p).1.take (m - cut),
          BitVec.ofInt 16 (atoi ((scanned cut s (m + 1) p).1.drop (m + 1))))
      else scanned cut s (m + 1) p := by
  have hat : s[m]? = some c := by rw [← List.head?_drop, hm]; rfl
  have ht : s.drop (m + 1) = t := by rw [← List.drop_drop, hm]; rfl
  by_cases htakes : takes cut (c :: t) = true
  · obtain ⟨rfl, hnext⟩ := takes_cons.mp htakes
    cases hk : firstTaken cut t with
    | none => simp [scanned, hm, ht, firstTaken, htakes, hk, hat, before]
    | some k =>
        -- with `cut = 1` the colon behind this one is not the next taken one
        have hlt : m < m + 1 + k - cut := by
          rcases hnext with rfl | hnext
          · omega
          · have hne : k ≠ 0 := by
              rintro rfl
              simp [takes_iff_firstTaken.mpr hk] at hnext
            omega
        have hdrop : (s.take (m + 1 + k - cut)).drop (m + 1) = t.take (k - cut) := by
          rw [List.drop_take, ht]
          congr 1
          omega
        simp only [scanned, hm, ht, firstTaken, htakes, hk, before, List.getElem?_take, hlt, hat,
          hdrop, if_true, List.take_take, Nat.add_zero, show min (m - cut) (m + 1 + k - cut) =
          m - cut by omega]
  · have hfirst : firstTaken cut (c :: t) = (firstTaken cut t).map (· + 1) := by
      rw [firstTaken, if_neg htakes]
    cases hk : firstTaken cut t with
    | none =>
        have hc : c ≠ ':' := by
          rintro rfl
          exact htakes (takes_last (firstTaken_eq_none.mp hk))
        simp [scanned, hm, ht, hfirst, hk, hat, hc]
    | some k =>
        have hnot : (s.take (m + 1 + k - cut))[m]? ≠ some ':' := by
          rw [List.getElem?_take, hat]
          split
          · rintro ⟨rfl⟩
            refine htakes (takes_cons.mpr ⟨rfl, ?_⟩)
            by_cases hzero : cut = 0
            · exact .inl hzero
            · refine .inr (Bool.eq_false_iff.mpr fun hnext => ?_)
              rw [takes_iff_firstTaken, hk] at hnext
              obtain rfl : k = 0 := Option.some.inj hnext
              omega
          · simp
        simp only [scanned, hm, ht, hfirst, hk, Option.map_some, hnot, if_false]
        rw [show m + (k + 1) = m + 1 + k by omega]

/-- `lowest` and the number of turns bound the characters that the loop looks at. -/
theorem scanPort_scanned (hcut : cut ≤ 1) (lowest n : Nat) (hm : m ≤ s.length) :
    scanPort lowest cut n (m - 1) (scanned cut s m p).1 (scanned cut s m p).2 =
      scanned cut s (max (min lowest m) (m - n)) p := by
  induction n generalizing m with
  | zero => simp [scanPort]
  | succ n ih =>
      rw [scanPort]
      split
      · rw [show max (min lowest m) (m - (n + 1)) = m by omega]
      · obtain ⟨m, rfl⟩ : ∃ m', m = m' + 1 := ⟨m - 1, by omega⟩
        have hdrop := List.drop_eq_getElem_cons (show m < s.length by omega)
        have hstep := scanned_step (p := p) hcut hdrop
        have hturn := ih (show m ≤ s.length by omega)
        rw [show max (min lowest (m + 1)) (m + 1 - (n + 1)) = max (min lowest m) (m - n) by omega,
          ← hturn, hstep]
        rw [show ((m + 1 : Nat) : Int) - 1 = m by omega, Int.toNat_natCast,
          show ((m : Int) - cut).toNat = m - cut by omega, show ((m : Int) + 1).toNat = m + 1 by omega]
        split <;> rfl

/-- The loop, from the last character on, leaves what `scanned` says. -/
theorem scanPort_eq (hcut : cut ≤ 1) (lowest n : Nat) :
    scanPort lowest cut n (s.length - 1) s p =
      scanned cut s (max (min lowest s.length) (s.length - n)) p := by
  have hstart : scanned cut s s.length p = (s, p) := by simp [scanned, firstTaken]
  have h := scanPort_scanned (p := p) hcut lowest n (le_refl s.length)
  rwa [hstart] at h

/-- A text without a colon in the range of the scan is left as it is, and so is the port. -/
theorem scanned_of_not_mem (h : ':' ∉ s.drop m) : scanned cut s m p = (s, p) := by
  rw [scanned, firstTaken_eq_none.mpr h]

/-- Where the first colon that is acted on is the one in front of `g`, the text ends before it
(or a character earlier) and `g` gives the port. -/
theorem scanned_at (hm : m ≤ w.length)
    (hfirst : firstTaken cut ((w ++ ':' :: g).drop m) = some (w.length - m)) :
    scanned cut (w ++ ':' :: g) m p =
      (w.take (w.length - cut), BitVec.ofInt 16 (atoi (before cut g))) := by
  have hdrop : (w ++ ':' :: g).drop (m + (w.length - m) + 1) = g := by
    rw [show m + (w.length - m) + 1 = w.length + 1 by omega, List.drop_append]
    simp
  have htake : (w ++ ':' :: g).take (m + (w.length - m) - cut) = w.take (w.length - cut) := by
    rw [show m + (w.length - m) - cut = w.length - cut by omega,
      List.take_append_of_le_length (by omega)]
  simp only [scanned, hfirst, hdrop, htake]

/-- So it is with no colon between the start of the range and this one. -/
theorem scanned_append (hm : m ≤ w.length) (hw : ':' ∉ w.drop m)
    (htakes : takes cut (':' :: g) = true) :
    scanned cut (w ++ ':' :: g) m p =
      (w.take (w.length - cut), BitVec.ofInt 16 (atoi (before cut g))) := by
  refine scanned_at hm ?_
  rw [List.drop_append_of_le_length hm, firstTaken_append hw htakes, List.length_drop]

/-- The scan acts on the colon that `firstTaken` finds. -/
theorem takes_of_firstTaken (h : firstTaken cut t = some k) : takes cut (t.drop k) = true := by
  obtain ⟨w, g, rfl, rfl, htakes⟩ := firstTaken_eq_some h
  rwa [List.drop_left]

/-- A colon in `w` is found in `w` when no colon follows `w` at once. -/
theorem firstTaken_lt (hw : ':' ∈ w) (hc : c ≠ ':') :
    ∃ k < w.length, firstTaken cut (w ++ c :: g) = some k := by
  induction w with
  | nil => contradiction
  | cons a w ih =>
      by_cases htakes : takes cut (a :: (w ++ c :: g)) = true
      · exact ⟨0, by simp, by simp [firstTaken, htakes]⟩
      · by_cases hmem : ':' ∈ w
        · obtain ⟨k, hlt, hk⟩ := ih hmem
          refine ⟨k + 1, by simpa using hlt, ?_⟩
          rw [List.cons_append, firstTaken, if_neg htakes, hk, Option.map_some]
        · -- the last colon of `w` is not cut off
          obtain rfl : ':' = a := by simpa [hmem] using hw
          refine absurd (takes_cons.mpr ⟨rfl, .inr ?_⟩) htakes
          cases w with
          | nil => simp [takes, hc]
          | cons b w => simp [takes, Ne.symm (List.ne_of_not_mem_cons hmem)]

/-- What stands between the colon and a next one that is acted on, less the character that is
cut off with it. -/
theorem before_append (hg : ':' ∉ g) (hc : c ≠ ':') (ht : takes 1 (':' :: t) = true) :
    before 1 (g ++ c :: ':' :: t) = g := by
  have hfirst : firstTaken 1 ((g ++ [c]) ++ ':' :: t) = some (g ++ [c]).length :=
    firstTaken_append (by simp [hg, Ne.symm hc]) ht
  rw [List.append_assoc, List.singleton_append] at hfirst
  simp [before, hfirst]

/-- Behind a colon that is not cut off. -/
theorem not_mem_of_takes (htakes : takes 1 (':' :: (g ++ c :: t)) = true) (hc : c ≠ ':')
    (hlen : g.length ≤ 2) (hend : ∀ a, g ≠ [a, ':']) : ':' ∉ g := by
  obtain ⟨-, hone | hnext⟩ := takes_cons.mp htakes
  · contradiction
  · match g, hlen with
    | [], _ => simp
    | [a], _ =>
        have ha : a ≠ ':' := by
          rintro rfl
          simp [takes, hc] at hnext
        simp [Ne.symm ha]
    | [a, b], _ =>
        have hb : b ≠ ':' := fun hb => hend a (by rw [hb])
        have ha : a ≠ ':' := by
          rintro rfl
          simp [takes, hb] at hnext
        simp [Ne.symm ha, Ne.symm hb]

end Scan

/-! ## numbers and dotted quads -/

/-- `atoi` skips no digit. -/
theorem isspace_of_decDigit {c : Char} {d : Nat} (h : InetText.decDigit c = some d) :
    isspace c = false := by
  obtain ⟨⟨hge, -⟩, -⟩ := InetText.decDigit_eq_some.mp h
  have hzero : '0'.toNat = 48 := rfl
  simp only [isspace, Bool.or_eq_false_iff, decide_eq_false_iff_not, Bool.and_eq_false_iff]
  omega

/-- The digits of a number spell it in the library's sense as well. -/
theorem number_ofDigitChars {g : List Char} {n : Nat}
    (h : InetText.number InetText.decDigit 10 g = some n) : Nat.ofDigitChars 10 g 0 = n := by
  induction g using List.reverseRecOn generalizing n with
  | nil => simpa using h
  | append_singleton g c ih =>
      obtain ⟨m, d, hm, hd, rfl⟩ := InetText.number_concat_eq_some h
      rw [Nat.ofDigitChars_append, ih hm, Nat.ofDigitChars_cons, Nat.ofDigitChars_nil,
        (InetText.decDigit_eq_some.mp hd).2]

/-- `atoi` reads a text of digits as the number that they spell. -/
theorem atoi_number {g : List Char} {n : Nat}
    (h : InetText.number InetText.decDigit 10 g = some n) : atoi g = n := by
  have hdigit : ∀ c ∈ g, c.isDigit = true := by
    intro c hc
    obtain ⟨d, hd⟩ := InetText.digit_of_mem h hc
    exact Char.isDigit_iff_toNat.mpr (InetText.decDigit_eq_some.mp hd).1
  have hlead : leadingNumber g = n := by
    rw [leadingNumber, List.takeWhile_eq_self_iff.mpr hdigit, number_ofDigitChars h]
  cases g with
  | nil => simpa [atoi] using hlead
  | cons c g =>
      obtain ⟨d, hd⟩ := InetText.digit_of_mem h List.mem_cons_self
      have hskip : (c :: g).dropWhile isspace = c :: g := by
        rw [List.dropWhile_cons_of_neg (by simp [isspace_of_decDigit hd])]
      unfold atoi
      rw [hskip]
      split
      · simp_all
      · simp_all
      · exact hlead

/-- `%d` prints digits that spell the number. -/
theorem number_decimal (n : Nat) : InetText.number InetText.decDigit 10 (decimal n) = some n :=
  InetText.number_toDigits (by decide) (by decide) n

/-- A printed number has no colon. -/
theorem colon_not_mem_decimal (n : Nat) : ':' ∉ decimal n :=
  InetText.not_mem_toDigits InetText.decDigit (by decide) (by decide) (by decide) n

/-- A port has at most five digits. -/
theorem length_decimal_port (port : U16) : (decimal port.toNat).length ≤ 5 :=
  (Nat.length_toDigits_le_iff (by decide) (by decide)).mpr (by omega)

/-- A printed port is read back. -/
theorem ofInt_atoi_decimal (port : U16) : BitVec.ofInt 16 (atoi (decimal port.toNat)) = port := by
  rw [atoi_number (number_decimal port.toNat), BitVec.ofInt_natCast, BitVec.ofNat_toNat,
    BitVec.setWidth_eq]

/-- A printed quad is read back, whether leading zeros are read or not. -/
theorem ipv4_dottedQuad (zeros : Bool) (a b c d : U8) :
    InetText.ipv4 zeros (dottedQuad a b c d) = some [a.toNat, b.toNat, c.toNat, d.toNat] := by
  have h := InetText.ipv4_intercalate zeros (l := [a.toNat, b.toNat, c.toNat, d.toNat]) rfl (by
    simp only [List.mem_cons, List.not_mem_nil, or_false, forall_eq_or_imp, forall_eq]
    exact ⟨a.isLt, b.isLt, c.isLt, d.isLt⟩)
  rw [← h]
  simp [dottedQuad, decimal, List.intercalate_cons_cons]

/-- Four bytes as they lie in memory. -/
def bytes4 (a b c d : U8) : U32 := d ++ c ++ b ++ a

/-- The four numbers of a dotted quad, as they lie in memory. -/
def octets4 : List Nat → U32
  | [a, b, c, d] => bytes4 (.ofNat 8 a) (.ofNat 8 b) (.ofNat 8 c) (.ofNat 8 d)
  | _ => 0

/-- The eight groups of an IPv6 address, as they lie in memory. -/
def bytes6 (l : List Nat) : Vector U16 8 := .ofFn fun i => htons (.ofNat 16 (l.getD i 0))

/-- The numbers of an IPv6 address in memory. -/
def groups6 (address : Vector U16 8) : List Nat := address.toList.map fun x => (ntohs x).toNat

/-- `x & 0xff`. -/
theorem toNat_lowByte (x : U32) : ((x &&& 0xff).setWidth 8 : U8).toNat = x.toNat % 256 := by
  have hmask : (x &&& 0xff).setWidth 8 = (x.setWidth 8 : U8) := by
    rw [BitVec.setWidth_and, show (0xff : U32).setWidth 8 = BitVec.allOnes 8 by decide,
      BitVec.and_allOnes]
  rw [hmask, BitVec.toNat_setWidth]

/-- A byte behind `x`. -/
theorem toNat_append_byte {n : Nat} (x : BitVec n) (y : U8) :
    (x ++ y).toNat = 256 * x.toNat + y.toNat := by
  have hadd := Nat.two_pow_add_eq_or_of_lt y.isLt x.toNat
  rw [BitVec.toNat_append, Nat.shiftLeft_eq, Nat.mul_comm, ← hadd]

/-- The four bytes that `ToString` prints make up the address. -/
theorem bytes4_address (address : U32) :
    bytes4 ((address &&& 0xff).setWidth 8) (((address >>> 8) &&& 0xff).setWidth 8)
      (((address >>> 16) &&& 0xff).setWidth 8) (((address >>> 24) &&& 0xff).setWidth 8) =
      address := by
  apply BitVec.eq_of_toNat_eq
  simp only [bytes4, toNat_append_byte, toNat_lowByte, BitVec.toNat_ushiftRight,
    Nat.shiftRight_eq_div_pow]
  omega

/-- A text that fits is printed as it is. -/
theorem snprintf_of_length {buffer text : List Char} {bufferSize : Int} {n : Nat}
    (hsize : IsInt32 bufferSize) (hlen : text.length ≤ n) (hlarge : n < bufferSize) :
    snprintf buffer bufferSize text = text := by
  have hsame : (sizeT bufferSize : Int) = bufferSize :=
    sizeT_eq (by omega) (by have := hsize.2; omega)
  rw [snprintf, if_neg (by omega), List.take_of_length_le (by omega)]

/-- There are eight groups. -/
@[simp] theorem length_groups6 (address : Vector U16 8) : (groups6 address).length = 8 := by
  simp [groups6]

/-- Each has 16 bits. -/
theorem groups6_lt (address : Vector U16 8) : ∀ n ∈ groups6 address, n < 65536 := by
  intro n hn
  obtain ⟨x, -, rfl⟩ := List.mem_map.mp hn
  exact (ntohs x).isLt

/-- An address is that of its groups. -/
theorem bytes6_groups6 (address : Vector U16 8) : bytes6 (groups6 address) = address := by
  apply Vector.ext
  intro i hi
  simp [bytes6, groups6, htons_ntohs]

/-- Eight numbers of 16 bits are the groups of their address. -/
theorem groups6_bytes6 {l : List Nat} (hlen : l.length = 8) (hlt : ∀ n ∈ l, n < 65536) :
    groups6 (bytes6 l) = l := by
  apply List.ext_getElem
  · rw [length_groups6, hlen]
  · intro i hi hi'
    have hswap : ∀ x : U16, ntohs (htons x) = x := htons_ntohs
    have hmod : l[i] % 65536 = l[i] := Nat.mod_eq_of_lt (hlt _ (List.getElem_mem hi'))
    simp [bytes6, groups6, hswap, hi', hmod]

/-! ## what `Parse` comes to -/

namespace Address

/-- The loop for `"addr4:portnum"` looks at the last six characters and stops a text at the
colon. -/
theorem scanQuad_eq (s : List Char) (port : U16) :
    scanQuad s port = scanned 0 s (s.length - 6) port := by
  have h := scanPort_eq (s := s) (p := port) (Nat.zero_le 1) 0 6
  rwa [Nat.zero_min, Nat.zero_max] at h

/-- No port is found. -/
theorem scanQuad_of_not_mem {s : List Char} (h : ':' ∉ s) (port : U16) :
    scanQuad s port = (s, port) := by
  rw [scanQuad_eq, scanned_of_not_mem fun hmem => h (List.mem_of_mem_drop hmem)]

/-- A colon with at most five characters behind it is found, and they give the port. -/
theorem scanQuad_port {t g : List Char} (ht : ':' ∉ t) (hlen : g.length ≤ 5) (port : U16) :
    scanQuad (t ++ ':' :: g) port = (t, BitVec.ofInt 16 (atoi (before 0 g))) := by
  have hlow : (t ++ ':' :: g).length - 6 ≤ t.length := by
    simp only [List.length_append, List.length_cons]
    omega
  rw [scanQuad_eq, scanned_append hlow (fun hmem => ht (List.mem_of_mem_drop hmem))
    (takes_cons.mpr ⟨rfl, .inl rfl⟩), Nat.sub_zero, List.take_length]

/-- A text that fits the buffer and starts with no bracket is read as it stands. -/
theorem parse_of_length {inet : Inet} {s : List Char} (hlen : s.length < 256)
    (hhead : s.head? ≠ some '[') : parse inet s = parseText inet s 0 := by
  simp only [parse, List.take_of_length_le (show s.length ≤ 255 by omega), if_neg hhead]

/-- Where the text is no IPv6 address, the IPv4 path decides. -/
theorem parseText_quad {inet : Inet} {s : List Char} {port : U16} (h : inet.pton6 s = none) :
    parseText inet s port = match inet.pton4 (scanQuad s port).1 with
      | some sockaddr4 => ipv4 sockaddr4 (scanQuad s port).2
      | none => clear := by
  rw [parseText, h]

/-- The first character that the loop for `"[addr6]:portnum"` looks at. -/
def lowest (s : List Char) : Nat := max 3 (s.length - 6)

/-- The loop for `"[addr6]:portnum"` starts at `lowest`, and cuts a character more. -/
theorem scanBracket_eq (s : List Char) : scanBracket s = scanned 1 s (lowest s) 0 := by
  have h := scanPort_eq (s := s) (p := 0) (le_refl 1) 3 6
  refine h.trans ?_
  by_cases hlen : 3 ≤ s.length
  · rw [Nat.min_eq_left hlen, lowest]
  · have hshort : ∀ {m}, s.length ≤ m → scanned 1 s m 0 = (s, 0) := by
      intro m hm
      rw [scanned_of_not_mem]
      simp [List.drop_eq_nil_of_le hm]
    rw [hshort (by omega), hshort (by unfold lowest; omega)]

/-- The text `s` in brackets is cut: the leftmost colon that the loop acts on is the one
in front of `g`, and `core` remains. -/
structure CutAt (s core : List Char) (x : Char) (g : List Char) : Prop where
  text : s = '[' :: (core ++ x :: ':' :: g)
  low : lowest s ≤ core.length + 2
  first : firstTaken 1 (s.drop (lowest s)) = some (core.length + 2 - lowest s)

/-- What starts with a dotted quad starts with no bracket. -/
theorem head_append_ne_of_ipv4 {zeros : Bool} {t : List Char} {l : List Nat}
    (h : InetText.ipv4 zeros t = some l)
    (g : List Char) : (t ++ g).head? ≠ some '[' := by
  cases t with
  | nil => contradiction
  | cons c t =>
      intro hhead
      obtain rfl : c = '[' := by simpa using hhead
      rcases InetText.ipv4_chars h List.mem_cons_self with hdot | ⟨n, hn⟩ <;> contradiction

/-- A dotted quad starts with no bracket. -/
theorem head_ne_of_ipv4 {zeros : Bool} {t : List Char} {l : List Nat}
    (h : InetText.ipv4 zeros t = some l) :
    t.head? ≠ some '[' := by
  simpa using head_append_ne_of_ipv4 h []

/-- There is no bracket in an IPv6 text. -/
theorem bracket_not_mem_ipv6 {zeros : Bool} {t : List Char} {l : List Nat}
    (h : InetText.ipv6 zeros t = some l) :
    '[' ∉ t ∧ ']' ∉ t := by
  constructor <;> intro hmem <;>
    rcases InetText.ipv6_chars h hmem with hc | hc | ⟨d, hd⟩ <;> contradiction

section Bracket

variable {inet : Inet} {s core g : List Char} {x : Char}

/-- In brackets, without a colon in the range of the loop, all but the opening bracket remains. -/
theorem parse_uncut (hlen : s.length < 256) (hs : s = '[' :: core) (h : ':' ∉ s.drop (lowest s)) :
    parse inet s = parseText inet core 0 := by
  have hhead : s.head? = some '[' := by rw [hs]; rfl
  simp only [parse, List.take_of_length_le (show s.length ≤ 255 by omega), if_pos hhead,
    scanBracket_eq, scanned_of_not_mem h]
  rw [hs, List.drop_one, List.tail_cons]

/-- The text up to the colon, and what stands behind it. -/
theorem CutAt.split (h : CutAt s core x g) : s = ('[' :: (core ++ [x])) ++ ':' :: g := by
  simp [h.text]

/-- A text that is cut is read as `core`, with the port that `g` gives. -/
theorem CutAt.parse_eq (h : CutAt s core x g) (hlen : s.length < 256) :
    parse inet s = parseText inet core (BitVec.ofInt 16 (atoi (before 1 g))) := by
  have hhead : s.head? = some '[' := by rw [h.text]; rfl
  have hsplit := h.split
  have hlow := h.low
  have hfirst := h.first
  have hscan : scanned 1 s (lowest s) 0 = ('[' :: core, BitVec.ofInt 16 (atoi (before 1 g))) := by
    generalize lowest s = m at hlow hfirst
    rw [hsplit] at hfirst ⊢
    rw [scanned_at (by simpa using hlow) (by simpa using hfirst)]
    simp
  simp only [parse, List.take_of_length_le (show s.length ≤ 255 by omega), if_pos hhead,
    scanBracket_eq, hscan]
  rw [List.drop_one, List.tail_cons]

/-- The colon in front of `g` is acted on. -/
theorem CutAt.takes (h : CutAt s core x g) : takes 1 (':' :: g) = true := by
  have hlow := h.low
  have htakes := takes_of_firstTaken h.first
  have hlength : lowest s + (core.length + 2 - lowest s) = ('[' :: (core ++ [x])).length := by
    simp only [List.length_cons, List.length_append, List.length_nil]
    omega
  rwa [List.drop_drop, hlength, h.split, List.drop_left] at htakes

/-- A text in brackets is cut if there is a colon to find. -/
theorem exists_cutAt (hs : s.head? = some '[') (h : ':' ∈ s.drop (lowest s)) :
    ∃ core x g, CutAt s core x g := by
  cases hfirst : firstTaken 1 (s.drop (lowest s)) with
  | none => exact absurd h (firstTaken_eq_none.mp hfirst)
  | some k =>
      obtain ⟨w, g, hsplit, hlength⟩ := exists_split hfirst
      have hthree : 3 ≤ lowest s := Nat.le_max_left _ _
      cases w with
      | nil =>
          rw [List.length_nil] at hlength
          omega
      | cons c w =>
          obtain rfl : c = '[' := by simpa [hsplit] using hs
          rcases List.eq_nil_or_concat w with rfl | ⟨core, x, rfl⟩
          · simp only [List.length_cons, List.length_nil] at hlength
            omega
          · simp only [List.length_cons, List.length_concat] at hlength
            refine ⟨core, x, g, by simpa using hsplit, by omega, ?_⟩
            rw [hfirst]
            congr 1
            omega

end Bracket

end Address

end RudpNetwork
