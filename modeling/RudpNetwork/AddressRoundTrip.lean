import RudpNetwork.AddressText

/-!
# RudpNetwork.AddressRoundTrip

Which addresses `Parse` reads back from the text that `ToString` prints.

IPv4 addresses all come back.  In the text of an IPv6 address with a port,
`"[addr6]:portnum"`, `Parse` looks for the port in the last six characters and
goes on after it has found it.  A short port leaves room for the end of the
address among these six, and a colon there cuts the address short.

## Main results

* `parse_toString_ipv4` -- every IPv4 address comes back, with every port.
* `parse_toString_ipv6` -- which IPv6 addresses come back with which ports.
* `not_parse_toString_ipv6` -- an address and a port that do not.
-/

namespace RudpNetwork

open MachineInt

/-! ## what is relied on -/

/-- What `inet_pton` does with dotted quads. -/
structure Inet.ReadsQuads (inet : Inet) : Prop where
  /-- `AF_INET` maps a dotted quad to its bytes in network order. -/
  quad (a b c d : U8) : inet.pton4 (dottedQuad a b c d) = some (bytes4 a b c d)
  /-- `AF_INET6` rejects dotted quads. -/
  not6 (a b c d : U8) : inet.pton6 (dottedQuad a b c d) = none
  /-- So it does with a port behind them. -/
  not6_port (a b c d : U8) (port : U16) :
    inet.pton6 (dottedQuad a b c d ++ ':' :: decimal port.toNat) = none

/-- What `inet_pton` and `inet_ntop` do with IPv6 texts, on a system where the numbers of a
dotted quad may start with a zero, or on one (such as glibc's) where they may not. -/
structure Inet.ReadsGroups (zeros : Bool) (inet : Inet) : Prop where
  /-- `AF_INET6` maps an IPv6 text to its bytes in network order, and rejects other texts. -/
  pton (t : List Char) : inet.pton6 t = (InetText.ipv6 zeros t).map bytes6
  /-- What is printed maps back. -/
  printed (address : Vector U16 8) : inet.pton6 (inet.ntop6 address) = some address

/-- What `inet_pton` does with any text, on a system of either kind. -/
structure Inet.ReadsTexts (zeros : Bool) (inet : Inet) : Prop where
  pton4 (t : List Char) : inet.pton4 t = (InetText.ipv4 zeros t).map octets4
  pton6 (t : List Char) : inet.pton6 t = (InetText.ipv6 zeros t).map bytes6

namespace Inet

/-- The grammar decides what becomes of dotted quads. -/
theorem ReadsTexts.readsQuads {zeros : Bool} {inet : Inet} (h : inet.ReadsTexts zeros) :
    inet.ReadsQuads where
  quad a b c d := by
    rw [h.pton4, ipv4_dottedQuad]
    simp [octets4]
  not6 a b c d := by
    rw [h.pton6, InetText.ipv6_of_ipv4 (ipv4_dottedQuad zeros a b c d), Option.map_none]
  not6_port a b c d port := by
    rw [h.pton6, InetText.ipv6_of_ipv4_colon (ipv4_dottedQuad zeros a b c d), Option.map_none]

/-- Reads all address texts, and prints IPv6 addresses with all their groups. -/
def plain (zeros : Bool) : Inet where
  pton4 t := (InetText.ipv4 zeros t).map octets4
  pton6 t := (InetText.ipv6 zeros t).map bytes6
  ntop6 address := [':'].intercalate ((groups6 address).map (Nat.toDigits 16))

/-- The plain functions behave as is relied on. -/
theorem plain_readsTexts (zeros : Bool) : (plain zeros).ReadsTexts zeros where
  pton4 _ := rfl
  pton6 _ := rfl

/-- So do they with what they print. -/
theorem plain_readsGroups (zeros : Bool) : (plain zeros).ReadsGroups zeros where
  pton _ := rfl
  printed address := by
    have hread := InetText.ipv6_intercalate zeros (length_groups6 address) (groups6_lt address)
    simp only [plain, hread, Option.map_some, bytes6_groups6]

end Inet

namespace Address

variable {zeros : Bool}

/-! ## IPv4 addresses -/

section Ipv4

variable {inet : Inet} (a b c d : U8) (port : U16)

/-- A dotted quad has at most 15 characters. -/
theorem length_dottedQuad : (dottedQuad a b c d).length ≤ 15 :=
  (InetText.ipv4_length (ipv4_dottedQuad false a b c d)).2

/-- With a port it has at most 21. -/
theorem length_dottedQuad_port : (dottedQuad a b c d ++ ':' :: decimal port.toNat).length ≤ 21 := by
  have hquad := length_dottedQuad a b c d
  have hport := length_decimal_port port
  rw [List.length_append, List.length_cons]
  omega

/-- It has no colon. -/
theorem colon_not_mem_dottedQuad : ':' ∉ dottedQuad a b c d :=
  InetText.colon_not_mem_ipv4 (ipv4_dottedQuad false a b c d)

/-- A printed IPv4 address without a port is read back. -/
theorem parse_dottedQuad (hinet : inet.ReadsQuads) :
    parse inet (dottedQuad a b c d) = ipv4 (bytes4 a b c d) 0 := by
  have hlen := length_dottedQuad a b c d
  rw [parse_of_length (by omega) (head_ne_of_ipv4 (ipv4_dottedQuad false a b c d)),
    parseText_quad (hinet.not6 a b c d), scanQuad_of_not_mem (colon_not_mem_dottedQuad a b c d),
    hinet.quad]

/-- So is one with a port: the only colon stands in front of the port. -/
theorem parse_dottedQuad_port (hinet : inet.ReadsQuads) :
    parse inet (dottedQuad a b c d ++ ':' :: decimal port.toNat) = ipv4 (bytes4 a b c d) port := by
  have hlen := length_dottedQuad_port a b c d port
  rw [parse_of_length (by omega) (head_append_ne_of_ipv4 (ipv4_dottedQuad false a b c d) _),
    parseText_quad (hinet.not6_port a b c d port),
    scanQuad_port (colon_not_mem_dottedQuad a b c d) (length_decimal_port port),
    before_of_not_mem (colon_not_mem_decimal port.toNat), ofInt_atoi_decimal, hinet.quad]

end Ipv4

/-- An IPv4 address is read back from its text; the longest has 21 characters. -/
theorem parse_toString_ipv4 {inet : Inet} (hinet : inet.ReadsQuads) (address : U32) (port : U16)
    (buffer addressString : List Char) {bufferSize : Int} (hsize : IsInt32 bufferSize)
    (hlarge : 22 ≤ bufferSize) :
    (parse inet (toString inet buffer addressString bufferSize (ipv4 address port))).eq
      (ipv4 address port) = true := by
  rw [eq_iff_of_isValid rfl]
  by_cases hport : port = 0
  · simp only [toString, ne_eq, hport, not_true_eq_false, if_false]
    rw [snprintf_of_length hsize (length_dottedQuad _ _ _ _) (by omega),
      parse_dottedQuad _ _ _ _ hinet, bytes4_address]
  · simp only [toString, ne_eq, hport, not_false_eq_true, if_true]
    rw [snprintf_of_length hsize (length_dottedQuad_port _ _ _ _ port) (by omega),
      parse_dottedQuad_port _ _ _ _ port hinet, bytes4_address]

/-- The loopback address with a port of five digits. -/
theorem parse_toString_ipv4_sample :
    (parse (.plain false) (toString (.plain false) [] [] 256 (ipv4 0x0100007f 40000))).eq
      (ipv4 0x0100007f 40000) = true :=
  parse_toString_ipv4 (Inet.plain_readsTexts false).readsQuads 0x0100007f 40000
    [] [] (by decide) (by decide)

/-! ## IPv6 addresses -/

section Ipv6

variable {inet : Inet} {address : Vector U16 8} {port : U16} {t d : List Char}

/-- IPv6 texts of one address have the same groups. -/
theorem bytes6_inj {l l' : List Nat} {t t' : List Char} (h : InetText.ipv6 zeros t = some l)
    (h' : InetText.ipv6 zeros t' = some l') (heq : bytes6 l = bytes6 l') : l = l' := by
  have hl := InetText.ipv6_groups h
  have hl' := InetText.ipv6_groups h'
  rw [← groups6_bytes6 hl.1 hl.2, heq, groups6_bytes6 hl'.1 hl'.2]

/-- An IPv6 address comes from an IPv6 text. -/
theorem parseText_eq_ipv6 {core : List Char} {p : U16}
    (h : parseText inet core p = ipv6 address port) : inet.pton6 core = some address ∧ p = port := by
  cases hcore : inet.pton6 core with
  | none =>
      rw [parseText_quad hcore] at h
      split at h <;> contradiction
  | some sockaddr6 =>
      rw [parseText, hcore] at h
      obtain ⟨rfl, rfl⟩ := Address.ipv6.inj h
      exact ⟨rfl, rfl⟩

/-- The text of `ToString` for an address with a port. -/
def bracketed (t d : List Char) : List Char := '[' :: (t ++ ']' :: ':' :: d)

/-- `"[addr6]:portnum"` has three characters more than its parts. -/
theorem length_bracketed : (bracketed t d).length = t.length + d.length + 3 := by
  simp only [bracketed, List.length_cons, List.length_append]
  omega

/-- The end of the address, as far as `Parse` looks for a port in it. -/
def lookedAt (t d : List Char) : List Char := t.drop (max 2 (t.length + d.length - 4))

/-- Where the loop stops in it. -/
theorem lowest_bracketed :
    lowest (bracketed t d) = max 2 (t.length + d.length - 4) + 1 := by
  rw [lowest, length_bracketed]
  omega

/-- What the loop looks at: the end of the address, the bracket and the port. -/
theorem drop_lowest (ht : 0 < t.length) (hd : d.length ≤ 5) :
    (bracketed t d).drop (lowest (bracketed t d)) =
      (t ++ [']']).drop (max 2 (t.length + d.length - 4)) ++ ':' :: d := by
  have hlow := lowest_bracketed (t := t) (d := d)
  have hsplit : bracketed t d = '[' :: ((t ++ [']']) ++ ':' :: d) := by simp [bracketed]
  have hle : max 2 (t.length + d.length - 4) ≤ (t ++ [']']).length := by
    simp only [List.length_append, List.length_singleton]
    omega
  rw [hlow, hsplit, List.drop_succ_cons, List.drop_append_of_le_length hle]

/-- Without a colon of the address among these characters, the loop acts on the one in front of
the port. -/
theorem cutAt_end (ht : 0 < t.length) (hd : d.length ≤ 5) (hcolon : ':' ∉ d)
    (h : ':' ∉ lookedAt t d) : CutAt (bracketed t d) t ']' d := by
  have hlow := lowest_bracketed (t := t) (d := d)
  refine ⟨rfl, by omega, ?_⟩
  have hmem : ':' ∉ (t ++ [']']).drop (max 2 (t.length + d.length - 4)) := by
    rw [List.drop_append]
    intro hmem
    rcases List.mem_append.mp hmem with hmem | hmem
    · exact h hmem
    · simpa using List.mem_of_mem_drop hmem
  rw [drop_lowest ht hd, firstTaken_append hmem (takes_last hcolon), hlow]
  simp only [List.length_drop, List.length_append, List.length_singleton]
  congr 1
  omega

/-- With one, it acts on a colon inside the brackets, of which at most two characters stand
behind it. -/
theorem exists_cutAt_inside (hd : 0 < d.length ∧ d.length ≤ 5) (h : ':' ∈ lookedAt t d) :
    ∃ core x g, t = core ++ x :: ':' :: g ∧ g.length ≤ 2 ∧
      CutAt (bracketed t d) core x (g ++ ']' :: ':' :: d) := by
  have hlow := lowest_bracketed (t := t) (d := d)
  have hshort : max 2 (t.length + d.length - 4) < t.length := by
    by_contra hshort
    rw [lookedAt, List.drop_eq_nil_of_le (by omega)] at h
    contradiction
  have hdrop : (bracketed t d).drop (lowest (bracketed t d)) = lookedAt t d ++ ']' :: ':' :: d := by
    rw [drop_lowest (by omega) hd.2, List.drop_append_of_le_length (by omega), List.append_assoc]
    rfl
  have hfound : ∃ k < (lookedAt t d).length, firstTaken 1 (lookedAt t d ++ ']' :: ':' :: d) = some k :=
    firstTaken_lt h (by decide)
  obtain ⟨k, hk, hfirst⟩ := hfound
  have hmem : ':' ∈ (bracketed t d).drop (lowest (bracketed t d)) := by
    rw [hdrop]
    exact List.mem_append_left _ h
  obtain ⟨core, x, g', hcut⟩ := exists_cutAt rfl hmem
  -- the cut comes before the bracket
  have hinside : core.length + 1 < t.length := by
    have hsome := hcut.first
    have hle := hcut.low
    rw [hdrop, hfirst] at hsome
    have hlen := Option.some.inj hsome
    rw [lookedAt, List.length_drop] at hk
    omega
  obtain ⟨-, htext⟩ := List.cons.inj hcut.text
  rcases List.append_eq_append_iff.mp htext with ⟨u, hu, -⟩ | ⟨u, rfl, hu⟩
  · rw [hu, List.length_append] at hinside
    omega
  · match u, hu with
    | [], _ => simp at hinside
    | [a], _ => simp at hinside
    | a :: b :: g, hu =>
        obtain ⟨rfl, rfl, rfl⟩ : x = a ∧ ':' = b ∧ g' = g ++ ']' :: ':' :: d := by simpa using hu
        refine ⟨core, x, g, rfl, ?_, hcut⟩
        have hle := hcut.low
        simp only [List.length_append, List.length_cons] at hlow
        omega

/-- Where a colon inside the brackets is taken for the one of the port and the address
stays the same, zeros are cut off. -/
theorem CutAt.port_eq_zero {s core g d : List Char} {x : Char} {l : List Nat}
    (hcut : CutAt s core x (g ++ ']' :: ':' :: d)) (hg : g.length ≤ 2) (hd : ':' ∉ d)
    (hcore : InetText.ipv6 zeros core = some l)
    (ht : InetText.ipv6 zeros (core ++ x :: ':' :: g) = some l) :
    BitVec.ofInt 16 (atoi (before 1 (g ++ ']' :: ':' :: d))) = 0 := by
  have hend : ∀ a, g ≠ [a, ':'] := by
    rintro a rfl
    have hshape : core ++ x :: ':' :: [a, ':'] = (core ++ [x]) ++ [':', a, ':'] := by simp
    rw [hshape, InetText.ipv6_of_colon_end] at ht
    contradiction
  have hnot : ':' ∉ g := not_mem_of_takes hcut.takes (by decide) hg hend
  have hzero : ∀ c ∈ g, c = '0' := fun c => InetText.ipv6_cut hnot (by omega) hcore ht
  rw [before_append hnot (by decide) (takes_last hd),
    atoi_number (InetText.number_zeros (by decide) hzero)]
  rfl

/-- A colon in the looked at part of the address loses the address or the port. -/
theorem parse_bracketed_ne (hpton : ∀ t, inet.pton6 t = (InetText.ipv6 zeros t).map bytes6)
    (ht : inet.pton6 t = some address) (hport : port ≠ 0) (hlen : (bracketed t d).length < 256)
    (hd : 0 < d.length ∧ d.length ≤ 5) (hcolon : ':' ∉ d) (h : ':' ∈ lookedAt t d) :
    parse inet (bracketed t d) ≠ ipv6 address port := by
  obtain ⟨core, x, g, rfl, hg, hcut⟩ := exists_cutAt_inside hd h
  rw [hcut.parse_eq hlen]
  intro hparse
  obtain ⟨hcore, hatoi⟩ := parseText_eq_ipv6 hparse
  rw [hpton, Option.map_eq_some_iff] at ht hcore
  obtain ⟨l, hl, rfl⟩ := ht
  obtain ⟨l', hl', hbytes⟩ := hcore
  obtain rfl := bytes6_inj hl' hl hbytes
  exact hport (hatoi.symm.trans (hcut.port_eq_zero hg hcolon hl' hl))

/-- Where `Parse` does not come across a colon of the address, address and port are read back. -/
theorem parse_bracketed (ht : inet.pton6 t = some address) (hpos : 0 < t.length)
    (hlen : t.length ≤ 45) (h : ':' ∉ lookedAt t (decimal port.toNat)) :
    parse inet (bracketed t (decimal port.toNat)) = ipv6 address port := by
  have hd := length_decimal_port port
  have hcut := cutAt_end hpos hd (colon_not_mem_decimal port.toNat) h
  rw [hcut.parse_eq (by rw [length_bracketed]; omega),
    before_of_not_mem (colon_not_mem_decimal port.toNat), ofInt_atoi_decimal, parseText, ht]

/-- Without a port, the address is printed as it is. -/
theorem toString_ipv6_zero (hlen : (inet.ntop6 address).length ≤ 45) (buffer addressString : List Char)
    {bufferSize : Int} (hsize : IsInt32 bufferSize) (hlarge : 54 ≤ bufferSize) :
    toString inet buffer addressString bufferSize (ipv6 address 0) = inet.ntop6 address := by
  have hsame : bufferSize % 4294967296 = bufferSize := by
    have hle := hsize.2
    omega
  simp only [toString, if_true, Inet.ntop, hsame]
  rw [if_pos (by omega)]

/-- With one, it is printed in brackets. -/
theorem toString_ipv6_port (hlen : (inet.ntop6 address).length ≤ 45) (buffer addressString : List Char)
    {bufferSize : Int} (hsize : IsInt32 bufferSize) (hlarge : 54 ≤ bufferSize) (hport : port ≠ 0) :
    toString inet buffer addressString bufferSize (ipv6 address port) =
      bracketed (inet.ntop6 address) (decimal port.toNat) := by
  have hfits : (bracketed (inet.ntop6 address) (decimal port.toNat)).length ≤ 53 := by
    have hd := length_decimal_port port
    rw [length_bracketed]
    omega
  simp only [toString, hport, if_false, Inet.ntop]
  rw [if_pos (by omega)]
  exact snprintf_of_length hsize hfits (by omega)

end Ipv6

/-- An IPv6 address is read back from its text if it has no port, or else if `Parse` does
not come across a colon of the address; the longest text has 53 characters. -/
theorem parse_toString_ipv6 {inet : Inet} (hinet : inet.ReadsGroups zeros)
    (address : Vector U16 8) (port : U16) (buffer addressString : List Char)
    {bufferSize : Int} (hsize : IsInt32 bufferSize)
    (hlarge : 54 ≤ bufferSize) :
    (parse inet (toString inet buffer addressString bufferSize (ipv6 address port))).eq
        (ipv6 address port) = true ↔
      port = 0 ∨ ':' ∉ lookedAt (inet.ntop6 address) (decimal port.toNat) := by
  have ht := hinet.printed address
  have hread := ht
  rw [hinet.pton, Option.map_eq_some_iff] at hread
  obtain ⟨l, hl, -⟩ := hread
  have hlen := InetText.ipv6_length hl
  have hd := length_decimal_port port
  have hdpos : 0 < (decimal port.toNat).length := Nat.length_toDigits_pos
  rw [eq_iff_of_isValid rfl]
  by_cases hport : port = 0
  · have hhead : (inet.ntop6 address).head? ≠ some '[' := by
      intro hhead
      exact (bracket_not_mem_ipv6 hl).1 (List.mem_of_head? hhead)
    rw [hport, toString_ipv6_zero hlen.2 buffer addressString hsize hlarge,
      parse_of_length (by omega) hhead, parseText, ht]
    simp
  · rw [toString_ipv6_port hlen.2 buffer addressString hsize hlarge hport, or_iff_right hport]
    refine ⟨fun hparse hmem => ?_, parse_bracketed ht hlen.1 hlen.2⟩
    refine parse_bracketed_ne hinet.pton ht hport ?_ ⟨hdpos, hd⟩
      (colon_not_mem_decimal port.toNat) hmem hparse
    rw [length_bracketed]
    omega

/-- The last colon of the address is taken for the one in front of the port. -/
theorem not_parse_toString_ipv6 :
    (Inet.plain false).ReadsGroups false ∧
      (parse (.plain false) (toString (.plain false) [] [] 64
        (ipv6 (bytes6 [1, 2, 3, 4, 5, 6, 7, 8]) 5))).eq
        (ipv6 (bytes6 [1, 2, 3, 4, 5, 6, 7, 8]) 5) = false :=
  ⟨(Inet.plain_readsGroups false), by decide⟩

/-- A port of five digits leaves no room for the end of the address. -/
theorem parse_toString_ipv6_sample :
    (parse (.plain false) (toString (.plain false) [] [] 64
      (ipv6 (bytes6 [1, 2, 3, 4, 5, 6, 7, 8]) 40000))).eq
      (ipv6 (bytes6 [1, 2, 3, 4, 5, 6, 7, 8]) 40000) = true :=
  (parse_toString_ipv6 (Inet.plain_readsGroups false) _ _ [] [] (by decide) (by decide)).mpr
    (.inr (by decide))

end Address

end RudpNetwork
