import RudpNetwork.AddressRoundTrip

/-!
# RudpNetwork.AddressForms

What `Parse` accepts, against the four forms of an address: `"addr4"`,
`"addr4:portnum"`, `"addr6"` and `"[addr6]:portnum"`.

`Parse` never looks at the closing bracket and takes for a port what `atoi`
makes of any text.  `parsesSoundly_iff` says for which strings this leads to an
address that they do not denote.

## Main results

* `Denotes.unique` -- a string denotes at most one address.
* `parseText_reading` -- what `Parse` can make of any text.
* `parsesSoundly_iff` -- the strings on which `Parse` is sound.
* `not_parsesSoundly_port` -- one on which it is not.
-/

namespace RudpNetwork

namespace Address

/-- A decimal port. -/
def portText (g : List Char) : Option U16 :=
  if g = [] then none
  else ((InetText.number InetText.decDigit 10 g).filter (· < 65536)).map (.ofNat 16)

/-- The forms of an address, and what they denote; `zeros` says whether `inet_pton` reads
dotted quads with leading zeros. -/
inductive Denotes (zeros : Bool) : List Char → Address → Prop
  | quad {t : List Char} {l : List Nat} (h : InetText.ipv4 zeros t = some l) :
      Denotes zeros t (ipv4 (octets4 l) 0)
  | quadPort {t g : List Char} {l : List Nat} {port : U16} (h : InetText.ipv4 zeros t = some l)
      (hport : portText g = some port) : Denotes zeros (t ++ ':' :: g) (ipv4 (octets4 l) port)
  | groups {t : List Char} {l : List Nat} (h : InetText.ipv6 zeros t = some l) :
      Denotes zeros t (ipv6 (bytes6 l) 0)
  | groupsPort {t g : List Char} {l : List Nat} {port : U16} (h : InetText.ipv6 zeros t = some l)
      (hport : portText g = some port) : Denotes zeros (bracketed t g) (ipv6 (bytes6 l) port)

variable {zeros : Bool}

/-- A decimal port is not empty, has no colon, and `atoi` gives it. -/
theorem portText_eq_some {g : List Char} {port : U16} (h : portText g = some port) :
    g ≠ [] ∧ ':' ∉ g ∧ BitVec.ofInt 16 (atoi g) = port := by
  unfold portText at h
  split at h
  · contradiction
  · next hne =>
    obtain ⟨n, hn, rfl⟩ := Option.map_eq_some_iff.mp h
    have hnumber := (Option.filter_eq_some_iff.mp hn).1
    refine ⟨hne, fun hmem => ?_, by rw [atoi_number hnumber, BitVec.ofInt_natCast]⟩
    obtain ⟨d, hd⟩ := InetText.digit_of_mem hnumber hmem
    contradiction

/-- What stands in front of the first `c`, and what behind it. -/
theorem append_cons_inj {t t' g g' : List Char} {c : Char} (h : c ∉ t) (h' : c ∉ t')
    (heq : t ++ c :: g = t' ++ c :: g') : t = t' ∧ g = g' := by
  rcases List.append_eq_append_iff.mp heq with ⟨u, rfl, hu⟩ | ⟨u, rfl, hu⟩
  · cases u with
    | nil => simpa using hu
    | cons a u =>
        obtain ⟨rfl, -⟩ : c = a ∧ _ := by simpa using hu
        exact absurd (by simp) h'
  · cases u with
    | nil => simpa [eq_comm] using hu
    | cons a u =>
        obtain ⟨rfl, -⟩ : c = a ∧ _ := by simpa using hu
        exact absurd (by simp) h

/-- A string denotes one address. -/
theorem Denotes.unique {s : List Char} {a b : Address} (h : Denotes zeros s a)
    (h' : Denotes zeros s b) : a = b := by
  cases h with
  | quad h =>
      cases h' with
      | quad h' => rw [Option.some.inj (h.symm.trans h')]
      | quadPort h' hport => exact absurd (by simp) (InetText.colon_not_mem_ipv4 h)
      | groups h' => simp [InetText.ipv6_of_ipv4 h] at h'
      | groupsPort h' hport => exact absurd rfl (head_ne_of_ipv4 h)
  | quadPort h hport =>
      generalize hs : _ ++ ':' :: _ = s at h'
      cases h' with
      | quad h' => exact absurd (by simp [← hs]) (InetText.colon_not_mem_ipv4 h')
      | quadPort h' hport' =>
          obtain ⟨rfl, rfl⟩ := append_cons_inj (InetText.colon_not_mem_ipv4 h)
            (InetText.colon_not_mem_ipv4 h') hs
          rw [Option.some.inj (h.symm.trans h'), Option.some.inj (hport.symm.trans hport')]
      | groups h' => simp [← hs, InetText.ipv6_of_ipv4_colon h] at h'
      | groupsPort h' hport' => exact absurd (by rw [hs]; rfl) (head_append_ne_of_ipv4 h _)
  | groups h =>
      cases h' with
      | quad h' => simp [InetText.ipv6_of_ipv4 h'] at h
      | quadPort h' hport' => simp [InetText.ipv6_of_ipv4_colon h'] at h
      | groups h' => rw [Option.some.inj (h.symm.trans h')]
      | groupsPort h' hport' => exact absurd List.mem_cons_self (bracket_not_mem_ipv6 h).1
  | groupsPort h hport =>
      generalize hs : bracketed _ _ = s at h'
      cases h' with
      | quad h' => exact absurd (by rw [← hs]; rfl) (head_ne_of_ipv4 h')
      | quadPort h' hport' => exact absurd (by rw [← hs]; rfl) (head_append_ne_of_ipv4 h' _)
      | groups h' => exact absurd (by rw [← hs]; exact List.mem_cons_self) (bracket_not_mem_ipv6 h').1
      | groupsPort h' hport' =>
          obtain ⟨-, hs⟩ := List.cons.inj hs
          obtain ⟨rfl, htail⟩ := append_cons_inj (bracket_not_mem_ipv6 h).2
            (bracket_not_mem_ipv6 h').2 hs
          obtain ⟨-, rfl⟩ := List.cons.inj htail
          rw [Option.some.inj (h.symm.trans h'), Option.some.inj (hport.symm.trans hport')]

/-- `Parse` is sound on `s`. -/
structure ParsesSoundly (zeros : Bool) (inet : Inet) (s : List Char) : Prop where
  valid : (parse inet s).isValid = true → Denotes zeros s (parse inet s)
  other : (¬∃ a, Denotes zeros s a) → parse inet s = clear

/-! ## what `Parse` reads -/

/-- What `Parse` makes of a text and the port found so far. -/
inductive Reading (zeros : Bool) (core : List Char) (port : U16) : Address → Prop
  | groups {l : List Nat} (h : InetText.ipv6 zeros core = some l) :
      Reading zeros core port (ipv6 (bytes6 l) port)
  | quad {l : List Nat} (h : InetText.ipv4 zeros core = some l) :
      Reading zeros core port (ipv4 (octets4 l) port)
  | quadPort {t g : List Char} {l : List Nat} (hcore : core = t ++ ':' :: g)
      (h : InetText.ipv4 zeros t = some l) (hlen : g.length ≤ 5) :
      Reading zeros core port (ipv4 (octets4 l) (BitVec.ofInt 16 (atoi (before 0 g))))
  | none : Reading zeros core port clear

section Reading

variable {inet : Inet} {core t g : List Char} {l : List Nat} {port : U16}

/-- The loop for `"addr4:portnum"` finds nothing, or a colon with at most five characters behind
it. -/
theorem scanQuad_cases (s : List Char) (port : U16) :
    scanQuad s port = (s, port) ∨ ∃ t g, s = t ++ ':' :: g ∧ g.length ≤ 5 ∧
      scanQuad s port = (t, BitVec.ofInt 16 (atoi (before 0 g))) := by
  rw [scanQuad_eq]
  cases hfirst : firstTaken 0 (s.drop (s.length - 6)) with
  | none => exact .inl (scanned_of_not_mem (firstTaken_eq_none.mp hfirst))
  | some k =>
      obtain ⟨w, g, hsplit, hlength⟩ := exists_split hfirst
      have htotal := congrArg List.length hsplit
      rw [List.length_append, List.length_cons] at htotal
      refine .inr ⟨w, g, hsplit, by omega, ?_⟩
      generalize s.length - 6 = m at *
      subst hsplit
      rw [scanned_at (by omega) (by rw [hfirst]; congr 1; omega), Nat.sub_zero, List.take_length]

/-- An IPv6 text is read, and the port stays. -/
theorem parseText_of_ipv6 (hinet : inet.ReadsTexts zeros) (h : InetText.ipv6 zeros core = some l) :
    parseText inet core port = ipv6 (bytes6 l) port := by
  have hpton : inet.pton6 core = some (bytes6 l) := by rw [hinet.pton6, h, Option.map_some]
  rw [parseText, hpton]

/-- Whatever the text, what comes out is one of the readings. -/
theorem parseText_reading (hinet : inet.ReadsTexts zeros) (core : List Char) (port : U16) :
    Reading zeros core port (parseText inet core port) := by
  cases h6 : InetText.ipv6 zeros core with
  | some l =>
      rw [parseText_of_ipv6 hinet h6]
      exact .groups h6
  | none =>
      have hpton : inet.pton6 core = none := by rw [hinet.pton6, h6, Option.map_none]
      rw [parseText_quad hpton, hinet.pton4]
      rcases scanQuad_cases core port with hscan | ⟨t, g, hcore, hlen, hscan⟩
      · rw [hscan]
        cases h4 : InetText.ipv4 zeros core with
        | none => exact .none
        | some l => exact .quad h4
      · rw [hscan]
        cases h4 : InetText.ipv4 zeros t with
        | none => exact .none
        | some l => exact .quadPort hcore h4 hlen

/-- A dotted quad is read, and the port stays. -/
theorem parseText_of_ipv4 (hinet : inet.ReadsTexts zeros) (h : InetText.ipv4 zeros core = some l) :
    parseText inet core port = ipv4 (octets4 l) port := by
  have hpton : inet.pton6 core = none := by
    rw [hinet.pton6, InetText.ipv6_of_ipv4 h, Option.map_none]
  rw [parseText_quad hpton, scanQuad_of_not_mem (InetText.colon_not_mem_ipv4 h), hinet.pton4, h]
  rfl

/-- A dotted quad with at most five characters behind a colon is read, with what `atoi` makes of
them as the port. -/
theorem parseText_of_port (hinet : inet.ReadsTexts zeros) (h : InetText.ipv4 zeros t = some l)
    (hlen : g.length ≤ 5) :
    parseText inet (t ++ ':' :: g) port =
      ipv4 (octets4 l) (BitVec.ofInt 16 (atoi (before 0 g))) := by
  have hpton : inet.pton6 (t ++ ':' :: g) = none := by
    rw [hinet.pton6, InetText.ipv6_of_ipv4_colon h, Option.map_none]
  rw [parseText_quad hpton, scanQuad_port (InetText.colon_not_mem_ipv4 h) hlen, hinet.pton4, h]
  rfl

end Reading

/-! ## what is misread -/

/-- What `Parse` leaves of a text in brackets: up to one character in front of the leftmost
colon that the loop acts on, or all of it. -/
def Remains (s core : List Char) : Prop :=
  (s = '[' :: core ∧ ':' ∉ s.drop (lowest s)) ∨ ∃ x g, CutAt s core x g

/-- The strings that `Parse` takes for an address that they do not denote. -/
inductive Misread (zeros : Bool) (s : List Char) : Prop
  /-- What follows the IPv4 text and its colon is no port. -/
  | port {t g : List Char} (hs : s = t ++ ':' :: g) (h : InetText.ipv4 zeros t ≠ none)
      (hlen : g.length ≤ 5) (hport : portText g = none)
  /-- An IPv4 text remains behind the bracket. -/
  | quad {core : List Char} (hs : Remains s core) (h : InetText.ipv4 zeros core ≠ none)
  /-- So it does, with a colon and some characters. -/
  | quadPort {core t g : List Char} (hs : Remains s core) (hcore : core = t ++ ':' :: g)
      (h : InetText.ipv4 zeros t ≠ none) (hlen : g.length ≤ 5)
  /-- An IPv6 text remains, and `s` is not that text in brackets with a port (or another text
  of the same address with the port 0). -/
  | groups {core : List Char} (hs : Remains s core) (h : InetText.ipv6 zeros core ≠ none)
      (hform : ¬∃ t g port, s = bracketed t g ∧ InetText.ipv6 zeros t = InetText.ipv6 zeros core ∧
        portText g = some port ∧ (t = core ∨ port = 0))

section Misread

variable {inet : Inet} {s core t g : List Char} {x : Char} {l : List Nat} {port : U16}

/-- Only a text in brackets leaves something. -/
theorem Remains.head (h : Remains s core) : s.head? = some '[' := by
  rcases h with ⟨rfl, -⟩ | ⟨x, g, hcut⟩
  · rfl
  · rw [hcut.text]
    rfl

/-- Each leaves something. -/
theorem exists_remains (h : s.head? = some '[') : ∃ core, Remains s core := by
  by_cases hmem : ':' ∈ s.drop (lowest s)
  · obtain ⟨core, x, g, hcut⟩ := exists_cutAt h hmem
    exact ⟨core, .inr ⟨x, g, hcut⟩⟩
  · cases s with
    | nil => contradiction
    | cons c core =>
        obtain rfl : c = '[' := by simpa using h
        exact ⟨core, .inl ⟨rfl, hmem⟩⟩

/-- A text in brackets is read from what remains. -/
theorem Remains.parse_eq (h : Remains s core) (inet : Inet) (hlen : s.length < 256) :
    ∃ port, parse inet s = parseText inet core port := by
  rcases h with ⟨hs, hmem⟩ | ⟨x, g, hcut⟩
  · exact ⟨0, parse_uncut hlen hs hmem⟩
  · exact ⟨_, hcut.parse_eq hlen⟩

/-- The loop looks at six characters, so that at most five stand behind the colon. -/
theorem CutAt.length_le (h : CutAt s core x g) : g.length ≤ 5 := by
  have hlow := h.low
  have hlength : s.length = core.length + 3 + g.length := by
    rw [h.text]
    simp only [List.length_cons, List.length_append]
    omega
  have hsix : s.length - 6 ≤ lowest s := Nat.le_max_right _ _
  omega

/-- With the form of an address in brackets, either just that address remains, or zeros are
cut off and the port comes out as 0. -/
theorem CutAt.port_eq (hcut : CutAt s core x g) {d : List Char} (hs : s = bracketed t d)
    (hcore : InetText.ipv6 zeros core = some l) (ht : InetText.ipv6 zeros t = some l)
    (hd : portText d = some port) :
    (t ≠ core ∧ BitVec.ofInt 16 (atoi (before 1 g)) = 0) ∨
      (t = core ∧ BitVec.ofInt 16 (atoi (before 1 g)) = port) := by
  have htext : core ++ x :: ':' :: g = t ++ ']' :: ':' :: d :=
    (List.cons.inj (hcut.text.symm.trans hs)).2
  obtain ⟨hne, hcolon, hport⟩ := portText_eq_some hd
  rcases List.append_eq_append_iff.mp htext with ⟨u, rfl, hu⟩ | ⟨u, rfl, hu⟩
  · match u, hu with
    | [], hu =>
        obtain ⟨rfl, rfl⟩ : x = ']' ∧ g = d := by simpa using hu
        exact .inr ⟨by simp, by rw [before_of_not_mem hcolon, hport]⟩
    | [a], hu => simp at hu
    | a :: b :: u, hu =>
        obtain ⟨rfl, rfl, rfl⟩ : x = a ∧ ':' = b ∧ g = u ++ ']' :: ':' :: d := by simpa using hu
        have hlen := hcut.length_le
        have hpos := List.length_pos_iff.mpr hne
        simp only [List.length_append, List.length_cons] at hlen
        exact .inl ⟨by simp, hcut.port_eq_zero (by omega) hcolon hcore ht⟩
  · match u, hu with
    | [], hu =>
        obtain ⟨rfl, rfl⟩ : ']' = x ∧ d = g := by simpa using hu
        exact .inr ⟨by simp, by rw [before_of_not_mem hcolon, hport]⟩
    | a :: u, hu =>
        obtain ⟨rfl, -⟩ : ']' = a ∧ _ := by simpa using hu
        exact absurd (by simp) (bracket_not_mem_ipv6 hcore).2

end Misread

/-! ## soundness -/

section Sound

variable {inet : Inet} {s : List Char} {address : U32} {port : U16}

/-- Only the first two forms denote IPv4 addresses. -/
theorem Denotes.of_ipv4 (h : Denotes zeros s (ipv4 address port)) :
    InetText.ipv4 zeros s ≠ none ∨
      ∃ t g, s = t ++ ':' :: g ∧ InetText.ipv4 zeros t ≠ none ∧ portText g ≠ none := by
  cases h with
  | quad h => exact .inl (by simp [h])
  | quadPort h hport => exact .inr ⟨_, _, rfl, by simp [h], by simp [hport]⟩

/-- Only the form in brackets starts with one and denotes an IPv6 address. -/
theorem Denotes.of_ipv6 {address : Vector U16 8} (h : Denotes zeros s (ipv6 address port))
    (hhead : s.head? = some '[') : ∃ t d l, s = bracketed t d ∧ InetText.ipv6 zeros t = some l ∧
      bytes6 l = address ∧ portText d = some port := by
  cases h with
  | groups h => exact absurd (List.mem_of_head? hhead) (bracket_not_mem_ipv6 h).1
  | groupsPort h hport => exact ⟨_, _, _, rfl, h, rfl, hport⟩

/-- `Parse` gives the undefined address for a string of no form as soon as it gives valid ones
only for the forms. -/
theorem parsesSoundly_of_valid (hinet : inet.ReadsTexts zeros) (hlen : s.length < 256)
    (h : (parse inet s).isValid = true → Denotes zeros s (parse inet s)) :
    ParsesSoundly zeros inet s := by
  refine ⟨h, fun hnone => ?_⟩
  have hreading : ∃ core port, Reading zeros core port (parse inet s) := by
    by_cases hhead : s.head? = some '['
    · obtain ⟨core, hcore⟩ := exists_remains hhead
      obtain ⟨port, hparse⟩ := hcore.parse_eq inet hlen
      rw [hparse]
      exact ⟨core, port, parseText_reading hinet core port⟩
    · rw [parse_of_length hlen hhead]
      exact ⟨s, 0, parseText_reading hinet s 0⟩
  obtain ⟨core, port, hreading⟩ := hreading
  cases hparse : parse inet s with
  | undefined p =>
      rw [hparse] at hreading
      cases hreading
      rfl
  | ipv4 a p => exact absurd ⟨_, h (by rw [hparse]; rfl)⟩ hnone
  | ipv6 a p => exact absurd ⟨_, h (by rw [hparse]; rfl)⟩ hnone

/-- What starts with a bracket denotes no IPv4 address. -/
theorem not_denotes_ipv4 (h : s.head? = some '[') : ¬Denotes zeros s (ipv4 address port) := by
  intro hd
  rcases hd.of_ipv4 with h4 | ⟨t, g, rfl, h4, -⟩
  · obtain ⟨l, hl⟩ := Option.ne_none_iff_exists'.mp h4
    exact head_ne_of_ipv4 hl h
  · obtain ⟨l, hl⟩ := Option.ne_none_iff_exists'.mp h4
    exact head_append_ne_of_ipv4 hl _ h

/-- A string that is misread comes out as an address that it does not denote. -/
theorem not_parsesSoundly (hinet : inet.ReadsTexts zeros) (hlen : s.length < 256)
    (h : Misread zeros s) : ¬ParsesSoundly zeros inet s := by
  rintro ⟨hvalid, -⟩
  cases h with
  | port hs h4 hg hport =>
      obtain ⟨l, hl⟩ := Option.ne_none_iff_exists'.mp h4
      subst hs
      rw [parse_of_length hlen (head_append_ne_of_ipv4 hl _), parseText_of_port hinet hl hg] at hvalid
      rcases (hvalid rfl).of_ipv4 with h4 | ⟨t', g', heq, h4, hport'⟩
      · obtain ⟨l', hl'⟩ := Option.ne_none_iff_exists'.mp h4
        exact InetText.colon_not_mem_ipv4 hl' (by simp)
      · obtain ⟨l', hl'⟩ := Option.ne_none_iff_exists'.mp h4
        obtain ⟨-, rfl⟩ := append_cons_inj (InetText.colon_not_mem_ipv4 hl)
          (InetText.colon_not_mem_ipv4 hl') heq
        exact hport' hport
  | quad hs h4 =>
      obtain ⟨l, hl⟩ := Option.ne_none_iff_exists'.mp h4
      obtain ⟨port, hparse⟩ := hs.parse_eq inet hlen
      rw [hparse, parseText_of_ipv4 hinet hl] at hvalid
      exact not_denotes_ipv4 hs.head (hvalid rfl)
  | quadPort hs hcore h4 hg =>
      obtain ⟨l, hl⟩ := Option.ne_none_iff_exists'.mp h4
      obtain ⟨port, hparse⟩ := hs.parse_eq inet hlen
      rw [hparse, hcore, parseText_of_port hinet hl hg] at hvalid
      exact not_denotes_ipv4 hs.head (hvalid rfl)
  | groups hs h6 hform =>
      obtain ⟨l, hl⟩ := Option.ne_none_iff_exists'.mp h6
      rcases hs with ⟨rfl, hmem⟩ | ⟨x, g, hcut⟩
      · rw [parse_uncut hlen rfl hmem, parseText_of_ipv6 hinet hl] at hvalid
        obtain ⟨t, d, l', heq, -, -⟩ := (hvalid rfl).of_ipv6 rfl
        obtain ⟨-, rfl⟩ := List.cons.inj heq
        exact (bracket_not_mem_ipv6 hl).2 (by simp)
      · rw [hcut.parse_eq hlen, parseText_of_ipv6 hinet hl] at hvalid
        obtain ⟨t, d, l', heq, ht, hbytes, hd⟩ := (hvalid rfl).of_ipv6 (by rw [hcut.text]; rfl)
        obtain rfl := bytes6_inj ht hl hbytes
        refine hform ⟨t, d, _, heq, ht.trans hl.symm, hd, ?_⟩
        rcases hcut.port_eq heq hl ht hd with ⟨-, hzero⟩ | ⟨rfl, -⟩
        · exact .inr hzero
        · exact .inl rfl

/-- Any other string comes out as what it denotes. -/
theorem parsesSoundly_of_not_misread (hinet : inet.ReadsTexts zeros) (hlen : s.length < 256)
    (h : ¬Misread zeros s) : ParsesSoundly zeros inet s := by
  refine parsesSoundly_of_valid hinet hlen fun hvalid => ?_
  by_cases hhead : s.head? = some '['
  · obtain ⟨core, hs⟩ := exists_remains hhead
    obtain ⟨port, hparse⟩ := hs.parse_eq inet hlen
    have hreading := parseText_reading hinet core port
    rw [← hparse] at hreading
    generalize hresult : parse inet s = a at hvalid hreading ⊢
    cases hreading with
    | groups h6 =>
        have hform := not_not.mp fun hform => h (.groups hs (by simp [h6]) hform)
        obtain ⟨t, d, port', heq, ht, hd, hor⟩ := hform
        rcases hs with ⟨hs, -⟩ | ⟨x, g, hcut⟩
        · obtain ⟨-, rfl⟩ := List.cons.inj (hs.symm.trans heq)
          exact absurd (by simp) (bracket_not_mem_ipv6 h6).2
        · rw [hcut.parse_eq hlen, parseText_of_ipv6 hinet h6] at hresult
          obtain ⟨-, rfl⟩ := Address.ipv6.inj hresult
          have hport : BitVec.ofInt 16 (atoi (before 1 g)) = port' := by
            rcases hcut.port_eq heq h6 (ht.trans h6) hd with ⟨hne, hzero⟩ | ⟨-, hport⟩
            · rw [hzero, or_iff_right hne |>.mp hor]
            · exact hport
          rw [hport, heq]
          exact .groupsPort (ht.trans h6) hd
    | quad h4 => exact absurd (.quad hs (by simp [h4])) h
    | quadPort hcore h4 hg => exact absurd (.quadPort hs hcore (by simp [h4]) hg) h
    | none => contradiction
  · rw [parse_of_length hlen hhead] at hvalid ⊢
    have hreading := parseText_reading hinet s 0
    generalize parseText inet s 0 = a at *
    cases hreading with
    | groups h6 => exact .groups h6
    | quad h4 => exact .quad h4
    | quadPort hs h4 hg =>
        subst hs
        cases hport : portText _ with
        | none => exact absurd (.port rfl (by simp [h4]) hg hport) h
        | some port =>
            obtain ⟨-, hcolon, hport'⟩ := portText_eq_some hport
            rw [before_of_not_mem hcolon, hport']
            exact .quadPort h4 hport
    | none => contradiction

/-- `Parse` is sound on a string exactly if it does not misread it. -/
theorem parsesSoundly_iff (hinet : inet.ReadsTexts zeros) (hlen : s.length < 256) :
    ParsesSoundly zeros inet s ↔ ¬Misread zeros s :=
  ⟨fun h hmis => not_parsesSoundly hinet hlen hmis h, parsesSoundly_of_not_misread hinet hlen⟩

end Sound

/-- With a port of two digits the loop comes to the closing bracket first. -/
theorem parsesSoundly_iff_sample :
    ParsesSoundly false (.plain false) "[::1]:80".toList ↔ ¬Misread false "[::1]:80".toList :=
  parsesSoundly_iff (Inet.plain_readsTexts false) (by decide)

/-- A port that is out of range is cut to 16 bits. -/
theorem not_parsesSoundly_port :
    (Inet.plain false).ReadsTexts false ∧ ¬ParsesSoundly false (.plain false) "1.2.3.4:99999".toList :=
  ⟨(Inet.plain_readsTexts false), not_parsesSoundly (Inet.plain_readsTexts false) (by decide)
    (.port (show _ = "1.2.3.4".toList ++ ':' :: "99999".toList by decide) (by decide) (by decide)
      (by decide))⟩

end Address

end RudpNetwork
