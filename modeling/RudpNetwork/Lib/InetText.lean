import Mathlib.Algebra.Group.Nat.Defs
import Mathlib.Data.List.Induction

/-!
# RudpNetwork.Lib.InetText

The text forms of internet addresses.

`ipv4` reads a dotted quad: four decimal numbers of one to three digits, each at
most 255.  Implementations differ in whether such a number may start with a zero, as in
`010`; `zeros` says whether it may.  `ipv6` reads eight groups of one to four
hexadecimal digits; `::` stands once for one or more groups of zeros, and a dotted quad
may stand for the last two groups.  Both return the numbers that the text denotes.

`ipv6_cut` is about texts of one address where one is a part of the other;
`ipv4_intercalate` and `ipv6_intercalate` say that printed numbers are read back.

## Main results

* `ipv4_length`, `ipv4_intercalate` — what a dotted quad looks like, and that plain
  decimals make one.
* `ipv6_chars`, `ipv6_length` — the characters of an IPv6 address, and how many it has.
* `groups_of_mapM`, `groups_of_leftGroups` — the groups on the sides of a gap.
-/

namespace InetText

/-! ## numbers -/

def decDigit (c : Char) : Option Nat := if c.isDigit then some (c.toNat - '0'.toNat) else none

def hexDigit (c : Char) : Option Nat :=
  if c.isDigit then some (c.toNat - '0'.toNat)
  else if 'a'.toNat ≤ c.toNat ∧ c.toNat ≤ 'f'.toNat then some (c.toNat - 'a'.toNat + 10)
  else if 'A'.toNat ≤ c.toNat ∧ c.toNat ≤ 'F'.toNat then some (c.toNat - 'A'.toNat + 10)
  else none

/-- The number that the digits of `t` spell. -/
def number (digit : Char → Option Nat) (base : Nat) (t : List Char) : Option Nat :=
  t.foldlM (fun n c => (digit c).map (base * n + ·)) 0

section Number

variable {digit : Char → Option Nat} {base : Nat} {t : List Char} {c : Char} {n : Nat}

@[simp] theorem number_nil : number digit base [] = some 0 := rfl

/-- The last digit counts once. -/
@[simp] theorem number_concat :
    number digit base (t ++ [c]) = (number digit base t).bind fun n =>
      (digit c).map (base * n + ·) := by
  simp [number, List.foldlM_append]

/-- A number with a last digit, taken apart. -/
theorem number_concat_eq_some (h : number digit base (t ++ [c]) = some n) :
    ∃ m d, number digit base t = some m ∧ digit c = some d ∧ n = base * m + d := by
  rw [number_concat, Option.bind_eq_some_iff] at h
  obtain ⟨m, hm, h⟩ := h
  obtain ⟨d, hd, rfl⟩ := Option.map_eq_some_iff.mp h
  exact ⟨m, d, hm, hd, rfl⟩

/-- Every character of a number is a digit. -/
theorem digit_of_mem (h : number digit base t = some n) (hc : c ∈ t) : ∃ d, digit c = some d := by
  induction t using List.reverseRecOn generalizing n with
  | nil => simp at hc
  | append_singleton t a ih =>
      obtain ⟨m, d, hm, hd, -⟩ := number_concat_eq_some h
      rcases List.mem_append.mp hc with hc | hc
      · exact ih hm hc
      · obtain rfl := List.mem_singleton.mp hc
        exact ⟨d, hd⟩

theorem number_lt (hdigit : ∀ c d, digit c = some d → d < base) (h : number digit base t = some n) :
    n < base ^ t.length := by
  induction t using List.reverseRecOn generalizing n with
  | nil =>
      obtain rfl : 0 = n := by simpa using h
      simp
  | append_singleton t a ih =>
      obtain ⟨m, d, hm, hd, rfl⟩ := number_concat_eq_some h
      have hlt := ih hm
      have hd := hdigit a d hd
      rw [List.length_append, List.length_singleton, Nat.pow_succ, Nat.mul_comm _ base]
      calc base * m + d < base * m + base := by omega
        _ = base * (m + 1) := by rw [Nat.mul_add, Nat.mul_one]
        _ ≤ base * base ^ t.length := Nat.mul_le_mul_left base hlt

/-- Zero has no digits but zeros. -/
theorem digit_zero (hbase : 0 < base) (h : number digit base t = some 0) (hc : c ∈ t) :
    digit c = some 0 := by
  induction t using List.reverseRecOn with
  | nil => simp at hc
  | append_singleton t a ih =>
      obtain ⟨m, d, hm, hd, hsum⟩ := number_concat_eq_some h
      obtain ⟨hprod, rfl⟩ : base * m = 0 ∧ d = 0 := by omega
      obtain rfl : m = 0 := by
        rcases Nat.mul_eq_zero.mp hprod with hz | hz
        · omega
        · exact hz
      rcases List.mem_append.mp hc with hc | hc
      · exact ih hm hc
      · obtain rfl := List.mem_singleton.mp hc
        exact hd

/-- Zeros are the number zero. -/
theorem number_zeros {z : Char} (hz : digit z = some 0) (h : ∀ c ∈ t, c = z) :
    number digit base t = some 0 := by
  induction t using List.reverseRecOn with
  | nil => rfl
  | append_singleton t a ih =>
      obtain rfl : a = z := h a (by simp)
      rw [number_concat, ih fun c hc => h c (by simp [hc]), hz]
      simp

end Number

section Digits

variable {c : Char} {d : Nat}

theorem decDigit_eq_some :
    decDigit c = some d ↔ ('0'.toNat ≤ c.toNat ∧ c.toNat ≤ '9'.toNat) ∧ c.toNat - '0'.toNat = d := by
  simp [decDigit, Char.isDigit_iff_toNat]

theorem hexDigit_lt (h : hexDigit c = some d) : d < 16 := by
  simp only [hexDigit, Char.isDigit_iff_toNat] at h
  split at h
  · grind
  · split at h
    · grind
    · grind

/-- Only one digit is zero. -/
theorem hexDigit_eq_zero (h : hexDigit c = some 0) : c = '0' := by
  simp only [hexDigit, Char.isDigit_iff_toNat] at h
  rw [← Char.toNat_inj]
  split at h
  · grind
  · grind

end Digits

/-! ## the grammar -/

section Grammar

-- whether a number of a dotted quad may start with a zero that is not all of it
variable (zeros : Bool)

/-- One of the numbers of a dotted quad. -/
def octet (t : List Char) : Option Nat :=
  if (0 < t.length ∧ t.length ≤ 3) ∧ (zeros = true ∨ t.length = 1 ∨ t.head? ≠ some '0') then
    (number decDigit 10 t).filter (· < 256)
  else none

/-- A dotted quad. -/
def ipv4 (t : List Char) : Option (List Nat) :=
  ((t.splitOn '.').mapM (octet zeros)).filter (·.length = 4)

/-- A group of hexadecimal digits. -/
def group (t : List Char) : Option Nat :=
  if 0 < t.length ∧ t.length ≤ 4 then number hexDigit 16 t else none

/-- The two groups that a dotted quad stands for. -/
def pairs : List Nat → List Nat
  | a :: b :: l => (256 * a + b) :: pairs l
  | _ => []

/-- The groups between the colons; the last may be a dotted quad. -/
def groups : List (List Char) → Option (List Nat)
  | [] => none
  | [p] => (group p).map ([·]) <|> (ipv4 zeros p).map pairs
  | p :: q :: ps => do
      let g ← group p
      let gs ← groups (q :: ps)
      return g :: gs

/-- What stands in front of the first `::` and behind it. -/
def gap : List Char → Option (List Char × List Char)
  | [] => none
  | c :: t => if c = ':' ∧ t.head? = some ':' then some ([], t.tail)
      else (gap t).map fun (l, r) => (c :: l, r)

/-- The groups in front of `::`, where there may be none and no dotted quad. -/
def leftGroups (l : List Char) : Option (List Nat) :=
  if l = [] then some [] else (l.splitOn ':').mapM group

/-- The groups behind it. -/
def rightGroups (r : List Char) : Option (List Nat) :=
  if r = [] then some [] else groups zeros (r.splitOn ':')

/-- The groups on both sides of a run of zeros, which is not empty. -/
def fill (gl gr : List Nat) : Option (List Nat) :=
  if gl.length + gr.length < 8 then
    some (gl ++ List.replicate (8 - (gl.length + gr.length)) 0 ++ gr)
  else none

/-- The eight groups of an IPv6 text. -/
def ipv6 (t : List Char) : Option (List Nat) :=
  match gap t with
  | none => (groups zeros (t.splitOn ':')).filter (·.length = 8)
  | some (l, r) => do
      let gl ← leftGroups l
      let gr ← rightGroups zeros r
      fill gl gr

end Grammar

example : ipv6 false "::1:2".toList = some [0, 0, 0, 0, 0, 0, 1, 2] := by decide
example : ipv6 false "1::5.6.7.8".toList = some [1, 0, 0, 0, 0, 0, 0x506, 0x708] := by decide
example : ipv6 false "1:2:3:4:5:6:7::8".toList = none := by decide

/-! ## what a text looks like -/

variable {zeros : Bool}

/-- An octet has one to three digits. -/
theorem octet_length {t : List Char} {n : Nat} (h : octet zeros t = some n) :
    0 < t.length ∧ t.length ≤ 3 := by
  unfold octet at h
  split at h
  · next hform => exact hform.1
  · simp at h

/-- An octet is a number below 256. -/
theorem octet_number {t : List Char} {n : Nat} (h : octet zeros t = some n) :
    number decDigit 10 t = some n ∧ n < 256 := by
  unfold octet at h
  split at h
  · simpa [Option.filter_eq_some_iff] using h
  · simp at h

/-- A group has one to four hexadecimal digits. -/
theorem group_eq_some {t : List Char} {n : Nat} :
    group t = some n ↔ (0 < t.length ∧ t.length ≤ 4) ∧ number hexDigit 16 t = some n := by
  by_cases h : 0 < t.length ∧ t.length ≤ 4
  · rw [group, if_pos h, and_iff_right h]
  · rw [group, if_neg h]
    simp [h]

@[simp] theorem group_nil : group [] = none := rfl

theorem length_mapM {α β : Type} {f : α → Option β} {l : List α} {l' : List β}
    (h : l.mapM f = some l') : l'.length = l.length := by
  induction l generalizing l' with
  | nil =>
      obtain rfl : [] = l' := by simpa using h
      rfl
  | cons a l ih =>
      simp only [List.mapM_cons, Option.bind_eq_bind, Option.bind_eq_some_iff, Option.pure_def,
        Option.some.injEq] at h
      obtain ⟨b, -, bs, hbs, rfl⟩ := h
      rw [List.length_cons, List.length_cons, ih hbs]

/-- The four numbers of a dotted quad, and what they are read from. -/
theorem ipv4_eq_some {t : List Char} {l : List Nat} (h : ipv4 zeros t = some l) :
    ∃ a b c d : List Char, t = a ++ '.' :: (b ++ '.' :: (c ++ '.' :: d)) ∧
      ∃ na nb nc nd, octet zeros a = some na ∧ octet zeros b = some nb ∧ octet zeros c = some nc ∧
        octet zeros d = some nd ∧ l = [na, nb, nc, nd] := by
  obtain ⟨hmap, hlen⟩ := Option.filter_eq_some_iff.mp h
  have hjoin : ['.'].intercalate (t.splitOn '.') = t := List.intercalate_splitOn '.'
  have hps := length_mapM hmap
  rw [of_decide_eq_true hlen] at hps
  obtain ⟨a, b, c, d, hsplit⟩ : ∃ a b c d, t.splitOn '.' = [a, b, c, d] := by
    match hm : t.splitOn '.', hps with
    | [a, b, c, d], _ => exact ⟨a, b, c, d, rfl⟩
  rw [hsplit] at hmap hjoin
  simp only [List.mapM_cons, List.mapM_nil, Option.bind_eq_bind, Option.bind_eq_some_iff,
    Option.pure_def, Option.some.injEq] at hmap
  obtain ⟨na, ha, _, ⟨nb, hb, _, ⟨nc, hc, _, ⟨nd, hd, _, rfl, rfl⟩, rfl⟩, rfl⟩, rfl⟩ := hmap
  refine ⟨a, b, c, d, ?_, na, nb, nc, nd, ha, hb, hc, hd, rfl⟩
  rw [← hjoin]
  simp [List.intercalate_cons_cons]

/-- Four octets and three dots. -/
theorem ipv4_length {t : List Char} {l : List Nat} (h : ipv4 zeros t = some l) :
    7 ≤ t.length ∧ t.length ≤ 15 := by
  obtain ⟨a, b, c, d, rfl, na, nb, nc, nd, ha, hb, hc, hd, -⟩ := ipv4_eq_some h
  have ha := octet_length ha
  have hb := octet_length hb
  have hc := octet_length hc
  have hd := octet_length hd
  simp only [List.length_append, List.length_cons]
  omega

/-- The characters of a dotted quad. -/
theorem ipv4_chars {t : List Char} {l : List Nat} (h : ipv4 zeros t = some l)
    {ch : Char} (hch : ch ∈ t) :
    ch = '.' ∨ ∃ n, decDigit ch = some n := by
  obtain ⟨a, b, c, d, rfl, na, nb, nc, nd, ha, hb, hc, hd, -⟩ := ipv4_eq_some h
  have hdigit : ∀ {p : List Char} {n : Nat},
      octet zeros p = some n → ch ∈ p → ∃ n, decDigit ch = some n :=
    fun ho hp => digit_of_mem (octet_number ho).1 hp
  simp only [List.mem_append, List.mem_cons] at hch
  rcases hch with hch | rfl | hch | rfl | hch | rfl | hch
  · exact .inr (hdigit ha hch)
  · exact .inl rfl
  · exact .inr (hdigit hb hch)
  · exact .inl rfl
  · exact .inr (hdigit hc hch)
  · exact .inl rfl
  · exact .inr (hdigit hd hch)

/-- An IPv4 address has a dot. -/
theorem dot_mem_ipv4 {t : List Char} {l : List Nat} (h : ipv4 zeros t = some l) : '.' ∈ t := by
  obtain ⟨a, b, c, d, rfl, -⟩ := ipv4_eq_some h
  simp

/-- An IPv4 address has no colon. -/
theorem colon_not_mem_ipv4 {t : List Char} {l : List Nat} (h : ipv4 zeros t = some l) : ':' ∉ t := by
  intro hmem
  rcases ipv4_chars h hmem with heq | ⟨n, hn⟩
  · contradiction
  · contradiction

/-- A group is not a dotted quad. -/
theorem ipv4_of_group {p : List Char} {x : Char} {n : Nat} (h : group (p ++ [x]) = some n) :
    ipv4 zeros p = none := by
  cases hp : ipv4 zeros p with
  | none => rfl
  | some l =>
      have hdot : '.' ∈ p ++ [x] := List.mem_append_left _ (dot_mem_ipv4 hp)
      obtain ⟨d, hd⟩ := digit_of_mem (group_eq_some.mp h).2 hdot
      contradiction

/-! ## groups -/

/-- Groups in front of a list of groups. -/
theorem groups_append (qs : List (List Char)) {ps : List (List Char)} (hps : ps ≠ []) :
    groups zeros (qs ++ ps) = (qs.mapM group).bind fun gs => (groups zeros ps).map (gs ++ ·) := by
  induction qs with
  | nil => simp
  | cons q qs ih =>
      obtain ⟨p, rest, hrest⟩ : ∃ p rest, qs ++ ps = p :: rest := by
        cases hqs : qs ++ ps with
        | nil => simp_all
        | cons p rest => exact ⟨p, rest, rfl⟩
      rw [List.cons_append, hrest, groups, ← hrest, ih, List.mapM_cons]
      simp only [Option.bind_eq_bind, Option.pure_def]
      cases group q with
      | none => rfl
      | some g =>
          cases qs.mapM group with
          | none => rfl
          | some gs => cases groups zeros ps <;> rfl

/-- Nothing but `::` ends a text with a colon. -/
theorem groups_concat_nil (qs : List (List Char)) : groups zeros (qs ++ [[]]) = none := by
  have hempty : groups zeros [[]] = none := rfl
  rw [groups_append qs (by simp), hempty]
  cases qs.mapM group <;> rfl

/-- The last of a list of groups, which may be an IPv4 address. -/
theorem groups_concat {qs : List (List Char)} {p : List Char} {gs : List Nat}
    (h : groups zeros (qs ++ [p]) = some gs) :
    ∃ hs l, qs.mapM group = some hs ∧ groups zeros [p] = some l ∧
      gs = hs ++ l := by
  rw [groups_append qs (by simp), Option.bind_eq_some_iff] at h
  obtain ⟨hs, hqs, h⟩ := h
  obtain ⟨l, hl, rfl⟩ := Option.map_eq_some_iff.mp h
  exact ⟨hs, l, hqs, hl, rfl⟩

/-- The two groups that a dotted quad stands for have 16 bits each. -/
theorem pairs_ipv4 {p : List Char} {quad : List Nat} (h : ipv4 zeros p = some quad) :
    ∃ m n, pairs quad = [m, n] ∧ m < 65536 ∧ n < 65536 := by
  obtain ⟨a, b, c, d, -, na, nb, nc, nd, ha, hb, hc, hd, rfl⟩ := ipv4_eq_some h
  have ha := (octet_number ha).2
  have hb := (octet_number hb).2
  have hc := (octet_number hc).2
  have hd := (octet_number hd).2
  exact ⟨256 * na + nb, 256 * nc + nd, rfl, by omega, by omega⟩

/-- The last piece is a group or a dotted quad. -/
theorem groups_singleton {p : List Char} {l : List Nat} (h : groups zeros [p] = some l) :
    (∃ n, group p = some n ∧ l = [n]) ∨ ∃ quad, ipv4 zeros p = some quad ∧ l = pairs quad := by
  rw [groups] at h
  cases hp : group p with
  | some n =>
      rw [hp] at h
      exact .inl ⟨n, rfl, (Option.some.inj h).symm⟩
  | none =>
      rw [hp] at h
      obtain ⟨quad, hquad, hl⟩ := Option.map_eq_some_iff.mp (h : (ipv4 zeros p).map pairs = some l)
      exact .inr ⟨quad, hquad, hl.symm⟩

/-- A piece that is not the last is a group. -/
theorem groups_cons_cons {p q : List Char} {ps : List (List Char)} {gs : List Nat}
    (h : groups zeros (p :: q :: ps) = some gs) :
    ∃ g gs', group p = some g ∧ groups zeros (q :: ps) = some gs' ∧ gs = g :: gs' := by
  rw [groups] at h
  simp only [Option.bind_eq_bind, Option.bind_eq_some_iff, Option.pure_def,
    Option.some.injEq] at h
  obtain ⟨g, hg, gs', hgs, rfl⟩ := h
  exact ⟨g, gs', hg, hgs, rfl⟩

/-- A short last piece is a group. -/
theorem groups_singleton_short {p : List Char} {l : List Nat} (h : groups zeros [p] = some l)
    (hp : p.length < 7) : ∃ n, group p = some n ∧ l = [n] := by
  rcases groups_singleton h with hgroup | ⟨quad, hquad, -⟩
  · exact hgroup
  · have hlen := ipv4_length hquad
    omega

/-! ## where `::` stands -/

/-- What stands on the two sides of a gap. -/
theorem gap_eq_some {t l r : List Char} (h : gap t = some (l, r)) : t = l ++ ':' :: ':' :: r := by
  induction t generalizing l with
  | nil => contradiction
  | cons c t ih =>
      rw [gap] at h
      split at h
      · next hcolon =>
        obtain ⟨rfl, hhead⟩ := hcolon
        obtain ⟨rfl, rfl⟩ : [] = l ∧ t.tail = r := by simpa using h
        cases t with
        | nil => contradiction
        | cons d t =>
            obtain rfl : d = ':' := by simpa using hhead
            rfl
      · obtain ⟨⟨l', r'⟩, hgap, heq⟩ := Option.map_eq_some_iff.mp h
        obtain ⟨rfl, rfl⟩ : c :: l' = l ∧ r' = r := by simpa using heq
        rw [ih hgap, List.cons_append]

/-- The first gap is not moved by what comes behind it. -/
theorem gap_append {t l r : List Char} (h : gap t = some (l, r)) (u : List Char) :
    gap (t ++ u) = some (l, r ++ u) := by
  induction t generalizing l with
  | nil => contradiction
  | cons c t ih =>
      rw [gap] at h
      rw [List.cons_append, gap]
      split at h
      · next hcolon =>
        obtain ⟨rfl, rfl⟩ : [] = l ∧ t.tail = r := by simpa using h
        cases t with
        | nil => simp at hcolon
        | cons d t => simpa using hcolon
      · next hcolon =>
        obtain ⟨⟨l', r'⟩, hgap, heq⟩ := Option.map_eq_some_iff.mp h
        obtain ⟨rfl, rfl⟩ : c :: l' = l ∧ r' = r := by simpa using heq
        cases t with
        | nil => contradiction
        | cons d t =>
            have hhead : (d :: t ++ u).head? = (d :: t).head? := rfl
            rw [hhead, if_neg hcolon, ih hgap]
            rfl

/-- There is no `::` where the parts have none and do not make one. -/
theorem gap_append_none {t u : List Char} (ht : gap t = none) (hu : gap u = none)
    (hjoin : t.getLast? = some ':' → u.head? ≠ some ':') : gap (t ++ u) = none := by
  induction t with
  | nil => exact hu
  | cons c t ih =>
      rw [gap] at ht
      split at ht
      · contradiction
      · next hcolon =>
        rw [List.cons_append, gap]
        cases t with
        | nil =>
            rw [if_neg fun h => hjoin (by simp [h.1]) h.2]
            simpa using hu
        | cons d t =>
            have hhead : (d :: t ++ u).head? = (d :: t).head? := rfl
            rw [hhead, if_neg hcolon, ih (by simpa using ht) (by simpa using hjoin)]
            rfl

/-- The first `::` is the one that is put behind a text without. -/
theorem gap_here {t : List Char} (ht : gap t = none) (hlast : t.getLast? ≠ some ':') (r : List Char) :
    gap (t ++ ':' :: ':' :: r) = some (t, r) := by
  induction t with
  | nil => simp [gap]
  | cons c t ih =>
      rw [gap] at ht
      split at ht
      · contradiction
      · next hcolon =>
        rw [List.cons_append, gap]
        cases t with
        | nil =>
            have hc : c ≠ ':' := by simpa using hlast
            simp [hc, gap]
        | cons d t =>
            have hhead : (d :: t ++ ':' :: ':' :: r).head? = (d :: t).head? := rfl
            rw [hhead, if_neg hcolon, ih (by simpa using ht) (by simpa using hlast)]
            rfl

/-- Without a colon there is no gap. -/
theorem gap_of_not_mem {t : List Char} (h : ':' ∉ t) : gap t = none := by
  cases hgap : gap t with
  | none => rfl
  | some lr =>
      rw [gap_eq_some hgap] at h
      simp at h

/-- A character that is no colon goes to the last piece. -/
theorem splitOn_concat (t : List Char) {x : Char} (hx : x ≠ ':') :
    ∃ qs p, t.splitOn ':' = qs ++ [p] ∧ (t ++ [x]).splitOn ':' = qs ++ [p ++ [x]] := by
  induction t with
  | nil => exact ⟨[], [], by simp, by simp [List.splitOn_cons_eq_if_modifyHead, hx]⟩
  | cons c t ih =>
      obtain ⟨qs, p, hsplit, hconcat⟩ := ih
      simp only [List.cons_append, List.splitOn_cons_eq_if_modifyHead, hsplit, hconcat]
      by_cases hc : c = ':'
      · exact ⟨[] :: qs, p, by simp [hc], by simp [hc]⟩
      · cases qs with
        | nil => exact ⟨[], c :: p, by simp [hc], by simp [hc]⟩
        | cons q qs => exact ⟨(c :: q) :: qs, p, by simp [hc], by simp [hc]⟩

/-- A colon at the end begins an empty group. -/
theorem splitOn_colon (t : List Char) : (t ++ [':']).splitOn ':' = t.splitOn ':' ++ [[]] := by
  rw [List.splitOn_append_cons_self, List.splitOn_nil]

/-- A part without a colon is one piece. -/
theorem splitOn_append_last (t : List Char) {g : List Char} (hg : ':' ∉ g) :
    (t ++ ':' :: g).splitOn ':' = t.splitOn ':' ++ [g] := by
  rw [List.splitOn_append_cons_self, List.splitOn_eq_singleton hg]

/-! ## cutting a text -/

/-- A list that is shifted by a zero onto itself is zero. -/
theorem eq_zero_of_shift {l : List Nat} {z : Nat} (h : 0 :: l = l ++ [z]) : z = 0 := by
  induction l with
  | nil => simpa using h.symm
  | cons a l ih =>
      obtain ⟨rfl, hrest⟩ : 0 = a ∧ a :: l = l ++ [z] := by simpa using h
      exact ih hrest

/-- A gap stands for one group of zeros at least. -/
theorem fill_eq_some {gl gr v : List Nat} (h : fill gl gr = some v) :
    gl.length + gr.length < 8 ∧
      v = gl ++ (List.replicate (8 - (gl.length + gr.length)) 0 ++ gr) := by
  unfold fill at h
  split at h
  · next hlt => exact ⟨hlt, by simpa using h.symm⟩
  · contradiction

/-- One more group behind the zeros does not change the address only if it is zero. -/
theorem fill_cut {gl hs v : List Nat} {y z g : Nat} (hv : fill gl (hs ++ [y]) = some v)
    (hv' : fill gl (hs ++ [z, g]) = some v) (hy : z = 0 → y = 0) : g = 0 := by
  obtain ⟨hlt, rfl⟩ := fill_eq_some hv
  obtain ⟨hlt', heq⟩ := fill_eq_some hv'
  simp only [List.length_append, List.length_cons, List.length_nil] at hlt hlt' heq
  obtain ⟨k, hk⟩ : ∃ k, 8 - (gl.length + (hs.length + 2)) = k := ⟨_, rfl⟩
  have hzeros : 8 - (gl.length + (hs.length + 1)) = k + 1 := by omega
  have hshift : 0 :: (hs ++ [y]) = hs ++ [z] ++ [g] := by
    simpa [hk, hzeros, List.replicate_succ'] using heq
  obtain ⟨hfront, hlast⟩ : 0 :: hs = hs ++ [z] ∧ y = g := by
    have hsnoc : (0 :: hs) ++ [y] = (hs ++ [z]) ++ [g] := hshift
    obtain ⟨hfront, hlast⟩ := List.append_inj' hsnoc rfl
    exact ⟨hfront, by simpa using hlast⟩
  rw [← hlast]
  exact hy (eq_zero_of_shift hfront)

/-- Where no group stands behind the zeros, a zero may. -/
theorem fill_zero {gl : List Nat} (h : gl.length + 1 < 8) : fill gl [] = fill gl [0] := by
  obtain ⟨k, hk⟩ : ∃ k, 8 - (gl.length + 1) = k := ⟨_, rfl⟩
  have hmore : 8 - gl.length = k + 1 := by omega
  have hlt : gl.length < 8 := by omega
  simp [fill, h, hlt, hk, hmore, List.replicate_succ']

theorem mapM_concat {qs : List (List Char)} {p : List Char} {gs : List Nat}
    (h : (qs ++ [p]).mapM group = some gs) :
    ∃ hs n, qs.mapM group = some hs ∧ group p = some n ∧ gs = hs ++ [n] := by
  simp only [List.mapM_append, List.mapM_cons, List.mapM_nil, Option.bind_eq_bind,
    Option.bind_eq_some_iff, Option.pure_def, Option.some.injEq] at h
  obtain ⟨hs, hqs, _, ⟨n, hn, _, rfl, rfl⟩, rfl⟩ := h
  exact ⟨hs, n, hqs, hn, rfl⟩

/-- Plain groups are groups. -/
theorem groups_of_mapM (zeros : Bool) {ps : List (List Char)} {gs : List Nat} (hps : ps ≠ [])
    (h : ps.mapM group = some gs) : groups zeros ps = some gs := by
  obtain ⟨qs, p, rfl⟩ : ∃ qs p, ps = qs ++ [p] := ⟨_, _, (List.dropLast_concat_getLast hps).symm⟩
  obtain ⟨hs, n, hqs, hn, rfl⟩ := mapM_concat h
  rw [groups_append qs (by simp), hqs, groups, hn]
  rfl

/-- The groups in front of `::`, where there are any, are groups of a text. -/
theorem groups_of_leftGroups (zeros : Bool) {l : List Char} {gl : List Nat} (hl : l ≠ [])
    (h : leftGroups l = some gl) :
    groups zeros (l.splitOn ':') = some gl := by
  rw [leftGroups, if_neg hl] at h
  exact groups_of_mapM zeros (List.splitOn_ne_nil _ _) h

section Cut

variable {t g : List Char} {x : Char} {v : List Nat}

/-- A text of eight groups does not go on behind another colon. -/
theorem ipv6_cut_full (hg : ':' ∉ g) (hlen : g.length < 7) (hgap : gap t = none)
    (h : ipv6 zeros t = some v) : ipv6 zeros (t ++ x :: ':' :: g) ≠ some v := by
  intro h'
  rw [ipv6, hgap] at h
  obtain ⟨hgroups, hcount⟩ := Option.filter_eq_some_iff.mp h
  have hcount : v.length = 8 := of_decide_eq_true hcount
  have hlast : t.getLast? ≠ some ':' := by
    intro hcolon
    obtain ⟨t', rfl⟩ := List.getLast?_eq_some_iff.mp hcolon
    rw [splitOn_colon, groups_concat_nil] at hgroups
    contradiction
  by_cases hx : x = ':'
  · subst hx
    rw [ipv6, gap_here hgap hlast] at h'
    simp only [Option.bind_eq_bind, Option.bind_eq_some_iff] at h'
    obtain ⟨gl, hleft, gr, -, hfill⟩ := h'
    have hne : t ≠ [] := by
      rintro rfl
      contradiction
    have hlt := (fill_eq_some hfill).1
    rw [groups_of_leftGroups zeros hne hleft] at hgroups
    obtain rfl := Option.some.inj hgroups
    omega
  · have hnone : gap (t ++ x :: ':' :: g) = none := by
      refine gap_append_none hgap ?_ fun _ => by simpa using hx
      have hhead : g.head? ≠ some ':' := fun hcolon => hg (List.mem_of_head? hcolon)
      rw [gap, if_neg fun hc => hx hc.1, gap, if_neg fun hc => hhead hc.2, gap_of_not_mem hg]
      rfl
    obtain ⟨qs, p, hsplit, hconcat⟩ := splitOn_concat t hx
    have hpieces : (t ++ x :: ':' :: g).splitOn ':' = qs ++ [p ++ [x]] ++ [g] := by
      rw [← hconcat, ← splitOn_append_last _ hg, List.append_assoc]
      rfl
    rw [ipv6, hnone, hpieces] at h'
    obtain ⟨hgroups', -⟩ := Option.filter_eq_some_iff.mp h'
    obtain ⟨hs, l, hqs, hl, rfl⟩ := groups_concat hgroups'
    obtain ⟨n, -, rfl⟩ := groups_singleton_short hl hlen
    obtain ⟨hs₀, z, hqs₀, hz, rfl⟩ := mapM_concat hqs
    -- without the last group there is one group less, as the piece before it is no quad
    rw [hsplit] at hgroups
    obtain ⟨hs₁, l₁, hqs₁, hl₁, heq⟩ := groups_concat hgroups
    obtain rfl := Option.some.inj (hqs₀.symm.trans hqs₁)
    rcases groups_singleton hl₁ with ⟨y, -, rfl⟩ | ⟨quad, hquad, -⟩
    · have hless := congrArg List.length heq
      simp only [List.length_append, List.length_cons, List.length_nil] at hless
      omega
    · cases (ipv4_of_group hz).symm.trans hquad

/-- Behind `::`, the groups with and without the last one, the colon before it and a
character more. -/
theorem rightGroups_cut {r : List Char} {gr gr' : List Nat} (hg : ':' ∉ g) (hlen : g.length < 7)
    (hright : rightGroups zeros r = some gr)
    (hright' : rightGroups zeros (r ++ x :: ':' :: g) = some gr') :
    ∃ hs z n, gr' = hs ++ [z, n] ∧ group g = some n ∧
      ((gr = [] ∧ hs = []) ∨ ∃ y, gr = hs ++ [y] ∧ (z = 0 → y = 0)) := by
  have hsplit' : (r ++ x :: ':' :: g).splitOn ':' = (r ++ [x]).splitOn ':' ++ [g] := by
    rw [← splitOn_append_last _ hg, List.append_assoc]
    rfl
  rw [rightGroups, if_neg (by simp), hsplit'] at hright'
  obtain ⟨hs', l, hqs, hl, rfl⟩ := groups_concat hright'
  obtain ⟨n, hn, rfl⟩ := groups_singleton_short hl hlen
  have hx : x ≠ ':' := by
    rintro rfl
    rw [splitOn_colon] at hqs
    obtain ⟨_, _, -, hnil, -⟩ := mapM_concat hqs
    contradiction
  obtain ⟨qs, p, hsplit, hconcat⟩ := splitOn_concat r hx
  rw [hconcat] at hqs
  obtain ⟨hs, z, hgroups, hz, rfl⟩ := mapM_concat hqs
  refine ⟨hs, z, n, by simp, hn, ?_⟩
  unfold rightGroups at hright
  split at hright
  · -- nothing stood behind the zeros
    next hnil =>
    obtain rfl : [] = gr := by simpa using hright
    rw [hnil, List.splitOn_nil] at hsplit
    obtain rfl : qs = [] := by
      cases qs with
      | nil => rfl
      | cons q qs => simp at hsplit
    obtain rfl : [] = hs := by simpa using hgroups
    exact .inl ⟨rfl, rfl⟩
  · rw [hsplit] at hright
    obtain ⟨hs₁, l₁, hqs₁, hl₁, rfl⟩ := groups_concat hright
    obtain rfl := Option.some.inj (hgroups.symm.trans hqs₁)
    rcases groups_singleton hl₁ with ⟨y, hy, rfl⟩ | ⟨quad, hquad, -⟩
    · refine .inr ⟨y, rfl, ?_⟩
      rintro rfl
      obtain ⟨m, d, hm, -, hsum⟩ := number_concat_eq_some (group_eq_some.mp hz).2
      have hval := Option.some.inj (hm.symm.trans (group_eq_some.mp hy).2)
      omega
    · cases (ipv4_of_group hz).symm.trans hquad

/-- A text that still denotes the same address without its last group, the colon before it
and a character more ends in a group of zeros. -/
theorem ipv6_cut (hg : ':' ∉ g) (hlen : g.length < 7) (h : ipv6 zeros t = some v)
    (h' : ipv6 zeros (t ++ x :: ':' :: g) = some v) {c : Char} (hc : c ∈ g) : c = '0' := by
  cases hgap : gap t with
  | none => exact absurd h' (ipv6_cut_full hg hlen hgap h)
  | some lr =>
      obtain ⟨l, r⟩ := lr
      rw [ipv6, hgap] at h
      rw [ipv6, gap_append hgap] at h'
      simp only [Option.bind_eq_bind, Option.bind_eq_some_iff] at h h'
      obtain ⟨gl, hleft, gr, hright, hfill⟩ := h
      obtain ⟨gl', hleft', gr', hright', hfill'⟩ := h'
      obtain rfl := Option.some.inj (hleft.symm.trans hleft')
      obtain ⟨hs, z, n, rfl, hn, hcases⟩ := rightGroups_cut hg hlen hright hright'
      have hzero : n = 0 := by
        rcases hcases with ⟨rfl, rfl⟩ | ⟨y, rfl, hy⟩
        · have hlt := (fill_eq_some hfill').1
          simp only [List.length_append, List.length_cons, List.length_nil] at hlt
          rw [fill_zero (by omega), ← List.nil_append [0]] at hfill
          exact fill_cut hfill hfill' fun _ => rfl
        · exact fill_cut hfill hfill' hy
      rw [hzero] at hn
      exact hexDigit_eq_zero (digit_zero (by decide) (group_eq_some.mp hn).2 hc)

end Cut

/-! ## the characters and the length of a text -/

/-- A decimal digit is a hexadecimal digit of the same value. -/
theorem hexDigit_of_decDigit {c : Char} {d : Nat} (h : decDigit c = some d) :
    hexDigit c = some d := by
  unfold decDigit at h
  split at h
  · next hc => rwa [hexDigit, if_pos hc]
  · contradiction

/-- A character of an IPv6 text. -/
def Ipv6Char (c : Char) : Prop := c = ':' ∨ c = '.' ∨ ∃ d, hexDigit c = some d

/-- A character of a text is a colon or lies in one of its groups. -/
theorem mem_splitOn {t : List Char} {c : Char} (hc : c ∈ t) :
    c = ':' ∨ ∃ p ∈ t.splitOn ':', c ∈ p := by
  induction t with
  | nil => simp at hc
  | cons a t ih =>
      rw [List.splitOn_cons_eq_if_modifyHead]
      rcases List.mem_cons.mp hc with rfl | hc
      · by_cases hcolon : c = ':'
        · exact .inl hcolon
        · cases hsplit : t.splitOn ':' with
          | nil => exact absurd hsplit (List.splitOn_ne_nil _ _)
          | cons p ps => exact .inr ⟨c :: p, by simp [hcolon], by simp⟩
      · refine (ih hc).imp_right ?_
        rintro ⟨p, hp, hcp⟩
        by_cases hcolon : a = ':'
        · exact ⟨p, by simp [hcolon, hp], hcp⟩
        · cases hsplit : t.splitOn ':' with
          | nil => exact absurd hsplit (List.splitOn_ne_nil _ _)
          | cons q ps =>
              rw [hsplit] at hp
              rcases List.mem_cons.mp hp with rfl | hp
              · exact ⟨a :: p, by simp [hcolon], List.mem_cons_of_mem a hcp⟩
              · exact ⟨p, by simp [hcolon, hp], hcp⟩

theorem groups_chars {ps : List (List Char)} {gs : List Nat} (h : groups zeros ps = some gs)
    {p : List Char} (hp : p ∈ ps) {c : Char} (hc : c ∈ p) : Ipv6Char c := by
  have hhex : ∀ {n : Nat}, group p = some n → Ipv6Char c :=
    fun hn => .inr (.inr (digit_of_mem (group_eq_some.mp hn).2 hc))
  induction ps generalizing gs with
  | nil => simp at hp
  | cons q ps ih =>
      cases ps with
      | nil =>
          obtain rfl := List.mem_singleton.mp hp
          rcases groups_singleton h with ⟨n, hn, -⟩ | ⟨quad, hquad, -⟩
          · exact hhex hn
          · rcases ipv4_chars hquad hc with hdot | ⟨d, hd⟩
            · exact .inr (.inl hdot)
            · exact .inr (.inr ⟨d, hexDigit_of_decDigit hd⟩)
      | cons q' ps =>
          obtain ⟨g, gs', hg, hgs, -⟩ := groups_cons_cons h
          rcases List.mem_cons.mp hp with rfl | hp
          · exact hhex hg
          · exact ih hgs hp

/-- The characters of an IPv6 address. -/
theorem ipv6_chars {t : List Char} {v : List Nat} (h : ipv6 zeros t = some v) {c : Char} (hc : c ∈ t) :
    Ipv6Char c := by
  have hpieces : ∀ {t : List Char} {gs : List Nat}, groups zeros (t.splitOn ':') = some gs → c ∈ t →
      Ipv6Char c := by
    intro t gs hgs hc
    rcases mem_splitOn hc with hcolon | ⟨p, hp, hcp⟩
    · exact .inl hcolon
    · exact groups_chars hgs hp hcp
  unfold ipv6 at h
  split at h
  · exact hpieces (Option.filter_eq_some_iff.mp h).1 hc
  · next l r hgap =>
    simp only [Option.bind_eq_bind, Option.bind_eq_some_iff] at h
    obtain ⟨gl, hleft, gr, hright, -⟩ := h
    rw [gap_eq_some hgap, List.mem_append, List.mem_cons, List.mem_cons] at hc
    rcases hc with hc | hc | hc | hc
    · exact hpieces (groups_of_leftGroups zeros (List.ne_nil_of_mem hc) hleft) hc
    · exact .inl hc
    · exact .inl hc
    · rw [rightGroups, if_neg (List.ne_nil_of_mem hc)] at hright
      exact hpieces hright hc

theorem group_length {t : List Char} {n : Nat} (h : group t = some n) :
    0 < t.length ∧ t.length ≤ 4 := (group_eq_some.mp h).1

/-- Groups between colons take five characters each. -/
theorem mapM_group_length {ps : List (List Char)} {gs : List Nat} (h : ps.mapM group = some gs) :
    ([':'].intercalate ps).length ≤ 5 * gs.length := by
  induction ps generalizing gs with
  | nil => simp
  | cons p ps ih =>
      simp only [List.mapM_cons, Option.bind_eq_bind, Option.bind_eq_some_iff, Option.pure_def,
        Option.some.injEq] at h
      obtain ⟨g, hg, gs', hgs, rfl⟩ := h
      have hp := group_length hg
      have hps := ih hgs
      cases ps with
      | nil =>
          rw [List.intercalate_singleton, List.length_cons]
          omega
      | cons q ps =>
          rw [List.intercalate_cons_cons]
          simp only [List.length_append, List.length_cons, List.length_nil] at hps ⊢
          omega

/-- A dotted quad is six characters longer than two groups. -/
theorem groups_length {ps : List (List Char)} {gs : List Nat} (h : groups zeros ps = some gs) :
    ([':'].intercalate ps).length ≤ 5 * gs.length + 5 := by
  induction ps generalizing gs with
  | nil => simp
  | cons p ps ih =>
      cases ps with
      | nil =>
          rw [List.intercalate_singleton]
          rcases groups_singleton h with ⟨n, hn, rfl⟩ | ⟨quad, hquad, rfl⟩
          · have hp := group_length hn
            omega
          · obtain ⟨m, n, hpairs, -⟩ := pairs_ipv4 hquad
            have hp := ipv4_length hquad
            rw [hpairs, List.length_cons, List.length_singleton]
            omega
      | cons q ps =>
          obtain ⟨g, gs', hg, hgs, rfl⟩ := groups_cons_cons h
          have hp := group_length hg
          have hps := ih hgs
          rw [List.intercalate_cons_cons]
          simp only [List.length_append, List.length_cons, List.length_nil] at hps ⊢
          omega

/-- The longest text has six groups and a dotted quad. -/
theorem ipv6_length {t : List Char} {v : List Nat} (h : ipv6 zeros t = some v) :
    0 < t.length ∧ t.length ≤ 45 := by
  constructor
  · cases t with
    | nil => contradiction
    | cons c t => simp
  · unfold ipv6 at h
    split at h
    · obtain ⟨hgroups, hcount⟩ := Option.filter_eq_some_iff.mp h
      have hcount : v.length = 8 := of_decide_eq_true hcount
      have hlen := groups_length hgroups
      rw [List.intercalate_splitOn] at hlen
      omega
    · next l r hgap =>
      simp only [Option.bind_eq_bind, Option.bind_eq_some_iff] at h
      obtain ⟨gl, hleft, gr, hright, hfill⟩ := h
      have hlt := (fill_eq_some hfill).1
      have hl : l.length ≤ 5 * gl.length := by
        unfold leftGroups at hleft
        split at hleft
        · next hnil => simp [hnil]
        · have hlen := mapM_group_length hleft
          rwa [List.intercalate_splitOn] at hlen
      have hr : r.length ≤ 5 * gr.length + 5 := by
        unfold rightGroups at hright
        split at hright
        · next hnil => simp [hnil]
        · have hlen := groups_length hright
          rwa [List.intercalate_splitOn] at hlen
      rw [gap_eq_some hgap]
      simp only [List.length_append, List.length_cons]
      omega

/-- A group is a number below 65536. -/
theorem group_lt {t : List Char} {n : Nat} (h : group t = some n) : n < 65536 := by
  obtain ⟨hlen, hn⟩ := group_eq_some.mp h
  have hlt := number_lt (fun _ _ => hexDigit_lt) hn
  have hpow : 16 ^ t.length ≤ 16 ^ 4 := Nat.pow_le_pow_right (by decide) hlen.2
  omega

/-- So are all groups of a list, those of an IPv4 address at its end included. -/
theorem groups_lt {ps : List (List Char)} {gs : List Nat} (h : groups zeros ps = some gs) {n : Nat}
    (hn : n ∈ gs) : n < 65536 := by
  induction ps generalizing gs with
  | nil => contradiction
  | cons p ps ih =>
      cases ps with
      | nil =>
          rcases groups_singleton h with ⟨m, hm, rfl⟩ | ⟨quad, hquad, rfl⟩
          · rw [List.mem_singleton.mp hn]
            exact group_lt hm
          · obtain ⟨a, b, hpairs, ha, hb⟩ := pairs_ipv4 hquad
            rw [hpairs] at hn
            rcases List.mem_cons.mp hn with rfl | hn
            · exact ha
            · rwa [List.mem_singleton.mp hn]
      | cons q ps =>
          obtain ⟨g, gs', hg, hgs, rfl⟩ := groups_cons_cons h
          rcases List.mem_cons.mp hn with rfl | hn
          · exact group_lt hg
          · exact ih hgs hn

/-- An IPv6 text denotes eight numbers of 16 bits. -/
theorem ipv6_groups {t : List Char} {v : List Nat} (h : ipv6 zeros t = some v) :
    v.length = 8 ∧ ∀ n ∈ v, n < 65536 := by
  unfold ipv6 at h
  split at h
  · obtain ⟨hgroups, hcount⟩ := Option.filter_eq_some_iff.mp h
    exact ⟨of_decide_eq_true hcount, fun n => groups_lt hgroups⟩
  · next l r hgap =>
    simp only [Option.bind_eq_bind, Option.bind_eq_some_iff] at h
    obtain ⟨gl, hleft, gr, hright, hfill⟩ := h
    obtain ⟨hlt, rfl⟩ := fill_eq_some hfill
    refine ⟨by simp only [List.length_append, List.length_replicate]; omega, fun n hn => ?_⟩
    simp only [List.mem_append, List.mem_replicate] at hn
    rcases hn with hn | ⟨-, rfl⟩ | hn
    · by_cases hl : l = []
      · rw [leftGroups, if_pos hl] at hleft
        obtain rfl := Option.some.inj hleft
        contradiction
      · exact groups_lt (groups_of_leftGroups zeros hl hleft) hn
    · decide
    · by_cases hr : r = []
      · rw [rightGroups, if_pos hr] at hright
        obtain rfl := Option.some.inj hright
        contradiction
      · rw [rightGroups, if_neg hr] at hright
        exact groups_lt hright hn

/-! ## texts that are not IPv6 -/

/-- A dotted quad is too short for an IPv6 text. -/
theorem ipv6_of_ipv4 {t : List Char} {l : List Nat} (h : ipv4 zeros t = some l) :
    ipv6 zeros t = none := by
  have hcolon := colon_not_mem_ipv4 h
  rw [ipv6, gap_of_not_mem hcolon, List.splitOn_eq_singleton hcolon]
  refine Option.filter_eq_none_iff.mpr fun gs hgs => ?_
  have hlen : gs.length ≤ 2 := by
    rcases groups_singleton hgs with ⟨n, -, rfl⟩ | ⟨quad, hquad, rfl⟩
    · simp
    · obtain ⟨m, n, hpairs, -⟩ := pairs_ipv4 hquad
      exact Nat.le_of_eq (congrArg List.length hpairs)
  simp only [decide_eq_true_eq]
  omega

/-- Only the end of an IPv6 text may be a dotted quad. -/
theorem ipv6_of_ipv4_colon {t : List Char} {l : List Nat} (h : ipv4 zeros t = some l) (g : List Char) :
    ipv6 zeros (t ++ ':' :: g) = none := by
  have hcolon := colon_not_mem_ipv4 h
  have hgroup : group t = none := by
    cases hn : group t with
    | none => rfl
    | some n =>
        obtain ⟨d, hd⟩ := digit_of_mem (group_eq_some.mp hn).2 (dot_mem_ipv4 h)
        contradiction
  have hpieces : ∀ {ps : List (List Char)}, ps ≠ [] → groups zeros (t :: ps) = none := by
    intro ps hps
    cases ps with
    | nil => contradiction
    | cons p ps => rw [groups, hgroup]; rfl
  cases hgap : gap (t ++ ':' :: g) with
  | none =>
      rw [ipv6, hgap, List.splitOn_append_cons_self_of_not_mem hcolon,
        hpieces (List.splitOn_ne_nil _ _)]
      rfl
  | some lr =>
      obtain ⟨l', r⟩ := lr
      have hsame := congrArg (List.splitOn ':') (gap_eq_some hgap)
      rw [List.splitOn_append_cons_self_of_not_mem hcolon, List.splitOn_append_cons_self] at hsame
      have hleft : leftGroups l' = none := by
        cases hl : l'.splitOn ':' with
        | nil => exact absurd hl (List.splitOn_ne_nil _ _)
        | cons p ps =>
            obtain ⟨rfl, -⟩ : t = p ∧ _ := by simpa [hl] using hsame
            have hne : l' ≠ [] := by
              rintro rfl
              obtain ⟨rfl, -⟩ : [] = t ∧ [] = ps := by simpa using hl
              contradiction
            rw [leftGroups, if_neg hne, hl, List.mapM_cons, hgroup]
            rfl
      rw [ipv6, hgap]
      simp only [hleft]
      rfl

/-- The text in front of the first `::` does not end with a colon. -/
theorem gap_left {t l r : List Char} (h : gap t = some (l, r)) : l.getLast? ≠ some ':' := by
  induction t generalizing l with
  | nil => contradiction
  | cons c t ih =>
      rw [gap] at h
      split at h
      · obtain ⟨rfl, -⟩ : [] = l ∧ t.tail = r := by simpa using h
        simp
      · next hcolon =>
        obtain ⟨⟨l', r'⟩, hgap, heq⟩ := Option.map_eq_some_iff.mp h
        obtain ⟨rfl, rfl⟩ : c :: l' = l ∧ r' = r := by simpa using heq
        cases l' with
        | nil =>
            rw [gap_eq_some hgap] at hcolon
            simpa using hcolon
        | cons d l' => simpa using ih hgap

/-- A text does not end with a third colon, or with a colon that stands alone. -/
theorem ipv6_of_colon_end (t : List Char) (c : Char) : ipv6 zeros (t ++ [':', c, ':']) = none := by
  have hend : t ++ [':', c, ':'] = t ++ [':', c] ++ [':'] := by simp
  cases hgap : gap (t ++ [':', c, ':']) with
  | none =>
      rw [ipv6, hgap, hend, splitOn_colon, groups_concat_nil]
      rfl
  | some lr =>
      obtain ⟨l, r⟩ := lr
      have hsame := gap_eq_some hgap
      rcases List.eq_nil_or_concat r with rfl | ⟨r', d, rfl⟩
      · -- then `::` would have stood one character earlier
        have hsnoc : t ++ [':'] ++ [c] ++ [':'] = l ++ [':'] ++ [':'] := by simpa using hsame
        obtain ⟨hfront, -⟩ := List.append_inj' hsnoc rfl
        obtain ⟨rfl, -⟩ := List.append_inj' hfront rfl
        exact absurd (by simp) (gap_left hgap)
      · have hsnoc : t ++ [':', c] ++ [':'] = l ++ ':' :: ':' :: r' ++ [d] := by simpa using hsame
        obtain ⟨-, hlast⟩ := List.append_inj' hsnoc rfl
        obtain rfl : ':' = d := by simpa using hlast
        have hright : rightGroups zeros (r' ++ [':']) = none := by
          rw [rightGroups, if_neg (by simp), splitOn_colon, groups_concat_nil]
        rw [ipv6, hgap]
        simp [hright]

/-! ## printed texts -/

/-- A number is read back from its digits. -/
theorem number_toDigits {digit : Char → Option Nat} {base : Nat} (hbase : 1 < base)
    (hdigit : ∀ d < base, digit (Nat.digitChar d) = some d) (n : Nat) :
    number digit base (Nat.toDigits base n) = some n := by
  induction n using Nat.strongRecOn with
  | ind n ih =>
      rw [Nat.toDigits_eq_if hbase]
      split
      · next hlt =>
        have hone : number digit base ([] ++ [n.digitChar]) = _ := number_concat
        simpa [hdigit n hlt] using hone
      · next hle =>
        have hrest := ih (n / base) (Nat.div_lt_self (by omega) hbase)
        rw [number_concat, hrest, hdigit _ (Nat.mod_lt n (by omega)), Option.bind_some,
          Option.map_some, Nat.div_add_mod]

/-- Digits start with a zero only where they are one. -/
theorem head?_toDigits {n : Nat} (h : n < 256) :
    (Nat.toDigits 10 n).length = 1 ∨ (Nat.toDigits 10 n).head? ≠ some '0' := by
  have hall : ∀ n < 256,
      (Nat.toDigits 10 n).length = 1 ∨ (Nat.toDigits 10 n).head? ≠ some '0' := by decide +kernel
  exact hall n h

/-- A number below 256 in decimal is an octet. -/
theorem octet_toDigits {n : Nat} (h : n < 256) : octet zeros (Nat.toDigits 10 n) = some n := by
  have hlen : (Nat.toDigits 10 n).length ≤ 3 :=
    (Nat.length_toDigits_le_iff (by decide) (by decide)).mpr (by omega)
  rw [octet, if_pos ⟨⟨Nat.length_toDigits_pos, hlen⟩, .inr (head?_toDigits h)⟩,
    number_toDigits (by decide) (by decide)]
  simpa using h

/-- A number below 65536 in hexadecimal is a group. -/
theorem group_toDigits {n : Nat} (h : n < 65536) : group (Nat.toDigits 16 n) = some n := by
  have hlen : (Nat.toDigits 16 n).length ≤ 4 :=
    (Nat.length_toDigits_le_iff (by decide) (by decide)).mpr (by omega)
  rw [group, if_pos ⟨Nat.length_toDigits_pos, hlen⟩, number_toDigits (by decide) (by decide)]

/-- The digits of `n` do not contain what is no digit. -/
theorem not_mem_toDigits (digit : Char → Option Nat) {base : Nat} (hbase : 1 < base)
    (hdigit : ∀ d < base, digit (Nat.digitChar d) = some d) {c : Char} (hc : digit c = none)
    (n : Nat) : c ∉ Nat.toDigits base n := by
  intro hmem
  obtain ⟨d, hd⟩ := digit_of_mem (number_toDigits hbase hdigit n) hmem
  rw [hc] at hd
  contradiction

theorem mapM_map {α β : Type} {f : α → Option β} {p : β → α} {l : List β}
    (h : ∀ n ∈ l, f (p n) = some n) : (l.map p).mapM f = some l := by
  induction l with
  | nil => rfl
  | cons n l ih =>
      rw [List.map_cons, List.mapM_cons, h n (by simp), ih fun m hm => h m (by simp [hm])]
      rfl

/-- Four numbers below 256 between dots are an IPv4 address. -/
theorem ipv4_intercalate (zeros : Bool) {l : List Nat} (hlen : l.length = 4)
    (h : ∀ n ∈ l, n < 256) :
    ipv4 zeros (['.'].intercalate (l.map (Nat.toDigits 10))) = some l := by
  have hdot : ∀ p ∈ l.map (Nat.toDigits 10), '.' ∉ p := by
    intro p hp
    obtain ⟨n, -, rfl⟩ := List.mem_map.mp hp
    exact not_mem_toDigits decDigit (by decide) (by decide) (by decide) n
  rw [ipv4, List.splitOn_intercalate _ hdot (by cases l <;> simp_all),
    mapM_map fun n hn => octet_toDigits (h n hn)]
  simpa using hlen

/-- All eight groups, none of them left out. -/
theorem ipv6_intercalate (zeros : Bool) {l : List Nat} (hlen : l.length = 8)
    (h : ∀ n ∈ l, n < 65536) :
    ipv6 zeros ([':'].intercalate (l.map (Nat.toDigits 16))) = some l := by
  have hne : l.map (Nat.toDigits 16) ≠ [] := by
    cases l <;> simp_all
  have hcolon : ∀ p ∈ l.map (Nat.toDigits 16), ':' ∉ p := by
    intro p hp
    obtain ⟨n, -, rfl⟩ := List.mem_map.mp hp
    exact not_mem_toDigits hexDigit (by decide) (by decide) (by decide) n
  have hsplit := List.splitOn_intercalate _ hcolon hne
  have hgap : gap ([':'].intercalate (l.map (Nat.toDigits 16))) = none := by
    rw [Option.eq_none_iff_forall_ne_some]
    rintro ⟨front, back⟩ hgap
    have hback : (':' :: back).splitOn ':' = [] :: back.splitOn ':' := by
      simpa using List.splitOn_append_cons_self [] back
    rw [gap_eq_some hgap, List.splitOn_append_cons_self, hback] at hsplit
    have hempty : [] ∈ l.map (Nat.toDigits 16) := by simp [← hsplit]
    simp at hempty
  have hgroups := groups_of_mapM zeros hne (mapM_map fun n hn => group_toDigits (h n hn))
  simp only [ipv6, hgap]
  rw [hsplit, hgroups]
  simpa using hlen

end InetText
