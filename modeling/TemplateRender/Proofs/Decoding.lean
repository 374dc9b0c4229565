import Mathlib.Tactic.SplitIfs
import TemplateRender.Encoding.Basic

/-!
Decoding is the exact inverse of the standard encodings. For each encoding the argument is the
same: what starts with the bytes of a character decodes to that character and what the rest
decodes to (`decode_encodeChar_append`), and whatever is decoded has the bytes that were read.
`TextEncoding.Represents` says what the standards ask for, without the arithmetic of the decoder.
-/
namespace TemplateRender

namespace Encoding

theorem scalar?_eq_some_iff {n : Nat} {c : Char} : scalar? n = some c ↔ c.toNat = n := by
  unfold scalar?
  by_cases hvalid : n.isValidChar
  · rw [dif_pos hvalid, Option.some_inj]
    constructor
    · rintro rfl
      rfl
    · rintro rfl
      exact Char.toNat_inj.1 rfl
  · rw [dif_neg hvalid]
    refine ⟨nofun, ?_⟩
    rintro rfl
    exact absurd c.valid hvalid

/-- A character by its code point, in front of what the rest decodes to. -/
theorem prepended_eq_some {n : Nat} {rest : Option (List Char)} {cs : List Char}
    (h : (do
      let c ← scalar? n
      let tail ← rest
      return c :: tail) = some cs) :
    ∃ c tail, c.toNat = n ∧ rest = some tail ∧ cs = c :: tail := by
  obtain ⟨c, hc, h⟩ := Option.bind_eq_some_iff.1 h
  obtain ⟨tail, htail, h⟩ := Option.bind_eq_some_iff.1 h
  exact ⟨c, tail, scalar?_eq_some_iff.1 hc, htail, (Option.some.inj h).symm⟩

/-- The scalar values lie below the surrogates and between these and the last one. -/
theorem toNat_scalar (c : Char) :
    c.toNat < 0xD800 ∨ 0xE000 ≤ c.toNat ∧ c.toNat < 0x110000 := by
  have hvalid : c.toNat.isValidChar := c.valid
  unfold Nat.isValidChar at hvalid
  omega

namespace Utf8

theorem continuation?_eq_some_iff {b : UInt8} {y : Nat} :
    continuation? b = some y ↔ y < 0x40 ∧ b.toNat = 0x80 + y := by
  unfold continuation?
  split
  · simp only [Option.some.injEq]
    omega
  · simp only [reduceCtorEq, false_iff]
    omega

-- Which bytes a character has, by their number: the leading byte tells the number, and the value
-- is too large for fewer bytes.

theorem encodeChar_eq_one_iff {c : Char} {a : UInt8} :
    encodeChar c = [a] ↔ a.toNat < 0x80 ∧ c.toNat = a.toNat := by
  have hbyte := a.toNat_lt
  simp only [encodeChar]
  split_ifs <;> simp only [List.cons.injEq, and_true, and_false, false_iff, reduceCtorEq,
    ← UInt8.toNat_inj, UInt8.toNat_ofNat'] <;> omega

theorem encodeChar_eq_two_iff {c : Char} {a b : UInt8} :
    encodeChar c = [a, b] ↔
      0xC0 ≤ a.toNat ∧ a.toNat < 0xE0 ∧ 0x80 ≤ b.toNat ∧ b.toNat < 0xC0 ∧
        0x80 ≤ c.toNat ∧ c.toNat = (a.toNat - 0xC0) * 0x40 + (b.toNat - 0x80) := by
  have hscalar := toNat_scalar c
  have hbyte := a.toNat_lt
  simp only [encodeChar]
  split_ifs <;> simp only [List.cons.injEq, and_true, and_false, false_iff, reduceCtorEq,
    ← UInt8.toNat_inj, UInt8.toNat_ofNat'] <;> omega

theorem encodeChar_eq_three_iff {c : Char} {a b d : UInt8} :
    encodeChar c = [a, b, d] ↔
      0xE0 ≤ a.toNat ∧ a.toNat < 0xF0 ∧ 0x80 ≤ b.toNat ∧ b.toNat < 0xC0 ∧
        0x80 ≤ d.toNat ∧ d.toNat < 0xC0 ∧ 0x800 ≤ c.toNat ∧
        c.toNat = (a.toNat - 0xE0) * 0x1000 + (b.toNat - 0x80) * 0x40 + (d.toNat - 0x80) := by
  have hscalar := toNat_scalar c
  have hbyte := a.toNat_lt
  simp only [encodeChar]
  split_ifs <;> simp only [List.cons.injEq, and_true, and_false, false_iff, reduceCtorEq,
    ← UInt8.toNat_inj, UInt8.toNat_ofNat'] <;> omega

theorem encodeChar_eq_four_iff {c : Char} {a b d e : UInt8} :
    encodeChar c = [a, b, d, e] ↔
      0xF0 ≤ a.toNat ∧ a.toNat < 0xF8 ∧ 0x80 ≤ b.toNat ∧ b.toNat < 0xC0 ∧
        0x80 ≤ d.toNat ∧ d.toNat < 0xC0 ∧ 0x80 ≤ e.toNat ∧ e.toNat < 0xC0 ∧ 0x10000 ≤ c.toNat ∧
        c.toNat = (a.toNat - 0xF0) * 0x40000 + (b.toNat - 0x80) * 0x1000 +
          (d.toNat - 0x80) * 0x40 + (e.toNat - 0x80) := by
  have hscalar := toNat_scalar c
  have hbyte := a.toNat_lt
  simp only [encodeChar]
  split_ifs <;> simp only [List.cons.injEq, and_true, and_false, false_iff, reduceCtorEq,
    ← UInt8.toNat_inj, UInt8.toNat_ofNat'] <;> omega

theorem exists_encodeChar (c : Char) :
    (∃ a, encodeChar c = [a]) ∨ (∃ a b, encodeChar c = [a, b]) ∨
      (∃ a b d, encodeChar c = [a, b, d]) ∨ ∃ a b d e, encodeChar c = [a, b, d, e] := by
  simp only [encodeChar]
  split_ifs <;> simp

/-- The encoding is the one in which texts are stored. -/
theorem encodeChar_eq_utf8EncodeChar (c : Char) : encodeChar c = String.utf8EncodeChar c := by
  have hscalar := toNat_scalar c
  simp only [encodeChar, String.utf8EncodeChar, Char.toNat_val]
  split_ifs <;> simp only [List.cons.injEq, and_true, ← UInt8.toNat_inj, UInt8.toNat_ofNat'] <;>
    omega

theorem continuation?_of {b : UInt8} (hle : 0x80 ≤ b.toNat) (hlt : b.toNat < 0xC0) :
    continuation? b = some (b.toNat - 0x80) := if_pos ⟨hle, hlt⟩

/-- A sequence of the right length for its character is accepted. -/
theorem accept_of_toNat {least n : Nat} {c : Char} (hleast : least ≤ n) (hn : c.toNat = n)
    (rest : Option (List Char)) : accept least n rest = rest.map (c :: ·) := by
  have hscalar : scalar? n = some c := scalar?_eq_some_iff.2 hn
  rw [accept, if_neg (Nat.not_lt.2 hleast), hscalar]
  cases rest <;> rfl

/-- The bytes of a character, whatever comes after them, give the character first. -/
theorem decode_encodeChar_append (c : Char) (rest : List UInt8) :
    decode (encodeChar c ++ rest) = (decode rest).map (c :: ·) := by
  rcases exists_encodeChar c with ⟨a, h⟩ | ⟨a, b, h⟩ | ⟨a, b, d, h⟩ | ⟨a, b, d, e, h⟩
  · obtain ⟨ha, hc⟩ := encodeChar_eq_one_iff.1 h
    rw [h, List.singleton_append, decode.eq_def]
    simp only [ha, if_true]
    exact accept_of_toNat (Nat.zero_le _) hc _
  · obtain ⟨ha, ha', hb, hb', hleast, hc⟩ := encodeChar_eq_two_iff.1 h
    rw [h, List.cons_append, List.singleton_append, decode.eq_def]
    simp only [continuation?_of hb hb']
    rw [if_neg (by omega), if_neg (by omega), if_pos ha', accept_of_toNat (by omega) hc]
  · obtain ⟨ha, ha', hb, hb', hd, hd', hleast, hc⟩ := encodeChar_eq_three_iff.1 h
    rw [h, List.cons_append, List.cons_append, List.singleton_append, decode.eq_def]
    simp only [continuation?_of hb hb', continuation?_of hd hd']
    rw [if_neg (by omega), if_neg (by omega), if_neg (by omega), if_pos ha',
      accept_of_toNat (by omega) hc]
  · obtain ⟨ha, ha', hb, hb', hd, hd', he, he', hleast, hc⟩ := encodeChar_eq_four_iff.1 h
    rw [h, List.cons_append, List.cons_append, List.cons_append, List.singleton_append,
      decode.eq_def]
    simp only [continuation?_of hb hb', continuation?_of hd hd', continuation?_of he he']
    rw [if_neg (by omega), if_neg (by omega), if_neg (by omega), if_neg (by omega), if_pos ha',
      accept_of_toNat (by omega) hc]

/-- What is accepted has the bytes that were read. -/
theorem encode_of_accept {least n : Nat} {rest : List UInt8} {cs : List Char}
    (h : accept least n (decode rest) = some cs) (own : List UInt8)
    (hown : ∀ c : Char, least ≤ n → c.toNat = n → encodeChar c = own)
    (hrest : ∀ tail, decode rest = some tail → encode tail = rest) :
    encode cs = own ++ rest := by
  unfold accept at h
  split at h
  next => cases h
  next hleast =>
    obtain ⟨c, tail, hc, htail, rfl⟩ := prepended_eq_some h
    have hchar := hown c (Nat.not_lt.1 hleast) hc
    rw [encode, List.flatMap_cons, hchar]
    exact congrArg (own ++ ·) (hrest tail htail)

theorem encode_of_decode {bytes : List UInt8} {cs : List Char} (h : decode bytes = some cs) :
    encode cs = bytes := by
  -- Besides the empty sequence there is one accepting arm for each number of bytes; the others
  -- give nothing.
  fun_induction decode bytes generalizing cs with
  | case1 =>
    obtain rfl := Option.some.inj h
    rfl
  | case2 a rest ha ih =>
    exact encode_of_accept h [a] (fun c _ hc => encodeChar_eq_one_iff.2 ⟨ha, hc⟩) fun _ => ih
  | case6 a _ ha b rest y hb ha' ih =>
    obtain ⟨hy, hb⟩ := continuation?_eq_some_iff.1 hb
    exact encode_of_accept h [a, b]
      (fun c hleast hc => encodeChar_eq_two_iff.2 (by omega)) fun _ => ih
  | case9 a _ ha b y hb ha' d rest z hd hd' ih =>
    obtain ⟨hy, hb⟩ := continuation?_eq_some_iff.1 hb
    obtain ⟨hz, hd⟩ := continuation?_eq_some_iff.1 hd
    exact encode_of_accept h [a, b, d]
      (fun c hleast hc => encodeChar_eq_three_iff.2 (by omega)) fun _ => ih
  | case12 a _ ha b y hb ha' d z hd hd' e rest w he he' ih =>
    obtain ⟨hy, hb⟩ := continuation?_eq_some_iff.1 hb
    obtain ⟨hz, hd⟩ := continuation?_eq_some_iff.1 hd
    obtain ⟨hw, he⟩ := continuation?_eq_some_iff.1 he
    exact encode_of_accept h [a, b, d, e]
      (fun c hleast hc => encodeChar_eq_four_iff.2 (by omega)) fun _ => ih
  | _ => cases h

theorem decode_eq_some_iff {bytes : List UInt8} {cs : List Char} :
    decode bytes = some cs ↔ encode cs = bytes := by
  refine ⟨encode_of_decode, ?_⟩
  rintro rfl
  induction cs with
  | nil => rfl
  | cons c cs ih =>
    rw [encode, List.flatMap_cons, decode_encodeChar_append]
    exact congrArg (Option.map (c :: ·)) ih

end Utf8

namespace Utf16

theorem isHigh_iff {unit : Nat} : isHigh unit = true ↔ 0xD800 ≤ unit ∧ unit ≤ 0xDBFF := by
  simp only [isHigh, Bool.and_eq_true, decide_eq_true_eq]
  omega

theorem isLow_iff {unit : Nat} : isLow unit = true ↔ 0xDC00 ≤ unit ∧ unit ≤ 0xDFFF := by
  simp only [isLow, Bool.and_eq_true, decide_eq_true_eq]
  omega

/-- A unit that is no surrogate, or a high and a low surrogate with ten bits each. -/
theorem encodeChar_cases (c : Char) :
    (encodeChar c = [c.toNat] ∧ c.toNat < 0x10000 ∧ isHigh c.toNat = false) ∨
      ∃ high low, encodeChar c = [high, low] ∧ isHigh high = true ∧ isLow low = true ∧
        c.toNat = 0x10000 + (high - 0xD800) * 0x400 + (low - 0xDC00) := by
  have hscalar := toNat_scalar c
  simp only [encodeChar, isHigh, isLow, Bool.and_eq_true, decide_eq_true_eq,
    Bool.and_eq_false_iff, decide_eq_false_iff_not]
  split_ifs with hsmall
  · refine Or.inl ⟨rfl, hsmall, ?_⟩
    omega
  · refine Or.inr ⟨_, _, rfl, ?_⟩
    omega

/-- The units of a character, whatever comes after them, give the character first. -/
theorem decodeUnits_encodeChar_append (c : Char) (rest : List Nat) :
    decodeUnits (encodeChar c ++ rest) = (decodeUnits rest).map (c :: ·) := by
  rcases encodeChar_cases c with ⟨h, _, hhigh⟩ | ⟨high, low, h, hhigh, hlow, hc⟩
  · have hscalar : scalar? c.toNat = some c := scalar?_eq_some_iff.2 rfl
    rw [h, List.singleton_append, decodeUnits.eq_def]
    simp only [hhigh, Bool.false_eq_true, if_false, hscalar]
    cases decodeUnits rest <;> rfl
  · have hscalar := scalar?_eq_some_iff.2 hc
    rw [h, List.cons_append, List.singleton_append, decodeUnits.eq_def]
    simp only [hhigh, hlow, if_true, hscalar]
    cases decodeUnits rest <;> rfl

theorem encodeChar_of_small {u : Nat} {c : Char} (hu : u < 0x10000) (hc : c.toNat = u) :
    encodeChar c = [u] := by
  rw [encodeChar, hc]
  exact if_pos hu

theorem encodeChar_of_pair {high low : Nat} {c : Char} (hhigh : isHigh high = true)
    (hlow : isLow low = true)
    (hc : c.toNat = 0x10000 + (high - 0xD800) * 0x400 + (low - 0xDC00)) :
    encodeChar c = [high, low] := by
  rw [isHigh_iff] at hhigh
  rw [isLow_iff] at hlow
  have hlarge : ¬c.toNat < 0x10000 := by omega
  simp only [encodeChar, if_neg hlarge, List.cons.injEq, and_true]
  omega

theorem decodeUnits_eq_some_iff {units : List Nat} (hunits : ∀ u ∈ units, u < 0x10000)
    {cs : List Char} : decodeUnits units = some cs ↔ cs.flatMap encodeChar = units := by
  constructor
  · intro h
    fun_induction decodeUnits units generalizing cs with
    | case1 =>
      obtain rfl := Option.some.inj h
      rfl
    | case3 u hhigh v rest hlow ih =>
      obtain ⟨c, tail, hc, htail, rfl⟩ := prepended_eq_some h
      have hrest := ih (fun w hw => hunits w (by simp [hw])) htail
      rw [List.flatMap_cons, encodeChar_of_pair hhigh hlow hc, hrest]
      rfl
    | case5 u rest _ ih =>
      obtain ⟨c, tail, hc, htail, rfl⟩ := prepended_eq_some h
      have hrest := ih (fun w hw => hunits w (by simp [hw])) htail
      have hu := hunits u (List.mem_cons_self ..)
      rw [List.flatMap_cons, encodeChar_of_small hu hc, hrest]
      rfl
    | _ => cases h
  · rintro rfl
    clear hunits
    induction cs with
    | nil => rfl
    | cons c cs ih => rw [List.flatMap_cons, decodeUnits_encodeChar_append, ih, Option.map_some]

/-- The units of a text: one for a character that it holds, and else a high and a low surrogate
with ten bits each of what the character exceeds these by. -/
inductive Spells : List Char → List Nat → Prop where
  | nil : Spells [] []
  | one {c : Char} {cs : List Char} {units : List Nat} (hc : c.toNat ≤ 0xFFFF)
      (rest : Spells cs units) : Spells (c :: cs) (c.toNat :: units)
  | pair {c : Char} {cs : List Char} {high low : Nat} {units : List Nat}
      (hhigh : 0xD800 ≤ high ∧ high ≤ 0xDBFF) (hlow : 0xDC00 ≤ low ∧ low ≤ 0xDFFF)
      (hc : c.toNat = 0x10000 + (high - 0xD800) * 0x400 + (low - 0xDC00))
      (rest : Spells cs units) : Spells (c :: cs) (high :: low :: units)

theorem spells_iff {cs : List Char} {units : List Nat} :
    Spells cs units ↔ cs.flatMap encodeChar = units := by
  constructor
  · intro h
    induction h with
    | nil => rfl
    | one hc _ ih =>
      rw [List.flatMap_cons, encodeChar_of_small (Nat.lt_succ_of_le hc) rfl, ih]
      rfl
    | pair hhigh hlow hc _ ih =>
      have hchar := encodeChar_of_pair (isHigh_iff.2 hhigh) (isLow_iff.2 hlow) hc
      rw [List.flatMap_cons, hchar, ih]
      rfl
  · rintro rfl
    induction cs with
    | nil => exact .nil
    | cons c cs ih =>
      rw [List.flatMap_cons]
      rcases encodeChar_cases c with ⟨h, hc, _⟩ | ⟨high, low, h, hhigh, hlow, hc⟩
      · rw [h]
        exact .one (Nat.le_of_lt_succ hc) ih
      · rw [h]
        exact .pair (isHigh_iff.1 hhigh) (isLow_iff.1 hlow) hc ih

theorem unitBytes_eq_iff {order : ByteOrder} {u : Nat} {a b : UInt8} (hu : u < 0x10000) :
    unitBytes order u = [a, b] ↔ u = unitOf order a b := by
  have ha := a.toNat_lt
  have hb := b.toNat_lt
  cases order <;> simp only [unitBytes, unitOf, List.cons.injEq, and_true, ← UInt8.toNat_inj,
    UInt8.toNat_ofNat'] <;> omega

theorem unitOf_lt (order : ByteOrder) (a b : UInt8) : unitOf order a b < 0x10000 := by
  have ha := a.toNat_lt
  have hb := b.toNat_lt
  cases order <;> simp only [unitOf] <;> omega

theorem units?_eq_some_iff {order : ByteOrder} {bytes : List UInt8} {units : List Nat} :
    units? order bytes = some units ↔
      (∀ u ∈ units, u < 0x10000) ∧ units.flatMap (unitBytes order) = bytes := by
  constructor
  · intro h
    fun_induction units? order bytes generalizing units with
    | case1 =>
      obtain rfl := Option.some.inj h
      simp
    | case2 => cases h
    | case3 a b rest ih =>
      obtain ⟨tail, htail, rfl⟩ := Option.map_eq_some_iff.1 h
      obtain ⟨hbound, hbytes⟩ := ih htail
      have hlt := unitOf_lt order a b
      refine ⟨List.forall_mem_cons.2 ⟨hlt, hbound⟩, ?_⟩
      rw [List.flatMap_cons, hbytes, (unitBytes_eq_iff hlt).2 rfl]
      rfl
  · rintro ⟨hbound, rfl⟩
    induction units with
    | nil => rfl
    | cons u rest ih =>
      obtain ⟨hu, hrest⟩ := List.forall_mem_cons.1 hbound
      obtain ⟨a, b, hpair⟩ : ∃ a b, unitBytes order u = [a, b] := by
        cases order <;> exact ⟨_, _, rfl⟩
      rw [List.flatMap_cons, hpair, List.cons_append, List.singleton_append, units?, ih hrest,
        ← (unitBytes_eq_iff hu).1 hpair, Option.map_some]

/-- A character is made of units that two bytes hold. -/
theorem lt_of_mem_encodeChar {c : Char} {u : Nat} (hu : u ∈ encodeChar c) : u < 0x10000 := by
  have hscalar := toNat_scalar c
  simp only [encodeChar] at hu
  split_ifs at hu <;> simp only [List.mem_cons, List.not_mem_nil, or_false] at hu <;> omega

theorem decode_eq_some_iff {order : ByteOrder} {bytes : List UInt8} {cs : List Char} :
    decode order bytes = some cs ↔ encode order cs = bytes := by
  rw [decode, Option.bind_eq_some_iff]
  constructor
  · rintro ⟨units, hunits, hcs⟩
    obtain ⟨hbound, rfl⟩ := units?_eq_some_iff.1 hunits
    rw [encode, (decodeUnits_eq_some_iff hbound).1 hcs]
  · rintro rfl
    have hbound : ∀ u ∈ cs.flatMap encodeChar, u < 0x10000 := by
      intro u hu
      obtain ⟨c, _, hmem⟩ := List.mem_flatMap.1 hu
      exact lt_of_mem_encodeChar hmem
    exact ⟨_, units?_eq_some_iff.2 ⟨hbound, rfl⟩, (decodeUnits_eq_some_iff hbound).2 rfl⟩

end Utf16

end Encoding

namespace TextEncoding

section Bytewise

variable {limit : Nat} {bytes : List UInt8} {cs : List Char}

/-- Each byte is the code point of its character. -/
theorem encodeBelow_eq_some_iff (hlimit : limit ≤ 0x100) :
    encodeBelow limit cs = some bytes ↔
      (∀ c ∈ cs, c.toNat < limit) ∧ cs.map Char.toNat = bytes.map UInt8.toNat := by
  simp only [encodeBelow, List.all_eq_true, decide_eq_true_eq, Option.ite_none_right_eq_some,
    Option.some.injEq]
  refine and_congr_right fun hbound => ?_
  induction cs generalizing bytes with
  | nil => cases bytes <;> simp
  | cons c cs ih =>
    obtain ⟨hc, hcs⟩ := List.forall_mem_cons.1 hbound
    cases bytes with
    | nil => simp
    | cons b bytes =>
      have hbyte : UInt8.ofNat c.toNat = b ↔ c.toNat = b.toNat := by
        rw [← UInt8.toNat_inj, UInt8.toNat_ofNat', Nat.mod_eq_of_lt (by omega)]
      simp only [List.map_cons, List.cons.injEq, hbyte, ih hcs]

theorem decodeBelow_eq_some_iff :
    decodeBelow limit bytes = some cs ↔
      (∀ c ∈ cs, c.toNat < limit) ∧ cs.map Char.toNat = bytes.map UInt8.toNat := by
  induction bytes generalizing cs with
  | nil =>
    simp only [decodeBelow, Option.some.injEq, List.map_nil, List.map_eq_nil_iff]
    constructor
    · rintro rfl
      simp
    · exact fun h => h.2.symm
  | cons b bytes ih =>
    have hb := b.toNat_lt
    have hchar : (Char.ofNat b.toNat).toNat = b.toNat := by
      rw [Char.ofNat, dif_pos (Or.inl (by omega))]
      rfl
    simp only [decodeBelow, Option.ite_none_right_eq_some, Option.map_eq_some_iff, ih]
    constructor
    · rintro ⟨hlt, tail, ⟨hbound, hcodes⟩, rfl⟩
      have hfirst : (Char.ofNat b.toNat).toNat < limit := by rwa [hchar]
      refine ⟨List.forall_mem_cons.2 ⟨hfirst, hbound⟩, ?_⟩
      rw [List.map_cons, List.map_cons, hchar, hcodes]
    · rintro ⟨hbound, hcodes⟩
      cases cs with
      | nil => simp at hcodes
      | cons c cs =>
        obtain ⟨hc, hcs⟩ := List.forall_mem_cons.1 hbound
        obtain ⟨hcode, hcodes⟩ := List.cons.inj hcodes
        refine ⟨hcode ▸ hc, cs, ⟨hcs, hcodes⟩, ?_⟩
        rw [← hcode, Char.ofNat_toNat]

end Bytewise

theorem decodeChars_eq_some_iff (encoding : TextEncoding) {bytes : List UInt8} {cs : List Char} :
    encoding.decodeChars bytes = some cs ↔ encoding.encodeChars cs = some bytes := by
  have hbytewise : ∀ limit, limit ≤ 0x100 →
      (decodeBelow limit bytes = some cs ↔ encodeBelow limit cs = some bytes) := by
    intro limit hlimit
    rw [decodeBelow_eq_some_iff, encodeBelow_eq_some_iff hlimit]
  cases encoding with
  | utf8 => exact Encoding.Utf8.decode_eq_some_iff.trans Option.some_inj.symm
  | ascii => exact hbytewise 0x80 (by decide)
  | latin1 => exact hbytewise 0x100 (by decide)
  | utf16le => exact Encoding.Utf16.decode_eq_some_iff.trans Option.some_inj.symm
  | utf16be => exact Encoding.Utf16.decode_eq_some_iff.trans Option.some_inj.symm

theorem decode_eq_some_iff (encoding : TextEncoding) {bytes : List UInt8} {text : String} :
    encoding.decode bytes = some text ↔ encoding.encode text = some bytes := by
  rw [decode, encode, Option.map_eq_some_iff, ← decodeChars_eq_some_iff]
  constructor
  · rintro ⟨cs, hcs, rfl⟩
    rw [String.toList_ofList, hcs]
  · exact fun h => ⟨text.toList, h, String.ofList_toList⟩

/-- The bytes that a text has by the standard of the encoding: in UTF-8 those in which texts are
stored, in the two encodings of one byte the code points, in UTF-16 the units in the given order. -/
def Represents (encoding : TextEncoding) (bytes : List UInt8) (cs : List Char) : Prop :=
  match encoding with
  | utf8 => bytes = cs.flatMap String.utf8EncodeChar
  | ascii => (∀ c ∈ cs, c.toNat ≤ 0x7F) ∧ bytes.map UInt8.toNat = cs.map Char.toNat
  | latin1 => (∀ c ∈ cs, c.toNat ≤ 0xFF) ∧ bytes.map UInt8.toNat = cs.map Char.toNat
  | utf16le => ∃ units, Encoding.Utf16.Spells cs units ∧
      bytes = units.flatMap (Encoding.Utf16.unitBytes .little)
  | utf16be => ∃ units, Encoding.Utf16.Spells cs units ∧
      bytes = units.flatMap (Encoding.Utf16.unitBytes .big)

theorem encodeChars_eq_some_iff (encoding : TextEncoding) {bytes : List UInt8} {cs : List Char} :
    encoding.encodeChars cs = some bytes ↔ encoding.Represents bytes cs := by
  have hbytewise : ∀ limit, limit < 0x100 → (encodeBelow (limit + 1) cs = some bytes ↔
      (∀ c ∈ cs, c.toNat ≤ limit) ∧ bytes.map UInt8.toNat = cs.map Char.toNat) := by
    intro limit hlimit
    rw [encodeBelow_eq_some_iff hlimit, eq_comm (a := cs.map Char.toNat)]
    simp only [Nat.lt_succ_iff]
  have hunits : ∀ order, (some (Encoding.Utf16.encode order cs) = some bytes ↔
      ∃ units, Encoding.Utf16.Spells cs units ∧
        bytes = units.flatMap (Encoding.Utf16.unitBytes order)) := by
    intro order
    simp only [Encoding.Utf16.spells_iff, exists_eq_left', Option.some_inj]
    exact eq_comm
  cases encoding with
  | utf8 =>
    rw [encodeChars, Encoding.Utf8.encode, funext Encoding.Utf8.encodeChar_eq_utf8EncodeChar,
      Option.some_inj]
    exact eq_comm
  | ascii => exact hbytewise 0x7F (by decide)
  | latin1 => exact hbytewise 0xFF (by decide)
  | utf16le => exact hunits .little
  | utf16be => exact hunits .big

/-- Bytes decode to the text that has them by the standard, `encode` computes the bytes of a text,
and the bytes that are refused are those of no text. -/
theorem decode_inverts_standard (encoding : TextEncoding) (bytes : List UInt8) :
    (∀ text : String,
      encoding.decode bytes = some text ↔ encoding.Represents bytes text.toList) ∧
    (∀ text : String,
      encoding.encode text = some bytes ↔ encoding.Represents bytes text.toList) ∧
    (encoding.decode bytes = none ↔ ∀ text : String, ¬encoding.Represents bytes text.toList) := by
  have hencode : ∀ text : String,
      encoding.encode text = some bytes ↔ encoding.Represents bytes text.toList :=
    fun _ => encoding.encodeChars_eq_some_iff
  have hdecode : ∀ text : String,
      encoding.decode bytes = some text ↔ encoding.Represents bytes text.toList :=
    fun text => encoding.decode_eq_some_iff.trans (hencode text)
  refine ⟨hdecode, hencode, ?_⟩
  simp only [Option.eq_none_iff_forall_ne_some, ne_eq, hdecode]

/-- A low surrogate before a high one stands for no text. -/
example :
    utf16be.decodeChars [0xD8, 0x00, 0xDC, 0x00] = some [Char.ofNat 0x10000] ∧
      utf16be.decodeChars [0xDC, 0x00, 0xD8, 0x00] = none := by
  decide

end TextEncoding

end TemplateRender
